import JobBinding.Proofs.Text.Decimal
import JobBinding.Proofs.Text.Runs
import JobBinding.Proofs.Toml.Quoted
import JobBinding.Proofs.Toml.Table
import JobBinding.Toml.Reader
import JobBinding.Toml.Writer

/-!
# Written documents are read back

`read?_render`: a document that was written statement by statement is read as these statements, so
its value is what they define. Each part is read with anything after it that cannot continue it,
which is why the lemmas ask what the rest begins with. The budget of a reader is never used up,
since each step takes a character.
-/

namespace JobBinding.Toml

open Text Writer

namespace Reader

variable {c : Char} {cs rest after : Rest} {budget : Nat}

/-! ## Blanks -/

/-- Characters that a reader skips or takes for the end of an array or a table. -/
def skipped : List Char :=
  [' ', '\t', '\n', '\r', '#', ']', '\x7d', '\uFEFF']

/-- Whether a character can begin a key, a value or a header. -/
def Begins (c : Char) : Prop :=
  c ∉ skipped

instance (c : Char) : Decidable (Begins c) :=
  inferInstanceAs (Decidable (¬ _))

lemma begins_of_kind {p : Char → Bool} (hnone : skipped.all (!p ·) = true) (hc : p c = true) :
    Begins c := by
  intro hmem
  have hp := List.all_eq_true.1 hnone c hmem
  rw [hc] at hp
  cases hp

/-- Whether a key, a value or a header can stand here, with nothing to skip before it. -/
def Starts (cs : Rest) : Prop :=
  ∃ c after, cs = c :: after ∧ Begins c

lemma starts_cons (h : Begins c) (rest : Rest) : Starts (c :: rest) :=
  ⟨c, rest, rfl, h⟩

namespace Starts

lemma append (h : Starts cs) (rest : Rest) : Starts (cs ++ rest) := by
  obtain ⟨c, after, rfl, hc⟩ := h
  exact starts_cons hc (after ++ rest)

lemma one_le_length (h : Starts cs) : 1 ≤ cs.length := by
  obtain ⟨c, after, rfl, -⟩ := h
  rw [List.length_cons]
  omega

lemma ne_cons (h : Starts cs) (hc : ¬ Begins c) (after : Rest) : cs ≠ c :: after := by
  rintro rfl
  obtain ⟨d, after', heq, hd⟩ := h
  cases heq
  exact hc hd

lemma skipBlanks_eq (h : Starts cs) : skipBlanks cs = cs := by
  obtain ⟨c, after, rfl, hc⟩ := h
  simp only [Begins, skipped, List.mem_cons, List.not_mem_nil, or_false, not_or] at hc
  rw [skipBlanks, List.dropWhile_cons_of_neg (by simp [isBlank, hc])]

lemma skipSpace_eq (h : Starts cs) : skipSpace false cs = some cs := by
  obtain ⟨c, after, rfl, hc⟩ := h
  simp only [Begins, skipped, List.mem_cons, List.not_mem_nil, or_false, not_or] at hc
  rw [skipSpace] <;> simp [isBlank, hc]

lemma skipLine_eq_none (h : Starts cs) : skipLine cs = none := by
  have hblanks := h.skipBlanks_eq
  obtain ⟨c, after, rfl, hc⟩ := h
  simp only [Begins, skipped, List.mem_cons, List.not_mem_nil, or_false, not_or] at hc
  rw [skipLine, hblanks]
  split
  · simp_all
  · simp only
    split <;> simp_all

end Starts

lemma skipBlanks_space (rest : Rest) : skipBlanks (' ' :: rest) = skipBlanks rest := by
  rw [skipBlanks, List.dropWhile_cons_of_pos (by decide), skipBlanks]

lemma skipSpace_space (rest : Rest) : skipSpace false (' ' :: rest) = skipSpace false rest := by
  rw [skipSpace]
  · rfl
  all_goals simp

/-- The end of an item is not skipped. -/
lemma skipSpace_of_mem (h : c ∈ [',', ']', '\x7d']) (rest : Rest) :
    skipSpace false (c :: rest) = some (c :: rest) := by
  simp only [List.mem_cons, List.not_mem_nil, or_false] at h
  rcases h with rfl | rfl | rfl <;> rfl

lemma skipLine_newline (rest : Rest) : skipLine ('\n' :: rest) = some rest :=
  rfl

/-! ## Keys -/

def BeginsKey (c : Char) : Prop :=
  isBare c = true ∨ c = '"' ∨ c = '\''

lemma BeginsKey.begins (h : BeginsKey c) : Begins c := by
  rcases h with h | rfl | rfl
  · exact begins_of_kind (by decide) h
  · decide
  · decide

lemma BeginsKey.ne_bracket (h : BeginsKey c) : c ≠ '[' := by
  rintro rfl
  rcases h with h | h | h <;> exact absurd h (by decide)

lemma writeKey_eq_cons (t : String) : ∃ c cs, writeKey t = c :: cs ∧ BeginsKey c := by
  unfold writeKey
  dsimp only
  split_ifs with hbare
  · obtain ⟨hne, hall⟩ := hbare
    obtain ⟨c, cs, hcs⟩ := List.exists_cons_of_ne_nil hne
    rw [hcs] at hall ⊢
    exact ⟨c, cs, rfl, Or.inl (List.all_eq_true.1 hall c List.mem_cons_self)⟩
  · exact ⟨'"', _, rfl, Or.inr (Or.inl rfl)⟩
  · exact ⟨'\'', _, rfl, Or.inr (Or.inr rfl)⟩
  · exact ⟨'"', _, rfl, Or.inr (Or.inl rfl)⟩

lemma readSimpleKey_basic (t rest : List Char) :
    readSimpleKey (writeForm t .basic ++ rest) = some (String.ofList t, rest) := by
  simp only [writeForm, List.append_assoc, List.cons_append, List.nil_append, readSimpleKey,
    readLine_escapeLine, Option.map_some]

lemma readSimpleKey_literal {t : List Char} (hplain : ∀ c ∈ t, isPlain c = true)
    (hquote : '\'' ∉ t) (rest : List Char) :
    readSimpleKey (writeForm t .literal ++ rest) = some (String.ofList t, rest) := by
  simp only [writeForm, List.append_assoc, List.cons_append, List.nil_append, readSimpleKey,
    readLiteral_append hplain hquote, Option.map_some]

lemma readSimpleKey_bare {t : List Char} (hne : t ≠ []) (hbare : ∀ c ∈ t, isBare c = true)
    (hrest : Stops isBare rest) : readSimpleKey (t ++ rest) = some (String.ofList t, rest) := by
  have htake := takeWhile_append_of_stops hbare hrest
  have hdrop := dropWhile_append_of_stops hbare hrest
  obtain ⟨c, cs, rfl⟩ := List.exists_cons_of_ne_nil hne
  have hc := hbare c List.mem_cons_self
  rw [readSimpleKey]
  · rw [htake, hdrop, if_neg hne]
  · rintro after h
    obtain ⟨rfl, -⟩ := List.cons_eq_cons.1 h
    exact absurd hc (by decide)
  · rintro after h
    obtain ⟨rfl, -⟩ := List.cons_eq_cons.1 h
    exact absurd hc (by decide)

/-- A written key is read back, unless what follows could belong to a key without quotes. -/
theorem readSimpleKey_writeKey (t : String) (hrest : Stops isBare rest) :
    readSimpleKey (writeKey t ++ rest) = some (t, rest) := by
  unfold writeKey
  dsimp only
  split_ifs with hbare hbasic hliteral
  · obtain ⟨hne, hall⟩ := hbare
    rw [readSimpleKey_bare hne (List.all_eq_true.1 hall) hrest, String.ofList_toList]
  · rw [readSimpleKey_basic, String.ofList_toList]
  · simp only [Bool.and_eq_true, Bool.not_eq_true', List.any_eq_false, Bool.or_eq_true,
      decide_eq_true_eq, not_or, Bool.not_eq_true] at hliteral
    obtain ⟨hcontrol, hquote⟩ := hliteral
    have hplain : ∀ c ∈ t.toList, isPlain c = true := fun c hc =>
      isPlain_of_not_isControl (hcontrol c hc).1 (hcontrol c hc).2
    rw [readSimpleKey_literal hplain (by simpa using hquote), String.ofList_toList]
  · rw [readSimpleKey_basic, String.ofList_toList]

lemma starts_writeKey (t : String) (rest : Rest) : Starts (writeKey t ++ rest) := by
  obtain ⟨c, cs, hkey, hc⟩ := writeKey_eq_cons t
  rw [hkey]
  exact starts_cons hc.begins _

/-- A written dotted key is read back. -/
theorem readKey_writePath {path : List String} (hpath : path ≠ []) (hbudget : path.length ≤ budget)
    (hbare : Stops isBare rest) (hdot : (skipBlanks rest).head? ≠ some '.') :
    readKey budget (writePath path ++ rest) = some (path, skipBlanks rest) := by
  induction budget generalizing path with
  | zero => exact absurd (List.eq_nil_of_length_eq_zero (Nat.le_zero.1 hbudget)) hpath
  | succ budget ih =>
    rcases path with _ | ⟨key, _ | ⟨next, path⟩⟩
    · exact absurd rfl hpath
    · have hkey : writePath [key] = writeKey key := rfl
      rw [readKey, hkey, (starts_writeKey key rest).skipBlanks_eq,
        readSimpleKey_writeKey key hbare]
      simp only [Option.bind_eq_bind, Option.bind_some]
      split
      · next h => exact absurd (congrArg List.head? h) hdot
      · rfl
    · have hkey : writePath (key :: next :: path) ++ rest =
          writeKey key ++ '.' :: (writePath (next :: path) ++ rest) := by
        rw [writePath, List.map_cons, List.map_cons, separated, writePath, List.map_cons]
        · simp
        · simp
      have hnext := ih (List.cons_ne_nil next path) (Nat.le_of_succ_le_succ hbudget)
      have hstop : skipBlanks ('.' :: (writePath (next :: path) ++ rest)) =
          '.' :: (writePath (next :: path) ++ rest) :=
        (starts_cons (by decide) _).skipBlanks_eq
      rw [readKey, hkey, (starts_writeKey key _).skipBlanks_eq,
        readSimpleKey_writeKey key (stops_cons (by decide) _)]
      simp only [Option.bind_eq_bind, Option.bind_some, hstop, hnext]
      rfl

lemma writePath_cons_cons (key next : String) (path : List String) :
    writePath (key :: next :: path) = writeKey key ++ '.' :: writePath (next :: path) := by
  rw [writePath, List.map_cons, List.map_cons, separated, writePath, List.map_cons]
  · simp
  · simp

lemma length_le_length_writePath (path : List String) : path.length ≤ (writePath path).length := by
  induction path with
  | nil => exact Nat.le_refl 0
  | cons key path ih =>
    obtain ⟨c, cs, hkey, -⟩ := writeKey_eq_cons key
    cases path with
    | nil =>
      show 1 ≤ (writeKey key).length
      rw [hkey, List.length_cons]
      omega
    | cons next path =>
      rw [writePath_cons_cons, hkey]
      simp only [List.length_append, List.length_cons] at ih ⊢
      omega

/-! ## Numbers -/

lemma hexValue?_of_isDigit (h : c.isDigit = true) : hexValue? c = some (c.toNat - 48) := by
  simp only [Char.isDigit, Bool.and_eq_true, decide_eq_true_eq] at h
  exact if_pos h

lemma readDigits_of_isDigit {digits : List Char} (hne : digits ≠ [])
    (hdigits : ∀ c ∈ digits, c.isDigit = true) (n : Nat) :
    readDigits 10 n digits = some (digits.foldl (fun n d => n * 10 + (d.toNat - 48)) n) := by
  induction digits generalizing n with
  | nil => exact absurd rfl hne
  | cons c digits ih =>
    obtain ⟨hc, hrest⟩ := List.forall_mem_cons.1 hdigits
    have hvalue := hexValue?_of_isDigit hc
    have hlt : c.toNat - 48 < 10 := by
      have h9 : c.toNat ≤ 57 := by
        simp only [Char.isDigit, Bool.and_eq_true, decide_eq_true_eq] at hc
        exact hc.2
      omega
    cases digits with
    | nil =>
      rw [readDigits, hvalue, Option.bind_eq_bind, Option.bind_some, if_pos hlt]
      rfl
    | cons d digits =>
      have hd : d ≠ '_' := by
        rintro rfl
        exact absurd (hrest '_' List.mem_cons_self) (by decide)
      rw [readDigits, hvalue, Option.bind_eq_bind, Option.bind_some, if_pos hlt,
        ih (List.cons_ne_nil d digits) hrest]
      · rfl
      · exact List.cons_ne_nil d digits
      · intro after h
        exact hd (List.cons_eq_cons.1 h).1

lemma readDecimal_toDigits (n : Nat) : readDecimal (Nat.toDigits 10 n) = some n := by
  by_cases hn : n = 0
  · subst hn
    rfl
  · have hhead : (Nat.toDigits 10 n).head? ≠ some '0' := fun h =>
      hn (Decimal.eq_zero_of_head?_toDigits h)
    have hdigits : ∀ c ∈ Nat.toDigits 10 n, c.isDigit = true := fun c hc =>
      Decimal.isDigit_of_mem_toDigits hc
    have hne := ne_cons_of_head?_ne hhead
    rw [readDecimal, readDigits_of_isDigit Nat.toDigits_ne_nil hdigits]
    · exact congrArg some (Decimal.value_toDigits n)
    · exact hne []
    · exact hne

lemma exists_isDigit_of_toDigits (n : Nat) :
    ∃ c cs, Nat.toDigits 10 n = c :: cs ∧ c.isDigit = true := by
  obtain ⟨c, cs, h⟩ := List.exists_cons_of_ne_nil (Nat.toDigits_ne_nil (b := 10) (n := n))
  refine ⟨c, cs, h, Decimal.isDigit_of_mem_toDigits (n := n) ?_⟩
  rw [h]
  exact List.mem_cons_self

lemma readInteger_toDigits (n : Nat) : readInteger (Nat.toDigits 10 n) = some (n : Int) := by
  by_cases hn : n = 0
  · subst hn
    rfl
  -- A numeral but zero begins neither with a zero nor with a sign, so it is read as decimal.
  · have hhead : (Nat.toDigits 10 n).head? ≠ some '0' := fun h =>
      hn (Decimal.eq_zero_of_head?_toDigits h)
    have hne := ne_cons_of_head?_ne hhead
    have hsign : ∀ d : Char, d.isDigit = false → ∀ after, Nat.toDigits 10 n ≠ d :: after := by
      intro d hd after h
      have hmem : d ∈ Nat.toDigits 10 n := by
        rw [h]
        exact List.mem_cons_self
      rw [Decimal.isDigit_of_mem_toDigits hmem] at hd
      cases hd
    rw [readInteger, readDecimal_toDigits]
    · rfl
    · exact fun after => hne _
    · exact fun after => hne _
    · exact fun after => hne _
    · exact hsign '+' (by decide)
    · exact hsign '-' (by decide)

lemma readInteger_writeInteger (n : Int) : readInteger (writeInteger n) = some n := by
  rw [writeInteger]
  split_ifs with h
  · have habs : -(n.natAbs : Int) = n := by omega
    rw [readInteger, readDecimal_toDigits]
    exact congrArg some habs
  · have habs : (n.natAbs : Int) = n := by omega
    rw [readInteger_toDigits, habs]

lemma isWordChar_of_mem_writeInteger {n : Int} (h : c ∈ writeInteger n) :
    isWordChar c = true := by
  have hdigit : c ∈ Nat.toDigits 10 n.natAbs → isWordChar c = true := by
    intro hmem
    have hc := Decimal.isDigit_of_mem_toDigits hmem
    simp [isWordChar, Char.isAlphanum, hc]
  rw [writeInteger] at h
  split_ifs at h
  · rcases List.mem_cons.1 h with rfl | hmem
    · decide
    · exact hdigit hmem
  · exact hdigit h

/-! ## Values -/

/-- Whether a character can follow a written value: it cannot be taken for a part of it. -/
def Follows (c : Char) : Prop :=
  c ∈ [',', ']', '\x7d', '\n']

instance (c : Char) : Decidable (Follows c) :=
  inferInstanceAs (Decidable (_ ∈ _))

lemma Follows.stops (h : Follows c) (rest : Rest) : Stops isWordChar (c :: rest) := by
  have hnone : [',', ']', '\x7d', '\n'].all (!isWordChar ·) = true := by decide
  exact stops_cons (by simpa using List.all_eq_true.1 hnone c h) rest

lemma Follows.ne_quote (h : Follows c) : c ≠ '"' ∧ c ≠ '\'' := by
  constructor
  · rintro rfl
    exact absurd h (by decide)
  · rintro rfl
    exact absurd h (by decide)

lemma writeInteger_eq_cons (n : Int) :
    ∃ c cs, writeInteger n = c :: cs ∧ (c = '-' ∨ c.isDigit = true) := by
  rw [writeInteger]
  split_ifs
  · exact ⟨'-', _, rfl, Or.inl rfl⟩
  · obtain ⟨c, cs, h, hc⟩ := exists_isDigit_of_toDigits n.natAbs
    exact ⟨c, cs, h, Or.inr hc⟩

lemma writeText_eq_cons (t : String) : ∃ c cs, writeText t = c :: cs ∧ (c = '"' ∨ c = '\'') := by
  rw [writeText]
  cases formOf t.toList with
  | basic => exact ⟨'"', _, rfl, Or.inl rfl⟩
  | literal => exact ⟨'\'', _, rfl, Or.inr rfl⟩
  | linesBasic => exact ⟨'"', _, rfl, Or.inl rfl⟩
  | linesLiteral => exact ⟨'\'', _, rfl, Or.inr rfl⟩

lemma starts_writeValue (v : Value) : Starts (writeValue v) := by
  cases v with
  | text t =>
    obtain ⟨c, cs, h, hc⟩ := writeText_eq_cons t
    rw [writeValue, h]
    rcases hc with rfl | rfl
    · exact starts_cons (by decide) cs
    · exact starts_cons (by decide) cs
  | integer n =>
    obtain ⟨c, cs, h, hc⟩ := writeInteger_eq_cons n
    rw [writeValue, h]
    rcases hc with rfl | hc
    · exact starts_cons (by decide) cs
    · exact starts_cons (begins_of_kind (by decide) hc) cs
  | boolean b => cases b <;> exact starts_cons (by decide) _
  | array items => exact starts_cons (by decide) _
  | table fields => exact starts_cons (by decide) _

lemma readValue_text (t : String) (hc : Follows c) (rest : Rest) :
    readValue (budget + 1) (writeText t ++ c :: rest) = some (.text t, c :: rest) := by
  have hread : readText (writeText t ++ c :: rest) = some (t.toList, c :: rest) :=
    readText_writeText t (by simpa using hc.ne_quote.1) (by simpa using hc.ne_quote.2)
  obtain ⟨d, ds, h, hd⟩ := writeText_eq_cons t
  rw [h, List.cons_append] at hread ⊢
  rw [readValue, if_pos hd, hread, Option.map_some]
  · simp only [String.ofList_toList]
  · rcases hd with rfl | rfl <;> decide
  · rcases hd with rfl | rfl <;> decide

/-- A word or a number is read whole. -/
lemma readValue_word {word : List Char} (hne : word ≠ [])
    (hword : word.all isWordChar = true) (hc : Follows c) (rest : Rest) {v : Value}
    (h : (if word = "true".toList then some (.boolean true)
      else if word = "false".toList then some (.boolean false)
      else (readInteger word).map Value.integer) = some v) :
    readValue (budget + 1) (word ++ c :: rest) = some (v, c :: rest) := by
  rw [List.all_eq_true] at hword
  have hread : readWord (word ++ c :: rest) = some (v, c :: rest) := by
    rw [readWord, takeWhile_append_of_stops hword (hc.stops rest),
      dropWhile_append_of_stops hword (hc.stops rest)]
    exact congrArg (Option.map (·, c :: rest)) h
  obtain ⟨d, ds, rfl⟩ := List.exists_cons_of_ne_nil hne
  have hd : ∀ e, isWordChar e = false → d ≠ e := by
    rintro e he rfl
    rw [hword d List.mem_cons_self] at he
    cases he
  rw [List.cons_append] at hread ⊢
  rw [readValue, if_neg, hread]
  · rw [not_or]
    exact ⟨hd '"' (by decide), hd '\'' (by decide)⟩
  · exact hd '[' (by decide)
  · exact hd '\x7b' (by decide)

lemma readValue_boolean (b : Bool) (hc : Follows c) (rest : Rest) :
    readValue (budget + 1) (writeValue (.boolean b) ++ c :: rest) =
      some (.boolean b, c :: rest) := by
  cases b with
  | true =>
    rw [writeValue]
    exact readValue_word (by decide) (by decide) hc rest rfl
  | false =>
    rw [writeValue]
    exact readValue_word (by decide) (by decide) hc rest rfl

lemma readValue_integer (n : Int) (hc : Follows c) (rest : Rest) :
    readValue (budget + 1) (writeInteger n ++ c :: rest) = some (.integer n, c :: rest) := by
  obtain ⟨d, ds, h, hd⟩ := writeInteger_eq_cons n
  have hword : ∀ e es, e ≠ '-' → e.isDigit = false → writeInteger n ≠ e :: es := by
    intro e es hminus hdigit heq
    obtain ⟨rfl, -⟩ := List.cons_eq_cons.1 (h.symm.trans heq)
    rcases hd with rfl | hd
    · exact hminus rfl
    · rw [hdigit] at hd
      cases hd
  have htrue : writeInteger n ≠ "true".toList := hword 't' _ (by decide) (by decide)
  have hfalse : writeInteger n ≠ "false".toList := hword 'f' _ (by decide) (by decide)
  refine readValue_word ?_ ?_ hc rest ?_
  · rw [h]
    exact List.cons_ne_nil d ds
  · exact List.all_eq_true.2 fun d hd => isWordChar_of_mem_writeInteger hd
  · rw [if_neg htrue, if_neg hfalse, readInteger_writeInteger, Option.map_some]

/-! ## Arrays and inline tables -/

lemma readItems_space (budget : Nat) (rest : Rest) :
    readItems budget (' ' :: rest) = readItems budget rest := by
  cases budget with
  | zero => rw [readItems, readItems]
  | succ budget => rw [readItems, readItems, skipSpace_space]

lemma readFields_space (budget : Nat) (rest : Rest) :
    readFields budget (' ' :: rest) = readFields budget rest := by
  cases budget with
  | zero => rw [readFields, readFields]
  | succ budget => rw [readFields, readFields, skipSpace_space]

lemma readItems_last {item : Value} (hstarts : Starts cs)
    (hread : readValue budget cs = some (item, ']' :: rest)) :
    readItems (budget + 1) cs = some ([item], rest) := by
  have hend : skipSpace false (']' :: rest) = some (']' :: rest) :=
    skipSpace_of_mem (by decide) rest
  rw [readItems, hstarts.skipSpace_eq]
  simp only [Option.bind_eq_bind, Option.bind_some]
  split
  · exact absurd rfl (hstarts.ne_cons (by decide) _)
  · rw [hread, Option.bind_some, hend, Option.bind_some]
    rfl

lemma readItems_more {item : Value} {items : List Value} (hstarts : Starts cs)
    (hread : readValue budget cs = some (item, ',' :: rest))
    (hrest : readItems budget rest = some (items, after)) :
    readItems (budget + 1) cs = some (item :: items, after) := by
  have hcomma : skipSpace false (',' :: rest) = some (',' :: rest) :=
    skipSpace_of_mem (by decide) rest
  rw [readItems, hstarts.skipSpace_eq]
  simp only [Option.bind_eq_bind, Option.bind_some]
  split
  · exact absurd rfl (hstarts.ne_cons (by decide) _)
  · rw [hread, Option.bind_some, hcomma, Option.bind_some]
    simp only [hrest, Option.bind_some]
    rfl

lemma readFields_last {key : List String} {v : Value} (hstarts : Starts cs)
    (hkey : readKey budget cs = some (key, '=' :: after))
    (hread : readValue budget (skipBlanks after) = some (v, '\x7d' :: rest)) :
    readFields (budget + 1) cs = some ([(key, v)], rest) := by
  have hend : skipSpace false ('\x7d' :: rest) = some ('\x7d' :: rest) :=
    skipSpace_of_mem (by decide) rest
  rw [readFields, hstarts.skipSpace_eq]
  simp only [Option.bind_eq_bind, Option.bind_some]
  split
  · exact absurd rfl (hstarts.ne_cons (by decide) _)
  · rw [hkey, Option.bind_some]
    simp only [hread, Option.bind_some, hend]
    rfl

lemma readFields_more {key : List String} {v : Value} {fields : List (List String × Value)}
    {after' : Rest} (hstarts : Starts cs) (hkey : readKey budget cs = some (key, '=' :: after))
    (hread : readValue budget (skipBlanks after) = some (v, ',' :: rest))
    (hrest : readFields budget rest = some (fields, after')) :
    readFields (budget + 1) cs = some ((key, v) :: fields, after') := by
  have hcomma : skipSpace false (',' :: rest) = some (',' :: rest) :=
    skipSpace_of_mem (by decide) rest
  rw [readFields, hstarts.skipSpace_eq]
  simp only [Option.bind_eq_bind, Option.bind_some]
  split
  · exact absurd rfl (hstarts.ne_cons (by decide) _)
  · rw [hkey, Option.bind_some]
    simp only [hread, Option.bind_some, hcomma, hrest]
    rfl

/-- The key of a written assignment is read up to the equals sign. -/
lemma readKey_assignment {path : List String} (hpath : path ≠ []) (hbudget : path.length ≤ budget)
    (rest : Rest) :
    readKey budget (writePath path ++ " = ".toList ++ rest) = some (path, '=' :: ' ' :: rest) := by
  have hblank : skipBlanks (" = ".toList ++ rest) = '=' :: ' ' :: rest :=
    (skipBlanks_space _).trans (starts_cons (by decide) _).skipBlanks_eq
  have hbare : Stops isBare (" = ".toList ++ rest) := stops_cons (by decide) _
  have hdot : (skipBlanks (" = ".toList ++ rest)).head? ≠ some '.' := by
    rw [hblank]
    exact nofun
  rw [List.append_assoc, readKey_writePath hpath hbudget hbare hdot, hblank]

lemma skipBlanks_space_writeValue (v : Value) (rest : Rest) :
    skipBlanks (' ' :: (writeValue v ++ rest)) = writeValue v ++ rest := by
  rw [skipBlanks_space, ((starts_writeValue v).append rest).skipBlanks_eq]

lemma separated_cons_cons (separator t u : List Char) (rest : List (List Char)) :
    separated separator (t :: u :: rest) = t ++ separator ++ separated separator (u :: rest) := by
  rw [separated]
  simp

mutual

/-- Whether the inline tables in a value have distinct keys. -/
def Proper : Value → Prop
  | .array items => ProperItems items
  | .table fields => (fields.map (·.1)).Nodup ∧ ProperFields fields
  | _ => True

def ProperItems : List Value → Prop
  | [] => True
  | item :: rest => Proper item ∧ ProperItems rest

def ProperFields : List (String × Value) → Prop
  | [] => True
  | (_, v) :: rest => Proper v ∧ ProperFields rest

end

lemma length_le_length_separated (separator t : List Char) (rest : List (List Char)) :
    t.length ≤ (separated separator (t :: rest)).length := by
  cases rest with
  | nil => exact Nat.le_refl _
  | cons u rest =>
    rw [separated_cons_cons, List.length_append, List.length_append]
    omega

mutual

/-- A written value is read back. -/
theorem readValue_writeValue (v : Value) (hv : Proper v) {c : Char} (hc : Follows c) (rest : Rest)
    {budget : Nat} (hbudget : 2 * (writeValue v).length ≤ budget) :
    readValue budget (writeValue v ++ c :: rest) = some (v, c :: rest) := by
  have hlength := (starts_writeValue v).one_le_length
  -- The budget is twice the length of what is written, so that each bracket and each separator pays
  -- for the calls that read what it encloses.
  obtain ⟨budget, rfl⟩ : ∃ b, budget = b + 1 := ⟨budget - 1, by omega⟩
  cases v with
  | text t => exact readValue_text t hc rest
  | integer n => exact readValue_integer n hc rest
  | boolean b => exact readValue_boolean b hc rest
  | array items =>
    rw [Proper] at hv
    rw [writeValue] at hbudget ⊢
    simp only [List.length_cons, List.length_append, List.length_nil] at hbudget
    have hread : readItems budget (separated [',', ' '] (writeItems items) ++ ']' :: c :: rest) =
        some (items, c :: rest) := readItems_writeItems items hv (c :: rest) (by omega)
    simp only [List.cons_append, List.append_assoc, List.nil_append]
    rw [readValue, hread, Option.map_some]
  | table fields =>
    obtain ⟨hdistinct, hfields⟩ := hv
    rw [writeValue] at hbudget ⊢
    simp only [List.length_cons, List.length_append, List.length_nil] at hbudget
    have hread : readFields budget
        (separated [',', ' '] (writeFields fields) ++ '\x7d' :: c :: rest) =
        some (fields.map fun field => ([field.1], field.2), c :: rest) :=
      readFields_writeFields fields hfields (c :: rest) (by omega)
    simp only [List.cons_append, List.append_assoc, List.nil_append]
    rw [readValue, hread, Option.bind_eq_bind, Option.bind_some]
    simp only [fieldsOf?_of_nodup hdistinct]
    rfl

/-- The written items of an array are read back. -/
theorem readItems_writeItems (items : List Value) (h : ProperItems items) (rest : Rest)
    {budget : Nat} (hbudget : 2 * (separated [',', ' '] (writeItems items)).length + 1 ≤ budget) :
    readItems budget (separated [',', ' '] (writeItems items) ++ ']' :: rest) =
      some (items, rest) := by
  -- An empty array, a last item, and an item before a comma are the three cases of the reader.
  obtain ⟨budget, rfl⟩ : ∃ b, budget = b + 1 := ⟨budget - 1, by omega⟩
  rcases items with _ | ⟨item, _ | ⟨next, items⟩⟩
  · rfl
  · rw [ProperItems] at h
    rw [writeItems, writeItems, separated] at hbudget ⊢
    exact readItems_last ((starts_writeValue item).append _)
      (readValue_writeValue item h.1 (by decide) rest (by omega))
  · rw [ProperItems] at h
    rw [writeItems, writeItems, separated_cons_cons] at hbudget ⊢
    rw [← writeItems] at hbudget ⊢
    simp only [List.length_cons, List.length_append, List.length_nil] at hbudget
    have hrest : readItems budget
        (separated [',', ' '] (writeItems (next :: items)) ++ ']' :: rest) =
          some (next :: items, rest) := readItems_writeItems (next :: items) h.2 rest (by omega)
    simp only [List.append_assoc, List.cons_append, List.nil_append]
    exact readItems_more ((starts_writeValue item).append _)
      (readValue_writeValue item h.1 (by decide) _ (by omega))
      ((readItems_space budget _).trans hrest)

/-- The written fields of an inline table are read back. -/
theorem readFields_writeFields (fields : List (String × Value)) (h : ProperFields fields)
    (rest : Rest) {budget : Nat}
    (hbudget : 2 * (separated [',', ' '] (writeFields fields)).length + 1 ≤ budget) :
    readFields budget (separated [',', ' '] (writeFields fields) ++ '\x7d' :: rest) =
      some (fields.map fun field => ([field.1], field.2), rest) := by
  obtain ⟨budget, rfl⟩ : ∃ b, budget = b + 1 := ⟨budget - 1, by omega⟩
  rcases fields with _ | ⟨⟨key, v⟩, fields⟩
  · rfl
  rw [ProperFields] at h
  rw [writeFields] at hbudget ⊢
  have hlength : 2 * (writeValue v).length + 6 ≤ budget := by
    have hfield := length_le_length_separated [',', ' ']
      (writeKey key ++ " = ".toList ++ writeValue v) (writeFields fields)
    have hequals : " = ".toList.length = 3 := rfl
    rw [List.length_append, List.length_append] at hfield
    omega
  -- Key and value are read back whatever follows; the cases differ in what comes behind them.
  have hkey (text : Rest) :
      readKey budget (writeKey key ++ (" = ".toList ++ (writeValue v ++ text))) =
        some ([key], '=' :: ' ' :: (writeValue v ++ text)) := by
    rw [← List.append_assoc]
    exact readKey_assignment (List.cons_ne_nil key []) (show 1 ≤ budget by omega) _
  have hread {d : Char} (hd : Follows d) (text : Rest) :
      readValue budget (skipBlanks (' ' :: (writeValue v ++ d :: text))) = some (v, d :: text) := by
    rw [skipBlanks_space_writeValue]
    exact readValue_writeValue v h.1 hd text (by omega)
  rcases fields with _ | ⟨⟨key', v'⟩, fields⟩
  · rw [writeFields, separated]
    simp only [List.append_assoc]
    exact readFields_last (starts_writeKey key _) (hkey _) (hread (by decide) rest)
  · rw [writeFields, separated_cons_cons, ← writeFields] at hbudget ⊢
    simp only [List.length_cons, List.length_append, List.length_nil] at hbudget
    have hrest : readFields budget
        (separated [',', ' '] (writeFields ((key', v') :: fields)) ++ '\x7d' :: rest) =
          some (((key', v') :: fields).map fun field => ([field.1], field.2), rest) :=
      readFields_writeFields ((key', v') :: fields) h.2 rest (by omega)
    simp only [List.append_assoc, List.cons_append, List.nil_append]
    exact readFields_more (starts_writeKey key _) (hkey _) (hread (by decide) _)
      ((readFields_space budget _).trans hrest)

end

/-! ## Statements -/

/-- Whether a statement has a key, and a value that can be read back. -/
def ProperStatement : Statement → Prop
  | .assign key v => key ≠ [] ∧ Proper v
  | .header key => key ≠ []
  | .element key => key ≠ []

lemma writePath_eq_cons {path : List String} (hpath : path ≠ []) :
    ∃ c cs, writePath path = c :: cs ∧ BeginsKey c := by
  rcases path with _ | ⟨key, _ | ⟨next, path⟩⟩
  · exact absurd rfl hpath
  · exact writeKey_eq_cons key
  · obtain ⟨c, cs, h, hc⟩ := writeKey_eq_cons key
    exact ⟨c, _, by rw [writePath_cons_cons, h, List.cons_append], hc⟩

lemma writePath_append_ne {path : List String} (hpath : path ≠ []) (rest after : Rest) :
    writePath path ++ rest ≠ '[' :: after := by
  obtain ⟨c, cs, h, hc⟩ := writePath_eq_cons hpath
  rw [h]
  intro heq
  exact hc.ne_bracket (List.cons_eq_cons.1 heq).1

lemma starts_writeStatement {s : Statement} (hs : ProperStatement s) :
    Starts (writeStatement s) := by
  cases s with
  | assign key v =>
    obtain ⟨c, cs, h, hc⟩ := writePath_eq_cons hs.1
    rw [writeStatement, h]
    exact starts_cons hc.begins _
  | header key => exact starts_cons (by decide) _
  | element key => exact starts_cons (by decide) _

/-- The key of a written header is read up to the bracket. -/
lemma readKey_header {path : List String} (hpath : path ≠ []) (hbudget : path.length ≤ budget)
    (rest : Rest) :
    readKey budget (writePath path ++ ']' :: rest) = some (path, ']' :: rest) := by
  have hblank : skipBlanks (']' :: rest) = ']' :: rest := by
    rw [skipBlanks, List.dropWhile_cons_of_neg (by decide)]
  have hdot : (skipBlanks (']' :: rest)).head? ≠ some '.' := by
    rw [hblank]
    exact nofun
  rw [readKey_writePath hpath hbudget (stops_cons (by decide) _) hdot, hblank]

/-- A written statement is read back, up to the end of its line. -/
theorem readStatement_writeStatement {s : Statement} (hs : ProperStatement s)
    (hbudget : 2 * (writeStatement s).length ≤ budget) (rest : Rest) :
    readStatement budget (writeStatement s ++ rest) = some (s, '\n' :: rest) := by
  cases s with
  | assign key v =>
    obtain ⟨hpath, hv⟩ := hs
    have hlength := length_le_length_writePath key
    simp only [writeStatement, List.length_append] at hbudget
    have hkey := readKey_assignment hpath (show key.length ≤ budget by omega)
      (writeValue v ++ '\n' :: rest)
    have hread : readValue budget (writeValue v ++ '\n' :: rest) = some (v, '\n' :: rest) :=
      readValue_writeValue v hv (by decide) rest (by omega)
    have htext : writeStatement (.assign key v) ++ rest =
        writePath key ++ " = ".toList ++ (writeValue v ++ '\n' :: rest) := by
      simp only [writeStatement, List.append_assoc, List.cons_append, List.nil_append]
    rw [htext, readStatement, hkey, Option.bind_eq_bind, Option.bind_some]
    · simp only [skipBlanks_space_writeValue, hread]
      rfl
    all_goals
      intro after
      rw [List.append_assoc]
      exact writePath_append_ne hpath _ _
  | header key =>
    have hlength := length_le_length_writePath key
    simp only [writeStatement, List.length_append, List.length_cons] at hbudget
    have hkey := readKey_header hs (show key.length ≤ budget by omega) ('\n' :: rest)
    have htext : writeStatement (.header key) ++ rest =
        '[' :: (writePath key ++ ']' :: '\n' :: rest) := by
      simp [writeStatement]
    rw [htext, readStatement, hkey]
    · rfl
    · exact writePath_append_ne hs _
  | element key =>
    have hlength := length_le_length_writePath key
    simp only [writeStatement, List.length_append] at hbudget
    have hkey := readKey_header hs (show key.length ≤ budget by omega) (']' :: '\n' :: rest)
    have htext : writeStatement (.element key) ++ rest =
        '[' :: '[' :: (writePath key ++ ']' :: ']' :: '\n' :: rest) := by
      simp [writeStatement]
    rw [htext, readStatement, hkey]
    rfl

lemma readLines_statement {s : Statement} (hs : ProperStatement s)
    (hbudget : 2 * (writeStatement s).length ≤ budget) (rest : Rest) :
    readLines (budget + 1) (writeStatement s ++ rest) = (readLines budget rest).map (s :: ·) := by
  have hread := readStatement_writeStatement hs hbudget rest
  have hstarts := (starts_writeStatement hs).append rest
  rw [readLines, hstarts.skipLine_eq_none, hstarts.skipBlanks_eq, hread, Option.map_eq_bind]
  rfl

/-- An empty line before a statement is a step of its own. -/
lemma readLines_gap (s : Statement) (hstarts : Starts cs)
    (hbudget : 2 * (gap s ++ cs).length + 1 ≤ budget) :
    ∃ b, 2 * cs.length ≤ b ∧ readLines budget (gap s ++ cs) = readLines (b + 1) cs := by
  rw [List.length_append] at hbudget
  obtain hnone | hline : gap s = [] ∨ gap s = ['\n'] := by
    cases s with
    | assign key v => exact Or.inl rfl
    | header key => exact Or.inr rfl
    | element key => exact Or.inr rfl
  · rw [hnone, List.length_nil] at hbudget
    obtain ⟨budget, rfl⟩ : ∃ b, budget = b + 1 := ⟨budget - 1, by omega⟩
    exact ⟨budget, by omega, by rw [hnone, List.nil_append]⟩
  · rw [hline, List.length_singleton] at hbudget
    obtain ⟨budget, rfl⟩ : ∃ b, budget = b + 2 := ⟨budget - 2, by omega⟩
    refine ⟨budget, by omega, ?_⟩
    obtain ⟨c, after, rfl, -⟩ := hstarts
    rw [hline, List.singleton_append, readLines, skipLine_newline]

/-- The written statements after the first one are read back. -/
theorem readLines_flatMap {statements : List Statement} (h : ∀ s ∈ statements, ProperStatement s)
    (hbudget : 2 * (statements.flatMap fun s => gap s ++ writeStatement s).length + 1 ≤ budget) :
    readLines budget (statements.flatMap fun s => gap s ++ writeStatement s) = some statements := by
  induction statements generalizing budget with
  | nil =>
    obtain ⟨budget, rfl⟩ : ∃ b, budget = b + 1 := ⟨budget - 1, by omega⟩
    rfl
  | cons s statements ih =>
    obtain ⟨hs, hrest⟩ := List.forall_mem_cons.1 h
    have hstarts := starts_writeStatement hs
    have hlength := hstarts.one_le_length
    rw [List.flatMap_cons, List.append_assoc] at hbudget ⊢
    obtain ⟨b, hb, hread⟩ := readLines_gap s (hstarts.append _) hbudget
    rw [List.length_append] at hb
    rw [hread, readLines_statement hs (by omega), ih hrest (by omega), Option.map_some]

lemma readLines_write {statements : List Statement} (h : ∀ s ∈ statements, ProperStatement s)
    (hbudget : 2 * (write statements).length + 2 ≤ budget) :
    readLines budget (write statements) = some statements := by
  obtain ⟨budget, rfl⟩ : ∃ b, budget = b + 1 := ⟨budget - 1, by omega⟩
  cases statements with
  | nil => rfl
  | cons first rest =>
    obtain ⟨hfirst, hrest⟩ := List.forall_mem_cons.1 h
    rw [write, List.length_append] at hbudget
    rw [write, readLines_statement hfirst (by omega), readLines_flatMap hrest (by omega),
      Option.map_some]

lemma write_ne_cons {statements : List Statement} (h : ∀ s ∈ statements, ProperStatement s)
    (after : Rest) : write statements ≠ '\uFEFF' :: after := by
  cases statements with
  | nil => exact nofun
  | cons first rest =>
    have hstarts := starts_writeStatement (h first List.mem_cons_self)
    exact (hstarts.append _).ne_cons (by decide) after

end Reader

/-- A document is read as the statements that it was written from. -/
theorem read?_render {statements : List Statement}
    (h : ∀ s ∈ statements, Reader.ProperStatement s) :
    read? (render statements) = assemble? statements := by
  have hread := Reader.readLines_write h (Nat.le_refl _)
  rw [read?, render, String.toList_ofList]
  split
  · next cs heq => exact absurd heq (Reader.write_ne_cons h cs)
  · rw [hread, Option.bind_eq_bind, Option.bind_some]

end JobBinding.Toml

import Mathlib.Tactic.Common
import JobBinding.Toml.Quoted

/-!
# Quoted texts are read back

`readText_writeText`: a text that was written as a value is read back, whatever form was chosen for
it, unless a quote follows that could belong to it. Both basic forms can hold any text, because
what they cannot show is escaped. In the form on several lines at most two quotes without escape
follow each other, so that three of them end the text. A literal form shows the text as it is and
holds a text only if nothing in it ends the text or cannot be shown (`Fits`).
-/

namespace JobBinding.Toml

variable {c : Char} {t rest : List Char}

/-! ## Escapes -/

lemma toNat_of_isControl (h : isControl c = true) : c.toNat < 128 := by
  simp only [isControl, Bool.or_eq_true, Bool.and_eq_true, decide_eq_true_eq] at h
  omega

lemma isPlain_of_not_isControl (h : isControl c = false) (hline : c ≠ '\n') :
    isPlain c = true := by
  simp [isPlain, h, hline]

/-- The two digits that a written escape gives are those of the code point. -/
lemma hexChar?_hexDigit {n : Nat} (h : n < 128) :
    hexChar? ['0', '0', hexDigit (n / 16), hexDigit (n % 16)] = some (Char.ofNat n) := by
  have hall : ∀ n < 128, hexChar? ['0', '0', hexDigit (n / 16), hexDigit (n % 16)] =
      some (Char.ofNat n) := by decide
  exact hall n h

/-- Whether a reader of a basic form takes escapes for what they stand for and other characters as
they are. -/
structure ReadsBasic (read : List Char → Option (List Char × List Char)) : Prop where
  plain : ∀ {c rest}, c ≠ '"' → c ≠ '\\' → isPlain c = true →
    read (c :: rest) = andThen c (read rest)
  escaped : ∀ {letter c rest}, letter ≠ 'x' → letter ≠ 'u' → letter ≠ 'U' →
    escaped? letter = some c → read ('\\' :: letter :: rest) = andThen c (read rest)
  unit : ∀ {a b d e c rest}, hexChar? [a, b, d, e] = some c →
    read ('\\' :: 'u' :: a :: b :: d :: e :: rest) = andThen c (read rest)

lemma readsBasic_readLine : ReadsBasic readLine where
  plain := by
    intro c rest hquote hbackslash hplain
    rw [readLine]
    · rw [if_pos hplain]
    all_goals simp_all
  escaped := by
    intro letter c rest hx hu hU hc
    rw [readLine]
    · rw [hc]
      rfl
    all_goals simp_all
  unit := by
    intro a b d e c rest h
    rw [readLine, h]
    rfl

lemma readsBasic_readLines : ReadsBasic (readLines false) where
  plain := by
    intro c rest hquote hbackslash hplain
    have hline : c ≠ '\n' := by
      rintro rfl
      exact absurd hplain (by decide)
    have hreturn : c ≠ '\r' := by
      rintro rfl
      exact absurd hplain (by decide)
    rw [readLines]
    · rw [if_pos hplain]
      rfl
    all_goals simp_all
  escaped := by
    intro letter c rest hx hu hU hc
    rw [readLines]
    · rw [hc]
    all_goals simp_all
  unit := by
    intro a b d e c rest h
    rw [readLines, h]
    rfl

/-- Whether a reader of a form on several lines ends at three quotes that no other quote follows,
and takes up to two quotes before them for a part of the text. -/
structure ReadsSeveral (q : Char) (read : List Char → Option (List Char × List Char)) : Prop where
  newline : ∀ rest, read ('\n' :: rest) = andThen '\n' (read rest)
  quote : ∀ {rest}, (∀ after, rest ≠ q :: q :: after) → read (q :: rest) = andThen q (read rest)
  closing : ∀ {rest}, rest.head? ≠ some q → read (q :: q :: q :: rest) = some ([], rest)
  closingOne : ∀ {rest}, rest.head? ≠ some q → read (q :: q :: q :: q :: rest) = some ([q], rest)
  closingTwo : ∀ rest, read (q :: q :: q :: q :: q :: rest) = some ([q, q], rest)

lemma ne_cons_of_head?_ne (h : rest.head? ≠ some c) (after : List Char) : rest ≠ c :: after := by
  rintro rfl
  exact h rfl

lemma readsSeveral_readLines : ReadsSeveral '"' (readLines false) where
  newline := by
    intro rest
    rw [readLines]
    rfl
  quote := by
    intro rest h
    rw [readLines]
    · rfl
    all_goals simp_all
  closing := by
    intro rest h
    have hrest := ne_cons_of_head?_ne h
    rw [readLines]
    all_goals simp_all
  closingOne := by
    intro rest h
    have hrest := ne_cons_of_head?_ne h
    rw [readLines]
    simp_all
  closingTwo := by
    intro rest
    rw [readLines]

/-- A character as a basic form writes it is read back. Quotes and line feeds are written in a way
of their own. -/
lemma ReadsBasic.escape {read : List Char → Option (List Char × List Char)}
    (hread : ReadsBasic read) (hquote : c ≠ '"') (hline : c ≠ '\n') (rest : List Char) :
    read ((escape? c).getD [c] ++ rest) = andThen c (read rest) := by
  unfold escape?
  split
  · next h => exact hread.escaped (by decide) (by decide) (by decide) (by rw [h]; rfl)
  split
  · next h => exact hread.escaped (by decide) (by decide) (by decide) (by rw [h]; rfl)
  split
  · next h => exact hread.escaped (by decide) (by decide) (by decide) (by rw [h]; rfl)
  split
  · next h => exact hread.escaped (by decide) (by decide) (by decide) (by rw [h]; rfl)
  split
  · next h => exact hread.escaped (by decide) (by decide) (by decide) (by rw [h]; rfl)
  split
  · next h =>
    have hchar := hexChar?_hexDigit (toNat_of_isControl h)
    rw [Char.ofNat_toNat] at hchar
    exact hread.unit hchar
  · next hbackslash _ _ _ _ h =>
    have hplain := isPlain_of_not_isControl (Bool.eq_false_iff.2 h) hline
    exact hread.plain hquote hbackslash hplain

/-! ## The basic forms -/

/-- The basic form on one line holds any text. -/
theorem readLine_escapeLine (t rest : List Char) :
    readLine (escapeLine t ++ '"' :: rest) = some (t, rest) := by
  fun_induction escapeLine t with
  | case1 => rfl
  | case2 t ih =>
    rw [List.cons_append, List.cons_append,
      readsBasic_readLine.escaped (by decide) (by decide) (by decide) rfl, ih]
    rfl
  | case3 t ih =>
    rw [List.cons_append, List.cons_append,
      readsBasic_readLine.escaped (by decide) (by decide) (by decide) rfl, ih]
    rfl
  | case4 c t hquote hline ih =>
    rw [List.append_assoc, readsBasic_readLine.escape hquote hline, ih]
    rfl

/-- A written character begins with a backslash or is the character itself. -/
lemma head?_escape (c : Char) (rest : List Char) :
    ((escape? c).getD [c] ++ rest).head? = some '\\' ∨
      isControl c = false ∧ ((escape? c).getD [c] ++ rest).head? = some c := by
  unfold escape?
  split_ifs <;> simp_all

lemma head?_escape_ne {d : Char} (hbackslash : d ≠ '\\') (hne : isControl d = false → c ≠ d)
    (rest : List Char) : ((escape? c).getD [c] ++ rest).head? ≠ some d := by
  intro h
  rcases head?_escape c rest with hhead | ⟨hc, hhead⟩
  · rw [h] at hhead
    cases hhead
    exact hbackslash rfl
  · rw [h] at hhead
    cases hhead
    exact hne hc rfl

/-- Where the form on several lines shows a quote, the text has ended or has a quote. -/
lemma escapeLines_of_head?_eq {quotes : Nat} {after : List Char}
    (h : (escapeLines quotes t ++ after).head? = some '"') :
    t = [] ∨ ∃ t', t = '"' :: t' ∧ quotes ≠ 2 ∧
      escapeLines quotes t = '"' :: escapeLines (quotes + 1) t' := by
  cases t with
  | nil => exact Or.inl rfl
  | cons c t' =>
    refine Or.inr ⟨t', ?_⟩
    by_cases hc : c = '"'
    · subst hc
      rw [escapeLines] at h ⊢
      split at h
      · simp at h
      · next hquotes => exact ⟨rfl, hquotes, if_neg hquotes⟩
    · rw [escapeLines, List.append_assoc] at h
      · exact absurd h (head?_escape_ne (by decide) (fun _ => hc) _)
      · exact hc

/-- After a quote without escape there are two more in a row only at the end. -/
lemma eq_of_escapeLines_eq {quotes : Nat} {after after' : List Char} (hquotes : quotes ≤ 1)
    (h : escapeLines (quotes + 1) t ++ '"' :: after = '"' :: '"' :: after') :
    t = [] ∨ quotes = 0 ∧ t = ['"'] := by
  have hfirst := congrArg List.head? h
  rcases escapeLines_of_head?_eq hfirst with ht | ⟨t', rfl, hne, hwritten⟩
  · exact Or.inl ht
  · refine Or.inr ⟨by omega, ?_⟩
    rw [hwritten, List.cons_append, List.cons_inj_right] at h
    have hsecond := congrArg List.head? h
    rcases escapeLines_of_head?_eq hsecond with rfl | ⟨t'', -, hne', -⟩
    · rfl
    · omega

/-- The basic form on several lines holds any text. -/
theorem readLines_escapeLines {quotes : Nat} (hquotes : quotes ≤ 2)
    (hrest : rest.head? ≠ some '"') :
    readLines false (escapeLines quotes t ++ '"' :: '"' :: '"' :: rest) = some (t, rest) := by
  have hread := readsSeveral_readLines
  -- The induction follows the writer, which never writes a third quote in a row as it is.
  fun_induction escapeLines quotes t with
  | case1 => exact hread.closing hrest
  | case2 t ih =>
    rw [List.cons_append, List.cons_append,
      readsBasic_readLines.escaped (by decide) (by decide) (by decide) rfl, ih (by decide)]
    rfl
  | case3 quotes t hne ih =>
    rw [List.cons_append]
    by_cases h : ∀ after, escapeLines (quotes + 1) t ++ '"' :: '"' :: '"' :: rest ≠
        '"' :: '"' :: after
    · rw [hread.quote h, ih (by omega)]
      rfl
    · push Not at h
      obtain ⟨after, h⟩ := h
      rcases eq_of_escapeLines_eq (by omega) h with rfl | ⟨rfl, rfl⟩
      · exact hread.closingOne hrest
      · exact hread.closingTwo rest
  | case4 quotes c t hquote ih =>
    rw [List.append_assoc]
    by_cases hline : c = '\n'
    · subst hline
      show readLines false ('\n' :: (escapeLines 0 t ++ _)) = _
      rw [hread.newline, ih (by decide)]
      rfl
    · rw [readsBasic_readLines.escape hquote hline, ih (by decide)]
      rfl

/-! ## The literal forms -/

/-- The literal form on one line holds a text without line feeds, control characters and quotes of
its own kind. -/
theorem readLiteral_append (hplain : ∀ c ∈ t, isPlain c = true) (hquote : '\'' ∉ t) :
    readLiteral (t ++ '\'' :: rest) = some (t, rest) := by
  induction t with
  | nil => rfl
  | cons c t ih =>
    obtain ⟨hc, ht⟩ := List.forall_mem_cons.1 hplain
    rw [List.mem_cons, not_or] at hquote
    rw [List.cons_append, readLiteral, if_pos hc, ih ht hquote.2]
    · rfl
    · exact Ne.symm hquote.1

lemma le_longestRun (q : Char) (current : Nat) (t : List Char) :
    current ≤ longestRun q current t := by
  induction t generalizing current with
  | nil => exact Nat.le_refl _
  | cons c t ih =>
    rw [longestRun]
    split
    · exact Nat.le_trans (Nat.le_succ current) (ih _)
    · exact Nat.le_max_left _ _

lemma longestRun_mono {q : Char} {n m : Nat} (h : n ≤ m) (t : List Char) :
    longestRun q n t ≤ longestRun q m t := by
  induction t generalizing n m with
  | nil => exact h
  | cons c t ih =>
    rw [longestRun, longestRun]
    split
    · exact ih (Nat.succ_le_succ h)
    · omega

lemma longestRun_tail_le (q c : Char) (t : List Char) :
    longestRun q 0 t ≤ longestRun q 0 (c :: t) := by
  rw [longestRun]
  split
  · exact longestRun_mono (Nat.zero_le _) t
  · exact Nat.le_max_right _ _

lemma not_mem_of_longestRun_eq_zero {q : Char} (h : longestRun q 0 t = 0) : q ∉ t := by
  induction t with
  | nil => exact List.not_mem_nil
  | cons c t ih =>
    have htail := longestRun_tail_le q c t
    rw [List.mem_cons, not_or]
    refine ⟨?_, ih (by omega)⟩
    rintro rfl
    have hrun := le_longestRun q 1 t
    rw [longestRun, if_pos rfl, Nat.zero_add] at h
    omega

lemma readsSeveral_readLiteralLines : ReadsSeveral '\'' readLiteralLines where
  newline := by
    intro rest
    rw [readLiteralLines]
  quote := by
    intro rest h
    rw [readLiteralLines]
    · rfl
    all_goals simp_all
  closing := by
    intro rest h
    have hrest := ne_cons_of_head?_ne h
    rw [readLiteralLines]
    all_goals simp_all
  closingOne := by
    intro rest h
    have hrest := ne_cons_of_head?_ne h
    rw [readLiteralLines]
    simp_all
  closingTwo := by
    intro rest
    rw [readLiteralLines]

lemma readLiteralLines_plain (hquote : c ≠ '\'') (hplain : isPlain c = true) (rest : List Char) :
    readLiteralLines (c :: rest) = andThen c (readLiteralLines rest) := by
  have hline : c ≠ '\n' := by
    rintro rfl
    exact absurd hplain (by decide)
  have hreturn : c ≠ '\r' := by
    rintro rfl
    exact absurd hplain (by decide)
  rw [readLiteralLines]
  · rw [if_pos hplain]
  all_goals simp_all

/-- The literal form on several lines holds a text without control characters and without three
quotes of its own kind in a row. -/
theorem readLiteralLines_append (hcontrol : ∀ c ∈ t, isControl c = false)
    (hrun : longestRun '\'' 0 t ≤ 2) (hrest : rest.head? ≠ some '\'') :
    readLiteralLines (t ++ '\'' :: '\'' :: '\'' :: rest) = some (t, rest) := by
  have hread := readsSeveral_readLiteralLines
  induction t with
  | nil => exact hread.closing hrest
  | cons c t ih =>
    obtain ⟨hc, ht⟩ := List.forall_mem_cons.1 hcontrol
    have htail := ih ht (Nat.le_trans (longestRun_tail_le _ c t) hrun)
    rw [List.cons_append]
    by_cases hquote : c = '\''
    · subst hquote
      by_cases h : ∀ after, t ++ '\'' :: '\'' :: '\'' :: rest ≠ '\'' :: '\'' :: after
      · rw [hread.quote h, htail]
        rfl
      · push Not at h
        obtain ⟨after, h⟩ := h
        rcases t with _ | ⟨d, _ | ⟨e, t⟩⟩
        · exact hread.closingOne hrest
        · obtain ⟨rfl, -⟩ := List.cons_eq_cons.1 h
          exact hread.closingTwo rest
        · obtain ⟨rfl, hafter⟩ := List.cons_eq_cons.1 h
          obtain ⟨rfl, -⟩ := List.cons_eq_cons.1 hafter
          -- Three quotes in a row would make the run too long for this form.
          have hlong := le_longestRun '\'' 3 t
          simp only [longestRun, if_true, Nat.reduceAdd] at hrun
          omega
    · by_cases hline : c = '\n'
      · subst hline
        rw [hread.newline, htail]
        rfl
      · rw [readLiteralLines_plain hquote (isPlain_of_not_isControl hc hline), htail]
        rfl

/-! ## The choice of a form -/

def Fits (t : List Char) : Form → Prop
  | .basic | .linesBasic => True
  | .literal => (∀ c ∈ t, isPlain c = true) ∧ '\'' ∉ t
  | .linesLiteral => (∀ c ∈ t, isControl c = false) ∧ longestRun '\'' 0 t ≤ 2

lemma fits_formOf (t : List Char) : Fits t (formOf t) := by
  have hcontrol : (!t.any isControl) = true → ∀ c ∈ t, isControl c = false := by
    simp
  unfold formOf
  dsimp only
  split_ifs with hbasic hliteral hlinesBasic hlinesLiteral
  · trivial
  · simp only [Bool.and_eq_true, Bool.not_eq_true', decide_eq_true_eq] at hliteral
    obtain ⟨⟨hc, hline⟩, hquote⟩ := hliteral
    refine ⟨fun c hmem => isPlain_of_not_isControl (hcontrol (by simp [hc]) c hmem) ?_,
      not_mem_of_longestRun_eq_zero hquote⟩
    rintro rfl
    simp [hmem] at hline
  · trivial
  · simp only [Bool.and_eq_true, Bool.not_eq_true', decide_eq_true_eq] at hlinesLiteral
    exact ⟨hcontrol (by simp [hlinesLiteral.1]), hlinesLiteral.2⟩
  · trivial
  · trivial

lemma dropLineEnd_of_head?_ne (hline : t.head? ≠ some '\n') (hreturn : t.head? ≠ some '\r') :
    dropLineEnd t = t := by
  unfold dropLineEnd
  split <;> simp_all

/-- The line feed after the opening is not a part of the text, and without it none is dropped. -/
lemma dropLineEnd_opening {written : List Char} (hline : '\n' ∉ t → written.head? ≠ some '\n')
    (hreturn : '\n' ∉ t → written.head? ≠ some '\r') :
    dropLineEnd (opening t ++ written) = written := by
  unfold opening
  split
  · rfl
  · next h =>
    have hmem : '\n' ∉ t := by simpa using h
    exact dropLineEnd_of_head?_ne (hline hmem) (hreturn hmem)

lemma head?_escapeLines_ne {d : Char} (hquote : d ≠ '"') (hbackslash : d ≠ '\\')
    (hmem : isControl d = false → d ∉ t) (after : List Char) :
    (escapeLines 0 t ++ '"' :: after).head? ≠ some d := by
  cases t with
  | nil => simpa [escapeLines] using Ne.symm hquote
  | cons c t =>
    by_cases hc : c = '"'
    · subst hc
      simpa [escapeLines] using Ne.symm hquote
    · rw [escapeLines, List.append_assoc]
      · refine head?_escape_ne hbackslash (fun hd => ?_) _
        rintro rfl
        exact hmem hd (by simp)
      · exact hc

lemma head?_escapeLine_ne (h : t ≠ []) (after : List Char) :
    (escapeLine t ++ after).head? ≠ some '"' := by
  fun_cases escapeLine t with
  | case1 => exact absurd rfl h
  | case2 t => simp
  | case3 t => simp
  | case4 c t hquote _ =>
    rw [List.append_assoc]
    exact head?_escape_ne (by decide) (fun _ => hquote) _

/-- The quote that opens a form on one line is not the first of three: a quote that follows it ends
an empty text. -/
lemma readText_basic (hbasic : rest.head? ≠ some '"') :
    readText ('"' :: (escapeLine t ++ '"' :: rest)) = readLine (escapeLine t ++ '"' :: rest) := by
  rw [readText]
  intro after h
  by_cases ht : t = []
  · subst ht
    rw [escapeLine, List.nil_append, List.cons_inj_right] at h
    exact ne_cons_of_head?_ne hbasic after h
  · exact ne_cons_of_head?_ne (head?_escapeLine_ne ht _) _ h

lemma readText_literal (hquote : '\'' ∉ t) (hliteral : rest.head? ≠ some '\'') :
    readText ('\'' :: (t ++ '\'' :: rest)) = readLiteral (t ++ '\'' :: rest) := by
  rw [readText]
  intro after h
  cases t with
  | nil =>
    rw [List.nil_append, List.cons_inj_right] at h
    exact ne_cons_of_head?_ne hliteral after h
  | cons c t =>
    obtain ⟨rfl, -⟩ := List.cons_eq_cons.1 h
    exact hquote List.mem_cons_self

lemma readText_linesBasic (rest : List Char) :
    readText ('"' :: '"' :: '"' :: rest) = readLines false (dropLineEnd rest) :=
  rfl

lemma readText_linesLiteral (rest : List Char) :
    readText ('\'' :: '\'' :: '\'' :: rest) = readLiteralLines (dropLineEnd rest) :=
  rfl

/-- A text is read from any form that can hold it, unless a quote follows that could be taken for a
part of it. -/
theorem readText_writeForm {form : Form} (hfits : Fits t form) (hbasic : rest.head? ≠ some '"')
    (hliteral : rest.head? ≠ some '\'') : readText (writeForm t form ++ rest) = some (t, rest) := by
  cases form with
  | basic =>
    simp only [writeForm, List.append_assoc, List.cons_append, List.nil_append]
    rw [readText_basic hbasic]
    exact readLine_escapeLine t rest
  | literal =>
    obtain ⟨hplain, hquote⟩ := hfits
    simp only [writeForm, List.append_assoc, List.cons_append, List.nil_append]
    rw [readText_literal hquote hliteral]
    exact readLiteral_append hplain hquote
  | linesBasic =>
    have hopening : dropLineEnd (opening t ++ (escapeLines 0 t ++ '"' :: '"' :: '"' :: rest)) =
        escapeLines 0 t ++ '"' :: '"' :: '"' :: rest :=
      dropLineEnd_opening
        (fun h => head?_escapeLines_ne (by decide) (by decide) (fun _ => h) _)
        (fun _ => head?_escapeLines_ne (by decide) (by decide) (fun h => absurd h (by decide)) _)
    simp only [writeForm, List.append_assoc, List.cons_append, List.nil_append,
      readText_linesBasic, hopening]
    exact readLines_escapeLines (by decide) hbasic
  | linesLiteral =>
    obtain ⟨hcontrol, hrun⟩ := hfits
    have hopening : dropLineEnd (opening t ++ (t ++ '\'' :: '\'' :: '\'' :: rest)) =
        t ++ '\'' :: '\'' :: '\'' :: rest := by
      -- The line feed after the opening is there exactly if the text has lines, and a text without
      -- lines does not begin with one.
      apply dropLineEnd_opening
      · intro hline
        cases t with
        | nil => simp
        | cons c t =>
          rw [List.mem_cons, not_or] at hline
          simpa using Ne.symm hline.1
      · intro _
        cases t with
        | nil => simp
        | cons c t =>
          obtain ⟨hc, -⟩ := List.forall_mem_cons.1 hcontrol
          simp only [List.cons_append, List.head?_cons, ne_eq, Option.some.injEq]
          rintro rfl
          exact absurd hc (by decide)
    simp only [writeForm, List.append_assoc, List.cons_append, List.nil_append,
      readText_linesLiteral, hopening]
    exact readLiteralLines_append hcontrol hrun hliteral

/-- A text that was written as a value is read back. -/
theorem readText_writeText (t : String) {rest : List Char} (hbasic : rest.head? ≠ some '"')
    (hliteral : rest.head? ≠ some '\'') :
    readText (writeText t ++ rest) = some (t.toList, rest) :=
  readText_writeForm (fits_formOf t.toList) hbasic hliteral

end JobBinding.Toml

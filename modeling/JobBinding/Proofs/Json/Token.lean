import JobBinding.Json.Token
import JobBinding.Proofs.Text.Decimal

/-!
# The tokens of written values

`readAll_write`: the characters of a value that was written are read as the tokens of the value
(`tokens`), whatever stands after them. A number has no end of its own, so what stands after it must
not continue it (`Ends`); in a written value a number stands before a comma, a line break or the
end of the input.
-/

namespace JobBinding.Json

namespace Token

/-! ## Numbers -/

/-- Whether a number that stands before an input ends there. -/
def Ends (rest : Input) : Prop :=
  ∀ c after, rest = some c :: after → c.isDigit = false ∧ c ≠ '.' ∧ c ≠ 'e' ∧ c ≠ 'E'

lemma ends_nil : Ends [] := by
  intro c after h
  cases h

lemma ends_comma (rest : Input) : Ends (some ',' :: rest) := by
  intro c after h
  cases h
  decide

lemma ends_newline (rest : Input) : Ends (some '\n' :: rest) := by
  intro c after h
  cases h
  decide

lemma readDigits_of_ends {rest : Input} (h : Ends rest) : readDigits rest = ([], rest) := by
  rcases rest with _ | ⟨_ | c, rest⟩
  · rfl
  · rfl
  · rw [readDigits, (h c rest rfl).1]
    rfl

lemma readDigits_append {digits : List Char} {rest : Input}
    (hdigits : ∀ c ∈ digits, c.isDigit = true) (h : Ends rest) :
    readDigits (digits.map some ++ rest) = (digits, rest) := by
  induction digits with
  | nil => exact readDigits_of_ends h
  | cons c digits ih =>
    have hrest := ih fun d hd => hdigits d (List.mem_cons_of_mem c hd)
    rw [List.map_cons, List.cons_append, readDigits, if_pos (hdigits c (by simp)), hrest]

lemma skipFraction_of_ends {rest : Input} (h : Ends rest) :
    skipFraction rest = some (false, rest) := by
  unfold skipFraction
  split
  · next after => exact absurd rfl (h '.' after rfl).2.1
  · rfl

lemma skipExponent_of_ends {rest : Input} (h : Ends rest) :
    skipExponent rest = some (false, rest) := by
  unfold skipExponent
  split
  · next c after =>
    obtain ⟨-, -, he, hE⟩ := h c after rfl
    rw [if_neg (by simp [he, hE])]
  · rfl

lemma foldl_toDigits (n : Nat) :
    (Nat.toDigits 10 n).foldl (fun n d => n * 10 + (d.toNat - 48)) 0 = n :=
  Text.Decimal.value_toDigits n

lemma readUnsigned_toDigits {n : Nat} {rest : Input} (h : Ends rest) :
    readUnsigned false ((Nat.toDigits 10 n).map some ++ rest) = some (.number (some n), rest) := by
  have hdigits : ∀ c ∈ Nat.toDigits 10 n, c.isDigit = true := fun c hc =>
    Text.Decimal.isDigit_of_mem_toDigits hc
  have hform : ¬ (Nat.toDigits 10 n = [] ∨
      (Nat.toDigits 10 n).head? = some '0' ∧ (Nat.toDigits 10 n).length ≠ 1) := by
    rintro (hnil | ⟨hzero, hlength⟩)
    · exact Nat.toDigits_ne_nil hnil
    · rw [Text.Decimal.eq_zero_of_head?_toDigits hzero] at hlength
      exact hlength rfl
  simp only [readUnsigned, readDigits_append hdigits h, if_neg hform, skipFraction_of_ends h,
    skipExponent_of_ends h, Option.bind_eq_bind, Option.bind_some, foldl_toDigits]
  rfl

lemma read_of_isDigit {c : Char} {rest : Input} (hc : c.isDigit = true) :
    read c rest = readUnsigned false (some c :: rest) := by
  unfold read
  split <;> first | rfl | exact absurd hc (by decide)

/-! ## Texts -/

lemma hexUnit?_hexDigit {n : Nat} (h : n < 32) :
    hexUnit? '0' '0' (hexDigit (n / 16)) (hexDigit (n % 16)) = some n := by
  have hall : ∀ n < 32, hexUnit? '0' '0' (hexDigit (n / 16)) (hexDigit (n % 16)) = some n := by
    decide
  exact hall n h

lemma ofUnit_toNat {c : Char} (h : c.toNat < 32) : ofUnit c.toNat = .char c := by
  rw [ofUnit, if_neg (by omega), Char.ofNat_toNat]

lemma readParts_escaped {letter c : Char} (hletter : letter ≠ 'u') (hc : escaped? letter = some c)
    (rest : Input) :
    readParts (some '\\' :: some letter :: rest) =
      (readParts rest).map fun read => (.char c :: read.1, read.2) := by
  rw [readParts]
  · rw [hc, Option.map_eq_bind]
    rfl
  · intro a b c d after _
    exact hletter

lemma readParts_unit {n : Nat} {a b c d : Char} (h : hexUnit? a b c d = some n) (rest : Input) :
    readParts (some '\\' :: some 'u' :: some a :: some b :: some c :: some d :: rest) =
      (readParts rest).map fun read => (ofUnit n :: read.1, read.2) := by
  rw [readParts, h, Option.map_eq_bind]
  rfl

lemma readParts_plain {c : Char} (hquote : c ≠ '"') (hbackslash : c ≠ '\\') (hc : 32 ≤ c.toNat)
    (rest : Input) :
    readParts (some c :: rest) = (readParts rest).map fun read => (.char c :: read.1, read.2) := by
  rw [readParts]
  · rw [if_neg (by omega), Option.map_eq_bind]
    rfl
  · exact hquote
  · intro a b c d after _
    exact hbackslash
  · intro d after _
    exact hbackslash
  · exact hbackslash

/-- A character as it was written is read as one part of the text. -/
lemma readParts_escapeChar (c : Char) (rest : Input) :
    readParts ((escapeChar c).map some ++ rest) =
      (readParts rest).map fun read => (.char c :: read.1, read.2) := by
  unfold escapeChar
  -- One case for each escape; of the others, control characters are written by their code points.
  split
  · next h => exact readParts_escaped (by decide) (by rw [h]; rfl) rest
  split
  · next h => exact readParts_escaped (by decide) (by rw [h]; rfl) rest
  split
  · next h => exact readParts_escaped (by decide) (by rw [h]; rfl) rest
  split
  · next h => exact readParts_escaped (by decide) (by rw [h]; rfl) rest
  split
  · next h => exact readParts_escaped (by decide) (by rw [h]; rfl) rest
  split
  · next h => exact readParts_escaped (by decide) (by rw [h]; rfl) rest
  split
  · next h => exact readParts_escaped (by decide) (by rw [h]; rfl) rest
  split
  · next h =>
    rw [← ofUnit_toNat h]
    exact readParts_unit (hexUnit?_hexDigit h) rest
  · next hquote hbackslash _ _ _ _ _ h => exact readParts_plain hquote hbackslash (by omega) rest

lemma readParts_write (cs : List Char) (rest : Input) :
    readParts ((cs.flatMap escapeChar ++ ['"']).map some ++ rest) =
      some (cs.map .char, rest) := by
  induction cs with
  | nil => rfl
  | cons c cs ih =>
    rw [List.flatMap_cons, List.append_assoc, List.map_append, List.append_assoc,
      readParts_escapeChar, ih]
    rfl

lemma content?_map_char (cs : List Char) : content? (cs.map .char) = some cs := by
  induction cs with
  | nil => rfl
  | cons c cs ih => rw [List.map_cons, content?, ih, Option.map_some]

lemma readText_write (t : String) (rest : Input) :
    readText ((t.toList.flatMap escapeChar ++ ['"']).map some ++ rest) =
      some (.text (some t), rest) := by
  rw [readText, readParts_write]
  simp only [Option.bind_eq_bind, Option.bind_some, content?_map_char, Option.map_some,
    String.ofList_toList]
  rfl

/-! ## One token -/

lemma readAll_blank {c : Char} (hc : isBlank c = true) (rest : Input) :
    readAll (some c :: rest) = readAll rest := by
  rw [readAll, if_pos hc]

lemma readAll_of_read {c : Char} {rest after : Input} {token : Token} (hc : isBlank c = false)
    (h : read c rest = some (token, after)) :
    readAll (some c :: rest) = (readAll after).map (token :: ·) := by
  rw [readAll, if_neg (by simp [hc])]
  split
  · next hnone => exact absurd (hnone.symm.trans h) (by simp)
  · next token' after' hsome =>
    cases hsome.symm.trans h
    rfl

lemma readAll_indent (depth : Nat) (rest : Input) :
    readAll ((indent depth).map some ++ rest) = readAll rest := by
  rw [indent]
  induction 2 * depth with
  | zero => rfl
  | succ n ih =>
    rw [List.replicate_succ, List.map_cons, List.cons_append, readAll_blank (by decide), ih]

lemma readAll_writeText (t : String) (rest : Input) :
    readAll ((writeText t).map some ++ rest) = (readAll rest).map (.text (some t) :: ·) :=
  readAll_of_read (by decide) (readText_write t rest)

lemma isBlank_of_isDigit {c : Char} (hc : c.isDigit = true) : isBlank c = false := by
  rw [Bool.eq_false_iff]
  intro h
  simp only [isBlank, Bool.or_eq_true, decide_eq_true_eq] at h
  rcases h with ((rfl | rfl) | rfl) | rfl <;> exact absurd hc (by decide)

lemma readAll_toDigits {n : Nat} {rest : Input} (h : Ends rest) :
    readAll ((Nat.toDigits 10 n).map some ++ rest) =
      (readAll rest).map (.number (some n) :: ·) := by
  cases hdigits : Nat.toDigits 10 n with
  | nil => exact absurd hdigits Nat.toDigits_ne_nil
  | cons c digits =>
    have hmem : c ∈ Nat.toDigits 10 n := by
      rw [hdigits]
      exact List.mem_cons_self
    have hc : c.isDigit = true := Nat.isDigit_of_mem_toDigits (by decide) (by decide) hmem
    have hread := readUnsigned_toDigits (n := n) h
    rw [hdigits, List.map_cons, List.cons_append, ← read_of_isDigit hc] at hread
    exact readAll_of_read (isBlank_of_isDigit hc) hread

end Token

/-! ## Values -/

mutual

def tokens : Plain → List Token
  | .null => [.null]
  | .boolean b => [.boolean b]
  | .number n => [.number (some n)]
  | .text t => [.text (some t)]
  | .array [] => [.openArray, .closeArray]
  | .array (item :: items) => .openArray :: (tokens item ++ itemTokens items ++ [.closeArray])
  | .object [] => [.openObject, .closeObject]
  | .object ((name, value) :: fields) =>
    .openObject :: .text (some name) :: .colon ::
      (tokens value ++ fieldTokens fields ++ [.closeObject])

/-- The tokens of the items after the first. -/
def itemTokens : List Plain → List Token
  | [] => []
  | item :: items => .comma :: (tokens item ++ itemTokens items)

/-- The tokens of the fields after the first. -/
def fieldTokens : List (String × Plain) → List Token
  | [] => []
  | (name, value) :: fields =>
    .comma :: .text (some name) :: .colon :: (tokens value ++ fieldTokens fields)

end

namespace Token

lemma ends_writeItems {depth : Nat} (items : List Plain) {rest : Input} (h : Ends rest) :
    Ends ((writeItems depth items).map some ++ rest) := by
  cases items with
  | nil => exact h
  | cons item items =>
    simp only [writeItems, List.cons_append, List.map_cons]
    exact ends_comma _

lemma ends_writeFields {depth : Nat} (fields : List (String × Plain)) {rest : Input}
    (h : Ends rest) : Ends ((writeFields depth fields).map some ++ rest) := by
  cases fields with
  | nil => exact h
  | cons field fields =>
    simp only [writeFields, List.cons_append, List.map_cons]
    exact ends_comma _

mutual

/-- The characters of a value are read as its tokens. -/
theorem readAll_write (depth : Nat) : ∀ (value : Plain) (rest : Input), Ends rest →
    readAll ((write depth value).map some ++ rest) = (readAll rest).map (tokens value ++ ·)
  | .null, rest, _ => by
    rw [write, tokens]
    exact readAll_of_read (c := 'n') (by decide) rfl
  | .boolean true, rest, _ => by
    rw [write, tokens]
    exact readAll_of_read (c := 't') (by decide) rfl
  | .boolean false, rest, _ => by
    rw [write, tokens]
    exact readAll_of_read (c := 'f') (by decide) rfl
  | .number n, rest, h => by
    rw [write, tokens]
    exact readAll_toDigits h
  | .text t, rest, _ => by
    rw [write, tokens]
    exact readAll_writeText t rest
  | .array [], rest, _ => by
    rw [write, tokens, List.map_cons, List.cons_append, readAll_of_read (by decide) rfl]
    rw [List.map_cons, List.cons_append, readAll_of_read (by decide) rfl, Option.map_map]
    rfl
  | .array (item :: items), rest, _ => by
    rw [write, tokens]
    simp only [List.cons_append, List.nil_append, List.append_assoc, List.map_cons, List.map_append,
      List.map_nil]
    -- Each item ends before a comma or a line feed, so a number cannot run on into what follows it.
    rw [readAll_of_read (c := '[') (by decide) rfl, readAll_blank (by decide), readAll_indent,
      readAll_write (depth + 1) item _ (ends_writeItems items (ends_newline _)),
      readAll_writeItems (depth + 1) items _ (ends_newline _), readAll_blank (by decide),
      readAll_indent, readAll_of_read (c := ']') (by decide) rfl]
    simp only [Option.map_map, Function.comp_def]
  | .object [], rest, _ => by
    rw [write, tokens, List.map_cons, List.cons_append, readAll_of_read (by decide) rfl]
    rw [List.map_cons, List.cons_append, readAll_of_read (by decide) rfl, Option.map_map]
    rfl
  | .object ((name, value) :: fields), rest, _ => by
    rw [write, tokens]
    simp only [List.cons_append, List.nil_append, List.append_assoc, List.map_cons, List.map_append,
      List.map_nil]
    rw [readAll_of_read (c := '\x7b') (by decide) rfl, readAll_blank (by decide), readAll_indent,
      readAll_writeText, readAll_of_read (c := ':') (by decide) rfl, readAll_blank (by decide),
      readAll_write (depth + 1) value _ (ends_writeFields fields (ends_newline _)),
      readAll_writeFields (depth + 1) fields _ (ends_newline _), readAll_blank (by decide),
      readAll_indent, readAll_of_read (c := '\x7d') (by decide) rfl]
    simp only [Option.map_map, Function.comp_def]

theorem readAll_writeItems (depth : Nat) : ∀ (items : List Plain) (rest : Input), Ends rest →
    readAll ((writeItems depth items).map some ++ rest) =
      (readAll rest).map (itemTokens items ++ ·)
  | [], rest, _ => by
    rw [writeItems, itemTokens, List.map_nil, List.nil_append]
    exact Option.map_id'.symm
  | item :: items, rest, h => by
    rw [writeItems, itemTokens]
    simp only [List.cons_append, List.nil_append, List.append_assoc, List.map_cons,
      List.map_append]
    rw [readAll_of_read (c := ',') (by decide) rfl, readAll_blank (by decide), readAll_indent,
      readAll_write depth item _ (ends_writeItems items h), readAll_writeItems depth items _ h]
    simp only [Option.map_map, Function.comp_def]

theorem readAll_writeFields (depth : Nat) : ∀ (fields : List (String × Plain)) (rest : Input),
    Ends rest →
      readAll ((writeFields depth fields).map some ++ rest) =
        (readAll rest).map (fieldTokens fields ++ ·)
  | [], rest, _ => by
    rw [writeFields, fieldTokens, List.map_nil, List.nil_append]
    exact Option.map_id'.symm
  | (name, value) :: fields, rest, h => by
    rw [writeFields, fieldTokens]
    simp only [List.cons_append, List.nil_append, List.append_assoc, List.map_cons,
      List.map_append]
    rw [readAll_of_read (c := ',') (by decide) rfl, readAll_blank (by decide), readAll_indent,
      readAll_writeText, readAll_of_read (c := ':') (by decide) rfl, readAll_blank (by decide),
      readAll_write depth value _ (ends_writeFields fields h),
      readAll_writeFields depth fields _ h]
    simp only [Option.map_map, Function.comp_def]

end

end Token

end JobBinding.Json

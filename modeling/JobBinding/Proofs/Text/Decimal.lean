import Mathlib.Tactic.Common
import JobBinding.Text.Blank
import JobBinding.Text.Decimal

/-!
# Decimal digits

The digits of a number give its value back, and only zero begins with a zero. Readers of numbers
that refuse leading zeros rest on both. A reader of numbers below a bound takes every numeral of
such a number and nothing else (`readBelow?_eq_some_iff`).
-/

namespace JobBinding.Text.Decimal

lemma value_toDigits (n : Nat) : value (Nat.toDigits 10 n) = n := by
  have h := Nat.ofDigitChars_ten_toDigits (n := n)
  rw [Nat.ofDigitChars_eq_foldl] at h
  simp only [Nat.mul_comm 10] at h
  exact h

lemma isDigit_of_mem_toDigits {n : Nat} {c : Char} (h : c ∈ Nat.toDigits 10 n) :
    c.isDigit = true :=
  Nat.isDigit_of_mem_toDigits (by decide) (by decide) h

lemma eq_zero_of_head?_toDigits {n : Nat} (h : (Nat.toDigits 10 n).head? = some '0') : n = 0 := by
  induction n using Nat.strongRecOn with
  | ind n ih =>
    by_cases hn : n < 10
    · rw [Nat.toDigits_of_lt_base hn] at h
      simpa using h
    · -- The first digit of a number of several digits is the first digit of its tenth part.
      have hten : 10 ≤ n := by omega
      have hsome : (Nat.toDigits 10 (n / 10)).head?.isSome = true := by
        rw [List.isSome_head?]
        exact Nat.toDigits_ne_nil
      rw [Nat.toDigits_of_base_le (by decide) hten, List.head?_append,
        Option.or_of_isSome hsome] at h
      have := ih (n / 10) (by omega) h
      omega

lemma toList_toString (n : Nat) : (toString n).toList = Nat.toDigits 10 n := by
  rw [Nat.toString_eq_repr, Nat.toList_repr]

/-! ## Numerals -/

/-- Whether a text is a numeral of a number: its decimal digits, perhaps after a plus sign. Zeros in
front of them are allowed. -/
def IsNumeral (cs : List Char) (n : Nat) : Prop :=
  ∃ sign digits, cs = sign ++ digits ∧ (sign = [] ∨ sign = ['+']) ∧ digits ≠ [] ∧
    (∀ c ∈ digits, c.isDigit = true) ∧ value digits = n

/-- What is read is what stands after the plus sign, if there is one. -/
lemma readBelow?_eq {text : String} {sign digits : List Char} (htext : text.toList = sign ++ digits)
    (hsign : sign = ['+'] ∨ sign = [] ∧ digits.head? ≠ some '+') (bound : Nat) :
    readBelow? bound text =
      if digits ≠ [] ∧ digits.all Char.isDigit ∧ value digits < bound then some (value digits)
      else none := by
  unfold readBelow?
  extract_lets read
  have hread : read = digits := by
    rcases hsign with rfl | ⟨rfl, hhead⟩
    · simp only [read, htext]
      rfl
    · simp only [read, htext, List.nil_append]
      split
      · exact absurd rfl hhead
      · rfl
  simp only [hread]

/-- A text is read exactly if it is a numeral of a number below the bound. -/
lemma readBelow?_eq_some_iff {bound n : Nat} {text : String} :
    readBelow? bound text = some n ↔ IsNumeral text.toList n ∧ n < bound := by
  constructor
  · intro h
    obtain ⟨sign, digits, htext, hsign⟩ : ∃ sign digits, text.toList = sign ++ digits ∧
        (sign = ['+'] ∨ sign = [] ∧ digits.head? ≠ some '+') := by
      by_cases hplus : text.toList.head? = some '+'
      · obtain ⟨rest, hrest⟩ := List.head?_eq_some_iff.1 hplus
        exact ⟨['+'], rest, hrest, .inl rfl⟩
      · exact ⟨[], text.toList, rfl, .inr ⟨rfl, hplus⟩⟩
    rw [readBelow?_eq htext hsign] at h
    split at h
    · next hread =>
      cases h
      obtain ⟨hne, hall, hlt⟩ := hread
      have hsign : sign = [] ∨ sign = ['+'] := hsign.symm.imp_left And.left
      exact ⟨⟨sign, digits, htext, hsign, hne, List.all_eq_true.1 hall, rfl⟩, hlt⟩
    · cases h
  · rintro ⟨⟨sign, digits, htext, hsign, hne, hall, rfl⟩, hlt⟩
    have hhead : digits.head? ≠ some '+' := fun hplus =>
      absurd (hall _ (List.mem_of_head? hplus)) (by decide)
    rw [readBelow?_eq htext (hsign.symm.imp_right fun hnil => ⟨hnil, hhead⟩)]
    exact if_pos ⟨hne, List.all_eq_true.2 hall, hlt⟩

lemma isNumeral_toDigits (n : Nat) {sign : List Char} (hsign : sign = [] ∨ sign = ['+']) :
    IsNumeral (sign ++ Nat.toDigits 10 n) n :=
  ⟨sign, _, rfl, hsign, Nat.toDigits_ne_nil, fun _ => isDigit_of_mem_toDigits, value_toDigits n⟩

lemma isBlank_eq_false_of_isDigit {c : Char} (h : c.isDigit = true) : isBlank c = false := by
  have hc : 48 ≤ c.toNat ∧ c.toNat ≤ 57 := by
    simpa [Char.isDigit, UInt32.le_iff_toNat_le] using h
  have hranges : ∀ range ∈ blankRanges, range.2 < 48 ∨ 57 < range.1 := by decide
  rw [Bool.eq_false_iff, ne_eq, isBlank, inRanges_eq_true_iff]
  rintro ⟨range, hrange, hlow, hhigh⟩
  have hout := hranges range hrange
  omega

/-- There is no white space in a numeral. -/
lemma IsNumeral.isBlank_eq_false {cs : List Char} {n : Nat} {c : Char} (h : IsNumeral cs n)
    (hc : c ∈ cs) : isBlank c = false := by
  obtain ⟨sign, digits, rfl, hsign, -, hdigits, -⟩ := h
  rcases List.mem_append.1 hc with hc | hc
  · have hplus : c = '+' := by
      rcases hsign with rfl | rfl
      · cases hc
      · exact List.mem_singleton.1 hc
    rw [hplus]
    rfl
  · exact isBlank_eq_false_of_isDigit (hdigits c hc)

lemma toList_twoDigits (n : Nat) :
    (twoDigits n).toList = if n < 10 then '0' :: Nat.toDigits 10 n else Nat.toDigits 10 n := by
  rw [twoDigits]
  split_ifs
  · rw [String.toList_append, toList_toString]
    rfl
  · rw [toList_toString]

lemma value_twoDigits (n : Nat) : value (twoDigits n).toList = n := by
  rw [toList_twoDigits]
  split_ifs
  · exact value_toDigits n
  · exact value_toDigits n

lemma isDigit_of_mem_twoDigits {n : Nat} {c : Char} (h : c ∈ (twoDigits n).toList) :
    c.isDigit = true := by
  rw [toList_twoDigits] at h
  split_ifs at h
  · rcases List.mem_cons.1 h with rfl | h
    · rfl
    · exact isDigit_of_mem_toDigits h
  · exact isDigit_of_mem_toDigits h

end JobBinding.Text.Decimal

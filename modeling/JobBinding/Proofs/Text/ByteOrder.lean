import JobBinding.Proofs.Text.Utf8
import JobBinding.SortedSet

/-!
# The order of bytes

Texts are sorted by their characters. This is the order of their bytes (`encode_lt_encode_iff`): a
larger character has a larger lead byte, or the same one and larger tail bytes
(`encodeChar_append_lt`).
-/

namespace JobBinding.Text.Utf8

/-- Bytes are sorted by the first ones unless these are equal. -/
lemma cons_lt_cons_of_le {i j : Nat} {xs ys : List UInt8} (hj : j < 256) (hle : i ≤ j)
    (h : i = j → xs < ys) : i.toUInt8 :: xs < j.toUInt8 :: ys := by
  rw [List.cons_lt_cons_iff, UInt8.lt_iff_toNat_lt, toNat_toUInt8 (Nat.lt_of_le_of_lt hle hj),
    toNat_toUInt8 hj]
  rcases Nat.lt_or_eq_of_le hle with hlt | rfl
  · exact .inl hlt
  · exact .inr ⟨rfl, h rfl⟩

lemma cons_lt_cons_of_lt {i j : Nat} {xs ys : List UInt8} (hj : j < 256) (hlt : i < j) :
    i.toUInt8 :: xs < j.toUInt8 :: ys :=
  cons_lt_cons_of_le hj (Nat.le_of_lt hlt) fun h => absurd h (Nat.ne_of_lt hlt)

/-- The bytes of a character come before those of a larger one, whatever follows them. -/
lemma encodeChar_append_lt {c d : Char} (h : c < d) (xs ys : List UInt8) :
    encodeChar c ++ xs < encodeChar d ++ ys := by
  have hlt : c.toNat < d.toNat := h
  have hd := toNat_cases d
  simp only [encodeChar]
  generalize c.toNat = n at *
  generalize d.toNat = m at *
  -- where the lengths differ, the lead bytes of the longer one are larger
  split
  · split_ifs <;> exact cons_lt_cons_of_lt (by omega) (by omega)
  rw [if_neg (show ¬ m < 0x80 by omega)]
  split
  · split_ifs
    · exact cons_lt_cons_of_le (by omega) (by omega) fun _ =>
        cons_lt_cons_of_lt (by omega) (by omega)
    · exact cons_lt_cons_of_lt (by omega) (by omega)
    · exact cons_lt_cons_of_lt (by omega) (by omega)
  rw [if_neg (show ¬ m < 0x800 by omega)]
  split
  · split_ifs
    · exact cons_lt_cons_of_le (by omega) (by omega) fun _ =>
        cons_lt_cons_of_le (by omega) (by omega) fun _ => cons_lt_cons_of_lt (by omega) (by omega)
    · exact cons_lt_cons_of_lt (by omega) (by omega)
  rw [if_neg (show ¬ m < 0x10000 by omega)]
  exact cons_lt_cons_of_le (by omega) (by omega) fun _ =>
    cons_lt_cons_of_le (by omega) (by omega) fun _ =>
      cons_lt_cons_of_le (by omega) (by omega) fun _ => cons_lt_cons_of_lt (by omega) (by omega)

lemma flatMap_encodeChar_lt {cs ds : List Char} (h : cs < ds) :
    cs.flatMap encodeChar < ds.flatMap encodeChar := by
  induction cs generalizing ds with
  | nil =>
    cases ds with
    | nil => exact absurd h (List.lt_irrefl _)
    | cons d ds =>
      rw [List.flatMap_cons, encodeChar]
      split_ifs <;> exact List.nil_lt_cons _ _
  | cons c cs ih =>
    cases ds with
    | nil => exact absurd h (List.not_lt_nil _)
    | cons d ds =>
      rw [List.flatMap_cons, List.flatMap_cons]
      rcases List.cons_lt_cons_iff.1 h with hlt | ⟨rfl, htail⟩
      · exact encodeChar_append_lt hlt _ _
      · exact List.append_left_lt (ih htail)

/-- Texts are sorted as their bytes are. -/
theorem encode_lt_encode_iff {s t : String} : encode s < encode t ↔ s < t := by
  have hmono {s t : String} (h : s < t) : encode s < encode t :=
    flatMap_encodeChar_lt (String.lt_iff.1 h)
  refine ⟨fun h => ?_, hmono⟩
  by_contra hst
  by_cases hts : t < s
  · exact List.lt_asymm h (hmono hts)
  · obtain rfl : s = t := Sortable.eq_of_not_lt hst hts
    exact List.lt_irrefl _ h

end JobBinding.Text.Utf8

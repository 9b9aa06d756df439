import Mathlib.Data.List.Infix
import Mathlib.Tactic.Common
import JobBinding.Text.Scan

/-!
# First occurrences

A scan up to a marker stops at the first place where the marker stands (`IsFirst`), and it fails
exactly if the marker stands nowhere (`splitAtMarker?_eq_none_iff`). A marker whose first character
does not come again in it cannot overlap with itself, so a text in front of it that is free of it
leaves it the first one (`isFirst_of_not_infix`).
-/

namespace JobBinding.Text

variable {marker cs before after : List Char} {c : Char}

lemma afterPrefix?_eq_none_iff : afterPrefix? marker cs = none ↔ ¬ marker <+: cs := by
  rw [Option.eq_none_iff_forall_ne_some, List.IsPrefix, not_exists]
  exact forall_congr' fun rest => not_congr (afterPrefix?_eq_some_iff.trans eq_comm)

/-- Whether a marker stands in a text after `before` and before `after`, and nowhere earlier. -/
structure IsFirst (marker cs before after : List Char) : Prop where
  append_eq : before ++ marker ++ after = cs
  le_length : ∀ front rest, front ++ marker ++ rest = cs → before.length ≤ front.length

lemma IsFirst.infix (h : IsFirst marker cs before after) : marker <:+: cs :=
  ⟨before, after, h.append_eq⟩

lemma IsFirst.unique {before' after' : List Char} (h : IsFirst marker cs before after)
    (h' : IsFirst marker cs before' after') : before = before' ∧ after = after' := by
  have hlength : before.length = before'.length :=
    Nat.le_antisymm (h.le_length _ _ h'.append_eq) (h'.le_length _ _ h.append_eq)
  have heq := h.append_eq.trans h'.append_eq.symm
  rw [List.append_assoc, List.append_assoc] at heq
  obtain ⟨hbefore, hafter⟩ := List.append_inj heq hlength
  exact ⟨hbefore, List.append_cancel_left hafter⟩

lemma isFirst_of_splitAtMarker? (h : splitAtMarker? marker cs = some (before, after)) :
    IsFirst marker cs before after := by
  induction cs generalizing before with
  | nil =>
    rw [splitAtMarker?, Option.map_eq_some_iff] at h
    obtain ⟨rest, hrest, heq⟩ := h
    cases heq
    exact ⟨(afterPrefix?_eq_some_iff.1 hrest).symm, fun _ _ _ => Nat.zero_le _⟩
  | cons c cs ih =>
    rw [splitAtMarker?] at h
    split at h
    · next hrest =>
      cases h
      exact ⟨(afterPrefix?_eq_some_iff.1 hrest).symm, fun _ _ _ => Nat.zero_le _⟩
    · next hnone =>
      -- The marker was found further on, and by the induction nowhere earlier there.
      obtain ⟨⟨front, rest⟩, hparts, heq⟩ := Option.map_eq_some_iff.1 h
      cases heq
      have hfirst := ih hparts
      refine ⟨by rw [← hfirst.append_eq]; rfl, fun front' rest' happend => ?_⟩
      cases front' with
      | nil =>
        rw [List.nil_append] at happend
        rw [afterPrefix?_eq_some_iff.2 happend.symm] at hnone
        cases hnone
      | cons d front' =>
        rw [List.cons_append, List.cons_append] at happend
        exact Nat.succ_le_succ (hfirst.le_length _ _ (List.cons.inj happend).2)

lemma splitAtMarker?_eq_none_iff : splitAtMarker? marker cs = none ↔ ¬ marker <:+: cs := by
  induction cs with
  | nil =>
    rw [splitAtMarker?, Option.map_eq_none_iff, afterPrefix?_eq_none_iff, List.prefix_nil,
      List.infix_nil]
  | cons c cs ih =>
    rw [List.infix_cons_iff, not_or, ← afterPrefix?_eq_none_iff, splitAtMarker?]
    split
    · next hrest => simp [hrest]
    · next hnone => simp [hnone, ih]

lemma splitAtMarker?_eq_some_iff :
    splitAtMarker? marker cs = some (before, after) ↔ IsFirst marker cs before after := by
  constructor
  · exact isFirst_of_splitAtMarker?
  · intro h
    obtain ⟨⟨front, rest⟩, hparts⟩ : ∃ parts, splitAtMarker? marker cs = some parts :=
      Option.ne_none_iff_exists'.1 fun hnone => splitAtMarker?_eq_none_iff.1 hnone h.infix
    obtain ⟨rfl, rfl⟩ := h.unique (isFirst_of_splitAtMarker? hparts)
    exact hparts

lemma exists_isFirst_iff : (∃ before after, IsFirst marker cs before after) ↔ marker <:+: cs := by
  constructor
  · rintro ⟨before, after, h⟩
    exact h.infix
  · intro h
    obtain ⟨⟨before, after⟩, hparts⟩ := Option.ne_none_iff_exists'.1
      (mt splitAtMarker?_eq_none_iff.1 (not_not.2 h))
    exact ⟨before, after, isFirst_of_splitAtMarker? hparts⟩

/-- A marker that does not begin again inside itself is the first one after a text without it. -/
lemma isFirst_of_not_infix {tail : List Char} (hc : c ∉ tail) (h : ¬ c :: tail <:+: before)
    (after : List Char) : IsFirst (c :: tail) (before ++ c :: tail ++ after) before after := by
  refine ⟨rfl, fun front rest happend => Nat.le_of_not_lt fun hlt => ?_⟩
  rw [List.append_assoc, List.append_assoc] at happend
  obtain ⟨gap, rfl⟩ : front <+: before :=
    List.prefix_of_prefix_length_le ⟨_, happend⟩ (List.prefix_append before _) hlt.le
  rw [List.append_assoc] at happend
  have hgap := List.append_cancel_left happend
  -- The earlier marker is in the gap between the two, or the later one begins inside it.
  rcases List.append_eq_append_iff.1 hgap with ⟨more, hmore, -⟩ | ⟨overlap, hmarker, hlater⟩
  · exact h ⟨front, more, by rw [hmore, List.append_assoc]⟩
  · cases gap with
    | nil => simp at hlt
    | cons d gap =>
      rw [List.cons_append] at hmarker
      obtain ⟨rfl, rfl⟩ := List.cons.inj hmarker
      cases overlap with
      | nil => exact h ⟨front, [], by simp⟩
      | cons e overlap =>
        rw [List.cons_append, List.cons_append] at hlater
        obtain ⟨rfl, -⟩ := List.cons.inj hlater
        exact hc (by simp)

lemma isFirst_singleton_iff :
    IsFirst [c] cs before after ↔ cs = before ++ c :: after ∧ c ∉ before := by
  constructor
  · intro h
    refine ⟨by rw [← h.append_eq]; simp, fun hc => ?_⟩
    obtain ⟨front, rest, rfl⟩ := List.append_of_mem hc
    have hle := h.le_length front (rest ++ c :: after) (by rw [← h.append_eq]; simp)
    rw [List.length_append, List.length_cons] at hle
    omega
  · rintro ⟨rfl, hc⟩
    have hfirst := isFirst_of_not_infix List.not_mem_nil
      (mt (List.singleton_infix_iff c before).1 hc) after
    rwa [List.append_assoc, List.singleton_append] at hfirst

/-! ## A character at the end -/

lemma afterPrefix?_concat (hc : c ∉ marker) (cs : List Char) :
    afterPrefix? marker (cs ++ [c]) = (afterPrefix? marker cs).map (· ++ [c]) := by
  induction marker generalizing cs with
  | nil => rfl
  | cons m marker ih =>
    obtain ⟨hm, hmarker⟩ := not_or.1 (mt List.mem_cons.2 hc)
    cases cs with
    | nil => simp [afterPrefix?, Ne.symm hm]
    | cons d cs =>
      simp only [List.cons_append, afterPrefix?]
      split
      · exact ih hmarker cs
      · rfl

/-- What a marker is found between goes on with a character that is not in the marker. -/
lemma splitAtMarker?_concat (hc : c ∉ marker) :
    splitAtMarker? marker (cs ++ [c]) =
      (splitAtMarker? marker cs).map fun (before, after) => (before, after ++ [c]) := by
  induction cs with
  | nil =>
    have hend := afterPrefix?_concat hc []
    rw [List.nil_append] at hend
    rw [List.nil_append, splitAtMarker?, splitAtMarker?, hend]
    cases h : afterPrefix? marker [] <;> simp [splitAtMarker?, h]
  | cons d cs ih =>
    have hend := afterPrefix?_concat hc (d :: cs)
    rw [List.cons_append] at hend
    rw [List.cons_append, splitAtMarker?, splitAtMarker?, hend, ih]
    cases h : afterPrefix? marker (d :: cs) with
    | none => simp [Option.map_map, Function.comp_def]
    | some rest => rfl

end JobBinding.Text

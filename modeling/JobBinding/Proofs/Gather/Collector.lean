import JobBinding.Gather.Collector
import JobBinding.Proofs.Except
import JobBinding.Proofs.Gather.Message

/-!
# The coordinator's account

What an account holds after some messages (`getElem?_slots_of_acceptAll`), when it is complete
(`Sound.isComplete_iff`) and what it then gives (`finish_eq_ok_iff`).

`Sound` is the invariant of an account: it has a slot for each rank, and `missing` counts the empty
ones. Every account that is reached by accepting messages is sound, so whether it is complete can
be read off its slots.
-/

namespace JobBinding.Gather

variable {α : Type} {decode : Decoder α}

def Message.Carries (decode : Decoder α) (m : Message) (value : α) : Prop :=
  ∃ encoded, m.payload = .value encoded ∧ decode encoded = .ok value

lemma Message.Carries.unique {m : Message} {value value' : α} (h : m.Carries decode value)
    (h' : m.Carries decode value') : value = value' := by
  obtain ⟨encoded, hpayload, hdecode⟩ := h
  obtain ⟨encoded', hpayload', hdecode'⟩ := h'
  cases hpayload.symm.trans hpayload'
  cases hdecode.symm.trans hdecode'
  rfl

namespace Collector

variable {c c' : Collector α}

/-! ## One message -/

lemma accept_of_carries {m : Message} {value : α} (hrank : m.rank ≠ 0)
    (hslot : c.slots[m.rank.toNat]? = some none) (hm : m.Carries decode value) :
    c.accept decode m = .ok (c.fill m.rank value) := by
  obtain ⟨encoded, hpayload, hdecode⟩ := hm
  simp only [accept, hslot, if_neg hrank, hpayload, hdecode]
  rfl

lemma accept_of_abort {m : Message} {reason : String} (hrank : m.rank ≠ 0)
    (hslot : c.slots[m.rank.toNat]? = some none) (hm : m.payload = .abort reason) :
    c.accept decode m = .error (.aborted m.rank reason) := by
  simp only [accept, hslot, if_neg hrank, hm]
  rfl

/-- A message is accepted exactly if its sender is another process that has not contributed, and it
carries a value; it fills the sender's slot and no other. -/
lemma accept_eq_ok_iff {m : Message} :
    c.accept decode m = .ok c' ↔
      m.rank ≠ 0 ∧ c.slots[m.rank.toNat]? = some none ∧
        ∃ value, m.Carries decode value ∧ c' = c.fill m.rank value := by
  constructor
  · intro h
    -- The four tests of `accept` in their order: the slot exists, the rank is not the
    -- coordinator's, the slot is empty, the payload is a value.
    unfold accept at h
    split at h
    · cases h
    · next slot hslot =>
      split at h
      · cases h
      next hrank =>
      split at h
      · cases h
      next hempty =>
      have hnone : slot = none := by simpa using hempty
      split at h
      · cases h
      next encoded hpayload =>
      cases hdecode : decode encoded with
      | error e =>
        rw [hdecode] at h
        cases h
      | ok value =>
        rw [hdecode] at h
        cases h
        exact ⟨hrank, hnone ▸ hslot, value, ⟨encoded, hpayload, hdecode⟩, rfl⟩
  · rintro ⟨hrank, hslot, value, hm, rfl⟩
    exact accept_of_carries hrank hslot hm

/-! ## The invariant -/

/-- An account with a slot for each rank of a group, whose `missing` is the number of empty
slots. -/
structure Sound (size : Nat) (c : Collector α) : Prop where
  length_slots : c.slots.length = size
  missing_eq : c.missing = c.slots.countP Option.isNone

lemma sound_start {size : UInt32} (hpos : 0 < size.toNat) (own : α) :
    (start size own).Sound size.toNat where
  length_slots := by
    simp only [start, List.length_cons, List.length_replicate]
    omega
  missing_eq := by simp [start, List.countP_replicate]

lemma Sound.fill {size : Nat} {rank : UInt32} (h : c.Sound size)
    (hslot : c.slots[rank.toNat]? = some none) (value : α) : (c.fill rank value).Sound size where
  length_slots := by
    rw [Collector.fill, List.length_set]
    exact h.length_slots
  missing_eq := by
    obtain ⟨hlt, hnone⟩ := List.getElem?_eq_some_iff.1 hslot
    have hcount := List.countP_set (p := Option.isNone) (a := some value) hlt
    rw [hnone] at hcount
    rw [Collector.fill, hcount, h.missing_eq]
    simp

lemma Sound.isComplete_iff {size : Nat} (h : c.Sound size) :
    c.isComplete = true ↔ ∀ slot ∈ c.slots, slot.isSome = true := by
  rw [isComplete, decide_eq_true_iff, h.missing_eq, List.countP_eq_zero]
  simp [Option.isNone_iff_eq_none, Option.isSome_iff_ne_none]

/-! ## Several messages -/

/-- The account after some messages, up to the first that does not fit. -/
def acceptAll (decode : Decoder α) (c : Collector α) (ms : List Message) :
    Except Failure (Collector α) :=
  ms.foldlM (accept decode) c

lemma acceptAll_append_singleton {ms : List Message} {m : Message}
    (h : c.acceptAll decode ms = .ok c') :
    c.acceptAll decode (ms ++ [m]) = c'.accept decode m := by
  rw [acceptAll] at h
  rw [acceptAll, List.foldlM_append, h]
  exact bind_pure (c'.accept decode m)

lemma acceptAll_cons_eq_ok_iff {ms : List Message} {m : Message} :
    c.acceptAll decode (m :: ms) = .ok c' ↔
      ∃ next, c.accept decode m = .ok next ∧ next.acceptAll decode ms = .ok c' := by
  rw [acceptAll, List.foldlM_cons]
  exact bind_eq_ok_iff

lemma Sound.acceptAll {size : Nat} {ms : List Message} (hc : c.Sound size)
    (h : c.acceptAll decode ms = .ok c') : c'.Sound size := by
  induction ms generalizing c with
  | nil =>
    cases h
    exact hc
  | cons m ms ih =>
    obtain ⟨next, hm, hrest⟩ := acceptAll_cons_eq_ok_iff.1 h
    obtain ⟨_, hslot, value, _, rfl⟩ := accept_eq_ok_iff.1 hm
    exact ih (hc.fill hslot value) hrest

lemma getElem?_slots_fill {rank : UInt32} {value v : α} {r : Nat}
    (hslot : c.slots[rank.toNat]? = some none) :
    (c.fill rank value).slots[r]? = some (some v) ↔
      c.slots[r]? = some (some v) ∨ rank.toNat = r ∧ value = v := by
  obtain ⟨hlt, -⟩ := List.getElem?_eq_some_iff.1 hslot
  rw [fill]
  by_cases hr : rank.toNat = r
  · subst hr
    rw [List.getElem?_set_self hlt, hslot]
    simp
  · rw [List.getElem?_set_ne hr]
    simp [hr]

/-- A slot is filled exactly if it was filled before or one of the messages is its rank's, and then
with the value that the message carries. -/
lemma getElem?_slots_of_acceptAll {ms : List Message} (h : c.acceptAll decode ms = .ok c')
    (r : Nat) (v : α) :
    c'.slots[r]? = some (some v) ↔
      c.slots[r]? = some (some v) ∨ ∃ m ∈ ms, m.rank.toNat = r ∧ m.Carries decode v := by
  induction ms generalizing c with
  | nil =>
    cases h
    simp
  | cons m ms ih =>
    obtain ⟨next, hm, hrest⟩ := acceptAll_cons_eq_ok_iff.1 h
    obtain ⟨_, hslot, value, hcarries, rfl⟩ := accept_eq_ok_iff.1 hm
    have hvalue : ∀ w, m.Carries decode w ↔ value = w := by
      intro w
      constructor
      · exact hcarries.unique
      · rintro rfl
        exact hcarries
    rw [ih hrest, getElem?_slots_fill hslot, or_assoc]
    simp only [List.mem_cons, or_and_right, exists_or, exists_eq_left, hvalue]

lemma exists_carries_of_acceptAll {ms : List Message} (h : c.acceptAll decode ms = .ok c')
    {m : Message} (hm : m ∈ ms) : ∃ value, m.Carries decode value := by
  induction ms generalizing c with
  | nil => cases hm
  | cons first ms ih =>
    obtain ⟨next, hfirst, hrest⟩ := acceptAll_cons_eq_ok_iff.1 h
    rcases List.mem_cons.1 hm with rfl | hm
    · obtain ⟨_, _, value, hcarries, _⟩ := accept_eq_ok_iff.1 hfirst
      exact ⟨value, hcarries⟩
    · exact ih hrest hm

lemma getElem?_slots_start {size : UInt32} {own v : α} {r : Nat} :
    (start size own).slots[r]? = some (some v) ↔ r = 0 ∧ own = v := by
  cases r with
  | zero => simp [start]
  | succ r => simp [start, List.getElem?_replicate]

/-! ## The result -/

lemma valuesFrom_eq_ok_iff {rank : Nat} {slots : List (Option α)} {values : List α} :
    valuesFrom rank slots = .ok values ↔ slots = values.map some := by
  induction slots generalizing rank values with
  | nil =>
    cases values with
    | nil => simp [valuesFrom]
    | cons value values => simp [valuesFrom]
  | cons slot slots ih =>
    cases slot with
    | none => cases values <;> simp [valuesFrom]
    | some v =>
      constructor
      · intro h
        cases hrest : valuesFrom (rank + 1) slots with
        | error e =>
          rw [valuesFrom, hrest] at h
          cases h
        | ok rest =>
          rw [valuesFrom, hrest] at h
          cases h
          rw [ih.1 hrest, List.map_cons]
      · intro h
        cases values with
        | nil => cases h
        | cons value values =>
          obtain ⟨hv, hrest⟩ := List.cons.inj h
          cases hv
          rw [valuesFrom, ih.2 hrest]
          rfl

lemma exists_eq_map_some {slots : List (Option α)} (h : ∀ slot ∈ slots, slot.isSome = true) :
    ∃ values : List α, slots = values.map some := by
  induction slots with
  | nil => exact ⟨[], rfl⟩
  | cons slot slots ih =>
    obtain ⟨value, rfl⟩ := Option.isSome_iff_exists.1 (h slot (by simp))
    obtain ⟨values, rfl⟩ := ih fun slot hslot => h slot (List.mem_cons_of_mem _ hslot)
    exact ⟨value :: values, rfl⟩

lemma Sound.exists_of_isComplete {size : Nat} (h : c.Sound size) (hcomplete : c.isComplete = true) :
    ∃ values : List α, c.slots = values.map some :=
  exists_eq_map_some (h.isComplete_iff.1 hcomplete)

/-- An account gives values exactly if they fill its slots. -/
lemma finish_eq_ok_iff {values : List α} :
    c.finish = .ok values ↔ c.slots = values.map some :=
  valuesFrom_eq_ok_iff

end Collector

end JobBinding.Gather

import Mathlib.Data.List.Nodup
import JobBinding.Proofs.Gather.Collector

/-!
# An account after any messages

A coordinator that goes on after messages that do not fit keeps a sound account: what it holds and
what it takes next is the subject of `account_spec`. Receiving changes the account in place, yet a
message that is refused changes nothing (`run_receive`), since decoding comes before the first
change. A message is taken exactly if it fits (`Fits`), and then it changes one slot and the number
of missing values (`Fills`).

Messages of different ranks fill different slots, so they can change places (`next_comm`), and the
account that some messages leave does not depend on their order (`reached_eq_of_perm`).
-/

namespace JobBinding.Gather.Collector

variable {α : Type} {decode : Decoder α} {c c' : Collector α} {m m' : Message} {ms : List Message}
  {size : Nat} {rank : UInt32} {value : α} {r : Nat}

/-! ## One message -/

/-- Receiving a message does what accepting it says, and nothing if it is not accepted. -/
theorem run_receive (decode : Decoder α) (m : Message) (c : Collector α) :
    (receive decode m).run c = match c.accept decode m with
      | .ok c' => .ok () c'
      | .error e => .error e c := by
  rw [receive, accept, EStateM.run_bind, EStateM.run_get]
  dsimp only
  rcases c.slots[m.rank.toNat]? with _ | slot
  · rfl
  dsimp only
  split
  · rfl
  split
  · rfl
  cases m.payload with
  | abort reason => rfl
  | value encoded =>
    dsimp only
    cases decode encoded <;> rfl

lemma run_receive_eq_ok_iff :
    (receive decode m).run c = .ok () c' ↔ c.accept decode m = .ok c' := by
  rw [run_receive]
  cases c.accept decode m <;> simp

/-- A message that is refused leaves the account as it was. -/
lemma eq_of_run_receive_eq_error {e : Failure} (h : (receive decode m).run c = .error e c') :
    c' = c := by
  rw [run_receive] at h
  cases haccept : c.accept decode m with
  | ok next =>
    rw [haccept] at h
    cases h
  | error f =>
    rw [haccept] at h
    cases h
    rfl

/-- Whether a message fits an account of a group: another process of the group sent it, which has no
value yet, and it carries one. -/
def Fits (decode : Decoder α) (size : Nat) (c : Collector α) (m : Message) : Prop :=
  1 ≤ m.rank.toNat ∧ m.rank.toNat ≤ size - 1 ∧ c.slots[m.rank.toNat]? = some none ∧
    ∃ value, m.Carries decode value

/-- What a message that is taken makes of an account: its value is in the slot of its rank, the
other slots are as they were, and one value less is missing. -/
structure Fills (decode : Decoder α) (c : Collector α) (m : Message) (c' : Collector α) : Prop where
  filled : ∃ value, m.Carries decode value ∧ c'.slots[m.rank.toNat]? = some (some value)
  others : ∀ r, r ≠ m.rank.toNat → c'.slots[r]? = c.slots[r]?
  missing : c'.missing + 1 = c.missing

lemma Sound.missing_pos (hc : c.Sound size) (hslot : c.slots[r]? = some none) : 0 < c.missing := by
  rw [hc.missing_eq, List.countP_pos_iff]
  exact ⟨none, List.mem_of_getElem? hslot, rfl⟩

lemma Sound.fits_iff (hc : c.Sound size) :
    Fits decode size c m ↔ ∃ c', c.accept decode m = .ok c' := by
  simp only [Fits, accept_eq_ok_iff]
  constructor
  · rintro ⟨hpos, -, hslot, value, hm⟩
    refine ⟨_, ?_, hslot, value, hm, rfl⟩
    rintro hzero
    rw [hzero] at hpos
    cases hpos
  · rintro ⟨c', hrank, hslot, value, hm, -⟩
    have hlt := (List.getElem?_eq_some_iff.1 hslot).1
    rw [hc.length_slots] at hlt
    have hpos : m.rank.toNat ≠ 0 := fun hzero => hrank (UInt32.toNat_inj.1 hzero)
    exact ⟨by omega, by omega, hslot, value, hm⟩

lemma Sound.fills_of_accept (hc : c.Sound size) (h : c.accept decode m = .ok c') :
    Fills decode c m c' := by
  obtain ⟨-, hslot, value, hm, rfl⟩ := accept_eq_ok_iff.1 h
  have hlt := (List.getElem?_eq_some_iff.1 hslot).1
  have hpos := hc.missing_pos hslot
  exact {
    filled := ⟨value, hm, List.getElem?_set_self hlt⟩
    others := fun r hr => List.getElem?_set_ne hr.symm
    missing := Nat.sub_add_cancel hpos }

/-! ## Several messages -/

/-- A message is taken and fills a slot, or it leaves the account as it is. -/
lemma next_cases (decode : Decoder α) (c : Collector α) (m : Message) :
    c.accept decode m = .ok (c.next decode m) ∨
      (∃ e, c.accept decode m = .error e) ∧ c.next decode m = c := by
  rw [next, run_receive]
  cases c.accept decode m with
  | ok c' => exact .inl rfl
  | error e => exact .inr ⟨⟨e, rfl⟩, rfl⟩

lemma next_of_accept (h : c.accept decode m = .ok c') : c.next decode m = c' := by
  rw [next, run_receive_eq_ok_iff.2 h]

lemma exists_fill_or_same (decode : Decoder α) (c : Collector α) (m : Message) :
    (∃ value, c.next decode m = c.fill m.rank value) ∨ c.next decode m = c := by
  rcases next_cases decode c m with haccept | ⟨-, hsame⟩
  · obtain ⟨-, -, value, -, hfill⟩ := accept_eq_ok_iff.1 haccept
    exact .inl ⟨value, hfill⟩
  · exact .inr hsame

lemma Sound.next (hc : c.Sound size) (decode : Decoder α) (m : Message) :
    (c.next decode m).Sound size := by
  rcases next_cases decode c m with haccept | ⟨-, hsame⟩
  · obtain ⟨-, hslot, value, -, hfill⟩ := accept_eq_ok_iff.1 haccept
    rw [hfill]
    exact hc.fill hslot value
  · rw [hsame]
    exact hc

theorem Sound.reached (hc : c.Sound size) (decode : Decoder α) (ms : List Message) :
    (c.reached decode ms).Sound size := by
  induction ms generalizing c with
  | nil => exact hc
  | cons m ms ih => exact ih (hc.next decode m)

/-- What is in a slot stays there. -/
lemma getElem?_slots_next (h : c.slots[r]? = some (some value)) :
    (c.next decode m).slots[r]? = some (some value) := by
  rcases next_cases decode c m with haccept | ⟨-, hsame⟩
  · obtain ⟨-, hslot, _, -, hfill⟩ := accept_eq_ok_iff.1 haccept
    rw [hfill, getElem?_slots_fill hslot]
    exact .inl h
  · rw [hsame, h]

lemma getElem?_slots_reached (h : c.slots[r]? = some (some value)) (ms : List Message) :
    (c.reached decode ms).slots[r]? = some (some value) := by
  induction ms generalizing c with
  | nil => exact h
  | cons m ms ih => exact ih (getElem?_slots_next h)

lemma taken_cons_of_accept (h : c.accept decode m = .ok c') :
    c.taken decode (m :: ms) = m :: c'.taken decode ms := by
  rw [taken, run_receive_eq_ok_iff.2 h]

lemma taken_cons_of_error {e : Failure} (h : c.accept decode m = .error e) :
    c.taken decode (m :: ms) = c.taken decode ms := by
  rw [taken, run_receive, h]

/-- Each message that is taken makes one value less missing. -/
lemma length_taken_add_missing (hc : c.Sound size) (decode : Decoder α) (ms : List Message) :
    (c.taken decode ms).length + (c.reached decode ms).missing = c.missing := by
  induction ms generalizing c with
  | nil => exact Nat.zero_add _
  | cons m ms ih =>
    have hrest := ih (hc.next decode m)
    show _ + ((c.next decode m).reached decode ms).missing = _
    rcases next_cases decode c m with haccept | ⟨⟨e, haccept⟩, hsame⟩
    · have hmissing := (hc.fills_of_accept haccept).missing
      rw [taken_cons_of_accept haccept, List.length_cons]
      omega
    · rw [taken_cons_of_error haccept]
      rwa [hsame] at hrest ⊢

/-- The value of a message that was taken stays in the slot of its rank. -/
lemma getElem?_slots_of_mem_taken (hc : c.Sound size) (hm : m ∈ c.taken decode ms)
    (hvalue : m.Carries decode value) :
    (c.reached decode ms).slots[m.rank.toNat]? = some (some value) := by
  induction ms generalizing c with
  | nil => cases hm
  | cons first ms ih =>
    show ((c.next decode first).reached decode ms).slots[m.rank.toNat]? = _
    rcases next_cases decode c first with haccept | ⟨⟨e, haccept⟩, hsame⟩
    · rw [taken_cons_of_accept haccept] at hm
      rcases List.mem_cons.1 hm with rfl | hm
      · obtain ⟨value', hvalue', hslot⟩ := (hc.fills_of_accept haccept).filled
        rw [hvalue.unique hvalue']
        exact getElem?_slots_reached hslot ms
      · exact ih (hc.next decode first) hm
    · rw [taken_cons_of_error haccept] at hm
      rw [hsame]
      exact ih hc hm

/-! ## Another order -/

lemma fill_comm {rank rank' : UInt32} (hne : rank ≠ rank') (c : Collector α) (value value' : α) :
    (c.fill rank value).fill rank' value' = (c.fill rank' value').fill rank value := by
  have hslots : rank.toNat ≠ rank'.toNat := fun h => hne (UInt32.toNat_inj.1 h)
  rw [fill, fill, fill, fill, List.set_comm _ _ hslots]

/-- Whether a message is accepted, and with which value, depends on the slot of its rank only. -/
lemma accept_fill_of_ne (hne : m.rank ≠ rank) (decode : Decoder α) (c : Collector α) (value : α) :
    (c.fill rank value).accept decode m = (c.accept decode m).map (·.fill rank value) := by
  have hslot : (c.fill rank value).slots[m.rank.toNat]? = c.slots[m.rank.toNat]? :=
    List.getElem?_set_ne fun h => hne (UInt32.toNat_inj.1 h.symm)
  rw [accept, accept, hslot]
  rcases c.slots[m.rank.toNat]? with _ | slot
  · rfl
  dsimp only
  split
  · rfl
  split
  · rfl
  cases m.payload with
  | abort reason => rfl
  | value encoded =>
    cases hdecode : decode encoded with
    | error e => simp only [hdecode]; rfl
    | ok own =>
      simp only [hdecode]
      exact congrArg Except.ok (fill_comm hne.symm c value own)

lemma next_fill_of_ne (hne : m.rank ≠ rank) (decode : Decoder α) (c : Collector α) (value : α) :
    (c.fill rank value).next decode m = (c.next decode m).fill rank value := by
  have haccept := accept_fill_of_ne hne decode c value
  rcases next_cases decode c m with hok | ⟨⟨e, herror⟩, hsame⟩
  · rw [hok] at haccept
    exact next_of_accept haccept
  · rw [herror] at haccept
    rw [hsame, next, run_receive, haccept]
    rfl

/-- Messages of different ranks can change places. -/
lemma next_comm (hne : m.rank ≠ m'.rank) (decode : Decoder α) (c : Collector α) :
    (c.next decode m).next decode m' = (c.next decode m').next decode m := by
  rcases exists_fill_or_same decode c m with ⟨value, hfill⟩ | hsame
  · rcases exists_fill_or_same decode c m' with ⟨value', hfill'⟩ | hsame'
    · rw [hfill, next_fill_of_ne hne.symm, hfill', next_fill_of_ne hne, hfill, fill_comm hne]
    · rw [hfill, next_fill_of_ne hne.symm, hsame', hfill]
  · rcases exists_fill_or_same decode c m' with ⟨value', hfill'⟩ | hsame'
    · rw [hsame, hfill', next_fill_of_ne hne, hsame]
    · rw [hsame, hsame', hsame]

/-- The account that messages of different ranks leave does not depend on their order. -/
theorem reached_eq_of_perm {ms ms' : List Message} (hperm : ms.Perm ms')
    (hranks : (ms.map (·.rank)).Nodup) (decode : Decoder α) (c : Collector α) :
    c.reached decode ms = c.reached decode ms' := by
  apply hperm.foldl_eq'
  intro m hm m' hm' c
  by_cases heq : m = m'
  · rw [heq]
  · exact next_comm (fun hrank => heq (List.inj_on_of_nodup_map hranks hm hm' hrank)) decode c

/-! ## The account of a group -/

lemma Sound.isComplete_iff_slots (hc : c.Sound size) :
    c.isComplete = true ↔ ∀ r < size, ∃ value, c.slots[r]? = some (some value) := by
  rw [hc.isComplete_iff, ← hc.length_slots]
  constructor
  · intro h r hr
    obtain ⟨value, hvalue⟩ := Option.isSome_iff_exists.1 (h _ (List.getElem_mem hr))
    exact ⟨value, by rw [List.getElem?_eq_getElem hr, hvalue]⟩
  · intro h slot hslot
    obtain ⟨r, hr, rfl⟩ := List.mem_iff_getElem.1 hslot
    obtain ⟨value, hvalue⟩ := h r hr
    rw [List.getElem?_eq_getElem hr, Option.some.injEq] at hvalue
    rw [hvalue, Option.isSome_some]

lemma Sound.exists_finish_iff (hc : c.Sound size) :
    (∃ values, c.finish = .ok values) ↔ c.isComplete = true := by
  constructor
  · rintro ⟨values, hvalues⟩
    rw [hc.isComplete_iff, finish_eq_ok_iff.1 hvalues]
    simp
  · intro h
    obtain ⟨values, hslots⟩ := hc.exists_of_isComplete h
    exact ⟨values, finish_eq_ok_iff.2 hslots⟩

lemma getElem?_of_finish {values : List α} (h : c.finish = .ok values)
    (hslot : c.slots[r]? = some (some value)) : values[r]? = some value := by
  rw [finish_eq_ok_iff.1 h, List.getElem?_map, Option.map_eq_some_iff] at hslot
  obtain ⟨value', hvalue', heq⟩ := hslot
  rw [hvalue', Option.some.inj heq]

/-- The account of a group after any messages. `missing` is the number of empty slots, and the
account is complete exactly if no slot is empty. A message is taken exactly if it fits, and then it
fills its sender's slot; a message that is refused changes nothing, and no more messages are taken
than there are other processes. The result exists exactly if the account is complete, and has each
value at the rank of its sender. The order of messages of different ranks does not matter. -/
theorem account_spec (decode : Decoder α) {size : UInt32} (hsize : 0 < size.toNat) (own : α) :
    (∀ ms c, (start size own).reached decode ms = c →
      c.slots.length = size.toNat ∧ c.missing = c.slots.countP Option.isNone ∧
      (c.isComplete = true ↔ ∀ r < size.toNat, ∃ value, c.slots[r]? = some (some value)) ∧
      (∀ m, (∃ c', (receive decode m).run c = .ok () c') ↔ Fits decode size.toNat c m) ∧
      (∀ m c', (receive decode m).run c = .ok () c' → Fills decode c m c') ∧
      (∀ m e c', (receive decode m).run c = .error e c' → c' = c) ∧
      ((start size own).taken decode ms).length ≤ size.toNat - 1 ∧
      ((∃ values, c.finish = .ok values) ↔ c.isComplete = true) ∧
      ∀ values, c.finish = .ok values →
        values.length = size.toNat ∧ values[0]? = some own ∧
          ∀ m ∈ (start size own).taken decode ms, ∀ value, m.Carries decode value →
            values[m.rank.toNat]? = some value) ∧
    ∀ ms ms' : List Message, ms.Perm ms' → (ms.map (·.rank)).Nodup →
      ((start size own).reached decode ms).finish =
        ((start size own).reached decode ms').finish := by
  have hstart := sound_start hsize own
  have hown : (start size own).slots[0]? = some (some own) := getElem?_slots_start.2 ⟨rfl, rfl⟩
  constructor
  · rintro ms c rfl
    have hc := hstart.reached decode ms
    -- `taken` and `missing` share the slots of the other processes, so each bounds the other.
    have hcount := length_taken_add_missing hstart decode ms
    refine ⟨hc.length_slots, hc.missing_eq, hc.isComplete_iff_slots, ?_, ?_, ?_, ?_,
      hc.exists_finish_iff, ?_⟩
    · intro m
      simp only [hc.fits_iff, run_receive_eq_ok_iff]
    · intro m c' h
      exact hc.fills_of_accept (run_receive_eq_ok_iff.1 h)
    · intro m e c' h
      exact eq_of_run_receive_eq_error h
    · have hmissing : (start size own).missing = size.toNat - 1 := rfl
      omega
    · intro values hvalues
      refine ⟨?_, getElem?_of_finish hvalues (getElem?_slots_reached hown ms), ?_⟩
      · rw [← hc.length_slots, finish_eq_ok_iff.1 hvalues, List.length_map]
      · intro m hm value hvalue
        exact getElem?_of_finish hvalues (getElem?_slots_of_mem_taken hstart hm hvalue)
  -- Messages of distinct ranks commute, as each looks at its own slot only.
  · intro ms ms' hperm hranks
    rw [reached_eq_of_perm hperm hranks]

/-- The message by which a rank contributes a number. -/
def numberOf (rank n : UInt32) : Message :=
  ⟨rank, .value (Codec.u32.encode n)⟩

/-- In a group of three, a rank that has contributed and then aborts changes nothing, and the values
of the other two are by rank in whichever order they come. -/
theorem account_of_three :
    0 < (3 : UInt32).toNat ∧
    (∃ e c', (receive Codec.u32.deserialize ⟨1, .abort "late"⟩).run
        ((start 3 100).reached Codec.u32.deserialize [numberOf 1 101]) = .error e c' ∧
      c' = (start 3 100).reached Codec.u32.deserialize [numberOf 1 101]) ∧
    ((start 3 100).reached Codec.u32.deserialize [numberOf 2 102, numberOf 1 101]).finish =
      .ok [100, 101, 102] ∧
    ((start 3 100).reached Codec.u32.deserialize [numberOf 1 101, numberOf 2 102]).finish =
      .ok [100, 101, 102] := by
  have hsize : 0 < (3 : UInt32).toNat := by decide
  obtain ⟨hreached, horder⟩ := account_spec Codec.u32.deserialize hsize 100
  obtain ⟨-, -, -, -, -, hrefused, -⟩ := hreached [numberOf 1 101] _ rfl
  have hfirst : ((start 3 100).reached Codec.u32.deserialize
      [numberOf 2 102, numberOf 1 101]).finish = .ok [100, 101, 102] := by decide
  have hrepeated : (receive Codec.u32.deserialize ⟨1, .abort "late"⟩).run
      ((start 3 100).reached Codec.u32.deserialize [numberOf 1 101]) =
        .error (.protocol (.repeatedRank 1))
          ((start 3 100).reached Codec.u32.deserialize [numberOf 1 101]) := rfl
  refine ⟨hsize, ⟨_, _, hrepeated, hrefused _ _ _ hrepeated⟩, hfirst, ?_⟩
  rw [← horder [numberOf 2 102, numberOf 1 101] _ (.swap _ _ []) (by decide), hfirst]

end JobBinding.Gather.Collector

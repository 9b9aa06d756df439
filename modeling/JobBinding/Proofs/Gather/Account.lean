import JobBinding.Proofs.Gather.Series
import JobBinding.Proofs.Gather.Transport

/-!
# The account of a round

What the coordinator makes of connections that bring different contributions to its round: a
process that has given up ends the gather, and otherwise the empty slots are those of the processes
that have not contributed (`account_cases`).
-/

namespace JobBinding.Gather

/-! ## Empty slots -/

namespace Collector

variable {α : Type} {c : Collector α}

lemma getElem?_slots_fill_eq_none {rank : UInt32} {value : α} {r : Nat}
    (hslot : c.slots[rank.toNat]? = some none) :
    (c.fill rank value).slots[r]? = some none ↔ c.slots[r]? = some none ∧ rank.toNat ≠ r := by
  obtain ⟨hlt, -⟩ := List.getElem?_eq_some_iff.1 hslot
  rw [fill]
  by_cases hr : rank.toNat = r
  · subst hr
    rw [List.getElem?_set_self hlt]
    simp
  · rw [List.getElem?_set_ne hr]
    simp [hr]

lemma getElem?_slots_start_eq_none {size : UInt32} {own : α} {r : Nat} :
    (start size own).slots[r]? = some none ↔ r ≠ 0 ∧ r < size.toNat := by
  cases r with
  | zero => simp [start]
  | succ r =>
    simp only [start, List.getElem?_cons_succ, List.getElem?_replicate]
    split
    · next h =>
      simp only [ne_eq, Nat.add_eq_zero_iff, one_ne_zero, and_false, not_false_eq_true, true_and,
        true_iff]
      omega
    · next h =>
      simp only [reduceCtorEq, false_iff, not_and, not_lt]
      omega

/-- An account with an empty slot is not complete. -/
lemma Sound.isComplete_eq_false {size r : Nat} (h : c.Sound size)
    (hslot : c.slots[r]? = some none) : c.isComplete = false := by
  rw [Bool.eq_false_iff]
  intro hcomplete
  have hfilled := h.isComplete_iff.1 hcomplete none (List.mem_of_getElem? hslot)
  cases hfilled

end Collector

namespace Series

variable {α : Type} {m : Series α}

/-! ## The account of a round -/

/-- Whether a contribution is one of the group. -/
structure Belongs (m : Series α) (c : Contribution) : Prop where
  isMember : m.IsMember c.rank
  round_lt : c.round < m.rounds

/-- Whether everything that the processes send fits a frame. -/
def Fits (m : Series α) : Prop :=
  ∀ c, m.Belongs c →
    ∃ bytes, (m.payload c >>= fun payload => Message.toConnection ⟨c.rank, payload⟩) = .ok bytes

/-- A message whose payload is small enough fits a frame. -/
lemma exists_toConnection {message : Message} (h : message.payload.size ≤ Codec.limit - 16) :
    ∃ bytes, message.toConnection = .ok bytes := by
  have hlimit : 16 ≤ Codec.limit := by decide
  refine ⟨_, Message.toConnection_eq_ok_iff.2 ⟨?_, rfl⟩⟩
  rw [Message.length_encode]
  omega

/-- Whether some connections bring different contributions to a round. -/
structure Brings (m : Series α) (round : Nat) (taken : List (Contribution × Connection)) :
    Prop where
  belongs : ∀ t ∈ taken, m.Belongs t.1
  round_eq : ∀ t ∈ taken, t.1.round = round
  flatten_eq : ∀ t ∈ taken, t.2.flatten = m.message t.1
  nodup : (taken.map (·.1)).Nodup

lemma Brings.of_cons {round : Nat} {t : Contribution × Connection}
    {taken : List (Contribution × Connection)} (h : m.Brings round (t :: taken)) :
    m.Brings round taken where
  belongs u hu := h.belongs u (List.mem_cons_of_mem t hu)
  round_eq u hu := h.round_eq u (List.mem_cons_of_mem t hu)
  flatten_eq u hu := h.flatten_eq u (List.mem_cons_of_mem t hu)
  nodup := (List.nodup_cons.1 h.nodup).2

/-- Contributions to one round come from different ranks. -/
lemma Brings.rank_ne {round : Nat} {t u : Contribution × Connection}
    {taken : List (Contribution × Connection)} (h : m.Brings round (t :: taken)) (hu : u ∈ taken) :
    t.1.rank.toNat ≠ u.1.rank.toNat := by
  intro hrank
  have hround : t.1.round = u.1.round := by
    rw [h.round_eq t List.mem_cons_self, h.round_eq u (List.mem_cons_of_mem t hu)]
  have heq : t.1 = u.1 := Contribution.ext (UInt32.toNat_inj.1 hrank) hround
  exact (List.nodup_cons.1 h.nodup).1 (List.mem_map.2 ⟨u, hu, heq.symm⟩)

/-- A connection with what a process sends carries its message. -/
lemma exists_isOn (hfits : m.Fits) {c : Contribution} (hc : m.Belongs c) {connection : Connection}
    (hbytes : connection.flatten = m.message c) :
    ∃ payload, m.payload c = .ok payload ∧ Message.IsOn ⟨c.rank, payload⟩ connection := by
  obtain ⟨bytes, hsent⟩ := hfits c hc
  have hmessage : m.message c = bytes := by rw [message, hsent]
  obtain ⟨payload, hpayload, hbytes'⟩ := bind_eq_ok_iff.1 hsent
  refine ⟨payload, hpayload, bytes, [], hbytes', ?_⟩
  rw [hbytes, hmessage, List.append_nil]

lemma payload_of_reason {c : Contribution} {reason : String}
    (h : m.reason c.round c.rank = some reason) : m.payload c = .ok (.abort reason) := by
  rw [payload, h]

lemma exists_encoded_of_payload {c : Contribution} {payload : Payload}
    (h : m.reason c.round c.rank = none) (hpayload : m.payload c = .ok payload) :
    ∃ encoded, payload = .value encoded ∧
      m.codec.serialize (m.value c.round c.rank) = .ok encoded := by
  rw [Series.payload, h] at hpayload
  cases hencoded : m.codec.serialize (m.value c.round c.rank) with
  | error e =>
    rw [hencoded] at hpayload
    cases hpayload
  | ok encoded =>
    rw [hencoded] at hpayload
    cases hpayload
    exact ⟨encoded, rfl, rfl⟩

/-- Connections that bring different contributions, none of which the account has, either fill the
slots of their ranks, or one of them is of a process that has given up, and this ends the gather. -/
theorem serve_cases (hcodec : m.codec.Faithful) (hfits : m.Fits) {round : Nat}
    {taken : List (Contribution × Connection)} (hbrings : m.Brings round taken) {size : Nat}
    {c : Collector α} (hsound : c.Sound size)
    (hempty : ∀ t ∈ taken, c.slots[t.1.rank.toNat]? = some none) :
    (∃ t ∈ taken, ∃ reason, m.reason round t.1.rank = some reason ∧
      Coordinator.serve m.codec.deserialize c (taken.map (·.2)) =
        .error (.aborted t.1.rank reason)) ∨
    (∀ t ∈ taken, m.reason round t.1.rank = none) ∧
      ∃ c', Coordinator.serve m.codec.deserialize c (taken.map (·.2)) = .ok c' ∧ c'.Sound size ∧
        ∀ r, c'.slots[r]? = some none ↔
          c.slots[r]? = some none ∧ ∀ t ∈ taken, t.1.rank.toNat ≠ r := by
  -- The account changes, so the induction is for every one that is empty at the ranks to come.
  induction taken generalizing c with
  | nil => exact .inr ⟨nofun, c, rfl, hsound, fun r => by simp⟩
  | cons t rest ih =>
    have hslot := hempty t List.mem_cons_self
    have hbelongs := hbrings.belongs t List.mem_cons_self
    have hround := hbrings.round_eq t List.mem_cons_self
    obtain ⟨payload, hpayload, hison⟩ :=
      exists_isOn hfits hbelongs (hbrings.flatten_eq t List.mem_cons_self)
    rw [List.map_cons, Coordinator.serve_cons hison (hsound.isComplete_eq_false hslot)]
    cases hreason : m.reason round t.1.rank with
    | some reason =>
      rw [payload_of_reason (hround ▸ hreason)] at hpayload
      cases hpayload
      rw [Collector.accept_of_abort hbelongs.isMember.1 hslot rfl]
      exact .inl ⟨t, List.mem_cons_self, reason, hreason, rfl⟩
    | none =>
      obtain ⟨encoded, rfl, hencoded⟩ := exists_encoded_of_payload (hround ▸ hreason) hpayload
      have hcarries : Message.Carries m.codec.deserialize ⟨t.1.rank, .value encoded⟩
          (m.value t.1.round t.1.rank) :=
        ⟨encoded, rfl, hcodec.deserialize_of_serialize hencoded⟩
      rw [Collector.accept_of_carries hbelongs.isMember.1 hslot hcarries]
      -- Ranks are distinct within a round, so filling one slot leaves those of the rest empty.
      have hrest : ∀ u ∈ rest,
          (c.fill t.1.rank (m.value t.1.round t.1.rank)).slots[u.1.rank.toNat]? = some none := by
        intro u hu
        rw [Collector.getElem?_slots_fill_eq_none hslot]
        exact ⟨hempty u (List.mem_cons_of_mem t hu), hbrings.rank_ne hu⟩
      rcases ih hbrings.of_cons (hsound.fill hslot _) hrest with
        ⟨u, hu, reason, hureason, herror⟩ | ⟨hnone, c', hc', hsound', hslots⟩
      · exact .inl ⟨u, List.mem_cons_of_mem t hu, reason, hureason, herror⟩
      · refine .inr ⟨List.forall_mem_cons.2 ⟨hreason, hnone⟩, c', hc', hsound', fun r => ?_⟩
        rw [hslots r, Collector.getElem?_slots_fill_eq_none hslot, List.forall_mem_cons, and_assoc]

/-- The account of a round is in error only because of a process that has given up, and otherwise
the slots of those that have not contributed are empty. -/
theorem account_cases (hcodec : m.codec.Faithful) (hfits : m.Fits) {round : Nat}
    {taken : List (Contribution × Connection)} (hbrings : m.Brings round taken) :
    (∃ t ∈ taken, ∃ reason, m.reason round t.1.rank = some reason ∧
      m.account round taken = .error (.aborted t.1.rank reason)) ∨
    (∀ t ∈ taken, m.reason round t.1.rank = none) ∧
      ∃ c, m.account round taken = .ok c ∧ c.Sound m.size.toNat ∧
        ∀ rank, m.IsMember rank → (∀ t ∈ taken, t.1.rank ≠ rank) → c.isComplete = false := by
  have hsound := Collector.sound_start m.size_pos (m.value round 0)
  have hslot {rank : UInt32} (hrank : m.IsMember rank) :
      (Collector.start m.size (m.value round 0)).slots[rank.toNat]? = some none := by
    rw [Collector.getElem?_slots_start_eq_none]
    refine ⟨fun hzero => hrank.1 (UInt32.toNat_inj.1 hzero), UInt32.lt_iff_toNat_lt.1 hrank.2⟩
  rcases serve_cases hcodec hfits hbrings hsound fun t ht => hslot (hbrings.belongs t ht).isMember
    with herror | ⟨hnone, c, hc, hsound', hslots⟩
  · exact .inl herror
  -- A rank that has contributed nothing keeps its empty slot, which keeps the account open.
  · refine .inr ⟨hnone, c, hc, hsound', fun rank hrank hmissing => ?_⟩
    apply hsound'.isComplete_eq_false (r := rank.toNat)
    rw [hslots]
    exact ⟨hslot hrank, fun t ht heq => hmissing t ht (UInt32.toNat_inj.1 heq)⟩

end Series

end JobBinding.Gather

import Mathlib.Tactic.Common
import JobBinding.Gather.Team

/-!
# What the members of a team can do

Each operation on a team, by what it does to the three things that a team consists of: the
coordinator, the members that can still send, and the queue.
-/

namespace JobBinding.Gather

namespace Team

variable {α : Type} {t : Team α} {rank other : UInt32}

/-! ## Who can still send -/

lemma canSend_eq_true_iff : t.canSend rank = true ↔ t.senders[rank.toNat - 1]? = some true := by
  unfold canSend
  cases t.senders[rank.toNat - 1]? <;> simp

lemma canSend_ofSize {size : UInt32} (hrank : 0 < rank.toNat) (h : rank.toNat < size.toNat) :
    (ofSize (α := α) size).canSend rank = true := by
  rw [canSend_eq_true_iff, ofSize, List.getElem?_replicate, if_pos (by omega)]

@[simp] lemma canSend_spend_self : (t.spend rank).canSend rank = false := by
  rw [Bool.eq_false_iff, ne_eq, canSend_eq_true_iff, spend, List.getElem?_set]
  simp

lemma canSend_spend_of_ne (hrank : 0 < rank.toNat) (hother : 0 < other.toNat)
    (h : rank.toNat ≠ other.toNat) : (t.spend rank).canSend other = t.canSend other := by
  unfold canSend spend
  rw [List.getElem?_set_ne (by omega)]

lemma canSend_eq_false_of_any (h : t.senders.any id = false) : t.canSend rank = false := by
  rw [Bool.eq_false_iff, ne_eq, canSend_eq_true_iff]
  intro hrank
  have hmem := List.mem_of_getElem? hrank
  simp_all

/-- If somebody can still send, then it is one of the ranks after the coordinator's. -/
lemma exists_canSend_of_any (hsize : t.senders.length + 1 < UInt32.size)
    (h : t.senders.any id = true) :
    ∃ rank : UInt32, 0 < rank.toNat ∧ rank.toNat ≤ t.senders.length ∧ t.canSend rank = true := by
  obtain ⟨unused, hmem, rfl⟩ : ∃ unused ∈ t.senders, unused = true := by simpa using h
  obtain ⟨i, hi⟩ := List.mem_iff_getElem?.1 hmem
  have hlt := (List.getElem?_eq_some_iff.1 hi).1
  have hrank : (UInt32.ofNat (i + 1)).toNat = i + 1 := UInt32.toNat_ofNat_of_lt (by omega)
  refine ⟨UInt32.ofNat (i + 1), by omega, by omega, ?_⟩
  rw [canSend_eq_true_iff, hrank, Nat.add_sub_cancel, hi]

/-! ## Sending -/

lemma send_of_isListening (payload : Payload) (hsend : t.canSend rank = true)
    (h : t.isListening = true) :
    t.send rank payload =
      (.ok (), { t.spend rank with queue := t.queue ++ [⟨rank, payload⟩] }) := by
  have hspend : (t.spend rank).isListening = true := h
  simp only [send, hsend, hspend, if_true]
  rfl

lemma send_of_not_isListening (payload : Payload) (hsend : t.canSend rank = true)
    (h : t.isListening = false) :
    t.send rank payload = (.error (.protocol .coordinatorLeft), t.spend rank) := by
  have hspend : (t.spend rank).isListening = false := h
  simp [send, hsend, hspend]

lemma send_of_canSend_eq_false (payload : Payload) (hsend : t.canSend rank = false) :
    t.send rank payload = (.error (.protocol .alreadySent), t) := by
  simp [send, hsend]

lemma contribute_of_le (codec : Codec α) {value : α}
    (h : (codec.encode value).length ≤ Codec.limit) :
    t.contribute codec rank value = t.send rank (.value (codec.encode value)) := by
  simp only [contribute, Codec.serialize, if_pos h]

lemma leave_of_ne_zero (h : rank ≠ 0) : t.leave rank = t.spend rank := by
  rw [leave, if_neg h]

lemma leave_zero : t.leave 0 = t.close := by
  rw [leave, if_pos rfl]

/-! ## A turn of the coordinator -/

variable {decode : Decoder α} {c : Collector α}

lemma turn_of_isComplete (hleader : t.leader = .gathering decode c) (h : c.isComplete = true) :
    t.turn = (.decided c.finish, t.close) := by
  simp [turn, hleader, h]

lemma turn_of_accept_eq_ok {c' : Collector α} {m : Message} {rest : List Message}
    (hleader : t.leader = .gathering decode c) (hc : c.isComplete = false)
    (hqueue : t.queue = m :: rest) (haccept : c.accept decode m = .ok c') :
    t.turn = (.took, { t with queue := rest, leader := .gathering decode c' }) := by
  simp [turn, hleader, hc, hqueue, haccept]

lemma turn_of_accept_eq_error {e : Failure} {m : Message} {rest : List Message}
    (hleader : t.leader = .gathering decode c) (hc : c.isComplete = false)
    (hqueue : t.queue = m :: rest) (haccept : c.accept decode m = .error e) :
    t.turn = (.decided (.error e), { t with queue := rest }.close) := by
  simp [turn, hleader, hc, hqueue, haccept]

lemma turn_of_any_senders (hleader : t.leader = .gathering decode c) (hc : c.isComplete = false)
    (hqueue : t.queue = []) (hany : t.senders.any id = true) : t.turn = (.waits, t) := by
  simp only [turn, hleader, hc, hqueue, hany, Bool.false_eq_true, if_false, if_true]

lemma turn_of_not_any_senders (hleader : t.leader = .gathering decode c)
    (hc : c.isComplete = false) (hqueue : t.queue = []) (hany : t.senders.any id = false) :
    t.turn = (.decided (.error (.protocol .participantsLeft)), t.close) := by
  simp only [turn, hleader, hc, hqueue, hany, Bool.false_eq_true, if_false]

@[simp] lemma queue_begins (codec : Codec α) (own : α) :
    (t.begins codec own).2.queue = t.queue := by
  unfold begins
  split <;> rfl

/-- The coordinator takes messages and puts none. -/
lemma length_queue_turn_le : t.turn.2.queue.length ≤ t.queue.length := by
  unfold turn
  split
  · split
    · exact Nat.le_refl _
    split
    · next hqueue =>
      rw [hqueue]
      dsimp only
      split <;> exact Nat.le_succ _
    · split <;> exact Nat.le_refl _
  · exact Nat.le_refl _

end Team

end JobBinding.Gather

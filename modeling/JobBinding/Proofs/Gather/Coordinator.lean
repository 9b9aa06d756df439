import JobBinding.Gather.Coordinator
import JobBinding.Proofs.Gather.Collector
import JobBinding.Proofs.Rendezvous.File

/-!
# The connections of a coordinator

A coordinator takes one message from each connection. If every connection brings what a process of
its own group contributes, then each slot that is filled holds the value of its rank
(`Agrees.serve`), however the bytes of a connection were divided and in whatever order the
connections came. A coordinator that is done thus has the value of each process
(`Agrees.of_finish`).
-/

namespace JobBinding.Gather

variable {α : Type} {codec : Codec α} {decode : Decoder α}

/-- What the process of a rank puts on its connection to contribute a value. It is nothing if the
value, or the message with it, is too large. -/
def contribution (codec : Codec α) (rank : UInt32) (value : α) : List UInt8 :=
  match codec.serialize value >>= fun encoded => Message.toConnection ⟨rank, .value encoded⟩ with
  | .ok bytes => bytes
  | .error _ => []

/-- A connection with a contribution brings the message of that rank with that value, or none. -/
lemma carries_of_contribution (hcodec : codec.Faithful) {rank : UInt32} {value : α}
    {connection : Connection} (hbytes : connection.flatten = contribution codec rank value)
    {m : Message} (hm : Message.ofConnection connection = .ok m) :
    m.rank = rank ∧ m.Carries codec.deserialize value := by
  unfold contribution at hbytes
  split at hbytes
  · next bytes hsent =>
    obtain ⟨encoded, hencoded, hsent⟩ := bind_eq_ok_iff.1 hsent
    rw [← List.append_nil bytes] at hbytes
    have hread : Message.ofConnection connection = .ok ⟨rank, .value encoded⟩ :=
      Message.ofConnection_of_toConnection hsent hbytes
    cases hm.symm.trans hread
    exact ⟨rfl, encoded, rfl, hcodec.deserialize_of_serialize hencoded⟩
  · -- Nothing was sent, so the coordinator takes the connection for one that broke off.
    rw [Message.ofConnection_of_flatten_eq_nil hbytes] at hm
    cases hm

namespace Collector

variable {c c' : Collector α} {values : UInt32 → α} {size : Nat}

/-- A sound account whose filled slots hold the values of their ranks. -/
structure Agrees (values : UInt32 → α) (size : Nat) (c : Collector α) : Prop where
  sound : c.Sound size
  eq_of_slot : ∀ (rank : UInt32) (v : α), c.slots[rank.toNat]? = some (some v) → v = values rank

lemma agrees_start {size : UInt32} (hpos : 0 < size.toNat) (values : UInt32 → α) :
    (start size (values 0)).Agrees values size.toNat where
  sound := sound_start hpos (values 0)
  eq_of_slot rank v hslot := by
    obtain ⟨hrank, rfl⟩ := getElem?_slots_start.1 hslot
    have hzero : rank = 0 := UInt32.toNat_inj.1 hrank
    rw [hzero]

lemma Agrees.accept (h : c.Agrees values size) {m : Message}
    (haccept : c.accept decode m = .ok c') (hm : m.Carries decode (values m.rank)) :
    c'.Agrees values size := by
  obtain ⟨-, hempty, value, hcarries, rfl⟩ := accept_eq_ok_iff.1 haccept
  refine ⟨h.sound.fill hempty value, fun rank v hslot => ?_⟩
  rcases (getElem?_slots_fill hempty).1 hslot with hslot | ⟨hrank, rfl⟩
  · exact h.eq_of_slot rank v hslot
  · rw [← UInt32.toNat_inj.1 hrank]
    exact hcarries.unique hm

/-- Taking connections that each bring a contribution of the group keeps an account in agreement
with the group's values. -/
theorem Agrees.serve (hcodec : codec.Faithful) {connections : List Connection}
    (h : c.Agrees values size)
    (hbrings : ∀ connection ∈ connections,
      ∃ rank, connection.flatten = contribution codec rank (values rank))
    (hserve : Coordinator.serve codec.deserialize c connections = .ok c') :
    c'.Agrees values size := by
  induction connections generalizing c with
  | nil =>
    cases hserve
    exact h
  | cons connection rest ih =>
    rw [Coordinator.serve] at hserve
    split at hserve
    · cases hserve
      exact h
    split at hserve
    · next next hnext =>
      -- A message that is taken fills the slot of its rank with its value.
      obtain ⟨m, hm, haccept⟩ := bind_eq_ok_iff.1 hnext
      obtain ⟨rank, hbytes⟩ := hbrings connection List.mem_cons_self
      obtain ⟨rfl, hcarries⟩ := carries_of_contribution hcodec hbytes hm
      exact ih (h.accept haccept hcarries)
        (fun other hother => hbrings other (List.mem_cons_of_mem _ hother)) hserve
    · cases hserve

/-- The values of a complete account are the values of the group, by rank. -/
theorem Agrees.of_finish (h : c.Agrees values size) {result : List α}
    (hfinish : c.finish = .ok result) :
    result.length = size ∧
      ∀ rank : UInt32, rank.toNat < size → result[rank.toNat]? = some (values rank) := by
  have hslots : c.slots = result.map some := finish_eq_ok_iff.1 hfinish
  have hlength : result.length = size := by
    rw [← h.sound.length_slots, hslots, List.length_map]
  refine ⟨hlength, fun rank hrank => ?_⟩
  have hlt : rank.toNat < result.length := by omega
  have hslot : c.slots[rank.toNat]? = some (some result[rank.toNat]) := by
    rw [hslots, List.getElem?_map, List.getElem?_eq_getElem hlt, Option.map_some]
  rw [List.getElem?_eq_getElem hlt, h.eq_of_slot rank _ hslot]

end Collector

namespace Coordinator

variable {p : Participant} {port : UInt16} {now : Instant} {own : α}
  {connections : List Connection} {tree : FileTree}

/-- What a coordinator that has taken its connections answers: a result if its account is complete,
and otherwise that it waits. -/
def answer (c : Collector α) : Except Failure (Option (List α)) :=
  if c.isComplete then c.finish.map some else .ok none

/-- A gather publishes, takes its connections and answers. Removing the file afterwards does not
change the result. -/
lemma result_collect_eq :
    (collect p port now codec own connections).result tree =
      ((p.rendezvous.publish (p.record port now none)).result tree >>= fun _ =>
        serve codec.deserialize (.start p.size own) connections >>= answer) := by
  rw [Files.result, collect, Files.run_bind, Files.result]
  cases (p.rendezvous.publish (p.record port now none)).run tree with
  | error e after => rfl
  | ok u after =>
    show _ = serve codec.deserialize (.start p.size own) connections >>= answer
    cases serve codec.deserialize (.start p.size own) connections with
    | error e =>
      simp only [Files.run_bind, Rendezvous.run_remove]
      rfl
    | ok c =>
      show _ = answer c
      unfold answer
      by_cases h : c.isComplete = true
      · simp only [if_pos h, Files.run_bind, Rendezvous.run_remove, Files.run_ofExcept]
        cases c.finish <;> rfl
      · simp only [if_neg h, Files.run_pure]

/-- A coordinator that can publish and whose account is complete has the values of the account. -/
lemma result_collect {c : Collector α} {values : List α}
    (hpublish : (p.rendezvous.publish (p.record port now none)).result tree = .ok ())
    (hserve : serve codec.deserialize (.start p.size own) connections = .ok c)
    (hcomplete : c.isComplete = true) (hfinish : c.finish = .ok values) :
    (collect p port now codec own connections).result tree = .ok (some values) := by
  rw [result_collect_eq, hpublish, hserve]
  show answer c = .ok (some values)
  rw [answer, if_pos hcomplete, hfinish]
  rfl

end Coordinator

end JobBinding.Gather

import JobBinding.Gather.Worker
import JobBinding.Proofs.Gather.Coordinator

/-!
# What a worker delivers

A look at the rendezvous file reads it, decides about what is in it, connects and sends. A delivery
therefore tells what each of these has given (`of_contribute`).
-/

namespace JobBinding.Gather.Worker

variable {α : Type} {p : Participant} {tree : FileTree}

/-- Looking for a record gives what reading gives, also if that is a failure. -/
lemma run_find : (find p).run tree = .ok (p.rendezvous.read.result tree) tree := by
  have hafter : p.rendezvous.read.after tree = tree := Rendezvous.after_read
  have hrun : (find p).run tree =
      .ok (p.rendezvous.read.result tree) (p.rendezvous.read.after tree) := by
    rw [find, Files.run_tryCatch, Files.run_bind, Files.result, Files.after]
    cases p.rendezvous.read.run tree <;> rfl
  rw [hrun, hafter]

lemma look_eq_ended_ok_iff {payload : Payload} {network : Network}
    {found : Except Failure (Option Record)} {d : Delivery} :
    look p payload network found = .ended (.ok d) ↔
      consider p found = .connect d.host d.port ∧ network d.host d.port = true ∧
        Message.toConnection ⟨p.placement.rank, payload⟩ = .ok d.bytes := by
  unfold look
  cases consider p found with
  | lookAgain => simp
  | giveUp e => simp
  | connect host port =>
    dsimp only
    by_cases hreach : network host port = true
    · rw [if_pos hreach]
      cases Message.toConnection ⟨p.placement.rank, payload⟩ with
      | error e => simp
      | ok bytes =>
        constructor
        · intro h
          cases h
          exact ⟨rfl, hreach, rfl⟩
        · rintro ⟨hplace, -, hbytes⟩
          cases hplace
          cases hbytes
          rfl
    · rw [if_neg hreach]
      constructor
      · intro h
        cases h
      · rintro ⟨hplace, hreach', -⟩
        cases hplace
        exact absurd hreach' hreach

lemma contribution_of_toConnection {codec : Codec α} {rank : UInt32} {value : α}
    {encoded bytes : List UInt8} (hencoded : codec.serialize value = .ok encoded)
    (hbytes : Message.toConnection ⟨rank, .value encoded⟩ = .ok bytes) :
    contribution codec rank value = bytes := by
  have hsent : (codec.serialize value >>= fun encoded =>
      Message.toConnection ⟨rank, .value encoded⟩) = .ok bytes :=
    bind_eq_ok_iff.2 ⟨encoded, hencoded, hbytes⟩
  rw [contribution, hsent]

/-- A worker that delivers a value has found a record with the place where it delivers, could reach
that place, and has sent its contribution. -/
theorem of_contribute {codec : Codec α} {value : α} {network : Network} {d : Delivery}
    (h : (contribute p codec value network).result tree = .ok (some d)) :
    consider p (p.rendezvous.read.result tree) = .connect d.host d.port ∧
      network d.host d.port = true ∧ d.bytes = contribution codec p.placement.rank value := by
  obtain ⟨tree', h⟩ := Files.result_eq_ok_iff.1 h
  cases hencoded : codec.serialize value with
  | error e =>
    rw [contribute, hencoded] at h
    cases h
  | ok encoded =>
    have hsend : (send p (.value encoded) network).run tree = .ok (some d) tree' := by
      rw [contribute, Files.run_bind, hencoded] at h
      exact h
    -- Only a decision to connect that somebody answers makes a delivery.
    rw [send, Files.run_bind, run_find] at hsend
    cases hlook : look p (.value encoded) network (p.rendezvous.read.result tree) with
    | again =>
      simp only [hlook] at hsend
      cases hsend
    | ended result =>
      cases result with
      | error e =>
        simp only [hlook] at hsend
        cases hsend
      | ok delivered =>
        simp only [hlook] at hsend
        cases hsend
        obtain ⟨hplace, hreach, hbytes⟩ := look_eq_ended_ok_iff.1 hlook
        exact ⟨hplace, hreach, (contribution_of_toConnection hencoded hbytes).symm⟩

end JobBinding.Gather.Worker

import JobBinding.Proofs.Gather.Team
import JobBinding.Validation.Session

/-!
# Steps of a validation by a team

What one step of a member comes to, for each stage of the member. A member other than the
coordinator passes two steps: it observes, and it sends what it observed and returns. What it
returns depends on whether the coordinator is still there (`step_of_isListening`,
`step_of_not_isListening`).
-/

namespace JobBinding.Validation

open Gather

namespace Session

variable {s : Session} {rank : UInt32}

/-- What the members of a session observe, by rank. -/
def observations (s : Session) : List (Except Failure Binding) :=
  s.probes.map (·.observe s.shape.probedVendor?)

def contribution (rank : UInt32) : Except Failure Binding → Message
  | .ok binding => ⟨rank, .value (Binding.codec.encode binding)⟩
  | .error e => ⟨rank, .abort e.message⟩

/-- What a member returns with, if its message got through. -/
def delivered : Except Failure Binding → Except Failure (Option Verdict)
  | .ok _ => .ok none
  | .error e => .error e

/-- What a member returns with, if the coordinator has left before. -/
def turnedAway : Except Failure Binding → Except Failure (Option Verdict)
  | .ok _ => .error (.protocol .coordinatorLeft)
  | .error e => .error e

/-- Whether a message says that its sender gave up. -/
def isAbort (m : Message) : Bool :=
  match m.payload with
  | .abort _ => true
  | .value _ => false

/-! ## Steps -/

lemma getElem?_observations (r : Nat) :
    s.observations[r]? = s.probes[r]?.map (·.observe s.shape.probedVendor?) :=
  List.getElem?_map ..

lemma step_of_getElem?_stages_eq_none (h : s.stages[rank.toNat]? = none) : s.step rank = s := by
  rw [step, h]

lemma step_of_returned {result : Except Failure (Option Verdict)}
    (h : s.stages[rank.toNat]? = some (.returned result)) : s.step rank = s := by
  rw [step, h]

lemma step_of_fresh {o : Except Failure Binding} (h : s.stages[rank.toNat]? = some .fresh)
    (ho : s.observations[rank.toNat]? = some o) (hsize : s.team.size = s.shape.processes) :
    s.step rank = s.setStage rank (.observed o) := by
  rw [getElem?_observations, Option.map_eq_some_iff] at ho
  obtain ⟨probe, hprobe, rfl⟩ := ho
  simp [step, h, hprobe, hsize]

lemma step_of_fresh_of_ne (h : s.stages[rank.toNat]? = some .fresh)
    (hrank : rank.toNat < s.probes.length) (hsize : s.team.size ≠ s.shape.processes) :
    s.step rank = s.returns rank (.error (.processCount s.shape.processes s.team.size)) := by
  have hprobe := List.getElem?_eq_getElem hrank
  simp [step, h, hprobe, hsize]

/-- The session after a member other than the coordinator has returned. -/
def retires (s : Session) (rank : UInt32) (result : Except Failure (Option Verdict))
    (queue : List Message) : Session :=
  { s with
    team := { s.team.spend rank with queue }
    stages := s.stages.set rank.toNat (.returned result) }

lemma step_of_isListening {o : Except Failure Binding} (hrank : rank ≠ 0)
    (h : s.stages[rank.toNat]? = some (.observed o)) (hsend : s.team.canSend rank = true)
    (hlistens : s.team.isListening = true)
    (hencodes : ∀ b, o = .ok b → (Binding.codec.encode b).length ≤ Codec.limit) :
    s.step rank =
      s.retires rank (delivered o) (s.team.queue ++ [contribution rank o]) := by
  cases o with
  | error e =>
    simp only [step, h, Team.abort, if_neg hrank, Team.send_of_isListening _ hsend hlistens,
      returns, Team.leave_of_ne_zero hrank]
    simp [setStage, retires, Team.spend, delivered, contribution]
  | ok b =>
    simp only [step, h, if_neg hrank, Team.contribute_of_le _ (hencodes b rfl),
      Team.send_of_isListening _ hsend hlistens, returns, Team.leave_of_ne_zero hrank]
    simp [setStage, retires, Team.spend, delivered, contribution]

lemma step_of_not_isListening {o : Except Failure Binding} (hrank : rank ≠ 0)
    (h : s.stages[rank.toNat]? = some (.observed o)) (hsend : s.team.canSend rank = true)
    (hleft : s.team.isListening = false)
    (hencodes : ∀ b, o = .ok b → (Binding.codec.encode b).length ≤ Codec.limit) :
    s.step rank = s.retires rank (turnedAway o) s.team.queue := by
  cases o with
  | error e =>
    simp only [step, h, Team.abort, if_neg hrank, Team.send_of_not_isListening _ hsend hleft,
      returns, Team.leave_of_ne_zero hrank]
    simp [setStage, retires, Team.spend, turnedAway]
  | ok b =>
    simp only [step, h, if_neg hrank, Team.contribute_of_le _ (hencodes b rfl),
      Team.send_of_not_isListening _ hsend hleft, returns, Team.leave_of_ne_zero hrank]
    simp [setStage, retires, Team.spend, turnedAway]

lemma step_zero_of_error {e : Failure} (h : s.stages[0]? = some (.observed (.error e))) :
    s.step 0 =
      { s with team := s.team.close, stages := s.stages.set 0 (.returned (.error e)) } := by
  have h' : s.stages[(0 : UInt32).toNat]? = some (.observed (.error e)) := h
  simp only [step, h', Team.abort, if_true, returns, Team.leave_zero]
  rfl

lemma step_zero_of_ok {own : Binding} (h : s.stages[0]? = some (.observed (.ok own)))
    (hleader : s.team.leader = .ready) :
    s.step 0 =
      { s with
        team := { s.team with
          leader := .gathering Binding.codec.deserialize (.start s.team.size own) }
        stages := s.stages.set 0 .gathering } := by
  have h' : s.stages[(0 : UInt32).toNat]? = some (.observed (.ok own)) := h
  simp only [step, h', if_true, Team.begins, hleader]
  rfl

lemma step_of_decided {result : Except Failure (List Binding)} {team : Team Binding}
    (h : s.stages[0]? = some .gathering) (hturn : s.team.turn = (.decided result, team)) :
    s.step 0 = { s with team }.conclude result := by
  have h' : s.stages[(0 : UInt32).toNat]? = some .gathering := h
  simp only [step, h', hturn]

lemma step_of_took {team : Team Binding} (h : s.stages[0]? = some .gathering)
    (hturn : s.team.turn = (.took, team)) : s.step 0 = { s with team } := by
  have h' : s.stages[(0 : UInt32).toNat]? = some .gathering := h
  simp only [step, h', hturn]

lemma step_of_waits {team : Team Binding} (h : s.stages[0]? = some .gathering)
    (hturn : s.team.turn = (.waits, team)) : s.step 0 = s := by
  have h' : s.stages[(0 : UInt32).toNat]? = some .gathering := h
  simp only [step, h', hturn]

lemma conclude_error (e : Failure) :
    s.conclude (.error e) =
      { s with team := s.team.close, stages := s.stages.set 0 (.returned (.error e)) } := by
  simp only [conclude, returns, Team.leave_zero]
  rfl

lemma conclude_ok {bindings : List Binding} {after : FileTree}
    (h : (s.file.write (Verdict.classify bindings s.shape)).run s.files = .ok () after) :
    s.conclude (.ok bindings) =
      { s with
        team := s.team.close
        stages := s.stages.set 0 (.returned (.ok (some (Verdict.classify bindings s.shape))))
        files := after } := by
  simp only [conclude, h, returns, Team.leave_zero]
  rfl

/-! ## Messages -/

@[simp] lemma rank_contribution (rank : UInt32) (o : Except Failure Binding) :
    (contribution rank o).rank = rank := by
  cases o <;> rfl

/-- The messages that a step puts into the queue. -/
def sends (s : Session) (rank : UInt32) : List Message :=
  (s.step rank).team.queue.drop s.team.queue.length

/-- All messages that went into the queue during some steps, first one first. -/
def channel (s : Session) : List UInt32 → List Message
  | [] => []
  | rank :: ranks => s.sends rank ++ (s.step rank).channel ranks

lemma sends_eq_of_append (new : List Message)
    (h : (s.step rank).team.queue = s.team.queue ++ new) : s.sends rank = new := by
  rw [sends, h, List.drop_left]

lemma sends_eq_nil (h : (s.step rank).team.queue.length ≤ s.team.queue.length) :
    s.sends rank = [] :=
  List.drop_of_length_le h

lemma length_queue_conclude (result : Except Failure (List Binding)) :
    (s.conclude result).team.queue = s.team.queue := by
  cases result with
  | error e => rw [conclude_error]; rfl
  | ok bindings =>
    simp only [conclude]
    split <;> rfl

/-- A step of the coordinator sends nothing. -/
lemma sends_zero : s.sends 0 = [] := by
  refine sends_eq_nil ?_
  have hturn := Team.length_queue_turn_le (t := s.team)
  -- Only sending lengthens the queue: beginning leaves it, and a turn takes from it.
  unfold Session.step
  split
  · split <;> exact Nat.le_refl _
  · exact Nat.le_refl _
  · next own _ =>
    have hbegins := Team.queue_begins (t := s.team) Binding.codec own
    rw [if_pos rfl]
    split <;> next h =>
      rw [h] at hbegins
      exact Nat.le_of_eq (congrArg List.length hbegins)
  · split
    · next h =>
      rw [h] at hturn
      rw [length_queue_conclude]
      exact hturn
    · next h =>
      rw [h] at hturn
      exact hturn
    · exact Nat.le_refl _
  · exact Nat.le_refl _

end Session

end JobBinding.Validation

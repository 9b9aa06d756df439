import Mathlib.Tactic.Common
import JobBinding.Proofs.Gather.Team

/-!
# What can happen in a team

The members of a team call what they like, as often as they like, and leave when they like, and the
gather of the coordinator goes on in between. A `History` is what a list of such acts has come to,
with all messages that were ever put into the queue. What one act can do, and what it returns, is
said by `Step`, with one constructor for each thing that can happen (`step_act`).
-/

namespace JobBinding.Gather.Team

variable {α : Type}

/-! ## Acts -/

/-- What a member of a team can call. -/
inductive Call (α : Type) where
  | gather (codec : Codec α) (value : α)
  | abort (reason : String)

/-- What a call of a member other than the coordinator sends. -/
def Call.payload : Call α → Except Failure Payload
  | .gather codec value => (codec.serialize value).map .value
  | .abort reason => .ok (.abort reason)

/-- What a call returns with: the gather of the coordinator with values, any other one without. -/
abbrev Answer (α : Type) := Except Failure (Option (List α))

/-- A call of a member, with its answer unless it has to wait. -/
def perform (t : Team α) (rank : UInt32) : Call α → Option (Answer α) × Team α
  | .gather codec value =>
    if rank = 0 then match t.begins codec value with
      | (.ok _, t) => (none, t)
      | (.error e, t) => (some (.error e), t)
    else match t.contribute codec rank value with
      | (result, t) => (some (result.map fun _ => none), t)
  | .abort reason => match t.abort rank reason with
    | (result, t) => (some (result.map fun _ => none), t)

/-- What happens in a team. -/
inductive Act (α : Type) where
  | calls (rank : UInt32) (call : Call α)
  /-- The gather of the coordinator goes on. -/
  | turn
  | leaves (rank : UInt32)

namespace Act

/-- Whether an act uses up what a member has to send: its call has something to send, even if that
fails, or the member leaves. -/
def Uses (rank : UInt32) : Act α → Prop
  | .calls other call => other = rank ∧ ∃ payload, call.payload = .ok payload
  | .turn => False
  | .leaves other => other = rank

/-- Whether an act is one of the coordinator. -/
def IsOfCoordinator : Act α → Prop
  | .calls rank _ => rank = 0
  | .turn => True
  | .leaves _ => False

end Act

/-- Whether the gather of the coordinator goes on. -/
def isGathering (t : Team α) : Bool :=
  match t.leader with
  | .gathering _ _ => true
  | _ => false

/-! ## Histories -/

/-- A team, with all messages that were put into its queue and the members that have left. -/
structure History (α : Type) where
  team : Team α
  put : List Message
  gone : List UInt32

namespace History

/-- Whether a member can make a call: it has not left, and does not wait for an earlier one. -/
def CanCall (h : History α) (rank : UInt32) : Prop :=
  rank.toNat < h.team.size.toNat ∧ rank ∉ h.gone ∧ (rank = 0 → h.team.isGathering = false)

instance (h : History α) (rank : UInt32) : Decidable (h.CanCall rank) :=
  inferInstanceAs (Decidable (_ ∧ _ ∧ _))

/-- One more act, with what the call returns that ends with it. A call that cannot be made does
nothing. -/
def act (h : History α) : Act α → Option (Answer α) × History α
  | .calls rank call =>
    if h.CanCall rank then match h.team.perform rank call with
      | (answer, team) =>
        (answer, { h with team, put := h.put ++ team.queue.drop h.team.queue.length })
    else (none, h)
  | .turn => match h.team.turn with
    | (.decided result, team) => (some (result.map some), { h with team })
    | (_, team) => (none, { h with team })
  | .leaves rank => (none, { h with team := h.team.leave rank, gone := rank :: h.gone })

/-- What some acts in a new team come to. -/
def ofActs (size : UInt32) (acts : List (Act α)) : History α :=
  acts.foldl (fun h a => (h.act a).2) ⟨.ofSize size, [], []⟩

variable {h : History α} {answer : Option (Answer α)} {rank : UInt32} {call : Call α}
  {payload : Payload}

lemma ofActs_append (size : UInt32) (acts : List (Act α)) (a : Act α) :
    ofActs size (acts ++ [a]) = ((ofActs size acts).act a).2 :=
  List.foldl_append

/-! ## One act -/

/-- What an act can do. Only sending puts a message into the queue, and only a turn takes one. -/
inductive Step (h : History α) : Act α → Option (Answer α) → History α → Prop where
  /-- The member has left, or waits for its gather. -/
  | absent {rank : UInt32} {call : Call α} (hcan : ¬ h.CanCall rank) :
    Step h (.calls rank call) none h
  /-- There is nothing that could be sent. -/
  | refused {rank : UInt32} {call : Call α} {e : Failure} (hcan : h.CanCall rank)
    (hrank : rank ≠ 0) (hpayload : call.payload = .error e) :
    Step h (.calls rank call) (some (.error e)) h
  | sent {rank : UInt32} {call : Call α} {payload : Payload} (hcan : h.CanCall rank)
    (hrank : rank ≠ 0) (hpayload : call.payload = .ok payload)
    (hsend : h.team.canSend rank = true) (hlistens : h.team.isListening = true) :
    Step h (.calls rank call) (some (.ok none))
      { h with
        team := { h.team.spend rank with queue := h.team.queue ++ [⟨rank, payload⟩] }
        put := h.put ++ [⟨rank, payload⟩] }
  /-- The coordinator takes no more messages. -/
  | late {rank : UInt32} {call : Call α} {payload : Payload} (hcan : h.CanCall rank)
    (hrank : rank ≠ 0) (hpayload : call.payload = .ok payload)
    (hsend : h.team.canSend rank = true) (hlistens : h.team.isListening = false) :
    Step h (.calls rank call) (some (.error (.protocol .coordinatorLeft)))
      { h with team := h.team.spend rank }
  | repeated {rank : UInt32} {call : Call α} {payload : Payload} (hcan : h.CanCall rank)
    (hrank : rank ≠ 0) (hpayload : call.payload = .ok payload)
    (hsend : h.team.canSend rank = false) :
    Step h (.calls rank call) (some (.error (.protocol .alreadySent))) h
  | begun {codec : Codec α} {own : α} (hcan : h.CanCall 0) (hleader : h.team.leader = .ready) :
    Step h (.calls 0 (.gather codec own)) none
      { h with team := { h.team with
          leader := .gathering codec.deserialize (.start h.team.size own) } }
  | finished {codec : Codec α} {own : α} (hcan : h.CanCall 0)
    (hleader : h.team.leader = .finished) :
    Step h (.calls 0 (.gather codec own)) (some (.error (.protocol .alreadyFinished))) h
  | gaveUp {reason : String} (hcan : h.CanCall 0) :
    Step h (.calls 0 (.abort reason)) (some (.ok none)) { h with team := h.team.close }
  | waits : Step h .turn none h
  | took {decode : Decoder α} {c next : Collector α} {m : Message} {rest : List Message}
    (hleader : h.team.leader = .gathering decode c) (hqueue : h.team.queue = m :: rest)
    (haccept : c.accept decode m = .ok next) :
    Step h .turn none
      { h with team := { h.team with queue := rest, leader := .gathering decode next } }
  | completed {decode : Decoder α} {c : Collector α}
    (hleader : h.team.leader = .gathering decode c) (hcomplete : c.isComplete = true) :
    Step h .turn (some (c.finish.map some)) { h with team := h.team.close }
  | failed {decode : Decoder α} {c : Collector α} {m : Message} {rest : List Message} {e : Failure}
    (hleader : h.team.leader = .gathering decode c) (hqueue : h.team.queue = m :: rest)
    (haccept : c.accept decode m = .error e) :
    Step h .turn (some (.error e)) { h with team := { h.team with queue := rest }.close }
  /-- Nobody is left who could send what is missing. -/
  | deserted {decode : Decoder α} {c : Collector α} (hleader : h.team.leader = .gathering decode c)
    (hincomplete : c.isComplete = false) (hqueue : h.team.queue = [])
    (hnobody : h.team.senders.any id = false) :
    Step h .turn (some (.error (.protocol .participantsLeft))) { h with team := h.team.close }
  | left {rank : UInt32} :
    Step h (.leaves rank) none { h with team := h.team.leave rank, gone := rank :: h.gone }

/-! ### Calls of a member other than the coordinator -/

/-- A call of a member other than the coordinator sends what it has to send. -/
lemma perform_of_ne_zero (t : Team α) (hrank : rank ≠ 0) (call : Call α) :
    t.perform rank call = match call.payload with
      | .error e => (some (.error e), t)
      | .ok payload => (some ((t.send rank payload).1.map fun _ => none),
          (t.send rank payload).2) := by
  cases call with
  | abort reason =>
    rw [perform, Team.abort, if_neg hrank]
    rfl
  | gather codec value =>
    rw [perform, if_neg hrank, contribute, Call.payload]
    cases codec.serialize value <;> rfl

lemma act_of_canCall (hcan : h.CanCall rank) (call : Call α) :
    h.act (.calls rank call) = ((h.team.perform rank call).1,
      { h with
        team := (h.team.perform rank call).2
        put := h.put ++ (h.team.perform rank call).2.queue.drop h.team.queue.length }) := by
  rw [act, if_pos hcan]

/-- A call that leaves the queue as it is puts no message. -/
lemma act_of_perform {team : Team α} (hcan : h.CanCall rank)
    (hperform : h.team.perform rank call = (answer, team)) (hqueue : team.queue = h.team.queue) :
    h.act (.calls rank call) = (answer, { h with team }) := by
  rw [act_of_canCall hcan, hperform]
  simp only [hqueue, List.drop_length, List.append_nil]

lemma act_of_payload_eq_error {e : Failure} (hcan : h.CanCall rank) (hrank : rank ≠ 0)
    (hpayload : call.payload = .error e) : h.act (.calls rank call) = (some (.error e), h) := by
  have hperform := perform_of_ne_zero h.team hrank call
  rw [hpayload] at hperform
  exact act_of_perform hcan hperform rfl

lemma act_of_canSend_eq_false (hcan : h.CanCall rank) (hrank : rank ≠ 0)
    (hpayload : call.payload = .ok payload) (hsend : h.team.canSend rank = false) :
    h.act (.calls rank call) = (some (.error (.protocol .alreadySent)), h) := by
  have hperform := perform_of_ne_zero h.team hrank call
  simp only [hpayload, send_of_canSend_eq_false payload hsend] at hperform
  exact act_of_perform hcan hperform rfl

lemma act_of_not_isListening (hcan : h.CanCall rank) (hrank : rank ≠ 0)
    (hpayload : call.payload = .ok payload) (hsend : h.team.canSend rank = true)
    (hlistens : h.team.isListening = false) :
    h.act (.calls rank call) =
      (some (.error (.protocol .coordinatorLeft)), { h with team := h.team.spend rank }) := by
  have hperform := perform_of_ne_zero h.team hrank call
  simp only [hpayload, send_of_not_isListening payload hsend hlistens] at hperform
  exact act_of_perform hcan hperform rfl

lemma act_of_isListening (hcan : h.CanCall rank) (hrank : rank ≠ 0)
    (hpayload : call.payload = .ok payload) (hsend : h.team.canSend rank = true)
    (hlistens : h.team.isListening = true) :
    h.act (.calls rank call) = (some (.ok none),
      { h with
        team := { h.team.spend rank with queue := h.team.queue ++ [⟨rank, payload⟩] }
        put := h.put ++ [⟨rank, payload⟩] }) := by
  have hperform := perform_of_ne_zero h.team hrank call
  simp only [hpayload, send_of_isListening payload hsend hlistens] at hperform
  rw [act_of_canCall hcan, hperform]
  simp only [List.drop_left]
  rfl

lemma step_call_of_ne_zero (hcan : h.CanCall rank) (hrank : rank ≠ 0) (call : Call α) :
    Step h (.calls rank call) (h.act (.calls rank call)).1 (h.act (.calls rank call)).2 := by
  -- The tests in this order: what can be encoded, what was sent before, where the coordinator is.
  cases hpayload : call.payload with
  | error e =>
    rw [act_of_payload_eq_error hcan hrank hpayload]
    exact .refused hcan hrank hpayload
  | ok payload =>
    cases hsend : h.team.canSend rank with
    | false =>
      rw [act_of_canSend_eq_false hcan hrank hpayload hsend]
      exact .repeated hcan hrank hpayload hsend
    | true =>
      cases hlistens : h.team.isListening with
      | false =>
        rw [act_of_not_isListening hcan hrank hpayload hsend hlistens]
        exact .late hcan hrank hpayload hsend hlistens
      | true =>
        rw [act_of_isListening hcan hrank hpayload hsend hlistens]
        exact .sent hcan hrank hpayload hsend hlistens

/-! ### The coordinator -/

lemma act_gather_of_ready (hcan : h.CanCall 0) (hleader : h.team.leader = .ready)
    (codec : Codec α) (own : α) :
    h.act (.calls 0 (.gather codec own)) = (none, { h with team := { h.team with
        leader := .gathering codec.deserialize (.start h.team.size own) } }) := by
  have hperform : h.team.perform 0 (.gather codec own) = (none, { h.team with
      leader := .gathering codec.deserialize (.start h.team.size own) }) := by
    simp only [perform, begins, hleader, if_true]
  exact act_of_perform hcan hperform rfl

lemma act_gather_of_finished (hcan : h.CanCall 0) (hleader : h.team.leader = .finished)
    (codec : Codec α) (own : α) :
    h.act (.calls 0 (.gather codec own)) =
      (some (.error (.protocol .alreadyFinished)), h) := by
  have hperform : h.team.perform 0 (.gather codec own) =
      (some (.error (.protocol .alreadyFinished)), h.team) := by
    simp only [perform, begins, hleader, if_true]
  exact act_of_perform hcan hperform rfl

lemma step_call_zero (hcan : h.CanCall 0) (call : Call α) :
    Step h (.calls 0 call) (h.act (.calls 0 call)).1 (h.act (.calls 0 call)).2 := by
  cases call with
  | abort reason =>
    have hperform : h.team.perform 0 (.abort reason) = (some (.ok none), h.team.close) := rfl
    rw [act_of_perform hcan hperform rfl]
    exact .gaveUp hcan
  | gather codec own =>
    cases hleader : h.team.leader with
    | ready =>
      rw [act_gather_of_ready hcan hleader]
      exact .begun hcan hleader
    | finished =>
      rw [act_gather_of_finished hcan hleader]
      exact .finished hcan hleader
    | gathering decode c =>
      have hwaits := hcan.2.2 rfl
      rw [isGathering, hleader] at hwaits
      cases hwaits

lemma step_turn (h : History α) : Step h .turn (h.act .turn).1 (h.act .turn).2 := by
  cases hleader : h.team.leader with
  | ready | finished =>
    have hturn : h.team.turn = (.waits, h.team) := by simp only [turn, hleader]
    rw [act, hturn]
    exact .waits
  | gathering decode c =>
    cases hcomplete : c.isComplete with
    | true =>
      rw [act, turn_of_isComplete hleader hcomplete]
      exact .completed hleader hcomplete
    | false =>
      cases hqueue : h.team.queue with
      | nil =>
        cases hany : h.team.senders.any id with
        | true =>
          rw [act, turn_of_any_senders hleader hcomplete hqueue hany]
          exact .waits
        | false =>
          rw [act, turn_of_not_any_senders hleader hcomplete hqueue hany]
          exact .deserted hleader hcomplete hqueue hany
      | cons m rest =>
        cases haccept : c.accept decode m with
        | error e =>
          rw [act, turn_of_accept_eq_error hleader hcomplete hqueue haccept]
          exact .failed hleader hqueue haccept
        | ok next =>
          rw [act, turn_of_accept_eq_ok hleader hcomplete hqueue haccept]
          exact .took hleader hqueue haccept

theorem step_act (h : History α) (a : Act α) : Step h a (h.act a).1 (h.act a).2 := by
  cases a with
  | leaves rank => exact .left
  | turn => exact step_turn h
  | calls rank call =>
    by_cases hcan : h.CanCall rank
    · by_cases hrank : rank = 0
      · subst hrank
        exact step_call_zero hcan call
      · exact step_call_of_ne_zero hcan hrank call
    · rw [act, if_neg hcan]
      exact .absent hcan

end History

end JobBinding.Gather.Team

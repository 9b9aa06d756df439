import Mathlib.Data.List.Forall2
import JobBinding.Proofs.Gather.Coordinator
import JobBinding.Proofs.Gather.Team

/-!
# Both transports gather alike

The coordinator of a team takes messages out of a queue, the coordinator of a job takes them from
connections, and each has a loop of its own. `Collector.settle` is the gather without a transport:
what an account comes to with some messages, and which of them it leaves. Either loop comes to the
same (`Team.settle_eq`, `Coordinator.result_collect_of_isOn`). So the same messages decide both
gathers, with the same result and after the same number of messages (`collect_eq_settle`).
-/

namespace JobBinding.Gather

variable {α : Type} {decode : Decoder α} {c : Collector α} {ms : List Message} {m : Message}

/-! ## A gather without a transport -/

namespace Collector

/-- How a gather goes with some messages: its result, unless it has to wait for more, and the
messages that it does not take. -/
def settle (decode : Decoder α) (c : Collector α) (ms : List Message) :
    Option (Except Failure (List α)) × List Message :=
  if c.isComplete then (some c.finish, ms)
  else match ms with
    | [] => (none, [])
    | m :: rest => match c.accept decode m with
      | .ok next => next.settle decode rest
      | .error e => (some (.error e), rest)

lemma settle_of_isComplete (h : c.isComplete = true) :
    c.settle decode ms = (some c.finish, ms) := by
  unfold settle
  rw [if_pos h]

lemma settle_nil (h : c.isComplete = false) : c.settle decode [] = (none, []) := by
  simp [settle, h]

lemma settle_of_accept_eq_ok {next : Collector α} (h : c.isComplete = false)
    (haccept : c.accept decode m = .ok next) :
    c.settle decode (m :: ms) = next.settle decode ms := by
  rw [settle]
  simp [h, haccept]

lemma settle_of_accept_eq_error {e : Failure} (h : c.isComplete = false)
    (haccept : c.accept decode m = .error e) :
    c.settle decode (m :: ms) = (some (.error e), ms) := by
  rw [settle]
  simp [h, haccept]

lemma settle_snd_eq_nil (h : (c.settle decode ms).1 = none) : (c.settle decode ms).2 = [] := by
  induction ms generalizing c with
  | nil =>
    cases hc : c.isComplete with
    | true => simp [settle_of_isComplete hc]
    | false => simp [settle_nil hc]
  | cons m ms ih =>
    cases hc : c.isComplete with
    | true => simp [settle_of_isComplete hc] at h
    | false =>
      cases haccept : c.accept decode m with
      | error e => simp [settle_of_accept_eq_error hc haccept] at h
      | ok next =>
        rw [settle_of_accept_eq_ok hc haccept] at h ⊢
        exact ih h

/-- A gather leaves the end of its messages. Those that it takes are what it depends on, and after
fewer of them it still waits. -/
lemma settle_append (decode : Decoder α) (c : Collector α) (ms : List Message) :
    ∃ taken, ms = taken ++ (c.settle decode ms).2 ∧
      (c.settle decode taken).1 = (c.settle decode ms).1 ∧
        ∀ n < taken.length, (c.settle decode (taken.take n)).1 = none := by
  induction ms generalizing c with
  | nil =>
    refine ⟨[], ?_, rfl, fun n hn => nomatch hn⟩
    cases h : c.isComplete with
    | true => simp [settle_of_isComplete h]
    | false => simp [settle_nil h]
  | cons m ms ih =>
    cases h : c.isComplete with
    | true =>
      refine ⟨[], ?_, ?_, fun n hn => nomatch hn⟩
      · rw [settle_of_isComplete h, List.nil_append]
      · rw [settle_of_isComplete h, settle_of_isComplete h]
    | false =>
      cases haccept : c.accept decode m with
      | error e =>
        refine ⟨[m], ?_, ?_, fun n hn => ?_⟩
        · rw [settle_of_accept_eq_error h haccept, List.singleton_append]
        · rw [settle_of_accept_eq_error h haccept, settle_of_accept_eq_error h haccept]
        · rw [Nat.lt_one_iff.1 hn, List.take_zero, settle_nil h]
      | ok next =>
        -- A shorter front is empty, so that the open account waits, or begins alike.
        obtain ⟨taken, hms, htaken, hfewer⟩ := ih next
        have hstep : ∀ ms, c.settle decode (m :: ms) = next.settle decode ms :=
          fun ms => settle_of_accept_eq_ok h haccept
        refine ⟨m :: taken, ?_, ?_, fun n hn => ?_⟩
        · rw [hstep, List.cons_append, ← hms]
        · rw [hstep, hstep, htaken]
        · cases n with
          | zero => rw [List.take_zero, settle_nil h]
          | succ n =>
            rw [List.take_succ_cons, hstep]
            exact hfewer n (Nat.lt_of_succ_lt_succ hn)

end Collector

/-! ## Messages in a queue -/

namespace Team

variable {t : Team α}

/-- Turns that are enough for the queue come to what the gather does, while somebody could still
send. -/
lemma turns_eq {n : Nat} (hleader : t.leader = .gathering decode c)
    (hany : t.senders.any id = true) (hn : t.queue.length < n) :
    (t.turns n).1 = (c.settle decode t.queue).1 ∧
      (t.turns n).2.queue = (c.settle decode t.queue).2 := by
  -- The induction is on the bound, which only has to exceed the queue.
  induction n generalizing t c with
  | zero => cases hn
  | succ n ih =>
    cases h : c.isComplete with
    | true =>
      rw [turns, turn_of_isComplete hleader h, Collector.settle_of_isComplete h]
      exact ⟨rfl, rfl⟩
    | false =>
      cases hqueue : t.queue with
      | nil =>
        rw [turns, turn_of_any_senders hleader h hqueue hany, Collector.settle_nil h]
        exact ⟨rfl, hqueue⟩
      | cons m rest =>
        rw [hqueue, List.length_cons] at hn
        cases haccept : c.accept decode m with
        | error e =>
          rw [turns, turn_of_accept_eq_error hleader h hqueue haccept,
            Collector.settle_of_accept_eq_error h haccept]
          exact ⟨rfl, rfl⟩
        | ok next =>
          rw [turns, turn_of_accept_eq_ok hleader h hqueue haccept,
            Collector.settle_of_accept_eq_ok h haccept]
          exact ih rfl hany (Nat.lt_of_succ_lt_succ hn)

/-- The coordinator of a team that gathers comes to what the gather does with the queue. -/
theorem settle_eq (codec : Codec α) (own : α) (hready : t.leader = .ready)
    (hany : t.senders.any id = true) :
    (t.begins codec own).2.settle.1 =
        ((Collector.start t.size own).settle codec.deserialize t.queue).1 ∧
      (t.begins codec own).2.settle.2.queue =
        ((Collector.start t.size own).settle codec.deserialize t.queue).2 := by
  have hbegins : (t.begins codec own).2 =
      { t with leader := .gathering codec.deserialize (.start t.size own) } := by
    rw [begins, hready]
  rw [hbegins]
  exact turns_eq rfl hany (Nat.lt_succ_self _)

end Team

/-! ## Messages on connections -/

/-- Whether a connection carries a message: it brings its frame, whatever follows. -/
def Message.IsOn (m : Message) (connection : Connection) : Prop :=
  ∃ sent more, m.toConnection = .ok sent ∧ connection.flatten = sent ++ more

lemma Message.IsOn.ofConnection {connection : Connection} (h : m.IsOn connection) :
    Message.ofConnection connection = .ok m := by
  obtain ⟨sent, more, hsent, hbytes⟩ := h
  exact Message.ofConnection_of_toConnection hsent hbytes

namespace Coordinator

lemma serve_of_isComplete {connections : List Connection} (h : c.isComplete = true) :
    serve decode c connections = .ok c := by
  cases connections with
  | nil => rfl
  | cons connection rest => rw [serve, if_pos h]

/-- A connection is taken as its message is accepted. -/
lemma serve_cons {connection : Connection} {rest : List Connection} (hm : m.IsOn connection)
    (h : c.isComplete = false) :
    serve decode c (connection :: rest) =
      c.accept decode m >>= fun next => serve decode next rest := by
  rw [serve, if_neg (by simp [h]), hm.ofConnection]
  show (match c.accept decode m with
    | .ok next => serve decode next rest
    | .error e => .error e) = _
  cases c.accept decode m <;> rfl

/-- Connections whose messages do not decide the gather leave the coordinator waiting. -/
lemma serve_of_settle_eq_none {connections : List Connection}
    (hcarry : List.Forall₂ Message.IsOn ms connections) (h : (c.settle decode ms).1 = none) :
    serve decode c connections >>= answer = .ok none := by
  induction hcarry generalizing c with
  | nil =>
    cases hc : c.isComplete with
    | true => simp [Collector.settle_of_isComplete hc] at h
    | false => exact if_neg (by simp [hc])
  | @cons m connection ms connections hm _ ih =>
    cases hc : c.isComplete with
    | true => simp [Collector.settle_of_isComplete hc] at h
    | false =>
      rw [serve_cons hm hc]
      cases haccept : c.accept decode m with
      | error e => simp [Collector.settle_of_accept_eq_error hc haccept] at h
      | ok next =>
        rw [Collector.settle_of_accept_eq_ok hc haccept] at h
        exact ih h

/-- Connections whose messages decide the gather give its result, whatever connections follow. -/
lemma serve_of_settle_eq_some {connections : List Connection}
    {result : Except Failure (List α)} (hcarry : List.Forall₂ Message.IsOn ms connections)
    (h : (c.settle decode ms).1 = some result) (others : List Connection) :
    serve decode c (connections ++ others) >>= answer = result.map some := by
  induction hcarry generalizing c with
  | nil =>
    -- Without messages only a complete account has a result, and then no connection is looked at.
    cases hc : c.isComplete with
    | true =>
      rw [Collector.settle_of_isComplete hc] at h
      cases h
      rw [serve_of_isComplete hc]
      exact if_pos hc
    | false => simp [Collector.settle_nil hc] at h
  | @cons m connection ms connections hm _ ih =>
    cases hc : c.isComplete with
    | true =>
      rw [Collector.settle_of_isComplete hc] at h
      cases h
      rw [serve_of_isComplete hc]
      exact if_pos hc
    | false =>
      rw [List.cons_append, serve_cons hm hc]
      cases haccept : c.accept decode m with
      | error e =>
        rw [Collector.settle_of_accept_eq_error hc haccept] at h
        cases h
        rfl
      | ok next =>
        rw [Collector.settle_of_accept_eq_ok hc haccept] at h
        exact ih h

end Coordinator

/-! ## Both -/

/-- A team and a job of the same size whose coordinators contribute the same value and get the same
messages, the one from its queue while it is open, the other on connections. If the messages decide
the gather of the team, then the job's coordinator, once it has published, comes to the same result,
and it takes as many messages: with fewer connections it waits, and with others after these the
result is the same. If they do not decide it, then both have taken all messages and wait for
more. -/
theorem collect_eq_settle {codec : Codec α} {own : α} {t : Team α} {p : Participant}
    {port : UInt16} {now : Instant} {connections : List Connection} {tree : FileTree}
    (hsize : t.size = p.size) (hready : t.leader = .ready) (hopen : t.senders.any id = true)
    (hcarry : List.Forall₂ Message.IsOn t.queue connections) :
    let settled := (t.begins codec own).2.settle
    let taken := t.queue.length - settled.2.queue.length
    let published := (p.rendezvous.publish (p.record port now none)).result tree
    let collected := fun connections =>
      (Coordinator.collect p port now codec own connections).result tree
    (∀ n < taken, collected (connections.take n) = (published >>= fun _ => .ok none)) ∧
      match settled.1 with
      | some result =>
        collected connections = (published >>= fun _ => result.map some) ∧
          ∀ others, collected (connections.take taken ++ others) =
            (published >>= fun _ => result.map some)
      | none =>
        collected connections = (published >>= fun _ => .ok none) ∧ taken = connections.length := by
  intro settled taken published collected
  -- Both sides are described by what `settle` takes from the queue that the connections carry.
  obtain ⟨hresult, hleft⟩ := Team.settle_eq codec own hready hopen
  rw [hsize] at hresult hleft
  obtain ⟨front, hfront, hsame, hfewer⟩ :=
    Collector.settle_append codec.deserialize (.start p.size own) t.queue
  have hqueue : t.queue = front ++ settled.2.queue := by rw [hleft, ← hfront]
  have htaken : taken = front.length := by
    show t.queue.length - settled.2.queue.length = front.length
    rw [hqueue, List.length_append, Nat.add_sub_cancel]
  have htake {n : Nat} (hn : n ≤ front.length) : t.queue.take n = front.take n := by
    rw [hqueue, List.take_append_of_le_length hn]
  refine ⟨fun n hn => ?_, ?_⟩
  · -- With fewer messages than it takes, the gather waits.
    have hwaits := hfewer n (htaken ▸ hn)
    rw [← htake (by omega)] at hwaits
    show (Coordinator.collect _ _ _ _ _ _).result tree = _
    rw [Coordinator.result_collect_eq,
      Coordinator.serve_of_settle_eq_none (List.forall₂_take n hcarry) hwaits]
  · have hcarried : List.Forall₂ Message.IsOn front (connections.take taken) := by
      have hall := List.forall₂_take taken hcarry
      rwa [htake (by omega), htaken, List.take_length, ← htaken] at hall
    cases hsettled : settled.1 with
    | some result =>
      have hdecided (others : List Connection) :
          collected (connections.take taken ++ others) =
            (published >>= fun _ => result.map some) := by
        show (Coordinator.collect _ _ _ _ _ _).result tree = _
        rw [Coordinator.result_collect_eq,
          Coordinator.serve_of_settle_eq_some hcarried (hsame.trans (hresult.symm.trans hsettled))]
      refine ⟨?_, hdecided⟩
      rw [← List.take_append_drop taken connections]
      exact hdecided _
    | none =>
      have hwaits := hresult.symm.trans hsettled
      have hempty : settled.2.queue = [] := hleft.trans (Collector.settle_snd_eq_nil hwaits)
      refine ⟨?_, ?_⟩
      · show (Coordinator.collect _ _ _ _ _ _).result tree = _
        rw [Coordinator.result_collect_eq, Coordinator.serve_of_settle_eq_none hcarry hwaits]
      · show t.queue.length - settled.2.queue.length = _
        rw [hempty, List.length_nil, Nat.sub_zero, hcarry.length_eq]

/-! ### A member that contributes twice -/

/-- A team of three whose member of rank 2 has sent two values before rank 1 has sent one. -/
def eagerTeam : Team UInt32 :=
  { Team.ofSize 3 with
    queue := [⟨2, .value [7, 0, 0, 0]⟩, ⟨2, .value [8, 0, 0, 0]⟩, ⟨1, .value [9, 0, 0, 0]⟩] }

/-- The coordinator of a job of three processes. -/
def eagerParticipant : Participant :=
  ⟨⟨0, 3⟩, ⟨"", "mpi", "42"⟩, "a001", ⟨102, 8, by decide, by decide⟩⟩

/-- The messages of the team, each on a connection of its own: the first in two pieces, the second
with a byte after it. -/
def eagerConnections : List Connection :=
  [[[20, 0], [0, 0, 2, 0, 0, 0, 0, 0, 0, 0, 4, 0, 0, 0, 0, 0, 0, 0, 7, 0, 0, 0]],
    [[20, 0, 0, 0, 2, 0, 0, 0, 0, 0, 0, 0, 4, 0, 0, 0, 0, 0, 0, 0, 8, 0, 0, 0, 1]],
    [[20, 0, 0, 0, 1, 0, 0, 0, 0, 0, 0, 0, 4, 0, 0, 0, 0, 0, 0, 0, 9, 0, 0, 0]]]

lemma isOn_eager : List.Forall₂ Message.IsOn eagerTeam.queue eagerConnections := by
  have hfirst : (⟨2, .value [7, 0, 0, 0]⟩ : Message).toConnection =
      .ok [20, 0, 0, 0, 2, 0, 0, 0, 0, 0, 0, 0, 4, 0, 0, 0, 0, 0, 0, 0, 7, 0, 0, 0] := by decide
  have hsecond : (⟨2, .value [8, 0, 0, 0]⟩ : Message).toConnection =
      .ok [20, 0, 0, 0, 2, 0, 0, 0, 0, 0, 0, 0, 4, 0, 0, 0, 0, 0, 0, 0, 8, 0, 0, 0] := by decide
  have hthird : (⟨1, .value [9, 0, 0, 0]⟩ : Message).toConnection =
      .ok [20, 0, 0, 0, 1, 0, 0, 0, 0, 0, 0, 0, 4, 0, 0, 0, 0, 0, 0, 0, 9, 0, 0, 0] := by decide
  exact .cons ⟨_, [], hfirst, rfl⟩ (.cons ⟨_, [1], hsecond, rfl⟩ (.cons ⟨_, [], hthird, rfl⟩ .nil))

def eagerTime : Instant :=
  ⟨103, 9, by decide, by decide⟩

lemma result_publish_eager :
    (eagerParticipant.rendezvous.publish (eagerParticipant.record 4000 eagerTime none)).result
      ⟨[], []⟩ = .ok () :=
  eq_ok_of_isOk (by decide +kernel)

/-- The coordinator of the job fails at the second message, as that of the team does, and does not
look at the third. -/
theorem collect_eager :
    eagerTeam.size = eagerParticipant.size ∧ eagerTeam.leader = .ready ∧
      eagerTeam.senders.any id = true ∧
      List.Forall₂ Message.IsOn eagerTeam.queue eagerConnections ∧
      (Coordinator.collect eagerParticipant 4000 eagerTime Codec.u32 5
        (eagerConnections.take 1)).result ⟨[], []⟩ = .ok none ∧
      (Coordinator.collect eagerParticipant 4000 eagerTime Codec.u32 5
        eagerConnections).result ⟨[], []⟩ = .error (.protocol (.repeatedRank 2)) := by
  obtain ⟨hfewer, hall, -⟩ := @collect_eq_settle _ Codec.u32 5 eagerTeam eagerParticipant 4000
    eagerTime eagerConnections ⟨[], []⟩ rfl rfl rfl isOn_eager
  rw [result_publish_eager] at hfewer hall
  have htaken : 1 < eagerTeam.queue.length -
      (eagerTeam.begins Codec.u32 5).2.settle.2.queue.length := by decide
  exact ⟨rfl, rfl, rfl, isOn_eager, hfewer 1 htaken, hall⟩

end JobBinding.Gather

import JobBinding.Proofs.Gather.Worker

/-!
# How a worker looks for its coordinator

A worker looks at the rendezvous file again and again. `Finding` is what there can be, and a finding
is either one that it passes over (`IsIdle`) or one that ends the search, in one way (`Ends`): with
a failure and nothing sent, or with one message to the place that a record of its own job names.
A look at the file decides by the finding alone (`look_of_isIdle`, `look_of_ends`), so the search
goes on exactly as long as all findings are idle, and its end is that of the first other one
(`search_spec`).
-/

namespace JobBinding

lemma Record.ofBytes_eq_error {content : List UInt8} {e : Failure}
    (h : Record.ofBytes content = .error e) : e = .undecodable "no rendezvous record" := by
  rw [Record.ofBytes] at h
  split at h
  · cases h
  · cases h
    rfl

namespace Gather

/-- What a process finds when it looks for the record of its job. -/
inductive Finding where
  /-- There is no file. -/
  | absent
  /-- There is something that cannot be read as a file. -/
  | unreadable (fault : FileFault)
  /-- The content is no record. -/
  | malformed (detail : String)
  /-- The record is of another job. -/
  | foreign (record : Record)
  /-- The record is of the own job. -/
  | own (record : Record)

/-- What a process finds in a tree at its rendezvous file. -/
def Participant.finding (p : Participant) (tree : FileTree) : Finding :=
  match tree.locate p.rendezvous.path with
  | .error .notFound => .absent
  | .error fault => .unreadable fault
  | .ok place => match tree.get? place with
    | none => .absent
    | some .directory => .malformed "a directory"
    | some (.file content) => match Record.ofBytes content with
      | .error _ => .malformed "no rendezvous record"
      | .ok record => if record.job = p.rendezvous.job then .own record else .foreign record

/-- What reading the rendezvous file gives for a finding. -/
def Finding.read : Finding → Except Failure (Option Record)
  | .absent => .ok none
  | .unreadable fault => .error (.file fault)
  | .malformed detail => .error (.undecodable detail)
  | .foreign _ => .ok none
  | .own record => .ok (some record)

lemma Participant.read_finding (p : Participant) (tree : FileTree) :
    p.rendezvous.read.result tree = (p.finding tree).read := by
  rw [Files.result, Rendezvous.run_read]
  unfold finding
  -- The cases of `finding`: no path, nothing there, a directory, a record, a text that is none.
  rcases tree.locate p.rendezvous.path with fault | place
  · cases fault <;> rfl
  rcases hplace : tree.get? place with _ | _ | content
  · simp only [hplace, Finding.read]
  · simp only [hplace, Finding.read]
  cases hrecord : Record.ofBytes content with
  | error e =>
    have hinterpret : p.rendezvous.interpret content = .error e := by
      rw [Rendezvous.interpret, hrecord]
      rfl
    simp only [hplace, hrecord, hinterpret, Record.ofBytes_eq_error hrecord, Finding.read]
  | ok record =>
    have hinterpret : p.rendezvous.interpret content =
        .ok (if record.job = p.rendezvous.job then some record else none) := by
      rw [Rendezvous.interpret, hrecord]
      rfl
    simp only [hplace, hrecord, hinterpret]
    split <;> rfl

/-! ## Findings that end a search -/

namespace Worker

/-- What a worker that searches has come to: how its call has returned, once it has, and the
messages that it has put on connections. -/
structure Search where
  returned : Option (Except Failure Unit)
  sent : List Delivery

/-- A search that goes on, without anything sent. -/
def Search.going : Search :=
  ⟨none, []⟩

variable (p : Participant) (payload : Payload) (network : Network)

/-- The findings that a worker passes over: no record of its job, the record of a coordinator that
gave up before the worker started, and a record of its group with a place that it cannot reach. -/
inductive IsIdle : Finding → Prop where
  | absent : IsIdle .absent
  | foreign (record : Record) : IsIdle (.foreign record)
  | leftBehind {record : Record} {reason : String} (haborted : record.aborted = some reason)
    (hbefore : record.created.isBefore p.started = true) : IsIdle (.own record)
  | refused {record : Record} (hlive : record.aborted = none) (hsize : record.size = p.size)
    (hrefused : network record.host record.port = false) : IsIdle (.own record)

/-- The findings that end the search of a worker, and what it has then come to. The last two are
those of a record of its group with a place that it can reach: there the worker puts its message on
the connection, unless the message is longer than a frame can be. -/
inductive Ends : Finding → Search → Prop where
  | unreadable (fault : FileFault) : Ends (.unreadable fault) ⟨some (.error (.file fault)), []⟩
  | malformed (detail : String) :
    Ends (.malformed detail) ⟨some (.error (.undecodable detail)), []⟩
  | aborted {record : Record} {reason : String} (haborted : record.aborted = some reason)
    (hafter : record.created.isBefore p.started = false) :
    Ends (.own record) ⟨some (.error (.aborted 0 reason)), []⟩
  | otherSize {record : Record} (hlive : record.aborted = none) (hsize : record.size ≠ p.size) :
    Ends (.own record) ⟨some (.error (.protocol (.otherSize record.size p.size))), []⟩
  | delivered {record : Record} {bytes : List UInt8} (hlive : record.aborted = none)
    (hsize : record.size = p.size) (hreached : network record.host record.port = true)
    (hbytes : Message.toConnection ⟨p.placement.rank, payload⟩ = .ok bytes) :
    Ends (.own record) ⟨some (.ok ()), [⟨record.host, record.port, bytes⟩]⟩
  | oversized {record : Record} (hlive : record.aborted = none) (hsize : record.size = p.size)
    (hreached : network record.host record.port = true)
    (hlong : Codec.limit < payload.size + 16) :
    Ends (.own record) ⟨some (.error .unencodable), []⟩

/-! ## One look -/

def Search.ofLook : Look → Search
  | .again => .going
  | .ended (.ok delivery) => ⟨some (.ok ()), [delivery]⟩
  | .ended (.error e) => ⟨some (.error e), []⟩

variable {p payload network} {found : Finding} {result : Search}

lemma IsIdle.ofLook (h : IsIdle p network found) :
    .ofLook (look p payload network found.read) = Search.going := by
  cases h with
  | absent | foreign => rfl
  | leftBehind haborted hbefore =>
    simp only [Finding.read, look, consider, considerRecord, haborted, if_pos hbefore,
      Search.ofLook]
  | refused hlive hsize hrefused =>
    simp only [Finding.read, look, consider, considerRecord, hlive, hsize, ne_eq, not_true_eq_false,
      if_false, hrefused, Bool.false_eq_true, Search.ofLook]

lemma toConnection_of_size_lt {rank : UInt32} (hlong : Codec.limit < payload.size + 16) :
    Message.toConnection ⟨rank, payload⟩ = .error .unencodable := by
  have hlength : ¬ (Message.codec.encode ⟨rank, payload⟩).length ≤ Codec.limit := by
    rw [Message.length_encode]
    exact Nat.not_le.2 hlong
  rw [Message.toConnection, Codec.serialize, if_neg hlength]
  rfl

lemma Ends.ofLook (h : Ends p payload network found result) :
    .ofLook (look p payload network found.read) = result := by
  cases h with
  | unreadable | malformed => rfl
  | aborted haborted hafter =>
    simp only [Finding.read, look, consider, considerRecord, haborted, hafter, Bool.false_eq_true,
      if_false, Search.ofLook]
  | otherSize hlive hsize =>
    simp only [Finding.read, look, consider, considerRecord, hlive, if_pos hsize, Search.ofLook]
  | delivered hlive hsize hreached hbytes =>
    simp only [Finding.read, look, consider, considerRecord, hlive, hsize, ne_eq, not_true_eq_false,
      if_false, hreached, if_true, hbytes, Search.ofLook]
  | oversized hlive hsize hreached hlong =>
    simp only [Finding.read, look, consider, considerRecord, hlive, hsize, ne_eq, not_true_eq_false,
      if_false, hreached, if_true, toConnection_of_size_lt hlong, Search.ofLook]

/-- A finding ends the search unless it is idle. -/
lemma exists_ends (payload : Payload) (h : ¬ IsIdle p network found) :
    ∃ result, Ends p payload network found result := by
  -- The tests of `look` in their order; `h` excludes the branches that look again.
  cases found with
  | absent => exact absurd .absent h
  | foreign record => exact absurd (.foreign record) h
  | unreadable fault => exact ⟨_, .unreadable fault⟩
  | malformed detail => exact ⟨_, .malformed detail⟩
  | own record =>
    cases haborted : record.aborted with
    | some reason =>
      cases hbefore : record.created.isBefore p.started with
      | true => exact absurd (.leftBehind haborted hbefore) h
      | false => exact ⟨_, .aborted haborted hbefore⟩
    | none =>
      by_cases hsize : record.size = p.size
      · cases hreached : network record.host record.port with
        | false => exact absurd (.refused haborted hsize hreached) h
        | true =>
          by_cases hlong : Codec.limit < payload.size + 16
          · exact ⟨_, .oversized haborted hsize hreached hlong⟩
          · have hlength : (Message.codec.encode ⟨p.placement.rank, payload⟩).length ≤
                Codec.limit := by
              rw [Message.length_encode]
              exact Nat.not_lt.1 hlong
            exact ⟨_, .delivered haborted hsize hreached
              (Message.toConnection_eq_ok_iff.2 ⟨hlength, rfl⟩)⟩
      · exact ⟨_, .otherSize haborted hsize⟩

lemma Ends.returned_ne_none (h : Ends p payload network found result) :
    result.returned ≠ none := by
  cases h <;> exact nofun

lemma Ends.not_isIdle (h : Ends p payload network found result) :
    ¬ IsIdle p network found := by
  intro hidle
  apply h.returned_ne_none
  rw [← h.ofLook, hidle.ofLook]
  rfl

/-! ## All looks -/

/-- What a worker looks at: the files and the network as they are at the time. -/
structure Poll where
  tree : FileTree
  network : Network

/-- Looks once more, unless the call has returned. -/
def Search.next (p : Participant) (payload : Payload) (search : Search) (poll : Poll) : Search :=
  match search.returned with
  | some _ => search
  | none => match (send p payload poll.network).result poll.tree with
    | .ok none => search
    | .ok (some delivery) => ⟨some (.ok ()), search.sent ++ [delivery]⟩
    | .error e => ⟨some (.error e), search.sent⟩

/-- What a worker has come to after some looks. -/
def search (p : Participant) (payload : Payload) (polls : List Poll) : Search :=
  polls.foldl (Search.next p payload) .going

variable {poll : Poll} {polls : List Poll}

lemma result_send (poll : Poll) :
    (send p payload poll.network).result poll.tree =
      match look p payload poll.network (p.finding poll.tree).read with
      | .again => .ok none
      | .ended result => result.map some := by
  rw [Files.result, send, Files.run_bind, run_find, p.read_finding]
  dsimp only
  rcases look p payload poll.network (p.finding poll.tree).read with _ | _ | _ <;> rfl

lemma next_going (p : Participant) (payload : Payload) (poll : Poll) :
    Search.next p payload .going poll =
      .ofLook (look p payload poll.network (p.finding poll.tree).read) := by
  simp only [Search.next, Search.going, result_send]
  rcases look p payload poll.network (p.finding poll.tree).read with _ | _ | _ <;> rfl

lemma next_of_returned {search : Search} (h : search.returned ≠ none) :
    search.next p payload poll = search := by
  unfold Search.next
  cases hreturned : search.returned with
  | none => exact absurd hreturned h
  | some result => rfl

/-- Nothing happens in a search that has ended. -/
lemma foldl_next_of_returned {search : Search} (h : search.returned ≠ none) :
    polls.foldl (Search.next p payload) search = search := by
  induction polls with
  | nil => rfl
  | cons poll polls ih => rw [List.foldl_cons, next_of_returned h, ih]

/-- A search goes on over idle findings. -/
lemma search_append (payload : Payload)
    (h : ∀ poll ∈ polls, IsIdle p poll.network (p.finding poll.tree)) (others : List Poll) :
    search p payload (polls ++ others) = search p payload others := by
  induction polls with
  | nil => rfl
  | cons poll polls ih =>
    obtain ⟨hpoll, hpolls⟩ := List.forall_mem_cons.1 h
    have hstep : Search.next p payload .going poll = .going := by
      rw [next_going, hpoll.ofLook]
    rw [List.cons_append, search, List.foldl_cons, hstep]
    exact ih hpolls

/-- A search is over with the first finding that is not idle. -/
lemma search_cons_of_ends (h : Ends p payload poll.network (p.finding poll.tree) result)
    (others : List Poll) : search p payload (poll :: others) = result := by
  rw [search, List.foldl_cons, next_going, h.ofLook]
  exact foldl_next_of_returned h.returned_ne_none

/-- Either all findings are idle, or the first other one ends the search. -/
lemma search_cases (p : Participant) (payload : Payload) (polls : List Poll) :
    (∀ poll ∈ polls, IsIdle p poll.network (p.finding poll.tree)) ∧
        search p payload polls = .going ∨
      ∃ poll ∈ polls,
        Ends p payload poll.network (p.finding poll.tree) (search p payload polls) := by
  induction polls with
  | nil => exact .inl ⟨List.forall_mem_nil _, rfl⟩
  | cons poll polls ih =>
    -- The first look that is not idle decides, as an idle one leaves the search as it was.
    by_cases hpoll : IsIdle p poll.network (p.finding poll.tree)
    · have hrest : search p payload (poll :: polls) = search p payload polls :=
        search_append payload (List.forall_mem_singleton.2 hpoll) polls
      rw [hrest]
      rcases ih with ⟨hidle, hgoing⟩ | ⟨other, hother, hends⟩
      · exact .inl ⟨List.forall_mem_cons.2 ⟨hpoll, hidle⟩, hgoing⟩
      · exact .inr ⟨other, List.mem_cons_of_mem _ hother, hends⟩
    · obtain ⟨result, hends⟩ := exists_ends payload hpoll
      refine .inr ⟨poll, List.mem_cons_self, ?_⟩
      rw [search_cons_of_ends hends]
      exact hends

/-- What has been sent was sent because of a record of the own job and group. -/
lemma Ends.of_mem_sent (h : Ends p payload network found result) {delivery : Delivery}
    (hsent : delivery ∈ result.sent) :
    ∃ record, found = .own record ∧ record.aborted = none ∧ record.size = p.size ∧
      network record.host record.port = true ∧ delivery.host = record.host ∧
      delivery.port = record.port ∧
      Message.toConnection ⟨p.placement.rank, payload⟩ = .ok delivery.bytes := by
  cases h with
  | delivered hlive hsize hreached hbytes =>
    rw [List.mem_singleton] at hsent
    subst hsent
    exact ⟨_, rfl, hlive, hsize, hreached, rfl, rfl, hbytes⟩
  | _ => cases hsent

lemma Ends.length_sent_le (h : Ends p payload network found result) : result.sent.length ≤ 1 := by
  cases h with
  | delivered => exact Nat.le_refl 1
  | _ => exact Nat.zero_le 1

lemma job_of_finding_eq_own {record : Record} (h : p.finding poll.tree = .own record) :
    record.job = p.rendezvous.job := by
  have hread : p.rendezvous.read.result poll.tree = .ok (some record) := by
    rw [p.read_finding, h, Finding.read]
  obtain ⟨-, -, -, -, hjob⟩ := Rendezvous.exists_of_read hread
  exact hjob

/-- The search of a worker goes on exactly as long as all that it finds is idle. The first other
finding ends it, and what the worker has come to then is what this finding alone decides. Over the
whole search at most one message is sent: to the place of a record of the own job and group that
does not say that the coordinator gave up, as one frame, from which the coordinator takes the rank
and the payload of the worker. -/
theorem search_spec (p : Participant) (payload : Payload) (polls : List Poll) :
    ((search p payload polls).returned = none ↔
      ∀ poll ∈ polls, IsIdle p poll.network (p.finding poll.tree)) ∧
    (∀ before poll after, polls = before ++ poll :: after →
      (∀ idle ∈ before, IsIdle p idle.network (p.finding idle.tree)) →
      ¬ IsIdle p poll.network (p.finding poll.tree) →
      Ends p payload poll.network (p.finding poll.tree) (search p payload polls)) ∧
    (search p payload polls).sent.length ≤ 1 ∧
    ∀ delivery ∈ (search p payload polls).sent, ∃ poll ∈ polls, ∃ record,
      p.finding poll.tree = .own record ∧ record.job = p.rendezvous.job ∧
      record.aborted = none ∧ record.size = p.size ∧
      poll.network record.host record.port = true ∧
      delivery.host = record.host ∧ delivery.port = record.port ∧
      delivery.bytes = Frame.write (Message.codec.encode ⟨p.placement.rank, payload⟩) ∧
      ∀ connection : Connection, connection.flatten = delivery.bytes →
        Message.ofConnection connection = .ok ⟨p.placement.rank, payload⟩ := by
  refine ⟨?_, ?_, ?_, ?_⟩
  · constructor
    · intro hnone
      rcases search_cases p payload polls with ⟨hidle, -⟩ | ⟨poll, -, hends⟩
      · exact hidle
      · exact absurd hnone hends.returned_ne_none
    · intro hidle
      have hgoing := search_append payload hidle []
      rw [List.append_nil] at hgoing
      rw [hgoing]
      rfl
  · rintro before poll after rfl hbefore hpoll
    obtain ⟨result, hends⟩ := exists_ends payload hpoll
    rw [search_append payload hbefore, search_cons_of_ends hends]
    exact hends
  · rcases search_cases p payload polls with ⟨-, hgoing⟩ | ⟨poll, -, hends⟩
    · rw [hgoing]
      exact Nat.zero_le 1
    · exact hends.length_sent_le
  · intro delivery hsent
    rcases search_cases p payload polls with ⟨-, hgoing⟩ | ⟨poll, hpoll, hends⟩
    · rw [hgoing] at hsent
      cases hsent
    · obtain ⟨record, hfound, hlive, hsize, hreached, hhost, hport, hbytes⟩ :=
        hends.of_mem_sent hsent
      refine ⟨poll, hpoll, record, hfound, job_of_finding_eq_own hfound, hlive, hsize, hreached,
        hhost, hport, (Message.toConnection_eq_ok_iff.1 hbytes).2, ?_⟩
      -- The bytes may arrive in any pieces: only their concatenation is read.
      intro connection hconnection
      apply Message.ofConnection_of_toConnection hbytes
      rw [hconnection, List.append_nil]

/-! ### A search that comes to an end -/

/-- A worker of a group of two. -/
def secondOfTwo : Participant :=
  ⟨⟨1, 2⟩, ⟨"", "mpi", "42"⟩, "a002", ⟨110, 21, by decide, by decide⟩⟩

/-- A record from the coordinator's host, of a job and at a time, that may be one of an abort. -/
def recordOf (job : String) (seconds : Nat) (h : seconds < 2 ^ 63) (aborted : Option String) :
    Record :=
  ⟨job, "a001", 4000, 2, ⟨seconds, 23, h, by decide⟩, aborted⟩

/-- A look at a rendezvous file with a record. -/
def Poll.at (record : Record) (network : Network) : Poll :=
  ⟨⟨[([".mpi.42.rendezvous.json"], .file (Text.Utf8.encode record.render))], []⟩, network⟩

lemma finding_at (record : Record) (network : Network) :
    secondOfTwo.finding (Poll.at record network).tree =
      if record.job = "42" then .own record else .foreign record := by
  have hlocate : (Poll.at record network).tree.locate secondOfTwo.rendezvous.path =
      .ok [".mpi.42.rendezvous.json"] := rfl
  have hfile : (Poll.at record network).tree.get? [".mpi.42.rendezvous.json"] =
      some (.file (Text.Utf8.encode record.render)) := rfl
  unfold Participant.finding
  simp only [hlocate, hfile, Record.ofBytes_render]
  rfl

lemma finding_at_own {record : Record} (hjob : record.job = "42") (network : Network) :
    secondOfTwo.finding (Poll.at record network).tree = .own record := by
  rw [finding_at, if_pos hjob]

/-- A live record of the worker's group, published after the worker started. -/
def liveRecord : Record :=
  recordOf "42" 111 (by decide) none

/-- What the worker looks at in turn: no file, the record of another job, the record of a
coordinator that gave up before the worker started, and a live record, first of a coordinator that
does not accept connections yet. -/
def idlePolls : List Poll :=
  [⟨⟨[], []⟩, fun _ _ => true⟩, .at (recordOf "43" 111 (by decide) none) fun _ _ => true,
    .at (recordOf "42" 109 (by decide) (some "no cpus")) fun _ _ => true,
    .at liveRecord fun _ _ => false]

lemma isIdle_idlePolls :
    ∀ poll ∈ idlePolls, IsIdle secondOfTwo poll.network (secondOfTwo.finding poll.tree) := by
  intro poll hpoll
  simp only [idlePolls, List.mem_cons, List.not_mem_nil, or_false] at hpoll
  rcases hpoll with rfl | rfl | rfl | rfl
  · have habsent : secondOfTwo.finding ⟨[], []⟩ = .absent := rfl
    rw [habsent]
    exact .absent
  · rw [finding_at, if_neg (by decide)]
    exact .foreign _
  · rw [finding_at_own rfl]
    exact .leftBehind rfl (by decide)
  · rw [finding_at_own rfl]
    exact .refused rfl rfl rfl

/-- The worker passes over all that, sends its message at the next look, and nothing at the one
after it. -/
theorem search_of_late_coordinator :
    (∀ poll ∈ idlePolls, IsIdle secondOfTwo poll.network (secondOfTwo.finding poll.tree)) ∧
      (search secondOfTwo (.value [7]) idlePolls).returned = none ∧
      search secondOfTwo (.value [7])
          (idlePolls ++ [.at liveRecord fun _ _ => true, .at liveRecord fun _ _ => true]) =
        ⟨some (.ok ()),
          [⟨"a001", 4000, [17, 0, 0, 0, 1, 0, 0, 0, 0, 0, 0, 0, 1, 0, 0, 0, 0, 0, 0, 0, 7]⟩]⟩ := by
  obtain ⟨hgoes, -⟩ := search_spec secondOfTwo (.value [7]) idlePolls
  obtain ⟨-, hends, -⟩ := search_spec secondOfTwo (.value [7])
    (idlePolls ++ [.at liveRecord fun _ _ => true, .at liveRecord fun _ _ => true])
  -- The listener's record is found at the last but one look; the look after it must not send again.
  have hfound : secondOfTwo.finding (Poll.at liveRecord fun _ _ => true).tree = .own liveRecord :=
    finding_at_own rfl _
  have hbytes : Message.toConnection ⟨1, .value [7]⟩ =
      .ok [17, 0, 0, 0, 1, 0, 0, 0, 0, 0, 0, 0, 1, 0, 0, 0, 0, 0, 0, 0, 7] := by decide
  have hdelivered : Ends secondOfTwo (.value [7]) (fun _ _ => true) (.own liveRecord)
      ⟨some (.ok ()),
        [⟨"a001", 4000, [17, 0, 0, 0, 1, 0, 0, 0, 0, 0, 0, 0, 1, 0, 0, 0, 0, 0, 0, 0, 7]⟩]⟩ :=
    .delivered rfl rfl rfl hbytes
  have hlast := hends idlePolls _ _ rfl isIdle_idlePolls (by
    rw [hfound]
    exact hdelivered.not_isIdle)
  rw [hfound] at hlast
  exact ⟨isIdle_idlePolls, hgoes.2 isIdle_idlePolls, hlast.ofLook.symm.trans hdelivered.ofLook⟩

end Worker

end Gather

end JobBinding

import JobBinding.Proofs.Gather.Rounds

/-!
# Gathers that follow one another

A process that has sent its message goes on to its next call, and the coordinator may still be in
the round before: its record is there and its listener is open. Then the process contributes to that
round once more, which ends it with an error although every process did what it should
(`repeatedRank_of_overlap`).

If no process begins a call before the coordinator has come to it, nothing of this happens
(`succession_in_turn`): a gather fails with no error of the protocol, no contribution comes to the
listener of another round, and each result has the values of its round.
-/

namespace JobBinding.Gather.Series

attribute [local irreducible] Files.after Files.result

variable {α : Type} {m : Series α} {s s' : State α}

/-! ## What makes another process give up -/

lemma consider_record (round : Nat) (rank : UInt32) (port : UInt16) (now : Instant) :
    Worker.consider (m.participant round rank) (.ok (some (m.record port now none))) =
      .connect (m.host 0) port :=
  if_neg (fun hsize => hsize rfl)

/-- If no process gives up, then only what was in the file before the first call makes another
process give up. -/
lemma FilesShow.consider_of_giveUp (h : m.FilesShow s) (hgathers : ∀ i rank, m.reason i rank = none)
    {round : Nat} {rank : UInt32} {e : Failure}
    (hgivesUp : Worker.consider (m.participant round rank) (m.rendezvous.read.result s.files) =
      .giveUp e) :
    Worker.consider (m.participant round rank) (m.rendezvous.read.result m.files) = .giveUp e := by
  -- If nobody gives up, the group itself leaves no reason to give up: neither an empty place nor
  -- its own record is one. So the process has found what was there before the first step.
  have hnone (hshows : m.rendezvous.Shows none s.files) : False := by
    rw [hshows.result_read] at hgivesUp
    cases hgivesUp
  have hrecord {port : UInt16} {now : Instant}
      (hshows : m.rendezvous.Shows (some (m.record port now none)) s.files) : False := by
    rw [hshows.result_read, consider_record] at hgivesUp
    cases hgivesUp
  unfold FilesShow at h
  split at h
  · rcases h with ⟨hfiles, -⟩ | hshows
    · rwa [hfiles] at hgivesUp
    · exact (hnone hshows).elim
  · obtain ⟨port, now, -, hshows⟩ := h
    exact (hrecord hshows).elim
  · obtain ⟨port, now, -, hshows⟩ := h
    exact (hrecord hshows).elim
  · obtain ⟨reason, hreason, -⟩ := h
    rw [hgathers] at hreason
    cases hreason
  · exact (hnone h).elim

lemma eq_giveUp_of_afterReading {decision : Worker.Decision} {e : Failure}
    (h : afterReading decision = .failed e) : decision = .giveUp e := by
  cases decision with
  | lookAgain => cases h
  | giveUp e =>
    cases h
    rfl
  | connect host port => cases h

lemma Fits.afterEncoding_ne_failed (hfits : m.Fits) {c : Contribution} (hc : m.Belongs c)
    (e : Failure) : afterEncoding (m.payload c) ≠ .failed e := by
  obtain ⟨bytes, hbytes⟩ := hfits c hc
  obtain ⟨payload, hpayload, -⟩ := bind_eq_ok_iff.1 hbytes
  rw [hpayload]
  exact nofun

/-- Whether the calls of other processes that have failed did so because of what was in the file
before the first call. -/
def OnlyLeftoversFail (m : Series α) (s : State α) : Prop :=
  ∀ rank e, s.work rank = .failed e → ∃ round,
    Worker.consider (m.participant round rank) (m.rendezvous.read.result m.files) = .giveUp e

lemma OnlyLeftoversFail.setWork (h : m.OnlyLeftoversFail s) {rank : UInt32} {stage : WorkStage}
    (hstage : ∀ e, stage = .failed e → ∃ round,
      Worker.consider (m.participant round rank) (m.rendezvous.read.result m.files) = .giveUp e) :
    ∀ other e, Function.update s.work rank stage other = .failed e → ∃ round,
      Worker.consider (m.participant round other) (m.rendezvous.read.result m.files) = .giveUp e :=
  (Function.forall_update_iff s.work fun other stage => ∀ e, stage = .failed e → ∃ round,
    Worker.consider (m.participant round other) (m.rendezvous.read.result m.files) = .giveUp e).2
      ⟨hstage, fun other _ => h other⟩

theorem OnlyLeftoversFail.step (hfits : m.Fits) (hgathers : ∀ i rank, m.reason i rank = none)
    (hfiles : m.FilesShow s) (h : m.OnlyLeftoversFail s) (hstep : m.Step s s') :
    m.OnlyLeftoversFail s' := by
  cases hstep with
  | encode hready hrank hround =>
    exact h.setWork fun e he => absurd he (hfits.afterEncoding_ne_failed ⟨hrank, hround⟩ e)
  | @read rank hlooking =>
    refine h.setWork fun e he => ⟨s.round rank, ?_⟩
    exact hfiles.consider_of_giveUp hgathers (eq_giveUp_of_afterReading he)
  | connect hfound hlistens => exact h.setWork nofun
  | refuse hfound => exact h.setWork nofun
  | stray hfound hnone => exact h.setWork nofun
  | send hconnected => exact h.setWork nofun
  | next hsent hgathered hround => exact h.setWork nofun
  | _ => exact h

theorem ReachableWithin.onlyLeftoversFail {P : State α → Prop} (hfits : m.Fits)
    (hgathers : ∀ i rank, m.reason i rank = none) (hcan : m.rendezvous.CanPublish m.files)
    (h : m.ReachableWithin P s) : m.OnlyLeftoversFail s := by
  induction h with
  | start _ => exact nofun
  | step h hstep _ ih => exact ih.step hfits hgathers (h.filesShow hcan) hstep

/-! ## What an earlier run can have left -/

/-- Whether a record of a coordinator that listens, if an earlier run has left one, is one of a
group of the same size. -/
def LeftoverFits (m : Series α) : Prop :=
  ∀ record, m.rendezvous.read.result m.files = .ok (some record) → record.aborted = none →
    record.size = m.size

/-- Reading the file breaks no rule of the protocol. -/
lemma read_ne_protocol (r : Rendezvous) (tree : FileTree) (fault : ProtocolFault) :
    r.read.result tree ≠ .error (.protocol fault) := by
  intro h
  rw [Files.result, Rendezvous.run_read] at h
  cases hlocate : tree.locate r.path with
  | error f =>
    rw [hlocate] at h
    cases f <;> cases h
  | ok place =>
    rcases hplace : tree.get? place with _ | _ | content
    · simp only [hlocate, hplace] at h
      cases h
    · simp only [hlocate, hplace] at h
      cases h
    · have hinterpret : r.interpret content = .error (.protocol fault) := by
        cases hfound : r.interpret content with
        | error e =>
          simp only [hlocate, hplace, hfound] at h
          exact h
        | ok found =>
          simp only [hlocate, hplace, hfound] at h
          cases h
      unfold Rendezvous.interpret Record.ofBytes at hinterpret
      split at hinterpret <;> cases hinterpret

lemma LeftoverFits.consider_ne_protocol (h : m.LeftoverFits) (round : Nat) (rank : UInt32)
    (fault : ProtocolFault) :
    Worker.consider (m.participant round rank) (m.rendezvous.read.result m.files) ≠
      .giveUp (.protocol fault) := by
  intro hgivesUp
  rcases hread : m.rendezvous.read.result m.files with e | _ | record
  · rw [hread] at hgivesUp
    cases hgivesUp
    exact read_ne_protocol _ _ _ hread
  · rw [hread] at hgivesUp
    cases hgivesUp
  · rw [hread] at hgivesUp
    simp only [Worker.consider, Worker.considerRecord] at hgivesUp
    split at hgivesUp
    · split at hgivesUp <;> cases hgivesUp
    · next haborted =>
      have hsize : record.size = (m.participant round rank).size := h record hread haborted
      rw [if_neg (fun hne => hne hsize)] at hgivesUp
      cases hgivesUp

/-! ## Results -/

/-- Whether some values are those of a round, by rank. -/
def IsRound (m : Series α) (round : Nat) (values : List α) : Prop :=
  values.length = m.size.toNat ∧
    ∀ rank : UInt32, rank < m.size → values[rank.toNat]? = some (m.value round rank)

lemma message_eq_contribution {c : Contribution} (h : m.reason c.round c.rank = none) :
    m.message c = contribution m.codec c.rank (m.value c.round c.rank) := by
  rw [message, contribution, payload, h]
  cases m.codec.serialize (m.value c.round c.rank) <;> rfl

/-- A gather that returns values returns those of its round. -/
lemma Orderly.isRound (hcodec : m.codec.Faithful) (h : m.Orderly s)
    (hgathers : ∀ i rank, m.reason i rank = none) {address : Address}
    {taken : List (Contribution × Connection)} (hlistening : s.lead = .listening address taken)
    {values : List α}
    (hvalues : (m.account s.results.length taken >>= Collector.finish) = .ok values) :
    m.IsRound s.results.length values := by
  have htaken : s.lead.taken = taken := by rw [hlistening]; rfl
  have hbrings := h.brings
  rw [htaken] at hbrings
  obtain ⟨c, haccount, hfinish⟩ := bind_eq_ok_iff.1 hvalues
  -- Each connection carries its rank's value of this round, with which the account agrees.
  have hown : ∀ connection ∈ taken.map (·.2), ∃ rank,
      connection.flatten = contribution m.codec rank (m.value s.results.length rank) := by
    intro connection hconnection
    obtain ⟨t, ht, rfl⟩ := List.mem_map.1 hconnection
    refine ⟨t.1.rank, ?_⟩
    rw [hbrings.flatten_eq t ht, message_eq_contribution (hgathers _ _), hbrings.round_eq t ht]
  have hstart := Collector.agrees_start m.size_pos (m.value s.results.length)
  have hagrees := hstart.serve hcodec hown haccount
  obtain ⟨hlength, hranks⟩ := hagrees.of_finish hfinish
  exact ⟨hlength, fun rank hrank => hranks rank (UInt32.lt_iff_toNat_lt.1 hrank)⟩

theorem ReachableWithin.isRound (hcodec : m.codec.Faithful) (hfits : m.Fits)
    (hgathers : ∀ i rank, m.reason i rank = none) (h : m.ReachableWithin State.InTurn s) {i : Nat}
    {values : List α} (hi : s.results[i]? = some values) : m.IsRound i values := by
  induction h with
  | start _ => cases hi
  | @step s s' h hstep _ ih =>
    cases hstep with
    | @leave address taken result hlistening hover hresult =>
      cases result with
      | error e =>
        have hi : (s.results ++ [])[i]? = some values := hi
        rw [List.append_nil] at hi
        exact ih hi
      | ok last =>
        have hi : (s.results ++ [last])[i]? = some values := hi
        -- A gather that ends well adds one result at the end: earlier results keep their places.
        rcases Nat.lt_trichotomy i s.results.length with hlt | rfl | hlt
        · rw [List.getElem?_append_left hlt] at hi
          exact ih hi
        · rw [List.getElem?_concat_length, Option.some.injEq] at hi
          rw [← hi]
          exact (h.orderly hcodec hfits).isRound hcodec hgathers hlistening hresult
        · rw [List.getElem?_eq_none (by simp; omega)] at hi
          cases hi
    | _ => exact ih hi

/-! ## In turn -/

/-- Whether no round has disturbed another one: the coordinator's gathers have not failed and the
other processes' gathers have failed with no error of the protocol, every contribution that waits
at the listener of a round, or that the coordinator has taken in its round, is one to that round,
and the results are the values of their rounds. -/
structure RoundsApart (m : Series α) (s : State α) : Prop where
  lead_ne_failed : ∀ e, s.lead ≠ .failed e
  work_ne_failed : ∀ rank fault, s.work rank ≠ .failed (.protocol fault)
  round_eq_of_waiting : ∀ i, ∀ c ∈ s.waiting i, c.round = i
  round_eq_of_pending : ∀ c ∈ s.pending, c.round = s.results.length
  isRound : ∀ i values, s.results[i]? = some values → m.IsRound i values

/-- A group in which every process makes the same gathers and none gives up. If no process begins a
call before the coordinator has come to it, then in every interleaving no round disturbs another
one. The coordinator must be able to publish, the messages must fit a frame, and a record that an
earlier run has left must be one of a group of the same size. -/
theorem succession_in_turn (hcodec : m.codec.Faithful) (hfits : m.Fits)
    (hcan : m.rendezvous.CanPublish m.files) (hleft : m.LeftoverFits)
    (hgathers : ∀ i rank, m.reason i rank = none) (h : m.ReachableWithin State.InTurn s) :
    m.RoundsApart s := by
  have horderly := h.orderly hcodec hfits
  refine ⟨fun e hfailed => ?_, fun rank fault hfailed => ?_, horderly.round_eq_of_waiting,
    fun c hc => (horderly.round_eq c hc).1, fun i values => h.isRound hcodec hfits hgathers⟩
  · obtain ⟨rank, reason, -, hreason, -⟩ := (h.ended hcodec hfits hcan).failed e hfailed
    rw [hgathers] at hreason
    cases hreason
  · obtain ⟨round, hgivesUp⟩ := h.onlyLeftoversFail hfits hgathers hcan rank _ hfailed
    exact hleft.consider_ne_protocol round rank fault hgivesUp

/-! ### A group that gathers twice -/

/-- A group of some size that gathers twice. -/
def twice (size : UInt32) (hsize : 2 ≤ size.toNat) : Series UInt32 :=
  counting size hsize 2 (fun _ => noon) fun _ => none

section Twice

variable {size : UInt32} {hsize : 2 ≤ size.toNat}

lemma canPublish_twice : (twice size hsize).rendezvous.CanPublish (twice size hsize).files :=
  canPublish_counting

lemma leftoverFits_twice : (twice size hsize).LeftoverFits := by
  have hnone : (Rendezvous.read ⟨"", "mpi", "42"⟩).result ⟨[], []⟩ = .ok none := by
    rw [Files.result, Rendezvous.run_read]
    rfl
  intro record hread
  cases hread.symm.trans hnone

lemma payload_twice (c : Contribution) :
    (twice size hsize).payload c =
      .ok (.value (Codec.u32.encode (10 * UInt32.ofNat c.round + c.rank))) :=
  rfl

lemma fits_twice : (twice size hsize).Fits :=
  fits_counting nofun

/-- The group after the coordinator has published where it listens. -/
def twiceListening (size : UInt32) (hsize : 2 ≤ size.toNat) : State UInt32 :=
  { (twice size hsize).start with
    files := ((twice size hsize).rendezvous.publish
      ((twice size hsize).record 4001 noon none)).after ⟨[], []⟩
    lead := .listening ("a001", 4001) [] }

lemma reachable_twiceListening {P : State UInt32 → Prop}
    (hP : ∀ t : State UInt32, t.round = (fun _ => 0) → t.results = [] → P t) :
    (twice size hsize).ReachableWithin P (twiceListening size hsize) := by
  have hstart := ReachableWithin.start (hP (twice size hsize).start rfl rfl)
  exact hstart.published rfl (Nat.zero_lt_succ 1) rfl canPublish_twice 4001 noon hP

/-- As long as the files are those after publishing, another process finds the listener. -/
lemma afterReading_twice {s : State UInt32} (hfiles : s.files = (twiceListening size hsize).files)
    (round : Nat) (rank : UInt32) :
    afterReading (Worker.consider ((twice size hsize).participant round rank)
      ((twice size hsize).rendezvous.read.result s.files)) = .found ("a001", 4001) := by
  have own : ((twice size hsize).record 4001 noon none).job = (twice size hsize).rendezvous.job :=
    rfl
  have hshows : (twice size hsize).rendezvous.Shows
      (some ((twice size hsize).record 4001 noon none)) s.files := by
    rw [hfiles]
    exact (canPublish_twice.publish own).2
  rw [hshows.result_read, consider_record]
  rfl

end Twice

/-- Two processes that gather twice. -/
def pairTwice : Series UInt32 :=
  twice 2 two_le_toNat_two

/-- A process of two that goes on when the coordinator has come to the second round. -/
theorem succession_of_two :
    pairTwice.codec.Faithful ∧ pairTwice.Fits ∧
      pairTwice.rendezvous.CanPublish pairTwice.files ∧ pairTwice.LeftoverFits ∧
      (∀ i rank, pairTwice.reason i rank = none) ∧
      ∃ s, pairTwice.ReachableWithin State.InTurn s ∧ s.results = [[0, 1]] ∧
        s.round 1 = 1 ∧ pairTwice.RoundsApart s := by
  have hturn : ∀ t : State UInt32, t.round = (fun _ => 0) → t.results = [] → t.InTurn := by
    intro t hround _ rank
    rw [hround]
    exact Nat.zero_le _
  have h₀ : pairTwice.ReachableWithin State.InTurn (twiceListening 2 two_le_toNat_two) :=
    reachable_twiceListening hturn
  have h₁ := h₀.contributed 1 rfl (by decide) (by decide) (payload_twice _)
    (afterReading_twice rfl 0 1) rfl hturn
  have h₂ := h₁.received rfl rfl rfl rfl (.inl ⟨rfl, rfl⟩) hturn
  have haccount : pairTwice.account 0 [(⟨1, 0⟩, [pairTwice.message ⟨1, 0⟩])] =
      .ok ⟨[some 0, some 1], 0⟩ := rfl
  have hover : ∀ account, pairTwice.account 0 [(⟨1, 0⟩, [pairTwice.message ⟨1, 0⟩])] =
      .ok account → account.isComplete = true := by
    intro account h
    cases haccount.symm.trans h
    rfl
  have h₃ := h₂.step (Step.leave rfl hover rfl) fun rank => Nat.zero_le _
  have hnext : ∀ rank, Function.update (fun _ : UInt32 => 0) 1 1 rank ≤ 1 :=
    (Function.forall_update_iff _ fun _ round => round ≤ 1).2
      ⟨Nat.le_refl 1, fun _ _ => Nat.zero_le 1⟩
  have h₄ := h₃.step (@Step.next _ _ _ 1 rfl rfl (by decide)) hnext
  exact ⟨Codec.faithful_u32, fits_twice, canPublish_twice, leftoverFits_twice, fun _ _ => rfl,
    _, h₄, rfl, rfl, succession_in_turn Codec.faithful_u32 fits_twice canPublish_twice
      leftoverFits_twice (fun _ _ => rfl) h₄⟩

/-- Three processes that gather twice. -/
def trioTwice : Series UInt32 :=
  twice 3 two_le_toNat_three

/-- What the coordinator of three has when it has taken both contributions of one process. -/
def overlap : List (Contribution × Connection) :=
  [(⟨1, 0⟩, [trioTwice.message ⟨1, 0⟩]), (⟨1, 1⟩, [trioTwice.message ⟨1, 1⟩])]

lemma account_overlap :
    trioTwice.account 0 overlap = .error (.protocol (.repeatedRank 1)) :=
  rfl

/-- A process of three contributes to the first round and goes on before the coordinator has left
the round. It finds the same record again, so its contribution to the second round comes to the
listener of the first, and ends the gather there with an error of the protocol. -/
theorem repeatedRank_of_overlap :
    (∃ s, trioTwice.Reachable s ∧ s.results = [] ∧ ⟨1, 1⟩ ∈ s.pending) ∧
      ∃ s, trioTwice.Reachable s ∧
        s.lead = .failed (.protocol (.repeatedRank 1)) := by
  have h₀ : trioTwice.Reachable (twiceListening 3 two_le_toNat_three) :=
    reachable_twiceListening fun _ _ _ => trivial
  have h₁ := h₀.contributed 1 rfl (by decide) (by decide) (payload_twice _)
    (afterReading_twice rfl 0 1) rfl fun _ _ _ => trivial
  -- It goes on without rank 2's contribution: the coordinator and its record are still there.
  have h₂ := h₁.step (@Step.next _ _ _ 1 rfl rfl (by decide)) trivial
  have h₃ := h₂.contributed 1 rfl (by decide) (by decide) (payload_twice _)
    (afterReading_twice rfl 1 1) rfl fun _ _ _ => trivial
  have h₄ := h₃.received rfl rfl rfl rfl (.inr (by decide)) fun _ _ _ => trivial
  have h₅ := h₄.received rfl rfl rfl rfl (.inl ⟨rfl, rfl⟩) fun _ _ _ => trivial
  have hover : ∀ account, trioTwice.account 0 overlap = .ok account →
      account.isComplete = true := by
    intro account haccount
    cases account_overlap.symm.trans haccount
  have hpending : (⟨1, 1⟩ : Contribution) ∈ [(⟨1, 0⟩ : Contribution), ⟨1, 1⟩] := by decide
  exact ⟨⟨_, h₅, rfl, hpending⟩, _, h₅.step (Step.leave rfl hover rfl) trivial, rfl⟩

end JobBinding.Gather.Series

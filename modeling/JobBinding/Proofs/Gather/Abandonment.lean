import JobBinding.Proofs.Gather.Rounds

/-!
# Who waits after a process has given up

A process of a group gives up so that nobody waits for it, but a process that still looks for the
coordinator's record can be left behind. If the coordinator gives up, the others ignore its record
when it is older than their own start, although it is one of their run. If another process gives up,
the coordinator is told and removes its record, and whoever has not connected by then finds nothing.

`stuck_iff` says exactly when a process that still looks is left behind once the coordinator has
returned, and `Stuck.looking` that it is so for ever.
-/

namespace JobBinding.Gather.Series

attribute [local irreducible] Files.after Files.result

variable {α : Type} {m : Series α} {s s' : State α} {rank : UInt32}

/-- Whether a process is in its loop: it is about to look at the rendezvous file or to connect. -/
def State.IsPolling (s : State α) (rank : UInt32) : Prop :=
  s.work rank = .looking ∨ ∃ address, s.work rank = .found address

/-- Whether a process is left behind: the coordinator has returned, and the process still looks, but
what the rendezvous file holds makes it look again. -/
structure Stuck (m : Series α) (s : State α) (rank : UInt32) : Prop where
  isOver : m.IsOver s
  isPolling : s.IsPolling rank
  consider_eq : Worker.consider (m.participant (s.round rank) rank)
    (m.rendezvous.read.result s.files) = .lookAgain

/-! ## Looking for ever -/

/-- When the coordinator makes no more calls, the files stay as they are and nobody listens. -/
lemma IsOver.address?_eq_none (h : m.IsOver s) : s.lead.address? = none := by
  unfold IsOver at h
  split at h
  · next hlead => rw [hlead]; rfl
  · next hlead => rw [hlead]; rfl
  · next hlead => rw [hlead]; rfl
  · cases h

lemma IsOver.not_lt_of_ready (h : m.IsOver s) (hready : s.lead = .ready) :
    ¬ s.results.length < m.rounds := by
  unfold IsOver at h
  rw [hready] at h
  exact Nat.not_lt.2 h

lemma IsOver.not_listening (h : m.IsOver s) {address : Address}
    {taken : List (Contribution × Connection)} : s.lead ≠ .listening address taken := by
  intro hlead
  have hnone := h.address?_eq_none
  rw [hlead] at hnone
  cases hnone

lemma IsOver.not_receiving (h : m.IsOver s) {address : Address}
    {taken : List (Contribution × Connection)} {c : Contribution} :
    s.lead ≠ .receiving address taken c := by
  intro hlead
  have hnone := h.address?_eq_none
  rw [hlead] at hnone
  cases hnone

/-- A step of another process leaves it where it is. -/
lemma Stuck.setWork (h : m.Stuck s rank) (hlooking : s.work rank = .looking) {other : UInt32}
    (stage : WorkStage) (hother : s.work other ≠ .looking) :
    m.Stuck { s with work := Function.update s.work other stage } rank ∧
      Function.update s.work other stage rank = .looking := by
  have hne : rank ≠ other := by
    rintro rfl
    exact hother hlooking
  have hwork : Function.update s.work other stage rank = .looking := by
    rw [Function.update_of_ne hne, hlooking]
  exact ⟨⟨h.isOver, .inl hwork, h.consider_eq⟩, hwork⟩

/-- A process that is left behind and looks is left behind after each step of any process. -/
theorem Stuck.step (h : m.Stuck s rank) (hlooking : s.work rank = .looking)
    (hstep : m.Step s s') : m.Stuck s' rank ∧ s'.work rank = .looking := by
  cases hstep with
  | publish hready hround hgathers => exact absurd hround (h.isOver.not_lt_of_ready hready)
  | giveUp hready hround hgivesUp => exact absurd hround (h.isOver.not_lt_of_ready hready)
  | accept hlistening haccount hopen hwaiting => exact absurd hlistening h.isOver.not_listening
  | receive hreceiving hsent hbytes => exact absurd hreceiving h.isOver.not_receiving
  | leave hlistening hover hresult => exact absurd hlistening h.isOver.not_listening
  | encode hready hrank hround => exact h.setWork hlooking _ (by rw [hready]; exact nofun)
  | @read other hlooks =>
    by_cases hother : rank = other
    · subst hother
      rw [h.consider_eq]
      have hwork : Function.update s.work rank (afterReading .lookAgain) rank = .looking :=
        Function.update_self _ _ _
      exact ⟨⟨h.isOver, .inl hwork, h.consider_eq⟩, hwork⟩
    · have hwork : Function.update s.work other (afterReading (Worker.consider
          (m.participant (s.round other) other) (m.rendezvous.read.result s.files))) rank =
            .looking := by
        rw [Function.update_of_ne hother, hlooking]
      exact ⟨⟨h.isOver, .inl hwork, h.consider_eq⟩, hwork⟩
  | connect hfound hlistens =>
    rw [h.isOver.address?_eq_none] at hlistens
    cases hlistens
  | refuse hfound => exact h.setWork hlooking _ (by rw [hfound]; exact nofun)
  | stray hfound hnone => exact h.setWork hlooking _ (by rw [hfound]; exact nofun)
  | send hconnected => exact h.setWork hlooking _ (by rw [hconnected]; exact nofun)
  | @next other hsent hgathered hround =>
    have hne : rank ≠ other := by
      rintro rfl
      rw [hlooking] at hsent
      cases hsent
    obtain ⟨hstuck, hwork⟩ := h.setWork hlooking .ready (by rw [hsent]; exact nofun)
    refine ⟨⟨h.isOver, .inl hwork, ?_⟩, hwork⟩
    show Worker.consider (m.participant (Function.update s.round other _ rank) rank) _ = _
    rw [Function.update_of_ne hne]
    exact h.consider_eq

/-- A process that is left behind and looks will look for ever. -/
theorem Stuck.looking (h : m.Stuck s rank) (hlooking : s.work rank = .looking)
    (hsteps : Relation.ReflTransGen m.Step s s') : m.Stuck s' rank ∧ s'.work rank = .looking := by
  induction hsteps with
  | refl => exact ⟨h, hlooking⟩
  | tail _ hstep ih => exact ih.1.step ih.2 hstep

/-! ## One call of each process -/

lemma Reachable.round_eq_zero (hrounds : m.rounds = 1) (h : m.Reachable s) (rank : UInt32) :
    s.round rank = 0 := by
  induction h with
  | start _ => rfl
  | step _ hstep _ ih =>
    cases hstep with
    | next hsent hgathered hround => omega
    | _ => exact ih

/-- With one call of each process, the rounds are in turn. -/
lemma Reachable.inTurn (hrounds : m.rounds = 1) (h : m.Reachable s) :
    m.ReachableWithin State.InTurn s := by
  induction h with
  | start _ => exact .start fun _ => Nat.zero_le _
  | step h hstep _ ih =>
    refine ih.step hstep fun rank => ?_
    have hzero := Reachable.round_eq_zero hrounds (h.step hstep trivial) rank
    rw [hzero]
    exact Nat.zero_le _

/-- A process looks again at the record of a coordinator that has given up exactly if the record is
older than the process's start. -/
lemma consider_aborted_iff {round : Nat} {now : Instant} {reason : String} :
    Worker.consider (m.participant round rank) (.ok (some (m.record 0 now (some reason)))) =
      .lookAgain ↔ now.isBefore (m.started round rank) = true := by
  show (if now.isBefore (m.started round rank) then Worker.Decision.lookAgain
    else .giveUp (.aborted 0 reason)) = .lookAgain ↔ _
  split
  · next hbefore => exact ⟨fun _ => hbefore, fun _ => rfl⟩
  · next hbefore => exact ⟨nofun, fun h => absurd h hbefore⟩

/-- If the coordinator has given up, then exactly those that started after this are left behind. -/
lemma FilesShow.stuck_iff_of_gaveUp (h : m.FilesShow s) {now : Instant}
    (hlead : s.lead = .gaveUp now) (hpolling : s.IsPolling rank) :
    m.Stuck s rank ↔ now.isBefore (m.started (s.round rank) rank) = true := by
  unfold FilesShow at h
  rw [hlead] at h
  obtain ⟨reason, -, hshows⟩ := h
  constructor
  · intro hstuck
    have hconsider := hstuck.consider_eq
    rw [hshows.result_read] at hconsider
    exact consider_aborted_iff.1 hconsider
  · intro hbefore
    refine ⟨?_, hpolling, ?_⟩
    · unfold IsOver
      rw [hlead]
      trivial
    · rw [hshows.result_read]
      exact consider_aborted_iff.2 hbefore

/-- If a call of the coordinator has failed, then whoever still looks is left behind. -/
lemma FilesShow.stuck_of_failed (h : m.FilesShow s) {e : Failure} (hlead : s.lead = .failed e)
    (hpolling : s.IsPolling rank) : m.Stuck s rank := by
  unfold FilesShow at h
  rw [hlead] at h
  refine ⟨?_, hpolling, ?_⟩
  · unfold IsOver
    rw [hlead]
    trivial
  · rw [h.result_read]
    rfl

/-- A group in which one process gives up and every other one gathers, once. When the coordinator
has returned, a process that still looks for its record is left behind, unless it is the coordinator
that has given up, and this not before the process started. The coordinator must be able to publish,
and the messages must fit a frame. -/
theorem stuck_iff (hcodec : m.codec.Faithful) (hfits : m.Fits)
    (hcan : m.rendezvous.CanPublish m.files) (hrounds : m.rounds = 1) {who : UInt32}
    (hwho : who < m.size) (hone : ∀ rank, (∃ reason, m.reason 0 rank = some reason) ↔ rank = who)
    (h : m.Reachable s) (hover : m.IsOver s) (hpolling : s.IsPolling rank) :
    m.Stuck s rank ↔
      (who = 0 → ∃ now, s.lead = .gaveUp now ∧ now.isBefore (m.started 0 rank) = true) := by
  have hinTurn := Reachable.inTurn hrounds h
  have hended := hinTurn.ended hcodec hfits hcan
  have hfiles := hinTurn.filesShow hcan
  have hwho' : who = 0 ∨ m.IsMember who := by
    by_cases hzero : who = 0
    · exact .inl hzero
    · exact .inr ⟨hzero, hwho⟩
  -- No gather ends well without the one that has given up.
  have hresults : s.results.length = 0 := by
    by_contra hne
    obtain ⟨reason, hreason⟩ := (hone who).2 rfl
    rw [hended.gathered 0 (Nat.pos_of_ne_zero hne) who hwho'] at hreason
    cases hreason
  cases hlead : s.lead with
  | ready =>
    exact absurd (by omega) (hover.not_lt_of_ready hlead)
  | listening address taken => exact absurd hlead hover.not_listening
  | receiving address taken c => exact absurd hlead hover.not_receiving
  | gaveUp now =>
    have hstuck := hfiles.stuck_iff_of_gaveUp hlead hpolling
    rw [Reachable.round_eq_zero hrounds h rank] at hstuck
    have hzero : who = 0 := by
      unfold FilesShow at hfiles
      rw [hlead, hresults] at hfiles
      obtain ⟨reason, hreason, -⟩ := hfiles
      exact ((hone 0).1 ⟨reason, hreason⟩).symm
    constructor
    · intro h _
      exact ⟨now, rfl, hstuck.1 h⟩
    · intro hbefore
      obtain ⟨_, ⟨⟩, hbefore⟩ := hbefore hzero
      exact hstuck.2 hbefore
  | failed e =>
    obtain ⟨other, reason, hmember, hreason, -⟩ := hended.failed e hlead
    rw [hresults] at hreason
    have hother : other = who := (hone other).1 ⟨reason, hreason⟩
    constructor
    · intro _ hzero
      exact absurd (hother.trans hzero) hmember.1
    · intro _
      exact hfiles.stuck_of_failed hlead hpolling

/-! ### A group with one process that gives up -/

/-- A little more than a second later. -/
def afternoon : Instant :=
  ⟨1700000001, 12, by decide, by decide⟩

/-- A group of some size that gathers once, and in which the process of one rank gives up. -/
def giving (size : UInt32) (hsize : 2 ≤ size.toNat) (who : UInt32) (started : UInt32 → Instant) :
    Series UInt32 :=
  counting size hsize 1 started fun rank => if rank = who then some "no cpus" else none

section Giving

variable {size who : UInt32} {hsize : 2 ≤ size.toNat} {started : UInt32 → Instant}

lemma canPublish_giving :
    (giving size hsize who started).rendezvous.CanPublish (giving size hsize who started).files :=
  canPublish_counting

lemma fits_giving : (giving size hsize who started).Fits := by
  apply fits_counting
  intro rank why hwhy
  split at hwhy
  · cases hwhy
    decide
  · cases hwhy

lemma exists_reason_giving (rank : UInt32) :
    (∃ reason, (giving size hsize who started).reason 0 rank = some reason) ↔ rank = who := by
  show (∃ reason, (if rank = who then some "no cpus" else none) = some reason) ↔ _
  split
  · next h => simp [h]
  · next h => simp [h]

/-- The message of the process that gives up ends the coordinator's gather. -/
lemma account_giving (hmember : (giving size hsize who started).IsMember who)
    {connection : Connection}
    (hbytes : connection.flatten = (giving size hsize who started).message ⟨who, 0⟩) :
    (giving size hsize who started).account 0 [(⟨who, 0⟩, connection)] =
      .error (.aborted who "no cpus") := by
  have hreason : (giving size hsize who started).reason 0 who = some "no cpus" := if_pos rfl
  have hbrings : (giving size hsize who started).Brings 0 [(⟨who, 0⟩, connection)] := by
    refine ⟨?_, ?_, ?_, List.nodup_cons.2 ⟨List.not_mem_nil, List.nodup_nil⟩⟩
    · exact List.forall_mem_singleton.2 ⟨hmember, Nat.zero_lt_one⟩
    · exact List.forall_mem_singleton.2 rfl
    · exact List.forall_mem_singleton.2 hbytes
  rcases account_cases Codec.faithful_u32 fits_giving hbrings with
    ⟨t, ht, reason, hreason', herror⟩ | ⟨hnone, -⟩
  · rw [List.mem_singleton.1 ht] at hreason' herror
    cases hreason.symm.trans hreason'
    exact herror
  · cases hreason.symm.trans (hnone _ (List.mem_singleton_self _))

end Giving

/-- Three processes that start at noon. The one of rank 1 gives up. -/
def oneOfThree : Series UInt32 :=
  giving 3 two_le_toNat_three 1 fun _ => noon

/-- Of three processes, the one of rank 1 gives up. The coordinator hears of it, removes its record
and returns, and the process of rank 2, which looks only then, is left behind. -/
theorem stuck_of_three :
    oneOfThree.codec.Faithful ∧ oneOfThree.Fits ∧
      oneOfThree.rendezvous.CanPublish oneOfThree.files ∧ oneOfThree.rounds = 1 ∧
      (1 : UInt32) < oneOfThree.size ∧
      (∀ rank, (∃ reason, oneOfThree.reason 0 rank = some reason) ↔ rank = 1) ∧
      ∃ s, oneOfThree.Reachable s ∧ oneOfThree.IsOver s ∧ s.IsPolling 2 ∧
        oneOfThree.Stuck s 2 := by
  have hcan : oneOfThree.rendezvous.CanPublish oneOfThree.files := canPublish_giving
  have own : (oneOfThree.record 4001 noon none).job = oneOfThree.rendezvous.job := rfl
  have hread := (hcan.publish own).2.result_read
  have h₀ : oneOfThree.Reachable oneOfThree.start := .start trivial
  have h₁ := h₀.published rfl (by decide) rfl hcan 4001 noon fun _ _ _ => trivial
  have hfound : afterReading (Worker.consider (oneOfThree.participant 0 1)
      (oneOfThree.rendezvous.read.result ((oneOfThree.rendezvous.publish
        (oneOfThree.record 4001 noon none)).after oneOfThree.files))) = .found ("a001", 4001) := by
    rw [hread]
    rfl
  have h₂ := h₁.contributed 1 rfl (by decide) (by decide) rfl hfound rfl fun _ _ _ => trivial
  have h₃ := h₂.received rfl rfl rfl rfl (.inl ⟨rfl, rfl⟩) fun _ _ _ => trivial
  have hbytes : List.flatten [oneOfThree.message ⟨1, 0⟩] = oneOfThree.message ⟨1, 0⟩ :=
    List.append_nil _
  have haborted : oneOfThree.account 0 [(⟨1, 0⟩, [oneOfThree.message ⟨1, 0⟩])] =
      .error (.aborted 1 "no cpus") := account_giving (by decide) hbytes
  have hover : ∀ account, oneOfThree.account 0 [(⟨1, 0⟩, [oneOfThree.message ⟨1, 0⟩])] =
      .ok account → account.isComplete = true := by
    intro account h
    cases haborted.symm.trans h
  have hresult : (oneOfThree.account 0 [(⟨1, 0⟩, [oneOfThree.message ⟨1, 0⟩])] >>=
      Collector.finish) = .error (.aborted 1 "no cpus") := by
    rw [haborted]
    rfl
  have h₄ := h₃.step (Step.leave rfl hover hresult) trivial
  -- Only now does the process of rank 2 begin to look.
  have h₅ := h₄.step (@Step.encode _ _ _ 2 rfl (by decide) (by decide)) trivial
  have hstuck := @stuck_iff _ _ _ 2 Codec.faithful_u32 fits_giving hcan rfl 1
    (by decide) exists_reason_giving h₅ trivial (.inl rfl)
  exact ⟨Codec.faithful_u32, fits_giving, hcan, rfl, by decide, exists_reason_giving,
    _, h₅, trivial, .inl rfl, hstuck.2 fun hzero => absurd hzero (by decide)⟩

/-- The coordinator starts at noon and gives up. The other one of the two processes starts later. -/
def lateOfTwo : Series UInt32 :=
  giving 2 two_le_toNat_two 0 fun rank => if rank = 0 then noon else afternoon

/-- The coordinator of two gives up before the other process has started. The record is one of this
run, but the other process takes it for one of an earlier run, and looks for another one for
ever. -/
theorem stuck_of_late_start :
    (∀ rank, (∃ reason, lateOfTwo.reason 0 rank = some reason) ↔ rank = 0) ∧
    ∃ s, lateOfTwo.Reachable s ∧ s.lead = .gaveUp noon ∧ lateOfTwo.Stuck s 1 ∧
      ∀ s', Relation.ReflTransGen lateOfTwo.Step s s' → s'.work 1 = .looking := by
  have hcan : lateOfTwo.rendezvous.CanPublish lateOfTwo.start.files := canPublish_giving
  have own : (lateOfTwo.record 0 noon (some "no cpus")).job = lateOfTwo.rendezvous.job := rfl
  obtain ⟨hresult, hshows⟩ := hcan.publish own
  have h₀ : lateOfTwo.Reachable lateOfTwo.start := .start trivial
  have h₁ := h₀.step (@Step.giveUp _ _ _ "no cpus" noon rfl (by decide) rfl) trivial
  rw [hresult] at h₁
  have h₂ := h₁.step (@Step.encode _ _ _ 1 rfl (by decide) (by decide)) trivial
  -- The other process has started only after the record was made.
  have hbefore : noon.isBefore (lateOfTwo.started 0 1) = true := by decide
  have hstuck := ((h₂.filesShow hcan).stuck_iff_of_gaveUp rfl (.inl rfl)).2 hbefore
  exact ⟨exists_reason_giving, _, h₂, rfl, hstuck, fun s' hsteps => (hstuck.looking rfl hsteps).2⟩

end JobBinding.Gather.Series

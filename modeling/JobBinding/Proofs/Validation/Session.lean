import Mathlib.Data.List.Basic
import JobBinding.Proofs.Binding.Encoding
import JobBinding.Proofs.Gather.Collector
import JobBinding.Proofs.Validation.Steps
import JobBinding.Proofs.Verdict.ReportFile

/-!
# Validation by a team, in every order of steps

`Consistent` ties together what the members have observed, what went through the queue and what the
coordinator's account holds. One step of any member keeps it (`Consistent.step`), so it holds
whatever the order of the steps is, and what a member returns can be read off it
(`Consistent.outcome`).

The coordinator never finds that all others have left before they contributed
(`Consistent.any_senders`): a member that has left has sent its message, and once all messages were
taken the account is complete.
-/

namespace JobBinding.Validation

open Gather

namespace Session

variable {s s' s₀ : Session} {rank : UInt32}

/-! ## The invariant -/

/-- How far a member other than the coordinator has come, when some messages were sent and it
observes `o`. -/
inductive MemberState (s : Session) (sent : List Message) (rank : UInt32)
    (o : Except Failure Binding) : Prop where
  | fresh (hstage : s.stages[rank.toNat]? = some .fresh) (hsend : s.team.canSend rank = true)
      (hsent : ∀ m ∈ sent, m.rank ≠ rank)
  | observed (hstage : s.stages[rank.toNat]? = some (.observed o))
      (hsend : s.team.canSend rank = true) (hsent : ∀ m ∈ sent, m.rank ≠ rank)
  | delivered (hstage : s.stages[rank.toNat]? = some (.returned (Session.delivered o)))
      (hsend : s.team.canSend rank = false) (hsent : contribution rank o ∈ sent)
  | turnedAway (hstage : s.stages[rank.toNat]? = some (.returned (Session.turnedAway o)))
      (hsend : s.team.canSend rank = false) (hleft : s.team.isListening = false)
      (hsent : ∀ m ∈ sent, m.rank ≠ rank)

/-- How far the coordinator has come. What it took from the queue is the beginning of what was
sent; until it has all values, nothing is written. -/
inductive CoordinatorState (s₀ s : Session) (sent : List Message) : Prop where
  | fresh (hstage : s.stages[0]? = some .fresh) (hleader : s.team.leader = .ready)
      (hqueue : s.team.queue = sent) (hfiles : s.files = s₀.files)
  | observed {o : Except Failure Binding} (hobs : s₀.observations[0]? = some o)
      (hstage : s.stages[0]? = some (.observed o)) (hleader : s.team.leader = .ready)
      (hqueue : s.team.queue = sent) (hfiles : s.files = s₀.files)
  | gathering {own : Binding} {taken : List Message} {c : Collector Binding}
      (hobs : s₀.observations[0]? = some (.ok own)) (hstage : s.stages[0]? = some .gathering)
      (hleader : s.team.leader = .gathering Binding.codec.deserialize c)
      (hqueue : sent = taken ++ s.team.queue)
      (hc : (Collector.start s₀.team.size own).acceptAll Binding.codec.deserialize taken = .ok c)
      (hfiles : s.files = s₀.files)
  | failed {e : Failure} (hobs : s₀.observations[0]? = some (.error e))
      (hstage : s.stages[0]? = some (.returned (.error e))) (hleader : s.team.leader = .finished)
      (hfiles : s.files = s₀.files)
  | aborted {own : Binding} {taken rest : List Message} {m : Message} {reason : String}
      {c : Collector Binding} (hobs : s₀.observations[0]? = some (.ok own))
      (hstage : s.stages[0]? = some (.returned (.error (.aborted m.rank reason))))
      (hleader : s.team.leader = .finished) (hsent : sent = taken ++ m :: rest)
      (hc : (Collector.start s₀.team.size own).acceptAll Binding.codec.deserialize taken = .ok c)
      (hm : m.payload = .abort reason) (hfiles : s.files = s₀.files)
  | concluded {bindings : List Binding} (hobs : s₀.observations = bindings.map .ok)
      (hstage : s.stages[0]? =
        some (.returned (.ok (some (Verdict.classify bindings s₀.shape)))))
      (hleader : s.team.leader = .finished)
      (hsent : ∀ rank : UInt32, rank ≠ 0 → rank.toNat < bindings.length → ∃ m ∈ sent, m.rank = rank)
      (hfiles : s.files.node? s₀.file.path =
        some (.file (Text.Utf8.encode (Verdict.classify bindings s₀.shape).text)))

/-- The invariant of a session that began as `s₀` and in which some messages were sent. -/
structure Consistent (s₀ s : Session) (sent : List Message) : Prop where
  shape_eq : s.shape = s₀.shape
  file_eq : s.file = s₀.file
  probes_eq : s.probes = s₀.probes
  size_eq : s.team.size = s₀.team.size
  length_senders : s.team.senders.length + 1 = s₀.probes.length
  length_stages : s.stages.length = s₀.probes.length
  eq_contribution : ∀ m ∈ sent, m.rank ≠ 0 ∧
    ∃ o, s₀.observations[m.rank.toNat]? = some o ∧ m = contribution m.rank o
  nodup : (sent.map (·.rank)).Nodup
  member : ∀ rank : UInt32, rank ≠ 0 → ∀ o, s₀.observations[rank.toNat]? = some o →
    MemberState s sent rank o
  coordinator : CoordinatorState s₀ s sent

lemma MemberState.frame {sent new : List Message} {o : Except Failure Binding}
    (h : MemberState s sent rank o) (hstage : s'.stages[rank.toNat]? = s.stages[rank.toNat]?)
    (hsend : s'.team.canSend rank = s.team.canSend rank)
    (hleft : s.team.isListening = false → s'.team.isListening = false)
    (hnew : ∀ m ∈ new, m.rank ≠ rank) : MemberState s' (sent ++ new) rank o := by
  have hnone : (∀ m ∈ sent, m.rank ≠ rank) → ∀ m ∈ sent ++ new, m.rank ≠ rank := by
    intro hsent m hm
    rcases List.mem_append.1 hm with hm | hm
    · exact hsent m hm
    · exact hnew m hm
  cases h with
  | fresh hs hc hsent => exact .fresh (hstage.trans hs) (hsend.trans hc) (hnone hsent)
  | observed hs hc hsent => exact .observed (hstage.trans hs) (hsend.trans hc) (hnone hsent)
  | delivered hs hc hsent =>
    exact .delivered (hstage.trans hs) (hsend.trans hc) (List.mem_append_left new hsent)
  | turnedAway hs hc hl hsent =>
    exact .turnedAway (hstage.trans hs) (hsend.trans hc) (hleft hl) (hnone hsent)

lemma MemberState.congr {sent : List Message} {o : Except Failure Binding}
    (h : MemberState s sent rank o) (hstage : s'.stages[rank.toNat]? = s.stages[rank.toNat]?)
    (hsend : s'.team.canSend rank = s.team.canSend rank)
    (hleft : s.team.isListening = false → s'.team.isListening = false) :
    MemberState s' sent rank o := by
  have hframe : MemberState s' (sent ++ []) rank o := h.frame hstage hsend hleft (by simp)
  rwa [List.append_nil] at hframe

lemma CoordinatorState.frame {sent new : List Message} (h : CoordinatorState s₀ s sent)
    (hstage : s'.stages[0]? = s.stages[0]?) (hleader : s'.team.leader = s.team.leader)
    (hqueue : s'.team.queue = s.team.queue ++ new) (hfiles : s'.files = s.files) :
    CoordinatorState s₀ s' (sent ++ new) := by
  -- New messages go to the end of the queue, behind what the coordinator has taken.
  cases h with
  | fresh hs hl hq hf =>
    exact .fresh (hstage.trans hs) (hleader.trans hl) (by rw [hqueue, hq]) (hfiles.trans hf)
  | observed ho hs hl hq hf =>
    exact .observed ho (hstage.trans hs) (hleader.trans hl) (by rw [hqueue, hq])
      (hfiles.trans hf)
  | gathering ho hs hl hq hc hf =>
    exact .gathering ho (hstage.trans hs) (hleader.trans hl)
      (by rw [hqueue, hq, List.append_assoc]) hc (hfiles.trans hf)
  | failed ho hs hl hf => exact .failed ho (hstage.trans hs) (hleader.trans hl) (hfiles.trans hf)
  | aborted ho hs hl hsent hc hm hf =>
    exact .aborted ho (hstage.trans hs) (hleader.trans hl)
      (by rw [hsent, List.append_assoc, List.cons_append]) hc hm (hfiles.trans hf)
  | concluded ho hs hl hsent hf =>
    refine .concluded ho (hstage.trans hs) (hleader.trans hl) ?_ (hfiles ▸ hf)
    intro rank hrank hlt
    obtain ⟨m, hm, hr⟩ := hsent rank hrank hlt
    exact ⟨m, List.mem_append_left new hm, hr⟩

/-- What a validation relies on: a team of the probes' number, observations that can be sent and
files that can be written. -/
structure Reliable (s₀ : Session) : Prop where
  size_pos : 0 < s₀.probes.length
  size_toNat : s₀.team.size.toNat = s₀.probes.length
  encodes : ∀ b, Except.ok b ∈ s₀.observations → (Binding.codec.encode b).length ≤ Codec.limit
  writes : ∀ verdict, ∃ after, (s₀.file.write verdict).run s₀.files = .ok () after

lemma Reliable.encodes_of_getElem? (h : Reliable s₀) {r : Nat} {o : Except Failure Binding}
    (ho : s₀.observations[r]? = some o) :
    ∀ b, o = .ok b → (Binding.codec.encode b).length ≤ Codec.limit := by
  rintro b rfl
  exact h.encodes b (List.mem_of_getElem? ho)

lemma exists_observation {r : Nat} (h : r < s₀.probes.length) :
    ∃ o, s₀.observations[r]? = some o := by
  rw [getElem?_observations, List.getElem?_eq_getElem h]
  exact ⟨_, rfl⟩

lemma exists_rank {size : UInt32} {r : Nat} (h : r < size.toNat) :
    ∃ rank : UInt32, rank.toNat = r :=
  ⟨UInt32.ofNat r, UInt32.toNat_ofNat_of_lt (h.trans size.toNat_lt)⟩

lemma toNat_ne_zero (h : rank ≠ 0) : rank.toNat ≠ 0 := by
  intro h'
  exact h (UInt32.toNat_inj.1 h')

namespace Consistent

variable {sent new : List Message} {o : Except Failure Binding}

lemma lt_of_getElem?_observations (h : s₀.observations[rank.toNat]? = some o) :
    rank.toNat < s₀.probes.length := by
  obtain ⟨hlt, -⟩ := List.getElem?_eq_some_iff.1 h
  rwa [observations, List.length_map] at hlt

lemma observations_eq (h : Consistent s₀ s sent) : s.observations = s₀.observations := by
  rw [observations, observations, h.probes_eq, h.shape_eq]

lemma lt_length_stages (h : Consistent s₀ s sent) (ho : s₀.observations[rank.toNat]? = some o) :
    rank.toNat < s.stages.length := by
  rw [h.length_stages]
  exact lt_of_getElem?_observations ho

lemma length_stages_pos (h : Consistent s₀ s sent) (hs₀ : s₀.Reliable) : 0 < s.stages.length := by
  rw [h.length_stages]
  exact hs₀.size_pos

lemma getElem?_stages_eq_none (h : Consistent s₀ s sent)
    (ho : s₀.observations[rank.toNat]? = none) : s.stages[rank.toNat]? = none := by
  rw [List.getElem?_eq_none_iff] at ho ⊢
  rwa [observations, List.length_map, ← h.length_stages] at ho

lemma step_eq_of_fresh (h : Consistent s₀ s sent) (hsize : s₀.team.size = s₀.shape.processes)
    (hstage : s.stages[rank.toNat]? = some .fresh)
    (ho : s₀.observations[rank.toNat]? = some o) : s.step rank = s.setStage rank (.observed o) := by
  have hobs : s.observations[rank.toNat]? = some o := by rw [h.observations_eq, ho]
  have hteam : s.team.size = s.shape.processes := by rw [h.size_eq, h.shape_eq, hsize]
  exact step_of_fresh hstage hobs hteam

/-! ### Steps of a member -/

lemma setStage (h : Consistent s₀ s sent) (hrank : rank ≠ 0)
    (ho : s₀.observations[rank.toNat]? = some o) (hsend : s.team.canSend rank = true)
    (hsent : ∀ m ∈ sent, m.rank ≠ rank) :
    Consistent s₀ (s.setStage rank (.observed o)) sent where
  shape_eq := h.shape_eq
  file_eq := h.file_eq
  probes_eq := h.probes_eq
  size_eq := h.size_eq
  length_senders := h.length_senders
  length_stages := by
    rw [Session.setStage, List.length_set]
    exact h.length_stages
  eq_contribution := h.eq_contribution
  nodup := h.nodup
  -- The member is at its new stage; neither the stage nor the right to send of the others changes.
  member other hother o' ho' := by
    by_cases heq : other = rank
    · subst heq
      cases ho.symm.trans ho'
      exact .observed (List.getElem?_set_self (h.lt_length_stages ho)) hsend hsent
    · have hne : rank.toNat ≠ other.toNat := fun h => heq (UInt32.toNat_inj.1 h.symm)
      exact (h.member other hother o' ho').congr (List.getElem?_set_ne hne) rfl id
  coordinator := by
    have hframe : CoordinatorState s₀ (s.setStage rank (.observed o)) (sent ++ []) :=
      h.coordinator.frame (List.getElem?_set_ne (toNat_ne_zero hrank)) rfl
        (by simp [Session.setStage]) rfl
    rwa [List.append_nil] at hframe

lemma retires {result : Except Failure (Option Verdict)} (h : Consistent s₀ s sent)
    (hrank : rank ≠ 0) (ho : s₀.observations[rank.toNat]? = some o)
    (hnew : ∀ m ∈ new, m = contribution rank o) (hnodup : ((sent ++ new).map (·.rank)).Nodup)
    (hmember : MemberState (s.retires rank result (s.team.queue ++ new)) (sent ++ new) rank o) :
    Consistent s₀ (s.retires rank result (s.team.queue ++ new)) (sent ++ new) where
  shape_eq := h.shape_eq
  file_eq := h.file_eq
  probes_eq := h.probes_eq
  size_eq := h.size_eq
  length_senders := by
    simp only [Session.retires, Team.spend, List.length_set]
    exact h.length_senders
  length_stages := by
    simp only [Session.retires, List.length_set]
    exact h.length_stages
  eq_contribution m hm := by
    rcases List.mem_append.1 hm with hm | hm
    · exact h.eq_contribution m hm
    · rw [hnew m hm, rank_contribution]
      exact ⟨hrank, o, ho, rfl⟩
  nodup := hnodup
  member other hother o' ho' := by
    by_cases heq : other = rank
    · subst heq
      cases ho.symm.trans ho'
      exact hmember
    · have hne : rank.toNat ≠ other.toNat := fun h => heq (UInt32.toNat_inj.1 h.symm)
      have hpos := toNat_ne_zero hrank
      -- Distinct ranks have distinct slots among the senders; the coordinator has none.
      have hpos' := toNat_ne_zero hother
      refine (h.member other hother o' ho').frame (List.getElem?_set_ne hne)
        (Team.canSend_spend_of_ne (by omega) (by omega) hne) id ?_
      intro m hm
      rw [hnew m hm, rank_contribution]
      exact Ne.symm heq
  coordinator :=
    h.coordinator.frame (List.getElem?_set_ne (toNat_ne_zero hrank)) rfl rfl rfl

theorem step_member (h : Consistent s₀ s sent) (hs₀ : s₀.Reliable)
    (hsize : s₀.team.size = s₀.shape.processes) (hrank : rank ≠ 0)
    (ho : s₀.observations[rank.toNat]? = some o) :
    Consistent s₀ (s.step rank) (sent ++ s.sends rank) := by
  have hencodes := hs₀.encodes_of_getElem? ho
  have hlt := h.lt_length_stages ho
  have hreturned {result : Except Failure (Option Verdict)} :
      (s.stages.set rank.toNat (.returned result))[rank.toNat]? = some (.returned result) :=
    List.getElem?_set_self hlt
  -- The member's stage and, if it has something to send, whether the coordinator listens.
  cases h.member rank hrank o ho with
  | fresh hstage hsend hsent =>
    have hstep := h.step_eq_of_fresh hsize hstage ho
    rw [sends_eq_of_append [] (by rw [hstep, List.append_nil]; rfl), List.append_nil,
      hstep]
    exact h.setStage hrank ho hsend hsent
  | observed hstage hsend hsent =>
    cases hlistens : s.team.isListening with
    | true =>
      have hstep := step_of_isListening hrank hstage hsend hlistens hencodes
      rw [sends_eq_of_append [contribution rank o] (by rw [hstep]; rfl), hstep]
      refine h.retires hrank ho (by simp) ?_ ?_
      · rw [List.map_append, List.nodup_append]
        refine ⟨h.nodup, by simp, ?_⟩
        intro r hr r' hr' heq
        obtain ⟨m, hm, rfl⟩ := List.mem_map.1 hr
        exact hsent m hm (by simpa [heq] using hr')
      · exact .delivered hreturned Team.canSend_spend_self (by simp)
    | false =>
      -- The attempt counts although nothing arrives: the list of new messages is empty.
      have hstep := step_of_not_isListening hrank hstage hsend hlistens hencodes
      rw [sends_eq_of_append [] (by rw [hstep, List.append_nil]; rfl), hstep]
      have hmember : MemberState (s.retires rank (turnedAway o) (s.team.queue ++ []))
          (sent ++ []) rank o :=
        .turnedAway hreturned Team.canSend_spend_self hlistens (by simpa using hsent)
      have hkeep := h.retires hrank ho (by simp) (by simpa using h.nodup) hmember
      simpa only [List.append_nil] using hkeep
  | delivered hstage hsend hsent =>
    have hstep := step_of_returned hstage
    rwa [sends_eq_nil (by rw [hstep]), List.append_nil, hstep]
  | turnedAway hstage hsend hleft hsent =>
    have hstep := step_of_returned hstage
    rwa [sends_eq_nil (by rw [hstep]), List.append_nil, hstep]

/-! ### What the coordinator's account holds -/

lemma carries_contribution {b : Binding}
    (hencodes : ∀ b, o = .ok b → (Binding.codec.encode b).length ≤ Codec.limit) :
    (contribution rank o).Carries Binding.codec.deserialize b ↔ o = .ok b := by
  constructor
  · rintro ⟨encoded, hpayload, hdecode⟩
    cases o with
    | error e => cases hpayload
    | ok own =>
      cases hpayload
      have hread := Binding.faithful_codec.deserialize_of_serialize
        (Codec.serialize_eq_ok_iff.2 ⟨hencodes own rfl, rfl⟩)
      rw [hread] at hdecode
      exact hdecode
  · rintro rfl
    exact ⟨_, rfl, Binding.faithful_codec.deserialize_of_serialize
      (Codec.serialize_eq_ok_iff.2 ⟨hencodes b rfl, rfl⟩)⟩

lemma carries_of_mem (h : Consistent s₀ s sent) (hs₀ : s₀.Reliable) {m : Message} (hm : m ∈ sent)
    {b : Binding} :
    m.Carries Binding.codec.deserialize b ↔ s₀.observations[m.rank.toNat]? = some (.ok b) := by
  obtain ⟨-, o, ho, heq⟩ := h.eq_contribution m hm
  have hencodes := hs₀.encodes_of_getElem? ho
  have hcarries : (contribution m.rank o).Carries Binding.codec.deserialize b ↔ o = .ok b :=
    carries_contribution hencodes
  rw [← heq] at hcarries
  rw [hcarries, ho, Option.some.injEq]

variable {own : Binding} {taken rest : List Message} {c : Collector Binding}

lemma sound (hs₀ : s₀.Reliable)
    (hc : (Collector.start s₀.team.size own).acceptAll Binding.codec.deserialize taken = .ok c) :
    c.Sound s₀.probes.length := by
  have hpos : 0 < s₀.team.size.toNat := by
    rw [hs₀.size_toNat]
    exact hs₀.size_pos
  rw [← hs₀.size_toNat]
  exact (Collector.sound_start hpos own).acceptAll hc

/-- A slot of the coordinator's account is filled with a binding exactly if its rank observed that
binding and its message was taken. -/
lemma getElem?_slots (h : Consistent s₀ s sent) (hs₀ : s₀.Reliable)
    (hobs : s₀.observations[0]? = some (.ok own)) (hsent : sent = taken ++ rest)
    (hc : (Collector.start s₀.team.size own).acceptAll Binding.codec.deserialize taken = .ok c)
    (r : Nat) (b : Binding) :
    c.slots[r]? = some (some b) ↔
      s₀.observations[r]? = some (.ok b) ∧ (r = 0 ∨ ∃ m ∈ taken, m.rank.toNat = r) := by
  rw [Collector.getElem?_slots_of_acceptAll hc, Collector.getElem?_slots_start]
  constructor
  · rintro (⟨rfl, rfl⟩ | ⟨m, hm, rfl, hcarries⟩)
    · exact ⟨hobs, .inl rfl⟩
    · have hmem : m ∈ sent := hsent ▸ List.mem_append_left rest hm
      exact ⟨(h.carries_of_mem hs₀ hmem).1 hcarries, .inr ⟨m, hm, rfl⟩⟩
  · rintro ⟨ho, rfl | ⟨m, hm, rfl⟩⟩
    · cases hobs.symm.trans ho
      exact .inl ⟨rfl, rfl⟩
    · have hmem : m ∈ sent := hsent ▸ List.mem_append_left rest hm
      exact .inr ⟨m, hm, rfl, (h.carries_of_mem hs₀ hmem).2 ho⟩

/-- A complete account holds what all members observed. -/
lemma exists_of_isComplete (h : Consistent s₀ s sent) (hs₀ : s₀.Reliable)
    (hobs : s₀.observations[0]? = some (.ok own)) (hsent : sent = taken ++ rest)
    (hc : (Collector.start s₀.team.size own).acceptAll Binding.codec.deserialize taken = .ok c)
    (hcomplete : c.isComplete = true) :
    ∃ bindings, c.finish = .ok bindings ∧ s₀.observations = bindings.map .ok ∧
      ∀ rank : UInt32, rank ≠ 0 → rank.toNat < bindings.length → ∃ m ∈ sent, m.rank = rank := by
  have hsound := sound hs₀ hc
  obtain ⟨bindings, hslots⟩ := hsound.exists_of_isComplete hcomplete
  have hlength : bindings.length = s₀.probes.length := by
    rw [← hsound.length_slots, hslots, List.length_map]
  -- A filled slot tells what its process observed and that its message was taken.
  have hfilled {r : Nat} (hr : r < bindings.length) :
      s₀.observations[r]? = some (.ok bindings[r]) ∧ (r = 0 ∨ ∃ m ∈ taken, m.rank.toNat = r) := by
    rw [← h.getElem?_slots hs₀ hobs hsent hc, hslots, List.getElem?_map,
      List.getElem?_eq_getElem hr, Option.map_some]
  refine ⟨bindings, Collector.finish_eq_ok_iff.2 hslots, ?_, ?_⟩
  · refine List.ext_getElem? fun r => ?_
    by_cases hr : r < bindings.length
    · rw [(hfilled hr).1, List.getElem?_map, List.getElem?_eq_getElem hr, Option.map_some]
    · rw [List.getElem?_eq_none (by rw [observations, List.length_map]; omega),
        List.getElem?_eq_none (by rw [List.length_map]; omega)]
  · intro rank hrank hlt
    obtain ⟨-, hzero | ⟨m, hm, hr⟩⟩ := hfilled hlt
    · exact absurd hzero (toNat_ne_zero hrank)
    · exact ⟨m, hsent ▸ List.mem_append_left rest hm, UInt32.toNat_inj.1 hr⟩

/-- The slot of the next message is empty, since every rank sends at most once. -/
lemma slot_of_next (h : Consistent s₀ s sent) (hs₀ : s₀.Reliable)
    (hobs : s₀.observations[0]? = some (.ok own)) {m : Message} (hsent : sent = taken ++ m :: rest)
    (hc : (Collector.start s₀.team.size own).acceptAll Binding.codec.deserialize taken = .ok c) :
    c.slots[m.rank.toNat]? = some none := by
  obtain ⟨hrank, o, ho, -⟩ := h.eq_contribution m (by simp [hsent])
  have hlt : m.rank.toNat < c.slots.length := by
    rw [(sound hs₀ hc).length_slots]
    exact lt_of_getElem?_observations ho
  rw [List.getElem?_eq_getElem hlt]
  cases hslot : c.slots[m.rank.toNat] with
  | none => rfl
  -- A filled slot is that of the coordinator or of a message taken before, and no rank sends twice.
  | some b =>
    have hslot' : c.slots[m.rank.toNat]? = some (some b) := by
      rw [List.getElem?_eq_getElem hlt, hslot]
    obtain ⟨-, hzero | ⟨m', hm', hr⟩⟩ := (h.getElem?_slots hs₀ hobs hsent hc _ _).1 hslot'
    · exact absurd hzero (toNat_ne_zero hrank)
    · have hnodup := h.nodup
      rw [hsent, List.map_append, List.nodup_append] at hnodup
      exact absurd (UInt32.toNat_inj.1 hr)
        (hnodup.2.2 _ (List.mem_map_of_mem hm') _ (by simp))

/-- As long as the account of a gathering coordinator is incomplete and the queue is empty, a member
can still send. -/
lemma any_senders (h : Consistent s₀ s sent) (hs₀ : s₀.Reliable)
    (hobs : s₀.observations[0]? = some (.ok own))
    (hleader : s.team.leader = .gathering Binding.codec.deserialize c)
    (hc : (Collector.start s₀.team.size own).acceptAll Binding.codec.deserialize sent = .ok c)
    (hincomplete : c.isComplete = false) : s.team.senders.any id = true := by
  by_contra hnone
  rw [Bool.not_eq_true] at hnone
  -- If nobody could send, every member would be at the stage where its message has been delivered.
  -- The coordinator has taken all messages, so every slot would be filled.
  have hsound := sound hs₀ hc
  suffices hcomplete : c.isComplete = true by
    rw [hcomplete] at hincomplete
    cases hincomplete
  refine hsound.isComplete_iff.2 fun slot hslot => ?_
  obtain ⟨r, hr⟩ := List.mem_iff_getElem?.1 hslot
  have hlt := (List.getElem?_eq_some_iff.1 hr).1
  rw [hsound.length_slots] at hlt
  have hsent : sent = sent ++ [] := (List.append_nil sent).symm
  suffices hfilled : ∃ b, c.slots[r]? = some (some b) by
    obtain ⟨b, hb⟩ := hfilled
    rw [hr] at hb
    cases hb
    rfl
  by_cases hzero : r = 0
  · subst hzero
    exact ⟨own, (h.getElem?_slots hs₀ hobs hsent hc 0 own).2 ⟨hobs, .inl rfl⟩⟩
  obtain ⟨rank, rfl⟩ := exists_rank (hs₀.size_toNat ▸ hlt)
  have hrank : rank ≠ 0 := by
    rintro rfl
    exact hzero rfl
  obtain ⟨o, ho⟩ := exists_observation hlt
  have hsend : s.team.canSend rank = false := Team.canSend_eq_false_of_any hnone
  -- A member that can still send is turned away only when nobody listens: this one has sent.
  cases h.member rank hrank o ho with
  | fresh _ hsend' _ => simp [hsend] at hsend'
  | observed _ hsend' _ => simp [hsend] at hsend'
  | turnedAway _ _ hleft _ => simp [Team.isListening, hleader] at hleft
  | delivered _ _ hm =>
    obtain ⟨b, hcarries⟩ := Collector.exists_carries_of_acceptAll hc hm
    have hob := (h.carries_of_mem hs₀ hm).1 hcarries
    rw [rank_contribution] at hob
    exact ⟨b, (h.getElem?_slots hs₀ hobs hsent hc _ b).2 ⟨hob, .inr ⟨_, hm, by simp⟩⟩⟩

/-! ### Steps of the coordinator -/

/-- What changes the coordinator only leaves the other members as they are. -/
lemma of_coordinator (h : Consistent s₀ s sent) (hshape : s'.shape = s.shape)
    (hfile : s'.file = s.file) (hprobes : s'.probes = s.probes)
    (hsize : s'.team.size = s.team.size) (hsenders : s'.team.senders = s.team.senders)
    (hlength : s'.stages.length = s.stages.length)
    (hstages : ∀ r, r ≠ 0 → s'.stages[r]? = s.stages[r]?)
    (hleft : s.team.isListening = false → s'.team.isListening = false)
    (hcoordinator : CoordinatorState s₀ s' sent) : Consistent s₀ s' sent where
  shape_eq := hshape.trans h.shape_eq
  file_eq := hfile.trans h.file_eq
  probes_eq := hprobes.trans h.probes_eq
  size_eq := hsize.trans h.size_eq
  length_senders := by rw [hsenders, h.length_senders]
  length_stages := hlength.trans h.length_stages
  eq_contribution := h.eq_contribution
  nodup := h.nodup
  -- The step is one of the coordinator, so members see at most that it stops listening.
  member rank hrank o ho := by
    have hsend : s'.team.canSend rank = s.team.canSend rank := by
      rw [Team.canSend, hsenders, Team.canSend]
    exact (h.member rank hrank o ho).congr (hstages _ (toNat_ne_zero hrank)) hsend hleft
  coordinator := hcoordinator

/-- What the coordinator does when its gather has ended with the values `bindings`. -/
lemma conclude_ok (h : Consistent s₀ s sent) (hs₀ : s₀.Reliable) {bindings : List Binding}
    (hobs : s₀.observations = bindings.map .ok) (hfiles : s.files = s₀.files)
    (hsent : ∀ rank : UInt32, rank ≠ 0 → rank.toNat < bindings.length →
      ∃ m ∈ sent, m.rank = rank) :
    Consistent s₀ ({ s with team := s.team.close }.conclude (.ok bindings)) sent := by
  obtain ⟨after, hwrite⟩ := hs₀.writes (Verdict.classify bindings s₀.shape)
  have hlength := h.length_stages_pos hs₀
  have hwrite' : (s.file.write (Verdict.classify bindings s.shape)).run s.files = .ok () after := by
    rw [h.file_eq, h.shape_eq, hfiles, hwrite]
  rw [Session.conclude_ok (s := { s with team := s.team.close }) hwrite']
  refine h.of_coordinator rfl rfl rfl rfl rfl List.length_set
    (fun r hr => List.getElem?_set_ne (Ne.symm hr)) (fun _ => rfl) ?_
  refine .concluded hobs ?_ rfl hsent (ReportFile.node?_of_run_write hwrite)
  rw [h.shape_eq]
  exact List.getElem?_set_self hlength

/-- One turn of a gathering coordinator. It never finds that all others left before they sent. -/
lemma step_gathering (h : Consistent s₀ s sent) (hs₀ : s₀.Reliable)
    (hobs : s₀.observations[0]? = some (.ok own)) (hstage : s.stages[0]? = some .gathering)
    (hleader : s.team.leader = .gathering Binding.codec.deserialize c)
    (hsent : sent = taken ++ s.team.queue)
    (hc : (Collector.start s₀.team.size own).acceptAll Binding.codec.deserialize taken = .ok c)
    (hfiles : s.files = s₀.files) : Consistent s₀ (s.step 0) sent := by
  -- The turn is decided by the account, by the queue, and by what the next message says.
  have hlength : 0 < s.stages.length := (List.getElem?_eq_some_iff.1 hstage).1
  cases hcomplete : c.isComplete with
  | true =>
    obtain ⟨bindings, hfinish, hall, hmembers⟩ :=
      h.exists_of_isComplete hs₀ hobs hsent hc hcomplete
    rw [step_of_decided hstage (Team.turn_of_isComplete hleader hcomplete), hfinish]
    exact h.conclude_ok hs₀ hall hfiles hmembers
  | false =>
    cases hqueue : s.team.queue with
    | nil =>
      rw [hqueue, List.append_nil] at hsent
      subst hsent
      -- While the account is open somebody can still send, so the coordinator waits.
      have hany := h.any_senders hs₀ hobs hleader hc hcomplete
      rwa [step_of_waits hstage (Team.turn_of_any_senders hleader hcomplete hqueue hany)]
    | cons m rest =>
      rw [hqueue] at hsent
      obtain ⟨hrank, o, ho, heq⟩ := h.eq_contribution m (by simp [hsent])
      have hslot := h.slot_of_next hs₀ hobs hsent hc
      cases o with
      -- The member observed `b`, so its slot takes the message and the invariant goes on.
      | ok b =>
        have hcarries : m.Carries Binding.codec.deserialize b :=
          (h.carries_of_mem hs₀ (by simp [hsent])).2 ho
        have haccept := Collector.accept_of_carries hrank hslot hcarries
        rw [step_of_took hstage (Team.turn_of_accept_eq_ok hleader hcomplete hqueue haccept)]
        refine h.of_coordinator rfl rfl rfl rfl rfl rfl (fun _ _ => rfl) ?_ ?_
        · simp [Team.isListening, hleader]
        · have hsent' : sent = (taken ++ [m]) ++ rest := by simpa using hsent
          refine .gathering hobs hstage rfl hsent' ?_ hfiles
          rw [Collector.acceptAll_append_singleton hc, haccept]
      | error e =>
        have hm : m.payload = .abort e.message := by
          rw [heq]
          rfl
        have haccept : c.accept Binding.codec.deserialize m = .error (.aborted m.rank e.message) :=
          Collector.accept_of_abort hrank hslot hm
        rw [step_of_decided hstage
          (Team.turn_of_accept_eq_error hleader hcomplete hqueue haccept), conclude_error]
        refine h.of_coordinator rfl rfl rfl rfl rfl List.length_set
          (fun r hr => List.getElem?_set_ne (Ne.symm hr)) (fun _ => rfl) ?_
        exact .aborted hobs (List.getElem?_set_self hlength) rfl hsent hc hm hfiles

theorem step_zero (h : Consistent s₀ s sent) (hs₀ : s₀.Reliable)
    (hsize : s₀.team.size = s₀.shape.processes) : Consistent s₀ (s.step 0) sent := by
  have hlength := h.length_stages_pos hs₀
  have hother (stage : Stage) : ∀ r, r ≠ 0 → (s.stages.set 0 stage)[r]? = s.stages[r]? :=
    fun r hr => List.getElem?_set_ne (Ne.symm hr)
  cases h.coordinator with
  | fresh hstage hleader hqueue hfiles =>
    obtain ⟨o, ho⟩ := exists_observation hs₀.size_pos
    have hstep : s.step 0 = s.setStage 0 (.observed o) := h.step_eq_of_fresh hsize hstage ho
    rw [hstep]
    exact h.of_coordinator rfl rfl rfl rfl rfl List.length_set (hother _) id
      (.observed ho (List.getElem?_set_self hlength) hleader hqueue hfiles)
  | @observed o ho hstage hleader hqueue hfiles =>
    cases o with
    | error e =>
      rw [step_zero_of_error hstage]
      exact h.of_coordinator rfl rfl rfl rfl rfl List.length_set (hother _) (fun _ => rfl)
        (.failed ho (List.getElem?_set_self hlength) rfl hfiles)
    | ok own =>
      rw [step_zero_of_ok hstage hleader, h.size_eq]
      have hsent : sent = [] ++ s.team.queue := hqueue.symm
      refine h.of_coordinator rfl rfl rfl rfl rfl List.length_set (hother _) ?_ ?_
      · simp [Team.isListening, hleader]
      · exact .gathering ho (List.getElem?_set_self hlength) rfl hsent rfl hfiles
  | gathering ho hstage hleader hqueue hc hfiles =>
    exact h.step_gathering hs₀ ho hstage hleader hqueue hc hfiles
  | failed _ hstage _ _ =>
    rw [step_of_returned hstage]
    exact h
  | aborted _ hstage _ _ _ _ _ =>
    rw [step_of_returned hstage]
    exact h
  | concluded _ hstage _ _ _ =>
    rw [step_of_returned hstage]
    exact h

/-- What one step of any member preserves. -/
theorem step (h : Consistent s₀ s sent) (hs₀ : s₀.Reliable)
    (hsize : s₀.team.size = s₀.shape.processes) (rank : UInt32) :
    Consistent s₀ (s.step rank) (sent ++ s.sends rank) := by
  by_cases hrank : rank = 0
  · subst hrank
    rw [sends_zero, List.append_nil]
    exact h.step_zero hs₀ hsize
  cases ho : s₀.observations[rank.toNat]? with
  | some o => exact h.step_member hs₀ hsize hrank ho
  | none =>
    have hstep := step_of_getElem?_stages_eq_none (h.getElem?_stages_eq_none ho)
    rwa [sends_eq_nil (by rw [hstep]), List.append_nil, hstep]

/-- What a whole run preserves. -/
theorem run (h : Consistent s₀ s sent) (hs₀ : s₀.Reliable)
    (hsize : s₀.team.size = s₀.shape.processes) (ranks : List UInt32) :
    Consistent s₀ (s.run ranks) (sent ++ s.channel ranks) := by
  induction ranks generalizing s sent with
  | nil => simpa [Session.run, channel] using h
  | cons rank ranks ih =>
    have hrest := ih (h.step hs₀ hsize rank)
    rwa [List.append_assoc] at hrest

end Consistent

/-! ## A team of another size -/

/-- The invariant of a session whose team has another size than the shape expects. -/
structure Refused (s₀ s : Session) : Prop where
  shape_eq : s.shape = s₀.shape
  size_eq : s.team.size = s₀.team.size
  probes_eq : s.probes = s₀.probes
  length_stages : s.stages.length = s₀.probes.length
  queue_eq : s.team.queue = []
  files_eq : s.files = s₀.files
  stage : ∀ stage ∈ s.stages, stage = .fresh ∨
    stage = .returned (.error (.processCount s₀.shape.processes s₀.team.size))

namespace Refused

lemma returns (h : Refused s₀ s) :
    Refused s₀ (s.returns rank (.error (.processCount s₀.shape.processes s₀.team.size))) where
  shape_eq := h.shape_eq
  size_eq := by
    rw [← h.size_eq, Session.returns, Team.leave]
    split <;> rfl
  probes_eq := h.probes_eq
  length_stages := by
    rw [← h.length_stages]
    exact List.length_set
  queue_eq := by
    rw [← h.queue_eq, Session.returns, Team.leave]
    split <;> rfl
  files_eq := h.files_eq
  stage stage hstage := by
    rcases List.mem_or_eq_of_mem_set hstage with hstage | rfl
    · exact h.stage stage hstage
    · exact .inr rfl

lemma step_eq (h : Refused s₀ s) (hsize : s₀.team.size ≠ s₀.shape.processes) (rank : UInt32) :
    s.step rank = s ∨
      s.step rank = s.returns rank (.error (.processCount s₀.shape.processes s₀.team.size)) := by
  cases hstage : s.stages[rank.toNat]? with
  | none => exact .inl (step_of_getElem?_stages_eq_none hstage)
  | some stage =>
    have hlt := (List.getElem?_eq_some_iff.1 hstage).1
    rcases h.stage stage (List.mem_of_getElem? hstage) with rfl | rfl
    · right
      rw [step_of_fresh_of_ne hstage (by rwa [h.probes_eq, ← h.length_stages])
        (by rwa [h.size_eq, h.shape_eq]), h.size_eq, h.shape_eq]
    · exact .inl (step_of_returned hstage)

theorem step (h : Refused s₀ s) (hsize : s₀.team.size ≠ s₀.shape.processes) (rank : UInt32) :
    Refused s₀ (s.step rank) := by
  rcases h.step_eq hsize rank with hstep | hstep
  · rwa [hstep]
  · rw [hstep]
    exact h.returns

theorem run (h : Refused s₀ s) (hsize : s₀.team.size ≠ s₀.shape.processes)
    (ranks : List UInt32) : Refused s₀ (s.run ranks) ∧ s.channel ranks = [] := by
  induction ranks generalizing s with
  | nil => exact ⟨h, rfl⟩
  | cons rank ranks ih =>
    have hstep := h.step hsize rank
    obtain ⟨hrun, hchannel⟩ := ih hstep
    have hsends : s.sends rank = [] := by
      rw [sends, hstep.queue_eq, List.drop_nil]
    exact ⟨hrun, by rw [channel, hsends, hchannel, List.nil_append]⟩

end Refused

/-! ## What the members return -/

/-- What a validation by a team of the expected size comes to, when some messages were sent. -/
structure Outcome (s₀ s : Session) (sent : List Message) : Prop where
  /-- The coordinator returns a verdict exactly if all members observe their bindings. -/
  isOk_iff : ∀ result, s.result? 0 = some result →
    ((∃ verdict, result = .ok (some verdict)) ↔
      ∃ bindings : List Binding, s₀.observations = bindings.map .ok)
  /-- It is then the verdict on these bindings by rank, and the report. -/
  verdict : ∀ bindings : List Binding, s₀.observations = bindings.map .ok →
    ∀ result, s.result? 0 = some result →
      result = .ok (some (Verdict.classify bindings s₀.shape)) ∧
        s.files.node? s₀.file.path =
          some (.file (Text.Utf8.encode (Verdict.classify bindings s₀.shape).text))
  /-- The others then return without a verdict. -/
  others : ∀ bindings : List Binding, s₀.observations = bindings.map .ok →
    ∀ rank : UInt32, rank ≠ 0 → ∀ result, s.result? rank.toNat = some result → result = .ok none
  /-- If the coordinator observes its binding and another member does not, then the coordinator
  returns the reason that was sent first, with the rank that sent it. -/
  aborted : ∀ own, s₀.observations[0]? = some (.ok own) → ∀ e, .error e ∈ s₀.observations →
    ∀ result, s.result? 0 = some result →
      ∃ (rank : UInt32) (e' : Failure), s₀.observations[rank.toNat]? = some (.error e') ∧
        sent.find? isAbort = some ⟨rank, .abort e'.message⟩ ∧
          result = .error (.aborted rank e'.message)
  /-- A member that fails to observe its binding returns its own failure. -/
  failed : ∀ (rank : UInt32) (e : Failure), s₀.observations[rank.toNat]? = some (.error e) →
    ∀ result, s.result? rank.toNat = some result → result = .error e
  /-- Any other member but the coordinator has delivered its binding, or finds that the coordinator
  has left. -/
  contributed : ∀ rank : UInt32, rank ≠ 0 → ∀ b : Binding,
    s₀.observations[rank.toNat]? = some (.ok b) → ∀ result, s.result? rank.toNat = some result →
      result = .ok none ∨ result = .error (.protocol .coordinatorLeft)
  /-- Unless the coordinator returns a verdict, nothing is written. -/
  unwritten : (∀ verdict, s.result? 0 ≠ some (.ok verdict)) → s.files = s₀.files

lemma result?_eq_some_iff {r : Nat} {result : Except Failure (Option Verdict)} :
    s.result? r = some result ↔ s.stages[r]? = some (.returned result) := by
  unfold result?
  split <;> simp_all

namespace Consistent

variable {sent : List Message}

lemma not_error_of_all {bindings : List Binding} (hobs : s₀.observations = bindings.map .ok)
    {e : Failure} (he : .error e ∈ s₀.observations) : False := by
  rw [hobs] at he
  simp at he

/-- A member that was turned away saw a coordinator that did not get all values. -/
lemma not_turnedAway (h : Consistent s₀ s sent) {bindings : List Binding}
    (hobs : s₀.observations = bindings.map .ok) (hrank : rank ≠ 0)
    (hlt : rank.toNat < bindings.length) (hleft : s.team.isListening = false)
    (hsent : ∀ m ∈ sent, m.rank ≠ rank) : False := by
  have hok {r : Nat} {e : Failure} (he : s₀.observations[r]? = some (.error e)) : False :=
    not_error_of_all hobs (List.mem_of_getElem? he)
  -- Nobody failed, so a coordinator that does not listen has returned and heard from everyone.
  cases h.coordinator with
  | fresh _ hleader _ _ => simp [Team.isListening, hleader] at hleft
  | observed _ _ hleader _ _ => simp [Team.isListening, hleader] at hleft
  | gathering _ _ hleader _ _ _ => simp [Team.isListening, hleader] at hleft
  | failed ho _ _ _ => exact hok ho
  | @aborted _ _ _ m _ _ _ _ _ heq _ hm _ =>
    obtain ⟨-, o, ho, hcontribution⟩ := h.eq_contribution m (by simp [heq])
    cases o with
    | error e => exact hok ho
    | ok b =>
      rw [hcontribution] at hm
      cases hm
  | @concluded bindings' hobs' _ _ hall _ =>
    have heq : bindings.length = bindings'.length := by
      simpa using congrArg List.length (hobs.symm.trans hobs')
    obtain ⟨m, hm, hr⟩ := hall rank hrank (by omega)
    exact hsent m hm hr

/-- The ways in which the coordinator returns: it fails itself, it takes the reason of a member that
failed, or it has all observations. -/
lemma result?_zero_cases (h : Consistent s₀ s sent)
    {result : Except Failure (Option Verdict)} (hresult : s.result? 0 = some result) :
    (∃ e, s₀.observations[0]? = some (.error e) ∧ result = .error e ∧ s.files = s₀.files) ∨
    (∃ (own : Binding) (rank : UInt32) (e : Failure), s₀.observations[0]? = some (.ok own) ∧
      s₀.observations[rank.toNat]? = some (.error e) ∧
        sent.find? isAbort = some ⟨rank, .abort e.message⟩ ∧
          result = .error (.aborted rank e.message) ∧ s.files = s₀.files) ∨
    ∃ bindings : List Binding, s₀.observations = bindings.map .ok ∧
      result = .ok (some (Verdict.classify bindings s₀.shape)) ∧
        s.files.node? s₀.file.path =
          some (.file (Text.Utf8.encode (Verdict.classify bindings s₀.shape).text)) := by
  rw [result?_eq_some_iff] at hresult
  cases h.coordinator with
  | fresh hstage => simp [hstage] at hresult
  | observed _ hstage => simp [hstage] at hresult
  | gathering _ hstage => simp [hstage] at hresult
  | @failed e ho hstage _ hfiles =>
    cases hstage.symm.trans hresult
    exact .inl ⟨e, ho, rfl, hfiles⟩
  | @aborted own taken rest m reason c ho hstage _ hsent hc hm hfiles =>
    cases hstage.symm.trans hresult
    obtain ⟨-, o, ho', hcontribution⟩ := h.eq_contribution m (by simp [hsent])
    cases o with
    | ok b =>
      rw [hcontribution] at hm
      cases hm
    | error e =>
      have hreason : m.payload = .abort e.message := by
        rw [hcontribution]
        rfl
      cases hm.symm.trans hreason
      -- What was taken before carries values, so the refused message is the first one of an abort.
      have hfirst : taken.find? isAbort = none := by
        rw [List.find?_eq_none]
        intro m' hm'
        obtain ⟨b, encoded, hpayload, -⟩ := Collector.exists_carries_of_acceptAll hc hm'
        simp [isAbort, hpayload]
      have habort : isAbort m = true := by simp [isAbort, hm]
      refine .inr (.inl ⟨own, m.rank, e, ho, ho', ?_, rfl, hfiles⟩)
      rw [hsent, List.find?_append, hfirst, List.find?_cons_of_pos habort, Option.none_or, ← hm]
  | @concluded bindings hobs hstage _ _ hfiles =>
    cases hstage.symm.trans hresult
    exact .inr (.inr ⟨bindings, hobs, rfl, hfiles⟩)

lemma result?_cases (h : Consistent s₀ s sent) (hrank : rank ≠ 0) {o : Except Failure Binding}
    (ho : s₀.observations[rank.toNat]? = some o) {result : Except Failure (Option Verdict)}
    (hresult : s.result? rank.toNat = some result) :
    result = delivered o ∨ result = turnedAway o ∧ s.team.isListening = false ∧
      ∀ m ∈ sent, m.rank ≠ rank := by
  rw [result?_eq_some_iff] at hresult
  cases h.member rank hrank o ho with
  | fresh hstage => simp [hstage] at hresult
  | observed hstage => simp [hstage] at hresult
  | delivered hstage =>
    cases hstage.symm.trans hresult
    exact .inl rfl
  | turnedAway hstage _ hleft hsent =>
    cases hstage.symm.trans hresult
    exact .inr ⟨rfl, hleft, hsent⟩

/-- In a session that keeps the invariant, whatever has been returned is as it should be. -/
theorem outcome (h : Consistent s₀ s sent) : Outcome s₀ s sent where
  isOk_iff result hresult := by
    -- Each field about the result is read off from the three ways in which it can return.
    rcases h.result?_zero_cases hresult with
      ⟨e, ho, rfl, -⟩ | ⟨own, r, e, -, ho, -, rfl, -⟩ | ⟨bindings, hobs, rfl, -⟩
    · exact ⟨fun ⟨_, hv⟩ => (by cases hv),
        fun ⟨_, hobs⟩ => (not_error_of_all hobs (List.mem_of_getElem? ho)).elim⟩
    · exact ⟨fun ⟨_, hv⟩ => (by cases hv),
        fun ⟨_, hobs⟩ => (not_error_of_all hobs (List.mem_of_getElem? ho)).elim⟩
    · exact ⟨fun _ => ⟨bindings, hobs⟩, fun _ => ⟨_, rfl⟩⟩
  verdict bindings hobs result hresult := by
    rcases h.result?_zero_cases hresult with
      ⟨e, ho, rfl, -⟩ | ⟨own, r, e, -, ho, -, rfl, -⟩ | ⟨bindings', hobs', rfl, hfiles⟩
    · exact (not_error_of_all hobs (List.mem_of_getElem? ho)).elim
    · exact (not_error_of_all hobs (List.mem_of_getElem? ho)).elim
    · have heq : bindings = bindings' :=
        List.map_injective_iff.2 (fun _ _ => Except.ok.inj) (hobs.symm.trans hobs')
      subst heq
      exact ⟨rfl, hfiles⟩
  others bindings hobs rank hrank result hresult := by
    have hlt : rank.toNat < bindings.length := by
      have hstages := (List.getElem?_eq_some_iff.1 (result?_eq_some_iff.1 hresult)).1
      have hcount := congrArg List.length hobs
      rw [observations, List.length_map, List.length_map] at hcount
      rwa [h.length_stages, hcount] at hstages
    have hb : s₀.observations[rank.toNat]? = some (.ok bindings[rank.toNat]) := by
      rw [hobs, List.getElem?_map, List.getElem?_eq_getElem hlt, Option.map_some]
    rcases h.result?_cases hrank hb hresult with rfl | ⟨-, hleft, hsent⟩
    · rfl
    · exact (h.not_turnedAway hobs hrank hlt hleft hsent).elim
  aborted own hown e he result hresult := by
    rcases h.result?_zero_cases hresult with
      ⟨e', ho, -⟩ | ⟨_, r, e', -, ho, hfirst, rfl, -⟩ | ⟨bindings, hobs, -⟩
    · cases ho.symm.trans hown
    · exact ⟨r, e', ho, hfirst, rfl⟩
    · exact (not_error_of_all hobs he).elim
  failed rank e he result hresult := by
    by_cases hrank : rank = 0
    · subst hrank
      rcases h.result?_zero_cases hresult with
        ⟨e', ho, rfl, -⟩ | ⟨own, _, _, ho, -⟩ | ⟨bindings, hobs, -⟩
      · cases ho.symm.trans he
        rfl
      · cases ho.symm.trans he
      · exact (not_error_of_all hobs (List.mem_of_getElem? he)).elim
    · rcases h.result?_cases hrank he hresult with rfl | ⟨rfl, -⟩ <;> rfl
  contributed rank hrank b hb result hresult := by
    rcases h.result?_cases hrank hb hresult with rfl | ⟨rfl, -⟩
    · exact .inl rfl
    · exact .inr rfl
  unwritten hnone := by
    cases h.coordinator with
    | fresh _ _ _ hfiles => exact hfiles
    | observed _ _ _ _ hfiles => exact hfiles
    | gathering _ _ _ _ _ hfiles => exact hfiles
    | failed _ _ _ hfiles => exact hfiles
    | aborted _ _ _ _ _ _ hfiles => exact hfiles
    | concluded _ hstage => exact absurd (result?_eq_some_iff.2 hstage) (hnone _)

end Consistent

end Session

end JobBinding.Validation

import Mathlib.Data.List.Induction
import Mathlib.Data.List.Nodup
import JobBinding.Proofs.Gather.History
import JobBinding.Proofs.Gather.Receiving
import JobBinding.Proofs.Wire.Codec

/-!
# What a team delivers

Whatever its members do, a team delivers at most one message of each of them. `Sound` is what any
acts keep (`sound_ofActs`): a member can send exactly as long as no act has used up what it has to
send, so no two messages are of one member, and a gathering coordinator has the account of the
messages that it took. How its gather can end (`Ends`) and which calls fail (`history_spec`) is read
off that.
-/

namespace JobBinding.Gather.Team

variable {α : Type}

/-- Whether a rank is that of a member other than the coordinator. -/
def IsSender (size rank : UInt32) : Prop :=
  0 < rank.toNat ∧ rank.toNat < size.toNat

namespace History

variable {h h' : History α} {a : Act α} {answer : Option (Answer α)} {acts : List (Act α)}
  {size rank : UInt32} {call : Call α} {payload : Payload}

/-! ## What any acts keep -/

/-- Whether a message is what the first call of its member had to send that had something to
send. -/
def IsFirstOf (acts : List (Act α)) (m : Message) : Prop :=
  ∃ before call more, acts = before ++ .calls m.rank call :: more ∧
    (∀ a ∈ before, ¬ a.Uses m.rank) ∧ call.payload = .ok m.payload

/-- Whether the first gather that the coordinator called has a codec and a value. -/
def IsGather (acts : List (Act α)) (codec : Codec α) (own : α) : Prop :=
  ∃ before more, acts = before ++ .calls 0 (.gather codec own) :: more ∧
    ∀ codec own, .calls 0 (.gather codec own) ∉ before

/-- What the coordinator does after some acts, when it has taken some messages. -/
def IsLed (size : UInt32) (acts : List (Act α)) (taken : List Message) : Leader α → Prop
  | .ready => taken = [] ∧ ∀ codec own, .calls 0 (.gather codec own) ∉ acts
  | .gathering decode c => ∃ codec own, IsGather acts codec own ∧ decode = codec.deserialize ∧
      (Collector.start size own).acceptAll codec.deserialize taken = .ok c
  | .finished => True

/-- A history as some acts can make it. Each message that was put into the queue is the first that
its member had to send, and the queue has those that were not taken yet. -/
structure Sound (size : UInt32) (acts : List (Act α)) (h : History α) : Prop where
  size_eq : h.team.size = size
  canSend_iff : ∀ rank, 0 < rank.toNat →
    (h.team.canSend rank = true ↔ rank.toNat < size.toNat ∧ ∀ a ∈ acts, ¬ a.Uses rank)
  leaves_mem : ∀ rank ∈ h.gone, Act.leaves rank ∈ acts
  leader_eq : 0 ∈ h.gone → h.team.leader = .finished
  nodup_ranks : (h.put.map (·.rank)).Nodup
  isSender : ∀ m ∈ h.put, IsSender size m.rank
  isFirstOf : ∀ m ∈ h.put, IsFirstOf acts m
  isLed : ∃ taken, h.put = taken ++ h.team.queue ∧ IsLed size acts taken h.team.leader

lemma ne_zero_of_pos (hrank : 0 < rank.toNat) : rank ≠ 0 := by
  rintro rfl
  cases hrank

lemma pos_of_ne_zero (hrank : rank ≠ 0) : 0 < rank.toNat :=
  Nat.pos_of_ne_zero fun hzero => hrank (UInt32.toNat_inj.1 hzero)

lemma canSend_spend_iff (t : Team α) {other : UInt32} (hother : other ≠ 0)
    (hrank : 0 < rank.toNat) :
    (t.spend other).canSend rank = true ↔ t.canSend rank = true ∧ other ≠ rank := by
  by_cases heq : other = rank
  · subst heq
    simp
  · have hne : other.toNat ≠ rank.toNat := fun hsame => heq (UInt32.toNat_inj.1 hsame)
    rw [canSend_spend_of_ne (pos_of_ne_zero hother) hrank hne]
    simp [heq]

/-- A member can send until an act uses up what it has to send. -/
lemma Sound.canSend_step_iff (hs : h.Sound size acts) (hstep : Step h a answer h')
    (hrank : 0 < rank.toNat) :
    h'.team.canSend rank = true ↔ h.team.canSend rank = true ∧ ¬ a.Uses rank := by
  have hzero : (0 : UInt32) ≠ rank := (ne_zero_of_pos hrank).symm
  cases hstep with
  | @absent other call hcan =>
    -- A member that may not call has left and can send no more, or is outside the group.
    refine ⟨fun hsend => ⟨hsend, ?_⟩, And.left⟩
    rintro ⟨rfl, -⟩
    obtain ⟨hlt, hunused⟩ := (hs.canSend_iff other hrank).1 hsend
    refine hcan ⟨hs.size_eq ▸ hlt, fun hgone => ?_, fun h => absurd h hzero.symm⟩
    exact hunused _ (hs.leaves_mem other hgone) rfl
  | @refused other call e hcan hother hpayload =>
    refine ⟨fun hsend => ⟨hsend, ?_⟩, And.left⟩
    rintro ⟨-, payload, hok⟩
    cases hpayload.symm.trans hok
  -- Sent or late, a call with a payload uses up the member's one message.
  | @sent other call payload hcan hother hpayload hsend hlistens =>
    have hspend := canSend_spend_iff h.team hother hrank
    simp only [Act.Uses, hpayload, Except.ok.injEq, exists_eq', and_true]
    exact hspend
  | @late other call payload hcan hother hpayload hsend hlistens =>
    have hspend := canSend_spend_iff h.team hother hrank
    simp only [Act.Uses, hpayload, Except.ok.injEq, exists_eq', and_true]
    exact hspend
  | @repeated other call payload hcan hother hpayload hsend =>
    refine ⟨fun hcan => ⟨hcan, ?_⟩, And.left⟩
    rintro ⟨rfl, -⟩
    cases hsend.symm.trans hcan
  | begun | finished | gaveUp => exact ⟨fun hsend => ⟨hsend, fun huses => hzero huses.1⟩, And.left⟩
  | waits | took | completed | failed | deserted => exact ⟨fun hsend => ⟨hsend, id⟩, And.left⟩
  | @left other =>
    by_cases hother : other = 0
    · subst hother
      rw [leave_zero]
      exact ⟨fun hsend => ⟨hsend, hzero⟩, And.left⟩
    · rw [leave_of_ne_zero hother]
      exact canSend_spend_iff h.team hother hrank

lemma IsFirstOf.append {m : Message} (h : IsFirstOf acts m) (a : Act α) :
    IsFirstOf (acts ++ [a]) m := by
  obtain ⟨before, call, more, rfl, hbefore, hpayload⟩ := h
  exact ⟨before, call, more ++ [a], by simp, hbefore, hpayload⟩

lemma isFirstOf_of_forall_not_uses (hunused : ∀ a ∈ acts, ¬ a.Uses rank)
    (hpayload : call.payload = .ok payload) :
    IsFirstOf (acts ++ [.calls rank call]) ⟨rank, payload⟩ :=
  ⟨acts, call, [], rfl, hunused, hpayload⟩

lemma IsFirstOf.exists_uses {m : Message} (h : IsFirstOf acts m) : ∃ a ∈ acts, a.Uses m.rank := by
  obtain ⟨before, call, more, rfl, -, hpayload⟩ := h
  exact ⟨.calls m.rank call, by simp, rfl, m.payload, hpayload⟩

lemma IsGather.append {codec : Codec α} {own : α} (h : IsGather acts codec own) (a : Act α) :
    IsGather (acts ++ [a]) codec own := by
  obtain ⟨before, more, rfl, hbefore⟩ := h
  exact ⟨before, more ++ [a], by simp, hbefore⟩

/-- A member whose message was put into the queue cannot send. -/
lemma Sound.canSend_eq_false (hs : h.Sound size acts) {m : Message} (hm : m ∈ h.put) :
    h.team.canSend m.rank = false := by
  obtain ⟨a, ha, huses⟩ := (hs.isFirstOf m hm).exists_uses
  rw [Bool.eq_false_iff, ne_eq, hs.canSend_iff m.rank (hs.isSender m hm).1]
  exact fun hsend => hsend.2 a ha huses

/-- An act puts no message into the queue, or the one of a member that could still send. -/
lemma Step.put_cases (hstep : Step h a answer h') :
    h'.put = h.put ∨ ∃ rank call payload, a = .calls rank call ∧ h.CanCall rank ∧ rank ≠ 0 ∧
      call.payload = .ok payload ∧ h.team.canSend rank = true ∧
        h'.put = h.put ++ [⟨rank, payload⟩] := by
  cases hstep with
  | sent hcan hrank hpayload hsend =>
    exact .inr ⟨_, _, _, rfl, hcan, hrank, hpayload, hsend, rfl⟩
  | _ => exact .inl rfl

lemma IsLed.append {taken : List Message} {leader : Leader α} (h : IsLed size acts taken leader)
    (ha : leader = .ready → ∀ codec own, a ≠ .calls 0 (.gather codec own)) :
    IsLed size (acts ++ [a]) taken leader := by
  cases leader with
  | ready =>
    refine ⟨h.1, fun codec own hmem => ?_⟩
    rcases List.mem_append.1 hmem with hmem | hmem
    · exact h.2 codec own hmem
    · exact ha rfl codec own (List.mem_singleton.1 hmem).symm
  | finished => exact h
  | gathering decode c =>
    obtain ⟨codec, own, hgather, hdecode, haccount⟩ := h
    exact ⟨codec, own, hgather.append a, hdecode, haccount⟩

/-- A gather that the coordinator calls before it has done anything begins. -/
lemma Sound.canCall_zero (hs : h.Sound size acts) (hsize : 0 < size.toNat)
    (hleader : h.team.leader = .ready) : h.CanCall 0 := by
  refine ⟨?_, fun hgone => ?_, fun _ => ?_⟩
  · rw [hs.size_eq]
    exact hsize
  · cases hleader.symm.trans (hs.leader_eq hgone)
  · rw [isGathering, hleader]

/-- What the coordinator does follows from the messages that it has taken. -/
lemma Sound.isLed_step (hs : h.Sound size acts) (hsize : 0 < size.toNat)
    (hstep : Step h a answer h') :
    ∃ taken, h'.put = taken ++ h'.team.queue ∧
      IsLed size (acts ++ [a]) taken h'.team.leader := by
  obtain ⟨taken, hput, hled⟩ := hs.isLed
  cases hstep with
  -- This is not the gather that the coordinator called: a coordinator that is ready can call.
  | @absent rank call hcan =>
    refine ⟨taken, hput, hled.append fun hready codec own heq => ?_⟩
    cases heq
    exact hcan (hs.canCall_zero hsize hready)
  | refused _ hrank | late _ hrank | repeated _ hrank =>
    refine ⟨taken, hput, hled.append fun _ codec own heq => ?_⟩
    cases heq
    exact hrank rfl
  | @sent rank call payload hcan hrank =>
    refine ⟨taken, ?_, hled.append fun _ codec own heq => ?_⟩
    · show h.put ++ [⟨rank, payload⟩] = taken ++ (h.team.queue ++ [⟨rank, payload⟩])
      rw [hput, List.append_assoc]
    · cases heq
      exact hrank rfl
  | @begun codec own hcan hleader =>
    rw [hleader] at hled
    refine ⟨taken, hput, codec, own, ⟨acts, [], rfl, hled.2⟩, rfl, ?_⟩
    rw [hs.size_eq, hled.1]
    rfl
  | finished _ hleader =>
    refine ⟨taken, hput, hled.append fun hready => ?_⟩
    cases hready.symm.trans hleader
  | waits => exact ⟨taken, hput, hled.append nofun⟩
  | gaveUp | completed | deserted => exact ⟨taken, hput, trivial⟩
  -- What is taken moves from the queue to `taken`, and the account goes on by one message. This is
  -- why `IsLed` speaks of `acceptAll` and not of the account alone.
  | @took decode c next m rest hleader hqueue haccept =>
    rw [hleader] at hled
    obtain ⟨codec, own, hgather, rfl, haccount⟩ := hled
    refine ⟨taken ++ [m], ?_, codec, own, hgather.append _, rfl, ?_⟩
    · rw [hput, hqueue, List.append_assoc]
      rfl
    · rw [Collector.acceptAll_append_singleton haccount, haccept]
  | @failed decode c m rest e hleader hqueue =>
    refine ⟨taken ++ [m], ?_, trivial⟩
    show h.put = taken ++ [m] ++ rest
    rw [hput, hqueue, List.append_assoc]
    rfl
  | @left rank =>
    by_cases hrank : rank = 0
    · subst hrank
      rw [leave_zero]
      exact ⟨taken, hput, trivial⟩
    · rw [leave_of_ne_zero hrank]
      exact ⟨taken, hput, hled.append nofun⟩

lemma Step.size_eq (hstep : Step h a answer h') : h'.team.size = h.team.size := by
  cases hstep with
  | left =>
    rw [leave]
    split <;> rfl
  | _ => rfl

lemma Step.mem_gone (hstep : Step h a answer h') (hgone : rank ∈ h'.gone) :
    rank ∈ h.gone ∨ a = .leaves rank := by
  cases hstep with
  | left =>
    rcases List.mem_cons.1 hgone with rfl | hgone
    · exact .inr rfl
    · exact .inl hgone
  | _ => exact .inl hgone

/-- A coordinator that has gathered or given up stays so. -/
lemma Step.leader_eq (hstep : Step h a answer h') (hleader : h.team.leader = .finished) :
    h'.team.leader = .finished := by
  cases hstep with
  | begun _ hready => cases hready.symm.trans hleader
  | took hgathering => cases hgathering.symm.trans hleader
  | gaveUp | completed | failed | deserted => rfl
  | left =>
    rw [leave]
    split
    · rfl
    · exact hleader
  | _ => exact hleader

theorem Sound.step (hs : h.Sound size acts) (hsize : 0 < size.toNat)
    (hstep : Step h a answer h') : h'.Sound size (acts ++ [a]) where
  size_eq := hstep.size_eq.trans hs.size_eq
  canSend_iff rank hrank := by
    rw [hs.canSend_step_iff hstep hrank, hs.canSend_iff rank hrank, List.forall_mem_append,
      -- A member can still send as long as no act so far has used its message.
      List.forall_mem_singleton, and_assoc]
  leaves_mem rank hgone := by
    rcases hstep.mem_gone hgone with hgone | rfl
    · exact List.mem_append_left _ (hs.leaves_mem rank hgone)
    · exact List.mem_append_right _ (List.mem_singleton_self _)
  leader_eq hgone := by
    rcases hstep.mem_gone hgone with hgone | rfl
    · exact hstep.leader_eq (hs.leader_eq hgone)
    · cases hstep
      rfl
  nodup_ranks := by
    rcases hstep.put_cases with hput | ⟨rank, call, payload, -, -, -, -, hsend, hput⟩
    · rw [hput]
      exact hs.nodup_ranks
    · rw [hput, List.map_append, List.nodup_append']
      refine ⟨hs.nodup_ranks, List.nodup_singleton _, ?_⟩
      rw [List.map_singleton, List.disjoint_singleton]
      -- A second message of the rank would have been sent although the first had used it up.
      intro hmem
      obtain ⟨m, hm, rfl⟩ := List.mem_map.1 hmem
      cases hsend.symm.trans (hs.canSend_eq_false hm)
  isSender m hm := by
    rcases hstep.put_cases with hput | ⟨rank, call, payload, -, hcan, hrank, -, -, hput⟩
    · rw [hput] at hm
      exact hs.isSender m hm
    · rw [hput, List.mem_append, List.mem_singleton] at hm
      rcases hm with hm | rfl
      · exact hs.isSender m hm
      · exact ⟨pos_of_ne_zero hrank, hs.size_eq ▸ hcan.1⟩
  isFirstOf m hm := by
    rcases hstep.put_cases with hput | ⟨rank, call, payload, rfl, -, hrank, hpayload, hsend, hput⟩
    · rw [hput] at hm
      exact (hs.isFirstOf m hm).append a
    · rw [hput, List.mem_append, List.mem_singleton] at hm
      rcases hm with hm | rfl
      · exact (hs.isFirstOf m hm).append _
      · have hunused := ((hs.canSend_iff rank (pos_of_ne_zero hrank)).1 hsend).2
        exact isFirstOf_of_forall_not_uses hunused hpayload
  isLed := hs.isLed_step hsize hstep

lemma sound_start (size : UInt32) : (⟨.ofSize size, [], []⟩ : History α).Sound size [] where
  size_eq := rfl
  canSend_iff rank hrank := by
    refine ⟨fun hsend => ⟨?_, List.forall_mem_nil _⟩, fun hlt => canSend_ofSize hrank hlt.1⟩
    rw [canSend_eq_true_iff, ofSize, List.getElem?_replicate] at hsend
    split at hsend
    · omega
    · cases hsend
  leaves_mem rank hgone := nomatch hgone
  leader_eq hgone := nomatch hgone
  nodup_ranks := List.nodup_nil
  isSender m hm := nomatch hm
  isFirstOf m hm := nomatch hm
  isLed := ⟨[], rfl, rfl, fun _ _ hmem => nomatch hmem⟩

theorem sound_ofActs (hsize : 0 < size.toNat) (acts : List (Act α)) :
    (ofActs size acts).Sound size acts := by
  induction acts using List.reverseRecOn with
  | nil => exact sound_start size
  | append_singleton acts a ih =>
    rw [ofActs_append]
    exact ih.step hsize (step_act _ a)

/-! ## How a gather ends -/

/-- Whether the first call of a member that had something to send was a gather of its value, and
what it sent is read as some value: its own one, if both sides use the same faithful codec. -/
def Contributes (acts : List (Act α)) (codec : Codec α) (rank : UInt32) (read : α) : Prop :=
  ∃ before sender value more encoded, acts = before ++ .calls rank (.gather sender value) :: more ∧
    (∀ a ∈ before, ¬ a.Uses rank) ∧ sender.serialize value = .ok encoded ∧
    codec.deserialize encoded = .ok read ∧ (sender = codec → codec.Faithful → read = value)

lemma exists_gather_of_payload {encoded : List UInt8} (h : call.payload = .ok (.value encoded)) :
    ∃ sender value, call = .gather sender value ∧ sender.serialize value = .ok encoded := by
  cases call with
  | abort reason => cases h
  | gather sender value =>
    refine ⟨sender, value, rfl, ?_⟩
    rw [Call.payload] at h
    cases hserialize : sender.serialize value with
    | error e =>
      rw [hserialize] at h
      cases h
    | ok bytes =>
      rw [hserialize] at h
      cases h
      rfl

lemma IsFirstOf.contributes {m : Message} {codec : Codec α} {value : α} (h : IsFirstOf acts m)
    (hm : m.Carries codec.deserialize value) : Contributes acts codec m.rank value := by
  obtain ⟨before, call, more, hacts, hbefore, hpayload⟩ := h
  obtain ⟨encoded, hencoded, hread⟩ := hm
  rw [hencoded] at hpayload
  obtain ⟨sender, own, rfl, hserialize⟩ := exists_gather_of_payload hpayload
  refine ⟨before, sender, own, more, encoded, hacts, hbefore, hserialize, hread, ?_⟩
  rintro rfl hfaithful
  cases hread.symm.trans (hfaithful.deserialize_of_serialize hserialize)
  rfl

/-- How the gather of a coordinator can end: with the values of all members; with what a member sent
instead of a value, or with something that cannot be read; or because nobody is left who could send,
and somebody has sent nothing. -/
inductive Ends (size : UInt32) (acts : List (Act α)) (codec : Codec α) (own : α) (h : History α) :
    Answer α → Prop where
  | gathered {values : List α} (hlength : values.length = size.toNat)
    (hown : values[0]? = some own)
    (hothers : ∀ rank, IsSender size rank →
      ∃ value, values[rank.toNat]? = some value ∧ Contributes acts codec rank value) :
    Ends size acts codec own h (.ok (some values))
  | aborted {rank : UInt32} {reason : String} (hput : ⟨rank, .abort reason⟩ ∈ h.put) :
    Ends size acts codec own h (.error (.aborted rank reason))
  | undecodable {rank : UInt32} {encoded : List UInt8} {detail : String}
    (hput : ⟨rank, .value encoded⟩ ∈ h.put)
    (hread : codec.deserialize encoded = .error (.undecodable detail)) :
    Ends size acts codec own h (.error (.undecodable detail))
  | deserted (hnobody : ∀ rank, h.team.canSend rank = false)
    (hsilent : ∃ rank, IsSender size rank ∧ ∀ m ∈ h.put, m.rank ≠ rank) :
    Ends size acts codec own h (.error (.protocol .participantsLeft))

section Endings

variable {codec : Codec α} {own : α} {c : Collector α} {taken : List Message} {value : α}
  (hsize : 0 < size.toNat)
  (haccount : (Collector.start size own).acceptAll codec.deserialize taken = .ok c)

include haccount

lemma getElem?_slots_zero : c.slots[0]? = some (some own) :=
  (Collector.getElem?_slots_of_acceptAll haccount 0 own).2
    (.inl (Collector.getElem?_slots_start.2 ⟨rfl, rfl⟩))

/-- What is in the slot of another member came with a message of that member. -/
lemma getElem?_slots_iff (hrank : 0 < rank.toNat) :
    c.slots[rank.toNat]? = some (some value) ↔
      ∃ m ∈ taken, m.rank = rank ∧ m.Carries codec.deserialize value := by
  rw [Collector.getElem?_slots_of_acceptAll haccount, Collector.getElem?_slots_start]
  simp only [UInt32.toNat_inj]
  constructor
  · rintro (⟨hzero, -⟩ | htaken)
    · omega
    · exact htaken
  · exact .inr

include hsize

lemma sound_account : c.Sound size.toNat :=
  (Collector.sound_start hsize own).acceptAll haccount

/-- The messages that a complete account was made of are the contributions of all members. -/
lemma Sound.ends_of_isComplete (hs : h.Sound size acts) (hput : h.put = taken ++ h.team.queue)
    (hcomplete : c.isComplete = true) :
    Ends size acts codec own h (c.finish.map some) := by
  have hc := sound_account hsize haccount
  obtain ⟨values, hvalues⟩ := hc.exists_of_isComplete hcomplete
  have hfinish := Collector.finish_eq_ok_iff.2 hvalues
  rw [hfinish]
  refine .gathered ?_ ?_ fun rank hrank => ?_
  · rw [← hc.length_slots, hvalues, List.length_map]
  · exact Collector.getElem?_of_finish hfinish (getElem?_slots_zero haccount)
  · obtain ⟨value, hvalue⟩ := hc.isComplete_iff_slots.1 hcomplete rank.toNat hrank.2
    obtain ⟨m, hm, rfl, hcarries⟩ := (getElem?_slots_iff haccount hrank.1).1 hvalue
    have hfirst := hs.isFirstOf m (hput ▸ List.mem_append_left _ hm)
    exact ⟨value, Collector.getElem?_of_finish hfinish hvalue, hfirst.contributes hcarries⟩

/-- A member whose message was not taken yet has an empty slot. -/
lemma Sound.getElem?_slots_of_put (hs : h.Sound size acts) {m : Message} {rest : List Message}
    (hput : h.put = taken ++ m :: rest) : c.slots[m.rank.toNat]? = some none := by
  have hm : m ∈ h.put := hput ▸ List.mem_append_right _ List.mem_cons_self
  obtain ⟨hpos, hlt⟩ := hs.isSender m hm
  rw [← (sound_account hsize haccount).length_slots] at hlt
  -- The slot of a member is empty unless one of its messages was taken.
  rw [List.getElem?_eq_getElem hlt]
  cases hslot : c.slots[m.rank.toNat] with
  | none => rfl
  | some value =>
    rw [← Option.some.injEq, ← List.getElem?_eq_getElem hlt] at hslot
    obtain ⟨other, hother, hsame, -⟩ := (getElem?_slots_iff haccount hpos).1 hslot
    have hnodup := hs.nodup_ranks
    rw [hput, List.map_append, List.nodup_append', List.map_cons] at hnodup
    refine absurd ?_ (hnodup.2.2 (List.mem_map_of_mem hother))
    rw [hsame]
    exact List.mem_cons_self

/-- A message of a member that has not contributed ends the gather only by what it says. -/
lemma Sound.ends_of_accept_eq_error (hs : h.Sound size acts) {m : Message}
    {rest : List Message} {e : Failure} (hput : h.put = taken ++ m :: rest)
    (haccept : c.accept codec.deserialize m = .error e) :
    Ends size acts codec own h (.error e) := by
  have hm : m ∈ h.put := hput ▸ List.mem_append_right _ List.mem_cons_self
  have hrank := ne_zero_of_pos (hs.isSender m hm).1
  have hslot := hs.getElem?_slots_of_put hsize haccount hput
  obtain ⟨rank, payload⟩ := m
  cases payload with
  | abort reason =>
    cases (Collector.accept_of_abort hrank hslot rfl).symm.trans haccept
    exact .aborted hm
  | value encoded =>
    -- The message is no abort, so only a value that cannot be read is a reason to refuse it.
    have hunread (value : α) : codec.deserialize encoded ≠ .ok value := by
      intro hread
      cases (Collector.accept_of_carries hrank hslot ⟨encoded, rfl, hread⟩).symm.trans haccept
    obtain ⟨detail, hread⟩ := Codec.deserialize_eq_error hunread
    have herror : c.accept codec.deserialize ⟨rank, .value encoded⟩ =
        .error (.undecodable detail) := by
      simp only [Collector.accept, hslot, if_neg hrank, hread]
      rfl
    cases herror.symm.trans haccept
    exact .undecodable hm hread

/-- If nobody can send, all messages are taken and values are missing, then somebody has sent
nothing. -/
lemma ends_of_not_any (hput : h.put = taken ++ h.team.queue) (hqueue : h.team.queue = [])
    (hincomplete : c.isComplete = false) (hnobody : h.team.senders.any id = false) :
    Ends size acts codec own h (.error (.protocol .participantsLeft)) := by
  -- If every member had sent, all messages would be taken and the account would be complete.
  refine .deserted (fun rank => canSend_eq_false_of_any hnobody) ?_
  by_contra hall
  push Not at hall
  rw [Bool.eq_false_iff] at hincomplete
  apply hincomplete
  rw [(sound_account hsize haccount).isComplete_iff_slots]
  intro r hr
  rcases Nat.eq_zero_or_pos r with rfl | hpos
  · exact ⟨own, getElem?_slots_zero haccount⟩
  · obtain ⟨rank, rfl⟩ : ∃ rank : UInt32, rank.toNat = r :=
      ⟨.ofNat r, UInt32.toNat_ofNat_of_lt (hr.trans size.toNat_lt)⟩
    obtain ⟨m, hm, hsame⟩ := hall rank ⟨hpos, hr⟩
    rw [hput, hqueue, List.append_nil] at hm
    obtain ⟨value, hvalue⟩ := Collector.exists_carries_of_acceptAll haccount hm
    exact ⟨value, (getElem?_slots_iff haccount hpos).2 ⟨m, hm, hsame, hvalue⟩⟩

end Endings

theorem Sound.ends (hs : h.Sound size acts) (hsize : 0 < size.toNat) {result : Answer α}
    (hstep : Step h .turn (some result) h') :
    ∃ codec own, IsGather acts codec own ∧ Ends size acts codec own h result := by
  -- What was taken determines the account, so each ending is read off from it and the queue.
  obtain ⟨taken, hput, hled⟩ := hs.isLed
  cases hstep with
  | completed hleader hcomplete =>
    rw [hleader] at hled
    obtain ⟨codec, own, hgather, rfl, haccount⟩ := hled
    exact ⟨codec, own, hgather, hs.ends_of_isComplete hsize haccount hput hcomplete⟩
  | failed hleader hqueue haccept =>
    rw [hleader] at hled
    obtain ⟨codec, own, hgather, rfl, haccount⟩ := hled
    rw [hqueue] at hput
    exact ⟨codec, own, hgather, hs.ends_of_accept_eq_error hsize haccount hput haccept⟩
  | deserted hleader hincomplete hqueue hnobody =>
    rw [hleader] at hled
    obtain ⟨codec, own, hgather, rfl, haccount⟩ := hled
    exact ⟨codec, own, hgather,
      ends_of_not_any hsize haccount hput hqueue hincomplete hnobody⟩

lemma Ends.ne_rank_fault {codec : Codec α} {own : α} {e : Failure}
    (h' : Ends size acts codec own h (.error e)) (rank : UInt32) :
    e ≠ .protocol (.invalidRank rank) ∧ e ≠ .protocol (.repeatedRank rank) := by
  cases h' <;> exact ⟨nofun, nofun⟩

/-- The calls of the coordinator fail because of how a gather ends, or because it has gathered or
given up before. -/
lemma Sound.ne_rank_fault (hs : h.Sound size acts) (hsize : 0 < size.toNat)
    (ha : a.IsOfCoordinator) {e : Failure} (hstep : Step h a (some (.error e)) h')
    (rank : UInt32) :
    e ≠ .protocol (.invalidRank rank) ∧ e ≠ .protocol (.repeatedRank rank) := by
  cases a with
  | turn =>
    obtain ⟨codec, own, -, hends⟩ := hs.ends hsize hstep
    exact hends.ne_rank_fault rank
  | leaves other => cases ha
  | calls other call =>
    cases hstep with
    | refused _ hrank | late _ hrank | repeated _ hrank => exact absurd ha hrank
    | finished => exact ⟨nofun, nofun⟩

/-! ## Calls that fail -/

/-- A coordinator whose call has returned takes no more messages. -/
lemma Step.leader_eq_of_returned {result : Answer α} (ha : a.IsOfCoordinator)
    (hstep : Step h a (some result) h') : h'.team.leader = .finished := by
  cases hstep with
  | refused _ hrank | sent _ hrank | late _ hrank | repeated _ hrank => exact absurd ha hrank
  | finished _ hleader => exact hleader
  | gaveUp | completed | failed | deserted => rfl

lemma leader_eq_of_append (hleader : (ofActs size acts).team.leader = .finished)
    (more : List (Act α)) : (ofActs size (acts ++ more)).team.leader = .finished := by
  induction more using List.reverseRecOn with
  | nil => rwa [List.append_nil]
  | append_singleton more a ih =>
    rw [← List.append_assoc, ofActs_append]
    exact (step_act _ a).leader_eq ih

/-- A member that has not used up what it has to send can call. -/
lemma Sound.canCall (hs : h.Sound size acts) (hrank : IsSender size rank)
    (hunused : ∀ a ∈ acts, ¬ a.Uses rank) : h.CanCall rank := by
  refine ⟨hs.size_eq ▸ hrank.2, fun hgone => ?_, fun hzero => ?_⟩
  · exact hunused _ (hs.leaves_mem rank hgone) rfl
  · exact absurd hzero (ne_zero_of_pos hrank.1)

/-- Whatever the members of a team call, however often, and whenever they leave: each of them puts
at most one message into the queue, the first that it had to send. A call whose value cannot be
encoded changes nothing, and a member whose message was put there can send no other one. The
coordinator's gather, the first that it calls, ends in one of the ways of `Ends`, so with values
only if every other member has sent one, and never because of a rank that does not fit. After a call
of the coordinator has returned, it cannot gather any more, and a member that had not sent cannot
send. -/
theorem history_spec (hsize : 0 < size.toNat) (acts : List (Act α)) :
    let h := ofActs size acts
    (h.put.map (·.rank)).Nodup ∧ (∀ m ∈ h.put, IsSender size m.rank ∧ IsFirstOf acts m) ∧
      h.team.queue <:+ h.put ∧
    (∀ rank call e, h.CanCall rank → rank ≠ 0 → call.payload = .error e →
      h.act (.calls rank call) = (some (.error e), h)) ∧
    (∀ m ∈ h.put, ∀ call payload, h.CanCall m.rank → call.payload = .ok payload →
      (h.act (.calls m.rank call)).1 = some (.error (.protocol .alreadySent))) ∧
    (∀ result, (h.act .turn).1 = some result →
      ∃ codec own, IsGather acts codec own ∧ Ends size acts codec own h result) ∧
    (∀ a e, a.IsOfCoordinator → (h.act a).1 = some (.error e) → ∀ rank,
      e ≠ .protocol (.invalidRank rank) ∧ e ≠ .protocol (.repeatedRank rank)) ∧
    (∀ before a more result, acts = before ++ a :: more → a.IsOfCoordinator →
      ((ofActs size before).act a).1 = some result →
        (h.CanCall 0 → ∀ codec own,
          (h.act (.calls 0 (.gather codec own))).1 =
            some (.error (.protocol .alreadyFinished))) ∧
        ∀ rank call payload, IsSender size rank → (∀ a ∈ acts, ¬ a.Uses rank) →
          call.payload = .ok payload →
            (h.act (.calls rank call)).1 = some (.error (.protocol .coordinatorLeft))) ∧
    ProtocolFault.alreadySent.message = "Contribution already sent" ∧
    ProtocolFault.participantsLeft.message = "Participants left before contributing" ∧
    ProtocolFault.coordinatorLeft.message = "Coordinator has left the group" := by
  intro h
  have hs : h.Sound size acts := sound_ofActs hsize acts
  refine ⟨hs.nodup_ranks, fun m hm => ⟨hs.isSender m hm, hs.isFirstOf m hm⟩, ?_, ?_, ?_, ?_, ?_, ?_,
    rfl, rfl, rfl⟩
  · obtain ⟨taken, hput, -⟩ := hs.isLed
    exact ⟨taken, hput.symm⟩
  · intro rank call e hcan hrank hpayload
    exact act_of_payload_eq_error hcan hrank hpayload
  · intro m hm call payload hcan hpayload
    have hrank := ne_zero_of_pos (hs.isSender m hm).1
    rw [act_of_canSend_eq_false hcan hrank hpayload (hs.canSend_eq_false hm)]
  · intro result hresult
    exact hs.ends hsize (hresult ▸ step_act h .turn)
  · intro a e ha he
    exact hs.ne_rank_fault hsize ha (he ▸ step_act h a)
  · rintro before a more result hacts ha hresult
    -- The act closed the gather, and it stays closed whatever acts follow.
    have hleader : h.team.leader = .finished := by
      have hreturned := hresult ▸ step_act (ofActs size before) a
      have hfinished := hreturned.leader_eq_of_returned ha
      rw [← ofActs_append] at hfinished
      have hmore := leader_eq_of_append hfinished more
      rwa [List.append_assoc, List.singleton_append, ← hacts] at hmore
    refine ⟨fun hcan codec own => ?_, fun rank call payload hrank hunused hpayload => ?_⟩
    · rw [act_gather_of_finished hcan hleader]
    · have hsend := (hs.canSend_iff rank hrank.1).2 ⟨hrank.2, hunused⟩
      have hlistens : h.team.isListening = false := by rw [isListening, hleader]
      rw [act_of_not_isListening (hs.canCall hrank hunused) (ne_zero_of_pos hrank.1) hpayload hsend
        hlistens]

/-! ### A team of three -/

/-- The coordinator gathers, the member of rank 2 contributes twice, and the one of rank 1 once. -/
def busyActs : List (Act UInt32) :=
  [.calls 0 (.gather Codec.u32 5), .calls 2 (.gather Codec.u32 7), .calls 2 (.gather Codec.u32 8),
    .calls 1 (.gather Codec.u32 9), .turn, .turn]

/-- The coordinator gathers, the member of rank 2 contributes, and the one of rank 1 leaves. -/
def desertedActs : List (Act UInt32) :=
  [.calls 2 (.gather Codec.u32 7), .calls 0 (.gather Codec.u32 5), .leaves 1, .turn]

/-- A codec whose encodings are all too large. -/
def oversizedCodec : Codec UInt32 :=
  { Codec.u32 with encode := fun _ => List.replicate (Codec.limit + 1) 0 }

lemma payload_oversized (n : UInt32) :
    (Call.gather oversizedCodec n).payload = .error .unencodable := by
  have hlength : ¬ (oversizedCodec.encode n).length ≤ Codec.limit := by
    rw [oversizedCodec, List.length_replicate]
    exact Nat.not_succ_le_self _
  rw [Call.payload, Codec.serialize, if_neg hlength]
  rfl

/-- In a team of three, a value that is too large changes nothing, a second contribution is refused,
and the coordinator has all values and cannot gather again. If one member leaves without a
contribution, the gather ends because of that, and if the coordinator gives up at once, nobody can
send. -/
theorem history_of_three :
    0 < (3 : UInt32).toNat ∧
      (ofActs 3 busyActs).act (.calls 1 (.gather oversizedCodec 6)) =
        (some (.error .unencodable), ofActs 3 busyActs) ∧
      ((ofActs 3 busyActs).act (.calls 2 (.gather Codec.u32 8))).1 =
        some (.error (.protocol .alreadySent)) ∧
      (∃ codec own, IsGather busyActs codec own ∧
        Ends 3 busyActs codec own (ofActs 3 busyActs) (.ok (some [5, 9, 7]))) ∧
      ((ofActs 3 (busyActs ++ [.turn])).act (.calls 0 (.gather Codec.u32 5))).1 =
        some (.error (.protocol .alreadyFinished)) ∧
      (∃ codec own, IsGather desertedActs codec own ∧
        Ends 3 desertedActs codec own (ofActs 3 desertedActs)
          (.error (.protocol .participantsLeft))) ∧
      ((ofActs 3 [.calls 0 (.abort "no CPUs")]).act (.calls 1 (.gather Codec.u32 9))).1 =
        some (.error (.protocol .coordinatorLeft)) := by
  have hsize : 0 < (3 : UInt32).toNat := by decide
  obtain ⟨-, -, -, hrefused, hrepeated, hends, -⟩ := history_spec hsize busyActs
  obtain ⟨-, -, -, -, -, hdeserted, -⟩ := history_spec hsize desertedActs
  obtain ⟨-, -, -, -, -, -, -, hover, -⟩ := history_spec hsize (busyActs ++ [.turn])
  obtain ⟨-, -, -, -, -, -, -, hlate, -⟩ :=
    history_spec hsize [(.calls 0 (.abort "no CPUs") : Act UInt32)]
  have hput : (ofActs 3 busyActs).put =
      [⟨2, .value [7, 0, 0, 0]⟩, ⟨1, .value [9, 0, 0, 0]⟩] := rfl
  have hlast : (⟨2, .value [7, 0, 0, 0]⟩ : Message) ∈ (ofActs 3 busyActs).put := by
    rw [hput]
    exact List.mem_cons_self
  refine ⟨hsize, ?_, ?_, ?_, ?_, ?_, ?_⟩
  · exact hrefused 1 _ _ (by decide) (by decide) (payload_oversized 6)
  · exact hrepeated _ hlast _ (.value [8, 0, 0, 0]) (by decide) rfl
  · exact hends _ rfl
  · exact (hover busyActs .turn [] (.ok (some [5, 9, 7])) rfl trivial rfl).1 (by decide) Codec.u32 5
  · exact hdeserted _ rfl
  · refine (hlate [] _ [] (.ok none) rfl rfl rfl).2 1 _ (.value [9, 0, 0, 0])
      ⟨by decide, by decide⟩ ?_ rfl
    rw [List.forall_mem_singleton]
    exact fun huses => absurd huses.1 (by decide)

end History

end JobBinding.Gather.Team

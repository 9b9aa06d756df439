import JobBinding.Proofs.Validation.Session

/-!
# Every order of steps ends

In an endless order in which every member keeps coming up (`Fair`) all members return.
`eventually_eq_zero` is the argument: a number that no step raises, and that each step of one member
lowers, comes to zero. It is used for each member other than the coordinator, with the steps that
the member still has to make, and, once they all have returned, for the coordinator with the length
of the queue.
-/

namespace JobBinding.Validation

open Gather

/-- The steps that a member at a stage still has to make, if it is not the coordinator. -/
def Stage.left : Stage → Nat
  | .fresh => 2
  | .observed _ => 1
  | _ => 0

namespace Session

variable {s s₀ : Session} {rank : UInt32} {order : Nat → UInt32}

/-- The beginning of an endless order of steps. -/
def begin (order : Nat → UInt32) (k : Nat) : List UInt32 :=
  (List.range k).map order

/-- Whether each member of a team of a size keeps coming up in an endless order. -/
def Fair (order : Nat → UInt32) (size : Nat) : Prop :=
  ∀ r < size, ∀ k, ∃ k', k ≤ k' ∧ (order k').toNat = r

lemma run_begin_succ (k : Nat) :
    s.run (begin order (k + 1)) = (s.run (begin order k)).step (order k) := by
  rw [begin, List.range_succ, List.map_append, run, List.foldl_append]
  rfl

/-! ## Numbers that steps lower -/

/-- Holds at a later point what every step preserves. -/
lemma run_begin_of_le {P : Session → Prop} (hstep : ∀ s rank, P s → P (s.step rank)) {k k' : Nat}
    (hk : k ≤ k') (h : P (s.run (begin order k))) : P (s.run (begin order k')) := by
  induction hk with
  | refl => exact h
  | step _ ih =>
    rw [run_begin_succ]
    exact hstep _ _ ih

lemma eventually_eq_zero {size r : Nat} (hfair : Fair order size) (hr : r < size)
    {P : Session → Prop} (hP : ∀ s rank, P s → P (s.step rank)) (μ : Session → Nat)
    (hle : ∀ s rank, P s → μ (s.step rank) ≤ μ s)
    (hlt : ∀ (s : Session) (rank : UInt32), rank.toNat = r → P s → μ s ≠ 0 → μ (s.step rank) < μ s)
    {k : Nat} (h : P (s.run (begin order k))) :
    ∃ k', k ≤ k' ∧ μ (s.run (begin order k')) = 0 := by
  -- Steps of others may lower the measure too, so the induction is on a bound of it.
  obtain ⟨n, hn⟩ : ∃ n, μ (s.run (begin order k)) ≤ n := ⟨_, Nat.le_refl _⟩
  induction n generalizing k with
  | zero => exact ⟨k, Nat.le_refl k, Nat.le_zero.1 hn⟩
  | succ n ih =>
    obtain ⟨k', hk, horder⟩ := hfair r hr k
    -- Up to the member's next step the measure does not rise, and there it falls.
    have hlater : P (s.run (begin order k')) ∧ μ (s.run (begin order k')) ≤ n + 1 :=
      run_begin_of_le (P := fun s => P s ∧ μ s ≤ n + 1)
        (fun s rank h => ⟨hP s rank h.1, (hle s rank h.1).trans h.2⟩) hk ⟨h, hn⟩
    by_cases hzero : μ (s.run (begin order k')) = 0
    · exact ⟨k', hk, hzero⟩
    have hlower := hlt _ (order k') horder hlater.1 hzero
    rw [← run_begin_succ] at hlower
    have hnext : P (s.run (begin order (k' + 1))) := by
      rw [run_begin_succ]
      exact hP _ _ hlater.1
    obtain ⟨k'', hk', hzero⟩ := ih hnext (by omega)
    exact ⟨k'', by omega, hzero⟩

/-- If each member has a number that no step raises and that its own steps lower, then all numbers
come to zero. -/
lemma eventually_forall_eq_zero {size : Nat} (hfair : Fair order size) {P : Session → Prop}
    (hP : ∀ s rank, P s → P (s.step rank)) (μ : Nat → Session → Nat)
    (hle : ∀ s rank, P s → ∀ r, μ r (s.step rank) ≤ μ r s)
    (hlt : ∀ s (rank : UInt32), P s → μ rank.toNat s ≠ 0 →
      μ rank.toNat (s.step rank) < μ rank.toNat s)
    {k : Nat} (h : P (s.run (begin order k))) :
    ∃ k', k ≤ k' ∧ P (s.run (begin order k')) ∧ ∀ r < size, μ r (s.run (begin order k')) = 0 := by
  -- The measures come to zero one after the other and stay there, as no step raises any.
  suffices hsome : ∀ n ≤ size, ∃ k', k ≤ k' ∧ P (s.run (begin order k')) ∧
      ∀ r < n, μ r (s.run (begin order k')) = 0 from hsome size (Nat.le_refl size)
  intro n
  induction n with
  | zero => exact fun _ => ⟨k, Nat.le_refl k, h, fun r hr => absurd hr (Nat.not_lt_zero r)⟩
  | succ n ih =>
    intro hn
    obtain ⟨k₁, hk₁, h₁, hzero⟩ := ih (by omega)
    obtain ⟨k₂, hk₂, hnext⟩ := eventually_eq_zero hfair (r := n) (by omega) hP (μ n)
      (fun s rank hs => hle s rank hs n) (fun s rank heq hs => heq ▸ hlt s rank hs) h₁
    have hkeep := run_begin_of_le (P := fun s => P s ∧ ∀ r < n, μ r s = 0)
      (fun s rank hs => ⟨hP s rank hs.1, fun r hr =>
        Nat.le_zero.1 ((hle s rank hs.1 r).trans (Nat.le_of_eq (hs.2 r hr)))⟩)
      hk₂ ⟨h₁, hzero⟩
    refine ⟨k₂, by omega, hkeep.1, fun r hr => ?_⟩
    rcases Nat.lt_succ_iff_lt_or_eq.1 hr with hr | rfl
    · exact hkeep.2 r hr
    · exact hnext

/-! ## Members other than the coordinator -/

/-- The steps that the member of a rank still has to make. -/
def left (s : Session) (r : Nat) : Nat :=
  (s.stages[r]?.map Stage.left).getD 0

lemma getElem?_stages_conclude {r : Nat} (hr : r ≠ 0) (result : Except Failure (List Binding)) :
    (s.conclude result).stages[r]? = s.stages[r]? := by
  have hset (stage : Stage) : (s.stages.set 0 stage)[r]? = s.stages[r]? :=
    List.getElem?_set_ne hr.symm
  cases result with
  | error e => exact hset _
  | ok bindings =>
    simp only [conclude]
    split <;> exact hset _

/-- A step of a member leaves the others at their stages, except that the coordinator ends its own
gather. -/
lemma getElem?_stages_step {r : Nat} (hr : r ≠ 0) (hne : rank.toNat ≠ r) :
    (s.step rank).stages[r]? = s.stages[r]? := by
  have hset (stage : Stage) : (s.stages.set rank.toNat stage)[r]? = s.stages[r]? :=
    List.getElem?_set_ne hne
  unfold step
  split
  · split <;> exact hset _
  · exact hset _
  · split <;> split <;> exact hset _
  · split
    · exact getElem?_stages_conclude hr _
    · rfl
    · rfl
  · rfl

namespace Consistent

variable {sent : List Message}

lemma left_step (h : Consistent s₀ s sent) (hs₀ : s₀.Reliable)
    (hsize : s₀.team.size = s₀.shape.processes) {r : Nat} (hr : r ≠ 0) :
    (s.step rank).left r = if rank.toNat = r then s.left r - 1 else s.left r := by
  split
  · next heq =>
    subst heq
    have hrank : rank ≠ 0 := by
      rintro rfl
      exact hr rfl
    cases ho : s₀.observations[rank.toNat]? with
    | none =>
      have hstage := h.getElem?_stages_eq_none ho
      rw [step_of_getElem?_stages_eq_none hstage, left, hstage]
      rfl
    | some o =>
      have hencodes := hs₀.encodes_of_getElem? ho
      have hlt := h.lt_length_stages ho
      have hset (stage : Stage) : (s.stages.set rank.toNat stage)[rank.toNat]? = some stage :=
        List.getElem?_set_self hlt
      cases h.member rank hrank o ho with
      | fresh hstage _ _ =>
        have hstep := h.step_eq_of_fresh hsize hstage ho
        simp only [hstep, left, Session.setStage, hset, hstage]
        rfl
      | observed hstage hsend _ =>
        cases hlistens : s.team.isListening with
        | true =>
          simp only [step_of_isListening hrank hstage hsend hlistens hencodes, left,
            Session.retires, hset, hstage]
          rfl
        | false =>
          simp only [step_of_not_isListening hrank hstage hsend hlistens hencodes, left,
            Session.retires, hset, hstage]
          rfl
      | delivered hstage _ _ =>
        simp only [step_of_returned hstage, left, hstage]
        rfl
      | turnedAway hstage _ _ _ =>
        simp only [step_of_returned hstage, left, hstage]
        rfl
  · next hne => rw [left, getElem?_stages_step hr hne, left]

/-- A member that has no step left to make has returned. -/
lemma returned_of_left_eq_zero (h : Consistent s₀ s sent) (hrank : rank ≠ 0)
    (hlt : rank.toNat < s₀.probes.length) (hleft : s.left rank.toNat = 0) :
    ∃ result, s.stages[rank.toNat]? = some (.returned result) ∧ s.team.canSend rank = false := by
  obtain ⟨o, ho⟩ := exists_observation hlt
  cases h.member rank hrank o ho with
  | fresh hstage => simp [left, hstage, Stage.left] at hleft
  | observed hstage => simp [left, hstage, Stage.left] at hleft
  | delivered hstage hsend => exact ⟨_, hstage, hsend⟩
  | turnedAway hstage hsend => exact ⟨_, hstage, hsend⟩

lemma step_eq_self_of_left_eq_zero (h : Consistent s₀ s sent) (hrank : rank ≠ 0)
    (hleft : s.left rank.toNat = 0) : s.step rank = s := by
  by_cases hlt : rank.toNat < s₀.probes.length
  · obtain ⟨result, hstage, -⟩ := h.returned_of_left_eq_zero hrank hlt hleft
    exact step_of_returned hstage
  · refine step_of_getElem?_stages_eq_none (List.getElem?_eq_none ?_)
    rw [h.length_stages]
    omega

end Consistent

/-! ## The coordinator -/

/-- A bound of the steps that the coordinator still has to make, once the others have returned. -/
def pending (s : Session) : Nat :=
  match (s.stages[0]? : Option Stage) with
  | some .fresh => s.team.queue.length + 3
  | some (.observed _) => s.team.queue.length + 2
  | some .gathering => s.team.queue.length + 1
  | _ => 0

lemma pending_conclude (h : 0 < s.stages.length) (result : Except Failure (List Binding)) :
    (s.conclude result).pending = 0 := by
  have hset {result' : Except Failure (Option Verdict)} :
      (s.stages.set 0 (.returned result'))[0]? = some (.returned result') :=
    List.getElem?_set_self h
  cases result with
  | error e => simp only [conclude_error, pending, hset]
  | ok bindings =>
    simp only [conclude]
    split <;> simp only [returns, Session.setStage, pending, UInt32.toNat_zero, hset]

namespace Consistent

variable {sent : List Message}

/-- Once all others have returned, each step of a gathering coordinator takes a message or ends the
gather. -/
lemma pending_step_gathering (h : Consistent s₀ s sent) (hs₀ : s₀.Reliable)
    (hleft : ∀ r, r ≠ 0 → s.left r = 0) {own : Binding} {taken : List Message}
    {c : Collector Binding} (hobs : s₀.observations[0]? = some (.ok own))
    (hstage : s.stages[0]? = some .gathering)
    (hleader : s.team.leader = .gathering Binding.codec.deserialize c)
    (hsent : sent = taken ++ s.team.queue)
    (hc : (Collector.start s₀.team.size own).acceptAll Binding.codec.deserialize taken = .ok c) :
    (s.step 0).pending < s.pending := by
  have hlength : 0 < s.stages.length := (List.getElem?_eq_some_iff.1 hstage).1
  -- While the coordinator gathers, the queue and one step more bound what it has to do.
  have hpending : s.pending = s.team.queue.length + 1 := by simp only [pending, hstage]
  cases hcomplete : c.isComplete with
  | true =>
    rw [step_of_decided hstage (Team.turn_of_isComplete hleader hcomplete), hpending]
    exact lt_of_eq_of_lt (pending_conclude hlength _) (Nat.succ_pos _)
  | false =>
    cases hqueue : s.team.queue with
    -- With an empty queue and an account that is not complete somebody could still send. But the
    -- others have returned, and whoever returns has sent or cannot send any more.
    | nil =>
      rw [hqueue, List.append_nil] at hsent
      subst hsent
      have hany := h.any_senders hs₀ hobs hleader hc hcomplete
      have hcount : s.team.senders.length + 1 < UInt32.size := by
        rw [h.length_senders, ← hs₀.size_toNat]
        exact s₀.team.size.toNat_lt
      obtain ⟨rank, hpos, hle, hsend⟩ := Team.exists_canSend_of_any hcount hany
      have hrank : rank ≠ 0 := by
        rintro rfl
        exact absurd hpos (Nat.lt_irrefl 0)
      have hlt : rank.toNat < s₀.probes.length := by
        rw [← h.length_senders]
        omega
      obtain ⟨_, -, hspent⟩ := h.returned_of_left_eq_zero hrank hlt (hleft _ (toNat_ne_zero hrank))
      rw [hsend] at hspent
      cases hspent
    | cons m rest =>
      rw [hpending, hqueue]
      cases haccept : c.accept Binding.codec.deserialize m with
      | ok c' =>
        rw [step_of_took hstage (Team.turn_of_accept_eq_ok hleader hcomplete hqueue haccept)]
        simp only [pending, hstage, List.length_cons]
        omega
      | error e =>
        rw [step_of_decided hstage
          (Team.turn_of_accept_eq_error hleader hcomplete hqueue haccept)]
        refine lt_of_eq_of_lt (pending_conclude ?_ _) (Nat.succ_pos _)
        exact hlength

lemma pending_step_zero (h : Consistent s₀ s sent) (hs₀ : s₀.Reliable)
    (hsize : s₀.team.size = s₀.shape.processes) (hleft : ∀ r, r ≠ 0 → s.left r = 0)
    (hpending : s.pending ≠ 0) : (s.step 0).pending < s.pending := by
  have hlength := h.length_stages_pos hs₀
  have hset (stage : Stage) : (s.stages.set 0 stage)[0]? = some stage :=
    List.getElem?_set_self hlength
  cases h.coordinator with
  -- The stage of the coordinator says what its next step is, and each leaves less to do.
  | fresh hstage hleader hqueue hfiles =>
    obtain ⟨o, ho⟩ := exists_observation hs₀.size_pos
    have hstep : s.step 0 = s.setStage 0 (.observed o) := h.step_eq_of_fresh hsize hstage ho
    simp only [hstep, pending, Session.setStage, UInt32.toNat_zero, hset, hstage]
    omega
  | @observed o ho hstage hleader hqueue hfiles =>
    cases o with
    | error e =>
      rw [step_zero_of_error hstage]
      simp only [pending, hset, hstage]
      omega
    | ok own =>
      rw [step_zero_of_ok hstage hleader]
      simp only [pending, hset, hstage]
      omega
  | gathering ho hstage hleader hqueue hc _ =>
    exact h.pending_step_gathering hs₀ hleft ho hstage hleader hqueue hc
  | failed _ hstage => simp [pending, hstage] at hpending
  | aborted _ hstage => simp [pending, hstage] at hpending
  | concluded _ hstage => simp [pending, hstage] at hpending

end Consistent

namespace Consistent

variable {sent : List Message}

lemma result?_of_pending_eq_zero (h : Consistent s₀ s sent) (hpending : s.pending = 0) :
    ∃ result, s.stages[0]? = some (.returned result) := by
  cases h.coordinator with
  | fresh hstage => simp [pending, hstage] at hpending
  | observed _ hstage => simp [pending, hstage] at hpending
  | gathering _ hstage => simp [pending, hstage] at hpending
  | failed _ hstage => exact ⟨_, hstage⟩
  | aborted _ hstage => exact ⟨_, hstage⟩
  | concluded _ hstage => exact ⟨_, hstage⟩

end Consistent

/-! ## All members return -/

def AllReturned (s : Session) (size : Nat) : Prop :=
  ∀ r < size, ∃ result, s.result? r = some result

/-- The invariant of a session in which all members but the coordinator have returned. -/
def Alone (s₀ s : Session) : Prop :=
  (∃ sent, Consistent s₀ s sent) ∧ ∀ r, r ≠ 0 → s.left r = 0

lemma Alone.step_eq_self (h : Alone s₀ s) (hrank : rank ≠ 0) : s.step rank = s := by
  obtain ⟨⟨sent, hs⟩, hleft⟩ := h
  exact hs.step_eq_self_of_left_eq_zero hrank (hleft _ (toNat_ne_zero hrank))

lemma Alone.step (h : Alone s₀ s) (hs₀ : s₀.Reliable) (hsize : s₀.team.size = s₀.shape.processes)
    (rank : UInt32) : Alone s₀ (s.step rank) := by
  obtain ⟨⟨sent, hs⟩, hleft⟩ := h
  refine ⟨⟨_, hs.step hs₀ hsize rank⟩, fun r hr => ?_⟩
  rw [hs.left_step hs₀ hsize hr, hleft r hr]
  split <;> rfl

lemma Alone.step_zero_eq_self (h : Alone s₀ s) (hpending : s.pending = 0) : s.step 0 = s := by
  obtain ⟨⟨sent, hs⟩, -⟩ := h
  obtain ⟨result, hstage⟩ := hs.result?_of_pending_eq_zero hpending
  exact step_of_returned hstage

lemma Alone.allReturned (h : Alone s₀ s) (hs₀ : s₀.Reliable) (hpending : s.pending = 0) :
    s.AllReturned s₀.probes.length := by
  obtain ⟨⟨sent, hs⟩, hleft⟩ := h
  intro r hr
  by_cases hzero : r = 0
  · subst hzero
    obtain ⟨result, hstage⟩ := hs.result?_of_pending_eq_zero hpending
    exact ⟨result, result?_eq_some_iff.2 hstage⟩
  · obtain ⟨rank, rfl⟩ := exists_rank (hs₀.size_toNat ▸ hr)
    have hrank : rank ≠ 0 := by
      rintro rfl
      exact hzero rfl
    obtain ⟨result, hstage, -⟩ := hs.returned_of_left_eq_zero hrank hr (hleft _ hzero)
    exact ⟨result, result?_eq_some_iff.2 hstage⟩

/-- In a team of the expected size all members return, and stay so. -/
theorem eventually_allReturned (h : Consistent s₀ s₀ []) (hs₀ : s₀.Reliable)
    (hsize : s₀.team.size = s₀.shape.processes) (hfair : Fair order s₀.probes.length) :
    ∃ k, ∀ k', k ≤ k' → (s₀.run (begin order k')).AllReturned s₀.probes.length := by
  have hstep (s : Session) (rank : UInt32) : (∃ sent, Consistent s₀ s sent) →
      ∃ sent, Consistent s₀ (s.step rank) sent :=
    fun ⟨_, hs⟩ => ⟨_, hs.step hs₀ hsize rank⟩
  -- First the others come to their end, whatever the coordinator does.
  obtain ⟨k₁, -, ⟨sent₁, h₁⟩, hleft⟩ := eventually_forall_eq_zero (s := s₀) (k := 0) hfair hstep
    (fun r s => if r = 0 then 0 else s.left r)
    (by
      rintro s rank ⟨sent, hs⟩ r
      by_cases hr : r = 0
      · simp [hr]
      · simp only [if_neg hr, hs.left_step hs₀ hsize hr]
        split <;> omega)
    (by
      rintro s rank ⟨sent, hs⟩ hne
      by_cases hr : rank.toNat = 0
      · simp [hr] at hne
      · simp only [if_neg hr] at hne ⊢
        rw [hs.left_step hs₀ hsize hr, if_pos rfl]
        omega)
    ⟨[], h⟩
  have halone : Alone s₀ (s₀.run (begin order k₁)) := by
    refine ⟨⟨sent₁, h₁⟩, fun r hr => ?_⟩
    by_cases hlt : r < s₀.probes.length
    · simpa [hr] using hleft r hlt
    · rw [left, List.getElem?_eq_none (by rw [h₁.length_stages]; omega)]
      rfl
  have hle (s : Session) (rank : UInt32) (hs : Alone s₀ s) : (s.step rank).pending ≤ s.pending := by
    by_cases hrank : rank = 0
    · subst hrank
      by_cases hpending : s.pending = 0
      · rw [hs.step_zero_eq_self hpending]
      · obtain ⟨⟨sent, hs⟩, hleft⟩ := hs
        exact (hs.pending_step_zero hs₀ hsize hleft hpending).le
    · rw [hs.step_eq_self hrank]
  obtain ⟨k₂, hk₂, hpending⟩ := eventually_eq_zero hfair hs₀.size_pos
    (fun s rank hs => Alone.step hs hs₀ hsize rank) pending hle
    (by
      rintro s rank hrank ⟨⟨sent, hs⟩, hleft⟩ hpending
      obtain rfl : rank = 0 := UInt32.toNat_inj.1 hrank
      exact hs.pending_step_zero hs₀ hsize hleft hpending)
    halone
  have halone' : Alone s₀ (s₀.run (begin order k₂)) :=
    run_begin_of_le (P := Alone s₀) (fun s rank hs => hs.step hs₀ hsize rank) hk₂ halone
  refine ⟨k₂, fun k' hk' => ?_⟩
  have hdone := run_begin_of_le (P := fun s => Alone s₀ s ∧ s.pending = 0)
    (fun s rank hs => ⟨hs.1.step hs₀ hsize rank,
      Nat.le_zero.1 ((hle s rank hs.1).trans (Nat.le_of_eq hs.2))⟩)
    hk' ⟨halone', hpending⟩
  exact hdone.1.allReturned hs₀ hdone.2

namespace Refused

lemma left_step (h : Refused s₀ s) (hsize : s₀.team.size ≠ s₀.shape.processes) (r : Nat) :
    (s.step rank).left r = if rank.toNat = r then 0 else s.left r := by
  cases hstage : s.stages[rank.toNat]? with
  | none =>
    rw [step_of_getElem?_stages_eq_none hstage]
    split
    · next heq => rw [left, ← heq, hstage]; rfl
    · rfl
  | some stage =>
    have hlt := (List.getElem?_eq_some_iff.1 hstage).1
    -- With a group of another size a member returns at its first step.
    rcases h.stage stage (List.mem_of_getElem? hstage) with rfl | rfl
    · rw [step_of_fresh_of_ne hstage (by rwa [h.probes_eq, ← h.length_stages])
        (by rwa [h.size_eq, h.shape_eq])]
      simp only [left, Session.returns, Session.setStage]
      split
      · next heq =>
        rw [← heq, List.getElem?_set_self hlt]
        rfl
      · next hne => rw [List.getElem?_set_ne hne]
    · rw [step_of_returned hstage]
      split
      · next heq => rw [left, ← heq, hstage]; rfl
      · rfl

lemma allReturned (h : Refused s₀ s) (hleft : ∀ r < s₀.probes.length, s.left r = 0) :
    s.AllReturned s₀.probes.length := by
  intro r hr
  have hlt : r < s.stages.length := by rwa [h.length_stages]
  have hstage := List.getElem?_eq_getElem hlt
  rcases h.stage _ (List.getElem_mem hlt) with hfresh | hreturned
  · have hzero := hleft r hr
    rw [left, hstage, hfresh] at hzero
    cases hzero
  · exact ⟨_, result?_eq_some_iff.2 (hstage.trans (congrArg some hreturned))⟩

/-- In a team of another size each member returns in its first step. -/
theorem eventually_allReturned (h : Refused s₀ s₀)
    (hsize : s₀.team.size ≠ s₀.shape.processes) (hfair : Fair order s₀.probes.length) :
    ∃ k, ∀ k', k ≤ k' → (s₀.run (begin order k')).AllReturned s₀.probes.length := by
  obtain ⟨k, -, hk, hleft⟩ := eventually_forall_eq_zero (s := s₀) (k := 0) hfair
    (P := Refused s₀) (fun s rank hs => hs.step hsize rank) (fun r s => s.left r)
    (by
      intro s rank hs r
      simp only [hs.left_step hsize]
      split <;> omega)
    (by
      intro s rank hs hne
      simp only [hs.left_step hsize, if_true]
      omega)
    h
  refine ⟨k, fun k' hk' => ?_⟩
  obtain ⟨hs, hzero⟩ := run_begin_of_le
    (P := fun s => Refused s₀ s ∧ ∀ r < s₀.probes.length, s.left r = 0)
    (by
      rintro s rank ⟨hs, hzero⟩
      refine ⟨hs.step hsize rank, fun r hr => ?_⟩
      rw [hs.left_step hsize, hzero r hr]
      split <;> rfl)
    hk' ⟨hk, hleft⟩
  exact hs.allReturned hzero

end Refused

/-! ## Every order -/

variable {shape : Shape} {file : ReportFile} {probes : List Probe} {files : FileTree}

lemma toNat_size_start (h : probes.length < UInt32.size) :
    (start shape file probes files).team.size.toNat = probes.length :=
  UInt32.toNat_ofNat_of_lt h

lemma consistent_start (hpos : 0 < probes.length) (h : probes.length < UInt32.size) :
    Consistent (start shape file probes files) (start shape file probes files) [] where
  shape_eq := rfl
  file_eq := rfl
  probes_eq := rfl
  size_eq := rfl
  length_senders := by
    have hsize : probes.length.toUInt32.toNat = probes.length := UInt32.toNat_ofNat_of_lt h
    simp only [start, Team.ofSize, List.length_replicate, hsize]
    omega
  length_stages := List.length_map _
  eq_contribution m hm := by cases hm
  nodup := List.nodup_nil
  member rank hrank o ho := by
    have hlt : rank.toNat < probes.length := Consistent.lt_of_getElem?_observations ho
    refine .fresh ?_ ?_ (fun m hm => by cases hm)
    · simp [start, hlt]
    · refine Team.canSend_ofSize (Nat.pos_of_ne_zero (toNat_ne_zero hrank)) ?_
      rwa [show probes.length.toUInt32.toNat = probes.length from UInt32.toNat_ofNat_of_lt h]
  coordinator := .fresh (by simp [start, hpos]) rfl rfl rfl

lemma refused_start : Refused (start shape file probes files) (start shape file probes files) where
  shape_eq := rfl
  size_eq := rfl
  probes_eq := rfl
  length_stages := List.length_map _
  queue_eq := rfl
  files_eq := rfl
  stage stage hstage := by
    simp only [start, List.mem_map] at hstage
    obtain ⟨_, _, rfl⟩ := hstage
    exact .inl rfl

/-- A validation by a team is right in every order of steps: every order in which the members keep
coming up ends, in a team of another size than expected with that failure everywhere and with
nothing sent or written, and otherwise as `Outcome` says. -/
theorem outcome_in_every_order (hpos : 0 < probes.length) (hcount : probes.length < UInt32.size)
    (hencodes : ∀ probe ∈ probes, ∀ b, probe.observe shape.probedVendor? = .ok b →
      (Binding.codec.encode b).length ≤ Codec.limit)
    (hwrites : ∀ verdict, ∃ after, (file.write verdict).run files = .ok () after) :
    (∀ order, Fair order probes.length → ∃ k, ∀ k', k ≤ k' →
      ((start shape file probes files).run (begin order k')).AllReturned probes.length) ∧
    ∀ ranks,
      (shape.processes.toNat ≠ probes.length →
        (start shape file probes files).channel ranks = [] ∧
          ((start shape file probes files).run ranks).files = files ∧
            ∀ r result, ((start shape file probes files).run ranks).result? r = some result →
              result = .error (.processCount shape.processes probes.length.toUInt32)) ∧
      (shape.processes.toNat = probes.length →
        Outcome (start shape file probes files) ((start shape file probes files).run ranks)
          ((start shape file probes files).channel ranks)) := by
  have hsize : (start shape file probes files).team.size.toNat = probes.length :=
    toNat_size_start hcount
  -- The size of the group fits the 32 bits of the session's counts.
  have hsize_iff : (start shape file probes files).team.size = shape.processes ↔
      shape.processes.toNat = probes.length := by
    rw [← UInt32.toNat_inj, hsize, eq_comm]
  have hs₀ : (start shape file probes files).Reliable := by
    refine ⟨hpos, hsize, fun b hb => ?_, hwrites⟩
    obtain ⟨probe, hprobe, hobserve⟩ := List.mem_map.1 hb
    exact hencodes probe hprobe b hobserve
  have hstart : Consistent (start shape file probes files) (start shape file probes files) [] :=
    consistent_start hpos hcount
  have hrefused : Refused (start shape file probes files) (start shape file probes files) :=
    refused_start
  refine ⟨fun order hfair => ?_, fun ranks => ⟨fun hne => ?_, fun heq => ?_⟩⟩
  · by_cases heq : shape.processes.toNat = probes.length
    · exact eventually_allReturned hstart hs₀ (hsize_iff.2 heq) hfair
    · exact hrefused.eventually_allReturned (fun h => heq (hsize_iff.1 h)) hfair
  · obtain ⟨hrun, hchannel⟩ := hrefused.run (fun h => hne (hsize_iff.1 h)) ranks
    refine ⟨hchannel, hrun.files_eq, fun r result hresult => ?_⟩
    rw [result?_eq_some_iff] at hresult
    rcases hrun.stage _ (List.mem_of_getElem? hresult) with hstage | hstage
    · cases hstage
    · cases hstage
      rfl
  -- Every prefix of the order keeps the invariant, so the outcome needs no fairness.
  · have hrun := hstart.run hs₀ (hsize_iff.2 heq) ranks
    exact hrun.outcome

/-- In a team of two whose second member fails to observe its binding, the coordinator returns that
failure in every order. -/
theorem aborted_in_every_order :
    let shape : Shape := ⟨2, 1, 1, 0, .none⟩
    let probe : Probe := ⟨.ok "host", .ok (.ofList [0]), fun _ => .ok []⟩
    let failing : Probe := ⟨.error (.probe (.reported "no cores")), .ok .empty, fun _ => .ok []⟩
    ∀ order, Fair order 2 → ∃ k,
      ((start shape ⟨"", "mpi"⟩ [probe, failing] ⟨[], []⟩).run (begin order k)).result? 0 =
        some (.error (.aborted 1 "Probe error: no cores")) := by
  intro shape probe failing order hfair
  have hencodes : ∀ p ∈ [probe, failing], ∀ b, p.observe shape.probedVendor? = .ok b →
      (Binding.codec.encode b).length ≤ Codec.limit := by
    intro p hp b hb
    rcases List.mem_cons.1 hp with rfl | hp
    · cases hb
      decide
    · obtain rfl := List.mem_singleton.1 hp
      cases hb
  obtain ⟨hends, houtcome⟩ := @outcome_in_every_order shape ⟨"", "mpi"⟩ [probe, failing] ⟨[], []⟩
    (by decide) (by decide) hencodes (fun verdict => ⟨_, rfl⟩)
  have hobs : (start shape ⟨"", "mpi"⟩ [probe, failing] ⟨[], []⟩).observations =
      [.ok ⟨"host", .ofList [0], []⟩, .error (.probe (.reported "no cores"))] := rfl
  obtain ⟨k, hk⟩ := hends order hfair
  obtain ⟨result, hresult⟩ := hk k (Nat.le_refl k) 0 (by decide)
  -- The coordinator's result names a member that observed nothing, and only rank 1 did.
  obtain ⟨rank, e, he, -, rfl⟩ := ((houtcome (begin order k)).2 rfl).aborted _ rfl
    (.probe (.reported "no cores")) (by simp [hobs]) result hresult
  refine ⟨k, ?_⟩
  rw [hobs] at he
  have hrank : rank.toNat = 1 := by
    rcases hr : rank.toNat with _ | _ | r
    · simp [hr] at he
    · rfl
    · simp [hr] at he
  obtain rfl : rank = 1 := UInt32.toNat_inj.1 hrank
  cases he
  exact hresult

end Session

end JobBinding.Validation

import JobBinding.Proofs.Gather.Account
import JobBinding.Proofs.Rendezvous.Place

/-!
# Rounds in turn

If no process begins a call before the coordinator has come to it, then the rounds of a group keep
in order, whatever the interleaving.

- `FilesShow`: what the rendezvous file shows while the coordinator is where it is.
- `Orderly`: the other processes are in the coordinator's round or have sent their message of the
  round before, and a listener has only contributions to its own round, each once.
- `Ended`: a gather that has ended well had a contribution of every process, and one that has failed
  had one of a process that has given up.

Each is kept by one step, and so by every run. That the rounds are in turn matters when a process
connects: if it has found an address, then the listener is one of its own round
(`Orderly.round_eq_of_found`).
-/

namespace JobBinding.Gather

namespace Series

attribute [local irreducible] Files.after Files.result

variable {α : Type} {m : Series α} {s s' : State α}

/-! ## What the rendezvous file shows -/

/-- What the rendezvous file shows while the coordinator is where it is. Only before the first call
it may be something else. -/
def FilesShow (m : Series α) (s : State α) : Prop :=
  match s.lead with
  | .ready => s.files = m.files ∧ s.results = [] ∨ m.rendezvous.Shows none s.files
  | .listening address _ => ∃ port now, address = (m.host 0, port) ∧
      m.rendezvous.Shows (some (m.record port now none)) s.files
  | .receiving address _ _ => ∃ port now, address = (m.host 0, port) ∧
      m.rendezvous.Shows (some (m.record port now none)) s.files
  | .gaveUp now => ∃ reason, m.reason s.results.length 0 = some reason ∧
      m.rendezvous.Shows (some (m.record 0 now (some reason))) s.files
  | .failed _ => m.rendezvous.Shows none s.files

lemma FilesShow.canPublish (hcan : m.rendezvous.CanPublish m.files) (h : m.FilesShow s)
    (hready : s.lead = .ready) : m.rendezvous.CanPublish s.files := by
  unfold FilesShow at h
  rw [hready] at h
  rcases h with ⟨hfiles, -⟩ | hshows
  · rw [hfiles]
    exact hcan
  · exact hshows.canPublish

/-- A coordinator that can publish before its first call can publish whenever it comes to it, so
that the file shows its record, and after it has left the file shows nothing. -/
theorem FilesShow.step (hcan : m.rendezvous.CanPublish m.files) (h : m.FilesShow s)
    (hstep : m.Step s s') : m.FilesShow s' := by
  cases hstep with
  | @publish port now hready hround hgathers =>
    have own : (m.record port now none).job = m.rendezvous.job := rfl
    obtain ⟨hresult, hshows⟩ := (h.canPublish hcan hready).publish own
    unfold FilesShow
    rw [hresult]
    exact ⟨port, now, rfl, hshows⟩
  | @giveUp reason now hready hround hgivesUp =>
    have own : (m.record 0 now (some reason)).job = m.rendezvous.job := rfl
    obtain ⟨hresult, hshows⟩ := (h.canPublish hcan hready).publish own
    unfold FilesShow
    rw [hresult]
    exact ⟨reason, hgivesUp, hshows⟩
  -- No file is touched and the listener stays open, so what the file shows is carried over.
  | accept hlistening haccount hopen hwaiting =>
    unfold FilesShow at h ⊢
    rw [hlistening] at h
    exact h
  | receive hreceiving hsent hbytes =>
    unfold FilesShow at h ⊢
    rw [hreceiving] at h
    exact h
  | @leave address taken result hlistening hover hresult =>
    unfold FilesShow at h ⊢
    rw [hlistening] at h
    obtain ⟨port, now, -, hshows⟩ := h
    -- The guard removes the record however it ends; only the disjunct of `FilesShow` changes.
    cases result with
    | ok values => exact .inr hshows.remove
    | error e => exact hshows.remove
  | _ => exact h

theorem ReachableWithin.filesShow {P : State α → Prop} (hcan : m.rendezvous.CanPublish m.files)
    (h : m.ReachableWithin P s) : m.FilesShow s := by
  induction h with
  | start _ => exact .inl ⟨rfl, rfl⟩
  | step _ hstep _ ih => exact ih.step hcan hstep

/-! ## The order of the rounds -/

/-- The contributions that are at the listener of the coordinator's round: those that it has read,
the one that it reads and those that wait. -/
def State.pending (s : State α) : List Contribution :=
  s.lead.taken.map (·.1) ++ s.lead.reading ++ s.waiting s.results.length

/-- The processes are in the coordinator's round, or have sent their message of the round before,
and the listener of a round has only contributions to this round, each once. -/
structure Orderly (m : Series α) (s : State α) : Prop where
  belongs : ∀ rank, s.work rank ≠ .ready → m.Belongs ⟨rank, s.round rank⟩
  length_le : ∀ rank, m.IsMember rank → s.results.length ≤ s.round rank + 1
  sent_of_lt : ∀ rank, m.IsMember rank → s.round rank < s.results.length → s.work rank = .sent
  round_eq_of_waiting : ∀ i, ∀ c ∈ s.waiting i, c.round = i
  waiting_eq_nil : ∀ i, s.results.length < i → s.waiting i = []
  round_eq : ∀ c ∈ s.pending, c.round = s.results.length ∧ s.round c.rank = s.results.length
  connected_or_sent : ∀ c ∈ s.pending, s.work c.rank = .connected ∨ s.work c.rank = .sent
  nodup : s.pending.Nodup
  sent : ∀ t ∈ s.lead.taken, s.work t.1.rank = .sent
  flatten_eq : ∀ t ∈ s.lead.taken, t.2.flatten = m.message t.1

lemma orderly_start : m.Orderly m.start where
  belongs _ h := absurd rfl h
  length_le _ _ := Nat.zero_le _
  sent_of_lt _ _ h := nomatch h
  round_eq_of_waiting _ _ h := nomatch h
  waiting_eq_nil _ _ := rfl
  round_eq _ h := nomatch h
  connected_or_sent _ h := nomatch h
  nodup := List.nodup_nil
  sent _ h := nomatch h
  flatten_eq _ h := nomatch h

lemma mem_pending_of_taken {t : Contribution × Connection} (h : t ∈ s.lead.taken) :
    t.1 ∈ s.pending :=
  List.mem_append_left _ (List.mem_append_left _ (List.mem_map_of_mem h))

/-- A contribution at the listener is one of a process of the group. -/
lemma Orderly.belongs_of_pending (h : m.Orderly s) {c : Contribution} (hc : c ∈ s.pending) :
    m.Belongs c := by
  obtain ⟨hround, hround'⟩ := h.round_eq c hc
  have hready : s.work c.rank ≠ .ready := by
    rcases h.connected_or_sent c hc with hwork | hwork <;> rw [hwork] <;> exact nofun
  have hbelongs := h.belongs c.rank hready
  rw [hround', ← hround] at hbelongs
  exact hbelongs

lemma Orderly.brings (h : m.Orderly s) : m.Brings s.results.length s.lead.taken where
  belongs t ht := h.belongs_of_pending (mem_pending_of_taken ht)
  round_eq t ht := (h.round_eq t.1 (mem_pending_of_taken ht)).1
  flatten_eq := h.flatten_eq
  nodup := by
    have hnodup := h.nodup
    rw [State.pending, List.append_assoc] at hnodup
    exact (List.nodup_append.1 hnodup).1

/-! ### One process -/

/-- A change of one process's stage keeps what holds of its stage. -/
lemma work_update {P : WorkStage → Prop} {work : UInt32 → WorkStage} {rank other : UInt32}
    {stage : WorkStage} (h : P (work other)) (hstage : P (work rank) → P stage) :
    P (Function.update work rank stage other) := by
  by_cases hother : other = rank
  · subst hother
    rw [Function.update_self]
    exact hstage h
  · rw [Function.update_of_ne hother]
    exact h

/-- A process goes on with its call. Once it is connected, it can only send. -/
lemma Orderly.setWork (h : m.Orderly s) {rank : UInt32} {stage : WorkStage}
    (hbelongs : m.Belongs ⟨rank, s.round rank⟩)
    (hsent : s.work rank = .sent → stage = .sent)
    (hconnected : s.work rank = .connected → stage = .connected ∨ stage = .sent) :
    m.Orderly { s with work := Function.update s.work rank stage } where
  belongs := (Function.forall_update_iff s.work fun other stage =>
    stage ≠ .ready → m.Belongs ⟨other, s.round other⟩).2
      ⟨fun _ => hbelongs, fun other _ => h.belongs other⟩
  length_le := h.length_le
  sent_of_lt other hmember hlt :=
    work_update (P := fun stage => stage = .sent) (h.sent_of_lt other hmember hlt) hsent
  round_eq_of_waiting := h.round_eq_of_waiting
  waiting_eq_nil := h.waiting_eq_nil
  round_eq := h.round_eq
  connected_or_sent c hc := by
    -- Once it is connected, a process can only send, so its contribution pins it to two stages.
    refine work_update (P := fun stage => stage = .connected ∨ stage = .sent)
      (h.connected_or_sent c hc) ?_
    rintro (hwork | hwork)
    · exact hconnected hwork
    · exact .inr (hsent hwork)
  nodup := h.nodup
  sent t ht := work_update (P := fun stage => stage = .sent) (h.sent t ht) hsent
  flatten_eq := h.flatten_eq

/-- A process that is about to connect is in the coordinator's round, if it is in no later one. -/
lemma Orderly.round_eq_of_found (h : m.Orderly s) (hturn : s.InTurn) {rank : UInt32}
    {address : Address} (hfound : s.work rank = .found address) :
    s.round rank = s.results.length := by
  have hready : s.work rank ≠ .ready := by
    rw [hfound]
    exact nofun
  by_contra hne
  have hlt : s.round rank < s.results.length := Nat.lt_of_le_of_ne (hturn rank) hne
  have hsent := h.sent_of_lt rank (h.belongs rank hready).isMember hlt
  rw [hfound] at hsent
  cases hsent

lemma Orderly.round_eq_of_waiting_update (h : m.Orderly s) {waiting : List Contribution}
    (hwaiting : ∀ c ∈ waiting, c.round = s.results.length) (i : Nat) :
    ∀ c ∈ Function.update s.waiting s.results.length waiting i, c.round = i :=
  (Function.forall_update_iff s.waiting fun i waiting => ∀ c ∈ waiting, c.round = i).2
    ⟨hwaiting, fun i _ => h.round_eq_of_waiting i⟩ i

lemma Orderly.waiting_update_eq_nil (h : m.Orderly s) {waiting : List Contribution} (i : Nat)
    (hlt : s.results.length < i) :
    Function.update s.waiting s.results.length waiting i = [] := by
  rw [Function.update_of_ne (Nat.ne_of_gt hlt)]
  exact h.waiting_eq_nil i hlt

/-- A process connects. -/
lemma Orderly.connect (h : m.Orderly s) (hturn : s.InTurn) {rank : UInt32} {address : Address}
    (hfound : s.work rank = .found address) :
    m.Orderly { s with
      work := Function.update s.work rank .connected
      waiting := Function.update s.waiting s.results.length
        (s.waiting s.results.length ++ [⟨rank, s.round rank⟩]) } := by
  -- The contribution has to be one to this round: a process that is behind has sent already, and
  -- `hturn` keeps it from being ahead.
  have hround := h.round_eq_of_found hturn hfound
  have hready : s.work rank ≠ .ready := by
    rw [hfound]
    exact nofun
  have hconnect : m.Orderly { s with work := Function.update s.work rank .connected } :=
    h.setWork (h.belongs rank hready) (by rw [hfound]; exact nofun) (by rw [hfound]; exact nofun)
  have hnew : (⟨rank, s.round rank⟩ : Contribution) ∉ s.pending := by
    intro hmem
    rcases h.connected_or_sent _ hmem with hwork | hwork
    · rw [hfound] at hwork
      cases hwork
    · rw [hfound] at hwork
      cases hwork
  -- Only the end of `pending` is new, so its fields split into the old contributions and this one.
  have hpending : State.pending { s with
      work := Function.update s.work rank .connected
      waiting := Function.update s.waiting s.results.length
        (s.waiting s.results.length ++ [⟨rank, s.round rank⟩]) } =
          s.pending ++ [⟨rank, s.round rank⟩] := by
    show _ ++ Function.update s.waiting s.results.length _ s.results.length = _
    rw [Function.update_self, State.pending, List.append_assoc _ _ [_]]
  have hwaiting : ∀ c ∈ s.waiting s.results.length ++ [⟨rank, s.round rank⟩],
      c.round = s.results.length := by
    intro c hc
    rcases List.mem_append.1 hc with hc | hc
    · exact h.round_eq_of_waiting _ c hc
    · rw [List.mem_singleton.1 hc]
      exact hround
  refine ⟨hconnect.belongs, h.length_le, hconnect.sent_of_lt, h.round_eq_of_waiting_update hwaiting,
    h.waiting_update_eq_nil, ?_, ?_, ?_, hconnect.sent, h.flatten_eq⟩
  · intro c hc
    rw [hpending] at hc
    rcases List.mem_append.1 hc with hc | hc
    · exact h.round_eq c hc
    · rw [List.mem_singleton.1 hc]
      exact ⟨hround, hround⟩
  · intro c hc
    rw [hpending] at hc
    rcases List.mem_append.1 hc with hc | hc
    · exact hconnect.connected_or_sent c hc
    · rw [List.mem_singleton.1 hc]
      exact .inl (Function.update_self _ _ _)
  · rw [hpending]
    exact List.nodup_append.2 ⟨h.nodup, List.pairwise_singleton _ _, fun c hc other hother heq =>
      hnew (List.mem_singleton.1 hother ▸ heq ▸ hc)⟩

/-- A process goes on to its next call when the coordinator has come to it. -/
lemma Orderly.next (h : m.Orderly s) {rank : UInt32}
    (hturn : s.round rank + 1 ≤ s.results.length) :
    m.Orderly { s with
      round := Function.update s.round rank (s.round rank + 1)
      work := Function.update s.work rank .ready } := by
  have hne {c : Contribution} (hc : c ∈ s.pending) : c.rank ≠ rank := by
    rintro rfl
    have := (h.round_eq c hc).2
    omega
  refine ⟨?_, ?_, ?_, h.round_eq_of_waiting, h.waiting_eq_nil, ?_, ?_, h.nodup, ?_, h.flatten_eq⟩
  · intro other hother
    have hother : Function.update s.work rank .ready other ≠ .ready := hother
    have hne : other ≠ rank := by
      rintro rfl
      exact hother (Function.update_self _ _ _)
    rw [Function.update_of_ne hne] at hother
    show m.Belongs ⟨other, Function.update s.round rank (s.round rank + 1) other⟩
    rw [Function.update_of_ne hne]
    exact h.belongs other hother
  -- `rank` was at most one round behind and has caught up; the others are where they were.
  · refine (Function.forall_update_iff s.round fun other round =>
      m.IsMember other → s.results.length ≤ round + 1).2 ⟨fun hmember => ?_, fun other _ =>
        h.length_le other⟩
    exact Nat.le_succ_of_le (h.length_le rank hmember)
  · intro other hmember hlt
    have hlt : Function.update s.round rank (s.round rank + 1) other < s.results.length := hlt
    have hne : other ≠ rank := by
      rintro rfl
      rw [Function.update_self] at hlt
      have := h.length_le other hmember
      omega
    rw [Function.update_of_ne hne] at hlt
    show Function.update s.work rank .ready other = .sent
    rw [Function.update_of_ne hne]
    exact h.sent_of_lt other hmember hlt
  · intro c hc
    show c.round = _ ∧ Function.update s.round rank (s.round rank + 1) c.rank = _
    rw [Function.update_of_ne (hne hc)]
    exact h.round_eq c hc
  · intro c hc
    show Function.update s.work rank .ready c.rank = _ ∨
      Function.update s.work rank .ready c.rank = _
    rw [Function.update_of_ne (hne hc)]
    exact h.connected_or_sent c hc
  · intro t ht
    show Function.update s.work rank .ready t.1.rank = .sent
    rw [Function.update_of_ne (hne (mem_pending_of_taken ht))]
    exact h.sent t ht

/-! ### The coordinator -/

/-- A coordinator that has read nothing from its listener is in order. -/
lemma Orderly.setLead (h : m.Orderly s) {lead : LeadStage} {files : FileTree}
    (htaken : lead.taken = []) (hreading : lead.reading = []) :
    m.Orderly { s with files := files, lead := lead } := by
  have hpending : State.pending { s with files := files, lead := lead } =
      s.waiting s.results.length := by
    show lead.taken.map (·.1) ++ lead.reading ++ _ = _
    rw [htaken, hreading]
    rfl
  -- What the old listener had taken falls away. Every field about `pending` passes to a part of it.
  have hsublist : (State.pending { s with files := files, lead := lead }).Sublist s.pending := by
    rw [hpending]
    exact List.sublist_append_right _ _
  refine ⟨h.belongs, h.length_le, h.sent_of_lt, h.round_eq_of_waiting, h.waiting_eq_nil,
    fun c hc => h.round_eq c (hsublist.subset hc),
    fun c hc => h.connected_or_sent c (hsublist.subset hc), h.nodup.sublist hsublist, ?_, ?_⟩
  · intro t ht
    have ht : t ∈ lead.taken := ht
    rw [htaken] at ht
    cases ht
  · intro t ht
    have ht : t ∈ lead.taken := ht
    rw [htaken] at ht
    cases ht

/-- The coordinator takes a connection that waits. -/
lemma Orderly.accept (h : m.Orderly s) {address : Address}
    {taken : List (Contribution × Connection)} {before after : List Contribution}
    {c : Contribution} (hlistening : s.lead = .listening address taken)
    (hwaiting : s.waiting s.results.length = before ++ c :: after) :
    m.Orderly { s with
      lead := .receiving address taken c
      waiting := Function.update s.waiting s.results.length (before ++ after) } := by
  -- The contribution leaves the queue: `pending` is permuted, and no field depends on its order.
  have hperm : (State.pending { s with
      lead := .receiving address taken c
      waiting := Function.update s.waiting s.results.length (before ++ after) }).Perm
        s.pending := by
    show (taken.map (·.1) ++ [c] ++ Function.update s.waiting s.results.length _
      s.results.length).Perm _
    rw [Function.update_self, State.pending, hlistening, hwaiting]
    show (taken.map (·.1) ++ [c] ++ (before ++ after)).Perm
      (taken.map (·.1) ++ [] ++ (before ++ c :: after))
    rw [List.append_nil, List.append_assoc]
    apply List.Perm.append_left
    show (c :: (before ++ after)).Perm (before ++ c :: after)
    exact List.perm_middle.symm
  have hleft : ∀ other ∈ before ++ after, other.round = s.results.length := by
    intro other hother
    apply h.round_eq_of_waiting
    rw [hwaiting]
    exact List.perm_middle.mem_iff.2 (List.mem_cons_of_mem c hother)
  have htaken : s.lead.taken = taken := by rw [hlistening]; rfl
  exact ⟨h.belongs, h.length_le, h.sent_of_lt, h.round_eq_of_waiting_update hleft,
    h.waiting_update_eq_nil, fun c hc => h.round_eq c (hperm.mem_iff.1 hc),
    fun c hc => h.connected_or_sent c (hperm.mem_iff.1 hc), hperm.nodup_iff.2 h.nodup,
    fun t ht => h.sent t (htaken ▸ ht), fun t ht => h.flatten_eq t (htaken ▸ ht)⟩

/-- The coordinator receives a message. -/
lemma Orderly.receive (h : m.Orderly s) {address : Address}
    {taken : List (Contribution × Connection)} {c : Contribution} {connection : Connection}
    (hreceiving : s.lead = .receiving address taken c) (hsent : s.HasSent c)
    (hbytes : connection.flatten = m.message c) :
    m.Orderly { s with lead := .listening address (taken ++ [(c, connection)]) } := by
  have hpending : State.pending { s with lead := .listening address (taken ++ [(c, connection)]) } =
      s.pending := by
    show (taken ++ [(c, connection)]).map (·.1) ++ [] ++ _ = _
    rw [State.pending, hreceiving, List.map_append, List.append_nil]
    rfl
  have htaken : s.lead.taken = taken := by rw [hreceiving]; rfl
  have hc : c ∈ s.pending := by
    rw [State.pending, hreceiving]
    exact List.mem_append_left _ (List.mem_append_right _ (List.mem_singleton_self c))
  -- A process in a later round has sent as well, but it has nothing at this listener.
  have hwork : s.work c.rank = .sent := by
    obtain ⟨hround, hround'⟩ := h.round_eq c hc
    rcases hsent with ⟨-, hwork⟩ | hlt
    · exact hwork
    · omega
  refine ⟨h.belongs, h.length_le, h.sent_of_lt, h.round_eq_of_waiting, h.waiting_eq_nil, ?_, ?_, ?_,
    ?_, ?_⟩
  · rw [hpending]
    exact h.round_eq
  · rw [hpending]
    exact h.connected_or_sent
  · rw [hpending]
    exact h.nodup
  · intro t ht
    rcases List.mem_append.1 ht with ht | ht
    · exact h.sent t (htaken ▸ ht)
    · rw [List.mem_singleton.1 ht]
      exact hwork
  · intro t ht
    rcases List.mem_append.1 ht with ht | ht
    · exact h.flatten_eq t (htaken ▸ ht)
    · rw [List.mem_singleton.1 ht]
      exact hbytes

/-- A gather ends because a process has given up, or it has a contribution of every process. -/
theorem Orderly.leave_cases (hcodec : m.codec.Faithful) (hfits : m.Fits) (h : m.Orderly s)
    {address : Address} {taken : List (Contribution × Connection)}
    (hlistening : s.lead = .listening address taken)
    (hover : ∀ account, m.account s.results.length taken = .ok account →
      account.isComplete = true) :
    (∃ rank reason, m.IsMember rank ∧ m.reason s.results.length rank = some reason ∧
      (m.account s.results.length taken >>= Collector.finish) = .error (.aborted rank reason)) ∨
    (∃ values, (m.account s.results.length taken >>= Collector.finish) = .ok values) ∧
      ∀ rank, m.IsMember rank → m.reason s.results.length rank = none ∧ s.work rank = .sent ∧
        s.round rank = s.results.length := by
  have htaken : s.lead.taken = taken := by rw [hlistening]; rfl
  have hbrings := h.brings
  rw [htaken] at hbrings
  -- The account holds what the processes of this round have sent, so it either ends with a reason,
  -- or each value in it is that of its rank.
  rcases account_cases hcodec hfits hbrings with
    ⟨t, ht, reason, hreason, herror⟩ | ⟨hnone, c, hc, hsound, hopen⟩
  · refine .inl ⟨t.1.rank, reason, (hbrings.belongs t ht).isMember, hreason, ?_⟩
    rw [herror]
    rfl
  · have hcomplete := hover c hc
    obtain ⟨values, hvalues⟩ := hsound.exists_of_isComplete hcomplete
    refine .inr ⟨⟨values, ?_⟩, fun rank hmember => ?_⟩
    · rw [hc]
      exact Collector.finish_eq_ok_iff.2 hvalues
    · have hcontributed : ∃ t ∈ taken, t.1.rank = rank := by
        by_contra hmissing
        have hfalse := hopen rank hmember fun t ht heq => hmissing ⟨t, ht, heq⟩
        rw [hcomplete] at hfalse
        cases hfalse
      obtain ⟨t, ht, rfl⟩ := hcontributed
      rw [← htaken] at ht
      exact ⟨hnone t (htaken ▸ ht), h.sent t ht, (h.round_eq t.1 (mem_pending_of_taken ht)).2⟩

/-- The coordinator returns values and comes to the next round. -/
lemma Orderly.advance (h : m.Orderly s) {files : FileTree} {values : List α}
    (hsent : ∀ rank, m.IsMember rank → s.work rank = .sent ∧ s.round rank = s.results.length) :
    m.Orderly { s with files := files, lead := .ready, results := s.results ++ [values] } := by
  have hlength : (s.results ++ [values]).length = s.results.length + 1 := by simp
  -- A new round begins with an empty listener, which settles all fields about `pending` at once.
  have hpending : State.pending { s with
      files := files, lead := .ready, results := s.results ++ [values] } = [] := by
    show s.waiting (s.results ++ [values]).length = []
    rw [hlength]
    exact h.waiting_eq_nil _ (Nat.lt_succ_self _)
  refine ⟨h.belongs, ?_, fun rank hmember _ => (hsent rank hmember).1, h.round_eq_of_waiting, ?_,
    ?_, ?_, ?_, nofun, nofun⟩
  · intro rank hmember
    show (s.results ++ [values]).length ≤ s.round rank + 1
    rw [hlength, (hsent rank hmember).2]
  · intro i hlt
    have hlt : (s.results ++ [values]).length < i := hlt
    exact h.waiting_eq_nil i (by omega)
  · rw [hpending]
    exact nofun
  · rw [hpending]
    exact nofun
  · rw [hpending]
    exact List.nodup_nil

/-! ### Steps -/

/-- Each step keeps the order, if no process is in a round that the coordinator has not come to. -/
theorem Orderly.step (hcodec : m.codec.Faithful) (hfits : m.Fits) (h : m.Orderly s)
    (hturn : s.InTurn) (hstep : m.Step s s') (hturn' : s'.InTurn) : m.Orderly s' := by
  cases hstep with
  | @publish port now hready hround hgathers =>
    cases (m.rendezvous.publish (m.record port now none)).result s.files <;>
      exact h.setLead rfl rfl
  | @giveUp reason now hready hround hgivesUp =>
    cases (m.rendezvous.publish (m.record 0 now (some reason))).result s.files <;>
      exact h.setLead rfl rfl
  | accept hlistening haccount hopen hwaiting => exact h.accept hlistening hwaiting
  | receive hreceiving hsent hbytes => exact h.receive hreceiving hsent hbytes
  | @leave address taken result hlistening hover hresult =>
    rcases h.leave_cases hcodec hfits hlistening hover with
      ⟨rank, reason, -, -, herror⟩ | ⟨⟨values, hvalues⟩, hsent⟩
    · cases hresult.symm.trans herror
      show m.Orderly { s with
        files := _, lead := .failed _, results := s.results ++ [] }
      rw [List.append_nil]
      exact h.setLead rfl rfl
    · cases hresult.symm.trans hvalues
      exact h.advance fun rank hmember => (hsent rank hmember).2
  | encode hready hrank hround =>
    exact h.setWork ⟨hrank, hround⟩ (by rw [hready]; exact nofun) (by rw [hready]; exact nofun)
  | @read rank hlooking =>
    have hbelongs := h.belongs rank (by rw [hlooking]; exact nofun)
    exact h.setWork hbelongs (by rw [hlooking]; exact nofun) (by rw [hlooking]; exact nofun)
  | connect hfound hlistens => exact h.connect hturn hfound
  | @refuse rank address hfound =>
    have hbelongs := h.belongs rank (by rw [hfound]; exact nofun)
    exact h.setWork hbelongs (by rw [hfound]; exact nofun) (by rw [hfound]; exact nofun)
  | @stray rank address hfound hnone =>
    have hbelongs := h.belongs rank (by rw [hfound]; exact nofun)
    exact h.setWork hbelongs (by rw [hfound]; exact nofun) (by rw [hfound]; exact nofun)
  | @send rank hconnected =>
    have hbelongs := h.belongs rank (by rw [hconnected]; exact nofun)
    exact h.setWork hbelongs (fun _ => rfl) (fun _ => .inr rfl)
  | @next rank hsent hgathered hround =>
    -- `hturn'` is about the state after the step: the process does not get ahead.
    have hnext := hturn' rank
    have hnext : Function.update s.round rank (s.round rank + 1) rank ≤ s.results.length := hnext
    rw [Function.update_self] at hnext
    exact h.next hnext

/-- In every run in which no process is in a round that the coordinator has not come to, the rounds
are in order. -/
theorem ReachableWithin.orderly (hcodec : m.codec.Faithful) (hfits : m.Fits)
    (h : m.ReachableWithin State.InTurn s) : m.Orderly s := by
  induction h with
  | start _ => exact orderly_start
  | step h hstep hturn ih => exact ih.step hcodec hfits h.of hstep hturn

/-! ## How gathers end -/

/-- What is known about the calls that have returned: a gather that has ended well had a
contribution of every process, and one that has failed had one of a process that has given up. -/
structure Ended (m : Series α) (s : State α) : Prop where
  gathers : s.lead.address? ≠ none → m.reason s.results.length 0 = none
  gathered : ∀ i < s.results.length, ∀ rank, rank = 0 ∨ m.IsMember rank → m.reason i rank = none
  failed : ∀ e, s.lead = .failed e → ∃ rank reason, m.IsMember rank ∧
    m.reason s.results.length rank = some reason ∧ e = .aborted rank reason

/-- Each step keeps what is known about the calls that have returned. -/
theorem Ended.step (hcodec : m.codec.Faithful) (hfits : m.Fits)
    (hcan : m.rendezvous.CanPublish m.files) (horderly : m.Orderly s) (hfiles : m.FilesShow s)
    (h : m.Ended s) (hstep : m.Step s s') : m.Ended s' := by
  cases hstep with
  | @publish port now hready hround hgathers =>
    have own : (m.record port now none).job = m.rendezvous.job := rfl
    have hresult := ((hfiles.canPublish hcan hready).publish own).1
    rw [hresult]
    exact ⟨fun _ => hgathers, h.gathered, nofun⟩
  | @giveUp reason now hready hround hgivesUp =>
    have own : (m.record 0 now (some reason)).job = m.rendezvous.job := rfl
    have hresult := ((hfiles.canPublish hcan hready).publish own).1
    rw [hresult]
    exact ⟨fun hopen => absurd rfl hopen, h.gathered, nofun⟩
  | @accept address taken account before after c hlistening haccount hopen hwaiting =>
    have hgathers := h.gathers (by rw [hlistening]; exact nofun)
    exact ⟨fun _ => hgathers, h.gathered, nofun⟩
  | @receive address taken c connection hreceiving hsent hbytes =>
    have hgathers := h.gathers (by rw [hreceiving]; exact nofun)
    exact ⟨fun _ => hgathers, h.gathered, nofun⟩
  | @leave address taken result hlistening hover hresult =>
    have hgathers := h.gathers (by rw [hlistening]; exact nofun)
    rcases horderly.leave_cases hcodec hfits hlistening hover with
      ⟨rank, reason, hmember, hreason, herror⟩ | ⟨⟨values, hvalues⟩, hnone⟩
    -- A gather fails with the reason of one of its own round, so no result is added.
    · cases hresult.symm.trans herror
      have hresults : s.results ++ resultsOf (.error (.aborted rank reason) :
          Except Failure (List α)) = s.results := List.append_nil _
      rw [hresults]
      refine ⟨fun hopen => absurd rfl hopen, h.gathered, ?_⟩
      rintro _ ⟨⟩
      exact ⟨rank, reason, hmember, hreason, rfl⟩
    · cases hresult.symm.trans hvalues
      refine ⟨fun hopen => absurd rfl hopen, fun i hi other hother => ?_, nofun⟩
      have hi : i < (s.results ++ [values]).length := hi
      rw [List.length_append, List.length_singleton] at hi
      -- The account of the new result is complete only if nobody of the group has given up.
      rcases Nat.lt_succ_iff_lt_or_eq.1 hi with hi | rfl
      · exact h.gathered i hi other hother
      · rcases hother with rfl | hother
        · exact hgathers
        · exact (hnone other hother).1
  | _ => exact ⟨h.gathers, h.gathered, h.failed⟩

theorem ReachableWithin.ended (hcodec : m.codec.Faithful) (hfits : m.Fits)
    (hcan : m.rendezvous.CanPublish m.files) (h : m.ReachableWithin State.InTurn s) :
    m.Ended s := by
  induction h with
  | start _ => exact ⟨fun hopen => absurd rfl hopen, nofun, nofun⟩
  | step h hstep _ ih =>
    exact ih.step hcodec hfits hcan (h.orderly hcodec hfits) (h.filesShow hcan) hstep

/-! ## Runs -/

section Runs

variable {P : State α → Prop}

/-- A coordinator that can publish comes to listen. -/
lemma ReachableWithin.published (h : m.ReachableWithin P s) (hready : s.lead = .ready)
    (hround : s.results.length < m.rounds) (hgathers : m.reason s.results.length 0 = none)
    (hcan : m.rendezvous.CanPublish s.files) (port : UInt16) (now : Instant)
    (hP : ∀ t : State α, t.round = s.round → t.results = s.results → P t) :
    m.ReachableWithin P { s with
      files := (m.rendezvous.publish (m.record port now none)).after s.files
      lead := .listening (m.host 0, port) [] } := by
  have own : (m.record port now none).job = m.rendezvous.job := rfl
  have hresult := (hcan.publish own).1
  have hpublished := h.step (@Step.publish _ m _ port now hready hround hgathers) (hP _ rfl rfl)
  rw [hresult] at hpublished
  exact hpublished

/-- A process that finds where the coordinator listens can send its message. -/
lemma ReachableWithin.contributed (h : m.ReachableWithin P s) (rank : UInt32) {address : Address}
    {payload : Payload} (hready : s.work rank = .ready) (hrank : m.IsMember rank)
    (hround : s.round rank < m.rounds) (hpayload : m.payload ⟨rank, s.round rank⟩ = .ok payload)
    (hread : afterReading (Worker.consider (m.participant (s.round rank) rank)
      (m.rendezvous.read.result s.files)) = .found address)
    (hlistens : s.lead.address? = some address)
    (hP : ∀ t : State α, t.round = s.round → t.results = s.results → P t) :
    m.ReachableWithin P { s with
      work := Function.update s.work rank .sent
      waiting := Function.update s.waiting s.results.length
        (s.waiting s.results.length ++ [⟨rank, s.round rank⟩]) } := by
  -- The four steps of the process in a row: each replaces the stage before.
  have h₁ := h.step (Step.encode hready hrank hround) (hP _ rfl rfl)
  rw [hpayload] at h₁
  have h₂ := h₁.step (Step.read (Function.update_self rank _ s.work)) (hP _ rfl rfl)
  simp only [Function.update_idem, hread] at h₂
  have h₃ := h₂.step (Step.connect (Function.update_self rank _ s.work) hlistens) (hP _ rfl rfl)
  simp only [Function.update_idem] at h₃
  have h₄ := h₃.step (Step.send (Function.update_self rank _ s.work)) (hP _ rfl rfl)
  simp only [Function.update_idem] at h₄
  exact h₄

/-- The coordinator can take the connection that has waited longest, once its message is sent. -/
lemma ReachableWithin.received (h : m.ReachableWithin P s) {address : Address}
    {taken : List (Contribution × Connection)} {account : Collector α} {c : Contribution}
    {rest : List Contribution} (hlistening : s.lead = .listening address taken)
    (haccount : m.account s.results.length taken = .ok account) (hopen : account.isComplete = false)
    (hwaiting : s.waiting s.results.length = c :: rest) (hsent : s.HasSent c)
    (hP : ∀ t : State α, t.round = s.round → t.results = s.results → P t) :
    m.ReachableWithin P { s with
      lead := .listening address (taken ++ [(c, [m.message c])])
      waiting := Function.update s.waiting s.results.length rest } := by
  have hwaiting : s.waiting s.results.length = [] ++ c :: rest := hwaiting
  have hbytes : List.flatten [m.message c] = m.message c := List.append_nil _
  have h₁ := h.step (Step.accept hlistening haccount hopen hwaiting) (hP _ rfl rfl)
  exact h₁.step (Step.receive rfl hsent hbytes) (hP _ rfl rfl)

end Runs

/-! ### Groups that count -/

/-- When everything happens, unless said otherwise. -/
def noon : Instant :=
  ⟨1700000000, 11, by decide, by decide⟩

/-- A group that meets in an empty directory. Its processes contribute numbers unless they give up,
then in each round for the same reason. -/
def counting (size : UInt32) (hsize : 2 ≤ size.toNat) (rounds : Nat) (started : UInt32 → Instant)
    (reason : UInt32 → Option String) : Series UInt32 where
  directory := ""
  action := "mpi"
  key := "42"
  size := size
  two_le_size := hsize
  rounds := rounds
  host _ := "a001"
  started _ rank := started rank
  value round rank := 10 * UInt32.ofNat round + rank
  reason _ rank := reason rank
  codec := Codec.u32
  files := ⟨[], []⟩

lemma two_le_toNat_two : 2 ≤ (2 : UInt32).toNat := by
  decide

lemma two_le_toNat_three : 2 ≤ (3 : UInt32).toNat := by
  decide

section Counting

variable {size : UInt32} {hsize : 2 ≤ size.toNat} {rounds : Nat} {started : UInt32 → Instant}
  {reason : UInt32 → Option String}

lemma canPublish_counting :
    (counting size hsize rounds started reason).rendezvous.CanPublish
      (counting size hsize rounds started reason).files := by
  have hcan : Rendezvous.CanPublish ⟨"", "mpi", "42"⟩ ⟨[], []⟩ :=
    ⟨⟨"42", "a001", 4001, 2, noon, none⟩, eq_ok_of_isOk (by decide +kernel)⟩
  exact hcan

/-- What the processes send fits a frame if the reasons of those that give up do. -/
lemma fits_counting
    (hreason : ∀ rank why, reason rank = some why → (Payload.abort why).size ≤ Codec.limit - 16) :
    (counting size hsize rounds started reason).Fits := by
  intro c _
  cases hc : reason c.rank with
  | some why =>
    have hpayload : (counting size hsize rounds started reason).payload c = .ok (.abort why) :=
      payload_of_reason hc
    rw [hpayload]
    exact @exists_toConnection ⟨c.rank, .abort why⟩ (hreason c.rank why hc)
  | none =>
    let value := 10 * UInt32.ofNat c.round + c.rank
    have hpayload : (counting size hsize rounds started reason).payload c =
        .ok (.value (Codec.u32.encode value)) := by
      have hc : (counting size hsize rounds started reason).reason c.round c.rank = none := hc
      rw [payload, hc]
      rfl
    have hvalue : (Payload.value (Codec.u32.encode value)).size ≤ Codec.limit - 16 := by
      rw [Payload.size, Codec.u32, Codec.length_littleEndian]
      decide
    rw [hpayload]
    exact @exists_toConnection ⟨c.rank, .value (Codec.u32.encode value)⟩ hvalue

end Counting

end Series

end JobBinding.Gather

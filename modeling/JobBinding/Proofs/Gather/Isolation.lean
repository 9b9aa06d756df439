import JobBinding.Proofs.Gather.Meeting
import JobBinding.Proofs.Gather.Worker
import JobBinding.Proofs.Rendezvous.File

/-!
# Jobs that meet do not mix

Whatever the jobs do to the rendezvous file that they share, a coordinator that returns values
returns the values of its own job, one of each process, by rank (`values_of_returned`).

`Isolated` is the invariant of a meeting. A record in any file names an address that belongs to the
job it names, so a worker, which uses only records of its own job, only finds addresses of its own
job. No address belongs to two jobs, so the connections that wait at a listener are those of its
own workers. What a coordinator has taken are therefore contributions of its own group, and from
there on the account of a coordinator decides (`Collector.Agrees`).
-/

namespace JobBinding.Gather.Meeting

attribute [local irreducible] Files.after Files.result

variable {ι α : Type} {m : Meeting ι α} {s s' : State ι α}

/-! ## The invariant -/

/-- Whether some bytes, if they are a record of a coordinator that did not give up, name an address
of the job that the record names. -/
def IsTruthful (m : Meeting ι α) (s : State ι α) (content : List UInt8) : Prop :=
  ∀ record, Record.ofBytes content = .ok record → record.aborted = none →
    ∀ j, record.job = (m.job j).key → m.Owns s j (record.host, record.port)

/-- Whether each of some connections brings what a process of a job sends. -/
def AreOwn (m : Meeting ι α) (j : ι) (taken : List Connection) : Prop :=
  ∀ connection ∈ taken, ∃ rank, connection.flatten = m.message (j, rank)

/-- Whether a coordinator has dealt with connections of its own job only. -/
def IsOwn (m : Meeting ι α) (j : ι) : CoordinatorStage ι α → Prop
  | .ready => True
  | .listening taken => m.AreOwn j taken
  | .receiving taken sender => m.AreOwn j taken ∧ sender.1 = j
  | .returned result => ∀ values, result = .ok values → ∃ taken c, m.AreOwn j taken ∧
      m.account j taken = .ok c ∧ c.isComplete = true ∧ c.finish = .ok values

/-- No job has anything to do with another one, but for the file. -/
structure Isolated (m : Meeting ι α) (s : State ι α) : Prop where
  files : s.files.Holds (m.IsTruthful s)
  listener_eq_none : ∀ j, s.coordinator j = .ready → s.listener j = none
  eq_of_owns : ∀ i j address, m.Owns s i address → s.listener j = some address → i = j
  found : ∀ w address, s.worker w = .found address → m.Owns s w.1 address
  queue : ∀ k, ∀ w ∈ s.queue k, w.1 = k
  coordinator : ∀ j, m.IsOwn j (s.coordinator j)

lemma isolated_start : m.Isolated m.start where
  files place content hplace record hrecord haborted _ hjob :=
    .inr ⟨place, content, record, hplace, hrecord, hjob, haborted, rfl⟩
  listener_eq_none _ _ := rfl
  eq_of_owns _ _ _ _ h := nomatch h
  found _ _ h := nomatch h
  queue _ _ h := nomatch h
  coordinator _ := trivial

/-! ## One process -/

lemma isOwn_afterPublishing (j : ι) (result : Except Failure Unit) :
    m.IsOwn j (afterPublishing result) := by
  cases result with
  | ok u => exact fun _ h => nomatch h
  | error e => exact fun _ h => nomatch h

lemma afterPublishing_ne_ready (result : Except Failure Unit) :
    (afterPublishing result : CoordinatorStage ι α) ≠ .ready := by
  cases result <;> exact nofun

lemma afterEncoding_ne_found (result : Except Failure (List UInt8)) (address : Address) :
    afterEncoding result ≠ .found address := by
  cases result <;> exact nofun

/-- A worker that delivers in one go finds the address and sends the message that it does step by
step. -/
theorem afterReading_of_contribute {w : Process ι} {network : Network} {d : Worker.Delivery}
    (h : (Worker.contribute (m.participant w) m.codec ((m.job w.1).value w.2) network).result
      s.files = .ok (some d)) :
    afterReading (Worker.consider (m.participant w)
      ((m.participant w).rendezvous.read.result s.files)) = .found (d.host, d.port) ∧
        d.bytes = m.message w := by
  obtain ⟨hconnect, -, hbytes⟩ := Worker.of_contribute h
  rw [hconnect]
  exact ⟨rfl, hbytes⟩

/-- A worker connects only to the address in a record that did not give up. -/
lemma exists_of_afterReading {p : Participant} {found : Except Failure (Option Record)}
    {address : Address} (h : afterReading (Worker.consider p found) = .found address) :
    ∃ record, found = .ok (some record) ∧ record.aborted = none ∧
      (record.host, record.port) = address := by
  rcases found with e | _ | record
  · cases h
  · cases h
  simp only [Worker.consider, Worker.considerRecord] at h
  split at h
  · split at h <;> cases h
  · next haborted =>
    split at h
    · cases h
    · cases h
      exact ⟨record, rfl, haborted, rfl⟩

/-- An address that a worker finds belongs to its job. -/
lemma Isolated.owns_of_read (h : m.Isolated s) {w : Process ι} {address : Address}
    (hfound : afterReading (Worker.consider (m.participant w)
      ((m.participant w).rendezvous.read.result s.files)) = .found address) :
    m.Owns s w.1 address := by
  obtain ⟨record, hread, haborted, rfl⟩ := exists_of_afterReading hfound
  obtain ⟨place, content, hplace, hrecord, hjob⟩ := Rendezvous.exists_of_read hread
  exact h.files place content hplace record hrecord haborted w.1 hjob

/-- A coordinator that returns values has them from connections of its own job. -/
lemma isOwn_returned {j : ι} {taken : List Connection} (hown : m.AreOwn j taken)
    (hover : ∀ c, m.account j taken = .ok c → c.isComplete = true) :
    m.IsOwn j (.returned (m.account j taken >>= Collector.finish)) := by
  intro values hvalues
  obtain ⟨c, haccount, hfinish⟩ := bind_eq_ok_iff.1 hvalues
  exact ⟨taken, c, hown, haccount, hover c haccount, hfinish⟩

/-- The account of a coordinator that has taken connections of its own job agrees with the values of
the job. -/
lemma agrees_of_account (hcodec : m.codec.Faithful) {j : ι} {taken : List Connection}
    {c : Collector α} (hown : m.AreOwn j taken) (haccount : m.account j taken = .ok c) :
    c.Agrees (m.job j).value (m.job j).size.toNat := by
  have hpos : 0 < (m.job j).size.toNat := by
    have := (m.job j).two_le_size
    omega
  exact (Collector.agrees_start hpos (m.job j).value).serve hcodec hown haccount

lemma Isolated.setFiles (h : m.Isolated s) {files : FileTree}
    (hfiles : files.Holds (m.IsTruthful s)) : m.Isolated { s with files := files } :=
  { h with files := hfiles }

variable [DecidableEq ι]

/-! ## A new listener -/

section Publish

variable {j : ι} {new : Address}

/-- A job that opens its listener takes no address from anybody. -/
lemma Owns.publish (hnone : s.listener j = none)
    (hs' : s'.listener = Function.update s.listener j (some new)) {i : ι} {address : Address}
    (h : m.Owns s i address) : m.Owns s' i address := by
  rcases h with h | h
  · have hne : i ≠ j := by
      rintro rfl
      rw [hnone] at h
      cases h
    exact .inl (by rw [hs', Function.update_of_ne hne, h])
  · exact .inr h

/-- Only the address of the listener is new, and only to its job. -/
lemma Owns.of_publish (hs' : s'.listener = Function.update s.listener j (some new)) {i : ι}
    {address : Address} (h : m.Owns s' i address) :
    m.Owns s i address ∨ i = j ∧ address = new := by
  rcases h with h | h
  · by_cases hi : i = j
    · rw [hs', hi, Function.update_self, Option.some.injEq] at h
      exact .inr ⟨hi, h.symm⟩
    · rw [hs', Function.update_of_ne hi] at h
      exact .inl (.inl h)
  · exact .inl (.inr h)

/-- The text of a record that a coordinator publishes names the address of its listener. -/
lemma isTruthful_record {port : UInt16} {now : Instant}
    (hs' : s'.listener = Function.update s.listener j (some ((m.job j).host 0, port))) :
    m.IsTruthful s'
      (Text.Utf8.encode ((m.participant (j, 0)).record port now none).render) := by
  intro record hrecord _ i hjob
  rw [Record.ofBytes_render] at hrecord
  cases hrecord
  have hji : j = i := m.key_injective hjob
  rw [← hji]
  exact .inl (by rw [hs', Function.update_self]; rfl)

/-- Publishing leaves files whose records name addresses of their jobs. -/
lemma Isolated.files_publish (h : m.Isolated s) {port : UInt16} {now : Instant}
    (hnone : s.listener j = none)
    (hs' : s'.listener = Function.update s.listener j (some ((m.job j).host 0, port))) :
    ((m.publish j port now).after s.files).Holds (m.IsTruthful s') := by
  have hkeeps : Files.Keeps (m.IsTruthful s') (m.publish j port now) :=
    Rendezvous.keeps_publish (isTruthful_record hs')
  refine hkeeps s.files (h.files.mono ?_)
  intro content hcontent record hrecord haborted i hi
  exact (hcontent record hrecord haborted i hi).publish hnone hs'

/-- A new listener whose address belongs to no other job keeps the jobs apart. -/
lemma Isolated.eq_of_owns_publish (h : m.Isolated s)
    (hs' : s'.listener = Function.update s.listener j (some new))
    (hfree : ∀ i, m.Owns s i new → i = j) (i k : ι) (address : Address)
    (howns : m.Owns s' i address) (hlistener : s'.listener k = some address) : i = k := by
  by_cases hk : k = j
  · rw [hs', hk, Function.update_self, Option.some.injEq] at hlistener
    subst hlistener
    rcases howns.of_publish hs' with howns | ⟨hi, -⟩
    · rw [hk, hfree i howns]
    · rw [hk, hi]
  · rw [hs', Function.update_of_ne hk] at hlistener
    -- An address that a job has already cannot be the new one.
    rcases howns.of_publish hs' with howns | ⟨-, rfl⟩
    · exact h.eq_of_owns i k address howns hlistener
    · exact absurd (hfree k (.inl hlistener)) hk

end Publish

/-! ## Changes that keep the jobs apart -/

lemma Isolated.setCoordinator (h : m.Isolated s) {j : ι} (stage : CoordinatorStage ι α)
    (hready : stage ≠ .ready) (hstage : m.IsOwn j stage) :
    m.Isolated { s with coordinator := Function.update s.coordinator j stage } where
  files := h.files
  listener_eq_none :=
    (Function.forall_update_iff s.coordinator fun k stage => stage = .ready → s.listener k = none).2
      ⟨fun hstage => absurd hstage hready, fun k _ => h.listener_eq_none k⟩
  eq_of_owns := h.eq_of_owns
  found := h.found
  queue := h.queue
  coordinator := (Function.forall_update_iff _ _).2 ⟨hstage, fun k _ => h.coordinator k⟩

lemma Isolated.setQueue (h : m.Isolated s) {k : ι} {waiting : List (Process ι)}
    (hwaiting : ∀ w ∈ waiting, w.1 = k) :
    m.Isolated { s with queue := Function.update s.queue k waiting } :=
  { h with
    queue := (Function.forall_update_iff s.queue fun k waiting => ∀ w ∈ waiting, w.1 = k).2
      ⟨hwaiting, fun l _ => h.queue l⟩ }

lemma Isolated.setWorker (h : m.Isolated s) {w : Process ι} (stage : WorkerStage)
    (hstage : ∀ address, stage = .found address → m.Owns s w.1 address) :
    m.Isolated { s with worker := Function.update s.worker w stage } :=
  { h with
    found := (Function.forall_update_iff s.worker fun w stage =>
      ∀ address, stage = .found address → m.Owns s w.1 address).2 ⟨hstage, fun v _ => h.found v⟩ }

/-! ## Steps -/

/-- A coordinator that opens its listener keeps the jobs apart, whether it can publish or not. -/
lemma Isolated.publish (h : m.Isolated s) {j : ι} {port : UInt16} {now : Instant}
    (hready : s.coordinator j = .ready)
    (hfree : ∀ i, m.Owns s i ((m.job j).host 0, port) → i = j) :
    m.Isolated { s with
      files := (m.publish j port now).after s.files
      coordinator := Function.update s.coordinator j
        (afterPublishing ((m.publish j port now).result s.files))
      listener := Function.update s.listener j (some ((m.job j).host 0, port)) } := by
  have hnone : s.listener j = none := h.listener_eq_none j hready
  refine ⟨h.files_publish hnone rfl, ?_, h.eq_of_owns_publish rfl hfree, ?_, h.queue, ?_⟩
  · refine (Function.forall_update_iff s.coordinator fun k stage =>
      stage = .ready → Function.update s.listener j _ k = none).2
        ⟨fun hstage => absurd hstage (afterPublishing_ne_ready _), fun k hk hstage => ?_⟩
    rw [Function.update_of_ne hk]
    exact h.listener_eq_none k hstage
  · exact fun w address hfound => (h.found w address hfound).publish hnone rfl
  · exact (Function.forall_update_iff _ _).2
      ⟨isOwn_afterPublishing j _, fun k _ => h.coordinator k⟩

/-- Each step keeps the jobs apart. -/
theorem Isolated.step (h : m.Isolated s) (hstep : Step m s s') : m.Isolated s' := by
  cases hstep with
  | publish hready hfree => exact h.publish hready hfree
  | @accept j taken c before after w hlistening haccount hopen hqueue =>
    have hown := h.coordinator j
    rw [hlistening] at hown
    -- Whoever waits at a listener is a process of its job.
    have hwaiting := h.queue j
    rw [hqueue] at hwaiting
    have hsender : w.1 = j := hwaiting w (by simp)
    refine (h.setCoordinator (.receiving taken w) nofun ⟨hown, hsender⟩).setQueue ?_
    refine fun v hv => hwaiting v ?_
    rcases List.mem_append.1 hv with hv | hv
    · exact List.mem_append_left _ hv
    · exact List.mem_append_right _ (List.mem_cons_of_mem w hv)
  | @receive j taken w connection hreceiving hsent hbytes =>
    have hown := h.coordinator j
    rw [hreceiving] at hown
    -- A listener only takes processes of its own job, so this is a contribution to it.
    obtain ⟨htaken, rfl⟩ := hown
    refine h.setCoordinator (.listening _) nofun fun other hother => ?_
    rcases List.mem_append.1 hother with hother | hother
    · exact htaken other hother
    · rw [List.mem_singleton.1 hother]
      exact ⟨w.2, hbytes⟩
  | @leave j taken hlistening hover =>
    have hown := h.coordinator j
    rw [hlistening] at hown
    -- The record removed may be another job's, but removing makes no untruthful record.
    have hremoved : ((m.participant (j, 0)).rendezvous.remove.after s.files).Holds
        (m.IsTruthful s) := Rendezvous.keeps_remove s.files h.files
    exact (h.setFiles hremoved).setCoordinator (.returned _) nofun (isOwn_returned hown hover)
  | encode hready hrank =>
    exact h.setWorker _ fun address haddress => absurd haddress (afterEncoding_ne_found _ address)
  | read hlooking => exact h.setWorker _ fun address => h.owns_of_read
  | @connect w address k hfound hlistens =>
    -- The worker may have read the address long ago, but it still belongs to no other job.
    have hjob : w.1 = k := h.eq_of_owns w.1 k address (h.found w address hfound) hlistens.1
    refine (h.setWorker .connected nofun).setQueue fun v hv => ?_
    rcases List.mem_append.1 hv with hv | hv
    · exact h.queue k v hv
    · rw [List.mem_singleton.1 hv, hjob]
  | refuse hfound => exact h.setWorker .looking nofun
  | stray hfound hnone => exact h.setWorker .connected nofun
  | send hconnected => exact h.setWorker .sent nofun

/-- In every interleaving, the jobs stay apart. -/
theorem Reachable.isolated (h : m.Reachable s) : m.Isolated s := by
  induction h with
  | start => exact isolated_start
  | step _ hstep ih => exact ih.step hstep

/-! ## Runs -/

/-- A worker that reads the address of a job that listens can send its message to it. -/
lemma Reachable.exists_sent (h : m.Reachable s) {w : Process ι} {k : ι} {address : Address}
    (hready : s.worker w = .ready) (hrank : w.2 ≠ 0 ∧ w.2 < (m.job w.1).size)
    (hencode : afterEncoding (m.codec.serialize ((m.job w.1).value w.2)) = .looking)
    (hread : afterReading (Worker.consider (m.participant w)
      ((m.participant w).rendezvous.read.result s.files)) = .found address)
    (hlistens : Listens s k address) :
    ∃ s', m.Reachable s' ∧ s'.coordinator k = s.coordinator k ∧ s'.queue k = s.queue k ++ [w] ∧
      s'.worker w = .sent := by
  have h₁ := h.step (Step.encode hready hrank)
  have h₂ := h₁.step (Step.read (w := w) ((Function.update_self _ _ _).trans hencode))
  have h₃ := h₂.step (Step.connect (w := w) ((Function.update_self _ _ _).trans hread) hlistens)
  have h₄ := h₃.step (Step.send (w := w) (Function.update_self _ _ _))
  exact ⟨_, h₄, rfl, Function.update_self _ _ _, Function.update_self _ _ _⟩

/-- A coordinator that waits for one message only can take it and return. -/
lemma Reachable.exists_returned (h : m.Reachable s) {j : ι} {w : Process ι} {c c' : Collector α}
    (hlistening : s.coordinator j = .listening []) (hqueue : s.queue j = [w])
    (hsent : s.worker w = .sent) (haccount : m.account j [] = .ok c) (hopen : c.isComplete = false)
    (haccount' : m.account j [[m.message w]] = .ok c') (hcomplete : c'.isComplete = true) :
    ∃ s', m.Reachable s' ∧ s'.coordinator j = .returned c'.finish := by
  have hwaiting : s.queue j = [] ++ w :: [] := hqueue
  have h₁ := h.step (Step.accept hlistening haccount hopen hwaiting)
  have hbytes : List.flatten [m.message w] = m.message w := List.append_nil _
  have h₂ := h₁.step (Step.receive (Function.update_self _ _ _) hsent hbytes)
  have hover : ∀ d, m.account j [[m.message w]] = .ok d → d.isComplete = true := by
    intro d hd
    cases hd.symm.trans haccount'
    exact hcomplete
  have h₃ := h₂.step (Step.leave (Function.update_self _ _ _) hover)
  refine ⟨_, h₃, ?_⟩
  show Function.update _ j _ j = _
  rw [Function.update_self, List.nil_append, haccount']
  rfl

/-! ### Two jobs that share a file -/

/-- Two jobs of two processes each whose keys give the same file name. -/
def sharedFile : Meeting Bool UInt32 where
  job j :=
    { key := if j then "1/2" else "1_2"
      size := 2
      two_le_size := by decide
      host := fun _ => "a001"
      started := fun _ => ⟨100, 5, by decide, by decide⟩
      value := fun rank => rank * 10 }
  key_injective := by
    show ∀ i j : Bool, (if i then "1/2" else "1_2") = (if j then "1/2" else "1_2") → i = j
    decide
  directory := ""
  action := "mpi"
  codec := Codec.u32
  files := ⟨[], []⟩

lemma not_isLeftover_sharedFile (j : Bool) (address : Address) :
    ¬ sharedFile.IsLeftover j address := by
  rintro ⟨place, content, record, hplace, -⟩
  by_cases hroot : place = []
  · rw [hroot] at hplace
    cases hplace
  · simp [sharedFile, FileTree.get?, hroot] at hplace

lemma owns_sharedFile {s : State Bool UInt32} {j : Bool} {address : Address}
    (h : sharedFile.Owns s j address) : s.listener j = some address :=
  h.resolve_right (not_isLeftover_sharedFile j address)

def sharedFileTime : Instant :=
  ⟨101, 7, by decide, by decide⟩

/-- The files after both jobs have published, the second one over the record of the first. -/
def sharedFileTree : FileTree :=
  (sharedFile.publish false 4002 sharedFileTime).after
    ((sharedFile.publish true 4001 sharedFileTime).after sharedFile.files)

lemma result_publish_sharedFile : (sharedFile.publish false 4002 sharedFileTime).result
    ((sharedFile.publish true 4001 sharedFileTime).after sharedFile.files) = .ok () :=
  eq_ok_of_isOk (by decide +kernel)

lemma result_read_sharedFile :
    (sharedFile.participant (false, 1)).rendezvous.read.result sharedFileTree =
      .ok (some ((sharedFile.participant (false, 0)).record 4002 sharedFileTime none)) := by
  have hpublished := Files.run_eq_ok_iff.2 ⟨result_publish_sharedFile, rfl⟩
  exact (Files.run_eq_ok_iff.1 (Rendezvous.read_of_publish hpublished rfl)).1

/-- After both jobs have published, the second one listens. -/
lemma exists_listening_sharedFile :
    ∃ s, sharedFile.Reachable s ∧ s.files = sharedFileTree ∧ s.coordinator false = .listening [] ∧
      s.listener false = some ("a001", 4002) ∧ s.queue false = [] ∧
        s.worker (false, 1) = .ready := by
  have hfirst : ∀ i, sharedFile.Owns sharedFile.start i ("a001", 4001) → i = true :=
    fun i hi => nomatch owns_sharedFile hi
  have h₁ := Reachable.start.step
    (@Step.publish _ _ _ sharedFile _ true 4001 sharedFileTime rfl hfirst)
  have h₂ := h₁.step
    (@Step.publish _ _ _ sharedFile _ false 4002 sharedFileTime rfl fun i hi => by
      cases i with
      | false => rfl
      | true => exact absurd (owns_sharedFile hi) (by decide))
  refine ⟨_, h₂, rfl, ?_, rfl, rfl, rfl⟩
  exact congrArg afterPublishing result_publish_sharedFile

/-- The job whose record replaced that of the other one gathers its values. -/
lemma exists_returned_sharedFile :
    ∃ s, sharedFile.Reachable s ∧ s.coordinator false = .returned (.ok [0, 10]) := by
  obtain ⟨s, h, hfiles, hlistening, hlistener, hqueue, hready⟩ := exists_listening_sharedFile
  have hread : afterReading (Worker.consider (sharedFile.participant (false, 1))
      ((sharedFile.participant (false, 1)).rendezvous.read.result s.files)) =
        .found ("a001", 4002) := by
    rw [hfiles, result_read_sharedFile]
    rfl
  have hlistens : Listens s false ("a001", 4002) := by
    refine ⟨hlistener, ?_, ?_⟩ <;> rw [hlistening] <;> exact nofun
  obtain ⟨t, ht, hcoordinator, hwaiting, hsent⟩ :=
    h.exists_sent hready (by decide) rfl hread hlistens
  rw [hlistening] at hcoordinator
  rw [hqueue] at hwaiting
  have haccount : sharedFile.account false [] = .ok ⟨[some 0, none], 1⟩ := rfl
  have haccount' : sharedFile.account false [[sharedFile.message (false, 1)]] =
      .ok ⟨[some 0, some 10], 0⟩ := rfl
  exact ht.exists_returned hcoordinator hwaiting hsent haccount rfl haccount' rfl

/-! ## Results -/

/-- The values that a coordinator returns are those that it gathers on its own from the connections
that it has taken, and these are connections of its job. -/
theorem exists_collect_of_returned (h : m.Reachable s) {j : ι} {values : List α}
    (hreturned : s.coordinator j = .returned (.ok values)) :
    ∃ taken, m.AreOwn j taken ∧ ∀ port now tree, (m.publish j port now).result tree = .ok () →
      (Coordinator.collect (m.participant (j, 0)) port now m.codec ((m.job j).value 0) taken).result
        tree = .ok (some values) := by
  have hown := h.isolated.coordinator j
  rw [hreturned] at hown
  obtain ⟨taken, c, hown, haccount, hcomplete, hfinish⟩ := hown values rfl
  exact ⟨taken, hown, fun port now tree hpublish =>
    Coordinator.result_collect hpublish haccount hcomplete hfinish⟩

/-- Whatever the jobs do, in whatever order: a coordinator that returns values returns one for each
process of its job, its own first, and for each rank the value that the process of this rank
contributes. The codec must read back what it writes, as those of the library do
(`Binding.faithful_codec`, `Codec.faithful_u32`). -/
theorem values_of_returned (hcodec : m.codec.Faithful) (h : m.Reachable s) {j : ι}
    {values : List α} (hreturned : s.coordinator j = .returned (.ok values)) :
    values.length = (m.job j).size.toNat ∧ values[0]? = some ((m.job j).value 0) ∧
      ∀ rank : UInt32, rank < (m.job j).size →
        values[rank.toNat]? = some ((m.job j).value rank) := by
  have hown := h.isolated.coordinator j
  rw [hreturned] at hown
  obtain ⟨taken, c, hown, haccount, -, hfinish⟩ := hown values rfl
  obtain ⟨hlength, hvalues⟩ := (agrees_of_account hcodec hown haccount).of_finish hfinish
  refine ⟨hlength, ?_, fun rank hrank => hvalues rank (UInt32.lt_iff_toNat_lt.1 hrank)⟩
  have := (m.job j).two_le_size
  exact hvalues 0 (by rw [UInt32.toNat_zero]; omega)

/-- The job whose record replaced that of the other one has the values of its own processes. -/
theorem exists_values_of_sharedFile :
    ∃ s, sharedFile.Reachable s ∧ ∃ values : List UInt32,
      s.coordinator false = .returned (.ok values) ∧ values.length = (2 : UInt32).toNat ∧
        values[0]? = some 0 ∧
          ∀ rank : UInt32, rank < 2 → values[rank.toNat]? = some (rank * 10) := by
  obtain ⟨s, h, hreturned⟩ := exists_returned_sharedFile
  exact ⟨s, h, [0, 10], hreturned, values_of_returned Codec.faithful_u32 h hreturned⟩

end JobBinding.Gather.Meeting

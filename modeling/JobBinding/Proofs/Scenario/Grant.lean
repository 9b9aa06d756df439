import JobBinding.Proofs.Scenario.Request
import JobBinding.Proofs.Verdict.Alone

/-!
# Jobs that a cluster can grant

Whatever mode of validation is accepted, its shape can be granted: the counts of the shape fit
together and fit the cluster. For the scenarios that bind cores this is shown by the job itself. The
processes are dealt out to the hosts in turn, and each process of a host has the next block of its
cores (`assignment`). A job whose processes have exactly what is requested passes without remark
(`tags_classify_of_exact`), so such a job is accepted by the validation it was made for
(`mode_grantable`).
-/

namespace JobBinding

/-! ## Blocks of cores -/

/-- The cores of a block, where all blocks have the same number of cores. -/
def coreBlock (threads block : Nat) : SortedSet CoreId :=
  .ofList ((List.range' (block * threads) threads).map UInt64.ofNat)

section Block

variable {threads block bound : Nat}

lemma toList_coreBlock (h : block * threads + threads ≤ UInt64.size) :
    (coreBlock threads block).toList =
      (List.range' (block * threads) threads).map UInt64.ofNat := by
  apply SortedSet.toList_ofList_of_ascending
  rw [List.pairwise_map]
  refine List.Pairwise.imp_of_mem ?_ List.pairwise_lt_range'
  intro core core' hcore hcore' hlt
  rw [List.mem_range'_1] at hcore hcore'
  rw [UInt64.lt_iff_toNat_lt, UInt64.toNat_ofNat_of_lt' (by omega),
    UInt64.toNat_ofNat_of_lt' (by omega)]
  exact hlt

lemma size_coreBlock (h : block * threads + threads ≤ UInt64.size) :
    (coreBlock threads block).size = threads := by
  rw [SortedSet.size, toList_coreBlock h, List.length_map, List.length_range']

/-- The block of a core is the quotient of its number and the size of a block. -/
lemma of_mem_coreBlock (h : block * threads + threads ≤ UInt64.size) {core : CoreId}
    (hcore : core ∈ coreBlock threads block) :
    block * threads ≤ core.toNat ∧ core.toNat < block * threads + threads := by
  rw [coreBlock, SortedSet.mem_ofList, List.mem_map] at hcore
  obtain ⟨number, hnumber, rfl⟩ := hcore
  rw [List.mem_range'_1] at hnumber
  rwa [UInt64.toNat_ofNat_of_lt' (by omega)]

end Block

/-! ## Dealing out processes -/

def hostName (host : Nat) : String :=
  String.ofList (List.replicate (host + 1) 'n')

lemma hostName_injective : Function.Injective hostName := by
  intro host host' h
  simpa [hostName] using congrArg (fun name => name.toList.length) h

/-- The binding of a rank, where the ranks are dealt out to the hosts in turn. -/
def assigned (hosts threads rank : Nat) : Binding :=
  ⟨hostName (rank % hosts), coreBlock threads (rank / hosts), []⟩

/-- The bindings of all ranks of a job. -/
def assignment (hosts threads processes : Nat) : List Binding :=
  (List.range processes).map (assigned hosts threads)

/-- Whether some bindings are those of a job that has its processes and its hosts, where no two
processes of a host share a core and each core is one of the cores of a host. -/
structure Shape.IsGranted (shape : Shape) (cpus : UInt32) (bindings : List Binding) : Prop where
  length_eq : bindings.length = shape.processes.toNat
  hostCount_eq : Verdict.hostCount bindings = shape.hosts.toNat
  disjoint : bindings.Pairwise fun b b' =>
    b.hostname = b'.hostname → ∀ core, core ∈ b.cores → core ∉ b'.cores
  lt_cpus : ∀ b ∈ bindings, ∀ core, core ∈ b.cores → core.toNat < cpus.toNat

section Assignment

variable {hosts threads processes rank : Nat}

/-- The blocks of the ranks on a host end where its last process has its cores. -/
lemma block_le (threads : Nat) (hdvd : hosts ∣ processes) (hrank : rank < processes) :
    rank / hosts * threads + threads ≤ processes / hosts * threads := by
  have hlt : rank / hosts < processes / hosts := Nat.div_lt_div_of_lt_of_dvd hdvd hrank
  calc rank / hosts * threads + threads = (rank / hosts + 1) * threads := by
        rw [Nat.add_mul, Nat.one_mul]
    _ ≤ processes / hosts * threads := Nat.mul_le_mul_right threads hlt

lemma hostCount_assignment (hpos : 1 ≤ hosts) (hle : hosts ≤ processes) :
    Verdict.hostCount (assignment hosts threads processes) = hosts := by
  have hnames : ((assignment hosts threads processes).map (·.hostname)).toFinset =
      (Finset.range hosts).image hostName := by
    ext name
    simp only [assignment, List.map_map, List.mem_toFinset, List.mem_map, List.mem_range,
      Function.comp_apply, assigned, Finset.mem_image, Finset.mem_range]
    constructor
    · rintro ⟨rank, -, rfl⟩
      exact ⟨rank % hosts, Nat.mod_lt rank hpos, rfl⟩
    · rintro ⟨host, hhost, rfl⟩
      exact ⟨host, Nat.lt_of_lt_of_le hhost hle, by rw [Nat.mod_eq_of_lt hhost]⟩
  rw [Verdict.hostCount, hnames, Finset.card_image_of_injective _ hostName_injective,
    Finset.card_range]

/-- Two ranks on one host have different blocks. -/
lemma pairwise_assignment (hdvd : hosts ∣ processes)
    (hbound : processes / hosts * threads ≤ UInt64.size) :
    (assignment hosts threads processes).Pairwise fun b b' =>
      b.hostname = b'.hostname → ∀ core, core ∈ b.cores → core ∉ b'.cores := by
  rw [assignment, List.pairwise_map]
  refine List.Pairwise.imp_of_mem ?_ List.pairwise_lt_range
  intro rank rank' hrank hrank' hlt hname core hcore hcore'
  -- Processes on one host differ by whole rounds of dealing, so the later one has a later block of
  -- cores. Blocks are as long as there are threads, and do not overlap.
  have hmod : rank % hosts = rank' % hosts := hostName_injective hname
  have hblock : rank / hosts < rank' / hosts := by
    have hrank := Nat.div_add_mod rank hosts
    have hrank' := Nat.div_add_mod rank' hosts
    by_contra hle
    have hmul := Nat.mul_le_mul_left hosts (Nat.not_lt.1 hle)
    omega
  have hend : rank / hosts * threads + threads ≤ rank' / hosts * threads := by
    have hmul := Nat.mul_le_mul_right threads (Nat.succ_le_of_lt hblock)
    rwa [Nat.succ_mul] at hmul
  -- The last block still fits the identifiers of cores, without which the numbers could meet again.
  have hlast := block_le threads hdvd (List.mem_range.1 hrank')
  obtain ⟨-, hless⟩ := of_mem_coreBlock (by omega) hcore
  obtain ⟨hmore, -⟩ := of_mem_coreBlock (by omega) hcore'
  omega

lemma size_cores_of_mem_assignment (hdvd : hosts ∣ processes)
    (hbound : processes / hosts * threads ≤ UInt64.size) {b : Binding}
    (hb : b ∈ assignment hosts threads processes) : b.cores.size = threads := by
  obtain ⟨rank, hrank, rfl⟩ := List.mem_map.1 hb
  have hlast := block_le threads hdvd (List.mem_range.1 hrank)
  exact size_coreBlock (hlast.trans hbound)

lemma lt_of_mem_assignment (hdvd : hosts ∣ processes)
    (hbound : processes / hosts * threads ≤ UInt64.size) {b : Binding}
    (hb : b ∈ assignment hosts threads processes) {core : CoreId} (hcore : core ∈ b.cores) :
    core.toNat < processes / hosts * threads := by
  obtain ⟨rank, hrank, rfl⟩ := List.mem_map.1 hb
  have hlast := block_le threads hdvd (List.mem_range.1 hrank)
  exact Nat.lt_of_lt_of_le (of_mem_coreBlock (hlast.trans hbound) hcore).2 hlast

end Assignment

namespace Verdict

variable {bindings : List Binding} {shape : Shape}

/-- A job without GPUs whose processes have exactly the cores and the hosts that are requested
passes without remark. -/
theorem tags_classify_of_exact (hne : bindings ≠ [])
    (hcores : ∀ b ∈ bindings, b.cores.size = shape.threads.toNat)
    (hhosts : hostCount bindings = shape.hosts.toNat) (hgpus : shape.gpus = 0) :
    (classify bindings shape).tags = [.passed] := by
  have hnone : ¬ 0 < shape.gpus := hgpus ▸ UInt32.lt_irrefl 0
  have hpassed : Outcome.passed.Holds bindings shape := by
    refine ⟨?_, ?_, ?_⟩
    · rintro (⟨b, hb, hlt⟩ | ⟨hnil, -⟩)
      · exact absurd (hcores b hb) (Nat.ne_of_lt hlt)
      · exact hne hnil
    · rw [LacksHosts, hhosts]
      exact Nat.lt_irrefl _
    · rintro ⟨hpos, -⟩
      exact hnone hpos
  -- What is granted is exactly what is requested, so no remark has anything to say.
  have hsilent (r : Remark) : ¬ r.Holds bindings shape := by
    cases r with
    | moreHosts =>
      rw [Remark.Holds, hhosts]
      exact Nat.lt_irrefl _
    | unequalCores =>
      rintro ⟨b, hb, b', hb', hne⟩
      exact hne ((hcores b hb).trans (hcores b' hb').symm)
    | moreCores =>
      rintro ⟨b, hb, hlt⟩
      exact absurd (hcores b hb) (Nat.ne_of_gt hlt)
    | unequalGpus | moreGpus =>
      rintro ⟨hpos, -⟩
      exact hnone hpos
  have hremarks : remarkLines bindings shape = [] := by
    rw [remarkLines, List.map_eq_nil_iff, List.filter_eq_nil_iff]
    intro r _
    rw [decide_eq_true_iff]
    exact hsilent r
  rw [tags, lines_classify bindings shape hpassed, hremarks]
  rfl

/-- A process that is alone passes with exactly the cores that are requested. -/
lemma tags_classifySingle_of_exact {b : Binding} (hcores : b.cores.size = shape.threads.toNat)
    (hgpus : shape.gpus = 0) : (classifySingle b shape).tags = [.passed] := by
  have hnone : ¬ 0 < shape.gpus := hgpus ▸ UInt32.lt_irrefl 0
  rw [tags_classifySingle, checkedSize, requestedSize, if_neg hnone, if_neg hnone, hcores,
    Nat.compare_eq_eq.2 rfl]
  rfl

end Verdict

/-- Whether the validation of a mode finds nothing about some bindings but that they pass. -/
def Mode.Passes (bindings : List Binding) : Mode → Prop
  | .single shape => ∃ b, bindings = [b] ∧ (Verdict.classifySingle b shape).tags = [.passed]
  | .distributed shape => (Verdict.classify bindings shape).tags = [.passed]

namespace Scenario

variable {s : Scenario} {capacity : Capacity} {request : Request} {mode : Mode}

/-- A mode is accepted exactly if there is a request, and its shape is that of the request. -/
lemma mode_eq_ok_iff :
    s.mode capacity = .ok mode ↔ ∃ request, IsRequest capacity s request ∧
      mode = if request.mpi then .distributed (.ofRequest request s.hosts capacity.vendor)
        else .single (.ofRequest request s.hosts capacity.vendor) := by
  simp only [← request?_eq_some_iff]
  rw [Scenario.mode]
  cases s.request? capacity with
  | none => simp
  | some request =>
    simp only [Except.ok.injEq, Option.some.injEq, exists_eq_left']
    exact eq_comm

section Granted

variable (h : IsRequest capacity s request) (hcores : s.bindsCores = true)
include h hcores

lemma IsRequest.cores_le_size :
    request.processes.toNat / s.hosts.toNat * request.threads.toNat ≤ UInt64.size :=
  (h.cores_le hcores).trans (capacity.cpus.toNat_lt.le.trans (by decide))

/-- The cluster can grant the assignment. -/
lemma IsRequest.isGranted (vendor : Vendor) :
    (Shape.ofRequest request s.hosts vendor).IsGranted capacity.cpus
      (assignment s.hosts.toNat request.threads.toNat request.processes.toNat) where
  length_eq := by
    rw [assignment, List.length_map, List.length_range]
    rfl
  hostCount_eq := hostCount_assignment s.hosts_pos (Nat.le_of_dvd h.pos.1 h.hosts_dvd)
  disjoint := pairwise_assignment h.hosts_dvd (h.cores_le_size hcores)
  lt_cpus b hb core hcore :=
    Nat.lt_of_lt_of_le (lt_of_mem_assignment h.hosts_dvd (h.cores_le_size hcores) hb hcore)
      (h.cores_le hcores)

/-- The assignment passes the validation that its mode makes of it. -/
lemma IsRequest.passes (vendor : Vendor) :
    (if request.mpi then Mode.distributed (.ofRequest request s.hosts vendor)
      else .single (.ofRequest request s.hosts vendor)).Passes
        (assignment s.hosts.toNat request.threads.toNat request.processes.toNat) := by
  have hgranted := h.isGranted hcores vendor
  have hgpus : (Shape.ofRequest request s.hosts vendor).gpus = 0 := h.gpus_eq_zero hcores
  have hsize : ∀ b ∈ assignment s.hosts.toNat request.threads.toNat request.processes.toNat,
      b.cores.size = request.threads.toNat := fun b hb =>
    size_cores_of_mem_assignment h.hosts_dvd (h.cores_le_size hcores) hb
  have hpos : 1 ≤ request.processes.toNat := h.pos.1
  cases hmpi : request.mpi with
  | true =>
    refine Verdict.tags_classify_of_exact ?_ hsize hgranted.hostCount_eq hgpus
    exact List.ne_nil_of_length_pos (by rw [hgranted.length_eq]; exact hpos)
  | false =>
    have hone : request.processes = 1 := h.processes_eq_one hmpi
    have hlength : (assignment s.hosts.toNat request.threads.toNat
        request.processes.toNat).length = 1 := by
      rw [hgranted.length_eq, Shape.ofRequest, hone]
      rfl
    obtain ⟨b, hb⟩ := List.length_eq_one_iff.1 hlength
    exact ⟨b, hb, Verdict.tags_classifySingle_of_exact (hsize b (by rw [hb]; simp)) hgpus⟩

end Granted

/-- What is accepted for validation can be granted by the cluster. The counts of its shape are at
least one, the processes can be divided evenly among the hosts, and their cores are a count. One
process validates itself only if it is alone. GPUs are expected of a vendor, which is the cluster's.
On each host the processes find their cores, where a job on several nodes has all cores of each, and
processes that own GPUs find those on a node, where a job on a whole node has all of them. And if
the scenario binds cores, then there is a job as the cluster grants it that passes. -/
theorem mode_grantable (h : s.mode capacity = .ok mode) :
    (1 ≤ mode.shape.processes.toNat ∧ 1 ≤ mode.shape.threads.toNat ∧
      1 ≤ mode.shape.hosts.toNat) ∧
    mode.shape.hosts.toNat ∣ mode.shape.processes.toNat ∧
    mode.shape.processes.toNat * mode.shape.threads.toNat < UInt32.size ∧
    (mode = .single mode.shape → mode.shape.processes = 1) ∧
    (0 < mode.shape.gpus →
      mode.shape.vendor = capacity.vendor ∧ mode.shape.vendor ≠ .none) ∧
    (s.bindsCores = true →
      mode.shape.processes.toNat / mode.shape.hosts.toNat * mode.shape.threads.toNat ≤
        capacity.cpus.toNat ∧
      (s.takesNodes = true →
        mode.shape.processes.toNat / mode.shape.hosts.toNat * mode.shape.threads.toNat =
          capacity.cpus.toNat)) ∧
    (s.ownsGpus = true →
      mode.shape.processes.toNat * mode.shape.gpus.toNat ≤ capacity.gpus.toNat ∧
      (s = .mpiWholenodeAmdGpus →
        mode.shape.processes.toNat * mode.shape.gpus.toNat = capacity.gpus.toNat)) ∧
    (s.bindsCores = true →
      ∃ bindings, mode.shape.IsGranted capacity.cpus bindings ∧ mode.Passes bindings) := by
  obtain ⟨request, hrequest, hmode⟩ := mode_eq_ok_iff.1 h
  have hshape : mode.shape = .ofRequest request s.hosts capacity.vendor := by
    rw [hmode]
    split <;> rfl
  rw [hshape]
  refine ⟨⟨hrequest.pos.1, hrequest.pos.2, s.hosts_pos⟩, hrequest.hosts_dvd, hrequest.cores_lt,
    ?_, ?_, fun hcores => ⟨hrequest.cores_le hcores, hrequest.cores_eq⟩, hrequest.gpus_le, ?_⟩
  · intro hsingle
    apply hrequest.processes_eq_one
    rw [hsingle] at hmode
    split at hmode
    · cases hmode
    · next hmpi => exact Bool.eq_false_of_not_eq_true hmpi
  · intro hgpus
    have hvendor : (Shape.ofRequest request s.hosts capacity.vendor).vendor = capacity.vendor :=
      if_pos hgpus
    rw [hvendor]
    exact ⟨rfl, hrequest.vendor_ne_none hgpus⟩
  · intro hcores
    exact ⟨_, hrequest.isGranted hcores _, hmode ▸ hrequest.passes hcores _⟩

/-- The largest cluster whose cores two nodes can count, with threads: half of all processes are on
each node, and have all of its cores. -/
theorem mode_grantable_largest :
    mpiThreadsMultinode.mode ⟨2147483644, 0, .none, false⟩ =
        .ok (.distributed ⟨1073741822, 4, 2, 0, .none⟩) ∧
      1073741822 / 2 * 4 = 2147483644 ∧
      ∃ bindings, (⟨1073741822, 4, 2, 0, .none⟩ : Shape).IsGranted 2147483644 bindings ∧
        (Verdict.classify bindings ⟨1073741822, 4, 2, 0, .none⟩).tags = [.passed] := by
  have hmode : mpiThreadsMultinode.mode ⟨2147483644, 0, .none, false⟩ =
      .ok (.distributed ⟨1073741822, 4, 2, 0, .none⟩) := by decide
  obtain ⟨-, -, -, -, -, hcores, -, hgrant⟩ := mode_grantable hmode
  exact ⟨hmode, (hcores rfl).2 rfl, hgrant rfl⟩

end Scenario

end JobBinding

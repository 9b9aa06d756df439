import Mathlib.Tactic.Common
import JobBinding.Scenario.Mode

/-!
# What a cluster is asked for

`IsRequest` is the table of requests in exact arithmetic: for each scenario the condition under
which a cluster can grant it, and what it then asks for. Requests are counted in words of 32 bits,
but the only product that might not fit one is checked before it is formed
(`multinodeCores?_eq_some_iff`), so the table describes them without exception
(`request?_eq_some_iff`). What an accepted request asks for is then read off the table.
-/

namespace JobBinding

variable {capacity : Capacity} {request : Request}

namespace Request

lemma onlyIf_eq_some_iff {condition : Bool} {request' : Request} :
    onlyIf condition request = some request' ↔ condition = true ∧ request = request' := by
  rw [onlyIf]
  split <;> simp_all

/-- The cores of several nodes are counted exactly or not at all. -/
lemma multinodeCores?_eq_some_iff {cores : UInt32} :
    multinodeCores? capacity = some cores ↔
      1 ≤ capacity.cpus.toNat ∧ cores.toNat = 2 * capacity.cpus.toNat := by
  have hpos : 1 ≤ capacity.cpus ↔ 1 ≤ capacity.cpus.toNat := UInt32.le_iff_toNat_le
  have hnodes : severalNodes.toNat = 2 := rfl
  have hcores : cores.toNat < UInt32.size := cores.toNat_lt
  simp only [multinodeCores?, hnodes, hpos]
  split
  · next h =>
    have hexact : (2 * capacity.cpus.toNat).toUInt32.toNat = 2 * capacity.cpus.toNat :=
      UInt32.toNat_ofNat_of_lt' h.2
    rw [Option.some.injEq, ← UInt32.toNat_inj, hexact, and_iff_right h.1, eq_comm]
  · next h =>
    constructor
    · exact nofun
    · rintro ⟨hcpus, hexact⟩
      exact absurd ⟨hcpus, hexact ▸ hcores⟩ h

end Request

namespace Scenario

/-- The requests of the scenarios and what a cluster must have to grant them, where `2` is the
number of nodes of a job on several nodes. -/
inductive IsRequest (capacity : Capacity) : Scenario → Request → Prop where
  | serial : capacity.shared = true → 1 ≤ capacity.cpus.toNat →
    IsRequest capacity .serial ⟨1, 1, 0, false⟩
  | threads : capacity.shared = true → 4 ≤ capacity.cpus.toNat →
    IsRequest capacity .threads ⟨1, 4, 0, false⟩
  | mpiSubnode : capacity.shared = true → 4 ≤ capacity.cpus.toNat →
    IsRequest capacity .mpiSubnode ⟨4, 1, 0, true⟩
  | mpiThreadsSubnode : capacity.shared = true → 16 ≤ capacity.cpus.toNat →
    IsRequest capacity .mpiThreadsSubnode ⟨4, 4, 0, true⟩
  | mpiMultinode (processes : UInt32) : 1 ≤ capacity.cpus.toNat →
    processes.toNat = 2 * capacity.cpus.toNat →
    IsRequest capacity .mpiMultinode ⟨processes, 1, 0, true⟩
  | mpiThreadsMultinode (processes : UInt32) : 1 ≤ capacity.cpus.toNat →
    4 ∣ capacity.cpus.toNat → 2 * capacity.cpus.toNat < UInt32.size →
    processes.toNat * 4 = 2 * capacity.cpus.toNat →
    IsRequest capacity .mpiThreadsMultinode ⟨processes, 4, 0, true⟩
  | nvidiaGpu : capacity.shared = true → capacity.vendor = .nvidia → 1 ≤ capacity.gpus.toNat →
    IsRequest capacity .nvidiaGpu ⟨1, 1, 1, false⟩
  | nvidiaGpus : capacity.shared = true → capacity.vendor = .nvidia → 2 ≤ capacity.gpus.toNat →
    IsRequest capacity .nvidiaGpus ⟨1, 1, 2, false⟩
  | mpiNvidiaGpus : capacity.shared = true → capacity.vendor = .nvidia →
    1 ≤ capacity.gpus.toNat → IsRequest capacity .mpiNvidiaGpus ⟨4, 1, 1, true⟩
  | mpiWholenodeAmdGpus : capacity.vendor = .amd → 1 ≤ capacity.gpus.toNat →
    IsRequest capacity .mpiWholenodeAmdGpus ⟨capacity.gpus, 1, 1, true⟩

/-- A threaded job on several nodes divides the cores of all nodes, if those of one node can be
divided. -/
lemma map_multinodeCores?_eq_some_iff :
    (if capacity.cpus % Request.severalThreads = 0 then
        (Request.multinodeCores? capacity).map fun cores =>
          (⟨cores / Request.severalThreads, Request.severalThreads, 0, true⟩ : Request)
      else none) = some request ↔ IsRequest capacity .mpiThreadsMultinode request := by
  have hdvd : capacity.cpus % Request.severalThreads = 0 ↔ 4 ∣ capacity.cpus.toNat := by
    rw [← UInt32.toNat_inj, UInt32.toNat_mod, Nat.dvd_iff_mod_eq_zero]
    rfl
  have hquotient (cores : UInt32) : (cores / Request.severalThreads).toNat = cores.toNat / 4 :=
    UInt32.toNat_div cores _
  constructor
  · intro h
    split at h
    · next hdivides =>
      obtain ⟨cores, hcores, rfl⟩ := Option.map_eq_some_iff.1 h
      obtain ⟨hpos, hexact⟩ := Request.multinodeCores?_eq_some_iff.1 hcores
      have hlt : cores.toNat < UInt32.size := cores.toNat_lt
      have hfour := hdvd.1 hdivides
      -- Two nodes have twice the cores of one, which four threads divide just the same.
      refine .mpiThreadsMultinode _ hpos hfour (hexact ▸ hlt) ?_
      rw [hquotient]
      omega
    · cases h
  · rintro (_ | _ | _ | _ | _ | ⟨processes, hpos, hfour, hlt, hexact⟩)
    have hsum : (2 * capacity.cpus.toNat).toUInt32.toNat = 2 * capacity.cpus.toNat :=
      UInt32.toNat_ofNat_of_lt' hlt
    have hprocesses : (2 * capacity.cpus.toNat).toUInt32 / Request.severalThreads = processes := by
      rw [← UInt32.toNat_inj, hquotient, hsum]
      omega
    rw [if_pos (hdvd.2 hfour), Request.multinodeCores?_eq_some_iff.2 ⟨hpos, hsum⟩, Option.map_some,
      hprocesses]
    rfl

/-- A scenario asks for what the table says, and for nothing where the table has no request. -/
theorem request?_eq_some_iff {s : Scenario} :
    s.request? capacity = some request ↔ IsRequest capacity s request := by
  cases s with
  | mpiThreadsMultinode => exact map_multinodeCores?_eq_some_iff
  | mpiMultinode =>
    rw [request?, Option.map_eq_some_iff]
    constructor
    · rintro ⟨cores, hcores, rfl⟩
      obtain ⟨hpos, hexact⟩ := Request.multinodeCores?_eq_some_iff.1 hcores
      exact .mpiMultinode cores hpos hexact
    · rintro (_ | _ | _ | _ | ⟨processes, hpos, hexact⟩)
      exact ⟨processes, Request.multinodeCores?_eq_some_iff.2 ⟨hpos, hexact⟩, rfl⟩
  -- First sharing and cores, then a vendor and GPUs: the bounds differ, the tests do not.
  | serial | threads | mpiSubnode | mpiThreadsSubnode =>
    simp only [request?, Request.onlyIf_eq_some_iff, Bool.and_eq_true, decide_eq_true_iff,
      UInt32.le_iff_toNat_le]
    constructor
    · rintro ⟨⟨hshared, hcpus⟩, rfl⟩
      constructor
      · exact hshared
      · exact hcpus
    · intro h
      cases h
      exact ⟨⟨‹_›, ‹_›⟩, rfl⟩
  | nvidiaGpu | nvidiaGpus | mpiNvidiaGpus =>
    simp only [request?, Request.onlyIf_eq_some_iff, Bool.and_eq_true, beq_iff_eq,
      decide_eq_true_iff, UInt32.le_iff_toNat_le]
    constructor
    · rintro ⟨⟨⟨hshared, hvendor⟩, hgpus⟩, rfl⟩
      constructor
      · exact hshared
      · exact hvendor
      · exact hgpus
    · intro h
      cases h
      exact ⟨⟨⟨‹_›, ‹_›⟩, ‹_›⟩, rfl⟩
  | mpiWholenodeAmdGpus =>
    simp only [request?, Request.onlyIf_eq_some_iff, Bool.and_eq_true, beq_iff_eq,
      decide_eq_true_iff, UInt32.le_iff_toNat_le]
    constructor
    · rintro ⟨⟨hvendor, hgpus⟩, rfl⟩
      exact .mpiWholenodeAmdGpus hvendor hgpus
    · intro h
      cases h
      exact ⟨⟨‹_›, ‹_›⟩, rfl⟩

/-! ## What is asked for -/

/-- Whether the processes of a scenario are bound to cores and not to GPUs. -/
def bindsCores : Scenario → Bool
  | .serial | .threads | .mpiSubnode | .mpiThreadsSubnode | .mpiMultinode
  | .mpiThreadsMultinode => true
  | .nvidiaGpu | .nvidiaGpus | .mpiNvidiaGpus | .mpiWholenodeAmdGpus => false

/-- Whether a scenario takes all cores of several nodes. -/
def takesNodes : Scenario → Bool
  | .mpiMultinode | .mpiThreadsMultinode => true
  | _ => false

variable {s : Scenario}

/-- The processes and their threads are at least one each. -/
lemma IsRequest.pos (h : IsRequest capacity s request) :
    1 ≤ request.processes.toNat ∧ 1 ≤ request.threads.toNat := by
  cases h with
  | mpiMultinode processes hcpus hexact =>
    refine ⟨?_, Nat.le_refl 1⟩
    show 1 ≤ processes.toNat
    omega
  | mpiThreadsMultinode processes hcpus hfour hlt hexact =>
    have hthreads : 1 ≤ (4 : UInt32).toNat := by decide
    refine ⟨?_, hthreads⟩
    show 1 ≤ processes.toNat
    omega
  | mpiWholenodeAmdGpus hvendor hgpus => exact ⟨hgpus, Nat.le_refl 1⟩
  | _ => decide

lemma hosts_pos (s : Scenario) : 1 ≤ s.hosts.toNat := by
  cases s <;> decide

/-- The processes can be divided evenly among the hosts. -/
lemma IsRequest.hosts_dvd (h : IsRequest capacity s request) :
    s.hosts.toNat ∣ request.processes.toNat := by
  cases h with
  | mpiMultinode processes hcpus hexact => exact ⟨_, hexact⟩
  | mpiThreadsMultinode processes hcpus hfour hlt hexact =>
    show 2 ∣ processes.toNat
    omega
  | _ => exact Nat.one_dvd _

/-- The cores of all processes together are a count. -/
lemma IsRequest.cores_lt (h : IsRequest capacity s request) :
    request.processes.toNat * request.threads.toNat < UInt32.size := by
  cases h with
  | mpiMultinode processes hcpus hexact =>
    rw [UInt32.toNat_one, Nat.mul_one]
    exact processes.toNat_lt
  | mpiThreadsMultinode processes hcpus hfour hlt hexact => exact hexact ▸ hlt
  | mpiWholenodeAmdGpus hvendor hgpus =>
    rw [UInt32.toNat_one, Nat.mul_one]
    exact capacity.gpus.toNat_lt
  | _ => decide

lemma IsRequest.processes_eq_one (h : IsRequest capacity s request) (hmpi : request.mpi = false) :
    request.processes = 1 := by
  cases h with
  | serial | threads | nvidiaGpu | nvidiaGpus => rfl
  | _ => cases hmpi

lemma IsRequest.vendor_ne_none (h : IsRequest capacity s request) (hgpus : 0 < request.gpus) :
    capacity.vendor ≠ .none := by
  have hnone : ¬ (0 : UInt32) < 0 := UInt32.lt_irrefl 0
  cases h with
  | nvidiaGpu _ hvendor | nvidiaGpus _ hvendor | mpiNvidiaGpus _ hvendor
  | mpiWholenodeAmdGpus hvendor =>
    rw [hvendor]
    exact nofun
  | _ => exact absurd hgpus hnone

lemma IsRequest.gpus_eq_zero (h : IsRequest capacity s request) (hcores : s.bindsCores = true) :
    request.gpus = 0 := by
  cases h with
  | nvidiaGpu | nvidiaGpus | mpiNvidiaGpus | mpiWholenodeAmdGpus => cases hcores
  | _ => rfl

/-- A job that takes whole nodes leaves no core of them out. -/
lemma IsRequest.cores_eq (h : IsRequest capacity s request) (hnodes : s.takesNodes = true) :
    request.processes.toNat / s.hosts.toNat * request.threads.toNat = capacity.cpus.toNat := by
  cases h with
  | mpiMultinode processes hcpus hexact =>
    show processes.toNat / 2 * 1 = capacity.cpus.toNat
    omega
  | mpiThreadsMultinode processes hcpus hfour hlt hexact =>
    show processes.toNat / 2 * 4 = capacity.cpus.toNat
    omega
  | _ => cases hnodes

/-- The processes on one host can have their cores there. -/
lemma IsRequest.cores_le (h : IsRequest capacity s request) (hcores : s.bindsCores = true) :
    request.processes.toNat / s.hosts.toNat * request.threads.toNat ≤ capacity.cpus.toNat := by
  by_cases hnodes : s.takesNodes = true
  · exact Nat.le_of_eq (h.cores_eq hnodes)
  cases h with
  | serial _ hcpus | threads _ hcpus | mpiSubnode _ hcpus | mpiThreadsSubnode _ hcpus => exact hcpus
  | mpiMultinode | mpiThreadsMultinode => exact absurd rfl hnodes
  | _ => cases hcores

/-- Whether the processes of a scenario have GPUs that no two of them share. The processes of
`mpiNvidiaGpus` ask for one GPU each on a node that may have fewer. -/
def ownsGpus : Scenario → Bool
  | .nvidiaGpu | .nvidiaGpus | .mpiWholenodeAmdGpus => true
  | _ => false

lemma IsRequest.gpus_le (h : IsRequest capacity s request) (hgpus : s.ownsGpus = true) :
    request.processes.toNat * request.gpus.toNat ≤ capacity.gpus.toNat ∧
      (s = .mpiWholenodeAmdGpus →
        request.processes.toNat * request.gpus.toNat = capacity.gpus.toNat) := by
  cases h with
  | nvidiaGpu _ _ hcount | nvidiaGpus _ _ hcount => exact ⟨hcount, nofun⟩
  | mpiWholenodeAmdGpus =>
    have hone : capacity.gpus.toNat * (1 : UInt32).toNat = capacity.gpus.toNat := Nat.mul_one _
    exact ⟨Nat.le_of_eq hone, fun _ => hone⟩
  | _ => cases hgpus

end Scenario

end JobBinding

import JobBinding.Proofs.Verdict.Classify

/-!
# What a verdict on a job depends on

A message is a wording with places for the observed hosts, cores and GPUs. The remarks and the
outcome of a verdict, and with them its tags and its wordings, depend on nothing but three sets: the
names of the hosts, the sizes of the cpusets and the numbers of GPUs that some process observed
(`Alike.holds_remark_iff`, `Alike.holds_outcome_iff`). The order of the processes, and how many of
them observed the same, show only in the places that are filled in, and in the list of hosts not
even there.
-/

namespace JobBinding.Verdict

/-! ## Wordings -/

/-- What the messages of a verdict show of the bindings of a job. -/
structure Shown where
  hosts : String
  cores : String
  gpus : String

def shown (bindings : List Binding) : Shown :=
  ⟨hostsShown bindings, coresShown bindings, gpusShown bindings⟩

/-- A part of a message: a fixed text, or a place for what was observed. -/
inductive Part where
  | fixed (text : String)
  | hosts
  | cores
  | gpus
  deriving DecidableEq, Repr

def Part.fill (s : Shown) : Part → String
  | .fixed text => text
  | .hosts => s.hosts
  | .cores => s.cores
  | .gpus => s.gpus

/-- The message that a wording makes of what was observed: its parts one after the other. -/
def fill (s : Shown) : List Part → String
  | [] => ""
  | first :: rest => rest.foldl (fun text part => text ++ part.fill s) (first.fill s)

/-- The line that a tag and a wording make of what was observed. -/
def fillLine (s : Shown) (line : Tag × List Part) : Tag × String :=
  (line.1, fill s line.2)

def Remark.wording (shape : Shape) : Remark → List Part
  | .moreHosts =>
    [.fixed "Executing on more than ", .fixed (toString shape.hosts.toNat), .fixed " host(s): ",
      .hosts, .fixed "."]
  | .unequalCores => [.fixed "cpusets have different sizes: ", .cores, .fixed "."]
  | .moreCores => [.fixed "Allowed to run on more cpus than requested: ", .cores, .fixed "."]
  | .unequalGpus => [.fixed "gpus have different sizes: ", .gpus, .fixed "."]
  | .moreGpus => [.fixed "Allowed to run on more GPUs than requested: ", .gpus, .fixed "."]

def Outcome.wording (shape : Shape) : Outcome → Tag × List Part
  | .coresMissing => (.error, [.fixed "Not allowed to run on requested cpus: ", .cores, .fixed "."])
  | .hostsMissing =>
    (.error, [.fixed "Executing on fewer than ", .fixed (toString shape.hosts.toNat),
      .fixed " hosts: ", .hosts, .fixed "."])
  | .gpusMissing => (.error, [.fixed "Not allowed to run on requested GPUs: ", .gpus, .fixed "."])
  | .passed =>
    (.passed, [.hosts, .fixed " ", .cores, .fixed " ",
      if 0 < shape.gpus then .gpus else .fixed "[]"])

section Wordings

variable (bindings : List Binding) (shape : Shape)

lemma Remark.message_eq_fill (r : Remark) :
    r.message bindings shape = fill (shown bindings) (r.wording shape) := by
  cases r <;> rfl

lemma Outcome.line_eq_fillLine (o : Outcome) :
    o.line bindings shape = fillLine (shown bindings) (o.wording shape) := by
  cases o with
  | passed =>
    have hgpus : (if 0 < shape.gpus then gpusShown bindings else "[]") =
        (if 0 < shape.gpus then Part.gpus else .fixed "[]").fill (shown bindings) := by
      split <;> rfl
    unfold line
    rw [hgpus]
    rfl
  | _ => rfl

/-- The remarks that hold and an outcome, as tagged wordings. -/
def wordings (o : Outcome) : List (Tag × List Part) :=
  ((Remark.all.filter fun r => r.Holds bindings shape).map fun r => (.warn, r.wording shape)) ++
    [o.wording shape]

lemma lines_classify_eq_map {o : Outcome} (ho : o.Holds bindings shape) :
    (classify bindings shape).lines =
      (wordings bindings shape o).map (fillLine (shown bindings)) := by
  rw [lines_classify bindings shape ho, remarkLines, wordings, List.map_append, List.map_map,
    List.map_singleton, o.line_eq_fillLine]
  congr 1
  refine List.map_congr_left fun r _ => ?_
  rw [Function.comp_apply, fillLine, r.message_eq_fill]

end Wordings

/-! ## Jobs that look alike -/

/-- Whether the processes of two jobs observe the same names of hosts, the same sizes of cpusets and
the same numbers of GPUs, each as a set. -/
structure Alike (bindings others : List Binding) : Prop where
  hosts : (bindings.map (·.hostname)).toFinset = (others.map (·.hostname)).toFinset
  cores : (bindings.map (·.cores.size)).toFinset = (others.map (·.cores.size)).toFinset
  gpus : (bindings.map (·.gpus.length)).toFinset = (others.map (·.gpus.length)).toFinset

variable {bindings others : List Binding}

lemma exists_mem_iff_of_toFinset_eq {α : Type} [DecidableEq α] {f : Binding → α}
    (h : (bindings.map f).toFinset = (others.map f).toFinset) (P : α → Prop) :
    (∃ b ∈ bindings, P (f b)) ↔ ∃ b ∈ others, P (f b) := by
  have hset : (∃ x ∈ (bindings.map f).toFinset, P x) ↔ ∃ x ∈ (others.map f).toFinset, P x := by
    rw [h]
  simpa using hset

/-- What holds of some two values of a set of values. -/
lemma exists_two_iff_of_toFinset_eq {α : Type} [DecidableEq α] {f : Binding → α}
    (h : (bindings.map f).toFinset = (others.map f).toFinset) (P : α → α → Prop) :
    (∃ b ∈ bindings, ∃ b' ∈ bindings, P (f b) (f b')) ↔
      ∃ b ∈ others, ∃ b' ∈ others, P (f b) (f b') := by
  rw [exists_mem_iff_of_toFinset_eq h fun x => ∃ b' ∈ bindings, P x (f b')]
  refine exists_congr fun b => and_congr_right fun _ => ?_
  exact exists_mem_iff_of_toFinset_eq h (P (f b))

namespace Alike

lemma eq_nil_iff (h : Alike bindings others) : bindings = [] ↔ others = [] := by
  have hnil : (bindings.map (·.hostname)).toFinset = ∅ ↔
      (others.map (·.hostname)).toFinset = ∅ := by rw [h.hosts]
  simpa using hnil

lemma hostsShown_eq (h : Alike bindings others) : hostsShown others = hostsShown bindings := by
  rw [hostsShown, hostsShown, hostList, hostList, h.hosts]

lemma hostCount_eq (h : Alike bindings others) : hostCount others = hostCount bindings := by
  rw [hostCount, hostCount, h.hosts]

lemma holds_remark_iff (h : Alike bindings others) (shape : Shape) (r : Remark) :
    r.Holds others shape ↔ r.Holds bindings shape := by
  cases r with
  | moreHosts => rw [Remark.Holds, Remark.Holds, h.hostCount_eq]
  | unequalCores => exact (exists_two_iff_of_toFinset_eq h.cores (· ≠ ·)).symm
  | moreCores => exact (exists_mem_iff_of_toFinset_eq h.cores (shape.threads.toNat < ·)).symm
  | unequalGpus => exact and_congr_right fun _ => (exists_two_iff_of_toFinset_eq h.gpus (· ≠ ·)).symm
  | moreGpus =>
    exact and_congr_right fun _ =>
      (exists_mem_iff_of_toFinset_eq h.gpus (shape.gpus.toNat < ·)).symm

lemma lacksCores_iff (h : Alike bindings others) (shape : Shape) :
    LacksCores others shape ↔ LacksCores bindings shape := by
  rw [LacksCores, LacksCores, h.eq_nil_iff,
    exists_mem_iff_of_toFinset_eq h.cores (· < shape.threads.toNat)]

lemma lacksHosts_iff (h : Alike bindings others) (shape : Shape) :
    LacksHosts others shape ↔ LacksHosts bindings shape := by
  rw [LacksHosts, LacksHosts, h.hostCount_eq]

lemma lacksGpus_iff (h : Alike bindings others) (shape : Shape) :
    LacksGpus others shape ↔ LacksGpus bindings shape := by
  rw [LacksGpus, LacksGpus, h.eq_nil_iff,
    exists_mem_iff_of_toFinset_eq h.gpus (· < shape.gpus.toNat)]

lemma holds_outcome_iff (h : Alike bindings others) (shape : Shape) (o : Outcome) :
    o.Holds others shape ↔ o.Holds bindings shape := by
  cases o <;>
    simp only [Outcome.Holds, h.lacksCores_iff, h.lacksHosts_iff, h.lacksGpus_iff]

lemma wordings_eq (h : Alike bindings others) (shape : Shape) (o : Outcome) :
    wordings others shape o = wordings bindings shape o := by
  simp only [wordings, h.holds_remark_iff]

/-- The order of the processes makes no difference. -/
lemma of_perm (h : bindings.Perm others) : Alike bindings others where
  hosts := List.toFinset_eq_of_perm _ _ (h.map _)
  cores := List.toFinset_eq_of_perm _ _ (h.map _)
  gpus := List.toFinset_eq_of_perm _ _ (h.map _)

end Alike

/-- Whether two processes observe the same host, as many cores and as many GPUs. -/
def SameCounts (b b' : Binding) : Prop :=
  b.hostname = b'.hostname ∧ b.cores.size = b'.cores.size ∧ b.gpus.length = b'.gpus.length

lemma map_eq_of_forall₂ {α : Type} {R : Binding → Binding → Prop} {f : Binding → α}
    (hR : ∀ b b', R b b' → f b = f b') (h : List.Forall₂ R bindings others) :
    bindings.map f = others.map f := by
  induction h with
  | nil => rfl
  | cons hb _ ih => rw [List.map_cons, List.map_cons, hR _ _ hb, ih]

/-- Which cores and which GPUs they are makes no difference. -/
lemma Alike.of_forall₂ (h : List.Forall₂ SameCounts bindings others) : Alike bindings others where
  hosts := by rw [map_eq_of_forall₂ (fun _ _ hb => hb.1) h]
  cores := by rw [map_eq_of_forall₂ (fun _ _ hb => hb.2.1) h]
  gpus := by rw [map_eq_of_forall₂ (fun _ _ hb => hb.2.2) h]

/-! ## Verdicts on jobs that look alike -/

/-- The verdicts on all jobs that look alike are made of the same tags and the same wordings, line
by line; only what was observed is filled in differently, and the hosts not even that. Jobs look
alike if they have the same processes in another order, and if the processes of one have as many
cores and as many GPUs on the same hosts as those of the other. -/
theorem classify_of_alike (bindings : List Binding) (shape : Shape) :
    (∃ lines : List (Tag × List Part), ∀ others, Alike bindings others →
      (classify others shape).lines = lines.map (fillLine (shown others))) ∧
    (∀ others, Alike bindings others →
      (classify others shape).tags = (classify bindings shape).tags ∧
        (shown others).hosts = (shown bindings).hosts) ∧
    (∀ others, bindings.Perm others → Alike bindings others) ∧
    ∀ others, List.Forall₂ SameCounts bindings others → Alike bindings others := by
  obtain ⟨o, ho⟩ := Outcome.exists_holds bindings shape
  -- Alike bindings have the same outcome and remarks, so one list of wordings serves them all.
  have hlines : ∀ others, Alike bindings others → (classify others shape).lines =
      (wordings bindings shape o).map (fillLine (shown others)) := by
    intro others h
    rw [lines_classify_eq_map others shape ((h.holds_outcome_iff shape o).2 ho), h.wordings_eq]
  have htags : ∀ others, Alike bindings others →
      (classify others shape).tags = (wordings bindings shape o).map (·.1) := by
    intro others h
    rw [tags, hlines others h, List.map_map]
    rfl
  refine ⟨⟨_, hlines⟩, fun others h => ⟨?_, h.hostsShown_eq⟩, fun others => Alike.of_perm,
    fun others => Alike.of_forall₂⟩
  rw [htags others h, htags bindings ⟨rfl, rfl, rfl⟩]

/-- Two processes in the other order, on other cores, or one of them twice: the verdict warns of
cpusets of different sizes in the same words each time. -/
theorem classify_of_swapped :
    (∃ lines : List (Tag × List Part),
      (classify [⟨"b", .ofList [1, 2], []⟩, ⟨"a", .ofList [0], []⟩] ⟨2, 1, 2, 0, .none⟩).lines =
          lines.map (fillLine (shown [⟨"b", .ofList [1, 2], []⟩, ⟨"a", .ofList [0], []⟩])) ∧
        (classify [⟨"a", .ofList [5], []⟩, ⟨"b", .ofList [6, 7], []⟩] ⟨2, 1, 2, 0, .none⟩).lines =
          lines.map (fillLine (shown [⟨"a", .ofList [5], []⟩, ⟨"b", .ofList [6, 7], []⟩]))) ∧
      (classify [⟨"a", .ofList [0], []⟩, ⟨"b", .ofList [1, 2], []⟩, ⟨"a", .ofList [0], []⟩]
          ⟨2, 1, 2, 0, .none⟩).tags =
        (classify [⟨"a", .ofList [0], []⟩, ⟨"b", .ofList [1, 2], []⟩] ⟨2, 1, 2, 0, .none⟩).tags := by
  obtain ⟨⟨lines, hlines⟩, htags, hperm, hcounts⟩ := classify_of_alike
    [⟨"a", .ofList [0], []⟩, ⟨"b", .ofList [1, 2], []⟩] ⟨2, 1, 2, 0, .none⟩
  have hother : List.Forall₂ SameCounts [⟨"a", .ofList [0], []⟩, ⟨"b", .ofList [1, 2], []⟩]
      [⟨"a", .ofList [5], []⟩, ⟨"b", .ofList [6, 7], []⟩] :=
    .cons ⟨rfl, rfl, rfl⟩ (.cons ⟨rfl, rfl, rfl⟩ .nil)
  have hswapped := hlines [⟨"b", .ofList [1, 2], []⟩, ⟨"a", .ofList [0], []⟩]
    (hperm _ (.swap _ _ []))
  have hrepeated := htags [⟨"a", .ofList [0], []⟩, ⟨"b", .ofList [1, 2], []⟩,
    ⟨"a", .ofList [0], []⟩] ⟨by decide, by decide, by decide⟩
  exact ⟨⟨lines, hswapped, hlines _ (hcounts _ hother)⟩, hrepeated.1⟩

end JobBinding.Verdict

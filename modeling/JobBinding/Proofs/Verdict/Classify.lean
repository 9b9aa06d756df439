import Mathlib.Data.Finset.Sort
import Mathlib.Data.String.Basic
import JobBinding.Proofs.SortedSet
import JobBinding.Verdict.Classify

/-!
# What a verdict says about bindings

The verdict on a job compares the smallest and the largest of the sizes that its processes
observed. This module says the same with processes in place of sizes: some process has too little,
some process has more than requested, two processes differ. `Remark` and `Outcome` are the things
a verdict can say, each with the condition under which it is said, and `classify_spec` is the
verdict as the remarks that hold, in their order, before the one outcome that does.
-/

namespace JobBinding

/-! ## Sizes of sets of values -/

namespace SortedSet

variable {α : Type} [LinearOrder α] [Sortable α]

lemma toList_ofList (xs : List α) : (ofList xs).toList = xs.toFinset.sort := by
  have hmem : ∀ x, x ∈ (ofList xs).toList ↔ x ∈ xs.toFinset.sort := fun x => by
    rw [Finset.mem_sort, List.mem_toFinset]
    exact mem_ofList
  exact (ofList xs).ascending.eq_of_mem_iff (Finset.sortedLT_sort _).pairwise hmem

lemma size_ofList (xs : List α) : (ofList xs).size = xs.toFinset.card := by
  rw [size, toList_ofList, Finset.length_sort]

lemma one_lt_size_ofList_iff {xs : List α} :
    1 < (ofList xs).size ↔ ∃ x ∈ xs, ∃ y ∈ xs, x ≠ y := by
  rw [size_ofList, Finset.one_lt_card]
  simp only [List.mem_toFinset]

end SortedSet

namespace Verdict

variable {s : SortedSet Nat} {n : Nat}

lemma smallest_lt_iff : smallest s < n ↔ (∃ x ∈ s.toList, x < n) ∨ s.toList = [] ∧ 0 < n := by
  have hs := s.ascending
  rw [smallest]
  revert hs
  cases s.toList with
  | nil => simp
  | cons x xs =>
    intro hs
    have hfirst : ∀ y ∈ xs, x < y := (List.pairwise_cons.1 hs).1
    simp only [List.head?_cons, Option.getD_some, List.mem_cons, exists_eq_or_imp, reduceCtorEq,
      false_and, or_false]
    constructor
    · exact Or.inl
    · rintro (h | ⟨y, hy, h⟩)
      · exact h
      · exact Nat.lt_trans (hfirst y hy) h

lemma lt_largest_iff : n < largest s ↔ ∃ x ∈ s.toList, n < x := by
  have hs := s.ascending
  rw [largest]
  rcases List.eq_nil_or_concat s.toList with hnil | ⟨xs, x, hconcat⟩
  · simp [hnil]
  · rw [hconcat, List.concat_eq_append, List.pairwise_append] at hs
    have hlast : ∀ y ∈ xs, y < x := fun y hy => hs.2.2 y hy x (by simp)
    rw [hconcat, List.concat_eq_append, List.getLast?_concat, Option.getD_some]
    constructor
    · exact fun h => ⟨x, by simp, h⟩
    · rintro ⟨y, hy, h⟩
      rcases List.mem_append.1 hy with hy | hy
      · exact Nat.lt_trans h (hlast y hy)
      · rwa [List.mem_singleton.1 hy] at h

/-! ## What a verdict can say -/

/-- The host names of some bindings, in ascending order and without repetitions. -/
def hostList (bindings : List Binding) : List String :=
  (bindings.map (·.hostname)).toFinset.sort

/-- On how many hosts some bindings were observed. -/
def hostCount (bindings : List Binding) : Nat :=
  (bindings.map (·.hostname)).toFinset.card

def hostsShown (bindings : List Binding) : String :=
  Text.setLiteral (hostList bindings)

def coresShown (bindings : List Binding) : String :=
  Text.listLiteral (bindings.map (·.coresText))

def gpusShown (bindings : List Binding) : String :=
  Text.listLiteral (bindings.map (·.gpusText))

/-- What a verdict can say without being closed by it. -/
inductive Remark where
  | moreHosts
  | unequalCores
  | moreCores
  | unequalGpus
  | moreGpus
  deriving DecidableEq, Repr

namespace Remark

/-- All remarks, in the order in which a verdict makes them. -/
def all : List Remark :=
  [.moreHosts, .unequalCores, .moreCores, .unequalGpus, .moreGpus]

/-- When a remark is made. The GPUs are passed over unless some are requested. -/
def Holds (bindings : List Binding) (shape : Shape) : Remark → Prop
  | .moreHosts => shape.hosts.toNat < hostCount bindings
  | .unequalCores => ∃ b ∈ bindings, ∃ b' ∈ bindings, b.cores.size ≠ b'.cores.size
  | .moreCores => ∃ b ∈ bindings, shape.threads.toNat < b.cores.size
  | .unequalGpus =>
    0 < shape.gpus ∧ ∃ b ∈ bindings, ∃ b' ∈ bindings, b.gpus.length ≠ b'.gpus.length
  | .moreGpus => 0 < shape.gpus ∧ ∃ b ∈ bindings, shape.gpus.toNat < b.gpus.length

instance (bindings : List Binding) (shape : Shape) : DecidablePred (Holds bindings shape)
  | .moreHosts => inferInstanceAs (Decidable (_ < _))
  | .unequalCores => inferInstanceAs (Decidable (∃ b ∈ bindings, ∃ b' ∈ bindings, _ ≠ _))
  | .moreCores => inferInstanceAs (Decidable (∃ b ∈ bindings, _ < _))
  | .unequalGpus => inferInstanceAs (Decidable (_ < _ ∧ ∃ b ∈ bindings, ∃ b' ∈ bindings, _ ≠ _))
  | .moreGpus => inferInstanceAs (Decidable (_ < _ ∧ ∃ b ∈ bindings, _ < _))

/-- How a remark is worded: what is remarked, and what was observed. -/
def message (bindings : List Binding) (shape : Shape) : Remark → String
  | .moreHosts =>
    "Executing on more than " ++ toString shape.hosts.toNat ++ " host(s): " ++
      hostsShown bindings ++ "."
  | .unequalCores => "cpusets have different sizes: " ++ coresShown bindings ++ "."
  | .moreCores => "Allowed to run on more cpus than requested: " ++ coresShown bindings ++ "."
  | .unequalGpus => "gpus have different sizes: " ++ gpusShown bindings ++ "."
  | .moreGpus => "Allowed to run on more GPUs than requested: " ++ gpusShown bindings ++ "."

end Remark

/-- What closes a verdict. -/
inductive Outcome where
  | coresMissing
  | hostsMissing
  | gpusMissing
  | passed
  deriving DecidableEq, Repr

/-- Whether some process has too few cores. A job without processes has none. -/
def LacksCores (bindings : List Binding) (shape : Shape) : Prop :=
  (∃ b ∈ bindings, b.cores.size < shape.threads.toNat) ∨ bindings = [] ∧ 0 < shape.threads

def LacksHosts (bindings : List Binding) (shape : Shape) : Prop :=
  hostCount bindings < shape.hosts.toNat

/-- Whether GPUs are requested and some process has too few of them. -/
def LacksGpus (bindings : List Binding) (shape : Shape) : Prop :=
  0 < shape.gpus ∧ ((∃ b ∈ bindings, b.gpus.length < shape.gpus.toNat) ∨ bindings = [])

namespace Outcome

/-- When a verdict is closed by an outcome. Cores count before hosts, and hosts before GPUs. -/
def Holds (bindings : List Binding) (shape : Shape) : Outcome → Prop
  | .coresMissing => LacksCores bindings shape
  | .hostsMissing => ¬ LacksCores bindings shape ∧ LacksHosts bindings shape
  | .gpusMissing =>
    ¬ LacksCores bindings shape ∧ ¬ LacksHosts bindings shape ∧ LacksGpus bindings shape
  | .passed =>
    ¬ LacksCores bindings shape ∧ ¬ LacksHosts bindings shape ∧ ¬ LacksGpus bindings shape

/-- The line of an outcome. What was observed is shown in full if nothing is missing, but GPUs
only if some are requested. -/
def line (bindings : List Binding) (shape : Shape) : Outcome → Tag × String
  | .coresMissing =>
    (.error, "Not allowed to run on requested cpus: " ++ coresShown bindings ++ ".")
  | .hostsMissing =>
    (.error, "Executing on fewer than " ++ toString shape.hosts.toNat ++ " hosts: " ++
      hostsShown bindings ++ ".")
  | .gpusMissing =>
    (.error, "Not allowed to run on requested GPUs: " ++ gpusShown bindings ++ ".")
  | .passed =>
    (.passed, hostsShown bindings ++ " " ++ coresShown bindings ++ " " ++
      if 0 < shape.gpus then gpusShown bindings else "[]")

lemma line_injective (bindings : List Binding) (shape : Shape) :
    Function.Injective (line bindings shape) := by
  intro o o' h
  have htag := congrArg Prod.fst h
  have hmessage := congrArg (fun l => l.2.toList) h
  cases o <;> cases o' <;> simp [line, String.toList_append] at htag hmessage ⊢

lemma exists_holds (bindings : List Binding) (shape : Shape) :
    ∃ o : Outcome, o.Holds bindings shape := by
  by_cases hcores : LacksCores bindings shape
  · exact ⟨.coresMissing, hcores⟩
  by_cases hhosts : LacksHosts bindings shape
  · exact ⟨.hostsMissing, hcores, hhosts⟩
  by_cases hgpus : LacksGpus bindings shape
  · exact ⟨.gpusMissing, hcores, hhosts, hgpus⟩
  · exact ⟨.passed, hcores, hhosts, hgpus⟩

lemma eq_of_holds {bindings : List Binding} {shape : Shape} {o o' : Outcome}
    (h : o.Holds bindings shape) (h' : o'.Holds bindings shape) : o = o' := by
  cases o <;> cases o' <;> simp_all [Holds]

end Outcome

/-! ## The verdict on a job -/

section Conditions

variable (size : Binding → Nat) (bindings : List Binding)

lemma smallest_sizes_lt_iff :
    smallest (sizes size bindings) < n ↔
      (∃ b ∈ bindings, size b < n) ∨ bindings = [] ∧ 0 < n := by
  have hnil : (sizes size bindings).toList = [] ↔ bindings = [] := by
    rw [sizes, SortedSet.toList_ofList, ← List.length_eq_zero_iff, Finset.length_sort]
    simp
  have hmem : (∃ x ∈ (sizes size bindings).toList, x < n) ↔ ∃ b ∈ bindings, size b < n := by
    rw [sizes, SortedSet.toList_ofList]
    simp
  rw [smallest_lt_iff, hnil, hmem]

lemma lt_largest_sizes_iff : n < largest (sizes size bindings) ↔ ∃ b ∈ bindings, n < size b := by
  rw [lt_largest_iff, sizes, SortedSet.toList_ofList]
  simp

lemma one_lt_size_sizes_iff :
    1 < (sizes size bindings).size ↔ ∃ b ∈ bindings, ∃ b' ∈ bindings, size b ≠ size b' := by
  rw [sizes, SortedSet.one_lt_size_ofList_iff]
  simp

end Conditions

lemma lineIf_congr {p q : Prop} [Decidable p] [Decidable q] (h : p ↔ q) (tag : Tag)
    (message : String) : lineIf p tag message = lineIf q tag message := by
  simp only [lineIf, h]

/-- The remarks that hold, as lines. -/
def remarkLines (bindings : List Binding) (shape : Shape) : List (Tag × String) :=
  (Remark.all.filter fun r => r.Holds bindings shape).map fun r => (.warn, r.message bindings shape)

lemma remarkLines_eq (bindings : List Binding) (shape : Shape) :
    remarkLines bindings shape =
      Remark.all.flatMap fun r =>
        lineIf (r.Holds bindings shape) .warn (r.message bindings shape) := by
  rw [remarkLines]
  induction Remark.all with
  | nil => rfl
  | cons r rs ih =>
    rw [List.flatMap_cons, ← ih, List.filter_cons, lineIf]
    by_cases h : r.Holds bindings shape <;> simp [h]

variable (bindings : List Binding) (shape : Shape)

lemma hostWarnings_eq :
    hostWarnings (hostnames bindings) shape.hosts (hostsShown bindings) =
      lineIf (Remark.moreHosts.Holds bindings shape) .warn
        (Remark.moreHosts.message bindings shape) := by
  rw [hostWarnings, hostnames, SortedSet.size_ofList]
  rfl

lemma coreWarnings_eq :
    sizeWarnings "cpusets" "cpus" (sizes (·.cores.size) bindings) shape.threads
        (coresShown bindings) =
      lineIf (Remark.unequalCores.Holds bindings shape) .warn
          (Remark.unequalCores.message bindings shape) ++
        lineIf (Remark.moreCores.Holds bindings shape) .warn
          (Remark.moreCores.message bindings shape) := by
  rw [sizeWarnings, lineIf_congr (one_lt_size_sizes_iff _ bindings),
    lineIf_congr (lt_largest_sizes_iff _ bindings)]
  rfl

lemma gpuWarnings_eq :
    (if 0 < shape.gpus then
        sizeWarnings "gpus" "GPUs" (sizes (·.gpus.length) bindings) shape.gpus (gpusShown bindings)
      else []) =
      lineIf (Remark.unequalGpus.Holds bindings shape) .warn
          (Remark.unequalGpus.message bindings shape) ++
        lineIf (Remark.moreGpus.Holds bindings shape) .warn
          (Remark.moreGpus.message bindings shape) := by
  by_cases h : 0 < shape.gpus
  · have hunequal : 1 < (sizes (·.gpus.length) bindings).size ↔
        Remark.unequalGpus.Holds bindings shape := by
      rw [one_lt_size_sizes_iff, Remark.Holds, and_iff_right h]
    have hmore : shape.gpus.toNat < largest (sizes (·.gpus.length) bindings) ↔
        Remark.moreGpus.Holds bindings shape := by
      rw [lt_largest_sizes_iff, Remark.Holds, and_iff_right h]
    rw [if_pos h, sizeWarnings, lineIf_congr hunequal, lineIf_congr hmore]
    rfl
  · simp [lineIf, Remark.Holds, h]

lemma smallest_cores_lt_iff :
    smallest (sizes (·.cores.size) bindings) < shape.threads.toNat ↔ LacksCores bindings shape :=
  smallest_sizes_lt_iff _ bindings

lemma size_hostnames_lt_iff :
    (hostnames bindings).size < shape.hosts.toNat ↔ LacksHosts bindings shape := by
  rw [hostnames, SortedSet.size_ofList]
  rfl

lemma smallest_gpus_lt_iff :
    0 < shape.gpus ∧ smallest (sizes (·.gpus.length) bindings) < shape.gpus.toNat ↔
      LacksGpus bindings shape := by
  rw [smallest_sizes_lt_iff, LacksGpus]
  refine and_congr_right fun h => ?_
  have hpos : 0 < shape.gpus.toNat := UInt32.lt_iff_toNat_lt.1 h
  rw [and_iff_left hpos]

lemma setLiteral_hostnames :
    Text.setLiteral (hostnames bindings).toList = hostsShown bindings := by
  rw [hostnames, SortedSet.toList_ofList]
  rfl

/-- The verdict on a job is its remarks and its outcome. -/
lemma lines_classify {o : Outcome} (ho : o.Holds bindings shape) :
    (classify bindings shape).lines = remarkLines bindings shape ++ [o.line bindings shape] := by
  have hgpus : (if 0 < shape.gpus then
      sizeWarnings "gpus" "GPUs" (sizes (·.gpus.length) bindings) shape.gpus
        (if 0 < shape.gpus then gpusShown bindings else Text.listLiteral []) else []) =
      if 0 < shape.gpus then
        sizeWarnings "gpus" "GPUs" (sizes (·.gpus.length) bindings) shape.gpus (gpusShown bindings)
      else [] := by
    split <;> rfl
  rw [classify]
  dsimp only
  rw [setLiteral_hostnames, ← coresShown, ← gpusShown, hgpus, hostWarnings_eq, coreWarnings_eq,
    gpuWarnings_eq, remarkLines_eq]
  congr 1
  -- The warnings are compared in their order, the line at the end by the outcome that holds.
  · simp only [Remark.all, List.flatMap_cons, List.flatMap_nil, List.append_nil, List.append_assoc]
  · have hcores := smallest_cores_lt_iff bindings shape
    have hhosts := size_hostnames_lt_iff bindings shape
    have hgpus := smallest_gpus_lt_iff bindings shape
    cases o with
    | coresMissing =>
      rw [if_pos (hcores.2 ho)]
      rfl
    | hostsMissing =>
      obtain ⟨hc, hh⟩ := ho
      rw [if_neg (mt hcores.1 hc), if_pos (hhosts.2 hh)]
      rfl
    | gpusMissing =>
      obtain ⟨hc, hh, hg⟩ := ho
      rw [if_neg (mt hcores.1 hc), if_neg (mt hhosts.1 hh), if_pos (hgpus.2 hg), if_pos hg.1]
      rfl
    | passed =>
      obtain ⟨hc, hh, hg⟩ := ho
      rw [if_neg (mt hcores.1 hc), if_neg (mt hhosts.1 hh), if_neg (mt hgpus.1 hg)]
      rfl

/-! ## Verdicts line by line -/

/-- The tags of the lines of a verdict, in order. -/
def tags (v : Verdict) : List Tag :=
  v.lines.map (·.1)

/-- The verdict that some lines make, if it takes each of them. -/
def ofLines? (lines : List (Tag × String)) : Option Verdict :=
  lines.foldlM (fun v l => v.add? l.1 l.2) .empty

lemma add?_of_open {v : Verdict} (h : ∀ l ∈ v.lines, l.1.isTerminal = false) (l : Tag × String) :
    v.add? l.1 l.2 = some ⟨v.lines ++ [l]⟩ := by
  have hnone : v.terminal? = none := by
    rw [terminal?, List.find?_eq_none]
    intro l hl
    rw [h l hl]
    exact Bool.false_ne_true
  simp [add?, hnone]

/-- An open verdict takes warnings and after them one line, whatever that line is. -/
lemma foldlM_add?_append {ls ws : List (Tag × String)} (l : Tag × String)
    (hls : ∀ w ∈ ls, w.1.isTerminal = false) (hws : ∀ w ∈ ws, w.1.isTerminal = false) :
    (ws ++ [l]).foldlM (fun v l => add? v l.1 l.2) ⟨ls⟩ = some ⟨ls ++ (ws ++ [l])⟩ := by
  induction ws generalizing ls with
  | nil =>
    rw [List.nil_append, List.foldlM_cons, add?_of_open hls]
    rfl
  | cons w ws ih =>
    obtain ⟨hw, hws⟩ := List.forall_mem_cons.1 hws
    have hls' : ∀ w' ∈ ls ++ [w], w'.1.isTerminal = false := by
      rw [List.forall_mem_append, List.forall_mem_singleton]
      exact ⟨hls, hw⟩
    rw [List.cons_append, List.foldlM_cons, add?_of_open hls]
    show (ws ++ [l]).foldlM _ (⟨ls ++ [w]⟩ : Verdict) = _
    rw [ih hls' hws, List.append_assoc, List.singleton_append]

lemma ofLines?_append {ws : List (Tag × String)} (l : Tag × String)
    (hws : ∀ w ∈ ws, w.1.isTerminal = false) : ofLines? (ws ++ [l]) = some ⟨ws ++ [l]⟩ :=
  foldlM_add?_append l (List.forall_mem_nil _) hws

lemma isTerminal_of_mem_remarkLines {l : Tag × String} (h : l ∈ remarkLines bindings shape) :
    l.1.isTerminal = false := by
  obtain ⟨r, -, rfl⟩ := List.mem_map.1 h
  rfl

lemma Outcome.isTerminal_line (o : Outcome) : (o.line bindings shape).1.isTerminal = true := by
  cases o <;> rfl

/-- The verdict on the bindings of a job. Its lines can be added one after the other, so that it is
closed only once. The last of them is the line of the outcome that holds, the others are the
remarks that hold, in the order of all remarks. -/
theorem classify_spec :
    ofLines? (classify bindings shape).lines = some (classify bindings shape) ∧
    ∃ terminal : Tag × String,
      (classify bindings shape).lines =
        ((Remark.all.filter fun r => r.Holds bindings shape).map fun r =>
          (.warn, r.message bindings shape)) ++ [terminal] ∧
      (classify bindings shape).lines.filter (·.1.isTerminal) = [terminal] ∧
      ∀ o : Outcome, terminal = o.line bindings shape ↔ o.Holds bindings shape := by
  obtain ⟨o, ho⟩ := Outcome.exists_holds bindings shape
  have hlines := lines_classify bindings shape ho
  -- No remark closes the verdict, so each line is taken, and the last one is the only terminal one.
  have hopen : ∀ l ∈ remarkLines bindings shape, l.1.isTerminal = false := fun l hl =>
    isTerminal_of_mem_remarkLines bindings shape hl
  refine ⟨?_, o.line bindings shape, hlines, ?_, ?_⟩
  · rw [hlines, ofLines?_append _ hopen, ← hlines]
  · have hnone : (remarkLines bindings shape).filter (·.1.isTerminal) = [] :=
      List.filter_eq_nil_iff.2 fun l hl => by simp [hopen l hl]
    rw [hlines, List.filter_append, hnone, List.nil_append,
      List.filter_singleton, o.isTerminal_line]
    rfl
  · intro o'
    rw [(Outcome.line_injective bindings shape).eq_iff]
    constructor
    · rintro rfl
      exact ho
    · exact Outcome.eq_of_holds ho

end Verdict

end JobBinding

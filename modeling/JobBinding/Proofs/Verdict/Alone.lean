import JobBinding.Proofs.Verdict.Classify

/-!
# Processes that are alone

A process that is alone is judged by a rule of its own, which compares one kind of resource with the
request and accepts nothing but the number requested (`tags_classifySingle`). The rule for jobs can
be asked about the same process, as a job of one: on one host it warns of what is too much, and what
is too little closes the verdict (`tags_classify_alone`). Both rules are therefore settled by the
same comparisons, and `classifySingle_agrees` is what is left to compare between them.
-/

namespace JobBinding.Verdict

variable (b : Binding) (shape : Shape)

/-! ## The rule for one process -/

/-- The size that the rule for one process looks at: of the GPUs if any are requested, of the cpuset
otherwise. -/
def checkedSize : Nat :=
  if 0 < shape.gpus then b.gpus.length else b.cores.size

/-- The size that is requested of what is looked at. -/
def requestedSize : Nat :=
  if 0 < shape.gpus then shape.gpus.toNat else shape.threads.toNat

/-- The tag for an observed size, by how it compares with the requested one. -/
def tagFor : Ordering → Tag
  | .lt => .error
  | .eq => .passed
  | .gt => .warn

lemma tags_classifySize (resource : String) (size : Nat) (requested : UInt32) (shown : String) :
    (classifySize resource size requested shown).tags =
      [tagFor (compare size requested.toNat)] := by
  rw [classifySize]
  rcases Nat.lt_trichotomy size requested.toNat with hlt | heq | hgt
  · rw [if_neg (Nat.lt_asymm hlt), if_pos hlt, Nat.compare_eq_lt.2 hlt]
    rfl
  · rw [heq, if_neg (Nat.lt_irrefl _), if_neg (Nat.lt_irrefl _), Nat.compare_eq_eq.2 rfl]
    rfl
  · rw [if_pos hgt, Nat.compare_eq_gt.2 hgt]
    rfl

lemma tags_classifySingle :
    (classifySingle b shape).tags =
      [tagFor (compare (checkedSize b shape) (requestedSize shape))] := by
  unfold classifySingle checkedSize requestedSize
  split
  · exact tags_classifySize _ _ _ _
  · exact tags_classifySize _ _ _ _

/-! ## A job of one process -/

lemma map_fst_lineIf {p : Prop} [Decidable p] (tag : Tag) (message : String) :
    (lineIf p tag message).map (·.1) = if p then [tag] else [] := by
  unfold lineIf
  split <;> rfl

lemma hostCount_singleton : hostCount [b] = 1 := rfl

variable {b shape}

lemma lacksCores_singleton : LacksCores [b] shape ↔ b.cores.size < shape.threads.toNat := by
  simp [LacksCores]

lemma lacksGpus_singleton :
    LacksGpus [b] shape ↔ 0 < shape.gpus ∧ b.gpus.length < shape.gpus.toNat := by
  simp [LacksGpus]

lemma map_fst_remarkLines_singleton (hhosts : shape.hosts = 1) :
    (remarkLines [b] shape).map (·.1) =
      (if shape.threads.toNat < b.cores.size then [.warn] else []) ++
        if 0 < shape.gpus ∧ shape.gpus.toNat < b.gpus.length then [.warn] else [] := by
  rw [remarkLines_eq, List.map_flatMap]
  simp [map_fst_lineIf, Remark.all, Remark.Holds, hostCount_singleton, hhosts]

lemma tag_outcome_singleton (hhosts : shape.hosts = 1) {o : Outcome} (ho : o.Holds [b] shape) :
    (o.line [b] shape).1 =
      if b.cores.size < shape.threads.toNat ∨ 0 < shape.gpus ∧ b.gpus.length < shape.gpus.toNat
      then .error else .passed := by
  have hhost : ¬ LacksHosts [b] shape := by
    rw [LacksHosts, hostCount_singleton, hhosts]
    exact Nat.lt_irrefl 1
  cases o with
  | coresMissing =>
    rw [if_pos (.inl (lacksCores_singleton.1 ho))]
    rfl
  | hostsMissing => exact absurd ho.2 hhost
  | gpusMissing =>
    rw [if_pos (.inr (lacksGpus_singleton.1 ho.2.2))]
    rfl
  | passed =>
    rw [if_neg (not_or.2 ⟨mt lacksCores_singleton.2 ho.1, mt lacksGpus_singleton.2 ho.2.2⟩)]
    rfl

lemma tags_classify_alone (hhosts : shape.hosts = 1) :
    (classify [b] shape).tags =
      (if shape.threads.toNat < b.cores.size then [.warn] else []) ++
        (if 0 < shape.gpus ∧ shape.gpus.toNat < b.gpus.length then [.warn] else []) ++
          [if b.cores.size < shape.threads.toNat ∨
              0 < shape.gpus ∧ b.gpus.length < shape.gpus.toNat then .error else .passed] := by
  obtain ⟨o, ho⟩ := Outcome.exists_holds [b] shape
  rw [tags, lines_classify [b] shape ho, List.map_append, map_fst_remarkLines_singleton hhosts,
    List.map_singleton, tag_outcome_singleton hhosts ho]

/-- The tags of a job of one process for which no GPUs are requested, by how the size of its cpuset
compares with the requested one. -/
def tagsFor : Ordering → List Tag
  | .lt => [.error]
  | .eq => [.passed]
  | .gt => [.warn, .passed]

lemma tags_classify_alone_of_no_gpus (hhosts : shape.hosts = 1) (hgpus : shape.gpus = 0) :
    (classify [b] shape).tags = tagsFor (compare b.cores.size shape.threads.toNat) := by
  have hnone : ¬ 0 < shape.gpus := by
    rw [hgpus]
    exact UInt32.lt_irrefl 0
  rw [tags_classify_alone hhosts]
  simp only [hnone, false_and, or_false, if_false, List.append_nil]
  rcases Nat.lt_trichotomy b.cores.size shape.threads.toNat with hlt | heq | hgt
  · rw [if_neg (Nat.lt_asymm hlt), if_pos hlt, Nat.compare_eq_lt.2 hlt]
    rfl
  · rw [heq, if_neg (Nat.lt_irrefl _), if_neg (Nat.lt_irrefl _), Nat.compare_eq_eq.2 rfl]
    rfl
  · rw [if_pos hgt, if_neg (Nat.lt_asymm hgt), Nat.compare_eq_gt.2 hgt]
    rfl

/-! ## Both rules on one process -/

lemma passed_mem_tags {v : Verdict} (h : v.isPassed = true) : .passed ∈ v.tags := by
  rw [isPassed, Option.any_eq_true] at h
  obtain ⟨l, hl, hpassed⟩ := h
  exact List.mem_map.2 ⟨l, List.mem_of_find?_eq_some hl, of_decide_eq_true hpassed⟩

/-- A job of one process passes unless something is missing. -/
lemma passed_mem_tags_alone_iff (hhosts : shape.hosts = 1) :
    .passed ∈ (classify [b] shape).tags ↔
      ¬ (b.cores.size < shape.threads.toNat ∨
        0 < shape.gpus ∧ b.gpus.length < shape.gpus.toNat) := by
  rw [tags_classify_alone hhosts, List.mem_append, List.mem_append, List.mem_singleton]
  constructor
  · rintro ((h | h) | h) hlacks
    · split at h <;> simp at h
    · split at h <;> simp at h
    · rw [if_pos hlacks] at h
      cases h
  · intro h
    exact .inr (if_neg h).symm

/-- A job of one process is warned of what is too much. -/
lemma warn_mem_tags_alone_iff (hhosts : shape.hosts = 1) :
    .warn ∈ (classify [b] shape).tags ↔
      shape.threads.toNat < b.cores.size ∨
        0 < shape.gpus ∧ shape.gpus.toNat < b.gpus.length := by
  rw [tags_classify_alone hhosts, List.mem_append, List.mem_append, List.mem_singleton]
  constructor
  · rintro ((h | h) | h)
    · split at h
      · next hcores => exact .inl hcores
      · cases h
    · split at h
      · next hgpus => exact .inr hgpus
      · cases h
    · split at h <;> cases h
  · rintro (h | h)
    · exact .inl (.inl (by simp [h]))
    · exact .inl (.inr (by simp [h]))

/-- A job that lacks GPUs does not pass, whatever else it has. -/
lemma isPassed_classify_alone_of_lt (hhosts : shape.hosts = 1) (hgpus : 0 < shape.gpus)
    (h : b.gpus.length < shape.gpus.toNat) : (classify [b] shape).isPassed = false := by
  apply Bool.eq_false_of_not_eq_true
  intro hpassed
  exact (passed_mem_tags_alone_iff hhosts).1 (passed_mem_tags hpassed) (.inr ⟨hgpus, h⟩)

/-- A job of one process whose only line is PASSED has the GPUs that are requested. -/
lemma length_gpus_of_tags_eq_passed (hhosts : shape.hosts = 1) (hgpus : 0 < shape.gpus)
    (h : (classify [b] shape).tags = [.passed]) : b.gpus.length = shape.gpus.toNat := by
  have hpassed := (passed_mem_tags_alone_iff (b := b) hhosts).1 (by simp [h])
  have hwarn := mt (warn_mem_tags_alone_iff (b := b) hhosts).2 (by simp [h])
  have hle : shape.gpus.toNat ≤ b.gpus.length := Nat.not_lt.1 fun hlt => hpassed (.inr ⟨hgpus, hlt⟩)
  have hge : b.gpus.length ≤ shape.gpus.toNat := Nat.not_lt.1 fun hlt => hwarn (.inr ⟨hgpus, hlt⟩)
  exact Nat.le_antisymm hge hle

/-- The two rules on one process and one host. If no GPUs are requested they agree, where a process
with more cores than requested passes with a warning as a job, and only gets the warning alone. If
GPUs are requested, the rule for one process passes what the rule for jobs passes without warning,
finds no error where that passes, and does not look at the cores. -/
theorem classifySingle_agrees (b : Binding) (hhosts : shape.hosts = 1) :
    (shape.gpus = 0 →
      ((classifySingle b shape).tags = [.passed] ↔ (classify [b] shape).tags = [.passed]) ∧
      ((classifySingle b shape).tags = [.error] ↔ (classify [b] shape).tags = [.error]) ∧
      ((classifySingle b shape).tags = [.warn] ↔ (classify [b] shape).tags = [.warn, .passed]) ∧
      ((classifySingle b shape).tags, (classify [b] shape).tags) ∈
        [([Tag.passed], [Tag.passed]), ([.error], [.error]), ([.warn], [.warn, .passed])]) ∧
    (0 < shape.gpus →
      ((classify [b] shape).tags = [.passed] → (classifySingle b shape).tags = [.passed]) ∧
      ((classifySingle b shape).tags = [.error] → (classify [b] shape).isPassed = false) ∧
      ∀ cores, classifySingle { b with cores := cores } shape = classifySingle b shape) := by
  refine ⟨fun hgpus => ?_, fun hgpus => ⟨fun h => ?_, fun h => ?_, fun cores => ?_⟩⟩
  -- Without GPUs both verdicts compare cores with threads; each of the results is evaluated.
  · have hnone : ¬ 0 < shape.gpus := by
      rw [hgpus]
      exact UInt32.lt_irrefl 0
    rw [tags_classifySingle, tags_classify_alone_of_no_gpus hhosts hgpus, checkedSize,
      requestedSize, if_neg hnone, if_neg hnone]
    cases compare b.cores.size shape.threads.toNat <;> decide
  · have hlength := length_gpus_of_tags_eq_passed hhosts hgpus h
    rw [tags_classifySingle, checkedSize, requestedSize, if_pos hgpus, if_pos hgpus, hlength,
      Nat.compare_eq_eq.2 rfl]
    rfl
  · apply isPassed_classify_alone_of_lt hhosts hgpus
    rw [tags_classifySingle, checkedSize, requestedSize, if_pos hgpus, if_pos hgpus] at h
    cases hcompare : compare b.gpus.length shape.gpus.toNat with
    | lt => exact Nat.compare_eq_lt.1 hcompare
    | eq =>
      rw [hcompare] at h
      cases h
    | gt =>
      rw [hcompare] at h
      cases h
  · rw [classifySingle, classifySingle, if_pos hgpus, if_pos hgpus]
    rfl

/-- A process on two cores where one is requested: the rule for jobs passes it with a warning. A
process with two GPUs where one is requested, whose cores are too few: the rule for jobs does not
pass it, and the rule for one process says the same of any cores. -/
theorem classifySingle_agrees_two_cores :
    ((classifySingle ⟨"a", .ofList [0, 1], []⟩ ⟨1, 1, 1, 0, .none⟩).tags = [.warn] ↔
        (classify [⟨"a", .ofList [0, 1], []⟩] ⟨1, 1, 1, 0, .none⟩).tags = [.warn, .passed]) ∧
      classifySingle ⟨"a", .ofList [0, 1], ["x", "y"]⟩ ⟨1, 3, 1, 1, .amd⟩ =
        classifySingle ⟨"a", .empty, ["x", "y"]⟩ ⟨1, 3, 1, 1, .amd⟩ := by
  obtain ⟨hcores, -⟩ := classifySingle_agrees ⟨"a", .ofList [0, 1], []⟩
    (rfl : (⟨1, 1, 1, 0, .none⟩ : Shape).hosts = 1)
  obtain ⟨-, hgpus⟩ := classifySingle_agrees ⟨"a", .empty, ["x", "y"]⟩
    (rfl : (⟨1, 3, 1, 1, .amd⟩ : Shape).hosts = 1)
  exact ⟨(hcores rfl).2.2.1, (hgpus (by decide)).2.2 (.ofList [0, 1])⟩

end JobBinding.Verdict

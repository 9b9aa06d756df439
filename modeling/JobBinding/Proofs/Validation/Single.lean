import JobBinding.Proofs.Validation.Report
import JobBinding.Proofs.Verdict.Alone

/-!
# Validation by one process, from the queries to the report

What a process does that validates its own binding. The queries are made in order and the first that
fails is all that happens (`observe_of_failures`). Otherwise the verdict is on the one size that is
looked at, and a job on another cluster than it was submitted from keeps nothing of it but the
warnings (`singleVerdict_of_mismatch`).

The report is the text of the verdict, in place of any older report. Its lines are those of the
verdict only where the messages have no line feeds: names of clusters and GPUs stand in the messages
as they are.
-/

namespace JobBinding

open Text

/-! ## Queries -/

namespace Probe

def failure? {α : Type} : Except Failure α → Option Failure
  | .error e => some e
  | .ok _ => none

/-- The GPUs that are observed for a shape. If none are requested there is no query. -/
def requestedGpus (probe : Probe) (shape : Shape) : Except Failure (List String) :=
  if 0 < shape.gpus then probe.gpus shape.vendor else .ok []

/-- What the queries for a shape fail with, in the order in which they are made: for the GPUs, for
the name of the host, for the cores. -/
def failures (probe : Probe) (shape : Shape) : List Failure :=
  (failure? (probe.requestedGpus shape)).toList ++ (failure? probe.hostname).toList ++
    (failure? probe.cores).toList

/-- Whether a binding is what the queries for a shape answer. -/
structure Observes (probe : Probe) (shape : Shape) (b : Binding) : Prop where
  gpus : probe.requestedGpus shape = .ok b.gpus
  hostname : probe.hostname = .ok b.hostname
  cores : probe.cores = .ok b.cores

variable {probe : Probe} {shape : Shape}

lemma observe_eq (probe : Probe) (shape : Shape) :
    probe.observe shape.probedVendor? = do
      let gpus ← probe.requestedGpus shape
      let hostname ← probe.hostname
      let cores ← probe.cores
      return ⟨hostname, cores, gpus⟩ := by
  unfold observe requestedGpus Shape.probedVendor?
  by_cases h : 0 < shape.gpus
  · simp only [if_pos h]
  · simp only [if_neg h]

/-- Either some query fails, and the first that does is all that comes of it, or all are
answered. -/
lemma observe_cases (probe : Probe) (shape : Shape) :
    (∃ e, (probe.failures shape).head? = some e ∧ probe.observe shape.probedVendor? = .error e) ∨
      probe.failures shape = [] ∧
        ∃ b, probe.Observes shape b ∧ probe.observe shape.probedVendor? = .ok b := by
  rw [observe_eq]
  unfold failures
  cases hgpus : probe.requestedGpus shape with
  | error e => exact .inl ⟨e, rfl, rfl⟩
  | ok gpus =>
    cases hhostname : probe.hostname with
    | error e => exact .inl ⟨e, rfl, rfl⟩
    | ok hostname =>
      cases hcores : probe.cores with
      | error e => exact .inl ⟨e, rfl, rfl⟩
      | ok cores => exact .inr ⟨rfl, ⟨hostname, cores, gpus⟩, ⟨hgpus, hhostname, hcores⟩, rfl⟩

lemma observe_of_failures {e : Failure} (h : (probe.failures shape).head? = some e) :
    probe.observe shape.probedVendor? = .error e := by
  rcases observe_cases probe shape with ⟨e', hfirst, hobserve⟩ | ⟨hnone, -⟩
  · rw [h] at hfirst
    cases hfirst
    exact hobserve
  · rw [hnone] at h
    cases h

lemma exists_observes (h : probe.failures shape = []) :
    ∃ b, probe.Observes shape b ∧ probe.observe shape.probedVendor? = .ok b := by
  rcases observe_cases probe shape with ⟨e, hfirst, -⟩ | ⟨-, hb⟩
  · rw [h] at hfirst
    cases hfirst
  · exact hb

end Probe

/-! ## Names of the cluster -/

lemma Origin.mismatch?_eq_none_iff {o : Origin} :
    o.mismatch? = none ↔ o.submitted = o.executed := by
  unfold mismatch?
  split
  · next h => simp [h]
  · next h => simp [h]

namespace Validation

open Verdict

variable {b : Binding} {shape : Shape} {origin : Option Origin}

lemma bind_mismatch?_eq_none_iff :
    origin.bind Origin.mismatch? = none ↔ ∀ o, origin = some o → o.submitted = o.executed := by
  cases origin with
  | none => simp
  | some o => simp [Origin.mismatch?_eq_none_iff]

/-! ## The verdict on a binding -/

lemma isPassed_iff_of_tags_eq_singleton {v : Verdict} {tag : Tag} (h : v.tags = [tag]) :
    v.isPassed = true ↔ tag = .passed := by
  obtain ⟨l, hlines, rfl⟩ := List.map_eq_singleton_iff.1 h
  rw [isPassed, terminal?, hlines]
  cases htag : l.1 <;> simp [htag, Tag.isTerminal]

/-- Alone, a process passes with exactly the size that is requested. -/
lemma isPassed_classifySingle_iff :
    (classifySingle b shape).isPassed = true ↔ checkedSize b shape = requestedSize shape := by
  rw [isPassed_iff_of_tags_eq_singleton (tags_classifySingle b shape), ← Nat.compare_eq_eq]
  cases compare (checkedSize b shape) (requestedSize shape) <;> simp [tagFor]

lemma singleVerdict_of_eq_none (h : origin.bind Origin.mismatch? = none) :
    singleVerdict b shape origin = classifySingle b shape := by
  simp only [singleVerdict, h]

/-- On another cluster the verdict is the ERROR about the names, before the warnings about the
binding. -/
lemma lines_singleVerdict_of_mismatch {message : String}
    (h : origin.bind Origin.mismatch? = some message) :
    (singleVerdict b shape origin).lines =
      (.error, message) :: (classifySingle b shape).lines.filter (·.1 = .warn) := by
  have hwarn : ∀ l : Tag × String, (!l.1.isTerminal) = decide (l.1 = .warn) := by
    rintro ⟨tag, message⟩
    cases tag <;> rfl
  simp only [singleVerdict, h, fail, hwarn]

lemma filter_isTerminal_of_mismatch {message : String}
    (h : origin.bind Origin.mismatch? = some message) :
    (singleVerdict b shape origin).lines.filter (·.1.isTerminal) = [(.error, message)] := by
  rw [lines_singleVerdict_of_mismatch h, List.filter_cons_of_pos rfl, List.filter_filter,
    List.filter_eq_nil_iff.2]
  rintro ⟨tag, message⟩ -
  cases tag <;> simp [Tag.isTerminal]

lemma isPassed_singleVerdict_iff :
    (singleVerdict b shape origin).isPassed = true ↔
      checkedSize b shape = requestedSize shape ∧
        ∀ o, origin = some o → o.submitted = o.executed := by
  rw [← bind_mismatch?_eq_none_iff]
  cases h : origin.bind Origin.mismatch? with
  | none => rw [singleVerdict_of_eq_none h, isPassed_classifySingle_iff, and_iff_left rfl]
  | some message =>
    rw [isPassed, terminal?, lines_singleVerdict_of_mismatch h]
    simp [Tag.isTerminal]

/-! ## The lines of the report -/

lemma getLast?_toList_append (s : String) {t : String} {c : Char}
    (h : t.toList.getLast? = some c) : (s ++ t).toList.getLast? = some c := by
  rw [String.toList_append, List.getLast?_append, h, Option.some_or]

lemma getLast?_message_classifySize {resource shown : String} {size : Nat} {requested : UInt32}
    (hshown : shown.toList.getLast? ≠ some '\r') {l : Tag × String}
    (hl : l ∈ (classifySize resource size requested shown).lines) :
    l.2.toList.getLast? ≠ some '\r' := by
  have hdot (s : String) : (s ++ ".").toList.getLast? ≠ some '\r' := by
    rw [getLast?_toList_append s (by decide : ".".toList.getLast? = some '.')]
    decide
  unfold classifySize at hl
  split at hl
  · rw [List.mem_singleton.1 hl]
    exact hdot _
  split at hl
  · rw [List.mem_singleton.1 hl]
    exact hdot _
  · rw [List.mem_singleton.1 hl]
    exact hshown

lemma getLast?_message_classifySingle {l : Tag × String} (hl : l ∈ (classifySingle b shape).lines) :
    l.2.toList.getLast? ≠ some '\r' := by
  unfold classifySingle at hl
  split at hl
  · refine getLast?_message_classifySize ?_ hl
    rw [Binding.gpusText, listLiteral,
      getLast?_toList_append _ (by decide : "]".toList.getLast? = some ']')]
    decide
  · refine getLast?_message_classifySize ?_ hl
    rw [Binding.coresText, setLiteral,
      getLast?_toList_append _ (by decide : "\x7d".toList.getLast? = some '\x7d')]
    decide

lemma getLast?_message_singleVerdict {l : Tag × String}
    (hl : l ∈ (singleVerdict b shape origin).lines) : l.2.toList.getLast? ≠ some '\r' := by
  cases h : origin.bind Origin.mismatch? with
  | none =>
    rw [singleVerdict_of_eq_none h] at hl
    exact getLast?_message_classifySingle hl
  | some message =>
    rw [lines_singleVerdict_of_mismatch h] at hl
    rcases List.mem_cons.1 hl with rfl | hl
    · obtain ⟨o, -, ho⟩ := Option.bind_eq_some_iff.1 h
      unfold Origin.mismatch? at ho
      split at ho
      · cases ho
      · cases ho
        rw [getLast?_toList_append _ (by decide : ").".toList.getLast? = some '.')]
        decide
    · exact getLast?_message_classifySingle (List.mem_of_mem_filter hl)

/-- The report of a process lists the lines of its verdict exactly if each message is one line. -/
lemma listsLines_singleVerdict_iff :
    (singleVerdict b shape origin).ListsLines ↔
      ∀ l ∈ (singleVerdict b shape origin).lines, OneLine l.2 :=
  listsLines_iff fun _ => getLast?_message_singleVerdict

/-! ## The whole validation -/

/-- What a process does that validates its own binding.

The first query that fails is the failure of the validation, and no file is touched. If all are
answered, there is a verdict on what was observed. It is returned when it could be written, and it
is then the text of the report, whatever was there before. The verdict passed exactly if the size
that is looked at is the requested one and the job is on the cluster it was submitted from. If it is
not, the ERROR about the cluster is the first line and the only terminal one, and the warnings about
the binding follow. The lines of the report are those of the verdict exactly if no message has a
line feed, and so whenever no name has one. -/
theorem single_spec (probe : Probe) (origin : Option Origin) (shape : Shape) (file : ReportFile)
    (tree : FileTree) :
    (∀ e, (probe.failures shape).head? = some e →
      (single probe origin shape file).run tree = .error e tree) ∧
    (probe.failures shape = [] → ∃ b verdict, probe.Observes shape b ∧
      (∀ after, (file.write verdict).run tree = .ok () after →
        (single probe origin shape file).run tree = .ok verdict after ∧
          file.text? after = some verdict.text) ∧
      (∀ e after, (file.write verdict).run tree = .error e after →
        (single probe origin shape file).run tree = .error e after) ∧
      (verdict.isPassed = true ↔ checkedSize b shape = requestedSize shape ∧
        ∀ o, origin = some o → o.submitted = o.executed) ∧
      ((∀ o, origin = some o → o.submitted = o.executed) → verdict = classifySingle b shape) ∧
      (∀ o, origin = some o → o.submitted ≠ o.executed → ∃ message, o.mismatch? = some message ∧
        verdict.lines = (.error, message) :: (classifySingle b shape).lines.filter (·.1 = .warn) ∧
          verdict.lines.filter (·.1.isTerminal) = [(.error, message)]) ∧
      (verdict.ListsLines ↔ ∀ l ∈ verdict.lines, OneLine l.2) ∧
      ((∀ gpu ∈ b.gpus, OneLine gpu) →
        (∀ o, origin = some o → OneLine o.submitted ∧ OneLine o.executed) →
          verdict.ListsLines)) := by
  refine ⟨fun e hfirst => ?_, fun hanswered => ?_⟩
  · exact run_single_of_error (Probe.observe_of_failures hfirst)
  obtain ⟨b, hb, hobserve⟩ := Probe.exists_observes hanswered
  refine ⟨b, singleVerdict b shape origin, hb, fun after hwrite => ⟨?_, ?_⟩,
    fun e after hwrite => ?_, isPassed_singleVerdict_iff, fun hnames => ?_, fun o ho hnames => ?_,
    listsLines_singleVerdict_iff, fun hgpus hnames => ?_⟩
  · rw [run_single_of_ok hobserve, hwrite]
  · exact ReportFile.text?_of_run_write hwrite
  · rw [run_single_of_ok hobserve, hwrite]
  · exact singleVerdict_of_eq_none (bind_mismatch?_eq_none_iff.2 hnames)
  · obtain ⟨message, hmessage⟩ :=
      Option.ne_none_iff_exists'.1 (mt Origin.mismatch?_eq_none_iff.1 hnames)
    have hbind : origin.bind Origin.mismatch? = some message := by
      rw [ho, Option.bind_some, hmessage]
    exact ⟨message, hmessage, lines_singleVerdict_of_mismatch hbind,
      filter_isTerminal_of_mismatch hbind⟩
  · exact listsLines_singleVerdict_iff.2 (oneLine_singleVerdict hgpus hnames)

/-- A probe that fails to observe the cores, and a process on the cores that are requested, on
another cluster than its job was submitted from and with an older report. -/
theorem single_spec_other_cluster :
    (single ⟨.ok "a001", .error (.missingVariable "x"), fun _ => .ok []⟩ none ⟨1, 1, 1, 0, .none⟩
        ⟨"", "serial"⟩).run ⟨[], []⟩ = .error (.missingVariable "x") ⟨[], []⟩ ∧
      ∃ verdict after,
        (single ⟨.ok "a001", .ok (.ofList [0]), fun _ => .ok []⟩ (some ⟨"anvil", "delta"⟩)
            ⟨1, 1, 1, 0, .none⟩ ⟨"", "serial"⟩).run ⟨[(["serial.out"], .file [80])], []⟩ =
              .ok verdict after ∧
          ReportFile.text? ⟨"", "serial"⟩ after = some verdict.text ∧ verdict.isPassed = false ∧
            verdict.ListsLines := by
  obtain ⟨hfailed, -⟩ := single_spec ⟨.ok "a001", .error (.missingVariable "x"), fun _ => .ok []⟩
    none ⟨1, 1, 1, 0, .none⟩ ⟨"", "serial"⟩ ⟨[], []⟩
  obtain ⟨-, hanswered⟩ := single_spec ⟨.ok "a001", .ok (.ofList [0]), fun _ => .ok []⟩
    (some ⟨"anvil", "delta"⟩) ⟨1, 1, 1, 0, .none⟩ ⟨"", "serial"⟩ ⟨[(["serial.out"], .file [80])], []⟩
  obtain ⟨b, verdict, hb, hreturned, -, hpassed, -, -, -, hplain⟩ := hanswered rfl
  obtain ⟨after, hwrite⟩ : ∃ after, (ReportFile.write ⟨"", "serial"⟩ verdict).run
      ⟨[(["serial.out"], .file [80])], []⟩ = .ok () after := ⟨_, rfl⟩
  have hgpus : b.gpus = [] := Except.ok.inj (hb.gpus.symm.trans rfl)
  refine ⟨hfailed _ rfl, verdict, after, (hreturned after hwrite).1, (hreturned after hwrite).2, ?_,
    hplain (by simp [hgpus]) ?_⟩
  · apply Bool.eq_false_of_not_eq_true
    intro h
    exact absurd ((hpassed.1 h).2 _ rfl) (by decide)
  · rintro o ⟨⟩
    decide

/-- A process on the requested core whose cluster calls itself by a name of two lines. The verdict
is one ERROR line, but its report has two lines, and the second looks like a PASSED line. -/
theorem unlisted_cluster_name :
    (∃ after, (single ⟨.ok "a001", .ok (.ofList [0]), fun _ => .ok []⟩
        (some ⟨"anvil", "delta\nPASSED: b"⟩) ⟨1, 1, 1, 0, .none⟩ ⟨"", "serial"⟩).run ⟨[], []⟩ =
          .ok (singleVerdict ⟨"a001", .ofList [0], []⟩ ⟨1, 1, 1, 0, .none⟩
            (some ⟨"anvil", "delta\nPASSED: b"⟩)) after ∧
        ReportFile.text? ⟨"", "serial"⟩ after =
          some (singleVerdict ⟨"a001", .ofList [0], []⟩ ⟨1, 1, 1, 0, .none⟩
            (some ⟨"anvil", "delta\nPASSED: b"⟩)).text) ∧
      (singleVerdict ⟨"a001", .ofList [0], []⟩ ⟨1, 1, 1, 0, .none⟩
        (some ⟨"anvil", "delta\nPASSED: b"⟩)).tags = [.error] ∧
      ¬ (singleVerdict ⟨"a001", .ofList [0], []⟩ ⟨1, 1, 1, 0, .none⟩
        (some ⟨"anvil", "delta\nPASSED: b"⟩)).ListsLines ∧
      Summary.tags (singleVerdict ⟨"a001", .ofList [0], []⟩ ⟨1, 1, 1, 0, .none⟩
        (some ⟨"anvil", "delta\nPASSED: b"⟩)).text.toList = [.error, .passed] := by
  refine ⟨?_, by decide, by decide, by decide⟩
  obtain ⟨after, hrun⟩ : ∃ after, (single ⟨.ok "a001", .ok (.ofList [0]), fun _ => .ok []⟩
      (some ⟨"anvil", "delta\nPASSED: b"⟩) ⟨1, 1, 1, 0, .none⟩ ⟨"", "serial"⟩).run ⟨[], []⟩ =
        .ok (singleVerdict ⟨"a001", .ofList [0], []⟩ ⟨1, 1, 1, 0, .none⟩
          (some ⟨"anvil", "delta\nPASSED: b"⟩)) after := ⟨_, rfl⟩
  obtain ⟨-, -, -, htext⟩ := of_run_single hrun
  exact ⟨after, hrun, htext⟩

end Validation

end JobBinding

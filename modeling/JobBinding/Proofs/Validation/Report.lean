import JobBinding.Proofs.Binding.Listing
import JobBinding.Proofs.Verdict.Report
import JobBinding.Validation.Single

/-!
# Reports of validations

A validation that did not pass is never summarised as passed, whatever host names, identifiers and
cluster names are in the messages: its ERROR line begins a line of the report, and a verdict
without terminal line shows only cores or identifiers from a listing, which are of one line.

The converse fails, since names stand in the messages as they are: a name of several lines can bring
an ERROR line into the report of a verdict that passed.
-/

namespace JobBinding

open Text

namespace Verdict

/-! ## Verdicts on a process that is alone -/

lemma classifySize_lines {resource : String} (hresource : OneLine resource) (size : Nat)
    (requested : UInt32) (shown : String) :
    ∃ l, (classifySize resource size requested shown).lines = [l] ∧
      (OneLine shown → OneLine l.2) := by
  unfold classifySize
  split
  · refine ⟨_, rfl, fun hshown => ?_⟩
    simp only [oneLine_append, hresource, hshown]
    decide
  split
  · refine ⟨_, rfl, fun hshown => ?_⟩
    simp only [oneLine_append, hresource, hshown]
    decide
  · exact ⟨_, rfl, id⟩

lemma classifySingle_lines (b : Binding) (shape : Shape) :
    ∃ l, (classifySingle b shape).lines = [l] ∧
      ((∀ gpu ∈ b.gpus, OneLine gpu) → OneLine l.2) := by
  unfold classifySingle
  split
  · obtain ⟨l, hl, hone⟩ := classifySize_lines (by decide : OneLine "GPUs") b.gpus.length shape.gpus
      b.gpusText
    exact ⟨l, hl, fun h => hone (oneLine_gpusText h)⟩
  · obtain ⟨l, hl, hone⟩ := classifySize_lines (by decide : OneLine "cpus") b.cores.size
      shape.threads b.coresText
    exact ⟨l, hl, fun _ => hone (oneLine_coresText b)⟩

end Verdict

namespace Validation

open Verdict

variable {b : Binding} {shape : Shape} {origin : Option Origin}

/-- A verdict on a process has one line, or an ERROR line for its origin in front. -/
lemma singleVerdict_lines (b : Binding) (shape : Shape) (origin : Option Origin) :
    (∃ l, (singleVerdict b shape origin).lines = [l] ∧
      ((∀ gpu ∈ b.gpus, OneLine gpu) → OneLine l.2)) ∨
    ∃ message l, origin.bind Origin.mismatch? = some message ∧
      (singleVerdict b shape origin).lines =
        (.error, message) :: [l].filter (!·.1.isTerminal) ∧
          ((∀ gpu ∈ b.gpus, OneLine gpu) → OneLine l.2) := by
  obtain ⟨l, hl, hone⟩ := classifySingle_lines b shape
  cases hmismatch : origin.bind Origin.mismatch? with
  | none =>
    refine .inl ⟨l, ?_, hone⟩
    simp only [singleVerdict, hmismatch, hl]
  | some message =>
    refine .inr ⟨message, l, rfl, ?_, hone⟩
    simp only [singleVerdict, hmismatch, fail, hl]

/-- A verdict on a process whose GPUs have identifiers of one line is summarised as failing, unless
it passed. -/
lemma isFailing_singleVerdict (hgpus : ∀ gpu ∈ b.gpus, OneLine gpu)
    (h : (singleVerdict b shape origin).isPassed = false) (path : String) :
    (Summary.ofText path (singleVerdict b shape origin).text).isFailing = true := by
  rcases singleVerdict_lines b shape origin with ⟨l, hl, hone⟩ | ⟨message, l, -, hl, -⟩
  · cases htag : l.1 with
    | error => exact isFailing_of_error (l := l) (by simp [hl]) htag path
    | warn =>
      refine isFailing_of_oneLine ?_ ?_ path
      · simpa [hl] using hone hgpus
      · simp [hl, htag]
    | passed => simp [isPassed, terminal?, hl, htag, Tag.isTerminal] at h
  · exact isFailing_of_error (l := (.error, message)) (by simp [hl]) rfl path

lemma of_isPassed_singleVerdict (h : (singleVerdict b shape origin).isPassed = true) :
    (∃ l ∈ (singleVerdict b shape origin).lines, l.1 = .passed) ∧
      ∀ l ∈ (singleVerdict b shape origin).lines, l.1 ≠ .error := by
  rcases singleVerdict_lines b shape origin with ⟨l, hl, -⟩ | ⟨message, l, -, hl, -⟩
  · cases htag : l.1 <;> simp_all [isPassed, terminal?, Tag.isTerminal]
  · simp [isPassed, terminal?, hl, Tag.isTerminal] at h

lemma oneLine_singleVerdict (hgpus : ∀ gpu ∈ b.gpus, OneLine gpu)
    (horigin : ∀ o, origin = some o → OneLine o.submitted ∧ OneLine o.executed) :
    ∀ l ∈ (singleVerdict b shape origin).lines, OneLine l.2 := by
  rcases singleVerdict_lines b shape origin with ⟨l, hl, hone⟩ | ⟨message, l, hmessage, hl, hone⟩
  · simpa [hl] using hone hgpus
  · obtain ⟨o, rfl, hmismatch⟩ := Option.bind_eq_some_iff.1 hmessage
    have hmessage : OneLine message := by
      obtain ⟨hsubmitted, hexecuted⟩ := horigin o rfl
      unfold Origin.mismatch? at hmismatch
      split at hmismatch
      · cases hmismatch
      · cases hmismatch
        simp only [oneLine_append, hsubmitted, hexecuted]
        decide
    intro l' hl'
    rw [hl] at hl'
    rcases List.mem_cons.1 hl' with rfl | hl'
    · exact hmessage
    · obtain rfl := List.mem_singleton.1 (List.mem_filter.1 hl').1
      exact hone hgpus

/-! ## Runs of a validation -/

section Run

variable {probe : Probe} {file : ReportFile} {tree after : FileTree}

lemma run_single_of_error {e : Failure} (h : probe.observe shape.probedVendor? = .error e) :
    (single probe origin shape file).run tree = .error e tree := by
  rw [single, Files.run_bind, Files.run_ofExcept, h]

lemma run_single_of_ok (h : probe.observe shape.probedVendor? = .ok b) :
    (single probe origin shape file).run tree =
      match (file.write (singleVerdict b shape origin)).run tree with
      | .ok _ after => .ok (singleVerdict b shape origin) after
      | .error e after => .error e after := by
  rw [single, Files.run_bind, Files.run_ofExcept, h]
  show (file.write (singleVerdict b shape origin) >>=
    fun _ => pure (singleVerdict b shape origin)).run tree = _
  rw [Files.run_bind]
  cases (file.write (singleVerdict b shape origin)).run tree with
  | ok u after => rfl
  | error e after => rfl

/-- The verdict that a process comes to is the one on what it observes, and it is the report. -/
lemma of_run_single {verdict : Verdict}
    (h : (single probe origin shape file).run tree = .ok verdict after) :
    ∃ b, probe.observe shape.probedVendor? = .ok b ∧ verdict = singleVerdict b shape origin ∧
      file.text? after = some verdict.text := by
  cases hobserve : probe.observe shape.probedVendor? with
  | error e =>
    rw [run_single_of_error hobserve] at h
    cases h
  | ok b =>
    rw [run_single_of_ok hobserve] at h
    cases hwrite : (file.write (singleVerdict b shape origin)).run tree with
    | error e after' =>
      rw [hwrite] at h
      cases h
    | ok u after' =>
      rw [hwrite] at h
      cases h
      exact ⟨b, rfl, rfl, ReportFile.text?_of_run_write hwrite⟩

end Run

/-! ## What did not pass -/

/-- What was not passed is summarised as failing, for a job with any names and for a process with
any listing of GPUs. -/
theorem isFailing_of_isPassed_eq_false :
    (∀ (bindings : List Binding) (shape : Shape), (classify bindings shape).isPassed = false →
      (∀ path, (Summary.ofText path (classify bindings shape).text).isFailing = true) ∧
        ∀ (file : ReportFile) (tree after : FileTree),
          (file.write (classify bindings shape)).run tree = .ok () after →
            file.text? after = some (classify bindings shape).text) ∧
    ∀ (listing : String) (gpus : List String),
      Listing.nvidia listing = .ok gpus ∨ Listing.amd listing = gpus →
        ∀ (hostname : String) (cores : SortedSet CoreId) (shape : Shape) (origin : Option Origin),
          ((singleVerdict ⟨hostname, cores, gpus⟩ shape origin).isPassed = false →
            ∀ path, (Summary.ofText path
              (singleVerdict ⟨hostname, cores, gpus⟩ shape origin).text).isFailing = true) ∧
          ∀ (file : ReportFile) (tree after : FileTree) (verdict : Verdict),
            (single ⟨.ok hostname, .ok cores, fun _ => .ok gpus⟩ origin shape file).run tree =
                .ok verdict after → verdict.isPassed = false →
              ∃ text, file.text? after = some text ∧
                ∀ path, (Summary.ofText path text).isFailing = true := by
  refine ⟨fun bindings shape h => ⟨fun path => ?_, fun file tree after hwrite => ?_⟩,
    fun listing gpus hlisting hostname cores shape origin => ?_⟩
  -- For a distributed validation the ERROR line is enough: no other line can take it away.
  · obtain ⟨l, hl, herror⟩ := exists_error_of_classify h
    exact isFailing_of_error hl herror path
  · exact ReportFile.text?_of_run_write hwrite
  -- A single verdict can have warnings alone, where a line that begins like a PASSED line would let
  -- the report pass. A listing's names cannot make one, as it is read line by line.
  have hgpus : ∀ gpu ∈ gpus, OneLine gpu := by
    rcases hlisting with hlisting | rfl
    · exact Listing.oneLine_of_mem_nvidia hlisting
    · exact Listing.oneLine_of_mem_amd
  refine ⟨fun h path => isFailing_singleVerdict hgpus h path, ?_⟩
  intro file tree after verdict hrun hpassed
  obtain ⟨b, hobserve, rfl, htext⟩ := of_run_single hrun
  have hb : ∀ gpu ∈ b.gpus, OneLine gpu := by
    cases hvendor : shape.probedVendor? with
    | none =>
      rw [hvendor] at hobserve
      cases hobserve
      simp
    | some vendor =>
      rw [hvendor] at hobserve
      cases hobserve
      exact hgpus
  exact ⟨_, htext, fun path => isFailing_singleVerdict hb hpassed path⟩

/-- A job without processes has an ERROR line, and a process that is bound to more GPUs than
requested has a WARN line only, whatever its host is called. -/
theorem isFailing_of_surplus :
    (Summary.ofText "" (classify [] ⟨1, 1, 1, 0, .none⟩).text).isFailing = true ∧
      (Summary.ofText "" (singleVerdict ⟨"host\nPASSED:", .empty, ["0", "1"]⟩ ⟨1, 1, 1, 1, .amd⟩
        none).text).isFailing = true ∧
      ∃ verdict after text,
        (single ⟨.ok "host\nPASSED:", .ok .empty, fun _ => .ok ["0", "1"]⟩ none ⟨1, 1, 1, 1, .amd⟩
          ⟨"", "gpu"⟩).run ⟨[], []⟩ = .ok verdict after ∧
            ReportFile.text? ⟨"", "gpu"⟩ after = some text ∧
              (Summary.ofText "" text).isFailing = true := by
  have hjob := (isFailing_of_isPassed_eq_false.1 [] ⟨1, 1, 1, 0, .none⟩ (by decide)).1 ""
  obtain ⟨hverdict, hreport⟩ := isFailing_of_isPassed_eq_false.2 "Unique ID: 0\nUnique ID: 1\n"
    ["0", "1"] (.inr (by decide)) "host\nPASSED:" .empty ⟨1, 1, 1, 1, .amd⟩ none
  obtain ⟨text, htext, hfailing⟩ := hreport ⟨"", "gpu"⟩ ⟨[], []⟩ _ _ rfl (by decide)
  exact ⟨hjob, hverdict (by decide) "", _, _, text, rfl, htext, hfailing ""⟩

/-! ## When a report matches its verdict -/

/-- What a verdict rests on. -/
inductive Evidence where
  /-- The bindings of all processes of a job. -/
  | job (bindings : List Binding) (shape : Shape)
  /-- The binding of a process that is alone, and what it knows of its cluster. -/
  | process (b : Binding) (shape : Shape) (origin : Option Origin)

namespace Evidence

def verdict : Evidence → Verdict
  | .job bindings shape => classify bindings shape
  | .process b shape origin => singleVerdict b shape origin

/-- Whether all names in the evidence that a message can show are of one line. -/
def Plain : Evidence → Prop
  | .job bindings _ => ∀ b ∈ bindings, OneLine b.hostname ∧ ∀ gpu ∈ b.gpus, OneLine gpu
  | .process b _ origin => (∀ gpu ∈ b.gpus, OneLine gpu) ∧
      ∀ o, origin = some o → OneLine o.submitted ∧ OneLine o.executed

lemma oneLine_of_plain {evidence : Evidence} (h : evidence.Plain) :
    ∀ l ∈ evidence.verdict.lines, OneLine l.2 := by
  cases evidence with
  | job bindings shape => exact oneLine_classify shape h
  | process b shape origin => exact oneLine_singleVerdict h.1 h.2

lemma of_isPassed {evidence : Evidence} (h : evidence.verdict.isPassed = true) :
    (∃ l ∈ evidence.verdict.lines, l.1 = .passed) ∧
      ∀ l ∈ evidence.verdict.lines, l.1 ≠ .error := by
  cases evidence with
  | job bindings shape => exact of_isPassed_classify h
  | process b shape origin => exact of_isPassed_singleVerdict h

/-- When the lines of a report are the lines of its verdict: exactly if each message is one line,
and so whenever all names are. A verdict that passed is summarised as failing exactly if a message
has a further line that begins like an ERROR line. -/
theorem matchesReport_iff_oneLine (evidence : Evidence) :
    (evidence.verdict.MatchesReport ↔ ∀ l ∈ evidence.verdict.lines, OneLine l.2) ∧
      (evidence.Plain → evidence.verdict.MatchesReport) ∧
        (evidence.verdict.isPassed = true → ∀ path,
          ((Summary.ofText path evidence.verdict.text).isFailing = true ↔
            ∃ l ∈ evidence.verdict.lines, Misleads l.2)) := by
  refine ⟨matchesReport_iff, fun h => ?_, fun h path => ?_⟩
  · exact matchesReport_iff.2 (oneLine_of_plain h)
  · obtain ⟨hpassed, herror⟩ := of_isPassed h
    exact isFailing_iff hpassed herror path

/-- A job on a host whose name is one line has a report that matches its verdict. -/
theorem matchesReport_of_plain_host :
    (classify [⟨"host", .ofList [0], []⟩] ⟨1, 1, 1, 0, .none⟩).MatchesReport ∧
      ((Summary.ofText "" (classify [⟨"host", .ofList [0], []⟩]
          ⟨1, 1, 1, 0, .none⟩).text).isFailing = true ↔
        ∃ l ∈ (classify [⟨"host", .ofList [0], []⟩] ⟨1, 1, 1, 0, .none⟩).lines,
          Misleads l.2) := by
  obtain ⟨-, hplain, hpassed⟩ :=
    matchesReport_iff_oneLine (.job [⟨"host", .ofList [0], []⟩] ⟨1, 1, 1, 0, .none⟩)
  exact ⟨hplain (by simp [Plain, OneLine]), hpassed (by decide) ""⟩

/-- A host name of two lines makes the report of a verdict that passed look as if it had failed. -/
theorem misleading_host :
    (classify [⟨"a\nERROR: b", .ofList [0], []⟩] ⟨1, 1, 1, 0, .none⟩).isPassed = true ∧
      ¬ (classify [⟨"a\nERROR: b", .ofList [0], []⟩] ⟨1, 1, 1, 0, .none⟩).MatchesReport ∧
        (Summary.ofText "" (classify [⟨"a\nERROR: b", .ofList [0], []⟩]
          ⟨1, 1, 1, 0, .none⟩).text).isFailing = true := by
  decide

end Evidence

end Validation

end JobBinding

import Mathlib.Algebra.Ring.Nat
import JobBinding.Proofs.Text.Lines
import JobBinding.Proofs.Verdict.ReportFile
import JobBinding.Summary
import JobBinding.Verdict.Classify

/-!
# The tags of a report

What a reader of a report finds at the beginnings of its lines. Each line of a verdict begins a line
of the report, so its tag is found (`mem_tags`). A message of several lines begins further ones, and
these can look like lines of the verdict; `count_tags` says how often.
-/

namespace JobBinding

open Text

/-! ## The tag of a line -/

namespace Tag

lemma ofLine?_append (tag : Tag) (rest : List Char) :
    ofLine? (tag.name.toList ++ ':' :: rest) = some tag := by
  cases tag <;> rfl

lemma ofLine?_eq_some_iff {tag : Tag} {line : List Char} :
    ofLine? line = some tag ↔ tag.name.toList ++ [':'] <+: line := by
  constructor
  · intro h
    have hbegins := List.find?_some h
    obtain ⟨rest, hrest⟩ := Option.isSome_iff_exists.1 hbegins
    exact ⟨rest, (afterPrefix?_eq_some_iff.1 hrest).symm⟩
  · rintro ⟨rest, rfl⟩
    rw [List.append_assoc, List.singleton_append]
    exact ofLine?_append tag rest

/-- At how many positions of a message a line begins that looks like one with the tag. -/
def imitations (tag : Tag) (message : String) : Nat :=
  occurrences ('\n' :: (tag.name.toList ++ [':'])) message.toList

lemma imitations_of_oneLine (tag : Tag) {message : String} (h : OneLine message) :
    tag.imitations message = 0 :=
  occurrences_of_notMem h

end Tag

namespace Verdict

variable {v : Verdict}

/-! ## Lines of a verdict and lines of its report -/

/-- The characters that stand before the message of a line. -/
def label (tag : Tag) : List Char :=
  tag.name.toList ++ [':', ' ']

lemma toList_lineText (l : Tag × String) : (lineText l).toList = label l.1 ++ l.2.toList := by
  simp [lineText, label, String.toList_append]

/-- The lines that a line of a verdict becomes in a report. -/
def reportLines (l : Tag × String) : List (List Char) :=
  Text.lines (label l.1 ++ l.2.toList ++ ['\n'])

lemma toList_text (v : Verdict) :
    v.text.toList = v.lines.flatMap fun l => label l.1 ++ l.2.toList ++ ['\n'] := by
  simp [text, String.toList_join, String.toList_append, toList_lineText, List.flatMap_map]

theorem lines_text (v : Verdict) : Text.lines v.text.toList = v.lines.flatMap reportLines := by
  rw [toList_text]
  induction v.lines with
  | nil => simp
  | cons l ls ih =>
    rw [List.flatMap_cons, List.flatMap_cons, ← ih, List.append_assoc, List.singleton_append,
      lines_append_newline, reportLines]

lemma label_plain (tag : Tag) : ∀ c ∈ label tag, c ≠ '\n' ∧ c ≠ '\r' := by
  cases tag <;> simp [label, Tag.name]

/-- The first line that a line of a verdict becomes has its tag. -/
lemma reportLines_eq_cons (l : Tag × String) :
    ∃ first rest, reportLines l = first :: rest ∧ Tag.ofLine? first = some l.1 := by
  obtain ⟨line, rest, hlines⟩ :=
    lines_append_of_plain (by simp [label]) (label_plain l.1) (l.2.toList ++ ['\n'])
  refine ⟨label l.1 ++ line, rest, ?_, ?_⟩
  · rw [reportLines, List.append_assoc, hlines]
  · rw [label, List.append_assoc]
    exact Tag.ofLine?_append l.1 (' ' :: line)

/-- The tags that a reader of a report finds, by the lines of the verdict. -/
lemma tags_text (v : Verdict) :
    Summary.tags v.text.toList = v.lines.flatMap fun l => (reportLines l).filterMap Tag.ofLine? := by
  rw [Summary.tags, lines_text, List.filterMap_flatMap]

/-- A line of a verdict brings its own tag into the report, and a tag for each further line that its
message has and that looks like one of the tag. -/
lemma count_tags_reportLines (tag : Tag) (l : Tag × String) :
    ((reportLines l).filterMap Tag.ofLine?).count tag =
      (if l.1 = tag then 1 else 0) + tag.imitations l.2 := by
  obtain ⟨first, rest, hlines, hfirst⟩ := reportLines_eq_cons l
  have hlabel : '\n' ∉ label l.1 := fun h => (label_plain l.1 _ h).1 rfl
  have hplain : ∀ c ∈ tag.name.toList ++ [':'], c ≠ '\n' ∧ c ≠ '\r' := by
    cases tag <;> simp [Tag.name]
  have hcount := countP_tail_lines (by simp) hplain (label l.1 ++ l.2.toList)
  rw [← reportLines, hlines, List.tail_cons, occurrences_append_of_notMem hlabel] at hcount
  have hrest : (rest.filterMap Tag.ofLine?).count tag = tag.imitations l.2 := by
    rw [Tag.imitations, ← hcount, List.count_filterMap]
    refine List.countP_congr fun line _ => ?_
    rw [beq_iff_eq, Tag.ofLine?_eq_some_iff, List.isPrefixOf_iff_prefix]
  rw [hlines, List.filterMap_cons_some hfirst, List.count_cons, hrest, Nat.add_comm]
  simp only [beq_iff_eq]

/-- A tag is found once for each line of the verdict that has it, and once for each line that only
looks like it. -/
theorem count_tags (v : Verdict) (tag : Tag) :
    (Summary.tags v.text.toList).count tag =
      v.count tag + (v.lines.map fun l => tag.imitations l.2).sum := by
  rw [tags_text, count]
  induction v.lines with
  | nil => rfl
  | cons l ls ih =>
    rw [List.flatMap_cons, List.count_append, ih, count_tags_reportLines, List.countP_cons,
      List.map_cons, List.sum_cons]
    simp only [decide_eq_true_eq]
    omega

/-- The tag of each line of a verdict is found in the report. -/
theorem mem_tags {l : Tag × String} (h : l ∈ v.lines) : l.1 ∈ Summary.tags v.text.toList := by
  obtain ⟨first, rest, hlines, htag⟩ := reportLines_eq_cons l
  rw [tags_text, List.mem_flatMap]
  exact ⟨l, h, List.mem_filterMap.2 ⟨first, by simp [hlines], htag⟩⟩

lemma length_reportLines (l : Tag × String) :
    (reportLines l).length = l.2.toList.count '\n' + 1 := by
  have hlabel : (label l.1).count '\n' = 0 :=
    List.count_eq_zero.2 fun h => (label_plain l.1 _ h).1 rfl
  rw [reportLines, length_lines_append_newline, List.count_append, hlabel, Nat.zero_add]

/-- The tags of the lines of a report, where a line can have none. -/
def reportTags (v : Verdict) : List (Option Tag) :=
  (Text.lines v.text.toList).map Tag.ofLine?

/-- Whether a report has one line for each line of the verdict, with the same tag. -/
def MatchesReport (v : Verdict) : Prop :=
  v.reportTags = v.lines.map fun l => some l.1

instance (v : Verdict) : Decidable v.MatchesReport :=
  inferInstanceAs (Decidable (_ = _))

lemma map_ofLine?_reportLines {l : Tag × String} (h : OneLine l.2) :
    (reportLines l).map Tag.ofLine? = [some l.1] := by
  have hlength : (reportLines l).length = 1 := by
    rw [length_reportLines, List.count_eq_zero.2 h]
  obtain ⟨first, rest, hlines, htag⟩ := reportLines_eq_cons l
  rw [hlines] at hlength
  obtain rfl : rest = [] := by simpa using hlength
  rw [hlines, List.map_singleton, htag]

lemma flatMap_map_ofLine?_reportLines {ls : List (Tag × String)} (h : ∀ l ∈ ls, OneLine l.2) :
    ls.flatMap (fun l => (reportLines l).map Tag.ofLine?) = ls.map fun l => some l.1 := by
  induction ls with
  | nil => rfl
  | cons l ls ih =>
    rw [List.flatMap_cons, map_ofLine?_reportLines (h l (by simp)), List.map_cons,
      ih fun l hl => h l (by simp [hl]), List.singleton_append]

lemma length_le_length_reportLines (ls : List (Tag × String)) :
    ls.length ≤ (ls.flatMap reportLines).length := by
  induction ls with
  | nil => simp
  | cons l ls ih =>
    rw [List.flatMap_cons, List.length_append, length_reportLines, List.length_cons]
    omega

/-- Only messages of one line add no lines to a report. -/
lemma oneLine_of_length_reportLines {ls : List (Tag × String)}
    (h : (ls.flatMap reportLines).length = ls.length) : ∀ l ∈ ls, OneLine l.2 := by
  induction ls with
  | nil => simp
  | cons l ls ih =>
    have hrest := length_le_length_reportLines ls
    rw [List.flatMap_cons, List.length_append, length_reportLines, List.length_cons] at h
    intro l' hl'
    rcases List.mem_cons.1 hl' with rfl | hl'
    · exact List.count_eq_zero.1 (by omega)
    · exact ih (by omega) l' hl'

/-- A report matches its verdict exactly if each message is one line. -/
theorem matchesReport_iff : v.MatchesReport ↔ ∀ l ∈ v.lines, OneLine l.2 := by
  constructor
  · intro h
    have hlength := congrArg List.length h
    rw [reportTags, List.length_map, List.length_map, lines_text] at hlength
    exact oneLine_of_length_reportLines hlength
  · intro h
    rw [MatchesReport, reportTags, lines_text, List.map_flatMap,
      flatMap_map_ofLine?_reportLines h]

/-- Whether the lines of a report are the lines of the verdict as they are written. -/
def ListsLines (v : Verdict) : Prop :=
  Text.lines v.text.toList = v.lines.map fun l => (lineText l).toList

instance (v : Verdict) : Decidable v.ListsLines :=
  inferInstanceAs (Decidable (_ = _))

/-- A line whose message is one line is written as it is, unless it ends with a carriage return,
which would belong to the line end. -/
lemma reportLines_eq_singleton {l : Tag × String} (h : OneLine l.2)
    (hend : l.2.toList.getLast? ≠ some '\r') : reportLines l = [(lineText l).toList] := by
  have hlabel : '\n' ∉ label l.1 := fun h => (label_plain l.1 _ h).1 rfl
  have hnewline : '\n' ∉ label l.1 ++ l.2.toList := List.not_mem_append hlabel h
  obtain ⟨line, hline, heq⟩ := lines_append_newline_of_not_mem hnewline
  rw [toList_lineText, reportLines, hline]
  rcases heq with rfl | heq
  · rfl
  · have hlast : (label l.1 ++ l.2.toList).getLast? = some '\r' := by
      rw [heq, List.getLast?_concat]
    rw [List.getLast?_append, Option.or_eq_some_iff] at hlast
    rcases hlast with hlast | ⟨-, hlast⟩
    · exact absurd hlast hend
    · cases htag : l.1 <;> rw [htag] at hlast <;> simp [label] at hlast

/-- If no message ends with a carriage return, a report lists the lines of its verdict exactly if
each message is one line. -/
theorem listsLines_iff (hend : ∀ l ∈ v.lines, l.2.toList.getLast? ≠ some '\r') :
    v.ListsLines ↔ ∀ l ∈ v.lines, OneLine l.2 := by
  constructor
  · intro h
    have hlength := congrArg List.length h
    rw [lines_text, List.length_map] at hlength
    exact oneLine_of_length_reportLines hlength
  · intro h
    rw [ListsLines, lines_text, ← List.flatMap_singleton' (v.lines.map _), List.flatMap_map]
    exact List.flatMap_congr fun l hl => reportLines_eq_singleton (h l hl) (hend l hl)

/-! ## Summaries -/

lemma isFailing_of_error {l : Tag × String} (hl : l ∈ v.lines) (herror : l.1 = .error)
    (path : String) : (Summary.ofText path v.text).isFailing = true := by
  have hmem : Tag.error ∈ Summary.tags v.text.toList := herror ▸ mem_tags hl
  have hcount : 0 < (Summary.tags v.text.toList).count .error := List.count_pos_iff.2 hmem
  simp [Summary.isFailing, Summary.ofText, hcount]

lemma sum_imitations_of_oneLine {ls : List (Tag × String)} (tag : Tag)
    (h : ∀ l ∈ ls, OneLine l.2) : (ls.map fun l => tag.imitations l.2).sum = 0 := by
  induction ls with
  | nil => rfl
  | cons l ls ih =>
    obtain ⟨hl, hls⟩ := List.forall_mem_cons.1 h
    rw [List.map_cons, List.sum_cons, ih hls, tag.imitations_of_oneLine hl]

lemma count_tags_of_oneLine (h : ∀ l ∈ v.lines, OneLine l.2) (tag : Tag) :
    (Summary.tags v.text.toList).count tag = v.count tag := by
  rw [count_tags, sum_imitations_of_oneLine tag h, Nat.add_zero]

lemma isFailing_of_oneLine (h : ∀ l ∈ v.lines, OneLine l.2) (hpassed : ∀ l ∈ v.lines, l.1 ≠ .passed)
    (path : String) : (Summary.ofText path v.text).isFailing = true := by
  have hcount : (Summary.tags v.text.toList).count .passed = 0 := by
    rw [count_tags_of_oneLine h, count, List.countP_eq_zero]
    intro l hl
    simpa using hpassed l hl
  simp [Summary.isFailing, Summary.ofText, hcount]

/-- Whether a message has a line after its first that begins like an ERROR line. -/
def Misleads (message : String) : Prop :=
  "\nERROR:".toList <:+: message.toList

lemma misleads_iff {message : String} : Misleads message ↔ 0 < Tag.error.imitations message :=
  occurrences_pos_iff.symm

theorem error_mem_tags_iff :
    .error ∈ Summary.tags v.text.toList ↔ ∃ l ∈ v.lines, l.1 = .error ∨ Misleads l.2 := by
  rw [tags_text, List.mem_flatMap]
  refine exists_congr fun l => and_congr_right fun _ => ?_
  rw [misleads_iff, ← List.count_pos_iff, count_tags_reportLines]
  by_cases h : l.1 = .error
  · rw [if_pos h]
    exact ⟨fun _ => .inl h, fun _ => by omega⟩
  · rw [if_neg h, Nat.zero_add]
    exact ⟨.inr, fun himitation => himitation.resolve_left h⟩

/-- The report of a verdict that passed is summarised as failing exactly if a message misleads. -/
lemma isFailing_iff (hpassed : ∃ l ∈ v.lines, l.1 = .passed) (herror : ∀ l ∈ v.lines, l.1 ≠ .error)
    (path : String) :
    (Summary.ofText path v.text).isFailing = true ↔ ∃ l ∈ v.lines, Misleads l.2 := by
  obtain ⟨l, hl, htag⟩ := hpassed
  have hcount : (Summary.tags v.text.toList).count .passed ≠ 0 :=
    Nat.ne_of_gt (List.count_pos_iff.2 (htag ▸ mem_tags hl))
  have herrors : 0 < (Summary.tags v.text.toList).count .error ↔ ∃ l ∈ v.lines, Misleads l.2 := by
    rw [List.count_pos_iff, error_mem_tags_iff]
    constructor
    · rintro ⟨l, hl, h | h⟩
      · exact absurd h (herror l hl)
      · exact ⟨l, hl, h⟩
    · rintro ⟨l, hl, h⟩
      exact ⟨l, hl, .inr h⟩
  rw [← herrors]
  simp [Summary.isFailing, Summary.ofText, hcount]

/-! ## Verdicts on bindings -/

lemma eq_of_mem_lineIf {condition : Prop} [Decidable condition] {tag : Tag} {message : String}
    {l : Tag × String} (h : l ∈ lineIf condition tag message) : l = (tag, message) := by
  unfold lineIf at h
  split at h
  · exact List.mem_singleton.1 h
  · cases h

lemma of_mem_hostWarnings {hosts : SortedSet String} {expected : UInt32} {shown : String}
    {l : Tag × String} (h : l ∈ hostWarnings hosts expected shown) :
    l.1 = .warn ∧ (OneLine shown → OneLine l.2) := by
  obtain rfl := eq_of_mem_lineIf h
  refine ⟨rfl, fun hshown => ?_⟩
  simp only [oneLine_append, oneLine_toString, hshown]
  decide

lemma of_mem_sizeWarnings {parts resource : String} {sizes : SortedSet Nat} {requested : UInt32}
    {shown : String} (hparts : OneLine parts) (hresource : OneLine resource) {l : Tag × String}
    (h : l ∈ sizeWarnings parts resource sizes requested shown) :
    l.1 = .warn ∧ (OneLine shown → OneLine l.2) := by
  rcases List.mem_append.1 h with h | h
  · obtain rfl := eq_of_mem_lineIf h
    refine ⟨rfl, fun hshown => ?_⟩
    simp only [oneLine_append, hshown, hparts]
    decide
  · obtain rfl := eq_of_mem_lineIf h
    refine ⟨rfl, fun hshown => ?_⟩
    simp only [oneLine_append, hshown, hresource]
    decide

/-- A verdict on a job ends with its terminal line; all others are warnings. -/
lemma classify_lines (bindings : List Binding) (shape : Shape) :
    ∃ warnings terminal, (classify bindings shape).lines = warnings ++ [terminal] ∧
      (∀ w ∈ warnings, w.1 = .warn) ∧ (terminal.1 = .error ∨ terminal.1 = .passed) := by
  refine ⟨_, _, rfl, ?_, ?_⟩
  · intro w hw
    rcases List.mem_append.1 hw with hw | hw
    · rcases List.mem_append.1 hw with hw | hw
      · exact (of_mem_hostWarnings hw).1
      · exact (of_mem_sizeWarnings (by decide) (by decide) hw).1
    · split at hw
      · exact (of_mem_sizeWarnings (by decide) (by decide) hw).1
      · cases hw
  · split
    · exact .inl rfl
    split
    · exact .inl rfl
    split
    · exact .inl rfl
    · exact .inr rfl

lemma terminal?_classify {bindings : List Binding} {shape : Shape} {warnings : List (Tag × String)}
    {terminal : Tag × String} (h : (classify bindings shape).lines = warnings ++ [terminal])
    (hwarnings : ∀ w ∈ warnings, w.1 = .warn) (hterminal : terminal.1.isTerminal = true) :
    (classify bindings shape).terminal? = some terminal := by
  have hnone : warnings.find? (·.1.isTerminal) = none := by
    rw [List.find?_eq_none]
    intro w hw
    simp [hwarnings w hw, Tag.isTerminal]
  rw [terminal?, h, List.find?_append, hnone, Option.none_or]
  simp [hterminal]

/-- A verdict on a job that did not pass has an ERROR line. -/
lemma exists_error_of_classify {bindings : List Binding} {shape : Shape}
    (h : (classify bindings shape).isPassed = false) :
    ∃ l ∈ (classify bindings shape).lines, l.1 = .error := by
  obtain ⟨warnings, terminal, hlines, hwarnings, herror | hpassed⟩ := classify_lines bindings shape
  · exact ⟨terminal, by simp [hlines], herror⟩
  · have hterminal := terminal?_classify hlines hwarnings (by rw [hpassed]; rfl)
    rw [isPassed, hterminal] at h
    simp [hpassed] at h

/-- A verdict on a job that passed has a PASSED line and no ERROR line. -/
lemma of_isPassed_classify {bindings : List Binding} {shape : Shape}
    (h : (classify bindings shape).isPassed = true) :
    (∃ l ∈ (classify bindings shape).lines, l.1 = .passed) ∧
      ∀ l ∈ (classify bindings shape).lines, l.1 ≠ .error := by
  obtain ⟨warnings, terminal, hlines, hwarnings, herror | hpassed⟩ := classify_lines bindings shape
  · have hterminal := terminal?_classify hlines hwarnings (by rw [herror]; rfl)
    rw [isPassed, hterminal] at h
    simp [herror] at h
  · refine ⟨⟨terminal, by simp [hlines], hpassed⟩, fun l hl => ?_⟩
    rw [hlines] at hl
    rcases List.mem_append.1 hl with hl | hl
    · simp [hwarnings l hl]
    · obtain rfl := List.mem_singleton.1 hl
      simp [hpassed]

lemma oneLine_coresText (b : Binding) : OneLine b.coresText := by
  refine oneLine_setLiteral fun item hitem => ?_
  obtain ⟨core, -, rfl⟩ := List.mem_map.1 hitem
  exact oneLine_toString _

lemma oneLine_gpusText {b : Binding} (h : ∀ gpu ∈ b.gpus, OneLine gpu) : OneLine b.gpusText :=
  oneLine_listLiteral h

/-- If all names are of one line, so are the messages. -/
lemma oneLine_classify {bindings : List Binding} (shape : Shape)
    (h : ∀ b ∈ bindings, OneLine b.hostname ∧ ∀ gpu ∈ b.gpus, OneLine gpu) :
    ∀ l ∈ (classify bindings shape).lines, OneLine l.2 := by
  have hhosts : OneLine (setLiteral (hostnames bindings).toList) := by
    refine oneLine_setLiteral fun host hhost => ?_
    obtain ⟨b, hb, rfl⟩ := List.mem_map.1 (SortedSet.mem_ofList.1 hhost)
    exact (h b hb).1
  have hcores : OneLine (listLiteral (bindings.map (·.coresText))) := by
    refine oneLine_listLiteral fun item hitem => ?_
    obtain ⟨b, -, rfl⟩ := List.mem_map.1 hitem
    exact oneLine_coresText b
  have hgpus : OneLine (if 0 < shape.gpus then listLiteral (bindings.map (·.gpusText))
      else listLiteral []) := by
    split
    · refine oneLine_listLiteral fun item hitem => ?_
      obtain ⟨b, hb, rfl⟩ := List.mem_map.1 hitem
      exact oneLine_gpusText (h b hb).2
    · decide
  intro l hl
  -- Warnings about hosts, cores and GPUs, then the line whose message depends on the outcome.
  rcases List.mem_append.1 hl with hl | hl
  · rcases List.mem_append.1 hl with hl | hl
    · rcases List.mem_append.1 hl with hl | hl
      · exact (of_mem_hostWarnings hl).2 hhosts
      · exact (of_mem_sizeWarnings (by decide) (by decide) hl).2 hcores
    · split at hl
      · next hpos =>
        rw [if_pos hpos] at hgpus
        exact (of_mem_sizeWarnings (by decide) (by decide) hl).2 hgpus
      · cases hl
  · obtain rfl := List.mem_singleton.1 hl
    split
    · simp only [oneLine_append, hcores]
      decide
    split
    · simp only [oneLine_append, oneLine_toString, hhosts]
      decide
    split
    · simp only [oneLine_append, hgpus]
      decide
    · simp only [oneLine_append, hhosts, hcores, hgpus]
      decide

end Verdict

end JobBinding

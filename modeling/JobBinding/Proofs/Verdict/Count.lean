import JobBinding.Proofs.Verdict.Changes
import JobBinding.Proofs.Verdict.Report

/-!
# Counting the lines of a report

A summary counts the tags that it finds in a report, and it finds more than the lines of the verdict
if messages have further lines that look like some. `count_ofText_text` is the exact number, for any
lines at all. Where no message has a line feed the counts are those of the verdict, and that a
verdict passed can then be read off them, because it has one terminal line at most.
-/

namespace JobBinding

open Text

def Summary.count (s : Summary) : Tag → Nat
  | .error => s.errors
  | .warn => s.warnings
  | .passed => s.passed

namespace Verdict

variable {v : Verdict}

/-- Whether a verdict comes about by changes, of which it may have refused some. -/
def IsReached (v : Verdict) : Prop :=
  ∃ cs, v = empty.changes cs

lemma IsReached.countP_isTerminal_le_one (h : v.IsReached) :
    v.lines.countP (·.1.isTerminal) ≤ 1 := by
  obtain ⟨cs, rfl⟩ := h
  exact countP_isTerminal_changes_le_one (v := empty) (Nat.zero_le 1) cs

lemma count_ofText (path text : String) (tag : Tag) :
    (Summary.ofText path text).count tag = (Summary.tags text.toList).count tag := by
  cases tag <;> rfl

/-- The summary of a report counts the lines of its verdict and the lines that imitate some. -/
lemma count_ofText_text (v : Verdict) (path : String) (tag : Tag) :
    (Summary.ofText path v.text).count tag =
      v.count tag + (v.lines.map fun l => tag.imitations l.2).sum := by
  rw [count_ofText, count_tags]

/-- With one terminal line at most, a verdict passed exactly if no ERROR line and some PASSED line
is counted. -/
lemma isFailing_eq_not_isPassed (hterminal : v.lines.countP (·.1.isTerminal) ≤ 1) {s : Summary}
    (hcount : ∀ tag, s.count tag = v.count tag) : s.isFailing = !v.isPassed := by
  have herrors : s.errors = v.count .error := hcount .error
  have hpassed : s.passed = v.count .passed := hcount .passed
  have hsum := count_error_add_count_passed v
  have hiff := isPassed_iff_count_passed hterminal
  rw [Summary.isFailing, herrors, hpassed, Bool.eq_iff_iff, Bool.not_eq_true', Bool.or_eq_true,
    decide_eq_true_eq, decide_eq_true_eq, ← Bool.not_eq_true, hiff]
  omega

/-- What a summary counts in the report of a verdict: for each tag the lines of the verdict that
have it, and the positions in its messages where a line feed is followed by the name of the tag and
a colon. If there is no line feed, these are the counts of the verdict, each line of the report has
the tag of the verdict's line, and the report fails exactly if the verdict did not pass. The report
is the text of the verdict, whatever was there before. -/
theorem summary_of_reached (h : v.IsReached) (path : String) :
    (∀ tag, (Summary.ofText path v.text).count tag =
      v.count tag + (v.lines.map fun l => tag.imitations l.2).sum) ∧
    ((∀ l ∈ v.lines, OneLine l.2) →
      (∀ tag, (Summary.ofText path v.text).count tag = v.count tag) ∧
        v.MatchesReport ∧ (Summary.ofText path v.text).isFailing = !v.isPassed) ∧
    ∀ (file : ReportFile) (tree after : FileTree), (file.write v).run tree = .ok () after →
      file.text? after = some v.text := by
  refine ⟨count_ofText_text v path, fun honeLine => ?_, fun file tree after hwrite => ?_⟩
  · have hcount (tag : Tag) : (Summary.ofText path v.text).count tag = v.count tag := by
      rw [count_ofText, count_tags_of_oneLine honeLine]
    exact ⟨hcount, matchesReport_iff.2 honeLine,
      isFailing_eq_not_isPassed h.countP_isTerminal_le_one hcount⟩
  · exact ReportFile.text?_of_run_write hwrite

/-- A warning of two lines, of which the second looks like a PASSED line, and a failure: one PASSED
line is counted, although the verdict has none. Without that second line the report fails like the
verdict, also in place of an older report. -/
theorem summary_of_imitation :
    (Summary.ofText "" (empty.changes [.add .warn "a\nPASSED: b", .fail "c"]).text).count .passed =
        0 + 1 ∧
      (Summary.ofText "" (empty.changes [.add .warn "a", .fail "c"]).text).isFailing = true ∧
        ∃ after, (ReportFile.write ⟨"", "serial"⟩
            (empty.changes [.add .warn "a", .fail "c"])).run ⟨[(["serial.out"], .file [80])], []⟩ =
              .ok () after ∧
          ReportFile.text? ⟨"", "serial"⟩ after =
            some (empty.changes [.add .warn "a", .fail "c"]).text := by
  obtain ⟨himitation, -⟩ :=
    summary_of_reached ⟨[.add .warn "a\nPASSED: b", .fail "c"], rfl⟩ ""
  obtain ⟨-, hplain, hreport⟩ := summary_of_reached ⟨[.add .warn "a", .fail "c"], rfl⟩ ""
  obtain ⟨-, -, hfailing⟩ := hplain (by decide)
  obtain ⟨after, hwrite⟩ : ∃ after, (ReportFile.write ⟨"", "serial"⟩
      (empty.changes [.add .warn "a", .fail "c"])).run ⟨[(["serial.out"], .file [80])], []⟩ =
        .ok () after := ⟨_, rfl⟩
  exact ⟨himitation .passed, hfailing, after, hwrite, hreport _ _ _ hwrite⟩

end Verdict

end JobBinding

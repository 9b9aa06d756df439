import JobBinding.Proofs.Files.Names
import JobBinding.Proofs.Scenario.Name
import JobBinding.Summary

/-!
# The files that are reports

A file is a report by its name, which is taken apart: what stands before the last dot must be the
name of a scenario, and what follows it the extension. The names of the files that the actions write
are such names, and no others are (`isReportName_iff`), whatever dots they have.
-/

namespace JobBinding

/-- The product of a scenario can be the name of a file. -/
lemma Scenario.isName_product (s : Scenario) : Path.IsName s.product := by
  cases s <;> exact ⟨by decide, by decide, by decide, by decide⟩

/-- The product of a scenario is divided into the name and the extension. -/
lemma Scenario.divideName_product (s : Scenario) :
    Path.divideName s.product.toList = (s.name.toList, some "out".toList) :=
  Path.divideName_eq_some_iff.2 ⟨s.toList_product, s.toList_name_ne_nil, by decide⟩

namespace Summary

/-- The names of reports are the products of the scenarios. -/
theorem isReportName_iff {name : String} :
    isReportName name = true ↔ ∃ s : Scenario, name = s.product := by
  unfold isReportName
  rw [Bool.and_eq_true, decide_eq_true_iff, Scenario.isOk_ofName_iff]
  constructor
  · rintro ⟨hextension, s, hs⟩
    have hdivide : Path.divideName name.toList = (s.name.toList, some "out".toList) :=
      Prod.ext (by rw [hs, String.toList_ofList]) hextension
    obtain ⟨hname, -, -⟩ := Path.divideName_eq_some_iff.1 hdivide
    exact ⟨s, String.toList_inj.1 (hname.trans s.toList_product.symm)⟩
  · rintro ⟨s, rfl⟩
    rw [s.divideName_product]
    exact ⟨rfl, s, String.ofList_toList.symm⟩

/-- A path leads to a report if the name of its file is the product of a scenario. -/
theorem isReport_iff {path : String} :
    isReport path = true ↔ ∃ s : Scenario, Path.fileName? path = some s.product := by
  rw [isReport, Option.any_eq_true]
  constructor
  · rintro ⟨name, hname, hreport⟩
    obtain ⟨s, rfl⟩ := isReportName_iff.1 hreport
    exact ⟨s, hname⟩
  · rintro ⟨s, hs⟩
    exact ⟨s.product, hs, isReportName_iff.2 ⟨s, rfl⟩⟩

end Summary

end JobBinding

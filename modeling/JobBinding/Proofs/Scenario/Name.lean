import Mathlib.Tactic.Common
import JobBinding.Scenario

/-!
# Names of scenarios

No two scenarios share a name, so the scenario of an action is found by its name
(`ofName_eq_ok_iff`), and every other name is refused (`ofName_of_forall_ne`). A name is not empty
and has neither a dot nor a slash: it is what stands before the only dot of the product, and it
leads nowhere as a part of a path.
-/

namespace JobBinding

namespace Scenario

variable {s : Scenario} {action : String}

lemma nodup_names : (all.map name).Nodup := by
  decide

/-- The name of a scenario is the name of no other. -/
theorem ofName_name (s : Scenario) : ofName s.name = .ok s := by
  cases s <;> rfl

lemma ofName_eq_ok_iff : ofName action = .ok s ↔ s.name = action := by
  constructor
  · intro h
    unfold ofName at h
    split at h
    · next hfind =>
      cases h
      simpa using List.find?_some hfind
    · cases h
  · rintro rfl
    exact s.ofName_name

lemma ofName_of_forall_ne (h : ∀ s : Scenario, s.name ≠ action) :
    ofName action = .error (.unknownAction action) := by
  cases hname : ofName action with
  | ok s => exact absurd (ofName_eq_ok_iff.1 hname) (h s)
  | error e =>
    unfold ofName at hname
    split at hname
    · cases hname
    · exact hname.symm

lemma isOk_ofName_iff : (ofName action).isOk = true ↔ ∃ s : Scenario, s.name = action := by
  constructor
  · intro h
    cases hname : ofName action with
    | ok s => exact ⟨s, ofName_eq_ok_iff.1 hname⟩
    | error e =>
      rw [hname] at h
      cases h
  · rintro ⟨s, rfl⟩
    rw [ofName_name]
    rfl

lemma name_injective : Function.Injective name := by
  intro s s' h
  have hname := ofName_name s
  rw [h, ofName_name s', Except.ok.injEq] at hname
  exact hname.symm

variable (s)

lemma toList_name_ne_nil : s.name.toList ≠ [] := by
  cases s <;> decide

lemma dot_notMem_name : '.' ∉ s.name.toList := by
  cases s <;> decide

lemma slash_notMem_name : '/' ∉ s.name.toList := by
  cases s <;> decide

lemma toList_product : s.product.toList = s.name.toList ++ '.' :: "out".toList := by
  rw [product, String.toList_append]
  rfl

end Scenario

end JobBinding

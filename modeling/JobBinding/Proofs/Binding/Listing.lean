import JobBinding.Proofs.Binding.Device
import JobBinding.Proofs.Binding.UniqueId

/-!
# Identifiers of listed GPUs

An identifier is a part of a line of a listing, so it has no line feed, whatever the tool prints.
-/

namespace JobBinding

namespace Listing

open Text

/-- The identifiers in a listing of NVIDIA devices are of one line. -/
theorem oneLine_of_mem_nvidia {text : String} {ids : List String} (h : nvidia text = .ok ids) :
    ∀ id ∈ ids, OneLine id :=
  fun id hid => (notMem_of_mem_nvidia h id hid).2

/-- The identifiers in a listing of AMD devices are of one line. -/
theorem oneLine_of_mem_amd {text : String} : ∀ id ∈ amd text, OneLine id := by
  rw [amd_eq, ids, List.forall_mem_map]
  intro id hid
  obtain ⟨line, hline, hid⟩ := List.mem_filterMap.1 hid
  obtain ⟨before, after, hfirst, front, back, hafter, -⟩ := uniqueId?_eq_some_iff.1 hid
  have hsub : id ⊆ line := by
    rw [← hfirst.append_eq, hafter]
    intro c hc
    simp [hc]
  rw [OneLine, String.toList_ofList]
  exact fun hnewline => not_mem_newline_of_mem_lines hline (hsub hnewline)

end Listing

end JobBinding

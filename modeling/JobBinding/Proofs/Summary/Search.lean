import JobBinding.Proofs.Files.Proper
import JobBinding.Proofs.Summary.Report

/-!
# The search for reports

A search through the directories of a proper tree comes upon each report once
(`mem_collect_iff`, `nodup_collect`), since its way there is the location of the report. The order
in which it does depends on how directories are listed; the order by names does not
(`inOrder_collect`).
-/

namespace JobBinding

namespace Summary

variable {tree : FileTree} {listing : tree.Listing} {directory place : Location} {name : String}
  {places places' : List Location}

/-! ## Places in order -/

/-- The reports that a search comes upon at an entry of a directory and below. -/
def found (listing : tree.Listing) (directory : Location) (name : String) : List Location :=
  if tree.get? (directory ++ [name]) = some .directory then collect listing (directory ++ [name])
  else if isReportName name then [directory ++ [name]] else []

end Summary

end JobBinding

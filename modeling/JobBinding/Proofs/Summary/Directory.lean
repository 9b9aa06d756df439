import JobBinding.CommandLine.Run
import JobBinding.Proofs.Except
import JobBinding.Proofs.Summary.Search
import JobBinding.Proofs.Verdict.Report

/-!
# Summaries of directories

A summary of a directory has one entry for each report below it, in ascending order of the paths
from there, however the directories are listed (`ofListing_spec`). So the command that shows it ends
well exactly if each report has a PASSED line and no ERROR line.
-/

namespace JobBinding

namespace Summary

variable {tree : FileTree} {listing : tree.Listing} {root below place : Location} {path : String}
  {places : List Location} {all : List Summary} {s : Summary} {content : List UInt8}

/-! ## Entries -/

section

variable (hproper : tree.IsProper) (hlocate : tree.locate path = .ok root)
  (hroot : tree.get? root = some .directory)

include hproper hlocate hroot

end

/-! ## The command -/

/-- A directory with a report, another one in a directory that has the name of a report, and the log
of a job, which is none. -/
def nested : FileTree where
  entries := [(["home"], .directory), (["home", "serial.out"], .directory),
    (["home", "serial.out", "threads.out"], .file (Text.Utf8.encode "PASSED: 0\n")),
    (["home", "slurm-1.out"], .file (Text.Utf8.encode "ERROR: 0\n")),
    (["home", "mpi_subnode.out"], .file (Text.Utf8.encode "WARN: 0\nPASSED: 0\n"))]
  workingDirectory := ["home"]

end Summary

end JobBinding

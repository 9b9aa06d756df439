import JobBinding.Files.Tree
import JobBinding.Scenario
import JobBinding.Text.Lines
import JobBinding.Verdict

/-!
# Summaries of reports

The reports below a directory, with the number of lines of each tag. A report passes if it has a
PASSED line and no ERROR line; one that was never completed does not.
-/

namespace JobBinding

/-- The number of lines of each tag in a report. -/
structure Summary where
  path : String
  errors : Nat
  warnings : Nat
  passed : Nat
  deriving DecidableEq, Repr

namespace Summary

/-- The tags of the lines of a text. -/
def tags (text : List Char) : List Tag :=
  (Text.lines text).filterMap Tag.ofLine?

def ofText (path text : String) : Summary :=
  let found := tags text.toList
  ⟨path, found.count .error, found.count .warn, found.count .passed⟩

/-- Whether a report did not pass. -/
def isFailing (s : Summary) : Bool :=
  0 < s.errors || s.passed = 0

/-- Whether a file name is that of a report: the name of a scenario and the extension `out`. -/
def isReportName (name : String) : Bool :=
  let (stem, extension) := Path.divideName name.toList
  extension = some "out".toList && (Scenario.ofName (String.ofList stem)).isOk

/-- Whether a path leads to a file with the name of a report. -/
def isReport (path : String) : Bool :=
  (Path.fileName? path).any isReportName

/-- The reports below a directory, in the order in which a search comes upon them: it goes through
the entries as they are listed, and into each directory before the next entry. -/
def collect {tree : FileTree} (listing : tree.Listing) (directory : Location) : List Location :=
  (listing.names directory).flatMap fun name =>
    match _ : tree.get? (directory ++ [name]) with
    | some .directory => collect listing (directory ++ [name])
    | _ => if isReportName name then [directory ++ [name]] else []
termination_by tree.depth - directory.length
decreasing_by
  next h =>
    have := FileTree.length_le_depth h
    rw [List.length_append, List.length_singleton] at this ⊢
    omega

/-- Some places in ascending order by names. -/
def inOrder (places : List Location) : List Location :=
  places.mergeSort fun a b => !decide (b < a)

/-- The summary of the report at a place, with its path from a directory above it. -/
def ofPlace (tree : FileTree) (root place : Location) : Except FileFault Summary :=
  match tree.get? place with
  | some (.file content) => match Text.Utf8.decode? content with
    | some text => .ok (ofText ("/".intercalate (place.drop root.length)) text)
    | none => .error .notText
  | some .directory => .error .isADirectory
  | none => .error .notFound

/-- The summaries of some places, in order, up to the first that cannot be read. -/
def ofPlaces (tree : FileTree) (root : Location) :
    List Location → Except FileFault (List Summary)
  | [] => .ok []
  | place :: rest => do return (← ofPlace tree root place) :: (← ofPlaces tree root rest)

/-- The summaries of all reports below a directory, by their paths, however the directories are
listed. -/
def ofListing {tree : FileTree} (listing : tree.Listing) (path : String) :
    Except FileFault (List Summary) := do
  let root ← tree.locate path
  match tree.get? root with
  | none => throw .notFound
  | some (.file _) => throw .notADirectory
  | some .directory => ofPlaces tree root (inOrder (collect listing root))

/-- The summaries of all reports below a directory. -/
def ofDirectory (tree : FileTree) (path : String) : Except FileFault (List Summary) :=
  ofListing (.own tree) path

end Summary

end JobBinding

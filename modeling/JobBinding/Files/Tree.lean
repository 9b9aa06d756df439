import JobBinding.Files.Path
import JobBinding.Text.Utf8

/-!
# Trees of files

Directories and files by their location, which is the list of names from the root, and the
operations that change them. There are no links, so a location has one path of names.

An operation that fails part of the way leaves what it did before. Computations on files therefore
keep their state when they fail.
-/

namespace JobBinding

/-- The names from the root to an entry. -/
abbrev Location := List String

/-- What is at a location. -/
inductive Node where
  | directory
  | file (content : List UInt8)
  deriving DecidableEq, Repr

/-- Directories and files by location, and the directory where relative paths start. -/
structure FileTree where
  entries : List (Location × Node)
  workingDirectory : Location
  deriving DecidableEq, Repr

namespace FileTree

/-- What is at a location. The root is always a directory. -/
def get? (tree : FileTree) (place : Location) : Option Node :=
  if place = [] then some .directory else (tree.entries.find? (·.1 = place)).map (·.2)

def erase (tree : FileTree) (place : Location) : FileTree :=
  { tree with entries := tree.entries.filter (·.1 ≠ place) }

/-- The tree with an entry, instead of what was there. -/
def put (tree : FileTree) (place : Location) (node : Node) : FileTree :=
  { tree with entries := (place, node) :: (tree.erase place).entries }

/-- The locations of the entries below a directory, seen from there. -/
def below (tree : FileTree) (place : Location) : List (Location × Node) :=
  tree.entries.filterMap fun (l, node) =>
    if place.isPrefixOf l && l.length ≠ place.length then some (l.drop place.length, node)
    else none

/-! ## Listing a directory -/

/-- The name of a location in a directory, if the location is there. -/
def nameIn? (directory place : Location) : Option String :=
  if place.dropLast = directory then place.getLast? else none

def names (tree : FileTree) (directory : Location) : List String :=
  (tree.entries.map (·.1)).filterMap (nameIn? directory)

/-- The order in which a system lists the entries of each directory. -/
structure Listing (tree : FileTree) where
  names : Location → List String
  perm : ∀ directory, (names directory).Perm (tree.names directory)

/-- The order in which a tree has its entries. -/
def Listing.own (tree : FileTree) : tree.Listing :=
  ⟨tree.names, fun _ => .refl _⟩

/-- The length of the longest location. -/
def depth (tree : FileTree) : Nat :=
  tree.entries.foldr (fun entry n => max entry.1.length n) 0

theorem length_le_of_mem {entries : List (Location × Node)} {entry : Location × Node}
    (h : entry ∈ entries) :
    entry.1.length ≤ entries.foldr (fun entry n => max entry.1.length n) 0 := by
  induction entries with
  | nil => cases h
  | cons first rest ih =>
    rcases List.mem_cons.1 h with rfl | h
    · exact Nat.le_max_left _ _
    · exact Nat.le_trans (ih h) (Nat.le_max_right _ _)

theorem length_le_depth {tree : FileTree} {place : Location} {node : Node}
    (h : tree.get? place = some node) : place.length ≤ tree.depth := by
  unfold get? at h
  split at h
  · next hroot => simp [hroot]
  · obtain ⟨entry, hfind, -⟩ := Option.map_eq_some_iff.1 h
    have hplace : entry.1 = place := by simpa using List.find?_some hfind
    rw [← hplace]
    exact length_le_of_mem (List.mem_of_find?_eq_some hfind)

/-! ## Following a path -/

/-- The longest name of an entry, in bytes. -/
def nameLimit : Nat := 255

/-- The length that a path must stay below, in bytes. -/
def pathLimit : Nat := 4096

/-- Whether an entry can have a name. -/
def fits (name : String) : Bool :=
  name.utf8ByteSize ≤ nameLimit

/-- Follows steps from a location. Each location that is left must be a directory, the last one
may be vacant. -/
def follow (tree : FileTree) (place : Location) : List Step → Except FileFault Location
  | [] => .ok place
  | step :: rest => match tree.get? place with
    | none => .error .notFound
    | some (.file _) => .error .notADirectory
    | some .directory => match step with
      | .up => tree.follow place.dropLast rest
      | .into name =>
        if fits name then tree.follow (place ++ [name]) rest else .error .nameTooLong

def start (tree : FileTree) (route : Route) : Location :=
  if route.absolute then [] else tree.workingDirectory

/-- Refuses a path that no file can have. -/
def checkPath (path : String) : Except FileFault Unit :=
  if '\x00' ∈ path.toList then .error .unusablePath
  else if pathLimit ≤ path.utf8ByteSize then .error .nameTooLong
  else .ok ()

/-- The location that a path leads to, which may be vacant unless the path asks for a directory. -/
def locate (tree : FileTree) (path : String) : Except FileFault Location := do
  checkPath path
  if path = "" then throw .notFound
  let route := Route.ofPath path
  let place ← tree.follow (tree.start route) route.steps
  if route.ending ≠ .name then
    match tree.get? place with
    | none => throw .notFound
    | some (.file _) => throw .notADirectory
    | some .directory => return place
  return place

/-- What a path leads to. -/
def node? (tree : FileTree) (path : String) : Option Node :=
  match tree.locate path with
  | .ok place => tree.get? place
  | .error _ => none

def isDirectory (tree : FileTree) (path : String) : Bool :=
  tree.node? path = some .directory

def isFile (tree : FileTree) (path : String) : Bool :=
  match tree.node? path with
  | some (.file _) => true
  | _ => false

end FileTree

/-- A computation on files. What it did before a failure stays. -/
abbrev Files := EStateM Failure FileTree

namespace Files

def fault {α : Type} (f : FileFault) : Files α :=
  throw (.file f)

def ofExcept {α : Type} : Except Failure α → Files α
  | .ok a => pure a
  | .error e => throw e

def locate (path : String) : Files Location := do
  ofExcept (orFail .file ((← get).locate path))

/-! ## Directories -/

/-- Follows steps and makes the directories that are missing on the way. A route that ends by
naming its last directory again does not make that one. -/
def makeAll (ending : Ending) (place : Location) : List Step → Files Unit
  | [] => pure ()
  | .up :: rest => makeAll ending place.dropLast rest
  | .into name :: rest => do
    if !FileTree.fits name then fault .nameTooLong
    let place := place ++ [name]
    let last := rest.isEmpty
    match (← get).get? place with
    | some .directory => pure ()
    | some (.file _) =>
      fault (if last && ending ≠ .here then .alreadyExists else .notADirectory)
    | none =>
      if last && ending = .here then fault .notFound
      modify (·.put place .directory)
    makeAll ending place rest

/-- Makes the directories of a route that are missing. -/
def makeRoute (route : Route) : Files Unit := do
  makeAll route.ending ((← get).start route) route.steps

/-- Makes a directory and the missing ones above it. The empty path needs none. -/
def makeDirectories (path : String) : Files Unit := do
  ofExcept (orFail .file (FileTree.checkPath path))
  if path ≠ "" then makeRoute (Route.ofPath path)

/-- Makes the directories above the end of a path. -/
def makeParents (path : String) : Files Unit := do
  ofExcept (orFail .file (FileTree.checkPath (Path.beforeLastSlash path)))
  makeRoute (Route.ofPath path).parent

/-! ## Files -/

/-- Makes an empty file, or empties the one that is there. -/
def create (path : String) : Files Unit := do
  let place ← locate path
  match (← get).get? place with
  | some .directory => fault .isADirectory
  | _ => modify (·.put place (.file []))

def append (path : String) (bytes : List UInt8) : Files Unit := do
  let place ← locate path
  match (← get).get? place with
  | some (.file content) => modify (·.put place (.file (content ++ bytes)))
  | some .directory => fault .isADirectory
  | none => fault .notFound

/-- Makes a file with a content, instead of the one that is there. -/
def write (path : String) (text : String) : Files Unit := do
  create path
  append path (Text.Utf8.encode text)

def read (path : String) : Files (List UInt8) := do
  let place ← locate path
  match (← get).get? place with
  | some (.file content) => return content
  | some .directory => fault .isADirectory
  | none => fault .notFound

/-- The text in a file, which must be UTF-8. -/
def readText (path : String) : Files String := do
  match Text.Utf8.decode? (← read path) with
  | some text => return text
  | none => fault .notText

/-- Moves a file, in one step, to a place where no directory is. -/
def rename (source target : String) : Files Unit := do
  let place ← locate source
  let goal ← locate target
  match (← get).get? place, (← get).get? goal with
  | none, _ => fault .notFound
  | some .directory, _ => fault .isADirectory
  | some (.file _), some .directory => fault .isADirectory
  | some (.file content), _ => modify fun tree => (tree.erase place).put goal (.file content)

def remove (path : String) : Files Unit := do
  let place ← locate path
  match (← get).get? place with
  | some (.file _) => modify (·.erase place)
  | some .directory => fault .isADirectory
  | none => fault .notFound

end Files

end JobBinding

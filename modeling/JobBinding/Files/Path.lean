import JobBinding.Failure

/-!
# Paths

A path is a text. Joining keeps the text as it is written, and what a path leads to is the route
that its text describes: steps into named entries and up, from the root or from the working
directory.
-/

namespace JobBinding

namespace Path

/-- Whether a path starts at the root. -/
def isAbsolute (path : String) : Bool :=
  path.toList.head? == some '/'

/-- The path of `right` as seen from `left`. An absolute right side stands for itself. -/
def join (left right : String) : String :=
  if isAbsolute right || left == "" then right
  else if left.toList.getLast? = some '/' then left ++ right
  else left ++ "/" ++ right

/-- The parts of a text between slashes, empty ones included. -/
def parts : List Char → List (List Char)
  | [] => [[]]
  | c :: cs =>
    if c = '/' then [] :: parts cs
    else match parts cs with
      | [] => [[c]]
      | p :: ps => (c :: p) :: ps

def beforeLastSlash (path : String) : String :=
  String.ofList ((path.toList.reverse.dropWhile (· ≠ '/')).drop 1).reverse

/-! ## Names of files -/

/-- The text before and after the last dot of a file name. A dot at the beginning makes a hidden
file and divides nothing. -/
def divideName (name : List Char) : List Char × Option (List Char) :=
  let extension := (name.reverse.takeWhile (· ≠ '.')).reverse
  let stem := name.take (name.length - extension.length - 1)
  if stem = [] then (name, none) else (stem, some extension)

end Path

/-- A step of a route. -/
inductive Step where
  | into (name : String)
  | up
  deriving DecidableEq, Repr

/-- How the text of a path ends: with a name, with a slash, or with the name of the directory
itself. -/
inductive Ending where
  | name
  | slash
  | here
  deriving DecidableEq, Repr

/-- The way that a path leads. -/
structure Route where
  absolute : Bool
  steps : List Step
  ending : Ending
  deriving DecidableEq, Repr

namespace Route

/-- The step that a part of a path stands for. An empty part and a single dot stay in place. -/
def step? (part : List Char) : Option Step :=
  if part = [] ∨ part = ['.'] then none
  else if part = ['.', '.'] then some .up
  else some (.into (String.ofList part))

/-- How the parts of a path, last one first, end it. -/
def endingOf : List (List Char) → Ending
  | [] => .slash
  | part :: rest =>
    if part = [] then (if endingOf rest = .here then .here else .slash)
    else if part = ['.'] then .here
    else .name

def ofPath (path : String) : Route :=
  let parts := Path.parts path.toList
  ⟨Path.isAbsolute path, parts.filterMap step?, endingOf parts.reverse⟩

/-- The route to the directory that holds the route's end. -/
def parent (route : Route) : Route :=
  ⟨route.absolute, route.steps.dropLast, .name⟩

end Route

/-- The name of the file that a path leads to, if the path ends by entering a name. -/
def Path.fileName? (path : String) : Option String :=
  match (Route.ofPath path).steps.getLast? with
  | some (.into name) => some name
  | _ => none

end JobBinding

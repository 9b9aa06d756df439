import JobBinding.Text.Scan

/-!
# Verdicts

The outcome of a validation: tagged lines, of which at most one is terminal. An ERROR or PASSED line
closes a verdict, WARN lines only annotate it. A failure that is found later replaces the terminal
line and stands first.
-/

namespace JobBinding

/-- The tag of a line. -/
inductive Tag where
  | error
  | warn
  | passed
  deriving DecidableEq, Repr

namespace Tag

/-- All tags, in the order in which a line is compared with them. -/
def all : List Tag :=
  [.error, .warn, .passed]

/-- The tag as it stands at the beginning of a line. -/
def name : Tag → String
  | .error => "ERROR"
  | .warn => "WARN"
  | .passed => "PASSED"

/-- Whether a line with the tag closes a verdict. -/
def isTerminal : Tag → Bool
  | .warn => false
  | _ => true

/-- Whether a line begins with the tag and a colon. -/
def begins (tag : Tag) (line : List Char) : Bool :=
  (Text.afterPrefix? (tag.name.toList ++ [':']) line).isSome

/-- The tag of a line of a report. -/
def ofLine? (line : List Char) : Option Tag :=
  all.find? (·.begins line)

end Tag

/-- The outcome of a validation, as tagged lines. -/
structure Verdict where
  lines : List (Tag × String)
  deriving DecidableEq, Repr

namespace Verdict

/-- The verdict before anything was found. -/
def empty : Verdict :=
  ⟨[]⟩

instance : Inhabited Verdict := ⟨empty⟩

def lineText (line : Tag × String) : String :=
  line.1.name ++ ": " ++ line.2

/-- The text of a report: each line with a line feed after it. -/
def text (verdict : Verdict) : String :=
  String.join (verdict.lines.map fun line => lineText line ++ "\n")

/-- The line that closes the verdict. -/
def terminal? (verdict : Verdict) : Option (Tag × String) :=
  verdict.lines.find? (·.1.isTerminal)

def count (verdict : Verdict) (tag : Tag) : Nat :=
  verdict.lines.countP (·.1 = tag)

/-- Whether the verdict is closed by a PASSED line. -/
def isPassed (verdict : Verdict) : Bool :=
  verdict.terminal?.any (·.1 = .passed)

/-! ## Changes -/

/-- Adds a line at the end. A closed verdict takes no further terminal line. -/
def add? (verdict : Verdict) (tag : Tag) (message : String) : Option Verdict :=
  if tag.isTerminal && verdict.terminal?.isSome then none
  else some ⟨verdict.lines ++ [(tag, message)]⟩

/-- Closes the verdict with an ERROR in front, instead of the terminal line it has. -/
def fail (verdict : Verdict) (message : String) : Verdict :=
  ⟨(.error, message) :: verdict.lines.filter (!·.1.isTerminal)⟩

/-- A change of a verdict. -/
inductive Change where
  | add (tag : Tag) (message : String)
  | fail (message : String)
  deriving DecidableEq, Repr

/-- The verdict after a change, if it takes the change. -/
def change? (verdict : Verdict) : Change → Option Verdict
  | .add tag message => verdict.add? tag message
  | .fail message => some (verdict.fail message)

/-- The verdict after a change, or the same verdict if it does not take the change. -/
def change (verdict : Verdict) (c : Change) : Verdict :=
  (verdict.change? c).getD verdict

def changes (verdict : Verdict) (cs : List Change) : Verdict :=
  cs.foldl change verdict

end Verdict

end JobBinding

import JobBinding.Toml.Quoted
import JobBinding.Toml.Table

/-!
# Writing TOML

A document is written statement by statement, one line each. An empty line divides a header from
what stands before it.
-/

namespace JobBinding.Toml.Writer

/-- Texts with a separator between two of them. -/
def separated (separator : List Char) : List (List Char) → List Char
  | [] => []
  | [t] => t
  | t :: rest => t ++ separator ++ separated separator rest

def writeInteger (n : Int) : List Char :=
  if n < 0 then '-' :: Nat.toDigits 10 n.natAbs else Nat.toDigits 10 n.natAbs

mutual

/-- A value on the line of its key. -/
def writeValue : Value → List Char
  | .text t => writeText t
  | .integer n => writeInteger n
  | .boolean true => "true".toList
  | .boolean false => "false".toList
  | .array items => '[' :: (separated [',', ' '] (writeItems items) ++ [']'])
  | .table entries => '\x7b' :: (separated [',', ' '] (writeFields entries) ++ ['\x7d'])

def writeItems : List Value → List (List Char)
  | [] => []
  | item :: rest => writeValue item :: writeItems rest

def writeFields : List (String × Value) → List (List Char)
  | [] => []
  | (key, value) :: rest =>
    (writeKey key ++ " = ".toList ++ writeValue value) :: writeFields rest

end

/-- A dotted key. -/
def writePath (path : List String) : List Char :=
  separated ['.'] (path.map writeKey)

def writeStatement : Statement → List Char
  | .assign key value => writePath key ++ " = ".toList ++ writeValue value ++ ['\n']
  | .header key => '[' :: writePath key ++ "]\n".toList
  | .element key => "[[".toList ++ writePath key ++ "]]\n".toList

/-- What stands before a statement that is not the first one. -/
def gap : Statement → List Char
  | .assign _ _ => []
  | _ => ['\n']

def write : List Statement → List Char
  | [] => []
  | first :: rest =>
    writeStatement first ++ rest.flatMap fun s => gap s ++ writeStatement s

end JobBinding.Toml.Writer

namespace JobBinding.Toml

/-- The text of a document that some statements make. -/
def render (statements : List Statement) : String :=
  String.ofList (Writer.write statements)

end JobBinding.Toml

import JobBinding.Text.Quoted

/-!
# JSON values

Values of JSON, over a type of numbers and a type of texts, and how they are written: indented by
two spaces, one item or field a line, with the fields in the order in which they are given.
-/

namespace JobBinding

/-- A value of JSON. The fields of an object keep their order, and names can repeat. -/
inductive Json (ν τ : Type) where
  | null
  | boolean (b : Bool)
  | number (n : ν)
  | text (t : τ)
  | array (items : List (Json ν τ))
  | object (fields : List (τ × Json ν τ))

namespace Json

/-- A value with natural numbers and Unicode texts, which can be written. -/
abbrev Plain := Json Nat String

/-! ## Texts -/

/-- A hexadecimal digit, in lower case. -/
def hexDigit (n : Nat) : Char :=
  if n < 10 then Char.ofNat (48 + n) else Char.ofNat (87 + n)

/-- A character as it stands in a text. Only quotes, backslashes and characters below the space
need an escape. -/
def escapeChar (c : Char) : List Char :=
  if c = '"' then ['\\', '"']
  else if c = '\\' then ['\\', '\\']
  else if c = '\x08' then ['\\', 'b']
  else if c = '\t' then ['\\', 't']
  else if c = '\n' then ['\\', 'n']
  else if c = '\x0c' then ['\\', 'f']
  else if c = '\r' then ['\\', 'r']
  else if c.toNat < 32 then
    ['\\', 'u', '0', '0', hexDigit (c.toNat / 16), hexDigit (c.toNat % 16)]
  else [c]

def writeText (t : String) : List Char :=
  '"' :: (t.toList.flatMap escapeChar ++ ['"'])

/-! ## Values -/

/-- The beginning of a line at a depth. -/
def indent (depth : Nat) : List Char :=
  List.replicate (2 * depth) ' '

mutual

/-- A value that begins on a line of a depth. -/
def write (depth : Nat) : Plain → List Char
  | .null => "null".toList
  | .boolean true => "true".toList
  | .boolean false => "false".toList
  | .number n => Nat.toDigits 10 n
  | .text t => writeText t
  | .array [] => ['[', ']']
  | .array (item :: items) =>
    ['[', '\n'] ++ indent (depth + 1) ++ write (depth + 1) item ++ writeItems (depth + 1) items ++
      '\n' :: indent depth ++ [']']
  | .object [] => ['\x7b', '\x7d']
  | .object ((name, value) :: fields) =>
    ['\x7b', '\n'] ++ indent (depth + 1) ++ writeText name ++ [':', ' '] ++
      write (depth + 1) value ++ writeFields (depth + 1) fields ++ '\n' :: indent depth ++ ['\x7d']

/-- The items after the first, each on a line of its own. -/
def writeItems (depth : Nat) : List Plain → List Char
  | [] => []
  | item :: items =>
    [',', '\n'] ++ indent depth ++ write depth item ++ writeItems depth items

/-- The fields after the first, each on a line of its own. -/
def writeFields (depth : Nat) : List (String × Plain) → List Char
  | [] => []
  | (name, value) :: fields =>
    [',', '\n'] ++ indent depth ++ writeText name ++ [':', ' '] ++ write depth value ++
      writeFields depth fields

end

def render (value : Plain) : String :=
  String.ofList (write 0 value)

end Json

end JobBinding

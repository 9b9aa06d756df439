import JobBinding.Toml.Quoted
import JobBinding.Toml.Table

/-!
# Reading TOML

A document is a sequence of lines with at most one statement each. A value that goes over several
lines is an array, an inline table or a text; between the items of the first two there can be line
ends and comments.

Steps that depend on each other take a budget of steps. A step that is followed by another one
takes a character, so twice the length of the document is enough.
-/

namespace JobBinding.Toml.Reader

/-- What is left to read. -/
abbrev Rest := List Char

/-! ## Blanks, comments and line ends -/

/-- Whether a character is a blank within a line. -/
def isBlank (c : Char) : Bool :=
  c = ' ' || c = '\t'

def skipBlanks (cs : Rest) : Rest :=
  cs.dropWhile isBlank

/-- Skips a comment up to the end of its line. -/
def skipComment : Rest → Option Rest
  | [] => some []
  | '\n' :: rest => some ('\n' :: rest)
  | '\r' :: '\n' :: rest => some ('\n' :: rest)
  | c :: rest => if isPlain c then skipComment rest else none

/-- Skips what can follow a statement on its line: blanks, a comment and the line end. -/
def skipLine (cs : Rest) : Option Rest :=
  let ending : Rest → Option Rest
    | [] => some []
    | '\n' :: rest => some rest
    | '\r' :: '\n' :: rest => some rest
    | _ => none
  match skipBlanks cs with
  | '#' :: rest => skipComment rest >>= ending
  | cs => ending cs

/-- Skips what can stand between items: blanks, comments and line ends. `comment` tells that a
comment is going on. -/
def skipSpace (comment : Bool) : Rest → Option Rest
  | [] => some []
  | '\n' :: rest => skipSpace false rest
  | '\r' :: '\n' :: rest => skipSpace false rest
  | c :: rest =>
    if comment then (if isPlain c then skipSpace true rest else none)
    else if isBlank c then skipSpace false rest
    else if c = '#' then skipSpace true rest
    else some (c :: rest)

/-! ## Keys -/

/-- A key without dots. -/
def readSimpleKey (cs : Rest) : Option (String × Rest) :=
  match cs with
  | '"' :: rest => (readLine rest).map fun (t, rest) => (String.ofList t, rest)
  | '\'' :: rest => (readLiteral rest).map fun (t, rest) => (String.ofList t, rest)
  | cs =>
    let t := cs.takeWhile isBare
    if t = [] then none else some (String.ofList t, cs.dropWhile isBare)

/-- A key, with dots between its parts and blanks around them. -/
def readKey : (budget : Nat) → Rest → Option (List String × Rest)
  | 0, _ => none
  | budget + 1, cs => do
    let (part, rest) ← readSimpleKey (skipBlanks cs)
    match skipBlanks rest with
    | '.' :: rest => do
      let (parts, rest) ← readKey budget rest
      return (part :: parts, rest)
    | rest => return ([part], rest)

/-! ## Numbers -/

/-- The value of some digits of a base. Between two digits there can be an underscore. -/
def readDigits (base : Nat) (n : Nat) : List Char → Option Nat
  | [] => none
  | [c] => do
    let d ← hexValue? c
    if d < base then some (n * base + d) else none
  | c :: '_' :: rest => do
    let d ← hexValue? c
    if d < base then readDigits base (n * base + d) rest else none
  | c :: rest => do
    let d ← hexValue? c
    if d < base then readDigits base (n * base + d) rest else none

/-- A decimal number without sign and without leading zeros. -/
def readDecimal : List Char → Option Nat
  | ['0'] => some 0
  | '0' :: _ => none
  | cs => readDigits 10 0 cs

/-- An integer, decimal with an optional sign or with the mark of another base. -/
def readInteger : List Char → Option Int
  | '0' :: 'x' :: cs => (readDigits 16 0 cs).map Int.ofNat
  | '0' :: 'o' :: cs => (readDigits 8 0 cs).map Int.ofNat
  | '0' :: 'b' :: cs => (readDigits 2 0 cs).map Int.ofNat
  | '+' :: cs => (readDecimal cs).map Int.ofNat
  | '-' :: cs => (readDecimal cs).map fun n => -(n : Int)
  | cs => (readDecimal cs).map Int.ofNat

/-- Whether a character can belong to a word or a number. -/
def isWordChar (c : Char) : Bool :=
  c.isAlphanum || c = '_' || c = '+' || c = '-' || c = '.' || c = ':'

/-- A value that is a word or a number. -/
def readWord (cs : Rest) : Option (Value × Rest) :=
  let word := cs.takeWhile isWordChar
  let value : Option Value :=
    if word = "true".toList then some (.boolean true)
    else if word = "false".toList then some (.boolean false)
    else (readInteger word).map .integer
  value.map (·, cs.dropWhile isWordChar)

/-! ## Values -/

mutual

def readValue : (budget : Nat) → Rest → Option (Value × Rest)
  | 0, _ => none
  | budget + 1, cs => match cs with
    | '[' :: rest => (readItems budget rest).map fun (items, rest) => (.array items, rest)
    | '\x7b' :: rest => do
      let (assignments, rest) ← readFields budget rest
      return (.table (← fieldsOf? assignments), rest)
    | c :: rest =>
      if c = '"' ∨ c = '\'' then
        (readText (c :: rest)).map fun (t, rest) => (.text (String.ofList t), rest)
      else readWord (c :: rest)
    | [] => none

/-- The items of an array, up to its end. -/
def readItems : (budget : Nat) → Rest → Option (List Value × Rest)
  | 0, _ => none
  | budget + 1, cs => do
    match ← skipSpace false cs with
    | ']' :: rest => return ([], rest)
    | cs => do
      let (item, rest) ← readValue budget cs
      match ← skipSpace false rest with
      | ',' :: rest => do
        let (items, rest) ← readItems budget rest
        return (item :: items, rest)
      | ']' :: rest => return ([item], rest)
      | _ => none

/-- The assignments of an inline table, up to its end. -/
def readFields : (budget : Nat) → Rest → Option (List (List String × Value) × Rest)
  | 0, _ => none
  | budget + 1, cs => do
    match ← skipSpace false cs with
    | '\x7d' :: rest => return ([], rest)
    | cs => do
      let (key, rest) ← readKey budget cs
      match rest with
      | '=' :: rest => do
        let (value, rest) ← readValue budget (skipBlanks rest)
        match ← skipSpace false rest with
        | ',' :: rest => do
          let (fields, rest) ← readFields budget rest
          return ((key, value) :: fields, rest)
        | '\x7d' :: rest => return ([(key, value)], rest)
        | _ => none
      | _ => none

end

/-! ## Statements -/

/-- The statement at the beginning of a line that is not empty. -/
def readStatement (budget : Nat) (cs : Rest) : Option (Statement × Rest) :=
  match cs with
  | '[' :: '[' :: rest => do
    let (key, rest) ← readKey budget rest
    match rest with
    | ']' :: ']' :: rest => return (.element key, rest)
    | _ => none
  | '[' :: rest => do
    let (key, rest) ← readKey budget rest
    match rest with
    | ']' :: rest => return (.header key, rest)
    | _ => none
  | cs => do
    let (key, rest) ← readKey budget cs
    match rest with
    | '=' :: rest => do
      let (value, rest) ← readValue budget (skipBlanks rest)
      return (.assign key value, rest)
    | _ => none

def readLines : (budget : Nat) → Rest → Option (List Statement)
  | 0, _ => none
  | budget + 1, cs => match skipLine cs with
    | some [] => some []
    | some rest => readLines budget rest
    | none => do
      let (statement, rest) ← readStatement budget (skipBlanks cs)
      let statements ← readLines budget (← skipLine rest)
      return statement :: statements

end JobBinding.Toml.Reader

namespace JobBinding.Toml

/-- The value of a document. A byte order mark at its beginning is skipped. -/
def read? (text : String) : Option Value :=
  let cs := match text.toList with
    | '\uFEFF' :: cs => cs
    | cs => cs
  Reader.readLines (2 * cs.length + 2) cs >>= assemble?

end JobBinding.Toml

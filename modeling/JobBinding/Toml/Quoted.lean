/-!
# Quoted texts of TOML

A text has four written forms: basic and literal, each on one line or on several. A basic form has
escapes, a literal form shows the text as it is. Writing takes the plainest form that can hold the
text, and reading takes all of them.
-/

namespace JobBinding.Toml

/-! ## Writing -/

/-- A written form of a text. -/
inductive Form where
  | basic
  | literal
  | linesBasic
  | linesLiteral
  deriving DecidableEq, Repr

/-- Whether a character is a control character other than tab and line feed. -/
def isControl (c : Char) : Bool :=
  (c.toNat < 32 && c ≠ '\t' && c ≠ '\n') || c.toNat = 127

/-- The longest run of a character, given the length of the run that has begun. -/
def longestRun (q : Char) (current : Nat) : List Char → Nat
  | [] => current
  | c :: rest =>
    if c = q then longestRun q (current + 1) rest else max current (longestRun q 0 rest)

/-- The plainest form that can hold a text. -/
def formOf (t : List Char) : Form :=
  let controls := t.any isControl
  let backslashes := t.contains '\\'
  let lines := t.contains '\n'
  let quotes := longestRun '"' 0 t
  let apostrophes := longestRun '\'' 0 t
  if !controls && !backslashes && !lines && quotes = 0 then .basic
  else if !controls && !lines && apostrophes = 0 then .literal
  else if !controls && !backslashes && quotes ≤ 2 then .linesBasic
  else if !controls && apostrophes ≤ 2 then .linesLiteral
  else if lines then .linesBasic
  else .basic

/-- A hexadecimal digit, in upper case. -/
def hexDigit (n : Nat) : Char :=
  if n < 10 then Char.ofNat (48 + n) else Char.ofNat (55 + n)

/-- The escape of a character that a basic form cannot hold as it is. Quotes and line feeds are
not among them. -/
def escape? (c : Char) : Option (List Char) :=
  if c = '\\' then some ['\\', '\\']
  else if c = '\x08' then some ['\\', 'b']
  else if c = '\t' then some ['\\', 't']
  else if c = '\x0c' then some ['\\', 'f']
  else if c = '\r' then some ['\\', 'r']
  else if isControl c then
    some ['\\', 'u', '0', '0', hexDigit (c.toNat / 16), hexDigit (c.toNat % 16)]
  else none

/-- The characters of the basic form on one line. -/
def escapeLine : List Char → List Char
  | [] => []
  | '"' :: rest => '\\' :: '"' :: escapeLine rest
  | '\n' :: rest => '\\' :: 'n' :: escapeLine rest
  | c :: rest => (escape? c).getD [c] ++ escapeLine rest

/-- The characters of the basic form on several lines, after a number of quotes without escape.
Each third quote of a run is escaped, so that the run does not end the text. -/
def escapeLines (quotes : Nat) : List Char → List Char
  | [] => []
  | '"' :: rest =>
    if quotes = 2 then '\\' :: '"' :: escapeLines 0 rest else '"' :: escapeLines (quotes + 1) rest
  | c :: rest => (escape? c).getD [c] ++ escapeLines 0 rest

/-- The line feed after the opening of a form on several lines, if the text has lines. -/
def opening (t : List Char) : List Char :=
  if t.contains '\n' then ['\n'] else []

def writeForm (t : List Char) : Form → List Char
  | .basic => '"' :: (escapeLine t ++ ['"'])
  | .literal => '\'' :: (t ++ ['\''])
  | .linesBasic => ['"', '"', '"'] ++ opening t ++ escapeLines 0 t ++ ['"', '"', '"']
  | .linesLiteral => ['\'', '\'', '\''] ++ opening t ++ t ++ ['\'', '\'', '\'']

def writeText (t : String) : List Char :=
  writeForm t.toList (formOf t.toList)

/-- Whether a character may stand in a key without quotes. -/
def isBare (c : Char) : Bool :=
  c.isAlphanum || c = '_' || c = '-'

def writeKey (t : String) : List Char :=
  let cs := t.toList
  let controls := cs.any fun c => isControl c || c = '\n'
  if cs ≠ [] ∧ cs.all isBare then cs
  else if !controls && !cs.contains '\\' && !cs.contains '"' then writeForm cs .basic
  else if !controls && !cs.contains '\'' then writeForm cs .literal
  else writeForm cs .basic

/-! ## Reading -/

/-- Whether a character may stand in a text as it is: no control character but tab. -/
def isPlain (c : Char) : Bool :=
  !isControl c && c ≠ '\n'

/-- The value of a hexadecimal digit of either case. -/
def hexValue? (c : Char) : Option Nat :=
  if '0' ≤ c ∧ c ≤ '9' then some (c.toNat - 48)
  else if 'a' ≤ c ∧ c ≤ 'f' then some (c.toNat - 87)
  else if 'A' ≤ c ∧ c ≤ 'F' then some (c.toNat - 55)
  else none

/-- The character whose code point some hexadecimal digits give. -/
def hexChar? (digits : List Char) : Option Char := do
  let n ← digits.foldlM (fun n c => (hexValue? c).map (n * 16 + ·)) 0
  if n < 0xD800 ∨ (0xE000 ≤ n ∧ n < 0x110000) then some (Char.ofNat n) else none

/-- The character that a letter after a backslash stands for. -/
def escaped? (c : Char) : Option Char :=
  match c with
  | '"' => some '"'
  | '\\' => some '\\'
  | 'b' => some '\x08'
  | 'e' => some '\x1b'
  | 'f' => some '\x0c'
  | 'n' => some '\n'
  | 'r' => some '\r'
  | 't' => some '\t'
  | _ => none

/-- Puts a character in front of what was read. -/
def andThen (c : Char) : Option (List Char × List Char) → Option (List Char × List Char) :=
  Option.map fun (t, rest) => (c :: t, rest)

/-- The content of a basic form on one line, and what follows the closing quote. -/
def readLine : List Char → Option (List Char × List Char)
  | [] => none
  | '"' :: rest => some ([], rest)
  | '\\' :: 'x' :: a :: b :: rest => do andThen (← hexChar? [a, b]) (readLine rest)
  | '\\' :: 'u' :: a :: b :: c :: d :: rest => do
    andThen (← hexChar? [a, b, c, d]) (readLine rest)
  | '\\' :: 'U' :: a :: b :: c :: d :: e :: f :: g :: h :: rest => do
    andThen (← hexChar? [a, b, c, d, e, f, g, h]) (readLine rest)
  | '\\' :: c :: rest => do andThen (← escaped? c) (readLine rest)
  | c :: rest => if isPlain c then andThen c (readLine rest) else none

/-- The content of a literal form on one line, and what follows the closing quote. -/
def readLiteral : List Char → Option (List Char × List Char)
  | [] => none
  | '\'' :: rest => some ([], rest)
  | c :: rest => if isPlain c then andThen c (readLiteral rest) else none

/-- Whether only blanks stand before the end of the line. -/
def endsLine : List Char → Bool
  | ' ' :: rest => endsLine rest
  | '\t' :: rest => endsLine rest
  | '\n' :: _ => true
  | '\r' :: '\n' :: _ => true
  | _ => false

/-- The content of a basic form on several lines, and what follows the closing quotes. Up to two
quotes before these belong to the content. A backslash at the end of a line joins the line with
the next one that has more than blanks; `joins` tells that this is going on. -/
def readLines (joins : Bool) : List Char → Option (List Char × List Char)
  | [] => none
  | '"' :: '"' :: '"' :: '"' :: '"' :: rest => some (['"', '"'], rest)
  | '"' :: '"' :: '"' :: '"' :: rest => some (['"'], rest)
  | '"' :: '"' :: '"' :: rest => some ([], rest)
  | '\\' :: 'x' :: a :: b :: rest => do andThen (← hexChar? [a, b]) (readLines false rest)
  | '\\' :: 'u' :: a :: b :: c :: d :: rest => do
    andThen (← hexChar? [a, b, c, d]) (readLines false rest)
  | '\\' :: 'U' :: a :: b :: c :: d :: e :: f :: g :: h :: rest => do
    andThen (← hexChar? [a, b, c, d, e, f, g, h]) (readLines false rest)
  | '\\' :: c :: rest =>
    match escaped? c with
    | some c => andThen c (readLines false rest)
    | none => if endsLine (c :: rest) then readLines true rest else none
  | '\r' :: '\n' :: rest =>
    if joins then readLines true rest else andThen '\r' (andThen '\n' (readLines false rest))
  | '\n' :: rest =>
    if joins then readLines true rest else andThen '\n' (readLines false rest)
  | c :: rest =>
    if joins && (c = ' ' || c = '\t') then readLines true rest
    else if isPlain c then andThen c (readLines false rest)
    else none

/-- The content of a literal form on several lines, and what follows the closing quotes. -/
def readLiteralLines : List Char → Option (List Char × List Char)
  | [] => none
  | '\'' :: '\'' :: '\'' :: '\'' :: '\'' :: rest => some (['\'', '\''], rest)
  | '\'' :: '\'' :: '\'' :: '\'' :: rest => some (['\''], rest)
  | '\'' :: '\'' :: '\'' :: rest => some ([], rest)
  | '\r' :: '\n' :: rest => andThen '\r' (andThen '\n' (readLiteralLines rest))
  | '\n' :: rest => andThen '\n' (readLiteralLines rest)
  | c :: rest => if isPlain c then andThen c (readLiteralLines rest) else none

/-- The text without a line end at its beginning. -/
def dropLineEnd : List Char → List Char
  | '\n' :: rest => rest
  | '\r' :: '\n' :: rest => rest
  | cs => cs

/-- A text in any form, and what follows it. -/
def readText : List Char → Option (List Char × List Char)
  | '"' :: '"' :: '"' :: rest => readLines false (dropLineEnd rest)
  | '"' :: rest => readLine rest
  | '\'' :: '\'' :: '\'' :: rest => readLiteralLines (dropLineEnd rest)
  | '\'' :: rest => readLiteral rest
  | _ => none

end JobBinding.Toml

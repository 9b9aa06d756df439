import JobBinding.Json.Value

/-!
# Tokens of JSON

The first stage of reading: characters become tokens. White space divides tokens and is dropped.
The input is a list of pieces, a character or a part that is no character; such a part can stand
within a text only. A text with such a part, or with half of a surrogate pair, is a token
without content: it may stand where its content does not matter.
-/

namespace JobBinding.Json

/-- A token. A number that is not written as a natural number has no value. -/
inductive Token where
  | openArray
  | closeArray
  | openObject
  | closeObject
  | comma
  | colon
  | null
  | boolean (b : Bool)
  | number (n : Option Nat)
  | text (t : Option String)
  deriving DecidableEq, Repr

/-- Input: characters, and parts that are none. -/
abbrev Input := List (Option Char)

namespace Token

/-! ## Texts -/

/-- A part of a text. -/
inductive Part where
  | char (c : Char)
  /-- A half of a surrogate pair. -/
  | half (unit : Nat)
  /-- No character. -/
  | broken
  deriving DecidableEq, Repr

/-- The value of a hexadecimal digit of either case. -/
def hexValue? (c : Char) : Option Nat :=
  if '0' ≤ c ∧ c ≤ '9' then some (c.toNat - 48)
  else if 'a' ≤ c ∧ c ≤ 'f' then some (c.toNat - 87)
  else if 'A' ≤ c ∧ c ≤ 'F' then some (c.toNat - 55)
  else none

/-- The value of four hexadecimal digits. -/
def hexUnit? (a b c d : Char) : Option Nat := do
  return ((← hexValue? a) * 16 + (← hexValue? b)) * 256 + (← hexValue? c) * 16 + (← hexValue? d)

/-- What a unit of sixteen bits stands for. -/
def ofUnit (unit : Nat) : Part :=
  if 0xD800 ≤ unit ∧ unit < 0xE000 then .half unit else .char (Char.ofNat unit)

/-- The character that a letter after a backslash stands for. -/
def escaped? (c : Char) : Option Char :=
  match c with
  | '"' => some '"'
  | '\\' => some '\\'
  | '/' => some '/'
  | 'b' => some '\x08'
  | 'f' => some '\x0c'
  | 'n' => some '\n'
  | 'r' => some '\r'
  | 't' => some '\t'
  | _ => none

/-- The parts of a text up to its closing quote, and the input after it. -/
def readParts : Input → Option (List Part × Input)
  | [] => none
  | some '"' :: rest => some ([], rest)
  | some '\\' :: some 'u' :: some a :: some b :: some c :: some d :: rest => do
    let unit ← hexUnit? a b c d
    let (parts, rest) ← readParts rest
    return (ofUnit unit :: parts, rest)
  | some '\\' :: some c :: rest => do
    let c ← escaped? c
    let (parts, rest) ← readParts rest
    return (.char c :: parts, rest)
  | some '\\' :: _ => none
  | some c :: rest =>
    if c.toNat < 32 then none
    else do
      let (parts, rest) ← readParts rest
      return (.char c :: parts, rest)
  | none :: rest => do
    let (parts, rest) ← readParts rest
    return (.broken :: parts, rest)

/-- The text of some parts. Two halves in a row make one character, if they belong together. -/
def content? : List Part → Option (List Char)
  | [] => some []
  | .char c :: rest => (content? rest).map (c :: ·)
  | .half high :: .half low :: rest =>
    if high < 0xDC00 ∧ 0xDC00 ≤ low then
      (content? rest).map
        (Char.ofNat (0x10000 + (high - 0xD800) * 0x400 + (low - 0xDC00)) :: ·)
    else none
  | _ => none

/-- Reads a text after its opening quote. -/
def readText (input : Input) : Option (Token × Input) := do
  let (parts, rest) ← readParts input
  return (.text ((content? parts).map String.ofList), rest)

/-! ## Numbers -/

def readDigits : Input → List Char × Input
  | some c :: rest =>
    if c.isDigit then
      let (digits, rest) := readDigits rest
      (c :: digits, rest)
    else ([], some c :: rest)
  | input => ([], input)

/-- Skips a fraction. Tells whether there is one. -/
def skipFraction : Input → Option (Bool × Input)
  | some '.' :: rest =>
    match readDigits rest with
    | ([], _) => none
    | (_, rest) => some (true, rest)
  | input => some (false, input)

def skipSign : Input → Input
  | some '+' :: rest => rest
  | some '-' :: rest => rest
  | input => input

/-- Skips an exponent. Tells whether there is one. -/
def skipExponent : Input → Option (Bool × Input)
  | some c :: rest =>
    if c = 'e' ∨ c = 'E' then
      match readDigits (skipSign rest) with
      | ([], _) => none
      | (_, rest) => some (true, rest)
    else some (false, some c :: rest)
  | input => some (false, input)

/-- Reads a number after its sign. -/
def readUnsigned (negative : Bool) (input : Input) : Option (Token × Input) :=
  let digits := (readDigits input).1
  if digits = [] ∨ (digits.head? = some '0' ∧ digits.length ≠ 1) then none
  else do
    let (fraction, rest) ← skipFraction (readDigits input).2
    let (exponent, rest) ← skipExponent rest
    let value := digits.foldl (fun n d => n * 10 + (d.toNat - 48)) 0
    return (.number (if negative || fraction || exponent then none else some value), rest)

/-! ## Tokens -/

/-- Whether a character divides tokens. -/
def isBlank (c : Char) : Bool :=
  c = ' ' || c = '\t' || c = '\n' || c = '\r'

/-- Reads a word that must stand here. -/
def readWord (token : Token) : List Char → Input → Option (Token × Input)
  | [], rest => some (token, rest)
  | w :: word, some c :: rest => if w = c then readWord token word rest else none
  | _ :: _, _ => none

/-- Reads the token that begins with a character. -/
def read (c : Char) (rest : Input) : Option (Token × Input) :=
  match c with
  | '[' => some (.openArray, rest)
  | ']' => some (.closeArray, rest)
  | '\x7b' => some (.openObject, rest)
  | '\x7d' => some (.closeObject, rest)
  | ',' => some (.comma, rest)
  | ':' => some (.colon, rest)
  | '"' => readText rest
  | 'n' => readWord .null "ull".toList rest
  | 't' => readWord (.boolean true) "rue".toList rest
  | 'f' => readWord (.boolean false) "alse".toList rest
  | '-' => readUnsigned true rest
  | c => readUnsigned false (some c :: rest)

/-! ### Each token takes a part of the input -/

theorem readDigits_length (input : Input) :
    (readDigits input).1.length + (readDigits input).2.length = input.length := by
  fun_induction readDigits input with
  | case1 c rest hdigit digits after hread ih =>
    rw [hread] at ih
    simp only [List.length_cons] at ih ⊢
    omega
  | case2 c rest hdigit => simp
  | case3 input hinput => simp

theorem length_of_skipFraction {input rest : Input} {b : Bool}
    (h : skipFraction input = some (b, rest)) : rest.length ≤ input.length := by
  unfold skipFraction at h
  split at h
  · next r =>
    have := readDigits_length r
    split at h
    · cases h
    · next heq => rw [heq] at this; cases h; simp at this ⊢; omega
  · cases h; exact Nat.le_refl _

theorem skipSign_length (input : Input) : (skipSign input).length ≤ input.length := by
  unfold skipSign
  split <;> simp

theorem length_of_skipExponent {input rest : Input} {b : Bool}
    (h : skipExponent input = some (b, rest)) : rest.length ≤ input.length := by
  unfold skipExponent at h
  split at h
  · next c r =>
    split at h
    · have h1 := readDigits_length (skipSign r)
      have h2 := skipSign_length r
      split at h
      · cases h
      · next heq => rw [heq] at h1; cases h; simp at h1 ⊢; omega
    · cases h; exact Nat.le_refl _
  · cases h; exact Nat.le_refl _

theorem length_of_readUnsigned {negative : Bool} {input rest : Input} {t : Token}
    (h : readUnsigned negative input = some (t, rest)) : rest.length < input.length := by
  unfold readUnsigned at h
  have hd := readDigits_length input
  dsimp only at h
  split at h
  · cases h
  · next hne =>
    simp only [Option.bind_eq_bind, Option.bind_eq_some_iff] at h
    obtain ⟨⟨f, r1⟩, h1, ⟨e, r2⟩, h2, h3⟩ := h
    have l1 := length_of_skipFraction h1
    have l2 := length_of_skipExponent h2
    cases h3
    have : (readDigits input).1.length ≠ 0 :=
      fun h0 => hne (Or.inl (List.length_eq_zero_iff.1 h0))
    dsimp only at l1 l2 ⊢
    omega

theorem length_of_readParts {input rest : Input} {parts : List Part}
    (h : readParts input = some (parts, rest)) : rest.length < input.length := by
  fun_induction readParts input generalizing parts rest with
  | case1 | case5 | case6 => cases h
  | case2 after =>
    cases h
    exact Nat.lt_succ_self _
  | case3 a b c d after ih =>
    simp only [Option.bind_eq_bind, Option.bind_eq_some_iff] at h
    obtain ⟨_, -, ⟨inner, left⟩, hinner, heq⟩ := h
    cases heq
    have hlt := ih hinner
    simp only [List.length_cons]
    omega
  | case4 c after _ ih =>
    simp only [Option.bind_eq_bind, Option.bind_eq_some_iff] at h
    obtain ⟨_, -, ⟨inner, left⟩, hinner, heq⟩ := h
    cases heq
    have hlt := ih hinner
    simp only [List.length_cons]
    omega
  | case7 c after _ _ _ _ _ ih =>
    simp only [Option.bind_eq_bind, Option.bind_eq_some_iff] at h
    obtain ⟨⟨inner, left⟩, hinner, heq⟩ := h
    cases heq
    exact Nat.lt_succ_of_lt (ih hinner)
  | case8 after ih =>
    simp only [Option.bind_eq_bind, Option.bind_eq_some_iff] at h
    obtain ⟨⟨inner, left⟩, hinner, heq⟩ := h
    cases heq
    exact Nat.lt_succ_of_lt (ih hinner)

theorem length_of_readWord {token t : Token} {word : List Char} {input rest : Input}
    (h : readWord token word input = some (t, rest)) : rest.length ≤ input.length := by
  fun_induction readWord token word input with
  | case1 after =>
    cases h
    exact Nat.le_refl _
  | case2 word c after ih => exact Nat.le_succ_of_le (ih h)
  | case3 | case4 => cases h

theorem length_of_read {c : Char} {input rest : Input} {t : Token}
    (h : read c input = some (t, rest)) : rest.length ≤ input.length := by
  unfold read at h
  split at h
  all_goals first
    | (cases h; exact Nat.le_refl _)
    | exact length_of_readWord h
    | exact Nat.le_of_lt (length_of_readUnsigned h)
    | skip
  · unfold readText at h
    simp only [Option.bind_eq_bind, Option.bind_eq_some_iff] at h
    obtain ⟨⟨parts, r⟩, hp, he⟩ := h
    cases he
    exact Nat.le_of_lt (length_of_readParts hp)
  · exact Nat.le_of_lt_succ (by simpa using length_of_readUnsigned h)

def readAll : Input → Option (List Token)
  | [] => some []
  | none :: _ => none
  | some c :: rest =>
    if isBlank c then readAll rest
    else match h : read c rest with
      | none => none
      | some (token, rest') =>
        have := length_of_read h
        (readAll rest').map (token :: ·)
termination_by input => input.length
decreasing_by
  · simp
  · simp; omega

end Token

end JobBinding.Json

import JobBinding.Text.Quoted

/-!
# Scanning a line

Three steps suffice to take a line of a listing tool apart: a literal that must stand here, the
text up to the first occurrence of a marker, and the end. A step that fails tells what it sought
and the text at the place where it stopped.
-/

namespace JobBinding.Text

/-- What a scan sought: a literal at this place, a marker from this place on, or the end. -/
inductive Sought where
  | literal
  | marker
  | ending
  deriving DecidableEq, Repr

/-- How a message names what was sought. -/
def Sought.name : Sought → String
  | .literal => "Tag"
  | .marker => "TakeUntil"
  | .ending => "Eof"

/-- A scan that stopped: what it sought, and the text from that place on. -/
structure Mismatch where
  sought : Sought
  rest : List Char
  deriving DecidableEq, Repr

def Mismatch.message (m : Mismatch) : String :=
  "expected " ++ m.sought.name ++ " at " ++ quote (String.ofList m.rest)

/-- The text after a prefix, if the text begins with it. -/
def afterPrefix? : List Char → List Char → Option (List Char)
  | [], cs => some cs
  | _ :: _, [] => none
  | p :: ps, c :: cs => if p = c then afterPrefix? ps cs else none

theorem afterPrefix?_eq_some_iff {ps cs rest : List Char} :
    afterPrefix? ps cs = some rest ↔ cs = ps ++ rest := by
  induction ps generalizing cs with
  | nil => simp [afterPrefix?]
  | cons p ps ih =>
    cases cs with
    | nil => simp [afterPrefix?]
    | cons c cs =>
      by_cases h : p = c
      · simp [afterPrefix?, h, ih]
      · simp [afterPrefix?, h, Ne.symm h]

/-- The texts before and after the first occurrence of a marker. -/
def splitAtMarker? (marker : List Char) : List Char → Option (List Char × List Char)
  | [] => (afterPrefix? marker []).map ([], ·)
  | c :: cs => match afterPrefix? marker (c :: cs) with
    | some after => some ([], after)
    | none => (splitAtMarker? marker cs).map fun (before, after) => (c :: before, after)

namespace Scan

/-- The text after a literal that must stand at its beginning. -/
def literal (lit cs : List Char) : Except Mismatch (List Char) :=
  match afterPrefix? lit cs with
  | some rest => .ok rest
  | none => .error ⟨.literal, cs⟩

/-- The texts before and after the first occurrence of a marker, which must occur. -/
def upTo (marker cs : List Char) : Except Mismatch (List Char × List Char) :=
  match splitAtMarker? marker cs with
  | some parts => .ok parts
  | none => .error ⟨.marker, cs⟩

/-- Succeeds at the end of the text only. -/
def ending (cs : List Char) : Except Mismatch Unit :=
  if cs = [] then .ok () else .error ⟨.ending, cs⟩

/-- The literal, if the text is the literal and nothing else. -/
def onlyLiteral (lit text : String) : Except Mismatch String := do
  let rest ← literal lit.toList text.toList
  ending rest
  return lit

end Scan

end JobBinding.Text

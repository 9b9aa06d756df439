import JobBinding.Text.Columns
import JobBinding.Text.Lines

/-!
# Tables on a terminal

A table with a header and rows, each cell as wide as its column. With colors each piece of a line is
painted on its own and followed by a reset.
-/

namespace JobBinding.CommandLine

/-- How a piece of text is painted. -/
inductive Style where
  | plain
  | bold
  | red
  | yellow
  | green
  deriving DecidableEq, Repr

/-- The control sequence that begins a style. -/
def Style.sequence : Style → String
  | .plain => ""
  | .bold => "\x1b[1m"
  | .red => "\x1b[31m"
  | .yellow => "\x1b[33m"
  | .green => "\x1b[32m"

/-- The control sequence that ends every style. -/
def reset (colors : Bool) : String :=
  if colors then "\x1b[0m" else ""

/-- The beginning of a style, if there are colors. -/
def styleStart (colors : Bool) (style : Style) : String :=
  if colors then style.sequence else ""

def paint (colors : Bool) (style : Style) (text : String) : String :=
  styleStart colors style ++ text ++ reset colors

/-- A cell of a table. -/
structure Cell where
  text : String
  toRight : Bool
  style : Style
  deriving DecidableEq, Repr

namespace Cell

def ofText (text : String) : Cell :=
  ⟨text, false, .plain⟩

def ofNat (n : Nat) : Cell :=
  ⟨toString n, true, .plain⟩

/-- A cell of a header. -/
def ofTitle (text : String) : Cell :=
  ⟨text, false, .bold⟩

def inStyle (c : Cell) (style : Style) : Cell :=
  { c with style }

def lines (c : Cell) : List String :=
  (Text.lines c.text.toList).map String.ofList

/-- The columns that the cell needs. -/
def width (c : Cell) : Nat :=
  (c.lines.map Text.columns).foldl max 0

/-- A line of the cell, padded to a width. -/
def pad (c : Cell) (width : Nat) (line : String) : String :=
  let blanks := String.ofList (List.replicate (width - Text.columns line) ' ')
  if c.toRight then blanks ++ line else line ++ blanks

end Cell

namespace Table

def widths (rows : List (List Cell)) : List Nat :=
  match rows with
  | [] => []
  | first :: rest =>
    rest.foldl (fun ws row => List.zipWith max ws (row.map Cell.width)) (first.map Cell.width)

/-- A piece of a line that is painted on its own. -/
def piece (colors : Bool) (text : String) : String :=
  reset colors ++ text ++ reset colors

def lineEnd (colors : Bool) : String :=
  "\n" ++ reset colors

/-- A line between rows. -/
def border (colors : Bool) (ws : List Nat) : String :=
  let dashes := ws.map fun w =>
    piece colors (String.ofList (List.replicate (w + 2) '-')) ++ piece colors "+"
  piece colors "+" ++ String.join dashes ++ lineEnd colors

def cellLine (colors : Bool) (index : Nat) (c : Cell) (width : Nat) : String :=
  piece colors " " ++ reset colors ++ reset colors ++ styleStart colors c.style ++
    c.pad width (c.lines[index]?.getD "") ++ reset colors ++ " " ++ reset colors

def rowLine (colors : Bool) (ws : List Nat) (row : List Cell) (index : Nat) : String :=
  let cells := List.zipWith (fun c w => cellLine colors index c w ++ piece colors "|") row ws
  piece colors "|" ++ String.join cells ++ lineEnd colors

/-- All lines of a row, as many as its highest cell has. -/
def row (colors : Bool) (ws : List Nat) (cells : List Cell) : String :=
  let height := (cells.map (·.lines.length)).foldl max 0
  String.join ((List.range height).map (rowLine colors ws cells))

/-- A table. Without rows it ends below its header. -/
def render (colors : Bool) (header : List Cell) (rows : List (List Cell)) : String :=
  let ws := widths (header :: rows)
  let line := border colors ws
  line ++ row colors ws header ++ line ++ String.join (rows.map (row colors ws)) ++
    if rows.isEmpty then "" else line

end Table

end JobBinding.CommandLine

/-!
# Lines of a text

A line ends with a line feed, or with a carriage return and a line feed. A text that ends with a
line end has no further, empty line, and a carriage return alone is part of its line.
-/

namespace JobBinding.Text

/-- Puts a character in front of the first line; alone it is a line of its own. -/
def consLine (c : Char) : List (List Char) → List (List Char)
  | [] => [[c]]
  | line :: rest => (c :: line) :: rest

/-- The lines of a text without their ends. -/
def lines : List Char → List (List Char)
  | [] => []
  | '\r' :: '\n' :: rest => [] :: lines rest
  | c :: rest => if c = '\n' then [] :: lines rest else consLine c (lines rest)

/-- The text of some lines, each with a line feed after it. -/
def unlines (ls : List (List Char)) : List Char :=
  ls.flatMap (· ++ ['\n'])

end JobBinding.Text

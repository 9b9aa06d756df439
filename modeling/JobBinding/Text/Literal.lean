/-!
# Set and list literals

Observed values are shown in messages between braces or brackets, with a comma and a space between
two of them.
-/

namespace JobBinding.Text

/-- The items of a set: `\x7ba, b\x7d`. -/
def setLiteral (items : List String) : String :=
  "\x7b" ++ ", ".intercalate items ++ "\x7d"

/-- The items of a list: `[a, b]`. -/
def listLiteral (items : List String) : String :=
  "[" ++ ", ".intercalate items ++ "]"

end JobBinding.Text

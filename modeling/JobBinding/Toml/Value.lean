/-!
# TOML values

Values of TOML. Floating-point numbers and dates are left out: no file of this library has a place
for them.
-/

namespace JobBinding.Toml

/-- A value of TOML. The entries of a table keep their order, and no key repeats. -/
inductive Value where
  | text (t : String)
  | integer (n : Int)
  | boolean (b : Bool)
  | array (items : List Value)
  | table (entries : List (String × Value))

end JobBinding.Toml

import JobBinding.Json.Token
import JobBinding.Text.Utf8

/-!
# Reading JSON

The second stage of reading: tokens become a value. A value that is not finished yet is a stack of
open arrays and objects, so each token is one step and values can be nested to any depth.
-/

namespace JobBinding.Json

/-- A value as it was read. Numbers and texts of unusual form are in it without their content. -/
abbrev Found := Json (Option Nat) (Option String)

/-- An array or an object that is still open, with its finished parts, last one first. -/
inductive Open where
  | items (done : List Found)
  | fields (done : List (Option String × Found)) (name : Option String)

/-- What is read next. -/
inductive Reading where
  /-- A value must follow. -/
  | expectValue
  /-- A value, or the end of an array without items. -/
  | expectItem
  /-- A name, or the end of an object without fields. -/
  | expectField
  /-- A name must follow. -/
  | expectName (done : List (Option String × Found))
  /-- The colon after a name. -/
  | expectColon (done : List (Option String × Found)) (name : Option String)
  /-- A value was finished. -/
  | finished (value : Found)

namespace Reading

/-- Begins a value with a token. -/
def begins (nesting : List Open) : Token → Option (Reading × List Open)
  | .null => some (.finished .null, nesting)
  | .boolean b => some (.finished (.boolean b), nesting)
  | .number n => some (.finished (.number n), nesting)
  | .text t => some (.finished (.text t), nesting)
  | .openArray => some (.expectItem, nesting)
  | .openObject => some (.expectField, nesting)
  | _ => none

/-- Goes on with the array or object that a finished value belongs to. -/
def continues (value : Found) : List Open → Token → Option (Reading × List Open)
  | .items done :: rest, .comma => some (.expectValue, .items (value :: done) :: rest)
  | .items done :: rest, .closeArray =>
    some (.finished (.array (value :: done).reverse), rest)
  | .fields done name :: rest, .comma => some (.expectName ((name, value) :: done), rest)
  | .fields done name :: rest, .closeObject =>
    some (.finished (.object ((name, value) :: done).reverse), rest)
  | _, _ => none

/-- One step. The open arrays and objects are given innermost first. -/
def step (reading : Reading) (nesting : List Open) (token : Token) :
    Option (Reading × List Open) :=
  match reading, token with
  | .expectItem, .closeArray => some (.finished (.array []), nesting)
  | .expectItem, token => begins (.items [] :: nesting) token
  | .expectField, .closeObject => some (.finished (.object []), nesting)
  | .expectField, .text t => some (.expectColon [] t, nesting)
  | .expectName done, .text t => some (.expectColon done t, nesting)
  | .expectColon done name, .colon => some (.expectValue, .fields done name :: nesting)
  | .expectValue, token => begins nesting token
  | .finished value, token => continues value nesting token
  | _, _ => none

def run (reading : Reading) (nesting : List Open) : List Token → Option Found
  | [] => match reading, nesting with
    | .finished value, [] => some value
    | _, _ => none
  | token :: tokens => do
    let (reading, nesting) ← step reading nesting token
    run reading nesting tokens

end Reading

/-- The value of an input that holds one value and nothing else. -/
def read? (input : Input) : Option Found := do
  Reading.run .expectValue [] (← Token.readAll input)

def ofBytes? (bytes : List UInt8) : Option Found :=
  read? (Text.Utf8.pieces bytes)

/-! ## Fields -/

/-- The fields of an object whose names are all readable. -/
def fields? : Found → Option (List (String × Found))
  | .object fields => fields.mapM fun (name, value) => name.map (·, value)
  | _ => none

/-- How often a name occurs among fields, with the value of a single occurrence. -/
inductive Occurrence where
  | absent
  | once (value : Found)
  | repeated

def occurrence (name : String) (fields : List (String × Found)) : Occurrence :=
  match fields.filter (·.1 = name) with
  | [] => .absent
  | [(_, value)] => .once value
  | _ => .repeated

/-- The value of a field that must occur once. -/
def field? (name : String) (fields : List (String × Found)) : Option Found :=
  match occurrence name fields with
  | .once value => some value
  | _ => none

def below? (bound : Nat) : Found → Option Nat
  | .number (some n) => if n < bound then some n else none
  | _ => none

def text? : Found → Option String
  | .text t => t
  | _ => none

end JobBinding.Json

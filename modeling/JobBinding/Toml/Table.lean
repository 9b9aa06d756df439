import JobBinding.Toml.Value

/-!
# Tables under construction

A document defines its tables piece by piece. Where a table comes from decides how it can still
grow: a table that a header names cannot be named again, one that only lies on the way to another
can, and one that dotted keys made can grow by dotted keys.
-/

namespace JobBinding.Toml

/-- Where a table comes from. -/
inductive Origin where
  /-- It lies on the way to a table that a header names. -/
  | implied
  /-- A header names it. -/
  | stated
  /-- Dotted keys lead through it. -/
  | dotted
  deriving DecidableEq, Repr

/-- An entry of a table under construction. -/
inductive Entry where
  | value (v : Value)
  | table (origin : Origin) (entries : List (String × Entry))
  /-- An array of tables. Headers reach the last one. -/
  | tables (all : List (List (String × Entry)))

/-- The entries of a table under construction. -/
abbrev Entries := List (String × Entry)

namespace Entry

mutual

def toValue : Entry → Value
  | .value v => v
  | .table _ entries => .table (toFields entries)
  | .tables all => .array (toTables all)

def toFields : List (String × Entry) → List (String × Value)
  | [] => []
  | (key, entry) :: rest => (key, toValue entry) :: toFields rest

def toTables : List (List (String × Entry)) → List Value
  | [] => []
  | entries :: rest => .table (toFields entries) :: toTables rest

end

end Entry

namespace Entries

def get? (entries : Entries) (key : String) : Option Entry :=
  (entries.find? (·.1 = key)).map (·.2)

/-- Puts an entry in the place of the entry of its key, or at the end. -/
def put (key : String) (entry : Entry) : Entries → Entries
  | [] => [(key, entry)]
  | e :: rest => if e.1 = key then (key, entry) :: rest else e :: put key entry rest

/-- Adds a value under a dotted key. -/
def insert (v : Value) : List String → Entries → Option Entries
  | [], _ => none
  | [key], entries => match entries.get? key with
    | none => some (entries.put key (.value v))
    | some _ => none
  | key :: rest, entries => match entries.get? key with
    | none => do return entries.put key (.table .dotted (← insert v rest []))
    | some (.table .stated _) => none
    | some (.table origin sub) => do return entries.put key (.table origin (← insert v rest sub))
    | some _ => none

/-- Changes the table that a key path of a header leads to. Tables on the way are made. -/
def change (f : Entries → Option Entries) : List String → Entries → Option Entries
  | [], entries => f entries
  | key :: rest, entries => match entries.get? key with
    | none => do return entries.put key (.table .implied (← change f rest []))
    | some (.table origin sub) => do return entries.put key (.table origin (← change f rest sub))
    | some (.tables all) => do
      let last ← all.getLast?
      return entries.put key (.tables (all.dropLast ++ [← change f rest last]))
    | some (.value _) => none

/-- States a table by a header. -/
def state (key : String) (entries : Entries) : Option Entries :=
  match entries.get? key with
  | none => some (entries.put key (.table .stated []))
  | some (.table .implied sub) => some (entries.put key (.table .stated sub))
  | some _ => none

/-- Adds a table to an array of tables by a header. -/
def extend (key : String) (entries : Entries) : Option Entries :=
  match entries.get? key with
  | none => some (entries.put key (.tables [[]]))
  | some (.tables all) => some (entries.put key (.tables (all ++ [[]])))
  | some _ => none

/-- Makes the last key of a path by `f`, in the table that the other keys lead to. -/
def make (f : String → Entries → Option Entries) (path : List String) (entries : Entries) :
    Option Entries := do
  let key ← path.getLast?
  entries.change (f key) path.dropLast

end Entries

/-- The fields of a table that dotted keys and values make. -/
def fieldsOf? (assignments : List (List String × Value)) : Option (List (String × Value)) :=
  (assignments.foldlM (fun entries (key, v) => Entries.insert v key entries) []).map Entry.toFields

/-! ## Documents -/

/-- A statement of a document. -/
inductive Statement where
  | assign (key : List String) (v : Value)
  /-- A header `[key]`. -/
  | header (key : List String)
  /-- A header `[[key]]`. -/
  | element (key : List String)

/-- A document up to some statement: its entries, and the key path of the last header. -/
structure Draft where
  entries : Entries
  current : List String

namespace Draft

/-- The document before its first statement. -/
def empty : Draft :=
  ⟨[], []⟩

/-- The document after one more statement. -/
def add (d : Draft) : Statement → Option Draft
  | .assign key v => do return { d with entries := ← d.entries.change (Entries.insert v key) d.current }
  | .header key => do return ⟨← d.entries.make Entries.state key, key⟩
  | .element key => do return ⟨← d.entries.make Entries.extend key, key⟩

end Draft

/-- The value of a document. -/
def assemble? (statements : List Statement) : Option Value := do
  let d ← statements.foldlM Draft.add .empty
  return .table (Entry.toFields d.entries)

end JobBinding.Toml

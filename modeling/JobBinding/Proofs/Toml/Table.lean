import Mathlib.Tactic.Common
import JobBinding.Toml.Table

/-!
# Tables grow at their end

A key that a table does not have yet is added after its other keys, and the statements below it
change nothing but its entry. So the part of a document below one key can be followed as a document
of its own (`run_under`).
-/

namespace JobBinding.Toml

/-! ## The last entry of a table -/

namespace Entries

variable {entries : Entries} {key : String}

def keys (entries : Entries) : List String :=
  entries.map (·.1)

@[simp] lemma keys_nil : keys [] = [] :=
  rfl

@[simp] lemma keys_append (a b : Entries) : keys (a ++ b) = keys a ++ keys b :=
  List.map_append

@[simp] lemma keys_cons (e : String × Entry) (rest : Entries) :
    keys (e :: rest) = e.1 :: keys rest :=
  rfl

lemma get?_of_absent (h : key ∉ entries.keys) : entries.get? key = none := by
  rw [get?, Option.map_eq_none_iff, List.find?_eq_none]
  intro e he
  rw [decide_eq_true_eq]
  rintro rfl
  exact h (List.mem_map_of_mem he)

lemma get?_last (h : key ∉ entries.keys) (entry : Entry) :
    (entries ++ [(key, entry)]).get? key = some entry := by
  have hnone := get?_of_absent h
  rw [get?, Option.map_eq_none_iff] at hnone
  rw [get?, List.find?_append, hnone, Option.none_or, List.find?_singleton,
    if_pos (decide_eq_true rfl), Option.map_some]

lemma put_of_absent (h : key ∉ entries.keys) (entry : Entry) :
    entries.put key entry = entries ++ [(key, entry)] := by
  induction entries with
  | nil => rfl
  | cons e rest ih =>
    rw [keys_cons, List.mem_cons, not_or] at h
    rw [put, if_neg (Ne.symm h.1), ih h.2, List.cons_append]

lemma put_last (h : key ∉ entries.keys) (old entry : Entry) :
    put key entry (entries ++ [(key, old)]) = entries ++ [(key, entry)] := by
  induction entries with
  | nil => rw [List.nil_append, put, if_pos rfl, List.nil_append]
  | cons e rest ih =>
    rw [keys_cons, List.mem_cons, not_or] at h
    rw [List.cons_append, put, if_neg (Ne.symm h.1), ih h.2, List.cons_append]

def ofFields (fields : List (String × Value)) : Entries :=
  fields.map fun field => (field.1, .value field.2)

@[simp] lemma keys_ofFields (fields : List (String × Value)) :
    keys (ofFields fields) = fields.map (·.1) := by
  rw [keys, ofFields, List.map_map]
  rfl

lemma insert_of_absent (h : key ∉ entries.keys) (v : Value) :
    insert v [key] entries = some (entries ++ [(key, .value v)]) := by
  rw [insert, get?_of_absent h, put_of_absent h]

/-- Steps that each add a value under a new key add the values after each other. -/
lemma foldlM_add_values {σ τ : Type} {step : σ → τ → Option σ} (state : Entries → σ)
    (item : String × Value → τ)
    (hstep : ∀ {entries : Entries} {field : String × Value}, field.1 ∉ entries.keys →
      step (state entries) (item field) =
        some (state (entries ++ [(field.1, .value field.2)])))
    {fields : List (String × Value)} (hdistinct : (entries.keys ++ fields.map (·.1)).Nodup) :
    (fields.map item).foldlM step (state entries) =
      some (state (entries ++ ofFields fields)) := by
  induction fields generalizing entries with
  | nil =>
    rw [List.map_nil, ofFields, List.map_nil, List.append_nil]
    rfl
  | cons field fields ih =>
    have habsent : field.1 ∉ entries.keys := fun hmem =>
      (List.nodup_append.1 hdistinct).2.2 _ hmem _ List.mem_cons_self rfl
    rw [List.map_cons, List.foldlM_cons, hstep habsent, Option.bind_eq_bind, Option.bind_some,
      ih (by simpa using hdistinct), List.append_assoc, List.singleton_append]
    rfl

/-! ## Entries that lead to a table -/

/-- Whether a header that names a key can reach the table in the key's entry. -/
def Reaches (slot : Entries → Entry) : Prop :=
  ∀ {entries key f path sub}, key ∉ keys entries →
    change f (key :: path) (entries ++ [(key, slot sub)]) =
      (change f path sub).map fun sub' => entries ++ [(key, slot sub')]

lemma reaches_table (origin : Origin) : Reaches (.table origin) := by
  intro entries key f path sub h
  rw [change, get?_last h, Option.map_eq_bind]
  simp only [put_last h]
  rfl

/-- Of an array of tables the last one is reached. -/
lemma reaches_tables (all : List Entries) : Reaches fun sub => .tables (all ++ [sub]) := by
  intro entries key f path sub h
  rw [change, get?_last h, Option.map_eq_bind]
  simp only [List.getLast?_concat, List.dropLast_concat, put_last h]
  rfl

lemma change_of_absent (h : key ∉ entries.keys) (f : Entries → Option Entries)
    (path : List String) :
    change f (key :: path) entries =
      (change f path []).map fun sub => entries ++ [(key, .table .implied sub)] := by
  rw [change, get?_of_absent h, Option.map_eq_bind]
  simp only [put_of_absent h]
  rfl

lemma state_of_absent (h : key ∉ entries.keys) :
    state key entries = some (entries ++ [(key, .table .stated [])]) := by
  rw [state, get?_of_absent h, put_of_absent h]

lemma extend_of_absent (h : key ∉ entries.keys) :
    extend key entries = some (entries ++ [(key, .tables ([] ++ [[]]))]) := by
  rw [extend, get?_of_absent h, put_of_absent h, List.nil_append]

lemma extend_last (h : key ∉ entries.keys) (all : List Entries) :
    extend key (entries ++ [(key, .tables all)]) =
      some (entries ++ [(key, .tables (all ++ [[]]))]) := by
  rw [extend, get?_last h]
  exact congrArg some (put_last h _ _)

lemma getLast?_cons_of_ne_nil {path : List String} (h : path ≠ []) :
    (key :: path).getLast? = path.getLast? := by
  rw [List.getLast?_cons, List.getLast?_eq_some_getLast h, Option.getD_some]

lemma make_of_absent (h : key ∉ entries.keys) {f : String → Entries → Option Entries}
    {path : List String} (hpath : path ≠ []) :
    make f (key :: path) entries =
      (make f path []).map fun sub => entries ++ [(key, .table .implied sub)] := by
  rw [make, make, getLast?_cons_of_ne_nil hpath, List.getLast?_eq_some_getLast hpath,
    List.dropLast_cons_of_ne_nil hpath]
  exact change_of_absent h _ _

lemma make_under {slot : Entries → Entry} (hslot : Reaches slot) (h : key ∉ entries.keys)
    {f : String → Entries → Option Entries} {path : List String} (hpath : path ≠ [])
    (sub : Entries) :
    make f (key :: path) (entries ++ [(key, slot sub)]) =
      (make f path sub).map fun sub' => entries ++ [(key, slot sub')] := by
  rw [make, make, getLast?_cons_of_ne_nil hpath, List.getLast?_eq_some_getLast hpath,
    List.dropLast_cons_of_ne_nil hpath]
  exact hslot h

end Entries

lemma Entry.toFields_append (a b : Entries) :
    toFields (a ++ b) = toFields a ++ toFields b := by
  induction a with
  | nil => rfl
  | cons e rest ih => rw [List.cons_append, toFields, toFields, ih, List.cons_append]

lemma Entry.toFields_ofFields (fields : List (String × Value)) :
    toFields (Entries.ofFields fields) = fields := by
  induction fields with
  | nil => rfl
  | cons field fields ih =>
    rw [Entries.ofFields, List.map_cons, toFields, toValue, ← Entries.ofFields, ih]

/-- The assignments of an inline table with distinct keys make the table. -/
lemma fieldsOf?_of_nodup {fields : List (String × Value)} (h : (fields.map (·.1)).Nodup) :
    fieldsOf? (fields.map fun field => ([field.1], field.2)) = some fields := by
  have hdistinct : (Entries.keys [] ++ fields.map (·.1)).Nodup := h
  have hfold : (fields.map fun field => ([field.1], field.2)).foldlM
      (fun entries item => Entries.insert item.2 item.1 entries) [] =
        some ([] ++ Entries.ofFields fields) :=
    Entries.foldlM_add_values id _ (fun habsent => Entries.insert_of_absent habsent _) hdistinct
  rw [fieldsOf?]
  exact (congrArg (Option.map Entry.toFields) hfold).trans
    (congrArg some (Entry.toFields_ofFields fields))

/-! ## Documents below a key -/

/-- A table under construction that the keys of a header lead to. -/
def nested (sub : Entries) : List String → Entry
  | [] => .table .stated sub
  | key :: path => .table .implied [(key, nested sub path)]

namespace Statement

/-- A statement whose header stands below a key. -/
def under (key : String) : Statement → Statement
  | .assign path v => .assign path v
  | .header path => .header (key :: path)
  | .element path => .element (key :: path)

/-- The assignments of some values to keys without dots. -/
def assignments (fields : List (String × Value)) : List Statement :=
  fields.map fun field => .assign [field.1] field.2

lemma assignments_append (a b : List (String × Value)) :
    assignments (a ++ b) = assignments a ++ assignments b :=
  List.map_append

end Statement

namespace Draft

variable {entries sub sub' : Entries} {key : String} {path path' : List String}

/-- A document after some more statements. -/
def run (d : Draft) (statements : List Statement) : Option Draft :=
  statements.foldlM add d

lemma run_cons (d : Draft) (s : Statement) (rest : List Statement) :
    d.run (s :: rest) = d.add s >>= (run · rest) :=
  List.foldlM_cons

lemma run_append (d : Draft) (a b : List Statement) : d.run (a ++ b) = d.run a >>= (run · b) :=
  List.foldlM_append

lemma run_append_of_eq_some {d d' : Draft} {a : List Statement} (h : d.run a = some d')
    (b : List Statement) : d.run (a ++ b) = d'.run b := by
  rw [run_append, h, Option.bind_eq_bind, Option.bind_some]

open Entries

lemma add_assign (entries : Entries) (path key : List String) (v : Value) :
    add ⟨entries, path⟩ (.assign key v) =
      (entries.change (Entries.insert v key) path).map (⟨·, path⟩) :=
  (Option.map_eq_bind ..).symm

lemma add_header (entries : Entries) (path key : List String) :
    add ⟨entries, path⟩ (.header key) = (entries.make state key).map (⟨·, key⟩) :=
  (Option.map_eq_bind ..).symm

lemma add_element (entries : Entries) (path key : List String) :
    add ⟨entries, path⟩ (.element key) = (entries.make extend key).map (⟨·, key⟩) :=
  (Option.map_eq_bind ..).symm

lemma ne_nil_of_make {f : String → Entries → Option Entries} (h : make f path sub = some sub') :
    path ≠ [] := by
  rintro rfl
  cases h

/-- A statement below the last key of a table changes the table in its entry alone. -/
lemma add_under {slot : Entries → Entry} (hslot : Reaches slot) (hkey : key ∉ entries.keys)
    {s : Statement} (h : add ⟨sub, path⟩ s = some ⟨sub', path'⟩) :
    add ⟨entries ++ [(key, slot sub)], key :: path⟩ (s.under key) =
      some ⟨entries ++ [(key, slot sub')], key :: path'⟩ := by
  -- Below the new key, each statement does to the table in `slot` what it does to a document.
  cases s with
  | assign name v =>
    rw [add_assign, Option.map_eq_some_iff] at h
    obtain ⟨_, hchange, heq⟩ := h
    cases heq
    rw [Statement.under, add_assign, hslot hkey, hchange]
    rfl
  | header name =>
    rw [add_header, Option.map_eq_some_iff] at h
    obtain ⟨_, hmake, heq⟩ := h
    cases heq
    rw [Statement.under, add_header, make_under hslot hkey (ne_nil_of_make hmake), hmake]
    rfl
  | element name =>
    rw [add_element, Option.map_eq_some_iff] at h
    obtain ⟨_, hmake, heq⟩ := h
    cases heq
    rw [Statement.under, add_element, make_under hslot hkey (ne_nil_of_make hmake), hmake]
    rfl

/-- The part of a document below the last key of a table is a document of its own. -/
theorem run_under {slot : Entries → Entry} (hslot : Reaches slot) (hkey : key ∉ entries.keys)
    {statements : List Statement} (h : run ⟨sub, path⟩ statements = some ⟨sub', path'⟩) :
    run ⟨entries ++ [(key, slot sub)], key :: path⟩ (statements.map (·.under key)) =
      some ⟨entries ++ [(key, slot sub')], key :: path'⟩ := by
  induction statements generalizing sub path with
  | nil =>
    cases h
    rfl
  | cons s rest ih =>
    rw [run_cons, Option.bind_eq_bind, Option.bind_eq_some_iff] at h
    obtain ⟨⟨mid, path''⟩, hs, hrest⟩ := h
    rw [List.map_cons, run_cons, add_under hslot hkey hs, Option.bind_eq_bind, Option.bind_some,
      ih hrest]

/-! ## Sections -/

/-- Values under distinct new keys stand after each other. -/
lemma run_assignments {fields : List (String × Value)}
    (hdistinct : (entries.keys ++ fields.map (·.1)).Nodup) :
    run ⟨entries, []⟩ (Statement.assignments fields) =
      some ⟨entries ++ ofFields fields, []⟩ := by
  have hstep {entries : Entries} {field : String × Value} (habsent : field.1 ∉ entries.keys) :
      add ⟨entries, []⟩ (.assign [field.1] field.2) =
        some ⟨entries ++ [(field.1, .value field.2)], []⟩ := by
    rw [add_assign, change, insert_of_absent habsent, Option.map_some]
  exact foldlM_add_values (fun entries => Draft.mk entries []) _ hstep hdistinct

lemma map_under_assignments (key : String) (fields : List (String × Value)) :
    (Statement.assignments fields).map (·.under key) = Statement.assignments fields := by
  rw [Statement.assignments, List.map_map]
  rfl

/-- A header makes the tables on the way to the one that it names. -/
lemma add_header_of_absent (hkey : key ∉ entries.keys) {path : List String} (hpath : path ≠ [])
    (current current' : List String) :
    add ⟨entries, current⟩ (.header (key :: path)) =
      add ⟨entries ++ [(key, .table .implied [])], current'⟩ (.header (key :: path)) := by
  rw [add_header, add_header, make_of_absent hkey hpath,
    make_under (reaches_table .implied) hkey hpath]

/-- The part of a document below a new key is a document of its own, if a header begins it. -/
theorem run_under_of_absent (hkey : key ∉ entries.keys) {name : List String}
    {statements : List Statement} (current : List String)
    (h : run ⟨[], path⟩ (.header name :: statements) = some ⟨sub', path'⟩) :
    run ⟨entries, current⟩ ((Statement.header name :: statements).map (·.under key)) =
      some ⟨entries ++ [(key, .table .implied sub')], key :: path'⟩ := by
  have hname : name ≠ [] := by
    rintro rfl
    cases h
  have hunder := run_under (reaches_table .implied) hkey h
  rw [List.map_cons, run_cons, Statement.under] at hunder ⊢
  rwa [add_header_of_absent hkey hname]

/-- A header with a new key and the values below it add one entry. -/
theorem run_section (hkey : key ∉ entries.keys) {fields : List (String × Value)}
    (hdistinct : (fields.map (·.1)).Nodup) (path current : List String) :
    run ⟨entries, current⟩ (.header (key :: path) :: Statement.assignments fields) =
      some ⟨entries ++ [(key, nested (ofFields fields) path)], key :: path⟩ := by
  induction path generalizing entries key current with
  | nil =>
    have hfields : run ⟨[], []⟩ (Statement.assignments fields) = some ⟨ofFields fields, []⟩ :=
      run_assignments hdistinct
    have hunder := run_under (reaches_table .stated) hkey hfields
    rw [map_under_assignments] at hunder
    have hstate : entries.make state [key] = some (entries ++ [(key, .table .stated [])]) :=
      state_of_absent hkey
    rw [run_cons, add_header, hstate, Option.map_some, Option.bind_eq_bind, Option.bind_some,
      hunder]
    rfl
  | cons key' path ih =>
    have hnew : key' ∉ keys [] := List.not_mem_nil
    have hunder := run_under_of_absent hkey current (ih hnew [])
    rw [List.map_cons, map_under_assignments] at hunder
    exact hunder

end Draft

end JobBinding.Toml

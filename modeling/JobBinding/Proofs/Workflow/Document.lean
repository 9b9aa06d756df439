import JobBinding.Proofs.Text.Duration
import JobBinding.Proofs.Toml.Reader
import JobBinding.Workflow.Document

/-!
# Workflow documents lose nothing

A workflow document is read as the value of its workflow (`Workflow.value`), whatever texts the
workflow has, and the value tells the workflow. So two workflows with the same document are equal.
The statements of a document are followed section by section: each section adds one entry to the
table that was opened last.
-/

namespace JobBinding

open Toml (Entries Entry Draft Statement Origin)

/-! ## Values -/

def optionalField (key : String) (v : Option Toml.Value) : List (String × Toml.Value) :=
  (v.map (key, ·)).toList

/-- A value that is left out if it says what is usual. -/
def unlessUsual {α : Type} [DecidableEq α] (usual : α) (value : α → Toml.Value) (x : α) :
    Option Toml.Value :=
  if x = usual then none else some (value x)

namespace Action

/-- The fields of an action before its resources. -/
def fields (action : Action) : List (String × Toml.Value) :=
  [("name", .text action.name), ("command", .text action.template),
    ("products", textArray action.products)] ++
  optionalField "launchers" (unlessUsual [] textArray action.launchers)

/-- What an action asks for each of its processes, as far as it is not usual. -/
def processFields (action : Action) : List (String × Toml.Value) :=
  optionalField "threads_per_process" (unlessUsual 1 countValue action.threads) ++
  optionalField "gpus_per_process" (unlessUsual 0 countValue action.gpus)

def value (action : Action) : Toml.Value :=
  .table (action.fields ++
    [("resources", .table (action.processFields ++
      [("processes", .table [("per_submission", countValue action.processes)]),
        ("walltime", .table [("per_submission", .text action.walltime.clock)])]))])

end Action

namespace Workflow

/-- The options of a workflow for its cluster. -/
def optionFields (workflow : Workflow) : List (String × Toml.Value) :=
  optionalField "account" (workflow.account.map .text) ++
  optionalField "setup" (workflow.setup.map .text)

/-- The value of a workflow document: the actions stand last, but an empty array of actions stands
first. -/
def value (workflow : Workflow) : Toml.Value :=
  .table ((if workflow.actions = [] then [("action", .array [])] else []) ++
    [("workspace", .table [("path", .text workflow.workspace)]),
      ("default", .table [("action", .table [("submit_options",
        .table [(workflow.cluster, .table workflow.optionFields)])])])] ++
    if workflow.actions = [] then [] else [("action", .array (workflow.actions.map Action.value))])

end Workflow

/-! ## The statements of an action -/

@[simp] lemma map_optionalField (key : String) (v : Option Toml.Value) :
    (optionalField key v).map (·.1) = if v.isSome then [key] else [] := by
  cases v <;> rfl

lemma keys_optionalField (key : String) (v : Option Toml.Value) :
    ((optionalField key v).map (·.1)).Sublist [key] := by
  cases v with
  | none => exact List.nil_sublist _
  | some v => exact List.Sublist.refl _

lemma assignIf_eq {α : Type} [DecidableEq α] (key : String) (usual : α) (value : α → Toml.Value)
    (x : α) :
    assignIf (x ≠ usual) key (value x) =
      Statement.assignments (optionalField key (unlessUsual usual value x)) := by
  rw [assignIf, unlessUsual]
  split_ifs <;> first | rfl | contradiction

lemma assignText?_eq (key : String) (text : Option String) :
    assignText? key text = Statement.assignments (optionalField key (text.map .text)) := by
  cases text <;> rfl

namespace Action

variable (a : Action)

lemma keys_fields : (a.fields.map (·.1)).Sublist ["name", "command", "products", "launchers"] := by
  rw [fields, List.map_append]
  exact List.Sublist.append_left (keys_optionalField _ _) ["name", "command", "products"]

lemma keys_processFields :
    (a.processFields.map (·.1)).Sublist ["threads_per_process", "gpus_per_process"] := by
  rw [processFields, List.map_append]
  exact List.Sublist.append (keys_optionalField _ _) (keys_optionalField _ _)

/-- The statements about the processes and the time of an action, below its resources. -/
def limits : List Statement :=
  .header ["processes"] :: Statement.assignments [("per_submission", countValue a.processes)] ++
  .header ["walltime"] :: Statement.assignments [("per_submission", .text a.walltime.clock)]

/-- The statements about the resources of an action, below the action. -/
def resources : List Statement :=
  headed ["resources"] (Statement.assignments a.processFields) ++
  a.limits.map (·.under "resources")

lemma specialResources_eq : a.specialResources = Statement.assignments a.processFields := by
  rw [specialResources, processFields, Statement.assignments_append, assignIf_eq, assignIf_eq]

lemma map_under_headed (key : String) (path : List String) (fields : List (String × Toml.Value)) :
    (headed path (Statement.assignments fields)).map (·.under key) =
      headed (key :: path) (Statement.assignments fields) := by
  cases fields with
  | nil => rfl
  | cons field fields =>
    show Statement.header (key :: path) :: _ = _
    rw [Draft.map_under_assignments]
    rfl

lemma statements_eq :
    a.statements = .element ["action"] ::
      (Statement.assignments a.fields ++ a.resources).map (·.under "action") := by
  rw [statements, specialResources_eq, assignIf_eq, List.map_append, Draft.map_under_assignments,
    resources, List.map_append, map_under_headed, fields, Statement.assignments_append]
  simp only [List.append_assoc]
  rfl

/-- The entries that the limits of an action make. -/
def limitEntries : Entries :=
  [("processes", Toml.nested (Entries.ofFields [("per_submission", countValue a.processes)]) []),
    ("walltime",
      Toml.nested (Entries.ofFields [("per_submission", .text a.walltime.clock)]) [])]

/-- The entry of the resources of an action. Without a header of its own the table is implied by
the headers below it. -/
def resourceEntry : Entry :=
  .table (if a.processFields = [] then .implied else .stated)
    (Entries.ofFields a.processFields ++ a.limitEntries)

/-- The table that the statements of an action make. -/
def entries : Entries :=
  Entries.ofFields a.fields ++ [("resources", a.resourceEntry)]

lemma toFields_entries : Toml.Value.table (Entry.toFields a.entries) = a.value := by
  have hlimits : Entry.toFields a.limitEntries =
      [("processes", .table [("per_submission", countValue a.processes)]),
        ("walltime", .table [("per_submission", .text a.walltime.clock)])] := rfl
  rw [entries, Entry.toFields_append, Entry.toFields_ofFields, Entry.toFields, resourceEntry,
    Entry.toValue, Entry.toFields_append, Entry.toFields_ofFields, hlimits]
  rfl

variable {entries : Entries}

lemma run_limits (hprocesses : "processes" ∉ entries.keys) (hwalltime : "walltime" ∉ entries.keys)
    (path : List String) :
    Draft.run ⟨entries, path⟩ a.limits = some ⟨entries ++ a.limitEntries, ["walltime"]⟩ := by
  have hfirst := Draft.run_section hprocesses
    (show ([("per_submission", countValue a.processes)].map (·.1)).Nodup by simp) [] path
  have hnew : "walltime" ∉ Entries.keys (entries ++
      [("processes",
        Toml.nested (Entries.ofFields [("per_submission", countValue a.processes)]) [])]) := by
    simpa using hwalltime
  rw [limits, Draft.run_append_of_eq_some hfirst, Draft.run_section hnew (by simp),
    List.append_assoc]
  rfl

lemma run_resources (hnew : "resources" ∉ entries.keys) (path : List String) :
    Draft.run ⟨entries, path⟩ a.resources =
      some ⟨entries ++ [("resources", a.resourceEntry)], ["resources", "walltime"]⟩ := by
  have hkeys := a.keys_processFields
  rw [resources, resourceEntry]
  -- Without fields of its own the table of resources is only made by the headers below it, else it
  -- has a header of its own. The two leave entries of different origins.
  by_cases hnone : a.processFields = []
  · have hlimits : Draft.run ⟨[], []⟩ a.limits = some ⟨a.limitEntries, ["walltime"]⟩ :=
      a.run_limits List.not_mem_nil List.not_mem_nil []
    rw [hnone, if_pos rfl]
    exact Draft.run_under_of_absent hnew path hlimits
  · have hdistinct : (a.processFields.map (·.1)).Nodup := hkeys.nodup (by decide)
    have hprocesses : "processes" ∉ (Entries.ofFields a.processFields).keys := by
      rw [Entries.keys_ofFields]
      exact fun hmem => absurd (hkeys.subset hmem) (by decide)
    have hwalltime : "walltime" ∉ (Entries.ofFields a.processFields).keys := by
      rw [Entries.keys_ofFields]
      exact fun hmem => absurd (hkeys.subset hmem) (by decide)
    have hheaded : headed ["resources"] (Statement.assignments a.processFields) =
        .header ["resources"] :: Statement.assignments a.processFields := by
      obtain ⟨field, fields, h⟩ := List.exists_cons_of_ne_nil hnone
      rw [h]
      rfl
    have hfields := Draft.run_section hnew hdistinct [] path
    rw [hheaded, if_neg hnone, Draft.run_append_of_eq_some hfields]
    exact Draft.run_under (Entries.reaches_table .stated) hnew
      (a.run_limits hprocesses hwalltime [])

/-- The statements of an action below its header make its table. -/
lemma run_table : Draft.run .empty (Statement.assignments a.fields ++ a.resources) =
    some ⟨a.entries, ["resources", "walltime"]⟩ := by
  have hkeys := a.keys_fields
  have hdistinct : (a.fields.map (·.1)).Nodup := hkeys.nodup (by decide)
  have hnew : "resources" ∉ (Entries.ofFields a.fields).keys := by
    rw [Entries.keys_ofFields]
    exact fun hmem => absurd (hkeys.subset hmem) (by decide)
  have hfields : Draft.run .empty (Statement.assignments a.fields) =
      some ⟨Entries.ofFields a.fields, []⟩ := Draft.run_assignments hdistinct
  rw [Draft.run_append_of_eq_some hfields]
  exact a.run_resources hnew []

/-- An action is one more table of the array of actions. -/
lemma run_statements (hkey : "action" ∉ entries.keys) (all : List Entries) (path : List String) :
    Draft.run ⟨entries ++ [("action", .tables all)], path⟩ a.statements =
      some ⟨entries ++ [("action", .tables (all ++ [a.entries]))],
        ["action", "resources", "walltime"]⟩ := by
  have helement : Draft.add ⟨entries ++ [("action", .tables all)], path⟩ (.element ["action"]) =
      some ⟨entries ++ [("action", .tables (all ++ [[]]))], ["action"]⟩ := by
    rw [Draft.add_element]
    exact congrArg (Option.map _) (Entries.extend_last hkey all)
  rw [statements_eq, Draft.run_cons, helement, Option.bind_eq_bind, Option.bind_some]
  exact Draft.run_under (Entries.reaches_tables all) hkey a.run_table

/-- The actions after each other make the array of actions. -/
lemma run_flatMap (hkey : "action" ∉ entries.keys) (actions : List Action) (all : List Entries)
    (path : List String) :
    ∃ path', Draft.run ⟨entries ++ [("action", .tables all)], path⟩ (actions.flatMap statements) =
      some ⟨entries ++ [("action", .tables (all ++ actions.map Action.entries))], path'⟩ := by
  induction actions generalizing all path with
  | nil => exact ⟨path, by rw [List.map_nil, List.append_nil]; rfl⟩
  | cons a actions ih =>
    obtain ⟨path', h⟩ := ih (all ++ [a.entries]) ["action", "resources", "walltime"]
    refine ⟨path', ?_⟩
    rw [List.flatMap_cons, Draft.run_append_of_eq_some (a.run_statements hkey all path), h,
      List.append_assoc, List.map_cons, List.singleton_append]

/-- The header of the first action makes the array. -/
lemma run_flatMap_of_absent (hkey : "action" ∉ entries.keys) {actions : List Action}
    (hactions : actions ≠ []) (path : List String) :
    ∃ path', Draft.run ⟨entries, path⟩ (actions.flatMap statements) =
      some ⟨entries ++ [("action", .tables (actions.map Action.entries))], path'⟩ := by
  obtain ⟨a, actions, rfl⟩ := List.exists_cons_of_ne_nil hactions
  obtain ⟨path', h⟩ := run_flatMap hkey (a :: actions) [] path
  refine ⟨path', ?_⟩
  rw [List.nil_append] at h
  have hfirst : Draft.add ⟨entries, path⟩ (.element ["action"]) =
      Draft.add ⟨entries ++ [("action", .tables [])], path⟩ (.element ["action"]) := by
    rw [Draft.add_element, Draft.add_element]
    exact congrArg (Option.map _)
      ((Entries.extend_of_absent hkey).trans (Entries.extend_last hkey []).symm)
  rw [List.flatMap_cons, statements_eq, List.cons_append, Draft.run_cons] at h ⊢
  rw [hfirst, h]

lemma toTables_entries (actions : List Action) :
    Entry.toTables (actions.map Action.entries) = actions.map value := by
  induction actions with
  | nil => rfl
  | cons a actions ih => rw [List.map_cons, Entry.toTables, toFields_entries, ih, List.map_cons]

end Action

/-! ## The statements of a workflow -/

namespace Workflow

variable (w : Workflow)

lemma keys_optionFields : (w.optionFields.map (·.1)).Sublist ["account", "setup"] := by
  rw [optionFields, List.map_append]
  exact List.Sublist.append (keys_optionalField _ _) (keys_optionalField _ _)

/-- The statements of a document before its actions, if there are any. -/
def sections : List Statement :=
  (.header ["workspace"] :: Statement.assignments [("path", .text w.workspace)]) ++
  (.header ["default", "action", "submit_options", w.cluster] ::
    Statement.assignments w.optionFields)

lemma statements_eq :
    w.statements =
      Statement.assignments (if w.actions = [] then [("action", .array [])] else []) ++
      (w.sections ++ w.actions.flatMap Action.statements) := by
  have hnone : assignIf (w.actions = []) "action" (.array []) =
      Statement.assignments (if w.actions = [] then [("action", .array [])] else []) := by
    rw [assignIf]
    split_ifs <;> rfl
  rw [statements, hnone, assignText?_eq, assignText?_eq, sections, optionFields,
    Statement.assignments_append]
  simp only [List.append_assoc, List.cons_append]
  rfl

/-- The entries that the sections make. -/
def sectionEntries : Entries :=
  [("workspace", Toml.nested (Entries.ofFields [("path", .text w.workspace)]) []),
    ("default", Toml.nested (Entries.ofFields w.optionFields)
      ["action", "submit_options", w.cluster])]

variable {entries : Entries}

lemma run_sections (hworkspace : "workspace" ∉ entries.keys) (hdefault : "default" ∉ entries.keys)
    (path : List String) :
    Draft.run ⟨entries, path⟩ w.sections = some ⟨entries ++ w.sectionEntries,
      ["default", "action", "submit_options", w.cluster]⟩ := by
  have hfirst := Draft.run_section hworkspace
    (show ([("path", Toml.Value.text w.workspace)].map (·.1)).Nodup by simp) [] path
  have hnew : "default" ∉ Entries.keys (entries ++
      [("workspace", Toml.nested (Entries.ofFields [("path", .text w.workspace)]) [])]) := by
    simpa using hdefault
  rw [sections, Draft.run_append_of_eq_some hfirst,
    Draft.run_section hnew (w.keys_optionFields.nodup (by decide)), List.append_assoc]
  rfl

lemma toFields_sectionEntries :
    Entry.toFields w.sectionEntries =
      [("workspace", .table [("path", .text w.workspace)]),
        ("default", .table [("action", .table [("submit_options",
          .table [(w.cluster, .table w.optionFields)])])])] := by
  have hoptions := Entry.toFields_ofFields w.optionFields
  simp only [sectionEntries, Toml.nested, Entry.toFields, Entry.toValue, hoptions]
  rfl

/-- The statements of a workflow document define the value of the workflow. -/
theorem assemble?_statements : Toml.assemble? w.statements = some w.value := by
  suffices h : ∃ d, Draft.run .empty w.statements = some d ∧
      .table (Entry.toFields d.entries) = w.value by
    obtain ⟨d, hrun, hvalue⟩ := h
    rw [Toml.assemble?, ← Draft.run, hrun, ← hvalue]
    rfl
  rw [statements_eq, value]
  -- Without actions no header makes the array, so it is written empty at the beginning.
  by_cases hnone : w.actions = []
  · have hempty : Draft.run .empty (Statement.assignments [("action", .array [])]) =
        some ⟨Entries.ofFields [("action", .array [])], []⟩ := Draft.run_assignments (by simp)
    rw [if_pos hnone, if_pos hnone, hnone, List.flatMap_nil, List.append_nil,
      Draft.run_append_of_eq_some hempty, w.run_sections (by simp) (by simp)]
    refine ⟨_, rfl, ?_⟩
    rw [Entry.toFields_append, Entry.toFields_ofFields, toFields_sectionEntries, List.append_nil]
  · have hsections : Draft.run .empty w.sections = some ⟨w.sectionEntries, _⟩ :=
      w.run_sections List.not_mem_nil List.not_mem_nil []
    have hnew : "action" ∉ w.sectionEntries.keys := by
      simp [sectionEntries]
    obtain ⟨path, hactions⟩ := Action.run_flatMap_of_absent hnew hnone
      ["default", "action", "submit_options", w.cluster]
    rw [if_neg hnone, if_neg hnone]
    refine ⟨_, (Draft.run_append_of_eq_some hsections _).trans hactions, ?_⟩
    rw [Entry.toFields_append, toFields_sectionEntries, Entry.toFields, Entry.toValue,
      Action.toTables_entries]
    rfl

end Workflow

/-! ## Documents -/

section Documents

open Toml.Reader (Proper ProperStatement)

lemma proper_texts (texts : List String) : Proper (textArray texts) := by
  rw [textArray, Proper]
  induction texts with
  | nil => exact trivial
  | cons t texts ih => exact ⟨trivial, ih⟩

lemma proper_assignIf {condition : Prop} [Decidable condition] {key : String} {v : Toml.Value}
    (hv : Proper v) : ∀ s ∈ assignIf condition key v, ProperStatement s := by
  rw [assignIf]
  split_ifs
  · simpa using ⟨List.cons_ne_nil key [], hv⟩
  · exact nofun

lemma proper_assignText? (key : String) (text : Option String) :
    ∀ s ∈ assignText? key text, ProperStatement s := by
  cases text with
  | none => exact nofun
  | some t => simpa [assignText?] using ⟨List.cons_ne_nil key [], trivial⟩

lemma Action.proper_statements (a : Action) : ∀ s ∈ a.statements, ProperStatement s := by
  have hspecial : ∀ s ∈ a.specialResources, ProperStatement s :=
    List.forall_mem_append.2 ⟨proper_assignIf trivial, proper_assignIf trivial⟩
  have hheaded : ∀ s ∈ headed ["action", "resources"] a.specialResources, ProperStatement s := by
    rw [headed]
    split_ifs
    · exact nofun
    · exact List.forall_mem_cons.2 ⟨List.cons_ne_nil _ _, hspecial⟩
  have hlaunchers : ∀ s ∈ assignIf (a.launchers ≠ []) "launchers" (textArray a.launchers),
      ProperStatement s := proper_assignIf (proper_texts _)
  have hproducts := proper_texts a.products
  simp only [statements, List.forall_mem_append]
  refine ⟨⟨⟨?_, hlaunchers⟩, hheaded⟩, ?_⟩
  · simp [ProperStatement, Proper, hproducts]
  · simp [ProperStatement, Proper, countValue]

namespace Workflow

lemma proper_statements (w : Workflow) : ∀ s ∈ w.statements, ProperStatement s := by
  have hnone : ∀ s ∈ assignIf (w.actions = []) "action" (.array []), ProperStatement s :=
    proper_assignIf trivial
  have haccount := proper_assignText? "account" w.account
  have hsetup := proper_assignText? "setup" w.setup
  have hactions : ∀ s ∈ w.actions.flatMap Action.statements, ProperStatement s := by
    intro s hs
    obtain ⟨a, -, hs⟩ := List.mem_flatMap.1 hs
    exact a.proper_statements s hs
  simp only [statements, List.forall_mem_append]
  refine ⟨⟨⟨⟨hnone, ?_⟩, haccount⟩, hsetup⟩, hactions⟩
  simp [ProperStatement, Proper]

/-- A workflow document is read as the value of its workflow. -/
theorem read?_document (w : Workflow) : Toml.read? w.document = some w.value := by
  rw [document, Toml.read?_render w.proper_statements, assemble?_statements]

end Workflow

end Documents

/-! ## Workflows from their values -/

lemma optionalField_append_inj {key : String} {v v' : Option Toml.Value}
    {rest rest' : List (String × Toml.Value)} (hrest : key ∉ rest.map (·.1))
    (hrest' : key ∉ rest'.map (·.1))
    (h : optionalField key v ++ rest = optionalField key v' ++ rest') : v = v' ∧ rest = rest' := by
  cases v with
  | none =>
    cases v' with
    | none => exact ⟨rfl, h⟩
    -- Then its key would be the first of the other's rest, which does not have the key.
    | some x =>
      have hkey : rest = (key, x) :: rest' := h
      rw [hkey] at hrest
      exact absurd List.mem_cons_self hrest
  | some x =>
    cases v' with
    | none =>
      have hkey : rest' = (key, x) :: rest := h.symm
      rw [hkey] at hrest'
      exact absurd List.mem_cons_self hrest'
    | some x' =>
      obtain ⟨hx, hrest⟩ := List.cons_eq_cons.1 h
      cases hx
      exact ⟨rfl, hrest⟩

lemma unlessUsual_injective {α : Type} [DecidableEq α] {usual : α} {value : α → Toml.Value}
    (hvalue : Function.Injective value) : Function.Injective (unlessUsual usual value) := by
  intro x x' h
  rw [unlessUsual, unlessUsual] at h
  split_ifs at h with hx hx'
  · rw [hx, hx']
  · exact hvalue (Option.some.inj h)

lemma text_injective : Function.Injective Toml.Value.text := by
  intro t t' h
  exact Toml.Value.text.inj h

lemma textArray_injective : Function.Injective textArray := by
  intro texts texts' h
  exact (List.map_inj_right fun _ _ h => text_injective h).1 (Toml.Value.array.inj h)

namespace Action

lemma countValue_injective : Function.Injective countValue := by
  intro n n' h
  have hnat : n.toNat = n'.toNat := Int.ofNat.inj (Toml.Value.integer.inj h)
  exact UInt32.toNat_inj.1 hnat

lemma value_injective : Function.Injective value := by
  intro a a' h
  have hfields := Toml.Value.table.inj h
  simp only [fields, List.cons_append, List.nil_append, List.cons.injEq, Prod.mk.injEq,
    Toml.Value.text.injEq, true_and] at hfields
  obtain ⟨hname, htemplate, hproducts, hrest⟩ := hfields
  obtain ⟨hlaunchers, hrest⟩ := optionalField_append_inj (by simp) (by simp) hrest
  simp only [List.cons.injEq, Prod.mk.injEq, true_and, and_true, Toml.Value.table.injEq,
    processFields, List.append_assoc] at hrest
  obtain ⟨hthreads, hrest⟩ := optionalField_append_inj (by simp) (by simp) hrest
  obtain ⟨hgpus, hrest⟩ := optionalField_append_inj (by simp) (by simp) hrest
  simp only [List.cons.injEq, Prod.mk.injEq, true_and, and_true, Toml.Value.table.injEq,
    Toml.Value.text.injEq] at hrest
  obtain ⟨hprocesses, hwalltime⟩ := hrest
  have hproducts := textArray_injective hproducts
  have hlaunchers := unlessUsual_injective textArray_injective hlaunchers
  have hthreads := unlessUsual_injective countValue_injective hthreads
  have hgpus := unlessUsual_injective countValue_injective hgpus
  have hprocesses := countValue_injective hprocesses
  have hwalltime := Duration.clock_injective hwalltime
  cases a
  cases a'
  simp_all

end Action

namespace Workflow

theorem value_injective : Function.Injective value := by
  intro w w' h
  have hfields := Toml.Value.table.inj h
  -- The entry of the actions stands last, or first if there are none: the order tells them apart.
  have hactions : w.actions = w'.actions ∧ w.workspace = w'.workspace ∧ w.cluster = w'.cluster ∧
      w.optionFields = w'.optionFields := by
    by_cases hnone : w.actions = []
    · by_cases hnone' : w'.actions = []
      · simp_all
      · simp_all
    · by_cases hnone' : w'.actions = []
      · simp_all
      · have hmap : w.actions.map Action.value = w'.actions.map Action.value ↔
            w.actions = w'.actions := List.map_inj_right fun _ _ h => Action.value_injective h
        simp_all
  obtain ⟨hactions, hworkspace, hcluster, hoptions⟩ := hactions
  rw [← List.append_nil w.optionFields, ← List.append_nil w'.optionFields] at hoptions
  simp only [optionFields, List.append_assoc] at hoptions
  obtain ⟨haccount, hrest⟩ := optionalField_append_inj (by simp) (by simp) hoptions
  obtain ⟨hsetup, -⟩ := optionalField_append_inj (by simp) (by simp) hrest
  have haccount := Option.map_injective text_injective haccount
  have hsetup := Option.map_injective text_injective hsetup
  cases w
  cases w'
  simp_all

/-- A workflow document loses nothing: whatever texts a workflow is made of, its document is read
as a table with the cluster as the workspace's path, the given options of the cluster, and the
actions in their order. No other workflow has the same document. -/
theorem document_lossless (program cluster : String) (capacity : Capacity)
    (account setup : Option String) :
    Toml.read? (ofCapacity program cluster capacity account setup).document =
      some (.table
        ((if actionsOf program capacity = [] then [("action", .array [])] else []) ++
          [("workspace", .table [("path", .text cluster)]),
            ("default", .table [("action", .table [("submit_options", .table [(cluster,
              .table (optionalField "account" (account.map .text) ++
                optionalField "setup" (setup.map .text)))])])])] ++
          if actionsOf program capacity = [] then []
          else [("action", .array ((actionsOf program capacity).map Action.value))])) ∧
    Function.Injective document := by
  constructor
  · rw [read?_document, value, optionFields, ofCapacity]
  · intro w w' h
    have hvalues : some w.value = some w'.value := by
      rw [← read?_document, h, read?_document]
    exact value_injective (Option.some.inj hvalues)

end Workflow

end JobBinding

import JobBinding.Proofs.Files.Proper
import JobBinding.Proofs.Summary.Report
import JobBinding.Proofs.Workflow.Actions
import JobBinding.Verdict.ReportFile
import JobBinding.Workflow.Project

/-!
# Names and places that commands agree on

A project is prepared, its actions are executed and its reports are summarized by different calls,
which agree on what files are called and where they are (`places_agree`).

The command of an action has one placeholder, at its end, if the program has none
(`not_infix_template`): the last character of a placeholder stands nowhere else in what is put
after the program.
-/

namespace JobBinding

namespace Action

variable {text front cs : List Char} {c : Char}

/-! ## Filling in the directory -/

lemma fillPlaceholders_nil : fillPlaceholders text [] = [] := by
  rw [fillPlaceholders]
  rfl

lemma fillPlaceholders_placeholder :
    fillPlaceholders text (placeholder ++ cs) = text ++ fillPlaceholders text cs := by
  have hafter : Text.afterPrefix? placeholder (placeholder ++ cs) = some cs :=
    Text.afterPrefix?_eq_some_iff.2 rfl
  rw [fillPlaceholders]
  split
  · next rest hrest =>
    rw [hafter] at hrest
    cases hrest
    rfl
  · next hnone =>
    rw [hafter] at hnone
    cases hnone

lemma fillPlaceholders_cons (h : ¬ placeholder <+: c :: cs) :
    fillPlaceholders text (c :: cs) = c :: fillPlaceholders text cs := by
  rw [fillPlaceholders]
  split
  · next rest hrest => exact absurd ⟨rest, (Text.afterPrefix?_eq_some_iff.1 hrest).symm⟩ h
  · rfl

/-- A placeholder at the end is filled in, if no other one begins before it. -/
lemma fillPlaceholders_append (text : List Char)
    (h : ¬ placeholder <:+: front ++ placeholder.dropLast) :
    fillPlaceholders text (front ++ placeholder) = front ++ text := by
  induction front with
  | nil =>
    rw [List.nil_append, ← List.append_nil placeholder, fillPlaceholders_placeholder,
      fillPlaceholders_nil, List.append_nil, List.nil_append]
  | cons c front ih =>
    have hbegins : ¬ placeholder <+: c :: (front ++ placeholder) := by
      intro hprefix
      -- A placeholder that begins before the one at the end is over before the last character.
      have hshort : placeholder <+: (c :: (front ++ placeholder)).dropLast :=
        List.prefix_of_prefix_length_le hprefix (List.dropLast_prefix _) (by simp [placeholder])
      have hne : placeholder ≠ [] := List.cons_ne_nil _ _
      rw [← List.cons_append, List.dropLast_append_of_ne_nil hne] at hshort
      exact h hshort.isInfix
    rw [List.cons_append, fillPlaceholders_cons hbegins, ih fun hoccurs => h ?_, List.cons_append]
    exact List.infix_cons hoccurs

/-- A text whose last character does not occur in the end of another one occurs before that end. -/
lemma infix_of_infix_append {marker tail : List Char} (h : marker <:+: front ++ tail)
    (hlast : marker.getLast? = some c) (hc : c ∉ tail) : marker <:+: front := by
  obtain ⟨init, rfl⟩ := List.getLast?_eq_some_iff.1 hlast
  obtain ⟨before, after, happend⟩ := h
  have hsplit : (before ++ init) ++ c :: after = front ++ tail := by simpa using happend
  rcases List.append_eq_append_iff.1 hsplit with ⟨rest, hfront, htail⟩ | ⟨rest, -, htail⟩
  · cases rest with
    | nil =>
      rw [List.nil_append] at htail
      exact absurd (htail ▸ List.mem_cons_self) hc
    | cons d rest =>
      rw [List.cons_append, List.cons.injEq] at htail
      exact ⟨before, rest, by rw [hfront, ← htail.1]; simp⟩
  · exact absurd (htail ▸ by simp) hc

/-- The template of an action has no placeholder but the one at its end, if the program has none. -/
lemma not_infix_template {program : String} (hprogram : ¬ placeholder <:+: program.toList)
    (s : Scenario) :
    ¬ placeholder <:+:
      (program ++ " execute " ++ s.name ++ " ").toList ++ placeholder.dropLast := by
  intro hoccurs
  have htail :
      '\x7d' ∉ " execute ".toList ++ s.name.toList ++ " ".toList ++ placeholder.dropLast := by
    cases s <;> decide
  simp only [String.toList_append, List.append_assoc] at hoccurs htail
  exact hprogram (infix_of_infix_append hoccurs (by decide) htail)

/-- The directory of a command is filled in once, and not searched for placeholders itself. -/
lemma command_ofRequest {program : String} (hprogram : ¬ placeholder <:+: program.toList)
    (s : Scenario) (request : Request) (directory : String) :
    (ofRequest program s request).command directory =
      program ++ " execute " ++ s.name ++ " " ++ directory := by
  have hfill := fillPlaceholders_append directory.toList (not_infix_template hprogram s)
  have htemplate : (ofRequest program s request).template.toList =
      (program ++ " execute " ++ s.name ++ " ").toList ++ placeholder := by
    rw [ofRequest, String.toList_append, String.toList_ofList]
  rw [command, htemplate, hfill, String.ofList_append, String.ofList_toList, String.ofList_toList]

end Action

/-! ## Reports -/

/-- The file of a report has the name of the product of its action, wherever it is. -/
lemma ReportFile.fileName?_path (s : Scenario) (root cluster directory : String) :
    Path.fileName? (place root cluster directory s.name).path = some s.product :=
  Path.fileName?_join s.isName_product _

/-! ## Workspaces -/

namespace Project

variable {catalog : Catalog} {cluster project : String} {options : Options}
  {tree after : FileTree} {workflow : Workflow}

lemma run_prepare_eq_ok_iff :
    (prepare catalog cluster project options).run tree = .ok workflow after ↔
      ∃ capacity made written, catalog.lookup cluster = .ok capacity ∧
        workflow = .ofCapacity options.program cluster capacity options.account options.setup ∧
        (Files.makeDirectories project).run tree = .ok () made ∧
        (Files.write (documentPath project) workflow.document).run made = .ok () written ∧
        (Files.makeDirectories (outputPath project cluster)).run written = .ok () after := by
  cases hlookup : catalog.lookup cluster with
  | error e => simp [prepare, hlookup]
  | ok capacity =>
    simp only [prepare, Files.run_bind_eq_ok_iff, Files.run_ofExcept, hlookup, Files.run_pure]
    constructor
    · rintro ⟨_, _, hcapacity, ⟨⟩, made, hproject, ⟨⟩, written, hdocument, ⟨⟩, _, houtput, hend⟩
      cases hcapacity
      cases hend
      exact ⟨capacity, made, written, rfl, rfl, hproject, hdocument, houtput⟩
    · rintro ⟨_, made, written, hcapacity, rfl, hproject, hdocument, houtput⟩
      cases hcapacity
      exact ⟨_, _, rfl, _, _, hproject, _, _, hdocument, _, _, houtput, rfl⟩

lemma outputPath_ne_empty (project workspace : String) : outputPath project workspace ≠ "" := by
  intro hempty
  have hname : Path.fileName? (outputPath project workspace) = some outputName :=
    Path.fileName?_join ⟨by decide, by decide, by decide, by decide⟩ _
  rw [hempty] at hname
  exact absurd hname (by decide)

/-- A prepared project has the directory that the actions run on. -/
theorem isDirectory_of_run_prepare (h : tree.IsProper)
    (hrun : (prepare catalog cluster project options).run tree = .ok workflow after) :
    workflow.workspace = cluster ∧ after.isDirectory (outputPath project cluster) = true := by
  obtain ⟨capacity, made, written, -, hworkflow, hproject, hdocument, houtput⟩ :=
    run_prepare_eq_ok_iff.1 hrun
  have hmade := (Files.of_run_makeDirectories h hproject).1
  have hwritten := Files.isProper_of_run_write hmade hdocument
  refine ⟨by rw [hworkflow, Workflow.ofCapacity], ?_⟩
  exact (Files.of_run_makeDirectories hwritten houtput).2 (outputPath_ne_empty project cluster)

end Project

/-! ## Agreement -/

namespace Workflow

/-- Calls agree on names and places: an action executes its own name on its directory, its only
product is the name of the file of its report, which a summary takes for a report as it does only
with products of scenarios, and the directory that a project is prepared with is the place of
reports on it, whatever the names of the cluster and the directories are. -/
theorem places_agree {program : String} {capacity : Capacity} {a : Action}
    (hprogram : ¬ Action.placeholder <:+: program.toList) (ha : a ∈ actionsOf program capacity) :
    (∀ directory, a.command directory = program ++ " execute " ++ a.name ++ " " ++ directory) ∧
    (∀ root cluster directory, ∃ product, a.products = [product] ∧
      Path.fileName? (ReportFile.place root cluster directory a.name).path = some product ∧
      Summary.isReport (ReportFile.place root cluster directory a.name).path = true) ∧
    (∀ path, Summary.isReport path = true ↔
      ∃ s : Scenario, Path.fileName? path = some s.product) ∧
    ∀ (catalog : Catalog) (cluster project : String) (options : Project.Options)
      (tree after : FileTree) (workflow : Workflow), tree.IsProper →
      (Project.prepare catalog cluster project options).run tree = .ok workflow after →
        Project.outputPath project workflow.workspace =
          (ReportFile.place project cluster "output" a.name).directory ∧
        after.isDirectory (ReportFile.place project cluster "output" a.name).directory = true := by
  obtain ⟨s, request, -, rfl⟩ := (mem_actionsOf program capacity).1 ha
  refine ⟨Action.command_ofRequest hprogram s request, fun root cluster directory => ?_,
    fun path => Summary.isReport_iff, ?_⟩
  · have hname := ReportFile.fileName?_path s root cluster directory
    exact ⟨s.product, rfl, hname, Summary.isReport_iff.2 ⟨s, hname⟩⟩
  · intro catalog cluster project options tree after workflow htree hrun
    obtain ⟨hworkspace, hdirectory⟩ := Project.isDirectory_of_run_prepare htree hrun
    exact ⟨by rw [hworkspace]; rfl, hdirectory⟩

/-- A cluster can have the name of an absolute path. -/
lemma exists_run_prepare_of_absolute_cluster : ∃ workflow after,
    (Project.prepare (Catalog.empty.define "/scratch" ⟨1, 0, .none, true⟩) "/scratch" "project"
      ⟨"bindcheck", none, none⟩).run ⟨[], []⟩ = .ok workflow after := by
  have hlookup : (Catalog.empty.define "/scratch" ⟨1, 0, .none, true⟩).lookup "/scratch" =
      .ok ⟨1, 0, .none, true⟩ := rfl
  have hproject : (Files.makeDirectories "project").run ⟨[], []⟩ =
      .ok () ⟨[(["project"], .directory)], []⟩ := by
    have hcheck : FileTree.checkPath "project" = .ok () := rfl
    have hroute : Route.ofPath "project" = ⟨false, [.into "project"], .name⟩ := by decide +kernel
    rw [Files.run_makeDirectories, hcheck, hroute]
    rfl
  have hdocument (text : String) :
      (Files.write (Project.documentPath "project") text).run ⟨[(["project"], .directory)], []⟩ =
        .ok () ⟨[(["project", "workflow.toml"], .file (Text.Utf8.encode text)),
          (["project"], .directory)], []⟩ := by
    have hplace : FileTree.locate ⟨[(["project"], .directory)], []⟩
        (Project.documentPath "project") = .ok ["project", "workflow.toml"] := by decide +kernel
    rw [Files.run_write, hplace]
    rfl
  have houtput (node : Node) : (Files.makeDirectories "/scratch/output").run
      ⟨[(["project", "workflow.toml"], node), (["project"], .directory)], []⟩ =
        .ok () ⟨[(["scratch", "output"], .directory), (["scratch"], .directory),
          (["project", "workflow.toml"], node), (["project"], .directory)], []⟩ := by
    have hcheck : FileTree.checkPath "/scratch/output" = .ok () := rfl
    have hroute : Route.ofPath "/scratch/output" =
        ⟨true, [.into "scratch", .into "output"], .name⟩ := by decide +kernel
    rw [Files.run_makeDirectories, hcheck, hroute]
    rfl
  have hpath : Project.outputPath "project" "/scratch" = "/scratch/output" := by decide +kernel
  exact ⟨_, _, Project.run_prepare_eq_ok_iff.2 ⟨⟨1, 0, .none, true⟩, _, _, hlookup, rfl, hproject,
    hdocument _, hpath.symm ▸ houtput _⟩⟩

/-- On a cluster whose name is an absolute path, reports are outside of the project, where it was
prepared for them. A directory that looks like a placeholder is itself. -/
theorem places_agree_of_absolute_cluster :
    (Action.ofRequest "bindcheck" .serial ⟨1, 1, 0, false⟩).command "\x7bdirectory\x7d" =
      "bindcheck execute serial \x7bdirectory\x7d" ∧
    Path.fileName? (ReportFile.place "project" "/scratch" "output" "serial").path =
      some "serial.out" ∧
    ∃ workflow after,
      (Project.prepare (Catalog.empty.define "/scratch" ⟨1, 0, .none, true⟩) "/scratch" "project"
        ⟨"bindcheck", none, none⟩).run ⟨[], []⟩ = .ok workflow after ∧
      after.isDirectory "/scratch/output" = true := by
  have hprogram : ¬ Action.placeholder <:+: "bindcheck".toList := fun hoccurs =>
    absurd (hoccurs.subset List.mem_cons_self) (by decide)
  have haction : Action.ofRequest "bindcheck" .serial ⟨1, 1, 0, false⟩ ∈
      actionsOf "bindcheck" ⟨1, 0, .none, true⟩ :=
    (mem_actionsOf _ _).2 ⟨.serial, ⟨1, 1, 0, false⟩, by decide, rfl⟩
  obtain ⟨hcommand, hproduct, -, hprepared⟩ := places_agree hprogram haction
  have hname : Path.fileName? (ReportFile.place "project" "/scratch" "output" "serial").path =
      some "serial.out" := by
    obtain ⟨product, hproducts, hname, -⟩ := hproduct "project" "/scratch" "output"
    have hserial : product = "serial.out" :=
      (List.singleton_inj.1 hproducts).symm.trans (by decide +kernel)
    rwa [hserial] at hname
  have htree : FileTree.IsProper ⟨[], []⟩ := by decide
  have hplace (action : String) :
      (ReportFile.place "project" "/scratch" "output" action).directory = "/scratch/output" := by
    show Path.join (Path.join "project" "/scratch") "output" = _
    decide +kernel
  obtain ⟨workflow, after, hrun⟩ := exists_run_prepare_of_absolute_cluster
  obtain ⟨-, hdirectory⟩ := hprepared _ _ _ _ _ _ _ htree hrun
  rw [hplace] at hdirectory
  exact ⟨(hcommand _).trans (by decide +kernel), hname, workflow, after, hrun, hdirectory⟩

end Workflow

end JobBinding

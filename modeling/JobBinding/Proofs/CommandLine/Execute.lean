import JobBinding.CommandLine.Run
import JobBinding.Proofs.Validation.Single
import JobBinding.Proofs.Workflow.Actions

/-!
# Executing an action on directories

Before the first directory there are five things that can be wrong, which are looked for in this
order: no cluster is named, the catalog cannot be read, it does not have the cluster, there is no
such action, or the cluster cannot grant it (`Refused`). Nothing of this changes a file, since
reading does not.

Then a process that is alone goes through the directories from left to right and stops at the first
one that fails. What it observes is the same each time, so all reports are on one verdict, and a
directory that is named twice keeps its report (`Changes.reports`). A failure leaves nothing but
directories. So what was done before it stays as it would be without it (`Executed`).
-/

namespace JobBinding

lemma Catalog.readOnly_load (env : Environment) (path? : Option String) :
    Files.ReadOnly (Catalog.load env path?) := by
  have hfile (path : String) : Files.ReadOnly (Catalog.ofFile path) :=
    (Files.readOnly_readText path).bind fun _ => Files.readOnly_ofExcept _
  unfold load
  split
  · exact hfile _
  split
  · exact Files.readOnly_pure _
  refine Files.readOnly_get.bind fun tree => ?_
  split
  · exact hfile _
  · exact Files.readOnly_pure _

namespace CommandLine

open Files Validation

variable {host : Host} {globals : Globals} {action : String} {files : FileTree} {e : Failure}

/-! ## Before the first directory -/

/-- Why an action is not executed on any directory. Each reason presupposes that those before it do
not apply. -/
inductive Refused (host : Host) (globals : Globals) (action : String) (files : FileTree) :
    Failure → Prop
  | noCluster (hcluster : host.environment "ACTION_CLUSTER" = none) :
    Refused host globals action files (.missingVariable "ACTION_CLUSTER")
  | noCatalog {cluster : String} {e : Failure}
    (hcluster : host.environment "ACTION_CLUSTER" = some cluster)
    (hcatalog : (Catalog.load host.environment globals.clusters).result files = .error e) :
    Refused host globals action files e
  | otherCluster {cluster : String} {catalog : Catalog}
    (hcluster : host.environment "ACTION_CLUSTER" = some cluster)
    (hcatalog : (Catalog.load host.environment globals.clusters).result files = .ok catalog)
    (hcapacity : catalog.find? cluster = none) :
    Refused host globals action files (.unsupportedCluster cluster)
  | otherAction {cluster : String} {catalog : Catalog} {capacity : Capacity}
    (hcluster : host.environment "ACTION_CLUSTER" = some cluster)
    (hcatalog : (Catalog.load host.environment globals.clusters).result files = .ok catalog)
    (hcapacity : catalog.find? cluster = some capacity)
    (hscenario : ∀ scenario : Scenario, scenario.name ≠ action) :
    Refused host globals action files (.unknownAction action)
  | infeasible {cluster : String} {catalog : Catalog} {capacity : Capacity} {scenario : Scenario}
    (hcluster : host.environment "ACTION_CLUSTER" = some cluster)
    (hcatalog : (Catalog.load host.environment globals.clusters).result files = .ok catalog)
    (hcapacity : catalog.find? cluster = some capacity) (hscenario : scenario.name = action)
    (hrequest : scenario.request? capacity = none) :
    Refused host globals action files (.infeasibleAction action)

/-- What a job is, if nothing is wrong. -/
inductive Found (host : Host) (globals : Globals) (action : String) (files : FileTree) :
    Job → Prop
  | intro {cluster : String} {catalog : Catalog} {capacity : Capacity} {scenario : Scenario}
    {mode : Mode} (hcluster : host.environment "ACTION_CLUSTER" = some cluster)
    (hcatalog : (Catalog.load host.environment globals.clusters).result files = .ok catalog)
    (hcapacity : catalog.find? cluster = some capacity) (hscenario : scenario.name = action)
    (hmode : scenario.mode capacity = .ok mode) :
    Found host globals action files
      ⟨cluster, scenario, mode, Job.originOf host.tools scenario cluster⟩

lemma Refused.run_find (h : Refused host globals action files e) :
    (Job.find host globals action).run files = .error e files := by
  have hload := Catalog.readOnly_load host.environment globals.clusters
  -- One constructor for each test that `find` makes, so all tests before it have succeeded.
  cases h with
  | noCluster hcluster =>
    simp only [Job.find, run_bind, run_ofExcept, Environment.required, hcluster]
  | noCatalog hcluster hcatalog =>
    simp only [Job.find, run_bind, run_ofExcept, Environment.required, hcluster,
      hload.run_eq_error hcatalog]
  | otherCluster hcluster hcatalog hcapacity =>
    simp only [Job.find, run_bind, run_ofExcept, Environment.required, hcluster,
      hload.run_eq_ok hcatalog, Catalog.lookup, hcapacity]
  | otherAction hcluster hcatalog hcapacity hscenario =>
    simp only [Job.find, run_bind, run_ofExcept, Environment.required, hcluster,
      hload.run_eq_ok hcatalog, Catalog.lookup, hcapacity, Scenario.ofName_of_forall_ne hscenario]
  | infeasible hcluster hcatalog hcapacity hscenario hrequest =>
    cases hscenario
    simp only [Job.find, run_bind, run_ofExcept, Environment.required, hcluster,
      hload.run_eq_ok hcatalog, Catalog.lookup, hcapacity, Scenario.ofName_name,
      Scenario.mode_of_request_eq_none hrequest]

lemma Found.run_find {job : Job} (h : Found host globals action files job) :
    (Job.find host globals action).run files = .ok job files := by
  obtain ⟨hcluster, hcatalog, hcapacity, rfl, hmode⟩ := h
  have hload := Catalog.readOnly_load host.environment globals.clusters
  simp only [Job.find, run_bind, run_ofExcept, Environment.required, hcluster,
    hload.run_eq_ok hcatalog, Catalog.lookup, hcapacity, Scenario.ofName_name, hmode]
  rfl

lemma exists_refused_or_found (host : Host) (globals : Globals) (action : String)
    (files : FileTree) :
    (∃ e, Refused host globals action files e) ∨ ∃ job, Found host globals action files job := by
  -- The tests in the order in which `find` makes them: the first that fails gives the refusal.
  cases hcluster : host.environment "ACTION_CLUSTER" with
  | none => exact .inl ⟨_, .noCluster hcluster⟩
  | some cluster =>
  cases hcatalog : (Catalog.load host.environment globals.clusters).result files with
  | error e => exact .inl ⟨e, .noCatalog hcluster hcatalog⟩
  | ok catalog =>
  cases hcapacity : catalog.find? cluster with
  | none => exact .inl ⟨_, .otherCluster hcluster hcatalog hcapacity⟩
  | some capacity =>
  by_cases hscenario : ∃ scenario : Scenario, scenario.name = action
  · obtain ⟨scenario, hscenario⟩ := hscenario
    cases hrequest : scenario.request? capacity with
    | none => exact .inl ⟨_, .infeasible hcluster hcatalog hcapacity hscenario hrequest⟩
    | some request =>
      have hmode := Scenario.mode_of_request hrequest
      exact .inr ⟨_, .intro hcluster hcatalog hcapacity hscenario hmode⟩
  · exact .inl ⟨_, .otherAction hcluster hcatalog hcapacity (not_exists.1 hscenario)⟩

/-! ## What writing reports changes -/

/-- What the reports of a job on some directories change: directories that were missing are made,
and besides there are only changes at the places of these reports. -/
structure Changes (job : Job) (root : String) (directories : List String)
    (before after : FileTree) : Prop where
  keeps : before.KeepsDirectories after
  get?_eq : ∀ place, after.get? place = before.get? place ∨
    before.get? place = none ∧ after.get? place = some .directory ∨
    ∃ directory ∈ directories, after.locate (job.report root directory).path = .ok place

variable {job : Job} {root directory path : String} {done done' : List String} {shape : Shape}
  {verdict : Verdict} {before between after : FileTree}

lemma changes_of_addsDirectories (h : before.AddsDirectories after) :
    Changes job root [] before after where
  keeps := h.keepsDirectories
  get?_eq place := (h.get?_eq place).imp_right .inl

lemma changes_of_run_write
    (h : ((job.report root directory).write verdict).run before = .ok () after) :
    Changes job root [directory] before after := by
  obtain ⟨made, place, hmade, hlocate, hplace, rfl⟩ := ReportFile.run_write_eq_ok_iff.1 h
  have hadds : before.AddsDirectories made :=
    (run_eq_ok_iff.1 hmade).2 ▸ addsDirectories_makeDirectories _ before
  have hkeeps : made.KeepsDirectories (made.put place (.file (Text.Utf8.encode verdict.text))) :=
    FileTree.keepsDirectories_put hplace
  refine ⟨hadds.keepsDirectories.trans hkeeps, fun other => ?_⟩
  by_cases hother : other = place
  · cases hother
    exact .inr (.inr ⟨directory, by simp, FileTree.locate_of_keepsDirectories hkeeps hlocate⟩)
  · rw [FileTree.get?_put_of_ne hother]
    exact (hadds.get?_eq other).imp_right .inl

lemma Changes.trans (h : Changes job root done before between)
    (h' : Changes job root done' between after) :
    Changes job root (done ++ done') before after where
  keeps := h.keeps.trans h'.keeps
  get?_eq place := by
    obtain hsame | ⟨hnone, hnew⟩ | ⟨directory, hmem, hlocate⟩ := h'.get?_eq place
    · obtain hsame' | ⟨hnone, hnew⟩ | ⟨directory, hmem, hlocate⟩ := h.get?_eq place
      · exact .inl (hsame.trans hsame')
      · exact .inr (.inl ⟨hnone, hsame.trans hnew⟩)
      · exact .inr (.inr ⟨directory, List.mem_append_left _ hmem,
          FileTree.locate_of_keepsDirectories h'.keeps hlocate⟩)
    · obtain hsame' | ⟨hnone', -⟩ | ⟨directory, hmem, hlocate⟩ := h.get?_eq place
      · exact .inr (.inl ⟨hsame' ▸ hnone, hnew⟩)
      · exact .inr (.inl ⟨hnone', hnew⟩)
      · exact .inr (.inr ⟨directory, List.mem_append_left _ hmem,
          FileTree.locate_of_keepsDirectories h'.keeps hlocate⟩)
    · exact .inr (.inr ⟨directory, List.mem_append_right _ hmem, hlocate⟩)

/-- Whether the report on a directory is a verdict. -/
def Reports (job : Job) (root directory : String) (verdict : Verdict) (tree : FileTree) : Prop :=
  tree.node? (job.report root directory).path = some (.file (Text.Utf8.encode verdict.text))

/-- A report stays if all reports that are written are on the same verdict. -/
lemma Changes.reports (h : Changes job root done before after)
    (hdone : ∀ d ∈ done, Reports job root d verdict after)
    (hbefore : Reports job root directory verdict before) :
    Reports job root directory verdict after := by
  obtain ⟨place, hlocate, hplace⟩ := FileTree.node?_eq_some_iff.1 hbefore
  have hlocate' := FileTree.locate_of_keepsDirectories h.keeps hlocate
  refine FileTree.node?_eq_some_iff.2 ⟨place, hlocate', ?_⟩
  obtain hsame | ⟨hnone, -⟩ | ⟨d, hd, hother⟩ := h.get?_eq place
  · exact hsame.trans hplace
  · cases hnone.symm.trans hplace
  · obtain ⟨place', hlocate'', hplace'⟩ := FileTree.node?_eq_some_iff.1 (hdone d hd)
    cases hother.symm.trans hlocate''
    exact hplace'

/-! ## One directory -/

def Host.probe (host : Host) : Probe :=
  host.tools.probe host.hostname host.cores

/-- Why the validation of a directory fails, and what it leaves then. -/
inductive Fails (host : Host) (job : Job) (shape : Shape) (root directory : String)
    (before : FileTree) : Failure → FileTree → Prop
  | probe {e : Failure} (hprobe : host.probe.observe shape.probedVendor? = .error e) :
    Fails host job shape root directory before e before
  | directory {b : Binding} {e : Failure} {after : FileTree}
    (hprobe : host.probe.observe shape.probedVendor? = .ok b)
    (hmake : (makeDirectories (job.report root directory).directory).run before = .error e after) :
    Fails host job shape root directory before e after
  | report {b : Binding} {e : Failure} {after : FileTree}
    (hprobe : host.probe.observe shape.probedVendor? = .ok b)
    (hmake : (makeDirectories (job.report root directory).directory).run before = .ok () after)
    (hwrite : (write (job.report root directory).path
      (singleVerdict b shape job.origin).text).run after = .error e after) :
    Fails host job shape root directory before e after

lemma run_validate (hmode : job.mode = .single shape) :
    (job.validate host root directory).run before =
      (single host.probe job.origin shape (job.report root directory) >>= fun verdict =>
        pure (Progress.done (some verdict))).run before := by
  rw [Job.validate, hmode]
  rfl

/-- A validation that succeeds leaves the verdict on what the process observes. -/
lemma of_run_validate_ok (hmode : job.mode = .single shape) {progress : Progress}
    (h : (job.validate host root directory).run before = .ok progress after) :
    ∃ b, host.probe.observe shape.probedVendor? = .ok b ∧
      progress = .done (some (singleVerdict b shape job.origin)) ∧
      ((job.report root directory).write (singleVerdict b shape job.origin)).run before =
        .ok () after := by
  rw [run_validate hmode] at h
  obtain ⟨verdict, between, hsingle, hpure⟩ := run_bind_eq_ok_iff.1 h
  cases hpure
  cases hprobe : host.probe.observe shape.probedVendor? with
  | error e =>
    rw [run_single_of_error hprobe] at hsingle
    cases hsingle
  | ok b =>
    rw [run_single_of_ok hprobe] at hsingle
    cases hwrite : ((job.report root directory).write (singleVerdict b shape job.origin)).run
      before with
    | error e tree =>
      rw [hwrite] at hsingle
      cases hsingle
    | ok u tree =>
      rw [hwrite] at hsingle
      cases hsingle
      exact ⟨b, rfl, rfl, hwrite⟩

lemma of_run_validate_error (hmode : job.mode = .single shape)
    (h : (job.validate host root directory).run before = .error e after) :
    Fails host job shape root directory before e after := by
  rw [run_validate hmode] at h
  obtain hsingle | ⟨verdict, between, -, hpure⟩ := run_bind_eq_error_iff.1 h
  -- Nothing is written before the resources are observed, so a failed query leaves the files.
  · cases hprobe : host.probe.observe shape.probedVendor? with
    | error e =>
      rw [run_single_of_error hprobe] at hsingle
      cases hsingle
      exact .probe hprobe
    | ok b =>
      rw [run_single_of_ok hprobe] at hsingle
      cases hwrite : ((job.report root directory).write (singleVerdict b shape job.origin)).run
        before with
      | ok u tree =>
        rw [hwrite] at hsingle
        cases hsingle
      | error e tree =>
        rw [hwrite] at hsingle
        cases hsingle
        obtain hmake | ⟨hmake, hreport⟩ := ReportFile.run_write_eq_error_iff.1 hwrite
        · exact .directory hprobe hmake
        · exact .report hprobe hmake hreport
  · cases hpure

/-- A validation that fails leaves no report that was not there. -/
lemma Fails.addsDirectories (h : Fails host job shape root directory before e after) :
    before.AddsDirectories after := by
  have hmake := addsDirectories_makeDirectories (job.report root directory).directory before
  unfold Files.after at hmake
  cases h with
  | probe => exact .refl before
  | directory hprobe hrun => rwa [hrun] at hmake
  | report hprobe hrun => rwa [hrun] at hmake

/-! ## Directories from left to right -/

/-- Runs of a job on one directory each, one after the other, that all finish. -/
def Separately (host : Host) (job : Job) (root : String) :
    List String → FileTree → FileTree → Prop
  | [], before, after => after = before
  | directory :: rest, before, after => ∃ shown between,
    job.validateAll host root [directory] before = (shown, .finished, between) ∧
      Separately host job root rest between after

lemma validateAll_cons_of_error {rest : List String}
    (h : (job.validate host root directory).run before = .error e after) :
    job.validateAll host root (directory :: rest) before = ([], .failed e.message, after) := by
  rw [Job.validateAll, h]

lemma validateAll_cons_of_ok {rest : List String}
    (h : (job.validate host root directory).run before = .ok (.done (some verdict)) between) :
    job.validateAll host root (directory :: rest) before =
      (.verdict (job.report root directory).path verdict ::
          (job.validateAll host root rest between).1,
        (job.validateAll host root rest between).2) := by
  rw [Job.validateAll, h]
  rfl

/-- A run on one directory that finishes has written the report that it shows. -/
lemma of_validateAll_singleton {shown : List Shown} (hmode : job.mode = .single shape)
    (h : job.validateAll host root [directory] before = (shown, .finished, after)) :
    ∃ b, host.probe.observe shape.probedVendor? = .ok b ∧
      shown = [.verdict (job.report root directory).path (singleVerdict b shape job.origin)] ∧
      ((job.report root directory).write (singleVerdict b shape job.origin)).run before =
        .ok () after := by
  cases hrun : (job.validate host root directory).run before with
  | error e tree =>
    rw [validateAll_cons_of_error hrun] at h
    cases h
  | ok progress tree =>
    obtain ⟨b, hprobe, rfl, hwrite⟩ := of_run_validate_ok hmode hrun
    rw [validateAll_cons_of_ok hrun, Job.validateAll] at h
    cases h
    exact ⟨b, hprobe, rfl, hwrite⟩

section Loop

variable (hmode : job.mode = .single shape)
  (hverdict : ∀ b, host.probe.observe shape.probedVendor? = .ok b →
    verdict = singleVerdict b shape job.origin)

include hmode

lemma Separately.changes (h : Separately host job root done before after) :
    Changes job root done before after := by
  induction done generalizing before with
  | nil =>
    cases h
    exact changes_of_addsDirectories (.refl _)
  | cons directory rest ih =>
    obtain ⟨shown, between, hrun, hrest⟩ := h
    obtain ⟨b, -, -, hwrite⟩ := of_validateAll_singleton hmode hrun
    exact (changes_of_run_write hwrite).trans (ih hrest)

include hverdict

/-- Whatever the files are, a run on a directory that finishes has reported the one verdict. -/
lemma reports_of_validateAll_singleton {shown : List Shown}
    (h : job.validateAll host root [directory] before = (shown, .finished, after)) :
    Reports job root directory verdict after := by
  obtain ⟨b, hprobe, -, hwrite⟩ := of_validateAll_singleton hmode h
  cases hverdict b hprobe
  exact ReportFile.node?_of_run_write hwrite

lemma Separately.reports (h : Separately host job root done before after) :
    ∀ directory ∈ done, Reports job root directory verdict after := by
  induction done generalizing before with
  | nil => exact nofun
  | cons directory rest ih =>
    obtain ⟨shown, between, hrun, hrest⟩ := h
    have hreport := reports_of_validateAll_singleton hmode hverdict hrun
    exact List.forall_mem_cons.2 ⟨(hrest.changes hmode).reports (ih hrest) hreport, ih hrest⟩

/-- Directories are validated from left to right, up to the first that fails. -/
lemma exists_separately (root : String) (directories : List String) (before : FileTree) :
    ∃ done rest between ending after, directories = done ++ rest ∧
      Separately host job root done before between ∧
      (rest = [] ∧ ending = .finished ∧ after = between ∨
        ∃ directory others e, rest = directory :: others ∧ ending = .failed e.message ∧
          Fails host job shape root directory between e after) ∧
      job.validateAll host root directories before =
        (done.map fun directory => .verdict (job.report root directory).path verdict,
          ending, after) := by
  -- The files change with each directory, so the induction is for all files before.
  induction directories generalizing before with
  | nil => exact ⟨[], [], before, .finished, before, rfl, rfl, .inl ⟨rfl, rfl, rfl⟩, rfl⟩
  | cons directory directories ih =>
    cases hrun : (job.validate host root directory).run before with
    | error e after =>
      have hfails := of_run_validate_error hmode hrun
      exact ⟨[], directory :: directories, before, .failed e.message, after, rfl, rfl,
        .inr ⟨directory, directories, e, rfl, rfl, hfails⟩, validateAll_cons_of_error hrun⟩
    | ok progress tree =>
      obtain ⟨b, hprobe, rfl, -⟩ := of_run_validate_ok hmode hrun
      cases hverdict b hprobe
      obtain ⟨done, rest, between, ending, after, rfl, hdone, hend, hall⟩ := ih tree
      have hfirst : job.validateAll host root [directory] before = (_, .finished, tree) :=
        validateAll_cons_of_ok hrun
      refine ⟨directory :: done, rest, between, ending, after, rfl, ⟨_, tree, hfirst, hdone⟩, hend,
        ?_⟩
      rw [validateAll_cons_of_ok hrun, hall, List.map_cons]

end Loop

/-- What a job comes to on directories, of which some are done and the rest is not.

The verdict is the one on what the process observes. The directories that are done are as if each
was validated by a run of its own, one after the other, and then either there is no other or the
next one fails. What is shown is the verdict for each directory that is done, and the verdict is the
report on each of them. Whatever the files are, a run on a directory alone that finishes reports
this verdict. Nothing is changed anywhere else, except that directories may be new. -/
structure Executed (host : Host) (job : Job) (shape : Shape) (root : String)
    (done rest : List String) (verdict : Verdict) (before : FileTree) (shown : List Shown)
    (ending : Ending) (after : FileTree) : Prop where
  verdict_eq : ∀ b, host.probe.observe shape.probedVendor? = .ok b →
    verdict = singleVerdict b shape job.origin
  stops : ∃ between, Separately host job root done before between ∧
    (rest = [] ∧ ending = .finished ∧ after = between ∨
      ∃ directory others e, rest = directory :: others ∧ ending = .failed e.message ∧
        Fails host job shape root directory between e after)
  shown_eq : shown = done.map fun directory => .verdict (job.report root directory).path verdict
  reports : ∀ directory ∈ done, Reports job root directory verdict after
  reports_alone : ∀ directory tree shown' tree',
    job.validateAll host root [directory] tree = (shown', .finished, tree') →
      Reports job root directory verdict tree'
  changes : Changes job root done before after

theorem exists_executed (hmode : job.mode = .single shape) (directories : List String)
    (before : FileTree) :
    ∃ done rest verdict shown ending after, directories = done ++ rest ∧
      job.validateAll host root directories before = (shown, ending, after) ∧
      Executed host job shape root done rest verdict before shown ending after := by
  -- If the probe fails no directory is finished, and any verdict will do.
  obtain ⟨verdict, hverdict⟩ : ∃ verdict, ∀ b, host.probe.observe shape.probedVendor? = .ok b →
      verdict = singleVerdict b shape job.origin := by
    cases hprobe : host.probe.observe shape.probedVendor? with
    | error e => exact ⟨⟨[]⟩, nofun⟩
    | ok b =>
      refine ⟨singleVerdict b shape job.origin, fun b' hb' => ?_⟩
      cases hb'
      rfl
  obtain ⟨done, rest, between, ending, after, hsplit, hdone, hend, hall⟩ :=
    exists_separately hmode hverdict root directories before
  have hadds : between.AddsDirectories after := by
    obtain ⟨-, -, rfl⟩ | ⟨directory, others, e, -, -, hfails⟩ := hend
    · exact .refl _
    · exact hfails.addsDirectories
  -- The directory that failed can have added directories, but it has written no report.
  have hchanges : Changes job root [] between after := changes_of_addsDirectories hadds
  refine ⟨done, rest, verdict, _, ending, after, hsplit, hall, {
    verdict_eq := hverdict
    stops := ⟨between, hdone, hend⟩
    shown_eq := rfl
    reports := fun directory hdirectory =>
      hchanges.reports nofun (hdone.reports hmode hverdict directory hdirectory)
    reports_alone := fun directory tree shown' tree' h =>
      reports_of_validateAll_singleton hmode hverdict h
    changes := by simpa using (hdone.changes hmode).trans hchanges }⟩

/-! ## The command -/

lemma Found.not_refused (h : Found host globals action files job) :
    ¬ ∃ e, Refused host globals action files e := by
  rintro ⟨e, hrefused⟩
  cases h.run_find.symm.trans hrefused.run_find

/-- Executing an action on directories.

If something is wrong with the cluster, the catalog or the action, the first thing that is wrong is
reported and no file is touched. Otherwise the job is known, and if one process validates it alone,
the directories are validated from left to right, up to the first that fails. -/
theorem execute_spec (host : Host) (globals : Globals) (action : String)
    (directories : List String) (files : FileTree) :
    (∀ e, Refused host globals action files e →
      (Command.execute action directories).run host globals files =
        ([], .failed e.message, files)) ∧
    ((¬ ∃ e, Refused host globals action files e) →
      ∃ job, Found host globals action files job ∧
        ∀ shape, job.mode = .single shape →
          ∃ done rest verdict shown ending after, directories = done ++ rest ∧
            (Command.execute action directories).run host globals files = (shown, ending, after) ∧
            Executed host job shape (workingPath files) done rest verdict files shown ending
              after) := by
  constructor
  · intro e hrefused
    rw [Command.run, hrefused.run_find]
  · intro hnone
    obtain hrefused | ⟨job, hfound⟩ := exists_refused_or_found host globals action files
    · exact absurd hrefused hnone
    refine ⟨job, hfound, fun shape hmode => ?_⟩
    rw [Command.run, hfound.run_find]
    exact exists_executed hmode directories files

/-- A process on one core of a cluster, without any tools. -/
def serialHost : Host where
  environment name := if name = "ACTION_CLUSTER" then some "anvil" else none
  tools _ := none
  hostname := "a001"
  cores := .ofList [3]
  site := ⟨0, ⟨1700000032, 32, by decide, by decide⟩, [], fun _ _ => false⟩

def plainGlobals : Globals :=
  ⟨none, .never, .terminal, false⟩

/-- A workspace in which a file is where the directory `c` should be. -/
def blockedFiles : FileTree :=
  ⟨[(["anvil"], .directory), (["anvil", "c"], .file [])], []⟩

/-- Without a cluster nothing is touched. With one, the directories before the blocked one are
validated, one of them twice, and the one after it is not. -/
theorem execute_of_blocked :
    (Command.execute "x" ["a"]).run { serialHost with environment := fun _ => none } plainGlobals
        blockedFiles =
      ([], .failed "Environment variable `ACTION_CLUSTER` is not set", blockedFiles) ∧
    ∃ verdict shown after,
      (Command.execute "serial" ["a", "b", "a", "c", "d"]).run serialHost plainGlobals
          blockedFiles = (shown, .failed "File exists (os error 17)", after) ∧
        Executed serialHost ⟨"anvil", .serial, .single ⟨1, 1, 1, 0, .none⟩, none⟩
          ⟨1, 1, 1, 0, .none⟩ "/" ["a", "b", "a"] ["c", "d"] verdict blockedFiles shown
          (.failed "File exists (os error 17)") after := by
  refine ⟨(execute_spec _ plainGlobals "x" ["a"] blockedFiles).1 _ (.noCluster rfl), ?_⟩
  obtain ⟨-, hspec⟩ := execute_spec serialHost plainGlobals "serial" ["a", "b", "a", "c", "d"]
    blockedFiles
  have hcapacity : Catalog.builtin.find? "anvil" = some ⟨128, 0, .nvidia, true⟩ := by
    decide +kernel
  have hmode : Scenario.serial.mode ⟨128, 0, .nvidia, true⟩ =
      .ok (.single ⟨1, 1, 1, 0, .none⟩) := by decide +kernel
  have hfound : Found serialHost plainGlobals "serial" blockedFiles
      ⟨"anvil", .serial, .single ⟨1, 1, 1, 0, .none⟩, none⟩ := .intro rfl rfl hcapacity rfl hmode
  obtain ⟨job, hjob, hexecuted⟩ := hspec hfound.not_refused
  cases hfound.run_find.symm.trans hjob.run_find
  obtain ⟨done, rest, verdict, shown, ending, after, hsplit, hrun, hexecuted⟩ := hexecuted _ rfl
  -- The length of what is shown tells how many were finished, and with it the cut of the list.
  have hending : ((Command.execute "serial" ["a", "b", "a", "c", "d"]).run serialHost plainGlobals
      blockedFiles).2.1 = .failed "File exists (os error 17)" := by decide +kernel
  have hlength : ((Command.execute "serial" ["a", "b", "a", "c", "d"]).run serialHost plainGlobals
      blockedFiles).1.length = 3 := by decide +kernel
  rw [hrun] at hending hlength
  obtain rfl : ending = .failed "File exists (os error 17)" := hending
  have hshown : shown.length = 3 := hlength
  rw [hexecuted.shown_eq, List.length_map] at hshown
  have hthree : ["a", "b", "a"].length = done.length := hshown.symm
  have happend : ["a", "b", "a"] ++ ["c", "d"] = done ++ rest := hsplit
  obtain ⟨rfl, rfl⟩ := List.append_inj happend hthree
  exact ⟨verdict, shown, after, hrun, hexecuted⟩

end CommandLine

end JobBinding

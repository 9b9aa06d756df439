import JobBinding.Proofs.Files.Directories
import JobBinding.Proofs.Workflow.Places

/-!
# Preparing projects one after the other

A preparation changes two things: the document of its project, and the places on the ways to the
project and to the directory that actions run on, which become directories (`Prepared`). So it can
be repeated (`run_again`), and preparations do not disturb each other: no directory is ever removed,
and a document is written only by preparations of its own project (`ChangesAt`). Projects are told
apart by the place of their document, since a project has many paths.
-/

namespace JobBinding

namespace FileTree

variable {place : Location} {tree tree' tree'' : FileTree} {node : Node} {content : List UInt8}

/-- Whether a tree has the directories of another one and all its entries but the one at a place,
and besides only directories. -/
structure ChangesAt (place : Location) (tree tree' : FileTree) : Prop where
  keeps : tree.KeepsDirectories tree'
  get?_eq : ∀ other, other ≠ place → tree'.get? other = tree.get? other ∨
    tree.get? other = none ∧ tree'.get? other = some .directory

lemma AddsDirectories.changesAt (h : tree.AddsDirectories tree') (place : Location) :
    ChangesAt place tree tree' where
  keeps := h.keepsDirectories
  get?_eq other _ := h.get?_eq other

lemma changesAt_put (h : tree.get? place ≠ some .directory) :
    ChangesAt place tree (tree.put place node) where
  keeps := keepsDirectories_put h
  get?_eq _ hother := .inl (get?_put_of_ne hother)

lemma ChangesAt.trans (h : ChangesAt place tree tree') (h' : ChangesAt place tree' tree'') :
    ChangesAt place tree tree'' where
  keeps := h.keeps.trans h'.keeps
  get?_eq other hother := by
    rcases h'.get?_eq other hother with hsame | ⟨hnone, hnew⟩
    · rw [hsame]
      exact h.get?_eq other hother
    · rcases h.get?_eq other hother with hsame | ⟨-, hnew'⟩
      · exact .inr ⟨hsame ▸ hnone, hnew⟩
      · cases hnone.symm.trans hnew'

lemma KeepsDirectories.isDirectory (h : tree.KeepsDirectories tree') {path : String}
    (hpath : tree.isDirectory path = true) : tree'.isDirectory path = true := by
  obtain ⟨place, hlocate, hplace⟩ := node?_eq_some_iff.1 (of_decide_eq_true hpath)
  exact decide_eq_true
    (node?_eq_some_iff.2 ⟨place, locate_of_keepsDirectories h hlocate, h.get?_eq place hplace⟩)

/-- A file at another place stays as it is. -/
lemma ChangesAt.get?_of_file (h : ChangesAt place tree tree') {other : Location}
    (hother : other ≠ place) (hfile : tree.get? other = some (.file content)) :
    tree'.get? other = some (.file content) := by
  rcases h.get?_eq other hother with hsame | ⟨hnone, -⟩
  · exact hsame.trans hfile
  · cases hnone.symm.trans hfile

end FileTree

namespace Files

variable {α β : Type} {tree : FileTree}

/-- What a computation keeps if both of its parts keep it, the second one if it is reached. -/
lemma of_after_bind {P : FileTree → Prop} {x : Files α} {f : α → Files β} (hx : P (x.after tree))
    (hf : ∀ a between, x.run tree = .ok a between → P between → P ((f a).after between)) :
    P ((x >>= f).after tree) := by
  rw [after_bind]
  unfold after at hx
  split
  · next a between hrun =>
    rw [hrun] at hx
    exact hf a between hrun hx
  · next e between hrun => rwa [hrun] at hx

lemma after_ofExcept (x : Except Failure α) : (ofExcept x).after tree = tree := by
  cases x <;> rfl

lemma changesAt_write (path text : String) (tree : FileTree) :
    FileTree.ChangesAt (tree.placeOf path) tree ((write path text).after tree) := by
  have hrefl := (FileTree.AddsDirectories.refl tree).changesAt (tree.placeOf path)
  rw [after, run_write]
  cases hlocate : tree.locate path with
  | error f => exact hrefl
  | ok place =>
    obtain rfl := FileTree.eq_placeOf_of_locate hlocate
    by_cases hplace : tree.get? (tree.placeOf path) = some .directory
    · simp only [if_pos hplace]
      exact hrefl
    · simp only [if_neg hplace]
      exact FileTree.changesAt_put hplace

lemma isProper_write (h : tree.IsProper) (path text : String) :
    ((write path text).after tree).IsProper := by
  unfold after
  split
  · next u written hrun => exact isProper_of_run_write h hrun
  · next e written hrun => rwa [eq_of_run_write_error hrun]

end Files

namespace Project

open Files

/-- What a project is prepared with. -/
structure Preparation where
  catalog : Catalog
  cluster : String
  project : String
  options : Options

namespace Preparation

variable (p : Preparation) {tree before made after : FileTree} {workflow : Workflow}

def run : Files Workflow :=
  prepare p.catalog p.cluster p.project p.options

def documentPlace (tree : FileTree) : Location :=
  tree.placeOf (documentPath p.project)

/-- The places that become directories. -/
def directories (tree : FileTree) : List Location :=
  tree.wayOf p.project ++ tree.wayOf (outputPath p.project p.cluster)

/-- The tree with the document of a workflow. -/
def withDocument (tree : FileTree) (workflow : Workflow) : FileTree :=
  tree.put (p.documentPlace tree) (.file (Text.Utf8.encode workflow.document))

variable {p}

lemma documentPlace_eq (h : after.workingDirectory = before.workingDirectory) :
    p.documentPlace after = p.documentPlace before :=
  FileTree.placeOf_eq h _

lemma directories_eq (h : after.workingDirectory = before.workingDirectory) :
    p.directories after = p.directories before := by
  rw [directories, FileTree.wayOf_eq h, FileTree.wayOf_eq h, directories]

/-! ## Preparations that succeed -/

lemma run_write_document (hlocate : tree.locate (documentPath p.project) =
    .ok (p.documentPlace tree)) (hplace : tree.get? (p.documentPlace tree) ≠ some .directory) :
    (write (documentPath p.project) workflow.document).run tree =
      .ok () (p.withDocument tree workflow) := by
  rw [run_write, hlocate]
  exact if_neg hplace

lemma of_run_write_document
    (h : (write (documentPath p.project) workflow.document).run tree = .ok () after) :
    tree.locate (documentPath p.project) = .ok (p.documentPlace tree) ∧
      tree.get? (p.documentPlace tree) ≠ some .directory ∧
      after = p.withDocument tree workflow := by
  rw [run_write] at h
  cases hlocate : tree.locate (documentPath p.project) with
  | error f =>
    rw [hlocate] at h
    cases h
  | ok place =>
    obtain rfl := FileTree.eq_placeOf_of_locate hlocate
    simp only [hlocate] at h
    split at h
    · cases h
    next hplace =>
    cases h
    exact ⟨rfl, hplace, rfl⟩

/-- The course of a preparation that succeeds: first the directories of the project are made, then
the document is written, then the directories of the workspace are made. -/
structure Course (p : Preparation) (before made : FileTree) (workflow : Workflow)
    (after : FileTree) : Prop where
  workflow_eq : ∃ capacity, p.catalog.lookup p.cluster = .ok capacity ∧ workflow =
    .ofCapacity p.options.program p.cluster capacity p.options.account p.options.setup
  run_project : (makeDirectories p.project).run before = .ok () made
  locate_document : made.locate (documentPath p.project) = .ok (p.documentPlace made)
  document_ne_directory : made.get? (p.documentPlace made) ≠ some .directory
  run_output : (makeDirectories (outputPath p.project p.cluster)).run
    (p.withDocument made workflow) = .ok () after

lemma run_eq_ok_iff_exists_course :
    p.run.run before = .ok workflow after ↔ ∃ made, p.Course before made workflow after := by
  rw [run, run_prepare_eq_ok_iff]
  constructor
  · rintro ⟨capacity, made, written, hlookup, hworkflow, hproject, hdocument, houtput⟩
    obtain ⟨hlocate, hplace, rfl⟩ := of_run_write_document hdocument
    exact ⟨made, ⟨capacity, hlookup, hworkflow⟩, hproject, hlocate, hplace, houtput⟩
  · rintro ⟨made, ⟨capacity, hlookup, hworkflow⟩, hproject, hlocate, hplace, houtput⟩
    exact ⟨capacity, made, _, hlookup, hworkflow, hproject, run_write_document hlocate hplace,
      houtput⟩

namespace Course

variable (h : p.Course before made workflow after)

include h

lemma keeps_withDocument : made.KeepsDirectories (p.withDocument made workflow) :=
  FileTree.keepsDirectories_put h.document_ne_directory

lemma keeps_made : made.KeepsDirectories after :=
  h.keeps_withDocument.trans
    (addsDirectories_of_run_makeDirectories h.run_output).keepsDirectories

lemma workingDirectory_made : made.workingDirectory = before.workingDirectory :=
  (addsDirectories_of_run_makeDirectories h.run_project).workingDirectory_eq

lemma workingDirectory_eq : after.workingDirectory = before.workingDirectory :=
  h.keeps_made.workingDirectory_eq.trans h.workingDirectory_made

lemma isProper_made (hbefore : before.IsProper) : made.IsProper :=
  (of_run_makeDirectories hbefore h.run_project).1

lemma isProper_withDocument (hbefore : before.IsProper) :
    (p.withDocument made workflow).IsProper :=
  isProper_of_run_write (h.isProper_made hbefore)
    (run_write_document h.locate_document h.document_ne_directory)

lemma locate_document_after :
    after.locate (documentPath p.project) = .ok (p.documentPlace made) :=
  FileTree.locate_of_keepsDirectories h.keeps_made h.locate_document

/-- The document stays as it was written, since making directories changes no file. -/
lemma get?_document :
    after.get? (p.documentPlace made) = some (.file (Text.Utf8.encode workflow.document)) := by
  have hwritten : (p.withDocument made workflow).get? (p.documentPlace made) =
      some (.file (Text.Utf8.encode workflow.document)) :=
    FileTree.get?_put_self (FileTree.ne_nil_of_get?_ne_directory h.document_ne_directory)
  rcases (addsDirectories_of_run_makeDirectories h.run_output).get?_eq (p.documentPlace made)
    with hsame | ⟨hnone, -⟩
  · exact hsame.trans hwritten
  · cases hnone.symm.trans hwritten

end Course

/-- What a preparation leaves: the document at its place, directories on the ways to the project and
to the directory that actions run on, and everything else as it was. Unless the cluster has the name
of an absolute path, the way to the project is a part of the other one. -/
structure Prepared (p : Preparation) (before : FileTree) (workflow : Workflow)
    (after : FileTree) : Prop where
  workflow_eq : ∃ capacity, p.catalog.lookup p.cluster = .ok capacity ∧ workflow =
    .ofCapacity p.options.program p.cluster capacity p.options.account p.options.setup
  node?_document :
    after.node? (documentPath p.project) = some (.file (Text.Utf8.encode workflow.document))
  isDirectory_output : after.isDirectory (outputPath p.project p.cluster) = true
  workingDirectory_eq : after.workingDirectory = before.workingDirectory
  get?_eq : ∀ place, after.get? place =
    if place = p.documentPlace before then some (.file (Text.Utf8.encode workflow.document))
    else if place ∈ p.directories before then some .directory
    else before.get? place
  parents : Path.isAbsolute p.cluster = false →
    before.wayOf p.project ⊆ before.wayOf (outputPath p.project p.cluster)

lemma wayOf_project_subset (h : Path.isAbsolute p.cluster = false) (tree : FileTree) :
    tree.wayOf p.project ⊆ tree.wayOf (outputPath p.project p.cluster) :=
  List.Subset.trans (FileTree.wayOf_subset_join h tree p.project)
    (FileTree.wayOf_subset_join (by decide) tree _)

lemma Course.get?_eq (h : p.Course before made workflow after) (hbefore : before.IsProper)
    (place : Location) : after.get? place =
      if place = p.documentPlace before then some (.file (Text.Utf8.encode workflow.document))
      else if place ∈ p.directories before then some .directory
      else before.get? place := by
  have hdocument := documentPlace_eq (p := p) h.workingDirectory_made
  have hworking : (p.withDocument made workflow).workingDirectory = before.workingDirectory :=
    h.workingDirectory_made
  by_cases hplace : place = p.documentPlace before
  · rw [if_pos hplace, hplace, ← hdocument]
    exact h.get?_document
  · have hwritten : (p.withDocument made workflow).get? place = made.get? place :=
      FileTree.get?_put_of_ne (hdocument ▸ hplace)
    rw [if_neg hplace,
      get?_of_run_makeDirectories (h.isProper_withDocument hbefore) h.run_output, hwritten,
      get?_of_run_makeDirectories hbefore h.run_project, FileTree.wayOf_eq hworking, directories]
    by_cases houtput : place ∈ before.wayOf (outputPath p.project p.cluster)
    · rw [if_pos houtput, if_pos (List.mem_append_right _ houtput)]
    · simp only [List.mem_append, houtput, if_false, or_false]

lemma Course.get?_of_mem_directories (h : p.Course before made workflow after)
    (hbefore : before.IsProper) {place : Location} (hplace : place ∈ p.directories before) :
    after.get? place = some .directory := by
  have hworking : (p.withDocument made workflow).workingDirectory = before.workingDirectory :=
    h.workingDirectory_made
  rcases List.mem_append.1 hplace with hproject | houtput
  · apply h.keeps_made.get?_eq
    rw [get?_of_run_makeDirectories hbefore h.run_project, if_pos hproject]
  · rw [← FileTree.wayOf_eq hworking] at houtput
    rw [get?_of_run_makeDirectories (h.isProper_withDocument hbefore) h.run_output,
      if_pos houtput]

lemma Course.prepared (h : p.Course before made workflow after) (hbefore : before.IsProper) :
    p.Prepared before workflow after where
  workflow_eq := h.workflow_eq
  node?_document := FileTree.node?_eq_some_iff.2 ⟨_, h.locate_document_after, h.get?_document⟩
  isDirectory_output := (of_run_makeDirectories (h.isProper_withDocument hbefore) h.run_output).2
    (outputPath_ne_empty _ _)
  workingDirectory_eq := h.workingDirectory_eq
  get?_eq := h.get?_eq hbefore
  parents hcluster := wayOf_project_subset hcluster before

/-- A preparation that is repeated at once finds its directories and writes the same document. -/
lemma Course.run_again (h : p.Course before made workflow after) (hbefore : before.IsProper) :
    p.run.run after = .ok workflow (p.withDocument after workflow) := by
  have hplace : p.documentPlace after = p.documentPlace made :=
    documentPlace_eq h.keeps_made.workingDirectory_eq
  have hfile : after.get? (p.documentPlace after) ≠ some .directory := by
    rw [hplace, h.get?_document]
    exact nofun
  refine run_eq_ok_iff_exists_course.2 ⟨after, {
    workflow_eq := h.workflow_eq
    run_project := run_makeDirectories_again hbefore h.run_project h.keeps_made
    locate_document := by rw [hplace, h.locate_document_after]
    document_ne_directory := hfile
    run_output := run_makeDirectories_again (h.isProper_withDocument hbefore) h.run_output
      (FileTree.keepsDirectories_put hfile) }⟩

lemma Course.get?_withDocument (h : p.Course before made workflow after) (place : Location) :
    (p.withDocument after workflow).get? place = after.get? place := by
  have hdocument : p.documentPlace after = p.documentPlace made :=
    documentPlace_eq h.keeps_made.workingDirectory_eq
  have hroot := FileTree.ne_nil_of_get?_ne_directory h.document_ne_directory
  by_cases hplace : place = p.documentPlace after
  · rw [hplace, withDocument, hdocument, FileTree.get?_put_self hroot, h.get?_document]
  · exact FileTree.get?_put_of_ne hplace

/-! ## Preparations of any outcome -/

/-- Whether the cluster is one that the catalog does not have. -/
def IsUnknown (p : Preparation) : Prop :=
  p.catalog.find? p.cluster = none

/-- A cluster that is not known is reported before any file is touched. -/
lemma IsUnknown.run (h : p.IsUnknown) (tree : FileTree) :
    p.run.run tree = .error (.unsupportedCluster p.cluster) tree := by
  have hlookup : p.catalog.lookup p.cluster = .error (.unsupportedCluster p.cluster) := by
    rw [Catalog.lookup, h]
  rw [Preparation.run, prepare, run_bind, run_ofExcept, hlookup]

lemma IsUnknown.after_run (h : p.IsUnknown) (tree : FileTree) : p.run.after tree = tree := by
  rw [Files.after, h.run]

/-- What a preparation changes, whether it succeeds or fails on the way. -/
lemma changesAt_after (p : Preparation) (tree : FileTree) :
    FileTree.ChangesAt (p.documentPlace tree) tree (p.run.after tree) := by
  have hmake (path : String) (between : FileTree)
      (h : FileTree.ChangesAt (p.documentPlace tree) tree between) :
      FileTree.ChangesAt (p.documentPlace tree) tree ((makeDirectories path).after between) :=
    h.trans ((addsDirectories_makeDirectories path between).changesAt _)
  have hrefl := (FileTree.AddsDirectories.refl tree).changesAt (p.documentPlace tree)
  rw [run, prepare]
  refine of_after_bind (by rwa [after_ofExcept]) fun capacity between _ hbetween => ?_
  refine of_after_bind (hmake _ _ hbetween) fun _ made _ hmade => ?_
  refine of_after_bind ?_ fun _ written _ hwritten =>
    of_after_bind (hmake _ _ hwritten) fun _ _ _ hdone => hdone
  have hdocument := changesAt_write (documentPath p.project) (Workflow.ofCapacity p.options.program
    p.cluster capacity p.options.account p.options.setup).document made
  rw [FileTree.placeOf_eq hmade.keeps.workingDirectory_eq] at hdocument
  exact hmade.trans hdocument

lemma isProper_after (p : Preparation) (h : tree.IsProper) : (p.run.after tree).IsProper := by
  rw [run, prepare]
  refine of_after_bind (by rwa [after_ofExcept]) fun capacity _ _ hbetween => ?_
  refine of_after_bind (isProper_makeDirectories hbetween _) fun _ _ _ hmade => ?_
  refine of_after_bind (isProper_write hmade _ _) fun _ _ _ hwritten => ?_
  exact of_after_bind (isProper_makeDirectories hwritten _) fun _ _ _ hdone => hdone

/-! ## Preparations one after the other -/

/-- The files after some preparations, whether these succeed or not. -/
def afterAll (ps : List Preparation) (tree : FileTree) : FileTree :=
  ps.foldl (fun tree p => p.run.after tree) tree

lemma afterAll_append_cons (earlier later : List Preparation) (p : Preparation)
    (tree : FileTree) :
    afterAll (earlier ++ p :: later) tree =
      afterAll later (p.run.after (afterAll earlier tree)) := by
  rw [afterAll, List.foldl_append, List.foldl_cons]
  rfl

lemma isProper_afterAll (h : tree.IsProper) (ps : List Preparation) :
    (afterAll ps tree).IsProper := by
  induction ps generalizing tree with
  | nil => exact h
  | cons p ps ih => exact ih (isProper_after p h)

lemma keeps_afterAll (ps : List Preparation) (tree : FileTree) :
    tree.KeepsDirectories (afterAll ps tree) := by
  induction ps generalizing tree with
  | nil => exact (FileTree.AddsDirectories.refl tree).keepsDirectories
  | cons p ps ih => exact (changesAt_after p tree).keeps.trans (ih _)

/-- A file is as it was unless one of the preparations writes its document there. -/
lemma get?_afterAll_of_file {ps : List Preparation} {place : Location} {content : List UInt8}
    (hplace : ∀ p ∈ ps, p.IsUnknown ∨ p.documentPlace tree ≠ place)
    (hfile : tree.get? place = some (.file content)) :
    (afterAll ps tree).get? place = some (.file content) := by
  induction ps generalizing tree with
  | nil => exact hfile
  | cons p ps ih =>
    obtain ⟨hfirst, hrest⟩ := List.forall_mem_cons.1 hplace
    have hchanges := changesAt_after p tree
    have hworking := hchanges.keeps.workingDirectory_eq
    refine ih (fun q hq => ?_) ?_
    · rw [documentPlace_eq hworking]
      exact hrest q hq
    · rcases hfirst with hunknown | hother
      · simpa only [hunknown.after_run] using hfile
      · exact hchanges.get?_of_file hother.symm hfile

/-- Preparing projects one after the other, whatever the files are and whether the preparations
before and after succeed.

A preparation for a cluster that is not in its catalog reports that and changes nothing. One that
succeeds leaves what `Prepared` says. If it is repeated at once, it succeeds with the same workflow
and changes nothing. After later preparations all directories of the project and its workspace are
there, and the document is the one that was written, unless there was a later preparation of the
same project for a known cluster. -/
theorem preparations_spec (htree : tree.IsProper) (earlier later : List Preparation)
    (p : Preparation) :
    (p.IsUnknown → p.run.run (afterAll earlier tree) =
      .error (.unsupportedCluster p.cluster) (afterAll earlier tree)) ∧
    ∀ workflow after, p.run.run (afterAll earlier tree) = .ok workflow after →
      p.Prepared (afterAll earlier tree) workflow after ∧
      (∃ again, p.run.run after = .ok workflow again ∧
        again.workingDirectory = after.workingDirectory ∧
        ∀ place, again.get? place = after.get? place) ∧
      ∃ last, afterAll (earlier ++ p :: later) tree = last ∧
        (∀ place ∈ p.directories tree, last.get? place = some .directory) ∧
        last.isDirectory (outputPath p.project p.cluster) = true ∧
        ((∀ q ∈ later, q.IsUnknown ∨ q.documentPlace tree ≠ p.documentPlace tree) →
          last.node? (documentPath p.project) =
            some (.file (Text.Utf8.encode workflow.document))) := by
  refine ⟨fun hunknown => hunknown.run _, fun workflow after hrun => ?_⟩
  obtain ⟨made, hcourse⟩ := run_eq_ok_iff_exists_course.1 hrun
  -- Earlier preparations leave a proper tree in which paths start where they started.
  have hbefore := isProper_afterAll htree earlier
  have hprepared := hcourse.prepared hbefore
  have hworking := (keeps_afterAll earlier tree).workingDirectory_eq
  have hplace : p.documentPlace made = p.documentPlace tree :=
    documentPlace_eq (hcourse.workingDirectory_made.trans hworking)
  have hlater := keeps_afterAll later after
  refine ⟨hprepared, ⟨_, hcourse.run_again hbefore, rfl, hcourse.get?_withDocument⟩,
    afterAll later after, ?_, fun place hmem => ?_, hlater.isDirectory hprepared.isDirectory_output,
    fun hothers => ?_⟩
  · rw [afterAll_append_cons, Files.after, hrun]
  · rw [← directories_eq hworking] at hmem
    exact hlater.get?_eq place (hcourse.get?_of_mem_directories hbefore hmem)
  · -- the document is still a file, and where it lies the later preparations write nothing
    refine FileTree.node?_eq_some_iff.2 ⟨p.documentPlace made,
      FileTree.locate_of_keepsDirectories hlater hcourse.locate_document_after,
      get?_afterAll_of_file (fun q hq => ?_) hcourse.get?_document⟩
    rw [documentPlace_eq (hcourse.workingDirectory_eq.trans hworking), hplace]
    exact hothers q hq

/-- A project for one of two clusters. -/
def projectFor (cluster : String) : Preparation where
  catalog := (Catalog.empty.define "small" ⟨1, 0, .none, true⟩).define "large" ⟨2, 1, .amd, false⟩
  cluster := cluster
  project := "project"
  options := ⟨"bindcheck", none, none⟩

lemma exists_run_projectFor_large : ∃ workflow after, (projectFor "large").run.run
    (afterAll [projectFor "small"] ⟨[], []⟩) = .ok workflow after := by
  have hsucceeds : ((projectFor "large").run.result
      (afterAll [projectFor "small"] ⟨[], []⟩)).isOk = true := by decide +kernel
  cases hresult : (projectFor "large").run.result (afterAll [projectFor "small"] ⟨[], []⟩) with
  | error e =>
    rw [hresult] at hsucceeds
    cases hsucceeds
  | ok workflow => exact ⟨workflow, _, run_eq_ok_iff.2 ⟨hresult, rfl⟩⟩

/-- A project that was prepared for two clusters, and then for one that is not known, has the
document of the second one. -/
theorem preparations_spec_of_two_clusters : ∃ workflow after,
    (projectFor "large").run.run (afterAll [projectFor "small"] ⟨[], []⟩) = .ok workflow after ∧
    (projectFor "missing").run.run after = .error (.unsupportedCluster "missing") after ∧
    (afterAll [projectFor "small", projectFor "large", projectFor "missing"] ⟨[], []⟩).node?
      "project/workflow.toml" = some (.file (Text.Utf8.encode workflow.document)) := by
  have htree : FileTree.IsProper ⟨[], []⟩ := by decide
  have hunknown : (projectFor "missing").IsUnknown := by
    show (projectFor "missing").catalog.find? "missing" = none
    decide +kernel
  have hpath : documentPath (projectFor "large").project = "project/workflow.toml" := by
    decide +kernel
  have htwo (later : List Preparation) :
      [projectFor "small"] ++ projectFor "large" :: later =
        projectFor "small" :: projectFor "large" :: later := rfl
  obtain ⟨workflow, after, hrun⟩ := exists_run_projectFor_large
  obtain ⟨-, hspec⟩ := preparations_spec htree [projectFor "small"] [projectFor "missing"]
    (projectFor "large")
  obtain ⟨-, -, last, hlast, -, -, hdocument⟩ := hspec workflow after hrun
  refine ⟨workflow, after, hrun, ?_, ?_⟩
  · have hafter : afterAll [projectFor "small", projectFor "large"] ⟨[], []⟩ = after := by
      rw [← htwo, afterAll_append_cons, Files.after, hrun]
      exact Eq.refl after
    have hmissing := (preparations_spec htree [projectFor "small", projectFor "large"] []
      (projectFor "missing")).1 hunknown
    rw [hafter] at hmissing
    exact hmissing
  · rw [← htwo, hlast, ← hpath]
    refine hdocument fun q hq => .inl ?_
    rw [List.mem_singleton.1 hq]
    exact hunknown

end Preparation

end Project

end JobBinding

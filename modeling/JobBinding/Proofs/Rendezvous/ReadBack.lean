import JobBinding.Proofs.Rendezvous.Place

/-!
# Reading what was published

A record is published exactly if there is room for it (`result_publish_iff`): the directories above
the file can be made, and no directory is where the file or its draft is to be. Then the file has
the text of the record, whatever it had before, and everyone whose path leads there reads the record
if it is one of the own job, and none otherwise (`published_spec`). Keys that become equal when
characters are replaced lead to one file, so this is where the job in the record counts.
-/

namespace JobBinding.Rendezvous

open Files

variable {r reader : Rendezvous} {record : Record} {tree tree' : FileTree} {place draft : Location}

/-! ## When a record is published -/

/-- Whether there is room for the file of a process: the directories above it can be made, and then
its path and that of its draft can be followed and lead to no directory. -/
def HasRoom (r : Rendezvous) (tree : FileTree) : Prop :=
  ∃ tree' place draft, (makeParents r.path).run tree = .ok () tree' ∧ r.Accepts tree' place draft

lemma Accepts.hasRoom (h : r.Accepts tree place draft) : r.HasRoom tree :=
  ⟨tree, place, draft, run_makeParents_of_locate h.locate_path, h⟩

/-- What publishing leaves if there is room: the directories, no draft, and the text of the record
at the place of the file. -/
lemma HasRoom.exists_run_publish (h : r.HasRoom tree) :
    ∃ made place draft, r.Accepts made place draft ∧ ∀ record : Record,
      (r.publish record).run tree =
        .ok () ((made.erase draft).put place (.file (Text.Utf8.encode record.render))) := by
  obtain ⟨made, place, draft, hparents, haccepts⟩ := h
  refine ⟨made, place, draft, haccepts, fun record => ?_⟩
  have hagain := run_makeParents_of_locate haccepts.locate_path
  exact (run_publish_eq hparents hagain record).trans (haccepts.run_publish record)

theorem result_publish_iff : (r.publish record).result tree = .ok () ↔ r.HasRoom tree := by
  constructor
  · intro h
    exact CanPublish.exists_accepts ⟨record, h⟩
  · intro h
    obtain ⟨made, place, draft, -, hrun⟩ := h.exists_run_publish
    exact result_eq_ok_iff.2 ⟨_, hrun record⟩

/-- What was in the file before leaves no trace. -/
lemma Accepts.run_publish_put (h : r.Accepts tree place draft) (old : List UInt8) :
    (r.publish record).run (tree.put place (.file old)) = (r.publish record).run tree := by
  have hne : place ≠ draft := path_ne_draft h.locate_path h.locate_draft
  have hkeeps : tree.KeepsDirectories (tree.put place (.file old)) :=
    FileTree.keepsDirectories_put h.path_ne_directory
  have hroot := FileTree.ne_nil_of_get?_ne_directory h.path_ne_directory
  have haccepts : r.Accepts (tree.put place (.file old)) place draft := {
    locate_path := FileTree.locate_of_keepsDirectories hkeeps h.locate_path
    path_ne_directory := by
      rw [FileTree.get?_put_self hroot]
      exact nofun
    locate_draft := FileTree.locate_of_keepsDirectories hkeeps h.locate_draft
    draft_ne_directory := by
      rw [FileTree.get?_put_of_ne hne.symm]
      exact h.draft_ne_directory }
  rw [haccepts.run_publish, h.run_publish, FileTree.erase_put_of_ne hne, FileTree.put_put]

/-! ## What is read -/

/-- The text of a record means the record to its own job, and nothing to others. -/
lemma interpret_render (reader : Rendezvous) (record : Record) :
    reader.interpret (Text.Utf8.encode record.render) =
      .ok (if record.job = reader.job then some record else none) := by
  rw [interpret, Record.ofBytes_render]
  rfl

lemma run_read_of_record (hlocate : tree.locate reader.path = .ok place)
    (hplace : tree.get? place = some (.file (Text.Utf8.encode record.render))) :
    reader.read.run tree = .ok (if record.job = reader.job then some record else none) tree := by
  rw [run_read, hlocate]
  simp only [hplace, interpret_render]

lemma run_read_of_vacant (hlocate : tree.locate reader.path = .ok place)
    (hplace : tree.get? place = none) : reader.read.run tree = .ok none tree := by
  rw [run_read, hlocate]
  simp only [hplace]

/-- A file is removed by everyone whose path leads to it. -/
lemma after_remove_of_file {content : List UInt8} (hlocate : tree.locate r.path = .ok place)
    (hplace : tree.get? place = some (.file content)) : r.remove.after tree = tree.erase place := by
  rw [after, run_remove, after, Files.run_remove, hlocate]
  simp only [hplace]

/-! ## Both -/

/-- Publishing, reading and removing a record, in whatever tree.

A record is published exactly if there is room for the file, which does not depend on the record.
There is room if both paths can be followed and lead to no directory, and then what was in the file
before makes no difference to what publishing does. After it, everyone whose path leads to the file
reads the record if it is one of the own job, and none otherwise; nothing is changed by this. After
someone whose path leads there has removed the file, everyone reads none. -/
theorem published_spec (r : Rendezvous) (record : Record) (tree : FileTree) :
    ((r.publish record).result tree = .ok () ↔ r.HasRoom tree) ∧
    (∀ place draft, r.Accepts tree place draft → r.HasRoom tree ∧ ∀ old : List UInt8,
      (r.publish record).run (tree.put place (.file old)) = (r.publish record).run tree) ∧
    ∀ tree', (r.publish record).run tree = .ok () tree' → ∀ reader remover : Rendezvous,
      tree'.locate reader.path = tree'.locate r.path →
      tree'.locate remover.path = tree'.locate r.path →
        reader.read.run tree' = .ok (if record.job = reader.job then some record else none) tree' ∧
        reader.read.run (remover.remove.after tree') = .ok none (remover.remove.after tree') := by
  refine ⟨result_publish_iff, fun place draft h => ⟨h.hasRoom, h.run_publish_put⟩, ?_⟩
  intro tree' hrun reader remover hreader hremover
  -- Only where the paths lead counts from here on, so they may be spelled in several ways.
  obtain ⟨place, hlocate, hplace⟩ := FileTree.node?_eq_some_iff.1 (node?_of_run_publish hrun)
  rw [hlocate] at hreader hremover
  have hfile : tree'.get? place ≠ some .directory := by
    rw [hplace]
    exact nofun
  have hremoved : (tree'.erase place).locate reader.path = .ok place :=
    FileTree.locate_of_keepsDirectories (FileTree.keepsDirectories_erase hfile) hreader
  have hvacant : (tree'.erase place).get? place = none :=
    FileTree.get?_erase_self (FileTree.ne_nil_of_get?_ne_directory hfile)
  refine ⟨run_read_of_record hreader hplace, ?_⟩
  rw [after_remove_of_file hremover hplace]
  exact run_read_of_vacant hremoved hvacant

/-- A record with the largest numbers and with texts that have to be escaped. -/
def escapedRecord : Record :=
  ⟨"1/2", "a\"b\\c\né", 65535, 4294967295,
    ⟨9223372036854775807, 999999999, by decide, by decide⟩, some "\x01"⟩

/-- A record for which there is room in a directory that is still missing. The jobs `1/2` and `1_2`
have one file; the second one reads nothing in it, but can remove it. -/
theorem published_spec_of_escaped :
    ∃ tree', ((⟨"runs", "mpi", "1/2"⟩ : Rendezvous).publish escapedRecord).run ⟨[], []⟩ =
        .ok () tree' ∧
      (⟨"runs", "mpi", "1/2"⟩ : Rendezvous).read.result tree' = .ok (some escapedRecord) ∧
      (⟨"runs", "mpi", "1_2"⟩ : Rendezvous).read.result tree' = .ok none ∧
      (⟨"runs", "mpi", "1/2"⟩ : Rendezvous).read.result
        ((⟨"runs", "mpi", "1_2"⟩ : Rendezvous).remove.after tree') = .ok none := by
  obtain ⟨-, -, hread⟩ := published_spec ⟨"runs", "mpi", "1/2"⟩ escapedRecord ⟨[], []⟩
  have hresult : ((⟨"runs", "mpi", "1/2"⟩ : Rendezvous).publish escapedRecord).result ⟨[], []⟩ =
      .ok () := eq_ok_of_isOk (by decide +kernel)
  have hpath : (⟨"runs", "mpi", "1_2"⟩ : Rendezvous).path =
      (⟨"runs", "mpi", "1/2"⟩ : Rendezvous).path := by decide +kernel
  obtain ⟨tree', hrun⟩ := result_eq_ok_iff.1 hresult
  obtain ⟨hown, hremoved⟩ :=
    hread tree' hrun ⟨"runs", "mpi", "1/2"⟩ ⟨"runs", "mpi", "1_2"⟩ rfl (by rw [hpath])
  obtain ⟨hother, -⟩ :=
    hread tree' hrun ⟨"runs", "mpi", "1_2"⟩ ⟨"runs", "mpi", "1_2"⟩ (by rw [hpath]) (by rw [hpath])
  exact ⟨tree', hrun, (run_eq_ok_iff.1 hown).1, (run_eq_ok_iff.1 hother).1,
    (run_eq_ok_iff.1 hremoved).1⟩

end JobBinding.Rendezvous

import JobBinding.Rendezvous.File
import JobBinding.Proofs.Except
import JobBinding.Proofs.Files.Content
import JobBinding.Proofs.Rendezvous.Record

/-!
# What rendezvous files do to a tree

Several jobs can share a rendezvous file, so nothing is said about which record is in it. Publishing
adds no content but the text of the record (`keeps_publish`), removing adds none (`keeps_remove`),
and a process reads only what some file contains and what names its own job (`exists_of_read`).
-/

namespace JobBinding.Rendezvous

open Files

variable {P : List UInt8 → Prop} {tree : FileTree} {r : Rendezvous} {record : Record}

lemma keeps_publish (hrecord : P (Text.Utf8.encode record.render)) :
    Keeps P (r.publish record) := by
  have hparents : Keeps P (makeParents r.path) := keeps_makeParents r.path
  have hwrite : Keeps P (write r.draft record.render) := keeps_write hrecord
  have hrename : Keeps P (rename r.draft r.path) := keeps_rename r.draft r.path
  exact hparents.bind fun _ => hwrite.bind fun _ => hrename

/-- Removing the file never fails, and leaves what removing a file leaves. -/
lemma run_remove : r.remove.run tree = .ok () ((Files.remove r.path).after tree) := by
  rw [remove, run_tryCatch, after]
  cases (Files.remove r.path).run tree <;> rfl

lemma keeps_remove : Keeps P r.remove := by
  intro tree h
  rw [after, run_remove]
  exact Files.keeps_remove r.path tree h

/-- Only a record of the own job counts. -/
lemma interpret_eq_ok_some_iff {content : List UInt8} :
    r.interpret content = .ok (some record) ↔
      Record.ofBytes content = .ok record ∧ record.job = r.job := by
  rw [interpret, bind_eq_ok_iff]
  constructor
  · rintro ⟨other, hother, h⟩
    by_cases hjob : other.job = r.job
    · rw [if_pos hjob] at h
      cases h
      exact ⟨hother, hjob⟩
    · rw [if_neg hjob] at h
      cases h
  · rintro ⟨hrecord, hjob⟩
    exact ⟨record, hrecord, by rw [if_pos hjob]; rfl⟩

lemma run_read : r.read.run tree = match tree.locate r.path with
    | .error .notFound => .ok none tree
    | .error f => .error (.file f) tree
    | .ok place => match tree.get? place with
      | none => .ok none tree
      | some .directory => .error (.undecodable "a directory") tree
      | some (.file content) => match r.interpret content with
        | .ok found => .ok found tree
        | .error e => .error e tree := by
  simp only [read, run_bind, run_get]
  cases tree.locate r.path with
  | error f => cases f <;> rfl
  | ok place =>
    simp only [run_bind, run_get]
    rcases tree.get? place with _ | _ | content
    · rfl
    · rfl
    · simp only [run_ofExcept]
      cases r.interpret content <;> rfl

/-- Reading changes nothing. -/
lemma after_read : r.read.after tree = tree := by
  rw [after, run_read]
  rcases tree.locate r.path with f | place
  · cases f <;> rfl
  · rcases hplace : tree.get? place with _ | _ | content
    · simp only [hplace]
    · simp only [hplace]
    · cases hinterpret : r.interpret content <;> simp only [hplace, hinterpret]

/-- A record that is read is in a file and is one of the own job. -/
lemma exists_of_read (h : r.read.result tree = .ok (some record)) :
    ∃ place content, tree.get? place = some (.file content) ∧
      Record.ofBytes content = .ok record ∧ record.job = r.job := by
  rw [result, run_read] at h
  cases hlocate : tree.locate r.path with
  | error f =>
    rw [hlocate] at h
    cases f <;> cases h
  | ok place =>
    rcases hplace : tree.get? place with _ | _ | content
    · simp only [hlocate, hplace] at h
      cases h
    · simp only [hlocate, hplace] at h
      cases h
    -- The file was there; that it was taken for this job's record tells the job it names.
    · cases hinterpret : r.interpret content with
      | error e =>
        simp only [hlocate, hplace, hinterpret] at h
        cases h
      | ok found =>
        simp only [hlocate, hplace, hinterpret, Except.ok.injEq] at h
        rw [h] at hinterpret
        exact ⟨place, content, hplace, interpret_eq_ok_some_iff.1 hinterpret⟩

/-- After publishing, the path leads to a file with the text of the record. -/
lemma node?_of_run_publish {tree' : FileTree} (h : (r.publish record).run tree = .ok () tree') :
    tree'.node? r.path = some (.file (Text.Utf8.encode record.render)) := by
  rw [publish, run_bind] at h
  cases hparents : (makeParents r.path).run tree with
  | error e tree₁ =>
    rw [hparents] at h
    cases h
  | ok u tree₁ =>
    simp only [hparents, run_bind] at h
    cases hwrite : (write r.draft record.render).run tree₁ with
    | error e tree₂ =>
      rw [hwrite] at h
      cases h
    | ok u tree₂ =>
      rw [hwrite] at h
      exact node?_of_run_rename h (node?_of_run_write hwrite)

/-- What a coordinator has published is what the processes of its job read, as long as nothing else
happens to the files. -/
theorem read_of_publish {tree' : FileTree} (h : (r.publish record).run tree = .ok () tree')
    (hjob : record.job = r.job) : r.read.run tree' = .ok (some record) tree' := by
  obtain ⟨goal, hlocate, hgoal⟩ := FileTree.node?_eq_some_iff.1 (node?_of_run_publish h)
  have hinterpret : r.interpret (Text.Utf8.encode record.render) = .ok (some record) :=
    interpret_eq_ok_some_iff.2 ⟨Record.ofBytes_render record, hjob⟩
  rw [run_read, hlocate]
  simp only [hgoal, hinterpret]

end JobBinding.Rendezvous

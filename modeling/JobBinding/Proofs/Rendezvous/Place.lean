import JobBinding.Proofs.Files.Siblings
import JobBinding.Proofs.Rendezvous.File

/-!
# What a process finds in its rendezvous file

The paths of a rendezvous file and of its draft begin alike for all jobs of one action in one
directory, and end with the job. `Shows` says that the directory is there and that the file shows
what is known, a record or nothing. A process that can publish comes to that by publishing
(`run_publish_of_canPublish`), whatever was in the file before, and it keeps to that when it
publishes again or removes the file (`Shows.publish`, `Shows.remove`).
-/

namespace JobBinding.Rendezvous

open Files

variable {r other : Rendezvous} {known : Option Record} {record : Record}
  {tree tree' : FileTree} {place draft : Location}

/-! ## Paths -/

/-- What the paths of all jobs begin with. -/
def front (r : Rendezvous) : String :=
  Path.join r.directory ("." ++ r.action ++ ".")

/-- How the path of the file ends for a job. -/
def tail (r : Rendezvous) : String :=
  sanitize r.job ++ ".rendezvous.json"

lemma front_ne_empty (r : Rendezvous) : r.front ≠ "" := by
  unfold front Path.join
  intro h
  have h := congrArg String.toList h
  split at h
  · simp at h
  · split at h <;> simp at h

lemma isAbsolute_dot (rest : String) : Path.isAbsolute ("." ++ rest) = false := by
  rw [Path.isAbsolute, String.toList_append]
  rfl

lemma path_eq (r : Rendezvous) : r.path = r.front ++ r.tail := by
  have hname : r.fileName = "." ++ r.action ++ "." ++ r.tail := by
    rw [fileName, tail]
    simp only [String.append_assoc]
  have habsolute (rest : String) :
      Path.isAbsolute ("." ++ r.action ++ "." ++ rest) = false := by
    rw [String.append_assoc, String.append_assoc]
    exact isAbsolute_dot _
  have hfront := habsolute ""
  rw [String.append_empty] at hfront
  rw [path, hname, front, Path.join, Path.join, habsolute, hfront]
  split
  · rfl
  · split <;> simp only [String.append_assoc]

lemma draft_eq (r : Rendezvous) : r.draft = r.front ++ (r.tail ++ ".tmp") := by
  rw [draft, path_eq, String.append_assoc]

lemma slash_notMem_sanitize (job : String) : '/' ∉ (sanitize job).toList := by
  rw [sanitize, String.toList_ofList, List.mem_map]
  rintro ⟨c, -, hc⟩
  split at hc
  · next hplain =>
    rw [hc] at hplain
    revert hplain
    decide
  · revert hc
    decide

lemma isTail_tail (r : Rendezvous) : Path.IsTail r.tail where
  slash_notMem := by
    rw [tail, String.toList_append, List.mem_append, not_or]
    exact ⟨slash_notMem_sanitize r.job, by decide⟩
  two_lt_length := by
    have hending : ".rendezvous.json".toList.length = 16 := rfl
    rw [tail, String.toList_append, List.length_append]
    omega

lemma isTail_draft (r : Rendezvous) : Path.IsTail (r.tail ++ ".tmp") where
  slash_notMem := by
    rw [String.toList_append, List.mem_append, not_or]
    exact ⟨r.isTail_tail.slash_notMem, by decide⟩
  two_lt_length := by
    have := r.isTail_tail.two_lt_length
    rw [String.toList_append, List.length_append]
    omega

/-- The file of a process has another last letter than a draft. -/
lemma tail_ne_draft (r other : Rendezvous) : r.tail ≠ other.tail ++ ".tmp" := by
  intro h
  have hfile : ".rendezvous.json".toList.getLast? = some 'n' := rfl
  have hdraft : ".tmp".toList.getLast? = some 'p' := rfl
  have hlast := congrArg (fun text => text.toList.getLast?) h
  simp only [tail, String.toList_append, List.getLast?_append, hfile, hdraft, Option.some_or,
    Option.some.injEq] at hlast
  revert hlast
  decide

lemma tail_eq_iff : r.tail = other.tail ↔ sanitize r.job = sanitize other.job := by
  rw [tail, tail, String.append_left_inj]

lemma path_ne_draft {place place' : Location} (h : tree.locate r.path = .ok place)
    (h' : tree.locate r.draft = .ok place') : place ≠ place' := by
  rw [path_eq] at h
  rw [draft_eq] at h'
  exact FileTree.locate_ne r.front_ne_empty r.isTail_tail r.isTail_draft (tail_ne_draft r r) h h'

/-- Jobs with one directory and one action need the same directories. -/
lemma makeParents_path_eq (hfront : r.front = other.front) :
    makeParents r.path = makeParents other.path := by
  rw [path_eq, path_eq, hfront]
  exact makeParents_eq other.front_ne_empty r.isTail_tail other.isTail_tail

/-! ## Publishing -/

/-- Whether both paths of a process can be followed, and lead to no directory. -/
structure Accepts (r : Rendezvous) (tree : FileTree) (place draft : Location) : Prop where
  locate_path : tree.locate r.path = .ok place
  path_ne_directory : tree.get? place ≠ some .directory
  locate_draft : tree.locate r.draft = .ok draft
  draft_ne_directory : tree.get? draft ≠ some .directory

/-- Publishing leaves no draft and the text of the record at the path. -/
lemma Accepts.run_publish (h : r.Accepts tree place draft) (record : Record) :
    (r.publish record).run tree =
      .ok () ((tree.erase draft).put place (.file (Text.Utf8.encode record.render))) := by
  let content := Node.file (Text.Utf8.encode record.render)
  -- Writing the draft changes no directory, so both paths lead where they led before.
  have hwrite : (write r.draft record.render).run tree = .ok () (tree.put draft content) := by
    simp only [run_write, h.locate_draft, if_neg h.draft_ne_directory, content]
  have hkeeps : tree.KeepsDirectories (tree.put draft content) :=
    FileTree.keepsDirectories_put h.draft_ne_directory
  have hfile : (tree.put draft content).get? draft = some content :=
    FileTree.get?_put_self (FileTree.ne_nil_of_get?_ne_directory h.draft_ne_directory)
  have hgoal : (tree.put draft content).get? place = tree.get? place :=
    FileTree.get?_put_of_ne (path_ne_draft h.locate_path h.locate_draft)
  have hrename : (rename r.draft r.path).run (tree.put draft content) =
      .ok () ((tree.erase draft).put place content) := by
    rw [run_rename, FileTree.locate_of_keepsDirectories hkeeps h.locate_draft,
      FileTree.locate_of_keepsDirectories hkeeps h.locate_path]
    rcases hother : tree.get? place with _ | _ | _
    · simp only [hfile, hgoal, hother, content, FileTree.erase_put]
    · exact absurd hother h.path_ne_directory
    · simp only [hfile, hgoal, hother, content, FileTree.erase_put]
  rw [publish, run_bind, run_makeParents_of_locate h.locate_path]
  simp only [run_bind, hwrite, hrename, content]

/-- Publishing starts with the directories, so it does not matter whether they are there. -/
lemma run_publish_eq (h : (makeParents r.path).run tree = .ok () tree')
    (h' : (makeParents r.path).run tree' = .ok () tree') (record : Record) :
    (r.publish record).run tree = (r.publish record).run tree' := by
  rw [publish, run_bind, run_bind, h, h']

/-- Whether a process can publish. It does not matter what. -/
def CanPublish (r : Rendezvous) (tree : FileTree) : Prop :=
  ∃ record, (r.publish record).result tree = .ok ()

/-- A process can publish only if its paths can be followed once the directories are made. -/
lemma CanPublish.exists_accepts (h : r.CanPublish tree) :
    ∃ tree' place draft, (makeParents r.path).run tree = .ok () tree' ∧
      r.Accepts tree' place draft := by
  obtain ⟨record, hresult⟩ := h
  obtain ⟨after, hrun⟩ := result_eq_ok_iff.1 hresult
  rw [publish, run_bind] at hrun
  cases hparents : (makeParents r.path).run tree with
  | error e tree' =>
    rw [hparents] at hrun
    cases hrun
  | ok u tree' =>
    simp only [hparents, run_bind, run_write] at hrun
    cases hdraft : tree'.locate r.draft with
    | error f =>
      rw [hdraft] at hrun
      cases hrun
    | ok draft =>
      by_cases hnode : tree'.get? draft = some .directory
      · simp only [hdraft, if_pos hnode] at hrun
        cases hrun
      have hkeeps : tree'.KeepsDirectories
          (tree'.put draft (.file (Text.Utf8.encode record.render))) :=
        FileTree.keepsDirectories_put hnode
      simp only [hdraft, if_neg hnode, run_rename,
        FileTree.locate_of_keepsDirectories hkeeps hdraft] at hrun
      cases hlocate : (tree'.put draft (.file (Text.Utf8.encode record.render))).locate r.path with
      | error f =>
        simp only [hlocate] at hrun
        cases hrun
      | ok place =>
        -- The draft is a file, so the directories were there before it.
        have hbefore := FileTree.locate_of_keepsDirectories
          FileTree.keepsDirectories_of_put_file hlocate
        refine ⟨tree', place, draft, rfl, hbefore, fun hplace => ?_, hdraft, hnode⟩
        have hfile : (tree'.put draft (.file (Text.Utf8.encode record.render))).get? draft =
            some (.file (Text.Utf8.encode record.render)) :=
          FileTree.get?_put_self (FileTree.ne_nil_of_get?_ne_directory hnode)
        simp only [hlocate, hfile, FileTree.get?_put_of_ne (path_ne_draft hbefore hdraft),
          hplace] at hrun
        cases hrun

/-! ## What a process finds -/

/-- Whether a process finds at the path of its file what is known, and can make a draft. -/
structure Shows (r : Rendezvous) (known : Option Record) (tree : FileTree) : Prop where
  path : ∃ place, tree.locate r.path = .ok place ∧
    tree.get? place = known.map fun record => .file (Text.Utf8.encode record.render)
  draft : ∃ place, tree.locate r.draft = .ok place ∧ tree.get? place ≠ some .directory
  own : ∀ record, known = some record → record.job = r.job

lemma Shows.result_read (h : r.Shows known tree) : r.read.result tree = .ok known := by
  obtain ⟨place, hlocate, hplace⟩ := h.path
  rw [result, run_read, hlocate]
  cases known with
  | none => simp only [hplace, Option.map_none]
  | some record =>
    have hinterpret : r.interpret (Text.Utf8.encode record.render) = .ok (some record) :=
      interpret_eq_ok_some_iff.2 ⟨Record.ofBytes_render record, h.own record rfl⟩
    simp only [hplace, Option.map_some, hinterpret]

lemma Shows.exists_accepts (h : r.Shows known tree) :
    ∃ place draft, r.Accepts tree place draft := by
  obtain ⟨place, hlocate, hplace⟩ := h.path
  obtain ⟨draft, hdraft, hnode⟩ := h.draft
  refine ⟨place, draft, hlocate, ?_, hdraft, hnode⟩
  rw [hplace]
  cases known <;> exact nofun

lemma Shows.run_makeParents (h : r.Shows known tree) :
    (makeParents r.path).run tree = .ok () tree := by
  obtain ⟨place, hlocate, -⟩ := h.path
  exact run_makeParents_of_locate hlocate

/-- Publishing leaves the directories that are there. -/
lemma Accepts.keepsDirectories_publish (h : r.Accepts tree place draft) (record : Record) :
    tree.KeepsDirectories ((r.publish record).after tree) := by
  rw [after, h.run_publish record]
  exact (FileTree.keepsDirectories_erase h.draft_ne_directory).trans
    (FileTree.keepsDirectories_put (FileTree.get?_erase_ne_directory h.path_ne_directory))

lemma Accepts.shows_publish (h : r.Accepts tree place draft) (own : record.job = r.job) :
    r.Shows (some record) ((r.publish record).after tree) := by
  have hkeeps := h.keepsDirectories_publish record
  have hne : place ≠ draft := path_ne_draft h.locate_path h.locate_draft
  refine ⟨⟨place, FileTree.locate_of_keepsDirectories hkeeps h.locate_path, ?_⟩,
    ⟨draft, FileTree.locate_of_keepsDirectories hkeeps h.locate_draft, ?_⟩, ?_⟩
  · rw [after, h.run_publish record]
    exact FileTree.get?_put_self (FileTree.ne_nil_of_get?_ne_directory h.path_ne_directory)
  · rw [after, h.run_publish record]
    simp only [FileTree.get?_put_of_ne hne.symm]
    exact FileTree.get?_erase_ne_directory h.draft_ne_directory
  · rintro _ ⟨⟩
    exact own

/-- A process that finds its place can publish, and then it finds its record. -/
lemma Shows.publish (h : r.Shows known tree) (own : record.job = r.job) :
    r.Shows (some record) ((r.publish record).after tree) := by
  obtain ⟨place, draft, haccepts⟩ := h.exists_accepts
  exact haccepts.shows_publish own

lemma Shows.canPublish (h : r.Shows known tree) : r.CanPublish tree := by
  obtain ⟨place, draft, haccepts⟩ := h.exists_accepts
  let record : Record := ⟨r.job, "", 0, 0, ⟨0, 0, by decide, by decide⟩, none⟩
  exact ⟨record, result_eq_ok_iff.2 ⟨_, haccepts.run_publish record⟩⟩

/-- A process that can publish some record can publish each record of its job, whatever is in the
file, and then it finds this record. -/
theorem CanPublish.publish (h : r.CanPublish tree) (own : record.job = r.job) :
    (r.publish record).result tree = .ok () ∧
      r.Shows (some record) ((r.publish record).after tree) := by
  obtain ⟨tree', place, draft, hparents, haccepts⟩ := h.exists_accepts
  have hrun := run_publish_eq hparents (run_makeParents_of_locate haccepts.locate_path) record
  have hshows := haccepts.shows_publish own
  constructor
  · exact result_eq_ok_iff.2 ⟨_, hrun.trans (haccepts.run_publish record)⟩
  · unfold after at hshows ⊢
    rwa [hrun]

/-- A process that removes its file finds nothing then. -/
lemma Shows.remove (h : r.Shows known tree) : r.Shows none (r.remove.after tree) := by
  obtain ⟨place, hlocate, hplace⟩ := h.path
  have hafter : r.remove.after tree = (Files.remove r.path).after tree := by
    rw [after, run_remove]
  rw [hafter, after, Files.run_remove, hlocate]
  cases known with
  | none =>
    simp only [hplace, Option.map_none]
    exact h
  | some record =>
    rw [Option.map_some] at hplace
    have hfile : tree.get? place ≠ some .directory := by
      rw [hplace]
      intro h
      cases h
    have hkeeps : tree.KeepsDirectories (tree.erase place) := FileTree.keepsDirectories_erase hfile
    obtain ⟨draft, hdraft, hnode⟩ := h.draft
    simp only [hplace]
    refine ⟨⟨place, FileTree.locate_of_keepsDirectories hkeeps hlocate,
        FileTree.get?_erase_self (FileTree.ne_nil_of_get?_ne_directory hfile)⟩,
      ⟨draft, FileTree.locate_of_keepsDirectories hkeeps hdraft,
        FileTree.get?_erase_ne_directory hnode⟩, ?_⟩
    intro other hother
    cases hother

end JobBinding.Rendezvous

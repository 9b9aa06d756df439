import Mathlib.Tactic.Common
import JobBinding.Files.Tree

/-!
# What file operations do to a tree

An operation is followed by looking at its result and at the tree that it leaves. `run_write` says
what writing a file comes to, although the file is made first and filled afterwards: making it
touches no directory, so the path leads to the same place again (`locate_of_keepsDirectories`).
-/

namespace JobBinding

namespace FileTree

variable {tree tree' : FileTree} {place other : Location} {node node' : Node}

/-! ## Looking up a changed tree -/

lemma get?_put_self (hplace : place ≠ []) : (tree.put place node).get? place = some node := by
  simp [get?, put, hplace]

lemma get?_erase_of_ne (h : other ≠ place) : (tree.erase place).get? other = tree.get? other := by
  unfold get? erase
  by_cases hroot : other = []
  · rw [if_pos hroot, if_pos hroot]
  · rw [if_neg hroot, if_neg hroot, List.find?_filter]
    congr 2
    funext entry
    by_cases he : entry.1 = other <;> simp [he, h]

lemma get?_put_of_ne (h : other ≠ place) : (tree.put place node).get? other = tree.get? other := by
  have hcons : (tree.put place node).get? other = (tree.erase place).get? other := by
    simp [get?, put, h.symm]
  rw [hcons, get?_erase_of_ne h]

lemma get?_erase_self (hplace : place ≠ []) : (tree.erase place).get? place = none := by
  simp [get?, erase, hplace]

@[simp] lemma put_put : (tree.put place node).put place node' = tree.put place node' := by
  simp [put, erase]

@[simp] lemma erase_put : (tree.put place node).erase place = tree.erase place := by
  simp [put, erase]

/-- An entry of another place can be removed before or after putting one. -/
lemma erase_put_of_ne (h : place ≠ other) :
    (tree.put place node).erase other = (tree.erase other).put place node := by
  simp [put, erase, h, Bool.and_comm]

lemma ne_nil_of_get?_ne_directory (h : tree.get? place ≠ some .directory) : place ≠ [] := by
  rintro rfl
  exact h rfl

/-! ## Where a path leads -/

/-- Whether the directories of a tree are directories of another tree, which has the same working
directory. -/
structure KeepsDirectories (tree tree' : FileTree) : Prop where
  workingDirectory_eq : tree'.workingDirectory = tree.workingDirectory
  get?_eq : ∀ place, tree.get? place = some .directory → tree'.get? place = some .directory

lemma keepsDirectories_put (h : tree.get? place ≠ some .directory) :
    tree.KeepsDirectories (tree.put place node) where
  workingDirectory_eq := rfl
  get?_eq other hother := by
    have hne : other ≠ place := by
      rintro rfl
      exact h hother
    rw [get?_put_of_ne hne, hother]

lemma keepsDirectories_erase (h : tree.get? place ≠ some .directory) :
    tree.KeepsDirectories (tree.erase place) where
  workingDirectory_eq := rfl
  get?_eq other hother := by
    have hne : other ≠ place := by
      rintro rfl
      exact h hother
    rw [get?_erase_of_ne hne, hother]

lemma keepsDirectories_of_put_file {content : List UInt8} :
    (tree.put place (.file content)).KeepsDirectories tree where
  workingDirectory_eq := rfl
  get?_eq other hother := by
    by_cases hroot : other = []
    · rw [hroot]
      rfl
    have hne : other ≠ place := by
      rintro rfl
      rw [get?_put_self hroot] at hother
      cases hother
    rwa [get?_put_of_ne hne] at hother

lemma KeepsDirectories.trans {tree'' : FileTree} (h : tree.KeepsDirectories tree')
    (h' : tree'.KeepsDirectories tree'') : tree.KeepsDirectories tree'' where
  workingDirectory_eq := h'.workingDirectory_eq.trans h.workingDirectory_eq
  get?_eq other hother := h'.get?_eq other (h.get?_eq other hother)

lemma get?_erase_ne_directory (h : tree.get? other ≠ some .directory) :
    (tree.erase place).get? other ≠ some .directory := by
  by_cases hne : other = place
  · have hroot : place ≠ [] := hne ▸ ne_nil_of_get?_ne_directory h
    rw [hne, get?_erase_self hroot]
    exact nofun
  · rw [get?_erase_of_ne hne]
    exact h

lemma follow_of_keepsDirectories (h : tree.KeepsDirectories tree') {start goal : Location}
    {steps : List Step} (hfollow : tree.follow start steps = .ok goal) :
    tree'.follow start steps = .ok goal := by
  -- Only directories are walked through, and these are all that the other tree has to keep.
  induction steps generalizing start with
  | nil => exact hfollow
  | cons step rest ih =>
    cases hstart : tree.get? start with
    | none => simp [follow, hstart] at hfollow
    | some node =>
      cases node with
      | file content => simp [follow, hstart] at hfollow
      | directory =>
        have hstart' := h.get?_eq start hstart
        cases step with
        | up =>
          simp only [follow, hstart] at hfollow
          simp only [follow, hstart']
          exact ih hfollow
        | into name =>
          simp only [follow, hstart] at hfollow
          simp only [follow, hstart']
          split at hfollow
          · next hfits =>
            rw [if_pos hfits]
            exact ih hfollow
          · cases hfollow

lemma locate_eq_ok_iff {path : String} :
    tree.locate path = .ok place ↔
      checkPath path = .ok () ∧ path ≠ "" ∧
        tree.follow (tree.start (Route.ofPath path)) (Route.ofPath path).steps = .ok place ∧
          ((Route.ofPath path).ending = .name ∨ tree.get? place = some .directory) := by
  unfold locate
  cases hcheck : checkPath path with
  | error f => simp [bind, Except.bind]
  | ok u =>
    by_cases hempty : path = ""
    · simp [bind, Except.bind, hempty, throw, throwThe, MonadExceptOf.throw]
    cases hfollow : tree.follow (tree.start (Route.ofPath path)) (Route.ofPath path).steps with
    | error f => simp [bind, Except.bind, hempty, hfollow]
    | ok goal =>
      by_cases hending : (Route.ofPath path).ending = .name
      · simp [bind, Except.bind, hempty, hfollow, hending, pure, Except.pure]
      · rcases hgoal : tree.get? goal with _ | _ | _ <;>
          simp [bind, Except.bind, hempty, hfollow, hending, hgoal, pure, Except.pure, throw,
            throwThe, MonadExceptOf.throw]
        · rintro rfl
          simp [hgoal]
        · intro h
          rw [← h, hgoal]
        · rintro rfl
          simp [hgoal]

lemma locate_of_keepsDirectories (h : tree.KeepsDirectories tree') {path : String}
    (hlocate : tree.locate path = .ok place) : tree'.locate path = .ok place := by
  obtain ⟨hcheck, hempty, hfollow, hending⟩ := locate_eq_ok_iff.1 hlocate
  have hstart : tree'.start (Route.ofPath path) = tree.start (Route.ofPath path) := by
    rw [start, start, h.workingDirectory_eq]
  refine locate_eq_ok_iff.2 ⟨hcheck, hempty, ?_, hending.imp_right (h.get?_eq place)⟩
  rw [hstart]
  exact follow_of_keepsDirectories h hfollow

lemma node?_eq_some_iff {path : String} :
    tree.node? path = some node ↔
      ∃ place, tree.locate path = .ok place ∧ tree.get? place = some node := by
  rw [node?]
  cases tree.locate path <;> simp

end FileTree

namespace Files

variable {α β : Type} {tree : FileTree}

/-! ## Running operations -/

@[simp] lemma run_pure (a : α) : (pure a : Files α).run tree = .ok a tree := rfl

@[simp] lemma run_fault (f : FileFault) :
    (fault f : Files α).run tree = .error (.file f) tree := rfl

@[simp] lemma run_get : (get : Files FileTree).run tree = .ok tree tree := rfl

@[simp] lemma run_modify (f : FileTree → FileTree) :
    (modify f : Files Unit).run tree = .ok () (f tree) := rfl

lemma run_bind (x : Files α) (f : α → Files β) :
    (x >>= f).run tree = match x.run tree with
      | .ok a after => (f a).run after
      | .error e after => .error e after := by
  show EStateM.bind x f tree = _
  unfold EStateM.bind EStateM.run
  cases x tree <;> rfl

lemma run_tryCatch (x : Files α) (handler : Failure → Files α) :
    (tryCatch x handler).run tree = match x.run tree with
      | .ok a after => .ok a after
      | .error e after => (handler e).run after := by
  show EStateM.tryCatch x handler tree = _
  unfold EStateM.tryCatch EStateM.run
  cases x tree <;> rfl

@[simp] lemma run_ofExcept (x : Except Failure α) :
    (ofExcept x).run tree = match x with
      | .ok a => .ok a tree
      | .error e => .error e tree := by
  cases x <;> rfl

lemma run_locate (path : String) :
    (locate path).run tree = match tree.locate path with
      | .ok place => .ok place tree
      | .error f => .error (.file f) tree := by
  simp only [locate, run_bind, run_get, run_ofExcept]
  cases tree.locate path <;> rfl

lemma run_create (path : String) :
    (create path).run tree = match tree.locate path with
      | .ok place =>
        if tree.get? place = some .directory then .error (.file .isADirectory) tree
        else .ok () (tree.put place (.file []))
      | .error f => .error (.file f) tree := by
  simp only [create, run_bind, run_locate]
  cases tree.locate path with
  | error f => rfl
  | ok place =>
    simp only [run_get]
    rcases hplace : tree.get? place with _ | _ | _ <;> simp

lemma run_append_of_file {path : String} {place : Location} {content bytes : List UInt8}
    (hlocate : tree.locate path = .ok place) (hplace : tree.get? place = some (.file content)) :
    (append path bytes).run tree = .ok () (tree.put place (.file (content ++ bytes))) := by
  simp only [append, run_bind, run_locate, hlocate, run_get, hplace, run_modify]

/-- Writing a file puts the bytes of its text where its path leads, unless a directory is there. -/
theorem run_write (path text : String) :
    (write path text).run tree = match tree.locate path with
      | .ok place =>
        if tree.get? place = some .directory then .error (.file .isADirectory) tree
        else .ok () (tree.put place (.file (Text.Utf8.encode text)))
      | .error f => .error (.file f) tree := by
  simp only [write, run_bind, run_create]
  cases hlocate : tree.locate path with
  | error f => rfl
  | ok place =>
    by_cases hplace : tree.get? place = some .directory
    · simp only [if_pos hplace]
    · simp only [if_neg hplace]
      have hlocate' : (tree.put place (.file [])).locate path = .ok place :=
        FileTree.locate_of_keepsDirectories (FileTree.keepsDirectories_put hplace) hlocate
      have hself : (tree.put place (.file [])).get? place = some (.file []) :=
        FileTree.get?_put_self (FileTree.ne_nil_of_get?_ne_directory hplace)
      rw [run_append_of_file hlocate' hself, FileTree.put_put, List.nil_append]

/-- Writing a file that fails changes nothing. -/
lemma eq_of_run_write_error {path text : String} {e : Failure} {after : FileTree}
    (h : (write path text).run tree = .error e after) : after = tree := by
  rw [run_write] at h
  cases hlocate : tree.locate path with
  | error f =>
    rw [hlocate] at h
    cases h
    rfl
  | ok place =>
    simp only [hlocate] at h
    split at h
    · cases h
      rfl
    · cases h

/-- Moving a file removes it where it was and puts it where the target leads, in one step. -/
lemma run_rename (source target : String) :
    (rename source target).run tree = match tree.locate source, tree.locate target with
      | .ok place, .ok goal => match tree.get? place, tree.get? goal with
        | none, _ => .error (.file .notFound) tree
        | some .directory, _ => .error (.file .isADirectory) tree
        | some (.file _), some .directory => .error (.file .isADirectory) tree
        | some (.file content), _ => .ok () ((tree.erase place).put goal (.file content))
      | .error f, _ => .error (.file f) tree
      | .ok _, .error f => .error (.file f) tree := by
  rw [rename, run_bind, run_locate]
  cases tree.locate source with
  | error f => rfl
  | ok place =>
    simp only [run_bind, run_locate]
    cases tree.locate target with
    | error f => rfl
    | ok goal =>
      simp only [run_get]
      rcases tree.get? place with _ | _ | content
      · rfl
      · rfl
      · rcases tree.get? goal with _ | _ | _ <;> rfl

lemma run_remove (path : String) :
    (remove path).run tree = match tree.locate path with
      | .ok place => match tree.get? place with
        | some (.file _) => .ok () (tree.erase place)
        | some .directory => .error (.file .isADirectory) tree
        | none => .error (.file .notFound) tree
      | .error f => .error (.file f) tree := by
  rw [remove, run_bind, run_locate]
  cases tree.locate path with
  | error f => rfl
  | ok place =>
    simp only [run_bind, run_get]
    rcases tree.get? place with _ | _ | _ <;> rfl

/-- What was written is found where it was written. -/
theorem node?_of_run_write {path text : String} {after : FileTree}
    (h : (write path text).run tree = .ok () after) :
    after.node? path = some (.file (Text.Utf8.encode text)) := by
  rw [run_write] at h
  cases hlocate : tree.locate path with
  | error f =>
    rw [hlocate] at h
    cases h
  | ok place =>
    simp only [hlocate] at h
    split at h
    · cases h
    next hplace =>
    cases h
    rw [FileTree.node?, FileTree.locate_of_keepsDirectories
      (FileTree.keepsDirectories_put hplace) hlocate]
    exact FileTree.get?_put_self (FileTree.ne_nil_of_get?_ne_directory hplace)

/-- What a file contained is found where it was moved. -/
theorem node?_of_run_rename {source target : String} {content : List UInt8} {after : FileTree}
    (h : (rename source target).run tree = .ok () after)
    (hsource : tree.node? source = some (.file content)) :
    after.node? target = some (.file content) := by
  obtain ⟨place, hlocate, hplace⟩ := FileTree.node?_eq_some_iff.1 hsource
  rw [run_rename, hlocate] at h
  cases htarget : tree.locate target with
  | error f =>
    rw [htarget] at h
    cases h
  | ok goal =>
    have hgoal : tree.get? goal ≠ some .directory := by
      intro hgoal
      simp only [htarget, hplace, hgoal] at h
      cases h
    -- The place of the target may be vacant or have a file, and both give the same tree.
    have hafter : after = (tree.erase place).put goal (.file content) := by
      rcases hnode : tree.get? goal with _ | _ | _
      · simp only [htarget, hplace, hnode] at h
        cases h
        rfl
      · exact absurd hnode hgoal
      · simp only [htarget, hplace, hnode] at h
        cases h
        rfl
    have hfile : tree.get? place ≠ some .directory := by
      rw [hplace]
      exact nofun
    -- Neither half of the move touches a directory, so the target's path still leads to its place.
    have hkeeps : tree.KeepsDirectories after := by
      rw [hafter]
      exact (FileTree.keepsDirectories_erase hfile).trans
        (FileTree.keepsDirectories_put (FileTree.get?_erase_ne_directory hgoal))
    refine FileTree.node?_eq_some_iff.2
      ⟨goal, FileTree.locate_of_keepsDirectories hkeeps htarget, ?_⟩
    rw [hafter]
    exact FileTree.get?_put_self (FileTree.ne_nil_of_get?_ne_directory hgoal)

end Files

end JobBinding

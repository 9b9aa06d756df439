import JobBinding.Proofs.Rendezvous.Place

/-!
# Jobs that share a directory

Two processes of different jobs publish, read and remove their rendezvous files in one directory, in
any order. Neither disturbs the other exactly if the replaced characters leave their keys different
(`undisturbed_iff`). Keys that become equal make one file of the two, which the process that did not
publish can remove (`not_undisturbed_slash`).

`Shows` carries this: the file of a process shows what it has published last and not removed since.
Both paths of one process, that of the file and that of the draft, differ from both of the other
one, so what the other process puts or removes is elsewhere (`Shows.put`, `Shows.erase`). Before
anything is published the directories may still be missing (`Awaits`).
-/

namespace JobBinding.Rendezvous

open Files

variable {r other : Rendezvous} {known : Option Record} {record : Record}
  {tree tree' : FileTree} {place : Location}

/-! ## Operations -/

/-- What a process does to the rendezvous file of its job. A record that it publishes is one of the
job. -/
inductive Operation (r : Rendezvous) where
  | publish (record : Record) (own : record.job = r.job)
  | read
  | remove

def Operation.run : r.Operation → Files Unit
  | .publish record _ => r.publish record
  | .read => do
    let _ ← r.read
    pure ()
  | .remove => r.remove

/-- The tree after an operation of one of two processes. -/
def afterEither (tree : FileTree) (op : r.Operation ⊕ other.Operation) : FileTree :=
  (op.elim Operation.run Operation.run).after tree

/-- The tree after some operations of two processes. -/
def afterAll (ops : List (r.Operation ⊕ other.Operation)) (tree : FileTree) : FileTree :=
  ops.foldl afterEither tree

/-- The record that the first of two processes has published and not removed, if it had one
before an operation. -/
def remember (known : Option Record) : r.Operation ⊕ other.Operation → Option Record
  | .inl (.publish record _) => some record
  | .inl .read => known
  | .inl .remove => none
  | .inr _ => known

/-- The record that the first of two processes has published last, unless it has removed it. -/
def remembered (ops : List (r.Operation ⊕ other.Operation)) : Option Record :=
  ops.foldl remember none

/-- Whether a process always reads what it has published last, if it has not removed it, and
nothing that another process does changes what it reads. -/
def Undisturbed (r other : Rendezvous) (tree : FileTree) : Prop :=
  ∀ ops : List (r.Operation ⊕ other.Operation),
    r.read.result (afterAll ops tree) = .ok (remembered ops) ∧
      ∀ op : other.Operation,
        r.read.result (op.run.after (afterAll ops tree)) = r.read.result (afterAll ops tree)

/-! ## What another process does -/

/-- Whether a path leads beside both paths of a process. -/
def IsBeside (r : Rendezvous) (path : String) : Prop :=
  ∃ tail, Path.IsTail tail ∧ path = r.front ++ tail ∧ tail ≠ r.tail ∧ tail ≠ r.tail ++ ".tmp"

lemma IsBeside.ne_path {path : String} {place' : Location} (h : r.IsBeside path)
    (hplace : tree.locate path = .ok place) (hplace' : tree.locate r.path = .ok place') :
    place' ≠ place := by
  obtain ⟨tail, htail, rfl, hne, -⟩ := h
  rw [path_eq] at hplace'
  exact FileTree.locate_ne r.front_ne_empty r.isTail_tail htail hne.symm hplace' hplace

lemma IsBeside.ne_draft {path : String} {place' : Location} (h : r.IsBeside path)
    (hplace : tree.locate path = .ok place) (hplace' : tree.locate r.draft = .ok place') :
    place' ≠ place := by
  obtain ⟨tail, htail, rfl, -, hne⟩ := h
  rw [draft_eq] at hplace'
  exact FileTree.locate_ne r.front_ne_empty r.isTail_draft htail hne.symm hplace' hplace

/-- A tree with the same directories and the same entries at both paths of a process shows it the
same. -/
lemma Shows.of_keepsDirectories (h : r.Shows known tree) (hkeeps : tree.KeepsDirectories tree')
    (hpath : ∀ place, tree.locate r.path = .ok place → tree'.get? place = tree.get? place)
    (hdraft : ∀ place, tree.locate r.draft = .ok place → tree.get? place ≠ some .directory →
      tree'.get? place ≠ some .directory) : r.Shows known tree' where
  path := by
    obtain ⟨place, hlocate, hplace⟩ := h.path
    exact ⟨place, FileTree.locate_of_keepsDirectories hkeeps hlocate,
      (hpath place hlocate).trans hplace⟩
  draft := by
    obtain ⟨draft, hlocate, hnode⟩ := h.draft
    exact ⟨draft, FileTree.locate_of_keepsDirectories hkeeps hlocate, hdraft draft hlocate hnode⟩
  own := h.own

lemma Shows.put {path : String} {node : Node} (h : r.Shows known tree) (hbeside : r.IsBeside path)
    (hlocate : tree.locate path = .ok place) (hplace : tree.get? place ≠ some .directory) :
    r.Shows known (tree.put place node) := by
  refine h.of_keepsDirectories (FileTree.keepsDirectories_put hplace) ?_ ?_
  · intro own hown
    exact FileTree.get?_put_of_ne (hbeside.ne_path hlocate hown)
  · intro own hown hnode
    rw [FileTree.get?_put_of_ne (hbeside.ne_draft hlocate hown)]
    exact hnode

lemma Shows.erase {path : String} (h : r.Shows known tree) (hbeside : r.IsBeside path)
    (hlocate : tree.locate path = .ok place) (hplace : tree.get? place ≠ some .directory) :
    r.Shows known (tree.erase place) := by
  refine h.of_keepsDirectories (FileTree.keepsDirectories_erase hplace) ?_ ?_
  · intro own hown
    exact FileTree.get?_erase_of_ne (hbeside.ne_path hlocate hown)
  · intro own _ hnode
    exact FileTree.get?_erase_ne_directory hnode

/-- Whether a computation leaves what a process finds. -/
def Spares {α : Type} (r : Rendezvous) (x : Files α) : Prop :=
  ∀ known tree, r.Shows known tree → r.Shows known (x.after tree)

lemma Spares.bind {α β : Type} {x : Files α} {f : α → Files β} (hx : r.Spares x)
    (hf : ∀ a, r.Spares (f a)) : r.Spares (x >>= f) := by
  intro known tree h
  have hafter := hx known tree h
  rw [after_bind]
  unfold after at hafter
  cases hrun : x.run tree with
  | ok a tree' =>
    rw [hrun] at hafter
    exact hf a known tree' hafter
  | error e tree' =>
    rw [hrun] at hafter
    exact hafter

lemma spares_write {path text : String} (hbeside : r.IsBeside path) :
    r.Spares (write path text) := by
  intro known tree h
  rw [after, run_write]
  cases hlocate : tree.locate path with
  | error f => exact h
  | ok place =>
    by_cases hplace : tree.get? place = some .directory
    · simp only [if_pos hplace]
      exact h
    · simp only [if_neg hplace]
      exact h.put hbeside hlocate hplace

lemma spares_rename {source target : String} (hsource : r.IsBeside source)
    (htarget : r.IsBeside target) : r.Spares (rename source target) := by
  intro known tree h
  rw [after, run_rename]
  rcases hlocate : tree.locate source with f | place
  · exact h
  rcases hlocate' : tree.locate target with f | goal
  · exact h
  rcases hplace : tree.get? place with _ | _ | content
  · simpa only [hplace] using h
  · simpa only [hplace] using h
  have hfile : tree.get? place ≠ some .directory := by
    rw [hplace]
    intro h
    cases h
  -- Both ends of the move lie beside this job's paths, so what these show stays.
  have hkeeps : tree.KeepsDirectories (tree.erase place) := FileTree.keepsDirectories_erase hfile
  have herased : r.Shows known (tree.erase place) := h.erase hsource hlocate hfile
  have hmoved (hgoal : tree.get? goal ≠ some .directory) :
      r.Shows known ((tree.erase place).put goal (.file content)) :=
    herased.put htarget (FileTree.locate_of_keepsDirectories hkeeps hlocate')
      (FileTree.get?_erase_ne_directory hgoal)
  rcases hgoal : tree.get? goal with _ | _ | _
  · simpa only [hplace, hgoal] using hmoved (by simp [hgoal])
  · simpa only [hplace, hgoal] using h
  · simpa only [hplace, hgoal] using hmoved (by simp [hgoal])

lemma spares_removeFile {path : String} (hbeside : r.IsBeside path) :
    r.Spares (Files.remove path) := by
  intro known tree h
  rw [after, Files.run_remove]
  rcases hlocate : tree.locate path with f | place
  · exact h
  rcases hplace : tree.get? place with _ | _ | content
  · simpa only [hplace] using h
  · simpa only [hplace] using h
  · simpa only [hplace] using h.erase hbeside hlocate (by simp [hplace])

section Other

variable (hfront : r.front = other.front) (hkey : sanitize r.job ≠ sanitize other.job)
include hfront hkey

lemma isBeside_path : r.IsBeside other.path := by
  refine ⟨other.tail, other.isTail_tail, ?_, ?_, tail_ne_draft other r⟩
  · rw [path_eq, hfront]
  · exact fun h => hkey (tail_eq_iff.1 h.symm)

lemma isBeside_draft : r.IsBeside other.draft := by
  refine ⟨other.tail ++ ".tmp", other.isTail_draft, ?_, (tail_ne_draft r other).symm, ?_⟩
  · rw [draft_eq, hfront]
  · intro h
    exact hkey (tail_eq_iff.1 (by simpa using h.symm))

/-- Another process that publishes leaves what a process finds. -/
lemma spares_publish (record : Record) : r.Spares (other.publish record) := by
  have hparents : r.Spares (makeParents other.path) := by
    intro known tree h
    rw [after, ← makeParents_path_eq hfront, h.run_makeParents]
    exact h
  have hwrite : r.Spares (write other.draft record.render) :=
    spares_write (isBeside_draft hfront hkey)
  have hrename : r.Spares (rename other.draft other.path) :=
    spares_rename (isBeside_draft hfront hkey) (isBeside_path hfront hkey)
  exact hparents.bind fun _ => hwrite.bind fun _ => hrename

/-- Another process that removes its file leaves what a process finds. -/
lemma spares_remove : r.Spares other.remove := by
  intro known tree h
  rw [after, run_remove]
  exact spares_removeFile (isBeside_path hfront hkey) known tree h

end Other

/-! ## Directories that are missing -/

/-- Whether a process finds nothing, but would find its place if the directories above were made. -/
def Awaits (r : Rendezvous) (tree : FileTree) : Prop :=
  r.read.result tree = .ok none ∧
    ∃ tree', (makeParents r.path).run tree = .ok () tree' ∧ r.Shows none tree'

/-- A file whose path cannot be followed is not removed. -/
lemma after_remove_of_error {f : FileFault} (h : tree.locate r.path = .error f) :
    r.remove.after tree = tree := by
  rw [after, run_remove, after, Files.run_remove, h]

section Awaits

variable (hfront : r.front = other.front)
include hfront

/-- The directories of a process that can follow its path are those of the other one. -/
lemma Awaits.shows_of_locate (h : r.Awaits tree) (hlocate : tree.locate other.path = .ok place) :
    r.Shows none tree := by
  obtain ⟨-, tree', hparents, hshows⟩ := h
  rw [makeParents_path_eq hfront, run_makeParents_of_locate hlocate] at hparents
  cases hparents
  exact hshows

/-- Removing a file either finds the directories or changes nothing. -/
lemma Awaits.shows_or_after_remove (h : r.Awaits tree) :
    r.Shows none tree ∨ other.remove.after tree = tree := by
  cases hlocate : tree.locate other.path with
  | ok place => exact .inl (h.shows_of_locate hfront hlocate)
  | error f => exact .inr (after_remove_of_error hlocate)

/-- Whoever publishes makes the directories that both need. -/
lemma Awaits.exists_after_publish (h : r.Awaits tree) (record : Record) :
    ∃ tree', r.Shows none tree' ∧
      (other.publish record).after tree = (other.publish record).after tree' := by
  obtain ⟨-, tree', hparents, hshows⟩ := h
  have hagain := hshows.run_makeParents
  rw [makeParents_path_eq hfront] at hparents hagain
  refine ⟨tree', hshows, ?_⟩
  rw [after, after, run_publish_eq hparents hagain record]

end Awaits

/-- Whether a process finds what is known, be it that the directories are there or that they can be
made. -/
def Serves (r : Rendezvous) (known : Option Record) (tree : FileTree) : Prop :=
  r.Shows known tree ∨ known = none ∧ r.Awaits tree

lemma Serves.result_read (h : r.Serves known tree) : r.read.result tree = .ok known := by
  rcases h with h | ⟨rfl, h⟩
  · exact h.result_read
  · exact h.1

lemma after_run_read : (Operation.run (.read : r.Operation)).after tree = tree := by
  have hread : r.read.after tree = tree := after_read
  rw [Operation.run, after_bind]
  unfold after at hread
  cases hrun : r.read.run tree with
  | ok found tree' =>
    rw [hrun] at hread
    exact hread
  | error e tree' =>
    rw [hrun] at hread
    exact hread

/-- What a process does itself is what it finds afterwards. -/
lemma Serves.after_own (h : r.Serves known tree) (other : Rendezvous) (op : r.Operation) :
    r.Serves (remember known (.inl op : r.Operation ⊕ other.Operation)) (op.run.after tree) := by
  cases op with
  | publish record own =>
    -- Publishing makes missing directories first, so the process finds its place all the same.
    rcases h with h | ⟨-, h⟩
    · exact .inl (h.publish own)
    · obtain ⟨tree', hshows, hafter⟩ := h.exists_after_publish rfl record
      rw [Operation.run, hafter]
      exact .inl (hshows.publish own)
  | read =>
    rw [after_run_read]
    exact h
  | remove =>
    rcases h with h | ⟨-, h⟩
    · exact .inl h.remove
    · rcases h.shows_or_after_remove rfl with hshows | hafter
      · exact .inl hshows.remove
      · refine .inr ⟨rfl, ?_⟩
        rw [Operation.run, hafter]
        exact h

section Separate

variable (hfront : r.front = other.front) (hkey : sanitize r.job ≠ sanitize other.job)
include hfront hkey

/-- What another process does leaves what a process finds. -/
lemma Serves.after_other (h : r.Serves known tree) (op : other.Operation) :
    r.Serves known (op.run.after tree) := by
  cases op with
  | publish record own =>
    -- The other process works on another file of the directory: it can only make directories.
    have hspares := spares_publish hfront hkey record
    rcases h with h | ⟨rfl, h⟩
    · exact .inl (hspares known tree h)
    · obtain ⟨tree', hshows, hafter⟩ := h.exists_after_publish hfront record
      rw [Operation.run, hafter]
      exact .inl (hspares none tree' hshows)
  | read =>
    rw [after_run_read]
    exact h
  | remove =>
    have hspares := spares_remove hfront hkey
    rcases h with h | ⟨rfl, h⟩
    · exact .inl (hspares known tree h)
    · rcases h.shows_or_after_remove hfront with hshows | hafter
      · exact .inl (hspares none tree hshows)
      · refine .inr ⟨rfl, ?_⟩
        rw [Operation.run, hafter]
        exact h

/-- After any operations of both, a process finds what it has published and not removed. -/
theorem Serves.afterAll (h : r.Serves known tree) (ops : List (r.Operation ⊕ other.Operation)) :
    r.Serves (ops.foldl remember known) (afterAll ops tree) := by
  induction ops generalizing known tree with
  | nil => exact h
  | cons op ops ih =>
    cases op with
    | inl op => exact ih (h.after_own other op)
    | inr op => exact ih (h.after_other hfront hkey op)

lemma undisturbed_of_serves (h : r.Serves none tree) : Undisturbed r other tree := by
  intro ops
  have hserves := h.afterAll hfront hkey ops
  refine ⟨hserves.result_read, fun op => ?_⟩
  rw [(hserves.after_other hfront hkey op).result_read, hserves.result_read]

end Separate

/-! ## The first record -/

/-- Whether no file has the name of the file of a process. -/
def IsFresh (r : Rendezvous) (tree : FileTree) : Prop :=
  ∀ place content, place.getLast? = Path.fileName? r.path →
    tree.get? place ≠ some (.file content)

/-- A process that can publish where there are no files of its name finds nothing before. -/
lemma serves_of_isFresh (hfresh : r.IsFresh tree)
    (hcan : r.CanPublish tree) : r.Serves none tree := by
  obtain ⟨tree', place, draft, hparents, hlocate, hplace, hdraft, hnode⟩ := hcan.exists_accepts
  have hadds : tree.AddsDirectories tree' := by
    have hafter := addsDirectories_makeParents r.path tree
    rwa [after, hparents] at hafter
  have hname : place.getLast? = Path.fileName? r.path := by
    rw [path_eq] at hlocate ⊢
    exact FileTree.getLast?_of_locate r.front_ne_empty r.isTail_tail hlocate
  -- Making directories makes no file, and there was none.
  have hvacant : tree.get? place = none ∧ tree'.get? place = none := by
    rcases hadds.get?_eq place with hsame | ⟨-, hdirectory⟩
    · rcases hfile : tree.get? place with _ | _ | content
      · exact ⟨rfl, hsame.trans hfile⟩
      · exact absurd (hsame.trans hfile) hplace
      · exact absurd hfile (hfresh place content hname)
    · exact absurd hdirectory hplace
  have hshows : r.Shows none tree' := by
    refine ⟨⟨place, hlocate, hvacant.2⟩, ⟨draft, hdraft, hnode⟩, ?_⟩
    intro record hrecord
    cases hrecord
  refine .inr ⟨rfl, ?_, tree', hparents, hshows⟩
  have hbefore : tree.locate r.path = .ok place ∨ tree.locate r.path = .error .notFound := by
    rw [path_eq] at hlocate ⊢
    exact hadds.locate r.front_ne_empty r.isTail_tail hlocate
  rw [result, run_read]
  rcases hbefore with hbefore | hbefore
  · simp only [hbefore, hvacant.1]
  · simp only [hbefore]

/-! ## Keys that become equal -/

section Equal

attribute [local irreducible] Files.after Files.result

/-- A process of another job with the same file can remove what was published. -/
lemma not_undisturbed_of_sanitize_eq (hfront : r.front = other.front)
    (hkey : sanitize r.job = sanitize other.job) (h : r.Serves none tree) :
    ¬ Undisturbed r other tree := by
  intro hundisturbed
  let record : Record := ⟨r.job, "", 0, 0, ⟨0, 0, by decide, by decide⟩, none⟩
  have own : record.job = r.job := rfl
  have hpath : other.path = r.path := by
    rw [path_eq, path_eq, hfront, tail_eq_iff.2 hkey]
  have hremove : (Operation.run (.remove : other.Operation)) =
      Operation.run (.remove : r.Operation) := by
    rw [Operation.run, Operation.run, Rendezvous.remove, Rendezvous.remove, hpath]
  have hpublished := h.after_own other (.publish record own)
  have hremoved := hpublished.after_own other .remove
  obtain ⟨-, hothers⟩ := hundisturbed [.inl (.publish record own)]
  have hsame := hothers .remove
  rw [hremove] at hsame
  cases hremoved.result_read.symm.trans (hsame.trans hpublished.result_read)

end Equal

/-! ## Both -/

/-- Two processes that run an action in a directory where no file has the name of the first one's
file. If the first one can publish, then it always reads what it has published last and not removed,
whatever the other one does, exactly if their keys differ after characters were replaced in them. -/
theorem undisturbed_iff (hdirectory : r.directory = other.directory)
    (haction : r.action = other.action) (hfresh : r.IsFresh tree)
    (hcan : r.CanPublish tree) :
    Undisturbed r other tree ↔ sanitize r.job ≠ sanitize other.job := by
  have hfront : r.front = other.front := by rw [front, front, hdirectory, haction]
  have hserves : r.Serves none tree := serves_of_isFresh hfresh hcan
  constructor
  · intro hundisturbed hkey
    exact not_undisturbed_of_sanitize_eq hfront hkey hserves hundisturbed
  · intro hkey
    exact undisturbed_of_serves hfront hkey hserves

lemma isFresh_empty (r : Rendezvous) : r.IsFresh ⟨[], []⟩ := by
  intro place content _ hplace
  by_cases hroot : place = []
  · rw [hroot] at hplace
    cases hplace
  · simp [FileTree.get?, hroot] at hplace

/-- A record that is published in an empty tree. -/
lemma canPublish_slash : CanPublish ⟨"", "mpi", "1/2"⟩ ⟨[], []⟩ :=
  ⟨⟨"1/2", "a001", 4001, 2, ⟨101, 7, by decide, by decide⟩, none⟩,
    eq_ok_of_isOk (by decide +kernel)⟩

/-- Two jobs with the keys `12` and `13`, in a directory that is still missing. -/
theorem undisturbed_siblings :
    IsFresh ⟨"runs", "mpi", "12"⟩ ⟨[], []⟩ ∧ CanPublish ⟨"runs", "mpi", "12"⟩ ⟨[], []⟩ ∧
      Undisturbed ⟨"runs", "mpi", "12"⟩ ⟨"runs", "mpi", "13"⟩ ⟨[], []⟩ := by
  have hcan : CanPublish ⟨"runs", "mpi", "12"⟩ ⟨[], []⟩ :=
    ⟨⟨"12", "a001", 4001, 2, ⟨101, 7, by decide, by decide⟩, none⟩,
      eq_ok_of_isOk (by decide +kernel)⟩
  have hiff := @undisturbed_iff ⟨"runs", "mpi", "12"⟩ ⟨"runs", "mpi", "13"⟩ ⟨[], []⟩ rfl rfl
    (isFresh_empty _) hcan
  refine ⟨isFresh_empty _, hcan, ?_⟩
  apply hiff.2
  decide

/-- The keys `1/2` and `1_2` differ, but the second job can remove the record of the first one. -/
theorem not_undisturbed_slash :
    "1/2" ≠ "1_2" ∧ IsFresh ⟨"", "mpi", "1/2"⟩ ⟨[], []⟩ ∧
      CanPublish ⟨"", "mpi", "1/2"⟩ ⟨[], []⟩ ∧
      ¬ Undisturbed ⟨"", "mpi", "1/2"⟩ ⟨"", "mpi", "1_2"⟩ ⟨[], []⟩ := by
  have hserves : Serves ⟨"", "mpi", "1/2"⟩ none ⟨[], []⟩ :=
    serves_of_isFresh (isFresh_empty _) canPublish_slash
  have hkey : sanitize "1/2" = sanitize "1_2" := by decide
  exact ⟨by decide, isFresh_empty _, canPublish_slash,
    not_undisturbed_of_sanitize_eq rfl hkey hserves⟩

end JobBinding.Rendezvous

import JobBinding.Proofs.Files.Tree

/-!
# What the files of a tree contain

`Holds P`: every file of a tree has a content of a kind `P`, wherever it is. An operation that
neither makes nor fills a file keeps that, whether it succeeds or fails on the way (`Keeps`), and
one that writes a file keeps it if the new content is of the kind (`keeps_write`). Nothing depends
on where a path leads, so this works for files that several processes share under one name.

Reading changes nothing at all (`ReadOnly`).
-/

namespace JobBinding

namespace FileTree

variable {P : List UInt8 → Prop} {tree : FileTree} {place : Location}

/-- Whether each file has a content of a kind. -/
def Holds (P : List UInt8 → Prop) (tree : FileTree) : Prop :=
  ∀ place content, tree.get? place = some (.file content) → P content

lemma Holds.mono {Q : List UInt8 → Prop} (h : tree.Holds P)
    (hPQ : ∀ content, P content → Q content) : tree.Holds Q :=
  fun place content hplace => hPQ content (h place content hplace)

lemma Holds.erase (h : tree.Holds P) : (tree.erase place).Holds P := by
  intro other content hother
  by_cases hroot : other = []
  · rw [hroot] at hother
    cases hother
  by_cases hne : other = place
  · rw [← hne, get?_erase_self hroot] at hother
    cases hother
  · rw [get?_erase_of_ne hne] at hother
    exact h other content hother

lemma Holds.put {node : Node} (h : tree.Holds P)
    (hnode : ∀ content, node = .file content → P content) : (tree.put place node).Holds P := by
  intro other content hother
  by_cases hroot : other = []
  · rw [hroot] at hother
    cases hother
  by_cases hne : other = place
  · rw [← hne, get?_put_self hroot, Option.some.injEq] at hother
    exact hnode content hother
  · rw [get?_put_of_ne hne] at hother
    exact h other content hother

lemma Holds.put_directory (h : tree.Holds P) : (tree.put place .directory).Holds P :=
  h.put fun _ hnode => nomatch hnode

lemma Holds.put_file {content : List UInt8} (h : tree.Holds P) (hcontent : P content) :
    (tree.put place (.file content)).Holds P := by
  refine h.put fun other hnode => ?_
  cases hnode
  exact hcontent

end FileTree

namespace Files

variable {α β : Type} {tree : FileTree} {P : List UInt8 → Prop}

/-- The tree that a computation leaves, also if it fails. -/
def after (x : Files α) (tree : FileTree) : FileTree :=
  match x.run tree with
  | .ok _ tree => tree
  | .error _ tree => tree

def result (x : Files α) (tree : FileTree) : Except Failure α :=
  match x.run tree with
  | .ok a _ => .ok a
  | .error e _ => .error e

lemma run_eq_ok_iff {x : Files α} {a : α} {tree' : FileTree} :
    x.run tree = .ok a tree' ↔ x.result tree = .ok a ∧ x.after tree = tree' := by
  rw [result, after]
  cases x.run tree <;> simp

lemma result_eq_ok_iff {x : Files α} {a : α} :
    x.result tree = .ok a ↔ ∃ tree', x.run tree = .ok a tree' := by
  rw [result]
  cases x.run tree <;> simp

/-- Whether a computation leaves files with contents of a kind if it finds such. -/
def Keeps (P : List UInt8 → Prop) (x : Files α) : Prop :=
  ∀ tree, tree.Holds P → (x.after tree).Holds P

/-! ## Computations in general -/

lemma keeps_pure (a : α) : Keeps P (pure a : Files α) := fun _ h => h

lemma keeps_fault_bind (f : FileFault) (g : α → Files β) : Keeps P (fault f >>= g) :=
  fun _ h => h

lemma keeps_get : Keeps P (get : Files FileTree) := fun _ h => h

lemma keeps_ofExcept (x : Except Failure α) : Keeps P (ofExcept x) := by
  cases x <;> exact fun _ h => h

lemma keeps_modify {f : FileTree → FileTree} (hf : ∀ tree, tree.Holds P → (f tree).Holds P) :
    Keeps P (modify f) := hf

lemma Keeps.bind {x : Files α} {f : α → Files β} (hx : Keeps P x) (hf : ∀ a, Keeps P (f a)) :
    Keeps P (x >>= f) := by
  intro tree h
  have hafter := hx tree h
  unfold after at hafter ⊢
  rw [run_bind]
  cases hrun : x.run tree with
  | ok a tree' =>
    rw [hrun] at hafter
    exact hf a tree' hafter
  | error e tree' =>
    rw [hrun] at hafter
    exact hafter

/-! ## Computations that change nothing -/

/-- Whether a computation leaves every tree as it is. -/
def ReadOnly (x : Files α) : Prop :=
  ∀ tree, x.after tree = tree

lemma readOnly_pure (a : α) : ReadOnly (pure a : Files α) := fun _ => rfl

lemma readOnly_fault (f : FileFault) : ReadOnly (fault f : Files α) := fun _ => rfl

lemma readOnly_get : ReadOnly (get : Files FileTree) := fun _ => rfl

lemma readOnly_ofExcept (x : Except Failure α) : ReadOnly (ofExcept x) := by
  cases x <;> exact fun _ => rfl

lemma ReadOnly.bind {x : Files α} {f : α → Files β} (hx : ReadOnly x)
    (hf : ∀ a, ReadOnly (f a)) : ReadOnly (x >>= f) := by
  intro tree
  have hafter := hx tree
  unfold after at hafter ⊢
  rw [run_bind]
  cases hrun : x.run tree with
  | ok a tree' =>
    rw [hrun] at hafter
    obtain rfl : tree' = tree := hafter
    exact hf a tree'
  | error e tree' =>
    rw [hrun] at hafter
    exact hafter

lemma ReadOnly.run_eq_ok {x : Files α} {a : α} (h : ReadOnly x) (hresult : x.result tree = .ok a) :
    x.run tree = .ok a tree :=
  run_eq_ok_iff.2 ⟨hresult, h tree⟩

lemma ReadOnly.run_eq_error {x : Files α} {e : Failure} (h : ReadOnly x)
    (hresult : x.result tree = .error e) : x.run tree = .error e tree := by
  have hafter := h tree
  unfold after at hafter
  unfold result at hresult
  cases hrun : x.run tree with
  | ok a tree' =>
    rw [hrun] at hresult
    cases hresult
  | error e' tree' =>
    rw [hrun] at hresult hafter
    cases hresult
    rw [← hafter]

lemma readOnly_readText (path : String) : ReadOnly (readText path) := by
  have hlocate : ReadOnly (locate path) := readOnly_get.bind fun _ => readOnly_ofExcept _
  have hread : ReadOnly (read path) := by
    refine hlocate.bind fun place => readOnly_get.bind fun tree => ?_
    split
    · exact readOnly_pure _
    · exact readOnly_fault _
    · exact readOnly_fault _
  refine hread.bind fun bytes => ?_
  split
  · exact readOnly_pure _
  · exact readOnly_fault _

/-! ## Operations -/

lemma keeps_makeAll (ending : Ending) (steps : List Step) (place : Location) :
    Keeps P (makeAll ending place steps) := by
  induction steps generalizing place with
  | nil => exact keeps_pure ()
  | cons step rest ih =>
    cases step with
    | up => exact ih place.dropLast
    | into name =>
      have hrest := ih (place ++ [name])
      have hmake : Keeps P (modify (·.put (place ++ [name]) .directory)) :=
        keeps_modify fun tree h => h.put_directory
      rw [makeAll]
      split
      · exact keeps_fault_bind _ _
      · refine keeps_get.bind fun tree => ?_
        dsimp only
        split
        · exact hrest
        · exact keeps_fault_bind _ _
        · split
          · exact keeps_fault_bind _ _
          · exact hmake.bind fun _ => hrest

lemma keeps_makeParents (path : String) : Keeps P (makeParents path) := by
  rw [makeParents, makeRoute]
  exact (keeps_ofExcept _).bind fun _ => keeps_get.bind fun _ => keeps_makeAll _ _ _

lemma keeps_write {path text : String} (htext : P (Text.Utf8.encode text)) :
    Keeps P (write path text) := by
  intro tree h
  rw [after, run_write]
  cases tree.locate path with
  | error f => exact h
  | ok place =>
    by_cases hplace : tree.get? place = some .directory
    · simp only [if_pos hplace]
      exact h
    · simp only [if_neg hplace]
      exact h.put_file htext

/-- A file that moves keeps its content. -/
lemma keeps_rename (source target : String) : Keeps P (rename source target) := by
  intro tree h
  rw [after, run_rename]
  rcases tree.locate source with f | place
  · exact h
  rcases tree.locate target with f | goal
  · exact h
  rcases hplace : tree.get? place with _ | _ | content
  · simpa only [hplace] using h
  · simpa only [hplace] using h
  have herased : (tree.erase place).Holds P := h.erase
  have hmoved : ((tree.erase place).put goal (.file content)).Holds P :=
    herased.put_file (h place content hplace)
  rcases hgoal : tree.get? goal with _ | _ | _
  · simpa only [hplace, hgoal] using hmoved
  · simpa only [hplace, hgoal] using h
  · simpa only [hplace, hgoal] using hmoved

lemma keeps_remove (path : String) : Keeps P (remove path) := by
  intro tree h
  rw [after, run_remove]
  rcases tree.locate path with f | place
  · exact h
  rcases hplace : tree.get? place with _ | _ | _
  · simpa only [hplace] using h
  · simpa only [hplace] using h
  · simpa only [hplace] using h.erase

end Files

end JobBinding

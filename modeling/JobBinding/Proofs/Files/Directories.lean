import JobBinding.Proofs.Files.Proper

/-!
# Making the directories of a path

The steps of a path lead through places that depend on nothing but where they start (`way`). Making
the directories of a path turns exactly these places into directories and changes nothing else
(`get?_of_run_makeDirectories`). Once made, they need not be made again as long as none is removed
(`run_makeDirectories_again`).
-/

namespace JobBinding

namespace FileTree

variable {tree tree' : FileTree} {start goal place : Location} {steps : List Step} {path : String}

/-! ## The way of some steps -/

def next (place : Location) : Step → Location
  | .up => place.dropLast
  | .into name => place ++ [name]

def destination (start : Location) (steps : List Step) : Location :=
  steps.foldl next start

/-- The places that steps lead through, with those where they start and end. -/
def way (start : Location) : List Step → List Location
  | [] => [start]
  | step :: rest => start :: way (next start step) rest

lemma start_mem_way (start : Location) (steps : List Step) : start ∈ way start steps := by
  cases steps <;> exact List.mem_cons_self

lemma way_subset_append (start : Location) (steps more : List Step) :
    way start steps ⊆ way start (steps ++ more) := by
  induction steps generalizing start with
  | nil => exact List.cons_subset.2 ⟨start_mem_way start more, List.nil_subset _⟩
  | cons step rest ih => exact List.cons_subset_cons start (ih (next start step))

lemma eq_destination_of_follow (h : tree.follow start steps = .ok goal) :
    goal = destination start steps := by
  induction steps generalizing start with
  | nil =>
    cases h
    rfl
  | cons step rest ih =>
    cases step with
    | up => exact ih (follow_up_cons_eq_ok_iff.1 h).2
    | into name => exact ih (follow_into_cons_eq_ok_iff.1 h).2.2

/-- Steps that can be followed to a directory lead through directories only. -/
lemma get?_of_mem_way (hfollow : tree.follow start steps = .ok goal)
    (hgoal : tree.get? goal = some .directory) (hplace : place ∈ way start steps) :
    tree.get? place = some .directory := by
  induction steps generalizing start with
  | nil =>
    cases hfollow
    rwa [List.mem_singleton.1 hplace]
  | cons step rest ih =>
    rcases List.mem_cons.1 hplace with rfl | hplace
    · exact get?_of_follow_cons hfollow
    · cases step with
      | up => exact ih (follow_up_cons_eq_ok_iff.1 hfollow).2 hplace
      | into name => exact ih (follow_into_cons_eq_ok_iff.1 hfollow).2.2 hplace

/-! ## The way of a path -/

/-- The place that a path leads to, whatever is there. -/
def placeOf (tree : FileTree) (path : String) : Location :=
  destination (tree.start (Route.ofPath path)) (Route.ofPath path).steps

/-- The places that a path leads through, whatever is there. -/
def wayOf (tree : FileTree) (path : String) : List Location :=
  way (tree.start (Route.ofPath path)) (Route.ofPath path).steps

lemma start_eq (h : tree'.workingDirectory = tree.workingDirectory) (route : Route) :
    tree'.start route = tree.start route := by
  rw [start, start, h]

lemma placeOf_eq (h : tree'.workingDirectory = tree.workingDirectory) (path : String) :
    tree'.placeOf path = tree.placeOf path := by
  rw [placeOf, placeOf, start_eq h]

lemma wayOf_eq (h : tree'.workingDirectory = tree.workingDirectory) (path : String) :
    tree'.wayOf path = tree.wayOf path := by
  rw [wayOf, wayOf, start_eq h]

lemma eq_placeOf_of_locate (h : tree.locate path = .ok place) : place = tree.placeOf path :=
  eq_destination_of_follow (locate_eq_ok_iff.1 h).2.2.1

/-- The way of a path is part of the way of a path that goes on from there. -/
lemma wayOf_subset_join {right : String} (h : Path.isAbsolute right = false) (tree : FileTree)
    (left : String) : tree.wayOf left ⊆ tree.wayOf (Path.join left right) := by
  have hstart : tree.start (Route.ofPath (Path.join left right)) =
      tree.start (Route.ofPath left) := by
    unfold start
    rw [Route.ofPath, Route.ofPath, Path.isAbsolute_join h]
  rw [wayOf, wayOf, hstart, Path.steps_join h]
  exact way_subset_append _ _ _

end FileTree

namespace Files

variable {tree tree' after : FileTree} {ending : Ending} {steps : List Step}
  {place goal other : Location} {path : String}

/-! ## Making directories step by step -/

lemma get?_of_run_makeAll_of_notMem (hrun : (makeAll ending place steps).run tree = .ok () after)
    (hother : other ∉ FileTree.way place steps) : after.get? other = tree.get? other := by
  induction steps generalizing place tree with
  | nil =>
    cases hrun
    rfl
  | cons step rest ih =>
    have hrest := (not_or.1 (mt List.mem_cons.2 hother)).2
    cases step with
    | up => exact ih hrun hrest
    | into name =>
      obtain ⟨-, between, hbetween, hrun⟩ := exists_of_run_makeAll_into hrun
      rw [ih hrun hrest]
      rcases hbetween with ⟨rfl, -⟩ | rfl
      · rfl
      · refine FileTree.get?_put_of_ne ?_
        rintro rfl
        exact hrest (FileTree.start_mem_way _ _)

/-- Directories that are there are not made again. -/
lemma run_makeAll_of_directory (ending : Ending)
    (hfollow : tree.follow place steps = .ok goal) (hgoal : tree.get? goal = some .directory) :
    (makeAll ending place steps).run tree = .ok () tree := by
  induction steps generalizing place with
  | nil => rfl
  | cons step rest ih =>
    cases step with
    | up => exact ih (FileTree.follow_up_cons_eq_ok_iff.1 hfollow).2
    | into name =>
      obtain ⟨-, hfits, hrest⟩ := FileTree.follow_into_cons_eq_ok_iff.1 hfollow
      have hplace := FileTree.get?_of_mem_way hrest hgoal (FileTree.start_mem_way _ _)
      rw [makeAll, if_neg (by simp [hfits])]
      simp only [run_bind, run_get, hplace]
      exact ih hrest

/-- Also where not all directories could be made, the tree is proper. -/
lemma isProper_makeAll (ending : Ending) (h : tree.IsProper)
    (hplace : tree.get? place = some .directory) (hsteps : FileTree.Plain steps) :
    ((makeAll ending place steps).after tree).IsProper := by
  -- The place moves along the steps and the tree grows, so the induction is for both.
  induction steps generalizing place tree with
  | nil => exact h
  | cons step rest ih =>
    have hrest : FileTree.Plain rest := fun name hname => hsteps name (List.mem_cons_of_mem _ hname)
    cases step with
    | up => exact ih h (h.get?_dropLast_of_get? hplace) hrest
    | into name =>
      rw [makeAll]
      split
      · exact h
      · rw [after_bind, run_get]
        dsimp only
        split
        · next hthere => exact ih h hthere hrest
        · exact h
        · split
          · exact h
          · have habove : tree.get? (place ++ [name]).dropLast = some .directory := by
              rwa [List.dropLast_concat]
            have hslash := FileTree.slashFree_concat (h.slashFree_of_get? hplace)
              (hsteps name List.mem_cons_self)
            exact ih (h.put habove (.inl rfl) hslash) (FileTree.get?_put_self (by simp)) hrest

/-! ## Making the directories of a path -/

lemma addsDirectories_of_run_makeDirectories
    (hrun : (makeDirectories path).run tree = .ok () after) : tree.AddsDirectories after :=
  (run_eq_ok_iff.1 hrun).2 ▸ addsDirectories_makeDirectories path tree

lemma isProper_makeDirectories (h : tree.IsProper) (path : String) :
    ((makeDirectories path).after tree).IsProper := by
  rw [after, run_makeDirectories]
  cases FileTree.checkPath path with
  | error f => exact h
  | ok u =>
    by_cases hempty : path = ""
    · simp only [if_pos hempty]
      exact h
    · simp only [if_neg hempty]
      exact isProper_makeAll _ h (h.get?_start _) (Route.plain_ofPath path)

/-- A path whose directories were made can be followed to a directory. -/
lemma exists_follow_of_run_makeDirectories (h : tree.IsProper)
    (hrun : (makeDirectories path).run tree = .ok () after) :
    after.follow (tree.start (Route.ofPath path)) (Route.ofPath path).steps =
        .ok (tree.placeOf path) ∧ after.get? (tree.placeOf path) = some .directory := by
  rw [run_makeDirectories] at hrun
  split at hrun
  · split at hrun
    · next hempty =>
      cases hrun
      rw [hempty]
      exact ⟨rfl, h.get?_start (Route.ofPath "")⟩
    · obtain ⟨-, goal, hfollow, hgoal⟩ :=
        of_run_makeAll h (h.get?_start _) (Route.plain_ofPath path) hrun
      obtain rfl := FileTree.eq_destination_of_follow hfollow
      exact ⟨hfollow, hgoal⟩
  · cases hrun

/-- Making the directories of a path makes the places on its way directories, and nothing else. -/
theorem get?_of_run_makeDirectories (h : tree.IsProper)
    (hrun : (makeDirectories path).run tree = .ok () after) (other : Location) :
    after.get? other = if other ∈ tree.wayOf path then some .directory else tree.get? other := by
  split_ifs with hother
  · obtain ⟨hfollow, hgoal⟩ := exists_follow_of_run_makeDirectories h hrun
    exact FileTree.get?_of_mem_way hfollow hgoal hother
  · rw [run_makeDirectories] at hrun
    split at hrun
    · split at hrun
      · cases hrun
        rfl
      · exact get?_of_run_makeAll_of_notMem hrun hother
    · cases hrun

/-- Directories that were made need not be made again, as long as none is removed. -/
theorem run_makeDirectories_again (h : tree.IsProper)
    (hrun : (makeDirectories path).run tree = .ok () after)
    (hkeeps : after.KeepsDirectories tree') :
    (makeDirectories path).run tree' = .ok () tree' := by
  obtain ⟨hfollow, hgoal⟩ := exists_follow_of_run_makeDirectories h hrun
  have hworking := hkeeps.workingDirectory_eq.trans
    (addsDirectories_of_run_makeDirectories hrun).workingDirectory_eq
  have hstart := FileTree.start_eq hworking (Route.ofPath path)
  have hagain := run_makeAll_of_directory (Route.ofPath path).ending
    (FileTree.follow_of_keepsDirectories hkeeps hfollow) (hkeeps.get?_eq _ hgoal)
  rw [run_makeDirectories] at hrun ⊢
  rw [hstart]
  split at hrun
  · split
    · rfl
    · exact hagain
  · cases hrun

end Files

end JobBinding

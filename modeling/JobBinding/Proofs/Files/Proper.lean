import Mathlib.Data.List.Induction
import Mathlib.Data.List.Nodup
import JobBinding.Proofs.Files.Names

/-!
# Trees in which every entry is in a directory

A list of entries is a tree of files if each location has one entry, every entry is in a directory,
and names have no slashes: the tree is proper. Writing files keeps that (`isProper_of_run_write`).
Making directories keeps it too, and a path whose directories were made leads to a directory
(`of_run_makeDirectories`). Without properness the way up from a directory can lead to nothing.
-/

namespace JobBinding

namespace FileTree

variable {tree tree' : FileTree} {place other start goal : Location} {node : Node} {name : String}
  {steps : List Step}

/-- Whether the names of a location have no slashes. -/
def SlashFree (place : Location) : Prop :=
  ∀ name ∈ place, '/' ∉ name.toList

instance (place : Location) : Decidable (SlashFree place) :=
  inferInstanceAs (Decidable (∀ name ∈ place, '/' ∉ name.toList))

lemma slashFree_concat (h : SlashFree place) (hname : '/' ∉ name.toList) :
    SlashFree (place ++ [name]) := by
  intro other hother
  rcases List.mem_append.1 hother with hother | hother
  · exact h other hother
  · rwa [List.mem_singleton.1 hother]

/-- A tree in which each location has one entry and every entry is in a directory. -/
structure IsProper (tree : FileTree) : Prop where
  nodup : (tree.entries.map (·.1)).Nodup
  get?_dropLast : ∀ entry ∈ tree.entries, tree.get? entry.1.dropLast = some .directory
  slashFree : ∀ entry ∈ tree.entries, SlashFree entry.1
  get?_workingDirectory : tree.get? tree.workingDirectory = some .directory

instance (tree : FileTree) : Decidable tree.IsProper :=
  decidable_of_iff
    ((tree.entries.map (·.1)).Nodup ∧
      (∀ entry ∈ tree.entries, tree.get? entry.1.dropLast = some .directory) ∧
      (∀ entry ∈ tree.entries, SlashFree entry.1) ∧
      tree.get? tree.workingDirectory = some .directory)
    ⟨fun ⟨hnodup, hdropLast, hslash, hworking⟩ => ⟨hnodup, hdropLast, hslash, hworking⟩,
      fun h => ⟨h.nodup, h.get?_dropLast, h.slashFree, h.get?_workingDirectory⟩⟩

/-! ## What is in a proper tree -/

lemma exists_mem_of_get? (h : tree.get? place = some node) (hplace : place ≠ []) :
    (place, node) ∈ tree.entries := by
  rw [get?, if_neg hplace] at h
  obtain ⟨entry, hfind, hnode⟩ := Option.map_eq_some_iff.1 h
  have hentry : entry.1 = place := by simpa using List.find?_some hfind
  rw [← hentry, ← hnode]
  exact List.mem_of_find?_eq_some hfind

/-- What is in a tree is in a directory of it. -/
lemma IsProper.get?_dropLast_of_get? (h : tree.IsProper) (hplace : tree.get? place = some node) :
    tree.get? place.dropLast = some .directory := by
  by_cases hroot : place = []
  · rw [hroot]
    rfl
  · exact h.get?_dropLast _ (exists_mem_of_get? hplace hroot)

lemma IsProper.slashFree_of_get? (h : tree.IsProper) (hplace : tree.get? place = some node) :
    SlashFree place := by
  by_cases hroot : place = []
  · rw [hroot]
    exact fun name hname => nomatch hname
  · exact h.slashFree _ (exists_mem_of_get? hplace hroot)

lemma nameIn?_eq_some_iff : nameIn? place other = some name ↔ other = place ++ [name] := by
  rw [nameIn?]
  constructor
  · intro h
    split at h
    · next hplace =>
      obtain ⟨init, rfl⟩ := List.getLast?_eq_some_iff.1 h
      rw [← hplace, List.dropLast_concat]
    · cases h
  · rintro rfl
    rw [if_pos List.dropLast_concat, List.getLast?_concat]

/-- A name is listed once. -/
lemma IsProper.nodup_names (h : tree.IsProper) (place : Location) : (tree.names place).Nodup := by
  refine List.Nodup.filterMap (fun other other' name hname hname' => ?_) h.nodup
  rw [nameIn?_eq_some_iff.1 hname, nameIn?_eq_some_iff.1 hname']

/-! ## Changes that keep a tree proper -/

/-- An entry can be put into a directory, unless it is a file where a directory is. -/
lemma IsProper.put (h : tree.IsProper) (habove : tree.get? place.dropLast = some .directory)
    (hnode : node = .directory ∨ tree.get? place ≠ some .directory) (hslash : SlashFree place) :
    (tree.put place node).IsProper := by
  -- A directory stays one: the entry that is put replaces a directory only if it is one itself.
  have hkept (other : Location) (hother : tree.get? other = some .directory) :
      (tree.put place node).get? other = some .directory := by
    by_cases hroot : other = []
    · rw [hroot]
      rfl
    by_cases hne : other = place
    · subst hne
      rw [get?_put_self hroot]
      rcases hnode with rfl | hnode
      · rfl
      · exact absurd hother hnode
    · rw [get?_put_of_ne hne, hother]
  have hentry {entry : Location × Node} (hmem : entry ∈ (tree.put place node).entries) :
      entry = (place, node) ∨ entry ∈ tree.entries ∧ entry.1 ≠ place := by
    simpa [FileTree.put, erase] using hmem
  exact {
    nodup := by
      have hrest : ((tree.erase place).entries.map (·.1)).Nodup :=
        h.nodup.sublist (List.filter_sublist.map _)
      refine List.nodup_cons.2 ⟨fun hmem => ?_, hrest⟩
      obtain ⟨entry, hentry, hplace⟩ := List.mem_map.1 hmem
      exact of_decide_eq_true (List.mem_filter.1 hentry).2 hplace
    get?_dropLast := by
      intro entry hmem
      apply hkept
      rcases hentry hmem with rfl | ⟨hmem, -⟩
      · exact habove
      · exact h.get?_dropLast entry hmem
    slashFree := by
      intro entry hmem
      rcases hentry hmem with rfl | ⟨hmem, -⟩
      · exact hslash
      · exact h.slashFree entry hmem
    get?_workingDirectory := hkept _ h.get?_workingDirectory }

/-! ## Following steps in a proper tree -/

/-- Where steps from a directory lead is a directory, or in one. -/
lemma IsProper.of_follow (h : tree.IsProper) (hstart : tree.get? start = some .directory)
    (hfollow : tree.follow start steps = .ok goal) :
    tree.get? goal = some .directory ∨ tree.get? goal.dropLast = some .directory := by
  induction steps generalizing start with
  | nil =>
    cases hfollow
    exact .inl hstart
  | cons step rest ih =>
    cases step with
    | up =>
      obtain ⟨-, hrest⟩ := follow_up_cons_eq_ok_iff.1 hfollow
      exact ih (h.get?_dropLast_of_get? hstart) hrest
    | into name =>
      obtain ⟨-, -, hrest⟩ := follow_into_cons_eq_ok_iff.1 hfollow
      -- Only the last step can lead to no directory; the directory is then the place before it.
      cases rest with
      | nil =>
        cases hrest
        right
        rwa [List.dropLast_concat]
      | cons next rest => exact ih (get?_of_follow_cons hrest) hrest

/-- Whether the names that some steps enter have no slashes. -/
def Plain (steps : List Step) : Prop :=
  ∀ name, .into name ∈ steps → '/' ∉ name.toList

lemma slashFree_of_follow (hstart : SlashFree start) (hsteps : Plain steps)
    (hfollow : tree.follow start steps = .ok goal) : SlashFree goal := by
  induction steps generalizing start with
  | nil =>
    cases hfollow
    exact hstart
  | cons step rest ih =>
    have hrest : Plain rest := fun name hname => hsteps name (List.mem_cons_of_mem _ hname)
    cases step with
    | up =>
      obtain ⟨-, hfollow⟩ := follow_up_cons_eq_ok_iff.1 hfollow
      exact ih (fun name hname => hstart name (List.dropLast_subset _ hname)) hrest hfollow
    | into name =>
      obtain ⟨-, -, hfollow⟩ := follow_into_cons_eq_ok_iff.1 hfollow
      exact ih (slashFree_concat hstart (hsteps name (by simp))) hrest hfollow

lemma IsProper.get?_start (h : tree.IsProper) (route : Route) :
    tree.get? (tree.start route) = some .directory := by
  rw [start]
  split
  · rfl
  · exact h.get?_workingDirectory

end FileTree

lemma Route.plain_ofPath (path : String) : FileTree.Plain (Route.ofPath path).steps := by
  intro name hname
  obtain ⟨part, hpart, hstep⟩ := List.mem_filterMap.1 hname
  have hslash := Path.slash_notMem_of_mem_parts hpart
  unfold Route.step? at hstep
  split at hstep
  · cases hstep
  split at hstep
  · cases hstep
  · cases hstep
    rwa [String.toList_ofList]

namespace Files

variable {α β : Type} {tree after : FileTree} {path text : String}

/-! ## Operations on proper trees -/

lemma run_bind_eq_ok_iff {x : Files α} {f : α → Files β} {b : β} :
    (x >>= f).run tree = .ok b after ↔
      ∃ a between, x.run tree = .ok a between ∧ (f a).run between = .ok b after := by
  rw [run_bind]
  cases x.run tree <;> simp

lemma run_bind_eq_error_iff {x : Files α} {f : α → Files β} {e : Failure} :
    (x >>= f).run tree = .error e after ↔
      x.run tree = .error e after ∨
        ∃ a between, x.run tree = .ok a between ∧ (f a).run between = .error e after := by
  rw [run_bind]
  cases x.run tree <;> simp

theorem isProper_of_run_write (h : tree.IsProper)
    (hrun : (write path text).run tree = .ok () after) : after.IsProper := by
  rw [run_write] at hrun
  cases hlocate : tree.locate path with
  | error f =>
    rw [hlocate] at hrun
    cases hrun
  | ok place =>
    simp only [hlocate] at hrun
    split at hrun
    · cases hrun
    next hplace =>
    cases hrun
    obtain ⟨-, -, hfollow, -⟩ := FileTree.locate_eq_ok_iff.1 hlocate
    have hstart := h.get?_start (Route.ofPath path)
    -- The place is no directory, as the write has found, so it is the one above that is there.
    rcases h.of_follow hstart hfollow with hdirectory | habove
    · exact absurd hdirectory hplace
    · have hslash := FileTree.slashFree_of_follow (h.slashFree_of_get? hstart)
        (Route.plain_ofPath path) hfollow
      exact h.put habove (.inr hplace) hslash

lemma addsDirectories_of_run_makeAll {ending : Ending} {steps : List Step} {place : Location}
    (hrun : (makeAll ending place steps).run tree = .ok () after) : tree.AddsDirectories after :=
  (run_eq_ok_iff.1 hrun).2 ▸ addsDirectories_makeAll ending steps place tree

/-- A step into a name leaves a directory there, which may be new. -/
lemma exists_of_run_makeAll_into {ending : Ending} {steps : List Step} {place : Location}
    {name : String} (hrun : (makeAll ending place (.into name :: steps)).run tree = .ok () after) :
    FileTree.fits name = true ∧ ∃ between : FileTree,
      (between = tree ∧ tree.get? (place ++ [name]) = some .directory ∨
        between = tree.put (place ++ [name]) .directory) ∧
      (makeAll ending (place ++ [name]) steps).run between = .ok () after := by
  rw [makeAll] at hrun
  split at hrun
  · cases hrun
  next hfits =>
  refine ⟨by simpa using hfits, ?_⟩
  rw [run_bind, run_get] at hrun
  dsimp only at hrun
  split at hrun
  · next hthere => exact ⟨tree, .inl ⟨rfl, hthere⟩, hrun⟩
  · cases hrun
  · split at hrun
    · cases hrun
    · exact ⟨_, .inr rfl, hrun⟩

/-- Steps whose directories were made lead to a directory, and the tree is proper still. -/
lemma of_run_makeAll {ending : Ending} {steps : List Step} {place : Location} (h : tree.IsProper)
    (hplace : tree.get? place = some .directory) (hsteps : FileTree.Plain steps)
    (hrun : (makeAll ending place steps).run tree = .ok () after) :
    after.IsProper ∧ ∃ goal, after.follow place steps = .ok goal ∧
      after.get? goal = some .directory := by
  induction steps generalizing place tree with
  | nil =>
    cases hrun
    exact ⟨h, place, rfl, hplace⟩
  | cons step rest ih =>
    -- The later steps may make directories, but the way through this one stays open.
    have hkept := (addsDirectories_of_run_makeAll hrun).keepsDirectories.get?_eq place hplace
    have hrest : FileTree.Plain rest := fun name hname => hsteps name (List.mem_cons_of_mem _ hname)
    cases step with
    | up =>
      obtain ⟨hproper, goal, hfollow, hgoal⟩ := ih h (h.get?_dropLast_of_get? hplace) hrest hrun
      exact ⟨hproper, goal, FileTree.follow_up_cons_eq_ok_iff.2 ⟨hkept, hfollow⟩, hgoal⟩
    | into name =>
      obtain ⟨hfits, between, hbetween, hrun⟩ := exists_of_run_makeAll_into hrun
      -- Found or made, the directory lets the next steps start from one in a proper tree.
      have hmade : between.IsProper ∧ between.get? (place ++ [name]) = some .directory := by
        rcases hbetween with ⟨rfl, hthere⟩ | rfl
        · exact ⟨h, hthere⟩
        · have habove : tree.get? (place ++ [name]).dropLast = some .directory := by
            rwa [List.dropLast_concat]
          have hslash := FileTree.slashFree_concat (h.slashFree_of_get? hplace)
            (hsteps name List.mem_cons_self)
          exact ⟨h.put habove (.inl rfl) hslash, FileTree.get?_put_self (by simp)⟩
      obtain ⟨hproper, goal, hfollow, hgoal⟩ := ih hmade.1 hmade.2 hrest hrun
      exact ⟨hproper, goal, FileTree.follow_into_cons_eq_ok_iff.2 ⟨hkept, hfits, hfollow⟩, hgoal⟩

lemma run_makeDirectories (path : String) :
    (makeDirectories path).run tree = match FileTree.checkPath path with
      | .ok () =>
        if path = "" then .ok () tree
        else (makeAll (Route.ofPath path).ending (tree.start (Route.ofPath path))
          (Route.ofPath path).steps).run tree
      | .error f => .error (.file f) tree := by
  rw [makeDirectories, run_bind, run_ofExcept]
  cases FileTree.checkPath path with
  | error f => rfl
  | ok u =>
    by_cases hempty : path = ""
    · simp only [orFail, hempty, ne_eq, not_true_eq_false, if_false, if_true]
      rfl
    · simp only [orFail, hempty, ne_eq, not_false_eq_true, if_false, if_true, makeRoute, run_bind,
        run_get]

lemma addsDirectories_makeDirectories (path : String) (tree : FileTree) :
    tree.AddsDirectories ((makeDirectories path).after tree) := by
  rw [after, run_makeDirectories]
  cases FileTree.checkPath path with
  | error f => exact .refl tree
  | ok u =>
    by_cases hempty : path = ""
    · simp only [if_pos hempty]
      exact .refl tree
    · simp only [if_neg hempty]
      exact addsDirectories_makeAll _ _ _ tree

/-- Making the directories of a path leaves the tree proper, and the path leads to a directory. -/
theorem of_run_makeDirectories (h : tree.IsProper)
    (hrun : (makeDirectories path).run tree = .ok () after) :
    after.IsProper ∧ (path ≠ "" → after.isDirectory path = true) := by
  rw [run_makeDirectories] at hrun
  split at hrun
  · next hcheck =>
    split at hrun
    · next hempty =>
      cases hrun
      exact ⟨h, fun hne => absurd hempty hne⟩
    next hne =>
    have hadds := addsDirectories_of_run_makeAll hrun
    obtain ⟨hproper, goal, hfollow, hgoal⟩ :=
      of_run_makeAll h (h.get?_start _) (Route.plain_ofPath path) hrun
    have hstart : after.start (Route.ofPath path) = tree.start (Route.ofPath path) := by
      rw [FileTree.start, FileTree.start, hadds.workingDirectory_eq]
    refine ⟨hproper, fun _ => decide_eq_true (FileTree.node?_eq_some_iff.2 ⟨goal, ?_, hgoal⟩)⟩
    exact FileTree.locate_eq_ok_iff.2 ⟨hcheck, hne, by rw [hstart, hfollow], .inr hgoal⟩
  · cases hrun

end Files

end JobBinding

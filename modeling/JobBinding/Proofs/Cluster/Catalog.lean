import Mathlib.Data.List.Nodup
import JobBinding.Cluster.Catalog
import JobBinding.Proofs.SortedSet

/-!
# What a catalog knows

A catalog is determined by the capacities it gives (`eq_of_find?_eq`), so adding definitions is
described by what is found afterwards: the last definition of a name counts, and every other name
has what it had before. Adding the same definitions again therefore changes nothing
(`defineAll_defineAll`).
-/

namespace JobBinding.Catalog

variable {catalog : Catalog} {name other : String} {capacity : Capacity}
  {definitions : List (String × Capacity)}

/-! ## Entries -/

lemma nodup_names (catalog : Catalog) : (catalog.entries.map Prod.fst).Nodup := by
  refine List.pairwise_map.2 (catalog.ascending.imp fun {d e} hlt heq => ?_)
  exact Sortable.irrefl e.1 (heq ▸ hlt)

lemma mem_entries_iff_find? :
    (name, capacity) ∈ catalog.entries ↔ catalog.find? name = some capacity := by
  rw [find?, Option.map_eq_some_iff]
  constructor
  · intro hmem
    have hsome : (catalog.entries.find? (·.1 = name)).isSome = true :=
      List.find?_isSome.2 ⟨_, hmem, decide_eq_true rfl⟩
    obtain ⟨e, he⟩ := Option.isSome_iff_exists.1 hsome
    have hname : e.1 = name := by simpa using List.find?_some he
    obtain rfl : e = (name, capacity) :=
      List.inj_on_of_nodup_map catalog.nodup_names (List.mem_of_find?_eq_some he) hmem hname
    exact ⟨_, he, rfl⟩
  · rintro ⟨e, he, rfl⟩
    have hname : e.1 = name := by simpa using List.find?_some he
    rw [← hname]
    exact List.mem_of_find?_eq_some he

/-- Catalogs that give the same capacities are equal. -/
lemma eq_of_find?_eq {a b : Catalog} (h : ∀ name, a.find? name = b.find? name) : a = b := by
  have hentries : a.entries = b.entries :=
    Sortable.eq_of_ascending a.ascending b.ascending fun e => by
      rw [mem_entries_iff_find?, mem_entries_iff_find?, h]
  cases a
  cases b
  cases hentries
  rfl

lemma lookup_eq_ok_iff :
    catalog.lookup name = .ok capacity ↔ catalog.find? name = some capacity := by
  rw [lookup]
  cases catalog.find? name <;> simp

lemma find?_eq_none_iff :
    catalog.find? name = none ↔ name ∉ catalog.entries.map Prod.fst := by
  rw [Option.eq_none_iff_forall_ne_some]
  constructor
  · intro hnone hmem
    obtain ⟨⟨_, capacity⟩, hentry, rfl⟩ := List.mem_map.1 hmem
    exact hnone capacity (mem_entries_iff_find?.1 hentry)
  · intro hmem capacity hfind
    exact hmem (List.mem_map_of_mem (mem_entries_iff_find?.2 hfind))

lemma lookup_eq_of_find?_eq {a b : Catalog} (h : a.find? name = b.find? name) :
    a.lookup name = b.lookup name := by
  rw [lookup, lookup, h]

lemma lookup_of_notMem (h : name ∉ catalog.entries.map Prod.fst) :
    catalog.lookup name = .error (.unsupportedCluster name) := by
  rw [lookup, find?_eq_none_iff.2 h]

/-! ## Adding definitions -/

lemma find?_cons (e : String × Capacity) (es : List (String × Capacity)) :
    (e :: es).find? (·.1 = other) = if e.1 = other then some e else es.find? (·.1 = other) := by
  by_cases h : e.1 = other <;> simp [h]

lemma find?_place (es : List (String × Capacity)) :
    (place name capacity es).find? (·.1 = other) =
      if name = other then some (name, capacity) else es.find? (·.1 = other) := by
  induction es with
  | nil => exact find?_cons (name, capacity) []
  | cons e es ih =>
    rw [place]
    split
    · exact find?_cons (name, capacity) (e :: es)
    split
    -- The entry goes further back, and only one of the two can have the name that is looked for.
    · next hlt =>
      rw [find?_cons, find?_cons, ih]
      by_cases hother : e.1 = other
      · have hname : name ≠ other := by
          rintro rfl
          rw [hother] at hlt
          exact Sortable.irrefl _ hlt
        rw [if_pos hother, if_neg hname, if_pos hother]
      · rw [if_neg hother, if_neg hother]
    -- Neither name is less than the other, so they are equal: the new entry replaces the old one.
    · next hge hle =>
      obtain rfl : name = e.1 := Sortable.eq_of_not_lt hge hle
      rw [find?_cons, find?_cons]
      split_ifs <;> rfl

lemma find?_define : (catalog.define name capacity).find? other =
    if name = other then some capacity else catalog.find? other := by
  rw [find?, define, find?_place]
  split <;> rfl

lemma find?_defineAll_of_notMem (h : name ∉ definitions.map Prod.fst) :
    (catalog.defineAll definitions).find? name = catalog.find? name := by
  induction definitions generalizing catalog with
  | nil => rfl
  | cons d ds ih =>
    obtain ⟨hd, hds⟩ := not_or.1 (mt List.mem_cons.2 h)
    exact (ih hds).trans (find?_define.trans (if_neg (Ne.symm hd)))

/-- The last definition of a name counts. -/
lemma find?_defineAll_of_last {earlier later : List (String × Capacity)}
    (h : name ∉ later.map Prod.fst) :
    (catalog.defineAll (earlier ++ (name, capacity) :: later)).find? name = some capacity := by
  rw [defineAll, List.foldl_append, List.foldl_cons]
  exact (find?_defineAll_of_notMem h).trans (find?_define.trans (if_pos rfl))

/-- A name that is defined has a last definition. -/
lemma exists_last (h : name ∈ definitions.map Prod.fst) :
    ∃ earlier capacity later, definitions = earlier ++ (name, capacity) :: later ∧
      name ∉ later.map Prod.fst := by
  induction definitions with
  | nil => cases h
  | cons d ds ih =>
    by_cases hds : name ∈ ds.map Prod.fst
    · obtain ⟨earlier, capacity, later, rfl, hlater⟩ := ih hds
      exact ⟨d :: earlier, capacity, later, rfl, hlater⟩
    · obtain rfl : name = d.1 := (List.mem_cons.1 h).resolve_right hds
      exact ⟨[], d.2, ds, rfl, hds⟩

/-- Adding definitions again changes nothing. -/
theorem defineAll_defineAll :
    (catalog.defineAll definitions).defineAll definitions = catalog.defineAll definitions := by
  refine eq_of_find?_eq fun name => ?_
  by_cases hname : name ∈ definitions.map Prod.fst
  · obtain ⟨earlier, capacity, later, rfl, hlater⟩ := exists_last hname
    rw [find?_defineAll_of_last hlater, find?_defineAll_of_last hlater]
  · exact find?_defineAll_of_notMem hname

end JobBinding.Catalog

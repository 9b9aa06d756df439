import JobBinding.Cluster.Capacity
import JobBinding.Failure
import JobBinding.SortedSet

/-!
# Catalogs of clusters

The known clusters by name, in ascending order of the names' bytes. A later definition of a name
replaces an earlier one.
-/

namespace JobBinding

/-- The capacities of the known clusters, by ascending name. -/
structure Catalog where
  entries : List (String × Capacity)
  ascending : entries.Pairwise fun a b => a.1 < b.1

namespace Catalog

def empty : Catalog :=
  ⟨[], List.Pairwise.nil⟩

/-- Puts an entry at its place, instead of an entry of the same name. -/
def place (name : String) (capacity : Capacity) :
    List (String × Capacity) → List (String × Capacity)
  | [] => [(name, capacity)]
  | e :: es =>
    if name < e.1 then (name, capacity) :: e :: es
    else if e.1 < name then e :: place name capacity es
    else (name, capacity) :: es

theorem name_of_mem_place {name : String} {capacity : Capacity} {e : String × Capacity}
    {es : List (String × Capacity)} (h : e ∈ place name capacity es) :
    e.1 = name ∨ e ∈ es := by
  induction es with
  | nil => simp_all [place]
  | cons d es ih =>
    simp only [place] at h
    split at h
    · rcases List.mem_cons.1 h with h | h <;> simp_all
    · split at h
      · rcases List.mem_cons.1 h with h | h
        · simp [h]
        · exact (ih h).imp_right (List.mem_cons_of_mem d)
      · rcases List.mem_cons.1 h with h | h <;> simp_all

theorem ascending_place {name : String} {capacity : Capacity} {es : List (String × Capacity)}
    (h : es.Pairwise fun a b => a.1 < b.1) :
    (place name capacity es).Pairwise fun a b => a.1 < b.1 := by
  induction es with
  | nil => simp [place]
  | cons d es ih =>
    obtain ⟨hd, hes⟩ := List.pairwise_cons.1 h
    simp only [place]
    split
    · next hlt =>
      refine List.pairwise_cons.2 ⟨fun e he => ?_, h⟩
      rcases List.mem_cons.1 he with rfl | he
      · exact hlt
      · exact Sortable.trans hlt (hd e he)
    · split
      · next hgt =>
        refine List.pairwise_cons.2 ⟨fun e he => ?_, ih hes⟩
        rcases name_of_mem_place he with he | he
        · rw [he]; exact hgt
        · exact hd e he
      · next hlt hgt =>
        have : name = d.1 := Sortable.eq_of_not_lt hlt hgt
        exact List.pairwise_cons.2 ⟨fun e he => this ▸ hd e he, hes⟩

/-- Adds a definition; the last definition of a name counts. -/
def define (catalog : Catalog) (name : String) (capacity : Capacity) : Catalog :=
  ⟨place name capacity catalog.entries, ascending_place catalog.ascending⟩

def defineAll (catalog : Catalog) (definitions : List (String × Capacity)) : Catalog :=
  definitions.foldl (fun c d => c.define d.1 d.2) catalog

def find? (catalog : Catalog) (name : String) : Option Capacity :=
  (catalog.entries.find? (·.1 = name)).map (·.2)

/-- The capacity of a cluster that must be known. -/
def lookup (catalog : Catalog) (name : String) : Except Failure Capacity :=
  match catalog.find? name with
  | some capacity => .ok capacity
  | none => .error (.unsupportedCluster name)

/-- The clusters that are known without a cluster file. -/
def builtin : Catalog :=
  empty.defineAll
    [("andes", ⟨32, 0, .none, false⟩), ("anvil", ⟨128, 0, .nvidia, true⟩),
      ("delta", ⟨128, 4, .nvidia, true⟩), ("frontier", ⟨0, 8, .amd, false⟩),
      ("greatlakes", ⟨36, 2, .nvidia, true⟩)]

end Catalog

end JobBinding

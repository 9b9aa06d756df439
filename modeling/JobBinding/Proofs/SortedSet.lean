import Mathlib.Data.List.Sort
import JobBinding.SortedSet

/-!
# Sets and their lists

A set is kept as the ascending list of its elements, so it is determined by its elements
(`eq_of_mem_iff`), and making a set of that list gives the set back (`ofList_toList`).
-/

namespace JobBinding

variable {α β : Type} [LT α] [Sortable α]

/-- Lists with the same elements are equal if they ascend by the same key. -/
lemma Sortable.eq_of_ascending {key : β → α} {xs ys : List β}
    (hxs : xs.Pairwise fun x y => key x < key y) (hys : ys.Pairwise fun x y => key x < key y)
    (h : ∀ x, x ∈ xs ↔ x ∈ ys) : xs = ys := by
  have hirrefl : Std.Irrefl fun x y : β => key x < key y := ⟨fun x => Sortable.irrefl (key x)⟩
  have hasymm : Std.Asymm fun x y : β => key x < key y :=
    ⟨fun x y hxy hyx => Sortable.irrefl (key x) (Sortable.trans hxy hyx)⟩
  exact hxs.eq_of_mem_iff hys h

namespace SortedSet

/-- Sets with the same elements are equal. -/
lemma eq_of_mem_iff {s t : SortedSet α} (h : ∀ x, x ∈ s ↔ x ∈ t) : s = t := by
  have hlist : s.toList = t.toList := Sortable.eq_of_ascending s.ascending t.ascending h
  cases s
  cases t
  cases hlist
  rfl

variable [DecidableLT α]

/-- A set is the set of its elements. -/
theorem ofList_toList (s : SortedSet α) : ofList s.toList = s :=
  eq_of_mem_iff fun _ => mem_ofList

lemma toList_ofList_of_ascending {xs : List α} (h : xs.Pairwise (· < ·)) :
    (ofList xs).toList = xs :=
  congrArg toList (ofList_toList ⟨xs, h⟩)

omit [Sortable α] in
/-- An element that is put in its place adds no more than itself to what a list gives. -/
lemma length_flatMap_place_le (f : α → List β) (x : α) (ys : List α) :
    ((place x ys).flatMap f).length ≤ (f x).length + (ys.flatMap f).length := by
  induction ys with
  | nil => simp [place]
  | cons y ys ih =>
    rw [place]
    split_ifs
    · simp
    · simp only [List.flatMap_cons, List.length_append] at ih ⊢
      omega
    · simp

/-- The elements of a list, each of them once, give no more than the list. -/
lemma length_flatMap_ofList_le (f : α → List β) (xs : List α) :
    ((ofList xs).toList.flatMap f).length ≤ (xs.flatMap f).length := by
  induction xs with
  | nil => exact Nat.le_refl 0
  | cons x xs ih =>
    have hplace := length_flatMap_place_le f x (ofList xs).toList
    rw [List.flatMap_cons, List.length_append]
    exact Nat.le_trans hplace (Nat.add_le_add_left ih _)

end SortedSet

end JobBinding

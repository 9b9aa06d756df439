/-!
# Finite sets in ascending order

A set of values of a linear order is kept as the ascending list of its elements. Each set then has
one representation, and what is written or shown from it has one order.
-/

namespace JobBinding

/-- An order by which a set can be sorted. -/
class Sortable (α : Type) [LT α] : Prop where
  trans : ∀ {a b c : α}, a < b → b < c → a < c
  irrefl : ∀ a : α, ¬ a < a
  eq_of_not_lt : ∀ {a b : α}, ¬ a < b → ¬ b < a → a = b

instance : Sortable Nat where
  trans := Nat.lt_trans
  irrefl := Nat.lt_irrefl
  eq_of_not_lt h₁ h₂ := Nat.le_antisymm (Nat.not_lt.1 h₂) (Nat.not_lt.1 h₁)

instance : Sortable UInt64 where
  trans := UInt64.lt_trans
  irrefl _ := UInt64.lt_irrefl _
  eq_of_not_lt h₁ h₂ := UInt64.le_antisymm (UInt64.not_lt.1 h₂) (UInt64.not_lt.1 h₁)

instance : Sortable String where
  trans := String.lt_trans
  irrefl := String.lt_irrefl
  eq_of_not_lt h₁ h₂ := String.le_antisymm (String.not_lt.1 h₂) (String.not_lt.1 h₁)

/-- Lists of sortable values are sorted by the first difference, a list before its
continuations. -/
instance {α : Type} [LT α] [Sortable α] : Sortable (List α) where
  trans {as bs cs} h₁ h₂ := by
    induction as generalizing bs cs with
    | nil =>
      cases bs with
      | nil => exact h₂
      | cons b bs =>
        cases cs with
        | nil => exact absurd h₂ (List.not_lt_nil _)
        | cons c cs => exact List.nil_lt_cons c cs
    | cons a as ih =>
      cases bs with
      | nil => exact absurd h₁ (List.not_lt_nil _)
      | cons b bs =>
        cases cs with
        | nil => exact absurd h₂ (List.not_lt_nil _)
        | cons c cs =>
          rw [List.cons_lt_cons_iff] at h₁ h₂ ⊢
          rcases h₁ with h₁ | ⟨rfl, h₁⟩
          · rcases h₂ with h₂ | ⟨rfl, _⟩
            · exact Or.inl (Sortable.trans h₁ h₂)
            · exact Or.inl h₁
          · rcases h₂ with h₂ | ⟨rfl, h₂⟩
            · exact Or.inl h₂
            · exact Or.inr ⟨rfl, ih h₁ h₂⟩
  irrefl as := by
    induction as with
    | nil => exact List.not_lt_nil _
    | cons a as ih =>
      rw [List.cons_lt_cons_iff]
      exact fun h => h.elim (Sortable.irrefl a) fun h => ih h.2
  eq_of_not_lt {as bs} h₁ h₂ := by
    induction as generalizing bs with
    | nil =>
      cases bs with
      | nil => rfl
      | cons b bs => exact absurd (List.nil_lt_cons b bs) h₁
    | cons a as ih =>
      cases bs with
      | nil => exact absurd (List.nil_lt_cons a as) h₂
      | cons b bs =>
        rw [List.cons_lt_cons_iff] at h₁ h₂
        have hab : a = b := Sortable.eq_of_not_lt (fun h => h₁ (Or.inl h)) fun h => h₂ (Or.inl h)
        subst hab
        rw [ih (fun h => h₁ (Or.inr ⟨rfl, h⟩)) fun h => h₂ (Or.inr ⟨rfl, h⟩)]

/-- A finite set as the ascending list of its elements. -/
structure SortedSet (α : Type) [LT α] where
  toList : List α
  ascending : toList.Pairwise (· < ·)

namespace SortedSet

variable {α : Type} [LT α]

instance [DecidableEq α] : DecidableEq (SortedSet α) := fun s t =>
  if h : s.toList = t.toList then
    isTrue (by cases s; cases t; simp_all)
  else
    isFalse (fun e => h (by rw [e]))

def empty : SortedSet α :=
  ⟨[], List.Pairwise.nil⟩

instance : Inhabited (SortedSet α) := ⟨empty⟩

instance : Membership α (SortedSet α) := ⟨fun s x => x ∈ s.toList⟩

def size (s : SortedSet α) : Nat :=
  s.toList.length

variable [DecidableLT α]

/-- Puts a value at its place in an ascending list, unless it is there. -/
def place (x : α) : List α → List α
  | [] => [x]
  | y :: ys => if x < y then x :: y :: ys else if y < x then y :: place x ys else y :: ys

variable [Sortable α]

theorem mem_place {x z : α} {ys : List α} : z ∈ place x ys ↔ z = x ∨ z ∈ ys := by
  induction ys with
  | nil => simp [place]
  | cons y ys ih =>
    simp only [place]
    split
    · simp
    · split
      · simp only [List.mem_cons, ih]
        exact ⟨fun h => by rcases h with h | h | h <;> simp [h],
          fun h => by rcases h with h | h | h <;> simp [h]⟩
      · next hxy hyx =>
        have : x = y := Sortable.eq_of_not_lt hxy hyx
        simp [this]

theorem ascending_place {x : α} {ys : List α} (h : ys.Pairwise (· < ·)) :
    (place x ys).Pairwise (· < ·) := by
  induction ys with
  | nil => simp [place]
  | cons y ys ih =>
    obtain ⟨hy, hys⟩ := List.pairwise_cons.1 h
    simp only [place]
    split
    · next hxy =>
      exact List.pairwise_cons.2
        ⟨fun z hz => (List.mem_cons.1 hz).elim (fun e => e ▸ hxy)
          fun hz => Sortable.trans hxy (hy z hz), h⟩
    · split
      · next hyx =>
        exact List.pairwise_cons.2
          ⟨fun z hz => (mem_place.1 hz).elim (fun e => e ▸ hyx) (hy z), ih hys⟩
      · exact h

def insert (x : α) (s : SortedSet α) : SortedSet α :=
  ⟨place x s.toList, ascending_place s.ascending⟩

def ofList (xs : List α) : SortedSet α :=
  xs.foldr insert empty

@[simp] theorem mem_insert {x z : α} {s : SortedSet α} : z ∈ s.insert x ↔ z = x ∨ z ∈ s :=
  mem_place

@[simp] theorem mem_ofList {z : α} {xs : List α} : z ∈ ofList xs ↔ z ∈ xs := by
  induction xs with
  | nil => exact Iff.rfl
  | cons x xs ih => simpa [ofList] using or_congr_right ih

end SortedSet

end JobBinding

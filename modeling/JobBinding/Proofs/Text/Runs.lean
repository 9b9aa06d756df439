import Mathlib.Tactic.Common

/-!
# Runs of characters

A run of characters of one kind is taken off whole, if it stops before what follows.
-/

namespace JobBinding.Text

variable {p : Char → Bool} {run rest : List Char}

/-- Whether a run of characters of a kind stops before a text. -/
def Stops (p : Char → Bool) (rest : List Char) : Prop :=
  ∀ c ∈ rest.head?, p c = false

lemma stops_cons {c : Char} (h : p c = false) (rest : List Char) : Stops p (c :: rest) := by
  intro d hd
  cases hd
  exact h

lemma takeWhile_append_of_stops (hrun : ∀ c ∈ run, p c = true) (h : Stops p rest) :
    (run ++ rest).takeWhile p = run := by
  rw [List.takeWhile_append_of_pos hrun]
  cases rest with
  | nil => rw [List.takeWhile_nil, List.append_nil]
  | cons c rest =>
    rw [List.takeWhile_cons_of_neg (by simp [h c rfl]), List.append_nil]

lemma dropWhile_append_of_stops (hrun : ∀ c ∈ run, p c = true) (h : Stops p rest) :
    (run ++ rest).dropWhile p = rest := by
  rw [List.dropWhile_append_of_pos hrun]
  cases rest with
  | nil => rfl
  | cons c rest => rw [List.dropWhile_cons_of_neg (by simp [h c rfl])]

/-- Two texts that are cut at the same mark have the same parts. -/
lemma append_cons_inj {mark : Char} {a b a' b' : List Char} (ha : mark ∉ a) (ha' : mark ∉ a')
    (h : a ++ mark :: b = a' ++ mark :: b') : a = a' ∧ b = b' := by
  have hrun : ∀ t : List Char, mark ∉ t → ∀ c ∈ t, (c != mark) = true := by
    rintro t ht c hc
    rw [bne_iff_ne]
    rintro rfl
    exact ht hc
  have hstops : ∀ t : List Char, Stops (· != mark) (mark :: t) :=
    stops_cons (bne_self_eq_false mark)
  have hfirst : a = a' := by
    rw [← takeWhile_append_of_stops (hrun a ha) (hstops b), h,
      takeWhile_append_of_stops (hrun a' ha') (hstops b')]
  subst hfirst
  exact ⟨rfl, (List.cons_inj_right mark).1 (List.append_cancel_left h)⟩

end JobBinding.Text

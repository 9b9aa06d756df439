import Mathlib.Tactic.Common

/-!
# Computations that can fail

A computation of two steps succeeds exactly if both do. Functions written with `do` are taken apart
with this. What a computation returns, and what it fails with, is known exactly once every case has
been followed (`eq_ok_iff_and_eq_error_iff`). Whether a computation without a value succeeds is a
question that can be decided.
-/

namespace JobBinding

lemma ok_bind {ε α β : Type} (a : α) (f : α → Except ε β) : Except.ok a >>= f = f a :=
  rfl

lemma bind_eq_ok_iff {ε α β : Type} {x : Except ε α} {f : α → Except ε β} {b : β} :
    x >>= f = .ok b ↔ ∃ a, x = .ok a ∧ f a = .ok b := by
  cases x with
  | error e =>
    constructor
    · intro h
      cases h
    · rintro ⟨a, h, -⟩
      cases h
  | ok a =>
    constructor
    · intro h
      exact ⟨a, rfl, h⟩
    · rintro ⟨a', ha, h⟩
      cases ha
      exact h

/-- What makes a computation succeed and what makes it fail are conditions for its outcomes as soon
as one of them is always there. -/
lemma eq_ok_iff_and_eq_error_iff {ε α : Type} {x : Except ε α} {P : α → Prop} {Q : ε → Prop}
    (hok : ∀ a, P a → x = .ok a) (herror : ∀ e, Q e → x = .error e)
    (h : (∃ a, P a) ∨ ∃ e, Q e) : (∀ a, x = .ok a ↔ P a) ∧ ∀ e, x = .error e ↔ Q e := by
  rcases h with ⟨a', ha'⟩ | ⟨e', he'⟩
  · have hx := hok a' ha'
    refine ⟨fun a => ⟨fun h => ?_, hok a⟩, fun e => ⟨fun h => ?_, herror e⟩⟩
    · cases hx.symm.trans h
      exact ha'
    · cases hx.symm.trans h
  · have hx := herror e' he'
    refine ⟨fun a => ⟨fun h => ?_, hok a⟩, fun e => ⟨fun h => ?_, herror e⟩⟩
    · cases hx.symm.trans h
    · cases hx.symm.trans h
      exact he'

lemma eq_ok_of_isOk {ε : Type} {x : Except ε Unit} (h : x.isOk = true) : x = .ok () := by
  cases x with
  | error e => cases h
  | ok u => rfl

end JobBinding

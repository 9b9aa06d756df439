import JobBinding.Proofs.Text.Decimal
import JobBinding.Proofs.Text.Runs
import JobBinding.Text.Duration

/-!
# Time limits

A time limit as it is shown tells the duration: the hours end at the first colon, the minutes at the
second one.
-/

namespace JobBinding.Duration

open Text

lemma toList_clock (d : Duration) :
    d.clock.toList = (Decimal.twoDigits (d.seconds / 3600)).toList ++ ':' ::
      ((Decimal.twoDigits (d.seconds % 3600 / 60)).toList ++ ':' ::
        (Decimal.twoDigits (d.seconds % 60)).toList) := by
  simp [clock]

lemma colon_not_mem_twoDigits (n : Nat) : ':' ∉ (Decimal.twoDigits n).toList := by
  intro h
  exact absurd (Decimal.isDigit_of_mem_twoDigits h) (by decide)

theorem clock_injective : Function.Injective clock := by
  intro d d' h
  have htext := congrArg String.toList h
  rw [toList_clock, toList_clock] at htext
  obtain ⟨hhours, htext⟩ :=
    append_cons_inj (colon_not_mem_twoDigits _) (colon_not_mem_twoDigits _) htext
  obtain ⟨hminutes, hseconds⟩ :=
    append_cons_inj (colon_not_mem_twoDigits _) (colon_not_mem_twoDigits _) htext
  have hvalue {n n' : Nat} (h : (Decimal.twoDigits n).toList = (Decimal.twoDigits n').toList) :
      n = n' := by
    rw [← Decimal.value_twoDigits n, h, Decimal.value_twoDigits]
  have hhours := hvalue hhours
  have hminutes := hvalue hminutes
  have hseconds := hvalue hseconds
  obtain ⟨n⟩ := d
  obtain ⟨n'⟩ := d'
  rw [Duration.mk.injEq]
  dsimp only at hhours hminutes hseconds
  omega

end JobBinding.Duration

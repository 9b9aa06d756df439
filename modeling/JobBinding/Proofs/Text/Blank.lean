import Mathlib.Data.List.DropRight
import JobBinding.Proofs.Text.Runs
import JobBinding.Text.Blank

/-!
# Trimmed texts

Trimming takes the white space off both ends and nothing else, which fixes what is left
(`trimChars_eq_iff`).
-/

namespace JobBinding.Text

variable {cs t : List Char} {c : Char}

/-- Whether a text is what is left of another one without the white space at its ends. -/
def IsTrimmed (cs t : List Char) : Prop :=
  ∃ front back, cs = front ++ t ++ back ∧ (∀ c ∈ front ++ back, isBlank c = true) ∧
    Stops isBlank t ∧ Stops isBlank t.reverse

lemma trimChars_eq_rdropWhile (cs : List Char) :
    trimChars cs = (cs.dropWhile isBlank).rdropWhile isBlank :=
  rfl

lemma stops_dropWhile (p : Char → Bool) (cs : List Char) : Stops p (cs.dropWhile p) := by
  intro c hc
  have hhead := List.head?_dropWhile_not p cs
  rw [Option.mem_def.1 hc] at hhead
  simpa using hhead

lemma isTrimmed_trimChars (cs : List Char) : IsTrimmed cs (trimChars cs) := by
  have hcut := List.rdropWhile_append_rtakeWhile (p := isBlank) (l := cs.dropWhile isBlank)
  rw [← trimChars_eq_rdropWhile] at hcut
  refine ⟨cs.takeWhile isBlank, (cs.dropWhile isBlank).rtakeWhile isBlank, ?_, ?_, ?_, ?_⟩
  · rw [List.append_assoc, hcut, List.takeWhile_append_dropWhile]
  · intro c hc
    rcases List.mem_append.1 hc with hfront | hback
    · exact List.mem_takeWhile_imp hfront
    · exact List.mem_rtakeWhile_imp hback
  · intro c hc
    have hhead := stops_dropWhile isBlank cs
    rw [← hcut] at hhead
    exact hhead c (List.mem_head?_append_of_mem_head? hc)
  · rw [trimChars, List.reverse_reverse]
    exact stops_dropWhile isBlank _

lemma IsTrimmed.trimChars_eq (h : IsTrimmed cs t) : trimChars cs = t := by
  obtain ⟨front, back, rfl, hblank, hhead, hlast⟩ := h
  rw [List.forall_mem_append] at hblank
  by_cases ht : t = []
  · have hall : (front ++ t ++ back).dropWhile isBlank = [] := by
      rw [List.dropWhile_eq_nil_iff, ht, List.append_nil, List.forall_mem_append]
      exact hblank
    rw [trimChars, hall, ht]
    rfl
  · have hstops : Stops isBlank (t ++ back) := by
      intro c hc
      rw [List.head?_append_of_ne_nil t ht] at hc
      exact hhead c hc
    have hback : ∀ c ∈ back.reverse, isBlank c = true := by simpa using hblank.2
    rw [trimChars, List.append_assoc, dropWhile_append_of_stops hblank.1 hstops,
      List.reverse_append, dropWhile_append_of_stops hback hlast, List.reverse_reverse]

lemma trimChars_eq_iff : trimChars cs = t ↔ IsTrimmed cs t := by
  constructor
  · rintro rfl
    exact isTrimmed_trimChars cs
  · exact IsTrimmed.trimChars_eq

/-- A text without white space is all that is left between white space. -/
lemma isTrimmed_of_forall {front back : List Char}
    (hblank : ∀ c ∈ front ++ back, isBlank c = true) (h : ∀ c ∈ t, isBlank c = false) :
    IsTrimmed (front ++ t ++ back) t :=
  ⟨front, back, rfl, hblank, fun c hc => h c (List.mem_of_mem_head? hc),
    fun c hc => h c (List.mem_reverse.1 (List.mem_of_mem_head? hc))⟩

/-- White space at the end of a text makes no difference. -/
lemma trimChars_concat (hc : isBlank c = true) : trimChars (cs ++ [c]) = trimChars cs := by
  obtain ⟨front, back, hcs, hblank, hends⟩ := isTrimmed_trimChars cs
  apply IsTrimmed.trimChars_eq
  refine ⟨front, back ++ [c], ?_, ?_, hends⟩
  · calc
      cs ++ [c] = front ++ trimChars cs ++ back ++ [c] := congrArg (· ++ [c]) hcs
      _ = front ++ trimChars cs ++ (back ++ [c]) := List.append_assoc _ _ _
  · rw [← List.append_assoc, List.forall_mem_append]
    exact ⟨hblank, by simpa using hc⟩

end JobBinding.Text

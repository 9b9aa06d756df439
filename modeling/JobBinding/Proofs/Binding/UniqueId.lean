import Mathlib.Data.List.Forall2
import JobBinding.Binding.Listing
import JobBinding.Proofs.Text.Blank
import JobBinding.Proofs.Text.Lines
import JobBinding.Proofs.Text.Scan

/-!
# Identifiers between headings

A line of a listing of AMD devices that has the marker gives the text after the first one, trimmed
(`Gives`), and every other line is a heading that gives nothing. So a listing is read line by line
(`ids_append_newline`), and a carriage return in front of a line feed, which the trimming takes off,
makes no difference (`ids_append_return`). From these two follow all the changes of a text that keep
the identifiers in it (`amd_spec`).
-/

namespace JobBinding.Listing

open Text

variable {a b line id : List Char}

/-- Whether a line gives an identifier: the text after the first marker in it, without the white
space at its ends. -/
def Gives (line id : List Char) : Prop :=
  ∃ before after, IsFirst uniqueIdMarker line before after ∧ IsTrimmed after id

/-! ## One line -/

lemma uniqueId?_eq_some_iff : uniqueId? line = some id ↔ Gives line id := by
  rw [uniqueId?, Option.map_eq_some_iff, Gives]
  constructor
  · rintro ⟨⟨before, after⟩, hparts, htrim⟩
    exact ⟨before, after, splitAtMarker?_eq_some_iff.1 hparts, trimChars_eq_iff.1 htrim⟩
  · rintro ⟨before, after, hfirst, htrim⟩
    exact ⟨(before, after), splitAtMarker?_eq_some_iff.2 hfirst, htrim.trimChars_eq⟩

lemma uniqueId?_eq_none_iff : uniqueId? line = none ↔ ¬ uniqueIdMarker <:+: line := by
  rw [uniqueId?, Option.map_eq_none_iff, splitAtMarker?_eq_none_iff]

/-- A carriage return at the end of a line is trimmed off. -/
lemma uniqueId?_concat_return (line : List Char) : uniqueId? (line ++ ['\r']) = uniqueId? line := by
  have hmarker : '\r' ∉ uniqueIdMarker := by decide
  rw [uniqueId?, splitAtMarker?_concat hmarker, Option.map_map, uniqueId?]
  congr 1
  funext parts
  exact trimChars_concat (by decide)

lemma uniqueId?_withoutReturn (line : List Char) :
    uniqueId? (withoutReturn line) = uniqueId? line := by
  rw [withoutReturn]
  split
  · next hlast =>
    obtain ⟨init, rfl⟩ := List.getLast?_eq_some_iff.1 hlast
    rw [List.dropLast_concat, uniqueId?_concat_return]
  · rfl

/-! ## A whole listing -/

/-- The identifiers in a text, as characters. -/
def ids (cs : List Char) : List (List Char) :=
  (lines cs).filterMap uniqueId?

lemma amd_eq (text : String) : amd text = (ids text.toList).map String.ofList :=
  rfl

/-- The carriage returns in front of line feeds are in no identifier, so the text between line feeds
may be taken for the lines. -/
lemma ids_unlines_append {ls : List (List Char)} {last : List Char}
    (hls : ∀ line ∈ ls, '\n' ∉ line) (hlast : '\n' ∉ last) :
    ids (unlines ls ++ last) = (ls ++ [last]).filterMap uniqueId? := by
  have hreturn : uniqueId? ∘ withoutReturn = uniqueId? := funext uniqueId?_withoutReturn
  have hend : (if last = [] then [] else [last]).filterMap uniqueId? =
      [last].filterMap uniqueId? := by
    split
    · next hnil => rw [hnil]; rfl
    · rfl
  rw [ids, lines_unlines_append hls hlast, List.filterMap_append, List.filterMap_map, hreturn, hend,
    List.filterMap_append]

/-- A listing is read line by line. -/
lemma ids_append_newline (a b : List Char) : ids (a ++ '\n' :: b) = ids a ++ ids b := by
  obtain ⟨ls, last, rfl, hls, hlast⟩ := exists_unlines_append a
  obtain ⟨ms, last', rfl, hms, hlast'⟩ := exists_unlines_append b
  have htext : unlines ls ++ last ++ '\n' :: (unlines ms ++ last') =
      unlines (ls ++ [last] ++ ms) ++ last' := by
    simp [unlines]
  have hall : ∀ line ∈ ls ++ [last] ++ ms, '\n' ∉ line := by
    rw [List.forall_mem_append, List.forall_mem_append]
    exact ⟨⟨hls, List.forall_mem_singleton.2 hlast⟩, hms⟩
  rw [htext, ids_unlines_append hall hlast', ids_unlines_append hls hlast,
    ids_unlines_append hms hlast', ← List.filterMap_append, List.append_assoc _ ms]

/-- A text that does not have the marker gives nothing. -/
lemma ids_of_not_infix (h : ¬ uniqueIdMarker <:+: a) : ids a = [] := by
  obtain ⟨ls, last, rfl, hls, hlast⟩ := exists_unlines_append a
  rw [ids_unlines_append hls hlast, List.filterMap_eq_nil_iff]
  intro line hline
  rw [uniqueId?_eq_none_iff]
  exact fun hmarker => h (hmarker.trans (infix_of_mem_unlines_append hline))

/-- A carriage return at the end of a text gives nothing. -/
lemma ids_concat_return (a : List Char) : ids (a ++ ['\r']) = ids a := by
  obtain ⟨ls, last, rfl, hls, hlast⟩ := exists_unlines_append a
  have hreturn : '\n' ∉ last ++ ['\r'] := by simpa using hlast
  rw [List.append_assoc, ids_unlines_append hls hreturn, ids_unlines_append hls hlast,
    List.filterMap_append, List.filterMap_append]
  congr 1
  rw [List.filterMap_cons, List.filterMap_cons, uniqueId?_concat_return]

/-- The text with a carriage return in front of each line feed. -/
def withReturns (cs : List Char) : List Char :=
  cs.flatMap fun c => if c = '\n' then ['\r', '\n'] else [c]

lemma ids_append_return (a b : List Char) :
    ids (a ++ '\r' :: '\n' :: b) = ids (a ++ '\n' :: b) := by
  rw [List.append_cons, ids_append_newline, ids_concat_return, ids_append_newline]

lemma ids_append_withReturns (a b : List Char) : ids (a ++ withReturns b) = ids (a ++ b) := by
  induction b generalizing a with
  | nil => rfl
  | cons c b ih =>
    rw [withReturns, List.flatMap_cons, ← withReturns]
    by_cases hc : c = '\n'
    · rw [if_pos hc, hc, List.cons_append, List.singleton_append, ids_append_return,
        List.append_cons, ih, ← List.append_cons]
    · rw [if_neg hc, ← List.append_assoc, ih, List.append_assoc, List.singleton_append]

/-- The lines with the marker and the identifiers are in one order. -/
lemma forall₂_gives (ls : List (List Char)) :
    List.Forall₂ Gives (ls.filter fun line => uniqueIdMarker <:+: line)
      (ls.filterMap uniqueId?) := by
  induction ls with
  | nil => exact .nil
  | cons line ls ih =>
    cases hid : uniqueId? line with
    | none =>
      have hmarker := uniqueId?_eq_none_iff.1 hid
      rw [List.filter_cons_of_neg (by simpa using hmarker), List.filterMap_cons_none hid]
      exact ih
    | some id =>
      have hgives := uniqueId?_eq_some_iff.1 hid
      obtain ⟨before, after, hfirst, -⟩ := hgives
      rw [List.filter_cons_of_pos (by simpa using hfirst.infix), List.filterMap_cons_some hid]
      exact .cons (uniqueId?_eq_some_iff.1 hid) ih

/-- Reading a listing of AMD devices. The lines of a text are what its line feeds end, less one
carriage return, and what follows the last of them. The identifiers are those that the lines with
the marker give, one for each of them and in their order. So the listing of two texts with a line
feed between them is that of the one and then that of the other, headings may stand anywhere or be
left out, and it makes no difference whether a line ends with a carriage return and a line feed or
with a line feed alone, be it one line or every line. -/
theorem amd_spec (text a b heading : String) :
    (∀ ls last, (∀ line ∈ ls, '\n' ∉ line) → '\n' ∉ last → text.toList = unlines ls ++ last →
      lines text.toList = ls.map withoutReturn ++ if last = [] then [] else [last]) ∧
    List.Forall₂ (fun line id => Gives line id.toList)
      ((lines text.toList).filter fun line => uniqueIdMarker <:+: line) (amd text) ∧
    amd (a ++ "\n" ++ b) = amd a ++ amd b ∧
    (¬ uniqueIdMarker <:+: heading.toList →
      amd (heading ++ "\n" ++ b) = amd b ∧ amd (a ++ "\n" ++ heading) = amd a ∧
      amd (a ++ "\n" ++ heading ++ "\n" ++ b) = amd (a ++ "\n" ++ b)) ∧
    amd (a ++ "\r\n" ++ b) = amd (a ++ "\n" ++ b) ∧
    amd (String.ofList (withReturns text.toList)) = amd text := by
  -- A line feed divides the text into lines that are read on their own. The conjuncts about changes
  -- of the text are rewritings with this equation.
  have hnewline (a b : String) : amd (a ++ "\n" ++ b) = amd a ++ amd b := by
    have htext : (a ++ "\n" ++ b).toList = a.toList ++ '\n' :: b.toList := by
      simp [String.toList_append]
    rw [amd_eq, htext, ids_append_newline, List.map_append, amd_eq, amd_eq]
  refine ⟨?_, ?_, hnewline a b, fun hheading => ?_, ?_, ?_⟩
  · intro ls last hls hlast htext
    rw [htext]
    exact lines_unlines_append hls hlast
  · rw [amd_eq, List.forall₂_map_right_iff]
    simp only [String.toList_ofList]
    exact forall₂_gives (lines text.toList)
  · have hnone : amd heading = [] := by
      rw [amd_eq, ids_of_not_infix hheading, List.map_nil]
    simp only [hnewline, hnone, List.nil_append, List.append_nil, and_self]
  · have hreturn : (a ++ "\r\n" ++ b).toList = a.toList ++ '\r' :: '\n' :: b.toList := by
      simp [String.toList_append]
    rw [amd_eq, hreturn, ids_append_return, ids_append_newline, List.map_append, ← amd_eq,
      ← amd_eq, hnewline]
  -- A carriage return in front of a line feed belongs to the end of the line.
  · have hreturns := ids_append_withReturns [] text.toList
    rw [List.nil_append, List.nil_append] at hreturns
    rw [amd_eq, String.toList_ofList, hreturns, amd_eq]

/-- Two identifiers, one of them empty since its marker ends a line, between headings that can be
left out. -/
theorem amd_of_headings :
    ¬ uniqueIdMarker <:+: "==== Unique ID ====".toList ∧
      amd ("GPU[0]: Unique ID: \r" ++ "\n" ++ "==== Unique ID ====" ++ "\n" ++
        "GPU[1]: Unique ID: \u00a0Unique ID: 0x7a\t") =
      amd ("GPU[0]: Unique ID: \r" ++ "\n" ++ "GPU[1]: Unique ID: \u00a0Unique ID: 0x7a\t") ∧
      amd ("GPU[0]: Unique ID: \r" ++ "\n" ++ "GPU[1]: Unique ID: \u00a0Unique ID: 0x7a\t") =
        ["", "Unique ID: 0x7a"] := by
  have hheading : ¬ uniqueIdMarker <:+: "==== Unique ID ====".toList := by decide
  obtain ⟨-, -, hnewline, hinsert, -, -⟩ := amd_spec "" "GPU[0]: Unique ID: \r"
    "GPU[1]: Unique ID: \u00a0Unique ID: 0x7a\t" "==== Unique ID ===="
  refine ⟨hheading, (hinsert hheading).2.2, ?_⟩
  rw [hnewline]
  decide

end JobBinding.Listing

import Mathlib.Data.List.Infix
import Mathlib.Tactic.Common
import JobBinding.Text.Lines
import JobBinding.Text.Literal

/-!
# Lines of concatenated texts

A text that ends with a line feed is cut at it: what follows has its own lines
(`lines_append_newline`). A text without line feed is one line once a line feed follows it, except
that it may lose a carriage return at its end. Every text is some lines with their line feeds and a
rest, which gives its lines (`lines_unlines_append`). Lines after the first that begin in a certain
way are counted by what follows the line feeds of the text (`countP_tail_lines`).
-/

namespace JobBinding.Text

variable {a b cs line : List Char} {c : Char}

@[simp] lemma lines_nil : lines [] = [] := by
  simp [lines]

@[simp] lemma lines_newline_cons : lines ('\n' :: cs) = [] :: lines cs := by
  simp [lines]

@[simp] lemma lines_return_newline_cons : lines ('\r' :: '\n' :: cs) = [] :: lines cs := by
  simp [lines]

/-- A character that does not begin a line end belongs to the first line. -/
lemma lines_cons (hc : c ≠ '\n') (hcs : c = '\r' → cs.head? ≠ some '\n') :
    lines (c :: cs) = consLine c (lines cs) := by
  rw [lines, if_neg hc]
  rintro rest rfl rfl
  exact hcs rfl rfl

lemma consLine_append {ls ms : List (List Char)} (h : ls ≠ []) :
    consLine c (ls ++ ms) = consLine c ls ++ ms := by
  cases ls with
  | nil => exact absurd rfl h
  | cons l ls => rfl

lemma consLine_ne_nil (c : Char) (ls : List (List Char)) : consLine c ls ≠ [] := by
  cases ls <;> simp [consLine]

lemma lines_ne_nil (h : cs ≠ []) : lines cs ≠ [] := by
  fun_cases lines cs with
  | case1 => exact absurd rfl h
  | case2 => simp
  | case3 => simp
  | case4 => exact consLine_ne_nil _ _

theorem lines_append_newline (a b : List Char) :
    lines (a ++ '\n' :: b) = lines (a ++ ['\n']) ++ lines b := by
  induction a using lines.induct with
  | case1 => simp
  | case2 rest ih => simpa using ih
  | case3 rest hreturn ih => simpa using ih
  | case4 c rest hreturn hc ih =>
    by_cases hlast : c = '\r' ∧ rest = []
    · obtain ⟨rfl, rfl⟩ := hlast
      simp
    · have hhead (d : List Char) : c = '\r' → (rest ++ '\n' :: d).head? ≠ some '\n' := by
        rintro rfl h
        cases rest with
        | nil => exact hlast ⟨rfl, rfl⟩
        | cons c' rest => exact hreturn rest rfl (by simpa using h)
      rw [List.cons_append, List.cons_append, lines_cons hc (hhead b), lines_cons hc (hhead []), ih,
        consLine_append (lines_ne_nil (by simp))]

/-- A line without the carriage return at its end, if it ends with one. -/
def withoutReturn (line : List Char) : List Char :=
  if line.getLast? = some '\r' then line.dropLast else line

@[simp] lemma withoutReturn_concat (line : List Char) : withoutReturn (line ++ ['\r']) = line := by
  rw [withoutReturn, List.getLast?_concat, if_pos rfl, List.dropLast_concat]

lemma withoutReturn_of_ne (h : line.getLast? ≠ some '\r') : withoutReturn line = line :=
  if_neg h

lemma withoutReturn_cons (h : c = '\r' → line ≠ []) :
    withoutReturn (c :: line) = c :: withoutReturn line := by
  cases line with
  | nil => exact withoutReturn_of_ne fun hlast => h (by simpa using hlast) rfl
  | cons d line =>
    rw [withoutReturn, withoutReturn, List.getLast?_cons_cons,
      List.dropLast_cons_of_ne_nil (by simp)]
    split <;> rfl

/-- A text in which no line ends is one line. -/
lemma lines_of_notMem (h : '\n' ∉ a) : lines a = if a = [] then [] else [a] := by
  induction a with
  | nil => simp
  | cons c a ih =>
    obtain ⟨hc, ha⟩ := not_or.1 (mt List.mem_cons.2 h)
    have hhead : c = '\r' → a.head? ≠ some '\n' := fun _ hhead => ha (List.mem_of_head? hhead)
    rw [lines_cons (Ne.symm hc) hhead, ih ha, if_neg (List.cons_ne_nil c a)]
    split
    · next hnil => rw [hnil, consLine]
    · rfl

/-- A text in which no line ends is one line with a line feed after it, up to a carriage return. -/
lemma lines_concat_of_notMem (h : '\n' ∉ a) : lines (a ++ ['\n']) = [withoutReturn a] := by
  induction a with
  | nil => simp [withoutReturn]
  | cons c a ih =>
    obtain ⟨hc, ha⟩ := not_or.1 (mt List.mem_cons.2 h)
    by_cases hlast : c = '\r' ∧ a = []
    · obtain ⟨rfl, rfl⟩ := hlast
      exact lines_return_newline_cons
    · have hreturn : c = '\r' → a ≠ [] := fun hc ha => hlast ⟨hc, ha⟩
      have hhead : c = '\r' → (a ++ ['\n']).head? ≠ some '\n' := by
        intro hcr hhead
        rw [List.head?_append_of_ne_nil _ (hreturn hcr)] at hhead
        exact ha (List.mem_of_head? hhead)
      rw [List.cons_append, lines_cons (Ne.symm hc) hhead, ih ha, consLine,
        withoutReturn_cons hreturn]

lemma lines_append_newline_of_not_mem (h : '\n' ∉ a) :
    ∃ line, lines (a ++ ['\n']) = [line] ∧ (a = line ∨ a = line ++ ['\r']) := by
  refine ⟨withoutReturn a, lines_concat_of_notMem h, ?_⟩
  rw [withoutReturn]
  split
  · next hlast =>
    obtain ⟨init, rfl⟩ := List.getLast?_eq_some_iff.1 hlast
    rw [List.dropLast_concat]
    exact .inr rfl
  · exact .inl rfl

/-- The lines of a text whose lines end with line feeds, which may have a carriage return before
them, and in which an unfinished line follows. -/
theorem lines_unlines_append {ls : List (List Char)} {last : List Char}
    (hls : ∀ line ∈ ls, '\n' ∉ line) (hlast : '\n' ∉ last) :
    lines (unlines ls ++ last) =
      ls.map withoutReturn ++ if last = [] then [] else [last] := by
  induction ls with
  | nil => exact lines_of_notMem hlast
  | cons line ls ih =>
    have htext : unlines (line :: ls) ++ last = line ++ '\n' :: (unlines ls ++ last) := by
      simp [unlines]
    rw [htext, lines_append_newline, lines_concat_of_notMem (hls line (by simp)),
      ih fun l hl => hls l (by simp [hl])]
    rfl

/-- Lines without line ends in them are read back from their text. -/
lemma lines_unlines {ls : List (List Char)}
    (h : ∀ line ∈ ls, '\n' ∉ line ∧ line.getLast? ≠ some '\r') : lines (unlines ls) = ls := by
  have hlines := lines_unlines_append (fun line hline => (h line hline).1)
    (List.not_mem_nil (a := '\n'))
  rw [if_pos rfl, List.append_nil, List.append_nil] at hlines
  rw [hlines, List.map_congr_left fun line hline => withoutReturn_of_ne (h line hline).2,
    List.map_id']

/-- Every text consists of lines that end with line feeds and an unfinished one. -/
lemma exists_unlines_append (a : List Char) :
    ∃ ls last, a = unlines ls ++ last ∧ (∀ line ∈ ls, '\n' ∉ line) ∧ '\n' ∉ last := by
  induction a with
  | nil => exact ⟨[], [], rfl, by simp, by simp⟩
  | cons c a ih =>
    obtain ⟨ls, last, rfl, hls, hlast⟩ := ih
    by_cases hc : c = '\n'
    · subst hc
      exact ⟨[] :: ls, last, by simp [unlines], by simpa using hls, hlast⟩
    · cases ls with
      | nil => exact ⟨[], c :: last, rfl, by simp, by simp [Ne.symm hc, hlast]⟩
      | cons line ls =>
        refine ⟨(c :: line) :: ls, last, by simp [unlines], ?_, hlast⟩
        rw [List.forall_mem_cons] at hls ⊢
        exact ⟨by simp [Ne.symm hc, hls.1], hls.2⟩

lemma infix_of_mem_unlines_append {ls : List (List Char)} {last : List Char}
    (h : line ∈ ls ++ [last]) : line <:+: unlines ls ++ last := by
  rcases List.mem_append.1 h with hline | hline
  · have hpart : line ++ ['\n'] <:+: unlines ls := by
      rw [unlines, List.flatMap_def]
      exact List.infix_of_mem_flatten (List.mem_map_of_mem hline)
    have hline : line <:+: line ++ ['\n'] := (List.prefix_append line _).isInfix
    exact hline.trans (hpart.trans (List.prefix_append _ last).isInfix)
  · rw [List.mem_singleton.1 hline]
    exact (List.suffix_append _ _).isInfix

/-- The number of lines is the number of line feeds, if the text ends with one. -/
lemma length_lines_append_newline (a : List Char) :
    (lines (a ++ ['\n'])).length = a.count '\n' + 1 := by
  obtain ⟨n, hn⟩ : ∃ n, a.count '\n' = n := ⟨_, rfl⟩
  induction n generalizing a with
  | zero =>
    obtain ⟨line, hline, -⟩ := lines_append_newline_of_not_mem (List.count_eq_zero.1 hn)
    rw [hline, hn]
    rfl
  | succ n ih =>
    obtain ⟨front, rest, rfl, hfront⟩ := List.eq_append_cons_of_mem
      (List.count_pos_iff.1 (by omega : 0 < a.count '\n'))
    obtain ⟨line, hline, -⟩ := lines_append_newline_of_not_mem hfront
    have hcount : rest.count '\n' = n := by
      rw [List.count_append, List.count_eq_zero.2 hfront, List.count_cons_self] at hn
      omega
    rw [List.append_assoc, List.cons_append, lines_append_newline, List.length_append,
      ih rest hcount, hline, List.count_append, List.count_eq_zero.2 hfront, List.count_cons_self]
    simp only [List.length_singleton]
    omega

lemma not_mem_newline_of_mem_lines (h : line ∈ lines cs) : '\n' ∉ line := by
  -- The induction follows the reader: a line end of two characters, one of one, any other.
  induction cs using lines.induct generalizing line with
  | case1 => simp at h
  | case2 rest ih =>
    rw [lines_return_newline_cons] at h
    rcases List.mem_cons.1 h with rfl | h
    · simp
    · exact ih h
  | case3 rest hreturn ih =>
    rw [lines_newline_cons] at h
    rcases List.mem_cons.1 h with rfl | h
    · simp
    · exact ih h
  | case4 c rest hreturn hc ih =>
    rw [lines, if_neg hc] at h
    · cases hrest : lines rest with
      | nil =>
        rw [hrest, consLine, List.mem_singleton] at h
        simpa [h] using Ne.symm hc
      | cons first others =>
        rw [hrest, consLine] at h
        rcases List.mem_cons.1 h with rfl | h
        · have hfirst : '\n' ∉ first := ih (by simp [hrest])
          simp [hfirst, Ne.symm hc]
        · exact ih (by simp [hrest, h])
    · exact hreturn

/-- A text that begins with characters that end no line has a first line that begins with them. -/
lemma lines_append_of_plain {p : List Char} (hp : p ≠ []) (hplain : ∀ c ∈ p, c ≠ '\n' ∧ c ≠ '\r')
    (cs : List Char) : ∃ line rest, lines (p ++ cs) = (p ++ line) :: rest := by
  induction p with
  | nil => exact absurd rfl hp
  | cons c p ih =>
    obtain ⟨hnewline, hreturn⟩ := hplain c (by simp)
    have hcons : lines (c :: (p ++ cs)) = consLine c (lines (p ++ cs)) :=
      lines_cons hnewline fun h => absurd h hreturn
    rw [List.cons_append, hcons]
    by_cases hnil : p = []
    · subst hnil
      cases hrest : lines cs with
      | nil => exact ⟨[], [], by simp [hrest, consLine]⟩
      | cons line rest => exact ⟨line, rest, by simp [hrest, consLine]⟩
    · obtain ⟨line, rest, hrest⟩ := ih hnil fun c hc => hplain c (by simp [hc])
      exact ⟨line, rest, by rw [hrest, consLine, List.cons_append]⟩

/-! ## Lines after the first -/

/-- At how many positions of a text some characters stand. -/
def occurrences (p a : List Char) : Nat :=
  a.tails.countP (p.isPrefixOf ·)

lemma occurrences_cons (p : List Char) (c : Char) (a : List Char) :
    occurrences p (c :: a) = (if p <+: c :: a then 1 else 0) + occurrences p a := by
  simp only [occurrences, List.tails_cons, List.countP_cons, List.isPrefixOf_iff_prefix]
  exact Nat.add_comm _ _

lemma occurrences_pos_iff {p : List Char} : 0 < occurrences p a ↔ p <:+: a := by
  simp only [occurrences, List.countP_pos_iff, List.mem_tails, List.isPrefixOf_iff_prefix]
  rw [List.infix_iff_prefix_suffix]
  exact exists_congr fun t => and_comm

lemma occurrences_of_notMem {p : List Char} (h : c ∉ a) : occurrences (c :: p) a = 0 := by
  apply Nat.eq_zero_of_not_pos
  intro hpos
  exact h ((occurrences_pos_iff.1 hpos).subset List.mem_cons_self)

/-- What begins with a character does not begin before its first occurrence. -/
lemma occurrences_append_of_notMem {p q : List Char} (h : c ∉ q) (a : List Char) :
    occurrences (c :: p) (q ++ a) = occurrences (c :: p) a := by
  induction q with
  | nil => rfl
  | cons d q ih =>
    obtain ⟨hd, hq⟩ := not_or.1 (mt List.mem_cons.2 h)
    have hhead : ¬ c :: p <+: d :: (q ++ a) := fun hprefix =>
      hd (List.cons_prefix_cons.1 hprefix).1
    rw [List.cons_append, occurrences_cons, ih hq, if_neg hhead, Nat.zero_add]

lemma prefix_of_lines_eq_cons {rest : List (List Char)} (h : lines (a ++ ['\n']) = line :: rest) :
    line <+: a := by
  obtain ⟨front, more, heq, hfront⟩ :=
    List.eq_append_cons_of_mem (by simp : '\n' ∈ a ++ ['\n'])
  have hlength := congrArg List.length heq
  simp only [List.length_append, List.length_cons, List.length_nil] at hlength
  have hprefix : front <+: a :=
    List.prefix_of_prefix_length_le ⟨'\n' :: more, heq.symm⟩ (List.prefix_append a _) (by omega)
  obtain ⟨first, hfirst, hcut⟩ := lines_append_newline_of_not_mem hfront
  rw [heq, lines_append_newline, hfirst] at h
  obtain ⟨rfl, -⟩ := List.cons.inj h
  rcases hcut with rfl | rfl
  · exact hprefix
  · exact (List.prefix_append _ _).trans hprefix

/-- The first line begins with some characters exactly if the text does. -/
lemma prefix_first_iff {p : List Char} {rest : List (List Char)} (hp : p ≠ [])
    (hplain : ∀ c ∈ p, c ≠ '\n' ∧ c ≠ '\r') (h : lines (a ++ ['\n']) = line :: rest) :
    p <+: line ↔ p <+: a := by
  constructor
  · intro hline
    exact hline.trans (prefix_of_lines_eq_cons h)
  · rintro ⟨tail, rfl⟩
    obtain ⟨first, more, hlines⟩ := lines_append_of_plain hp hplain (tail ++ ['\n'])
    rw [List.append_assoc, hlines] at h
    obtain ⟨rfl, -⟩ := List.cons.inj h
    exact List.prefix_append _ _

/-- As many lines after the first begin with some characters as there are positions at which these
follow a line feed. -/
theorem countP_tail_lines {p : List Char} (hp : p ≠ []) (hplain : ∀ c ∈ p, c ≠ '\n' ∧ c ≠ '\r')
    (a : List Char) :
    (lines (a ++ ['\n'])).tail.countP (p.isPrefixOf ·) = occurrences ('\n' :: p) a := by
  -- The induction is on the line feeds, since the text is cut at its first one.
  obtain ⟨n, hn⟩ : ∃ n, a.count '\n' = n := ⟨_, rfl⟩
  induction n generalizing a with
  | zero =>
    have hnewline : '\n' ∉ a := List.count_eq_zero.1 hn
    obtain ⟨line, hline, -⟩ := lines_append_newline_of_not_mem hnewline
    rw [hline, occurrences_of_notMem hnewline]
    rfl
  | succ n ih =>
    obtain ⟨front, rest, rfl, hfront⟩ := List.eq_append_cons_of_mem
      (List.count_pos_iff.1 (by omega : 0 < a.count '\n'))
    have hcount : rest.count '\n' = n := by
      rw [List.count_append, List.count_eq_zero.2 hfront, List.count_cons_self] at hn
      omega
    obtain ⟨line, hline, -⟩ := lines_append_newline_of_not_mem hfront
    obtain ⟨first, more, hrest⟩ := List.exists_cons_of_ne_nil
      (lines_ne_nil (by simp : rest ++ ['\n'] ≠ []))
    -- A line that begins with `p` stands behind the line feed exactly if `p` itself does: `p` has
    -- no line end that reading could take away.
    have hfirst := prefix_first_iff hp hplain hrest
    have htail := ih rest hcount
    rw [hrest, List.tail_cons] at htail
    rw [List.append_assoc, List.cons_append, lines_append_newline, hline, List.singleton_append,
      List.tail_cons, hrest, List.countP_cons, htail, occurrences_append_of_notMem hfront,
      occurrences_cons, Nat.add_comm]
    simp only [List.isPrefixOf_iff_prefix, hfirst, List.cons_prefix_cons, true_and]

/-! ## Texts of one line -/

/-- Whether no line ends in a text. -/
def OneLine (t : String) : Prop :=
  '\n' ∉ t.toList

instance (t : String) : Decidable (OneLine t) :=
  inferInstanceAs (Decidable ('\n' ∉ t.toList))

@[simp] lemma oneLine_append {s t : String} : OneLine (s ++ t) ↔ OneLine s ∧ OneLine t := by
  simp [OneLine, String.toList_append]

@[simp] lemma oneLine_toString (n : Nat) : OneLine (toString n) := by
  intro h
  rw [Nat.toString_eq_ofList_toDigits, String.toList_ofList] at h
  have hdigit := Nat.isDigit_of_mem_toDigits (by decide) (by decide) h
  exact absurd hdigit (by decide)

lemma oneLine_intercalate {separator : String} {items : List String} (hs : OneLine separator)
    (h : ∀ item ∈ items, OneLine item) : OneLine (separator.intercalate items) := by
  induction items with
  | nil => simp [OneLine]
  | cons item items ih =>
    cases items with
    | nil => simpa using h item (by simp)
    | cons next items =>
      rw [String.intercalate_cons_cons, oneLine_append, oneLine_append]
      exact ⟨⟨h item (by simp), hs⟩, ih fun i hi => h i (by simp [hi])⟩

lemma oneLine_listLiteral {items : List String} (h : ∀ item ∈ items, OneLine item) :
    OneLine (listLiteral items) := by
  rw [listLiteral, oneLine_append, oneLine_append]
  exact ⟨⟨by decide, oneLine_intercalate (by decide) h⟩, by decide⟩

lemma oneLine_setLiteral {items : List String} (h : ∀ item ∈ items, OneLine item) :
    OneLine (setLiteral items) := by
  rw [setLiteral, oneLine_append, oneLine_append]
  exact ⟨⟨by decide, oneLine_intercalate (by decide) h⟩, by decide⟩

end JobBinding.Text

import Mathlib.Tactic.Common
import JobBinding.Verdict

/-!
# Verdicts under change

What a verdict is after any changes (`changes_spec`). Two things carry it from change to change: a
verdict has at most one terminal line (`countP_isTerminal_changes_le_one`), and its warnings are
those that were added, in order (`warnings_changes`). A failure leaves nothing of a verdict but the
warnings, so whatever else the changes before it did, or did not do because a closed verdict refused
them, is forgotten (`fail_eq_of_warnings_eq`).
-/

namespace JobBinding.Verdict

variable {v w : Verdict} {message : String}

/-! ## Terminal lines -/

lemma isSome_terminal?_iff :
    v.terminal?.isSome = true ↔ ∃ l ∈ v.lines, l.1.isTerminal = true := by
  rw [terminal?, List.find?_isSome]

/-- Only an ERROR or PASSED line can be refused, and it is refused exactly if there is a terminal
line already. -/
lemma change?_eq_none_iff {c : Change} :
    v.change? c = none ↔
      (∃ message, c = .add .error message ∨ c = .add .passed message) ∧
        ∃ l ∈ v.lines, l.1.isTerminal = true := by
  rw [← isSome_terminal?_iff]
  cases c with
  | fail message => simp [change?]
  | add tag message =>
    cases tag <;> simp [change?, add?, Tag.isTerminal, Option.isSome_iff_ne_none]

lemma change_add_of_isTerminal {tag : Tag} (htag : tag.isTerminal = true)
    (hv : ∃ l ∈ v.lines, l.1.isTerminal = true) : v.change (.add tag message) = v := by
  have hrefused : v.change? (.add tag message) = none := by
    rw [change?, add?, htag, isSome_terminal?_iff.2 hv]
    rfl
  rw [change, hrefused, Option.getD_none]

lemma lines_change_add_of_open {tag : Tag}
    (h : tag.isTerminal = false ∨ ∀ l ∈ v.lines, l.1.isTerminal = false) :
    (v.change (.add tag message)).lines = v.lines ++ [(tag, message)] := by
  have htaken : ¬ (tag.isTerminal && v.terminal?.isSome) = true := by
    rw [Bool.and_eq_true, isSome_terminal?_iff]
    rintro ⟨htag, l, hl, hterminal⟩
    rcases h with h | h
    · rw [h] at htag
      cases htag
    · rw [h l hl] at hterminal
      cases hterminal
  rw [change, change?, add?, if_neg htaken, Option.getD_some]

lemma lines_change_fail :
    (v.change (.fail message)).lines =
      (.error, message) :: v.lines.filter (!·.1.isTerminal) := rfl

/-- A verdict takes a line, or it is closed and stays as it is. -/
lemma change_add_cases (v : Verdict) (tag : Tag) (message : String) :
    (v.change (.add tag message)).lines = v.lines ++ [(tag, message)] ∧
        (tag.isTerminal = false ∨ ∀ l ∈ v.lines, l.1.isTerminal = false) ∨
      v.change (.add tag message) = v ∧ tag.isTerminal = true := by
  cases htag : tag.isTerminal with
  | false => exact .inl ⟨lines_change_add_of_open (.inl htag), .inl rfl⟩
  | true =>
    by_cases hv : ∃ l ∈ v.lines, l.1.isTerminal = true
    · exact .inr ⟨change_add_of_isTerminal htag hv, rfl⟩
    · have hopen : ∀ l ∈ v.lines, l.1.isTerminal = false := by simpa using hv
      exact .inl ⟨lines_change_add_of_open (.inr hopen), .inr hopen⟩

lemma countP_isTerminal_change_le_one (h : v.lines.countP (·.1.isTerminal) ≤ 1) (c : Change) :
    (v.change c).lines.countP (·.1.isTerminal) ≤ 1 := by
  cases c with
  | fail message =>
    have hwarnings : (v.lines.filter (!·.1.isTerminal)).countP (·.1.isTerminal) = 0 := by
      rw [List.countP_filter, List.countP_eq_zero]
      simp
    rw [lines_change_fail, List.countP_cons, hwarnings]
    exact Nat.le_refl 1
  | add tag message =>
    rcases change_add_cases v tag message with ⟨hlines, hopen⟩ | ⟨hsame, -⟩
    · rw [hlines, List.countP_append, List.countP_singleton]
      rcases hopen with htag | hlines
      · simpa [htag] using h
      · rw [List.countP_eq_zero.2 (by simpa using hlines)]
        split <;> simp
    · rw [hsame]
      exact h

theorem countP_isTerminal_changes_le_one (h : v.lines.countP (·.1.isTerminal) ≤ 1)
    (cs : List Change) : (v.changes cs).lines.countP (·.1.isTerminal) ≤ 1 := by
  induction cs generalizing v with
  | nil => exact h
  | cons c cs ih => exact ih (countP_isTerminal_change_le_one h c)

/-! ## Warnings -/

/-- The message of a change that adds a warning. -/
def Change.warning? : Change → Option String
  | .add .warn message => some message
  | _ => none

/-- The messages of the WARN lines. -/
def warnings (v : Verdict) : List String :=
  (v.lines.filter (·.1 = .warn)).map (·.2)

lemma filter_not_isTerminal (v : Verdict) :
    v.lines.filter (!·.1.isTerminal) = v.warnings.map fun message => (.warn, message) := by
  rw [warnings]
  induction v.lines with
  | nil => rfl
  | cons l ls ih =>
    obtain ⟨tag, message⟩ := l
    cases tag <;> simpa [Tag.isTerminal] using ih

/-- A failure keeps nothing but the warnings. -/
lemma fail_eq_of_warnings_eq (h : v.warnings = w.warnings) : v.fail message = w.fail message := by
  rw [fail, fail, filter_not_isTerminal, filter_not_isTerminal, h]

lemma warnings_change (v : Verdict) (c : Change) :
    (v.change c).warnings = v.warnings ++ c.warning?.toList := by
  cases c with
  | fail message =>
    rw [warnings, lines_change_fail, filter_not_isTerminal, List.filter_cons_of_neg (by simp),
      List.filter_eq_self.2 (by simp), List.map_map]
    exact (List.map_id v.warnings).trans (List.append_nil _).symm
  | add tag message =>
    rcases change_add_cases v tag message with ⟨hlines, -⟩ | ⟨hsame, htag⟩
    · rw [warnings, hlines, List.filter_append, List.map_append, ← warnings]
      cases tag <;> rfl
    · rw [hsame]
      cases tag with
      | warn => cases htag
      | error => simp [Change.warning?]
      | passed => simp [Change.warning?]

/-- No warning is lost, repeated or moved. -/
theorem warnings_changes (v : Verdict) (cs : List Change) :
    (v.changes cs).warnings = v.warnings ++ cs.filterMap Change.warning? := by
  induction cs generalizing v with
  | nil => exact (List.append_nil _).symm
  | cons c cs ih =>
    have hrest : (v.changes (c :: cs)).warnings =
        (v.change c).warnings ++ cs.filterMap Change.warning? := ih (v.change c)
    rw [hrest, warnings_change, List.append_assoc]
    cases hc : c.warning? <;> simp [hc]

/-! ## Verdicts that passed -/

lemma count_error_add_count_passed (v : Verdict) :
    v.count .error + v.count .passed = v.lines.countP (·.1.isTerminal) := by
  rw [count, count]
  induction v.lines with
  | nil => rfl
  | cons l ls ih =>
    obtain ⟨tag, message⟩ := l
    cases tag <;> simp [Tag.isTerminal] at ih ⊢ <;> omega

lemma count_pos_iff {tag : Tag} : 0 < v.count tag ↔ ∃ l ∈ v.lines, l.1 = tag := by
  rw [count, List.countP_pos_iff]
  simp only [decide_eq_true_eq]

lemma isPassed_iff_count_passed (h : v.lines.countP (·.1.isTerminal) ≤ 1) :
    v.isPassed = true ↔ v.count .passed = 1 := by
  -- Among at most one terminal line there is no room for an ERROR beside a PASSED line.
  have hsum := count_error_add_count_passed v
  rw [isPassed, Option.any_eq_true]
  constructor
  · rintro ⟨l, hl, hpassed⟩
    have hpos : 0 < v.count .passed :=
      count_pos_iff.2 ⟨l, List.mem_of_find?_eq_some hl, by simpa using hpassed⟩
    omega
  · intro hcount
    obtain ⟨passed, hmem, htag⟩ := count_pos_iff.1 (show 0 < v.count .passed by omega)
    obtain ⟨l, hl⟩ := Option.isSome_iff_exists.1
      (isSome_terminal?_iff.2 ⟨passed, hmem, by rw [htag]; rfl⟩)
    refine ⟨l, hl, decide_eq_true ?_⟩
    have hfind : v.lines.find? (·.1.isTerminal) = some l := hl
    have hterminal := List.find?_some hfind
    cases hlast : l.1 with
    | passed => rfl
    | warn =>
      rw [hlast] at hterminal
      cases hterminal
    | error =>
      have hpos : 0 < v.count .error :=
        count_pos_iff.2 ⟨l, List.mem_of_find?_eq_some hl, hlast⟩
      omega

/-! ## Failures -/

def Change.isFail : Change → Bool
  | .fail _ => true
  | _ => false

/-- The line in front stays there until the next failure. -/
lemma head?_lines_changes {l : Tag × String} {cs : List Change} (h : v.lines.head? = some l)
    (hcs : ∀ c ∈ cs, c.isFail = false) : (v.changes cs).lines.head? = some l := by
  induction cs generalizing v with
  | nil => exact h
  | cons c cs ih =>
    have hhead : (v.change c).lines.head? = some l := by
      cases c with
      | fail message => cases hcs (.fail message) (by simp)
      | add tag message =>
        rcases change_add_cases v tag message with ⟨hlines, -⟩ | ⟨hsame, -⟩
        · rw [hlines, List.head?_append, h, Option.some_or]
        · rw [hsame, h]
    exact ih hhead fun c hc => hcs c (List.mem_cons_of_mem _ hc)

lemma changes_append (v : Verdict) (cs cs' : List Change) :
    v.changes (cs ++ cs') = (v.changes cs).changes cs' :=
  List.foldl_append

/-- A failure that is followed by another one makes no difference. -/
lemma changes_fail_fail (v : Verdict) (first second : String) (between after : List Change) :
    v.changes (.fail first :: between ++ .fail second :: after) =
      v.changes (between ++ .fail second :: after) := by
  have hwarnings :
      (v.changes (.fail first :: between)).warnings = (v.changes between).warnings := by
    rw [warnings_changes, warnings_changes]
    rfl
  -- The runs may have taken different lines in between; the second failure keeps warnings only.
  have hfail : (v.changes (.fail first :: between)).change (.fail second) =
      (v.changes between).change (.fail second) := fail_eq_of_warnings_eq hwarnings
  rw [changes_append, changes_append]
  show changes (change _ (.fail second)) after = changes (change _ (.fail second)) after
  rw [hfail]

/-! ## What a verdict is after any changes -/

/-- After any changes a verdict has at most one terminal line; it refuses exactly the ERROR and
PASSED lines that would be a second one. Its warnings are those that were added, in order, and it
passed exactly if it has one PASSED line, and then no ERROR line. The last failure stands in front,
whatever is added after it, and failures before it are as if they had not been. -/
theorem changes_spec (cs : List Change) :
    (empty.changes cs).lines.countP (·.1.isTerminal) ≤ 1 ∧
    (∀ c, (empty.changes cs).change? c = none ↔
      (∃ message, c = .add .error message ∨ c = .add .passed message) ∧
        ∃ l ∈ (empty.changes cs).lines, l.1.isTerminal = true) ∧
    (empty.changes cs).warnings = cs.filterMap Change.warning? ∧
    ((empty.changes cs).isPassed = true ↔ (empty.changes cs).count .passed = 1) ∧
    ((empty.changes cs).isPassed = true → (empty.changes cs).count .error = 0) ∧
    (∀ before message after, cs = before ++ .fail message :: after →
      (∀ c ∈ after, c.isFail = false) →
        (empty.changes cs).lines.head? = some (.error, message)) ∧
    ∀ before first between second after,
      cs = before ++ .fail first :: between ++ .fail second :: after →
        empty.changes cs = empty.changes (before ++ between ++ .fail second :: after) := by
  have hterminal : (empty.changes cs).lines.countP (·.1.isTerminal) ≤ 1 :=
    countP_isTerminal_changes_le_one (v := empty) (Nat.zero_le 1) cs
  have hpassed := isPassed_iff_count_passed hterminal
  refine ⟨hterminal, fun c => change?_eq_none_iff, warnings_changes empty cs, hpassed, ?_, ?_, ?_⟩
  · intro h
    have hsum := count_error_add_count_passed (empty.changes cs)
    have hone := hpassed.1 h
    omega
  · rintro before message after rfl hafter
    rw [changes_append]
    show (((empty.changes before).change (.fail message)).changes after).lines.head? = _
    exact head?_lines_changes rfl hafter
  · rintro before first between second after rfl
    -- Each failure starts from the warnings alone, so what an earlier one had put there is gone.
    rw [List.append_assoc before, List.append_assoc before, changes_append empty before,
      changes_append empty before]
    exact changes_fail_fail _ first second between after

/-- A failure between two others: without it the PASSED line is taken, with it the line is refused,
and the last failure makes that no difference. -/
theorem changes_of_three_failures :
    (empty.changes [.fail "a", .add .warn "b", .fail "c", .add .passed "d"]).change?
        (.add .error "e") = none ∧
      (empty.changes [.fail "a", .add .warn "b", .fail "c", .add .passed "d"]).lines.head? =
        some (.error, "c") ∧
      empty.changes [.fail "a", .add .passed "b", .fail "c", .add .warn "d"] =
        empty.changes [.add .passed "b", .fail "c", .add .warn "d"] := by
  obtain ⟨-, hrefused, -, -, -, hhead, -⟩ :=
    changes_spec [.fail "a", .add .warn "b", .fail "c", .add .passed "d"]
  obtain ⟨-, -, -, -, -, -, hforgotten⟩ :=
    changes_spec [.fail "a", .add .passed "b", .fail "c", .add .warn "d"]
  refine ⟨(hrefused _).2 ⟨⟨"e", .inl rfl⟩, (.error, "c"), by decide, rfl⟩, ?_, ?_⟩
  · exact hhead [.fail "a", .add .warn "b"] "c" [.add .passed "d"] rfl (by decide)
  · exact hforgotten [] "a" [.add .passed "b"] "c" [.add .warn "d"] rfl

end JobBinding.Verdict

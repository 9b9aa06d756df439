import JobBinding.Json.Reading
import JobBinding.Proofs.Json.Token
import JobBinding.Proofs.Text.Utf8

/-!
# Reading back JSON

`ofBytes?_render`: the bytes of a rendered value are read as the value (`found`). The tokens of a
value take the reader from expecting a value to having finished it, and leave the arrays and objects
that were open as they were (`run_tokens`); this is what an induction on the value can carry through
its items and fields.
-/

namespace JobBinding.Json

mutual

/-- A value as it is read after it was written. -/
def found : Plain → Found
  | .null => .null
  | .boolean b => .boolean b
  | .number n => .number (some n)
  | .text t => .text (some t)
  | .array items => .array (foundItems items)
  | .object fields => .object (foundFields fields)

def foundItems : List Plain → List Found
  | [] => []
  | item :: items => found item :: foundItems items

def foundFields : List (String × Plain) → List (Option String × Found)
  | [] => []
  | (name, value) :: fields => (some name, found value) :: foundFields fields

end

namespace Reading

variable {nesting : List Open} {rest : List Token}

/-- The first token of a value ends no array, so an item may be read as any other value. -/
lemma run_expectItem_tokens (value : Plain) :
    run .expectItem nesting (tokens value ++ rest) =
      run .expectValue (.items [] :: nesting) (tokens value ++ rest) := by
  cases value with
  | null => rfl
  | boolean b => rfl
  | number n => rfl
  | text t => rfl
  | array items =>
    cases items with
    | nil => rfl
    | cons item items =>
      rw [tokens]
      rfl
  | object fields =>
    rcases fields with _ | ⟨⟨name, value⟩, fields⟩
    · rfl
    · rw [tokens]
      rfl

mutual

/-- The tokens of a value are read as the value, whatever is open around it. -/
theorem run_tokens : ∀ (value : Plain) (nesting : List Open) (rest : List Token),
    run .expectValue nesting (tokens value ++ rest) = run (.finished (found value)) nesting rest
  | .null, nesting, rest => rfl
  | .boolean b, nesting, rest => rfl
  | .number n, nesting, rest => rfl
  | .text t, nesting, rest => rfl
  | .array [], nesting, rest => rfl
  | .array (item :: items), nesting, rest => by
    -- Whether the array is empty is only known at the next token, so its first item is read in the
    -- state that also takes a closing bracket.
    have hopen : run .expectValue nesting (tokens (.array (item :: items)) ++ rest) =
        run .expectItem nesting (tokens item ++ (itemTokens items ++ .closeArray :: rest)) := by
      rw [tokens]
      simp only [List.cons_append, List.append_assoc, List.nil_append]
      rfl
    rw [hopen, run_expectItem_tokens, run_tokens item, run_itemTokens items]
    rfl
  | .object [], nesting, rest => rfl
  | .object ((name, value) :: fields), nesting, rest => by
    have hopen : run .expectValue nesting (tokens (.object ((name, value) :: fields)) ++ rest) =
        run .expectValue (.fields [] (some name) :: nesting)
          (tokens value ++ (fieldTokens fields ++ .closeObject :: rest)) := by
      rw [tokens]
      simp only [List.cons_append, List.append_assoc, List.nil_append]
      rfl
    rw [hopen, run_tokens value, run_fieldTokens fields]
    rfl

theorem run_itemTokens : ∀ (items : List Plain) (value : Found) (done : List Found)
    (nesting : List Open) (rest : List Token),
    run (.finished value) (.items done :: nesting) (itemTokens items ++ .closeArray :: rest) =
      run (.finished (.array (done.reverse ++ value :: foundItems items))) nesting rest
  | [], value, done, nesting, rest => by
    have hclose : run (.finished value) (.items done :: nesting)
        (itemTokens [] ++ .closeArray :: rest) =
          run (.finished (.array (value :: done).reverse)) nesting rest := rfl
    rw [hclose, List.reverse_cons, foundItems]
  | item :: items, value, done, nesting, rest => by
    have hcomma : run (.finished value) (.items done :: nesting)
        (itemTokens (item :: items) ++ .closeArray :: rest) =
          run .expectValue (.items (value :: done) :: nesting)
            (tokens item ++ (itemTokens items ++ .closeArray :: rest)) := by
      rw [itemTokens, List.cons_append, List.append_assoc]
      rfl
    rw [hcomma, run_tokens item, run_itemTokens items, List.reverse_cons, List.append_assoc,
      List.singleton_append, foundItems]

theorem run_fieldTokens : ∀ (fields : List (String × Plain)) (value : Found)
    (done : List (Option String × Found)) (name : Option String) (nesting : List Open)
    (rest : List Token),
    run (.finished value) (.fields done name :: nesting)
        (fieldTokens fields ++ .closeObject :: rest) =
      run (.finished (.object (done.reverse ++ (name, value) :: foundFields fields))) nesting rest
  | [], value, done, name, nesting, rest => by
    have hclose : run (.finished value) (.fields done name :: nesting)
        (fieldTokens [] ++ .closeObject :: rest) =
          run (.finished (.object ((name, value) :: done).reverse)) nesting rest := rfl
    rw [hclose, List.reverse_cons, foundFields]
  | (next, item) :: fields, value, done, name, nesting, rest => by
    -- The finished fields are kept last one first, so the statement has `done` reversed.
    have hcomma : run (.finished value) (.fields done name :: nesting)
        (fieldTokens ((next, item) :: fields) ++ .closeObject :: rest) =
          run .expectValue (.fields ((name, value) :: done) (some next) :: nesting)
            (tokens item ++ (fieldTokens fields ++ .closeObject :: rest)) := by
      rw [fieldTokens, List.cons_append, List.cons_append, List.cons_append, List.append_assoc]
      rfl
    rw [hcomma, run_tokens item, run_fieldTokens fields, List.reverse_cons, List.append_assoc,
      List.singleton_append, foundFields]

end

end Reading

/-- The bytes of a rendered value are read as the value. -/
theorem ofBytes?_render (value : Plain) :
    ofBytes? (Text.Utf8.encode (render value)) = some (found value) := by
  have htokens := Token.readAll_write 0 value [] Token.ends_nil
  rw [List.append_nil, Token.readAll, Option.map_some, List.append_nil] at htokens
  have hrun := Reading.run_tokens value [] []
  rw [List.append_nil] at hrun
  rw [ofBytes?, Text.Utf8.pieces_encode, render, String.toList_ofList, read?, htokens]
  exact hrun

end JobBinding.Json

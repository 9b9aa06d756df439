import Mathlib.Data.List.Basic
import JobBinding.Proofs.Text.Decimal
import JobBinding.Proofs.Text.Runs
import JobBinding.Text.Literal

/-!
# Telling literals apart

A literal shows its items between two brackets, with a comma and a space between two of them. If the
texts of the items can be told apart where an item ends, which is at a comma or at the closing
bracket (`Separable`), the literals can be told apart, whatever follows them
(`Separable.literal_append_inj`). A literal ends by itself, so literals can be items of a literal
again (`Separable.literal`).
-/

namespace JobBinding.Text

variable {α : Type} {P : α → Prop} {write : α → List Char} {opening closing : Char}

/-- The text of some values between brackets. -/
def literal (opening closing : Char) (write : α → List Char) (as : List α) : List Char :=
  opening :: ([',', ' '].intercalate (as.map write) ++ [closing])

lemma toList_setLiteral {f : α → String} (as : List α) :
    (setLiteral (as.map f)).toList = literal '\x7b' '\x7d' (fun a => (f a).toList) as := by
  rw [setLiteral, String.toList_append, String.toList_append, String.toList_intercalate,
    List.map_map]
  rfl

lemma toList_listLiteral {f : α → String} (as : List α) :
    (listLiteral (as.map f)).toList = literal '[' ']' (fun a => (f a).toList) as := by
  rw [listLiteral, String.toList_append, String.toList_append, String.toList_intercalate,
    List.map_map]
  rfl

/-! ## Items -/

/-- Whether an item of a literal is over before a text. -/
def EndsItem (closing : Char) (rest : List Char) : Prop :=
  ∃ c after, rest = c :: after ∧ (c = ',' ∨ c = closing)

lemma endsItem_closing (closing : Char) (rest : List Char) : EndsItem closing (closing :: rest) :=
  ⟨closing, rest, rfl, .inr rfl⟩

/-- Whether the texts of values of a kind can be told apart as items of a literal with a closing
bracket: from each other where they end, and from the bracket where they begin. -/
structure Separable (closing : Char) (P : α → Prop) (write : α → List Char) : Prop where
  begins : ∀ {a}, P a → ∃ c cs, write a = c :: cs ∧ c ≠ closing
  append_inj : ∀ {a b}, P a → P b → ∀ {r s}, EndsItem closing r → EndsItem closing s →
    write a ++ r = write b ++ s → a = b ∧ r = s

/-- Texts without commas and closing brackets end at the first of these. -/
lemma separable_of_notMem (hne : ∀ {a}, P a → write a ≠ [])
    (hnotMem : ∀ {a}, P a → ∀ c ∈ write a, c ≠ ',' ∧ c ≠ closing)
    (hinj : ∀ {a b}, P a → P b → write a = write b → a = b) : Separable closing P write where
  begins {a} ha := by
    obtain ⟨c, cs, hcs⟩ := List.exists_cons_of_ne_nil (hne ha)
    exact ⟨c, cs, hcs, (hnotMem ha c (hcs ▸ List.mem_cons_self)).2⟩
  append_inj {a b} ha hb r s hr hs h := by
    let inner (c : Char) : Bool := c != ',' && c != closing
    have hrun {a : α} (ha : P a) : ∀ c ∈ write a, inner c = true := by
      intro c hc
      obtain ⟨hcomma, hclosing⟩ := hnotMem ha c hc
      simp [inner, hcomma, hclosing]
    have hstops {rest : List Char} (hrest : EndsItem closing rest) : Stops inner rest := by
      obtain ⟨c, after, rfl, hc⟩ := hrest
      apply stops_cons
      rcases hc with rfl | rfl <;> simp [inner]
    -- What follows an item is no part of it, so the item is the longest run of inner characters.
    have hwrite : write a = write b := by
      rw [← takeWhile_append_of_stops (hrun ha) (hstops hr), h,
        takeWhile_append_of_stops (hrun hb) (hstops hs)]
    rw [hwrite] at h
    exact ⟨hinj ha hb hwrite, List.append_cancel_left h⟩

/-! ## Literals -/

lemma intercalate_cons (separator first : List Char) (rest : List (List Char)) :
    separator.intercalate (first :: rest) = first ++ rest.flatMap (separator ++ ·) := by
  induction rest generalizing first with
  | nil => rw [List.intercalate_singleton, List.flatMap_nil, List.append_nil]
  | cons next rest ih =>
    rw [List.intercalate_cons_cons, ih, List.flatMap_cons, List.append_assoc, List.append_assoc]

/-- What follows an item of a literal: the other items, each after a comma and a space, and the
closing bracket. -/
def afterItem (closing : Char) (write : α → List Char) (as : List α) (rest : List Char) :
    List Char :=
  as.flatMap (fun a => ',' :: ' ' :: write a) ++ closing :: rest

lemma afterItem_cons (a : α) (as : List α) (rest : List Char) :
    afterItem closing write (a :: as) rest =
      ',' :: ' ' :: (write a ++ afterItem closing write as rest) := by
  simp [afterItem]

lemma endsItem_afterItem (as : List α) (rest : List Char) :
    EndsItem closing (afterItem closing write as rest) := by
  cases as with
  | nil => exact endsItem_closing closing rest
  | cons a as => exact ⟨',', _, afterItem_cons a as rest, .inl rfl⟩

lemma literal_nil_append (rest : List Char) :
    literal opening closing write [] ++ rest = opening :: closing :: rest := by
  simp [literal]

lemma literal_cons_append (a : α) (as : List α) (rest : List Char) :
    literal opening closing write (a :: as) ++ rest =
      opening :: (write a ++ afterItem closing write as rest) := by
  rw [literal, List.map_cons, intercalate_cons, List.flatMap_map, afterItem]
  simp

namespace Separable

variable {as bs : List α} {r s : List Char}

lemma afterItem_inj (h : Separable closing P write) (hclosing : closing ≠ ',') (has : ∀ a ∈ as, P a)
    (hbs : ∀ b ∈ bs, P b) (heq : afterItem closing write as r = afterItem closing write bs s) :
    as = bs ∧ r = s := by
  induction as generalizing bs with
  | nil =>
    cases bs with
    | nil => exact ⟨rfl, (List.cons.inj heq).2⟩
    | cons b bs =>
      rw [afterItem_cons] at heq
      exact absurd (List.cons.inj heq).1 hclosing
  | cons a as ih =>
    cases bs with
    | nil =>
      rw [afterItem_cons] at heq
      exact absurd (List.cons.inj heq).1.symm hclosing
    | cons b bs =>
      rw [List.forall_mem_cons] at has hbs
      obtain ⟨ha, has⟩ := has
      obtain ⟨hb, hbs⟩ := hbs
      rw [afterItem_cons, afterItem_cons, List.cons_inj_right, List.cons_inj_right] at heq
      obtain ⟨rfl, hrest⟩ :=
        h.append_inj ha hb (endsItem_afterItem as r) (endsItem_afterItem bs s) heq
      obtain ⟨rfl, rfl⟩ := ih has hbs hrest
      exact ⟨rfl, rfl⟩

/-- Literals of values whose texts can be told apart are different, whatever follows them. -/
theorem literal_append_inj (h : Separable closing P write) (hclosing : closing ≠ ',')
    (has : ∀ a ∈ as, P a) (hbs : ∀ b ∈ bs, P b)
    (heq : literal opening closing write as ++ r = literal opening closing write bs ++ s) :
    as = bs ∧ r = s := by
  -- An item does not begin with the closing mark, so an empty literal is no literal with items.
  have hempty {a : α} (ha : P a) {rest after : List Char} : closing :: rest ≠ write a ++ after := by
    intro heq
    obtain ⟨c, cs, hcs, hc⟩ := h.begins ha
    rw [hcs] at heq
    exact hc (List.cons.inj heq).1.symm
  cases as with
  | nil =>
    cases bs with
    | nil =>
      rw [literal_nil_append, literal_nil_append] at heq
      exact ⟨rfl, by simpa using heq⟩
    | cons b bs =>
      rw [literal_nil_append, literal_cons_append, List.cons_inj_right] at heq
      exact absurd heq (hempty (hbs b List.mem_cons_self))
  | cons a as =>
    cases bs with
    | nil =>
      rw [literal_nil_append, literal_cons_append, List.cons_inj_right] at heq
      exact absurd heq.symm (hempty (has a List.mem_cons_self))
    | cons b bs =>
      rw [List.forall_mem_cons] at has hbs
      obtain ⟨ha, has⟩ := has
      obtain ⟨hb, hbs⟩ := hbs
      rw [literal_cons_append, literal_cons_append, List.cons_inj_right] at heq
      obtain ⟨rfl, hrest⟩ :=
        h.append_inj ha hb (endsItem_afterItem as r) (endsItem_afterItem bs s) heq
      obtain ⟨rfl, rfl⟩ := h.afterItem_inj hclosing has hbs hrest
      exact ⟨rfl, rfl⟩

/-- Literals can be items of a literal again. -/
theorem literal (h : Separable closing P write) (hclosing : closing ≠ ',') {outer : Char}
    (hopening : opening ≠ outer) :
    Separable outer (fun as => ∀ a ∈ as, P a) (Text.literal opening closing write) where
  begins _ := ⟨opening, _, rfl, hopening⟩
  append_inj has hbs _ _ _ _ heq := h.literal_append_inj hclosing has hbs heq

end Separable

/-! ## Numbers and names -/

/-- The characters that divide and enclose the items of literals. -/
def marks : List Char :=
  [',', ' ', '[', ']', '\x7b', '\x7d']

/-- Whether a text is an item of literals by itself: it is not empty and has no marks. -/
structure IsItem (text : String) : Prop where
  ne_empty : text ≠ ""
  notMem_marks : ∀ c ∈ text.toList, c ∉ marks

instance (text : String) : Decidable (IsItem text) :=
  decidable_of_iff (text ≠ "" ∧ text.toList.all (· ∉ marks) = true)
    ⟨fun h => ⟨h.1, by simpa using h.2⟩, fun h => ⟨h.ne_empty, by simpa using h.notMem_marks⟩⟩

lemma separable_items (hclosing : closing ∈ marks) : Separable closing IsItem String.toList := by
  refine separable_of_notMem (fun h hnil => h.ne_empty (String.toList_inj.1 hnil)) ?_
    fun _ _ => String.toList_inj.1
  intro text h c hc
  have hmarks := h.notMem_marks c hc
  constructor
  · rintro rfl
    exact hmarks List.mem_cons_self
  · rintro rfl
    exact hmarks hclosing

lemma separable_numbers (hclosing : closing.isDigit = false) :
    Separable closing (fun _ : UInt64 => True) fun n => (toString n.toNat).toList := by
  simp only [Decimal.toList_toString]
  refine separable_of_notMem (fun _ => Nat.toDigits_ne_nil) ?_ fun _ _ h => ?_
  · intro n _ c hc
    have hdigit := Decimal.isDigit_of_mem_toDigits hc
    constructor <;> rintro rfl
    · exact absurd hdigit (by decide)
    · exact absurd hdigit (by simp [hclosing])
  · have hvalue := congrArg Decimal.value h
    rw [Decimal.value_toDigits, Decimal.value_toDigits] at hvalue
    exact UInt64.toNat_inj.1 hvalue

end JobBinding.Text

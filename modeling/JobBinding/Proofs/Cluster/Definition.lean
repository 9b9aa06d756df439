import Mathlib.Data.List.Forall2
import JobBinding.Cluster.Definition

/-!
# What a cluster file says

A value defines a cluster in one of two forms (`Defines`), and a text is a cluster file if it lists
values that all do. Reading follows this: it gives exactly what is defined
(`definition?_eq_some_iff`, `definitionsOf_eq_ok_iff`), so nothing else is accepted and nothing has
two readings.
-/

namespace JobBinding

lemma Vendor.ofName?_eq_some_iff {text : String} {vendor : Vendor} :
    Vendor.ofName? text = some vendor ↔ vendor.name = text := by
  constructor
  · intro h
    simpa using List.find?_some h
  · rintro rfl
    cases vendor <;> rfl

namespace Cluster

open Toml (Value)

/-! ## Definitions -/

/-- What the value under the key of the vendor says. -/
inductive IsVendor : Option Value → Vendor → Prop
  | omitted : IsVendor none .nvidia
  | name (vendor : Vendor) : IsVendor (some (.text vendor.name)) vendor
  | table (vendor : Vendor) : IsVendor (some (.table [(vendor.name, .table [])])) vendor
  | array (vendor : Vendor) : IsVendor (some (.table [(vendor.name, .array [])])) vendor

/-- What the value under the key for shared nodes says. -/
inductive IsShared : Option Value → Bool → Prop
  | omitted : IsShared none true
  | stated (shared : Bool) : IsShared (some (.boolean shared)) shared

/-- Whether a value is the definition of a cluster: a table without other keys than the known ones,
or an array of the values of these keys in order. -/
inductive Defines : Value → String → Capacity → Prop
  | table {entries : List (String × Value)} {name : String} {capacity : Capacity}
      (hkeys : ∀ e ∈ entries, e.1 ∈ keys)
      (hname : entries.lookup "name" = some (.text name))
      (hcpus : entries.lookup "cpus_per_node" = some (.integer capacity.cpus.toNat))
      (hgpus : entries.lookup "gpus_per_node" = some (.integer capacity.gpus.toNat))
      (hvendor : IsVendor (entries.lookup "gpu_arch") capacity.vendor)
      (hshared : IsShared (entries.lookup "has_shared") capacity.shared) :
      Defines (.table entries) name capacity
  | array {rest : List Value} {name : String} {capacity : Capacity}
      (hvendor : IsVendor rest[0]? capacity.vendor)
      (hshared : IsShared rest[1]? capacity.shared) :
      Defines (.array (.text name :: .integer capacity.cpus.toNat ::
        .integer capacity.gpus.toNat :: rest)) name capacity

lemma count?_eq_some_iff {v : Value} {n : UInt32} :
    count? v = some n ↔ v = .integer n.toNat := by
  constructor
  · intro h
    unfold count? at h
    split at h
    · split at h
      · next m hm =>
        obtain ⟨k, rfl⟩ := Int.eq_ofNat_of_zero_le hm.1
        have hk : k < UInt32.size := Int.ofNat_lt.1 hm.2
        cases h
        simp [Nat.mod_eq_of_lt hk]
      · cases h
    · cases h
  · rintro rfl
    have hn : 0 ≤ (n.toNat : Int) ∧ (n.toNat : Int) < UInt32.size :=
      ⟨Int.natCast_nonneg _, Int.ofNat_lt.2 n.toNat_lt_size⟩
    rw [count?, if_pos hn]
    simp

lemma text?_eq_some_iff {v : Value} {t : String} : text? v = some t ↔ v = .text t := by
  cases v <;> simp [text?]

lemma boolean?_eq_some_iff {v : Value} {b : Bool} : boolean? v = some b ↔ v = .boolean b := by
  cases v <;> simp [boolean?]

lemma vendor?_eq_some_iff {v : Value} {vendor : Vendor} :
    vendor? v = some vendor ↔ IsVendor (some v) vendor := by
  constructor
  · intro h
    unfold vendor? at h
    split at h
    · obtain rfl := Vendor.ofName?_eq_some_iff.1 h
      exact .name vendor
    · obtain rfl := Vendor.ofName?_eq_some_iff.1 h
      exact .table vendor
    · obtain rfl := Vendor.ofName?_eq_some_iff.1 h
      exact .array vendor
    · cases h
  · intro h
    cases h <;> exact Vendor.ofName?_eq_some_iff.2 rfl

lemma value?_eq_lookup (key : String) (entries : List (String × Value)) :
    value? key entries = entries.lookup key := by
  induction entries with
  | nil => rfl
  | cons e entries ih =>
    obtain ⟨other, v⟩ := e
    rw [value?] at ih ⊢
    rw [List.lookup_cons, ← ih]
    by_cases h : other = key
    · simp [h]
    · simp [h, beq_false_of_ne (Ne.symm h)]

lemma isVendor_iff {v : Option Value} {vendor : Vendor} :
    v.elim (some .nvidia) vendor? = some vendor ↔ IsVendor v vendor := by
  cases v with
  | none =>
    constructor
    · rintro ⟨⟩
      exact .omitted
    · rintro ⟨⟩
      rfl
  | some v => exact vendor?_eq_some_iff

lemma isShared_iff {v : Option Value} {shared : Bool} :
    v.elim (some true) boolean? = some shared ↔ IsShared v shared := by
  cases v with
  | none =>
    constructor
    · rintro ⟨⟩
      exact .omitted
    · rintro ⟨⟩
      rfl
  | some v =>
    rw [Option.elim_some, boolean?_eq_some_iff]
    constructor
    · rintro rfl
      exact .stated shared
    · rintro ⟨⟩
      rfl

lemma ofParts?_eq (name cpus gpus : Value) (vendor shared : Option Value) :
    ofParts? name cpus gpus vendor shared =
      (vendor.elim (some .nvidia) vendor?).bind fun vendor =>
        (shared.elim (some true) boolean?).bind fun shared =>
          (text? name).bind fun name => (count? cpus).bind fun cpus =>
            (count? gpus).bind fun gpus => some (name, ⟨cpus, gpus, vendor, shared⟩) := by
  cases vendor <;> cases shared <;> rfl

lemma ofParts?_eq_some_iff {name cpus gpus : Value} {vendor shared : Option Value} {n : String}
    {capacity : Capacity} :
    ofParts? name cpus gpus vendor shared = some (n, capacity) ↔
      name = .text n ∧ cpus = .integer capacity.cpus.toNat ∧
        gpus = .integer capacity.gpus.toNat ∧ IsVendor vendor capacity.vendor ∧
        IsShared shared capacity.shared := by
  simp only [ofParts?_eq, Option.bind_eq_some_iff, isVendor_iff, isShared_iff,
    text?_eq_some_iff, count?_eq_some_iff]
  constructor
  · rintro ⟨vendor, hvendor, shared, hshared, name, hname, cpus, hcpus, gpus, hgpus, ⟨⟩⟩
    exact ⟨hname, hcpus, hgpus, hvendor, hshared⟩
  · rintro ⟨hname, hcpus, hgpus, hvendor, hshared⟩
    exact ⟨_, hvendor, _, hshared, _, hname, _, hcpus, _, hgpus, rfl⟩

/-- Exactly the definitions are read, and as what they define. -/
theorem definition?_eq_some_iff {v : Value} {name : String} {capacity : Capacity} :
    definition? v = some (name, capacity) ↔ Defines v name capacity := by
  constructor
  · intro h
    unfold definition? at h
    split at h
    · next entries =>
      split at h
      · next hkeys =>
        simp only [Option.bind_eq_bind, Option.bind_eq_some_iff, value?_eq_lookup,
          ofParts?_eq_some_iff] at h
        obtain ⟨_, hn, _, hc, _, hg, rfl, rfl, rfl, hvendor, hshared⟩ := h
        refine .table (fun e he => ?_) hn hc hg hvendor hshared
        simpa using List.all_eq_true.1 hkeys e he
      · cases h
    · obtain ⟨rfl, rfl, rfl, hvendor, hshared⟩ := ofParts?_eq_some_iff.1 h
      exact .array hvendor hshared
    · cases h
  · intro h
    cases h with
    | @table entries _ _ hkeys hname hcpus hgpus hvendor hshared =>
      have hall : (entries.all fun e => keys.contains e.1) = true :=
        List.all_eq_true.2 fun e he => by simpa using hkeys e he
      simp only [definition?, value?_eq_lookup, hall, hname, hcpus, hgpus]
      exact ofParts?_eq_some_iff.2 ⟨rfl, rfl, rfl, hvendor, hshared⟩
    | array hvendor hshared => exact ofParts?_eq_some_iff.2 ⟨rfl, rfl, rfl, hvendor, hshared⟩

/-! ## Files -/

/-- Whether a text lists values: it has no other key than the one of the list, and an empty text
lists no values. -/
inductive Lists (text : String) : List Value → Prop
  | nothing (h : Toml.read? text = some (.table [])) : Lists text []
  | values {items : List Value} (h : Toml.read? text = some (.table [("cluster", .array items)])) :
      Lists text items

/-- A text lists its values in one way. -/
lemma Lists.eq {text : String} {items items' : List Value} (h : Lists text items)
    (h' : Lists text items') : items' = items := by
  rcases h with h | h <;> rcases h' with h' | h' <;> cases h.symm.trans h' <;> rfl

/-- Whether some values define some clusters, one each and in this order. -/
def DefinesAll (items : List Value) (definitions : List (String × Capacity)) : Prop :=
  List.Forall₂ (fun item d => Defines item d.1 d.2) items definitions

lemma DefinesAll.exists_of_mem {items : List Value} {definitions : List (String × Capacity)}
    {item : Value} (h : DefinesAll items definitions) (hitem : item ∈ items) :
    ∃ name capacity, Defines item name capacity := by
  induction h with
  | nil => cases hitem
  | @cons first d _ _ hfirst _ ih =>
    rcases List.mem_cons.1 hitem with rfl | hrest
    · exact ⟨d.1, d.2, hfirst⟩
    · exact ih hrest

lemma mapM_definition?_eq_some_iff {items : List Value}
    {definitions : List (String × Capacity)} :
    items.mapM definition? = some definitions ↔ DefinesAll items definitions := by
  induction items generalizing definitions with
  | nil =>
    rw [List.mapM_nil, DefinesAll, List.forall₂_nil_left_iff, Option.pure_def, Option.some.injEq,
      eq_comm]
  | cons item items ih =>
    rw [List.mapM_cons]
    simp only [Option.bind_eq_bind, Option.bind_eq_some_iff, ih]
    constructor
    · rintro ⟨d, hd, ds, hds, ⟨⟩⟩
      exact .cons (definition?_eq_some_iff.1 hd) hds
    · rintro (_ | ⟨hd, hds⟩)
      exact ⟨_, definition?_eq_some_iff.2 hd, _, hds, rfl⟩

lemma definitions?_eq_some_iff {v : Value} {definitions : List (String × Capacity)} :
    definitions? v = some definitions ↔ v = .table [] ∧ definitions = [] ∨
      ∃ items, v = .table [("cluster", .array items)] ∧ DefinesAll items definitions := by
  constructor
  · intro h
    unfold definitions? at h
    split at h
    · cases h
      exact .inl ⟨rfl, rfl⟩
    · exact .inr ⟨_, rfl, mapM_definition?_eq_some_iff.1 h⟩
    · cases h
  · rintro (⟨rfl, rfl⟩ | ⟨items, rfl, h⟩)
    · rfl
    · exact mapM_definition?_eq_some_iff.2 h

/-- The definitions of a text are those of the values that it lists. -/
theorem definitionsOf_eq_ok_iff {text : String} {definitions : List (String × Capacity)} :
    definitionsOf text = .ok definitions ↔
      ∃ items, Lists text items ∧ DefinesAll items definitions := by
  have hread : definitionsOf text = .ok definitions ↔
      ∃ v, Toml.read? text = some v ∧ definitions? v = some definitions := by
    rw [definitionsOf, ← Option.bind_eq_some_iff, ← Option.bind_eq_bind]
    cases Toml.read? text >>= definitions? <;> simp
  rw [hread]
  constructor
  · rintro ⟨v, hv, h⟩
    rcases definitions?_eq_some_iff.1 h with ⟨rfl, rfl⟩ | ⟨items, rfl, hitems⟩
    · exact ⟨[], .nothing hv, .nil⟩
    · exact ⟨items, .values hv, hitems⟩
  · rintro ⟨items, hlists | hlists, hitems⟩
    · exact ⟨_, hlists, definitions?_eq_some_iff.2 (.inl ⟨rfl, List.forall₂_nil_left_iff.1 hitems⟩)⟩
    · exact ⟨_, hlists, definitions?_eq_some_iff.2 (.inr ⟨items, rfl, hitems⟩)⟩

/-- A text that is not a cluster file is refused. -/
lemma definitionsOf_eq_error {text : String}
    (h : ∀ definitions, definitionsOf text ≠ .ok definitions) :
    definitionsOf text = .error (.undecodable "not a cluster file") := by
  rw [definitionsOf] at h ⊢
  cases hread : Toml.read? text >>= definitions? with
  | none => rfl
  | some definitions => exact absurd (by rw [hread]) (h definitions)

end Cluster

end JobBinding

import JobBinding.Proofs.Cluster.Catalog
import JobBinding.Proofs.Cluster.Definition
import JobBinding.Proofs.Text.ByteOrder

/-!
# Merging cluster files

A catalog is changed in place, definition by definition, after the whole text was read
(`mergeInPlace`). So a text that is refused leaves the catalog alone, although its first definitions
may be good ones.
-/

namespace JobBinding.Catalog

open Cluster (Lists Defines DefinesAll definitionsOf)
open Text.Utf8 (encode)

variable {text : String}

/-- Merges a text into a catalog: it is read, then its definitions are added one by one. -/
def mergeInPlace (text : String) : EStateM Failure Catalog Unit := do
  let definitions ← MonadExcept.ofExcept (definitionsOf text)
  for d in definitions do
    modify (·.define d.1 d.2)

lemma run_for_define (definitions : List (String × Capacity)) (catalog : Catalog) :
    (do for d in definitions do modify (·.define d.1 d.2) : EStateM Failure Catalog Unit).run
      catalog = .ok () (catalog.defineAll definitions) := by
  induction definitions generalizing catalog with
  | nil => rfl
  | cons d ds ih =>
    rw [List.forIn_cons]
    exact ih (catalog.define d.1 d.2)

lemma run_mergeInPlace (catalog : Catalog) (text : String) :
    (mergeInPlace text).run catalog = match catalog.merge text with
      | .ok merged => .ok () merged
      | .error e => .error e catalog := by
  rw [mergeInPlace, merge]
  cases definitionsOf text with
  | ok definitions => exact run_for_define definitions catalog
  | error e => rfl

/-- Whether a text is refused, so that the catalog stays as it is. -/
def Refuses (catalog : Catalog) (text : String) : Prop :=
  catalog.merge text = .error (.undecodable "not a cluster file") ∧
    (mergeInPlace text).run catalog = .error (.undecodable "not a cluster file") catalog

/-- Whether a text is merged and the catalog becomes another one. -/
def Becomes (catalog : Catalog) (text : String) (merged : Catalog) : Prop :=
  catalog.merge text = .ok merged ∧ (mergeInPlace text).run catalog = .ok () merged

lemma refuses_of_ne_ok (h : ∀ definitions, definitionsOf text ≠ .ok definitions)
    (catalog : Catalog) : Refuses catalog text := by
  have hmerge : catalog.merge text = .error (.undecodable "not a cluster file") := by
    rw [merge, Cluster.definitionsOf_eq_error h]
    rfl
  exact ⟨hmerge, by rw [run_mergeInPlace, hmerge]⟩

lemma becomes_of_eq_ok {definitions : List (String × Capacity)}
    (h : definitionsOf text = .ok definitions) (catalog : Catalog) :
    Becomes catalog text (catalog.defineAll definitions) := by
  have hmerge : catalog.merge text = .ok (catalog.defineAll definitions) := by
    rw [merge, h]
    rfl
  exact ⟨hmerge, by rw [run_mergeInPlace, hmerge]⟩

/-- What a catalog is after definitions were merged into it. For each name the last definition
counts, and a name without definition has what it had. All names that are known are listed, each of
them once and in the order of their bytes. -/
structure Merged (catalog : Catalog) (definitions : List (String × Capacity)) (merged : Catalog) :
    Prop where
  lookup_of_last : ∀ earlier name capacity later,
    definitions = earlier ++ (name, capacity) :: later → name ∉ later.map Prod.fst →
    merged.lookup name = .ok capacity
  lookup_of_notMem : ∀ name, name ∉ definitions.map Prod.fst →
    merged.lookup name = catalog.lookup name
  lookup_of_unknown : ∀ name, name ∉ definitions.map Prod.fst →
    name ∉ catalog.entries.map Prod.fst → merged.lookup name = .error (.unsupportedCluster name)
  mem_entries_iff : ∀ name capacity,
    (name, capacity) ∈ merged.entries ↔ merged.lookup name = .ok capacity
  nodup_names : (merged.entries.map Prod.fst).Nodup
  ascending : merged.entries.Pairwise fun d e => encode d.1 < encode e.1

lemma merged_defineAll (catalog : Catalog) (definitions : List (String × Capacity)) :
    Merged catalog definitions (catalog.defineAll definitions) where
  lookup_of_last earlier name capacity later heq hlater := by
    rw [lookup_eq_ok_iff, heq]
    exact find?_defineAll_of_last hlater
  lookup_of_notMem name hname := lookup_eq_of_find?_eq (find?_defineAll_of_notMem hname)
  lookup_of_unknown name hname hunknown := by
    rw [lookup_eq_of_find?_eq (find?_defineAll_of_notMem hname)]
    exact lookup_of_notMem hunknown
  mem_entries_iff _ _ := mem_entries_iff_find?.trans lookup_eq_ok_iff.symm
  nodup_names := nodup_names _
  ascending := (catalog.defineAll definitions).ascending.imp Text.Utf8.encode_lt_encode_iff.2

/-- Merging a text into a catalog. If the text lists no values, or if one of them defines no
cluster, it is refused. Otherwise its definitions are merged, and merging it once more changes
nothing. -/
theorem merge_spec (catalog : Catalog) (text : String) :
    ((∀ items, ¬ Lists text items) → Refuses catalog text) ∧
    ∀ items, Lists text items →
      ((∃ item ∈ items, ∀ name capacity, ¬ Defines item name capacity) →
        Refuses catalog text) ∧
      ∀ definitions, DefinesAll items definitions →
        ∃ merged, Becomes catalog text merged ∧ Merged catalog definitions merged ∧
          Becomes merged text merged := by
  refine ⟨fun hlists => ?_, fun items hlists => ⟨?_, fun definitions hitems => ?_⟩⟩
  · refine refuses_of_ne_ok (fun definitions h => ?_) catalog
    obtain ⟨items, hitems, -⟩ := Cluster.definitionsOf_eq_ok_iff.1 h
    exact hlists items hitems
  · rintro ⟨item, hmem, hitem⟩
    refine refuses_of_ne_ok (fun definitions h => ?_) catalog
    obtain ⟨items', hlists', hitems⟩ := Cluster.definitionsOf_eq_ok_iff.1 h
    -- A text lists one list of items, so the item that defines nothing is among those read.
    obtain rfl := hlists.eq hlists'
    obtain ⟨name, capacity, hdefines⟩ := hitems.exists_of_mem hmem
    exact hitem name capacity hdefines
  · have hread : definitionsOf text = .ok definitions :=
      Cluster.definitionsOf_eq_ok_iff.2 ⟨items, hlists, hitems⟩
    -- Defining the same again changes nothing, whatever the catalog was before.
    have hagain := becomes_of_eq_ok hread (catalog.defineAll definitions)
    rw [defineAll_defineAll] at hagain
    exact ⟨_, becomes_of_eq_ok hread catalog, merged_defineAll catalog definitions, hagain⟩

/-- A file can define a new name twice and a known one anew. A file that breaks off is refused. -/
theorem merge_spec_of_repeated_name :
    (∃ merged,
      Becomes builtin "cluster = [['mine', 64, 0], ['delta', 64, 8], ['mine', 8, 1, 'amd', false]]"
        merged ∧
      merged.lookup "mine" = .ok ⟨8, 1, .amd, false⟩ ∧
      merged.lookup "delta" = .ok ⟨64, 8, .nvidia, true⟩ ∧
      merged.lookup "anvil" = builtin.lookup "anvil") ∧
    Refuses builtin "cluster = [['mine', 64, 0]" := by
  constructor
  · have hread : Toml.read?
        "cluster = [['mine', 64, 0], ['delta', 64, 8], ['mine', 8, 1, 'amd', false]]" >>=
          Cluster.definitions? =
        some [("mine", ⟨64, 0, .nvidia, true⟩), ("delta", ⟨64, 8, .nvidia, true⟩),
          ("mine", ⟨8, 1, .amd, false⟩)] := by
      decide +kernel
    obtain ⟨items, hlists, hitems⟩ := Cluster.definitionsOf_eq_ok_iff.1
      (show definitionsOf _ = .ok _ by rw [definitionsOf, hread])
    obtain ⟨merged, hbecomes, hmerged, -⟩ := ((merge_spec builtin _).2 items hlists).2 _ hitems
    refine ⟨merged, hbecomes, hmerged.lookup_of_last [_, _] _ _ [] rfl (by decide),
      hmerged.lookup_of_last [_] _ _ [_] rfl (by decide),
      hmerged.lookup_of_notMem _ (by decide)⟩
  · refine (merge_spec builtin _).1 fun items hlists => ?_
    have hread : (Toml.read? "cluster = [['mine', 64, 0]").isNone = true := by decide +kernel
    rcases hlists with h | h <;> simp [h] at hread

end JobBinding.Catalog

import JobBinding.Gather.Message
import JobBinding.Proofs.SortedSet
import JobBinding.Proofs.Wire.Codec

/-!
# The encoding of bindings

A binding is read from its parts as some bytes list them (`Listed`), and nothing but the cores is
changed by that: they may be listed in any order and repeatedly. So a binding is read back from its
encoding, and each binding that was read has an encoding that it is read back from, which need not
be the one that it was read from (`encoding_spec`).
-/

namespace JobBinding

namespace Binding

/-- The parts of a binding as they are listed in some bytes. -/
structure Listed where
  hostname : String
  /-- The cores, in any order and perhaps repeatedly. -/
  cores : List CoreId
  gpus : List String

namespace Listed

def codec : Codec Listed where
  encode l :=
    Codec.text.encode l.hostname ++ (Codec.list Codec.u64).encode l.cores ++
      (Codec.list Codec.text).encode l.gpus
  read input := do
    let (hostname, rest) ← Codec.text.read input
    let (cores, rest) ← (Codec.list Codec.u64).read rest
    let (gpus, rest) ← (Codec.list Codec.text).read rest
    return (⟨hostname, cores, gpus⟩, rest)

def binding (l : Listed) : Binding :=
  ⟨l.hostname, .ofList l.cores, l.gpus⟩

theorem faithful_codec : codec.Faithful := by
  intro l rest h
  have htexts : (Codec.list Codec.text).Faithful :=
    Codec.faithful_list Codec.faithful_text (by simp [Codec.text, Codec.bytes])
  have hcores : (Codec.list Codec.u64).Faithful :=
    Codec.faithful_list Codec.faithful_u64 (by simp [Codec.u64])
  simp only [codec, List.length_append] at h
  have h1 := Codec.faithful_text l.hostname
    ((Codec.list Codec.u64).encode l.cores ++ ((Codec.list Codec.text).encode l.gpus ++ rest))
    (by omega)
  have h2 := hcores l.cores ((Codec.list Codec.text).encode l.gpus ++ rest) (by omega)
  have h3 := htexts l.gpus rest (by omega)
  simp only [codec, List.append_assoc, h1, h2, h3, Option.bind_eq_bind, Option.bind_some]
  rfl

theorem exact_codec : codec.Exact := by
  intro l input rest h
  obtain ⟨⟨hostname, after⟩, hhostname, h⟩ := Option.bind_eq_some_iff.1 h
  obtain ⟨⟨cores, after'⟩, hcores, h⟩ := Option.bind_eq_some_iff.1 h
  obtain ⟨⟨gpus, after''⟩, hgpus, h⟩ := Option.bind_eq_some_iff.1 h
  cases h
  rw [Codec.exact_text _ _ _ hhostname, Codec.exact_list Codec.exact_u64 _ _ _ hcores,
    Codec.exact_list Codec.exact_text _ _ _ hgpus, codec, List.append_assoc, List.append_assoc]

end Listed

/-- The parts of a binding as its own encoding lists them. -/
def listed (b : Binding) : Listed :=
  ⟨b.hostname, b.cores.toList, b.gpus⟩

lemma binding_listed (b : Binding) : b.listed.binding = b := by
  rw [listed, Listed.binding, SortedSet.ofList_toList]

lemma encode_eq (b : Binding) : codec.encode b = Listed.codec.encode b.listed :=
  rfl

/-- Only the cores are read as something else than what is listed. -/
lemma read_eq (input : List UInt8) :
    codec.read input = (Listed.codec.read input).map fun parts => (parts.1.binding, parts.2) := by
  simp only [codec, Listed.codec, Codec.set, Option.bind_eq_bind, Option.bind_assoc,
    Option.map_bind, Function.comp_def]
  rfl

theorem faithful_codec : codec.Faithful := by
  intro b rest h
  rw [read_eq, encode_eq, Listed.faithful_codec b.listed rest h, Option.map_some, binding_listed]

lemma read_eq_some_iff {b : Binding} {input rest : List UInt8} :
    codec.read input = some (b, rest) ↔
      ∃ l, Listed.codec.read input = some (l, rest) ∧ l.binding = b := by
  rw [read_eq, Option.map_eq_some_iff]
  constructor
  · rintro ⟨⟨l, rest'⟩, hread, h⟩
    cases h
    exact ⟨l, hread, rfl⟩
  · rintro ⟨l, hread, rfl⟩
    exact ⟨(l, rest), hread, rfl⟩

/-- A binding lists each of its cores once, so its encoding is no longer than any bytes that it is
read from. -/
theorem concise_codec : codec.Concise := by
  intro b input rest h
  obtain ⟨l, hread, rfl⟩ := read_eq_some_iff.1 h
  have hcores := SortedSet.length_flatMap_ofList_le Codec.u64.encode l.cores
  rw [Listed.exact_codec _ _ _ hread, encode_eq]
  simp only [Listed.codec, listed, Listed.binding, Codec.list, List.length_append,
    Codec.length_encodeLength]
  omega

/-- The bytes that are read as a binding are those that list its parts, its cores in any order. -/
lemma deserialize_eq_ok_iff {b : Binding} {input : List UInt8} :
    codec.deserialize input = .ok b ↔ input.length ≤ Codec.limit ∧
      ∃ l : Listed, input = Listed.codec.encode l ∧ l.binding = b := by
  have hlimit : Codec.limit < 2 ^ 64 := by decide
  rw [Codec.deserialize_eq_ok_iff_read, and_comm, read_eq_some_iff]
  refine and_congr_right fun hinput => exists_congr fun l => and_congr_left fun _ => ?_
  constructor
  · intro hread
    simpa using Listed.exact_codec _ _ _ hread
  · rintro rfl
    have hread := Listed.faithful_codec l [] (by omega)
    rwa [List.append_nil] at hread

lemma binding_eq_iff {l : Listed} {b : Binding} :
    l.binding = b ↔ l.hostname = b.hostname ∧ (∀ id, id ∈ b.cores ↔ id ∈ l.cores) ∧
      l.gpus = b.gpus := by
  obtain ⟨hostname, cores, gpus⟩ := b
  rw [Listed.binding, Binding.mk.injEq]
  refine and_congr_right fun _ => and_congr_left fun _ => ?_
  constructor
  · rintro rfl id
    exact SortedSet.mem_ofList
  · intro h
    exact SortedSet.eq_of_mem_iff fun id => SortedSet.mem_ofList.trans (h id).symm

/-- The encoding of bindings. A binding the encoding of which is not too large is read back from it,
so no other binding has the same encoding. Bytes are read as a binding exactly if they list its host
name, its cores in any order and perhaps repeatedly, and its GPUs. A binding that was read can be
encoded and is read back from its encoding, whether or not it was read from that. -/
theorem encoding_spec (b other : Binding) (input : List UInt8) :
    ((codec.encode b).length ≤ Codec.limit →
      ∃ encoded, codec.serialize b = .ok encoded ∧ codec.deserialize encoded = .ok b) ∧
    (∀ encoded, codec.serialize b = .ok encoded → codec.serialize other = .ok encoded →
      b = other) ∧
    (codec.deserialize input = .ok b ↔ input.length ≤ Codec.limit ∧
      ∃ l : Listed, input = Listed.codec.encode l ∧ l.hostname = b.hostname ∧
        (∀ id, id ∈ b.cores ↔ id ∈ l.cores) ∧ l.gpus = b.gpus) ∧
    (codec.deserialize input = .ok b →
      ∃ encoded, codec.serialize b = .ok encoded ∧ codec.deserialize encoded = .ok b) := by
  refine ⟨fun hlimit => ?_, fun encoded hb hother => ?_, ?_, ?_⟩
  · have hs := Codec.serialize_eq_ok_iff.2 ⟨hlimit, rfl⟩
    exact ⟨_, hs, faithful_codec.deserialize_of_serialize hs⟩
  · have hread := faithful_codec.deserialize_of_serialize hb
    rw [faithful_codec.deserialize_of_serialize hother] at hread
    exact (Except.ok.inj hread).symm
  · simp only [deserialize_eq_ok_iff, binding_eq_iff]
  · exact concise_codec.exists_serialize faithful_codec

/-- Some bytes that list three cores out of order and one of them twice are read as the binding with
the three cores, which is encoded as other bytes. -/
theorem encoding_of_repeated :
    codec.deserialize (Listed.codec.encode ⟨"n1", [7, 3, 7, 5], ["a"]⟩) =
        .ok ⟨"n1", .ofList [3, 5, 7], ["a"]⟩ ∧
      ∃ encoded, codec.serialize ⟨"n1", .ofList [3, 5, 7], ["a"]⟩ = .ok encoded ∧
        codec.deserialize encoded = .ok ⟨"n1", .ofList [3, 5, 7], ["a"]⟩ ∧
        encoded ≠ Listed.codec.encode ⟨"n1", [7, 3, 7, 5], ["a"]⟩ := by
  obtain ⟨-, -, hread, hagain⟩ := encoding_spec ⟨"n1", .ofList [3, 5, 7], ["a"]⟩ default
    (Listed.codec.encode ⟨"n1", [7, 3, 7, 5], ["a"]⟩)
  have hcores (id : CoreId) : id ∈ SortedSet.ofList [3, 5, 7] ↔ id ∈ [7, 3, 7, 5] := by
    simp only [SortedSet.mem_ofList, List.mem_cons, List.not_mem_nil, or_false]
    tauto
  have hok := hread.2 ⟨by decide, _, rfl, rfl, hcores, rfl⟩
  obtain ⟨encoded, hs, hd⟩ := hagain hok
  refine ⟨hok, encoded, hs, hd, ?_⟩
  rw [(Codec.serialize_eq_ok_iff.1 hs).2]
  decide

end Binding

end JobBinding

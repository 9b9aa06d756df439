import Mathlib.Tactic.Ring
import JobBinding.Proofs.Text.Utf8
import JobBinding.Wire.Codec

/-!
# Codecs that read back what they write

`Faithful` is the law of a codec: each value is read from the front of its encoding and what
follows the encoding is left. Codecs that follow each other keep the law, so it is proved once for
each kind of value, and a codec of records needs only its parts.

`Exact` is the converse: a value is read from no bytes but its encoding. A codec with both laws
takes exactly the bytes that it writes (`deserialize_eq_ok_iff`). A codec of sets is not exact, but
no value is read from fewer bytes than it is written as (`Concise`), so what was read can be written
and read again.

The first law is about encodings that eight bytes can measure. What is serialized is far below
that, so `Faithful.deserialize_of_serialize` has no such condition.
-/

namespace JobBinding

namespace Codec

@[simp] lemma length_littleEndian (width n : Nat) : (littleEndian width n).length = width := by
  induction width generalizing n with
  | zero => rfl
  | succ width ih => rw [littleEndian, List.length_cons, ih]

lemma ofLittleEndian_littleEndian (width n : Nat) :
    ofLittleEndian (littleEndian width n) = n % 256 ^ width := by
  induction width generalizing n with
  | zero => rw [littleEndian, ofLittleEndian, pow_zero, Nat.mod_one]
  | succ width ih =>
    have hlow : (n % 256).toUInt8.toNat = n % 256 :=
      Nat.mod_eq_of_lt (Nat.mod_lt n (by decide))
    rw [littleEndian, ofLittleEndian, ih, hlow, pow_succ', Nat.mod_mul]

lemma ofLittleEndian_littleEndian_of_lt {width n : Nat} (h : n < 256 ^ width) :
    ofLittleEndian (littleEndian width n) = n := by
  rw [ofLittleEndian_littleEndian, Nat.mod_eq_of_lt h]

lemma takeBytes_append (front rest : List UInt8) :
    takeBytes front.length (front ++ rest) = some (front, rest) := by
  rw [takeBytes, if_pos (by simp), List.take_left, List.drop_left]

lemma takeBytes_littleEndian (width n : Nat) (rest : List UInt8) :
    takeBytes width (littleEndian width n ++ rest) = some (littleEndian width n, rest) := by
  simpa using takeBytes_append (littleEndian width n) rest

/-- Whether each value is read back from the front of its encoding, whatever follows. A length has
eight bytes, so nothing is asked of an encoding that is longer than they can say. -/
def Faithful {α : Type} (codec : Codec α) : Prop :=
  ∀ (value : α) (rest : List UInt8), (codec.encode value).length < 2 ^ 64 →
    codec.read (codec.encode value ++ rest) = some (value, rest)

theorem faithful_u32 : u32.Faithful := by
  intro n rest _
  have hn : (ofLittleEndian (littleEndian 4 n.toNat)).toUInt32 = n := by
    rw [ofLittleEndian_littleEndian_of_lt n.toNat_lt]
    exact UInt32.ofNat_toNat
  simp only [u32, takeBytes_littleEndian, Option.bind_eq_bind, Option.bind_some, hn]
  rfl

theorem faithful_u64 : u64.Faithful := by
  intro n rest _
  have hn : (ofLittleEndian (littleEndian 8 n.toNat)).toUInt64 = n := by
    rw [ofLittleEndian_littleEndian_of_lt n.toNat_lt]
    exact UInt64.ofNat_toNat
  simp only [u64, takeBytes_littleEndian, Option.bind_eq_bind, Option.bind_some, hn]
  rfl

lemma readLength_encodeLength {n : Nat} (h : n < 2 ^ 64) (rest : List UInt8) :
    readLength (encodeLength n ++ rest) = some (n, rest) := by
  have hn : ofLittleEndian (littleEndian 8 n) = n := ofLittleEndian_littleEndian_of_lt h
  simp only [readLength, encodeLength, takeBytes_littleEndian, Option.bind_eq_bind,
    Option.bind_some, hn]
  rfl

@[simp] lemma length_encodeLength (n : Nat) : (encodeLength n).length = 8 :=
  length_littleEndian 8 n

theorem faithful_bytes : bytes.Faithful := by
  intro content rest h
  have hlen : content.length < 2 ^ 64 := by
    simp only [bytes, List.length_append, length_encodeLength] at h
    omega
  simp only [bytes, List.append_assoc, readLength_encodeLength hlen, Option.bind_eq_bind,
    Option.bind_some, takeBytes_append]

/-- What encodings that follow each other give when they are read one after the other. -/
lemma Faithful.read_append {α : Type} {codec : Codec α} (h : codec.Faithful) (value : α)
    (more rest : List UInt8) (hlen : (codec.encode value ++ more).length < 2 ^ 64) :
    codec.read (codec.encode value ++ (more ++ rest)) = some (value, more ++ rest) := by
  rw [List.length_append] at hlen
  exact h value _ (by omega)

theorem faithful_text : text.Faithful := by
  intro content rest h
  simp only [text, faithful_bytes _ rest h, Option.bind_eq_bind, Option.bind_some,
    Text.Utf8.decode?_encode]
  rfl

variable {α : Type}

lemma readMany_flatMap_encode {item : Codec α} (hitem : item.Faithful) (values : List α)
    (rest : List UInt8) (h : (values.flatMap item.encode).length < 2 ^ 64) :
    readMany item values.length (values.flatMap item.encode ++ rest) = some (values, rest) := by
  induction values with
  | nil => rfl
  | cons value values ih =>
    rw [List.flatMap_cons] at h
    have htail : (values.flatMap item.encode).length < 2 ^ 64 := by
      rw [List.length_append] at h
      omega
    rw [List.flatMap_cons, List.append_assoc, List.length_cons, readMany,
      hitem.read_append value _ rest h]
    simp only [Option.bind_eq_bind, Option.bind_some, ih htail]
    rfl

lemma length_le_length_flatMap_encode {item : Codec α}
    (hpos : ∀ value, 0 < (item.encode value).length) (values : List α) :
    values.length ≤ (values.flatMap item.encode).length := by
  induction values with
  | nil => simp
  | cons value values ih =>
    have := hpos value
    rw [List.flatMap_cons, List.length_append, List.length_cons]
    omega

/-- A list of items that take no bytes could be longer than its length can say. -/
theorem faithful_list {item : Codec α} (hitem : item.Faithful)
    (hpos : ∀ value, 0 < (item.encode value).length) : (list item).Faithful := by
  intro values rest h
  simp only [list, List.length_append, length_encodeLength] at h
  have hcount := length_le_length_flatMap_encode hpos values
  have hlen : values.length < 2 ^ 64 := by omega
  simp only [list, List.append_assoc, readLength_encodeLength hlen, Option.bind_eq_bind,
    Option.bind_some]
  exact readMany_flatMap_encode hitem values rest (by omega)

/-! ### Codecs that read nothing but what they write -/

/-- Whether a value is read from no bytes but its encoding. Sets have no such codec, since a list
in another order is read as the same set. -/
def Exact (codec : Codec α) : Prop :=
  ∀ (value : α) (input rest : List UInt8), codec.read input = some (value, rest) →
    input = codec.encode value ++ rest

lemma ofLittleEndian_lt (bytes : List UInt8) : ofLittleEndian bytes < 256 ^ bytes.length := by
  induction bytes with
  | nil => exact Nat.one_pos
  | cons b bytes ih =>
    have hb := b.toNat_lt
    rw [ofLittleEndian, List.length_cons, Nat.pow_succ]
    omega

lemma littleEndian_ofLittleEndian (bytes : List UInt8) :
    littleEndian bytes.length (ofLittleEndian bytes) = bytes := by
  induction bytes with
  | nil => rfl
  | cons b bytes ih =>
    have hb := b.toNat_lt
    have hlow : (b.toNat + 256 * ofLittleEndian bytes) % 256 = b.toNat := by omega
    have hhigh : (b.toNat + 256 * ofLittleEndian bytes) / 256 = ofLittleEndian bytes := by omega
    rw [List.length_cons, ofLittleEndian, littleEndian, hlow, hhigh, ih]
    exact congrArg (· :: bytes) UInt8.ofNat_toNat

lemma takeBytes_eq_some_iff {count : Nat} {input front rest : List UInt8} :
    takeBytes count input = some (front, rest) ↔ input = front ++ rest ∧ front.length = count := by
  constructor
  · intro h
    rw [takeBytes] at h
    split at h
    · next hcount =>
      cases h
      exact ⟨(List.take_append_drop count input).symm, List.length_take_of_le hcount⟩
    · cases h
  · rintro ⟨rfl, rfl⟩
    exact takeBytes_append front rest

/-- Some bytes are the encoding of the number that they are read as. -/
lemma eq_littleEndian_append {width : Nat} {input front rest : List UInt8}
    (h : takeBytes width input = some (front, rest)) :
    ofLittleEndian front < 256 ^ width ∧
      input = littleEndian width (ofLittleEndian front) ++ rest := by
  obtain ⟨rfl, rfl⟩ := takeBytes_eq_some_iff.1 h
  exact ⟨ofLittleEndian_lt front, by rw [littleEndian_ofLittleEndian]⟩

theorem exact_u32 : u32.Exact := by
  intro n input rest h
  obtain ⟨⟨front, after⟩, htake, hread⟩ := Option.bind_eq_some_iff.1 h
  cases hread
  obtain ⟨hlt, rfl⟩ := eq_littleEndian_append htake
  have hn : (ofLittleEndian front).toUInt32.toNat = ofLittleEndian front := Nat.mod_eq_of_lt hlt
  simp only [u32, hn]

theorem exact_u64 : u64.Exact := by
  intro n input rest h
  obtain ⟨⟨front, after⟩, htake, hread⟩ := Option.bind_eq_some_iff.1 h
  cases hread
  obtain ⟨hlt, rfl⟩ := eq_littleEndian_append htake
  have hn : (ofLittleEndian front).toUInt64.toNat = ofLittleEndian front := Nat.mod_eq_of_lt hlt
  simp only [u64, hn]

lemma eq_encodeLength_append {n : Nat} {input rest : List UInt8}
    (h : readLength input = some (n, rest)) : input = encodeLength n ++ rest := by
  obtain ⟨⟨front, after⟩, htake, hread⟩ := Option.bind_eq_some_iff.1 h
  cases hread
  exact (eq_littleEndian_append htake).2

theorem exact_bytes : bytes.Exact := by
  intro content input rest h
  obtain ⟨⟨n, after⟩, hlength, htake⟩ := Option.bind_eq_some_iff.1 h
  obtain ⟨rfl, rfl⟩ := takeBytes_eq_some_iff.1 htake
  rw [eq_encodeLength_append hlength, bytes, List.append_assoc]

theorem exact_text : text.Exact := by
  intro content input rest h
  obtain ⟨⟨encoded, after⟩, hbytes, hread⟩ := Option.bind_eq_some_iff.1 h
  obtain ⟨t, ht, hread⟩ := Option.bind_eq_some_iff.1 hread
  cases hread
  rw [exact_bytes _ _ _ hbytes]
  show _ = bytes.encode (Text.Utf8.encode content) ++ _
  rw [Text.Utf8.encode_of_decode? ht]

lemma eq_flatMap_encode_append {item : Codec α} (hitem : item.Exact) {count : Nat}
    {values : List α} {input rest : List UInt8}
    (h : readMany item count input = some (values, rest)) :
    input = values.flatMap item.encode ++ rest ∧ values.length = count := by
  induction count generalizing values input with
  | zero =>
    cases h
    exact ⟨rfl, rfl⟩
  | succ count ih =>
    obtain ⟨⟨value, after⟩, hvalue, h⟩ := Option.bind_eq_some_iff.1 h
    obtain ⟨⟨more, after'⟩, hmore, h⟩ := Option.bind_eq_some_iff.1 h
    cases h
    obtain ⟨hafter, rfl⟩ := ih hmore
    rw [hitem _ _ _ hvalue, hafter, List.flatMap_cons, List.append_assoc]
    exact ⟨rfl, rfl⟩

theorem exact_list {item : Codec α} (hitem : item.Exact) : (list item).Exact := by
  intro values input rest h
  obtain ⟨⟨n, after⟩, hlength, hmany⟩ := Option.bind_eq_some_iff.1 h
  obtain ⟨hafter, rfl⟩ := eq_flatMap_encode_append hitem hmany
  rw [eq_encodeLength_append hlength, hafter, list, List.append_assoc]

/-! ### Whole byte sequences -/

lemma serialize_eq_ok_iff {codec : Codec α} {value : α} {encoded : List UInt8} :
    codec.serialize value = .ok encoded ↔
      (codec.encode value).length ≤ limit ∧ encoded = codec.encode value := by
  unfold serialize
  dsimp only
  split
  · next h => simp [h, eq_comm]
  · next h => simp [h]

lemma length_le_of_serialize {codec : Codec α} {value : α} {encoded : List UInt8}
    (h : codec.serialize value = .ok encoded) : encoded.length ≤ limit := by
  obtain ⟨hle, rfl⟩ := serialize_eq_ok_iff.1 h
  exact hle

lemma Faithful.read_of_serialize {codec : Codec α} (h : codec.Faithful) {value : α}
    {encoded : List UInt8} (hs : codec.serialize value = .ok encoded) (rest : List UInt8) :
    codec.read (encoded ++ rest) = some (value, rest) := by
  obtain ⟨hle, rfl⟩ := serialize_eq_ok_iff.1 hs
  have hlimit : limit < 2 ^ 64 := by decide
  exact h value rest (by omega)

/-- A value that is not too large to be written is read back from what was written. -/
theorem Faithful.deserialize_of_serialize {codec : Codec α} (h : codec.Faithful) {value : α}
    {encoded : List UInt8} (hs : codec.serialize value = .ok encoded) :
    codec.deserialize encoded = .ok value := by
  have hread := h.read_of_serialize hs []
  rw [List.append_nil] at hread
  simp only [deserialize, hread, if_pos (length_le_of_serialize hs)]

lemma deserialize_eq_ok_iff_read {codec : Codec α} {value : α} {input : List UInt8} :
    codec.deserialize input = .ok value ↔
      codec.read input = some (value, []) ∧ input.length ≤ limit := by
  rw [deserialize]
  cases codec.read input with
  | none => simp
  | some parts =>
    obtain ⟨v, rest⟩ := parts
    cases rest with
    | nil =>
      by_cases hlimit : input.length ≤ limit
      · simp [hlimit]
      · simp [hlimit]
    | cons c rest => simp

/-- A byte sequence is read as a value exactly if it is what is written for the value. -/
theorem deserialize_eq_ok_iff {codec : Codec α} (hfaithful : codec.Faithful)
    (hexact : codec.Exact) {value : α} {input : List UInt8} :
    codec.deserialize input = .ok value ↔ codec.serialize value = .ok input := by
  constructor
  · intro h
    obtain ⟨hread, hlimit⟩ := deserialize_eq_ok_iff_read.1 h
    have hinput := hexact _ _ _ hread
    rw [List.append_nil] at hinput
    exact serialize_eq_ok_iff.2 ⟨hinput ▸ hlimit, hinput⟩
  · exact hfaithful.deserialize_of_serialize

/-- Whether writing a value takes no more bytes than it was read from. -/
def Concise (codec : Codec α) : Prop :=
  ∀ (value : α) (input rest : List UInt8), codec.read input = some (value, rest) →
    (codec.encode value).length + rest.length ≤ input.length

/-- A value that was read can be written, and it is read again from what is written. -/
theorem Concise.exists_serialize {codec : Codec α} (hconcise : codec.Concise)
    (hfaithful : codec.Faithful) {value : α} {input : List UInt8}
    (h : codec.deserialize input = .ok value) :
    ∃ encoded, codec.serialize value = .ok encoded ∧ codec.deserialize encoded = .ok value := by
  obtain ⟨hread, hlimit⟩ := deserialize_eq_ok_iff_read.1 h
  have hle := hconcise _ _ _ hread
  rw [List.length_nil, Nat.add_zero] at hle
  have hs := serialize_eq_ok_iff.2 ⟨hle.trans hlimit, rfl⟩
  exact ⟨_, hs, hfaithful.deserialize_of_serialize hs⟩

lemma deserialize_eq_error {codec : Codec α} {input : List UInt8}
    (h : ∀ value, codec.deserialize input ≠ .ok value) :
    ∃ detail, codec.deserialize input = .error (.undecodable detail) := by
  unfold deserialize at h ⊢
  split at h
  · next value hread =>
    split at h
    · exact absurd rfl (h value)
    · next hlimit => exact ⟨_, if_neg hlimit⟩
  · exact ⟨_, rfl⟩
  · exact ⟨_, rfl⟩

end Codec

end JobBinding

import JobBinding.Gather.Message
import JobBinding.Proofs.Except
import JobBinding.Proofs.Wire.Frame

/-!
# Messages arrive as they were sent

The codecs of payloads and messages are faithful, and a message that was put on a connection is the
message that is taken from it. They are exact as well, so that nothing but the encoding of a message
is taken for it (`wire_format_exact`).
-/

namespace JobBinding

namespace Gather

theorem Payload.faithful_codec : Payload.codec.Faithful := by
  intro payload rest h
  cases payload with
  | value encoded =>
    simp only [codec, List.length_append] at h
    have h1 := Codec.faithful_u32 0 (Codec.bytes.encode encoded ++ rest) (by omega)
    have h2 := Codec.faithful_bytes encoded rest (by omega)
    simp only [codec, List.append_assoc, h1, h2, Option.bind_eq_bind, Option.bind_some, if_true]
    rfl
  | abort reason =>
    simp only [codec, List.length_append] at h
    have h1 := Codec.faithful_u32 1 (Codec.text.encode reason ++ rest) (by omega)
    have h2 := Codec.faithful_text reason rest (by omega)
    have hcase : (1 : UInt32) ≠ 0 := by decide
    simp only [codec, List.append_assoc, h1, h2, Option.bind_eq_bind, Option.bind_some,
      if_neg hcase, if_true]
    rfl

theorem Message.faithful_codec : Message.codec.Faithful := by
  intro m rest h
  simp only [codec, List.length_append] at h
  have h1 := Codec.faithful_u32 m.rank (Payload.codec.encode m.payload ++ rest) (by omega)
  have h2 := Payload.faithful_codec m.payload rest (by omega)
  simp only [codec, List.append_assoc, h1, h2, Option.bind_eq_bind, Option.bind_some]
  rfl

theorem Payload.exact_codec : Payload.codec.Exact := by
  intro payload input rest h
  obtain ⟨⟨case, after⟩, hcase, h⟩ := Option.bind_eq_some_iff.1 h
  rw [Codec.exact_u32 _ _ _ hcase]
  dsimp only at h
  split at h
  · next hzero =>
    obtain ⟨⟨encoded, after'⟩, hbytes, h⟩ := Option.bind_eq_some_iff.1 h
    cases h
    rw [Codec.exact_bytes _ _ _ hbytes, codec, hzero, List.append_assoc]
  · split at h
    · next hone =>
      obtain ⟨⟨reason, after'⟩, htext, h⟩ := Option.bind_eq_some_iff.1 h
      cases h
      rw [Codec.exact_text _ _ _ htext, codec, hone, List.append_assoc]
    · cases h

theorem Message.exact_codec : Message.codec.Exact := by
  intro m input rest h
  obtain ⟨⟨rank, after⟩, hrank, h⟩ := Option.bind_eq_some_iff.1 h
  obtain ⟨⟨payload, after'⟩, hpayload, h⟩ := Option.bind_eq_some_iff.1 h
  cases h
  rw [Codec.exact_u32 _ _ _ hrank, Payload.exact_codec _ _ _ hpayload, codec, List.append_assoc]

/-! ## On a connection -/

namespace Message

theorem toConnection_eq_ok_iff {m : Message} {sent : List UInt8} :
    m.toConnection = .ok sent ↔
      (codec.encode m).length ≤ Codec.limit ∧ sent = Frame.write (codec.encode m) := by
  rw [toConnection, bind_eq_ok_iff]
  constructor
  · rintro ⟨encoded, hs, hsent⟩
    obtain ⟨hsize, rfl⟩ := Codec.serialize_eq_ok_iff.1 hs
    exact ⟨hsize, (Frame.send_eq_ok_iff.1 hsent).2⟩
  · rintro ⟨hsize, rfl⟩
    exact ⟨_, Codec.serialize_eq_ok_iff.2 ⟨hsize, rfl⟩, Frame.send_eq_ok_iff.2 ⟨hsize, rfl⟩⟩

/-- The message that was put on a connection is the message that is taken from it. -/
theorem ofConnection_of_toConnection {m : Message} {sent more : List UInt8}
    {pieces : List (List UInt8)} (hsent : m.toConnection = .ok sent)
    (h : pieces.flatten = sent ++ more) : ofConnection pieces = .ok m := by
  obtain ⟨hsize, rfl⟩ := toConnection_eq_ok_iff.1 hsent
  rw [ofConnection, Frame.read_of_flatten_eq_write hsize h]
  exact faithful_codec.deserialize_of_serialize (Codec.serialize_eq_ok_iff.2 ⟨hsize, rfl⟩)

theorem ofConnection_of_flatten_eq_nil {pieces : List (List UInt8)} (h : pieces.flatten = []) :
    ofConnection pieces = .error (.protocol .closedEarly) := by
  rw [ofConnection, Frame.read_of_flatten_eq_nil h]
  rfl

/-! ## The wire format -/

end Message

/-- The number of bytes of what a payload carries. -/
def Payload.size : Payload → Nat
  | .value encoded => encoded.length
  | .abort reason => (Text.Utf8.encode reason).length

lemma Payload.length_encode (p : Payload) : (codec.encode p).length = p.size + 12 := by
  cases p <;> simp [codec, size, Codec.text, Codec.bytes, Codec.u32] <;> omega

namespace Message

/-- A message takes sixteen bytes beside what it carries: its rank, the case of its payload and
the length of that. -/
lemma length_encode (m : Message) : (codec.encode m).length = m.payload.size + 16 := by
  simp [codec, Codec.u32, Payload.length_encode]
  omega

lemma exists_serialize_iff (m : Message) :
    (∃ encoded, codec.serialize m = .ok encoded) ↔ m.payload.size ≤ Codec.limit - 16 := by
  have hlimit : 16 ≤ Codec.limit := by decide
  simp only [Codec.serialize_eq_ok_iff, exists_and_left, exists_eq, and_true, length_encode]
  omega

/-- Bytes that are no message: something follows a message or is missing from it, the case of the
payload is unknown, or the reason of an abort is no text. -/
inductive Malformed : List UInt8 → Prop
  | trailing {m : Message} {encoded extra : List UInt8} (hm : codec.serialize m = .ok encoded)
    (h : extra ≠ []) : Malformed (encoded ++ extra)
  | truncated {m : Message} {front missing : List UInt8}
    (hm : codec.serialize m = .ok (front ++ missing)) (h : missing ≠ []) : Malformed front
  | unknownCase (rank : UInt32) {case : UInt32} (h : 2 ≤ case) (content : List UInt8) :
    Malformed (Codec.u32.encode rank ++ (Codec.u32.encode case ++ content))
  | invalidText (rank : UInt32) {reason : List UInt8} (h : Text.Utf8.decode? reason = none) :
    Malformed (Codec.u32.encode rank ++ (Codec.u32.encode 1 ++ Codec.bytes.encode reason))

lemma read_u32_append (n : UInt32) (rest : List UInt8) :
    Codec.u32.read (Codec.u32.encode n ++ rest) = some (n, rest) :=
  Codec.faithful_u32 n rest (by simp [Codec.u32])

lemma read_of_payload {rank : UInt32} {content : List UInt8}
    (h : Payload.codec.read content = none) :
    codec.read (Codec.u32.encode rank ++ content) = none := by
  simp only [codec, read_u32_append, Option.bind_eq_bind, Option.bind_some, h, Option.bind_none]

lemma serialize_ne_of_malformed {bytes : List UInt8} (h : Malformed bytes) (m : Message) :
    codec.serialize m ≠ .ok bytes := by
  intro hm
  -- Written bytes are read back with nothing left; each malformation contradicts this in its way.
  have hread := faithful_codec.read_of_serialize hm []
  rw [List.append_nil] at hread
  cases h with
  | trailing hm' hextra =>
    rw [faithful_codec.read_of_serialize hm'] at hread
    cases hread
    exact hextra rfl
  | truncated hm' hmissing =>
    have hread' := faithful_codec.read_of_serialize hm' []
    rw [List.append_nil, faithful_codec.read_of_serialize hm] at hread'
    cases hread'
    exact hmissing rfl
  | @unknownCase rank case hcase content =>
    rw [read_of_payload] at hread
    · cases hread
    · have hvalue : ¬ case = 0 := by
        rintro rfl
        exact absurd hcase (by decide)
      have habort : ¬ case = 1 := by
        rintro rfl
        exact absurd hcase (by decide)
      simp only [Payload.codec, read_u32_append, Option.bind_eq_bind, Option.bind_some,
        if_neg hvalue, if_neg habort]
  | @invalidText rank reason hreason =>
    -- The reason is only read if its length fits eight bytes, as the limit of an encoding ensures.
    have hsize := Codec.length_le_of_serialize hm
    have hlimit : Codec.limit < 2 ^ 64 := by decide
    have hbytes := Codec.faithful_bytes reason [] (by
      simp only [List.length_append] at hsize
      omega)
    rw [List.append_nil] at hbytes
    rw [read_of_payload] at hread
    · cases hread
    · have hcase : (1 : UInt32) ≠ 0 := by decide
      simp only [Payload.codec, read_u32_append, Option.bind_eq_bind, Option.bind_some,
        if_neg hcase, if_true, Codec.text, hbytes, hreason, Option.bind_none]

lemma deserialize_of_malformed {bytes : List UInt8} (h : Malformed bytes) :
    ∃ detail, codec.deserialize bytes = .error (.undecodable detail) := by
  apply Codec.deserialize_eq_error
  intro m hm
  exact serialize_ne_of_malformed h m
    ((Codec.deserialize_eq_ok_iff faithful_codec exact_codec).1 hm)

/-- A connection that ends inside a frame, or before one, carries no message. -/
lemma ofConnection_of_cut {content missing : List UInt8} {pieces : List (List UInt8)}
    (hsize : content.length < 256 ^ 4) (hmissing : missing ≠ [])
    (h : Frame.write content = pieces.flatten ++ missing) :
    ∃ fault ∈ [Failure.protocol .closedEarly, .frame .cut, .frame .oversized],
      ofConnection pieces = .error fault := by
  have hread := Frame.read_of_cut hsize hmissing h
  rw [ofConnection]
  split at hread
  · exact ⟨.frame .oversized, by simp, by rw [hread]; rfl⟩
  · split at hread
    · exact ⟨.protocol .closedEarly, by simp, by rw [hread]; rfl⟩
    · exact ⟨.frame .cut, by simp, by rw [hread]; rfl⟩

/-- The wire format of messages is exact. A message can be written exactly if what it carries is at
most sixteen bytes below the limit, and what can be written is within the limit of the sender and
that of the receiver, which are the same for any content. What was sent is received, in any pieces
and with anything after it. Bytes are read as a message exactly if they are what is written for
it, and a connection that ends too early carries none. -/
theorem wire_format_exact (m : Message) (bytes : List UInt8) (pieces : List (List UInt8)) :
    ((∃ encoded, codec.serialize m = .ok encoded) ↔ m.payload.size ≤ Codec.limit - 16) ∧
    (∀ encoded, codec.serialize m = .ok encoded →
      m.toConnection = .ok (Codec.littleEndian 4 encoded.length ++ encoded)) ∧
    (∀ content more, content.length < 256 ^ 4 →
      pieces.flatten = Codec.littleEndian 4 content.length ++ content ++ more →
      (Frame.read pieces = .ok content ↔ ∃ sent, Frame.send content = .ok sent)) ∧
    (∀ sent more, m.toConnection = .ok sent → pieces.flatten = sent ++ more →
      ofConnection pieces = .ok m) ∧
    (codec.deserialize bytes = .ok m ↔ codec.serialize m = .ok bytes) ∧
    (Malformed bytes → ∃ detail, codec.deserialize bytes = .error (.undecodable detail)) ∧
    (∀ content missing, content.length < 256 ^ 4 → missing ≠ [] →
      Codec.littleEndian 4 content.length ++ content = pieces.flatten ++ missing →
      ∃ fault ∈ [Failure.protocol .closedEarly, .frame .cut, .frame .oversized],
        ofConnection pieces = .error fault) := by
  refine ⟨exists_serialize_iff m, ?_, ?_, ?_, ?_, deserialize_of_malformed, ?_⟩
  · intro encoded hs
    obtain ⟨hsize, rfl⟩ := Codec.serialize_eq_ok_iff.1 hs
    exact toConnection_eq_ok_iff.2 ⟨hsize, rfl⟩
  · intro content more hsize h
    rw [Frame.read_of_flatten_eq_write_append hsize h]
    simp only [Frame.send_eq_ok_iff, exists_and_left, exists_eq, and_true]
    split
    · next hlimit => simpa using hlimit
    · next hlimit => simpa using hlimit
  · intro sent more hsent h
    exact ofConnection_of_toConnection hsent h
  · exact Codec.deserialize_eq_ok_iff faithful_codec exact_codec
  · intro content missing hsize hmissing h
    exact ofConnection_of_cut hsize hmissing h

/-- A message that arrives in three pieces, with a byte after it. -/
theorem ofConnection_of_three_pieces :
    toConnection ⟨3, .value [7, 0]⟩ =
        .ok [18, 0, 0, 0, 3, 0, 0, 0, 0, 0, 0, 0, 2, 0, 0, 0, 0, 0, 0, 0, 7, 0] ∧
      ofConnection [[18, 0], [0, 0, 3, 0, 0, 0, 0, 0, 0, 0, 2, 0, 0, 0, 0, 0, 0, 0, 7], [0, 9]] =
        .ok ⟨3, .value [7, 0]⟩ := by
  have hsent : toConnection ⟨3, .value [7, 0]⟩ =
      .ok [18, 0, 0, 0, 3, 0, 0, 0, 0, 0, 0, 0, 2, 0, 0, 0, 0, 0, 0, 0, 7, 0] := by decide
  obtain ⟨-, -, -, hreceived, -⟩ := wire_format_exact ⟨3, .value [7, 0]⟩ []
    [[18, 0], [0, 0, 3, 0, 0, 0, 0, 0, 0, 0, 2, 0, 0, 0, 0, 0, 0, 0, 7], [0, 9]]
  exact ⟨hsent, hreceived _ [9] hsent rfl⟩

end Message

end Gather

end JobBinding

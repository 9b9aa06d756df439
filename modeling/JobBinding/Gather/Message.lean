import JobBinding.Binding
import JobBinding.Wire.Frame

/-!
# Messages of a gather

Each participant of a gather but the coordinator sends one message: its value, encoded, or the
reason why it has none.
-/

namespace JobBinding

/-- The codec of bindings: host name, cores, GPUs. -/
def Binding.codec : Codec Binding where
  encode b :=
    Codec.text.encode b.hostname ++ (Codec.set Codec.u64).encode b.cores ++
      (Codec.list Codec.text).encode b.gpus
  read input := do
    let (hostname, rest) ← Codec.text.read input
    let (cores, rest) ← (Codec.set Codec.u64).read rest
    let (gpus, rest) ← (Codec.list Codec.text).read rest
    return (⟨hostname, cores, gpus⟩, rest)

namespace Gather

/-- What a participant has to say. -/
inductive Payload where
  /-- The encoding of its value. -/
  | value (encoded : List UInt8)
  /-- The reason why it cannot contribute. -/
  | abort (reason : String)
  deriving DecidableEq, Repr

/-- What a participant sends to the coordinator. -/
structure Message where
  rank : UInt32
  payload : Payload
  deriving DecidableEq, Repr

namespace Payload

/-- The codec of payloads: the number of the case, and its content. -/
def codec : Codec Payload where
  encode
    | .value encoded => Codec.u32.encode 0 ++ Codec.bytes.encode encoded
    | .abort reason => Codec.u32.encode 1 ++ Codec.text.encode reason
  read input := do
    let (case, rest) ← Codec.u32.read input
    if case = 0 then
      let (encoded, rest) ← Codec.bytes.read rest
      return (.value encoded, rest)
    else if case = 1 then
      let (reason, rest) ← Codec.text.read rest
      return (.abort reason, rest)
    else none

end Payload

namespace Message

/-- The codec of messages: the rank and the payload. -/
def codec : Codec Message where
  encode m := Codec.u32.encode m.rank ++ Payload.codec.encode m.payload
  read input := do
    let (rank, rest) ← Codec.u32.read input
    let (payload, rest) ← Payload.codec.read rest
    return (⟨rank, payload⟩, rest)

/-- The bytes that carry a message on a connection, unless it is too large. -/
def toConnection (m : Message) : Except Failure (List UInt8) := do
  Frame.send (← codec.serialize m)

/-- The message on a connection that brings some pieces and then ends. -/
def ofConnection (pieces : List (List UInt8)) : Except Failure Message := do
  codec.deserialize (← Frame.read pieces)

end Message

end Gather

end JobBinding

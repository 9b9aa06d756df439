import JobBinding.Wire.Codec

/-!
# Frames

A connection carries a message as a frame: its length in four bytes, lowest first, and its bytes.
Bytes arrive in pieces of any size. What was understood of them so far depends on their
concatenation only, and a length above the limit is refused as soon as it is known. The sender
refuses such a length as well.
-/

namespace JobBinding.Frame

def write (content : List UInt8) : List UInt8 :=
  Codec.littleEndian 4 content.length ++ content

/-- The frame of an encoding, unless the encoding is longer than a frame may be. -/
def send (content : List UInt8) : Except Failure (List UInt8) :=
  if content.length ≤ Codec.limit then .ok (write content) else .error (.frame .oversized)

/-- What is known of the first frame of a connection. -/
inductive Progress where
  /-- Fewer bytes than a length has. -/
  | length (buffer : List UInt8)
  /-- The length, and fewer bytes than it announces. -/
  | content (need : Nat) (buffer : List UInt8)
  | complete (content : List UInt8)
  | oversized
  deriving DecidableEq, Repr

namespace Progress

/-- Before any byte has arrived. -/
def start : Progress :=
  .length []

/-- What the bytes after a length give. -/
def ofContent (need : Nat) (buffer : List UInt8) : Progress :=
  if need ≤ buffer.length then .complete (buffer.take need) else .content need buffer

/-- What the bytes from the beginning of a connection give. -/
def ofBytes (buffer : List UInt8) : Progress :=
  match Codec.takeBytes 4 buffer with
  | none => .length buffer
  | some (front, rest) =>
    let need := Codec.ofLittleEndian front
    if Codec.limit < need then .oversized else ofContent need rest

/-- What is known after more bytes have arrived. Bytes after the first frame are ignored. -/
def feed (progress : Progress) (piece : List UInt8) : Progress :=
  match progress with
  | .length buffer => ofBytes (buffer ++ piece)
  | .content need buffer => ofContent need (buffer ++ piece)
  | .complete frame => .complete frame
  | .oversized => .oversized

/-- The frame, once nothing more arrives. A connection that ends before the content of a frame has
begun carried no message; one that ends later was cut. -/
def finish : Progress → Except Failure (List UInt8)
  | .complete frame => .ok frame
  | .oversized => .error (.frame .oversized)
  | .length [] | .content _ [] => .error (.protocol .closedEarly)
  | .length _ | .content _ _ => .error (.frame .cut)

end Progress

/-- The first frame on a connection that brings some pieces and then ends. -/
def read (pieces : List (List UInt8)) : Except Failure (List UInt8) :=
  (pieces.foldl Progress.feed .start).finish

end JobBinding.Frame

import JobBinding.Failure
import JobBinding.SortedSet
import JobBinding.Text.Utf8

/-!
# Encoding of values

Values as bytes with fixed widths: numbers begin with their lowest byte, and texts, lists and sets
begin with their length in eight bytes. A codec reads a value from the front of a byte sequence and
leaves the rest, so codecs can follow each other.
-/

namespace JobBinding

/-- A way of writing values as bytes and of reading them from the front of a byte sequence. -/
structure Codec (α : Type) where
  encode : α → List UInt8
  read : List UInt8 → Option (α × List UInt8)

namespace Codec

/-! ## Numbers -/

/-- The lowest `width` bytes of a number, lowest first. -/
def littleEndian : (width : Nat) → Nat → List UInt8
  | 0, _ => []
  | width + 1, n => (n % 256).toUInt8 :: littleEndian width (n / 256)

/-- The number of some bytes, lowest first. -/
def ofLittleEndian : List UInt8 → Nat
  | [] => 0
  | b :: bs => b.toNat + 256 * ofLittleEndian bs

/-- Takes a number of bytes, if there are as many. -/
def takeBytes (count : Nat) (bytes : List UInt8) : Option (List UInt8 × List UInt8) :=
  if count ≤ bytes.length then some (bytes.take count, bytes.drop count) else none

/-- Numbers of 32 bits, in four bytes. -/
def u32 : Codec UInt32 where
  encode n := littleEndian 4 n.toNat
  read bytes := do
    let (front, rest) ← takeBytes 4 bytes
    return ((ofLittleEndian front).toUInt32, rest)

/-- Numbers of 64 bits, in eight bytes. -/
def u64 : Codec UInt64 where
  encode n := littleEndian 8 n.toNat
  read bytes := do
    let (front, rest) ← takeBytes 8 bytes
    return ((ofLittleEndian front).toUInt64, rest)

/-! ## Sequences -/

/-- The length of a sequence, in eight bytes. -/
def encodeLength (n : Nat) : List UInt8 :=
  littleEndian 8 n

def readLength (bytes : List UInt8) : Option (Nat × List UInt8) := do
  let (front, rest) ← takeBytes 8 bytes
  return (ofLittleEndian front, rest)

/-- Byte sequences, after their length. -/
def bytes : Codec (List UInt8) where
  encode content := encodeLength content.length ++ content
  read input := do
    let (n, rest) ← readLength input
    takeBytes n rest

/-- Texts, as UTF-8 after the number of bytes. -/
def text : Codec String where
  encode content := bytes.encode (Text.Utf8.encode content)
  read input := do
    let (content, rest) ← bytes.read input
    return (← Text.Utf8.decode? content, rest)

variable {α : Type}

def readMany (item : Codec α) : (count : Nat) → List UInt8 → Option (List α × List UInt8)
  | 0, rest => some ([], rest)
  | count + 1, input => do
    let (value, rest) ← item.read input
    let (values, rest) ← readMany item count rest
    return (value :: values, rest)

/-- Lists, as their values after their length. -/
def list (item : Codec α) : Codec (List α) where
  encode values := encodeLength values.length ++ values.flatMap item.encode
  read input := do
    let (n, rest) ← readLength input
    readMany item n rest

/-- Sets, as the list of their elements. A list in another order or with repetitions is read as
the set of its elements. -/
def set [LT α] [DecidableLT α] [Sortable α] (item : Codec α) : Codec (SortedSet α) where
  encode s := (list item).encode s.toList
  read input := do
    let (values, rest) ← (list item).read input
    return (.ofList values, rest)

/-! ## Whole byte sequences -/

/-- The largest encoding, in bytes. -/
def limit : Nat := 64 * 1024 * 1024

/-- The encoding of a value, unless it is too large. -/
def serialize (codec : Codec α) (value : α) : Except Failure (List UInt8) :=
  let encoded := codec.encode value
  if encoded.length ≤ limit then .ok encoded else .error .unencodable

/-- The value of a byte sequence that is the encoding of one value and nothing else. -/
def deserialize (codec : Codec α) (input : List UInt8) : Except Failure α :=
  match codec.read input with
  | some (value, []) =>
    if input.length ≤ limit then .ok value else .error (.undecodable "size limit")
  | some _ => .error (.undecodable "bytes left over")
  | none => .error (.undecodable "no value")

end Codec

end JobBinding

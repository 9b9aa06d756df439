/-!
# UTF-8

Characters as bytes and back. A byte sequence is read as a list of pieces: a character, or a
part that is no character. Such a part is as long as it could still have become a character, so
each sequence has one reading. Strict decoding accepts only sequences whose pieces are all
characters; lenient decoding shows every other piece as U+FFFD.
-/

namespace JobBinding.Text.Utf8

/-! ## Writing -/

/-- The bytes of one character: one for ASCII, else a lead byte and one to three tail bytes that
carry six bits each. -/
def encodeChar (c : Char) : List UInt8 :=
  let n := c.toNat
  if n < 0x80 then [n.toUInt8]
  else if n < 0x800 then [(0xC0 + n / 0x40).toUInt8, (0x80 + n % 0x40).toUInt8]
  else if n < 0x10000 then
    [(0xE0 + n / 0x1000).toUInt8, (0x80 + n / 0x40 % 0x40).toUInt8, (0x80 + n % 0x40).toUInt8]
  else
    [(0xF0 + n / 0x40000).toUInt8, (0x80 + n / 0x1000 % 0x40).toUInt8,
      (0x80 + n / 0x40 % 0x40).toUInt8, (0x80 + n % 0x40).toUInt8]

def encode (text : String) : List UInt8 :=
  text.toList.flatMap encodeChar

/-! ## Reading -/

/-- What a lead byte announces: how many tail bytes follow, the range of the first of them, and
the bits that the lead byte itself carries. The narrowed ranges keep out overlong forms,
surrogates and code points above U+10FFFF. -/
structure Lead where
  tails : Nat
  low : UInt8
  high : UInt8
  bits : Nat

/-- The announcement of a byte that is not ASCII; none for a byte that begins no character. -/
def lead? (b : UInt8) : Option Lead :=
  let n := b.toNat
  if n < 0xC2 then none
  else if n < 0xE0 then some ⟨1, 0x80, 0xBF, n - 0xC0⟩
  else if n = 0xE0 then some ⟨2, 0xA0, 0xBF, 0⟩
  else if n = 0xED then some ⟨2, 0x80, 0x9F, 0xD⟩
  else if n < 0xF0 then some ⟨2, 0x80, 0xBF, n - 0xE0⟩
  else if n = 0xF0 then some ⟨3, 0x90, 0xBF, 0⟩
  else if n < 0xF4 then some ⟨3, 0x80, 0xBF, n - 0xF0⟩
  else if n = 0xF4 then some ⟨3, 0x80, 0x8F, 4⟩
  else none

/-- Reads `count` tail bytes onto the bits read so far, the first of them within the given range.
The bytes that do not fit are left. -/
def readTails : (count : Nat) → (low high : UInt8) → (bits : Nat) → List UInt8 →
    Option Nat × List UInt8
  | 0, _, _, bits, rest => (some bits, rest)
  | _ + 1, _, _, _, [] => (none, [])
  | count + 1, low, high, bits, b :: rest =>
    if low ≤ b ∧ b ≤ high then
      readTails count 0x80 0xBF (bits * 0x40 + b.toNat % 0x40) rest
    else (none, b :: rest)

theorem readTails_length_le (count : Nat) (low high : UInt8) (bits : Nat) (bytes : List UInt8) :
    (readTails count low high bits bytes).2.length ≤ bytes.length := by
  induction count generalizing low high bits bytes with
  | zero => simp [readTails]
  | succ count ih =>
    cases bytes with
    | nil => simp [readTails]
    | cons b rest =>
      simp only [readTails]
      split
      · exact Nat.le_trans (ih _ _ _ _) (by simp)
      · simp

/-- The piece that begins with byte `b`, and the bytes after it. -/
def piece (b : UInt8) (rest : List UInt8) : Option Char × List UInt8 :=
  if b < 0x80 then (some (Char.ofNat b.toNat), rest)
  else match lead? b with
    | none => (none, rest)
    | some l =>
      let (bits, after) := readTails l.tails l.low l.high l.bits rest
      (bits.map Char.ofNat, after)

theorem piece_length_le (b : UInt8) (rest : List UInt8) :
    (piece b rest).2.length ≤ rest.length := by
  unfold piece
  split
  · simp
  · split
    · simp
    · exact readTails_length_le _ _ _ _ _

/-- The pieces of a byte sequence, in order: characters, and `none` for a part that is none. -/
def pieces : List UInt8 → List (Option Char)
  | [] => []
  | b :: rest => (piece b rest).1 :: pieces (piece b rest).2
termination_by bytes => bytes.length
decreasing_by exact Nat.lt_succ_of_le (piece_length_le b rest)

/-- The text of a byte sequence, if every piece of it is a character. -/
def decode? (bytes : List UInt8) : Option String :=
  ((pieces bytes).mapM id).map String.ofList

/-- The text of a byte sequence, with U+FFFD for every piece that is no character. -/
def decodeLossy (bytes : List UInt8) : String :=
  String.ofList ((pieces bytes).map (·.getD '\uFFFD'))

end JobBinding.Text.Utf8

import Mathlib.Tactic.Common
import JobBinding.Text.Utf8

/-!
# Reading back UTF-8

What `encode` writes, `decode?` reads. A lead byte announces the length of a character and narrows
the range of the byte after it. `lead?_two`, `lead?_three` and `lead?_four` say that the bytes of a
character announce exactly that character's length and that its second byte lies in the range they
announce; the rest is the arithmetic of bits of six.

`pieces_encode` is stated for the pieces and not only for the text, because a reader that works on
pieces starts from there.

In the other direction the ranges leave no other form of a character (`lead?_cases`), so a text is
read from no bytes but its encoding (`encode_of_decode?`).
-/

namespace JobBinding.Text.Utf8

/-! ## Single bytes -/

lemma toNat_toUInt8 {n : Nat} (h : n < 256) : n.toUInt8.toNat = n :=
  Nat.mod_eq_of_lt h

lemma toNat_cases (c : Char) : c.toNat < 0xD800 ∨ 0xDFFF < c.toNat ∧ c.toNat < 0x110000 :=
  c.valid

lemma readTails_cons {count : Nat} {low high : UInt8} {bits n : Nat} {rest : List UInt8}
    (hn : n < 256) (hlow : low.toNat ≤ n) (hhigh : n ≤ high.toNat) :
    readTails (count + 1) low high bits (n.toUInt8 :: rest) =
      readTails count 0x80 0xBF (bits * 0x40 + n % 0x40) rest := by
  have hb : n.toUInt8.toNat = n := toNat_toUInt8 hn
  have hrange : low ≤ n.toUInt8 ∧ n.toUInt8 ≤ high := by
    rw [UInt8.le_iff_toNat_le, UInt8.le_iff_toNat_le, hb]
    exact ⟨hlow, hhigh⟩
  rw [readTails, if_pos hrange, hb]

lemma piece_of_lead {n : Nat} {l : Lead} {rest : List UInt8} (hn : n < 256) (h80 : 0x80 ≤ n)
    (hl : lead? n.toUInt8 = some l) :
    piece n.toUInt8 rest =
      ((readTails l.tails l.low l.high l.bits rest).1.map Char.ofNat,
        (readTails l.tails l.low l.high l.bits rest).2) := by
  have hascii : ¬ n.toUInt8 < 0x80 := by
    rw [UInt8.lt_iff_toNat_lt, toNat_toUInt8 hn]
    exact Nat.not_lt.2 h80
  simp only [piece, if_neg hascii, hl]

/-! ## Characters of each length -/

lemma piece_ascii {n : Nat} (h : n < 0x80) (rest : List UInt8) :
    piece n.toUInt8 rest = (some (Char.ofNat n), rest) := by
  have hn : n.toUInt8.toNat = n := toNat_toUInt8 (by omega)
  have hascii : n.toUInt8 < 0x80 := by
    rw [UInt8.lt_iff_toNat_lt, hn]
    exact h
  rw [piece, if_pos hascii, hn]

lemma lead?_two {n : Nat} (h80 : 0x80 ≤ n) (h800 : n < 0x800) :
    lead? (0xC0 + n / 0x40).toUInt8 = some ⟨1, 0x80, 0xBF, n / 0x40⟩ := by
  have hn : (0xC0 + n / 0x40).toUInt8.toNat = 0xC0 + n / 0x40 := toNat_toUInt8 (by omega)
  simp only [lead?, hn]
  rw [if_neg (by omega), if_pos (by omega), Nat.add_sub_cancel_left]

/-- A lead byte of three bytes narrows the range of the next byte just so far that what it admits
is neither overlong nor a surrogate. -/
lemma lead?_three {n : Nat} (h800 : 0x800 ≤ n) (hbmp : n < 0x10000)
    (hscalar : n < 0xD800 ∨ 0xDFFF < n) :
    ∃ low high, lead? (0xE0 + n / 0x1000).toUInt8 = some ⟨2, low, high, n / 0x1000⟩ ∧
      low.toNat ≤ 0x80 + n / 0x40 % 0x40 ∧ 0x80 + n / 0x40 % 0x40 ≤ high.toNat := by
  have hn : (0xE0 + n / 0x1000).toUInt8.toNat = 0xE0 + n / 0x1000 := toNat_toUInt8 (by omega)
  simp only [lead?, hn]
  rw [if_neg (by omega), if_neg (by omega)]
  by_cases h0 : n / 0x1000 = 0
  · exact ⟨0xA0, 0xBF, by simp [h0], by simp; omega, by simp; omega⟩
  · rw [if_neg (by omega)]
    by_cases hD : n / 0x1000 = 0xD
    · exact ⟨0x80, 0x9F, by simp [hD], by simp, by simp; omega⟩
    · rw [if_neg (by omega), if_pos (by omega), Nat.add_sub_cancel_left]
      exact ⟨0x80, 0xBF, rfl, by simp, by simp; omega⟩

/-- The same for four bytes, which admit neither an overlong form nor a code point above the
last. -/
lemma lead?_four {n : Nat} (hbmp : 0x10000 ≤ n) (hlast : n < 0x110000) :
    ∃ low high, lead? (0xF0 + n / 0x40000).toUInt8 = some ⟨3, low, high, n / 0x40000⟩ ∧
      low.toNat ≤ 0x80 + n / 0x1000 % 0x40 ∧ 0x80 + n / 0x1000 % 0x40 ≤ high.toNat := by
  have hn : (0xF0 + n / 0x40000).toUInt8.toNat = 0xF0 + n / 0x40000 := toNat_toUInt8 (by omega)
  simp only [lead?, hn]
  rw [if_neg (by omega), if_neg (by omega), if_neg (by omega), if_neg (by omega),
    if_neg (by omega)]
  by_cases h0 : n / 0x40000 = 0
  · exact ⟨0x90, 0xBF, by simp [h0], by simp; omega, by simp; omega⟩
  · rw [if_neg (by omega)]
    by_cases h4 : n / 0x40000 = 4
    · exact ⟨0x80, 0x8F, by simp [h4], by simp, by simp; omega⟩
    · rw [if_pos (by omega), Nat.add_sub_cancel_left]
      exact ⟨0x80, 0xBF, rfl, by simp, by simp; omega⟩

/-! ## Texts -/

/-- The bytes of a character are read as one piece, whatever follows them. -/
theorem pieces_encodeChar_append (c : Char) (rest : List UInt8) :
    pieces (encodeChar c ++ rest) = some c :: pieces rest := by
  have hc := toNat_cases c
  simp only [encodeChar]
  generalize hn : c.toNat = n at hc ⊢
  have hchar : Char.ofNat n = c := by rw [← hn, Char.ofNat_toNat]
  -- The four forms by the size of the code point. In each the lead byte announces the tails, and
  -- the six bits of each tail put the code point together again.
  split
  · next h80 => rw [List.singleton_append, pieces, piece_ascii h80, hchar]
  split
  · next h80 h800 =>
    simp only [List.cons_append, List.nil_append]
    rw [pieces, piece_of_lead (by omega) (by omega) (lead?_two (by omega) h800),
      readTails_cons (by omega) (by simp) (by simp; omega), readTails]
    have hbits : n / 0x40 * 0x40 + (0x80 + n % 0x40) % 0x40 = n := by omega
    simp only [hbits, Option.map_some, hchar]
  split
  · next h80 h800 hbmp =>
    obtain ⟨low, high, hlead, hlow, hhigh⟩ := lead?_three (n := n) (by omega) hbmp (by omega)
    simp only [List.cons_append, List.nil_append]
    rw [pieces, piece_of_lead (by omega) (by omega) hlead,
      readTails_cons (by omega) hlow hhigh,
      readTails_cons (by omega) (by simp) (by simp; omega), readTails]
    have hbits : (n / 0x1000 * 0x40 + (0x80 + n / 0x40 % 0x40) % 0x40) * 0x40 +
        (0x80 + n % 0x40) % 0x40 = n := by omega
    simp only [hbits, Option.map_some, hchar]
  · next h80 h800 hbmp =>
    obtain ⟨low, high, hlead, hlow, hhigh⟩ := lead?_four (n := n) (by omega) (by omega)
    simp only [List.cons_append, List.nil_append]
    rw [pieces, piece_of_lead (by omega) (by omega) hlead,
      readTails_cons (by omega) hlow hhigh,
      readTails_cons (by omega) (by simp) (by simp; omega),
      readTails_cons (by omega) (by simp) (by simp; omega), readTails]
    have hbits : ((n / 0x40000 * 0x40 + (0x80 + n / 0x1000 % 0x40) % 0x40) * 0x40 +
        (0x80 + n / 0x40 % 0x40) % 0x40) * 0x40 + (0x80 + n % 0x40) % 0x40 = n := by omega
    simp only [hbits, Option.map_some, hchar]

theorem pieces_flatMap_encodeChar (cs : List Char) :
    pieces (cs.flatMap encodeChar) = cs.map some := by
  induction cs with
  | nil => simp [pieces]
  | cons c cs ih => rw [List.flatMap_cons, pieces_encodeChar_append, ih, List.map_cons]

theorem pieces_encode (text : String) : pieces (encode text) = text.toList.map some :=
  pieces_flatMap_encodeChar text.toList

/-- Decoding inverts encoding. -/
theorem decode?_encode (text : String) : decode? (encode text) = some text := by
  have hread : (text.toList.map some).mapM id = some text.toList := by
    induction text.toList with
    | nil => rfl
    | cons c cs ih => simp [ih]
  rw [decode?, pieces_encode, hread, Option.map_some, String.ofList_toList]

/-! ## Texts have one encoding -/

lemma toNat_ofNat {n : Nat} (h : n < 0xD800 ∨ 0xDFFF < n ∧ n < 0x110000) :
    (Char.ofNat n).toNat = n := by
  have hvalid : n.isValidChar := h
  rw [Char.ofNat, dif_pos hvalid]
  rfl

lemma toUInt8_of_toNat {b : UInt8} {n : Nat} (h : b.toNat = n) : n.toUInt8 = b := by
  rw [← h]
  exact UInt8.ofNat_toNat

lemma exists_of_readTails_eq_some {count : Nat} {low high : UInt8} {bits n : Nat}
    {bytes after : List UInt8} (h : readTails (count + 1) low high bits bytes = (some n, after)) :
    ∃ b rest, bytes = b :: rest ∧ low.toNat ≤ b.toNat ∧ b.toNat ≤ high.toNat ∧
      readTails count 0x80 0xBF (bits * 0x40 + b.toNat % 0x40) rest = (some n, after) := by
  cases bytes with
  | nil => simp [readTails] at h
  | cons b rest =>
    rw [readTails] at h
    split at h
    · next hrange =>
      rw [UInt8.le_iff_toNat_le, UInt8.le_iff_toNat_le] at hrange
      exact ⟨b, rest, rfl, hrange.1, hrange.2, h⟩
    · cases h

/-- What a lead byte announces keeps out what has a shorter form or is no character. -/
lemma lead?_cases {b : UInt8} {l : Lead} (h : lead? b = some l) :
    (l.tails = 1 ∧ b.toNat = 0xC0 + l.bits ∧ 2 ≤ l.bits ∧ l.bits < 0x20 ∧
      l.low.toNat = 0x80 ∧ l.high.toNat = 0xBF) ∨
    (l.tails = 2 ∧ b.toNat = 0xE0 + l.bits ∧ l.bits < 0x10 ∧ 0x80 ≤ l.low.toNat ∧
      l.high.toNat ≤ 0xBF ∧ (l.bits = 0 → 0xA0 ≤ l.low.toNat) ∧
      (l.bits = 0xD → l.high.toNat ≤ 0x9F)) ∨
    (l.tails = 3 ∧ b.toNat = 0xF0 + l.bits ∧ l.bits ≤ 4 ∧ 0x80 ≤ l.low.toNat ∧
      l.high.toNat ≤ 0xBF ∧ (l.bits = 0 → 0x90 ≤ l.low.toNat) ∧
      (l.bits = 4 → l.high.toNat ≤ 0x8F)) := by
  simp only [lead?] at h
  split at h
  · cases h
  repeat' first
    | split at h
    | (cases h; simp; omega)
  cases h

/-- The bytes after a lead byte are those of the character that is read from them. -/
lemma encodeChar_append_of_readTails {b : UInt8} {l : Lead} {rest after : List UInt8} {n : Nat}
    (hl : lead? b = some l) (h : readTails l.tails l.low l.high l.bits rest = (some n, after)) :
    encodeChar (Char.ofNat n) ++ after = b :: rest := by
  -- The bounds of the first tail keep out the shorter forms and the surrogates.
  rcases lead?_cases hl with ⟨ht, hb, hbits⟩ | ⟨ht, hb, hbits⟩ | ⟨ht, hb, hbits⟩
  · rw [ht] at h
    obtain ⟨b₁, rest₁, rfl, hlow₁, hhigh₁, h⟩ := exists_of_readTails_eq_some h
    obtain ⟨rfl, rfl⟩ : l.bits * 0x40 + b₁.toNat % 0x40 = n ∧ rest₁ = after := by
      simpa [readTails] using h
    generalize hn : l.bits * 0x40 + b₁.toNat % 0x40 = n
    have hchar : (Char.ofNat n).toNat = n := toNat_ofNat (by omega)
    rw [encodeChar, hchar]
    rw [if_neg (by omega), if_pos (by omega), toUInt8_of_toNat (b := b) (by omega),
      toUInt8_of_toNat (b := b₁) (by omega)]
    rfl
  · rw [ht] at h
    obtain ⟨b₁, rest₁, rfl, hlow₁, hhigh₁, h⟩ := exists_of_readTails_eq_some h
    obtain ⟨b₂, rest₂, rfl, hlow₂, hhigh₂, h⟩ := exists_of_readTails_eq_some h
    obtain ⟨rfl, rfl⟩ : (l.bits * 0x40 + b₁.toNat % 0x40) * 0x40 + b₂.toNat % 0x40 = n ∧
        rest₂ = after := by simpa [readTails] using h
    generalize hn : (l.bits * 0x40 + b₁.toNat % 0x40) * 0x40 + b₂.toNat % 0x40 = n
    simp only [UInt8.reduceToNat] at hlow₂ hhigh₂
    have hchar : (Char.ofNat n).toNat = n := toNat_ofNat (by omega)
    rw [encodeChar, hchar]
    rw [if_neg (by omega), if_neg (by omega), if_pos (by omega),
      toUInt8_of_toNat (b := b) (by omega), toUInt8_of_toNat (b := b₁) (by omega),
      toUInt8_of_toNat (b := b₂) (by omega)]
    rfl
  · rw [ht] at h
    obtain ⟨b₁, rest₁, rfl, hlow₁, hhigh₁, h⟩ := exists_of_readTails_eq_some h
    obtain ⟨b₂, rest₂, rfl, hlow₂, hhigh₂, h⟩ := exists_of_readTails_eq_some h
    obtain ⟨b₃, rest₃, rfl, hlow₃, hhigh₃, h⟩ := exists_of_readTails_eq_some h
    obtain ⟨rfl, rfl⟩ : ((l.bits * 0x40 + b₁.toNat % 0x40) * 0x40 + b₂.toNat % 0x40) * 0x40 +
        b₃.toNat % 0x40 = n ∧ rest₃ = after := by simpa [readTails] using h
    generalize hn : ((l.bits * 0x40 + b₁.toNat % 0x40) * 0x40 + b₂.toNat % 0x40) * 0x40 +
      b₃.toNat % 0x40 = n
    simp only [UInt8.reduceToNat] at hlow₂ hhigh₂ hlow₃ hhigh₃
    have hchar : (Char.ofNat n).toNat = n := toNat_ofNat (by omega)
    rw [encodeChar, hchar]
    rw [if_neg (by omega), if_neg (by omega), if_neg (by omega),
      toUInt8_of_toNat (b := b) (by omega), toUInt8_of_toNat (b := b₁) (by omega),
      toUInt8_of_toNat (b := b₂) (by omega), toUInt8_of_toNat (b := b₃) (by omega)]
    rfl

lemma encodeChar_append_of_piece {b : UInt8} {rest after : List UInt8} {c : Char}
    (h : piece b rest = (some c, after)) : encodeChar c ++ after = b :: rest := by
  unfold piece at h
  split at h
  · next hascii =>
    have hb : b.toNat < 0x80 := UInt8.lt_iff_toNat_lt.1 hascii
    obtain ⟨rfl, rfl⟩ : Char.ofNat b.toNat = c ∧ rest = after := by simpa using h
    have hchar : (Char.ofNat b.toNat).toNat = b.toNat := toNat_ofNat (by omega)
    rw [encodeChar, hchar]
    rw [if_pos hb, toUInt8_of_toNat rfl]
    rfl
  · split at h
    · cases h
    · next l hl =>
      generalize hr : readTails l.tails l.low l.high l.bits rest = r at h
      rcases r with ⟨_ | n, after'⟩
      · cases h
      · cases h
        exact encodeChar_append_of_readTails hl hr

lemma flatMap_encodeChar_of_pieces {bytes : List UInt8} {cs : List Char}
    (h : pieces bytes = cs.map some) : cs.flatMap encodeChar = bytes := by
  induction bytes using pieces.induct generalizing cs with
  | case1 =>
    rw [pieces] at h
    obtain rfl : cs = [] := List.map_eq_nil_iff.1 h.symm
    rfl
  | case2 b rest ih =>
    rw [pieces] at h
    obtain ⟨c, cs', rfl, hc, hcs⟩ := List.map_eq_cons_iff.1 h.symm
    have hpiece : piece b rest = (some c, (piece b rest).2) := by rw [hc]
    rw [List.flatMap_cons, ih hcs.symm, encodeChar_append_of_piece hpiece]

lemma eq_map_some_of_mapM_id {ps : List (Option Char)} {cs : List Char}
    (h : ps.mapM id = some cs) : ps = cs.map some := by
  induction ps generalizing cs with
  | nil =>
    cases h
    rfl
  | cons p ps ih =>
    rw [List.mapM_cons] at h
    obtain ⟨c, hc, h⟩ := Option.bind_eq_some_iff.1 h
    obtain ⟨cs', hcs, h⟩ := Option.bind_eq_some_iff.1 h
    cases h
    rw [List.map_cons, ← ih hcs, ← hc]
    rfl

/-- The bytes that are read as a text are the encoding of the text: each text has one form. -/
theorem encode_of_decode? {bytes : List UInt8} {text : String} (h : decode? bytes = some text) :
    encode text = bytes := by
  obtain ⟨cs, hcs, rfl⟩ := Option.map_eq_some_iff.1 h
  rw [encode, String.toList_ofList]
  exact flatMap_encodeChar_of_pieces (eq_map_some_of_mapM_id hcs)

end JobBinding.Text.Utf8

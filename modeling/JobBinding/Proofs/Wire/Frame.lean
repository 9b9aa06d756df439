import JobBinding.Proofs.Wire.Codec
import JobBinding.Wire.Frame

/-!
# Frames arrive as they were sent

What is known of a connection is a function of the bytes that have arrived (`feed_ofBytes`), so the
pieces in which they come do not matter. A frame within the limit is read from any connection that
begins with its bytes, and a frame above the limit from none; the sender draws the same line
(`send_eq_ok_iff`). A connection that ends inside a frame gives none (`read_of_cut`).
-/

namespace JobBinding

namespace Frame

namespace Progress

lemma ofBytes_of_length_lt {buffer : List UInt8} (h : buffer.length < 4) :
    ofBytes buffer = .length buffer := by
  rw [ofBytes, Codec.takeBytes, if_neg (by omega)]

lemma ofBytes_append {front rest : List UInt8} (h : front.length = 4) :
    ofBytes (front ++ rest) =
      if Codec.limit < Codec.ofLittleEndian front then .oversized
      else ofContent (Codec.ofLittleEndian front) rest := by
  have htake : Codec.takeBytes 4 (front ++ rest) = some (front, rest) := by
    rw [← h, Codec.takeBytes_append]
  rw [ofBytes, htake]

lemma feed_ofContent (need : Nat) (buffer piece : List UInt8) :
    (ofContent need buffer).feed piece = ofContent need (buffer ++ piece) := by
  by_cases h : need ≤ buffer.length
  · have h' : need ≤ (buffer ++ piece).length := by
      rw [List.length_append]
      omega
    rw [ofContent, if_pos h, feed, ofContent, if_pos h', List.take_append_of_le_length h]
  · rw [ofContent, if_neg h, feed]

/-- What is known of a connection depends on its bytes only, not on the pieces in which they
came. -/
lemma feed_ofBytes (buffer piece : List UInt8) :
    (ofBytes buffer).feed piece = ofBytes (buffer ++ piece) := by
  by_cases h : buffer.length < 4
  · rw [ofBytes_of_length_lt h, feed]
  · have hfront : (buffer.take 4).length = 4 := by
      rw [List.length_take]
      omega
    rw [← List.take_append_drop 4 buffer, List.append_assoc, ofBytes_append hfront,
      ofBytes_append hfront]
    by_cases hlimit : Codec.limit < Codec.ofLittleEndian (buffer.take 4)
    · rw [if_pos hlimit, if_pos hlimit, feed]
    · rw [if_neg hlimit, if_neg hlimit, feed_ofContent]

lemma foldl_feed_ofBytes (buffer : List UInt8) (pieces : List (List UInt8)) :
    pieces.foldl feed (ofBytes buffer) = ofBytes (buffer ++ pieces.flatten) := by
  induction pieces generalizing buffer with
  | nil => rw [List.foldl_nil, List.flatten_nil, List.append_nil]
  | cons piece pieces ih =>
    rw [List.foldl_cons, feed_ofBytes, ih, List.flatten_cons, List.append_assoc]

end Progress

theorem read_eq_finish_ofBytes (pieces : List (List UInt8)) :
    read pieces = (Progress.ofBytes pieces.flatten).finish := by
  have hstart : Progress.start = Progress.ofBytes [] :=
    (Progress.ofBytes_of_length_lt (by decide)).symm
  rw [read, hstart, Progress.foldl_feed_ofBytes, List.nil_append]

theorem send_eq_ok_iff {content sent : List UInt8} :
    send content = .ok sent ↔ content.length ≤ Codec.limit ∧ sent = write content := by
  unfold send
  split
  · next h => simp [h, eq_comm]
  · next h => simp [h]

/-- What is known once the length of a frame has arrived. -/
lemma ofBytes_write_append {content after : List UInt8} (h : content.length < 256 ^ 4) :
    Progress.ofBytes (Codec.littleEndian 4 content.length ++ after) =
      if Codec.limit < content.length then .oversized
      else Progress.ofContent content.length after := by
  rw [Progress.ofBytes_append (Codec.length_littleEndian 4 _),
    Codec.ofLittleEndian_littleEndian_of_lt h]

/-- A frame is read from a connection that brings its bytes, in any pieces and with anything after
it, unless it is above the limit. -/
theorem read_of_flatten_eq_write_append {content more : List UInt8} {pieces : List (List UInt8)}
    (hsize : content.length < 256 ^ 4) (h : pieces.flatten = write content ++ more) :
    read pieces =
      if Codec.limit < content.length then .error (.frame .oversized) else .ok content := by
  have hcontent : content.length ≤ (content ++ more).length := by simp
  rw [read_eq_finish_ofBytes, h, write, List.append_assoc, ofBytes_write_append hsize]
  split
  · rfl
  · rw [Progress.ofContent, if_pos hcontent, List.take_left, Progress.finish]

lemma limit_lt : Codec.limit < 256 ^ 4 := by
  decide

theorem read_of_flatten_eq_write {content more : List UInt8} {pieces : List (List UInt8)}
    (hsize : content.length ≤ Codec.limit) (h : pieces.flatten = write content ++ more) :
    read pieces = .ok content := by
  have hlimit := limit_lt
  rw [read_of_flatten_eq_write_append (by omega) h, if_neg (by omega)]

/-- A connection whose bytes end before the first frame does gives no frame. What it gives instead
depends on where it ends. -/
theorem read_of_cut {content missing : List UInt8} {pieces : List (List UInt8)}
    (hsize : content.length < 256 ^ 4) (hmissing : missing ≠ [])
    (h : write content = pieces.flatten ++ missing) :
    read pieces =
      if 4 ≤ pieces.flatten.length ∧ Codec.limit < content.length then .error (.frame .oversized)
      else if pieces.flatten.length = 0 ∨ pieces.flatten.length = 4 then
        .error (.protocol .closedEarly)
      else .error (.frame .cut) := by
  rw [read_eq_finish_ofBytes]
  -- The bytes end within the length, or within the content, or just between.
  generalize pieces.flatten = bytes at h
  have hlength := congrArg List.length h
  have hpos : 0 < missing.length := List.length_pos_iff.2 hmissing
  simp only [write, List.length_append, Codec.length_littleEndian] at hlength
  by_cases hshort : bytes.length < 4
  · rw [Progress.ofBytes_of_length_lt hshort, if_neg (by omega)]
    cases bytes with
    | nil => rfl
    | cons b bytes =>
      rw [List.length_cons] at hshort ⊢
      rw [if_neg (by omega)]
      rfl
  · obtain ⟨part, rfl, hcontent⟩ :
        ∃ part, bytes = Codec.littleEndian 4 content.length ++ part ∧ content = part ++ missing := by
      -- At least four bytes have come, so the cut is not within the length.
      rw [write, List.append_eq_append_iff] at h
      rcases h with ⟨part, hbytes, hpart⟩ | ⟨part, hlen, hpart⟩
      · exact ⟨part, hbytes, hpart⟩
      · have hpart_length := congrArg List.length hlen
        rw [Codec.length_littleEndian, List.length_append] at hpart_length
        obtain rfl : part = [] := List.length_eq_zero_iff.1 (by omega)
        refine ⟨[], ?_, ?_⟩
        · rw [List.append_nil] at hlen ⊢
          exact hlen.symm
        · rw [List.nil_append] at hpart ⊢
          exact hpart.symm
    rw [ofBytes_write_append hsize]
    simp only [List.length_append, Codec.length_littleEndian] at hlength ⊢
    by_cases hlimit : Codec.limit < content.length
    · rw [if_pos hlimit, if_pos ⟨by omega, hlimit⟩]
      rfl
    · rw [if_neg hlimit, if_neg (by omega), Progress.ofContent, if_neg (by omega)]
      cases part with
      | nil => rfl
      | cons b part =>
        rw [List.length_cons, if_neg (by omega)]
        rfl

/-- A connection that ends before its first byte carries no frame. -/
theorem read_of_flatten_eq_nil {pieces : List (List UInt8)} (h : pieces.flatten = []) :
    read pieces = .error (.protocol .closedEarly) := by
  rw [read_eq_finish_ofBytes, h]
  rfl

end Frame

end JobBinding

import JobBinding.Rendezvous.Record
import JobBinding.Proofs.Json.Reading

/-!
# Reading back rendezvous records

A process that reads what a coordinator wrote has the coordinator's record.
-/

namespace JobBinding

lemma Instant.ofParts?_self (i : Instant) : ofParts? i.seconds i.nanos = some i := by
  have hcarry : i.seconds + i.nanos / 1000000000 = i.seconds := by
    rw [Nat.div_eq_of_lt i.nanos_lt, Nat.add_zero]
  have hnanos : i.nanos % 1000000000 = i.nanos := Nat.mod_eq_of_lt i.nanos_lt
  simp only [ofParts?, hcarry, hnanos, dif_pos i.seconds_lt]

namespace Record

open Json

lemma below?_number {bound n : Nat} (h : n < bound) : below? bound (.number (some n)) = some n :=
  if_pos h

lemma instantOfParts?_self (i : Instant) :
    instantOfParts? (.number (some i.seconds)) (.number (some i.nanos)) = some i := by
  -- The system clock counts fewer seconds than the field can hold.
  have hseconds : i.seconds < UInt64.size := Nat.lt_trans i.seconds_lt (by decide)
  have hnanos : i.nanos < UInt32.size := Nat.lt_trans i.nanos_lt (by decide)
  rw [instantOfParts?, below?_number hseconds, below?_number hnanos]
  exact i.ofParts?_self

lemma ofValues?_self (r : Record) (created aborted : Found)
    (hcreated : instant? created = some r.created) (haborted : reason? aborted = some r.aborted) :
    ofValues? (.text (some r.job)) (.text (some r.host)) (.number (some r.port.toNat))
      (.number (some r.size.toNat)) created aborted = some r := by
  have hport : r.port.toNat < UInt16.size := r.port.toNat_lt
  have hsize : r.size.toNat < UInt32.size := r.size.toNat_lt
  have hport' : r.port.toNat.toUInt16 = r.port := UInt16.ofNat_toNat
  have hsize' : r.size.toNat.toUInt32 = r.size := UInt32.ofNat_toNat
  simp only [ofValues?, text?, below?_number hport, below?_number hsize, hcreated, haborted,
    Option.bind_eq_bind, Option.bind_some, hport', hsize']
  rfl

/-- An instant that was written is read. -/
lemma instant?_found (i : Instant) :
    instant? (found (.object
      [("secs_since_epoch", .number i.seconds), ("nanos_since_epoch", .number i.nanos)])) =
        some i := by
  have h := instantOfParts?_self i
  simp only [found, foundFields]
  simp [instant?, fields?, field?, occurrence, h]

/-- An object with each field once is read as the record of the values of its fields. -/
lemma ofJson?_object (job host port size created aborted : Found) :
    ofJson? (.object [(some "job", job), (some "host", host), (some "port", port),
      (some "size", size), (some "created", created), (some "aborted", aborted)]) =
        ofValues? job host port size created aborted := by
  simp [ofJson?, fields?, field?, occurrence]

lemma reason?_found (aborted : Option String) :
    reason? (found (match aborted with
      | some reason => .text reason
      | none => .null)) = some aborted := by
  cases aborted <;> rfl

lemma ofJson?_found (r : Record) : ofJson? (found r.toJson) = some r := by
  have hvalues := ofValues?_self r _ _ (instant?_found r.created) (reason?_found r.aborted)
  exact (ofJson?_object _ _ _ _ _ _).trans hvalues

/-- What was written is read back. -/
theorem ofBytes_render (r : Record) : ofBytes (Text.Utf8.encode r.render) = .ok r := by
  have hjson : (ofBytes? (Text.Utf8.encode r.render) >>= ofJson?) = some r := by
    rw [render, ofBytes?_render, Option.bind_eq_bind, Option.bind_some, ofJson?_found]
  rw [ofBytes, hjson]

end Record

end JobBinding

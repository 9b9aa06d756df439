import Mathlib.Algebra.Ring.Nat
import Mathlib.Logic.Function.Basic
import JobBinding.Proofs.Rendezvous.ReadBack

/-!
# Publishing and reading, step by step

`publish` and `read` are what a process does that nobody comes between. Here they are taken apart
into the steps that other processes can come between: the draft is made, or emptied if it is there,
the text of the record is written into it in pieces, and it is moved; the file is opened and read in
pieces. All processes share the two names, that of the file and that of the draft.

A process that has a file open keeps to it, whatever happens to the names. So files have numbers,
and a name leads to a number or to nothing. A writer writes each piece where its last one ended,
also if another process has emptied the file since.

The steps of a process that is not disturbed do what `publish` does (`exists_run_publishing`,
`describes_replace`), or what `read` does (`run_reading`, `Describes.result_read`).
-/

namespace JobBinding

@[irreducible] def Record.bytes (record : Record) : List UInt8 :=
  Text.Utf8.encode record.render

lemma Record.bytes_eq (record : Record) : record.bytes = Text.Utf8.encode record.render := by
  rw [Record.bytes]

/-- No record is written as an empty text, since none is read in it. -/
lemma Record.bytes_ne_nil (record : Record) : record.bytes ≠ [] := by
  intro h
  have hread : ofBytes record.bytes = .ok record := by
    rw [record.bytes_eq, ofBytes_render]
  have hempty : ofBytes [] = .error (.undecodable "no rendezvous record") := by decide +kernel
  rw [h, hempty] at hread
  cases hread

namespace Rendezvous

/-- A content after some bytes were written from an offset on. Writing beyond the end fills the gap
with zeros. -/
def overwrite (content : List UInt8) (offset : Nat) : List UInt8 → List UInt8
  | [] => content
  | bytes =>
    (content ++ List.replicate (offset - content.length) 0).take offset ++ bytes ++
      content.drop (offset + bytes.length)

lemma overwrite_length (content bytes : List UInt8) :
    overwrite content content.length bytes = content ++ bytes := by
  cases bytes with
  | nil => exact (List.append_nil content).symm
  | cons b bytes => simp [overwrite]

/-! ## States -/

/-- A process that publishes: the file that it has open, and the bytes of its record that it has
written and has not. -/
structure Writer where
  record : Record
  file : Nat
  written : List UInt8
  rest : List UInt8
  written_append_rest : written ++ rest = record.bytes

/-- A process that reads: the file that it has open, and the bytes that it has found in it. -/
structure Reader where
  file : Nat
  taken : List UInt8

/-- What the processes share, and where they are. -/
structure Shared where
  /-- The contents of the files by their numbers. -/
  content : Nat → List UInt8
  /-- The number of files that were made. -/
  made : Nat
  /-- The file that the path leads to. -/
  path : Option Nat
  /-- The file that the path of the draft leads to. -/
  draft : Option Nat
  writers : Nat → Option Writer
  readers : Nat → Option Reader
  /-- The records whose processes have moved a draft, in this order. -/
  published : List Record
  /-- What has been read: nothing if there was no file. -/
  outcomes : List (Option (List UInt8))

namespace Writer

/-- A process that has opened a file. -/
def start (record : Record) (file : Nat) : Writer :=
  ⟨record, file, [], record.bytes, List.nil_append _⟩

lemma rest_start (record : Record) (file : Nat) : (start record file).rest = record.bytes := rfl

/-- A process that has written a piece more. -/
def advance (w : Writer) (count : Nat) : Writer :=
  ⟨w.record, w.file, w.written ++ w.rest.take count, w.rest.drop count, by
    rw [List.append_assoc, List.take_append_drop, w.written_append_rest]⟩

lemma advance_zero (w : Writer) : w.advance 0 = w := by
  simp [advance]

lemma advance_advance (w : Writer) (n m : Nat) : (w.advance n).advance m = w.advance (n + m) := by
  simp [advance, List.take_add, List.drop_drop]

lemma rest_advance_of_le {w : Writer} {count : Nat} (h : w.rest.length ≤ count) :
    (w.advance count).rest = [] :=
  List.drop_of_length_le h

lemma written_eq_of_rest_eq_nil {w : Writer} (h : w.rest = []) : w.written = w.record.bytes := by
  rw [← w.written_append_rest, h, List.append_nil]

end Writer

namespace Shared

/-- Before the first step: what earlier processes have left at the path, and as a draft. -/
def start (old : Option Record) (leftover : Option (List UInt8)) : Shared where
  content f := if f = 0 then (old.map Record.bytes).getD [] else leftover.getD []
  made := 2
  path := old.map fun _ => 0
  draft := leftover.map fun _ => 1
  writers _ := none
  readers _ := none
  published := old.toList
  outcomes := []

/-- The state in which the file of a process has what the process has written. -/
def put (s : Shared) (i : Nat) (w : Writer) : Shared :=
  { s with
    content := Function.update s.content w.file w.written
    writers := Function.update s.writers i (some w) }

lemma put_content_self (s : Shared) (i : Nat) (w : Writer) :
    (s.put i w).content w.file = w.written :=
  Function.update_self ..

lemma put_writers_self (s : Shared) (i : Nat) (w : Writer) : (s.put i w).writers i = some w :=
  Function.update_self ..

lemma put_writers_of_ne {i j : Nat} (h : j ≠ i) (s : Shared) (w : Writer) :
    (s.put i w).writers j = s.writers j :=
  Function.update_of_ne h ..

/-! ## Steps -/

/-- A step of a process. -/
inductive Act where
  | create (writer : Nat) (record : Record)
  | write (writer count : Nat)
  | move (writer : Nat)
  | stop (writer : Nat)
  | look (reader : Nat)
  | fetch (reader count : Nat)
  | finish (reader : Nat)
  | remove

/-- What a step makes of a state. -/
inductive Step : Act → Shared → Shared → Prop where
  /-- A process makes the draft. -/
  | make {s : Shared} {i : Nat} {record : Record} (hidle : s.writers i = none)
      (hdraft : s.draft = none) :
      Step (.create i record) s
        (put { s with made := s.made + 1, draft := some s.made } i (.start record s.made))
  /-- A process empties the draft that is there. -/
  | empty {s : Shared} {i f : Nat} {record : Record} (hidle : s.writers i = none)
      (hdraft : s.draft = some f) :
      Step (.create i record) s (s.put i (.start record f))
  /-- It writes a piece of the text of its record. -/
  | write {s : Shared} {i count : Nat} {w : Writer} (hwriter : s.writers i = some w) :
      Step (.write i count) s { s with
        content := Function.update s.content w.file
          (overwrite (s.content w.file) w.written.length (w.rest.take count))
        writers := Function.update s.writers i (some (w.advance count)) }
  /-- It has written the text, and moves the draft to its place. -/
  | move {s : Shared} {i f : Nat} {w : Writer} (hwriter : s.writers i = some w)
      (hrest : w.rest = []) (hdraft : s.draft = some f) :
      Step (.move i) s { s with
        path := some f
        draft := none
        writers := Function.update s.writers i none
        published := s.published ++ [w.record] }
  /-- It has written the text, and there is no draft any more. It fails. -/
  | miss {s : Shared} {i : Nat} {w : Writer} (hwriter : s.writers i = some w)
      (hrest : w.rest = []) (hdraft : s.draft = none) :
      Step (.move i) s { s with writers := Function.update s.writers i none }
  /-- It stops on the way. -/
  | stop {s : Shared} {i : Nat} {w : Writer} (hwriter : s.writers i = some w) :
      Step (.stop i) s { s with writers := Function.update s.writers i none }
  /-- A process opens the file. -/
  | look {s : Shared} {j f : Nat} (hidle : s.readers j = none) (hpath : s.path = some f) :
      Step (.look j) s { s with readers := Function.update s.readers j (some ⟨f, []⟩) }
  /-- A process finds no file. -/
  | vacant {s : Shared} {j : Nat} (hidle : s.readers j = none) (hpath : s.path = none) :
      Step (.look j) s { s with outcomes := s.outcomes ++ [none] }
  /-- It reads on in the file. -/
  | fetch {s : Shared} {j count : Nat} {r : Reader} (hreader : s.readers j = some r) :
      Step (.fetch j count) s { s with
        readers := Function.update s.readers j
          (some ⟨r.file, r.taken ++ ((s.content r.file).drop r.taken.length).take count⟩) }
  /-- It has come to the end of the file. -/
  | finish {s : Shared} {j : Nat} {r : Reader} (hreader : s.readers j = some r)
      (hend : (s.content r.file).length ≤ r.taken.length) :
      Step (.finish j) s { s with
        readers := Function.update s.readers j none
        outcomes := s.outcomes ++ [some r.taken] }
  /-- Some process removes the file. -/
  | remove {s : Shared} : Step .remove s { s with path := none }

/-- What steps make of a state, one after the other. -/
def Run : List Act → Shared → Shared → Prop
  | [], s, s' => s' = s
  | a :: acts, s, s' => ∃ between, Step a s between ∧ Run acts between s'

/-- The states that are reached from a state through states of a kind. -/
inductive ReachableWithin (P : Shared → Prop) (s₀ : Shared) : Shared → Prop where
  | start (h : P s₀) : ReachableWithin P s₀ s₀
  | step {a : Act} {s s' : Shared} (h : ReachableWithin P s₀ s) (hstep : Step a s s')
      (hP : P s') : ReachableWithin P s₀ s'

variable {s s' s'' : Shared} {acts acts' : List Act} {i j : Nat} {w : Writer}

lemma Run.append (h : Run acts s s') (h' : Run acts' s' s'') : Run (acts ++ acts') s s'' := by
  induction acts generalizing s with
  | nil =>
    cases h
    exact h'
  | cons a acts ih =>
    obtain ⟨between, hstep, hrest⟩ := h
    exact ⟨between, hstep, ih hrest⟩

lemma Run.concat {a : Act} (h : Run acts s s') (hstep : Step a s' s'') :
    Run (acts ++ [a]) s s'' :=
  h.append ⟨s'', hstep, rfl⟩

/-! ## A process that publishes alone -/

lemma step_write_put (s : Shared) (i : Nat) (w : Writer) (count : Nat) :
    Step (.write i count) (s.put i w) (s.put i (w.advance count)) := by
  have hcontent : overwrite ((s.put i w).content w.file) w.written.length (w.rest.take count) =
      w.written ++ w.rest.take count := by
    rw [put_content_self, overwrite_length]
  have hstep : Step (.write i count) (s.put i w) _ := .write (s.put_writers_self i w)
  rw [hcontent] at hstep
  simpa [put, Writer.advance] using hstep

lemma run_write_put (s : Shared) (i : Nat) (w : Writer) (counts : List Nat) :
    Run (counts.map (.write i)) (s.put i w) (s.put i (w.advance counts.sum)) := by
  induction counts generalizing w with
  | nil =>
    rw [List.sum_nil, w.advance_zero]
    rfl
  | cons count counts ih =>
    have hrest := ih (w.advance count)
    rw [w.advance_advance, ← List.sum_cons] at hrest
    exact ⟨_, step_write_put s i w count, hrest⟩

/-- The steps of a process that publishes a record, which writes the text in pieces of some
lengths. -/
def publishing (i : Nat) (record : Record) (counts : List Nat) : List Act :=
  .create i record :: (counts.map (.write i) ++ [.move i])

variable {record : Record} {counts : List Nat}

/-- Whether there is a draft or not, a process that starts has an empty one open. -/
lemma exists_step_create (hidle : s.writers i = none) (record : Record) :
    ∃ made f, Step (.create i record) s
      (put { s with made := made, draft := some f } i (.start record f)) := by
  cases hdraft : s.draft with
  | none => exact ⟨s.made + 1, s.made, .make hidle hdraft⟩
  | some f =>
    have hsame : { s with made := s.made, draft := some f } = s := by rw [← hdraft]
    refine ⟨s.made, f, ?_⟩
    rw [hsame]
    exact .empty hidle hdraft

/-- The state after a record was published in a file. -/
def replace (s : Shared) (made f : Nat) (record : Record) : Shared :=
  { s with
    content := Function.update s.content f record.bytes
    made := made
    path := some f
    draft := none
    published := s.published ++ [record] }

/-- A process that is not disturbed leaves its record and no draft. -/
lemma exists_run_publishing (hidle : s.writers i = none)
    (hcounts : record.bytes.length ≤ counts.sum) :
    ∃ made f, Run (publishing i record counts) s (s.replace made f record) := by
  obtain ⟨made, f, hcreate⟩ := exists_step_create hidle record
  let opened : Shared := { s with made := made, draft := some f }
  let w : Writer := (Writer.start record f).advance counts.sum
  have hrest : w.rest = [] := Writer.rest_advance_of_le (by rwa [Writer.rest_start])
  have hwritten : w.written = record.bytes := Writer.written_eq_of_rest_eq_nil hrest
  have hdone : Function.update (Function.update s.writers i (some w)) i none = s.writers := by
    rw [Function.update_idem, ← hidle, Function.update_eq_self]
  have hmove : Step (.move i) (opened.put i w) (s.replace made f record) := by
    have hstep : Step (.move i) (opened.put i w) _ :=
      .move (opened.put_writers_self i w) hrest rfl
    simp only [put, opened, hwritten, hdone] at hstep ⊢
    exact hstep
  exact ⟨made, f, _, hcreate, (run_write_put opened i (.start record f) counts).concat hmove⟩

/-- Whether a state is what a tree has at the places of the file and of its draft. -/
structure Describes (s : Shared) (tree : FileTree) (place draft : Location) : Prop where
  path : tree.get? place = s.path.map fun f => .file (s.content f)
  draft : tree.get? draft = s.draft.map fun f => .file (s.content f)

variable {tree : FileTree} {place draft : Location}

/-- What a process leaves that is not disturbed is what `publish` leaves. -/
theorem describes_replace {r : Rendezvous} (haccepts : r.Accepts tree place draft)
    (s : Shared) (made f : Nat) (record : Record) :
    (s.replace made f record).Describes ((r.publish record).after tree) place draft := by
  have hplace : place ≠ [] := FileTree.ne_nil_of_get?_ne_directory haccepts.path_ne_directory
  have hroot : draft ≠ [] := FileTree.ne_nil_of_get?_ne_directory haccepts.draft_ne_directory
  have hne : draft ≠ place := (path_ne_draft haccepts.locate_path haccepts.locate_draft).symm
  rw [Files.after, haccepts.run_publish]
  constructor
  · simp only [FileTree.get?_put_self hplace, replace, Option.map_some, Function.update_self,
      record.bytes_eq]
  · simp only [FileTree.get?_put_of_ne hne, FileTree.get?_erase_self hroot, replace,
      Option.map_none]

/-! ## A process that reads alone -/

/-- The state in which a process has read the first bytes of a file. -/
def hold (s : Shared) (j f count : Nat) : Shared :=
  { s with readers := Function.update s.readers j (some ⟨f, (s.content f).take count⟩) }

lemma hold_readers_self (s : Shared) (j f count : Nat) :
    (s.hold j f count).readers j = some ⟨f, (s.content f).take count⟩ :=
  Function.update_self ..

lemma step_fetch_hold (s : Shared) (j f n count : Nat) :
    Step (.fetch j count) (s.hold j f n) (s.hold j f (n + count)) := by
  have hdrop : (s.content f).drop ((s.content f).take n).length = (s.content f).drop n := by
    rcases Nat.le_total n (s.content f).length with hle | hle
    · rw [List.length_take_of_le hle]
    · rw [List.take_of_length_le hle, List.drop_of_length_le hle, List.drop_length]
  have hstep : Step (.fetch j count) (s.hold j f n) _ := .fetch (s.hold_readers_self j f n)
  simpa only [hold, hdrop, ← List.take_add, Function.update_idem] using hstep

lemma run_fetch_hold (s : Shared) (j f n : Nat) (counts : List Nat) :
    Run (counts.map (.fetch j)) (s.hold j f n) (s.hold j f (n + counts.sum)) := by
  induction counts generalizing n with
  | nil => rfl
  | cons count counts ih =>
    have hrest := ih (n + count)
    rw [Nat.add_assoc, ← List.sum_cons] at hrest
    exact ⟨_, step_fetch_hold s j f n count, hrest⟩

/-- What a process finds that reads the file without being disturbed. -/
def found (s : Shared) : Option (List UInt8) :=
  s.path.map s.content

/-- The steps of a process that reads a file in pieces of some lengths. It has nothing to do if
there is no file. -/
def reading (s : Shared) (j : Nat) (counts : List Nat) : List Act :=
  .look j :: if s.path = none then [] else counts.map (.fetch j) ++ [.finish j]

/-- A process that is not disturbed finds what is in the file, and changes nothing. -/
lemma run_reading (hidle : s.readers j = none)
    (hcounts : ∀ f ∈ s.path, (s.content f).length ≤ counts.sum) :
    Run (s.reading j counts) s { s with outcomes := s.outcomes ++ [s.found] } := by
  by_cases hpath : s.path = none
  · have hfound : s.found = none := by rw [found, hpath, Option.map_none]
    rw [reading, if_pos hpath, hfound]
    exact ⟨_, .vacant hidle hpath, rfl⟩
  · rw [reading, if_neg hpath]
    obtain ⟨f, hpath⟩ := Option.ne_none_iff_exists'.1 hpath
    have hfound : s.found = some (s.content f) := by rw [found, hpath, Option.map_some]
    rw [hfound]
    -- The pieces come to at least the length of the file, so the reader has all of it.
    have htake : (s.content f).take (0 + counts.sum) = s.content f := by
      rw [Nat.zero_add]
      exact List.take_of_length_le (hcounts f hpath)
    -- A reader that has finished leaves no trace among the readers, as it was none before.
    have hidle' : Function.update s.readers j none = s.readers := by
      rw [← hidle, Function.update_eq_self]
    have hfinish : Step (.finish j) (s.hold j f (0 + counts.sum))
        { s with outcomes := s.outcomes ++ [some (s.content f)] } := by
      have hstep : Step (.finish j) (s.hold j f (0 + counts.sum)) _ :=
        .finish (s.hold_readers_self j f _) (Nat.le_of_eq (congrArg List.length htake).symm)
      simpa only [hold, htake, Function.update_idem, hidle'] using hstep
    exact ⟨_, .look hidle hpath, (run_fetch_hold s j f 0 counts).concat hfinish⟩

end Shared

/-- What a process makes of what it has found: nothing if there was no file. -/
def meaning (r : Rendezvous) : Option (List UInt8) → Except Failure (Option Record)
  | none => .ok none
  | some bytes => r.interpret bytes

/-- The steps of a process that is not disturbed come to `read`. -/
theorem Shared.Describes.result_read {s : Shared} {tree : FileTree} {place draft : Location}
    (h : s.Describes tree place draft) {r : Rendezvous} (hlocate : tree.locate r.path = .ok place) :
    r.read.result tree = r.meaning s.found := by
  rw [Files.result, run_read, hlocate]
  simp only [h.path, Shared.found]
  cases hpath : s.path with
  | none => rfl
  | some f =>
    simp only [Option.map_some, meaning]
    cases r.interpret (s.content f) <;> rfl

end Rendezvous

end JobBinding

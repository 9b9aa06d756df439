import Mathlib.Data.List.Perm.Subperm
import JobBinding.Proofs.Rendezvous.Handles

/-!
# Several processes at one rendezvous file

As long as at most one process is publishing, whatever the others read, no file that can be read is
written to any more, so everyone reads the whole text of a record (`Sound`). Two processes have one
name for their drafts. The second one empties the draft that the first one has written, and the
first one moves what the second one has written until then, which everyone can read (`overlap`). So
one process at a time is also what it takes (`reads_whole_iff`).
-/

namespace JobBinding.Rendezvous

namespace Shared

variable {s s' s'' : Shared} {a : Act} {acts : List Act} {i j f n : Nat} {w w' : Writer}

/-- Whether at most so many processes are publishing. -/
def AtMost (n : Nat) (s : Shared) : Prop :=
  ∀ l : List Nat, l.Nodup → (∀ i ∈ l, s.writers i ≠ none) → l.length ≤ n

/-- Whether all that was read is the text of records that were published. -/
def Whole (s : Shared) : Prop :=
  ∀ bytes, some bytes ∈ s.outcomes → ∃ record ∈ s.published, bytes = record.bytes

lemma AtMost.eq (h : s.AtMost 1) (hi : s.writers i = some w) (hj : s.writers j = some w') :
    i = j := by
  by_contra hne
  have htwo : 2 ≤ 1 := h [i, j] (by simpa using hne) (by simp [hi, hj])
  exact absurd htwo (by decide)

lemma ReachableWithin.holds {P : Shared → Prop} {s₀ : Shared} (h : ReachableWithin P s₀ s) :
    P s := by
  cases h with
  | start h => exact h
  | step _ _ h => exact h

/-! ## One process at a time -/

/-- Whether a file has the text of a published record, and is no draft. -/
structure Settled (s : Shared) (f : Nat) : Prop where
  made : f < s.made
  not_draft : s.draft ≠ some f
  content : ∃ record ∈ s.published, s.content f = record.bytes

/-- What holds as long as at most one process is publishing. -/
structure Sound (s : Shared) : Prop where
  path : ∀ f, s.path = some f → s.Settled f
  draft : ∀ f, s.draft = some f → f < s.made
  writers : ∀ i w, s.writers i = some w → s.draft = some w.file ∧ s.content w.file = w.written
  readers : ∀ j r, s.readers j = some r → s.Settled r.file ∧ r.taken <+: s.content r.file
  whole : s.Whole

lemma sound_start (old : Option Record) (leftover : Option (List UInt8)) :
    (start old leftover).Sound where
  path f hf := by
    obtain ⟨record, hold, rfl⟩ := Option.map_eq_some_iff.1 hf
    refine ⟨Nat.zero_lt_two, ?_, record, ?_, ?_⟩
    · cases leftover <;> simp [start]
    · simp [start, hold]
    · simp [start, hold]
  draft f hf := by
    obtain ⟨-, -, rfl⟩ := Option.map_eq_some_iff.1 hf
    exact Nat.one_lt_two
  writers _ _ := nofun
  readers _ _ := nofun
  whole _ := nofun

/-- Nothing is written to a file that is settled. -/
lemma Sound.settled_step (h : s.Sound) (hstep : Step a s s') (hf : s.Settled f) :
    s'.Settled f ∧ s'.content f = s.content f := by
  obtain ⟨hmade, hdraft, record, hrecord, hcontent⟩ := hf
  -- A settled file is neither a draft nor new, and only drafts and new files change.
  cases hstep with
  | make hidle hnone =>
    have hne : f ≠ s.made := Nat.ne_of_lt hmade
    have hsame : Function.update s.content s.made [] f = s.content f :=
      Function.update_of_ne hne ..
    refine ⟨⟨Nat.lt_succ_of_lt hmade, ?_, record, hrecord, hsame.trans hcontent⟩, hsame⟩
    rintro ⟨⟩
    exact hne rfl
  | @empty _ i f' _ hidle hsome =>
    have hne : f ≠ f' := by
      rintro rfl
      exact hdraft hsome
    have hsame : Function.update s.content f' [] f = s.content f := Function.update_of_ne hne ..
    exact ⟨⟨hmade, hdraft, record, hrecord, hsame.trans hcontent⟩, hsame⟩
  | @write _ i count w hwriter =>
    have hne : f ≠ w.file := by
      rintro rfl
      exact hdraft (h.writers i w hwriter).1
    have hsame := Function.update_of_ne hne
      (overwrite (s.content w.file) w.written.length (w.rest.take count)) s.content
    exact ⟨⟨hmade, hdraft, record, hrecord, hsame.trans hcontent⟩, hsame⟩
  | move hwriter hrest hsome =>
    exact ⟨⟨hmade, nofun, record, List.mem_append_left _ hrecord, hcontent⟩, rfl⟩
  | miss | stop | look | vacant | fetch | finish | remove =>
    exact ⟨⟨hmade, hdraft, record, hrecord, hcontent⟩, rfl⟩

lemma Sound.path_step (h : s.Sound) (hstep : Step a s s') :
    ∀ f, s'.path = some f → s'.Settled f := by
  intro f hf
  have hkept : s.Settled f → s'.Settled f := fun hf => (h.settled_step hstep hf).1
  cases hstep with
  | @move _ i f' w hwriter hrest hdraft =>
    cases hf
    obtain ⟨hfile, hwritten⟩ := h.writers i w hwriter
    cases hdraft.symm.trans hfile
    have hcontent := hwritten.trans (Writer.written_eq_of_rest_eq_nil hrest)
    exact ⟨h.draft w.file hfile, nofun, w.record, List.mem_append_right _ (.head _), hcontent⟩
  | remove => cases hf
  | make | empty | write | miss | stop | look | vacant | fetch | finish =>
    exact hkept (h.path f hf)

lemma Sound.draft_step (h : s.Sound) (hstep : Step a s s') :
    ∀ f, s'.draft = some f → f < s'.made := by
  intro f hf
  cases hstep with
  | make =>
    cases hf
    exact Nat.lt_succ_self s.made
  | move => cases hf
  | empty | write | miss | stop | look | vacant | fetch | finish | remove => exact h.draft f hf

/-- If one process is publishing, and is done, then none is. -/
lemma AtMost.update_none (h : s.AtMost 1) (hi : s.writers i = some w) :
    Function.update s.writers i none j = none := by
  by_cases hj : j = i
  · rw [hj, Function.update_self]
  · rw [Function.update_of_ne hj]
    exact Option.eq_none_iff_forall_ne_some.2 fun w' hw' => hj (h.eq hw' hi)

/-- If one process is publishing, no other one is. -/
lemma AtMost.writer_eq (h : s.AtMost 1) (hi : s.writers i = some w)
    (hj : s.writers j = some w') : w' = w := by
  cases h.eq hi hj
  exact Option.some_inj.1 (hj.symm.trans hi)

/-- This is where one process at a time is needed: a second one would have the same draft open. -/
lemma Sound.writers_step (h : s.Sound) (hstep : Step a s s') (hone : s.AtMost 1)
    (hone' : s'.AtMost 1) :
    ∀ i w, s'.writers i = some w → s'.draft = some w.file ∧ s'.content w.file = w.written := by
  -- At most one process writes before the step and after it, so whoever writes after it has made
  -- the step itself, or has written before and was left alone.
  intro i' w' hw'
  cases hstep with
  | make =>
    cases hone'.writer_eq (put_writers_self ..) hw'
    exact ⟨rfl, put_content_self ..⟩
  | empty hidle hdraft =>
    cases hone'.writer_eq (put_writers_self ..) hw'
    exact ⟨hdraft, put_content_self ..⟩
  | @write _ i count w hwriter =>
    cases hone'.writer_eq (Function.update_self i (some (w.advance count)) s.writers) hw'
    obtain ⟨hdraft, hcontent⟩ := h.writers i w hwriter
    have hpiece : overwrite (s.content w.file) w.written.length (w.rest.take count) =
        (w.advance count).written := by
      rw [hcontent, overwrite_length, Writer.advance]
    exact ⟨hdraft, (Function.update_self ..).trans hpiece⟩
  | move hwriter | miss hwriter | stop hwriter =>
    cases (hone.update_none hwriter).symm.trans hw'
  | look | vacant | fetch | finish | remove => exact h.writers i' w' hw'

/-- What a process that reads has become of, with what it has read and the file that it reads. -/
lemma Step.readers_cases (hstep : Step a s s') {r' : Reader} (h : s'.readers j = some r') :
    s.readers j = some r' ∨ (s.path = some r'.file ∧ r'.taken = []) ∨
      ∃ r count, s.readers j = some r ∧ r'.file = r.file ∧
        r'.taken = r.taken ++ ((s.content r.file).drop r.taken.length).take count := by
  cases hstep with
  | @look _ j' f hidle hpath =>
    by_cases hj : j = j'
    · cases hj
      cases (Function.update_self j (some _) s.readers).symm.trans h
      exact .inr (.inl ⟨hpath, rfl⟩)
    · exact .inl ((Function.update_of_ne hj ..).symm.trans h)
  | @fetch _ j' count r hreader =>
    by_cases hj : j = j'
    · cases hj
      cases (Function.update_self j (some _) s.readers).symm.trans h
      exact .inr (.inr ⟨r, count, hreader, rfl, rfl⟩)
    · exact .inl ((Function.update_of_ne hj ..).symm.trans h)
  | @finish _ j' r =>
    by_cases hj : j = j'
    · cases hj
      cases (Function.update_self j none s.readers).symm.trans h
    · exact .inl ((Function.update_of_ne hj ..).symm.trans h)
  | make | empty | write | move | miss | stop | vacant | remove => exact .inl h

lemma Sound.readers_step (h : s.Sound) (hstep : Step a s s') :
    ∀ j r, s'.readers j = some r → s'.Settled r.file ∧ r.taken <+: s'.content r.file := by
  intro j r' hr'
  suffices hbefore : s.Settled r'.file ∧ r'.taken <+: s.content r'.file by
    obtain ⟨hsettled, hcontent⟩ := h.settled_step hstep hbefore.1
    exact ⟨hsettled, hcontent ▸ hbefore.2⟩
  obtain hsame | ⟨hpath, htaken⟩ | ⟨r, count, hr, hfile, htaken⟩ := hstep.readers_cases hr'
  · exact h.readers j r' hsame
  · exact ⟨h.path r'.file hpath, htaken ▸ List.nil_prefix⟩
  · obtain ⟨hsettled, rest, hrest⟩ := h.readers j r hr
    rw [hfile, htaken, ← hrest, List.drop_left]
    exact ⟨hsettled, (List.prefix_append_right_inj r.taken).2 (List.take_prefix count rest)⟩

lemma Sound.whole_step (h : s.Sound) (hstep : Step a s s') : s'.Whole := by
  intro bytes hbytes
  cases hstep with
  | vacant =>
    have hold : some bytes ∈ s.outcomes := by simpa using hbytes
    exact h.whole bytes hold
  | @finish _ j r hreader hend =>
    obtain hold | hnew := List.mem_append.1 hbytes
    · exact h.whole bytes hold
    obtain rfl : bytes = r.taken := by simpa using hnew
    obtain ⟨⟨-, -, record, hrecord, hcontent⟩, htaken⟩ := h.readers j r hreader
    exact ⟨record, hrecord, (htaken.eq_of_length_le hend).trans hcontent⟩
  | move =>
    obtain ⟨record, hrecord, heq⟩ := h.whole bytes hbytes
    exact ⟨record, List.mem_append_left _ hrecord, heq⟩
  | make | empty | write | miss | stop | look | fetch | remove => exact h.whole bytes hbytes

theorem Sound.step (h : s.Sound) (hstep : Step a s s') (hone : s.AtMost 1)
    (hone' : s'.AtMost 1) : s'.Sound where
  path := h.path_step hstep
  draft := h.draft_step hstep
  writers := h.writers_step hstep hone hone'
  readers := h.readers_step hstep
  whole := h.whole_step hstep

theorem sound_of_reachable {old : Option Record} {leftover : Option (List UInt8)}
    (h : ReachableWithin (AtMost 1) (start old leftover) s) : s.Sound := by
  induction h with
  | start => exact sound_start old leftover
  | step hs hstep hone ih => exact ih.step hstep hs.holds hone

/-! ## Two processes at a time -/

/-- The process that starts to publish with a step. -/
def Act.starter? : Act → Option Nat
  | .create i _ => some i
  | _ => none

/-- Only a process that starts is publishing then and was not before. -/
lemma Step.starts_or_writes (hstep : Step a s s') (hj : s'.writers j ≠ none) :
    s.writers j ≠ none ∨ a.starter? = some j := by
  cases hstep with
  | @make _ i | @empty _ i =>
    by_cases hij : i = j
    · exact .inr (congrArg some hij)
    · exact .inl ((Function.update_of_ne (Ne.symm hij) ..).symm.trans_ne hj)
  | @write _ i _ w hwriter | @move _ i _ w hwriter | @miss _ i w hwriter | @stop _ i w hwriter =>
    by_cases hij : i = j
    · cases hij
      exact .inl (hwriter ▸ Option.some_ne_none w)
    · exact .inl ((Function.update_of_ne (Ne.symm hij) ..).symm.trans_ne hj)
  | look | vacant | fetch | finish | remove => exact .inl hj

lemma ReachableWithin.trans {P : Shared → Prop} {s₀ : Shared} (h : ReachableWithin P s₀ s)
    (h' : ReachableWithin P s s') : ReachableWithin P s₀ s' := by
  induction h' with
  | start => exact h
  | step _ hstep hP ih => exact .step ih hstep hP

lemma ReachableWithin.mono {P Q : Shared → Prop} {s₀ : Shared} (h : ReachableWithin P s₀ s)
    (hPQ : ∀ s, P s → Q s) : ReachableWithin Q s₀ s := by
  induction h with
  | start h => exact .start (hPQ _ h)
  | step _ hstep hP ih => exact .step ih hstep (hPQ _ hP)

lemma AtMost.mono {m : Nat} (h : s.AtMost m) (hle : m ≤ n) : s.AtMost n :=
  fun l hnodup hl => Nat.le_trans (h l hnodup hl) hle

/-- Whether only some processes are publishing. -/
def Only (writers : List Nat) (s : Shared) : Prop :=
  ∀ i, s.writers i ≠ none → i ∈ writers

lemma Only.atMost {writers : List Nat} (h : s.Only writers) : s.AtMost writers.length :=
  fun _ hnodup hl => (hnodup.subperm fun i hi => h i (hl i hi)).length_le

lemma only_start (old : Option Record) (leftover : Option (List UInt8)) (writers : List Nat) :
    (start old leftover).Only writers :=
  fun _ hi => absurd rfl hi

/-- A run in which only some processes publish. -/
lemma reachable_of_run {writers : List Nat} (hs : s.Only writers)
    (hacts : ∀ a ∈ acts, ∀ i, a.starter? = some i → i ∈ writers) (hrun : Run acts s s') :
    ReachableWithin (AtMost writers.length) s s' := by
  induction acts generalizing s with
  | nil =>
    cases hrun
    exact .start hs.atMost
  | cons a acts ih =>
    obtain ⟨between, hstep, hrest⟩ := hrun
    obtain ⟨hstarts, hacts⟩ := List.forall_mem_cons.1 hacts
    have hbetween : between.Only writers := fun i hi =>
      (hstep.starts_or_writes hi).elim (hs i) (hstarts i)
    have hfirst : ReachableWithin (AtMost writers.length) s between :=
      .step (.start hs.atMost) hstep hbetween.atMost
    exact hfirst.trans (ih hbetween hacts hrest)

lemma eq_of_mem_publishing {record : Record} {counts : List Nat}
    (ha : a ∈ publishing i record counts) (hj : a.starter? = some j) : j = i := by
  obtain rfl | hrest := List.mem_cons.1 ha
  · cases hj
    rfl
  obtain hwrite | hmove := List.mem_append.1 hrest
  · obtain ⟨count, -, rfl⟩ := List.mem_map.1 hwrite
    cases hj
  · cases List.mem_singleton.1 hmove
    cases hj

lemma starter?_of_mem_reading {counts : List Nat} (ha : a ∈ s.reading j counts) :
    a.starter? = none := by
  obtain rfl | hrest := List.mem_cons.1 ha
  · rfl
  split at hrest
  · cases hrest
  obtain hfetch | hfinish := List.mem_append.1 hrest
  · obtain ⟨count, -, rfl⟩ := List.mem_map.1 hfetch
    rfl
  · cases List.mem_singleton.1 hfinish
    rfl

/-- A process writes its draft. Then another one starts, and writes a part of its own. Then the
first one moves the draft. -/
def overlap (first second : Record) (count : Nat) : List Act :=
  [.create 0 first, .write 0 first.bytes.length, .create 1 second, .write 1 count, .move 0]

lemma exists_run_overlap (first second : Record) (count : Nat) :
    ∃ (s : Shared) (f : Nat), Run (overlap first second count) (start none none) s ∧
      s.path = some f ∧ s.content f = second.bytes.take count ∧ s.readers 0 = none ∧
      s.published = [first] ∧ s.outcomes = [] := by
  -- The second empties the draft after the first has written it and before it is moved.
  let opened : Shared := { start none none with made := 3, draft := some 2 }
  let w := Writer.start first 2
  let w' := (Writer.start second 2).advance count
  let written := opened.put 0 (w.advance first.bytes.length)
  have hmake : Step (.create 0 first) (start none none) (opened.put 0 w) := .make rfl rfl
  have hempty : Step (.create 1 second) written (written.put 1 (.start second 2)) :=
    .empty (put_writers_of_ne Nat.one_ne_zero opened _) rfl
  have hfirst : (written.put 1 w').writers 0 = some (w.advance first.bytes.length) :=
    (put_writers_of_ne Nat.zero_ne_one written w').trans (opened.put_writers_self 0 _)
  have hrest : (w.advance first.bytes.length).rest = [] :=
    Writer.rest_advance_of_le (by rw [Writer.rest_start])
  have hmove : Step (.move 0) (written.put 1 w') _ := .move hfirst hrest rfl
  refine ⟨_, 2, ⟨_, hmake, _, step_write_put opened 0 w _, _, hempty, _,
    step_write_put written 1 (.start second 2) count, _, hmove, rfl⟩, rfl, ?_, rfl, rfl, rfl⟩
  have hwritten : w'.written = second.bytes.take count := List.nil_append _
  exact (written.put_content_self 1 w').trans hwritten

/-- What the second one has written is read by everyone who reads now. -/
theorem exists_reachable_overlap (first second : Record) (count : Nat) :
    ∃ s, ReachableWithin (AtMost 2) (start none none) s ∧
      s.published = [first] ∧ s.outcomes = [some (second.bytes.take count)] := by
  obtain ⟨s, f, hrun, hpath, hcontent, hidle, hpublished, houtcomes⟩ :=
    exists_run_overlap first second count
  have hcounts : ∀ f ∈ s.path, (s.content f).length ≤ [second.bytes.length].sum := by
    intro f' hf'
    cases hpath.symm.trans hf'
    rw [hcontent, List.sum_singleton]
    exact List.length_take_le' count second.bytes
  have hfound : s.found = some (second.bytes.take count) := by
    rw [found, hpath, Option.map_some, hcontent]
  have hread := run_reading hidle hcounts
  rw [hfound, houtcomes, List.nil_append] at hread
  refine ⟨_, reachable_of_run (only_start none none [0, 1]) ?_ (hrun.append hread),
    hpublished, rfl⟩
  intro a ha i hi
  obtain ha | ha := List.mem_append.1 ha
  · simp only [overlap, List.mem_cons, List.not_mem_nil, or_false] at ha
    obtain rfl | rfl | rfl | rfl | rfl := ha <;> cases hi <;> simp
  · rw [starter?_of_mem_reading ha] at hi
    cases hi

end Shared

/-! ## Both -/

section Main

open Shared

/-- Processes that publish and read at one file, in whatever order they make their steps.

The steps of a process that is not disturbed come to `publish`, in whatever pieces it writes the
record, and to `read`. Whatever was read, by however many processes, is the whole text of a record
that was published, exactly if at most one process publishes at a time. -/
theorem reads_whole_iff (r : Rendezvous) (n : Nat) :
    (∀ (tree : FileTree) (place draft : Location), r.Accepts tree place draft →
      ∀ (s : Shared) (i : Nat) (record : Record) (counts : List Nat), s.writers i = none →
        record.bytes.length ≤ counts.sum →
        ∃ made f, Run (publishing i record counts) s (s.replace made f record) ∧
          (s.replace made f record).Describes ((r.publish record).after tree) place draft) ∧
    (∀ (tree : FileTree) (place draft : Location), tree.locate r.path = .ok place →
      ∀ s : Shared, s.Describes tree place draft →
        ∀ (j : Nat) (counts : List Nat), s.readers j = none →
          (∀ f ∈ s.path, (s.content f).length ≤ counts.sum) →
          Run (s.reading j counts) s { s with outcomes := s.outcomes ++ [s.found] } ∧
          r.read.result tree = r.meaning s.found) ∧
    ((∀ (old : Option Record) (leftover : Option (List UInt8)) (s : Shared),
      ReachableWithin (AtMost n) (start old leftover) s → s.Whole) ↔ n ≤ 1) := by
  refine ⟨?_, ?_, fun h => ?_, ?_⟩
  · intro tree place draft haccepts s i record counts hidle hcounts
    obtain ⟨made, f, hrun⟩ := exists_run_publishing hidle hcounts
    exact ⟨made, f, hrun, describes_replace haccepts s made f record⟩
  · intro tree place draft hlocate s hdescribes j counts hidle hcounts
    exact ⟨run_reading hidle hcounts, hdescribes.result_read hlocate⟩
  · -- With two publishers, a reader can find the emptied file, and no record has an empty text.
    by_contra hn
    have htwo : 2 ≤ n := Nat.lt_of_not_le hn
    obtain ⟨s, hs, -, houtcomes⟩ := exists_reachable_overlap escapedRecord escapedRecord 0
    rw [List.take_zero] at houtcomes
    have hwhole : s.Whole := h none none s (hs.mono fun _ hs => hs.mono htwo)
    obtain ⟨record, -, hempty⟩ := hwhole [] (houtcomes ▸ List.mem_singleton_self _)
    exact record.bytes_ne_nil hempty.symm
  · intro hn old leftover s hs
    exact (sound_of_reachable (hs.mono fun _ hs => hs.mono hn)).whole

/-- A record of a run outside of any job. -/
def localRecord (port : UInt16) : Record :=
  ⟨"local", "a001", port, 2, ⟨1700000030, 30, by decide, by decide⟩, none⟩

/-- Where such runs meet in the working directory. -/
def localMeeting : Rendezvous :=
  ⟨"", "m", "local"⟩

lemma accepts_localMeeting : localMeeting.Accepts ⟨[], []⟩
    [".m.local.rendezvous.json"] [".m.local.rendezvous.json.tmp"] where
  locate_path := by decide +kernel
  path_ne_directory := nofun
  locate_draft := by decide +kernel
  draft_ne_directory := nofun

/-- One process publishes in two pieces, and another one reads what it has published. -/
theorem reads_whole_of_one :
    ∃ s, ReachableWithin (AtMost 1) (start none none) s ∧ s.Whole ∧
      s.outcomes = [some (localRecord 1234).bytes] ∧
      localMeeting.read.result ((localMeeting.publish (localRecord 1234)).after ⟨[], []⟩) =
        .ok (some (localRecord 1234)) := by
  let record := localRecord 1234
  obtain ⟨hpublish, hread, hwhole⟩ := reads_whole_iff localMeeting 1
  have hcounts : record.bytes.length ≤ [20, record.bytes.length].sum := by
    rw [List.sum_cons, List.sum_singleton]
    exact Nat.le_add_left ..
  obtain ⟨made, f, hpublishing, hdescribes⟩ := hpublish _ _ _ accepts_localMeeting
    (start none none) 0 record [20, record.bytes.length] rfl hcounts
  have hplace : ((localMeeting.publish record).after ⟨[], []⟩).locate localMeeting.path =
      .ok [".m.local.rendezvous.json"] :=
    FileTree.locate_of_keepsDirectories (accepts_localMeeting.keepsDirectories_publish record)
      accepts_localMeeting.locate_path
  have hcontent : ((start none none).replace made f record).content f = record.bytes :=
    Function.update_self ..
  obtain ⟨hreading, hresult⟩ := hread _ _ _ hplace _ hdescribes 0 [record.bytes.length] rfl
    fun f' hf' => by
      cases hf'
      rw [hcontent, List.sum_singleton]
  have hfound : ((start none none).replace made f record).found = some record.bytes :=
    congrArg some hcontent
  rw [hfound] at hreading hresult
  have hacts : ∀ a ∈ publishing 0 record [20, record.bytes.length] ++
      ((start none none).replace made f record).reading 0 [record.bytes.length],
      ∀ i, a.starter? = some i → i ∈ [0] := by
    intro a ha i hi
    obtain ha | ha := List.mem_append.1 ha
    · exact List.mem_singleton.2 (eq_of_mem_publishing ha hi)
    · rw [starter?_of_mem_reading ha] at hi
      cases hi
  have hs := reachable_of_run (only_start none none _) hacts (hpublishing.append hreading)
  refine ⟨_, hs, hwhole.2 le_rfl _ _ _ hs, rfl, hresult.trans ?_⟩
  rw [meaning, record.bytes_eq, interpret_render]
  exact congrArg Except.ok (if_pos rfl)

/-- Two processes of runs outside of any job publish at a time. What is read is no text of any
record, and reading fails. -/
theorem exists_truncated_of_two :
    ∃ s bytes, ReachableWithin (AtMost 2) (start none none) s ∧ s.outcomes = [some bytes] ∧
      ¬ s.Whole ∧ (∀ record : Record, bytes ≠ record.bytes) ∧
      localMeeting.meaning (some bytes) = .error (.undecodable "no rendezvous record") := by
  obtain ⟨s, hs, -, houtcomes⟩ := exists_reachable_overlap (localRecord 1234) (localRecord 4321) 20
  have hbytes : Record.ofBytes ((localRecord 4321).bytes.take 20) =
      .error (.undecodable "no rendezvous record") := by decide +kernel
  have hnone : ∀ record : Record, (localRecord 4321).bytes.take 20 ≠ record.bytes := by
    intro record heq
    rw [heq, record.bytes_eq, Record.ofBytes_render] at hbytes
    cases hbytes
  refine ⟨s, _, hs, houtcomes, fun hwhole => ?_, hnone, ?_⟩
  · obtain ⟨record, -, heq⟩ := hwhole _ (houtcomes ▸ List.mem_singleton_self _)
    exact hnone record heq
  · rw [meaning, interpret, hbytes]
    rfl

end Main

end JobBinding.Rendezvous

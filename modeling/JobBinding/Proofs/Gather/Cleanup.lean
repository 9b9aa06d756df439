import JobBinding.Proofs.Gather.Receiving
import JobBinding.Proofs.Gather.Transport
import JobBinding.Proofs.Rendezvous.Place

/-!
# What a coordinator leaves

A coordinator that has gathered leaves no rendezvous file and no draft, whatever its connections
have brought and whatever was in the file before, and a coordinator that gives up leaves its record.
`Rendezvous.Leaves` says what is left at the two paths, and that nothing else has changed.

Which connections a gather takes can be read off the account: each one that is taken makes one value
less missing (`Collector.Sound.missing_of_serve`). So the gather has values after as many
connections as there are other processes and not before, and otherwise it fails with the first
connection that does not fit (`serve_eq_error`).
-/

namespace JobBinding

/-! ## The files of a process -/

namespace Rendezvous

open Files

variable {r : Rendezvous} {tree made after : FileTree} {place draft : Location} {node : Option Node}

/-- Whether a tree is what a process leaves of another one: at the path of its file is a node or
nothing, there is no draft, and at every other place is what was there, or a directory where nothing
was. -/
structure Leaves (r : Rendezvous) (node : Option Node) (before after : FileTree) : Prop where
  node?_path : after.node? r.path = node
  node?_draft : after.node? r.draft = none
  workingDirectory_eq : after.workingDirectory = before.workingDirectory
  get?_eq : ∀ other, after.locate r.path ≠ .ok other → after.locate r.draft ≠ .ok other →
    after.get? other = before.get? other ∨
      before.get? other = none ∧ after.get? other = some .directory

/-- A tree that differs from one with the needed directories at the two paths only. -/
lemma Accepts.leaves (h : r.Accepts made place draft) (hmade : tree.AddsDirectories made)
    (hkeeps : made.KeepsDirectories after) (hplace : after.get? place = node)
    (hdraft : after.get? draft = none)
    (hothers : ∀ other, other ≠ place → other ≠ draft → after.get? other = made.get? other) :
    r.Leaves node tree after := by
  -- The operations keep the directories, so the resolved paths lead to the same places afterwards.
  have hpath := FileTree.locate_of_keepsDirectories hkeeps h.locate_path
  have hpath' := FileTree.locate_of_keepsDirectories hkeeps h.locate_draft
  refine ⟨?_, ?_, ?_, fun other hother hother' => ?_⟩
  · simp only [FileTree.node?, hpath, hplace]
  · simp only [FileTree.node?, hpath', hdraft]
  · rw [hkeeps.workingDirectory_eq, hmade.workingDirectory_eq]
  · have hne : other ≠ place := by
      rintro rfl
      exact hother hpath
    have hne' : other ≠ draft := by
      rintro rfl
      exact hother' hpath'
    rw [hothers other hne hne']
    exact hmade.get?_eq other

/-- Without its draft a tree has the same directories, and none at the path of the file. -/
lemma Accepts.keepsDirectories (h : r.Accepts made place draft) :
    made.KeepsDirectories (made.erase draft) ∧
      (made.erase draft).get? place ≠ some .directory :=
  ⟨FileTree.keepsDirectories_erase h.draft_ne_directory,
    FileTree.get?_erase_ne_directory h.path_ne_directory⟩

lemma Accepts.leaves_put (h : r.Accepts made place draft) (hmade : tree.AddsDirectories made)
    (content : List UInt8) :
    r.Leaves (some (.file content)) tree ((made.erase draft).put place (.file content)) := by
  obtain ⟨herased, hplace⟩ := h.keepsDirectories
  have hne : place ≠ draft := path_ne_draft h.locate_path h.locate_draft
  refine h.leaves hmade (herased.trans (FileTree.keepsDirectories_put hplace)) ?_ ?_ ?_
  · exact FileTree.get?_put_self (FileTree.ne_nil_of_get?_ne_directory hplace)
  · rw [FileTree.get?_put_of_ne hne.symm]
    exact FileTree.get?_erase_self (FileTree.ne_nil_of_get?_ne_directory h.draft_ne_directory)
  · intro other hother hother'
    rw [FileTree.get?_put_of_ne hother, FileTree.get?_erase_of_ne hother']

lemma Accepts.leaves_erase (h : r.Accepts made place draft) (hmade : tree.AddsDirectories made) :
    r.Leaves none tree ((made.erase draft).erase place) := by
  obtain ⟨herased, hplace⟩ := h.keepsDirectories
  have hne : place ≠ draft := path_ne_draft h.locate_path h.locate_draft
  refine h.leaves hmade (herased.trans (FileTree.keepsDirectories_erase hplace)) ?_ ?_ ?_
  · exact FileTree.get?_erase_self (FileTree.ne_nil_of_get?_ne_directory hplace)
  · rw [FileTree.get?_erase_of_ne hne.symm]
    exact FileTree.get?_erase_self (FileTree.ne_nil_of_get?_ne_directory h.draft_ne_directory)
  · intro other hother hother'
    rw [FileTree.get?_erase_of_ne hother, FileTree.get?_erase_of_ne hother']

lemma Accepts.after_remove (h : r.Accepts made place draft) (content : List UInt8) :
    r.remove.after ((made.erase draft).put place (.file content)) =
      (made.erase draft).erase place := by
  obtain ⟨herased, hplace⟩ := h.keepsDirectories
  have hkeeps : made.KeepsDirectories ((made.erase draft).put place (.file content)) :=
    herased.trans (FileTree.keepsDirectories_put hplace)
  have hfile : ((made.erase draft).put place (.file content)).get? place = some (.file content) :=
    FileTree.get?_put_self (FileTree.ne_nil_of_get?_ne_directory hplace)
  rw [Files.after, run_remove, Files.after, Files.run_remove,
    FileTree.locate_of_keepsDirectories hkeeps h.locate_path]
  simp only [hfile, FileTree.erase_put]

/-- A process that can publish leaves its record, and no file if it removes it afterwards. -/
lemma CanPublish.exists_leaves (h : r.CanPublish tree) (record : Record) :
    ∃ published, (r.publish record).run tree = .ok () published ∧
      r.Leaves (some (.file (Text.Utf8.encode record.render))) tree published ∧
      r.Leaves none tree (r.remove.after published) := by
  obtain ⟨made, place, draft, hparents, haccepts⟩ := h.exists_accepts
  have hmade : tree.AddsDirectories made := by
    have hadds := addsDirectories_makeParents r.path tree
    rwa [Files.after, hparents] at hadds
  have hagain := run_makeParents_of_locate haccepts.locate_path
  have hrun := (run_publish_eq hparents hagain record).trans (haccepts.run_publish record)
  refine ⟨_, hrun, haccepts.leaves_put hmade _, ?_⟩
  rw [haccepts.after_remove]
  exact haccepts.leaves_erase hmade

end Rendezvous

namespace Gather

variable {α : Type} {decode : Decoder α} {c c' : Collector α} {connections : List Connection}

/-! ## The connections that are taken -/

/-- Each connection that is taken makes one value less missing, as long as one is missing. -/
lemma Collector.Sound.missing_of_serve {size : Nat} (hc : c.Sound size)
    (h : Coordinator.serve decode c connections = .ok c') :
    c'.Sound size ∧ c'.missing = c.missing - connections.length := by
  -- Each connection fills one empty slot, and the subtraction stops at zero as the gather does.
  induction connections generalizing c with
  | nil =>
    cases h
    exact ⟨hc, rfl⟩
  | cons connection rest ih =>
    rw [Coordinator.serve] at h
    split at h
    · next hcomplete =>
      have hmissing : c.missing = 0 := of_decide_eq_true hcomplete
      cases h
      rw [hmissing, Nat.zero_sub]
      exact ⟨hc, rfl⟩
    · split at h
      · next next hnext =>
        obtain ⟨m, -, haccept⟩ := bind_eq_ok_iff.1 hnext
        obtain ⟨-, hslot, value, -, hfill⟩ := accept_eq_ok_iff.1 haccept
        have hmissing := (hc.fills_of_accept haccept).missing
        obtain ⟨hsound, hrest⟩ := ih (hfill ▸ hc.fill hslot value) h
        rw [hrest, List.length_cons]
        exact ⟨hsound, by omega⟩
      · cases h

namespace Coordinator

lemma serve_append (decode : Decoder α) (c : Collector α) (connections others : List Connection) :
    serve decode c (connections ++ others) =
      serve decode c connections >>= fun c => serve decode c others := by
  induction connections generalizing c with
  | nil => rfl
  | cons connection rest ih =>
    by_cases hcomplete : c.isComplete = true
    · rw [serve_of_isComplete hcomplete, serve_of_isComplete hcomplete]
      exact (serve_of_isComplete hcomplete).symm
    · rw [List.cons_append, serve, if_neg hcomplete, serve, if_neg hcomplete]
      cases Message.ofConnection connection >>= c.accept decode with
      | error e => rfl
      | ok next => exact ih next

/-- If taking connections fails, it is because of the first that does not fit. -/
lemma serve_eq_error {e : Failure} (h : serve decode c connections = .error e) :
    ∃ before connection rest next, connections = before ++ connection :: rest ∧
      serve decode c before = .ok next ∧ next.isComplete = false ∧
      (Message.ofConnection connection >>= next.accept decode) = .error e := by
  induction connections generalizing c with
  | nil => cases h
  | cons connection rest ih =>
    rw [serve] at h
    split at h
    · cases h
    next hcomplete =>
    split at h
    · next next hnext =>
      -- The first connection was taken, so what stands before the failing one grows at its front.
      obtain ⟨before, failing, rest, last, rfl, hserve, hlast, hfails⟩ := ih h
      refine ⟨connection :: before, failing, rest, last, rfl, ?_, hlast, hfails⟩
      rw [serve, if_neg hcomplete, hnext]
      exact hserve
    · next hfails =>
      cases h
      exact ⟨[], connection, rest, c, rfl, rfl, by simpa using hcomplete, hfails⟩

/-- Connections that are taken can be taken in two parts. -/
lemma exists_serve_take (h : serve decode c connections = .ok c') (n : Nat) :
    ∃ next, serve decode c (connections.take n) = .ok next ∧
      serve decode next (connections.drop n) = .ok c' := by
  rw [← List.take_append_drop n connections, serve_append] at h
  exact bind_eq_ok_iff.1 h

/-! ## Answers -/

section Answers

variable {size : Nat}

lemma answer_of_missing_pos (h : 0 < c.missing) : answer c = .ok none := by
  have hcomplete : c.isComplete = false := decide_eq_false (Nat.ne_of_gt h)
  rw [answer, hcomplete]
  rfl

lemma exists_answer_of_missing_eq_zero (hc : c.Sound size) (h : c.missing = 0) :
    ∃ values, answer c = .ok (some values) := by
  have hcomplete : c.isComplete = true := decide_eq_true h
  obtain ⟨values, hvalues⟩ := hc.exists_finish_iff.2 hcomplete
  refine ⟨values, ?_⟩
  rw [answer, if_pos hcomplete, hvalues]
  rfl

/-- A coordinator waits only while there are fewer connections than values that are missing. -/
lemma length_lt_of_waits (hc : c.Sound size)
    (h : serve decode c connections >>= answer = .ok none) : connections.length < c.missing := by
  obtain ⟨last, hserve, hanswer⟩ := bind_eq_ok_iff.1 h
  obtain ⟨hlast, hmissing⟩ := hc.missing_of_serve hserve
  by_contra hlength
  obtain ⟨values, hvalues⟩ := exists_answer_of_missing_eq_zero hlast (by omega)
  cases hanswer.symm.trans hvalues

/-- A coordinator that has values has taken as many connections as values were missing. With fewer
of them it waits, and the others do not matter. -/
lemma serve_take_of_values (hc : c.Sound size) {values : List α}
    (h : serve decode c connections >>= answer = .ok (some values)) :
    c.missing ≤ connections.length ∧
      (∀ n < c.missing, serve decode c (connections.take n) >>= answer = .ok none) ∧
      serve decode c (connections.take c.missing) >>= answer = .ok (some values) := by
  obtain ⟨last, hserve, hanswer⟩ := bind_eq_ok_iff.1 h
  have hmissing := (hc.missing_of_serve hserve).2
  have hlength : c.missing ≤ connections.length := by
    by_contra hlength
    cases hanswer.symm.trans (answer_of_missing_pos (by omega))
  refine ⟨hlength, fun n hn => ?_, ?_⟩
  · obtain ⟨next, htake, -⟩ := exists_serve_take hserve n
    have hnext := (hc.missing_of_serve htake).2
    rw [List.length_take, Nat.min_eq_left (by omega)] at hnext
    rw [htake]
    exact answer_of_missing_pos (by omega)
  · obtain ⟨next, htake, hdrop⟩ := exists_serve_take hserve c.missing
    have hnext := (hc.missing_of_serve htake).2
    rw [List.length_take, Nat.min_eq_left hlength, Nat.sub_self] at hnext
    -- The account is complete, so the connections after these are not taken.
    rw [serve_of_isComplete (decide_eq_true hnext)] at hdrop
    cases hdrop
    rw [htake]
    exact hanswer

/-- A coordinator that fails has taken the connections before the first that does not fit, and with
these alone it waits. -/
lemma exists_of_fails (hc : c.Sound size) {e : Failure}
    (h : serve decode c connections >>= answer = .error e) :
    ∃ before connection rest next, connections = before ++ connection :: rest ∧
      serve decode c before = .ok next ∧ serve decode c before >>= answer = .ok none ∧
      (Message.ofConnection connection >>= next.accept decode) = .error e := by
  cases hserve : serve decode c connections with
  | ok last =>
    rw [hserve] at h
    obtain ⟨hlast, -⟩ := hc.missing_of_serve hserve
    -- A sound account has values or waits, so an error comes from a connection.
    rcases Nat.eq_zero_or_pos last.missing with hzero | hpos
    · obtain ⟨values, hvalues⟩ := exists_answer_of_missing_eq_zero hlast hzero
      cases hvalues.symm.trans h
    · cases (answer_of_missing_pos hpos).symm.trans h
  | error f =>
    rw [hserve] at h
    cases h
    obtain ⟨before, connection, rest, next, hsplit, hbefore, hnext, hfails⟩ := serve_eq_error hserve
    refine ⟨before, connection, rest, next, hsplit, hbefore, ?_, hfails⟩
    rw [hbefore]
    exact answer_of_missing_pos (Nat.pos_of_ne_zero (of_decide_eq_false hnext))

end Answers

/-! ## A gather -/

variable {p : Participant} {port : UInt16} {now : Instant} {codec : Codec α} {own : α}
  {tree published : FileTree}

/-- A gather that still waits leaves what it has published, and one that is over has removed it. -/
lemma run_collect
    (hpublish : (p.rendezvous.publish (p.record port now none)).run tree = .ok () published) :
    (collect p port now codec own connections).run tree =
      match serve codec.deserialize (.start p.size own) connections >>= answer with
      | .ok none => .ok none published
      | .ok (some values) => .ok (some values) (p.rendezvous.remove.after published)
      | .error e => .error e (p.rendezvous.remove.after published) := by
  rw [collect, Files.run_bind, hpublish]
  dsimp only
  cases serve codec.deserialize (.start p.size own) connections with
  | error e =>
    simp only [Files.run_bind, Rendezvous.run_remove, Files.after]
    rfl
  -- `answer` makes the decision of `collect` before the listener is left.
  | ok c =>
    show _ = match answer c with
      | .ok none => _
      | .ok (some values) => _
      | .error e => _
    unfold answer
    by_cases h : c.isComplete = true
    · simp only [if_pos h, Files.run_bind, Rendezvous.run_remove, Files.run_ofExcept, Files.after]
      cases c.finish <;> rfl
    · simp only [if_neg h, Files.run_pure]

lemma size_ne_one (hsize : 2 ≤ p.size.toNat) : p.size ≠ 1 := by
  intro h
  rw [h] at hsize
  exact absurd hsize (by decide)

/-- A coordinator that is alone touches no file. The coordinator of several processes, if its paths
can be used, cleans up whatever its connections bring. As soon as its gather is over, with values or
with a failure, it leaves neither its file nor a draft; while it waits, its record is there. It has
values after exactly as many connections as there are other processes, and a failure is that of the
first connection that does not fit. A coordinator that gives up leaves one record, with its
reason. -/
theorem gather_leaves (p : Participant) (port : UInt16) (now : Instant) (codec : Codec α) (own : α)
    (connections : List Connection) (reason : String) (tree : FileTree) :
    let gathered := fun connections => (gather p port now codec own connections).result tree
    let left := (gather p port now codec own connections).after tree
    let others := p.size.toNat - 1
    (p.size = 1 →
      (gather p port now codec own connections).run tree = .ok (some [own]) tree ∧
      (abort p now reason).run tree = .ok () tree) ∧
    (2 ≤ p.size.toNat → p.rendezvous.CanPublish tree →
      (gathered connections = .ok none → connections.length < others ∧
        p.rendezvous.Leaves
          (some (.file (Text.Utf8.encode (p.record port now none).render))) tree left) ∧
      (gathered connections ≠ .ok none → p.rendezvous.Leaves none tree left) ∧
      (∀ values, gathered connections = .ok (some values) →
        others ≤ connections.length ∧
        (∀ n < others, gathered (connections.take n) = .ok none) ∧
        gathered (connections.take others) = .ok (some values)) ∧
      (∀ e, gathered connections = .error e →
        ∃ before connection rest account, connections = before ++ connection :: rest ∧
          serve codec.deserialize (.start p.size own) before = .ok account ∧
          gathered before = .ok none ∧
          (Message.ofConnection connection >>= account.accept codec.deserialize) = .error e) ∧
      ∃ after, (abort p now reason).run tree = .ok () after ∧
        p.rendezvous.Leaves
          (some (.file (Text.Utf8.encode (p.record 0 now (some reason)).render))) tree after ∧
        p.rendezvous.read.result after = .ok (some (p.record 0 now (some reason)))) := by
  intro gathered left others
  refine ⟨fun hone => ?_, fun hsize hcan => ?_⟩
  · rw [gather, abort, if_pos hone, if_pos hone]
    exact ⟨rfl, rfl⟩
  have hne := size_ne_one hsize
  have hstart : (Collector.start p.size own).Sound p.size.toNat :=
    Collector.sound_start (by omega) own
  obtain ⟨published, hpublish, hlive, hremoved⟩ :=
    hcan.exists_leaves (p.record port now none)
  -- Publishing succeeds, so from here on the conjuncts are about `serve`.
  have hgathered (connections : List Connection) : gathered connections =
      (serve codec.deserialize (.start p.size own) connections >>= answer) := by
    have hresult : (p.rendezvous.publish (p.record port now none)).result tree = .ok () :=
      Files.result_eq_ok_iff.2 ⟨published, hpublish⟩
    show (gather _ _ _ _ _ _).result tree = _
    rw [gather, if_neg hne, result_collect_eq, hresult]
    rfl
  have hleft : left = (collect p port now codec own connections).after tree := by
    show (gather _ _ _ _ _ _).after tree = _
    rw [gather, if_neg hne]
  simp only [hgathered]
  refine ⟨fun hwaits => ?_, fun hover => ?_, fun values => ?_, fun e => ?_, ?_⟩
  · rw [hleft, Files.after, run_collect hpublish, hwaits]
    exact ⟨length_lt_of_waits hstart hwaits, hlive⟩
  · rw [hleft, Files.after, run_collect hpublish]
    rcases hanswer : serve codec.deserialize (.start p.size own) connections >>= answer with
      e | _ | values
    · exact hremoved
    · exact absurd hanswer hover
    · exact hremoved
  · exact serve_take_of_values hstart
  · exact exists_of_fails hstart
  · obtain ⟨after, habort, hleaves, -⟩ := hcan.exists_leaves (p.record 0 now (some reason))
    rw [abort, if_neg hne]
    exact ⟨after, habort, hleaves,
      Files.result_eq_ok_iff.2 ⟨after, Rendezvous.read_of_publish habort rfl⟩⟩

/-! ### What an earlier run has left -/

/-- A directory with what an earlier run of a job has left: the record of its coordinator, a draft
that was not moved, and a file that has nothing to do with it. -/
def leftoverTree : FileTree :=
  ⟨[([".mpi.42.rendezvous.json"], .file (Text.Utf8.encode
      (Record.render ⟨"42", "b007", 4000, 2, ⟨90, 25, by decide, by decide⟩, none⟩))),
    ([".mpi.42.rendezvous.json.tmp"], .file [123]),
    (["notes.txt"], .file [104, 105])], []⟩

/-- The gather of the coordinator of three processes. -/
def eagerGather : List Connection → Files (Option (List UInt32)) :=
  gather eagerParticipant 4000 eagerTime Codec.u32 5

/-- A contribution of the last of three processes, in two pieces. -/
def lastContribution : Connection :=
  [[20, 0], [0, 0, 2, 0, 0, 0, 0, 0, 0, 0, 4, 0, 0, 0, 0, 0, 0, 0, 7, 0, 0, 0]]

/-- A connection that announces more bytes than a frame can have. -/
def oversizedConnection : Connection :=
  [[255, 255, 255], [255, 1]]

lemma canPublish_leftover : eagerParticipant.rendezvous.CanPublish leftoverTree :=
  ⟨eagerParticipant.record 4000 eagerTime none, eq_ok_of_isOk (by decide +kernel)⟩

/-- After a contribution the coordinator waits, and its record is there instead of the old one. An
oversized frame then ends the gather, and nothing is left of either record. A coordinator that gives
up in the same directory leaves its reason, and one that is alone touches nothing. -/
theorem gather_leaves_leftover :
    2 ≤ eagerParticipant.size.toNat ∧ eagerParticipant.rendezvous.CanPublish leftoverTree ∧
      (eagerGather [lastContribution]).result leftoverTree = .ok none ∧
      eagerParticipant.rendezvous.Leaves
        (some (.file (Text.Utf8.encode (eagerParticipant.record 4000 eagerTime none).render)))
        leftoverTree ((eagerGather [lastContribution]).after leftoverTree) ∧
      (eagerGather [lastContribution, oversizedConnection]).result leftoverTree =
        .error (.frame .oversized) ∧
      eagerParticipant.rendezvous.Leaves none leftoverTree
        ((eagerGather [lastContribution, oversizedConnection]).after leftoverTree) ∧
      (eagerGather [lastContribution, eagerConnections[2]]).result leftoverTree =
        .ok (some [5, 9, 7]) ∧
      (∃ after, (abort eagerParticipant eagerTime "no GPUs").run leftoverTree = .ok () after ∧
        eagerParticipant.rendezvous.read.result after =
          .ok (some (eagerParticipant.record 0 eagerTime (some "no GPUs")))) ∧
      (gather { eagerParticipant with placement := ⟨0, 1⟩ } 4000 eagerTime Codec.u32 5 []).run
        leftoverTree = .ok (some [5]) leftoverTree := by
  have hsize : 2 ≤ eagerParticipant.size.toNat := by decide
  have hfirst : (eagerGather [lastContribution]).result leftoverTree = .ok none := rfl
  have hfails : (eagerGather [lastContribution, oversizedConnection]).result leftoverTree =
      .error (.frame .oversized) := rfl
  have hvalues : (eagerGather [lastContribution, eagerConnections[2]]).result leftoverTree =
      .ok (some [5, 9, 7]) := rfl
  obtain ⟨-, hseveral⟩ := gather_leaves eagerParticipant 4000 eagerTime Codec.u32 5
    [lastContribution] "no GPUs" leftoverTree
  obtain ⟨hwaits, -, -, -, after, habort, -, hread⟩ := hseveral hsize canPublish_leftover
  obtain ⟨-, hseveral⟩ := gather_leaves eagerParticipant 4000 eagerTime Codec.u32 5
    [lastContribution, oversizedConnection] "no GPUs" leftoverTree
  obtain ⟨-, hover, -⟩ := hseveral hsize canPublish_leftover
  obtain ⟨halone, -⟩ := gather_leaves { eagerParticipant with placement := ⟨0, 1⟩ } 4000 eagerTime
    Codec.u32 5 [] "no GPUs" leftoverTree
  have hended : (eagerGather [lastContribution, oversizedConnection]).result leftoverTree ≠
      .ok none := by
    rw [hfails]
    exact nofun
  exact ⟨hsize, canPublish_leftover, hfirst, (hwaits hfirst).2, hfails, hover hended, hvalues,
    ⟨after, habort, hread⟩, (halone rfl).1⟩

end Coordinator

end Gather

end JobBinding

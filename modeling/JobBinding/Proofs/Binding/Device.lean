import Mathlib.Data.List.Forall2
import JobBinding.Binding.Listing
import JobBinding.Proofs.Except
import JobBinding.Proofs.Text.Lines
import JobBinding.Proofs.Text.Scan

/-!
# The grammar of a listing of devices

A line of a listing of NVIDIA devices names a device if the first marker in it is followed by the
tag of a kind of device and an identifier in front of a closing parenthesis (`Names`). The scanner
of lines takes exactly these lines (`device_eq_ok_iff`) and refuses every other one for the first
thing that is missing (`device_eq_error_iff`), so a whole listing is read exactly if every line
names a device, and otherwise its first line that names none is shown (`devices_iff`,
`nvidia_spec`).
-/

namespace JobBinding.Listing

open Text

variable {line after : List Char} {d : Device} {stop : Mismatch}

/-! ## One line -/

def Device.id : Device → List Char
  | .gpu id => id
  | .instance id => id

/-- What begins the identifier of a device. -/
def Device.tag : Device → List Char
  | .gpu _ => gpuTag
  | .instance _ => instanceTag

def Device.isInstance : Device → Bool
  | .gpu _ => false
  | .instance _ => true

/-- Whether a line names a device: its first marker is directly followed by the tag and the
identifier of the device, up to the first closing parenthesis after the tag. -/
def Names (line : List Char) (d : Device) : Prop :=
  ∃ before after, IsFirst uuidMarker line before (d.tag ++ (d.id ++ ')' :: after)) ∧ ')' ∉ d.id

/-- Whether a line is of the form of a listing: the marker occurs, its first occurrence is directly
followed by the tag of a kind of device, and a closing parenthesis comes after that. -/
def Qualifies (line : List Char) : Prop :=
  ∃ before tag rest, IsFirst uuidMarker line before (tag ++ rest) ∧
    (tag = gpuTag ∨ tag = instanceTag) ∧ ')' ∈ rest

/-- Where a line leaves the form of a listing, and what should have stood there. -/
inductive Refuses (line : List Char) : Mismatch → Prop
  | noMarker (h : ¬ uuidMarker <:+: line) : Refuses line ⟨.marker, line⟩
  | noTag {before after : List Char} (h : IsFirst uuidMarker line before after)
    (hgpu : ¬ gpuTag <+: after) (hinstance : ¬ instanceTag <+: after) :
    Refuses line ⟨.literal, after⟩
  | noEnd {before tag rest : List Char} (h : IsFirst uuidMarker line before (tag ++ rest))
    (htag : tag = gpuTag ∨ tag = instanceTag) (hend : ')' ∉ rest) : Refuses line ⟨.marker, rest⟩

lemma exists_names_iff : (∃ d, Names line d) ↔ Qualifies line := by
  constructor
  · rintro ⟨d, before, after, hfirst, -⟩
    refine ⟨before, d.tag, _, hfirst, ?_, by simp⟩
    cases d with
    | gpu id => exact .inl rfl
    | «instance» id => exact .inr rfl
  · rintro ⟨before, tag, rest, hfirst, htag, hend⟩
    obtain ⟨id, after, rfl, hid⟩ := List.eq_append_cons_of_mem hend
    rcases htag with rfl | rfl
    · exact ⟨.gpu id, before, after, hfirst, hid⟩
    · exact ⟨.instance id, before, after, hfirst, hid⟩

lemma upTo_eq_ok_iff {marker cs before : List Char} :
    Scan.upTo marker cs = .ok (before, after) ↔ IsFirst marker cs before after := by
  rw [← splitAtMarker?_eq_some_iff, Scan.upTo]
  split
  · next parts hparts => rw [hparts, Except.ok.injEq, Option.some.injEq]
  · next hnone => simp [hnone]

lemma upTo_eq_error_iff {marker cs : List Char} :
    Scan.upTo marker cs = .error stop ↔ ¬ marker <:+: cs ∧ stop = ⟨.marker, cs⟩ := by
  rw [← splitAtMarker?_eq_none_iff, Scan.upTo]
  split
  · next parts hparts => simp [hparts]
  · next hnone => simp [hnone, eq_comm]

lemma deviceKind_gpuTag (rest : List Char) : deviceKind (gpuTag ++ rest) = .ok (.gpu, rest) := by
  rw [deviceKind, afterPrefix?_eq_some_iff.2 rfl]

lemma deviceKind_instanceTag (rest : List Char) :
    deviceKind (instanceTag ++ rest) = .ok (.instance, rest) := by
  have hgpu : afterPrefix? gpuTag (instanceTag ++ rest) = none := by
    rw [afterPrefix?_eq_none_iff]
    rintro ⟨more, hmore⟩
    cases hmore
  rw [deviceKind, hgpu, Scan.literal, afterPrefix?_eq_some_iff.2 rfl]
  rfl

lemma deviceKind_of_not_prefix {cs : List Char} (hgpu : ¬ gpuTag <+: cs)
    (hinstance : ¬ instanceTag <+: cs) : deviceKind cs = .error ⟨.literal, cs⟩ := by
  rw [deviceKind, afterPrefix?_eq_none_iff.2 hgpu, Scan.literal,
    afterPrefix?_eq_none_iff.2 hinstance]
  rfl

/-- Once the kind of device is known, only the end of the identifier is left to find. -/
lemma device_of_kind {before cs rest : List Char} {kind : List Char → Device}
    (hfirst : IsFirst uuidMarker line before cs) (hkind : deviceKind cs = .ok (kind, rest)) :
    device line = (Scan.upTo [')'] rest).map fun parts => kind parts.1 := by
  have hmarker : device line = deviceKind cs >>= fun found =>
      Scan.upTo [')'] found.2 >>= fun parts => pure (found.1 parts.1) := by
    rw [device, upTo_eq_ok_iff.2 hfirst]
    rfl
  rw [hmarker, hkind]
  show Scan.upTo [')'] rest >>= _ = _
  cases Scan.upTo [')'] rest <;> rfl

lemma device_of_names (h : Names line d) : device line = .ok d := by
  obtain ⟨before, after, hfirst, hid⟩ := h
  have hend : Scan.upTo [')'] (d.id ++ ')' :: after) = .ok (d.id, after) :=
    upTo_eq_ok_iff.2 (isFirst_singleton_iff.2 ⟨rfl, hid⟩)
  cases d with
  | gpu id =>
    rw [device_of_kind hfirst (deviceKind_gpuTag _), hend]
    rfl
  | «instance» id =>
    rw [device_of_kind hfirst (deviceKind_instanceTag _), hend]
    rfl

lemma device_of_refuses (h : Refuses line stop) : device line = .error stop := by
  cases h with
  | noMarker h =>
    rw [device, upTo_eq_error_iff.2 ⟨h, rfl⟩]
    rfl
  | noTag h hgpu hinstance =>
    have hkind := deviceKind_of_not_prefix hgpu hinstance
    rw [device, upTo_eq_ok_iff.2 h]
    show deviceKind _ >>= _ = _
    rw [hkind]
    rfl
  -- The tag is there, so the scan goes on behind it: it is the closing parenthesis that is missing.
  | @noEnd before tag rest h htag hend =>
    have hstop : Scan.upTo [')'] rest = .error ⟨.marker, rest⟩ :=
      upTo_eq_error_iff.2 ⟨mt (List.singleton_infix_iff _ _).1 hend, rfl⟩
    rcases htag with rfl | rfl
    · rw [device_of_kind h (deviceKind_gpuTag rest), hstop]
      rfl
    · rw [device_of_kind h (deviceKind_instanceTag rest), hstop]
      rfl

/-- Every line names a device or leaves the form of a listing somewhere. -/
lemma names_or_refuses (line : List Char) : (∃ d, Names line d) ∨ ∃ stop, Refuses line stop := by
  by_cases hmarker : uuidMarker <:+: line
  · obtain ⟨before, after, hfirst⟩ := exists_isFirst_iff.2 hmarker
    by_cases hprefix : gpuTag <+: after ∨ instanceTag <+: after
    · obtain ⟨tag, rest, htag, rfl⟩ :
          ∃ tag rest, (tag = gpuTag ∨ tag = instanceTag) ∧ tag ++ rest = after := by
        rcases hprefix with ⟨rest, hrest⟩ | ⟨rest, hrest⟩
        · exact ⟨gpuTag, rest, .inl rfl, hrest⟩
        · exact ⟨instanceTag, rest, .inr rfl, hrest⟩
      by_cases hend : ')' ∈ rest
      · exact .inl (exists_names_iff.2 ⟨before, tag, rest, hfirst, htag, hend⟩)
      · exact .inr ⟨_, .noEnd hfirst htag hend⟩
    · obtain ⟨hgpu, hinstance⟩ := not_or.1 hprefix
      exact .inr ⟨_, .noTag hfirst hgpu hinstance⟩
  · exact .inr ⟨_, .noMarker hmarker⟩

lemma device_iff (line : List Char) :
    (∀ d, device line = .ok d ↔ Names line d) ∧
      ∀ stop, device line = .error stop ↔ Refuses line stop :=
  eq_ok_iff_and_eq_error_iff (fun _ => device_of_names) (fun _ => device_of_refuses)
    (names_or_refuses line)

/-- The scanner of lines reads a device exactly where a line names it. -/
theorem device_eq_ok_iff : device line = .ok d ↔ Names line d :=
  (device_iff line).1 d

/-- The scanner of lines stops exactly where a line leaves the form of a listing. -/
theorem device_eq_error_iff : device line = .error stop ↔ Refuses line stop :=
  (device_iff line).2 stop

/-! ## A whole listing -/

variable {ls front : List (List Char)} {ds : List Device}

lemma not_qualifies_of_refuses (h : Refuses line stop) : ¬ Qualifies line := by
  rw [← exists_names_iff]
  rintro ⟨d, hd⟩
  cases (device_of_refuses h).symm.trans (device_of_names hd)

lemma devices_cons_of_names (h : Names line d) (ls : List (List Char)) :
    devices (line :: ls) = (devices ls).map (d :: ·) := by
  rw [devices, device_of_names h]
  show devices ls >>= _ = _
  cases devices ls with
  | error fault => rfl
  | ok ds => rfl

lemma devices_of_names (h : List.Forall₂ Names ls ds) : devices ls = .ok ds := by
  induction h with
  | nil => rfl
  | cons hd _ ih =>
    rw [devices_cons_of_names hd, ih]
    rfl

/-- Reading a listing fails for the first line that is not of its form, whatever follows it. -/
lemma devices_of_refuses (hfront : ∀ l ∈ front, Qualifies l) (h : Refuses line stop)
    (back : List (List Char)) : devices (front ++ line :: back) =
      .error (.probe (.unexpectedLine "nvidia-smi" line stop)) := by
  induction front with
  | nil => rw [List.nil_append, devices, device_of_refuses h]
  | cons first front ih =>
    obtain ⟨hfirst, hfront⟩ := List.forall_mem_cons.1 hfront
    obtain ⟨d, hd⟩ := exists_names_iff.2 hfirst
    rw [List.cons_append, devices_cons_of_names hd, ih hfront]
    rfl

/-- Every line names a device, or there is a first line that names none. -/
lemma forall₂_or_refuses (ls : List (List Char)) :
    (∃ ds, List.Forall₂ Names ls ds) ∨ ∃ front line back stop, ls = front ++ line :: back ∧
      (∀ l ∈ front, Qualifies l) ∧ Refuses line stop := by
  induction ls with
  | nil => exact .inl ⟨[], .nil⟩
  | cons line ls ih =>
    rcases names_or_refuses line with ⟨d, hd⟩ | ⟨stop, hstop⟩
    · rcases ih with ⟨ds, hds⟩ | ⟨front, line', back, stop, rfl, hfront, hstop⟩
      · exact .inl ⟨d :: ds, .cons hd hds⟩
      · refine .inr ⟨line :: front, line', back, stop, rfl, ?_, hstop⟩
        exact List.forall_mem_cons.2 ⟨exists_names_iff.1 ⟨d, hd⟩, hfront⟩
    · exact .inr ⟨[], line, ls, stop, rfl, List.forall_mem_nil _, hstop⟩

/-- A listing is read exactly if every line names a device, and otherwise the failure is that of the
first line that names none. -/
lemma devices_iff (ls : List (List Char)) :
    (∀ ds, devices ls = .ok ds ↔ List.Forall₂ Names ls ds) ∧
      ∀ fault, devices ls = .error fault ↔ ∃ front line back stop, ls = front ++ line :: back ∧
        (∀ l ∈ front, Qualifies l) ∧ Refuses line stop ∧
        fault = .probe (.unexpectedLine "nvidia-smi" line stop) := by
  apply eq_ok_iff_and_eq_error_iff
  · intro ds
    exact devices_of_names
  · rintro fault ⟨front, line, back, stop, rfl, hfront, hstop, rfl⟩
    exact devices_of_refuses hfront hstop back
  · refine (forall₂_or_refuses ls).imp_right ?_
    rintro ⟨front, line, back, stop, hls, hfront, hstop⟩
    exact ⟨_, front, line, back, stop, hls, hfront, hstop, rfl⟩

lemma exists_forall₂_names_iff :
    (∃ ds, List.Forall₂ Names ls ds) ↔ ∀ line ∈ ls, Qualifies line := by
  induction ls with
  | nil => simp
  | cons line ls ih =>
    rw [List.forall_mem_cons, ← ih, ← exists_names_iff]
    constructor
    · rintro ⟨ds, h⟩
      obtain ⟨d, rest, hd, hrest, -⟩ := List.forall₂_cons_left_iff.1 h
      exact ⟨⟨d, hd⟩, rest, hrest⟩
    · rintro ⟨⟨d, hd⟩, rest, hrest⟩
      exact ⟨d :: rest, .cons hd hrest⟩

lemma exists_names_of_mem (h : List.Forall₂ Names ls ds) (hd : d ∈ ds) :
    ∃ line ∈ ls, Names line d := by
  induction h with
  | nil => cases hd
  | @cons line first ls ds hfirst _ ih =>
    rcases List.mem_cons.1 hd with rfl | hd
    · exact ⟨line, by simp, hfirst⟩
    · obtain ⟨line', hline, hd⟩ := ih hd
      exact ⟨line', by simp [hline], hd⟩

/-- The devices that count: the instances if there are any, all otherwise. -/
def counting (ds : List Device) : List Device :=
  if ds.any Device.isInstance then ds.filter Device.isInstance else ds

lemma counting_subset (ds : List Device) : counting ds ⊆ ds := by
  rw [counting]
  split
  · exact List.filter_subset_self ds
  · exact List.Subset.refl ds

lemma filterMap_instance? (ds : List Device) :
    ds.filterMap Device.instance? = (ds.filter Device.isInstance).map Device.id := by
  induction ds with
  | nil => rfl
  | cons d ds ih =>
    cases d with
    | gpu id => exact ih
    | «instance» id => exact congrArg (id :: ·) ih

lemma filterMap_gpu? (h : ∀ d ∈ ds, d.isInstance = false) :
    ds.filterMap Device.gpu? = ds.map Device.id := by
  induction ds with
  | nil => rfl
  | cons d ds ih =>
    obtain ⟨hd, hds⟩ := List.forall_mem_cons.1 h
    cases d with
    | gpu id => exact congrArg (id :: ·) (ih hds)
    | «instance» id => cases hd

lemma identifiers_eq (ds : List Device) : identifiers ds = (counting ds).map Device.id := by
  rw [identifiers, counting, filterMap_instance?]
  split
  · next hnil =>
    have hnone : ∀ d ∈ ds, d.isInstance = false := by
      simpa [List.filter_eq_nil_iff] using hnil
    rw [if_neg (by simpa using hnone), filterMap_gpu? hnone]
  · next instances hne =>
    have hany : ds.any Device.isInstance = true := by
      rw [List.any_eq_true]
      by_contra hno
      exact hne (by simpa [List.filter_eq_nil_iff] using hno)
    rw [if_pos hany]

lemma nvidia_eq_ok_iff {text : String} {ids : List String} :
    nvidia text = .ok ids ↔ ∃ ds, List.Forall₂ Names (lines text.toList) ds ∧
      ids = (counting ds).map fun d => String.ofList d.id := by
  rw [nvidia, bind_eq_ok_iff]
  refine exists_congr fun ds => and_congr ((devices_iff _).1 ds) ?_
  rw [identifiers_eq, List.map_map]
  show Except.ok _ = Except.ok ids ↔ _
  rw [Except.ok.injEq]
  exact eq_comm

lemma nvidia_eq_error_iff {text : String} {fault : Failure} :
    nvidia text = .error fault ↔ devices (lines text.toList) = .error fault := by
  rw [nvidia]
  cases devices (lines text.toList) with
  | error e =>
    show Except.error e = Except.error fault ↔ _
    rw [Except.error.injEq, Except.error.injEq]
  | ok ds => exact ⟨fun h => (by cases h), fun h => (by cases h)⟩

/-! ## Listings that are written -/

/-- A line of a listing: a device, and what stands in front of the marker. -/
structure Entry where
  front : List Char
  device : Device

def Entry.write (e : Entry) : List Char :=
  e.front ++ uuidMarker ++ (e.device.tag ++ (e.device.id ++ [')']))

/-- Whether the parts of an entry can be told apart in its line, and the line from other lines. -/
structure Entry.IsPlain (e : Entry) : Prop where
  marker_not_infix : ¬ uuidMarker <:+: e.front
  end_notMem : ')' ∉ e.device.id
  oneLine_front : '\n' ∉ e.front
  oneLine_id : '\n' ∉ e.device.id

def render (entries : List Entry) : String :=
  String.ofList (unlines (entries.map Entry.write))

lemma Entry.IsPlain.names {e : Entry} (h : e.IsPlain) : Names e.write e.device :=
  ⟨e.front, [], isFirst_of_not_infix (by decide) h.marker_not_infix _, h.end_notMem⟩

lemma Entry.IsPlain.newline_notMem {e : Entry} (h : e.IsPlain) : '\n' ∉ e.write := by
  have hmarker : '\n' ∉ uuidMarker := by decide
  have htags : '\n' ∉ gpuTag ∧ '\n' ∉ instanceTag := by decide
  have htag : '\n' ∉ e.device.tag := by
    cases e.device with
    | gpu id => exact htags.1
    | «instance» id => exact htags.2
  simp [Entry.write, hmarker, htag, h.oneLine_front, h.oneLine_id]

lemma nvidia_render {entries : List Entry} (h : ∀ e ∈ entries, e.IsPlain) :
    nvidia (render entries) =
      .ok ((counting (entries.map Entry.device)).map fun d => String.ofList d.id) := by
  have hlines : lines (render entries).toList = entries.map Entry.write := by
    rw [render, String.toList_ofList]
    apply lines_unlines
    rw [List.forall_mem_map]
    intro e he
    refine ⟨(h e he).newline_notMem, ?_⟩
    simp [Entry.write]
  rw [nvidia_eq_ok_iff, hlines]
  refine ⟨entries.map Entry.device, ?_, rfl⟩
  rw [List.forall₂_map_left_iff, List.forall₂_map_right_iff, List.forall₂_same]
  exact fun e he => (h e he).names

/-! ## What is listed -/

/-- An identifier has neither a closing parenthesis nor a line feed. -/
lemma notMem_of_mem_nvidia {text : String} {ids : List String} (h : nvidia text = .ok ids) :
    ∀ id ∈ ids, ')' ∉ id.toList ∧ '\n' ∉ id.toList := by
  obtain ⟨ds, hds, rfl⟩ := nvidia_eq_ok_iff.1 h
  rw [List.forall_mem_map]
  intro d hd
  obtain ⟨line, hline, before, after, hfirst, hend⟩ :=
    exists_names_of_mem hds (counting_subset ds hd)
  rw [String.toList_ofList]
  refine ⟨hend, fun hnewline => not_mem_newline_of_mem_lines hline ?_⟩
  rw [← hfirst.append_eq]
  simp [hnewline]

lemma message_unexpectedLine (line : List Char) (stop : Mismatch) :
    (Failure.probe (.unexpectedLine "nvidia-smi" line stop)).message =
      "Probe error: Unexpected output from nvidia-smi: " ++ String.ofList line ++
        " (" ++ stop.message ++ ")" := by
  have hstart : "Probe error: " ++ ("Unexpected output from " ++ "nvidia-smi" ++ ": ") =
      "Probe error: Unexpected output from nvidia-smi: " := by
    simp only [String.reduceAppend]
  unfold Failure.message ProbeFault.message
  dsimp only
  rw [← hstart]
  simp only [String.append_assoc]

/-- Reading a listing of NVIDIA devices. The lines of a text are what its line feeds end, less one
carriage return, and what follows the last of them. The listing is read exactly if each line is of
its form; then the identifiers that the lines name are its result, in the order of the lines, those
of the instances if there are any. Otherwise the message shows the first line that is not of the
form, whatever follows it. An identifier has neither a closing parenthesis nor a line feed, and what
is written for some entries is read back. -/
theorem nvidia_spec (text : String) (entries : List Entry) :
    (∀ ls last, (∀ line ∈ ls, '\n' ∉ line) → '\n' ∉ last → text.toList = unlines ls ++ last →
      lines text.toList = ls.map withoutReturn ++ if last = [] then [] else [last]) ∧
    ((∃ ids, nvidia text = .ok ids) ↔ ∀ line ∈ lines text.toList, Qualifies line) ∧
    (∀ ids, nvidia text = .ok ids ↔ ∃ ds, List.Forall₂ Names (lines text.toList) ds ∧
      ids = (counting ds).map fun d => String.ofList d.id) ∧
    (∀ fault, nvidia text = .error fault ↔ ∃ front line back stop,
      lines text.toList = front ++ line :: back ∧ (∀ l ∈ front, Qualifies l) ∧
      ¬ Qualifies line ∧ Refuses line stop ∧
      fault = .probe (.unexpectedLine "nvidia-smi" line stop) ∧
      fault.message = "Probe error: Unexpected output from nvidia-smi: " ++ String.ofList line ++
        " (" ++ stop.message ++ ")") ∧
    (∀ ids, nvidia text = .ok ids → ∀ id ∈ ids, ')' ∉ id.toList ∧ '\n' ∉ id.toList) ∧
    ((∀ e ∈ entries, e.IsPlain) → nvidia (render entries) =
      .ok ((counting (entries.map Entry.device)).map fun d => String.ofList d.id)) := by
  refine ⟨?_, ?_, fun ids => nvidia_eq_ok_iff, fun fault => ?_, fun ids => notMem_of_mem_nvidia,
    nvidia_render⟩
  · intro ls last hls hlast htext
    rw [htext]
    exact lines_unlines_append hls hlast
  -- A listing is accepted line by line, so success is a list of devices beside the list of lines.
  · rw [← exists_forall₂_names_iff]
    constructor
    · rintro ⟨ids, h⟩
      obtain ⟨ds, hds, -⟩ := nvidia_eq_ok_iff.1 h
      exact ⟨ds, hds⟩
    · rintro ⟨ds, hds⟩
      exact ⟨_, nvidia_eq_ok_iff.2 ⟨ds, hds, rfl⟩⟩
  -- The scan stops at its first mismatch, so only the lines before the refused one have to qualify.
  · rw [nvidia_eq_error_iff, (devices_iff _).2]
    constructor
    · rintro ⟨front, line, back, stop, hlines, hfront, hstop, rfl⟩
      exact ⟨front, line, back, stop, hlines, hfront, not_qualifies_of_refuses hstop, hstop, rfl,
        message_unexpectedLine line stop⟩
    · rintro ⟨front, line, back, stop, hlines, hfront, -, hstop, hfault, -⟩
      exact ⟨front, line, back, stop, hlines, hfront, hstop, hfault⟩

/-- A GPU with an instance on it is written and read back as the instance. A listing with a line
that names nothing, between two that name a device each, is refused for that line. -/
theorem nvidia_of_instance :
    nvidia (render [⟨"GPU 0: A100 ".toList, .gpu "8f2b".toList⟩,
        ⟨"  MIG 3g.20gb ".toList, .instance "(UUID: 6d1e".toList⟩]) = .ok ["(UUID: 6d1e"] ∧
      nvidia "GPU 0: (UUID: GPU-8f2b)\r\nnone\nMIG 0: (UUID: MIG-6d1e)" =
        .error (.probe (.unexpectedLine "nvidia-smi" "none".toList
          ⟨.marker, "none".toList⟩)) := by
  obtain ⟨-, -, -, hfault, -, hrender⟩ :=
    nvidia_spec "GPU 0: (UUID: GPU-8f2b)\r\nnone\nMIG 0: (UUID: MIG-6d1e)"
      [⟨"GPU 0: A100 ".toList, .gpu "8f2b".toList⟩,
        ⟨"  MIG 3g.20gb ".toList, .instance "(UUID: 6d1e".toList⟩]
  have hgpu : Entry.IsPlain ⟨"GPU 0: A100 ".toList, .gpu "8f2b".toList⟩ :=
    ⟨by decide, by decide, by decide, by decide⟩
  have hinstance : Entry.IsPlain ⟨"  MIG 3g.20gb ".toList, .instance "(UUID: 6d1e".toList⟩ :=
    ⟨by decide, by decide, by decide, by decide⟩
  have hfirst : Qualifies "GPU 0: (UUID: GPU-8f2b)".toList :=
    exists_names_iff.1 ⟨.gpu "8f2b".toList, device_eq_ok_iff.1 rfl⟩
  have hnone : Refuses "none".toList ⟨.marker, "none".toList⟩ := .noMarker (by decide)
  have hplain := List.forall_mem_cons.2 ⟨hgpu, List.forall_mem_singleton.2 hinstance⟩
  refine ⟨hrender hplain, (hfault _).2 ?_⟩
  exact ⟨["GPU 0: (UUID: GPU-8f2b)".toList], "none".toList, ["MIG 0: (UUID: MIG-6d1e)".toList], _,
    rfl, List.forall_mem_singleton.2 hfirst, not_qualifies_of_refuses hnone, hnone, rfl,
    message_unexpectedLine _ _⟩

end JobBinding.Listing

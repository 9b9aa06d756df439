import JobBinding.Proofs.Text.Literal
import JobBinding.Proofs.Verdict.Classify

/-!
# Reading bindings back from a verdict

The PASSED line of a job shows its hosts as a set, then the cpuset of each process in the order of
the ranks, then the GPUs of each process if any are requested. If the names of the hosts and of the
GPUs have none of the characters that divide and enclose what is shown, jobs with the same line have
the same hosts, cpusets and GPUs (`observed_of_passed`).

Each of the three parts is a literal. A literal ends by itself, so the line falls apart into them
from left to right (`passedText_inj`).
-/

namespace JobBinding

lemma SortedSet.toList_injective {α : Type} [LT α] :
    Function.Injective (SortedSet.toList : SortedSet α → List α) := by
  rintro ⟨as, has⟩ ⟨bs, hbs⟩ rfl
  rfl

namespace Verdict

open Text (literal IsItem Separable)

variable {bindings others : List Binding} {shape shape' : Shape} {message : String}

/-- Whether the names of the hosts and of the GPUs of some bindings are items by themselves. -/
def HasItemNames (bindings : List Binding) : Prop :=
  ∀ b ∈ bindings, IsItem b.hostname ∧ ∀ id ∈ b.gpus, IsItem id

instance (bindings : List Binding) : Decidable (HasItemNames bindings) :=
  inferInstanceAs (Decidable (∀ b ∈ bindings, IsItem b.hostname ∧ ∀ id ∈ b.gpus, IsItem id))

/-! ## The parts of a PASSED line -/

/-- The numbers of some cores as a set. -/
def coreSet : List CoreId → List Char :=
  literal '\x7b' '\x7d' fun core => (toString core.toNat).toList

lemma separable_coreSet : Separable ']' (fun _ : List CoreId => True) coreSet := by
  have hcores : Separable ']' (fun cores : List CoreId => ∀ core ∈ cores, True) coreSet :=
    (Text.separable_numbers (by decide)).literal (by decide) (by decide)
  simpa using hcores

/-- The identifiers of some GPUs as a list. -/
def gpuList : List String → List Char :=
  literal '[' ']' String.toList

lemma separable_gpuList :
    Separable ']' (fun ids : List String => ∀ id ∈ ids, IsItem id) gpuList :=
  (Text.separable_items (by decide)).literal (by decide) (by decide)

lemma toList_hostsShown (bindings : List Binding) :
    (hostsShown bindings).toList = literal '\x7b' '\x7d' String.toList (hostList bindings) := by
  have h := Text.toList_setLiteral (f := id) (hostList bindings)
  rwa [List.map_id] at h

lemma toList_coresShown (bindings : List Binding) :
    (coresShown bindings).toList = literal '[' ']' coreSet (bindings.map (·.cores.toList)) := by
  rw [coresShown, Text.toList_listLiteral, literal, literal, List.map_map]
  simp only [Binding.coresText, Text.toList_setLiteral]
  rfl

lemma toList_gpusShown (bindings : List Binding) :
    (gpusShown bindings).toList = literal '[' ']' gpuList (bindings.map (·.gpus)) := by
  have hids (b : Binding) : b.gpusText.toList = gpuList b.gpus := by
    have h := Text.toList_listLiteral (f := id) b.gpus
    rwa [List.map_id] at h
  rw [gpusShown, Text.toList_listLiteral, literal, literal, List.map_map]
  simp only [hids]
  rfl

lemma isItem_of_mem_hostList (h : HasItemNames bindings) :
    ∀ host ∈ hostList bindings, IsItem host := by
  intro host hhost
  rw [hostList, Finset.mem_sort, List.mem_toFinset] at hhost
  obtain ⟨b, hb, rfl⟩ := List.mem_map.1 hhost
  exact (h b hb).1

lemma isItem_of_mem_gpus (h : HasItemNames bindings) :
    ∀ ids ∈ bindings.map (·.gpus), ∀ id ∈ ids, IsItem id := by
  intro ids hids
  obtain ⟨b, hb, rfl⟩ := List.mem_map.1 hids
  exact (h b hb).2

/-! ## The line as a whole -/

/-- The message of a PASSED line, given what it says about the GPUs. -/
def passedText (bindings : List Binding) (gpus : String) : String :=
  hostsShown bindings ++ " " ++ coresShown bindings ++ " " ++ gpus

lemma passedText_eq_of_mem (h : (.passed, message) ∈ (classify bindings shape).lines) :
    message = passedText bindings (if 0 < shape.gpus then gpusShown bindings else "[]") := by
  obtain ⟨o, ho⟩ := Outcome.exists_holds bindings shape
  rw [lines_classify bindings shape ho, List.mem_append, List.mem_singleton] at h
  rcases h with hremark | hline
  · have hopen := isTerminal_of_mem_remarkLines bindings shape hremark
    cases hopen
  · cases o with
    | passed => exact congrArg Prod.snd hline
    | _ => exact absurd (congrArg Prod.fst hline) nofun

/-- A PASSED line falls apart into what it says about hosts, cpusets and GPUs. -/
lemma passedText_inj (hitems : HasItemNames bindings) (hitems' : HasItemNames others)
    {gpus gpus' : String} (h : passedText bindings gpus = passedText others gpus') :
    hostList bindings = hostList others ∧
      bindings.map (·.cores) = others.map (·.cores) ∧ gpus = gpus' := by
  have hchars := congrArg String.toList h
  simp only [passedText, String.toList_append, List.append_assoc, toList_hostsShown,
    toList_coresShown] at hchars
  have hmark : Separable '\x7d' IsItem String.toList := Text.separable_items (by decide)
  obtain ⟨hhosts, hrest⟩ := hmark.literal_append_inj (by decide) (isItem_of_mem_hostList hitems)
    (isItem_of_mem_hostList hitems') hchars
  obtain ⟨hcores, hgpus⟩ := separable_coreSet.literal_append_inj (by decide)
    (fun _ _ => trivial) (fun _ _ => trivial) (List.append_cancel_left hrest)
  refine ⟨hhosts, ?_, String.toList_inj.1 (List.append_cancel_left hgpus)⟩
  apply SortedSet.toList_injective.list_map
  rw [List.map_map, List.map_map]
  exact hcores

lemma gpusShown_inj (hitems : HasItemNames bindings) (hitems' : HasItemNames others)
    (h : gpusShown bindings = gpusShown others) : bindings.map (·.gpus) = others.map (·.gpus) := by
  have hchars := congrArg String.toList h
  rw [toList_gpusShown, toList_gpusShown] at hchars
  rw [← List.append_nil (literal '[' ']' gpuList (bindings.map (·.gpus))),
    ← List.append_nil (literal '[' ']' gpuList (others.map (·.gpus)))] at hchars
  exact (separable_gpuList.literal_append_inj (by decide) (isItem_of_mem_gpus hitems)
    (isItem_of_mem_gpus hitems') hchars).1

/-- What two jobs have observed if they pass with the same line: the same set of hosts, as many
processes, the same cpuset at every rank, and the same GPUs at every rank if both jobs request
some. The names of hosts and GPUs must be items by themselves. -/
theorem observed_of_passed (hitems : HasItemNames bindings) (hitems' : HasItemNames others)
    (hpassed : (.passed, message) ∈ (classify bindings shape).lines)
    (hpassed' : (.passed, message) ∈ (classify others shape').lines) :
    (∀ host, (∃ b ∈ bindings, b.hostname = host) ↔ ∃ b ∈ others, b.hostname = host) ∧
    bindings.length = others.length ∧
    bindings.map (·.cores) = others.map (·.cores) ∧
    (0 < shape.gpus → 0 < shape'.gpus → bindings.map (·.gpus) = others.map (·.gpus)) := by
  have hmessage := passedText_eq_of_mem hpassed
  rw [passedText_eq_of_mem hpassed'] at hmessage
  obtain ⟨hhosts, hcores, hgpus⟩ := passedText_inj hitems' hitems hmessage
  refine ⟨fun host => ?_, ?_, hcores.symm, fun hrequested hrequested' => ?_⟩
  · have hmem := congrArg (host ∈ ·) hhosts
    simpa [hostList] using hmem.symm
  · simpa using congrArg List.length hcores.symm
  · rw [if_pos hrequested, if_pos hrequested'] at hgpus
    exact gpusShown_inj hitems hitems' hgpus.symm

/-- Two processes, of which the second may run nowhere. -/
def ranked : List Binding :=
  [⟨"b", .ofList [1, 0], ["x"]⟩, ⟨"a", .empty, ["y", "z"]⟩]

/-- The same processes, each on the host of the other one. -/
def exchanged : List Binding :=
  [⟨"a", .ofList [0, 1], ["x"]⟩, ⟨"b", .empty, ["y", "z"]⟩]

/-- Which process runs on which host is not in the line, what each of them may use is. -/
theorem observed_of_passed_exchanged :
    HasItemNames ranked ∧ HasItemNames exchanged ∧
    (.passed, "\x7ba, b\x7d [\x7b0, 1\x7d, \x7b\x7d] [[x], [y, z]]") ∈
      (classify ranked ⟨2, 0, 2, 1, .nvidia⟩).lines ∧
    (.passed, "\x7ba, b\x7d [\x7b0, 1\x7d, \x7b\x7d] [[x], [y, z]]") ∈
      (classify exchanged ⟨2, 0, 1, 1, .amd⟩).lines ∧
    ranked.map (·.cores) = exchanged.map (·.cores) ∧
    ranked.map (·.gpus) = exchanged.map (·.gpus) := by
  have hitems : HasItemNames ranked := by decide
  have hitems' : HasItemNames exchanged := by decide
  have hpassed : (.passed, "\x7ba, b\x7d [\x7b0, 1\x7d, \x7b\x7d] [[x], [y, z]]") ∈
      (classify ranked ⟨2, 0, 2, 1, .nvidia⟩).lines := by decide +kernel
  have hpassed' : (.passed, "\x7ba, b\x7d [\x7b0, 1\x7d, \x7b\x7d] [[x], [y, z]]") ∈
      (classify exchanged ⟨2, 0, 1, 1, .amd⟩).lines := by decide +kernel
  obtain ⟨-, -, hcores, hgpus⟩ := observed_of_passed hitems hitems' hpassed hpassed'
  exact ⟨hitems, hitems', hpassed, hpassed', hcores, hgpus (by decide) (by decide)⟩

end Verdict

end JobBinding

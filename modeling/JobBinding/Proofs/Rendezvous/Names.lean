import JobBinding.Proofs.Rendezvous.Place
import JobBinding.Proofs.Summary.Report
import JobBinding.Proofs.Text.Runs

/-!
# The names of rendezvous files

The file of a job and its draft are entries of the directory that the processes share, whatever the
key of the job is: a replaced key has no slash, and what stands around it keeps the names from
leading elsewhere. They are told apart by the ends and the dots of their names. The name of a
scenario has no dot, so the first dot after it ends it, and the rest of the name tells the replaced
key (`fileName_eq_iff`). A file ends in `json`, its draft in `tmp` and a report in `out`, so none of
them takes the place of another kind (`files_apart`).
-/

namespace JobBinding

/-- A path whose name has another extension leads to no report. -/
lemma Summary.isReport_join_eq_false {name : String} {stem extension : List Char}
    (hname : Path.IsName name) (hdivide : Path.divideName name.toList = (stem, some extension))
    (hextension : extension ≠ "out".toList) (directory : String) :
    isReport (Path.join directory name) = false := by
  rw [Bool.eq_false_iff]
  intro h
  obtain ⟨s, hs⟩ := isReport_iff.1 h
  rw [Path.fileName?_join hname, Option.some.injEq] at hs
  rw [hs, s.divideName_product] at hdivide
  cases hdivide
  exact hextension rfl

namespace Rendezvous

variable {r : Rendezvous} {directory : String} {s s' : Scenario} {job job' : String}

/-! ## Replaced keys -/

lemma isPlain_underscore : isPlain '_' = true := by
  decide

/-- Replacing characters leaves as many as there were. -/
lemma length_sanitize (job : String) : (sanitize job).length = job.length := by
  rw [sanitize, ← String.length_toList, String.toList_ofList, List.length_map, String.length_toList]

/-- In a replaced key there is nothing left to replace. -/
lemma sanitize_sanitize (job : String) : sanitize (sanitize job) = sanitize job := by
  unfold sanitize
  rw [String.toList_ofList, List.map_map]
  congr 2
  funext c
  by_cases hc : isPlain c = true
  · simp [hc]
  · simp [hc, isPlain_underscore]

/-! ## The name of the file and of its draft -/

/-- The meeting point of the processes of a job that validates a scenario. -/
def ofScenario (directory : String) (s : Scenario) (job : String) : Rendezvous :=
  ⟨directory, s.name, job⟩

/-- The name of the file without its extension. -/
def stem (r : Rendezvous) : String :=
  "." ++ r.action ++ "." ++ sanitize r.job ++ ".rendezvous"

lemma fileName_eq (r : Rendezvous) : r.fileName = r.stem ++ ".json" := by
  have hending : ".rendezvous.json" = ".rendezvous" ++ ".json" := rfl
  rw [fileName, stem, hending, ← String.append_assoc]

lemma isTail_fileName (h : '/' ∉ r.action.toList) : Path.IsTail r.fileName where
  slash_notMem := by
    simp only [fileName, String.toList_append, List.mem_append, not_or]
    exact ⟨⟨⟨⟨by decide, h⟩, by decide⟩, slash_notMem_sanitize r.job⟩, by decide⟩
  two_lt_length := by
    have hending : ".rendezvous.json".toList.length = 16 := rfl
    rw [fileName, String.toList_append, List.length_append]
    omega

lemma isTail_draftName (h : '/' ∉ r.action.toList) : Path.IsTail (r.fileName ++ ".tmp") where
  slash_notMem := by
    rw [String.toList_append, List.mem_append, not_or]
    exact ⟨(isTail_fileName h).slash_notMem, by decide⟩
  two_lt_length := by
    have := (isTail_fileName h).two_lt_length
    rw [String.toList_append, List.length_append]
    omega

lemma slash_notMem_action (directory : String) (s : Scenario) (job : String) :
    '/' ∉ (ofScenario directory s job).action.toList :=
  s.slash_notMem_name

lemma isName_fileName (directory : String) (s : Scenario) (job : String) :
    Path.IsName (ofScenario directory s job).fileName :=
  (isTail_fileName (slash_notMem_action directory s job)).isName

lemma isName_draftName (directory : String) (s : Scenario) (job : String) :
    Path.IsName ((ofScenario directory s job).fileName ++ ".tmp") :=
  (isTail_draftName (slash_notMem_action directory s job)).isName

lemma draft_ofScenario (directory : String) (s : Scenario) (job : String) :
    (ofScenario directory s job).draft =
      Path.join directory ((ofScenario directory s job).fileName ++ ".tmp") :=
  Path.join_append (isName_fileName directory s job).ne_empty _ _

lemma divideName_fileName (r : Rendezvous) :
    Path.divideName r.fileName.toList = (r.stem.toList, some "json".toList) := by
  refine Path.divideName_eq_some_iff.2 ⟨?_, ?_, by decide⟩
  · rw [fileName_eq, String.toList_append]
    rfl
  · simp [stem]

lemma divideName_draftName (r : Rendezvous) :
    Path.divideName (r.fileName ++ ".tmp").toList = (r.fileName.toList, some "tmp".toList) := by
  refine Path.divideName_eq_some_iff.2 ⟨?_, ?_, by decide⟩
  · rw [String.toList_append]
    rfl
  · simp [fileName]

/-- A name tells the scenario and the replaced key. -/
lemma fileName_eq_iff :
    (ofScenario directory s job).fileName = (ofScenario directory s' job').fileName ↔
      s = s' ∧ sanitize job = sanitize job' := by
  constructor
  · intro h
    have hparts : s.name.toList ++ '.' :: (ofScenario directory s job).tail.toList =
        s'.name.toList ++ '.' :: (ofScenario directory s' job').tail.toList := by
      have hlists := congrArg String.toList h
      simpa [fileName, tail, ofScenario] using hlists
    obtain ⟨hname, htail⟩ := Text.append_cons_inj s.dot_notMem_name s'.dot_notMem_name hparts
    have hscenario : s = s' := Scenario.name_injective (String.toList_inj.1 hname)
    have hkey : sanitize (ofScenario directory s job).job =
        sanitize (ofScenario directory s' job').job := tail_eq_iff.1 (String.toList_inj.1 htail)
    exact ⟨hscenario, hkey⟩
  · rintro ⟨rfl, hkey⟩
    simp only [fileName, ofScenario, hkey]

/-- The name of a draft is not the name of a file. -/
lemma draftName_ne_fileName (r other : Rendezvous) : r.fileName ++ ".tmp" ≠ other.fileName := by
  intro h
  have hdivide := r.divideName_draftName
  rw [h, divideName_fileName] at hdivide
  exact absurd hdivide (by simp)

lemma fileName?_path (directory : String) (s : Scenario) (job : String) :
    Path.fileName? (ofScenario directory s job).path =
      some (ofScenario directory s job).fileName :=
  Path.fileName?_join (isName_fileName directory s job) _

lemma fileName?_draft (directory : String) (s : Scenario) (job : String) :
    Path.fileName? (ofScenario directory s job).draft =
      some ((ofScenario directory s job).fileName ++ ".tmp") := by
  rw [draft_ofScenario]
  exact Path.fileName?_join (isName_draftName directory s job) _

/-! ## Files of one directory -/

/-- The files of all scenarios and jobs in one directory.

The file and the draft are entries of the directory, whatever the key of the job is. Two files are
one exactly if the scenario and the replaced key are the same, be they compared by their paths or by
where these lead. The draft has the name of the file with another extension; it is the file of no
scenario and job, in whatever directory, and two drafts are one exactly if the files are. None of
them is taken for a report. Replacing leaves the number of characters, and leaves nothing to
replace. -/
theorem files_apart (directory : String) (s s' : Scenario) (job job' : String) :
    (Path.IsChild directory (ofScenario directory s job).path ∧
      Path.IsChild directory (ofScenario directory s job).draft) ∧
    ((ofScenario directory s job).path = (ofScenario directory s' job').path ↔
      s = s' ∧ sanitize job = sanitize job') ∧
    (Route.ofPath (ofScenario directory s job).path =
        Route.ofPath (ofScenario directory s' job').path ↔
      s = s' ∧ sanitize job = sanitize job') ∧
    (∃ stem, Path.divideName (ofScenario directory s job).fileName.toList =
        (stem, some "json".toList) ∧
      (ofScenario directory s job).draft =
        Path.join directory (String.ofList stem ++ ".json.tmp")) ∧
    (∀ directory', Route.ofPath (ofScenario directory s job).draft ≠
      Route.ofPath (ofScenario directory' s' job').path) ∧
    ((ofScenario directory s job).draft = (ofScenario directory s' job').draft ↔
      (ofScenario directory s job).path = (ofScenario directory s' job').path) ∧
    (Route.ofPath (ofScenario directory s job).draft =
        Route.ofPath (ofScenario directory s' job').draft ↔
      Route.ofPath (ofScenario directory s job).path =
        Route.ofPath (ofScenario directory s' job').path) ∧
    (Summary.isReport (ofScenario directory s job).path = false ∧
      Summary.isReport (ofScenario directory s job).draft = false) ∧
    (sanitize job).length = job.length ∧ sanitize (sanitize job) = sanitize job := by
  have hfile := isName_fileName directory s job
  have hfile' := isName_fileName directory s' job'
  have hdraft := isName_draftName directory s job
  have hdraft' := isName_draftName directory s' job'
  -- The draft is named after the file, so every statement on two drafts is one on two files.
  have hdrafts : (ofScenario directory s job).fileName ++ ".tmp" =
      (ofScenario directory s' job').fileName ++ ".tmp" ↔
        (ofScenario directory s job).fileName = (ofScenario directory s' job').fileName :=
    String.append_left_inj ".tmp"
  have hpath : (ofScenario directory s job).path =
      Path.join directory (ofScenario directory s job).fileName := rfl
  have hpath' : (ofScenario directory s' job').path =
      Path.join directory (ofScenario directory s' job').fileName := rfl
  -- All paths are a name joined to a directory, so they are compared by their names.
  refine ⟨⟨?_, ?_⟩, ?_, ?_, ⟨_, divideName_fileName _, ?_⟩, fun directory' hroute => ?_, ?_, ?_,
    ⟨?_, ?_⟩, length_sanitize job, sanitize_sanitize job⟩
  · exact Path.isChild_join hfile directory
  · rw [draft_ofScenario]
    exact Path.isChild_join hdraft directory
  · rw [hpath, hpath', Path.join_inj hfile hfile', fileName_eq_iff]
  · rw [hpath, hpath', Path.ofPath_join_inj hfile hfile', fileName_eq_iff]
  · have hending : ".json.tmp" = ".json" ++ ".tmp" := rfl
    rw [draft_ofScenario, fileName_eq, String.ofList_toList, hending, String.append_assoc]
  · -- Both routes end by entering a name, and the names differ.
    have hnames : Path.fileName? (ofScenario directory s job).draft =
        Path.fileName? (ofScenario directory' s' job').path := by
      rw [Path.fileName?, Path.fileName?, hroute]
    rw [fileName?_draft, fileName?_path, Option.some.injEq] at hnames
    exact draftName_ne_fileName _ _ hnames
  · rw [draft_ofScenario, draft_ofScenario, Path.join_inj hdraft hdraft', hdrafts, hpath, hpath',
      Path.join_inj hfile hfile']
  · rw [draft_ofScenario, draft_ofScenario, Path.ofPath_join_inj hdraft hdraft', hdrafts, hpath,
      hpath', Path.ofPath_join_inj hfile hfile']
  · exact Summary.isReport_join_eq_false hfile (divideName_fileName _) (by decide) _
  · rw [draft_ofScenario]
    exact Summary.isReport_join_eq_false hdraft (divideName_draftName _) (by decide) _

end Rendezvous

end JobBinding

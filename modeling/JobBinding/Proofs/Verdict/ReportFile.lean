import JobBinding.Proofs.Files.Proper
import JobBinding.Proofs.Text.Utf8
import JobBinding.Verdict.ReportFile

/-!
# Reports are what was written

After a verdict was written, its text is the content of the file at the report's path, whatever
was there before. Besides there may be new directories (`run_write_eq_ok_iff`). If writing fails,
new directories are all that it leaves (`addsDirectories_of_run_write`).
-/

namespace JobBinding.ReportFile

variable {file : ReportFile} {verdict : Verdict} {tree after : FileTree}

theorem node?_of_run_write (h : (file.write verdict).run tree = .ok () after) :
    after.node? file.path = some (.file (Text.Utf8.encode verdict.text)) := by
  rw [write, Files.run_bind] at h
  split at h
  · exact Files.node?_of_run_write h
  · cases h

/-- What writing a report leaves: directories that were missing, and the text. -/
lemma run_write_eq_ok_iff :
    (file.write verdict).run tree = .ok () after ↔
      ∃ made place, (Files.makeDirectories file.directory).run tree = .ok () made ∧
        made.locate file.path = .ok place ∧ made.get? place ≠ some .directory ∧
        after = made.put place (.file (Text.Utf8.encode verdict.text)) := by
  rw [write, Files.run_bind_eq_ok_iff]
  constructor
  · rintro ⟨⟨⟩, made, hmade, hwrite⟩
    rw [Files.run_write] at hwrite
    cases hlocate : made.locate file.path with
    | error f =>
      rw [hlocate] at hwrite
      cases hwrite
    | ok place =>
      by_cases hplace : made.get? place = some .directory
      · simp only [hlocate, if_pos hplace] at hwrite
        cases hwrite
      · simp only [hlocate, if_neg hplace] at hwrite
        cases hwrite
        exact ⟨made, place, hmade, hlocate, hplace, rfl⟩
  · rintro ⟨made, place, hmade, hlocate, hplace, rfl⟩
    refine ⟨(), made, hmade, ?_⟩
    simp only [Files.run_write, hlocate, if_neg hplace]

/-- A report is not written if its directory cannot be made, or if it cannot be written there. -/
lemma run_write_eq_error_iff {e : Failure} :
    (file.write verdict).run tree = .error e after ↔
      (Files.makeDirectories file.directory).run tree = .error e after ∨
        (Files.makeDirectories file.directory).run tree = .ok () after ∧
          (Files.write file.path verdict.text).run after = .error e after := by
  rw [write, Files.run_bind_eq_error_iff]
  refine or_congr_right ⟨?_, fun ⟨hmade, hwrite⟩ => ⟨(), after, hmade, hwrite⟩⟩
  rintro ⟨⟨⟩, made, hmade, hwrite⟩
  obtain rfl := Files.eq_of_run_write_error hwrite
  exact ⟨hmade, hwrite⟩

lemma addsDirectories_of_run_write {e : Failure}
    (h : (file.write verdict).run tree = .error e after) : tree.AddsDirectories after := by
  have hmake := Files.addsDirectories_makeDirectories file.directory tree
  unfold Files.after at hmake
  rcases run_write_eq_error_iff.1 h with hmade | ⟨hmade, -⟩
  · rwa [hmade] at hmake
  · rwa [hmade] at hmake

/-- The text of the report that is at a place. -/
def text? (file : ReportFile) (tree : FileTree) : Option String :=
  match tree.node? file.path with
  | some (.file content) => Text.Utf8.decode? content
  | _ => none

lemma text?_of_run_write (h : (file.write verdict).run tree = .ok () after) :
    file.text? after = some verdict.text := by
  have hnode := node?_of_run_write h
  unfold text?
  rw [hnode]
  exact Text.Utf8.decode?_encode verdict.text

end JobBinding.ReportFile

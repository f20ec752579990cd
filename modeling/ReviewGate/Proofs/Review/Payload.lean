import ReviewGate.Proofs.Text.Lines
import ReviewGate.Review.Payload
import ReviewGate.Scan

/-! The texts of a review are stored as they are: they have no carriage return, and the short ones no
blanks around them. The comments have the paths of the files that were scanned. -/
namespace ReviewGate

namespace Verdict

theorem strip_name (v : Verdict) : Text.strip v.name = v.name := by
  cases v <;> exact Text.strip_ofList (by decide)

/-- A verdict is read back from its name. -/
theorem ofText_name (v : Verdict) : ofText? v.name = some v := by
  rw [ofText?, strip_name]
  cases v <;> decide

/-- The line with the name of a verdict is read as the name. -/
theorem strip_line (v : Verdict) : Text.strip (Text.unified (v.name ++ "\n")) = v.name := by
  rw [Text.strip_unified_line]
  cases v <;> exact Text.strip_unified_ofList (by decide) (by decide)

end Verdict

namespace Summary

/-- No line for a category is broken, neither by a line feed nor by a carriage return. -/
theorem break_not_mem_bullet {b : Char} (hb : b = '\n' ∨ b = '\r') (c : Category) :
    b ∉ (bullet c).toList := by
  rcases hb with rfl | rfl
  all_goals
    cases c with
    | stepTwoBlock => exact Text.not_mem_ofList (by decide)
    | _ => exact Text.not_mem_append (Text.not_mem_ofList (by decide)) (Text.not_mem_ofList (by decide))

theorem break_not_mem_issueLines {b : Char} (hb : b = '\n' ∨ b = '\r') (r : AnalysisResult) {line : String}
    (hline : line ∈ issueLines r) : b ∉ line.toList := by
  have hbullet := break_not_mem_bullet hb
  simp only [issueLines, List.mem_append, List.mem_cons, List.not_mem_nil, or_false, List.mem_map] at hline
  rcases hb with rfl | rfl
  all_goals
    rcases hline with ((rfl | rfl | rfl) | ⟨c, -, rfl⟩) | rfl | rfl
    · exact Text.not_mem_ofList (by decide)
    · exact Text.not_mem_ofList (by decide)
    · exact Text.not_mem_ofList (by decide)
    · exact hbullet c
    · exact Text.not_mem_ofList (by decide)
    · exact Text.not_mem_append (Text.not_mem_ofList (by decide)) (Text.not_mem_ofList (by decide))

theorem return_not_mem_issues (r : AnalysisResult) : '\r' ∉ (issues r).toList := by
  have hfeed : '\r' ∉ "\n".toList := Text.not_mem_ofList (by decide)
  have hlines : ∀ line ∈ issueLines r, '\r' ∉ line.toList := fun line =>
    break_not_mem_issueLines (Or.inr rfl) r
  exact Text.not_mem_append (Text.not_mem_join hfeed hlines) hfeed

theorem return_not_mem_approvalSummary : '\r' ∉ approvalSummary.toList :=
  Text.not_mem_append (Text.not_mem_append (Text.not_mem_ofList (by decide))
    (Text.not_mem_ofList (by decide))) (Text.not_mem_ofList (by decide))

end Summary

namespace AnalysisResult

/-- The summary of a result is read as it was written. -/
theorem unified_longSummary (r : AnalysisResult) :
    Text.unified r.payload.longSummary = r.payload.longSummary := by
  refine Text.unified_eq_self ?_
  unfold payload
  split
  · exact Summary.return_not_mem_issues r
  · exact Summary.return_not_mem_approvalSummary

/-- No review is without a summary. -/
theorem longSummary_ne_empty (r : AnalysisResult) : r.payload.longSummary ≠ "" := by
  rw [AnalysisResult.payload]
  split_ifs
  · simp [Summary.issues, Summary.ofLines]
  · simp [Summary.approvalSummary]

/-- The short text of a result is read as it was written. -/
theorem strip_shortBody (r : AnalysisResult) :
    Text.strip (Text.unified r.payload.shortBody) = r.payload.shortBody := by
  unfold payload
  split
  · exact Text.strip_unified_ofList (by decide) (by decide)
  · exact Text.strip_unified_ofList (by decide) (by decide)

theorem payload_verdict (r : AnalysisResult) :
    r.payload.verdict = if r.findings = [] then .approve else .requestChanges := by
  cases h : r.findings <;> simp [payload, hasIssues, h]

theorem payload_comments (r : AnalysisResult) : r.payload.comments = r.findings := by
  cases h : r.findings <;> simp [payload, hasIssues, h]

end AnalysisResult

/-- Whether the texts of a review are read as they were written. -/
structure Payload.IsTidy (p : Payload) : Prop where
  body : Text.strip (Text.unified p.shortBody) = p.shortBody
  message : Text.unified p.longSummary = p.longSummary

theorem AnalysisResult.payload_isTidy (r : AnalysisResult) : r.payload.IsTidy :=
  ⟨r.strip_shortBody, r.unified_longSummary⟩

theorem Payload.failingTests_isTidy : failingTests.IsTidy where
  body := Text.strip_unified_ofList (by decide) (by decide)
  message := by
    have hfeed : '\r' ∉ "\n".toList := Text.not_mem_ofList (by decide)
    refine Text.unified_eq_self (Text.not_mem_append (Text.not_mem_join hfeed fun line hline => ?_) hfeed)
    revert line
    decide +kernel

/-! ### The findings of a scan -/

theorem path_of_mem_scan {rules : List Rule} {file : ChangedFile} {f : Finding}
    (h : f ∈ scan rules file) : f.path = file.path := by
  simp only [scan, Rule.scan, List.mem_flatMap, List.mem_filterMap] at h
  obtain ⟨rule, -, line, -, hfinding⟩ := h
  unfold Rule.findingAt at hfinding
  split at hfinding
  · cases hfinding
    rfl
  · cases hfinding

theorem aggregate_findings (rules : List Rule) (files : List ChangedFile) :
    (aggregate rules files).findings = files.flatMap (scan rules) := by
  simp [aggregate, AnalysisResult.ofScans, scanEach, List.flatMap_map]

theorem path_given_of_mem_aggregate {rules : List Rule} {files : List ChangedFile} {f : Finding}
    (h : f ∈ (aggregate rules files).findings) : Text.isBlankText f.path = false := by
  rw [aggregate_findings, List.mem_flatMap] at h
  obtain ⟨file, -, hf⟩ := h
  rw [path_of_mem_scan hf]
  exact file.path_given

end ReviewGate

import ReviewGate.Proofs.Review.Payload
import ReviewGate.Proofs.Scan

/-! How the review of files depends on their order. Findings come in blocks, one for each file, which are in
the order of the files. All that is said about the findings together does not depend on that order. -/
namespace ReviewGate

namespace AnalysisResult

variable {r r' : AnalysisResult}

theorem flags_eq_of_perm (h : r'.findings.Perm r.findings) : r'.flags = r.flags :=
  funext fun _ => h.any_eq

theorem hasIssues_eq_of_perm (h : r'.findings.Perm r.findings) : r'.hasIssues = r.hasIssues := by
  rw [hasIssues, hasIssues, h.isEmpty_eq]

theorem issues_eq_of_perm (h : r'.findings.Perm r.findings) : Summary.issues r' = Summary.issues r := by
  rw [Summary.issues, Summary.issueLines, flags_eq_of_perm h, Summary.issues, Summary.issueLines]

/-- The flags for other programs do not depend on the order of the findings. -/
theorem flagsText_eq_of_perm (h : r'.findings.Perm r.findings) : Summary.flags r' = Summary.flags r := by
  rw [Summary.flags, Summary.flagLines, hasIssues_eq_of_perm h, flags_eq_of_perm h, Summary.flags,
    Summary.flagLines]

/-- Neither do the verdict and the texts of a review. -/
theorem payload_eq_of_perm (h : r'.findings.Perm r.findings) :
    r'.payload.verdict = r.payload.verdict ∧ r'.payload.shortBody = r.payload.shortBody ∧
      r'.payload.longSummary = r.payload.longSummary := by
  unfold payload
  rw [hasIssues_eq_of_perm h]
  split_ifs
  · exact ⟨rfl, rfl, issues_eq_of_perm h⟩
  · exact ⟨rfl, rfl, rfl⟩

end AnalysisResult

theorem aggregate_append (rules : List Rule) (xs ys : List ChangedFile) :
    (aggregate rules (xs ++ ys)).findings =
      (aggregate rules xs).findings ++ (aggregate rules ys).findings := by
  simp only [aggregate_findings, List.flatMap_append]

theorem aggregate_filesScanned (rules : List Rule) (files : List ChangedFile) :
    (aggregate rules files).filesScanned = files.length := by
  simp [aggregate, AnalysisResult.ofScans, scanEach]

/-- The comments of a review are those of the files, block by block. -/
theorem aggregate_comments (rules : List Rule) (files : List ChangedFile) :
    (aggregate rules files).payload.comments = (files.map (scan rules)).flatten := by
  rw [AnalysisResult.payload_comments, aggregate_findings, List.flatMap_def]

/-- Findings in two lists of files are those in the one list followed by those in the other, whoever scans
them in whatever turns. In another order, the files have the same verdict, texts and flags, and the blocks
of their comments are in that order. -/
theorem Crew.aggregate_splits (c c₁ c₂ : Crew) (rules : List Rule) (xs ys : List ChangedFile) :
    (c.aggregate rules (xs ++ ys)).findings =
        (c₁.aggregate rules xs).findings ++ (c₂.aggregate rules ys).findings ∧
      (c.aggregate rules (xs ++ ys)).filesScanned =
        (c₁.aggregate rules xs).filesScanned + (c₂.aggregate rules ys).filesScanned ∧
      ∀ zs : List ChangedFile, zs.Perm xs →
        (c₂.aggregate rules zs).payload.verdict = (c₁.aggregate rules xs).payload.verdict ∧
        (c₂.aggregate rules zs).payload.shortBody = (c₁.aggregate rules xs).payload.shortBody ∧
        (c₂.aggregate rules zs).payload.longSummary = (c₁.aggregate rules xs).payload.longSummary ∧
        Summary.flags (c₂.aggregate rules zs) = Summary.flags (c₁.aggregate rules xs) ∧
        (c₁.aggregate rules xs).payload.comments = (xs.map (scan rules)).flatten ∧
        (c₂.aggregate rules zs).payload.comments = (zs.map (scan rules)).flatten ∧
        (zs.map (scan rules)).Perm (xs.map (scan rules)) := by
  simp only [Crew.aggregate_eq, aggregate_append, aggregate_filesScanned, List.length_append,
    aggregate_comments, true_and]
  intro zs hperm
  have hblocks : (zs.map (scan rules)).Perm (xs.map (scan rules)) := hperm.map _
  have hfindings : (ReviewGate.aggregate rules zs).findings.Perm
      (ReviewGate.aggregate rules xs).findings := by
    rw [aggregate_findings, aggregate_findings]
    exact hperm.flatMap_right _
  obtain ⟨hverdict, hshort, hlong⟩ := AnalysisResult.payload_eq_of_perm hfindings
  exact ⟨hverdict, hshort, hlong, AnalysisResult.flagsText_eq_of_perm hfindings, hblocks⟩

/-- A file in which an attempt is disabled. -/
def disabledTry : ChangedFile := ⟨"Try.cs", ["// try"], rfl⟩

/-- A file in which a validation is disabled. -/
def disabledValidation : ChangedFile := ⟨"Rule.cs", ["", "// validator.Validate(order);"], rfl⟩

/-- Two workers, of whom the second one is done first. -/
def overtaking : Crew := ⟨2, [.taken, .taken, .done 1, .done 0]⟩

theorem Crew.aggregate_splits_overtaken :
    (overtaking.aggregate lineRules [disabledValidation, disabledTry]).payload.longSummary =
        (Crew.aggregate ⟨1, []⟩ lineRules [disabledTry, disabledValidation]).payload.longSummary ∧
      (overtaking.aggregate lineRules [disabledValidation, disabledTry]).payload.verdict =
        .requestChanges ∧
      (overtaking.aggregate lineRules [disabledValidation, disabledTry]).payload.comments.map
        Finding.path = ["Rule.cs", "Try.cs"] := by
  have hperm : [disabledValidation, disabledTry].Perm [disabledTry, disabledValidation] := .swap _ _ _
  obtain ⟨-, -, horder⟩ :=
    Crew.aggregate_splits ⟨4, []⟩ ⟨1, []⟩ overtaking lineRules [disabledTry, disabledValidation] []
  obtain ⟨hverdict, -, hlong, -, -, hcomments, -⟩ := horder _ hperm
  refine ⟨hlong, hverdict.trans (by decide +kernel), ?_⟩
  rw [hcomments]
  decide +kernel

end ReviewGate

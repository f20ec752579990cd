import ReviewGate.Review.Finding

/-! The outcome of an analysis: all findings, in the order of the files and of the rules within a
file. -/
namespace ReviewGate

/-- The findings in a number of files. -/
structure AnalysisResult where
  findings : List Finding
  filesScanned : Nat

namespace AnalysisResult

def make (findings : List Finding) (filesScanned : Int) : Except Refusal AnalysisResult :=
  if filesScanned < 0 then .error .negativeCount else .ok ⟨findings, filesScanned.toNat⟩

def hasIssues (r : AnalysisResult) : Bool :=
  !r.findings.isEmpty

/-- Whether some finding counts for a category. -/
def flags (r : AnalysisResult) (c : Category) : Bool :=
  r.findings.any fun f => f.category.flagged.contains c

/-- The categories that some finding counts for. -/
def categories (r : AnalysisResult) : List Category :=
  Category.all.filter r.flags

/-- The texts of a list without the later ones of each, in the order of the first ones. -/
def firstOnes : List String → List String
  | [] => []
  | s :: more => s :: (firstOnes more).filter (· != s)

/-- The files with findings, in the order of their first findings. -/
def filesWithIssues (r : AnalysisResult) : List String :=
  firstOnes (r.findings.map Finding.path)

/-- The findings of one category. -/
def ofCategory (r : AnalysisResult) (c : Category) : List Finding :=
  r.findings.filter fun f => f.category = c

end AnalysisResult

/-- How many findings there are of each category that has any, in the order of the first ones. -/
def summarize (findings : List Finding) : List (Category × Nat) :=
  findings.foldl (fun counts f => count f.category counts) []
where
  count (c : Category) : List (Category × Nat) → List (Category × Nat)
    | [] => [(c, 1)]
    | (d, n) :: counts => if d = c then (d, n + 1) :: counts else (d, n) :: count c counts

end ReviewGate

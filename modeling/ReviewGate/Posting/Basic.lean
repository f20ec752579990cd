import ReviewGate.Artifacts
import ReviewGate.Forge.Comments
import ReviewGate.Forge.Lookup
import ReviewGate.Forge.Reviews

/-! Posting: who posts, where, and what comes of it. -/
namespace ReviewGate

/-- A poster of reviews: how it talks to the forge, the repository, the marker by which it knows its
summaries again, and whether it replaces a summary by a new comment or changes the old one. -/
structure Poster where
  client : Forge.Client
  repository : Forge.Repository
  marker : Value
  recreate : Bool

namespace Poster

def source : String := "code_review_trainer.github.emitter"

def make (client : Forge.Client) (repository marker recreate : Value) : Except Fault Poster := do
  return ⟨client, ← Forge.Repository.ofValue repository, marker, recreate.isGiven⟩

end Poster

/-- Whether a review was posted, or its pull request was not found. -/
inductive PostingStatus where
  | posted
  | pullRequestNotFound
  deriving DecidableEq

namespace PostingStatus

def name : PostingStatus → String
  | posted => "posted"
  | pullRequestNotFound => "pr_not_found"

def ofName (s : String) : Except Refusal PostingStatus :=
  if s = posted.name then .ok posted
  else if s = pullRequestNotFound.name then .ok pullRequestNotFound
  else .error (.unknownStatus s)

end PostingStatus

/-- What came of posting a review: the number of the pull request, the verdict, how many comments went
with the review, whether the summary was posted too, and the number of the issue that was opened
instead. -/
structure Posting where
  status : PostingStatus
  number : Value
  verdict : Option Verdict
  comments : Nat
  hasSummary : Bool
  issue : Value

/-- A posting of which nothing more is known. -/
def Posting.bare (status : PostingStatus) (number : Value) : Posting :=
  ⟨status, number, none, 0, false, .null⟩

end ReviewGate

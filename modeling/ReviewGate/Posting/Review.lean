import ReviewGate.Posting.Summary

/-! Posting a stored review: the summary as a comment, the verdict as a review with comments on lines.
A summary that cannot be posted does not keep the review from being posted. If nobody knows the pull
request, an issue says so instead. -/
namespace ReviewGate.Poster

/-- The verdict of a stored review, which must be one of the two. -/
def verdictOf (text : String) : Job Verdict := do
  match Verdict.ofText? text with
  | some v => return v
  | none =>
    let fault := Fault.verdict text
    Job.log .error source fault.message
    throw fault

/-- The number of the pull request of a workflow run. -/
def resolve (p : Poster) (run : Option Int) : Job Value := do
  match run with
  | none => throw (.pullRequestNotFound .null)
  | some id =>
    match ← Job.catching Fault.isForge (p.client.findPullRequest p.repository (.int id)) with
    | .ok number => return number
    | .error e =>
      Job.log .warning source ("PR lookup failed: " ++ e.message)
      throw (.pullRequestNotFound (.int id))

def issueTitle : String := "Code Review Failed - PR Not Found"

/-- The text of the issue about a workflow run whose pull request nobody knows. -/
def issueBody (run : Option Int) (details : Option String) : String :=
  let link := details.getD ""
  "The \"Post PR Review\" workflow could not find an associated PR for workflow run #" ++
    (Value.ofOption .int run).text ++ ".\n\n" ++ "Please check the workflow logs for more details" ++
    (if link = "" then "." else ": " ++ link)

/-- Opens an issue about a workflow run: its number, or nothing if the forge does not take it. -/
def openIssue (p : Poster) (run : Option Int) (details : Option String) : Job Value := do
  let opening := p.client.openIssue p.repository issueTitle (issueBody run details)
  match ← Job.catching Fault.isForge opening with
  | .ok issue => Job.use (issue.get "number")
  | .error e =>
    Job.log .error source ("Error creating notification issue: " ++ e.message)
    return .null

/-- Posts the summary of a review if there is one, and says whether that was done. -/
def trySummary (p : Poster) (pull : Value) (message : Option String) : Job Bool := do
  let body := message.getD ""
  if body = "" then
    Job.log .warning source "No review message artifact, skipping sticky comment"
    return false
  else
    match ← Job.catching Fault.isForge (p.postSummary pull body) with
    | .ok _ => return true
    | .error e =>
      Job.log .warning source
        ("Failed to post sticky comment on #" ++ pull.text ++ ": " ++ e.message)
      return false

/-- Posts a review on a pull request. -/
def submit (p : Poster) (review : StoredReview) (verdict : Verdict) (pull : Value) : Job Posting := do
  let hasSummary ← p.trySummary pull review.message
  let comments := review.comments.map LineComment.posted
  let _ ← p.client.addReview p.repository pull verdict.name review.body comments
  Job.log .info source
    ("Successfully created PR review of type: " ++ verdict.name ++ " with " ++
      toString comments.length ++ " line comments")
  return ⟨.posted, pull, some verdict, comments.length, hasSummary, .null⟩

/-- The number of the pull request as far as it is known: the given one, unless it is zero, or the
stored one. -/
def knownNumber (given stored : Option Int) : Option Int :=
  match given with
  | some n => if n = 0 then stored else some n
  | none => stored

/-- Posts a stored review on the pull request with the given number, the stored one or that of the
workflow run. -/
def post (p : Poster) (review : StoredReview) (run number : Option Int) (details : Option String) :
    Job Posting := do
  let verdict ← verdictOf review.reviewType
  match knownNumber number review.pullRequest with
  | some n => p.submit review verdict (.int n)
  | none =>
    match ← Job.catching Fault.isUnresolved (p.resolve run) with
    | .ok pull => p.submit review verdict pull
    | .error e =>
      Job.log .warning source e.message
      let issue ← p.openIssue run details
      return ⟨.pullRequestNotFound, .null, some verdict, 0, false, issue⟩

end ReviewGate.Poster

import ReviewGate.Forge.Client

/-! Finding the pull request that a workflow run belongs to: by the branch of the run, then by its
commit. -/
namespace ReviewGate.Forge

/-- What the forge knows about a workflow run. -/
def Client.workflowRun (c : Client) (r : Repository) (run : Value) : Job Value := do
  Job.log .info source ("Fetching workflow run " ++ r.text ++ " #" ++ run.text)
  ask (c.requestFor r "GET" (.run run))

/-- The parameters of a listing of pull requests: their state and, if it is given, their branch. -/
def pullParameters (state : String) (head : Option String) : Value :=
  let branch :=
    match head with
    | some b => if b = "" then [] else [("head", Value.str b)]
    | none => []
  .record ([("state", .str state), ("per_page", .int pageSize)] ++ branch)

/-- The pull requests with a state and, if it is given, of a branch. -/
def Client.pullRequests (c : Client) (r : Repository) (state : String) (head : Option String) :
    Job Value :=
  ask { c.requestFor r "GET" .pulls with params := some (pullParameters state head) }

/-- The number of the first pull request of a listing, if it has one. -/
def firstNumber (pulls : Value) : Except Misuse (Option Value) :=
  if pulls.isGiven then do
    let number ← (← pulls.first).get "number"
    return if number.isGiven then some number else none
  else .ok none

/-- Whether a pull request ends with a commit. -/
def hasHead (commit pull : Value) : Except Misuse Bool := do
  let head ← pull.getOr "head" (.map [])
  return (← head.get "sha").same commit

/-- The number of the first pull request that ends with a commit. -/
def numberOfCommit (commit : Value) : List Value → Except Misuse (Option Value)
  | [] => .ok none
  | pull :: more => do
    if ← hasHead commit pull then return some (← pull.field "number")
    else numberOfCommit commit more

/-- Looks for an open pull request of a branch. -/
def Client.findByBranch (c : Client) (r : Repository) (branch : Value) : Job (Option Value) := do
  if branch.isGiven then
    let pulls ← c.pullRequests r "open" (some (r.owner ++ ":" ++ branch.text))
    Job.use (firstNumber pulls)
  else return none

/-- Looks for a pull request of any state that ends with a commit. -/
def Client.findByCommit (c : Client) (r : Repository) (commit : Value) : Job (Option Value) := do
  if commit.isGiven then
    let pulls ← Job.use (← c.pullRequests r "all" none).items
    Job.use (numberOfCommit commit pulls)
  else return none

/-- The number that a search has found. -/
def found (number : Value) : Job Value := do
  Job.log .info source ("Found PR number: " ++ number.text)
  return number

/-- The number of the pull request that a workflow run belongs to. -/
def Client.findPullRequest (c : Client) (r : Repository) (run : Value) : Job Value := do
  Job.log .info source ("Looking for PR number in workflow run " ++ run.text)
  let description ← c.workflowRun r run
  let branch ← Job.use (description.get "head_branch")
  let commit ← Job.use (description.get "head_sha")
  Job.log .info source ("Head branch: " ++ branch.text)
  Job.log .info source ("Head SHA: " ++ commit.text)
  match ← c.findByBranch r branch with
  | some number => found number
  | none =>
    Job.log .info source "No open PR found for branch. Checking by commit SHA..."
    match ← c.findByCommit r commit with
    | some number => found number
    | none =>
      Job.log .warning source "Could not find PR number"
      throw (.pullRequestNotFound run)

end ReviewGate.Forge

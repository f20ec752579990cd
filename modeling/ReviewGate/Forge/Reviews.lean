import ReviewGate.Forge.Client

/-! Reviews of pull requests, and issues. -/
namespace ReviewGate.Forge

/-- A review in a request: its text, what it asks for, and comments on lines. -/
def reviewContent (event body : String) (comments : List Value) : Value :=
  .record [("body", .str body), ("event", .str event), ("comments", .list comments)]

/-- Adds a review to a pull request. -/
def Client.addReview (c : Client) (r : Repository) (pull : Value) (event body : String)
    (comments : List Value) : Job Value := do
  Job.log .info source
    ("Creating " ++ event ++ " review on " ++ r.text ++ "#" ++ pull.text ++ " with " ++
      toString comments.length ++ " line comments")
  ask { c.requestFor r "POST" (.reviews pull) with json := some (reviewContent event body comments) }

/-- Opens an issue. -/
def Client.openIssue (c : Client) (r : Repository) (title body : String) : Job Value := do
  Job.log .info source ("Creating issue on " ++ r.text ++ ": " ++ title)
  ask { c.requestFor r "POST" .issues with
    json := some (.record [("title", .str title), ("body", .str body)]) }

end ReviewGate.Forge

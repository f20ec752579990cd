import ReviewGate.Forge.Client

/-! Comments on issues and pull requests: listing them page by page, adding, changing and deleting
them. -/
namespace ReviewGate.Forge

/-- The request for a page of the comments on an issue. Pages are counted from one. -/
def Client.pageRequest (c : Client) (r : Repository) (issue : Value) (page : Nat) : Request :=
  { c.requestFor r "GET" (.comments issue) with
    params := some (.record [("page", .int page), ("per_page", .int pageSize)]) }

/-- The items of a page: a page that is not given has none. -/
def itemsOfPage (page : Value) : Except Misuse (List Value) :=
  if page.isGiven then page.items else .ok []

/-- The comments from a page on, up to the first page that is not full. Every page takes an answer from
the network, which is the one that is given, so that the listing ends with the network at the
latest. -/
def Client.commentsFrom (c : Client) (r : Repository) (issue : Value) :
    Network → Nat → Job (List Value)
  | .down, page => do
    let content ← ask (c.pageRequest r issue page)
    Job.use (itemsOfPage content)
  | .up _ next, page => do
    let content ← ask (c.pageRequest r issue page)
    let items ← Job.use (itemsOfPage content)
    if items.length < pageSize then return items
    else return items ++ (← commentsFrom c r issue (next (c.pageRequest r issue page)) (page + 1))

/-- All comments on an issue or pull request. -/
def Client.comments (c : Client) (r : Repository) (issue : Value) : Job (List Value) := do
  c.commentsFrom r issue (← get).network 1

/-- The content of a comment in a request. -/
def commentContent (body : String) : Value :=
  .record [("body", .str body)]

/-- Adds a comment to an issue or pull request. -/
def Client.addComment (c : Client) (r : Repository) (issue : Value) (body : String) : Job Value := do
  Job.log .info source ("Creating comment on " ++ r.text ++ "#" ++ issue.text)
  ask { c.requestFor r "POST" (.comments issue) with json := some (commentContent body) }

/-- Gives a comment another content. -/
def Client.changeComment (c : Client) (r : Repository) (id : Value) (body : String) : Job Value := do
  Job.log .info source ("Updating comment " ++ id.text ++ " on " ++ r.text)
  ask { c.requestFor r "PATCH" (.comment id) with json := some (commentContent body) }

def Client.deleteComment (c : Client) (r : Repository) (id : Value) : Job Unit := do
  Job.log .info source ("Deleting comment " ++ id.text ++ " on " ++ r.text)
  let _ ← send (c.requestFor r "DELETE" (.comment id))

end ReviewGate.Forge

import ReviewGate.Posting.Basic

/-! The summary of a review is one comment on the pull request, which a marker in it tells apart from
all others. A new summary takes the place of the old one. -/
namespace ReviewGate.Poster

/-- A summary as it is posted: without the blanks at its end, with the marker in a line of its own. -/
def marked (p : Poster) (body : String) : String :=
  Text.stripEnd body ++ "\n" ++ p.marker.text ++ "\n"

/-- Whether the marker is in a comment. -/
def hasMarker (marker comment : Value) : Except Misuse Bool := do
  let body ← comment.get "body"
  marker.isIn (if body.isGiven then body else .str "")

/-- The comments with the marker. -/
def summariesIn (marker : Value) : List Value → Except Misuse (List Value)
  | [] => .ok []
  | comment :: more => do
    let isSummary ← hasMarker marker comment
    let rest ← summariesIn marker more
    return if isSummary then comment :: rest else rest

/-- The summaries on a pull request. -/
def summaries (p : Poster) (pull : Value) : Job (List Value) := do
  let comments ← p.client.comments p.repository pull
  Job.use (summariesIn p.marker comments)

/-- Deletes comments one after the other. -/
def deleteComments (p : Poster) : List Value → Job Unit
  | [] => pure ()
  | comment :: more => do
    p.client.deleteComment p.repository (← Job.use (comment.field "id"))
    p.deleteComments more

/-- Posts a summary in the place of those that are there. -/
def postSummary (p : Poster) (pull : Value) (body : String) : Job Value := do
  match p.recreate, ← p.summaries pull with
  | false, old :: _ =>
    p.client.changeComment p.repository (← Job.use (old.field "id")) (p.marked body)
  | _, old =>
    p.deleteComments old
    p.client.addComment p.repository pull (p.marked body)

end ReviewGate.Poster

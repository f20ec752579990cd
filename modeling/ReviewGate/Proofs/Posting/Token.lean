import ReviewGate.Proofs.Action
import ReviewGate.Posting.Review

/-! The token of a client goes along with its requests and is no part of them: clients with different
tokens do the same, and so do posters. -/
namespace ReviewGate

namespace Forge.Client

def withToken (c : Client) (token : Value) : Client :=
  { c with token := token }

variable (c : Client) (token : Value) (r : Repository)

theorem pageRequest_withToken : (c.withToken token).pageRequest = c.pageRequest :=
  rfl

theorem commentsFrom_withToken (issue : Value) (network : Network) (page : Nat) :
    (c.withToken token).commentsFrom r issue network page = c.commentsFrom r issue network page := by
  induction network generalizing page with
  | down => rfl
  | up answer next ih => simp only [commentsFrom, pageRequest_withToken, ih]

theorem comments_withToken (issue : Value) :
    (c.withToken token).comments r issue = c.comments r issue := by
  simp only [comments, commentsFrom_withToken]

/-- Whether a client can be made depends on whether there is a token, and not on which one. -/
theorem make_withToken {t t' : Value} (h : t'.isGiven = t.isGiven) (baseUrl timeout : Value) :
    make t' baseUrl timeout = (make t baseUrl timeout).map (·.withToken t') := by
  rw [make, make, h]
  rcases t.isGiven with _ | _
  · rfl
  · rcases baseOf baseUrl with m | base <;> rfl

theorem connect_withToken {t t' : Value} (h : t'.isGiven = t.isGiven) (baseUrl timeout : Value) :
    connect t' baseUrl timeout = (·.withToken t') <$> connect t baseUrl timeout := by
  rw [connect, connect, make_withToken h]
  rcases make t baseUrl timeout with e | c <;> rfl

end Forge.Client

namespace Poster

def withToken (p : Poster) (token : Value) : Poster :=
  { p with client := p.client.withToken token }

variable (p : Poster) (token : Value)

theorem deleteComments_withToken (comments : List Value) :
    (p.withToken token).deleteComments comments = p.deleteComments comments := by
  induction comments with
  | nil => rfl
  | cons comment comments ih =>
    simp only [deleteComments, ih]
    rfl

theorem summaries_withToken (pull : Value) : (p.withToken token).summaries pull = p.summaries pull := by
  simp only [summaries, withToken, Forge.Client.comments_withToken]

theorem postSummary_withToken (pull : Value) (body : String) :
    (p.withToken token).postSummary pull body = p.postSummary pull body := by
  simp only [postSummary, summaries_withToken, deleteComments_withToken]
  rfl

theorem submit_withToken (review : StoredReview) (verdict : Verdict) (pull : Value) :
    (p.withToken token).submit review verdict pull = p.submit review verdict pull := by
  simp only [submit, trySummary, postSummary_withToken]
  rfl

/-- Posters with different tokens post in the same way. -/
theorem post_withToken (review : StoredReview) (run number : Option Int) (details : Option String) :
    (p.withToken token).post review run number details = p.post review run number details := by
  simp only [post, submit_withToken]
  rfl

theorem make_withToken (c : Forge.Client) (repository marker recreate : Value) :
    make (c.withToken token) repository marker recreate =
      (make c repository marker recreate).map (·.withToken token) := by
  rw [make, make]
  rcases Forge.Repository.ofValue repository with e | r <;> rfl

end Poster

end ReviewGate

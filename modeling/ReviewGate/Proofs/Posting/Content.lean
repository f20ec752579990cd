import ReviewGate.Proofs.Posting.Course

/-! What is in the requests of a posting: each review and each summary that is sent holds what is to be
posted, whatever the forge replies. -/
namespace ReviewGate

namespace Forge

/-! ### Reviews and summaries among requests -/

namespace Request

/-- Whether a request posts a review. -/
def IsReview (q : Request) : Prop :=
  q.method = "POST" ∧ "/reviews".toList <:+ q.url.toList

/-- Whether a request posts a comment or changes one. -/
def IsSummary (q : Request) : Prop :=
  q.method = "PATCH" ∨ (q.method = "POST" ∧ "/comments".toList <:+ q.url.toList)

/-- Whether a request has the given content if it is for a review or a summary. -/
structure Carries (review summary : Value) (q : Request) : Prop where
  review : q.IsReview → q.json = some review
  summary : q.IsSummary → q.json = some summary

end Request

theorem Client.ends_of_path {c : Client} {r : Repository} {method : String} {e : Endpoint}
    (before : String) {ending : String} (h : e.path = before ++ ending) :
    ending.toList <:+ (c.requestFor r method e).url.toList := by
  rw [c.requestFor_url, h, ← String.append_assoc, String.toList_append]
  exact List.suffix_append _ _

/-- No text has both of two endings of which the shorter one is not an ending of the longer one. -/
theorem ending_ne {cs short long : List Char} (hshort : short <:+ cs) (hlong : long <:+ cs)
    (hlength : short.length ≤ long.length) (hne : ¬ short <:+ long) : False :=
  hne (List.suffix_of_suffix_length_le hshort hlong hlength)

namespace Request

variable {review summary : Value} {c : Client} {r : Repository} {v : Value} {q : Request}

theorem carries_of_method (hpost : q.method ≠ "POST") (hpatch : q.method ≠ "PATCH") :
    q.Carries review summary where
  review h := absurd h.1 hpost
  summary h := h.elim (absurd · hpatch) (absurd ·.1 hpost)

theorem isReview_review (content : Option Value) :
    IsReview { c.requestFor r "POST" (.reviews v) with json := content } := by
  refine ⟨rfl, ?_⟩
  show "/reviews".toList <:+ (c.requestFor r "POST" (.reviews v)).url.toList
  exact Client.ends_of_path ("/pulls/" ++ v.text) rfl

theorem carries_review :
    Carries review summary { c.requestFor r "POST" (.reviews v) with json := some review } where
  review _ := rfl
  summary h := by
    rcases h with h | ⟨-, h⟩
    · exact absurd h (by simp)
    · exact (ending_ne (isReview_review (some review)).2 h (by decide) (by decide)).elim

theorem not_isReview_comment {content : Option Value} :
    ¬ IsReview { c.requestFor r "POST" (.comments v) with json := content } := by
  intro h
  have hcomments : "/comments".toList <:+ (c.requestFor r "POST" (.comments v)).url.toList :=
    Client.ends_of_path ("/issues/" ++ v.text) rfl
  exact ending_ne h.2 hcomments (by decide) (by decide)

theorem not_isReview_issue {content : Option Value} :
    ¬ IsReview { c.requestFor r "POST" .issues with json := content } := by
  intro h
  have hissues : "/issues".toList <:+ (c.requestFor r "POST" .issues).url.toList :=
    Client.ends_of_path "" rfl
  exact ending_ne hissues h.2 (by decide) (by decide)

theorem carries_comment :
    Carries review summary { c.requestFor r "POST" (.comments v) with json := some summary } where
  review h := absurd h not_isReview_comment
  summary _ := rfl

theorem carries_change :
    Carries review summary { c.requestFor r "PATCH" (.comment v) with json := some summary } where
  review h := absurd h.1 (by simp)
  summary _ := rfl

theorem carries_issue {content : Option Value} :
    Carries review summary { c.requestFor r "POST" .issues with json := content } where
  review h := absurd h not_isReview_issue
  summary h := by
    have hissues : "/issues".toList <:+ (c.requestFor r "POST" .issues).url.toList :=
      Client.ends_of_path "" rfl
    rcases h with h | ⟨-, h⟩
    · exact absurd h (by simp)
    · exact (ending_ne hissues h (by decide) (by decide)).elim

end Request

end Forge

namespace Poster

open Forge

variable {review summary : Value} {p : Poster} {q : Request}

theorem LooksUp.carries {run : Option Int} (h : p.LooksUp run q) : q.Carries review summary := by
  obtain ⟨id, -, hq⟩ := h
  cases hq <;> exact Request.carries_of_method (by simp) (by simp)

/-- A summary is posted as it is to be posted. -/
theorem Summarizes.carries {pull : Value} {body : String} (h : p.Summarizes pull body q) :
    q.Carries review (commentContent (p.marked body)) := by
  cases h with
  | page n =>
    exact Request.carries_of_method (by simp [Client.pageRequest]) (by simp [Client.pageRequest])
  | deletion id => exact Request.carries_of_method (by simp) (by simp)
  | change id => exact Request.carries_change
  | addition => exact Request.carries_comment

variable {stored : StoredReview} {verdict : Verdict} {run given : Option Int} {details : Option String}
  {s t : Runner} {posting : Posting}

/-- The content of the request for the summary of a stored review. -/
def summaryOf (p : Poster) (stored : StoredReview) : Value :=
  commentContent (p.marked (stored.message.getD ""))

theorem Needs.carries {IsTarget : Value → Prop} (h : p.Needs stored verdict run details IsTarget q) :
    q.Carries (reviewOf stored verdict) (p.summaryOf stored) := by
  cases h with
  | lookup hq => exact hq.carries
  | summary pull _ hq => exact hq.carries
  | review pull _ => exact Request.carries_review
  | issue => exact Request.carries_issue

/-- Whatever the forge replies, a stored review is posted as it is, and so is its summary. -/
theorem post_carries (p : Poster) (hverdict : Verdict.ofText? stored.reviewType = some verdict)
    (run given : Option Int) (details : Option String) :
    (p.post stored run given details).Asks (Request.Carries (reviewOf stored verdict)
      (p.summaryOf stored)) := by
  intro s
  rcases hpost : p.post stored run given details s with ⟨result, t⟩
  exact (post_ends hverdict hpost).asks.mono fun q hq => hq.carries

/-- A review has been posted only if the last request was for it. -/
theorem post_eq_ok (hverdict : Verdict.ofText? stored.reviewType = some verdict)
    (h : p.post stored run given details s = (.ok posting, t)) (hstatus : posting.status = .posted) :
    ∃ sent q, t.requests = s.requests ++ (sent ++ [q]) ∧ q.IsReview := by
  cases post_ends hverdict h with
  | submitted asked u pull _ hasked _ hends =>
    cases hends with
    | posted before v _ hbefore _ hreview =>
      have hsent := (hasked.trans hbefore).trans hreview
      exact ⟨asked ++ before, p.reviewRequest pull verdict stored, hsent.requests,
        Request.isReview_review _⟩
  | unresolved => cases hstatus

end Poster

end ReviewGate

import ReviewGate.Forge.Retry
import ReviewGate.Proofs.Posting.Content
import ReviewGate.Proofs.Posting.Summary

/-! What the summary means for the review. A review is posted after a summary that the forge has refused,
but not after one of which no sense could be made. -/
namespace ReviewGate.Poster

open Forge

/-- Whether a review is sent after a summary, or kept back because of the budget. -/
def GoesOn (p : Poster) (pull : Value) (verdict : Verdict) (review : StoredReview) (s : Runner)
    (result : Except Fault Posting) (t : Runner) : Prop :=
  s.Sends [p.reviewRequest pull verdict review] t ∨
    (s.budget.isLow s.now = true ∧ s.SameWires t ∧ ∃ reset, result = .error (.rateLimited reset))

variable {p : Poster} {pull : Value} {verdict : Verdict} {review : StoredReview} {s t u : Runner}

/-- How the summary ends where there is one. -/
theorem trySummary_exchange {message : Option String} {body : String} (hmessage : message = some body)
    (hbody : body ≠ "") {result : Except Fault Bool} (h : p.trySummary pull message s = (result, t)) :
    ∃ qs, s.Sends qs t ∧
      ((Legible p.marker (s.network.exchange qs) ∧ ∃ posted, result = .ok posted) ∨
        (¬ Legible p.marker (s.network.exchange qs) ∧
          ∃ e, result = .error e ∧ e.isForge = false)) := by
  subst hmessage
  simp only [trySummary, Option.getD_some, if_neg hbody] at h
  rcases hpost : p.postSummary pull body s with ⟨answer, u⟩
  obtain ⟨qs, hqs, hends⟩ := p.postSummary_exchange pull body hpost
  rw [Action.bind_run, Job.catching_run, hpost] at h
  cases hends with
  | done v hlegible =>
    cases h
    exact ⟨qs, hqs, Or.inl ⟨hlegible, true, rfl⟩⟩
  | refused e hlegible he =>
    simp only [he, if_true] at h
    obtain ⟨v, hwires, -, hdone⟩ := Job.log_bind h
    cases hdone
    exact ⟨qs, hqs.before hwires, Or.inl ⟨hlegible, false, rfl⟩⟩
  | stuck e hlegible he =>
    simp only [he, Bool.false_eq_true, if_false] at h
    cases h
    exact ⟨qs, hqs, Or.inr ⟨hlegible, e, rfl, he⟩⟩

/-- A review is sent unless the budget keeps it back. -/
theorem addReview_sends {event body : String} {comments : List Value} {c : Client} {r : Repository}
    {result : Except Fault Value} (h : c.addReview r pull event body comments s = (result, t)) :
    s.Sends [{ c.requestFor r "POST" (.reviews pull) with
        json := some (reviewContent event body comments) }] t ∨
      (s.budget.isLow s.now = true ∧ s.SameWires t ∧ ∃ reset, result = .error (.rateLimited reset)) := by
  obtain ⟨u, hwires, -, hask⟩ := Job.log_bind h
  cases ask_ends hask with
  | held reset hlow hwires' =>
    rw [hwires.budget, hwires.now] at hlow
    exact Or.inr ⟨hlow, hwires.trans hwires', reset, rfl⟩
  | accepted _ _ hsent => exact Or.inl (.after hwires hsent)
  | refused _ hsent => exact Or.inl (.after hwires hsent)
  | illegible _ hsent => exact Or.inl (.after hwires hsent)

/-- After the summary of a review the review itself is sent, or kept back because of the budget, if and
only if sense could be made of what came of the requests for the summary. If not, nothing more is
sent. -/
theorem post_goes_on_iff {run given : Option Int} {details : Option String} {n : Int} {body : String}
    {summary : Except Fault Bool} {result : Except Fault Posting}
    (hverdict : Verdict.ofText? review.reviewType = some verdict)
    (hnumber : knownNumber given review.pullRequest = some n)
    (hmessage : review.message = some body) (hbody : body ≠ "")
    (hsummary : p.trySummary (.int n) review.message s = (summary, u))
    (hpost : p.post review run given details s = (result, t)) :
    ∃ qs, s.Sends qs u ∧
      (Legible p.marker (s.network.exchange qs) ↔ p.GoesOn (.int n) verdict review u result t) ∧
      (¬ Legible p.marker (s.network.exchange qs) →
        t = u ∧ ∃ e, result = .error e ∧ e.isForge = false) := by
  obtain ⟨qs, hqs, hends⟩ := trySummary_exchange hmessage hbody hsummary
  rw [post_run hverdict hnumber, submit, Action.bind_run, hsummary] at hpost
  refine ⟨qs, hqs, ?_⟩
  rcases hends with ⟨hlegible, posted, rfl⟩ | ⟨hillegible, e, rfl, he⟩
  · refine ⟨iff_of_true hlegible ?_, fun h => absurd hlegible h⟩
    -- Only the budget stands between the summary and the review.
    rcases hreview : p.client.addReview p.repository (.int n) verdict.name review.body
      (review.comments.map LineComment.posted) u with ⟨answer, v⟩
    dsimp only at hpost
    rw [Action.bind_run, hreview] at hpost
    rcases answer with e | v
    · cases hpost
      rcases addReview_sends hreview with hsent | ⟨hlow, hwires, reset, he⟩
      · exact Or.inl hsent
      · cases he
        exact Or.inr ⟨hlow, hwires, reset, rfl⟩
    · obtain ⟨w, hwires, -, hdone⟩ := Job.log_bind hpost
      cases hdone
      rcases addReview_sends hreview with hsent | ⟨-, -, reset, he⟩
      · exact Or.inl (hsent.before hwires)
      · cases he
  · cases hpost
    refine ⟨iff_of_false hillegible ?_, fun _ => ⟨rfl, e, rfl, he⟩⟩
    -- Nothing more has been sent, and the fault is not the one that the budget raises.
    rintro (hsent | ⟨-, -, reset, h⟩)
    · simpa using congrArg List.length hsent.requests
    · cases h
      cases he

/-- A review with a comment, for a pull request that is known. -/
def knownReview : StoredReview where
  reviewType := "REQUEST_CHANGES"
  body := "Issues found."
  message := some "Missing null checks."
  comments := [⟨"src/Order.cs", 10, "Uncomment the null check.", rfl, Nat.succ_pos 9, rfl⟩]
  pullRequest := some 17

def examplePoster : Poster where
  client := ⟨.str "t", "https://api.github.com", .int 30⟩
  repository := ⟨"owner", "repo"⟩
  marker := .str "<!-- summary -->"
  recreate := true

/-- A machine on whose wire the listing of the summaries is answered in some way, and a review is accepted. -/
def afterListing (said : List Outcome) : Runner :=
  { Runner.fresh 0 with network := Retry.session (.script (said ++ [.reply (.of 200 [] "\x7b\x7d")])) }

def forbidden : Outcome :=
  .reply (.of 403 [] "\x7b\"message\": \"Forbidden\"\x7d")

/-- What something in front of the forge says that lets nobody in. -/
def forbiddenPage : Outcome :=
  .reply (.of 403 [] "<html>Forbidden</html>")

/-- What a proxy in front of the forge says when the forge is not up. -/
def badGateway : Outcome :=
  .reply (.of 502 [] "<html>Bad Gateway</html>")

/-- Whether the review is sent after the listing has been answered in some way, of which sense can be
made. -/
def GoesOnAfter (said : List Outcome) : Prop :=
  ∃ qs, (afterListing said).Sends qs
      (examplePoster.trySummary (.int 17) knownReview.message (afterListing said)).2 ∧
    Legible examplePoster.marker ((afterListing said).network.exchange qs) ∧
    examplePoster.GoesOn (.int 17) .requestChanges knownReview
      (examplePoster.trySummary (.int 17) knownReview.message (afterListing said)).2
      (examplePoster.post knownReview none none none (afterListing said)).1
      (examplePoster.post knownReview none none none (afterListing said)).2

/-- The review is sent after the forge has refused the listing, and after the session has given up a
proxy. -/
theorem post_goes_on_iff_forbidden : GoesOnAfter [forbidden] ∧ GoesOnAfter (List.replicate 4 badGateway) := by
  -- If no sense could be made of the reply, then there would be no request after the listing.
  have hgoes : ∀ said,
      (examplePoster.trySummary (.int 17) knownReview.message (afterListing said)).2.requests.length = 1 →
      (examplePoster.post knownReview none none none (afterListing said)).2.requests.length = 2 →
      GoesOnAfter said := by
    intro said hone htwo
    have hnumber : knownNumber none knownReview.pullRequest = some 17 := rfl
    have hverdict : Verdict.ofText? knownReview.reviewType = some .requestChanges := by decide
    unfold GoesOnAfter
    rcases hsummary : examplePoster.trySummary (.int 17) knownReview.message (afterListing said) with
      ⟨summary, u⟩
    rcases hpost : examplePoster.post knownReview none none none (afterListing said) with ⟨result, t⟩
    rw [hsummary] at hone
    rw [hpost] at htwo
    obtain ⟨qs, hsent, hiff, hstuck⟩ := post_goes_on_iff hverdict hnumber rfl (by decide) hsummary hpost
    have hlegible : Legible examplePoster.marker ((afterListing said).network.exchange qs) := by
      refine Classical.byContradiction fun hillegible => ?_
      obtain ⟨rfl, -⟩ := hstuck hillegible
      exact absurd (hone.symm.trans htwo) (by decide)
    exact ⟨qs, hsent, hlegible, hiff.mp hlegible⟩
  exact ⟨hgoes _ (by decide +kernel) (by decide +kernel), hgoes _ (by decide +kernel) (by decide +kernel)⟩

/-- The review is not sent after a refusal of the listing that is no JSON. -/
theorem unreadable_listing_blocks_review :
    (examplePoster.post knownReview none none none (afterListing [forbiddenPage])).1 =
        .error (.notJson ⟨.value, 1, 1, 0⟩) ∧
      (examplePoster.post knownReview none none none (afterListing [forbiddenPage])).2.requests.map
        Request.method = ["GET"] := by
  refine ⟨rfl, ?_⟩
  decide +kernel

end ReviewGate.Poster

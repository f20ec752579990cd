import ReviewGate.Proofs.Posting.Requests

/-! How a posting goes, from the look-up of the pull request to the review or the issue that takes its
place. -/
namespace ReviewGate

open Forge

/-- Whether a request is done: it is accepted with a reply of which sense can be made, and whose body is
JSON. -/
def Forge.Outcome.IsTaken (o : Outcome) : Prop :=
  o.IsLegible ∧ ∃ r v, o.accepted? = some r ∧ r.json = .ok v

namespace Poster

variable {p : Poster} {stored : StoredReview} {verdict : Verdict} {pull : Value} {s t : Runner}

/-- How posting a review on a pull request ends: after the requests for the summary with the request for
the review, which is taken or not, or before it. -/
inductive SubmitEnds (p : Poster) (stored : StoredReview) (verdict : Verdict) (pull : Value)
    (s t : Runner) : Except Fault Posting → Prop
  | posted (before : List Request) (u : Runner) (hasSummary : Bool) (summary : s.Sends before u)
    (summarizes : ∀ q ∈ before, p.Summarizes pull (stored.message.getD "") q)
    (review : u.Sends [p.reviewRequest pull verdict stored] t)
    (taken : (u.network.answer (p.reviewRequest pull verdict stored)).outcome.IsTaken) :
    SubmitEnds p stored verdict pull s t
      (.ok ⟨.posted, pull, some verdict, stored.comments.length, hasSummary, .null⟩)
  | refused (before : List Request) (u : Runner) (e : Fault) (summary : s.Sends before u)
    (summarizes : ∀ q ∈ before, p.Summarizes pull (stored.message.getD "") q)
    (review : u.Sends [p.reviewRequest pull verdict stored] t)
    (untaken : ¬ (u.network.answer (p.reviewRequest pull verdict stored)).outcome.IsTaken) :
    SubmitEnds p stored verdict pull s t (.error e)
  | unsent (before : List Request) (e : Fault) (summary : s.Sends before t)
    (summarizes : ∀ q ∈ before, p.Summarizes pull (stored.message.getD "") q) :
    SubmitEnds p stored verdict pull s t (.error e)

theorem submit_ends {result : Except Fault Posting}
    (h : p.submit stored verdict pull s = (result, t)) :
    p.SubmitEnds stored verdict pull s t result := by
  rw [submit, Action.bind_run] at h
  rcases htry : p.trySummary pull stored.message s with ⟨e | hasSummary, u⟩
  all_goals
    obtain ⟨before, hbefore, hall⟩ := (p.trySummary_effects pull stored.message).asks.of_run htry
    rw [htry] at h
  · cases h
    exact .unsent before e hbefore hall
  · dsimp only at h
    rw [Action.bind_run] at h
    rcases hadd : p.client.addReview p.repository pull verdict.name stored.body
      (stored.comments.map LineComment.posted) u with ⟨answer, v⟩
    obtain ⟨w, hwires, -, hask⟩ := Job.log_bind hadd
    have hw := hbefore.before hwires
    rw [hadd] at h
    cases ask_ends hask with
    | held reset hlow hwires' =>
      cases h
      exact .unsent before _ (hw.before hwires') hall
    | accepted r v hsent hlegible hreply hjson =>
      obtain ⟨x, hwires', -, hdone⟩ := Job.log_bind h
      cases hdone
      rw [List.length_map]
      exact .posted before w hasSummary hw hall (hsent.before hwires') ⟨hlegible, r, v, hreply, hjson⟩
    | refused e hsent hlegible hreply he =>
      cases h
      refine .refused before w e hw hall hsent ?_
      rintro ⟨-, r, v, hr, -⟩
      exact absurd (hreply.symm.trans hr) (by simp)
    | illegible e hsent hillegible he =>
      cases h
      refine .refused before w e hw hall hsent ?_
      rintro ⟨hlegible, r, v, hr, hv⟩
      rcases hillegible with hillegible | ⟨r', f, hreply, hjson⟩
      · exact hillegible hlegible
      · obtain rfl : r' = r := Option.some.inj (hreply.symm.trans hr)
        exact absurd (hjson.symm.trans hv) (by simp)

/-- How opening an issue ends where it gives a number. -/
inductive IssueEnds (q : Request) (s t : Runner) : Value → Prop
  | unsent (held : s.SameWires t) : IssueEnds q s t .null
  | refused (sent : s.Sends [q] t) (reply : (s.network.answer q).outcome.accepted? = none) :
    IssueEnds q s t .null
  | opened (number : Value) (r : Reply) (v : Value) (sent : s.Sends [q] t)
    (reply : (s.network.answer q).outcome.accepted? = some r) (json : r.json = .ok v)
    (found : v.get "number" = .ok number) : IssueEnds q s t number

theorem openIssue_ends {run : Option Int} {details : Option String} {issue : Value}
    (h : p.openIssue run details s = (.ok issue, t)) :
    IssueEnds (p.issueRequest run details) s t issue := by
  rw [openIssue, Action.bind_run, Job.catching_run] at h
  rcases hopen : p.client.openIssue p.repository issueTitle (issueBody run details) s with ⟨answer, u⟩
  obtain ⟨w, hwires, -, hask⟩ := Job.log_bind hopen
  rw [hopen] at h
  cases ask_ends hask with
  | held reset hlow hwires' =>
    obtain ⟨x, hlogged, -, hdone⟩ := Job.log_bind h
    cases hdone
    exact .unsent ((hwires.trans hwires').trans hlogged)
  | accepted r v hsent hlegible hreply hjson =>
    simp only [Job.use_run] at h
    rcases hnumber : v.get "number" with m | number
    · rw [hnumber] at h
      cases h
    · rw [hnumber] at h
      cases h
      exact .opened _ r v (.after hwires hsent) (hwires.network ▸ hreply) hjson hnumber
  | refused e hsent hlegible hreply he =>
    simp only [he, if_true] at h
    obtain ⟨x, hlogged, -, hdone⟩ := Job.log_bind h
    cases hdone
    exact .refused ((Runner.Sends.after hwires hsent).before hlogged) (hwires.network ▸ hreply)
  | illegible e hsent hillegible he =>
    simp only [he, Bool.false_eq_true, if_false] at h
    cases h

/-- Whether a value is the number of the pull request that a review is posted on: the one that is known
or, if none is, the one that a look-up finds. -/
def IsTarget (p : Poster) (stored : StoredReview) (run given : Option Int) (s : Runner)
    (pull : Value) : Prop :=
  (∃ n, knownNumber given stored.pullRequest = some n ∧ pull = .int n) ∨
    (knownNumber given stored.pullRequest = none ∧ ∃ u, p.resolve run s = (.ok pull, u))

/-- How a posting ends: with the review on the pull request, with an issue if nobody knows the pull
request, or before that. -/
inductive PostEnds (p : Poster) (stored : StoredReview) (verdict : Verdict) (run given : Option Int)
    (details : Option String) (s t : Runner) : Except Fault Posting → Prop
  | submitted {result : Except Fault Posting} (asked : List Request) (u : Runner) (pull : Value)
    (target : p.IsTarget stored run given s pull) (lookup : s.Sends asked u)
    (looksUp : ∀ q ∈ asked, p.LooksUp run q) (ends : p.SubmitEnds stored verdict pull u t result) :
    PostEnds p stored verdict run given details s t result
  | unresolved (asked : List Request) (u : Runner) (issue : Value) (lookup : s.Sends asked u)
    (looksUp : ∀ q ∈ asked, p.LooksUp run q)
    (ends : IssueEnds (p.issueRequest run details) u t issue) :
    PostEnds p stored verdict run given details s t
      (.ok ⟨.pullRequestNotFound, .null, some verdict, 0, false, issue⟩)
  | stuck (e : Fault) (asks : s.Asks (fun q => p.LooksUp run q ∨ q = p.issueRequest run details) t) :
    PostEnds p stored verdict run given details s t (.error e)

theorem verdictOf_run (hverdict : Verdict.ofText? stored.reviewType = some verdict) :
    verdictOf stored.reviewType s = (.ok verdict, s) := by
  simp only [verdictOf, hverdict, Action.pure_run]

/-- Nobody need be asked for a number that is known. -/
theorem post_run {run given : Option Int} {details : Option String} {n : Int}
    (hverdict : Verdict.ofText? stored.reviewType = some verdict)
    (hnumber : knownNumber given stored.pullRequest = some n) :
    p.post stored run given details s = p.submit stored verdict (.int n) s := by
  rw [post, Action.bind_run_ok (verdictOf_run hverdict), hnumber]

theorem post_ends (hverdict : Verdict.ofText? stored.reviewType = some verdict) {run given : Option Int}
    {details : Option String} {result : Except Fault Posting}
    (h : p.post stored run given details s = (result, t)) :
    p.PostEnds stored verdict run given details s t result := by
  rw [post, Action.bind_run_ok (verdictOf_run hverdict)] at h
  rcases hknown : knownNumber given stored.pullRequest with _ | n
  · simp only [hknown] at h
    rw [Action.bind_run, Job.catching_run] at h
    rcases hresolve : p.resolve run s with ⟨e | pull, u⟩
    all_goals
      obtain ⟨asked, hasked, hall⟩ := (p.resolve_effects run).asks.of_run hresolve
      simp only [hresolve] at h
    · rcases hfamily : e.isUnresolved with _ | _
      · simp only [hfamily, Bool.false_eq_true, if_false] at h
        cases h
        exact .stuck e ⟨asked, hasked, fun q hq => Or.inl (hall q hq)⟩
      · simp only [hfamily, if_true] at h
        obtain ⟨v, hwires, -, h⟩ := Job.log_bind h
        have hv := hasked.before hwires
        rw [Action.bind_run] at h
        rcases hopen : p.openIssue run details v with ⟨f | issue, w⟩
        · rw [hopen] at h
          cases h
          have hissue := (p.openIssue_effects run details).asks.of_run hopen
          exact .stuck f (.trans ⟨asked, hv, fun q hq => Or.inl (hall q hq)⟩
            (hissue.mono fun q hq => Or.inr hq))
        · rw [hopen] at h
          cases h
          exact .unresolved asked v issue hv hall (openIssue_ends hopen)
    · exact .submitted asked u pull (Or.inr ⟨hknown, u, hresolve⟩) hasked hall (submit_ends h)
  · simp only [hknown] at h
    exact .submitted [] s (.int n) (Or.inl ⟨n, hknown, rfl⟩) (Runner.SameWires.refl s).sends (by simp)
      (submit_ends h)

/-- Whether a request is one that a posting may need: to find out the number of the pull request, for
the summary or the review on it, or for the issue that takes their place. -/
inductive Needs (p : Poster) (stored : StoredReview) (verdict : Verdict) (run : Option Int)
    (details : Option String) (IsTarget : Value → Prop) : Request → Prop
  | lookup {q : Request} (looksUp : p.LooksUp run q) : Needs p stored verdict run details IsTarget q
  | summary {q : Request} (pull : Value) (target : IsTarget pull)
    (summarizes : p.Summarizes pull (stored.message.getD "") q) :
    Needs p stored verdict run details IsTarget q
  | review (pull : Value) (target : IsTarget pull) :
    Needs p stored verdict run details IsTarget (p.reviewRequest pull verdict stored)
  | issue : Needs p stored verdict run details IsTarget (p.issueRequest run details)

theorem Needs.mono {run : Option Int} {details : Option String} {IsTarget IsTarget' : Value → Prop}
    {q : Request} (h : p.Needs stored verdict run details IsTarget q)
    (himp : ∀ pull, IsTarget pull → IsTarget' pull) :
    p.Needs stored verdict run details IsTarget' q := by
  cases h with
  | lookup hq => exact .lookup hq
  | summary pull htarget hq => exact .summary pull (himp pull htarget) hq
  | review pull htarget => exact .review pull (himp pull htarget)
  | issue => exact .issue

theorem SubmitEnds.asks {run : Option Int} {details : Option String} {IsTarget : Value → Prop}
    {result : Except Fault Posting} (h : p.SubmitEnds stored verdict pull s t result)
    (hpull : IsTarget pull) : s.Asks (p.Needs stored verdict run details IsTarget) t := by
  have hsummary : ∀ {before : List Request} {u : Runner}, s.Sends before u →
      (∀ q ∈ before, p.Summarizes pull (stored.message.getD "") q) →
      s.Asks (p.Needs stored verdict run details IsTarget) u := fun hsent hall =>
    ⟨_, hsent, fun q hq => .summary pull hpull (hall q hq)⟩
  cases h with
  | posted before u _ hbefore hall hreview =>
    exact (hsummary hbefore hall).trans (hreview.asks (.review pull hpull))
  | refused before u _ hbefore hall hreview =>
    exact (hsummary hbefore hall).trans (hreview.asks (.review pull hpull))
  | unsent before _ hbefore hall => exact hsummary hbefore hall

theorem PostEnds.asks {run given : Option Int} {details : Option String} {result : Except Fault Posting}
    (h : p.PostEnds stored verdict run given details s t result) :
    s.Asks (p.Needs stored verdict run details (p.IsTarget stored run given s)) t := by
  cases h with
  | submitted asked u pull htarget hasked hall hends =>
    exact .trans ⟨asked, hasked, fun q hq => .lookup (hall q hq)⟩ (hends.asks htarget)
  | unresolved asked u issue hasked hall hends =>
    refine .trans ⟨asked, hasked, fun q hq => .lookup (hall q hq)⟩ ?_
    cases hends with
    | unsent hwires => exact hwires.asks
    | refused hsent => exact hsent.asks .issue
    | opened _ _ _ hsent => exact hsent.asks .issue
  | stuck e hasks =>
    refine hasks.mono fun q hq => ?_
    rcases hq with hq | rfl
    · exact .lookup hq
    · exact .issue

/-- Nothing is sent for a review without a verdict. -/
theorem post_without_verdict (hverdict : Verdict.ofText? stored.reviewType = none)
    {run given : Option Int} {details : Option String} {result : Except Fault Posting}
    (h : p.post stored run given details s = (result, t)) :
    s.SameWires t ∧ result = .error (.verdict stored.reviewType) := by
  rw [post, verdictOf, hverdict, Action.bind_run] at h
  dsimp only at h
  rw [Action.bind_run] at h
  obtain ⟨errors, w, hlog, -⟩ := Job.log_run .error source
    (Fault.verdict stored.reviewType).message s
  rw [hlog] at h
  cases h
  exact ⟨⟨rfl, rfl, rfl, rfl, rfl, rfl⟩, rfl⟩

end Poster

end ReviewGate

import ReviewGate.Posting.Review
import ReviewGate.Proofs.Forge.Requests

/-! The requests that each part of a posting may send, whatever the forge replies. -/
namespace ReviewGate

namespace Runner

/-- Whether all requests that a machine has sent on the way from one state to another have a property. -/
def Asks (P : Forge.Request → Prop) (s t : Runner) : Prop :=
  ∃ qs, s.Sends qs t ∧ ∀ q ∈ qs, P q

variable {P Q : Forge.Request → Prop} {s t u : Runner}

theorem SameWires.asks (h : s.SameWires t) : s.Asks P t :=
  ⟨[], h.sends, by simp⟩

theorem Asks.trans (h : s.Asks P t) (h' : t.Asks P u) : s.Asks P u := by
  obtain ⟨qs, hqs, hall⟩ := h
  obtain ⟨qs', hqs', hall'⟩ := h'
  refine ⟨qs ++ qs', hqs.trans hqs', fun q hq => ?_⟩
  exact (List.mem_append.mp hq).elim (hall q) (hall' q)

theorem Asks.mono (h : s.Asks P t) (himp : ∀ q, P q → Q q) : s.Asks Q t := by
  obtain ⟨qs, hqs, hall⟩ := h
  exact ⟨qs, hqs, fun q hq => himp q (hall q hq)⟩

theorem Asks.isCalm : IsCalm (Asks P) where
  refl s := (SameWires.refl s).asks
  trans := .trans
  log level source message s := (Job.log_wires level source message s).asks

theorem Sends.asks {q : Forge.Request} (h : s.Sends [q] t) (hq : P q) : s.Asks P t :=
  ⟨[q], h, by simpa using hq⟩

end Runner

/-- Whether all requests that a job sends have a property, however it ends. -/
abbrev Job.Asks {α : Type} (j : Job α) (P : Forge.Request → Prop) : Prop :=
  j.Keeps (Runner.Asks P)

theorem Job.Asks.mono {α : Type} {j : Job α} {P Q : Forge.Request → Prop} (h : j.Asks P)
    (himp : ∀ q, P q → Q q) : j.Asks Q :=
  fun s => (h s).mono himp

namespace Forge

variable {P : Request → Prop}

theorem send_asks {q : Request} (hq : P q) : (send q).Asks P := by
  intro s
  rcases hsend : send q s with ⟨result, t⟩
  cases send_ends hsend with
  | held _ _ hwires => exact hwires.asks
  | accepted _ hsent => exact hsent.asks hq
  | refused _ hsent => exact hsent.asks hq
  | illegible _ hsent => exact hsent.asks hq

end Forge

/-- What sends no other requests than some, and starts no program, asks for them alone. -/
theorem Job.HasEffects.asks {α : Type} {j : Job α} {P : Forge.Request → Prop}
    (h : j.HasEffects (Effect.IsExchange P)) : j.Asks P :=
  h.keeps Runner.Asks.isCalm (fun hstart => hstart.elim) fun _ hq => Forge.send_asks hq

namespace Poster

open Forge

variable (p : Poster)

/-- Whether a request is to find out the number of the pull request of a workflow run. -/
def LooksUp (run : Option Int) (q : Request) : Prop :=
  ∃ id, run = some id ∧ p.client.Explores p.repository (.int id) q

theorem resolve_effects (run : Option Int) :
    (p.resolve run).HasEffects (Effect.IsExchange (p.LooksUp run)) := by
  rcases run with _ | id
  · exact .throw rfl
  · have hfind : (p.client.findPullRequest p.repository (.int id)).HasEffects
        (Effect.IsExchange (p.LooksUp (some id))) :=
      (p.client.findPullRequest_effects p.repository (.int id)).mono fun h =>
        .of_request (h.mono fun q hq => ⟨id, rfl, hq⟩)
    refine .bind (.catching _ trivial hfind) fun number => ?_
    cases number with
    | error e => exact .bind (.log _ _ _) fun _ => .throw rfl
    | ok number => exact .pure _

/-! ### Posting a summary -/

/-- Whether a request is for a summary: for the comments that are there, or to delete one of them, to
change one or to add one. -/
inductive Summarizes (pull : Value) (body : String) : Request → Prop
  | page (n : Nat) : Summarizes pull body (p.client.pageRequest p.repository pull n)
  | deletion (id : Value) :
    Summarizes pull body (p.client.requestFor p.repository "DELETE" (.comment id))
  | change (id : Value) :
    Summarizes pull body { p.client.requestFor p.repository "PATCH" (.comment id) with
      json := some (commentContent (p.marked body)) }
  | addition :
    Summarizes pull body { p.client.requestFor p.repository "POST" (.comments pull) with
      json := some (commentContent (p.marked body)) }

theorem deleteComments_effects (pull : Value) (body : String) (comments : List Value) :
    (p.deleteComments comments).HasEffects (Effect.IsExchange (p.Summarizes pull body)) := by
  induction comments with
  | nil => exact .pure _
  | cons comment more ih =>
    exact .bind (.use _) fun id =>
      .bind (p.client.deleteComment_effects p.repository (.deletion id)) fun _ => ih

theorem addSummary_effects (pull : Value) (body : String) :
    (p.client.addComment p.repository pull (p.marked body)).HasEffects
      (Effect.IsExchange (p.Summarizes pull body)) :=
  p.client.addComment_effects p.repository Summarizes.addition

theorem postSummary_effects (pull : Value) (body : String) :
    (p.postSummary pull body).HasEffects (Effect.IsExchange (p.Summarizes pull body)) := by
  have hlist : (p.summaries pull).HasEffects (Effect.IsExchange (p.Summarizes pull body)) :=
    .bind (p.client.comments_effects p.repository Summarizes.page) fun _ => .use _
  have hnew : ∀ old, (p.deleteComments old >>= fun _ =>
      p.client.addComment p.repository pull (p.marked body)).HasEffects
        (Effect.IsExchange (p.Summarizes pull body)) := fun old =>
    .bind (p.deleteComments_effects pull body old) fun _ => p.addSummary_effects pull body
  refine .bind hlist fun olds => ?_
  cases p.recreate with
  | true => exact hnew olds
  | false =>
    rcases olds with _ | ⟨old, more⟩
    · exact hnew []
    · exact .bind (.use _) fun id => p.client.changeComment_effects p.repository (.change id)

theorem trySummary_effects (pull : Value) (message : Option String) :
    (p.trySummary pull message).HasEffects (Effect.IsExchange (p.Summarizes pull (message.getD ""))) := by
  refine .ite (.bind (.log _ _ _) fun _ => .pure _) ?_
  refine .bind (.catching _ trivial (p.postSummary_effects pull _)) fun outcome => ?_
  cases outcome with
  | error e => exact .bind (.log _ _ _) fun _ => .pure _
  | ok v => exact .pure _

/-! ### Opening an issue -/

/-- The request that opens the issue about a workflow run. -/
def issueRequest (run : Option Int) (details : Option String) : Request :=
  { p.client.requestFor p.repository "POST" .issues with
    json := some (.record [("title", .str issueTitle), ("body", .str (issueBody run details))]) }

theorem openIssue_effects (run : Option Int) (details : Option String) :
    (p.openIssue run details).HasEffects (Effect.IsExchange (· = p.issueRequest run details)) := by
  refine .bind (.catching _ trivial (p.client.openIssue_effects p.repository rfl)) fun issue => ?_
  cases issue with
  | error e => exact .bind (.log _ _ _) fun _ => .pure _
  | ok issue => exact .use _

/-! ### Posting a review -/

/-- The content of the request for a stored review. -/
def reviewOf (stored : StoredReview) (verdict : Verdict) : Value :=
  reviewContent verdict.name stored.body (stored.comments.map LineComment.posted)

/-- The request that posts a review. -/
def reviewRequest (p : Poster) (pull : Value) (verdict : Verdict) (stored : StoredReview) : Request :=
  { p.client.requestFor p.repository "POST" (.reviews pull) with
    json := some (reviewOf stored verdict) }

theorem submit_effects (stored : StoredReview) (verdict : Verdict) (pull : Value) :
    (p.submit stored verdict pull).HasEffects (Effect.IsExchange fun q =>
      p.Summarizes pull (stored.message.getD "") q ∨ q = p.reviewRequest pull verdict stored) :=
  .bind ((p.trySummary_effects pull stored.message).mono (.mono fun _ => Or.inl)) fun _ =>
    .bind (p.client.addReview_effects p.repository (Or.inr rfl)) fun _ =>
      .bind (.log _ _ _) fun _ => .pure _

theorem verdictOf_effects {A : Effect → Prop} (text : String) : (verdictOf text).HasEffects A := by
  unfold verdictOf
  cases Verdict.ofText? text with
  | some verdict => exact .pure _
  | none => exact .bind (.log _ _ _) fun _ => .throw rfl

theorem post_effects (stored : StoredReview) (run number : Option Int) (details : Option String) :
    (p.post stored run number details).HasEffects (Effect.IsExchange fun _ => True) := by
  have hany : ∀ {P : Request → Prop} {x : Effect}, x.IsExchange P → x.IsExchange fun _ => True :=
    fun h => h.mono fun _ _ => trivial
  refine .bind (verdictOf_effects _) fun verdict => ?_
  cases knownNumber number stored.pullRequest with
  | some n => exact (p.submit_effects stored verdict (.int n)).mono hany
  | none =>
    refine .bind (.catching _ trivial ((p.resolve_effects run).mono hany)) fun pull => ?_
    cases pull with
    | ok pull => exact (p.submit_effects stored verdict pull).mono hany
    | error e =>
      exact .bind (.log _ _ _) fun _ => .bind ((p.openIssue_effects run details).mono hany) fun _ => .pure _

end Poster

end ReviewGate

import ReviewGate.Forge.Comments
import ReviewGate.Forge.Lookup
import ReviewGate.Forge.Reviews
import ReviewGate.Proofs.Forge.Exchange

/-! The requests of the calls of a client: each call sends its own requests and does nothing else, not even
go on after a fault. -/
namespace ReviewGate.Forge

variable {A : Effect → Prop} (c : Client) (r : Repository)

theorem ask_effects {q : Request} (hq : A (.send q)) : (ask q).HasEffects A :=
  .bind (.send q hq) fun r => .ofExcept (json_failsPlainly r)

namespace Client

/-! ### Looking for a pull request -/

/-- Whether a request is for a workflow run or for a listing of pull requests. -/
inductive Explores (run : Value) : Request → Prop
  | run : Explores run (c.requestFor r "GET" (.run run))
  | pulls (params : Option Value) : Explores run { c.requestFor r "GET" .pulls with params := params }

theorem workflowRun_effects {run : Value} (hq : A (.send (c.requestFor r "GET" (.run run)))) :
    (c.workflowRun r run).HasEffects A :=
  .bind (.log _ _ _) fun _ => ask_effects hq

theorem findPullRequest_effects (run : Value) :
    (c.findPullRequest r run).HasEffects (Effect.IsRequest (c.Explores r run)) := by
  have hpulls : ∀ state head,
      (c.pullRequests r state head).HasEffects (Effect.IsRequest (c.Explores r run)) :=
    fun _ _ => ask_effects (.pulls _)
  have hbranch : ∀ branch, (c.findByBranch r branch).HasEffects (Effect.IsRequest (c.Explores r run)) :=
    fun _ => .ite (.bind (hpulls _ _) fun _ => .use _) (.pure _)
  have hcommit : ∀ commit, (c.findByCommit r commit).HasEffects (Effect.IsRequest (c.Explores r run)) :=
    fun _ => .ite (.bind (hpulls _ _) fun _ => .bind (.use _) fun _ => .use _) (.pure _)
  have hfound : ∀ number, (found number).HasEffects (Effect.IsRequest (c.Explores r run)) :=
    fun _ => .bind (.log _ _ _) fun _ => .pure _
  refine .bind (.log _ _ _) fun _ => .bind (c.workflowRun_effects r .run) fun _ => .bind (.use _) fun branch =>
    .bind (.use _) fun commit => .bind (.log _ _ _) fun _ => .bind (.log _ _ _) fun _ =>
      .bind (hbranch branch) fun number => ?_
  cases number with
  | some number => exact hfound number
  | none =>
    refine .bind (.log _ _ _) fun _ => .bind (hcommit commit) fun number => ?_
    cases number with
    | some number => exact hfound number
    | none => exact .bind (.log _ _ _) fun _ => .throw rfl

/-! ### Comments, reviews and issues -/

/-- What a listing sends, by induction on what the network has still to say. -/
theorem commentsFrom_effects {issue : Value} (hq : ∀ page, A (.send (c.pageRequest r issue page)))
    (net : Network) (page : Nat) : (c.commentsFrom r issue net page).HasEffects A := by
  induction net generalizing page with
  | down => exact .bind (ask_effects (hq page)) fun _ => .use _
  | up answer next ih =>
    refine .bind (ask_effects (hq page)) fun _ => .bind (.use _) fun items => ?_
    exact .ite (.pure _) (.bind (ih _ _) fun _ => .pure _)

theorem comments_effects {issue : Value} (hq : ∀ page, A (.send (c.pageRequest r issue page))) :
    (c.comments r issue).HasEffects A :=
  .bind .get fun s => c.commentsFrom_effects r hq s.network 1

theorem addComment_effects {issue : Value} {body : String}
    (hq : A (.send { c.requestFor r "POST" (.comments issue) with json := some (commentContent body) })) :
    (c.addComment r issue body).HasEffects A :=
  .bind (.log _ _ _) fun _ => ask_effects hq

theorem changeComment_effects {id : Value} {body : String}
    (hq : A (.send { c.requestFor r "PATCH" (.comment id) with json := some (commentContent body) })) :
    (c.changeComment r id body).HasEffects A :=
  .bind (.log _ _ _) fun _ => ask_effects hq

theorem deleteComment_effects {id : Value} (hq : A (.send (c.requestFor r "DELETE" (.comment id)))) :
    (c.deleteComment r id).HasEffects A :=
  .bind (.log _ _ _) fun _ => .bind (.send _ hq) fun _ => .pure _

theorem addReview_effects {pull : Value} {event body : String} {comments : List Value}
    (hq : A (.send { c.requestFor r "POST" (.reviews pull) with
      json := some (reviewContent event body comments) })) :
    (c.addReview r pull event body comments).HasEffects A :=
  .bind (.log _ _ _) fun _ => ask_effects hq

theorem openIssue_effects {title body : String}
    (hq : A (.send { c.requestFor r "POST" .issues with
      json := some (.record [("title", .str title), ("body", .str body)]) })) :
    (c.openIssue r title body).HasEffects A :=
  .bind (.log _ _ _) fun _ => ask_effects hq

end Client

end ReviewGate.Forge

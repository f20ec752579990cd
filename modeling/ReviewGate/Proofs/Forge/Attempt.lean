import ReviewGate.Proofs.Forge.Requests

/-! What the client does, request by request: everything that it does is a course of attempts to send a
request, and the first attempt that fails is the last one. -/
namespace ReviewGate.Forge

/-- An attempt to send a request, with the machine before it and after it. -/
structure Attempt where
  request : Request
  before : Runner
  result : Except Fault Reply
  after : Runner

/-- Whether this is how sending the request goes. -/
def Attempt.IsMade (a : Attempt) : Prop :=
  send a.request a.before = (a.result, a.after)

/-- The attempt to send a request from a machine. -/
def Attempt.of (q : Request) (s : Runner) : Attempt :=
  ⟨q, s, (send q s).1, (send q s).2⟩

theorem Attempt.of_isMade (q : Request) (s : Runner) : (of q s).IsMade := rfl

/-- How an action of the client goes: it makes attempts to send a request, with nothing but messages in
the log between them. It goes on as long as they succeed, and only an attempt fails as the forge does. -/
inductive Course {α : Type} : Runner → List Attempt → Except Fault α → Runner → Prop
  | rest {s t : Runner} {result : Except Fault α} (wires : s.SameWires t)
    (other : ∀ e, result = .error e → e.isForge = false) : Course s [] result t
  | failed {s t : Runner} (a : Attempt) (e : Fault) (start : s.SameWires a.before) (made : a.IsMade)
    (result : a.result = .error e) (wires : a.after.SameWires t) : Course s [a] (.error e) t
  | answered {s t : Runner} {result : Except Fault α} (a : Attempt) (r : Reply) {more : List Attempt}
    (start : s.SameWires a.before) (made : a.IsMade) (reply : a.result = .ok r)
    (next : Course a.after more result t) : Course s (a :: more) result t

namespace Course

variable {α β : Type} {s t u : Runner} {as bs : List Attempt}

theorem after {result : Except Fault α} (h : s.SameWires t) (hcourse : Course t as result u) :
    Course s as result u := by
  cases hcourse with
  | rest hwires hother => exact .rest (h.trans hwires) hother
  | failed a e hstart hmade hresult hwires => exact .failed a e (h.trans hstart) hmade hresult hwires
  | answered a r hstart hmade hreply hnext => exact .answered a r (h.trans hstart) hmade hreply hnext

/-- After a course that succeeds another one may follow. -/
theorem append {a : α} {result : Except Fault β} (h : Course s as (.ok a) t)
    (hcourse : Course t bs result u) : Course s (as ++ bs) result u := by
  generalize hresult : (Except.ok a : Except Fault α) = ok at h
  induction h with
  | rest hwires _ => exact hcourse.after hwires
  | failed => cases hresult
  | answered b r hstart hmade hreply _ ih => exact .answered b r hstart hmade hreply (ih hcourse hresult)

/-- With a course that fails everything that includes it fails. -/
theorem error {e : Fault} (h : Course s as (.error e : Except Fault α) t) :
    Course s as (.error e : Except Fault β) t := by
  generalize hresult : (Except.error e : Except Fault α) = error at h
  induction h with
  | rest hwires hother =>
    refine .rest hwires fun e' he' => ?_
    cases he'
    exact hother e hresult.symm
  | failed b e' hstart hmade hfail hwires =>
    cases hresult
    exact .failed b e hstart hmade hfail hwires
  | answered b r hstart hmade hreply _ ih => exact .answered b r hstart hmade hreply (ih hresult)

/-- What follows without an attempt to send something belongs to the course. -/
theorem andThen {j : Job α} {f : α → Job β} (h : Course s as (j s).1 (j s).2)
    (hf : ∀ a t, Course t [] (f a t).1 (f a t).2) : Course s as ((j >>= f) s).1 ((j >>= f) s).2 := by
  rw [Action.bind_run]
  rcases hrun : j s with ⟨e | a, t⟩ <;> rw [hrun] at h
  · exact h.error
  · simpa using h.append (hf a t)

theorem send (q : Request) (s : Runner) : Course s [.of q s] (Forge.send q s).1 (Forge.send q s).2 := by
  rcases h : (Forge.send q s).1 with e | r
  · exact .failed _ e (.refl s) rfl h (.refl _)
  · exact .answered _ r (.refl s) rfl h (.rest (.refl _) fun _ h => nomatch h)

/-- What all machines keep that differ only in their files, and what each attempt keeps, is kept. -/
theorem invariant {P : Runner → Prop} {result : Except Fault α}
    (hwires : ∀ {s t : Runner}, s.SameWires t → P s → P t)
    (hsend : ∀ {a : Attempt}, a.IsMade → P a.before → P a.after) (h : Course s as result t) (hs : P s) :
    P t ∧ ∀ a ∈ as, a.IsMade ∧ P a.before ∧ P a.after := by
  induction h with
  | rest hcalm _ => exact ⟨hwires hcalm hs, by simp⟩
  | failed a e hstart hmade _ hcalm =>
    have hbefore := hwires hstart hs
    have hafter := hsend hmade hbefore
    refine ⟨hwires hcalm hafter, ?_⟩
    simpa using ⟨hmade, hbefore, hafter⟩
  | answered a r hstart hmade _ _ ih =>
    have hbefore := hwires hstart hs
    have hafter := hsend hmade hbefore
    obtain ⟨ht, hall⟩ := ih hafter
    exact ⟨ht, List.forall_mem_cons.mpr ⟨⟨hmade, hbefore, hafter⟩, hall⟩⟩

/-- The attempt that fails makes the whole course fail. -/
theorem result_of_failed {result : Except Fault α} (h : Course s as result t) {a : Attempt} (ha : a ∈ as)
    {e : Fault} (he : a.result = .error e) : result = .error e := by
  induction h with
  | rest => cases ha
  | failed b e' _ _ hresult _ =>
    obtain rfl := List.mem_singleton.mp ha
    rw [hresult] at he
    cases he
    rfl
  | answered b r _ _ hreply _ ih =>
    rcases List.mem_cons.mp ha with rfl | ha
    · rw [hreply] at he
      cases he
    · exact ih ha

/-- A course that fails as the forge does ends with the attempt that failed. -/
theorem last_of_forge {e : Fault} (h : Course s as (.error e : Except Fault α) t)
    (he : e.isForge = true) :
    ∃ before a, as = before ++ [a] ∧ a.IsMade ∧ a.result = .error e ∧ a.after.SameWires t := by
  generalize hresult : (Except.error e : Except Fault α) = error at h
  induction h with
  | rest _ hother =>
    have hcalm := hother e hresult.symm
    rw [he] at hcalm
    cases hcalm
  | failed a e' _ hmade hfail hwires =>
    cases hresult
    exact ⟨[], a, rfl, hmade, hfail, hwires⟩
  | answered a r _ _ _ _ ih =>
    obtain ⟨before, b, rfl, hb⟩ := ih hresult
    exact ⟨a :: before, b, rfl, hb⟩

end Course

/-- Whether an action has a course wherever it starts. -/
def HasCourse {α : Type} (j : Job α) : Prop :=
  ∀ s, ∃ as, Course s as (j s).1 (j s).2

namespace HasCourse

variable {α β : Type} {j : Job α}

theorem ofExcept {x : Except Fault α} (hx : FailsPlainly x) : HasCourse (Job.ofExcept x) := by
  intro s
  rw [Job.ofExcept_run]
  exact ⟨[], .rest (.refl s) fun _ => hx.isForge⟩

theorem use (x : Except Misuse α) : HasCourse (Job.use x) := by
  intro s
  rw [Job.use_run]
  exact ⟨[], .rest (.refl s) fun _ => (FailsPlainly.mapError (fun _ => rfl) x).isForge⟩

theorem log (level : LogLevel) (source message : String) : HasCourse (Job.log level source message) := by
  intro s
  refine ⟨[], .rest (Job.log_wires level source message s) ?_⟩
  rw [Job.log_ok]
  exact fun _ h => nomatch h

theorem bind (hj : HasCourse j) {f : α → Job β} (hf : ∀ a, HasCourse (f a)) : HasCourse (j >>= f) := by
  intro s
  obtain ⟨as, has⟩ := hj s
  rw [Action.bind_run]
  rcases h : j s with ⟨e | a, t⟩ <;> rw [h] at has
  · exact ⟨as, has.error⟩
  · obtain ⟨bs, hbs⟩ := hf a t
    exact ⟨as ++ bs, has.append hbs⟩

/-- What only sends requests, and does not go on after a fault, has a course. -/
theorem of_effects {P : Request → Prop} (h : j.HasEffects (Effect.IsRequest P)) : HasCourse j := by
  induction h with
  | pure a => exact ofExcept (.ok a)
  | throw plain => exact ofExcept (.error plain)
  | get => exact fun s => ⟨[], .rest (.refl s) fun _ h => nomatch h⟩
  | ofExcept plain => exact ofExcept plain
  | use x => exact use x
  | log level source message => exact log level source message
  | start _ allowed => exact allowed.elim
  | send q _ => exact fun s => ⟨_, Course.send q s⟩
  | catching _ allowed _ _ => exact allowed.elim
  | bind _ _ ihfirst ihnext => exact bind ihfirst ihnext

end HasCourse

/-! ### What can be asked of a client -/

variable (c : Client)

/-- A call of a client. -/
inductive Call where
  | workflowRun (r : Repository) (run : Value)
  | pullRequests (r : Repository) (state : String) (head : Option String)
  | findPullRequest (r : Repository) (run : Value)
  | comments (r : Repository) (issue : Value)
  | addComment (r : Repository) (issue : Value) (body : String)
  | changeComment (r : Repository) (id : Value) (body : String)
  | deleteComment (r : Repository) (id : Value)
  | addReview (r : Repository) (pull : Value) (event body : String) (lines : List Value)
  | openIssue (r : Repository) (title body : String)

/-- What a call does, its result aside. -/
def Call.perform (c : Client) : Call → Job Unit
  | .workflowRun r run => do let _ ← c.workflowRun r run
  | .pullRequests r state head => do let _ ← c.pullRequests r state head
  | .findPullRequest r run => do let _ ← c.findPullRequest r run
  | .comments r issue => do let _ ← c.comments r issue
  | .addComment r issue body => do let _ ← c.addComment r issue body
  | .changeComment r id body => do let _ ← c.changeComment r id body
  | .deleteComment r id => c.deleteComment r id
  | .addReview r pull event body lines => do let _ ← c.addReview r pull event body lines
  | .openIssue r title body => do let _ ← c.openIssue r title body

theorem Call.perform_hasCourse (call : Call) : HasCourse (call.perform c) := by
  refine .of_effects (P := fun _ => True) ?_
  cases call with
  | workflowRun r run => exact .bind (c.workflowRun_effects r trivial) fun _ => .pure _
  | pullRequests r state head => exact .bind (ask_effects trivial) fun _ => .pure _
  | findPullRequest r run =>
    exact .bind ((c.findPullRequest_effects r run).mono (.mono fun _ _ => trivial)) fun _ => .pure _
  | comments r issue => exact .bind (c.comments_effects r fun _ => trivial) fun _ => .pure _
  | addComment r issue body => exact .bind (c.addComment_effects r trivial) fun _ => .pure _
  | changeComment r id body => exact .bind (c.changeComment_effects r trivial) fun _ => .pure _
  | deleteComment r id => exact c.deleteComment_effects r trivial
  | addReview r pull event body lines => exact .bind (c.addReview_effects r trivial) fun _ => .pure _
  | openIssue r title body => exact .bind (c.openIssue_effects r trivial) fun _ => .pure _

end ReviewGate.Forge

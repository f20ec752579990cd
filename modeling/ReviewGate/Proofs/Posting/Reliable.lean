import ReviewGate.Proofs.Forge.Listing
import ReviewGate.Proofs.Posting.Promise

/-! Each part of a posting ends well on a forge that keeps its promises. -/
namespace ReviewGate

open Forge CommandLine

namespace Forge

variable {started : Prop}

/-! ### What is done with the answers -/

theorem firstNumber_ok {pulls : List Value} (h : ∀ pull ∈ pulls, IsPull pull) :
    ∃ number, firstNumber (.list pulls) = .ok number := by
  cases pulls with
  | nil => exact ⟨none, rfl⟩
  | cons pull more =>
    obtain ⟨⟨entries, rfl⟩, -⟩ := h pull List.mem_cons_self
    exact ⟨_, rfl⟩

theorem hasHead_ok (commit : Value) {pull : Value} (h : IsPull pull) :
    ∃ found, hasHead commit pull = .ok found := by
  obtain ⟨-, -, head, hhead⟩ := h
  rw [hasHead, hhead]
  exact ⟨_, rfl⟩

theorem numberOfCommit_ok (commit : Value) {pulls : List Value} (h : ∀ pull ∈ pulls, IsPull pull) :
    ∃ number, numberOfCommit commit pulls = .ok number := by
  induction pulls with
  | nil => exact ⟨none, rfl⟩
  | cons pull more ih =>
    obtain ⟨found, hfound⟩ := hasHead_ok commit (h pull List.mem_cons_self)
    obtain ⟨number, hnumber⟩ := (h pull List.mem_cons_self).2.1
    obtain ⟨rest, hrest⟩ := ih fun other hother => h other (List.mem_cons_of_mem _ hother)
    rw [numberOfCommit, hfound, hnumber]
    cases found with
    | false => exact ⟨rest, hrest⟩
    | true => exact ⟨some number, rfl⟩

theorem summariesIn_ok {marker : String} {comments : List Value} (h : ∀ c ∈ comments, IsComment c) :
    ∃ olds, Poster.summariesIn (.str marker) comments = .ok olds ∧ ∀ c ∈ olds, IsComment c := by
  induction comments with
  | nil => exact ⟨[], rfl, by simp⟩
  | cons comment more ih =>
    obtain ⟨olds, holds, hall⟩ := ih fun other hother => h other (List.mem_cons_of_mem _ hother)
    obtain ⟨-, body, hbody, htext⟩ := h comment List.mem_cons_self
    have hmarker : ∃ found, Poster.hasMarker (.str marker) comment = .ok found := by
      rw [Poster.hasMarker, hbody]
      rcases hgiven : body.isGiven with _ | _
      · exact ⟨Text.contains "" marker, by simp [hgiven, Value.isIn, bind, Except.bind]⟩
      · obtain ⟨text, rfl⟩ := htext hgiven
        exact ⟨Text.contains text marker, by simp [hgiven, Value.isIn, bind, Except.bind]⟩
    obtain ⟨found, hfound⟩ := hmarker
    rw [Poster.summariesIn, hfound, holds]
    cases found with
    | false => exact ⟨olds, rfl, hall⟩
    | true =>
      refine ⟨comment :: olds, rfl, fun c hc => ?_⟩
      rcases List.mem_cons.mp hc with rfl | hc
      · exact h c List.mem_cons_self
      · exact hall c hc

/-! ### Looking for a pull request -/

theorem Client.pullRequests_reliable (c : Client) (r : Repository) (state : String)
    (head : Option String) :
    (c.pullRequests r state head).IsReliable started fun v =>
      ∃ pulls, v = .list pulls ∧ ∀ pull ∈ pulls, IsPull pull :=
  (ask_reliable (by simp)).weaken id fun _ h => h.2.pulls c r _ rfl

theorem Client.findByBranch_reliable (c : Client) (r : Repository) (branch : Value) :
    (c.findByBranch r branch).IsReliable started fun _ => True := by
  refine .ite (fun _ => .bind (c.pullRequests_reliable r _ _) fun v => .use ?_)
    fun _ => .pure fun _ => trivial
  rintro ⟨pulls, rfl, hall⟩
  obtain ⟨number, hnumber⟩ := firstNumber_ok hall
  exact ⟨number, hnumber, trivial⟩

theorem Client.findByCommit_reliable (c : Client) (r : Repository) (commit : Value) :
    (c.findByCommit r commit).IsReliable started fun _ => True := by
  refine .ite (fun _ => .bind (c.pullRequests_reliable r _ _) fun v => ?_)
    fun _ => .pure fun _ => trivial
  refine .bind (K := fun pulls => ∀ pull ∈ pulls, IsPull pull) (.use ?_) fun pulls => .use fun hall => ?_
  · rintro ⟨pulls, rfl, hall⟩
    exact ⟨pulls, rfl, hall⟩
  · obtain ⟨number, hnumber⟩ := numberOfCommit_ok commit hall
    exact ⟨number, hnumber, trivial⟩

theorem Client.findPullRequest_reliable (c : Client) (r : Repository) (run : Int) :
    (c.findPullRequest r (.int run)).IsReliable started fun _ => True := by
  have hfound : ∀ {started : Prop} number, (found number).IsReliable started fun _ => True :=
    fun number => .bind (.log _ _ _) fun _ => .pure fun _ => trivial
  have hrun : (c.workflowRun r (.int run)).IsReliable started fun v => ∃ entries, v = .map entries :=
    .bind (.log _ _ _) fun _ => (ask_reliable (by simp)).weaken id fun _ h => h.2.run c r _ rfl
  have hmember : ∀ (v : Value) key, (Job.use (v.get key)).IsReliable (∃ entries, v = .map entries)
      fun _ => ∃ entries, v = .map entries := by
    refine fun v key => .use ?_
    rintro ⟨entries, rfl⟩
    exact ⟨_, rfl, entries, rfl⟩
  refine .bind (.log _ _ _) fun _ => .bind hrun fun v => .bind (hmember v _) fun branch =>
    .bind (hmember v _) fun commit => .bind (.log _ _ _) fun _ => .bind (.log _ _ _) fun _ =>
      .bind (c.findByBranch_reliable r branch) fun number => ?_
  cases number with
  | some number => exact hfound number
  | none =>
    refine .bind (.log _ _ _) fun _ => .bind (c.findByCommit_reliable r commit) fun number => ?_
    cases number with
    | some number => exact hfound number
    | none => exact .bind (.log _ _ _) fun _ => .throw rfl

/-! ### Comments -/

theorem Client.commentsFrom_reliable (c : Client) (r : Repository) (issue : Value) (net : Network)
    (page : Nat) :
    (c.commentsFrom r issue net page).IsReliable started fun items => ∀ v ∈ items, IsComment v := by
  have hpage : ∀ {started : Prop} page, (ask (c.pageRequest r issue page)).IsReliable started
      fun v => ∃ items, v = .list items ∧ ∀ v ∈ items, IsComment v := fun page =>
    (ask_reliable (by simp [Client.pageRequest])).weaken id fun _ h => h.2.comments c r _ _ rfl
  have hitems : ∀ v, (Job.use (itemsOfPage v)).IsReliable
      (∃ items, v = .list items ∧ ∀ v ∈ items, IsComment v) fun items => ∀ v ∈ items, IsComment v := by
    refine fun v => .use ?_
    rintro ⟨items, rfl, hall⟩
    exact ⟨items, itemsOfPage_list items, hall⟩
  induction net generalizing page started with
  | down => exact .bind (hpage page) hitems
  | up answer next ih =>
    refine .bind (hpage page) fun v => .bind (hitems v) fun items => ?_
    refine .ite (fun _ => .pure id) fun _ => .bind (ih _ _).frame fun rest => .pure fun hall v hv => ?_
    exact (List.mem_append.mp hv).elim (hall.1 v) (hall.2 v)

end Forge

namespace Poster

variable {p : Poster} {marker : String} {started : Prop}

theorem summaries_reliable (hmarker : p.marker = .str marker) (pull : Value) :
    (p.summaries pull).IsReliable started fun olds => ∀ c ∈ olds, IsComment c := by
  have hlist : (p.client.comments p.repository pull).IsReliable started
      fun items => ∀ v ∈ items, IsComment v :=
    .bind .get fun s => p.client.commentsFrom_reliable p.repository pull s.network 1
  refine .bind hlist fun comments => .use fun hall => ?_
  rw [hmarker]
  exact summariesIn_ok hall

theorem deleteComments_reliable (olds : List Value) :
    (p.deleteComments olds).IsReliable (∀ c ∈ olds, IsComment c) fun _ => True := by
  induction olds with
  | nil => exact .pure fun _ => trivial
  | cons comment more ih =>
    have hdelete : ∀ {started : Prop} id, (p.client.deleteComment p.repository id).IsReliable started
        fun _ => started := fun _ =>
      .bind (.log _ _ _) fun _ => .bind (send_reliable _) fun _ => .pure id
    refine .bind (K := fun _ => ∀ c ∈ more, IsComment c) (.use fun hall => ?_) fun id =>
      .bind (hdelete id) fun _ => ih
    obtain ⟨id, hid⟩ := (hall comment List.mem_cons_self).1
    exact ⟨id, hid, fun c hc => hall c (List.mem_cons_of_mem _ hc)⟩

theorem postSummary_reliable (hmarker : p.marker = .str marker) (pull : Value) (body : String) :
    (p.postSummary pull body).IsReliable started fun _ => True := by
  have hask : ∀ {started : Prop} {q : Request}, q.method ≠ "DELETE" →
      (ask q).IsReliable started fun _ => True := fun hq =>
    (ask_reliable hq).weaken id fun _ _ => trivial
  have hnew : ∀ old, (p.deleteComments old >>= fun _ =>
      p.client.addComment p.repository pull (p.marked body)).IsReliable (∀ c ∈ old, IsComment c)
        fun _ => True := fun old =>
    .bind (p.deleteComments_reliable old) fun _ => .bind (.log _ _ _) fun _ => hask (by simp)
  refine .bind (summaries_reliable hmarker pull) fun olds => ?_
  cases p.recreate with
  | true => exact hnew olds
  | false =>
    rcases olds with _ | ⟨old, more⟩
    · exact hnew []
    · refine .bind (K := fun _ => True) (.use fun hall => ?_) fun id =>
        .bind (.log _ _ _) fun _ => hask (by simp)
      obtain ⟨id, hid⟩ := (hall old List.mem_cons_self).1
      exact ⟨id, hid, trivial⟩

theorem trySummary_reliable (hmarker : p.marker = .str marker) (pull : Value)
    (message : Option String) : (p.trySummary pull message).IsReliable started fun _ => True := by
  refine .ite (fun _ => .bind (.log _ _ _) fun _ => .pure fun _ => trivial) fun _ => ?_
  refine .bind (.catching (postSummary_reliable hmarker pull _) _) fun outcome => ?_
  cases outcome with
  | ok v => exact .pure fun _ => trivial
  | error e => exact .bind (.log _ _ _) fun _ => .pure fun _ => trivial

theorem submit_reliable (hmarker : p.marker = .str marker) (review : StoredReview) (verdict : Verdict)
    (pull : Value) : (p.submit review verdict pull).IsReliable started fun _ => True := by
  refine .bind (trySummary_reliable hmarker pull review.message) fun _ => .bind (K := fun _ => True)
    (.bind (.log _ _ _) fun _ => ?_) fun _ => .bind (.log _ _ _) fun _ => .pure fun _ => trivial
  exact (ask_reliable (by simp)).weaken id fun _ _ => trivial

theorem resolve_reliable (run : Option Int) : (p.resolve run).IsReliable started fun _ => True := by
  cases run with
  | none => exact .throw rfl
  | some id =>
    refine .bind (.catching (p.client.findPullRequest_reliable p.repository id) _) fun number => ?_
    cases number with
    | ok number => exact .pure fun _ => trivial
    | error e => exact .bind (.log _ _ _) fun _ => .throw rfl

theorem openIssue_reliable (run : Option Int) (details : Option String) :
    (p.openIssue run details).IsReliable started fun _ => True := by
  have hopen : (p.client.openIssue p.repository issueTitle (issueBody run details)).IsReliable started
      fun v => ∃ entries, v = .map entries :=
    .bind (.log _ _ _) fun _ =>
      (ask_reliable (by simp)).weaken id fun _ h => h.2.issue p.client p.repository _ rfl
  refine .bind (.catching hopen _) fun issue => ?_
  cases issue with
  | error e => exact .bind (.log _ _ _) fun _ => .pure fun _ => trivial
  | ok issue =>
    refine .use fun hissue => ?_
    obtain ⟨entries, rfl⟩ := hissue.1 issue rfl
    exact ⟨_, rfl, trivial⟩

theorem post_reliable (hmarker : p.marker = .str marker) (review : StoredReview)
    (run given : Option Int) (details : Option String) :
    (p.post review run given details).IsReliable started fun _ => True := by
  have hverdict : (verdictOf review.reviewType).IsReliable started fun _ => True := by
    unfold verdictOf
    cases Verdict.ofText? review.reviewType with
    | some verdict => exact .pure fun _ => trivial
    | none => exact .bind (.log _ _ _) fun _ => .throw rfl
  refine .bind hverdict fun verdict => ?_
  cases knownNumber given review.pullRequest with
  | some n => exact submit_reliable hmarker review verdict (.int n)
  | none =>
    refine .bind (.catching (resolve_reliable run) _) fun pull => ?_
    cases pull with
    | ok pull => exact submit_reliable hmarker review verdict pull
    | error e =>
      exact .bind (.log _ _ _) fun _ => .bind (openIssue_reliable run details) fun _ =>
        .pure fun _ => trivial

end Poster

end ReviewGate

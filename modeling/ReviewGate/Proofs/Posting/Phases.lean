import ReviewGate.Proofs.Forge.Shared
import ReviewGate.Proofs.Posting.OneSummary
import ReviewGate.Proofs.Posting.Requests

/-! Posting a summary request by request. A poster that replaces summaries reads the comments page by page,
deletes those with the marker one after the other and adds a new one. Whatever happens on the forge between
its requests, it is always in one of these phases, and its next request is that of the phase. -/
namespace ReviewGate.Poster

open Forge Forge.Comment

/-- How far a poster is: so many pages have been read, with these comments on them, or these comments are
still to be deleted, or all is done, well or not. -/
inductive Phase where
  | listing (page : Nat) (seen : List Comment)
  | deleting (left : List Comment)
  | ended (ok : Bool)

namespace Phase

def start : Phase := .listing 0 []

def request (p : Poster) (pull : Value) (body : String) : Phase → Option Request
  | .listing page _ => some (p.client.listing p.repository pull (page + 1) 100)
  | .deleting (c :: _) => some (p.client.deletion p.repository c.id)
  | .deleting [] => some (p.client.addition p.repository pull (p.marked body))
  | .ended _ => none

/-- Whether all is done well, if it is done. -/
def outcome : Phase → Option Bool
  | .ended ok => some ok
  | _ => none

theorem eq_ended_of_outcome {phase : Phase} {ok : Bool} (h : phase.outcome = some ok) :
    phase = .ended ok := by
  cases phase with
  | ended ok' =>
    cases h
    rfl
  | _ => cases h

/-- All phases but the end have a request. -/
theorem request_cases (p : Poster) (pull : Value) (body : String) (phase : Phase) :
    (∃ ok, phase = .ended ok) ∨ phase.outcome = none ∧ ∃ q, phase.request p pull body = some q := by
  cases phase with
  | listing page seen => exact Or.inr ⟨rfl, _, rfl⟩
  | deleting left => cases left <;> exact Or.inr ⟨rfl, _, rfl⟩
  | ended ok => exact Or.inl ⟨ok, rfl⟩

/-- The phase after a request that the forge answers while it holds some comments. -/
def next (marker : String) (held : List Comment) : Phase → Phase
  | .listing page seen =>
    let here := (held.drop (page * 100)).take 100
    if here.length < 100 then .deleting ((seen ++ here).filter fun c => c.IsMarked marker)
    else .listing (page + 1) (seen ++ here)
  | .deleting (c :: left) => if c.id ∈ held.map Comment.id then .deleting left else .ended false
  | .deleting [] => .ended true
  | .ended ok => .ended ok

variable {marker : String} {held : List Comment} {page : Nat} {seen left : List Comment} {c : Comment}

theorem next_listing_of_short (h : ((held.drop (page * 100)).take 100).length < 100) :
    next marker held (.listing page seen) =
      .deleting ((seen ++ (held.drop (page * 100)).take 100).filter fun c => c.IsMarked marker) :=
  if_pos h

theorem next_listing_of_full (h : ¬ ((held.drop (page * 100)).take 100).length < 100) :
    next marker held (.listing page seen) = .listing (page + 1) (seen ++ (held.drop (page * 100)).take 100) :=
  if_neg h

theorem next_deleting_of_mem (h : c.id ∈ held.map Comment.id) :
    next marker held (.deleting (c :: left)) = .deleting left :=
  if_pos h

theorem next_deleting_of_not_mem (h : c.id ∉ held.map Comment.id) :
    next marker held (.deleting (c :: left)) = .ended false :=
  if_neg h

end Phase

variable {σ : Type} {h : Host σ} {p : Poster} {pull : Value} {marker body : String} {who : Bool}
  {hist : History} {x : σ} {q : Request} {phase : Phase} {s t : Runner} {result : Except Fault Value}

/-- Whether going on in a phase gives a result. What a poster knows of the comments are values that show
them. -/
inductive Resumes (p : Poster) (pull : Value) (body : String) (s : Runner) (result : Except Fault Value)
    (t : Runner) : Phase → Prop
  | listing {page : Nat} {seen : List Comment} {items : List Value} (shown : List.Forall₂ IsShownBy seen items)
    (run : (p.client.commentsFrom p.repository pull s.network (page + 1) >>= fun more =>
      Job.use (summariesIn p.marker (items ++ more)) >>= p.replaceSummaries pull body) s = (result, t)) :
    Resumes p pull body s result t (.listing page seen)
  | deleting {left : List Comment} {olds : List Value} (shown : List.Forall₂ IsShownBy left olds)
    (run : (p.deleteComments olds >>= fun _ =>
      p.client.addComment p.repository pull (p.marked body)) s = (result, t)) :
    Resumes p pull body s result t (.deleting left)
  | ended {ok : Bool} (requests : t.requests = s.requests) (isOk : result.isOk = ok) :
    Resumes p pull body s result t (.ended ok)

theorem Resumes.start (h : p.postSummary pull body s = (result, t)) :
    p.Resumes pull body s result t .start := by
  refine .listing .nil ?_
  rw [postSummary_eq, summaries, ← Action.bind_assoc_run, Client.comments,
    ← Action.bind_assoc_run, Action.bind_run_ok (Action.get_run s)] at h
  exact h

/-! ### The next request is that of the phase -/

/-- Whether the client has held a request back since its budget was low. -/
def IsHeldBack (result : Except Fault Value) : Prop :=
  ∃ reset, result = .error (.rateLimited reset)

/-- A request is held back, or what follows it does not take it back. -/
theorem send_first {k : Reply → Job Value} {P : Request → Prop}
    (hk : ∀ r, (k r).HasEffects (Effect.IsExchange P))
    (hrun : (send q >>= k) s = (result, t)) :
    (s.budget.isLow s.now = true ∧ IsHeldBack result ∧ t.requests = s.requests) ∨
      (s.budget.isLow s.now = false ∧ ∃ more, t.requests = s.requests ++ q :: more) := by
  rcases holdBack_run s with ⟨hopen, -⟩ | ⟨hlow, u, hhold, hwires⟩
  · refine Or.inr ⟨hopen, ?_⟩
    rcases hsend : send q s with ⟨sent, u⟩
    have hrequests : u.requests = s.requests ++ [q] := by
      cases send_ends hsend with
      | held reset hlow hwires =>
        rw [hopen] at hlow
        cases hlow
      | accepted r hsent => exact hsent.requests
      | refused e hsent => exact hsent.requests
      | illegible e hsent => exact hsent.requests
    rw [Action.bind_run, hsend] at hrun
    cases sent with
    | error e =>
      cases hrun
      exact ⟨[], hrequests⟩
    | ok r =>
      obtain ⟨more, hmore, -⟩ := (hk r).asks.of_run hrun
      exact ⟨more, by rw [hmore.requests, hrequests, List.append_assoc, List.singleton_append]⟩
  · have hsend : send q s = (.error (.rateLimited s.budget.reset), u) := by
      rw [send, Action.bind_run_error hhold]
    rw [Action.bind_run_error hsend] at hrun
    cases hrun
    exact Or.inl ⟨hlow, ⟨_, rfl⟩, hwires.requests⟩

theorem replaceSummaries_of_recreate (hrecreate : p.recreate = true) (olds : List Value) :
    p.replaceSummaries pull body olds =
      (p.deleteComments olds >>= fun _ => p.client.addComment p.repository pull (p.marked body)) := by
  unfold replaceSummaries
  rw [hrecreate]

theorem recreate_effects (olds : List Value) :
    (p.deleteComments olds >>= fun _ =>
      p.client.addComment p.repository pull (p.marked body)).HasEffects
        (Effect.IsExchange (p.Summarizes pull body)) :=
  .bind (p.deleteComments_effects pull body olds) fun _ => p.addSummary_effects pull body

/-- A comment is deleted before the others. -/
theorem deleteComments_run {α : Type} {c : Comment} {v : Value} (hv : c.IsShownBy v) (olds : List Value)
    (k : Job α) (s : Runner) : ∃ u, s.SameWires u ∧
      (p.deleteComments (v :: olds) >>= fun _ => k) s =
        (send (p.client.deletion p.repository c.id) >>= fun _ => p.deleteComments olds >>= fun _ => k) u := by
  obtain ⟨errors, w, hlog, -⟩ := Job.log_run .info Forge.source
    ("Deleting comment " ++ (Value.int c.id).text ++ " on " ++ p.repository.text) s
  refine ⟨{ s with errors := errors, workspace := w }, ⟨rfl, rfl, rfl, rfl, rfl, rfl⟩, ?_⟩
  simp only [deleteComments, Action.bind_run, Job.use_run, hv.id, Except.mapError, Client.deleteComment,
    hlog, Client.deletion_eq]
  rcases send (p.client.deletion p.repository c.id) { s with errors := errors, workspace := w } with
    ⟨e | r, u⟩ <;> rfl

theorem addComment_run (p : Poster) (pull : Value) (body : String) (s : Runner) : ∃ u, s.SameWires u ∧
    p.client.addComment p.repository pull (p.marked body) s =
      ask (p.client.addition p.repository pull (p.marked body)) u := by
  obtain ⟨errors, w, hlog, -⟩ := Job.log_run .info Forge.source
    ("Creating comment on " ++ p.repository.text ++ "#" ++ pull.text) s
  refine ⟨{ s with errors := errors, workspace := w }, ⟨rfl, rfl, rfl, rfl, rfl, rfl⟩, ?_⟩
  rw [Client.addComment, Action.bind_run_ok hlog, Client.addition_eq]

/-- Whatever the network is, a listing starts with the request for its first page. -/
theorem commentsFrom_ask (p : Poster) (pull : Value) (body : String) (net : Network) (page : Nat) :
    ∃ k : Value → Job (List Value),
      (∀ v, (k v).HasEffects (Effect.IsExchange (p.Summarizes pull body))) ∧
        p.client.commentsFrom p.repository pull net page =
          (ask (p.client.pageRequest p.repository pull page) >>= k) := by
  cases net with
  | down => exact ⟨_, fun v => .use _, rfl⟩
  | up answer next =>
    refine ⟨_, fun v => .bind (.use _) fun items => .ite (.pure _) (.bind ?_ fun _ => .pure _), rfl⟩
    exact p.client.commentsFrom_effects p.repository Summarizes.page _ _

/-- A run goes on by sending the request of its phase. -/
theorem Resumes.sends (hrecreate : p.recreate = true) (hresumes : p.Resumes pull body s result t phase)
    (hrequest : phase.request p pull body = some q) :
    ∃ (u : Runner) (k : Reply → Job Value), s.SameWires u ∧
      (∀ r, (k r).HasEffects (Effect.IsExchange (p.Summarizes pull body))) ∧ (send q >>= k) u = (result, t) := by
  have hjson : ∀ {k : Value → Job Value},
      (∀ v, (k v).HasEffects (Effect.IsExchange (p.Summarizes pull body))) →
      ∀ r : Reply, ((Job.ofExcept r.json : Job Value) >>= k).HasEffects
        (Effect.IsExchange (p.Summarizes pull body)) :=
    fun hk r => .bind (.ofExcept (json_failsPlainly r)) hk
  cases hresumes with
  | @listing page seen items hshown hrun =>
    obtain rfl : _ = q := Option.some.inj hrequest
    obtain ⟨k, hk, hask⟩ := p.commentsFrom_ask pull body s.network (page + 1)
    rw [hask, ← Action.bind_assoc_run, ask, ← Action.bind_assoc_run, Client.pageRequest_eq] at hrun
    refine ⟨s, _, .refl s, hjson fun v => .bind (hk v) fun more => .bind (.use _) fun olds => ?_, hrun⟩
    rw [replaceSummaries_of_recreate hrecreate]
    exact recreate_effects olds
  | @deleting left olds hshown hrun =>
    cases hshown with
    | nil =>
      obtain rfl : _ = q := Option.some.inj hrequest
      obtain ⟨u, hwires, hu⟩ := p.addComment_run pull body s
      rw [deleteComments, Action.bind_run_ok (Action.pure_run () s), hu, ← bind_pure (ask _), ask,
        ← Action.bind_assoc_run] at hrun
      exact ⟨u, _, hwires, hjson fun v => .pure v, hrun⟩
    | @cons c v left olds hv hmore =>
      obtain rfl : _ = q := Option.some.inj hrequest
      obtain ⟨u, hwires, hu⟩ := deleteComments_run hv olds
        (p.client.addComment p.repository pull (p.marked body)) s
      rw [hu] at hrun
      exact ⟨u, _, hwires, fun _ => recreate_effects olds, hrun⟩
  | ended => cases hrequest

theorem Resumes.first (hrecreate : p.recreate = true) (hresumes : p.Resumes pull body s result t phase)
    (hrequest : phase.request p pull body = some q) :
    (IsHeldBack result ∧ t.requests = s.requests) ∨
      (s.budget.isLow s.now = false ∧ ∃ more, t.requests = s.requests ++ q :: more) := by
  obtain ⟨u, k, hwires, hk, hrun⟩ := hresumes.sends hrecreate hrequest
  rw [← hwires.requests, ← hwires.budget, ← hwires.now]
  exact (send_first hk hrun).imp_left And.right

/-! ### What a request changes -/

/-- After a page either the next one is read, or all comments with the marker are known. -/
theorem Resumes.listing_step {page : Nat} {seen : List Comment} (hmarker : p.marker = .str marker)
    (hrecreate : p.recreate = true) (hgrants : h.GrantsIn p.client p.repository pull x)
    (hs : h.Faces who ((who, p.client.listing p.repository pull (page + 1) 100) :: hist) x s)
    (hopen : s.budget.isLow s.now = false) (hresumes : p.Resumes pull body s result t (.listing page seen)) :
    ∃ u, p.Resumes pull body u result t (Phase.next marker (h.comments x) (.listing page seen)) ∧
      u.requests = s.requests ++ [p.client.listing p.repository pull (page + 1) 100] ∧
      h.Faces who hist (h.next x (p.client.listing p.repository pull (page + 1) 100)) u := by
  generalize hq : p.client.listing p.repository pull (page + 1) 100 = q at hs ⊢
  cases hresumes with
  | @listing _ _ items hshown hrun =>
    rw [hs.up, Action.bind_run, commentsFrom_up] at hrun
    subst hq
    obtain ⟨here, u, hpage, hhere, hrequests, hu⟩ := hs.readPage hopen hgrants
    rw [Action.bind_run_ok hpage] at hrun
    refine ⟨u, ?_, hrequests, hu⟩
    have hall := List.rel_append hshown hhere
    have hlength := hhere.length_eq
    by_cases hshort : here.length < pageSize
    · rw [Phase.next_listing_of_short (hlength ▸ hshort)]
      rw [if_pos hshort] at hrun
      obtain ⟨olds, holds, hmarked⟩ : ∃ olds, summariesIn (.str marker) _ = .ok olds ∧ _ :=
        summariesIn_shown hall
      refine .deleting hmarked ?_
      rw [Action.pure_run] at hrun
      dsimp only at hrun
      rw [Action.bind_run, Job.use_run, hmarker, holds] at hrun
      rw [← replaceSummaries_of_recreate hrecreate]
      exact hrun
    · rw [Phase.next_listing_of_full (hlength ▸ hshort)]
      rw [if_neg hshort, ← Action.bind_run, ← Action.bind_assoc_run] at hrun
      refine .listing hall ?_
      rw [show u.network = _ from hu, ← Client.pageRequest_eq]
      simp only [List.append_assoc]
      exact hrun

/-- A comment that is there is deleted; to look for one that is not there is the end. -/
theorem Resumes.deletion_step {c : Comment} {left : List Comment}
    (hgrants : h.GrantsIn p.client p.repository pull x) (hmisses : h.Misses p.client p.repository x)
    (hs : h.Faces who ((who, p.client.deletion p.repository c.id) :: hist) x s)
    (hopen : s.budget.isLow s.now = false) (hresumes : p.Resumes pull body s result t (.deleting (c :: left))) :
    ∃ u, p.Resumes pull body u result t (Phase.next marker (h.comments x) (.deleting (c :: left))) ∧
      u.requests = s.requests ++ [p.client.deletion p.repository c.id] ∧
      (c.id ∈ h.ids x → h.Faces who hist (h.next x (p.client.deletion p.repository c.id)) u) := by
  cases hresumes with
  | @deleting _ _ hshown hrun =>
    cases hshown with
    | @cons _ v _ olds hv hmore =>
      obtain ⟨u, hwires, hu⟩ := deleteComments_run hv olds
        (p.client.addComment p.repository pull (p.marked body)) s
      rw [hu] at hrun
      rw [← hwires.requests]
      have hfaces := hs.of_wires hwires
      rw [← hwires.budget, ← hwires.now] at hopen
      by_cases hheld : c.id ∈ h.ids x
      · obtain ⟨d, hd, hid⟩ := List.mem_map.mp hheld
        obtain ⟨reply, hdeletes, -⟩ := hgrants.deletes d hd
        rw [hid] at hdeletes
        obtain ⟨u', hsend, hrequests, hu'⟩ := hfaces.send hopen hdeletes
        rw [Action.bind_run_ok hsend] at hrun
        rw [Phase.next_deleting_of_mem hheld]
        exact ⟨u', .deleting hmore hrun, hrequests, fun _ => hu'⟩
      · obtain ⟨reply, hanswer, hstatus, -⟩ := hmisses c.id hheld
        obtain ⟨e, u', hsend, hrequests⟩ := hfaces.miss hopen hanswer hstatus
        rw [Action.bind_run_error hsend] at hrun
        cases hrun
        rw [Phase.next_deleting_of_not_mem hheld]
        exact ⟨_, .ended rfl rfl, hrequests, fun h => absurd h hheld⟩

theorem Resumes.addition_step (hgrants : h.GrantsIn p.client p.repository pull x)
    (hs : h.Faces who ((who, p.client.addition p.repository pull (p.marked body)) :: hist) x s)
    (hopen : s.budget.isLow s.now = false) (hresumes : p.Resumes pull body s result t (.deleting [])) :
    ∃ u, p.Resumes pull body u result t (.ended true) ∧
      u.requests = s.requests ++ [p.client.addition p.repository pull (p.marked body)] ∧
      h.Faces who hist (h.next x (p.client.addition p.repository pull (p.marked body))) u := by
  cases hresumes with
  | @deleting _ _ hshown hrun =>
    cases hshown with
    | nil =>
      obtain ⟨u, hwires, hu⟩ := p.addComment_run pull body s
      rw [deleteComments, Action.bind_run_ok (Action.pure_run () s), hu] at hrun
      rw [← hwires.budget, ← hwires.now] at hopen
      obtain ⟨reply, v, id, hadds, hjson, -⟩ := hgrants.adds (p.marked body)
      obtain ⟨u', hask, hrequests, hu'⟩ := (hs.of_wires hwires).ask hopen hadds hjson
      rw [hask] at hrun
      cases hrun
      rw [← hwires.requests]
      exact ⟨_, .ended rfl rfl, hrequests, hu'⟩

theorem Resumes.step (hmarker : p.marker = .str marker) (hrecreate : p.recreate = true)
    (hgrants : h.GrantsIn p.client p.repository pull x) (hmisses : h.Misses p.client p.repository x)
    (hs : h.Faces who ((who, q) :: hist) x s) (hopen : s.budget.isLow s.now = false)
    (hrequest : phase.request p pull body = some q) (hresumes : p.Resumes pull body s result t phase) :
    ∃ u, p.Resumes pull body u result t (phase.next marker (h.comments x)) ∧
      u.requests = s.requests ++ [q] ∧
      ((phase.next marker (h.comments x)).outcome = none → h.Faces who hist (h.next x q) u) := by
  cases phase with
  | listing page seen =>
    obtain rfl := Option.some.inj hrequest
    obtain ⟨u, hnext, hrequests, hu⟩ := hresumes.listing_step hmarker hrecreate hgrants hs hopen
    exact ⟨u, hnext, hrequests, fun _ => hu⟩
  | deleting left =>
    cases left with
    | nil =>
      obtain rfl := Option.some.inj hrequest
      obtain ⟨u, hnext, hrequests, hu⟩ := hresumes.addition_step hgrants hs hopen
      exact ⟨u, hnext, hrequests, fun _ => hu⟩
    | cons c left =>
      obtain rfl := Option.some.inj hrequest
      obtain ⟨u, hnext, hrequests, hu⟩ := hresumes.deletion_step hgrants hmisses hs hopen
      refine ⟨u, hnext, hrequests, fun hgoes => hu ?_⟩
      by_contra hheld
      rw [Phase.next_deleting_of_not_mem hheld] at hgoes
      cases hgoes
  | ended => cases hrequest

/-! ### Whole runs -/

/-- Whether the requests from one side are those of its phases, and the last phase has an outcome, if it is
the end. -/
def Follows (h : Host σ) (p : Poster) (pull : Value) (marker body : String) (who : Bool) :
    History → σ → Phase → Option Bool → Prop
  | [], _, phase, outcome => phase.outcome = outcome
  | (w, q) :: hist, x, phase, outcome =>
    if w = who then
      phase.request p pull body = some q ∧
        Follows h p pull marker body who hist (h.next x q) (phase.next marker (h.comments x)) outcome
    else Follows h p pull marker body who hist (h.next x q) phase outcome

theorem follows_self {outcome : Option Bool} :
    p.Follows h pull marker body who ((who, q) :: hist) x phase outcome ↔
      phase.request p pull body = some q ∧
        p.Follows h pull marker body who hist (h.next x q) (phase.next marker (h.comments x)) outcome := by
  rw [Follows, if_pos rfl]

theorem follows_other {w : Bool} {outcome : Option Bool} (hw : w ≠ who) :
    p.Follows h pull marker body who ((w, q) :: hist) x phase outcome ↔
      p.Follows h pull marker body who hist (h.next x q) phase outcome := by
  rw [Follows, if_neg hw]

/-- Whether a run that stops in a phase with an outcome has a result: before the end it is held back. -/
def StopsWith (result : Except Fault Value) : Option Bool → Prop
  | some ok => result.isOk = ok
  | none => IsHeldBack result

section Runs

variable {c : Bool → Client} {r : Bool → Repository} {outcome : Option Bool} (hmarker : p.marker = .str marker)
  (hrecreate : p.recreate = true) (hclient : c who = p.client) (hrepository : r who = p.repository)
include hmarker hrecreate hclient hrepository

/-- A run that has sent the requests of its side has gone through the phases, and stops as they do. -/
theorem Resumes.follows (hshares : h.Shares c r pull hist x)
    (hs : phase.outcome = none → h.Faces who hist x s)
    (hresumes : p.Resumes pull body s result t phase)
    (hsent : t.requests = s.requests ++ hist.own who) :
    ∃ outcome, StopsWith result outcome ∧ p.Follows h pull marker body who hist x phase outcome := by
  -- The next request of the history is that of the phase, since no later one can come before it.
  induction hist generalizing x s phase with
  | nil =>
    rcases phase.request_cases p pull body with ⟨ok, rfl⟩ | ⟨hgoes, q, hrequest⟩
    · cases hresumes with
      | ended hrequests hok => exact ⟨some ok, hok, rfl⟩
    · rcases hresumes.first hrecreate hrequest with ⟨hheld, -⟩ | ⟨-, more, hmore⟩
      · exact ⟨none, hheld, hgoes⟩
      · have hnone : q :: more = [] := List.append_cancel_left (hmore.symm.trans hsent)
        cases hnone
  | cons e hist ih =>
    obtain ⟨w, q⟩ := e
    obtain ⟨hgrants, hmisses, -, hshares⟩ := hshares
    by_cases hw : w = who
    · subst hw
      rw [History.own_cons_self] at hsent
      rcases phase.request_cases p pull body with ⟨ok, rfl⟩ | ⟨hgoes, q', hrequest⟩
      · cases hresumes with
        | ended hrequests hok => simp [hrequests] at hsent
      · rcases hresumes.first hrecreate hrequest with ⟨-, hsame⟩ | ⟨hopen, more, hmore⟩
        · simp [hsame] at hsent
        · obtain ⟨rfl, -⟩ := List.cons.inj (List.append_cancel_left (hmore.symm.trans hsent))
          rw [hclient, hrepository] at hgrants hmisses
          obtain ⟨u, hnext, hrequests, hu⟩ :=
            hresumes.step hmarker hrecreate hgrants hmisses (hs hgoes) hopen hrequest
          have hrest : t.requests = u.requests ++ History.own w hist := by
            rw [hsent, hrequests, List.append_assoc, List.singleton_append]
          obtain ⟨outcome, hstops, hfollows⟩ := ih hshares hu hnext hrest
          exact ⟨outcome, hstops, follows_self.mpr ⟨hrequest, hfollows⟩⟩
    · obtain rfl : w = !who := Bool.eq_not.mpr hw
      rw [History.own_cons_other] at hsent
      obtain ⟨outcome, hstops, hfollows⟩ := ih hshares (fun hgoes => (hs hgoes).other) hresumes hsent
      exact ⟨outcome, hstops, (follows_other hw).mpr hfollows⟩

/-- A run whose phases are known sends the requests of its side, if it sends as many, and stops as they
do. -/
theorem Resumes.of_follows (hshares : h.Shares c r pull hist x)
    (hs : phase.outcome = none → h.Faces who hist x s)
    (hresumes : p.Resumes pull body s result t phase)
    (hlength : t.requests.length = s.requests.length + (hist.own who).length)
    (hfollows : p.Follows h pull marker body who hist x phase outcome) :
    t.requests = s.requests ++ hist.own who ∧ StopsWith result outcome := by
  induction hist generalizing x s phase with
  | nil =>
    obtain rfl : phase.outcome = outcome := hfollows
    rcases phase.request_cases p pull body with ⟨ok, rfl⟩ | ⟨hgoes, q, hrequest⟩
    · cases hresumes with
      | ended hrequests hok => exact ⟨hrequests.trans (List.append_nil _).symm, hok⟩
    · rcases hresumes.first hrecreate hrequest with ⟨hheld, hsame⟩ | ⟨-, more, hmore⟩
      · rw [hgoes]
        exact ⟨hsame.trans (List.append_nil _).symm, hheld⟩
      · simp [hmore, History.own] at hlength
  | cons e hist ih =>
    obtain ⟨w, q⟩ := e
    obtain ⟨hgrants, hmisses, -, hshares⟩ := hshares
    by_cases hw : w = who
    · subst hw
      obtain ⟨hrequest, hfollows⟩ := follows_self.mp hfollows
      rw [hclient, hrepository] at hgrants hmisses
      rw [History.own_cons_self] at hlength ⊢
      rcases hresumes.first hrecreate hrequest with ⟨-, hsame⟩ | ⟨hopen, -⟩
      · simp [hsame] at hlength
      · have hgoes : phase.outcome = none := by
          rcases phase.request_cases p pull body with ⟨ok, rfl⟩ | ⟨hgoes, -⟩
          · cases hrequest
          · exact hgoes
        obtain ⟨u, hnext, hrequests, hu⟩ :=
          hresumes.step hmarker hrecreate hgrants hmisses (hs hgoes) hopen hrequest
        have hrest : t.requests.length = u.requests.length + (History.own w hist).length := by
          rw [hlength, hrequests, List.length_append, List.length_singleton, List.length_cons]
          omega
        obtain ⟨hsent, hstops⟩ := ih hshares hu hnext hrest hfollows
        rw [hsent, hrequests, List.append_assoc, List.singleton_append]
        exact ⟨rfl, hstops⟩
    · obtain rfl : w = !who := Bool.eq_not.mpr hw
      rw [History.own_cons_other] at hlength ⊢
      exact ih hshares (fun hgoes => (hs hgoes).other) hresumes hlength ((follows_other hw).mp hfollows)

end Runs

end ReviewGate.Poster

import ReviewGate.Proofs.Forge.Attempt
import ReviewGate.Proofs.Forge.Budget

/-! Sessions of a client: calls one after the other, between which the clock moves as it likes. Over a whole
session the budget is what the replies have said, and a request goes out just when the budget allows it. -/
namespace ReviewGate

namespace Forge

/-- Whether the budget stands in the way of a request. -/
def Attempt.IsHeld (a : Attempt) : Prop :=
  a.before.budget.remaining ≤ 10 ∧ a.before.now < a.before.budget.reset

instance (a : Attempt) : Decidable a.IsHeld :=
  inferInstanceAs (Decidable (_ ∧ _))

/-- The requests of the attempts that nothing stands in the way of. -/
def requestsOf (as : List Attempt) : List Request :=
  (as.filter fun a => ¬ a.IsHeld).map Attempt.request

theorem Attempt.isLow_iff (a : Attempt) : a.before.budget.isLow a.before.now = true ↔ a.IsHeld :=
  Budget.isLow_iff

theorem Attempt.IsMade.of_held {a : Attempt} (h : a.IsMade) (hheld : a.IsHeld) :
    a.result = .error (.rateLimited a.before.budget.reset) ∧ a.before.SameWires a.after := by
  obtain ⟨t, hsend, hwires⟩ := send_low (q := a.request) (a.isLow_iff.mpr hheld)
  obtain ⟨hresult, rfl⟩ := Action.outcome_eq.mp (h.symm.trans hsend)
  exact ⟨hresult, hwires⟩

theorem Attempt.IsMade.of_free {a : Attempt} (h : a.IsMade) (hfree : ¬ a.IsHeld) :
    Settled a.request a.before a.after :=
  (send_high (Bool.eq_false_iff.mpr fun hlow => hfree (a.isLow_iff.mp hlow)) h).1

theorem Attempt.IsMade.sends {a : Attempt} (h : a.IsMade) :
    a.before.Sends (requestsOf [a]) a.after := by
  by_cases hheld : a.IsHeld
  · simpa [requestsOf, hheld] using (h.of_held hheld).2.sends
  · simpa [requestsOf, hheld] using (h.of_free hheld).sent

theorem Attempt.IsMade.sent_iff {a : Attempt} (h : a.IsMade) :
    a.before.Sends [a.request] a.after ↔ ¬ a.IsHeld := by
  refine ⟨fun hsent hheld => ?_, fun hfree => (h.of_free hfree).sent⟩
  exact absurd (hsent.unique (h.of_held hheld).2.sends) (by simp)

theorem Course.sends {α : Type} {s t : Runner} {as : List Attempt} {result : Except Fault α}
    (h : Course s as result t) : s.Sends (requestsOf as) t := by
  induction h with
  | rest hwires _ => exact hwires.sends
  | failed a e hstart hmade _ hwires => exact (hmade.sends.before hwires).after hstart
  | answered a r hstart hmade _ _ ih =>
    have hall := (hmade.sends.after hstart).trans ih
    rwa [requestsOf, requestsOf, ← List.map_append, ← List.filter_append] at hall

/-! ### Calls in a row -/

/-- A call in a session: the attempts that it makes, and how it ends. -/
structure Visit where
  call : Call
  attempts : List Attempt
  result : Except Fault Unit

end Forge

/-- A machine whose clock has moved, in either direction. -/
def Runner.wait (s : Runner) (seconds : Int) : Runner :=
  { s with now := s.now + seconds }

namespace Forge

/-- How planned calls go, the clock moving before each of them. A fault ends its call, not the session. -/
inductive Session (c : Client) : Runner → List (Int × Call) → List Visit → Runner → Prop
  | ended (s : Runner) : Session c s [] [] s
  | call {s t u : Runner} {seconds : Int} {call : Call} {plan : List (Int × Call)} {as : List Attempt}
    {result : Except Fault Unit} {visits : List Visit}
    (run : call.perform c (s.wait seconds) = (result, t)) (course : Course (s.wait seconds) as result t)
    (more : Session c t plan visits u) :
    Session c s ((seconds, call) :: plan) (⟨call, as, result⟩ :: visits) u

namespace Session

variable {c : Client} {s t : Runner} {plan : List (Int × Call)} {visits : List Visit}

/-- Whatever is planned, there is such a session. -/
theorem exists_of_plan (c : Client) (plan : List (Int × Call)) (s : Runner) :
    ∃ visits t, Session c s plan visits t := by
  induction plan generalizing s with
  | nil => exact ⟨[], s, .ended s⟩
  | cons step plan ih =>
    obtain ⟨seconds, call⟩ := step
    obtain ⟨as, hcourse⟩ := call.perform_hasCourse c (s.wait seconds)
    obtain ⟨visits, u, hmore⟩ := ih (call.perform c (s.wait seconds)).2
    exact ⟨_, u, .call rfl hcourse hmore⟩

/-- What is on the wire after a session are the requests that the budget did not stand in the way of. -/
theorem sends (h : Session c s plan visits t) :
    s.Sends (requestsOf (visits.flatMap Visit.attempts)) t := by
  induction h with
  | ended s => exact (Runner.SameWires.refl s).sends
  | call _ hcourse _ ih =>
    have hall := hcourse.sends.trans ih
    rw [requestsOf, requestsOf, ← List.map_append, ← List.filter_append] at hall
    exact ⟨hall.requests, hall.network⟩

/-- What neither the clock nor the log changes, and what each attempt keeps, is kept by a session. -/
theorem invariant {P : Runner → Prop} (hwires : ∀ {s t : Runner}, s.SameWires t → P s → P t)
    (hwait : ∀ {s : Runner} (seconds : Int), P s → P (s.wait seconds))
    (hsend : ∀ {a : Attempt}, a.IsMade → P a.before → P a.after) (h : Session c s plan visits t)
    (hs : P s) : P t ∧ ∀ v ∈ visits, ∀ a ∈ v.attempts, a.IsMade ∧ P a.before ∧ P a.after := by
  induction h with
  | ended s => exact ⟨hs, by simp⟩
  | call _ hcourse _ ih =>
    obtain ⟨hnext, hfirst⟩ := hcourse.invariant hwires hsend (hwait _ hs)
    obtain ⟨ht, hall⟩ := ih hnext
    exact ⟨ht, List.forall_mem_cons.mpr ⟨hfirst, hall⟩⟩

theorem result_of_failed (h : Session c s plan visits t) {v : Visit} (hv : v ∈ visits) {a : Attempt}
    (ha : a ∈ v.attempts) {e : Fault} (he : a.result = .error e) : v.result = .error e := by
  induction h with
  | ended s => cases hv
  | call _ hcourse _ ih =>
    rcases List.mem_cons.mp hv with rfl | hv
    · exact hcourse.result_of_failed ha he
    · exact ih hv

end Session

/-! ### The budget over a session -/

def Outcome.reply? : Outcome → Option Reply
  | .broken _ => none
  | .reply r => some r

/-- The replies to requests, in the order in which they came. -/
def repliesOf (exchange : List (Request × Outcome)) : List Reply :=
  exchange.filterMap fun x => x.2.reply?

/-- The budget of a client by all the replies since it was created: what the last of them that say so say
remains, and the last time of a reset. -/
def Budget.told (created : Int) (replies : List Reply) : Budget :=
  ⟨(replies.reverse.findSome? Reply.remaining?).getD 5000,
    (replies.reverse.findSome? Reply.reset?).getD created⟩

private theorem last_getD {α β : Type} (f : α → Option β) (as : List α) (a : α) (default : β) :
    ((as ++ [a]).reverse.findSome? f).getD default =
      (f a).getD ((as.reverse.findSome? f).getD default) := by
  rw [List.reverse_append, List.reverse_singleton, List.singleton_append, List.findSome?_cons]
  rcases f a with _ | b <;> rfl

theorem Budget.told_append (created : Int) (replies : List Reply) (r : Reply) :
    told created (replies ++ [r]) = (told created replies).note r := by
  simp only [told, note, last_getD]

theorem Budget.told_afterOutcome (created : Int) (exchange : List (Request × Outcome)) (q : Request)
    (o : Outcome) :
    told created (repliesOf (exchange ++ [(q, o)])) = (told created (repliesOf exchange)).afterOutcome o := by
  rcases o with r | d
  · simp only [repliesOf, List.filterMap_append, List.filterMap_cons, List.filterMap_nil, Outcome.reply?,
      told_append, afterOutcome]
  · simp only [repliesOf, List.filterMap_append, List.filterMap_cons, List.filterMap_nil, Outcome.reply?,
      List.append_nil, afterOutcome]

end Forge

/-- Whether the budget is what the replies have said to all the requests since the client was created. -/
def Runner.IsAccounted (created s : Runner) : Prop :=
  ∃ qs, created.Sends qs s ∧
    s.budget = Forge.Budget.told created.now (Forge.repliesOf (created.network.exchange qs))

namespace Runner.IsAccounted

variable {created s t : Runner}

theorem wires (h : s.SameWires t) (hs : created.IsAccounted s) : created.IsAccounted t := by
  obtain ⟨qs, hsent, hbudget⟩ := hs
  exact ⟨qs, hsent.before h, h.budget.trans hbudget⟩

theorem wait (seconds : Int) (hs : created.IsAccounted s) : created.IsAccounted (s.wait seconds) := by
  obtain ⟨qs, hsent, hbudget⟩ := hs
  exact ⟨qs, ⟨hsent.requests, hsent.network⟩, hbudget⟩

/-- An attempt keeps the account: it is held back, or what comes of it is noted. -/
theorem attempt {a : Forge.Attempt} (ha : a.IsMade) (hs : created.IsAccounted a.before) :
    created.IsAccounted a.after := by
  by_cases hheld : a.IsHeld
  · exact hs.wires (ha.of_held hheld).2
  · obtain ⟨qs, hsent, hbudget⟩ := hs
    have hsettled := ha.of_free hheld
    refine ⟨qs ++ [a.request], hsent.trans hsettled.sent, ?_⟩
    rw [hsent.exchange, Forge.Network.exchange, Forge.Network.exchange, Forge.Budget.told_afterOutcome,
      hsettled.budget, hbudget]

end Runner.IsAccounted

namespace Forge

/-- What holds of every attempt of a call, from the creation of the client on. A request is held back
just while at most ten requests remain and the reset is still to come; then nothing changes but the log,
and the call fails. -/
structure Attempt.KeepsBudget (created : Runner) (result : Except Fault Unit) (a : Attempt) : Prop where
  made : a.IsMade
  before : created.IsAccounted a.before
  after : created.IsAccounted a.after
  sent_iff : a.before.Sends [a.request] a.after ↔
    ¬ (a.before.budget.remaining ≤ 10 ∧ a.before.now < a.before.budget.reset)
  held : ¬ a.before.Sends [a.request] a.after → a.before.SameWires a.after ∧
    a.result = .error (.rateLimited a.before.budget.reset) ∧
    result = .error (.rateLimited a.before.budget.reset)
  broken : ∀ d, (a.before.network.answer a.request).outcome = .broken d →
    a.after.budget = a.before.budget

/-- In every session of a new client the budget is at all times what the replies have said, and each
request is sent just when the budget allows it. -/
theorem Session.keeps_budget {token baseUrl timeout : Value} {c : Client} {created s : Runner}
    (hconnect : Client.connect token baseUrl timeout created = (.ok c, s)) (plan : List (Int × Call)) :
    (∃ visits t, Session c s plan visits t) ∧
      ∀ visits t, Session c s plan visits t →
        created.IsAccounted t ∧ s.Sends (requestsOf (visits.flatMap Visit.attempts)) t ∧
          ∀ v ∈ visits, ∀ a ∈ v.attempts, a.KeepsBudget created v.result := by
  have hnew : created.IsAccounted s := by
    obtain ⟨client, u, hmake, hdone⟩ := Action.bind_eq_ok.mp hconnect
    rw [Job.ofExcept_run] at hmake
    obtain ⟨-, rfl⟩ := Action.outcome_eq.mp hmake
    cases hdone
    exact ⟨[], ⟨by simp, rfl⟩, rfl⟩
  refine ⟨exists_of_plan c plan s, fun visits t hsession => ?_⟩
  obtain ⟨ht, hall⟩ := hsession.invariant Runner.IsAccounted.wires Runner.IsAccounted.wait
    Runner.IsAccounted.attempt hnew
  refine ⟨ht, hsession.sends, fun v hv a ha => ?_⟩
  obtain ⟨hmade, hbefore, hafter⟩ := hall v hv a ha
  refine ⟨hmade, hbefore, hafter, hmade.sent_iff, fun hunsent => ?_, fun d hbroken => ?_⟩
  · have hheld : a.IsHeld := Decidable.byContradiction fun hfree => hunsent (hmade.sent_iff.mpr hfree)
    obtain ⟨hresult, hwires⟩ := hmade.of_held hheld
    exact ⟨hwires, hresult, hsession.result_of_failed hv ha hresult⟩
  · by_cases hheld : a.IsHeld
    · exact (hmade.of_held hheld).2.budget
    · rw [(hmade.of_free hheld).budget, hbroken]
      rfl

/-- A forge that refuses a request, and says that three more remain, until after a minute. -/
def refusing : Runner :=
  { Runner.fresh 1700000000 with
    network := .script
      [.reply (.of 403 [(remainingHeader, "3"), (resetHeader, "1700000060")] ""), .reply (.of 200 [] "[]")] }

theorem Session.keeps_budget_of_refusal :
    ∃ c s, Client.connect (.str "t") (.str "https://api.github.com/") (.int 30) refusing = (.ok c, s) ∧
      ∃ visits t, Session c s
        [(1, .comments ⟨"owner", "repo"⟩ (.int 7)),
          (58, .addReview ⟨"owner", "repo"⟩ (.int 7) "APPROVE" "" [])] visits t ∧
        ∀ v ∈ visits, ∀ a ∈ v.attempts, a.KeepsBudget refusing v.result := by
  have hconnect : Client.connect (.str "t") (.str "https://api.github.com/") (.int 30) refusing =
      (.ok ⟨.str "t", "https://api.github.com", .int 30⟩,
        { refusing with budget := .initial refusing.now }) :=
    rfl
  obtain ⟨⟨visits, t, hsession⟩, hall⟩ := keeps_budget hconnect
    [(1, .comments ⟨"owner", "repo"⟩ (.int 7)), (58, .addReview ⟨"owner", "repo"⟩ (.int 7) "APPROVE" "" [])]
  exact ⟨_, _, hconnect, visits, t, hsession, (hall visits t hsession).2.2⟩

end Forge

end ReviewGate

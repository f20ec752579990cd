import ReviewGate.Proofs.Forge.Exchange

/-! The budget of a client after an attempt to send a request: it is what the last replies said, also when
they were refusals, and nothing else changes it. -/
namespace ReviewGate.Forge

/-- How many requests remain by a reply, if it says so with a number. -/
def Reply.remaining? (r : Reply) : Option Int :=
  (r.header? remainingHeader).bind fun text => (Number.readInt text).toOption

/-- The time of the next reset by a reply, if it gives one. A reply that says how many requests remain, but
not with a number, is not read any further. -/
def Reply.reset? (r : Reply) : Option Int :=
  if (r.header? remainingHeader).isSome ∧ r.remaining? = none then none
  else
    (r.header? resetHeader).bind fun text =>
      (Number.readInt text).toOption.bind fun n => (checkTime n).toOption

/-- The budget after a reply. -/
def Budget.note (b : Budget) (r : Reply) : Budget :=
  ⟨r.remaining?.getD b.remaining, r.reset?.getD b.reset⟩

/-- The budget after a request, which a failure on the way leaves as it was. -/
def Budget.afterOutcome (b : Budget) : Outcome → Budget
  | .broken _ => b
  | .reply r => b.note r

theorem Budget.isLow_iff {b : Budget} {now : Int} :
    b.isLow now = true ↔ b.remaining ≤ reserve ∧ now < b.reset := by
  simp [isLow]

/-! ### What is taken note of -/

theorem noteNumber_remaining (r : Reply) (s : Runner) :
    noteNumber r remainingHeader noteRemaining s =
      ((headerNumber r remainingHeader).map fun _ => (),
        { s with budget := { s.budget with remaining := r.remaining?.getD s.budget.remaining } }) := by
  simp only [noteNumber, Action.bind_run, Job.ofExcept_run, headerNumber, Reply.remaining?]
  rcases r.header? remainingHeader with _ | text
  · rfl
  · simp only [Option.bind_some]
    rcases Number.readInt text with f | n
    · rfl
    · rfl

theorem noteNumber_reset {r : Reply} (hremaining : ∃ n, headerNumber r remainingHeader = .ok n)
    (s : Runner) :
    (noteNumber r resetHeader noteReset s).2 =
      { s with budget := { s.budget with reset := r.reset?.getD s.budget.reset } } := by
  have hread : ¬ ((r.header? remainingHeader).isSome ∧ r.remaining? = none) := by
    rintro ⟨hsome, hnone⟩
    obtain ⟨n, hn⟩ := hremaining
    obtain ⟨text, htext⟩ := Option.isSome_iff_exists.mp hsome
    simp only [headerNumber, htext] at hn
    simp only [Reply.remaining?, htext, Option.bind_some] at hnone
    rcases htext' : Number.readInt text with f | m
    · rw [htext'] at hn
      cases hn
    · rw [htext'] at hnone
      cases hnone
  simp only [noteNumber, Action.bind_run, Job.ofExcept_run, headerNumber, Reply.reset?, if_neg hread]
  rcases r.header? resetHeader with _ | text
  · rfl
  · simp only [Option.bind_some]
    rcases Number.readInt text with f | n
    · rfl
    · simp only [Except.mapError, Except.map, noteReset, Action.bind_run, Job.ofExcept_run,
        Except.toOption, Option.bind_some]
      rcases checkTime n with e | time
      · rfl
      · rfl

/-- Of what a reply says about the budget, all that can be made sense of is kept, up to the first thing
that cannot. -/
theorem noteBudget_budget (r : Reply) (s : Runner) :
    (noteBudget r s).2 = { s with budget := s.budget.note r } := by
  rw [noteBudget_eq, Action.bind_run, noteNumber_remaining]
  rcases hn : headerNumber r remainingHeader with e | n
  · have hstop : (r.header? remainingHeader).isSome ∧ r.remaining? = none := by
      unfold headerNumber at hn
      unfold Reply.remaining?
      rcases hheader : r.header? remainingHeader with _ | text
      · rw [hheader] at hn
        cases hn
      · rcases htext : Number.readInt text with f | m
        · simp [htext, Except.toOption]
        · rw [hheader] at hn
          simp only [htext] at hn
          cases hn
    simp only [Except.map, Budget.note, Reply.reset?, if_pos hstop, Option.getD_none]
  · simp only [Except.map, noteNumber_reset ⟨n, hn⟩, Budget.note]

/-- A refusal that is about the rate of requests says until when it holds. -/
theorem accept_limited {r : Reply} (h : r.status = 429) (s : Runner) :
    accept r s = (.error (.rateLimited
      (if (r.header? resetHeader).isSome then s.budget.reset else s.now + patience)), s) := by
  simp only [accept, h, if_true, resetOf, Action.bind_run, Action.get_run, Action.pure_run,
    Action.throw_run]

/-- No other reply is such a refusal. -/
theorem accept_eq_limited {r : Reply} {s t : Runner} {reset : Int}
    (h : accept r s = (.error (.rateLimited reset), t)) : r.status = 429 := by
  obtain ⟨result, htaken, hrun⟩ := accept_run r s
  cases hrun.symm.trans h
  cases htaken with
  | limited _ hstatus => exact hstatus
  | unexplained _ _ _ hfault => cases hfault.isForge

theorem accept_state (r : Reply) (s : Runner) : (accept r s).2 = s := by
  obtain ⟨result, -, hrun⟩ := accept_run r s
  rw [hrun]

/-! ### One attempt -/

/-- Once an outcome has been made sense of, or has not, the budget is what it says. -/
theorem settle_state {o : Outcome} {s t : Runner} {result : Except Fault Reply}
    (h : settle o s = (result, t)) :
    s.Sends [] t ∧ t.now = s.now ∧ t.budget = s.budget.afterOutcome o := by
  rcases o with r | d
  · rw [settle, Action.bind_run] at h
    have hnote := noteBudget_budget r s
    rcases hrun : noteBudget r s with ⟨e | _, u⟩
    all_goals
      rw [hrun] at hnote h
      dsimp only at hnote h
      subst hnote
    · cases h
      exact ⟨⟨by simp, rfl⟩, rfl, rfl⟩
    · obtain rfl : t = { s with budget := s.budget.note r } := by
        rw [← accept_state r { s with budget := s.budget.note r }, h]
      exact ⟨⟨by simp, rfl⟩, rfl, rfl⟩
  · obtain ⟨errors, w, hlog, -⟩ := Job.log_run .error source ("Request failed: " ++ d) s
    rw [settle, Action.bind_run_ok hlog] at h
    cases h
    exact ⟨⟨by simp, rfl⟩, rfl, rfl⟩

/-- When a request that has gone out comes to a limit, the reply was such a refusal. -/
theorem settle_limited {o : Outcome} {s t : Runner} {reset : Int}
    (h : settle o s = (.error (.rateLimited reset), t)) :
    ∃ r, o = .reply r ∧ r.status = 429 ∧
      reset = if (r.header? resetHeader).isSome then t.budget.reset else t.now + patience := by
  rcases o with r | d
  · refine ⟨r, rfl, ?_⟩
    obtain ⟨b, ⟨-, hnote⟩ | ⟨e, hfault, hnote⟩⟩ := noteBudget_run r s
    · rw [settle, Action.bind_run_ok hnote] at h
      have hlimit := accept_eq_limited h
      rw [accept_limited hlimit] at h
      cases h
      exact ⟨hlimit, rfl⟩
    · rw [settle, Action.bind_run_error hnote] at h
      cases h
      cases hfault.isForge
  · obtain ⟨errors, w, hlog, -⟩ := Job.log_run .error source ("Request failed: " ++ d) s
    rw [settle, Action.bind_run_ok hlog] at h
    cases h

/-- While the budget is low nothing is sent. -/
theorem send_low {q : Request} {s : Runner} (h : s.budget.isLow s.now = true) :
    ∃ t, send q s = (.error (.rateLimited s.budget.reset), t) ∧ s.SameWires t := by
  rcases holdBack_run s with ⟨hhigh, -⟩ | ⟨-, t, hhold, hwires⟩
  · rw [h] at hhigh
    cases hhigh
  · exact ⟨t, Action.bind_run_error hhold _, hwires⟩

/-- Whether a request has gone out and its outcome has been taken note of. -/
structure Settled (q : Request) (s t : Runner) : Prop where
  sent : s.Sends [q] t
  now : t.now = s.now + (s.network.answer q).elapsed
  budget : t.budget = s.budget.afterOutcome (s.network.answer q).outcome

/-- While the budget is not low the request is sent. -/
theorem send_high {q : Request} {s t : Runner} {result : Except Fault Reply}
    (h : s.budget.isLow s.now = false) (hrun : send q s = (result, t)) :
    Settled q s t ∧ ∀ reset, result = .error (.rateLimited reset) →
      ∃ r, (s.network.answer q).outcome = .reply r ∧ r.status = 429 ∧
        reset = if (r.header? resetHeader).isSome then t.budget.reset else t.now + patience := by
  rw [send_eq, Action.bind_run_ok (holdBack_high h)] at hrun
  obtain ⟨hsent, hnow, hbudget⟩ := settle_state hrun
  refine ⟨⟨⟨?_, hsent.network⟩, hnow, hbudget⟩, ?_⟩
  · simpa using hsent.requests
  · rintro reset rfl
    exact settle_limited hrun

end ReviewGate.Forge

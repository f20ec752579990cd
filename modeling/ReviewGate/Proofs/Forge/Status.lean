import ReviewGate.Proofs.Forge.Exchange

/-! What an answer of the forge is taken as. The status decides, as long as sense can be made of what the
headers say about the budget and of the body of a refusal; when it cannot, the status is lost. -/
namespace ReviewGate.Forge

variable {q : Request} {r : Reply} {s t : Runner} {result : Except Fault Reply}

/-- Whether a result is the one that a reply calls for: the reply itself if the library takes it for a
success, which it does for the statuses of HTTP that are below 400, or else a refusal with its status, which
has a form of its own if it is about the rate of requests. -/
structure Reply.IsSorted (r : Reply) (result : Except Fault Reply) : Prop where
  accepted : result = .ok r ↔ r.isOk = true
  below : r.status < 600 → (result = .ok r ↔ r.status < 400)
  limited : (∃ reset, result = .error (.rateLimited reset)) ↔ r.status = 429
  refused : (∃ entries, r.Explains entries ∧
      result = .error (.answer r.status (.map entries) (reasonIn entries))) ↔
    r.isOk = false ∧ r.status ≠ 429

/-- The reply calls for the result if a refusal need not be explained or is. -/
theorem Reply.IsTakenAs.isSorted (h : r.IsTakenAs result) (hexplained : r.isOk = true ∨ r.IsExplained) :
    r.IsSorted result := by
  have hbelow : (result = .ok r ↔ r.isOk = true) → r.status < 600 → (result = .ok r ↔ r.status < 400) :=
    fun hok hstatus => hok.trans (r.isOk_iff hstatus)
  cases h with
  | accepted hok =>
    have hlimit : r.status ≠ 429 := fun hstatus => by simp [r.not_isOk_of_limit hstatus] at hok
    have haccepted : (Except.ok r : Except Fault Reply) = .ok r ↔ r.isOk = true := by simp [hok]
    exact ⟨haccepted, hbelow haccepted, by simp [hlimit], by simp [hok]⟩
  | limited reset hstatus =>
    have hok := r.not_isOk_of_limit hstatus
    have haccepted : (Except.error (.rateLimited reset) : Except Fault Reply) = .ok r ↔ r.isOk = true := by
      simp [hok]
    exact ⟨haccepted, hbelow haccepted, by simp [hstatus], by simp [hstatus]⟩
  | refused entries hok hlimit hdata =>
    have haccepted : (Except.error (.answer r.status (.map entries) (reasonIn entries)) :
        Except Fault Reply) = .ok r ↔ r.isOk = true := by simp [hok]
    exact ⟨haccepted, hbelow haccepted, by simp [hlimit], iff_of_true ⟨entries, hdata, rfl⟩ ⟨hok, hlimit⟩⟩
  | unexplained e hok hlimit hfault =>
    rcases hexplained with hok' | hexplained
    · rw [hok] at hok'
      cases hok'
    · exact absurd hexplained (hfault.not_isExplained hlimit)

/-- Without an explanation a refusal comes to a fault of its body. -/
theorem Reply.IsTakenAs.bodyFault (h : r.IsTakenAs result)
    (hexplained : ¬ (r.isOk = true ∨ r.IsExplained)) : ∃ e, result = .error e ∧ r.BodyFault e := by
  cases h with
  | accepted hok => exact absurd (Or.inl hok) hexplained
  | limited reset hstatus => exact absurd (Or.inr (Or.inl hstatus)) hexplained
  | refused entries _ _ hdata => exact absurd (Or.inr hdata.isExplained) hexplained
  | unexplained e _ _ hfault => exact ⟨e, rfl, hfault⟩

/-- Whatever the network answers to a request that is sent, a failure on the way comes to a fault without a
status, and a reply to what it calls for if sense can be made of it. A reply of which no sense can be made
comes to the fault of its budget or its body, which is none of the forge, whatever the status: a number or a
time in the headers that is none, or a refusal with a body that is no JSON, is nested too deeply or is no
map. -/
theorem send_sorts_answers (hhigh : s.budget.isLow s.now = false) (hrun : send q s = (result, t)) :
    s.Sends [q] t ∧
      (∀ d, (s.network.answer q).outcome = .broken d → result = .error (.transport d)) ∧
      ∀ r, (s.network.answer q).outcome = .reply r →
        ((Outcome.reply r).IsLegible → r.IsSorted result) ∧
        (¬ (Outcome.reply r).IsLegible →
          ∃ e, result = .error e ∧ (r.BudgetFault e ∨ r.BodyFault e) ∧ e.isForge = false) := by
  obtain ⟨hsent, hcomes⟩ := send_comesTo hhigh hrun
  refine ⟨hsent, fun d hbroken => ?_, fun r hreply => ?_⟩
  · rw [hbroken] at hcomes
    cases hcomes
    rfl
  · rw [hreply] at hcomes
    cases hcomes with
    | taken hbudget htaken =>
      simp only [Outcome.IsLegible, hbudget, true_and]
      refine ⟨htaken.isSorted, fun hexplained => ?_⟩
      obtain ⟨e, rfl, hfault⟩ := htaken.bodyFault hexplained
      exact ⟨e, rfl, Or.inr hfault, hfault.isForge⟩
    | unbudgeted hfault =>
      exact ⟨fun hlegible => absurd hlegible.1 hfault.not_hasBudget,
        fun _ => ⟨_, rfl, Or.inl hfault, hfault.isForge⟩⟩

def exampleRequest : Request :=
  ⟨"POST", "https://api.github.com/repos/owner/repo/issues/17/comments", .int 30, none, none⟩

/-- A machine whose next request gets this reply. -/
def answeredWith (r : Reply) : Runner :=
  { Runner.fresh 0 with network := .script [.reply r] }

def notFound : Reply := .of 404 [("X-RateLimit-Remaining", "41")] "\x7b\x7d"

theorem send_sorts_answers_notFound :
    ∃ entries, notFound.Explains entries ∧
      (send exampleRequest (answeredWith notFound)).1 =
        .error (.answer 404 (.map entries) (reasonIn entries)) := by
  have hrun : send exampleRequest (answeredWith notFound) =
    ((send exampleRequest (answeredWith notFound)).1, (send exampleRequest (answeredWith notFound)).2) := rfl
  have hlegible : (Outcome.reply notFound).IsLegible :=
    ⟨⟨⟨some 41, rfl⟩, none, rfl, by simp⟩, Or.inr (Or.inr (Or.inr ⟨[], rfl⟩))⟩
  obtain ⟨-, -, hreply⟩ := send_sorts_answers (by decide) hrun
  exact ((hreply notFound rfl).1 hlegible).refused.mpr ⟨by decide, by decide⟩

/-- What a proxy in front of the forge says when the forge is not up. -/
def badGateway : Reply := .of 502 [] "<html>Bad Gateway</html>"

/-- The page of a proxy comes to a fault of its text, which does not have its status. -/
theorem send_loses_status_of_page :
    ((answeredWith badGateway).network.answer exampleRequest).outcome = .reply badGateway ∧
      (send exampleRequest (answeredWith badGateway)).1 = .error (.notJson ⟨.value, 1, 1, 0⟩) :=
  ⟨rfl, rfl⟩

end ReviewGate.Forge

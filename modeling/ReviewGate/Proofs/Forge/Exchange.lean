import ReviewGate.Proofs.Effects

/-! What comes of a request. A reply can be made sense of, or it cannot: a header that should be a number
may be none, and the body of a refusal or of an answer may be no JSON. Only the failures of the first
kind count as failures of the forge. -/
namespace ReviewGate

namespace Forge

@[simp] theorem Client.requestFor_method (c : Client) (r : Repository) (method : String) (e : Endpoint) :
    (c.requestFor r method e).method = method := rfl

/-- The address of a request is that of the client, followed by the ways to the repository and in it. -/
theorem Client.requestFor_url (c : Client) (r : Repository) (method : String) (e : Endpoint) :
    (c.requestFor r method e).url = c.baseUrl ++ r.path ++ e.path := by
  apply String.toList_injective
  simp [Client.requestFor, Client.request, Text.dropLeading, Repository.path, String.toList_append,
    List.dropWhile]

/-! ### What is said -/

/-- Requests with what comes of each of them. -/
def Network.exchange : Network → List Request → List (Request × Outcome)
  | _, [] => []
  | net, q :: more => (q, (net.answer q).outcome) :: exchange (net.next q) more

theorem Network.exchange_append (net : Network) (qs more : List Request) :
    net.exchange (qs ++ more) = net.exchange qs ++ (qs.foldl Network.next net).exchange more := by
  induction qs generalizing net with
  | nil => rfl
  | cons q qs ih => simp [Network.exchange, ih]

end Forge

/-- Whether a machine has sent requests on the way from one state to another. -/
structure Runner.Sends (qs : List Forge.Request) (s t : Runner) : Prop where
  requests : t.requests = s.requests ++ qs
  network : t.network = qs.foldl Forge.Network.next s.network

namespace Runner

variable {s t u : Runner} {qs qs' : List Forge.Request}

theorem SameWires.sends (h : s.SameWires t) : s.Sends [] t :=
  ⟨by simp [h.requests], h.network⟩

theorem Sends.trans (h : s.Sends qs t) (h' : t.Sends qs' u) : s.Sends (qs ++ qs') u := by
  refine ⟨?_, ?_⟩
  · rw [h'.requests, h.requests, List.append_assoc]
  · rw [h'.network, h.network, List.foldl_append]

theorem Sends.after (h : s.SameWires t) (h' : t.Sends qs u) : s.Sends qs u :=
  h.sends.trans h'

theorem Sends.before (h : s.Sends qs t) (h' : t.SameWires u) : s.Sends qs u := by
  simpa using h.trans h'.sends

theorem Sends.unique (h : s.Sends qs t) (h' : s.Sends qs' t) : qs = qs' :=
  List.append_cancel_left (h.requests.symm.trans h'.requests)

/-- What a machine that had sent nothing before has sent. -/
theorem Sends.eq_requests (h : s.Sends qs t) (hs : s.requests = []) : qs = t.requests := by
  rw [h.requests, hs, List.nil_append]

theorem Sends.isCalm : IsCalm (Sends []) where
  refl s := (SameWires.refl s).sends
  trans h h' := h.trans h'
  log level source message s := (Job.log_wires level source message s).sends

theorem Sends.exchange (h : s.Sends qs t) (more : List Forge.Request) :
    s.network.exchange (qs ++ more) = s.network.exchange qs ++ t.network.exchange more := by
  rw [Forge.Network.exchange_append, h.network]

end Runner

namespace Forge

/-! ### What can be made sense of -/

/-- Among the statuses that HTTP has, those below 400 are those of successes. -/
theorem Reply.status_lt {r : Reply} (hok : r.isOk = true) (hstatus : r.status < 600) : r.status < 400 :=
  (r.isOk_iff hstatus).mp hok

/-- Whether a reply is a success: the library says so, and so does the status if it is one that HTTP has,
which are those below 600. -/
structure Reply.IsSuccess (r : Reply) : Prop where
  ok : r.isOk = true
  status : r.status < 600 → r.status < 400

theorem Reply.isSuccess_iff {r : Reply} : r.IsSuccess ↔ r.isOk = true :=
  ⟨fun h => h.ok, fun h => ⟨h, r.status_lt h⟩⟩

theorem Reply.isOk_of_lt {r : Reply} (hstatus : r.status < 400) : r.isOk = true :=
  (r.isOk_iff (by omega)).mpr hstatus

theorem Reply.not_isOk {r : Reply} (hlow : 400 ≤ r.status) (hhigh : r.status < 600) : r.isOk = false := by
  refine Bool.eq_false_iff.mpr fun hok => ?_
  have hstatus := r.status_lt hok hhigh
  omega

/-- A reply that says that the rate of requests is too high is no success. -/
theorem Reply.not_isOk_of_limit {r : Reply} (hstatus : r.status = 429) : r.isOk = false :=
  r.not_isOk (by omega) (by omega)

/-- Whether what a reply says about the budget are numbers, and the second one is a time. -/
structure Reply.HasBudget (r : Reply) : Prop where
  remaining : ∃ n, headerNumber r remainingHeader = .ok n
  reset : ∃ n, headerNumber r resetHeader = .ok n ∧ ∀ time, n = some time → ∃ t, checkTime time = .ok t

/-- Whether a refusal says why, or need not. -/
def Reply.IsExplained (r : Reply) : Prop :=
  r.status = 429 ∨ r.body = "" ∨ ∃ entries, r.json = .ok (.map entries)

/-- The data that come with a refusal, if its body can be made sense of. -/
def Reply.Explains (r : Reply) (entries : List (Value × Value)) : Prop :=
  r.body = "" ∧ entries = [] ∨ r.body ≠ "" ∧ r.json = .ok (.map entries)

/-- What data that come with a refusal give as its reason. -/
def reasonIn (entries : List (Value × Value)) : Value :=
  (Value.find? (.str "message") entries).getD (.str "Unknown error")

/-- Whether a fault is one of what a reply says about the budget: the first of its two numbers is none, or
else the second one is none or no time. -/
def Reply.BudgetFault (r : Reply) (e : Fault) : Prop :=
  headerNumber r remainingHeader = .error e ∨
    (∃ n, headerNumber r remainingHeader = .ok n) ∧
      (headerNumber r resetHeader = .error e ∨
        ∃ time, headerNumber r resetHeader = .ok (some time) ∧ checkTime time = .error e)

/-- Whether a fault is one of the body of a refusal: it is no JSON or nested too deeply, or no map. -/
def Reply.BodyFault (r : Reply) (e : Fault) : Prop :=
  r.body ≠ "" ∧
    (r.json = .error e ∨
      ∃ v, r.json = .ok v ∧ (∀ entries, v ≠ .map entries) ∧ e = .misuse (.noAttribute v.kind "get"))

/-- What a reply is taken as: the library says whether it is a success. -/
inductive Reply.IsTakenAs (r : Reply) : Except Fault Reply → Prop
  | accepted (ok : r.isOk = true) : r.IsTakenAs (.ok r)
  | limited (reset : Int) (status : r.status = 429) : r.IsTakenAs (.error (.rateLimited reset))
  | refused (entries : List (Value × Value)) (ok : r.isOk = false) (other : r.status ≠ 429)
    (data : r.Explains entries) :
    r.IsTakenAs (.error (.answer r.status (.map entries) (reasonIn entries)))
  | unexplained (e : Fault) (ok : r.isOk = false) (other : r.status ≠ 429) (fault : r.BodyFault e) :
    r.IsTakenAs (.error e)

/-- A success is nothing but the reply itself. -/
theorem Reply.IsTakenAs.eq_ok {r : Reply} {result : Except Fault Reply} (h : r.IsTakenAs result)
    (hok : r.isOk = true) : result = .ok r := by
  cases h with
  | accepted => rfl
  | limited reset hstatus => exact absurd hok (by simp [r.not_isOk_of_limit hstatus])
  | refused entries hrefused => exact absurd hok (by simp [hrefused])
  | unexplained e hrefused => exact absurd hok (by simp [hrefused])

/-- What the outcome of a request comes to. -/
inductive Outcome.ComesTo : Outcome → Except Fault Reply → Prop
  | lost (description : String) : ComesTo (.broken description) (.error (.transport description))
  | taken {r : Reply} {result : Except Fault Reply} (budget : r.HasBudget) (reply : r.IsTakenAs result) :
    ComesTo (.reply r) result
  | unbudgeted {r : Reply} {e : Fault} (fault : r.BudgetFault e) : ComesTo (.reply r) (.error e)

/-- The reply, if there is one and it is not a refusal. -/
def Outcome.accepted? : Outcome → Option Reply
  | .broken _ => none
  | .reply r => if r.isOk then some r else none

/-- Whether sense can be made of what comes of a request. -/
def Outcome.IsLegible : Outcome → Prop
  | .broken _ => True
  | .reply r => r.HasBudget ∧ (r.isOk = true ∨ r.IsExplained)

/-- Whether a machine that had to wait has sent nothing, or has sent a request. -/
inductive SendEnds (q : Request) (s t : Runner) : Except Fault Reply → Prop
  | held (reset : Int) (low : s.budget.isLow s.now = true) (wires : s.SameWires t) :
    SendEnds q s t (.error (.rateLimited reset))
  | accepted (r : Reply) (sent : s.Sends [q] t) (legible : (s.network.answer q).outcome.IsLegible)
    (reply : (s.network.answer q).outcome.accepted? = some r) : SendEnds q s t (.ok r)
  | refused (e : Fault) (sent : s.Sends [q] t) (legible : (s.network.answer q).outcome.IsLegible)
    (reply : (s.network.answer q).outcome.accepted? = none) (forge : e.isForge = true) :
    SendEnds q s t (.error e)
  | illegible (e : Fault) (sent : s.Sends [q] t)
    (illegible : ¬ (s.network.answer q).outcome.IsLegible) (other : e.isForge = false) :
    SendEnds q s t (.error e)

theorem holdBack_run (s : Runner) :
    (s.budget.isLow s.now = false ∧ holdBack s = (.ok (), s)) ∨
      (s.budget.isLow s.now = true ∧
        ∃ t, holdBack s = (.error (.rateLimited s.budget.reset), t) ∧ s.SameWires t) := by
  unfold holdBack
  rw [Action.bind_run, Action.get_run]
  dsimp only
  rcases hlow : s.budget.isLow s.now with _ | _
  · exact Or.inl ⟨rfl, rfl⟩
  · refine Or.inr ⟨rfl, ?_⟩
    simp only [if_true, Action.bind_run]
    obtain ⟨errors, w, hlog, -⟩ := Job.log_run .warning source
      ("Rate limit low (" ++ Number.intText s.budget.remaining ++ "), resets in " ++
        Number.intText (s.budget.reset - s.now) ++ ".0s") s
    rw [hlog]
    exact ⟨_, rfl, ⟨rfl, rfl, rfl, rfl, rfl, rfl⟩⟩

theorem headerNumber_failsPlainly (r : Reply) (name : String) : FailsPlainly (headerNumber r name) := by
  unfold headerNumber
  split
  · exact .ok _
  · exact (FailsPlainly.mapError (fun _ => rfl) _).map _

theorem checkYear_failsPlainly (seconds : Int) : FailsPlainly (checkYear seconds) := by
  unfold checkYear
  dsimp only
  split_ifs
  · exact .ok _
  · exact .error rfl
  · exact .error rfl

theorem checkTime_failsPlainly (seconds : Int) : FailsPlainly (checkTime seconds) := by
  unfold checkTime
  split_ifs
  · exact .error rfl
  · exact .bind (checkYear_failsPlainly _) fun _ => .bind (checkYear_failsPlainly _) fun _ => .ok _

theorem json_failsPlainly (r : Reply) : FailsPlainly r.json := by
  unfold Reply.json
  split
  · exact .ok _
  all_goals exact .error rfl

theorem holdBack_high {s : Runner} (h : s.budget.isLow s.now = false) : holdBack s = (.ok (), s) := by
  rcases holdBack_run s with ⟨-, hhold⟩ | ⟨hlow, -⟩
  · exact hhold
  · rw [h] at hlow
    cases hlow

/-- Notes a number in a header, if there is one. -/
def noteNumber (r : Reply) (name : String) (note : Int → Job Unit) : Job Unit := do
  match ← Job.ofExcept (headerNumber r name) with
  | none => pure ()
  | some n => note n

def noteRemaining (n : Int) : Job Unit :=
  modify fun s => { s with budget := { s.budget with remaining := n } }

def noteReset (n : Int) : Job Unit := do
  let time ← Job.ofExcept (checkTime n)
  modify fun s => { s with budget := { s.budget with reset := time } }

theorem noteBudget_eq (r : Reply) (s : Runner) :
    noteBudget r s =
      (noteNumber r remainingHeader noteRemaining >>= fun _ =>
        noteNumber r resetHeader noteReset) s := by
  simp only [noteBudget, noteNumber, noteRemaining, noteReset, Action.bind_run, Job.ofExcept_run]
  rcases headerNumber r remainingHeader with e | _ | n
  · rfl
  · rcases headerNumber r resetHeader with e | _ | n <;> rfl
  · rcases headerNumber r resetHeader with e | _ | n <;> rfl

private theorem noteNumber_run {r : Reply} {name : String} {note : Int → Job Unit} (s : Runner) :
    (∃ e, headerNumber r name = .error e ∧ noteNumber r name note s = (.error e, s)) ∨
      (headerNumber r name = .ok none ∧ noteNumber r name note s = (.ok (), s)) ∨
        ∃ n, headerNumber r name = .ok (some n) ∧ noteNumber r name note s = note n s := by
  simp only [noteNumber, Action.bind_run, Job.ofExcept_run]
  rcases headerNumber r name with e | _ | n
  · exact Or.inl ⟨e, rfl, rfl⟩
  · exact Or.inr (Or.inl ⟨rfl, rfl⟩)
  · exact Or.inr (Or.inr ⟨n, rfl, rfl⟩)

private theorem noteRemaining_run (r : Reply) (s : Runner) :
    ∃ b, ((∃ n, headerNumber r remainingHeader = .ok n) ∧
        noteNumber r remainingHeader noteRemaining s = (.ok (), { s with budget := b })) ∨
      ∃ e, headerNumber r remainingHeader = .error e ∧
        noteNumber r remainingHeader noteRemaining s = (.error e, { s with budget := b }) := by
  rcases noteNumber_run (r := r) s with ⟨e, hn, hrun⟩ | ⟨hn, hrun⟩ | ⟨n, hn, hrun⟩
  · exact ⟨s.budget, Or.inr ⟨e, hn, hrun⟩⟩
  · exact ⟨s.budget, Or.inl ⟨⟨none, hn⟩, hrun⟩⟩
  · exact ⟨_, Or.inl ⟨⟨some n, hn⟩, hrun⟩⟩

private theorem noteReset_run (r : Reply) (s : Runner) :
    ∃ b, ((∃ n, headerNumber r resetHeader = .ok n ∧ ∀ time, n = some time → ∃ t, checkTime time = .ok t) ∧
        noteNumber r resetHeader noteReset s = (.ok (), { s with budget := b })) ∨
      ∃ e, (headerNumber r resetHeader = .error e ∨
          ∃ time, headerNumber r resetHeader = .ok (some time) ∧ checkTime time = .error e) ∧
        noteNumber r resetHeader noteReset s = (.error e, { s with budget := b }) := by
  rcases noteNumber_run (r := r) s with ⟨e, hn, hrun⟩ | ⟨hn, hrun⟩ | ⟨n, hn, hrun⟩
  · exact ⟨s.budget, Or.inr ⟨e, Or.inl hn, hrun⟩⟩
  · exact ⟨s.budget, Or.inl ⟨⟨none, hn, by simp⟩, hrun⟩⟩
  · simp only [noteReset, Action.bind_run, Job.ofExcept_run] at hrun
    rcases htime : checkTime n with e | t
    · rw [htime] at hrun
      exact ⟨s.budget, Or.inr ⟨e, Or.inr ⟨n, hn, htime⟩, hrun⟩⟩
    · rw [htime] at hrun
      exact ⟨_, Or.inl ⟨⟨some n, hn, by simp [htime]⟩, hrun⟩⟩

/-- What the budget says is taken over if it can be made sense of. -/
theorem noteBudget_run (r : Reply) (s : Runner) :
    ∃ b, (r.HasBudget ∧ noteBudget r s = (.ok (), { s with budget := b })) ∨
      ∃ e, r.BudgetFault e ∧ noteBudget r s = (.error e, { s with budget := b }) := by
  obtain ⟨b, ⟨hremaining, hrun⟩ | ⟨e, hremaining, hrun⟩⟩ := noteRemaining_run r s
  · rw [noteBudget_eq, Action.bind_run_ok hrun]
    obtain ⟨b', ⟨hreset, hrun'⟩ | ⟨e, hreset, hrun'⟩⟩ := noteReset_run r { s with budget := b }
    · exact ⟨b', Or.inl ⟨⟨hremaining, hreset⟩, hrun'⟩⟩
    · exact ⟨b', Or.inr ⟨e, Or.inr ⟨hremaining, hreset⟩, hrun'⟩⟩
  · rw [noteBudget_eq, Action.bind_run_error hrun]
    exact ⟨b, Or.inr ⟨e, Or.inl hremaining, rfl⟩⟩

theorem Reply.BudgetFault.not_hasBudget {r : Reply} {e : Fault} (h : r.BudgetFault e) :
    ¬ r.HasBudget := by
  rintro ⟨⟨n, hremaining⟩, m, hreset, htime⟩
  rcases h with h | ⟨-, h | ⟨time, hnumber, hcheck⟩⟩
  · rw [hremaining] at h
    cases h
  · rw [hreset] at h
    cases h
  · obtain rfl : m = some time := by simpa [hnumber] using hreset.symm
    obtain ⟨t, ht⟩ := htime time rfl
    rw [hcheck] at ht
    cases ht

theorem Reply.BudgetFault.isForge {r : Reply} {e : Fault} (h : r.BudgetFault e) : e.isForge = false := by
  rcases h with h | ⟨-, h | ⟨time, -, h⟩⟩
  · exact (headerNumber_failsPlainly r _).isForge h
  · exact (headerNumber_failsPlainly r _).isForge h
  · exact (checkTime_failsPlainly time).isForge h

private theorem getOr_cases (v : Value) (key : String) (default : Value) :
    (∃ entries, v = .map entries ∧
        v.getOr key default = .ok ((Value.find? (.str key) entries).getD default)) ∨
      ((∀ entries, v ≠ .map entries) ∧ v.getOr key default = .error (.noAttribute v.kind "get")) := by
  cases v with
  | map entries => exact Or.inl ⟨entries, rfl, rfl⟩
  | _ => exact Or.inr ⟨by simp, rfl⟩

theorem accept_refused {r : Reply} (hlimit : ¬ r.status = 429) (hok : r.isOk = false) (s : Runner) :
    accept r s =
      ((if r.body = "" then pure (.map []) else Job.ofExcept r.json : Job Value) >>= fun data =>
        Job.use (data.getOr "message" (.str "Unknown error")) >>= fun description =>
          throw (.answer r.status data description)) s := by
  simp only [accept, hlimit, hok, if_false, Bool.false_eq_true]
  split_ifs <;> rfl

theorem Reply.BodyFault.not_isExplained {r : Reply} {e : Fault} (h : r.BodyFault e)
    (hlimit : r.status ≠ 429) : ¬ r.IsExplained := by
  obtain ⟨hbody, hjson⟩ := h
  rintro (hlimit' | hbody' | ⟨entries, hentries⟩)
  · exact hlimit hlimit'
  · exact hbody hbody'
  · rcases hjson with h | ⟨v, h, hmap, -⟩
    · rw [hentries] at h
      cases h
    · rw [hentries] at h
      cases h
      exact hmap entries rfl

theorem Reply.BodyFault.isForge {r : Reply} {e : Fault} (h : r.BodyFault e) : e.isForge = false := by
  rcases h with ⟨-, h | ⟨v, -, -, rfl⟩⟩
  · exact (json_failsPlainly r).isForge h
  · rfl

theorem Reply.Explains.isExplained {r : Reply} {entries : List (Value × Value)} (h : r.Explains entries) :
    r.IsExplained := by
  rcases h with ⟨hbody, -⟩ | ⟨-, hjson⟩
  · exact Or.inr (Or.inl hbody)
  · exact Or.inr (Or.inr ⟨entries, hjson⟩)

/-- What is made of a reply whose budget has been noted. -/
theorem accept_run (r : Reply) (s : Runner) :
    ∃ result, r.IsTakenAs result ∧ accept r s = (result, s) := by
  by_cases hlimit : r.status = 429
  · simp only [accept, hlimit, if_true, resetOf, Action.bind_run, Action.get_run, Action.pure_run,
      Action.throw_run]
    exact ⟨_, .limited _ hlimit, rfl⟩
  · rcases hok : r.isOk with _ | _
    · rw [accept_refused hlimit hok]
      by_cases hbody : r.body = ""
      · rw [if_pos hbody]
        exact ⟨_, .refused [] hok hlimit (Or.inl ⟨hbody, rfl⟩), rfl⟩
      · rw [if_neg hbody, Action.bind_run, Job.ofExcept_run]
        rcases hjson : r.json with e | v
        · exact ⟨_, .unexplained e hok hlimit ⟨hbody, Or.inl hjson⟩, rfl⟩
        · dsimp only
          rw [Action.bind_run, Job.use_run]
          rcases getOr_cases v "message" (.str "Unknown error") with ⟨entries, rfl, hw⟩ | ⟨hmap, hm⟩
          · rw [hw]
            exact ⟨_, .refused entries hok hlimit (Or.inr ⟨hbody, hjson⟩), rfl⟩
          · rw [hm]
            exact ⟨_, .unexplained _ hok hlimit ⟨hbody, Or.inr ⟨v, hjson, hmap, rfl⟩⟩, rfl⟩
    · refine ⟨_, .accepted hok, ?_⟩
      simp only [accept, hlimit, hok, if_false, if_true, Action.pure_run]

/-- What is made of what comes of a request. -/
def settle : Outcome → Job Reply
  | .broken description => do
    Job.log .error source ("Request failed: " ++ description)
    throw (.transport description)
  | .reply r => do
    noteBudget r
    accept r

theorem send_eq (q : Request) : send q = (do holdBack; let o ← transmit q; settle o) := by
  unfold send
  congr 1

theorem settle_comesTo {o : Outcome} {s t : Runner} {result : Except Fault Reply}
    (h : settle o s = (result, t)) : s.Sends [] t ∧ o.ComesTo result := by
  rcases o with r | d
  · obtain ⟨b, ⟨hbudget, hnote⟩ | ⟨e, hfault, hnote⟩⟩ := noteBudget_run r s
    · obtain ⟨taken, htaken, hrun⟩ := accept_run r { s with budget := b }
      rw [settle, Action.bind_run_ok hnote, hrun] at h
      cases h
      exact ⟨⟨by simp, rfl⟩, .taken hbudget htaken⟩
    · rw [settle, Action.bind_run_error hnote] at h
      cases h
      exact ⟨⟨by simp, rfl⟩, .unbudgeted hfault⟩
  · obtain ⟨errors, w, hlog, -⟩ := Job.log_run .error source ("Request failed: " ++ d) s
    rw [settle, Action.bind_run_ok hlog] at h
    cases h
    exact ⟨⟨by simp, rfl⟩, .lost d⟩

theorem transmit_run (q : Request) (s : Runner) :
    ∃ t, transmit q s = (.ok (s.network.answer q).outcome, t) ∧ s.Sends [q] t :=
  ⟨_, rfl, rfl, rfl⟩

/-- While the budget is not low a request is sent, and its outcome decides. -/
theorem send_comesTo {q : Request} {s t : Runner} {result : Except Fault Reply}
    (hhigh : s.budget.isLow s.now = false) (h : send q s = (result, t)) :
    s.Sends [q] t ∧ (s.network.answer q).outcome.ComesTo result := by
  obtain ⟨u, hsend, hsent⟩ := transmit_run q s
  rw [send_eq, Action.bind_run_ok (holdBack_high hhigh), Action.bind_run_ok hsend] at h
  obtain ⟨hsettled, hcomes⟩ := settle_comesTo h
  exact ⟨by simpa using hsent.trans hsettled, hcomes⟩

private theorem SendEnds.of_comesTo {q : Request} {s t : Runner} {result : Except Fault Reply}
    (hsent : s.Sends [q] t) (h : (s.network.answer q).outcome.ComesTo result) :
    SendEnds q s t result := by
  generalize ho : (s.network.answer q).outcome = o at h
  cases h with
  | lost d => exact .refused _ hsent (by simp [ho, Outcome.IsLegible]) (by simp [ho, Outcome.accepted?]) rfl
  | unbudgeted hfault =>
    exact .illegible _ hsent (fun hlegible => hfault.not_hasBudget (ho ▸ hlegible).1) hfault.isForge
  | @taken r _ hbudget htaken =>
    cases htaken with
    | accepted hok =>
      exact .accepted r hsent (ho ▸ ⟨hbudget, Or.inl hok⟩) (by simp [ho, Outcome.accepted?, hok])
    | limited reset hstatus =>
      have hok := r.not_isOk_of_limit hstatus
      exact .refused _ hsent (ho ▸ ⟨hbudget, Or.inr (Or.inl hstatus)⟩)
        (by simp [ho, Outcome.accepted?, hok]) rfl
    | refused entries hok _ hdata =>
      exact .refused _ hsent (ho ▸ ⟨hbudget, Or.inr hdata.isExplained⟩)
        (by simp [ho, Outcome.accepted?, hok]) rfl
    | unexplained e hok hlimit hfault =>
      refine .illegible e hsent (fun hlegible => ?_) hfault.isForge
      rcases (ho ▸ hlegible : (Outcome.reply r).IsLegible).2 with hok' | hexplained
      · rw [hok] at hok'
        cases hok'
      · exact hfault.not_isExplained hlimit hexplained

/-- Sending a request ends in one of four ways. -/
theorem send_ends {q : Request} {s t : Runner} {result : Except Fault Reply}
    (h : send q s = (result, t)) : SendEnds q s t result := by
  rcases holdBack_run s with ⟨hhigh, -⟩ | ⟨hlow, u, hhold, hwires⟩
  · obtain ⟨hsent, hcomes⟩ := send_comesTo hhigh h
    exact .of_comesTo hsent hcomes
  · rw [send_eq, Action.bind_run_error hhold] at h
    cases h
    exact .held _ hlow hwires

/-- A request that is accepted gets its reply, unless it is held back. -/
theorem send_of_accepted {q : Request} {s t : Runner} {reply : Reply} {result : Except Fault Reply}
    (h : send q s = (result, t)) (haccepted : (s.network.answer q).outcome.accepted? = some reply)
    (hlegible : (s.network.answer q).outcome.IsLegible) :
    (s.budget.isLow s.now = true ∧ s.SameWires t ∧ ∃ reset, result = .error (.rateLimited reset)) ∨
      s.Sends [q] t ∧ result = .ok reply := by
  cases send_ends h with
  | held reset hlow hwires => exact Or.inl ⟨hlow, hwires, reset, rfl⟩
  | accepted reply' hsent _ hreply =>
    rw [haccepted] at hreply
    cases hreply
    exact Or.inr ⟨hsent, rfl⟩
  | refused e hsent _ hnone he =>
    rw [haccepted] at hnone
    cases hnone
  | illegible e hsent hillegible he => exact absurd hlegible hillegible

/-- A request that is not accepted fails, whether it is held back or sent. -/
theorem send_of_unaccepted {q : Request} {s t : Runner} {result : Except Fault Reply}
    (h : send q s = (result, t)) (hnone : (s.network.answer q).outcome.accepted? = none) :
    ∃ e, result = .error e ∧ (s.budget.isLow s.now = true ∧ s.SameWires t ∨ s.Sends [q] t) := by
  cases send_ends h with
  | held reset hlow hwires => exact ⟨_, rfl, Or.inl ⟨hlow, hwires⟩⟩
  | accepted reply hsent _ hreply =>
    rw [hnone] at hreply
    cases hreply
  | refused e hsent _ _ _ => exact ⟨e, rfl, Or.inr hsent⟩
  | illegible e hsent _ _ => exact ⟨e, rfl, Or.inr hsent⟩

/-! ### Answers -/

/-- How asking for a value ends. -/
inductive AskEnds (q : Request) (s t : Runner) : Except Fault Value → Prop
  | held (reset : Int) (low : s.budget.isLow s.now = true) (wires : s.SameWires t) :
    AskEnds q s t (.error (.rateLimited reset))
  | accepted (r : Reply) (v : Value) (sent : s.Sends [q] t)
    (legible : (s.network.answer q).outcome.IsLegible)
    (reply : (s.network.answer q).outcome.accepted? = some r) (json : r.json = .ok v) :
    AskEnds q s t (.ok v)
  | refused (e : Fault) (sent : s.Sends [q] t) (legible : (s.network.answer q).outcome.IsLegible)
    (reply : (s.network.answer q).outcome.accepted? = none) (forge : e.isForge = true) :
    AskEnds q s t (.error e)
  | illegible (e : Fault) (sent : s.Sends [q] t)
    (illegible : ¬ (s.network.answer q).outcome.IsLegible ∨
      ∃ r f, (s.network.answer q).outcome.accepted? = some r ∧ r.json = .error f)
    (other : e.isForge = false) : AskEnds q s t (.error e)

theorem ask_ends {q : Request} {s t : Runner} {result : Except Fault Value}
    (h : ask q s = (result, t)) : AskEnds q s t result := by
  unfold ask at h
  rcases hsend : send q s with ⟨sent, u⟩
  have hends := send_ends hsend
  rw [Action.bind_run, hsend] at h
  cases hends with
  | held reset hlow hwires =>
    cases h
    exact .held reset hlow hwires
  | accepted r hsent hlegible hreply =>
    simp only [Job.ofExcept_run] at h
    rcases hjson : r.json with e | v
    · rw [hjson] at h
      cases h
      exact .illegible e hsent (Or.inr ⟨r, e, hreply, hjson⟩) ((json_failsPlainly r).isForge hjson)
    · rw [hjson] at h
      cases h
      exact .accepted r v hsent hlegible hreply hjson
  | refused e hsent hlegible hreply he =>
    cases h
    exact .refused e hsent hlegible hreply he
  | illegible e hsent hillegible he =>
    cases h
    exact .illegible e hsent (Or.inl hillegible) he

end Forge

end ReviewGate

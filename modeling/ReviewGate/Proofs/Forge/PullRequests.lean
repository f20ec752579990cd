import ReviewGate.Proofs.Forge.Memory
import ReviewGate.Proofs.Forge.Session

/-! Looking up the pull request of a workflow run, with a forge that lists its pull requests page by page.
The look-up by branch lets the forge filter them; the look-up by commit goes over the first page only. -/
namespace ReviewGate

namespace Value

theorem getOr_of_field {v w : Value} {key : String} (h : v.field key = .ok w) (default : Value) :
    v.getOr key default = .ok w := by
  unfold field at h
  split at h
  · unfold getOr
    split at h
    · cases h
      simp_all
    · cases h
  · cases h

theorem get_of_field {v w : Value} {key : String} (h : v.field key = .ok w) : v.get key = .ok w :=
  getOr_of_field h .null

end Value

namespace Forge

/-- A pull request: its number, whether it is open, the branch that it comes from, after the owner of that
branch and a colon, and the commit that it ends with. -/
structure Pull where
  number : Int
  isOpen : Bool
  branch : String
  commit : String
  deriving DecidableEq

namespace Pull

/-- Whether a value shows a pull request, whatever else it holds. -/
structure IsShownBy (p : Pull) (v : Value) : Prop where
  number : v.field "number" = .ok (.int p.number)
  commit : ∃ head, v.field "head" = .ok head ∧ head.field "sha" = .ok (.str p.commit)

/-- Whether a listing of pull requests with a state and, if one is given, of a branch has a pull request
in it. -/
def isListed (state : String) (branch : Option String) (p : Pull) : Bool :=
  (state == "all" || state == if p.isOpen then "open" else "closed") && branch.all (p.branch == ·)

end Pull

/-- What a forge knows: the pull requests of a repository, and the branch and the commit of a workflow
run. -/
structure Registry where
  pulls : List Pull
  branch : String
  commit : String

/-- Whether parameters ask for a page of a listing of pull requests. Without a number it is the first. -/
structure AsksFor (params : Value) (state : String) (branch : Option String) (page size : Nat) : Prop where
  state : params.get "state" = .ok (.str state)
  branch : params.get "head" = .ok (.ofOption .str branch)
  size : params.get "per_page" = .ok (.int size)
  page : params.get "page" = .ok (.int page) ∨ params.get "page" = .ok .null ∧ page = 1

namespace Client

variable (c : Client) (r : Repository)

def runRequest (run : Value) : Request where
  method := "GET"
  url := c.address r ++ "/actions/runs/" ++ run.text
  timeout := c.timeout
  params := none
  json := none

def pullsRequest (params : Value) : Request where
  method := "GET"
  url := c.address r ++ "/pulls"
  timeout := c.timeout
  params := some params
  json := none

theorem run_way (run : Value) :
    c.address r ++ (Endpoint.run run).path = c.address r ++ "/actions/runs/" ++ run.text :=
  (String.append_assoc ..).symm

theorem pulls_way : c.address r ++ Endpoint.pulls.path = c.address r ++ "/pulls" := rfl

theorem workflowRun_eq (run : Value) :
    c.workflowRun r run =
      (do
        Job.log .info source ("Fetching workflow run " ++ r.text ++ " #" ++ run.text)
        ask (c.runRequest r run)) := by
  unfold workflowRun runRequest
  rw [requestFor_eq, run_way]

theorem pullRequests_eq (state : String) (head : Option String) :
    c.pullRequests r state head = ask (c.pullsRequest r (pullParameters state head)) := by
  unfold pullRequests pullsRequest
  rw [requestFor_eq, pulls_way]

end Client

theorem pullParameters_asks (state : String) {branch : Option String} (hbranch : ∀ b ∈ branch, b ≠ "") :
    AsksFor (pullParameters state branch) state branch 1 100 := by
  rcases branch with _ | b
  · exact ⟨rfl, rfl, rfl, Or.inr ⟨rfl, rfl⟩⟩
  · have hb : b ≠ "" := hbranch b rfl
    simp only [pullParameters, if_neg hb]
    exact ⟨rfl, rfl, rfl, Or.inr ⟨rfl, rfl⟩⟩

/-! ### The forge -/

/-- Whether a request is answered with status 200 and a value, and what the headers say about the budget
can be made sense of. -/
structure Network.Gives (net : Network) (q : Request) (v : Value) : Prop where
  answered : ∃ r, (net.answer q).outcome = .reply r ∧ r.status = 200 ∧ r.HasBudget ∧ r.json = .ok v

/-- Whether the other end of the wire answers the next request, if it is about the workflow run or about
the pull requests, by what it knows. Pages hold up to 100 of them. -/
structure Network.ShowsNow (net : Network) (c : Client) (r : Repository) (run : Value) (reg : Registry) :
    Prop where
  run : ∃ v, net.Gives (c.runRequest r run) v ∧ v.get "head_branch" = .ok (.str reg.branch) ∧
    v.get "head_sha" = .ok (.str reg.commit)
  lists : ∀ params state branch page size, AsksFor params state branch page size → 0 < page → 0 < size →
    size ≤ 100 → ∃ items, net.Gives (c.pullsRequest r params) (.list items) ∧
      List.Forall₂ Pull.IsShownBy
        (((reg.pulls.filter (Pull.isListed state branch)).drop ((page - 1) * size)).take size) items

/-- Whether it does so for the next requests, whatever they are. -/
def Network.Shows (c : Client) (r : Repository) (run : Value) (reg : Registry) : Nat → Network → Prop
  | 0, _ => True
  | n + 1, net => net.ShowsNow c r run reg ∧ ∀ q, Shows c r run reg n (net.next q)

/-! ### What is read from a page -/

theorem firstNumber_eq {ps : List Pull} {items : List Value} (hshown : List.Forall₂ Pull.IsShownBy ps items)
    (hpositive : ∀ p ∈ ps, 0 < p.number) :
    firstNumber (.list items) = .ok (ps.head?.map fun p => .int p.number) := by
  cases hshown with
  | nil => rfl
  | @cons p v ps items hp _ =>
    have hgiven : (p.number != 0) = true := by
      have hnumber := hpositive p List.mem_cons_self
      rw [bne_iff_ne]
      omega
    have hget := Value.get_of_field hp.number
    simp only [firstNumber, Value.isGiven, List.isEmpty_cons, Bool.not_false, if_true, Value.first,
      Value.items, bind, Except.bind, hget, hgiven, List.head?_cons, Option.map_some]
    rfl

theorem hasHead_eq {p : Pull} {v : Value} (hp : p.IsShownBy v) (commit : String) :
    hasHead (.str commit) v = .ok (p.commit == commit) := by
  obtain ⟨head, hhead, hsha⟩ := hp.commit
  simp only [hasHead, Value.getOr_of_field hhead, Value.get_of_field hsha, bind, Except.bind]
  rfl

theorem numberOfCommit_eq {ps : List Pull} {items : List Value}
    (hshown : List.Forall₂ Pull.IsShownBy ps items) (commit : String) :
    numberOfCommit (.str commit) items =
      .ok ((ps.find? fun p => p.commit == commit).map fun p => .int p.number) := by
  induction hshown with
  | nil => rfl
  | @cons p v ps items hp _ ih =>
    rw [numberOfCommit, hasHead_eq hp, List.find?_cons]
    rcases hsame : p.commit == commit
    · simpa [bind, Except.bind] using ih
    · simp [bind, Except.bind, hp.number]
      rfl

/-! ### Jobs that ask the forge -/

/-- Whether a fault is that of a client that holds its requests back. -/
structure HeldBack (e : Fault) (t : Runner) : Prop where
  low : t.budget.isLow t.now = true
  fault : e = .rateLimited t.budget.reset

theorem HeldBack.wires {e : Fault} {t u : Runner} (h : HeldBack e t) (hwires : t.SameWires u) :
    HeldBack e u :=
  ⟨by rw [hwires.budget, hwires.now]; exact h.low, hwires.budget ▸ h.fault⟩

/-- Whether a job with the forge on the other end for so many requests ends in a certain way, the forge
being there for so many more. The client may hold a request back before that. -/
def Comes {α : Type} (c : Client) (r : Repository) (run : Value) (reg : Registry) (n m : Nat) (j : Job α)
    (P : Except Fault α → Prop) : Prop :=
  ∀ s, s.network.Shows c r run reg n → ∃ result t, j s = (result, t) ∧
    (P result ∧ t.network.Shows c r run reg m ∨ ∃ e, result = .error e ∧ HeldBack e t)

/-- Whether a job has a result of a certain kind. -/
def Gets {α : Type} (Q : α → Prop) (result : Except Fault α) : Prop :=
  ∃ a, result = .ok a ∧ Q a

namespace Comes

variable {α β : Type} {c : Client} {r : Repository} {run : Value} {reg : Registry} {n m k : Nat}

theorem pure {Q : α → Prop} {a : α} (ha : Q a) : Comes c r run reg n n (Pure.pure a : Job α) (Gets Q) :=
  fun s hs => ⟨_, s, rfl, Or.inl ⟨⟨a, rfl, ha⟩, hs⟩⟩

theorem throw {P : Except Fault α → Prop} {e : Fault} (he : P (.error e)) :
    Comes c r run reg n n (MonadExcept.throw e : Job α) P :=
  fun s hs => ⟨_, s, rfl, Or.inl ⟨he, hs⟩⟩

theorem use {Q : α → Prop} {x : Except Misuse α} {a : α} (h : x = .ok a) (ha : Q a) :
    Comes c r run reg n n (Job.use x) (Gets Q) := by
  intro s hs
  rw [Job.use_run, h]
  exact ⟨_, s, rfl, Or.inl ⟨⟨a, rfl, ha⟩, hs⟩⟩

theorem bind {Q : α → Prop} {P : Except Fault β → Prop} {j : Job α} {f : α → Job β}
    (hj : Comes c r run reg n m j (Gets Q)) (hf : ∀ a, Q a → Comes c r run reg m k (f a) P) :
    Comes c r run reg n k (j >>= f) P := by
  intro s hs
  obtain ⟨result, t, hrun, ⟨⟨a, rfl, ha⟩, ht⟩ | ⟨e, rfl, hheld⟩⟩ := hj s hs
  · rw [Action.bind_run_ok hrun]
    exact hf a ha t ht
  · rw [Action.bind_run_error hrun]
    exact ⟨_, t, rfl, Or.inr ⟨e, rfl, hheld⟩⟩

theorem log {P : Except Fault β → Prop} {level : LogLevel} {source message : String} {j : Job β}
    (hj : Comes c r run reg n m j P) :
    Comes c r run reg n m (Job.log level source message >>= fun _ => j) P := by
  intro s hs
  obtain ⟨errors, w, hrun, -⟩ := Job.log_run level source message s
  rw [Action.bind_run_ok hrun]
  exact hj _ hs

theorem ends {P P' : Except Fault α → Prop} {j : Job α} (hj : Comes c r run reg n m j P)
    (himp : ∀ result, P result → P' result) : Comes c r run reg n 0 j P' := by
  intro s hs
  obtain ⟨result, t, hrun, hend⟩ := hj s hs
  exact ⟨result, t, hrun, hend.imp_left fun h => ⟨himp result h.1, trivial⟩⟩

/-- What the forge gives when it is asked is the result. -/
theorem ask {q : Request} {Q : Value → Prop}
    (hgives : ∀ net : Network, net.ShowsNow c r run reg → ∃ v, net.Gives q v ∧ Q v) :
    Comes c r run reg (n + 1) n (Forge.ask q) (Gets Q) := by
  intro s hs
  rcases hrun : Forge.ask q s with ⟨result, t⟩
  refine ⟨result, t, rfl, ?_⟩
  rcases hlow : s.budget.isLow s.now with _ | _
  · refine Or.inl ?_
    obtain ⟨v, hv, hQ⟩ := hgives _ hs.1
    obtain ⟨reply, hreply, hstatus, hbudget, hjson⟩ := hv.answered
    have hok : reply.isOk = true := reply.isOk_of_lt (by omega)
    have haccepted : (s.network.answer q).outcome.accepted? = some reply := by
      rw [hreply, Outcome.accepted?, if_pos hok]
    have hlegible : (s.network.answer q).outcome.IsLegible := by
      rw [hreply]
      exact ⟨hbudget, Or.inl hok⟩
    cases ask_ends hrun with
    | held reset hheld =>
      rw [hlow] at hheld
      cases hheld
    | accepted r' w hsent _ haccepted' hjson' =>
      obtain rfl : reply = r' := Option.some.inj (haccepted.symm.trans haccepted')
      obtain rfl : v = w := Except.ok.inj (hjson.symm.trans hjson')
      exact ⟨⟨v, rfl, hQ⟩, hsent.network ▸ hs.2 q⟩
    | refused e _ _ hnone =>
      rw [haccepted] at hnone
      cases hnone
    | illegible e _ hillegible =>
      rcases hillegible with hillegible | ⟨r', f, haccepted', hjson'⟩
      · exact absurd hlegible hillegible
      · obtain rfl : reply = r' := Option.some.inj (haccepted.symm.trans haccepted')
        rw [hjson] at hjson'
        cases hjson'
  · obtain ⟨u, hsend, hwires⟩ := send_low (q := q) hlow
    obtain ⟨rfl, rfl⟩ := Action.outcome_eq.mp (hrun.symm.trans (Action.bind_run_error hsend _))
    refine Or.inr ⟨_, rfl, ⟨?_, ?_⟩⟩
    · rw [hwires.budget, hwires.now]
      exact hlow
    · rw [hwires.budget]

end Comes

/-! ### The look-up -/

/-- Whether a pull request is open and comes from a branch. -/
def Pull.IsOpenFrom (branch : String) (p : Pull) : Prop :=
  p.isOpen = true ∧ p.branch = branch

theorem Pull.isListed_open {branch : String} {p : Pull} :
    p.isListed "open" (some branch) = true ↔ p.IsOpenFrom branch := by
  rcases hopen : p.isOpen with _ | _ <;> simp [isListed, IsOpenFrom, hopen]

theorem Pull.isListed_all (p : Pull) : p.isListed "all" none = true := by
  simp [isListed]

/-- How a look-up ends: with an open pull request from the branch or, if there is none, with one of the
first hundred that ends with the commit, or with none. -/
inductive LookupEnds (reg : Registry) (owner : String) (run : Value) : Except Fault Value → Prop
  | ofBranch (p : Pull) (held : p ∈ reg.pulls) (isOpen : p.IsOpenFrom (owner ++ ":" ++ reg.branch)) :
    LookupEnds reg owner run (.ok (.int p.number))
  | ofCommit (p : Pull) (closed : ∀ q ∈ reg.pulls, ¬ q.IsOpenFrom (owner ++ ":" ++ reg.branch))
    (held : p ∈ reg.pulls.take 100) (commit : p.commit = reg.commit) :
    LookupEnds reg owner run (.ok (.int p.number))
  | missing (closed : ∀ q ∈ reg.pulls, ¬ q.IsOpenFrom (owner ++ ":" ++ reg.branch))
    (commit : ∀ q ∈ reg.pulls.take 100, q.commit ≠ reg.commit) :
    LookupEnds reg owner run (.error (.pullRequestNotFound run))

variable {c : Client} {r : Repository} {run : Value} {reg : Registry} {n : Nat}

theorem str_isGiven {text : String} (h : text ≠ "") : (Value.str text).isGiven = true :=
  bne_iff_ne.mpr h

/-- A listing is its first page. -/
theorem pullRequests_comes (state : String) {branch : Option String} (hbranch : ∀ b ∈ branch, b ≠ "") :
    Comes c r run reg (n + 1) n (c.pullRequests r state branch) (Gets fun v => ∃ items, v = .list items ∧
      List.Forall₂ Pull.IsShownBy ((reg.pulls.filter (Pull.isListed state branch)).take 100) items) := by
  rw [Client.pullRequests_eq]
  refine .ask fun net hnet => ?_
  obtain ⟨items, hgives, hitems⟩ := hnet.lists _ state branch 1 100 (pullParameters_asks state hbranch)
    (by decide) (by decide) (by decide)
  exact ⟨_, hgives, items, rfl, by simpa using hitems⟩

theorem workflowRun_comes :
    Comes c r run reg (n + 1) n (c.workflowRun r run) (Gets fun v =>
      v.get "head_branch" = .ok (.str reg.branch) ∧ v.get "head_sha" = .ok (.str reg.commit)) := by
  rw [Client.workflowRun_eq]
  exact .log (.ask fun net hnet => hnet.run)

/-- By branch, the forge is asked for what is looked for. -/
theorem findByBranch_comes (hbranch : reg.branch ≠ "") (hpositive : ∀ p ∈ reg.pulls, 0 < p.number) :
    Comes c r run reg (n + 1) n (c.findByBranch r (.str reg.branch)) (Gets fun number =>
      number = (reg.pulls.find? (Pull.isListed "open" (some (r.owner ++ ":" ++ reg.branch)))).map
        fun p => .int p.number) := by
  have hhead : ∀ b ∈ some (r.owner ++ ":" ++ reg.branch), b ≠ "" := by
    rintro b hb rfl
    have hempty := congrArg String.toList (Option.mem_some.mp hb)
    simp [String.toList_append] at hempty
  rw [Client.findByBranch, if_pos (str_isGiven hbranch)]
  refine .bind (pullRequests_comes "open" hhead) ?_
  rintro v ⟨items, rfl, hitems⟩
  refine .use (firstNumber_eq hitems fun p hp => ?_) ?_
  · exact hpositive p (List.mem_filter.mp (List.mem_of_mem_take hp)).1
  · rw [List.head?_take, if_neg (by decide), List.head?_filter]
    rfl

/-- By commit, only the first page is gone over. -/
theorem findByCommit_comes (hcommit : reg.commit ≠ "") :
    Comes c r run reg (n + 1) n (c.findByCommit r (.str reg.commit)) (Gets fun number =>
      number = ((reg.pulls.take 100).find? fun p => p.commit == reg.commit).map fun p => .int p.number) := by
  rw [Client.findByCommit, if_pos (str_isGiven hcommit)]
  refine .bind (pullRequests_comes "all" (by simp)) ?_
  rintro v ⟨items, rfl, hitems⟩
  rw [List.filter_eq_self.mpr fun p _ => p.isListed_all] at hitems
  exact .bind (.use rfl rfl) fun _ hall => .use (hall ▸ numberOfCommit_eq hitems reg.commit) rfl

theorem found_comes (number : Value) : Comes c r run reg n n (found number) (Gets (· = number)) :=
  .log (.pure rfl)

theorem findPullRequest_comes (hbranch : reg.branch ≠ "") (hcommit : reg.commit ≠ "")
    (hpositive : ∀ p ∈ reg.pulls, 0 < p.number) :
    Comes c r run reg 3 0 (c.findPullRequest r run) (LookupEnds reg r.owner run) := by
  have hfound : ∀ {n} (p : Pull), LookupEnds reg r.owner run (.ok (.int p.number)) →
      Comes c r run reg n 0 (found (.int p.number)) (LookupEnds reg r.owner run) := by
    intro n p hp
    refine (found_comes _).ends ?_
    rintro _ ⟨_, rfl, rfl⟩
    exact hp
  refine .log (.bind workflowRun_comes ?_)
  rintro v ⟨hbranchOf, hcommitOf⟩
  refine .bind (.use hbranchOf rfl) ?_
  rintro _ rfl
  refine .bind (.use hcommitOf rfl) ?_
  rintro _ rfl
  refine .log (.log (.bind (findByBranch_comes hbranch hpositive) ?_))
  rintro _ rfl
  rcases hopen : reg.pulls.find? (Pull.isListed "open" (some (r.owner ++ ":" ++ reg.branch))) with _ | p
  · have hclosed : ∀ q ∈ reg.pulls, ¬ q.IsOpenFrom (r.owner ++ ":" ++ reg.branch) :=
      fun q hq hq' => List.find?_eq_none.mp hopen q hq (Pull.isListed_open.mpr hq')
    refine .log (.bind (findByCommit_comes hcommit) ?_)
    rintro _ rfl
    rcases hfind : (reg.pulls.take 100).find? (fun p => p.commit == reg.commit) with _ | p
    all_goals simp only [hfind, Option.map_none, Option.map_some]
    · refine .log (.throw (.missing hclosed fun q hq heq => ?_))
      exact List.find?_eq_none.mp hfind q hq (beq_iff_eq.mpr heq)
    · have hsame := List.find?_some hfind
      exact hfound p (.ofCommit p hclosed (List.mem_of_find?_eq_some hfind) (beq_iff_eq.mp hsame))
  · have hlisted := Pull.isListed_open.mp (List.find?_some hopen)
    exact hfound p (.ofBranch p (List.mem_of_find?_eq_some hopen) hlisted)

/-- The look-up finds a pull request of the run, if there is an open one from its branch or one of the
first hundred that ends with its commit, and reports that there is none otherwise. The client may only hold
a request back. -/
theorem findPullRequest_ends {s : Runner} (hshows : s.network.Shows c r run reg 3) (hbranch : reg.branch ≠ "")
    (hcommit : reg.commit ≠ "") (hpositive : ∀ p ∈ reg.pulls, 0 < p.number) :
    ∃ result t, c.findPullRequest r run s = (result, t) ∧
      (LookupEnds reg r.owner run result ∨
        t.budget.isLow t.now = true ∧ result = .error (.rateLimited t.budget.reset)) := by
  obtain ⟨result, t, hrun, ⟨hends, -⟩ | ⟨e, rfl, hheld⟩⟩ :=
    findPullRequest_comes hbranch hcommit hpositive s hshows
  · exact ⟨result, t, hrun, Or.inl hends⟩
  · exact ⟨_, t, hrun, Or.inr ⟨hheld.low, congrArg Except.error hheld.fault⟩⟩

/-! ### A forge in memory -/

namespace Pull

def shown (p : Pull) : Value :=
  .record [("number", .int p.number), ("head", .record [("sha", .str p.commit)])]

theorem shown_isShownBy (p : Pull) : p.IsShownBy p.shown :=
  ⟨rfl, _, rfl, rfl⟩

end Pull

/-- A text among parameters. -/
def textOf (params : Value) (key : String) : Option String :=
  match params.get key with
  | .ok (.str text) => some text
  | _ => none

/-- A number among parameters, or a default. -/
def numberOf (params : Value) (key : String) (default : Nat) : Nat :=
  match params.get key with
  | .ok (.int n) => n.toNat
  | _ => default

namespace Registry

/-- The page that parameters ask for. -/
def page (reg : Registry) (params : Value) : List Pull :=
  let size := numberOf params "per_page" 30
  let listed := reg.pulls.filter (Pull.isListed ((textOf params "state").getD "open") (textOf params "head"))
  (listed.drop ((numberOf params "page" 1 - 1) * size)).take size

def content (reg : Registry) (q : Request) : Value :=
  match q.params with
  | none => .record [("head_branch", .str reg.branch), ("head_sha", .str reg.commit)]
  | some params => .list ((reg.page params).map Pull.shown)

/-- The network on which a forge answers so many requests. -/
def network (reg : Registry) : Nat → Network
  | 0 => .down
  | n + 1 =>
    .up (fun q => ⟨.reply (.of 200 [] (Json.write (reg.content q) ++ "\n")), 0⟩) fun _ => network reg n

variable {reg : Registry}

theorem page_eq {params : Value} {state : String} {branch : Option String} {page size : Nat}
    (h : AsksFor params state branch page size) :
    reg.page params =
      ((reg.pulls.filter (Pull.isListed state branch)).drop ((page - 1) * size)).take size := by
  have hstate : textOf params "state" = some state := by rw [textOf, h.state]
  have hbranch : textOf params "head" = branch := by
    rw [textOf, h.branch]
    cases branch <;> rfl
  have hsize : numberOf params "per_page" 30 = size := by rw [numberOf, h.size]; rfl
  have hpage : numberOf params "page" 1 = page := by
    rcases h.page with hpage | ⟨hnone, rfl⟩
    · rw [numberOf, hpage]; rfl
    · rw [numberOf, hnone]
  simp only [Registry.page, hstate, hbranch, hsize, hpage, Option.getD_some]

theorem content_isPlain (hshort : ∀ p ∈ reg.pulls, Number.IsShort p.number) (q : Request) :
    Json.IsPlain (reg.content q) := by
  unfold content
  rcases q.params with _ | params
  · simp [Value.record, Json.IsPlain, Json.ArePlainEntries]
  · refine Json.arePlain_iff.mpr fun v hv => ?_
    obtain ⟨p, hp, rfl⟩ := List.mem_map.mp hv
    have hheld : p ∈ reg.pulls := (List.mem_filter.mp (List.mem_of_mem_drop (List.mem_of_mem_take hp))).1
    simp [Pull.shown, Value.record, Json.IsPlain, Json.ArePlainEntries, hshort p hheld]

theorem network_gives (hshort : ∀ p ∈ reg.pulls, Number.IsShort p.number) (n : Nat) (q : Request) :
    (reg.network (n + 1)).Gives q (reg.content q) := by
  refine ⟨_, rfl, rfl, ⟨⟨none, rfl⟩, none, rfl, by simp⟩, ?_⟩
  simp only [Reply.json, Reply.of, Json.read_write (content_isPlain hshort q) (Json.Room.takes_endless _)]

theorem network_shows (c : Client) (r : Repository) (run : Value)
    (hshort : ∀ p ∈ reg.pulls, Number.IsShort p.number) (n : Nat) : (reg.network n).Shows c r run reg n := by
  induction n with
  | zero => trivial
  | succ n ih =>
    refine ⟨⟨⟨_, network_gives hshort n _, rfl, rfl⟩, ?_⟩, fun _ => ih⟩
    intro params state branch page size hasks _ _ _
    refine ⟨_, network_gives hshort n _, ?_⟩
    rw [page_eq hasks, List.forall₂_map_right_iff]
    exact List.forall₂_same.mpr fun p _ => p.shown_isShownBy

end Registry

/-- Whether the forge in memory is on the other end of the wire, and the budget allows many requests. -/
structure Registry.IsFaced (reg : Registry) (s : Runner) : Prop where
  network : ∃ n, s.network = reg.network n
  plenty : 10 < s.budget.remaining

namespace Registry.IsFaced

variable {reg : Registry} {s t : Runner}

theorem wires (h : s.SameWires t) (hs : reg.IsFaced s) : reg.IsFaced t :=
  ⟨h.network ▸ hs.network, h.budget ▸ hs.plenty⟩

/-- The forge in memory says nothing about the budget. -/
theorem attempt {a : Attempt} (ha : a.IsMade) (hbefore : reg.IsFaced a.before) : reg.IsFaced a.after := by
  have hplenty := hbefore.plenty
  have hsettled := ha.of_free fun hheld => Int.not_lt.mpr hheld.1 hplenty
  have hnext : a.after.network = a.before.network.next a.request := hsettled.sent.network
  obtain ⟨n, hn⟩ := hbefore.network
  rw [hn] at hnext
  have hbudget := hsettled.budget
  rw [hn] at hbudget
  cases n with
  | zero => exact ⟨⟨0, hnext⟩, hbudget ▸ hplenty⟩
  | succ n => exact ⟨⟨n, hnext⟩, hbudget ▸ hplenty⟩

/-- It lets every look-up through. -/
theorem findPullRequest_high (hs : reg.IsFaced s) (c : Client) (r : Repository) (run : Value) :
    (c.findPullRequest r run s).2.budget.isLow (c.findPullRequest r run s).2.now = false := by
  obtain ⟨as, hcourse⟩ := HasCourse.of_effects (c.findPullRequest_effects r run) s
  have hplenty := (hcourse.invariant wires attempt hs).1.plenty
  refine Bool.eq_false_iff.mpr fun hlow => ?_
  exact Int.not_lt.mpr (Budget.isLow_iff.mp hlow).1 hplenty

end Registry.IsFaced

/-- The commit of a workflow run on a branch that is gone. -/
def lostCommit : String := "c0ffee"

/-- The pull request with a number, of so many closed ones of which the last one ends with the commit. -/
def closedPull (count number : Nat) : Pull :=
  ⟨number, false, "owner:topic", if number = count then lostCommit else "f00d"⟩

def history (count : Nat) : Registry where
  pulls := (List.range' 1 count).map (closedPull count)
  branch := "gone"
  commit := lostCommit

def seeker : Client := ⟨.str "t", "https://api.github.com", .int 30⟩

def home : Repository := ⟨"owner", "repo"⟩

def facing (reg : Registry) : Runner :=
  { Runner.fresh 0 with network := reg.network 3 }

theorem facing_isFaced (reg : Registry) : reg.IsFaced (facing reg) :=
  ⟨⟨3, rfl⟩, show (10 : Int) < 5000 by decide⟩

theorem history_pulls {count : Nat} {p : Pull} (hp : p ∈ (history count).pulls) :
    ∃ number : Nat, 0 < number ∧ number ≤ count ∧ p = closedPull count number := by
  obtain ⟨number, hnumber, rfl⟩ := List.mem_map.mp hp
  have hrange := List.mem_range'_1.mp hnumber
  exact ⟨number, by omega, by omega, rfl⟩

theorem history_shows (count : Nat) (hcount : count < 1000000) :
    (facing (history count)).network.Shows seeker home (.int 7) (history count) 3 := by
  refine Registry.network_shows _ _ _ (fun p hp => ?_) 3
  obtain ⟨number, -, hle, rfl⟩ := history_pulls hp
  have hless : (number : Int) < Shelf.limit := by
    unfold Shelf.limit
    omega
  exact Shelf.isShort_of_lt (Int.natCast_nonneg number) hless

theorem history_positive (count : Nat) : ∀ p ∈ (history count).pulls, 0 < p.number := by
  intro p hp
  obtain ⟨number, hpositive, -, rfl⟩ := history_pulls hp
  exact Int.natCast_pos.mpr hpositive

theorem history_closed (count : Nat) (branch : String) :
    ∀ p ∈ (history count).pulls, ¬ p.IsOpenFrom branch := by
  rintro p hp ⟨hopen, -⟩
  obtain ⟨number, -, -, rfl⟩ := history_pulls hp
  cases hopen

theorem closedPull_commit {count number : Nat} :
    (closedPull count number).commit = lostCommit ↔ number = count := by
  unfold closedPull
  split_ifs with h
  · simp [h]
  · simp [h, lostCommit]

theorem findPullRequest_ends_of_two :
    ∃ t, seeker.findPullRequest home (.int 7) (facing (history 2)) = (.ok (.int 2), t) := by
  obtain ⟨result, t, hrun, hends | ⟨hlow, -⟩⟩ := findPullRequest_ends
    (history_shows 2 (by decide)) (by decide) (by decide) (history_positive 2)
  · cases hends with
    | ofBranch p hp hopen => exact absurd hopen (history_closed 2 _ p hp)
    | ofCommit p _ hp hcommit =>
      obtain ⟨number, -, -, rfl⟩ := history_pulls (List.mem_of_mem_take hp)
      obtain rfl := closedPull_commit.mp hcommit
      exact ⟨t, hrun⟩
    | missing _ hnone => exact absurd rfl (hnone (closedPull 2 2) (by decide))
  · have hhigh := (facing_isFaced (history 2)).findPullRequest_high seeker home (.int 7)
    rw [hrun, hlow] at hhigh
    cases hhigh

/-- The forge has a pull request that ends with the commit of the run, but on its second page. -/
theorem findPullRequest_misses :
    (facing (history 101)).network.Shows seeker home (.int 7) (history 101) 3 ∧
      (∃ p ∈ (history 101).pulls, p.commit = (history 101).commit) ∧
      ∃ t, seeker.findPullRequest home (.int 7) (facing (history 101)) =
        (.error (.pullRequestNotFound (.int 7)), t) := by
  have hshows := history_shows 101 (by decide)
  refine ⟨hshows, ⟨closedPull 101 101, ?_, closedPull_commit.mpr rfl⟩, ?_⟩
  · exact List.mem_map_of_mem (List.mem_range'_1.mpr (by decide))
  obtain ⟨result, t, hrun, ⟨hends, -⟩ | ⟨e, rfl, hheld⟩⟩ :=
    findPullRequest_comes (by decide) (by decide) (history_positive 101) _ hshows
  · cases hends with
    | ofBranch p hp hopen => exact absurd hopen (history_closed 101 _ p hp)
    | ofCommit p _ hp hcommit =>
      -- The first page ends before the last number.
      have hfirst : (history 101).pulls.take 100 = (List.range' 1 100).map (closedPull 101) := by
        rw [history, ← List.map_take]
        rfl
      rw [hfirst] at hp
      obtain ⟨number, hnumber, rfl⟩ := List.mem_map.mp hp
      obtain rfl := closedPull_commit.mp hcommit
      exact absurd (List.mem_range'_1.mp hnumber) (by decide)
    | missing _ _ => exact ⟨t, hrun⟩
  · have hhigh := (facing_isFaced (history 101)).findPullRequest_high seeker home (.int 7)
    rw [hrun, hheld.low] at hhigh
    cases hhigh

end Forge

end ReviewGate

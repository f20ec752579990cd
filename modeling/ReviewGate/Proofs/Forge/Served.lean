import ReviewGate.Proofs.Forge.Host

/-! What a client does with the comments on a pull request, if the forge holds them and does what it is
asked to do. Nothing fails then, and all comments are listed. -/
namespace ReviewGate.Forge

/-! ### Requests that are accepted -/

/-- Whether a reply leaves the budget so that requests need not wait. -/
theorem noteBudget_plenty {r : Reply} (hbudget : r.HasBudget)
    (hplenty : ∀ n, headerNumber r remainingHeader = .ok (some n) → Budget.reserve < n) {s : Runner}
    (hs : Budget.reserve < s.budget.remaining) :
    ∃ b, noteBudget r s = (.ok (), { s with budget := b }) ∧ Budget.reserve < b.remaining := by
  obtain ⟨remaining, hremaining⟩ := hbudget.remaining
  obtain ⟨reset, hreset, htime⟩ := hbudget.reset
  have hnext : ∃ b : Budget, Budget.reserve < b.remaining ∧
      noteNumber r remainingHeader noteRemaining s = (.ok (), { s with budget := b }) := by
    cases remaining with
    | none =>
      refine ⟨s.budget, hs, ?_⟩
      rw [noteNumber, Action.bind_run, Job.ofExcept_run, hremaining]
      rfl
    | some n =>
      refine ⟨{ s.budget with remaining := n }, hplenty n hremaining, ?_⟩
      rw [noteNumber, Action.bind_run, Job.ofExcept_run, hremaining]
      rfl
  obtain ⟨b, hb, hnote⟩ := hnext
  rw [noteBudget_eq, Action.bind_run_ok hnote, noteNumber, Action.bind_run, Job.ofExcept_run, hreset]
  cases reset with
  | none => exact ⟨b, rfl, hb⟩
  | some time =>
    obtain ⟨t, ht⟩ := htime time rfl
    refine ⟨{ b with reset := t }, ?_, hb⟩
    dsimp only
    rw [noteReset, Action.bind_run, Job.ofExcept_run, ht]
    rfl

theorem isLow_eq_false {s : Runner} (hplenty : Budget.reserve < s.budget.remaining) :
    s.budget.isLow s.now = false := by
  have hmore : ¬ s.budget.remaining ≤ Budget.reserve := by omega
  simp [Budget.isLow, hmore]

theorem transmit_budget (q : Request) (s : Runner) :
    ∃ t, transmit q s = (.ok (s.network.answer q).outcome, t) ∧ s.Sends [q] t ∧ t.budget = s.budget :=
  ⟨_, rfl, ⟨rfl, rfl⟩, rfl⟩

/-- With a budget that is not low a request is sent, and a reply that is accepted is the result. -/
theorem send_accepted {q : Request} {reply : Reply} {s : Runner}
    (hplenty : Budget.reserve < s.budget.remaining)
    (hanswer : (s.network.answer q).outcome = .reply reply) (hok : reply.isOk = true)
    (hbudget : reply.HasBudget)
    (hleft : ∀ n, headerNumber reply remainingHeader = .ok (some n) → Budget.reserve < n) :
    ∃ t, send q s = (.ok reply, t) ∧ s.Sends [q] t ∧ Budget.reserve < t.budget.remaining := by
  have hhold : holdBack s = (.ok (), s) := holdBack_high (isLow_eq_false hplenty)
  obtain ⟨u, hu, hsent, hsame⟩ := transmit_budget q s
  rw [hanswer] at hu
  obtain ⟨b, hnote, hb⟩ := noteBudget_plenty hbudget hleft (hsame ▸ hplenty)
  have haccept : accept reply { u with budget := b } = (.ok reply, { u with budget := b }) := by
    obtain ⟨result, htaken, hrun⟩ := accept_run reply { u with budget := b }
    rw [hrun, htaken.eq_ok hok]
  refine ⟨{ u with budget := b }, ?_, ⟨hsent.requests, hsent.network⟩, hb⟩
  rw [Forge.send, Action.bind_run_ok hhold, Action.bind_run_ok hu]
  dsimp only
  rw [Action.bind_run_ok hnote, haccept]

namespace Host

variable {σ α β : Type} {h : Host σ} {c : Client} {r : Repository} {pull : Value} {n : Nat} {x : σ}
  {s t u : Runner} {q : Request} {qs qs' : List Request}

/-- Whether the forge is on the other end of the wire for so many requests, and lets them all in. -/
structure Backs (h : Host σ) (c : Client) (r : Repository) (pull : Value) (n : Nat) (x : σ)
    (s : Runner) : Prop where
  network : s.network = h.network n x
  plenty : Budget.reserve < s.budget.remaining
  serves : h.Serves c r pull n x

/-- Whether a job ends well and has sent requests to the forge until then. -/
structure Runs (h : Host σ) (c : Client) (r : Repository) (pull : Value) (n : Nat) (x : σ) (s : Runner)
    (j : Job α) (a : α) (qs : List Request) (t : Runner) : Prop where
  run : j s = (.ok a, t)
  requests : t.requests = s.requests ++ qs
  few : qs.length ≤ n
  backs : h.Backs c r pull (n - qs.length) (h.after x qs) t

theorem Backs.servesIn (hs : h.Backs c r pull n x s) (hn : 0 < n) : h.ServesIn c r pull x := by
  obtain ⟨m, rfl⟩ : ∃ m, n = m + 1 := ⟨n - 1, by omega⟩
  exact hs.serves.1

theorem Backs.of_wires (hs : h.Backs c r pull n x s) (hwires : s.SameWires t) :
    h.Backs c r pull n x t where
  network := hwires.network.trans hs.network
  plenty := hwires.budget ▸ hs.plenty
  serves := hs.serves

namespace Runs

theorem congr {j j' : Job α} {a : α} (hj : h.Runs c r pull n x s j a qs t) (heq : j' s = j s) :
    h.Runs c r pull n x s j' a qs t :=
  { hj with run := heq.trans hj.run }

theorem pure (hs : h.Backs c r pull n x s) (a : α) :
    h.Runs c r pull n x s (Pure.pure a) a [] s where
  run := rfl
  requests := by rw [List.append_nil]
  few := Nat.zero_le n
  backs := hs

theorem log (hs : h.Backs c r pull n x s) (level : LogLevel) (source message : String) :
    ∃ t, h.Runs c r pull n x s (Job.log level source message) () [] t := by
  obtain ⟨errors, w, hrun, -⟩ := Job.log_run level source message s
  refine ⟨_, hrun, by rw [List.append_nil], Nat.zero_le n, ?_⟩
  exact hs.of_wires ⟨rfl, rfl, rfl, rfl, rfl, rfl⟩

theorem bind {j : Job α} {f : α → Job β} {a : α} {b : β} (hj : h.Runs c r pull n x s j a qs t)
    (hf : h.Runs c r pull (n - qs.length) (h.after x qs) t (f a) b qs' u) :
    h.Runs c r pull n x s (j >>= f) b (qs ++ qs') u where
  run := (Action.bind_run_ok hj.run f).trans hf.run
  requests := by rw [hf.requests, hj.requests, List.append_assoc]
  few := by
    have hfirst := hj.few
    have hmore := hf.few
    rw [List.length_append]
    omega
  backs := by
    rw [List.length_append, ← Nat.sub_sub, after_append]
    exact hf.backs

theorem seq {j : Job α} {k : Job β} {a : α} {b : β} (hj : h.Runs c r pull n x s j a qs t)
    (hk : h.Runs c r pull (n - qs.length) (h.after x qs) t k b qs' u) :
    h.Runs c r pull n x s (j >>= fun _ => k) b (qs ++ qs') u :=
  hj.bind hk

theorem map {j : Job α} {a : α} (hj : h.Runs c r pull n x s j a qs t) (f : α → β) :
    h.Runs c r pull n x s (j >>= fun a => Pure.pure (f a)) (f a) qs t :=
  { hj with run := Action.bind_run_ok hj.run _ }

/-- A message in the log before a job does not matter. -/
theorem after_log {j : Job α} {level : LogLevel} {source message : String} {a : α}
    (hs : h.Backs c r pull n x s)
    (hj : ∀ s', h.Backs c r pull n x s' → ∃ t, h.Runs c r pull n x s' j a qs t) :
    ∃ t, h.Runs c r pull n x s (Job.log level source message >>= fun _ => j) a qs t := by
  obtain ⟨s', hlog⟩ := log hs level source message
  obtain ⟨t, ht⟩ := hj s' hlog.backs
  exact ⟨t, hlog.bind ht⟩

end Runs

/-- A request that the forge accepts gets its reply. -/
theorem Backs.send (hs : h.Backs c r pull n x s) (hn : 0 < n) {reply : Reply}
    (haccepts : h.Accepts x q reply) :
    ∃ t, h.Runs c r pull n x s (send q) reply [q] t := by
  obtain ⟨m, rfl⟩ : ∃ m, n = m + 1 := ⟨n - 1, by omega⟩
  have hanswer : (s.network.answer q).outcome = .reply reply := by
    rw [hs.network]
    exact haccepts.reply
  obtain ⟨t, hrun, hsent, hplenty⟩ :=
    send_accepted hs.plenty hanswer haccepts.ok haccepts.budget haccepts.plenty
  have hnetwork : t.network = h.network m (h.next x q) := by
    rw [hsent.network, hs.network]
    rfl
  exact ⟨t, hrun, hsent.requests, by simp, hnetwork, hplenty, hs.serves.2 q⟩

theorem Backs.ask (hs : h.Backs c r pull n x s) (hn : 0 < n) {reply : Reply} {v : Value}
    (haccepts : h.Accepts x q reply) (hjson : reply.json = .ok v) :
    ∃ t, h.Runs c r pull n x s (ask q) v [q] t := by
  obtain ⟨t, hsend⟩ := hs.send hn haccepts
  refine ⟨t, { hsend with run := ?_ }⟩
  rw [Forge.ask, Action.bind_run_ok hsend.run, Job.ofExcept_run, hjson]

/-! ### All comments are listed -/

/-- A page holds the comments of a slice. -/
theorem Backs.readPage (hs : h.Backs c r pull n x s) (hn : 0 < n) (page : Nat) :
    ∃ items t, h.Runs c r pull n x s (readPage (c.pageRequest r pull (page + 1))) items
        [c.pageRequest r pull (page + 1)] t ∧
      List.Forall₂ Comment.IsShownBy (((h.comments x).drop (page * 100)).take 100) items ∧
      h.comments (h.next x (c.pageRequest r pull (page + 1))) = h.comments x := by
  rw [Client.pageRequest_eq]
  obtain ⟨reply, items, haccepts, hjson, hitems, hsame⟩ :=
    (hs.servesIn hn).lists (page + 1) 100 (by omega) (by omega) (by omega)
  obtain ⟨t, hask⟩ := hs.ask hn haccepts hjson
  refine ⟨items, t, { hask with run := ?_ }, hitems, hsame⟩
  rw [Forge.readPage, Action.bind_run_ok hask.run, Job.use_run, itemsOfPage_list]
  rfl

/-- What follows a page: nothing after one that is not full, and the pages after it otherwise. -/
def pagesAfter (c : Client) (r : Repository) (pull : Value) (net : Network) (page : Nat)
    (items : List Value) : Job (List Value) :=
  if items.length < pageSize then pure items
  else c.commentsFrom r pull net (page + 1) >>= fun more => pure (items ++ more)

theorem commentsFrom_eq (hn : 0 < n) (page : Nat) (s : Runner) :
    c.commentsFrom r pull (h.network n x) page s =
      (Forge.readPage (c.pageRequest r pull page) >>=
        pagesAfter c r pull (h.network (n - 1) (h.next x (c.pageRequest r pull page))) page) s := by
  obtain ⟨m, rfl⟩ : ∃ m, n = m + 1 := ⟨n - 1, by omega⟩
  exact commentsFrom_up c r pull (h.answer x) (fun q => h.network m (h.next x q)) page s

/-- A page that is not full is the last one. -/
theorem Backs.lastPage (hs : h.Backs c r pull n x s) (hn : 0 < n) {page : Nat}
    (hshort : (h.comments x).length < (page + 1) * 100) :
    ∃ items qs t, h.Runs c r pull n x s (c.commentsFrom r pull (h.network n x) (page + 1)) items qs t ∧
      qs.length = 1 ∧ List.Forall₂ Comment.IsShownBy ((h.comments x).drop (page * 100)) items ∧
      h.Always (· = h.comments x) x qs := by
  obtain ⟨items, t, hpage, hitems, hsame⟩ := hs.readPage hn page
  have hrest : ((h.comments x).drop (page * 100)).length < 100 := by
    rw [List.length_drop]
    omega
  rw [List.take_of_length_le (Nat.le_of_lt hrest)] at hitems
  have hfew : items.length < pageSize := hitems.length_eq ▸ hrest
  refine ⟨items, _, t, .congr (hpage.bind ?_) (commentsFrom_eq hn (page + 1) s), rfl, hitems,
    .cons rfl (.nil hsame)⟩
  rw [pagesAfter, if_pos hfew]
  exact .pure hpage.backs items

/-- The pages from one on hold all comments from its first one on. The induction is on the number of
pages that are still to come, the last of which is the first that is not full. -/
theorem Backs.commentsFrom {left last : Nat} (page : Nat) (hs : h.Backs c r pull n x s)
    (hlast : (h.comments x).length < last * 100) (hleft : page + left + 1 = last) (hn : left < n) :
    ∃ items qs t, h.Runs c r pull n x s (c.commentsFrom r pull (h.network n x) (page + 1)) items qs t ∧
      qs.length ≤ left + 1 ∧
      List.Forall₂ Comment.IsShownBy ((h.comments x).drop (page * 100)) items ∧
      h.Always (· = h.comments x) x qs := by
  induction left generalizing n x s page with
  | zero =>
    obtain ⟨items, qs, t, hrun, hone, hitems, hsame⟩ := hs.lastPage hn (hleft ▸ hlast)
    exact ⟨items, qs, t, hrun, Nat.le_of_eq hone, hitems, hsame⟩
  | succ left ih =>
    have hpositive : 0 < n := by omega
    by_cases hshort : (h.comments x).length < (page + 1) * 100
    · obtain ⟨items, qs, t, hrun, hone, hitems, hsame⟩ := hs.lastPage hpositive hshort
      exact ⟨items, qs, t, hrun, by omega, hitems, hsame⟩
    -- A full page leaves the comments as they are, and the next page begins where it ends.
    · obtain ⟨items, t, hpage, hitems, hsame⟩ := hs.readPage hpositive page
      generalize hq : c.pageRequest r pull (page + 1) = q at hpage hsame
      have hlength : items.length = 100 := by
        rw [← hitems.length_eq, List.length_take, List.length_drop]
        omega
      have hfull : ¬ items.length < pageSize := by
        rw [hlength]
        exact Nat.lt_irrefl 100
      have hnext : h.Backs c r pull (n - 1) (h.next x q) t := hpage.backs
      obtain ⟨more, qs, u, hmore, hfew, hrest, hkept⟩ :=
        ih (page + 1) hnext (hsame.symm ▸ hlast) (by omega) (by omega)
      rw [hsame] at hrest hkept
      refine ⟨items ++ more, [q] ++ qs, u, ?_, ?_, ?_, .cons rfl hkept⟩
      · have hmany : h.Runs c r pull (n - 1) (h.next x q) t
            (pagesAfter c r pull (h.network (n - 1) (h.next x q)) (page + 1) items) (items ++ more) qs u := by
          rw [pagesAfter, if_neg hfull]
          exact hmore.map (items ++ ·)
        refine .congr (hpage.bind hmany) ?_
        rw [← hq]
        exact commentsFrom_eq hpositive (page + 1) s
      · rw [List.length_append, List.length_singleton]
        omega
      · have hnextPage : ((h.comments x).drop (page * 100)).drop 100 =
            (h.comments x).drop ((page + 1) * 100) := by
          rw [List.drop_drop, Nat.succ_mul]
        rw [← List.take_append_drop 100 ((h.comments x).drop (page * 100)), hnextPage]
        exact List.rel_append hitems hrest

/-- A listing holds all comments, and nothing happens to them meanwhile. -/
theorem Backs.comments (hs : h.Backs c r pull n x s) (hn : (h.comments x).length < n) :
    ∃ items qs t, h.Runs c r pull n x s (c.comments r pull) items qs t ∧
      qs.length ≤ (h.comments x).length + 1 ∧
      List.Forall₂ Comment.IsShownBy (h.comments x) items ∧ h.Always (· = h.comments x) x qs := by
  -- There are at most as many full pages as there are comments.
  obtain ⟨items, qs, t, hrun, hfew, hitems, hsame⟩ :=
    hs.commentsFrom 0 (show (h.comments x).length < ((h.comments x).length + 1) * 100 by omega)
      (Nat.zero_add _ ▸ rfl) hn
  rw [Nat.zero_mul, List.drop_zero] at hitems
  refine ⟨items, qs, t, .congr hrun ?_, hfew, hitems, hsame⟩
  rw [Client.comments, Action.bind_run, Action.get_run, ← hs.network]

/-! ### Comments are deleted, changed and added -/

theorem Backs.deleteComment (hs : h.Backs c r pull n x s) (hn : 0 < n) {comment : Comment}
    (hheld : comment ∈ h.comments x) :
    ∃ t, h.Runs c r pull n x s (c.deleteComment r (.int comment.id)) () [c.deletion r comment.id] t ∧
      h.comments (h.next x (c.deletion r comment.id)) =
        (h.comments x).filter fun other => other.id ≠ comment.id := by
  obtain ⟨reply, haccepts, hleft⟩ := (hs.servesIn hn).deletes comment hheld
  obtain ⟨t, hrun⟩ := Runs.after_log hs fun s' hs' =>
    (hs'.send hn haccepts).imp fun t hsend => hsend.map fun _ => ()
  refine ⟨t, .congr hrun ?_, hleft⟩
  rw [Client.deleteComment, Client.deletion_eq]

theorem Backs.changeComment (hs : h.Backs c r pull n x s) (hn : 0 < n) {comment : Comment}
    (hheld : comment ∈ h.comments x) (body : String) :
    ∃ v t, h.Runs c r pull n x s (c.changeComment r (.int comment.id) body) v
        [c.change r comment.id body] t ∧
      h.comments (h.next x (c.change r comment.id body)) =
        (h.comments x).map (Comment.edit comment.id body) := by
  obtain ⟨reply, v, haccepts, hjson, hchanged⟩ := (hs.servesIn hn).changes comment hheld body
  obtain ⟨t, hrun⟩ := Runs.after_log hs fun s' hs' => hs'.ask hn haccepts hjson
  refine ⟨v, t, .congr hrun ?_, hchanged⟩
  rw [Client.changeComment, Client.change_eq]

theorem Backs.addComment (hs : h.Backs c r pull n x s) (hn : 0 < n) (body : String) :
    ∃ v id t, h.Runs c r pull n x s (c.addComment r pull body) v [c.addition r pull body] t ∧
      h.comments (h.next x (c.addition r pull body)) = h.comments x ++ [⟨id, some body⟩] := by
  obtain ⟨reply, v, id, haccepts, hjson, -, hadded⟩ := (hs.servesIn hn).adds body
  obtain ⟨t, hrun⟩ := Runs.after_log hs fun s' hs' => hs'.ask hn haccepts hjson
  refine ⟨v, id, t, .congr hrun ?_, hadded⟩
  rw [Client.addComment, Client.addition_eq]

end Host

end ReviewGate.Forge

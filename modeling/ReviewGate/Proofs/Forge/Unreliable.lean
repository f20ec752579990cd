import ReviewGate.Proofs.Forge.Shared

/-! A forge on which requests may fail. It does what it is asked to do, or it refuses, or a request is lost
on the way, and nothing happens to the comments then. A job that works with it is done in the end or breaks
off at any of its requests, and something can be said of the comments in both cases. -/
namespace ReviewGate.Forge

namespace Host

variable {σ : Type} (h : Host σ)

/-- Whether a request fails and leaves the comments as they are. -/
structure Fails (x : σ) (q : Request) : Prop where
  refused : ∀ reply, (h.answer x q).outcome = .reply reply → reply.isOk = false
  kept : h.comments (h.next x q) = h.comments x

/-- Whether the forge accepts a request, of whose reply something holds then, or the request fails. -/
def Attempts (x : σ) (q : Request) (R : Reply → Prop) : Prop :=
  (∃ reply, h.Grants x q reply ∧ R reply) ∨ h.Fails x q

/-- Whether the forge does in a state what it is asked to do with the comments on a pull request, unless
the request fails. -/
structure TriesIn (c : Client) (r : Repository) (pull : Value) (x : σ) : Prop where
  lists : ∀ page size, 0 < page → 0 < size → size ≤ 100 →
    h.Attempts x (c.listing r pull page size) fun reply =>
      ∃ items, reply.json = .ok (.list items) ∧
        List.Forall₂ Comment.IsShownBy (((h.comments x).drop ((page - 1) * size)).take size) items ∧
        h.comments (h.next x (c.listing r pull page size)) = h.comments x
  deletes : ∀ comment ∈ h.comments x,
    h.Attempts x (c.deletion r comment.id) fun _ =>
      h.comments (h.next x (c.deletion r comment.id)) =
        (h.comments x).filter fun other => other.id ≠ comment.id
  changes : ∀ comment ∈ h.comments x, ∀ body,
    h.Attempts x (c.change r comment.id body) fun reply =>
      ∃ v, reply.json = .ok v ∧
        h.comments (h.next x (c.change r comment.id body)) =
          (h.comments x).map (Comment.edit comment.id body)
  adds : ∀ body,
    h.Attempts x (c.addition r pull body) fun reply =>
      ∃ v, reply.json = .ok v ∧
        ∃ id, h.comments (h.next x (c.addition r pull body)) = h.comments x ++ [⟨id, some body⟩]

/-- Whether the forge does so for the next requests, whatever they are, and no two comments ever have the
same number. -/
def Tries (c : Client) (r : Repository) (pull : Value) : Nat → σ → Prop
  | 0, x => (h.ids x).Nodup
  | n + 1, x => (h.ids x).Nodup ∧ h.TriesIn c r pull x ∧ ∀ q, Tries c r pull n (h.next x q)

/-- Whether such a forge is on the other end of the wire for so many requests. -/
structure Stands (c : Client) (r : Repository) (pull : Value) (n : Nat) (x : σ) (s : Runner) : Prop where
  network : s.network = h.network n x
  tries : h.Tries c r pull n x

/-- How a job ends: it is done and the forge is still there, or it breaks off. Something holds of its
requests and of the comments after those of them that have reached the forge. -/
inductive Ends {α : Type} (c : Client) (r : Repository) (pull : Value) (n : Nat) (x : σ) (s : Runner)
    (done : α → List Request → List Comment → Prop) (broken : List Request → List Comment → Prop) :
    Except Fault α × Runner → Prop
  | done (a : α) (qs : List Request) (t : Runner) (sent : s.Sends qs t) (few : qs.length ≤ n)
    (stands : h.Stands c r pull (n - qs.length) (h.after x qs) t)
    (holds : done a qs (h.comments (h.after x qs))) : Ends c r pull n x s done broken (.ok a, t)
  | broken (e : Fault) (qs : List Request) (t : Runner) (sent : s.Sends qs t)
    (holds : broken qs (h.comments (h.after x (qs.take n)))) : Ends c r pull n x s done broken (.error e, t)

variable {h} {α β : Type} {c : Client} {r : Repository} {pull : Value} {n : Nat} {x : σ} {s t : Runner}
  {q : Request}

theorem Stands.of_wires (hs : h.Stands c r pull n x s) (hwires : s.SameWires t) :
    h.Stands c r pull n x t :=
  ⟨hwires.network.trans hs.network, hs.tries⟩

theorem Stands.triesIn (hs : h.Stands c r pull n x s) (hn : 0 < n) : h.TriesIn c r pull x := by
  obtain ⟨m, rfl⟩ : ∃ m, n = m + 1 := ⟨n - 1, by omega⟩
  exact hs.tries.2.1

theorem Stands.unique (hs : h.Stands c r pull n x s) : (h.ids x).Nodup := by
  have htries := hs.tries
  cases n with
  | zero => exact htries
  | succ m => exact htries.1

namespace Ends

variable {done : α → List Request → List Comment → Prop} {broken : List Request → List Comment → Prop}

theorem pure (hs : h.Stands c r pull n x s) {a : α} (ha : done a [] (h.comments x)) :
    h.Ends c r pull n x s done broken ((Pure.pure a : Job α) s) :=
  .done a [] s ⟨(List.append_nil _).symm, rfl⟩ (Nat.zero_le n) hs ha

theorem mono {result : Except Fault α × Runner} (hj : h.Ends c r pull n x s done broken result)
    {done' : α → List Request → List Comment → Prop} {broken' : List Request → List Comment → Prop}
    (hdone : ∀ a qs cs, qs.length ≤ n → done a qs cs → done' a qs cs)
    (hbroken : ∀ qs cs, broken qs cs → broken' qs cs) :
    h.Ends c r pull n x s done' broken' result := by
  cases hj with
  | done a qs t hsent hfew hstands ha => exact .done a qs t hsent hfew hstands (hdone _ _ _ hfew ha)
  | broken e qs t hsent he => exact .broken e qs t hsent (hbroken _ _ he)

/-- What follows on a job that is done begins with the requests that are left. -/
theorem bind {j : Job α} {f : α → Job β} {done' : β → List Request → List Comment → Prop}
    {broken' : List Request → List Comment → Prop} (hj : h.Ends c r pull n x s done broken (j s))
    (hf : ∀ a qs t, h.Stands c r pull (n - qs.length) (h.after x qs) t →
      done a qs (h.comments (h.after x qs)) →
      h.Ends c r pull (n - qs.length) (h.after x qs) t (fun b more cs => done' b (qs ++ more) cs)
        (fun more cs => broken' (qs ++ more) cs) (f a t))
    (hbroken : ∀ qs cs, broken qs cs → broken' qs cs) :
    h.Ends c r pull n x s done' broken' ((j >>= f) s) := by
  generalize hrun : j s = outcome at hj
  cases hj with
  | broken e qs t hsent he =>
    rw [Action.bind_run_error hrun]
    exact .broken e qs t hsent (hbroken _ _ he)
  | done a qs t hsent hfew hstands ha =>
    rw [Action.bind_run_ok hrun]
    have hmore := hf a qs t hstands ha
    generalize f a t = outcome' at hmore
    cases hmore with
    | done b more u hsent' hfew' hstands' hb =>
      rw [Nat.sub_sub, ← List.length_append, ← after_append] at hstands'
      rw [← after_append] at hb
      refine .done b (qs ++ more) u (hsent.trans hsent') ?_ hstands' hb
      rw [List.length_append]
      omega
    | broken e more u hsent' he =>
      refine .broken e (qs ++ more) u (hsent.trans hsent') ?_
      rw [List.take_append, List.take_of_length_le hfew, after_append]
      exact he

/-- A message in the log before a job does not matter. -/
theorem after_log {j : Job α} {level : LogLevel} {source message : String} (hs : h.Stands c r pull n x s)
    (hj : ∀ s', h.Stands c r pull n x s' → h.Ends c r pull n x s' done broken (j s')) :
    h.Ends c r pull n x s done broken ((Job.log level source message >>= fun _ => j) s) := by
  rcases hrun : (Job.log level source message >>= fun _ => j) s with ⟨result, t⟩
  obtain ⟨u, hcalm, hrest⟩ := Job.log_calm hrun
  have hwires : s.SameWires u := hcalm _ Runner.SameWires.isCalm
  have hends := hj u (hs.of_wires hwires)
  rw [hrest] at hends
  cases hends with
  | done a qs t hsent hfew hstands ha => exact .done a qs t (.after hwires hsent) hfew hstands ha
  | broken e qs t hsent he => exact .broken e qs t (.after hwires hsent) he

end Ends

/-! ### Requests -/

theorem Fails.accepted (hq : h.Fails x q) : (h.answer x q).outcome.accepted? = none := by
  cases houtcome : (h.answer x q).outcome with
  | broken description => rfl
  | reply reply => simp [Outcome.accepted?, hq.refused reply houtcome]

/-- A request that is not accepted and leaves the comments as they are is the last one. -/
theorem Ends.lost {done : Reply → List Request → List Comment → Prop}
    (hnone : (s.network.answer q).outcome.accepted? = none)
    (hkept : h.comments (h.after x ([q].take n)) = h.comments x) :
    h.Ends c r pull n x s done (fun qs cs => qs <+: [q] ∧ cs = h.comments x) (Forge.send q s) := by
  rcases hsend : Forge.send q s with ⟨result, t⟩
  obtain ⟨e, rfl, ⟨-, hwires⟩ | hsent⟩ := send_of_unaccepted hsend hnone
  · exact .broken e [] t hwires.sends ⟨List.nil_prefix, by rw [List.take_nil]; rfl⟩
  · exact .broken e [q] t hsent ⟨List.prefix_rfl, hkept⟩

/-- A request gets the reply that the forge has for it, or nothing happens to the comments. -/
theorem Stands.send (hs : h.Stands c r pull n x s) {R : Reply → Prop} (hq : 0 < n → h.Attempts x q R) :
    h.Ends c r pull n x s (fun reply qs cs => R reply ∧ qs = [q] ∧ cs = h.comments (h.next x q))
      (fun qs cs => qs <+: [q] ∧ cs = h.comments x) (Forge.send q s) := by
  cases n with
  | zero => exact .lost (by rw [hs.network]; rfl) rfl
  | succ m =>
    have hanswer : s.network.answer q = h.answer x q := by
      rw [hs.network]
      rfl
    rcases hq (Nat.succ_pos m) with ⟨reply, hgrants, hreply⟩ | hfails
    · rcases hsend : Forge.send q s with ⟨result, t⟩
      rcases send_of_accepted hsend (hanswer ▸ hgrants.accepted) (hanswer ▸ hgrants.legible) with
        ⟨-, hwires, reset, rfl⟩ | ⟨hsent, rfl⟩
      · exact .broken _ [] t hwires.sends ⟨List.nil_prefix, rfl⟩
      · have hnetwork : t.network = h.network m (h.next x q) := by
          rw [hsent.network, hs.network]
          rfl
        exact .done reply [q] t hsent (Nat.succ_pos m) ⟨hnetwork, hs.tries.2.2 q⟩ ⟨hreply, rfl, rfl⟩
    · have hkept : h.comments (h.after x ([q].take (m + 1))) = h.comments x := by
        rw [List.take_succ_cons, List.take_nil]
        exact hfails.kept
      exact .lost (hanswer ▸ hfails.accepted) hkept

theorem Stands.ask (hs : h.Stands c r pull n x s) {R : Value → Prop}
    (hq : 0 < n → h.Attempts x q fun reply => ∃ v, reply.json = .ok v ∧ R v) :
    h.Ends c r pull n x s (fun v qs cs => R v ∧ qs = [q] ∧ cs = h.comments (h.next x q))
      (fun qs cs => qs <+: [q] ∧ cs = h.comments x) (Forge.ask q s) := by
  refine (hs.send hq).bind ?_ fun _ _ => id
  rintro reply _ t hstands ⟨⟨v, hjson, hv⟩, rfl, hy⟩
  rw [Job.ofExcept_run, hjson]
  exact .pure hstands ⟨hv, List.append_nil _, hy⟩

/-! ### All comments are listed -/

/-- Whether requests only read, and leave the comments as they are. -/
structure Reads (held : List Comment) (qs : List Request) (cs : List Comment) : Prop where
  gets : ∀ q ∈ qs, q.method = "GET"
  kept : cs = held

theorem Reads.append {held cs cs' : List Comment} {qs qs' : List Request} (hfirst : Reads held qs cs)
    (hmore : Reads cs qs' cs') : Reads held (qs ++ qs') cs' where
  gets q hq := (List.mem_append.mp hq).elim (hfirst.gets q) (hmore.gets q)
  kept := hmore.kept.trans hfirst.kept

/-- A page holds the comments of a slice. -/
theorem Stands.readPage (hs : h.Stands c r pull n x s) (page : Nat) :
    h.Ends c r pull n x s
      (fun items qs cs =>
        List.Forall₂ Comment.IsShownBy (((h.comments x).drop (page * 100)).take 100) items ∧
          qs = [c.pageRequest r pull (page + 1)] ∧ cs = h.comments x)
      (Reads (h.comments x)) (Forge.readPage (c.pageRequest r pull (page + 1)) s) := by
  rw [Client.pageRequest_eq]
  generalize hq : c.listing r pull (page + 1) 100 = q
  have hlist : 0 < n → h.Attempts x q fun reply => ∃ v, reply.json = .ok v ∧ ∃ items, v = .list items ∧
      List.Forall₂ Comment.IsShownBy (((h.comments x).drop (page * 100)).take 100) items ∧
      h.comments (h.next x q) = h.comments x := by
    intro hn
    subst hq
    refine ((hs.triesIn hn).lists (page + 1) 100 (by omega) (by omega) (by omega)).imp ?_ id
    rintro ⟨reply, hgrants, items, hjson, hitems, hsame⟩
    exact ⟨reply, hgrants, .list items, hjson, items, rfl, hitems, hsame⟩
  refine (hs.ask hlist).bind ?_ fun qs cs hlost => ?_
  · rintro v _ t hstands ⟨⟨items, rfl, hitems, hsame⟩, rfl, hy⟩
    rw [Job.use_run, itemsOfPage_list]
    exact .pure hstands ⟨hitems, List.append_nil _, hy.trans hsame⟩
  · refine ⟨fun q' hq' => ?_, hlost.2⟩
    rw [List.mem_singleton.mp (hlost.1.subset hq'), ← hq, Client.listing_method]

/-- The pages from one on hold all comments from its first one on, unless a request fails. The induction is
on the number of requests that reach the forge. -/
theorem Stands.commentsFrom (hs : h.Stands c r pull n x s) (page : Nat) :
    h.Ends c r pull n x s
      (fun items qs cs =>
        List.Forall₂ Comment.IsShownBy ((h.comments x).drop (page * 100)) items ∧ Reads (h.comments x) qs cs)
      (Reads (h.comments x)) (c.commentsFrom r pull (h.network n x) (page + 1) s) := by
  induction n generalizing x s page with
  | zero =>
    have hdown : c.commentsFrom r pull (h.network 0 x) (page + 1) s =
      Forge.readPage (c.pageRequest r pull (page + 1)) s := rfl
    rw [hdown]
    refine (hs.readPage page).mono ?_ fun _ _ => id
    rintro items qs cs hfew ⟨-, rfl, -⟩
    exact absurd hfew (Nat.not_succ_le_zero 0)
  | succ n ih =>
    rw [commentsFrom_eq (Nat.succ_pos n)]
    refine (hs.readPage page).bind ?_ fun _ _ => id
    rintro items _ t hstands ⟨hitems, rfl, hy⟩
    generalize hq : c.pageRequest r pull (page + 1) = q at hstands hy ⊢
    have hget : q.method = "GET" := hq ▸ rfl
    have hread : Reads (h.comments x) [q] (h.comments (h.next x q)) := ⟨by simpa using hget, hy⟩
    unfold pagesAfter
    split_ifs with hfew
    · have hrest : ((h.comments x).drop (page * 100)).length < 100 := by
        have hlength := hitems.length_eq
        have hsize : pageSize = 100 := rfl
        rw [List.length_take] at hlength
        omega
      rw [List.take_of_length_le (Nat.le_of_lt hrest)] at hitems
      exact .pure hstands ⟨hitems, hread⟩
    -- The next page begins where a full one ends.
    · refine (ih hstands (page + 1)).bind ?_ fun qs cs hmore => hread.append hmore
      rintro more qs u hstands' ⟨hmore, hread'⟩
      have hnextPage : ((h.comments x).drop (page * 100)).drop 100 =
          (h.comments (h.next x q)).drop ((page + 1) * 100) := by
        rw [List.drop_drop, Nat.succ_mul, hread.kept]
      refine .pure hstands' ⟨?_, ?_⟩
      · rw [← List.take_append_drop 100 ((h.comments x).drop (page * 100)), hnextPage]
        exact List.rel_append hitems hmore
      · rw [List.append_nil]
        exact hread.append hread'

theorem Stands.comments (hs : h.Stands c r pull n x s) :
    h.Ends c r pull n x s
      (fun items qs cs => List.Forall₂ Comment.IsShownBy (h.comments x) items ∧ Reads (h.comments x) qs cs)
      (Reads (h.comments x)) (c.comments r pull s) := by
  have hlist := hs.commentsFrom 0
  rw [Nat.zero_mul, List.drop_zero, ← hs.network] at hlist
  rw [Client.comments, Action.bind_run, Action.get_run]
  exact hlist

/-! ### Comments are deleted, changed and added -/

theorem Stands.deleteComment (hs : h.Stands c r pull n x s) {comment : Comment}
    (hheld : comment ∈ h.comments x) :
    h.Ends c r pull n x s
      (fun _ qs cs => qs = [c.deletion r comment.id] ∧
        cs = (h.comments x).filter fun other => other.id ≠ comment.id)
      (fun _ cs => cs = h.comments x) (c.deleteComment r (.int comment.id) s) := by
  rw [Client.deleteComment, Client.deletion_eq]
  refine .after_log hs fun s' hs' => ?_
  refine (hs'.send fun hn => (hs.triesIn hn).deletes comment hheld).bind ?_ fun _ _ hlost => hlost.2
  rintro reply _ t hstands ⟨hleft, rfl, hy⟩
  exact .pure hstands ⟨List.append_nil _, hy.trans hleft⟩

theorem Stands.changeComment (hs : h.Stands c r pull n x s) {comment : Comment}
    (hheld : comment ∈ h.comments x) (body : String) :
    h.Ends c r pull n x s
      (fun _ _ cs => cs = (h.comments x).map (Comment.edit comment.id body))
      (fun _ cs => cs = h.comments x) (c.changeComment r (.int comment.id) body s) := by
  rw [Client.changeComment, Client.change_eq]
  refine .after_log hs fun s' hs' => ?_
  refine (hs'.ask fun hn => (hs.triesIn hn).changes comment hheld body).mono ?_ fun _ _ hlost => hlost.2
  rintro v qs cs - ⟨hchanged, -, hy⟩
  exact hy.trans hchanged

theorem Stands.addComment (hs : h.Stands c r pull n x s) (body : String) :
    h.Ends c r pull n x s
      (fun _ _ cs => ∃ id, cs = h.comments x ++ [⟨id, some body⟩])
      (fun qs cs => qs <+: [c.addition r pull body] ∧ cs = h.comments x) (c.addComment r pull body s) := by
  rw [Client.addComment, Client.addition_eq]
  refine .after_log hs fun s' hs' => ?_
  refine (hs'.ask fun hn => (hs.triesIn hn).adds body).mono ?_ fun _ _ => id
  rintro v qs cs - ⟨⟨id, hadded⟩, -, hy⟩
  exact ⟨id, hy.trans hadded⟩

end Host

/-! ### A forge in memory -/

/-- A forge in memory that refuses some requests. -/
def Host.refusing (c : Client) (r : Repository) (refuses : Request → Bool) : Host Shelf where
  comments := Shelf.comments
  answer x q := if refuses q then ⟨.reply (.of 403 [] ""), 0⟩ else (Host.memory c r).answer x q
  next x q := if refuses q then x else Shelf.next c r x q

namespace Shelf

variable {c : Client} {r : Repository} {refuses : Request → Bool} {pull : Value} {n : Nat} {x : Shelf}
  {q : Request}

theorem refusing_next (hq : refuses q = false) :
    (Host.refusing c r refuses).next x q = Shelf.next c r x q :=
  if_neg (by simp [hq])

theorem refusing_fails (hq : refuses q = true) : (Host.refusing c r refuses).Fails x q := by
  have hanswer : (Host.refusing c r refuses).answer x q = ⟨.reply (.of 403 [] ""), 0⟩ := if_pos hq
  have hnext : (Host.refusing c r refuses).next x q = x := if_pos hq
  refine ⟨fun reply hreply => ?_, by rw [hnext]⟩
  rw [hanswer] at hreply
  cases hreply
  rfl

/-- What the forge in memory does with a request, this one does or it refuses. -/
theorem refusing_attempts {R : Shelf → Reply → Prop}
    (h : ∃ reply, (Host.memory c r).Accepts x q reply ∧ R (Shelf.next c r x q) reply) :
    (Host.refusing c r refuses).Attempts x q (R ((Host.refusing c r refuses).next x q)) := by
  cases hq : refuses q with
  | true => exact Or.inr (refusing_fails hq)
  | false =>
    obtain ⟨reply, haccepts, hreply⟩ := h
    have hanswer : (Host.refusing c r refuses).answer x q = (Host.memory c r).answer x q :=
      if_neg (by simp [hq])
    rw [refusing_next hq]
    exact Or.inl ⟨reply, ⟨hanswer ▸ haccepts.reply, haccepts.ok, haccepts.budget⟩, hreply⟩

theorem IsSound.refusing_triesIn (hx : x.IsSound n) :
    (Host.refusing c r refuses).TriesIn c r pull x := by
  have hmemory : (Host.memory c r).ServesIn c r pull x := hx.servesIn
  refine ⟨fun page size hpage hsize hmost => ?_, fun comment hheld => ?_, fun comment hheld body => ?_,
    fun body => ?_⟩
  · obtain ⟨reply, items, haccepts, hlisted⟩ := hmemory.lists page size hpage hsize hmost
    exact refusing_attempts (R := fun y reply => ∃ items, reply.json = .ok (.list items) ∧
      List.Forall₂ Comment.IsShownBy ((x.comments.drop ((page - 1) * size)).take size) items ∧
      y.comments = x.comments) ⟨reply, haccepts, items, hlisted⟩
  · obtain ⟨reply, haccepts, hleft⟩ := hmemory.deletes comment hheld
    exact refusing_attempts (R := fun y _ => y.comments = x.comments.filter fun other =>
      other.id ≠ comment.id) ⟨reply, haccepts, hleft⟩
  · obtain ⟨reply, v, haccepts, hchanged⟩ := hmemory.changes comment hheld body
    exact refusing_attempts (R := fun y reply => ∃ v, reply.json = .ok v ∧
      y.comments = x.comments.map (Comment.edit comment.id body)) ⟨reply, haccepts, v, hchanged⟩
  · obtain ⟨reply, v, id, haccepts, hjson, -, hadded⟩ := hmemory.adds body
    exact refusing_attempts (R := fun y reply => ∃ v, reply.json = .ok v ∧
      ∃ id, y.comments = x.comments ++ [Comment.mk id (some body)]) ⟨reply, haccepts, v, hjson, id, hadded⟩

/-- Whatever it refuses, the forge in memory does everything else. -/
theorem IsSound.refusing_tries (hx : x.IsSound n) : (Host.refusing c r refuses).Tries c r pull n x := by
  induction n generalizing x with
  | zero => exact hx.unique
  | succ n ih =>
    refine ⟨hx.unique, hx.refusing_triesIn, fun q => ih ?_⟩
    cases hq : refuses q with
    | true =>
      have hnext : (Host.refusing c r refuses).next x q = x := if_pos hq
      have hroom := hx.room
      rw [hnext]
      exact ⟨hx.unique, hx.below, hx.start, by omega⟩
    | false =>
      rw [refusing_next hq]
      exact hx.next q

end Shelf

end ReviewGate.Forge

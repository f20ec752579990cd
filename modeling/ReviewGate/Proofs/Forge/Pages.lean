import Mathlib.Data.List.Nodup
import ReviewGate.Proofs.Forge.Budget
import ReviewGate.Proofs.Forge.Memory

/-! A listing of comments and the pages of it. From a forge that cuts a list into pages the client gets the
list back, with a request for each full page and one more. If a request fails, the listing fails with it, and
the pages before are dropped. -/
namespace ReviewGate

/-! ### Requests for a value -/

/-- What a request for a value comes to: the value in a reply that is accepted, or a fault. -/
inductive Forge.Outcome.Yields (o : Outcome) : Except Fault Value → Prop
  | value {r : Reply} {v : Value} (reply : o.ComesTo (.ok r)) (json : r.json = .ok v) : o.Yields (.ok v)
  | malformed {r : Reply} {e : Fault} (reply : o.ComesTo (.ok r)) (json : r.json = .error e) :
    o.Yields (.error e)
  | failed {e : Fault} (fault : o.ComesTo (.error e)) : o.Yields (.error e)

namespace Runner

open Forge

/-- A machine that has sent a request and taken note of what came of it. -/
def afterRequest (s : Runner) (q : Request) : Runner :=
  { s with
    network := s.network.next q
    now := s.now + (s.network.answer q).elapsed
    budget := s.budget.afterOutcome (s.network.answer q).outcome
    requests := s.requests ++ [q] }

/-- Whether the budget is not low before any of some requests, which are sent one after the other. -/
def Affords : Runner → List Request → Prop
  | _, [] => True
  | s, q :: qs => s.budget.isLow s.now = false ∧ (s.afterRequest q).Affords qs

/-- Whether a request fails with a fault: its outcome comes to it. If that is a limit, the reply has said so,
and the limit holds until the reset that the reply names, or else for a while. -/
structure FailsWith (s : Runner) (q : Request) (e : Fault) : Prop where
  outcome : (s.network.answer q).outcome.Yields (.error e)
  limit : ∀ reset, e = .rateLimited reset →
    ∃ r, (s.network.answer q).outcome = .reply r ∧ r.status = 429 ∧
      reset = if (r.header? resetHeader).isSome then (s.afterRequest q).budget.reset
        else (s.afterRequest q).now + patience

/-- Whether two machines have sent the same, have the same budget and time, and are on the same network. -/
structure InStep (s t : Runner) : Prop where
  network : t.network = s.network
  now : t.now = s.now
  budget : t.budget = s.budget
  requests : t.requests = s.requests

variable {s t u : Runner} {q : Request} {qs : List Request}

theorem InStep.refl (s : Runner) : s.InStep s :=
  ⟨rfl, rfl, rfl, rfl⟩

theorem InStep.trans (h : s.InStep t) (h' : t.InStep u) : s.InStep u :=
  ⟨h'.network.trans h.network, h'.now.trans h.now, h'.budget.trans h.budget, h'.requests.trans h.requests⟩

theorem InStep.afterRequest (h : s.InStep t) (q : Request) : (s.afterRequest q).InStep (t.afterRequest q) := by
  obtain ⟨hnetwork, hnow, hbudget, hrequests⟩ := h
  unfold Runner.afterRequest
  rw [hnetwork, hnow, hbudget, hrequests]
  exact ⟨rfl, rfl, rfl, rfl⟩

theorem InStep.failsWith {e : Fault} (h : s.InStep t) (he : t.FailsWith q e) : s.FailsWith q e := by
  have hafter := h.afterRequest q
  obtain ⟨houtcome, hlimit⟩ := he
  rw [h.network] at houtcome
  rw [h.network, hafter.budget, hafter.now] at hlimit
  exact ⟨houtcome, hlimit⟩

theorem Sends.inStep (h : s.Sends qs t) (hstep : t.InStep u) : s.Sends qs u :=
  ⟨hstep.requests.trans h.requests, hstep.network.trans h.network⟩

theorem sends_afterRequests (s : Runner) (qs : List Request) :
    s.Sends qs (qs.foldl Runner.afterRequest s) := by
  induction qs generalizing s with
  | nil => exact (SameWires.refl s).sends
  | cons q qs ih =>
    have hfirst : s.Sends [q] (s.afterRequest q) := ⟨rfl, rfl⟩
    exact hfirst.trans (ih _)

theorem affords_concat :
    s.Affords (qs ++ [q]) ↔
      s.Affords qs ∧
        (qs.foldl Runner.afterRequest s).budget.isLow (qs.foldl Runner.afterRequest s).now = false := by
  induction qs generalizing s with
  | nil => simp [Affords]
  | cons p qs ih => simp only [List.cons_append, Affords, List.foldl_cons, ih, and_assoc]

end Runner

namespace Forge

variable {o : Outcome} {q : Request} {s t u : Runner} {v : Value} {items : List Value}

/-- An outcome that comes to a reply comes to nothing else. -/
theorem Outcome.ComesTo.eq_ok {r : Reply} {result : Except Fault Reply} (h : o.ComesTo (.ok r))
    (h' : o.ComesTo result) : result = .ok r := by
  cases h with
  | taken hbudget htaken =>
    cases htaken with
    | accepted hok =>
      cases h' with
      | unbudgeted hfault => exact absurd hbudget hfault.not_hasBudget
      | taken _ htaken' => exact htaken'.eq_ok hok

theorem Outcome.Yields.eq_ok {result : Except Fault Value} (h : o.Yields (.ok v)) (h' : o.Yields result) :
    result = .ok v := by
  obtain ⟨hreply, hjson⟩ := h
  cases h' with
  | value hreply' hjson' =>
    cases hreply.eq_ok hreply'
    exact hjson'.symm.trans hjson
  | malformed hreply' hjson' =>
    cases hreply.eq_ok hreply'
    exact hjson'.symm.trans hjson
  | failed hfault => cases hreply.eq_ok hfault

/-- While the budget is not low, a request for a value is sent and gives what it comes to. -/
theorem ask_high {result : Except Fault Value} (h : s.budget.isLow s.now = false)
    (hrun : ask q s = (result, t)) :
    (s.afterRequest q).InStep t ∧ (s.network.answer q).outcome.Yields result ∧
      ∀ e, result = .error e → s.FailsWith q e := by
  unfold ask at hrun
  rcases hsend : send q s with ⟨sent, u⟩
  obtain ⟨⟨hsent, hnow, hbudget⟩, hlimit⟩ := send_high h hsend
  obtain ⟨-, hcomes⟩ := send_comesTo h hsend
  have hstep : (s.afterRequest q).InStep u := ⟨hsent.network, hnow, hbudget, hsent.requests⟩
  rw [Action.bind_run, hsend] at hrun
  rcases sent with e | r
  · cases hrun
    refine ⟨hstep, .failed hcomes, ?_⟩
    rintro _ ⟨⟩
    refine ⟨.failed hcomes, ?_⟩
    rintro reset rfl
    rw [← hstep.budget, ← hstep.now]
    exact hlimit reset rfl
  · simp only [Job.ofExcept_run] at hrun
    rcases hjson : r.json with e | v
    · rw [hjson] at hrun
      cases hrun
      refine ⟨hstep, .malformed hcomes hjson, ?_⟩
      rintro _ ⟨⟩
      refine ⟨.malformed hcomes hjson, ?_⟩
      rintro reset rfl
      cases (json_failsPlainly _).isForge hjson
    · rw [hjson] at hrun
      cases hrun
      exact ⟨hstep, .value hcomes hjson, nofun⟩

/-! ### Pages -/

/-- What yields a value is on the network. -/
theorem ne_down_of_yields (h : (s.network.answer q).outcome.Yields (.ok v)) : s.network ≠ .down := by
  intro hdown
  rw [hdown] at h
  obtain ⟨hreply, -⟩ := h
  cases hreply

/-- A request for a page that is answered. -/
theorem readPage_answered (hhigh : s.budget.isLow s.now = false)
    (hpage : (s.network.answer q).outcome.Yields (.ok (.list items))) :
    ∃ t, readPage q s = (.ok items, t) ∧ (s.afterRequest q).InStep t := by
  rcases hask : ask q s with ⟨result, t⟩
  obtain ⟨hstep, hyields, -⟩ := ask_high hhigh hask
  cases hpage.eq_ok hyields
  refine ⟨t, ?_, hstep⟩
  rw [readPage, Action.bind_run_ok hask, Job.use_run, itemsOfPage_list]
  rfl

/-- A request for a page that fails. -/
theorem readPage_failed (hhigh : s.budget.isLow s.now = false)
    (hnone : ∀ v, ¬ (s.network.answer q).outcome.Yields (.ok v)) :
    ∃ e t, readPage q s = (.error e, t) ∧ (s.afterRequest q).InStep t ∧ s.FailsWith q e := by
  rcases hask : ask q s with ⟨e | v, t⟩
  · obtain ⟨hstep, -, hfails⟩ := ask_high hhigh hask
    exact ⟨e, t, Action.bind_run_error hask _, hstep, hfails e rfl⟩
  · obtain ⟨-, hyields, -⟩ := ask_high hhigh hask
    exact absurd hyields (hnone v)

namespace Client

variable {c : Client} {r : Repository} {issue : Value} {k m : Nat} {e : Fault}

/-- The requests for so many pages of a listing, from the first one on. -/
def pages (c : Client) (r : Repository) (issue : Value) (count : Nat) : List Request :=
  (List.range count).map fun i => c.listing r issue (i + 1) 100

theorem pages_succ : c.pages r issue (k + 1) = c.pages r issue k ++ [c.listing r issue (k + 1) 100] := by
  rw [pages, List.range_succ, List.map_append]
  rfl

theorem affords_pages_succ :
    s.Affords (c.pages r issue (k + 1)) ↔
      s.Affords (c.pages r issue k) ∧
        ((c.pages r issue k).foldl Runner.afterRequest s).budget.isLow
          ((c.pages r issue k).foldl Runner.afterRequest s).now = false := by
  rw [pages_succ, Runner.affords_concat]

/-- Whether the next so many requests for a page of some items get it, however long the pages are. -/
def Lists (c : Client) (r : Repository) (issue : Value) (items : List Value) : Nat → Network → Prop
  | 0, _ => True
  | n + 1, net => ∀ page size, 0 < page → 0 < size → size ≤ 100 →
    (net.answer (c.listing r issue page size)).outcome.Yields
        (.ok (.list ((items.drop ((page - 1) * size)).take size))) ∧
      Lists c r issue items n (net.next (c.listing r issue page size))

theorem Lists.page (h : c.Lists r issue items (m + 1) s.network) (k : Nat) :
    (s.network.answer (c.listing r issue (k + 1) 100)).outcome.Yields
        (.ok (.list ((items.drop (k * 100)).take 100))) ∧
      c.Lists r issue items m (s.network.next (c.listing r issue (k + 1) 100)) :=
  h (k + 1) 100 (by omega) (by omega) (by omega)

theorem Lists.after (h : c.Lists r issue items (k + m) s.network) :
    c.Lists r issue items m ((c.pages r issue k).foldl Runner.afterRequest s).network := by
  induction k generalizing m with
  | zero => simpa [pages] using h
  | succ k ih =>
    have hbefore : c.Lists r issue items (m + 1) ((c.pages r issue k).foldl Runner.afterRequest s).network := by
      apply ih
      rwa [Nat.add_right_comm] at h
    rw [pages_succ, List.foldl_concat]
    exact (hbefore.page k).2

/-- A listing ends with a page that is not given. -/
theorem commentsFrom_failed (h : readPage (c.listing r issue (k + 1) 100) s = (.error e, t)) :
    c.commentsFrom r issue s.network (k + 1) s = (.error e, t) := by
  rw [← c.pageRequest_eq] at h
  rcases s.network with _ | ⟨answer, next⟩
  · exact h
  · rw [commentsFrom_up, Action.bind_run_error h]

/-- A listing goes on after a full page, and ends with one that is not full. -/
theorem commentsFrom_page (hup : s.network ≠ .down)
    (h : readPage (c.listing r issue (k + 1) 100) s = (.ok items, t))
    (hnext : t.network = s.network.next (c.listing r issue (k + 1) 100)) :
    c.commentsFrom r issue s.network (k + 1) s =
      if items.length < 100 then (.ok items, t)
      else
        ((c.commentsFrom r issue t.network (k + 2) t).1.map (items ++ ·),
          (c.commentsFrom r issue t.network (k + 2) t).2) := by
  rcases hnetwork : s.network with _ | ⟨answer, next⟩
  · exact absurd hnetwork hup
  · rw [hnetwork] at hnext
    rw [commentsFrom_up, c.pageRequest_eq, Action.bind_run_ok h, hnext]
    have hsize : pageSize = 100 := rfl
    rw [hsize]
    split_ifs
    · rfl
    · rw [Action.bind_run]
      unfold Network.next
      rcases c.commentsFrom r issue (next (c.listing r issue (k + 1) 100)) (k + 2) t with ⟨e | more, u⟩
      · rfl
      · rfl

/-- Whether a listing that starts on a machine has read so many pages, all of them full, when it comes to
another machine. -/
structure HasRead (c : Client) (r : Repository) (issue : Value) (items : List Value) (s : Runner) (k : Nat)
    (t : Runner) : Prop where
  inStep : ((c.pages r issue k).foldl Runner.afterRequest s).InStep t
  rest : c.comments r issue s =
    ((c.commentsFrom r issue t.network (k + 1) t).1.map (items.take (k * 100) ++ ·),
      (c.commentsFrom r issue t.network (k + 1) t).2)

theorem HasRead.start (s : Runner) : c.HasRead r issue items s 0 s := by
  refine ⟨.refl s, ?_⟩
  rw [comments, Action.bind_run, Action.get_run, Nat.zero_mul, List.take_zero]
  dsimp only
  rcases c.commentsFrom r issue s.network 1 s with ⟨e | found, u⟩
  · rfl
  · rfl

theorem HasRead.sends (h : c.HasRead r issue items s k t)
    (hstep : (t.afterRequest (c.listing r issue (k + 1) 100)).InStep u) :
    s.Sends (c.pages r issue (k + 1)) u := by
  refine (s.sends_afterRequests _).inStep (.trans ?_ hstep)
  rw [pages_succ, List.foldl_concat]
  exact h.inStep.afterRequest _

/-- The next page is asked for on the network that is left. -/
theorem HasRead.page (h : c.HasRead r issue items s k t)
    (hlists : c.Lists r issue items (k + (m + 1)) s.network) :
    (t.network.answer (c.listing r issue (k + 1) 100)).outcome.Yields
      (.ok (.list ((items.drop (k * 100)).take 100))) := by
  rw [h.inStep.network]
  exact (hlists.after.page k).1

theorem HasRead.high (h : c.HasRead r issue items s k t) (haffords : s.Affords (c.pages r issue (k + 1))) :
    t.budget.isLow t.now = false := by
  rw [h.inStep.budget, h.inStep.now]
  exact (affords_pages_succ.mp haffords).2

/-- A full page is read, and the listing goes on. -/
theorem HasRead.step (h : c.HasRead r issue items s k t) (hfull : (k + 1) * 100 ≤ items.length)
    (haffords : s.Affords (c.pages r issue (k + 1)))
    (hlists : c.Lists r issue items (k + (m + 1)) s.network) :
    ∃ u, c.HasRead r issue items s (k + 1) u := by
  have hpage := h.page hlists
  obtain ⟨u, hread, hstep⟩ := readPage_answered (h.high haffords) hpage
  refine ⟨u, ⟨?_, ?_⟩⟩
  · rw [pages_succ, List.foldl_concat]
    exact (h.inStep.afterRequest _).trans hstep
  -- What has been read and the page after it are a longer beginning of the list.
  · have hlength : ¬ ((items.drop (k * 100)).take 100).length < 100 := by
      rw [List.length_take, List.length_drop]
      omega
    have hslice : items.take ((k + 1) * 100) = items.take (k * 100) ++ (items.drop (k * 100)).take 100 := by
      rw [Nat.succ_mul, List.take_add]
    rw [h.rest, commentsFrom_page (ne_down_of_yields hpage) hread hstep.network, if_neg hlength, hslice]
    rcases c.commentsFrom r issue u.network (k + 2) u with ⟨e | more, w⟩
    · rfl
    · simp [Except.map, List.append_assoc]

/-- All pages up to one are read if they are full: by induction on their number. -/
theorem exists_hasRead (hfull : k * 100 ≤ items.length) (haffords : s.Affords (c.pages r issue k))
    (hlists : c.Lists r issue items (k + m) s.network) : ∃ t, c.HasRead r issue items s k t := by
  induction k generalizing m with
  | zero => exact ⟨s, .start s⟩
  | succ k ih =>
    have hmore : c.Lists r issue items (k + (m + 1)) s.network := by
      rwa [Nat.add_right_comm] at hlists
    obtain ⟨t, ht⟩ := ih (by omega) (affords_pages_succ.mp haffords).1 hmore
    exact ht.step hfull haffords hmore

/-- The page that is not full is the last one. -/
theorem HasRead.last (h : c.HasRead r issue items s k t) (hlast : k = items.length / 100)
    (haffords : s.Affords (c.pages r issue (k + 1))) (hlists : c.Lists r issue items (k + 1) s.network) :
    ∃ u, c.comments r issue s = (.ok items, u) ∧ s.Sends (c.pages r issue (k + 1)) u := by
  have hpage := h.page hlists
  obtain ⟨u, hread, hstep⟩ := readPage_answered (h.high haffords) hpage
  have hrest : (items.drop (k * 100)).length < 100 := by
    rw [List.length_drop]
    omega
  rw [List.take_of_length_le (by omega)] at hread
  refine ⟨u, ?_, h.sends hstep⟩
  rw [h.rest, commentsFrom_page (ne_down_of_yields hpage) hread hstep.network, if_pos hrest]
  simp [Except.map, List.take_append_drop]

/-- The listing fails with the request for a page, whatever has been read. -/
theorem HasRead.broken (h : c.HasRead r issue items s k t) (haffords : s.Affords (c.pages r issue (k + 1)))
    (hnone : ∀ v, ¬ (t.network.answer (c.listing r issue (k + 1) 100)).outcome.Yields (.ok v)) :
    ∃ e u, c.comments r issue s = (.error e, u) ∧ s.Sends (c.pages r issue (k + 1)) u ∧
      t.FailsWith (c.listing r issue (k + 1) 100) e := by
  obtain ⟨e, u, hread, hstep, hfails⟩ := readPage_failed (h.high haffords) hnone
  refine ⟨e, u, ?_, h.sends hstep, hfails⟩
  rw [h.rest, commentsFrom_failed hread]
  rfl

/-- From a forge that cuts a list of comments into pages, while the budget is never low, the listing is that
list, and the requests are for its full pages and for one page more. If one of these requests fails, the
listing fails as that request does, and no request follows. -/
theorem comments_pages (c : Client) (r : Repository) (issue : Value) (items : List Value) (s : Runner) :
    (s.Affords (c.pages r issue (items.length / 100 + 1)) →
      c.Lists r issue items (items.length / 100 + 1) s.network →
        ∃ t, c.comments r issue s = (.ok items, t) ∧ s.Sends (c.pages r issue (items.length / 100 + 1)) t) ∧
      ∀ k ≤ items.length / 100, s.Affords (c.pages r issue (k + 1)) → c.Lists r issue items k s.network →
        let before := (c.pages r issue k).foldl Runner.afterRequest s
        let q := c.listing r issue (k + 1) 100
        (∀ v, ¬ (before.network.answer q).outcome.Yields (.ok v)) →
          ∃ e t, c.comments r issue s = (.error e, t) ∧ s.Sends (c.pages r issue (k + 1)) t ∧
            before.FailsWith q e := by
  constructor
  · intro haffords hlists
    have hbefore := (affords_pages_succ.mp haffords).1
    obtain ⟨t, ht⟩ := exists_hasRead (Nat.div_mul_le_self _ _) hbefore hlists
    exact ht.last rfl haffords hlists
  · intro k hk haffords hlists before q hnone
    have hbefore := (affords_pages_succ.mp haffords).1
    have hfull : k * 100 ≤ items.length := by omega
    obtain ⟨t, ht⟩ := exists_hasRead (m := 0) hfull hbefore hlists
    obtain ⟨e, u, hrun, hsent, hfails⟩ := ht.broken haffords (ht.inStep.network ▸ hnone)
    exact ⟨e, u, hrun, hsent, ht.inStep.failsWith hfails⟩

end Client

/-! ### A list that fills its pages -/

namespace Shelf

variable {c : Client} {r : Repository} {issue : Value} {room : Nat} {x : Shelf}

/-- The forge in memory cuts the list of its comments into pages. -/
theorem IsSound.lists (hx : x.IsSound room) (n : Nat) :
    c.Lists r issue (x.comments.map Comment.shown) n ((Host.memory c r).network n x) := by
  induction n with
  | zero => trivial
  | succ n ih =>
    intro page size _ _ _
    generalize hq : c.listing r issue page size = q
    have hcontent : x.content q =
        .list (((x.comments.map Comment.shown).drop ((page - 1) * size)).take size) := by
      rw [← List.map_drop, ← List.map_take, ← hq]
      rfl
    have hnext : ((Host.memory c r).network (n + 1) x).next q = (Host.memory c r).network n x := by
      rw [← hq]
      rfl
    constructor
    · have haccepts : (Host.memory c r).Accepts x q (x.reply q) := memory_accepts x q
      exact .value (.taken haccepts.budget (.accepted haccepts.ok)) (hcontent ▸ hx.json_reply q)
    · rw [hnext]
      exact ih

/-- A hundred comments without texts. -/
def hundred : Shelf :=
  ⟨(List.range 100).map fun i : Nat => ⟨i, none⟩, 100⟩

theorem hundred_isSound : hundred.IsSound 0 where
  unique := by
    unfold hundred
    rw [List.map_map]
    exact List.Nodup.map (fun i j hij => Int.ofNat_inj.mp hij) List.nodup_range
  below := by
    intro comment hheld
    obtain ⟨i, hi, rfl⟩ := List.mem_map.mp hheld
    have hless := List.mem_range.mp hi
    show 0 ≤ (i : Int) ∧ (i : Int) < 100
    omega
  start := by decide
  room := by decide

end Shelf

namespace Client

def lister : Client := ⟨.str "t", "https://api.github.com", .int 30⟩

def twoPages : List Request :=
  lister.pages ⟨"owner", "repo"⟩ (.int 7) 2

/-- A machine on a network on which so many requests reach the forge with a hundred comments. -/
def beforeHundred (n : Nat) : Runner :=
  { Runner.fresh 0 with network := (Host.memory lister ⟨"owner", "repo"⟩).network n .hundred }

theorem affords_hundred (n : Nat) : (beforeHundred (n + 1)).Affords twoPages := by
  constructor
  · rfl
  · constructor
    · rfl
    · trivial

/-- A hundred comments take two requests, and the second one fails if it does not reach the forge. -/
theorem comments_pages_hundred :
    (∃ t, lister.comments ⟨"owner", "repo"⟩ (.int 7) (beforeHundred 2) =
        (.ok (Shelf.hundred.comments.map Comment.shown), t) ∧ (beforeHundred 2).Sends twoPages t) ∧
      ∃ t, lister.comments ⟨"owner", "repo"⟩ (.int 7) (beforeHundred 1) =
        (.error (.transport "no more responses"), t) ∧ (beforeHundred 1).Sends twoPages t := by
  have hlength : (Shelf.hundred.comments.map Comment.shown).length / 100 = 1 := by
    simp [Shelf.hundred]
  have hlists : ∀ n, lister.Lists ⟨"owner", "repo"⟩ (.int 7) (Shelf.hundred.comments.map Comment.shown) n
      (beforeHundred n).network := fun n => Shelf.hundred_isSound.lists n
  constructor
  · have hfound := (comments_pages lister ⟨"owner", "repo"⟩ (.int 7)
      (Shelf.hundred.comments.map Comment.shown) (beforeHundred 2)).1
    rw [hlength] at hfound
    exact hfound (affords_hundred 1) (hlists 2)
  · have hlost : ∀ v, ¬ (Network.down.answer (lister.listing ⟨"owner", "repo"⟩ (.int 7) 2 100)).outcome.Yields
        (.ok v) := by
      rintro v ⟨hreply, -⟩
      cases hreply
    obtain ⟨e, t, hrun, hsent, hfails⟩ := (comments_pages lister ⟨"owner", "repo"⟩ (.int 7)
      (Shelf.hundred.comments.map Comment.shown) (beforeHundred 1)).2 1 (by omega) (affords_hundred 0)
        (hlists 1) hlost
    have hfault : e = .transport "no more responses" := by
      cases hfails.outcome with
      | malformed hreply => cases hreply
      | failed hfault =>
        cases hfault
        rfl
    exact ⟨t, hfault ▸ hrun, hsent⟩

end Client

end Forge

end ReviewGate

import ReviewGate.Proofs.Forge.Memory
import ReviewGate.Proofs.Forge.Served

/-! A forge that is asked from two sides at once. It answers one request after the other, so that all that
happens is a history of requests from either side. Each side sees the forge as a network on which things
happen between its own requests. -/
namespace ReviewGate.Forge

/-- Requests from two sides in the order in which they are answered. -/
abbrev History := List (Bool × Request)

namespace History

/-- The requests from one side. -/
def own (who : Bool) (hist : History) : List Request :=
  (hist.filter fun e => e.1 = who).map Prod.snd

def requests (hist : History) : List Request :=
  hist.map Prod.snd

variable {who : Bool} {q : Request} {hist : History}

theorem own_cons_self : own who ((who, q) :: hist) = q :: own who hist := by
  simp [own]

theorem own_cons_other : own who ((!who, q) :: hist) = own who hist := by
  simp [own]

end History

namespace Host

variable {σ : Type} (h : Host σ)

/-- The network that one side sees. It is down when nothing more comes from this side. -/
def view (who : Bool) : History → σ → Network
  | [], _ => .down
  | (w, q) :: hist, x =>
    if w = who then .up (h.answer x) fun q' => view who hist (h.next x q')
    else view who hist (h.next x q)

def ids (x : σ) : List Int :=
  (h.comments x).map Comment.id

/-- Whether no comment has a number, now or later. -/
def IsGone (id : Int) : History → σ → Prop
  | [], x => id ∉ h.ids x
  | (_, q) :: hist, x => id ∉ h.ids x ∧ IsGone id hist (h.next x q)

/-- Whether the forge accepts a request, and all that it says about the budget can be read. -/
structure Grants (x : σ) (q : Request) (r : Reply) : Prop where
  reply : (h.answer x q).outcome = .reply r
  ok : r.isOk = true
  budget : r.HasBudget

/-- Whether the forge lists, deletes and adds comments on a pull request as it is asked to, however much
of the budget it leaves. -/
structure GrantsIn (c : Client) (r : Repository) (pull : Value) (x : σ) : Prop where
  unique : (h.ids x).Nodup
  lists : ∀ page size, 0 < page → 0 < size → size ≤ 100 →
    ∃ reply items, h.Grants x (c.listing r pull page size) reply ∧ reply.json = .ok (.list items) ∧
      List.Forall₂ Comment.IsShownBy (((h.comments x).drop ((page - 1) * size)).take size) items ∧
      h.comments (h.next x (c.listing r pull page size)) = h.comments x
  deletes : ∀ comment ∈ h.comments x,
    ∃ reply, h.Grants x (c.deletion r comment.id) reply ∧
      h.comments (h.next x (c.deletion r comment.id)) =
        (h.comments x).filter fun other => other.id ≠ comment.id
  adds : ∀ body,
    ∃ reply v id, h.Grants x (c.addition r pull body) reply ∧ reply.json = .ok v ∧
      h.comments (h.next x (c.addition r pull body)) = h.comments x ++ [⟨id, some body⟩]

/-- Whether the forge does not know comments that it does not hold. -/
def Misses (c : Client) (r : Repository) (x : σ) : Prop :=
  ∀ id, id ∉ h.ids x → ∃ reply : Reply, (h.answer x (c.deletion r id)).outcome = .reply reply ∧
    reply.status = 404 ∧ h.comments (h.next x (c.deletion r id)) = h.comments x

/-- Whether the forge does what either side asks it to do, knows no comments that it does not hold, and
gives no number to a comment that another one had. -/
def Shares (c : Bool → Client) (r : Bool → Repository) (pull : Value) : History → σ → Prop
  | [], _ => True
  | (who, q) :: hist, x =>
    h.GrantsIn (c who) (r who) pull x ∧ h.Misses (c who) (r who) x ∧
      (∀ id ∈ h.ids x, id ∉ h.ids (h.next x q) → h.IsGone id hist (h.next x q)) ∧
      Shares c r pull hist (h.next x q)

variable {h} {who w : Bool} {c : Client} {r : Repository} {pull : Value} {hist : History} {x : σ}
  {q : Request} {s t : Runner}

/-! ### What one side sees -/

/-- Whether a machine is connected with the forge. -/
def Faces (h : Host σ) (who : Bool) (hist : History) (x : σ) (s : Runner) : Prop :=
  s.network = h.view who hist x

theorem Faces.of_wires (hs : h.Faces who hist x s) (hwires : s.SameWires t) : h.Faces who hist x t :=
  hwires.network.trans hs

/-- What comes from the other side happens unseen. -/
theorem Faces.other (hs : h.Faces who ((!who, q) :: hist) x s) : h.Faces who hist (h.next x q) s := by
  refine Eq.trans hs ?_
  rw [view, if_neg (by simp)]

theorem Faces.up (hs : h.Faces who ((who, q) :: hist) x s) :
    s.network = .up (h.answer x) fun q' => h.view who hist (h.next x q') := by
  rw [hs, view, if_pos rfl]

theorem Faces.after (hs : h.Faces who ((who, q) :: hist) x s) (hsent : s.Sends [q] t) :
    h.Faces who hist (h.next x q) t := by
  show t.network = _
  rw [hsent.network, hs.up]
  rfl

theorem Grants.legible {reply : Reply} (hq : h.Grants x q reply) : (h.answer x q).outcome.IsLegible := by
  rw [hq.reply]
  exact ⟨hq.budget, Or.inl hq.ok⟩

theorem Grants.accepted {reply : Reply} (hq : h.Grants x q reply) :
    (h.answer x q).outcome.accepted? = some reply := by
  rw [hq.reply]
  exact if_pos hq.ok

theorem Faces.answer (hs : h.Faces who ((who, q) :: hist) x s) : s.network.answer q = h.answer x q := by
  rw [hs.up]
  rfl

/-- A request that the forge accepts gets its reply, unless the client holds it back. -/
theorem Faces.send (hs : h.Faces who ((who, q) :: hist) x s) (hopen : s.budget.isLow s.now = false)
    {reply : Reply} (hgrants : h.Grants x q reply) :
    ∃ t, send q s = (.ok reply, t) ∧ t.requests = s.requests ++ [q] ∧ h.Faces who hist (h.next x q) t := by
  rcases hsend : Forge.send q s with ⟨result, t⟩
  rcases send_of_accepted hsend (hs.answer ▸ hgrants.accepted) (hs.answer ▸ hgrants.legible) with
    ⟨hlow, -⟩ | ⟨hsent, rfl⟩
  · rw [hopen] at hlow
    cases hlow
  · exact ⟨t, rfl, hsent.requests, hs.after hsent⟩

theorem Faces.ask (hs : h.Faces who ((who, q) :: hist) x s) (hopen : s.budget.isLow s.now = false)
    {reply : Reply} {v : Value} (hgrants : h.Grants x q reply) (hjson : reply.json = .ok v) :
    ∃ t, ask q s = (.ok v, t) ∧ t.requests = s.requests ++ [q] ∧ h.Faces who hist (h.next x q) t := by
  obtain ⟨t, hsend, hrequests, ht⟩ := hs.send hopen hgrants
  refine ⟨t, ?_, hrequests, ht⟩
  rw [Forge.ask, Action.bind_run_ok hsend, Job.ofExcept_run, hjson]

/-- A request for something that the forge does not know fails. -/
theorem Faces.miss (hs : h.Faces who ((who, q) :: hist) x s) (hopen : s.budget.isLow s.now = false)
    {reply : Reply} (hanswer : (h.answer x q).outcome = .reply reply) (hstatus : reply.status = 404) :
    ∃ e t, Forge.send q s = (.error e, t) ∧ t.requests = s.requests ++ [q] := by
  have hrefused : (s.network.answer q).outcome.accepted? = none := by
    rw [hs.answer]
    simp [hanswer, Outcome.accepted?, reply.not_isOk (by omega) (by omega)]
  rcases hsend : Forge.send q s with ⟨result, t⟩
  obtain ⟨e, rfl, ⟨hlow, -⟩ | hsent⟩ := send_of_unaccepted hsend hrefused
  · rw [hopen] at hlow
    cases hlow
  · exact ⟨e, t, rfl, hsent.requests⟩

/-- A page holds the comments of a slice. -/
theorem Faces.readPage {page : Nat}
    (hs : h.Faces who ((who, c.listing r pull (page + 1) 100) :: hist) x s)
    (hopen : s.budget.isLow s.now = false) (hgrants : h.GrantsIn c r pull x) :
    ∃ items t, readPage (c.pageRequest r pull (page + 1)) s = (.ok items, t) ∧
      List.Forall₂ Comment.IsShownBy (((h.comments x).drop (page * 100)).take 100) items ∧
      t.requests = s.requests ++ [c.listing r pull (page + 1) 100] ∧
      h.Faces who hist (h.next x (c.listing r pull (page + 1) 100)) t := by
  obtain ⟨reply, items, hpage, hjson, hitems, -⟩ :=
    hgrants.lists (page + 1) 100 (by omega) (by omega) (by omega)
  obtain ⟨t, hask, hrequests, ht⟩ := hs.ask hopen hpage hjson
  refine ⟨items, t, ?_, hitems, hrequests, ht⟩
  rw [Client.pageRequest_eq, Forge.readPage, Action.bind_run_ok hask, Job.use_run, itemsOfPage_list]
  rfl

end Host

/-! ### A forge in memory -/

/-- A forge in memory that does not know comments that it does not hold, and says something about the
budget when it is asked to delete one. -/
def Host.strict (c : Client) (r : Repository) (said : List (String × String)) : Host Shelf where
  comments := Shelf.comments
  answer x q :=
    if q.method = "DELETE" then
      let status := if ∃ comment ∈ x.comments, (c.deletion r comment.id).url = q.url then 204 else 404
      ⟨.reply (.of status said ""), 0⟩
    else (Host.memory c r).answer x q
  next := Shelf.next c r

namespace Shelf

variable {c : Client} {r : Repository} {said : List (String × String)} {pull : Value} {n : Nat}
  {x : Shelf} {q : Request} {hist : History}

theorem strict_grants {reply : Reply} (haccepts : (Host.memory c r).Accepts x q reply)
    (hq : q.method ≠ "DELETE") : (Host.strict c r said).Grants x q reply := by
  have hanswer : (Host.strict c r said).answer x q = (Host.memory c r).answer x q := if_neg hq
  exact ⟨hanswer ▸ haccepts.reply, haccepts.ok, haccepts.budget⟩

theorem IsSound.strict_grantsIn (hx : x.IsSound n) (hsaid : ∀ status, (Reply.of status said "").HasBudget) :
    (Host.strict c r said).GrantsIn c r pull x := by
  have hmemory : (Host.memory c r).ServesIn c r pull x := hx.servesIn
  refine ⟨hmemory.unique, fun page size hpage hsize hmost => ?_, fun comment hheld => ?_, fun body => ?_⟩
  · obtain ⟨reply, items, haccepts, hrest⟩ := hmemory.lists page size hpage hsize hmost
    exact ⟨reply, items, strict_grants haccepts (by simp), hrest⟩
  · obtain ⟨-, -, hleft⟩ := hmemory.deletes comment hheld
    have hstatus : (if ∃ other ∈ x.comments, (c.deletion r other.id).url = (c.deletion r comment.id).url
        then 204 else 404 : Int) = 204 := if_pos ⟨comment, hheld, rfl⟩
    refine ⟨.of 204 said "", ⟨?_, rfl, hsaid 204⟩, hleft⟩
    show Outcome.reply (.of (if _ then 204 else 404) said "") = _
    rw [hstatus]
  · obtain ⟨reply, v, id, haccepts, hjson, -, hadded⟩ := hmemory.adds body
    exact ⟨reply, v, id, strict_grants haccepts (by simp), hjson, hadded⟩

theorem strict_misses (x : Shelf) : (Host.strict c r said).Misses c r x := by
  intro id hid
  have hothers : ∀ comment ∈ x.comments, (c.deletion r comment.id).url ≠ (c.deletion r id).url := by
    intro comment hheld hurl
    exact hid (deletion_url_inj.mp hurl ▸ List.mem_map_of_mem hheld)
  have hstatus : (if ∃ comment ∈ x.comments, (c.deletion r comment.id).url = (c.deletion r id).url
      then 204 else 404 : Int) = 404 := if_neg fun ⟨comment, hheld, hurl⟩ => hothers comment hheld hurl
  refine ⟨.of 404 said "", ?_, rfl, ?_⟩
  · show Outcome.reply (.of (if _ then 204 else 404) said "") = _
    rw [hstatus]
  · show (x.comments.filter fun comment => (c.deletion r comment.id).url ≠ (c.deletion r id).url) = _
    exact List.filter_eq_self.mpr fun comment hheld => by simpa using hothers comment hheld

theorem fresh_le_next (x : Shelf) (q : Request) : x.fresh ≤ (Shelf.next c r x q).fresh := by
  unfold Shelf.next
  split_ifs
  · exact Int.le_refl _
  · exact Int.le_add_one (Int.le_refl _)
  · exact Int.le_refl _
  · exact Int.le_refl _

/-- New comments get numbers that no comment has had before. -/
theorem strict_isGone {id : Int} (hid : id < x.fresh) (hnot : id ∉ x.comments.map Comment.id) :
    (Host.strict c r said).IsGone id hist x := by
  induction hist generalizing x with
  | nil => exact hnot
  | cons e hist ih =>
    obtain ⟨w, q⟩ := e
    refine ⟨hnot, ?_⟩
    show (Host.strict c r said).IsGone id hist (Shelf.next c r x q)
    unfold Shelf.next
    split_ifs
    · exact ih hid hnot
    · refine ih (by dsimp only; omega) ?_
      rw [List.map_append, List.mem_append, not_or]
      refine ⟨hnot, ?_⟩
      simpa using Int.ne_of_lt hid
    · refine ih hid ?_
      rw [map_id_map fun d => by split_ifs <;> rfl]
      exact hnot
    · refine ih hid fun hmem => hnot ?_
      exact (List.filter_sublist.map Comment.id).subset hmem

/-- The forge in memory can be asked from two sides. -/
theorem IsSound.shares (hx : x.IsSound hist.length) (hsaid : ∀ status, (Reply.of status said "").HasBudget) :
    (Host.strict c r said).Shares (fun _ => c) (fun _ => r) pull hist x := by
  induction hist generalizing x with
  | nil => trivial
  | cons e hist ih =>
    obtain ⟨w, q⟩ := e
    have hnext : (Shelf.next c r x q).IsSound hist.length := hx.next q
    refine ⟨hx.strict_grantsIn hsaid, strict_misses x, fun id hid hnot => ?_, ih hnext⟩
    obtain ⟨d, hd, rfl⟩ := List.mem_map.mp hid
    have hbelow := hx.below d hd
    refine strict_isGone ?_ hnot
    exact Int.lt_of_lt_of_le hbelow.2 (fresh_le_next x q)

end Shelf

end ReviewGate.Forge

import Mathlib.Data.List.Forall2
import ReviewGate.Proofs.Forge.Listing

/-! A forge that holds the comments on a pull request and does with them what it is asked to do: it lists
them page by page, deletes them, changes their texts and adds new ones. The network has finitely many
answers, so it is told for how many requests the forge does this. -/
namespace ReviewGate.Forge

/-- A comment with its number, and its text if it has one. -/
structure Comment where
  id : Int
  body : Option String
  deriving DecidableEq

namespace Comment

/-- Whether a value shows a comment, whatever else it holds. -/
structure IsShownBy (c : Comment) (v : Value) : Prop where
  id : v.field "id" = .ok (.int c.id)
  body : v.get "body" = .ok (.ofOption .str c.body)

/-- A comment that has another text if it has the given number. -/
def edit (id : Int) (body : String) (c : Comment) : Comment :=
  if c.id = id then { c with body := some body } else c

end Comment

/-! ### Requests about comments -/

namespace Client

variable (c : Client) (r : Repository) (issue : Value)

def address : String :=
  c.baseUrl ++ "/repos/" ++ r.owner ++ "/" ++ r.name

/-- The request for a page of the comments on an issue, with so many of them on a page. -/
def listing (page size : Nat) : Request where
  method := "GET"
  url := c.address r ++ "/issues/" ++ issue.text ++ "/comments"
  timeout := c.timeout
  params := some (.record [("page", .int page), ("per_page", .int size)])
  json := none

def addition (body : String) : Request where
  method := "POST"
  url := c.address r ++ "/issues/" ++ issue.text ++ "/comments"
  timeout := c.timeout
  params := none
  json := some (.record [("body", .str body)])

def change (id : Int) (body : String) : Request where
  method := "PATCH"
  url := c.address r ++ "/issues/comments/" ++ Number.intText id
  timeout := c.timeout
  params := none
  json := some (.record [("body", .str body)])

def deletion (id : Int) : Request where
  method := "DELETE"
  url := c.address r ++ "/issues/comments/" ++ Number.intText id
  timeout := c.timeout
  params := none
  json := none

@[simp] theorem listing_method (page size : Nat) : (c.listing r issue page size).method = "GET" := rfl

@[simp] theorem addition_method (body : String) : (c.addition r issue body).method = "POST" := rfl

@[simp] theorem deletion_method (id : Int) : (c.deletion r id).method = "DELETE" := rfl

theorem requestFor_eq (method : String) (e : Endpoint) :
    c.requestFor r method e = ⟨method, c.address r ++ e.path, c.timeout, none, none⟩ := by
  have hurl : (c.requestFor r method e).url = c.address r ++ e.path := by
    rw [c.requestFor_url, Repository.path, address]
    simp only [String.append_assoc]
  rw [← hurl]
  rfl

theorem comments_way :
    c.address r ++ (Endpoint.comments issue).path =
      c.address r ++ "/issues/" ++ issue.text ++ "/comments" := by
  unfold Endpoint.path
  rw [← String.append_assoc, ← String.append_assoc]

theorem comment_way (id : Int) :
    c.address r ++ (Endpoint.comment (.int id)).path =
      c.address r ++ "/issues/comments/" ++ Number.intText id :=
  (String.append_assoc ..).symm

theorem pageRequest_eq (page : Nat) : c.pageRequest r issue page = c.listing r issue page 100 := by
  unfold pageRequest listing
  rw [requestFor_eq, comments_way]
  rfl

theorem addition_eq (body : String) :
    { c.requestFor r "POST" (.comments issue) with json := some (commentContent body) } =
      c.addition r issue body := by
  unfold addition
  rw [requestFor_eq, comments_way]
  rfl

theorem change_eq (id : Int) (body : String) :
    { c.requestFor r "PATCH" (.comment (.int id)) with json := some (commentContent body) } =
      c.change r id body := by
  unfold change
  rw [requestFor_eq, comment_way]
  rfl

theorem deletion_eq (id : Int) : c.requestFor r "DELETE" (.comment (.int id)) = c.deletion r id := by
  unfold deletion
  rw [requestFor_eq, comment_way]

end Client

/-! ### The forge -/

/-- A forge: the comments that it holds in each of its states, how it answers requests, and the state
that it is in after them. -/
structure Host (σ : Type) where
  comments : σ → List Comment
  answer : σ → Request → Answer
  next : σ → Request → σ

namespace Host

variable {σ : Type} (h : Host σ)

/-- The network on which the forge answers so many requests. -/
def network : Nat → σ → Network
  | 0, _ => .down
  | n + 1, x => .up (h.answer x) fun q => network n (h.next x q)

def after (x : σ) (qs : List Request) : σ :=
  qs.foldl h.next x

/-- Whether the forge accepts a request with a reply that leaves the client requests to send. -/
structure Accepts (x : σ) (q : Request) (r : Reply) : Prop where
  reply : (h.answer x q).outcome = .reply r
  ok : r.isOk = true
  budget : r.HasBudget
  plenty : ∀ n, headerNumber r remainingHeader = .ok (some n) → Budget.reserve < n

/-- Whether the forge does in a state what it is asked to do with the comments on a pull request. Pages
hold up to 100 of them. -/
structure ServesIn (c : Client) (r : Repository) (pull : Value) (x : σ) : Prop where
  unique : ((h.comments x).map Comment.id).Nodup
  lists : ∀ page size, 0 < page → 0 < size → size ≤ 100 →
    ∃ reply items, h.Accepts x (c.listing r pull page size) reply ∧ reply.json = .ok (.list items) ∧
      List.Forall₂ Comment.IsShownBy (((h.comments x).drop ((page - 1) * size)).take size) items ∧
      h.comments (h.next x (c.listing r pull page size)) = h.comments x
  deletes : ∀ comment ∈ h.comments x,
    ∃ reply, h.Accepts x (c.deletion r comment.id) reply ∧
      h.comments (h.next x (c.deletion r comment.id)) =
        (h.comments x).filter fun other => other.id ≠ comment.id
  changes : ∀ comment ∈ h.comments x, ∀ body,
    ∃ reply v, h.Accepts x (c.change r comment.id body) reply ∧ reply.json = .ok v ∧
      h.comments (h.next x (c.change r comment.id body)) =
        (h.comments x).map (Comment.edit comment.id body)
  adds : ∀ body,
    ∃ reply v id, h.Accepts x (c.addition r pull body) reply ∧ reply.json = .ok v ∧
      id ∉ (h.comments x).map Comment.id ∧
      h.comments (h.next x (c.addition r pull body)) = h.comments x ++ [⟨id, some body⟩]

/-- Whether the forge does so for the next requests, whatever they are. -/
def Serves (c : Client) (r : Repository) (pull : Value) : Nat → σ → Prop
  | 0, _ => True
  | n + 1, x => h.ServesIn c r pull x ∧ ∀ q, Serves c r pull n (h.next x q)

/-- Whether the comments that the forge holds have a property all along a run of requests. -/
def Always (P : List Comment → Prop) (x : σ) (qs : List Request) : Prop :=
  ∀ sent, sent <+: qs → P (h.comments (h.after x sent))

variable {h} {c : Client} {r : Repository} {pull : Value} {x : σ} {P : List Comment → Prop}
  {q : Request} {qs qs' : List Request}

theorem after_append : h.after x (qs ++ qs') = h.after (h.after x qs) qs' :=
  List.foldl_append

theorem Always.nil (hx : P (h.comments x)) : h.Always P x [] := by
  intro sent hsent
  rw [List.prefix_nil.mp hsent]
  exact hx

theorem Always.cons (hx : P (h.comments x)) (hmore : h.Always P (h.next x q) qs) :
    h.Always P x (q :: qs) := by
  intro sent hsent
  rcases List.prefix_cons_iff.mp hsent with rfl | ⟨more, rfl, hprefix⟩
  · exact hx
  · exact hmore more hprefix

theorem Always.append (hfirst : h.Always P x qs) (hmore : h.Always P (h.after x qs) qs') :
    h.Always P x (qs ++ qs') := by
  induction qs generalizing x with
  | nil => exact hmore
  | cons q qs ih =>
    have hx := hfirst [] List.nil_prefix
    have hrest : h.Always P (h.next x q) qs := by
      intro sent hsent
      exact hfirst (q :: sent) (List.prefix_cons_inj q |>.mpr hsent)
    exact .cons hx (ih hrest hmore)

theorem Always.last (hall : h.Always P x qs) : P (h.comments (h.after x qs)) :=
  hall qs List.prefix_rfl

theorem Always.concat (hall : h.Always P x qs) (hlast : P (h.comments (h.next (h.after x qs) q))) :
    h.Always P x (qs ++ [q]) :=
  hall.append (.cons hall.last (.nil hlast))

theorem Always.mono {Q : List Comment → Prop} (hall : h.Always P x qs) (hPQ : ∀ cs, P cs → Q cs) :
    h.Always Q x qs :=
  fun sent hsent => hPQ _ (hall sent hsent)

end Host

end ReviewGate.Forge

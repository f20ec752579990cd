import ReviewGate.Proofs.Posting.Content

/-! Where the requests of a posting go: to endpoints of one repository, and with reviews only as they are
meant to be. -/
namespace ReviewGate

/-- A text is cut at a character that stands in it. -/
theorem Text.cut_eq_some {separator : Char} {cs before after : List Char}
    (h : cut? separator cs = some (before, after)) : before ++ separator :: after = cs := by
  induction cs generalizing before with
  | nil => cases h
  | cons c cs ih =>
    rw [cut?] at h
    split_ifs at h with hc
    · cases h
      rw [hc]
      rfl
    · obtain ⟨⟨start, rest⟩, hcut, heq⟩ := Option.map_eq_some_iff.mp h
      cases heq
      rw [List.cons_append, ih hcut]

namespace Forge

/-- A text that is taken for a repository is the way to it. -/
theorem Repository.ofValue_eq_ok {v : Value} {r : Repository} (h : ofValue v = .ok r) :
    ∃ text, v = .str text ∧ r.path = "/repos/" ++ text := by
  unfold ofValue at h
  rcases hslash : Value.isIn (.str "/") v with m | _ | _
  · simp [hslash] at h
  · simp [hslash] at h
  · cases v with
    | str text =>
      simp only [hslash] at h
      rcases hcut : Text.cut? '/' text.toList with _ | ⟨owner, name⟩
      · simp [hcut] at h
      · simp only [hcut, Except.ok.injEq] at h
        subst h
        refine ⟨text, rfl, String.toList_injective ?_⟩
        simp [Repository.path, String.toList_append, Text.cut_eq_some hcut]
    | _ => simp [hslash] at h

/-- Whether a posting may send a request with a method about an endpoint, where it is about a workflow
run and about pull requests with certain numbers only. -/
inductive Endpoint.IsOpen (run : Option Int) (IsTarget : Value → Prop) : String → Endpoint → Prop
  | run (id : Int) (own : run = some id) : IsOpen run IsTarget "GET" (.run (.int id))
  | pulls : IsOpen run IsTarget "GET" .pulls
  | listing (pull : Value) (target : IsTarget pull) : IsOpen run IsTarget "GET" (.comments pull)
  | addition (pull : Value) (target : IsTarget pull) : IsOpen run IsTarget "POST" (.comments pull)
  | deletion (id : Value) : IsOpen run IsTarget "DELETE" (.comment id)
  | change (id : Value) : IsOpen run IsTarget "PATCH" (.comment id)
  | review (pull : Value) (target : IsTarget pull) : IsOpen run IsTarget "POST" (.reviews pull)
  | issue : IsOpen run IsTarget "POST" .issues

/-- Whether a value is a comment on the new side of a line, with a path and a text that are not blank. -/
def IsLineComment (v : Value) : Prop :=
  ∃ path line body, v = .record
      [("path", .str path), ("line", .int line), ("side", .str "RIGHT"), ("body", .str body)] ∧
    1 ≤ line ∧ Text.isBlankText path = false ∧ Text.isBlankText body = false

/-- Whether a value is a review that approves or requests changes, with comments on lines. -/
def IsProperReview (v : Value) : Prop :=
  ∃ event body comments, v = reviewContent event body comments ∧
    (event = "APPROVE" ∨ event = "REQUEST_CHANGES") ∧ ∀ c ∈ comments, IsLineComment c

/-- Whether a request goes to an endpoint below an address and carries a proper review if it posts
one. -/
structure Request.InScope (address : String) (run : Option Int) (IsTarget : Value → Prop)
    (q : Request) : Prop where
  endpoint : ∃ e, Endpoint.IsOpen run IsTarget q.method e ∧ q.url = address ++ e.path
  review : q.IsReview → ∃ v, q.json = some v ∧ IsProperReview v

end Forge

theorem LineComment.isLineComment_posted (c : LineComment) : Forge.IsLineComment c.posted :=
  ⟨c.path, c.line, c.body, rfl, Int.ofNat_le.mpr c.line_pos, c.path_given, c.body_given⟩

theorem Verdict.name_cases (v : Verdict) : v.name = "APPROVE" ∨ v.name = "REQUEST_CHANGES" := by
  cases v
  · exact Or.inl rfl
  · exact Or.inr rfl

namespace Poster

open Forge

variable {p : Poster} {stored : StoredReview} {verdict : Verdict} {run : Option Int}
  {details : Option String} {IsTarget : Value → Prop} {q : Request}

theorem isProperReview_reviewOf : IsProperReview (reviewOf stored verdict) := by
  refine ⟨_, _, _, rfl, verdict.name_cases, fun c hc => ?_⟩
  obtain ⟨comment, -, rfl⟩ := List.mem_map.mp hc
  exact comment.isLineComment_posted

/-- The address of the requests that a poster sends. -/
def address (p : Poster) : String :=
  p.client.baseUrl ++ p.repository.path

theorem Needs.isOpen (h : p.Needs stored verdict run details IsTarget q) :
    ∃ e, Endpoint.IsOpen run IsTarget q.method e ∧ q.url = p.address ++ e.path := by
  cases h with
  | lookup hq =>
    obtain ⟨id, hid, hq⟩ := hq
    cases hq with
    | run => exact ⟨_, .run id hid, Client.requestFor_url ..⟩
    | pulls params => exact ⟨_, .pulls, p.client.requestFor_url p.repository "GET" .pulls⟩
  | summary pull htarget hq =>
    cases hq with
    | page n => exact ⟨_, .listing pull htarget, p.client.requestFor_url p.repository "GET" _⟩
    | deletion id => exact ⟨_, .deletion id, Client.requestFor_url ..⟩
    | change id => exact ⟨_, .change id, p.client.requestFor_url p.repository "PATCH" _⟩
    | addition => exact ⟨_, .addition pull htarget, p.client.requestFor_url p.repository "POST" _⟩
  | review pull htarget =>
    exact ⟨_, .review pull htarget, p.client.requestFor_url p.repository "POST" _⟩
  | issue => exact ⟨_, .issue, p.client.requestFor_url p.repository "POST" _⟩

/-- Every request of a posting stays in its repository. -/
theorem Needs.inScope (h : p.Needs stored verdict run details IsTarget q) :
    q.InScope p.address run IsTarget where
  endpoint := h.isOpen
  review hreview := ⟨_, h.carries.review hreview, isProperReview_reviewOf⟩

end Poster

end ReviewGate

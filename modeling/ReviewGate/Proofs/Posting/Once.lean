import ReviewGate.Proofs.Posting.Scope

/-! A review is posted at most once, and what a posting says of itself is what has been sent. -/
namespace ReviewGate

open Forge

namespace Forge

instance : DecidablePred Request.IsReview :=
  fun q => inferInstanceAs (Decidable (q.method = "POST" ∧ "/reviews".toList <:+ q.url.toList))

/-- Whether a request opens an issue. -/
def Request.IsOpening (q : Request) : Prop :=
  q.method = "POST" ∧ "/issues".toList <:+ q.url.toList

instance : DecidablePred Request.IsOpening :=
  fun q => inferInstanceAs (Decidable (q.method = "POST" ∧ "/issues".toList <:+ q.url.toList))

/-- How many of some requests are for a review. -/
def reviews (qs : List Request) : Nat :=
  qs.countP fun q => decide q.IsReview

/-- How many of some requests open an issue. -/
def openings (qs : List Request) : Nat :=
  qs.countP fun q => decide q.IsOpening

theorem reviews_append (qs more : List Request) : reviews (qs ++ more) = reviews qs + reviews more :=
  List.countP_append

theorem openings_append (qs more : List Request) : openings (qs ++ more) = openings qs + openings more :=
  List.countP_append

theorem reviews_eq_zero {qs : List Request} : reviews qs = 0 ↔ ∀ q ∈ qs, ¬ q.IsReview := by
  simp [reviews, List.countP_eq_zero]

/-- If all but the last of some requests are not for a review, at most one of them is. -/
theorem reviews_le_one {qs : List Request} (h : reviews qs.dropLast = 0) : reviews qs ≤ 1 := by
  rcases List.eq_nil_or_concat qs with rfl | ⟨before, q, rfl⟩
  · exact Nat.zero_le 1
  · rw [List.concat_eq_append] at h ⊢
    rw [List.dropLast_concat] at h
    rw [reviews_append, h, Nat.zero_add]
    exact List.countP_le_length

theorem reviews_dropLast {qs : List Request} (h : reviews qs = 0) : reviews qs.dropLast = 0 :=
  reviews_eq_zero.mpr fun q hq => reviews_eq_zero.mp h q (List.dropLast_subset qs hq)

theorem openings_eq_zero {qs : List Request} : openings qs = 0 ↔ ∀ q ∈ qs, ¬ q.IsOpening := by
  simp [openings, List.countP_eq_zero]

/-- Whether the last of some requests is for a review, and is done. -/
def EndsWithReview (said : List (Request × Outcome)) : Prop :=
  ∃ before q o, said = before ++ [(q, o)] ∧ q.IsReview ∧ o.IsTaken

theorem endsWithReview_concat {said : List (Request × Outcome)} {q : Request} {o : Outcome} :
    EndsWithReview (said ++ [(q, o)]) ↔ q.IsReview ∧ o.IsTaken := by
  refine ⟨?_, fun h => ⟨said, q, o, rfl, h⟩⟩
  rintro ⟨before, q', o', heq, hreview, htaken⟩
  obtain ⟨-, hlast⟩ := List.append_inj' heq rfl
  cases hlast
  exact ⟨hreview, htaken⟩

theorem Network.map_fst_exchange (net : Network) (qs : List Request) :
    (net.exchange qs).map Prod.fst = qs := by
  induction qs generalizing net with
  | nil => rfl
  | cons q qs ih => simp [Network.exchange, ih]

theorem Network.fst_mem_of_mem_exchange {net : Network} {qs : List Request} {x : Request × Outcome}
    (hx : x ∈ net.exchange qs) : x.1 ∈ qs := by
  have hmem : x.1 ∈ (net.exchange qs).map Prod.fst := List.mem_map_of_mem hx
  rwa [map_fst_exchange] at hmem

theorem not_endsWithReview {net : Network} {qs : List Request} (h : reviews qs = 0) :
    ¬ EndsWithReview (net.exchange qs) := by
  rintro ⟨before, q, o, heq, hreview, -⟩
  have hmem : q ∈ qs := by
    rw [← net.map_fst_exchange qs, heq]
    simp
  exact reviews_eq_zero.mp h q hmem hreview

theorem Outcome.accepted_eq_some {o : Outcome} {r : Reply} (h : o.accepted? = some r) :
    o = .reply r ∧ r.IsSuccess := by
  cases o with
  | broken d => cases h
  | reply r' =>
    simp only [Outcome.accepted?] at h
    split_ifs at h with hok
    obtain rfl := Option.some.inj h
    exact ⟨rfl, Reply.isSuccess_iff.mpr hok⟩

end Forge

namespace Poster

variable {p : Poster} {stored : StoredReview} {verdict : Verdict} {pull : Value} {run given : Option Int}
  {details : Option String} {s t : Runner} {result : Except Fault Posting} {q : Request}

/-- Whether a request is about the comments on an issue or about one comment. -/
def IsAboutComments (p : Poster) (q : Request) : Prop :=
  ∃ v, q.url = p.address ++ (Endpoint.comments v).path ∨ q.url = p.address ++ (Endpoint.comment v).path

theorem LooksUp.method (h : p.LooksUp run q) : q.method = "GET" := by
  obtain ⟨id, -, hq⟩ := h
  cases hq <;> rfl

theorem LooksUp.not_isReview (h : p.LooksUp run q) : ¬ q.IsReview := by
  intro hq
  exact absurd (h.method.symm.trans hq.1) (by decide)

theorem LooksUp.not_isOpening (h : p.LooksUp run q) : ¬ q.IsOpening := by
  intro hq
  exact absurd (h.method.symm.trans hq.1) (by decide)

theorem Summarizes.not_isReview {body : String} (h : p.Summarizes pull body q) : ¬ q.IsReview := by
  cases h with
  | page n => exact fun hq => absurd hq.1 (by simp [Client.pageRequest])
  | deletion id => exact fun hq => absurd hq.1 (by simp)
  | change id => exact fun hq => absurd hq.1 (by simp)
  | addition => exact Request.not_isReview_comment

/-- The way to comments goes on from the issues. -/
theorem IsAboutComments.way {way : String} (h : p.IsAboutComments q) (hurl : q.url = p.address ++ way) :
    "/issues/".toList <+: way.toList := by
  have hcancel : ∀ {other : String}, q.url = p.address ++ other → way.toList = other.toList := by
    intro other hother
    have hlist := congrArg String.toList (hurl.symm.trans hother)
    rwa [String.toList_append, String.toList_append, List.append_cancel_left_eq] at hlist
  have hcomment : "/issues/".toList <+: "/issues/comments/".toList := by decide
  obtain ⟨v, hcomments | hone⟩ := h
  · have hpath : (Endpoint.comments v).path = "/issues/" ++ v.text ++ "/comments" := rfl
    rw [hcancel hcomments, hpath, String.append_assoc, String.toList_append]
    exact List.prefix_append _ _
  · have hpath : (Endpoint.comment v).path = "/issues/comments/" ++ v.text := rfl
    rw [hcancel hone, hpath, String.toList_append]
    exact hcomment.trans (List.prefix_append _ _)

theorem LooksUp.not_isAboutComments (h : p.LooksUp run q) : ¬ p.IsAboutComments q := by
  intro habout
  obtain ⟨id, -, hq⟩ := h
  cases hq with
  | run =>
    have hway : "/issues/".toList <+: ("/actions/runs/" ++ (Value.int id).text).toList :=
      habout.way (Client.requestFor_url ..)
    simp [String.toList_append] at hway
  | pulls params =>
    have hway : "/issues/".toList <+: "/pulls".toList :=
      habout.way (p.client.requestFor_url p.repository "GET" .pulls)
    exact absurd hway (by decide)

theorem issueRequest_isOpening : (p.issueRequest run details).IsOpening := by
  refine ⟨rfl, ?_⟩
  show "/issues".toList <:+ (p.client.requestFor p.repository "POST" .issues).url.toList
  exact Client.ends_of_path "" rfl

theorem issueRequest_not_isAboutComments : ¬ p.IsAboutComments (p.issueRequest run details) := by
  intro habout
  have hway : "/issues/".toList <+: "/issues".toList :=
    habout.way (p.client.requestFor_url p.repository "POST" .issues)
  exact absurd hway (by decide)

/-- What the requests of a posting have to do with its result. -/
structure PostsOnce (p : Poster) (s : Runner) (result : Except Fault Posting) (sent : List Request) :
    Prop where
  once : reviews sent ≤ 1
  last : reviews sent.dropLast = 0
  done : (∃ posting, result = .ok posting ∧ posting.status = .posted) ↔
    EndsWithReview (s.network.exchange sent)
  posted : ∀ posting, result = .ok posting → posting.status = .posted →
    reviews sent = 1 ∧ ∃ before q r event body comments,
      s.network.exchange sent = before ++ [(q, .reply r)] ∧ q.IsReview ∧ r.IsSuccess ∧
      q.json = some (reviewContent event body comments) ∧ posting.comments = comments.length
  unresolved : ∀ posting, result = .ok posting → posting.status = .pullRequestNotFound →
    (∀ q ∈ sent, ¬ q.IsReview ∧ ¬ p.IsAboutComments q) ∧ openings sent ≤ 1 ∧
    ((posting.issue = .null ∧ ∀ x ∈ s.network.exchange sent, x.1.IsOpening → x.2.accepted? = none) ∨
      ∃ q r v, (q, .reply r) ∈ s.network.exchange sent ∧ q.IsOpening ∧ r.IsSuccess ∧
        r.json = .ok v ∧ v.get "number" = .ok posting.issue)

theorem PostsOnce.of_error {e : Fault} {sent : List Request} (hlast : reviews sent.dropLast = 0)
    (hends : ¬ EndsWithReview (s.network.exchange sent)) : p.PostsOnce s (.error e) sent where
  once := reviews_le_one hlast
  last := hlast
  done := iff_of_false (by simp) hends
  posted := by simp
  unresolved := by simp

theorem PostsOnce.of_unresolved {issue : Value} {sent : List Request}
    (hquiet : ∀ q ∈ sent, ¬ q.IsReview ∧ ¬ p.IsAboutComments q) (hone : openings sent ≤ 1)
    (hissue : (issue = .null ∧ ∀ x ∈ s.network.exchange sent, x.1.IsOpening → x.2.accepted? = none) ∨
      ∃ q r v, (q, .reply r) ∈ s.network.exchange sent ∧ q.IsOpening ∧ r.IsSuccess ∧
        r.json = .ok v ∧ v.get "number" = .ok issue) :
    p.PostsOnce s (.ok ⟨.pullRequestNotFound, .null, some verdict, 0, false, issue⟩) sent := by
  have hnone : reviews sent = 0 := reviews_eq_zero.mpr fun q hq => (hquiet q hq).1
  refine ⟨reviews_le_one (reviews_dropLast hnone), reviews_dropLast hnone, ?_, ?_, ?_⟩
  · refine iff_of_false ?_ (not_endsWithReview hnone)
    rintro ⟨posting, ⟨⟩, hstatus⟩
    cases hstatus
  · rintro posting ⟨⟩ hstatus
    cases hstatus
  · rintro posting ⟨⟩ -
    exact ⟨hquiet, hone, hissue⟩

theorem reviewRequest_isReview : (p.reviewRequest pull verdict stored).IsReview :=
  Request.isReview_review _

theorem reviews_lookup {asked : List Request} (h : ∀ q ∈ asked, p.LooksUp run q) : reviews asked = 0 :=
  reviews_eq_zero.mpr fun q hq => (h q hq).not_isReview

theorem SubmitEnds.postsOnce {asked : List Request} {u : Runner} (hasked : s.Sends asked u)
    (hlookup : reviews asked = 0) (h : p.SubmitEnds stored verdict pull u t result) :
    ∃ sent, s.Sends sent t ∧ p.PostsOnce s result sent := by
  have hbefore : ∀ {before : List Request}, (∀ q ∈ before, p.Summarizes pull (stored.message.getD "") q) →
      reviews (asked ++ before) = 0 := fun hall => by
    rw [reviews_append, hlookup, reviews_eq_zero.mpr fun q hq => (hall q hq).not_isReview]
  have hone : reviews [p.reviewRequest pull verdict stored] = 1 := by
    simp [reviews, reviewRequest_isReview]
  cases h with
  | posted before v hasSummary hsummary hall hreview htaken =>
    have hsent := hasked.trans hsummary
    have hsaid : s.network.exchange (asked ++ before ++ [p.reviewRequest pull verdict stored]) =
        s.network.exchange (asked ++ before) ++ [(p.reviewRequest pull verdict stored,
          (v.network.answer (p.reviewRequest pull verdict stored)).outcome)] := hsent.exchange _
    have hcount : reviews (asked ++ before ++ [p.reviewRequest pull verdict stored]) = 1 := by
      rw [reviews_append, hbefore hall, hone]
    refine ⟨_, hsent.trans hreview, Nat.le_of_eq hcount, ?_, ?_, ?_, ?_⟩
    · rw [List.dropLast_concat, hbefore hall]
    · rw [hsaid, endsWithReview_concat]
      exact iff_of_true ⟨_, rfl, rfl⟩ ⟨reviewRequest_isReview, htaken⟩
    · rintro posting ⟨⟩ -
      obtain ⟨-, r, -, hreply, -⟩ := htaken
      obtain ⟨hout, hok⟩ := Outcome.accepted_eq_some hreply
      exact ⟨hcount, _, _, r, _, _, _, hout ▸ hsaid, reviewRequest_isReview, hok, rfl,
        (List.length_map _).symm⟩
    · rintro posting ⟨⟩ hstatus
      cases hstatus
  | refused before v e hsummary hall hreview huntaken =>
    have hsent := hasked.trans hsummary
    refine ⟨_, hsent.trans hreview, .of_error ?_ ?_⟩
    · rw [List.dropLast_concat, hbefore hall]
    · rw [hsent.exchange]
      exact fun h => huntaken (endsWithReview_concat.mp h).2
  | unsent before e hsummary hall =>
    exact ⟨_, hasked.trans hsummary, .of_error (reviews_dropLast (hbefore hall))
      (not_endsWithReview (hbefore hall))⟩

theorem IssueEnds.postsOnce {asked : List Request} {u : Runner} {issue : Value}
    (hasked : s.Sends asked u) (hlookup : ∀ q ∈ asked, p.LooksUp run q)
    (h : IssueEnds (p.issueRequest run details) u t issue) :
    ∃ sent, s.Sends sent t ∧
      p.PostsOnce s (.ok ⟨.pullRequestNotFound, .null, some verdict, 0, false, issue⟩) sent := by
  have hquiet : ∀ q ∈ asked, ¬ q.IsReview ∧ ¬ p.IsAboutComments q := fun q hq =>
    ⟨(hlookup q hq).not_isReview, (hlookup q hq).not_isAboutComments⟩
  have hboth : ∀ q ∈ asked ++ [p.issueRequest run details],
      ¬ q.IsReview ∧ ¬ p.IsAboutComments q := by
    intro q hq
    rcases List.mem_append.mp hq with hq | hq
    · exact hquiet q hq
    · rw [List.mem_singleton.mp hq]
      exact ⟨Request.not_isReview_issue, issueRequest_not_isAboutComments⟩
  have hnone : openings asked = 0 := openings_eq_zero.mpr fun q hq => (hlookup q hq).not_isOpening
  have hone : openings (asked ++ [p.issueRequest run details]) = 1 := by
    rw [openings_append, hnone]
    simp [openings, issueRequest_isOpening]
  have hsaid := hasked.exchange [p.issueRequest run details]
  -- No look-up opens an issue, so that only the last request counts.
  have hunopened : ∀ x ∈ s.network.exchange asked, ¬ x.1.IsOpening := by
    intro x hx
    exact (hlookup x.1 (Network.fst_mem_of_mem_exchange hx)).not_isOpening
  cases h with
  | unsent hwires =>
    refine ⟨asked, hasked.before hwires, .of_unresolved hquiet (by rw [hnone]; exact Nat.zero_le 1) ?_⟩
    exact Or.inl ⟨rfl, fun x hx hopening => absurd hopening (hunopened x hx)⟩
  | refused hsent hreply =>
    refine ⟨_, hasked.trans hsent, .of_unresolved hboth (Nat.le_of_eq hone) (Or.inl ⟨rfl, ?_⟩)⟩
    intro x hx hopening
    rw [hsaid] at hx
    rcases List.mem_append.mp hx with hx | hx
    · exact absurd hopening (hunopened x hx)
    · obtain rfl := List.mem_singleton.mp hx
      exact hreply
  | opened _ r v hsent hreply hjson hnumber =>
    refine ⟨_, hasked.trans hsent, .of_unresolved hboth (Nat.le_of_eq hone) (Or.inr ?_)⟩
    obtain ⟨hout, hok⟩ := Outcome.accepted_eq_some hreply
    refine ⟨p.issueRequest run details, r, v, ?_, issueRequest_isOpening, hok, hjson, hnumber⟩
    rw [hsaid, ← hout]
    exact List.mem_append_right _ (List.mem_singleton.mpr rfl)

/-- Whatever the forge replies, a review is sent at most once, and a posting says that it has posted a
review, or that it has not found the pull request, only if this is so. -/
theorem post_once (h : p.post stored run given details s = (result, t)) :
    ∃ sent, s.Sends sent t ∧ p.PostsOnce s result sent := by
  rcases hverdict : Verdict.ofText? stored.reviewType with _ | verdict
  · obtain ⟨hwires, rfl⟩ := post_without_verdict hverdict h
    exact ⟨[], hwires.sends, .of_error rfl (not_endsWithReview rfl)⟩
  · cases post_ends hverdict h with
    | submitted asked u pull _ hasked hlookup hends =>
      exact hends.postsOnce hasked (reviews_lookup hlookup)
    | unresolved asked u issue hasked hlookup hends => exact hends.postsOnce hasked hlookup
    | stuck e hasks =>
      obtain ⟨sent, hsent, hall⟩ := hasks
      have hnone : reviews sent = 0 := by
        refine reviews_eq_zero.mpr fun q hq => ?_
        rcases hall q hq with hq | rfl
        · exact hq.not_isReview
        · exact Request.not_isReview_issue
      exact ⟨sent, hsent, .of_error (reviews_dropLast hnone) (not_endsWithReview hnone)⟩

end Poster

end ReviewGate

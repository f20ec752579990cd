import ReviewGate.Proofs.Forge.Memory
import ReviewGate.Proofs.Posting.Summary
import ReviewGate.Proofs.Posting.Once
import ReviewGate.Proofs.Reviewer.Posting
import ReviewGate.Proofs.Text.Search

/-! Whose comments are left alone. Only comments that have been listed and hold the marker are deleted or
changed, so the marker must be a text that is not empty: the empty one is in every comment. -/
namespace ReviewGate

open Forge

namespace Forge

/-- Whether a request deletes or changes something. -/
def Request.IsEdit (q : Request) : Prop :=
  q.method = "DELETE" ∨ q.method = "PATCH"

theorem Request.not_isEdit {q : Request} {method : String} (h : q.method = method)
    (hdelete : method ≠ "DELETE") (hpatch : method ≠ "PATCH") : ¬ q.IsEdit := by
  rintro (hq | hq)
  · exact hdelete (h.symm.trans hq)
  · exact hpatch (h.symm.trans hq)

theorem Request.not_isEdit_of_get {q : Request} (h : q.method = "GET") : ¬ q.IsEdit :=
  Request.not_isEdit h (by decide) (by decide)

theorem Request.not_isEdit_of_post {q : Request} (h : q.method = "POST") : ¬ q.IsEdit :=
  Request.not_isEdit h (by decide) (by decide)

/-- Whether a request is about a comment, which it names by its number. -/
def IsFor (address : String) (comment : Value) (q : Request) : Prop :=
  ∃ id, comment.field "id" = .ok id ∧ q.url = address ++ (Endpoint.comment id).path

/-- Whether a reply to a listing shows a comment. -/
def Shows (address : String) (said : List (Request × Outcome)) (comment : Value) : Prop :=
  ∃ x ∈ said, ∃ issue items, x.1.method = "GET" ∧
    x.1.url = address ++ (Endpoint.comments issue).path ∧
    x.2.accepted?.bind pageOf? = some items ∧ comment ∈ items

theorem Shows.mono {address : String} {said more : List (Request × Outcome)} {comment : Value}
    (h : Shows address said comment) (hsub : said ⊆ more) : Shows address more comment := by
  obtain ⟨x, hx, hshows⟩ := h
  exact ⟨x, hsub hx, hshows⟩

/-- What is listed stands on one of the pages. -/
theorem exists_page_of_listed {exchange : List (Request × Outcome)} {items : List Value}
    (h : listed exchange = some items) {comment : Value} (hcomment : comment ∈ items) :
    ∃ x ∈ exchange, ∃ items, x.2.accepted?.bind pageOf? = some items ∧ comment ∈ items := by
  induction exchange generalizing items with
  | nil => cases h
  | cons x exchange ih =>
    rw [listed] at h
    rcases hpage : x.2.accepted?.bind pageOf? with _ | page
    · rw [hpage] at h
      cases h
    · simp only [hpage] at h
      split_ifs at h
      · cases h
        exact ⟨x, List.mem_cons_self, items, hpage, hcomment⟩
      · obtain ⟨more, hmore, rfl⟩ := Option.map_eq_some_iff.mp h
        rcases List.mem_append.mp hcomment with hfirst | hrest
        · exact ⟨x, List.mem_cons_self, page, hpage, hfirst⟩
        · obtain ⟨y, hy, hfound⟩ := ih hmore hrest
          exact ⟨y, List.mem_cons_of_mem x hy, hfound⟩

end Forge

namespace Poster

variable {p : Poster} {s t : Runner}

theorem mem_summariesIn {marker comment : Value} {items olds : List Value}
    (h : summariesIn marker items = .ok olds) (hcomment : comment ∈ olds) :
    comment ∈ items ∧ hasMarker marker comment = .ok true := by
  induction items generalizing olds with
  | nil =>
    cases h
    cases hcomment
  | cons first more ih =>
    simp only [summariesIn, Action.except_bind_eq_ok] at h
    obtain ⟨isSummary, hfirst, rest, hrest, hdone⟩ := h
    cases hdone
    cases isSummary with
    | false =>
      obtain ⟨hmem, hmarker⟩ := ih hrest hcomment
      exact ⟨List.mem_cons_of_mem first hmem, hmarker⟩
    | true =>
      rcases List.mem_cons.mp hcomment with rfl | hcomment
      · exact ⟨List.mem_cons_self, hfirst⟩
      · obtain ⟨hmem, hmarker⟩ := ih hrest hcomment
        exact ⟨List.mem_cons_of_mem first hmem, hmarker⟩

/-- Only the empty marker is found where there is no text. -/
theorem body_of_hasMarker {marker comment : Value} (hmarker : marker ≠ .str "")
    (h : hasMarker marker comment = .ok true) :
    ∃ body, comment.get "body" = .ok body ∧ body.isGiven = true ∧ marker.isIn body = .ok true := by
  simp only [hasMarker, Action.except_bind_eq_ok] at h
  obtain ⟨body, hbody, hin⟩ := h
  rcases hgiven : body.isGiven with _ | _
  · rw [hgiven] at hin
    cases marker with
    | str n =>
      have hempty : n.toList <:+: [] := Text.contains_iff.mp (Except.ok.inj hin)
      have hn : n = "" := String.toList_eq_nil_iff.mp (List.infix_nil.mp hempty)
      exact absurd (congrArg Value.str hn) hmarker
    | _ => cases hin
  · rw [hgiven] at hin
    exact ⟨body, hbody, hgiven, hin⟩

/-- Whether on the way from one state to another only comments are deleted or changed that have been
shown and hold the marker. -/
def Spares (p : Poster) (s t : Runner) : Prop :=
  ∃ sent, s.Sends sent t ∧ ∀ q ∈ sent, q.IsEdit →
    ∃ comment, Shows p.address (s.network.exchange sent) comment ∧ IsFor p.address comment q ∧
      hasMarker p.marker comment = .ok true

theorem Spares.of_asks (h : s.Asks (fun q => ¬ q.IsEdit) t) : p.Spares s t := by
  obtain ⟨sent, hsent, hall⟩ := h
  exact ⟨sent, hsent, fun q hq hedit => absurd hedit (hall q hq)⟩

theorem Spares.trans {u : Runner} (h : p.Spares s t) (h' : p.Spares t u) : p.Spares s u := by
  obtain ⟨sent, hsent, hall⟩ := h
  obtain ⟨more, hmore, hall'⟩ := h'
  have hsaid := hsent.exchange more
  refine ⟨sent ++ more, hsent.trans hmore, fun q hq hedit => ?_⟩
  rcases List.mem_append.mp hq with hq | hq
  · obtain ⟨comment, hshows, hfor⟩ := hall q hq hedit
    exact ⟨comment, hshows.mono (hsaid ▸ List.subset_append_left _ _), hfor⟩
  · obtain ⟨comment, hshows, hfor⟩ := hall' q hq hedit
    exact ⟨comment, hshows.mono (hsaid ▸ List.subset_append_right _ _), hfor⟩

theorem Spares.isCalm (p : Poster) : Runner.IsCalm p.Spares where
  refl s := .of_asks (Runner.SameWires.refl s).asks
  trans := .trans
  log level source message s := .of_asks (Job.log_wires level source message s).asks

/-! ### The summary -/

/-- Only comments with the marker are deleted. -/
theorem deleteComments_asks_for (p : Poster) (olds : List Value) :
    (p.deleteComments olds).Asks fun q => ∃ comment ∈ olds, IsFor p.address comment q := by
  induction olds with
  | nil => exact .pure Runner.Asks.isCalm _
  | cons comment more ih =>
    have hR := Runner.Asks.isCalm (P := fun q => ∃ c ∈ comment :: more, IsFor p.address c q)
    have hmore : (p.deleteComments more).Asks fun q => ∃ c ∈ comment :: more, IsFor p.address c q :=
      ih.mono fun q ⟨c, hc, hfor⟩ => ⟨c, List.mem_cons_of_mem comment hc, hfor⟩
    refine Job.Keeps.use_bind hR fun id hid => .bind hR ?_ fun _ => hmore
    have hfor : IsFor p.address comment (p.client.requestFor p.repository "DELETE" (.comment id)) :=
      ⟨id, hid, Client.requestFor_url ..⟩
    have hdelete : (p.client.deleteComment p.repository id).HasEffects
        (Effect.IsExchange fun q => ∃ c ∈ comment :: more, IsFor p.address c q) :=
      p.client.deleteComment_effects p.repository ⟨comment, List.mem_cons_self, hfor⟩
    exact hdelete.asks

/-- Once the old summaries are known, only they are deleted or changed. -/
theorem replaceSummaries_asks_for (p : Poster) (pull : Value) (body : String) (olds : List Value) :
    (p.replaceSummaries pull body olds).Asks fun q =>
      q.IsEdit → ∃ comment ∈ olds, IsFor p.address comment q := by
  have hR := Runner.Asks.isCalm (P := fun q => q.IsEdit → ∃ comment ∈ olds, IsFor p.address comment q)
  have hadd : (p.client.addComment p.repository pull (p.marked body)).HasEffects (Effect.IsExchange fun q =>
      q.IsEdit → ∃ comment ∈ olds, IsFor p.address comment q) :=
    p.client.addComment_effects p.repository fun hedit => absurd hedit (Request.not_isEdit_of_post rfl)
  have hdelete : (p.deleteComments olds).Asks fun q =>
      q.IsEdit → ∃ comment ∈ olds, IsFor p.address comment q :=
    (p.deleteComments_asks_for olds).mono fun _ hfor _ => hfor
  unfold replaceSummaries
  split
  · rename_i old more hrecreate
    refine Job.Keeps.use_bind hR fun id hid => ?_
    have hchange : (p.client.changeComment p.repository id (p.marked body)).HasEffects
        (Effect.IsExchange fun q => q.IsEdit → ∃ comment ∈ old :: more, IsFor p.address comment q) :=
      p.client.changeComment_effects p.repository fun _ =>
        ⟨old, List.mem_cons_self, id, hid, p.client.requestFor_url p.repository "PATCH" _⟩
    exact hchange.asks
  · exact .bind hR hdelete fun _ => hadd.asks

theorem postSummary_spares (p : Poster) (pull : Value) (body : String) :
    (p.postSummary pull body).Keeps p.Spares := by
  intro s
  rcases h : p.postSummary pull body s with ⟨result, t⟩
  rw [postSummary_eq, summaries, ← Action.bind_assoc_run] at h
  rcases hlist : p.client.comments p.repository pull s with ⟨found, u⟩
  obtain ⟨asked, hasked, hget, hends⟩ := comments_ends hlist
  have hquiet : p.Spares s u :=
    .of_asks ⟨asked, hasked, fun q hq => Request.not_isEdit_of_get (hget q hq)⟩
  -- The requests of the listing are all for pages of the comments.
  have hpages : ∀ q ∈ asked, ∃ page, q = p.client.pageRequest p.repository pull page := by
    have heffects : (p.client.comments p.repository pull).HasEffects (Effect.IsExchange fun q =>
        ∃ page, q = p.client.pageRequest p.repository pull page) :=
      p.client.comments_effects p.repository fun page => ⟨page, rfl⟩
    obtain ⟨qs, hqs, hall⟩ := heffects.asks.of_run hlist
    exact hqs.unique hasked ▸ hall
  rw [Action.bind_run, hlist] at h
  cases hends with
  | complete items hreadable hfound =>
    dsimp only at h
    rw [Action.bind_run, Job.use_run] at h
    rcases holds : summariesIn p.marker items with m | olds
    · rw [holds] at h
      cases h
      exact hquiet
    · rw [holds] at h
      obtain ⟨more, hmore, hall⟩ := (p.replaceSummaries_asks_for pull body olds).of_run h
      refine ⟨asked ++ more, hasked.trans hmore, fun q hq hedit => ?_⟩
      rcases List.mem_append.mp hq with hq | hq
      · exact absurd hedit (Request.not_isEdit_of_get (hget q hq))
      · obtain ⟨comment, hcomment, hfor⟩ := hall q hq hedit
        obtain ⟨hitem, hmarker⟩ := mem_summariesIn holds hcomment
        refine ⟨comment, ?_, hfor, hmarker⟩
        obtain ⟨x, hx, page, hpage, hshown⟩ := exists_page_of_listed hfound hitem
        obtain ⟨n, hn⟩ := hpages x.1 (Network.fst_mem_of_mem_exchange hx)
        rw [hasked.exchange]
        refine ⟨x, List.mem_append_left _ hx, pull, page, ?_, ?_, hpage, hshown⟩
        · rw [hn]
          rfl
        · rw [hn]
          exact p.client.requestFor_url p.repository "GET" _
  | refused e hreadable hfound he =>
    cases h
    exact hquiet
  | unreadable e hreadable he =>
    cases h
    exact hquiet

/-! ### The posting -/

/-- A job that deletes and changes nothing spares all comments. -/
theorem spares_of_effects {α : Type} {j : Job α} {P : Request → Prop}
    (hj : j.HasEffects (Effect.IsExchange P)) (h : ∀ q, P q → ¬ q.IsEdit) : j.Keeps p.Spares :=
  fun s => .of_asks ((hj.asks.mono h) s)

theorem submit_spares (p : Poster) (stored : StoredReview) (verdict : Verdict) (pull : Value) :
    (p.submit stored verdict pull).Keeps p.Spares := by
  have hR := Spares.isCalm p
  have htry : (p.trySummary pull stored.message).Keeps p.Spares := by
    refine .ite (.bind hR (hR.log _ _ _) fun _ => .pure hR _) ?_
    refine .bind hR (.catching (p.postSummary_spares pull _) _) fun outcome => ?_
    cases outcome with
    | error e => exact .bind hR (hR.log _ _ _) fun _ => .pure hR _
    | ok v => exact .pure hR _
  have hreview : (p.client.addReview p.repository pull verdict.name stored.body
      (stored.comments.map LineComment.posted)).Keeps p.Spares :=
    spares_of_effects (P := fun q => q.method = "POST") (p.client.addReview_effects p.repository rfl)
      fun _ => Request.not_isEdit_of_post
  exact .bind hR htry fun _ => .bind hR hreview fun _ => .bind hR (hR.log _ _ _) fun _ => .pure hR _

theorem post_spares (p : Poster) (stored : StoredReview) (run given : Option Int)
    (details : Option String) : (p.post stored run given details).Keeps p.Spares := by
  have hR := Spares.isCalm p
  have hverdict : (verdictOf stored.reviewType).Keeps p.Spares := (verdictOf_effects _).keeps_of_quiet hR
  have hresolve : (p.resolve run).Keeps p.Spares :=
    spares_of_effects (p.resolve_effects run) fun q hq => Request.not_isEdit_of_get hq.method
  have hissue : (p.openIssue run details).Keeps p.Spares :=
    spares_of_effects (p.openIssue_effects run details) fun q hq => Request.not_isEdit_of_post (hq ▸ rfl)
  refine .bind hR hverdict fun verdict => ?_
  split
  · exact p.submit_spares stored verdict _
  · refine .bind hR (.catching hresolve _) fun found => ?_
    cases found with
    | ok pull => exact p.submit_spares stored verdict pull
    | error e =>
      exact .bind hR (hR.log _ _ _) fun _ => .bind hR hissue fun _ => .pure hR _

end Poster

namespace Reviewer

variable {r : Reviewer} {client : Option Client} {run given : Option Int} {details : Option String}
  {s t : Runner} {result : Except Fault Posting}

/-- Unless the marker is the empty text, all that the posting stage deletes or changes are comments that
have been listed and whose text is not empty and holds the marker. A comment without text is left alone
then, as long as no other comment is shown under its number. -/
theorem runPosting_spares (hmarker : r.settings.artifacts.marker ≠ .str "")
    (h : r.runPosting client run given details s = (result, t)) :
    ∃ sent address, t.requests = s.requests ++ sent ∧
      (∀ q ∈ sent, q.IsEdit → ∃ comment body, Shows address (s.network.exchange sent) comment ∧
        IsFor address comment q ∧ comment.get "body" = .ok body ∧ body.isGiven = true ∧
          r.settings.artifacts.marker.isIn body = .ok true) ∧
      ∀ comment body, comment.get "body" = .ok body → body.isGiven = false →
        ∀ q ∈ sent, IsFor address comment q →
          (∀ other, Shows address (s.network.exchange sent) other → IsFor address other q →
            other = comment) → ¬ q.IsEdit := by
  rcases runPosting_ends h with ⟨hnone, -⟩ | ⟨review, p, v, hreaches, hpost⟩
  · exact ⟨[], "", hnone.requests, by simp, by simp⟩
  · obtain ⟨sent, hsent, hall⟩ := (p.post_spares review run given details).of_run hpost
    have hnetwork : v.network = s.network := hreaches.quiet.network
    have hheld : ∀ q ∈ sent, q.IsEdit → ∃ comment body,
        Shows p.address (s.network.exchange sent) comment ∧ IsFor p.address comment q ∧
          comment.get "body" = .ok body ∧ body.isGiven = true ∧
            r.settings.artifacts.marker.isIn body = .ok true := by
      intro q hq hedit
      obtain ⟨comment, hshows, hfor, hmark⟩ := hall q hq hedit
      rw [(Poster.make_eq_ok hreaches.made).2.1] at hmark
      obtain ⟨body, hbody, hgiven, hin⟩ := Poster.body_of_hasMarker hmarker hmark
      exact ⟨comment, body, hnetwork ▸ hshows, hfor, hbody, hgiven, hin⟩
    refine ⟨sent, p.address, (hreaches.quiet.trans hsent).requests, hheld, ?_⟩
    intro comment body hbody hblank q hq _ honly hedit
    obtain ⟨other, body', hshows, hfor, hbody', hgiven, -⟩ := hheld q hq hedit
    obtain rfl := honly other hshows hfor
    cases hbody.symm.trans hbody'
    rw [hblank] at hgiven
    cases hgiven

/-- A reviewer with a marker. -/
def withMarker (marker : String) : Reviewer where
  settings :=
    { Settings.default with
      forge := { Settings.default.forge with token := .str "t", repository := .str "owner/repo" }
      artifacts := { Settings.default.artifacts with marker := .str marker } }
  window := some 30
  store := .ofText "artifacts"

/-- Its client. -/
def ownClient : Client :=
  ⟨.str "t", "https://api.github.com", .int 30⟩

def ownRepository : Repository :=
  ⟨"owner", "repo"⟩

/-- A comment without text and one that holds dashes. -/
def twoComments : Shelf :=
  ⟨[⟨1, none⟩, ⟨2, some "--- old"⟩], 3⟩

/-- A machine with a review and its summary, and these two comments on the pull request. -/
def onTwoComments : Runner :=
  { Runner.fresh 0 with
    workspace :=
      ⟨[(["artifacts"], .directory),
        (["artifacts", "review_type.txt"], .file (Text.Utf8.encode "APPROVE\n")),
        (["artifacts", "review_body.txt"], .file (Text.Utf8.encode "Fine.\n")),
        (["artifacts", "review_message.md"], .file (Text.Utf8.encode "Summary.\n"))]⟩
    network := (Host.memory ownClient ownRepository).network 9 twoComments }

theorem runPosting_spares_textless :
    ∃ result t sent, (withMarker "---").runPosting none none (some 17) none onTwoComments = (result, t) ∧
      t.requests = sent ∧ sent.map Request.method = ["GET", "DELETE", "POST", "POST"] ∧
      ∀ q ∈ sent, q.IsEdit → ∃ (address : String) (comment body : Value), IsFor address comment q ∧
        comment.get "body" = .ok body ∧ body.isGiven = true ∧ (Value.str "---").isIn body = .ok true := by
  have hmarker : (withMarker "---").settings.artifacts.marker ≠ .str "" := by
    intro h
    exact absurd (Value.str.inj h) (by decide)
  have hmethods : ((withMarker "---").runPosting none none (some 17) none onTwoComments).2.requests.map
      Request.method = ["GET", "DELETE", "POST", "POST"] := by
    decide +kernel
  rcases h : (withMarker "---").runPosting none none (some 17) none onTwoComments with ⟨result, t⟩
  obtain ⟨sent, address, hsent, hall, -⟩ := runPosting_spares hmarker h
  rw [h, hsent] at hmethods
  refine ⟨result, t, sent, rfl, hsent, hmethods, fun q hq hedit => ?_⟩
  obtain ⟨comment, body, -, hfor, hbody, hgiven, hin⟩ := hall q hq hedit
  exact ⟨address, comment, body, hfor, hbody, hgiven, hin⟩

/-- The empty marker passes the check of the settings, and the comment without text is deleted. -/
theorem runPosting_deletes_textless :
    (withMarker "").settings.check = .ok () ∧ Comment.mk 1 none ∈ twoComments.comments ∧
      ∃ sent, ((withMarker "").runPosting none none (some 17) none onTwoComments).2.requests = sent ∧
        (∃ q ∈ sent, q.method = "DELETE" ∧ q.url = (ownClient.deletion ownRepository 1).url) ∧
        Comment.mk 1 none ∉
          ((Host.memory ownClient ownRepository).after twoComments sent).comments := by
  have hcheck : (withMarker "").settings.check = .ok () := rfl
  -- The run is evaluated once for both.
  have hrun : (∃ q ∈ ((withMarker "").runPosting none none (some 17) none onTwoComments).2.requests,
      q.method = "DELETE" ∧ q.url = (ownClient.deletion ownRepository 1).url) ∧
        Comment.mk 1 none ∉ ((Host.memory ownClient ownRepository).after twoComments
          ((withMarker "").runPosting none none (some 17) none onTwoComments).2.requests).comments := by
    decide +kernel
  exact ⟨hcheck, List.mem_cons_self, _, rfl, hrun⟩

end Reviewer

end ReviewGate

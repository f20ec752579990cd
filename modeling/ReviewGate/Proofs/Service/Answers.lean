import ReviewGate.Proofs.Json.Document
import ReviewGate.Proofs.Service.Agreement

/-! The analysis as a service that always answers and keeps nothing in mind. A request for an analysis is
rejected for what is wrong with it, or answered with the review of the files that it sends, and either way
as if it were the only request. -/
namespace ReviewGate

/-- Whether a comment is on a line that a file has, under its path without blanks around it. -/
structure Finding.IsOn (c : Finding) (f : SentFile) : Prop where
  path : c.path = f.path
  stripped : Text.strip c.path = c.path
  first : 1 ≤ c.line
  last : c.line ≤ f.toChangedFile.lines.length

namespace Service

/-! ### Requests -/

namespace Request

variable {q : Request} {request : AnalysisRequest}

/-- Whether a request asks for an analysis. -/
structure AsksAnalysis (q : Request) : Prop where
  method : Text.capitals q.method = "POST"
  path : pathOf q.target = "/api/v1/analyze"

/-- Whether the body of a request is JSON, is said to be, and gives files to analyse. -/
structure Sends (q : Request) (request : AnalysisRequest) : Prop where
  type : isJson q.contentType = true
  body : ∃ v, Json.Denotes q.body v ∧ request.IsGivenBy v

/-- What can be wrong with a request: its type is not JSON, its body stands for nothing or for null, or for a
value that gives no files to analyse. -/
inductive IsUnfit (q : Request) : Prop
  | type (h : isJson q.contentType = false)
  | text (h : ∀ v, ¬ Json.Denotes q.body v)
  | nothing (h : Json.Denotes q.body .null)
  | form {v : Value} (h : Json.Denotes q.body v) (hform : ∀ request : AnalysisRequest, ¬ request.IsGivenBy v)

theorem valueOf_eq_some {v : Value} :
    valueOf? q = some v ↔ isJson q.contentType = true ∧ Json.Denotes q.body v ∧ v ≠ .null := by
  rw [← Json.readBytes_eq_some, valueOf?]
  by_cases htype : isJson q.contentType = true
  · simp only [htype, if_true, true_and]
    split
    · rename_i hnull
      simp [hnull, eq_comm]
    · rename_i hother
      refine (and_iff_left_of_imp ?_).symm
      intro hv hnull
      exact hother (hnull ▸ hv)
  · simp [htype]

/-- A request sends what is read from the value in it. -/
theorem sends_iff : q.Sends request ↔ ∃ v, valueOf? q = some v ∧ AnalysisRequest.ofValue v = .ok request := by
  simp only [valueOf_eq_some, AnalysisRequest.ofValue_eq_ok]
  constructor
  · intro ⟨htype, v, hbody, hgiven⟩
    have hmap := hgiven
    obtain ⟨entries, rfl, -⟩ := hmap
    exact ⟨_, ⟨htype, hbody, by simp⟩, hgiven⟩
  · intro ⟨v, ⟨htype, hbody, _⟩, hgiven⟩
    exact ⟨htype, v, hbody, hgiven⟩

theorem Sends.not_isUnfit (h : q.Sends request) : ¬ q.IsUnfit := by
  obtain ⟨htype, v, hbody, hgiven⟩ := h
  have hsame : ∀ {w : Value}, Json.Denotes q.body w → w = v := by
    intro w hw
    rw [← Json.readBytes_eq_some] at hw hbody
    exact Option.some.inj (hw.symm.trans hbody)
  intro hunfit
  cases hunfit with
  | type hnone => simp [htype] at hnone
  | text hnone => exact hnone v hbody
  | nothing hnull =>
    obtain ⟨entries, hmap, -⟩ := hgiven
    rw [← hsame hnull] at hmap
    cases hmap
  | form hother hform => exact hform request (hsame hother ▸ hgiven)

theorem isUnfit_or_sends (q : Request) : q.IsUnfit ∨ ∃ request, q.Sends request := by
  by_cases htype : isJson q.contentType = true
  · by_cases hbody : ∃ v, Json.Denotes q.body v
    · obtain ⟨v, hv⟩ := hbody
      by_cases hform : ∃ request : AnalysisRequest, request.IsGivenBy v
      · obtain ⟨request, hgiven⟩ := hform
        exact Or.inr ⟨request, htype, v, hv, hgiven⟩
      · exact Or.inl (.form hv (not_exists.mp hform))
    · exact Or.inl (.text (not_exists.mp hbody))
  · exact Or.inl (.type (Bool.eq_false_iff.mpr htype))

end Request

/-! ### Answers -/

/-- The value of a field of an answer. -/
def Response.field? (a : Response) (name : String) : Option Value :=
  match a.json with
  | some (.map entries) => Value.find? (.str name) entries
  | _ => none

def Response.IsRejection (a : Response) : Prop :=
  a.status = 400 ∧ a.field? "status" = some (.str "failed")

/-- Whether an answer is the review of a request: changes are requested if the tests failed or a file has a
finding. -/
structure Response.Reviews (a : Response) (rules : List Rule) (request : AnalysisRequest) : Prop where
  status : a.status = 200
  completed : a.field? "status" = some (.str "completed")
  verdict : ∃ verdict : Verdict, a.field? "verdict" = some (.str verdict.name) ∧
    (verdict = .requestChanges ↔
      request.testsPassed = false ∨ ∃ f ∈ request.files, scan rules f.toChangedFile ≠ [])
  comments : ∃ comments : List Finding, a.field? "comments" = some (.list (comments.map Finding.record)) ∧
    ∀ c ∈ comments, ∃ f ∈ request.files, c.IsOn f

theorem rejection_isRejection (reason : String) : (rejection reason).IsRejection :=
  ⟨rfl, rfl⟩

variable {r : Reviewer} {q : Request} {request : AnalysisRequest}

theorem reviewOf_verdict :
    (r.reviewOf request.testsPassed request.changedFiles).verdict = .requestChanges ↔
      request.testsPassed = false ∨ ∃ f ∈ request.files, scan r.rules f.toChangedFile ≠ [] := by
  unfold Reviewer.reviewOf
  cases request.testsPassed with
  | false => simp [Payload.failingTests]
  | true =>
    simp only [if_true, AnalysisResult.payload_verdict, aggregate_findings, AnalysisRequest.changedFiles,
      List.flatMap_eq_nil_iff, List.forall_mem_map]
    split_ifs with hnone
    · simpa using hnone
    · simpa using hnone

theorem reviewOf_comments (hstripped : ∀ f ∈ request.files, Text.strip f.path = f.path) :
    ∀ c ∈ (r.reviewOf request.testsPassed request.changedFiles).comments, ∃ f ∈ request.files, c.IsOn f := by
  unfold Reviewer.reviewOf
  cases request.testsPassed with
  | false => simp [Payload.failingTests]
  | true =>
    intro c hc
    rw [if_pos rfl, AnalysisResult.payload_comments, aggregate_findings, List.mem_flatMap] at hc
    obtain ⟨file, hfile, hscan⟩ := hc
    obtain ⟨f, hf, rfl⟩ := List.mem_map.mp hfile
    have hpath : c.path = f.path := path_of_mem_scan hscan
    exact ⟨f, hf, hpath, by rw [hpath, hstripped f hf], c.line_pos, line_le_of_mem_scan hscan⟩

theorem reviewAnswer_reviews (h : q.Sends request) :
    (reviewAnswer (r.reviewOf request.testsPassed request.changedFiles)).Reviews r.rules request := by
  obtain ⟨v, -, hgiven⟩ := h.body
  constructor
  · rfl
  · rfl
  · exact ⟨_, rfl, reviewOf_verdict⟩
  · exact ⟨_, rfl, reviewOf_comments hgiven.stripped⟩

theorem Request.Sends.answered (h : q.Sends request) (hwindow : r.window.isSome = true) :
    (analysisAnswer r q).Gives
      (reviewAnswer (r.reviewOf request.testsPassed request.changedFiles)) := by
  obtain ⟨v, hvalue, hrequest⟩ := Request.sends_iff.mp h
  exact analysisAnswer_review hvalue hrequest hwindow

theorem Request.IsUnfit.answered (h : q.IsUnfit) (r : Reviewer) :
    ∃ reason, (analysisAnswer r q).Gives (rejection reason) := by
  unfold analysisAnswer
  cases hvalue : valueOf? q with
  | none => exact ⟨_, .pure _⟩
  | some v =>
    dsimp only
    cases hrequest : AnalysisRequest.ofValue v with
    | error report => exact ⟨_, .pure _⟩
    | ok request =>
      have hsends : q.Sends request := Request.sends_iff.mpr ⟨v, hvalue, hrequest⟩
      exact absurd h hsends.not_isUnfit

/-- Every request is answered, and its answer is the same on every machine. -/
theorem exists_answer (hwindow : r.window.isSome = true) (q : Request) : ∃ a, (answer r q).Gives a := by
  have hanalysis : ∃ a, (analysisAnswer r q).Gives a := by
    cases q.isUnfit_or_sends with
    | inl hunfit =>
      obtain ⟨reason, hgives⟩ := hunfit.answered r
      exact ⟨_, hgives⟩
    | inr hsends =>
      obtain ⟨request, hsends⟩ := hsends
      exact ⟨_, hsends.answered hwindow⟩
  have hroute : ∀ route method, ∃ a, (routeAnswer r q route method).Gives a := by
    intro route method
    unfold routeAnswer
    split
    · exact ⟨_, .pure _⟩
    · split
      · exact ⟨_, .pure _⟩
      · cases route with
        | analyze => exact hanalysis
        | health | asset => exact ⟨_, .pure _⟩
  unfold answer
  dsimp only
  split
  · exact ⟨_, .pure _⟩
  · rename_i route _
    obtain ⟨a, hgives⟩ := hroute route (Text.capitals q.method)
    exact ⟨a, .bind (hgives.catching _) (.pure _)⟩

/-- Whether an answer to a request for an analysis is as it must be: a rejection if the request is unfit, and
else the review of what it sends. -/
structure Response.Settles (a : Response) (rules : List Rule) (q : Request) : Prop where
  either : a.IsRejection ∨ ∃ request, q.Sends request ∧ a.Reviews rules request
  rejects : a.IsRejection ↔ q.IsUnfit
  reviews : ∀ request, q.Sends request → a.Reviews rules request

theorem Response.Reviews.not_isRejection {a : Response} {rules : List Rule} (h : a.Reviews rules request) :
    ¬ a.IsRejection := by
  intro hrejection
  have hstatus := h.status
  rw [hrejection.1] at hstatus
  cases hstatus

theorem settles_of_gives {a : Response} (hwindow : r.window.isSome = true) (hq : q.AsksAnalysis)
    (h : (answer r q).Gives a) : a.Settles r.rules q := by
  -- An answer that is the same on every machine is the one that the analysis gives.
  have hreviews : ∀ request, q.Sends request → a.Reviews r.rules request := by
    intro request hsends
    have hgives := answer_analysis hq.method hq.path (hsends.answered hwindow)
    exact h.unique hgives ▸ reviewAnswer_reviews hsends
  cases q.isUnfit_or_sends with
  | inl hunfit =>
    obtain ⟨reason, hgives⟩ := hunfit.answered r
    have hrejection : a.IsRejection :=
      h.unique (answer_analysis hq.method hq.path hgives) ▸ rejection_isRejection reason
    exact ⟨Or.inl hrejection, iff_of_true hrejection hunfit, hreviews⟩
  | inr hsends =>
    obtain ⟨request, hsends⟩ := hsends
    have hreview := hreviews request hsends
    exact ⟨Or.inr ⟨request, hsends, hreview⟩, iff_of_false hreview.not_isRejection hsends.not_isUnfit,
      hreviews⟩

/-- The service always answers, and each answer depends on its own request alone. With settings from the
environment that are fit for use, a sequence of requests of any kind ends without a fault on any machine, and
each of them has the answer that it has by itself. A request for an analysis is rejected exactly if it is
unfit; otherwise its answer is the review of the files that it sends. -/
theorem answers_stand_alone {env : Settings.Environment} {settings : Settings}
    (henv : Settings.ofEnvironment env = .ok settings) (hcheck : settings.check = .ok ()) :
    ∃ r, ∃ respond : Request → Response, Reviewer.make settings = .ok r ∧
      (∀ (qs : List Request) (m : Runner), (qs.mapM (answer r) m).1 = .ok (qs.map respond)) ∧
      ∀ q : Request, q.AsksAnalysis → (respond q).Settles r.rules q := by
  obtain ⟨r, hmake, -, hwindow⟩ := Reviewer.make_of_environment henv hcheck
  choose respond hrespond using exists_answer hwindow
  refine ⟨r, respond, hmake, ?_, ?_⟩
  · intro qs m
    exact Job.Gives.mapM hrespond qs m
  · intro q hq
    exact settles_of_gives hwindow hq (hrespond q)

/-- A request for an analysis that has no body. -/
def withoutBody : Request :=
  ⟨"POST", "/api/v1/analyze", "application/json", []⟩

/-- A request without a body is rejected, and the files that are sent after it are reviewed all the same. -/
theorem answers_stand_alone_on_two :
    ∃ r, ∃ respond : Request → Response, Reviewer.make Settings.default = .ok r ∧
      ([withoutBody, submission twoSent true].mapM (answer r) (.fresh 0)).1 =
        .ok [respond withoutBody, respond (submission twoSent true)] ∧
      (respond withoutBody).status = 400 ∧ (respond (submission twoSent true)).status = 200 ∧
      (respond (submission twoSent true)).field? "verdict" = some (.str "REQUEST_CHANGES") := by
  have henv : Settings.ofEnvironment [] = .ok Settings.default := rfl
  have hcheck : Settings.default.check = .ok () := rfl
  obtain ⟨r, respond, hmake, hserve, hsettles⟩ := answers_stand_alone henv hcheck
  have hnone : Json.readBytes withoutBody.body = none := rfl
  have hunfit : withoutBody.IsUnfit := by
    apply Request.IsUnfit.text
    intro v hv
    rw [← Json.readBytes_eq_some, hnone] at hv
    cases hv
  have hasks : withoutBody.AsksAnalysis := ⟨by decide, by decide +kernel⟩
  have hsubmits := submission_submits twoSent true
  have hsends : (submission twoSent true).Sends ⟨twoSent, true⟩ :=
    Request.sends_iff.mpr (hsubmits.valueOf (by decide +kernel))
  have hreview := (hsettles _ ⟨by decide, hsubmits.path⟩).reviews _ hsends
  have hfound : ∃ f ∈ twoSent, scan r.rules f.toChangedFile ≠ [] := by
    cases hmake
    decide +kernel
  obtain ⟨verdict, hfield, hverdict⟩ := hreview.verdict
  refine ⟨r, respond, hmake, hserve _ _, ?_, hreview.status, ?_⟩
  · exact ((hsettles _ hasks).rejects.mpr hunfit).1
  · rw [hfield, hverdict.mpr (Or.inr hfound)]
    rfl

end Service

end ReviewGate

import Mathlib.Data.List.Forall2
import ReviewGate.Proofs.AnalysisRequest
import ReviewGate.Proofs.CommandLine.Exit
import ReviewGate.Proofs.Json.Encoded
import ReviewGate.Proofs.Reviewer.Completion
import ReviewGate.Service.Answer

/-! The service and the analysis stage reach the review of some files on different ways: one takes texts
from a request and checks them, the other one picks paths, reads bytes and stores what comes of them. They
give the same review. -/
namespace ReviewGate

/-! ### Settings from the environment -/

namespace Settings

theorem numberIn_int {env : Environment} {name : String} {n : Int} {v : Value}
    (h : numberIn env name (.int n) = .ok v) : ∃ k, v = .int k := by
  unfold numberIn at h
  rcases hsetting : setting? env name with _ | text
  · rw [hsetting] at h
    exact ⟨n, (Except.ok.inj h).symm⟩
  · rcases hread : Number.readInt text with e | k
    all_goals rw [hsetting] at h; simp only [hread] at h; cases h
    exact ⟨k, rfl⟩

theorem listIn_texts (env : Environment) (name : String) (texts : List String) :
    ∃ found : List String, listIn env name (.list (texts.map .str)) = .list (found.map .str) := by
  unfold listIn
  rcases setting? env name with _ | text
  · exact ⟨texts, rfl⟩
  · exact ⟨listItems text, rfl⟩

/-- The settings of an environment have a whole number for the window and texts for the extensions. -/
theorem ofEnvironment_analysis {env : Environment} {s : Settings} (h : ofEnvironment env = .ok s) :
    (∃ size, s.analysis.window = .int size) ∧
      ∃ extensions : List String, s.analysis.extensions = .list (extensions.map .str) := by
  simp only [ofEnvironment, Action.except_bind_eq_ok] at h
  obtain ⟨timeout, -, window, hwindow, workers, -, maxSize, -, backups, -, hdone⟩ := h
  cases hdone
  exact ⟨numberIn_int hwindow, listIn_texts env _ [".cs"]⟩

end Settings

/-- Settings from the environment that are fit for use make a reviewer with a window. -/
theorem Reviewer.make_of_environment {env : Settings.Environment} {s : Settings}
    (henv : Settings.ofEnvironment env = .ok s) (hcheck : s.check = .ok ()) :
    ∃ r, make s = .ok r ∧ r.settings = s ∧ r.window.isSome = true := by
  obtain ⟨-, directory, hdirectory⟩ := Settings.ofEnvironment_hasTexts henv
  obtain ⟨⟨size, hsize⟩, -⟩ := Settings.ofEnvironment_analysis henv
  exact ⟨_, make_of_check hcheck (by rw [hdirectory]; rfl), rfl, by rw [hsize]; rfl⟩

theorem Checkout.make_of_environment {env : Settings.Environment} {s : Settings}
    (henv : Settings.ofEnvironment env = .ok s) (root : String) :
    ∃ c, make root s.analysis.extensions = .ok c := by
  obtain ⟨-, extensions, hextensions⟩ := Settings.ofEnvironment_analysis henv
  exact ⟨_, hextensions ▸ make_texts root extensions⟩

/-! ### Requests -/

/-- Whether a value shows a sent file. -/
def SentFile.IsShownBy (f : SentFile) (v : Value) : Prop :=
  ∃ entries, v = .map entries ∧ Value.find? (.str "path") entries = some (.str f.path) ∧
    Value.find? (.str "content") entries = some (.str f.content)

theorem SentFile.IsShownBy.isGivenBy {f : SentFile} {v : Value} (h : f.IsShownBy v)
    (hstripped : Text.strip f.path = f.path) : f.IsGivenBy v := by
  obtain ⟨entries, rfl, hpath, hcontent⟩ := h
  exact ⟨entries, f.path, rfl, hpath, hstripped, hcontent⟩

namespace Service

/-- Whether a request submits files for analysis, and says whether their tests passed. -/
structure Request.Submits (q : Request) (files : List SentFile) (tested : Bool) : Prop where
  method : q.method = "POST"
  path : pathOf q.target = "/api/v1/analyze"
  type : isJson q.contentType = true
  body : ∃ entries items, Json.readBytes q.body = some (.map entries) ∧
    Value.find? (.str "files") entries = some (.list items) ∧
    List.Forall₂ SentFile.IsShownBy files items ∧
    (Value.find? (.str "tests_passed") entries = some (.bool tested) ∨
      Value.find? (.str "tests_passed") entries = none ∧ tested = true)

/-- A sent file as a value. -/
def record (f : SentFile) : Value :=
  .record [("path", .str f.path), ("content", .str f.content)]

/-- The request that submits files. -/
def submission (files : List SentFile) (tested : Bool) : Request where
  method := "POST"
  target := "/api/v1/analyze"
  contentType := "application/json"
  body := Text.Utf8.encode (Json.write
    (.record [("files", .list (files.map record)), ("tests_passed", .bool tested)]) ++ "\n")

/-- Files can be submitted whatever they hold. -/
theorem submission_submits (files : List SentFile) (tested : Bool) :
    (submission files tested).Submits files tested := by
  have hplain : Json.IsPlain
      (.record [("files", .list (files.map record)), ("tests_passed", .bool tested)]) := by
    have hfiles : Json.ArePlain (files.map record) := by
      refine Json.arePlain_iff.mpr fun v hv => ?_
      obtain ⟨f, -, rfl⟩ := List.mem_map.mp hv
      simp [record, Value.record, Json.IsPlain, Json.ArePlainEntries]
    simp [Value.record, Json.IsPlain, Json.ArePlainEntries, hfiles]
  have htarget : pathOf "/api/v1/analyze" = "/api/v1/analyze" := by decide +kernel
  have htype : isJson "application/json" = true := by decide +kernel
  have hshown : List.Forall₂ SentFile.IsShownBy files (files.map record) := by
    refine List.forall₂_map_right_iff.mpr (List.forall₂_same.mpr fun f _ => ⟨_, rfl, ?_, ?_⟩)
    · simp [Value.find?, Value.same]
    · simp [Value.find?, Value.same]
  have hbody : Json.readBytes (submission files tested).body =
      some (.map [(.str "files", .list (files.map record)), (.str "tests_passed", .bool tested)]) := by
    rw [submission, Json.readBytes_write hplain]
    rfl
  constructor
  · rfl
  · exact htarget
  · exact htype
  · refine ⟨_, _, hbody, ?_, hshown, Or.inl ?_⟩
    · simp [Value.find?, Value.same]
    · simp [Value.find?, Value.same]

variable {q : Request} {files : List SentFile} {tested : Bool} {r : Reviewer}

/-- Files whose paths have no blanks around them are read as they are submitted. -/
theorem Request.Submits.valueOf (h : q.Submits files tested)
    (hstripped : ∀ f ∈ files, Text.strip f.path = f.path) :
    ∃ v, valueOf? q = some v ∧ AnalysisRequest.ofValue v = .ok ⟨files, tested⟩ := by
  obtain ⟨entries, items, hbody, hfiles, hitems, htested⟩ := h.body
  have hgiven : List.Forall₂ SentFile.IsGivenBy files items :=
    ((List.forall₂_and_left _ _).mpr ⟨hstripped, hitems⟩).imp fun _ _ hf => hf.2.isGivenBy hf.1
  refine ⟨.map entries, by simp [valueOf?, h.type, hbody], AnalysisRequest.ofValue_eq_ok.mpr ?_⟩
  refine ⟨entries, rfl, Or.inr ⟨_, items, hfiles, Or.inl rfl, hgiven⟩, ?_⟩
  cases htested with
  | inl htold => exact Or.inr ⟨_, htold, Or.inl (by cases tested <;> rfl)⟩
  | inr hnone => exact Or.inl hnone

/-! ### Answers -/

/-- The answer that holds a review. -/
def reviewAnswer (payload : Payload) : Response :=
  ⟨200, some (.record (payload.entries ++ [("status", .str "completed")]))⟩

theorem analysisAnswer_review {v : Value} {request : AnalysisRequest} (hvalue : valueOf? q = some v)
    (hrequest : AnalysisRequest.ofValue v = .ok request) (hwindow : r.window.isSome = true) :
    (analysisAnswer r q).Gives (reviewAnswer (r.reviewOf request.testsPassed request.changedFiles)) := by
  unfold analysisAnswer
  rw [hvalue]
  dsimp only
  rw [hrequest]
  exact .bind (Reviewer.review_gives hwindow _ _) (.bind (.log _ _ _) (.pure _))

/-- A request for an analysis is answered with what the analysis gives. -/
theorem answer_analysis {a : Response} (hmethod : Text.capitals q.method = "POST")
    (hpath : pathOf q.target = "/api/v1/analyze") (hgives : (analysisAnswer r q).Gives a) :
    (answer r q).Gives a := by
  have hroute : Route.ofPath? "/api/v1/analyze" = some .analyze := by decide
  have hanalyze : routeAnswer r q .analyze "POST" = analysisAnswer r q := by
    simp [routeAnswer, Route.methods]
  unfold answer
  rw [hpath, hmethod]
  dsimp only
  rw [hroute]
  dsimp only
  rw [hanalyze]
  exact .bind (hgives.catching _) (.pure _)

/-- Files that are submitted are answered with their review. -/
theorem answer_gives (hsubmits : q.Submits files tested) (hwindow : r.window.isSome = true)
    (hstripped : ∀ f ∈ files, Text.strip f.path = f.path) :
    (answer r q).Gives (reviewAnswer (r.reviewOf tested (files.map SentFile.toChangedFile))) := by
  have hmethod : Text.capitals "POST" = "POST" := by decide
  obtain ⟨v, hvalue, hrequest⟩ := hsubmits.valueOf hstripped
  exact answer_analysis (hsubmits.method ▸ hmethod) hsubmits.path
    (analysisAnswer_review hvalue hrequest hwindow)

end Service

/-- The service and the analysis stage agree. With settings from the environment that are fit for use, the
service answers files that are submitted to it with their review, and the stage, to which their paths are
given in any order and however often, succeeds with the same review and stores it: the verdict, the short
text without the blanks around it, the summary, and the comments unless the tests failed. -/
theorem Service.answer_agrees {env : Settings.Environment} {settings : Settings}
    (henv : Settings.ofEnvironment env = .ok settings) (hcheck : settings.check = .ok ()) (root : String) :
    ∃ r c, Reviewer.make settings = .ok r ∧ Checkout.make root settings.analysis.extensions = .ok c ∧
      ∀ {files : List SentFile} {paths : List String} {tested : Bool} {base head : Option String}
        {number : Option Int} {s m : Runner} {q : Request},
        c.Lists files → (∀ path, path ∈ paths ↔ path ∈ files.map SentFile.path) →
        (∀ f ∈ files, f.HasShortNumbers) → (∀ n, number = some n → Number.IsShort n) →
        r.HasAll c files s → q.Submits files tested →
          ∃ a t, r.runAnalysis tested ⟨root, some paths, base, head⟩ number s = (.ok a, t) ∧
            (answer r q m).1 = .ok (reviewAnswer a.payload) ∧ Artifacts.Tell r.store a.payload tested t := by
  obtain ⟨r, hmake, rfl, hwindow⟩ := Reviewer.make_of_environment henv hcheck
  obtain ⟨c, hcheckout⟩ := Checkout.make_of_environment henv root
  refine ⟨r, c, hmake, hcheckout, fun hlists hpaths hshort hnumber hall hsubmits => ?_⟩
  obtain ⟨a, t, hrun, hpayload, htell⟩ :=
    Reviewer.runAnalysis_run _ hwindow hcheckout hlists hpaths hshort hnumber hall
  refine ⟨a, t, hrun, ?_, htell⟩
  rw [hpayload]
  exact answer_gives hsubmits hwindow hlists.stripped _

namespace Service

/-- Two files, of which one has a line that is disabled. -/
def twoSent : List SentFile :=
  [⟨"A.cs", "class A\n// try\n", rfl⟩, ⟨"lib/É.CS", "class É", rfl⟩]

/-- A machine with the two files. -/
def twoStored : Runner :=
  { Runner.fresh 0 with
    workspace :=
      ⟨[(["A.cs"], .file (Text.Utf8.encode "class A\n// try\n")), (["lib"], .directory),
        (["lib", "É.CS"], .file (Text.Utf8.encode "class É"))]⟩ }

theorem twoStored_holds : (Checkout.mk (.ofText ".") [".cs"]).Holds twoSent twoStored := by
  have hreads : ∀ f ∈ twoSent,
      (twoStored.workspace.read ((Path.ofText ".").follow f.path)).toOption =
        some (Text.Utf8.encode f.content) := by
    decide +kernel
  intro f hf
  refine ⟨LogFile.read_of_content (hreads f hf), ?_⟩
  rintro ⟨layout, log, hfile, -⟩
  cases hfile

theorem twoStored_blank : twoStored.workspace.IsBlank ⟨"", ["artifacts"]⟩ := by
  refine ⟨⟨by decide, by decide, ?_⟩, ?_, fun name _ => Path.not_isOnWay_child (by decide) name⟩
  · rintro place ⟨before, hbefore, rfl⟩
    rcases List.prefix_cons_iff.mp hbefore with rfl | ⟨more, rfl, hmore⟩
    · decide +kernel
    · obtain rfl := List.prefix_nil.mp hmore
      decide +kernel
  · have hplace : Path.place ⟨"", ["artifacts"]⟩ = ["artifacts"] := by decide
    simp [hplace, twoStored]

theorem answer_agrees_on_two :
    ∃ r a t, Reviewer.make Settings.default = .ok r ∧
      r.runAnalysis true ⟨".", some ["lib/É.CS", "A.cs", "lib/É.CS"], none, none⟩ (some 7) twoStored =
          (.ok a, t) ∧
        (answer r (submission twoSent true) (.fresh 0)).1 = .ok (reviewAnswer a.payload) ∧
        Artifacts.Tell r.store a.payload true t := by
  have henv : Settings.ofEnvironment [] = .ok Settings.default := rfl
  have hcheck : Settings.default.check = .ok () := rfl
  obtain ⟨r, c, hr, hc, hagrees⟩ := answer_agrees henv hcheck "."
  have hstore : r.store = ⟨"", ["artifacts"]⟩ := by
    cases hr
    decide
  obtain rfl : c = ⟨.ofText ".", [".cs"]⟩ := by
    cases hc
    rfl
  have hlists : (Checkout.mk (.ofText ".") [".cs"]).Lists twoSent :=
    ⟨by decide +kernel, by decide +kernel, by decide +kernel⟩
  have hpaths : ∀ path, path ∈ ["lib/É.CS", "A.cs", "lib/É.CS"] ↔ path ∈ twoSent.map SentFile.path := by
    intro path
    simp [twoSent]
    tauto
  have hshort : ∀ f ∈ twoSent, f.HasShortNumbers := by
    have hall : ∀ f ∈ twoSent, Number.IsShort f.toChangedFile.lines.length := by decide +kernel
    exact hall
  have hspared : ∀ place, ¬ twoStored.journal.Touches place := by
    rintro place ⟨layout, log, hfile, -⟩
    cases hfile
  have hall : r.HasAll ⟨.ofText ".", [".cs"]⟩ twoSent twoStored :=
    ⟨twoStored_holds, hstore ▸ twoStored_blank, fun _ _ hfile => (nomatch hfile), fun _ _ => hspared _⟩
  have hnumber : ∀ n, some (7 : Int) = some n → Number.IsShort n := by
    rintro n ⟨⟩
    decide
  obtain ⟨a, t, hrun, hanswer, htell⟩ :=
    hagrees hlists hpaths hshort hnumber hall (submission_submits twoSent true)
  exact ⟨r, a, t, hr, hrun, hanswer, htell⟩

end Service

end ReviewGate

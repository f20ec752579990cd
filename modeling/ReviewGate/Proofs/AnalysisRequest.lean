import ReviewGate.AnalysisRequest
import ReviewGate.Proofs.Schema.Field
import ReviewGate.Proofs.Text.Lines

/-! Which values stand for requests to analyse files. What is left out has a default; what is there must
be of its kind, and a path must not be blank. -/
namespace ReviewGate

namespace SentFile

variable {f : SentFile} {v : Value}

/-- Whether a value gives a file: a path, with blanks around it or not, and what the file holds. -/
def IsGivenBy (f : SentFile) (v : Value) : Prop :=
  ∃ entries path, v = .map entries ∧ Value.find? (.str "path") entries = some (.str path) ∧
    Text.strip path = f.path ∧ Value.find? (.str "content") entries = some (.str f.content)

theorem readPath_eq_ok {path : { path : String // Text.isBlankText path = false }} :
    readPath v = .ok path ↔ ∃ text, v = .str text ∧ Text.strip text = path.1 := by
  simp only [readPath, Action.except_bind_eq_ok, Schema.readText_eq_ok]
  refine exists_congr fun text => and_congr_right fun _ => ?_
  split_ifs with hgiven
  · rw [Except.ok.injEq, Subtype.ext_iff]
  · simp only [Schema.complain, reduceCtorEq, false_iff]
    intro hpath
    exact hgiven (hpath ▸ path.2)

/-- A file is read from the values that give it. -/
theorem check_eq_ok : check v = .ok f ↔ f.IsGivenBy v := by
  unfold check
  constructor
  · intro h
    obtain ⟨entries, hentries, hfields⟩ := Action.except_bind_eq_ok.mp h
    obtain ⟨⟨⟨path, given⟩, content⟩, hboth, hdone⟩ := Action.except_bind_eq_ok.mp hfields
    cases hdone
    obtain ⟨hpath, hcontent⟩ := Schema.Checked.both_eq_ok.mp hboth
    obtain ⟨_, hpath, hread⟩ := Schema.field_eq_ok.mp hpath
    obtain ⟨text, rfl, htext⟩ := readPath_eq_ok.mp hread
    obtain ⟨_, hcontent, hread⟩ := Schema.field_eq_ok.mp hcontent
    obtain rfl := Schema.readText_eq_ok.mp hread
    exact ⟨entries, text, Schema.entriesOf_eq_ok.mp hentries, hpath, htext, hcontent⟩
  · intro ⟨entries, text, hentries, hpath, htext, hcontent⟩
    have hread : Schema.field entries "path" readPath = .ok ⟨f.path, f.path_given⟩ :=
      Schema.field_eq_ok.mpr ⟨_, hpath, readPath_eq_ok.mpr ⟨text, rfl, htext⟩⟩
    have hheld : Schema.field entries "content" Schema.readText = .ok f.content :=
      Schema.field_eq_ok.mpr ⟨_, hcontent, rfl⟩
    have hboth := Schema.Checked.both_eq_ok.mpr ⟨hread, hheld⟩
    refine Action.except_bind_eq_ok.mpr ⟨entries, Schema.entriesOf_eq_ok.mpr hentries, ?_⟩
    exact Action.except_bind_eq_ok.mpr ⟨_, hboth, rfl⟩

theorem IsGivenBy.stripped (h : f.IsGivenBy v) : Text.strip f.path = f.path := by
  obtain ⟨entries, path, -, -, hpath, -⟩ := h
  rw [← hpath, Text.strip_idem]

end SentFile

namespace AnalysisRequest

variable {request : AnalysisRequest} {v : Value}

/-- Whether a value gives a request. No files are sent if none are named, and the tests passed if nothing
else is said. -/
def IsGivenBy (request : AnalysisRequest) (v : Value) : Prop :=
  ∃ entries, v = .map entries ∧
    (Value.find? (.str "files") entries = none ∧ request.files = [] ∨
      ∃ given items, Value.find? (.str "files") entries = some given ∧ given.HasItems items ∧
        List.Forall₂ SentFile.IsGivenBy request.files items) ∧
    (Value.find? (.str "tests_passed") entries = none ∧ request.testsPassed = true ∨
      ∃ given, Value.find? (.str "tests_passed") entries = some given ∧ given.CountsAs request.testsPassed)

/-- A request is read from the values that give it, and from no others. -/
theorem ofValue_eq_ok : ofValue v = .ok request ↔ request.IsGivenBy v := by
  simp only [ofValue, Schema.Checked.report_eq_ok, check, Action.except_bind_eq_ok, Schema.entriesOf_eq_ok,
    Prod.exists, Schema.Checked.both_eq_ok, Schema.fieldOr_eq_ok, Schema.readList_eq_ok,
    Schema.readBoolean_eq_ok, SentFile.check_eq_ok]
  constructor
  · rintro ⟨entries, rfl, files, testsPassed, ⟨hfiles, htests⟩, hdone⟩
    cases hdone
    refine ⟨entries, rfl, hfiles.imp_right ?_, htests⟩
    intro ⟨given, hfind, items, hitems, hall⟩
    exact ⟨given, items, hfind, hitems, hall⟩
  · rintro ⟨entries, rfl, hfiles, htests⟩
    refine ⟨entries, rfl, request.files, request.testsPassed, ⟨hfiles.imp_right ?_, htests⟩, rfl⟩
    intro ⟨given, items, hfind, hitems, hall⟩
    exact ⟨given, hfind, items, hitems, hall⟩

theorem IsGivenBy.stripped (h : request.IsGivenBy v) : ∀ f ∈ request.files, Text.strip f.path = f.path := by
  obtain ⟨entries, -, hnone | hsome, -⟩ := h
  · simp [hnone.2]
  · obtain ⟨given, items, -, -, hgiven⟩ := hsome
    have hall := hgiven.imp fun f v hf => And.intro (SentFile.IsGivenBy.stripped hf) hf
    exact ((List.forall₂_and_left _ _).mp hall).1

end AnalysisRequest

end ReviewGate

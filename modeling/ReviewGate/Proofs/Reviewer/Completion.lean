import ReviewGate.AnalysisRequest
import ReviewGate.Proofs.LineNumbers
import ReviewGate.Proofs.Logged
import ReviewGate.Proofs.Review.Payload
import ReviewGate.Proofs.Reviewer.Analysis
import ReviewGate.Proofs.Rule.Language
import ReviewGate.Proofs.Text.Ascending

/-! The analysis stage on a machine that has all it needs: it succeeds, and what it stores is the review of
the files. -/
namespace ReviewGate

/-! ### Collecting -/

namespace Checkout

/-- Whether files are listed as a checkout lists them: those of interest, with no blanks around their paths,
in ascending order. -/
structure Lists (c : Checkout) (files : List SentFile) : Prop where
  stripped : ∀ f ∈ files, Text.strip f.path = f.path
  relevant : ∀ f ∈ files, c.isRelevant f.path = true
  ascending : (files.map SentFile.path).Pairwise (· < ·)

/-- Whether a checkout holds files, and goes on to hold them while messages are logged. -/
def Holds (c : Checkout) (files : List SentFile) (s : Runner) : Prop :=
  ∀ f ∈ files, s.workspace.read (c.root.follow f.path) = .ok (Text.Utf8.encode f.content) ∧
    ¬ s.journal.Touches (c.root.follow f.path).place

variable {c : Checkout} {files : List SentFile} {s t : Runner}

theorem Holds.of_onlyLogs (h : c.Holds files s) (hlogs : s.OnlyLogs t) : c.Holds files t := by
  intro f hf
  obtain ⟨hread, hspared⟩ := h f hf
  exact ⟨hlogs.read hread hspared, hlogs.journal ▸ hspared⟩

/-- The order in which paths are given does not matter, nor how often. -/
theorem Lists.select_eq (h : c.Lists files) {paths : List String}
    (hpaths : ∀ path, path ∈ paths ↔ path ∈ files.map SentFile.path) :
    c.select paths = files.map SentFile.path := by
  refine Text.ascending_eq h.ascending fun path => ?_
  simp only [List.mem_filter, List.mem_map, hpaths]
  constructor
  · rintro ⟨⟨_, ⟨f, hf, rfl⟩, rfl⟩, -⟩
    exact ⟨f, hf, (h.stripped f hf).symm⟩
  · rintro ⟨f, hf, rfl⟩
    have hgiven : f.path ≠ "" := fun hempty => absurd f.path_given (by rw [hempty]; decide)
    exact ⟨⟨f.path, ⟨f, hf, rfl⟩, h.stripped f hf⟩, by simp [hgiven, h.relevant f hf]⟩

/-- A file that holds a text is loaded as if the text had been sent. -/
theorem loadFile_run {f : SentFile}
    (hread : s.workspace.read (c.root.follow f.path) = .ok (Text.Utf8.encode f.content)) :
    ∃ t, c.loadFile f.path s = (.ok (some f.toChangedFile), t) := by
  have hfile : fileOf f.path (Text.Utf8.encode f.content) = .ok f.toChangedFile := by
    rw [fileOf_eq_ok f.path_given, ChangedFile.linesOfBytes, Text.Utf8.decodeLossy_encode]
    rfl
  rw [loadFile, Action.bind_run, Job.catching_run, Job.readFile_run, hread]
  dsimp only
  obtain ⟨t, hlog⟩ := (Job.Gives.log .debug source _).exists_run s
  rw [Action.bind_run_ok hlog, hfile]
  exact ⟨t, rfl⟩

theorem loadFiles_run (h : c.Holds files s) :
    ∃ t, c.loadFiles (files.map SentFile.path) s = (.ok (files.map SentFile.toChangedFile), t) := by
  induction files generalizing s with
  | nil => exact ⟨s, rfl⟩
  | cons f files ih =>
    obtain ⟨u, hload⟩ := loadFile_run (h f List.mem_cons_self).1
    have hlogs := ((c.loadFile_effects f.path).keeps_of_quiet Runner.OnlyLogs.isCalm).of_run hload
    have hmore : c.Holds files s := fun g hg => h g (List.mem_cons_of_mem _ hg)
    obtain ⟨t, hrest⟩ := ih (hmore.of_onlyLogs hlogs)
    refine ⟨t, ?_⟩
    rw [List.map_cons, loadFiles, Action.bind_run_ok hload, Action.bind_run_ok hrest]
    rfl

end Checkout

/-! ### The numbers of lines -/

theorem Number.IsShort.of_le {m n : Nat} (h : IsShort n) (hle : m ≤ n) : IsShort m := by
  have hlimit : ∀ k : Nat, IsShort k ↔ k < 10 ^ digitLimit := fun k =>
    Nat.length_toDigits_le_iff (by decide) (by decide)
  exact (hlimit m).mpr (Nat.lt_of_le_of_lt hle ((hlimit n).mp h))

namespace Rule

theorem le_of_mem_linesFrom {test : String → Bool} {first n : Nat} {lines : List String}
    (h : n ∈ linesFrom test first lines) : n < first + lines.length := by
  obtain ⟨i, line, hline, rfl, -⟩ := mem_linesFrom.mp h
  have hi := (List.getElem?_eq_some_iff.mp hline).1
  omega

/-- A rule reports only lines that a file has. -/
theorem le_of_mem_matchLines {r : Rule} {lines : List String} {n : Nat} (h : n ∈ r.matchLines lines) :
    n ≤ lines.length := by
  unfold matchLines at h
  cases hreach : r.reach with
  | everyLine =>
    simp only [hreach] at h
    have := le_of_mem_linesFrom h
    omega
  | firstLine =>
    simp only [hreach] at h
    have := le_of_mem_linesFrom (List.mem_of_mem_take h)
    omega
  | window anchor size =>
    simp only [hreach] at h
    rcases hstart : linesFrom (Text.contains · anchor) 1 lines with _ | ⟨start, more⟩
    · rw [hstart] at h
      cases h
    · simp only [hstart] at h
      have hfirst : start < 1 + lines.length :=
        le_of_mem_linesFrom (by rw [hstart]; exact List.mem_cons_self)
      have hn := le_of_mem_linesFrom (List.mem_of_mem_take h)
      rw [List.length_drop, List.length_take] at hn
      omega

end Rule

theorem line_le_of_mem_scan {rules : List Rule} {file : ChangedFile} {f : Finding}
    (h : f ∈ scan rules file) : f.line ≤ file.lines.length := by
  simp only [scan, Rule.scan, List.mem_flatMap, List.mem_filterMap] at h
  obtain ⟨rule, -, line, hline, hfinding⟩ := h
  unfold Rule.findingAt at hfinding
  split at hfinding
  · cases hfinding
    exact Rule.le_of_mem_matchLines hline
  · cases hfinding

/-- Whether the lines of a file are few enough for their numbers to be written. -/
def SentFile.HasShortNumbers (f : SentFile) : Prop :=
  Number.IsShort f.toChangedFile.lines.length

theorem isShort_of_mem_comments {rules : List Rule} {files : List SentFile}
    (hfiles : ∀ f ∈ files, f.HasShortNumbers) :
    ∀ f ∈ (aggregate rules (files.map SentFile.toChangedFile)).payload.comments,
      Number.IsShort f.line := by
  intro f hf
  rw [AnalysisResult.payload_comments, aggregate_findings, List.mem_flatMap] at hf
  obtain ⟨file, hfile, hf⟩ := hf
  obtain ⟨sent, hsent, rfl⟩ := List.mem_map.mp hfile
  exact (hfiles sent hsent).of_le (line_le_of_mem_scan hf)

namespace Reviewer

variable {r : Reviewer} {s t : Runner}

/-! ### Analysing -/

/-- The review of files, whose findings do not matter if their tests fail. -/
def reviewOf (r : Reviewer) (tested : Bool) (files : List ChangedFile) : Payload :=
  if tested then (aggregate r.rules files).payload else .failingTests

theorem logScan_gives (hwindow : r.window.isSome = true) (f : ChangedFile) (findings : List Finding) :
    (r.logScan f findings).Gives () := by
  have hcheck : r.checkWindow f = .ok () := by
    obtain ⟨size, hsize⟩ := Option.isSome_iff_exists.mp hwindow
    simp [checkWindow, hsize]
  unfold logScan
  rw [hcheck]
  split
  · exact .log _ _ _
  · refine .bind (.pure ()) ?_
    split
    · exact .log _ _ _
    · exact .pure ()

theorem logScans_gives (hwindow : r.window.isSome = true) (scans : List (ChangedFile × List Finding)) :
    (r.logScans scans).Gives () := by
  induction scans with
  | nil => exact .pure ()
  | cons scan scans ih => exact .bind (logScan_gives hwindow _ _) ih

theorem logCounts_gives (scans : List (ChangedFile × List Finding)) : (logCounts scans).Gives () := by
  induction scans with
  | nil => exact .pure ()
  | cons scan scans ih => exact .bind (.log _ _ _) ih

theorem analyze_gives (hwindow : r.window.isSome = true) (files : List ChangedFile) :
    (r.analyze files).Gives (aggregate r.rules files) := by
  rw [← r.crew.aggregate_eq]
  exact .bind (.log _ _ _) (.bind (logScans_gives hwindow _) (.bind (logCounts_gives _)
    (.bind (.log _ _ _) (.pure _))))

theorem judge_gives (result : AnalysisResult) : (judge result).Gives result.payload := by
  unfold judge
  split
  · exact .bind (.log _ _ _) (.pure _)
  · exact .bind (.log _ _ _) (.pure _)

theorem review_gives (hwindow : r.window.isSome = true) (files : List ChangedFile) (tested : Bool) :
    (r.review files tested).Gives (r.reviewOf tested files) := by
  unfold review reviewOf
  cases tested with
  | true => exact .bind (analyze_gives hwindow files) (judge_gives _)
  | false => exact .bind (.log _ _ _) (.pure _)

end Reviewer

/-! ### Storing -/

/-- Whether the files of a directory are those of a review, and no other ones. -/
structure Runner.Stored (s : Runner) (directory : Path) (payload : Payload)
    (result : Option AnalysisResult) (number : Option Int) : Prop where
  canStore : s.CanStore directory
  shelf : s.shelf directory = Artifacts.putTexts (fun _ => none) (Artifacts.fileTexts payload result number)

theorem Artifacts.write_stored {directory : Path} {s : Runner} (payload : Payload)
    (result : Option AnalysisResult) (number : Option Int) (hblank : s.workspace.IsBlank directory)
    (hlog : s.HasLog) (hwritable : IsWritable payload result number) :
    ∃ written t, write directory payload result number s = (.ok written, t) ∧
      t.Stored directory payload result number := by
  obtain ⟨written, t, hwrite⟩ := write_run payload result number hblank hlog hwritable
  have hvacant := hblank.isVacant hlog
  have hwritten := (write_eq_ok hvacant.isApart hwrite).1
  refine ⟨written, t, hwrite, hwritten.canStore, ?_⟩
  rw [hwritten.shelf, funext hvacant.files]

theorem Runner.Stored.of_leaves {s t : Runner} {directory : Path} {payload : Payload}
    {result : Option AnalysisResult} {number : Option Int} (h : s.Stored directory payload result number)
    (hleaves : s.Leaves directory.place t) : t.Stored directory payload result number :=
  ⟨hleaves.canStore h.canStore, (hleaves.shelf h.canStore).trans h.shelf⟩

namespace Artifacts

variable {directory : Path} {payload : Payload} {result : Option AnalysisResult} {number : Option Int}
  {s : Runner}

/-- Whether the files in a directory say what a review does: the verdict and the short text in a line each,
the summary, and the comments as JSON if there was an analysis. -/
structure Tell (directory : Path) (payload : Payload) (analysed : Bool) (s : Runner) : Prop where
  type : ∃ text, readText (directory.child typeFile) s = (.ok text, s) ∧
    Text.strip text = payload.verdict.name
  body : ∃ text, readText (directory.child bodyFile) s = (.ok text, s) ∧
    Text.strip text = payload.shortBody
  message : readText (directory.child messageFile) s = (.ok payload.longSummary, s)
  present : Job.isFile (directory.child commentsFile) s = (.ok analysed, s)
  comments : analysed = true → ∃ text, readText (directory.child commentsFile) s = (.ok text, s) ∧
    ∀ room : Json.Room, room.Takes 2 → Json.read room text = .ok (.list (payload.comments.map Finding.record))

theorem tell_of_stored (h : s.Stored directory payload result number) (htidy : payload.IsTidy)
    (hshort : result.isSome = true → ∀ f ∈ payload.comments, Number.IsShort f.line) :
    Tell directory payload result.isSome s := by
  obtain ⟨htype, hbody, hmessage⟩ := putTexts_always (fun _ => none) payload result number
  have hcomments := (putTexts_sometimes (fun _ => none) payload result number).1
  rw [Option.or_none] at hcomments
  rw [← h.shelf] at htype hbody hmessage hcomments
  constructor
  case type => exact ⟨_, readText_run h.canStore.ready (by decide) htype, payload.verdict.strip_line⟩
  case body =>
    have hstrip : Text.strip (Text.unified (payload.shortBody ++ "\n")) = payload.shortBody := by
      rw [Text.strip_unified_line, htidy.body]
    exact ⟨_, readText_run h.canStore.ready (by decide) hbody, hstrip⟩
  case message => rw [readText_run h.canStore.ready (by decide) hmessage, htidy.message]
  case present => rw [isFile_run h.canStore.ready (by decide), hcomments, Option.isSome_map]
  case comments =>
    intro hsome
    obtain ⟨_, rfl⟩ := Option.isSome_iff_exists.mp hsome
    have hplain := isPlain_records (hshort rfl)
    have hfeed : '\r' ∉ "\n".toList := by decide
    have hreturn := Text.not_mem_append (Json.return_not_mem_write hplain) hfeed
    refine ⟨_, readText_run h.canStore.ready (by decide) hcomments, fun room hroom => ?_⟩
    rw [Text.unified_eq_self hreturn, Json.read_write hplain (hroom.mono (depth_records_le _))]

end Artifacts

namespace Reviewer

variable {r : Reviewer} {c : Checkout} {root : String} {files : List SentFile} {paths : List String}
  {base head : Option String} {number : Option Int} {s t : Runner}

/-- Whether a machine has all that the stage needs: the files in the checkout, and a directory for the review
that is missing or empty and stays so while messages are logged. -/
structure HasAll (r : Reviewer) (c : Checkout) (files : List SentFile) (s : Runner) : Prop where
  holds : c.Holds files s
  blank : s.workspace.IsBlank r.store
  log : s.HasLog
  spared : ∀ place, r.store.IsOnWay place → ¬ s.journal.Touches place

theorem HasAll.blank_of_onlyLogs (h : r.HasAll c files s) (hlogs : s.OnlyLogs t) :
    t.workspace.IsBlank r.store :=
  hlogs.isBlank h.blank h.log h.spared

theorem collect_run (base head : Option String)
    (hmake : Checkout.make root r.settings.analysis.extensions = .ok c)
    (hlists : c.Lists files) (hpaths : ∀ path, path ∈ paths ↔ path ∈ files.map SentFile.path)
    (hholds : c.Holds files s) :
    ∃ t, r.collect ⟨root, some paths, base, head⟩ s = (.ok (files.map SentFile.toChangedFile), t) := by
  rw [collect, Action.bind_run, Job.use_run, hmake]
  dsimp only [Except.mapError]
  rw [hlists.select_eq hpaths]
  exact Checkout.loadFiles_run hholds

/-- A change whose tests passed is analysed, and its review stored. -/
theorem analyzeChange_run (hwindow : r.window.isSome = true)
    (hmake : Checkout.make root r.settings.analysis.extensions = .ok c) (hlists : c.Lists files)
    (hpaths : ∀ path, path ∈ paths ↔ path ∈ files.map SentFile.path)
    (hshort : ∀ f ∈ files, f.HasShortNumbers) (hnumber : ∀ n, number = some n → Number.IsShort n)
    (hall : r.HasAll c files s) :
    ∃ a t, r.analyzeChange ⟨root, some paths, base, head⟩ number s = (.ok a, t) ∧
      a.payload = r.reviewOf true (files.map SentFile.toChangedFile) ∧ a.result.isSome = true ∧
      t.Stored r.store a.payload a.result number := by
  obtain ⟨s₁, hcollect⟩ := collect_run base head hmake hlists hpaths hall.holds
  obtain ⟨s₂, hanalyze⟩ := (analyze_gives hwindow (files.map SentFile.toChangedFile)).exists_run s₁
  obtain ⟨s₃, hjudge⟩ :=
    (judge_gives (aggregate r.rules (files.map SentFile.toChangedFile))).exists_run s₂
  -- Up to here, only messages have been logged.
  have hcalm : ∀ {R}, Runner.IsCalm R → Runner.AllowsCommands R → R s s₃ := fun hR hcommands =>
    keeps_of_judge hR hcommands hcollect hanalyze hjudge
  have hblank := hall.blank_of_onlyLogs (hcalm Runner.OnlyLogs.isCalm Runner.OnlyLogs.allowsCommands)
  have hlog := hcalm Runner.KeepsLog.isCalm Runner.KeepsLog.allowsCommands hall.log
  obtain ⟨written, s₄, hwrite, hstored⟩ := Artifacts.write_stored
    (aggregate r.rules (files.map SentFile.toChangedFile)).payload
    (some (aggregate r.rules (files.map SentFile.toChangedFile))) number hblank hlog
    ⟨fun _ => isShort_of_mem_comments hshort, hnumber⟩
  obtain ⟨t, hdone⟩ := (Job.Gives.log .info source _).exists_run s₄
  refine ⟨⟨_, some _, written⟩, t, ?_, rfl, rfl,
    hstored.of_leaves ((Job.log_leaves _ _ _ _).of_run hdone)⟩
  rw [analyzeChange, Action.bind_run_ok hcollect, Action.bind_run_ok hanalyze, Action.bind_run_ok hjudge,
    Action.bind_run_ok hwrite, Action.bind_run_ok hdone]
  rfl

/-- The stage succeeds, whether the tests passed or not, and what it stores says what the review does. -/
theorem runAnalysis_run (tested : Bool) (hwindow : r.window.isSome = true)
    (hmake : Checkout.make root r.settings.analysis.extensions = .ok c) (hlists : c.Lists files)
    (hpaths : ∀ path, path ∈ paths ↔ path ∈ files.map SentFile.path)
    (hshort : ∀ f ∈ files, f.HasShortNumbers) (hnumber : ∀ n, number = some n → Number.IsShort n)
    (hall : r.HasAll c files s) :
    ∃ a t, r.runAnalysis tested ⟨root, some paths, base, head⟩ number s = (.ok a, t) ∧
      a.payload = r.reviewOf tested (files.map SentFile.toChangedFile) ∧
      Artifacts.Tell r.store a.payload tested t := by
  cases tested with
  | true =>
    obtain ⟨a, t, hrun, hpayload, hresult, hstored⟩ :=
      analyzeChange_run hwindow hmake hlists hpaths hshort hnumber hall
    refine ⟨a, t, hrun, hpayload, ?_⟩
    rw [hpayload] at hstored ⊢
    have htell := Artifacts.tell_of_stored hstored (AnalysisResult.payload_isTidy _) fun _ =>
      isShort_of_mem_comments hshort
    rwa [hresult] at htell
  | false =>
    obtain ⟨written, t, hwrite, hstored⟩ := Artifacts.write_stored .failingTests none number
      hall.blank hall.log ⟨fun hsome => absurd hsome (by decide), hnumber⟩
    refine ⟨⟨.failingTests, none, written⟩, t, ?_, rfl, ?_⟩
    · rw [runAnalysis, if_neg Bool.false_ne_true, rejectUntested, Action.bind_run_ok hwrite]
      rfl
    · exact Artifacts.tell_of_stored hstored Payload.failingTests_isTidy fun hsome =>
        absurd hsome (by decide)

end Reviewer

end ReviewGate

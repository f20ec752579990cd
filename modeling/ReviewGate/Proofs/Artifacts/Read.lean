import ReviewGate.Proofs.Artifacts.Write
import ReviewGate.Proofs.Effects
import ReviewGate.Proofs.Json.RoundTrip
import ReviewGate.Proofs.Text.Lines
import ReviewGate.Proofs.Text.Utf8

/-! What reading a stored review gives, file by file: texts with their line ends unified, comments with
their paths, lines and bodies, and the number of the pull request. -/
namespace ReviewGate

/-- What a comment is about, and what it says. -/
def Finding.data (f : Finding) : String × Nat × String :=
  (f.path, f.line, f.body)

def LineComment.data (c : LineComment) : String × Nat × String :=
  (c.path, c.line, c.body)

/-- There is room for the files of the program itself. -/
theorem Platform.room_takes (p : Platform) : p.room.Takes 2 :=
  Nat.le_add_left 2 p.spareLevels

namespace LineComment

/-- A stored finding is read as a comment with the same data. -/
theorem ofValue_record {f : Finding} (hpath : Text.isBlankText f.path = false) :
    ofValue f.record = .ok ⟨f.path, f.line, f.body, hpath, f.line_pos, f.body_given⟩ := by
  simp [ofValue, check, Finding.record, Value.record, Schema.entriesOf, Schema.field, Value.find?,
    Value.same, readGiven, readLine, Schema.readText, Schema.readInteger, Schema.Checked.within,
    Schema.Checked.both, Schema.Checked.report, hpath, f.body_given, f.line_pos, bind, Except.bind, pure,
    Except.pure]

end LineComment

namespace Artifacts

variable {directory : Path} {s : Runner}

theorem isPlain_record {f : Finding} (h : Number.IsShort f.line) : Json.IsPlain f.record := by
  simp [Finding.record, Value.record, Json.IsPlain, Json.ArePlainEntries, h]

theorem isPlain_records {fs : List Finding} (h : ∀ f ∈ fs, Number.IsShort f.line) :
    Json.IsPlain (.list (fs.map Finding.record)) := by
  refine Json.arePlain_iff.mpr fun v hv => ?_
  obtain ⟨f, hf, rfl⟩ := List.mem_map.mp hv
  exact isPlain_record (h f hf)

/-- Stored comments are a list of flat maps. -/
theorem depth_records_le (fs : List Finding) : Json.depth (.list (fs.map Finding.record)) ≤ 2 := by
  refine Nat.succ_le_succ (Json.depthOfItems_le fun v hv => ?_)
  obtain ⟨f, -, rfl⟩ := List.mem_map.mp hv
  exact Nat.le_refl 1

private theorem mapM_ofValue {fs : List Finding} (h : ∀ f ∈ fs, Text.isBlankText f.path = false) :
    ∃ comments, (fs.map Finding.record).mapM LineComment.ofValue = .ok comments ∧
      comments.map LineComment.data = fs.map Finding.data := by
  induction fs with
  | nil => exact ⟨[], rfl, rfl⟩
  | cons f fs ih =>
    obtain ⟨comments, hcomments, hdata⟩ := ih fun g hg => h g (by simp [hg])
    have hf := LineComment.ofValue_record (h f (by simp))
    refine ⟨⟨f.path, f.line, f.body, h f (by simp), f.line_pos, f.body_given⟩ :: comments, ?_, ?_⟩
    · rw [List.map_cons, List.mapM_cons, hf, hcomments]
      rfl
    · rw [List.map_cons, List.map_cons, hdata]
      rfl

/-- Stored comments are read back where there is room for them, none lost, added or changed. -/
theorem commentsOf_write {room : Json.Room} (hroom : room.Takes 2) {fs : List Finding}
    (hshort : ∀ f ∈ fs, Number.IsShort f.line)
    (hpath : ∀ f ∈ fs, Text.isBlankText f.path = false) :
    ∃ comments,
      commentsOf room (Text.unified (Json.write (.list (fs.map Finding.record)) ++ "\n")) = .ok comments ∧
        comments.map LineComment.data = fs.map Finding.data := by
  obtain ⟨comments, hcomments, hdata⟩ := mapM_ofValue hpath
  have hplain := isPlain_records hshort
  have hunified : Text.unified (Json.write (.list (fs.map Finding.record)) ++ "\n") =
      Json.write (.list (fs.map Finding.record)) ++ "\n" := by
    refine Text.unified_eq_self ?_
    rw [String.toList_append, List.mem_append, not_or]
    exact ⟨Json.return_not_mem_write hplain, by decide⟩
  refine ⟨comments, ?_, hdata⟩
  rw [commentsOf, hunified, Json.read_write hplain (hroom.mono (depth_records_le fs))]
  simp [hcomments, Except.mapError]

theorem isBlank_intChars {n : Int} {c : Char} (hc : c ∈ Number.intChars n) : Text.isBlank c = false := by
  rcases Number.mem_intChars hc with rfl | hc
  · decide
  · have := Number.toNat_lt_of_isDigit hc
    simp [Text.isBlank]
    omega

/-- A number that has been stored is accepted if it is positive, and refused otherwise. -/
theorem numberOf_line {n : Int} (hshort : Number.IsShort n) :
    numberOf (Text.unified (Number.intText n ++ "\n")) =
      if 0 < n then .ok n else .error (.artifact (.number pullRequestFile (Number.intText n))) := by
  have hreturn : '\r' ∉ (Number.intText n).toList := by
    rw [Number.intText, String.toList_ofList]
    intro hmem
    have := isBlank_intChars hmem
    revert this
    decide
  have hraw : Text.strip (Text.unified (Number.intText n ++ "\n")) = Number.intText n := by
    rw [Text.strip_unified_line, Text.unified_eq_self hreturn, Text.strip, Number.intText,
      String.toList_ofList, Text.stripChars_eq_self fun c hc => isBlank_intChars hc]
  simp only [numberOf, hraw, Number.readInt_intText hshort]

/-- A stored number is read back if it is positive. -/
theorem numberOf_write {n : Int} (hshort : Number.IsShort n) (hpos : 0 < n) :
    numberOf (Text.unified (Number.intText n ++ "\n")) = .ok n := by
  rw [numberOf_line hshort, if_pos hpos]

/-! ### Reading the files -/

theorem isFile_run (hs : s.workspace.IsReady directory) {name : String}
    (hname : Workspace.IsFileName name) :
    Job.isFile (directory.child name) s = (.ok (s.shelf directory name).isSome, s) := by
  rw [Job.isFile_run, hs.isFile_child hname]
  rfl

section Effects

variable {A : Effect → Prop} (path : Path)

theorem readText_effects : (readText path).HasEffects A := by
  refine .bind (Job.readFile_effects path) fun content => ?_
  cases Text.Utf8.decode content with
  | ok text => exact .pure _
  | error m => exact .throw rfl

theorem commentsOf_failsPlainly (room : Json.Room) (text : String) : FailsPlainly (commentsOf room text) := by
  unfold commentsOf
  split
  · exact .error rfl
  · exact .error rfl
  · exact .error rfl
  · exact .mapError (fun _ => rfl) _
  · exact .error rfl

theorem numberOf_failsPlainly (text : String) : FailsPlainly (numberOf text) := by
  unfold numberOf
  dsimp only
  split
  · split_ifs
    · exact .ok _
    · exact .error rfl
  · exact .error rfl

end Effects

/-- Reads the files of a stored review. -/
def readFiles (directory : Path) : Job StoredReview := do
  let type ← readRequired directory typeFile
  let body ← readRequired directory bodyFile
  let message ← readOptional directory messageFile
  let comments ← readComments directory
  Job.log .info source ("Loaded " ++ toString comments.length ++ " line-specific comments")
  let number ← readPullRequest directory
  return ⟨type, body, message, comments, number⟩

theorem read_effects {A : Effect → Prop} (directory : Path) : (read directory).HasEffects A := by
  have hrequired : ∀ name, (readRequired directory name).HasEffects A := fun name =>
    .bind (Job.isFile_effects _) fun _ =>
      .ite (.bind (readText_effects _) fun _ => .pure _) (.throw rfl)
  have hoptional : ∀ name, (readOptional directory name).HasEffects A := fun name =>
    .bind (Job.isFile_effects _) fun _ =>
      .ite (.bind (readText_effects _) fun _ => .pure _) (.pure _)
  have hcomments : (readComments directory).HasEffects A := by
    refine .bind (hoptional _) fun text => ?_
    cases text with
    | none => exact .pure _
    | some text => exact .bind .get fun s => .ofExcept (commentsOf_failsPlainly s.platform.room text)
  have hnumber : (readPullRequest directory).HasEffects A := by
    refine .bind (hoptional _) fun text => ?_
    cases text with
    | none => exact .pure _
    | some text => exact .bind (.ofExcept (numberOf_failsPlainly text)) fun _ => .pure _
  have hfiles : (readFiles directory).HasEffects A :=
    .bind (hrequired _) fun _ => .bind (hrequired _) fun _ => .bind (hoptional _) fun _ =>
      .bind hcomments fun _ => .bind (.log _ _ _) fun _ => .bind hnumber fun _ => .pure _
  exact .bind (Job.isDirectory_effects _) fun _ => .bind .get fun _ =>
    .ite (.bind (.throw rfl) fun _ => hfiles) hfiles

/-- A number that has been read is that of a pull request: it is positive. -/
theorem numberOf_pos {text : String} {n : Int} (h : numberOf text = .ok n) : 0 < n := by
  unfold numberOf at h
  dsimp only at h
  rcases hread : Number.readInt (Text.strip text) with f | k
  · rw [hread] at h
    cases h
  · simp only [hread] at h
    split_ifs at h with hpos
    cases h
    exact hpos

theorem readPullRequest_pos {directory : Path} {s t : Runner} {n : Int}
    (h : readPullRequest directory s = (.ok (some n), t)) : 0 < n := by
  rw [readPullRequest, Action.bind_eq_ok] at h
  obtain ⟨text, u, -, h⟩ := h
  cases text with
  | none => cases h
  | some text =>
    simp only [Action.bind_eq_ok, Job.ofExcept_run] at h
    obtain ⟨k, v, hnumber, hdone⟩ := h
    cases hdone
    exact numberOf_pos (Action.outcome_eq.mp hnumber).1

/-- How a directory is read: it cannot be looked at, or there is nothing in it, or its files are read. -/
theorem read_cases {directory : Path} {s t : Runner} {result : Except Fault StoredReview}
    (h : read directory s = (result, t)) :
    (∃ f, s.workspace.isDirectory directory = .error f ∧ result = .error f) ∨
      (∃ there, s.workspace.isDirectory directory = .ok there ∧
        (there = false ∨ s.workspace.hasChildren directory = false) ∧
          result = .error (.artifact (.unavailable directory.text))) ∨
        s.workspace.isDirectory directory = .ok true ∧ s.workspace.hasChildren directory = true ∧
          readFiles directory s = (result, t) := by
  simp only [read, Job.isDirectory, Action.bind_run, Action.get_run, Job.ofExcept_run] at h
  rcases hdirectory : s.workspace.isDirectory directory with f | there
  · rw [hdirectory] at h
    cases h
    exact Or.inl ⟨f, rfl, rfl⟩
  · simp only [hdirectory] at h
    split_ifs at h with hbare
    · cases h
      exact Or.inr (Or.inl ⟨there, rfl, by simpa using hbare, rfl⟩)
    · obtain ⟨rfl, hchildren⟩ : there = true ∧ s.workspace.hasChildren directory = true := by simpa using hbare
      exact Or.inr (Or.inr ⟨rfl, hchildren, h⟩)

theorem read_number_pos {directory : Path} {s t : Runner} {review : StoredReview} {n : Int}
    (h : read directory s = (.ok review, t)) (hn : review.pullRequest = some n) : 0 < n := by
  rcases read_cases h with ⟨f, -, hfault⟩ | ⟨there, -, -, hfault⟩ | ⟨-, -, hfiles⟩
  · cases hfault
  · cases hfault
  simp only [readFiles, Action.bind_eq_ok] at hfiles
  obtain ⟨type, _, -, body, _, -, message, _, -, comments, _, -, _, _, -, number, u, hnumber, hdone⟩ :=
    hfiles
  cases hdone
  obtain rfl : number = some n := hn
  exact readPullRequest_pos hnumber

theorem readText_run (hs : s.workspace.IsReady directory) {name text : String}
    (hname : Workspace.IsFileName name)
    (h : s.shelf directory name = some (Text.Utf8.encode text)) :
    readText (directory.child name) s = (.ok (Text.unified text), s) := by
  simp [readText, Job.readFile, Action.bind_run, Action.get_run, Job.ofExcept_run,
    hs.read_child hname h, Text.Utf8.decode_encode, Action.pure_run, Text.unified]

theorem readRequired_run (hs : s.workspace.IsReady directory) {name text : String}
    (hname : Workspace.IsFileName name)
    (h : s.shelf directory name = some (Text.Utf8.encode text)) :
    readRequired directory name s = (.ok (Text.strip (Text.unified text)), s) := by
  simp only [readRequired, Action.bind_run, isFile_run hs hname, h, Option.isSome_some, if_true,
    readText_run hs hname h, Action.pure_run]

theorem readOptional_run (hs : s.workspace.IsReady directory) {name : String} {text : Option String}
    (hname : Workspace.IsFileName name)
    (h : s.shelf directory name = text.map Text.Utf8.encode) :
    readOptional directory name s = (.ok (text.map Text.unified), s) := by
  cases text with
  | none =>
    rw [readOptional, Action.bind_run, isFile_run hs hname, h]
    rfl
  | some text =>
    rw [readOptional, Action.bind_run, isFile_run hs hname, h]
    simp only [Option.map_some, Option.isSome_some, if_true, Action.bind_run, readText_run hs hname h,
      Action.pure_run]

theorem hasChildren_of_shelf (hs : s.workspace.IsReady directory) {name : String} {content : List UInt8}
    (h : s.shelf directory name = some content) : s.workspace.hasChildren directory = true := by
  have hmem := Workspace.mem_of_entryAt (Workspace.contentAt_eq_some.mp h) (by simp)
  simp only [Workspace.hasChildren, hs.found]
  exact List.any_eq_true.mpr ⟨_, hmem, by simp⟩

/-- The comments of a file that may be missing. -/
def commentsIn (room : Json.Room) : Option String → Except Fault (List LineComment)
  | none => .ok []
  | some text => commentsOf room (Text.unified text)

/-- The number in a file that may be missing. -/
def numberIn : Option String → Except Fault (Option Int)
  | none => .ok none
  | some text => (numberOf (Text.unified text)).map some

theorem readComments_run (hs : s.workspace.IsReady directory) {text : Option String}
    (h : s.shelf directory commentsFile = text.map Text.Utf8.encode) :
    readComments directory s = (commentsIn s.platform.room text, s) := by
  rw [readComments, Action.bind_run_ok (readOptional_run hs (by decide) h)]
  cases text with
  | none => rfl
  | some text =>
    simp only [Option.map_some, Action.bind_run, Action.get_run, Job.ofExcept_run, commentsIn]

theorem readPullRequest_run (hs : s.workspace.IsReady directory) {text : Option String}
    (h : s.shelf directory pullRequestFile = text.map Text.Utf8.encode) :
    readPullRequest directory s = (numberIn text, s) := by
  rw [readPullRequest, Action.bind_run_ok (readOptional_run hs (by decide) h)]
  cases text with
  | none => rfl
  | some text =>
    simp only [Option.map_some, Action.bind_run, Job.ofExcept_run, numberIn]
    rcases numberOf (Text.unified text) with e | n <;> rfl

/-- A stored review is read as what its files hold, the number after a message in the log. -/
theorem read_texts (hs : s.workspace.IsReady directory) {type body : String}
    {message comments : Option String} {found : List LineComment}
    (htype : s.shelf directory typeFile = some (Text.Utf8.encode type))
    (hbody : s.shelf directory bodyFile = some (Text.Utf8.encode body))
    (hmessage : s.shelf directory messageFile = message.map Text.Utf8.encode)
    (hcomments : s.shelf directory commentsFile = comments.map Text.Utf8.encode)
    (hfound : commentsIn s.platform.room comments = .ok found) :
    read directory s = (do
      Job.log .info source ("Loaded " ++ toString found.length ++ " line-specific comments")
      let number ← readPullRequest directory
      return ⟨Text.strip (Text.unified type), Text.strip (Text.unified body), message.map Text.unified,
        found, number⟩ : Job StoredReview) s := by
  have hdir : Job.isDirectory directory s = (.ok true, s) := by
    simp [Job.isDirectory, Action.bind_run, Action.get_run, Job.ofExcept_run, hs.isDirectory]
  have hchildren := hasChildren_of_shelf hs htype
  simp only [read, Action.bind_run, hdir, Action.get_run, hchildren, Bool.not_true, Bool.or_false,
    Bool.false_eq_true, if_false, readRequired_run hs (by decide) htype,
    readRequired_run hs (by decide) hbody, readOptional_run hs (by decide) hmessage,
    readComments_run hs hcomments, hfound]

/-- A stored review is read while the log is in another directory. -/
theorem read_run (hs : s.CanStore directory) {type body : String} {message comments number : Option String}
    {found : List LineComment} {pull : Option Int}
    (htype : s.shelf directory typeFile = some (Text.Utf8.encode type))
    (hbody : s.shelf directory bodyFile = some (Text.Utf8.encode body))
    (hmessage : s.shelf directory messageFile = message.map Text.Utf8.encode)
    (hcomments : s.shelf directory commentsFile = comments.map Text.Utf8.encode)
    (hnumber : s.shelf directory pullRequestFile = number.map Text.Utf8.encode)
    (hfound : commentsIn s.platform.room comments = .ok found) (hpull : numberIn number = .ok pull) :
    ∃ t, s.SameWires t ∧ s.Leaves directory.place t ∧
      read directory s =
        (.ok ⟨Text.strip (Text.unified type), Text.strip (Text.unified body), message.map Text.unified,
          found, pull⟩, t) := by
  obtain ⟨t, hlog⟩ := (Job.Gives.log .info source
    ("Loaded " ++ toString found.length ++ " line-specific comments")).exists_run s
  have hleaves := (Job.log_leaves _ _ _ directory.place).of_run hlog
  refine ⟨t, (Job.log_wires _ _ _).of_run hlog, hleaves, ?_⟩
  have hnumber' : t.shelf directory pullRequestFile = number.map Text.Utf8.encode := by
    rw [hleaves.shelf hs, hnumber]
  rw [read_texts hs.ready htype hbody hmessage hcomments hfound, Action.bind_run_ok hlog,
    Action.bind_run, readPullRequest_run (hleaves.canStore hs).ready hnumber', hpull]
  rfl

end Artifacts

end ReviewGate

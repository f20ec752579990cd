import ReviewGate.Proofs.Logged

/-! Storing and reading a review in a directory in which the log may be too. A file that is none of the
log files holds what has been written last; one that is may hold more, but it is still a text. -/
namespace ReviewGate

namespace Runner

variable {s t : Runner} {directory : Path} {name : String}

/-- Whether a file of a directory is there and holds a text. -/
def HoldsText (s : Runner) (directory : Path) (name : String) : Prop :=
  ∃ text, s.shelf directory name = some (Text.Utf8.encode text)

theorem HasLog.of_shelf (hs : s.HasLog) (hjournal : t.journal = s.journal)
    (hgrows : s.workspace.Grows t.workspace)
    (hstays : ∀ place content, s.workspace.contentAt? place = some content →
      ∃ more, t.workspace.contentAt? place = some more) : t.HasLog := by
  intro layout f hfile
  obtain ⟨content, hcontent⟩ := hs layout f (hjournal ▸ hfile)
  obtain ⟨-, hentry⟩ := LogFile.content_eq_some hcontent
  obtain ⟨more, hmore⟩ := hstays _ content (Workspace.contentAt_eq_some.mpr hentry)
  exact ⟨more, LogFile.content_of_grows hcontent hgrows hmore⟩

end Runner

/-- A log file that holds a text goes on to hold one. -/
theorem Job.log_text {s : Runner} {layout : String} {f : LogFile} {text : String}
    (hfile : s.journal.file = some (layout, f))
    (htext : LogFile.content? s.workspace f.path = some (Text.Utf8.encode text)) (level : LogLevel)
    (source message : String) :
    ∃ more, LogFile.content? (log level source message s).2.workspace f.path =
      some (Text.Utf8.encode more) := by
  obtain ⟨errors, w, hrun, rfl | ⟨layout', f', line, hfile', rfl⟩⟩ := log_run level source message s
  all_goals rw [hrun]
  · exact ⟨text, htext⟩
  · obtain ⟨rfl, rfl⟩ : layout = layout' ∧ f = f' := by simpa using hfile.symm.trans hfile'
    exact LogFile.text_append htext line

namespace Artifacts

variable {directory : Path} {s t u : Runner} {texts : List (String × String)}

theorem putTexts_congr {shelf shelf' : String → Option (List UInt8)} {name : String}
    (h : shelf name = shelf' name) : putTexts shelf texts name = putTexts shelf' texts name := by
  rcases putTexts_cases texts name with ⟨content, hput⟩ | hput
  · rw [hput, hput]
  · rw [hput, hput, h]

/-- Whether texts have been written under their names in a directory while the log went on. -/
structure LaysOut (directory : Path) (texts : List (String × String)) (s t : Runner) : Prop where
  journal : t.journal = s.journal
  hasLog : t.HasLog
  ready : t.workspace.IsReady directory
  spared : ∀ name, ¬ s.journal.Touches (directory.place ++ [name]) →
    t.shelf directory name = putTexts (s.shelf directory) texts name
  text : ∀ name, LogFile.IsUnnumbered name → name ∈ texts.map Prod.fst ∨ s.HoldsText directory name →
    t.HoldsText directory name

theorem LaysOut.append {texts' : List (String × String)} (h : LaysOut directory texts s t)
    (h' : LaysOut directory texts' t u) : LaysOut directory (texts ++ texts') s u where
  journal := h'.journal.trans h.journal
  hasLog := h'.hasLog
  ready := h'.ready
  spared name hspared := by
    rw [h'.spared name (h.journal ▸ hspared), putTexts_append]
    exact putTexts_congr (h.spared name hspared)
  text name hname hold := by
    refine h'.text name hname ?_
    rw [List.map_append, List.mem_append, or_assoc] at hold
    rcases hold with hfirst | hlater | hbefore
    · exact Or.inr (h.text name hname (Or.inl hfirst))
    · exact Or.inl hlater
    · exact Or.inr (h.text name hname (Or.inr hbefore))

/-- A message in the log leaves the texts in a directory as they are, or adds to one of them. -/
theorem log_laysOut (hlog : s.HasLog) (hready : s.workspace.IsReady directory) (level : LogLevel)
    (source message : String) : LaysOut directory [] s (Job.log level source message s).2 := by
  have honly := Runner.OnlyLogs.isCalm.log level source message s
  refine ⟨honly.journal, Job.log_keepsLog level source message s hlog, hready.grows honly.files.grows,
    fun name hspared => ?_, fun name hname hold => ?_⟩
  · show Workspace.contentAt? _ _ = Workspace.contentAt? _ _
    rw [Workspace.contentAt?, honly.files.entry _ name hready.isOpen hspared]
    rfl
  · obtain ⟨text, htext⟩ : s.HoldsText directory name := by simpa using hold
    by_cases hspared : s.journal.Touches (directory.place ++ [name])
    · -- The file is the log file, to which a line is added.
      obtain ⟨layout, f, hfile, htouches⟩ := hspared
      obtain ⟨content, hcontent⟩ := hlog layout f hfile
      have hplace := htouches.eq_of_isUnnumbered hcontent hname
      obtain rfl : content = Text.Utf8.encode text := by
        have hentry := (LogFile.content_eq_some hcontent).2
        rw [hplace, Workspace.contentAt_eq_some.mp htext] at hentry
        cases hentry
        rfl
      obtain ⟨more, hmore⟩ := Job.log_text hfile hcontent level source message
      have hentry := (LogFile.content_eq_some hmore).2
      rw [hplace] at hentry
      exact ⟨more, Workspace.contentAt_eq_some.mpr hentry⟩
    · refine ⟨text, ?_⟩
      rw [← htext, Runner.shelf, Workspace.contentAt?, honly.files.entry _ name hready.isOpen hspared]
      rfl

theorem LaysOut.isWriting (directory : Path) :
    IsWriting directory fun s texts _ t =>
      s.HasLog → s.workspace.IsReady directory → LaysOut directory texts s t where
  nil s hlog hready := ⟨rfl, hlog, hready, fun _ _ => rfl, fun _ _ hold => by simpa using hold⟩
  append h h' hlog hready := (h hlog hready).append (h' (h hlog hready).hasLog (h hlog hready).ready)
  log level source message s hlog hready := log_laysOut hlog hready level source message
  file {s t name text u} hname h hlog hready := by
    have hput := writeFile_child hready hname h
    refine ⟨hput.journal, hlog.of_shelf hput.journal hput.grows fun place content hcontent => ?_,
      hready.grows hput.grows, fun other _ => congrFun hput.shelf other, fun other _ hold => ?_⟩
    · by_cases hplace : place = directory.place ++ [name]
      · exact ⟨_, hplace ▸ hput.here⟩
      · exact ⟨content, (hput.elsewhere place hplace).trans hcontent⟩
    · by_cases hother : other = name
      · exact ⟨text, hother ▸ hput.here⟩
      · obtain ⟨before, hbefore⟩ : s.HoldsText directory other := by simpa [hother] using hold
        exact ⟨before, (hput.elsewhere _ (by simpa using hother)).trans hbefore⟩

/-! ### What can be read -/

/-- The files that are read as more than texts. -/
def checkedFiles : List String :=
  [typeFile, commentsFile, pullRequestFile]

/-- Whether the log stays away from the files that are read as more than texts. -/
def SparesChecked (directory : Path) (j : Journal) : Prop :=
  ∀ name ∈ checkedFiles, ¬ j.Touches (directory.place ++ [name])

/-- Whether a directory holds a review as it has been stored, the number of the pull request with it; the
texts of the review may have become longer. The comments can be read wherever there is room for them. -/
structure Holds (directory : Path) (number : Option Int) (s : Runner) : Prop where
  ready : s.workspace.IsReady directory
  type : ∃ v : Verdict, s.shelf directory typeFile = some (Text.Utf8.encode (v.name ++ "\n"))
  body : s.HoldsText directory bodyFile
  message : s.HoldsText directory messageFile
  comments : ∃ text, s.shelf directory commentsFile = Option.map Text.Utf8.encode text ∧
    ∀ p : Platform, ∃ found, commentsIn p.room text = .ok found
  pull : s.shelf directory pullRequestFile =
    (number.map fun n => Number.intText n ++ "\n").map Text.Utf8.encode
  short : ∀ n, number = some n → Number.IsShort n

variable {payload : Payload} {result : Option AnalysisResult} {number : Option Int}

theorem Holds.congr (h : Holds directory number s) (hfiles : t.workspace = s.workspace) :
    Holds directory number t := by
  obtain ⟨hready, htype, hbody, hmessage, hcomments, hpull, hshort⟩ := h
  rw [← hfiles] at hready
  simp only [Runner.HoldsText, ← Runner.shelf_congr hfiles] at htype hbody hmessage hcomments hpull
  exact ⟨hready, htype, hbody, hmessage, hcomments, hpull, hshort⟩

/-- A review that has been stored where none was before can be read, whether or not the log goes on in the
same directory. -/
theorem holds_of_write (hlog : s.HasLog) (hspared : SparesChecked directory s.journal)
    (hcomments : s.shelf directory commentsFile = none)
    (hnumber : s.shelf directory pullRequestFile = none)
    (hpaths : result.isSome → ∀ f ∈ payload.comments, Text.isBlankText f.path = false)
    {written : List Path} (h : write directory payload result number s = (.ok written, t)) :
    t.journal = s.journal ∧ t.HasLog ∧ Holds directory number t := by
  obtain ⟨u, s₁, hdirs, hlays, hlines, hshort⟩ := (LaysOut.isWriting directory).review h
  obtain ⟨w, rfl, hready, hadds⟩ := makeDirectories_ok hdirs
  have hlog₁ : Runner.HasLog { s with workspace := w } :=
    hlog.of_shelf rfl hadds.grows fun place content hcontent =>
      ⟨content, (hadds.contentAt place).trans hcontent⟩
  have hlays := hlays hlog₁ hready
  have hshelf : Runner.shelf { s with workspace := w } directory = s.shelf directory :=
    funext fun name => hadds.contentAt _
  have hput : ∀ name ∈ checkedFiles, t.shelf directory name =
      putTexts (s.shelf directory) (fileTexts payload result number) name := fun name hname => by
    rw [hlays.spared name (hspared name hname), hshelf]
  have hwritten : ∀ name ∈ [typeFile, bodyFile, messageFile],
      name ∈ (fileTexts payload result number).map Prod.fst := by
    simp [fileTexts]
  obtain ⟨hcomments', hnumber'⟩ := putTexts_sometimes (s.shelf directory) payload result number
  refine ⟨hlays.journal, hlays.hasLog, hlays.ready, ⟨payload.verdict, ?_⟩,
    hlays.text _ (by decide) (Or.inl (hwritten _ (by decide))),
    hlays.text _ (by decide) (Or.inl (hwritten _ (by decide))), ?_, ?_, hshort⟩
  · rw [hput _ (by decide), (putTexts_always _ _ _ _).1]
  · rw [hput _ (by decide), hcomments', hcomments, Option.or_none]
    cases result with
    | none => exact ⟨none, rfl, fun _ => ⟨[], rfl⟩⟩
    | some r =>
      refine ⟨some _, rfl, fun p => ?_⟩
      obtain ⟨found, hfound, -⟩ := commentsOf_write p.room_takes (hlines rfl) (hpaths rfl)
      exact ⟨found, hfound⟩
  · rw [hput _ (by decide), hnumber', hnumber, Option.or_none, Option.map_map]
    rfl

/-- A review that is held is read, unless the number with it is not positive. -/
theorem Holds.read (h : Holds directory number s)
    (hspared : ¬ s.journal.Touches (directory.place ++ [pullRequestFile])) :
    ∃ review t, (∃ v, Verdict.ofText? review.reviewType = some v) ∧ review.pullRequest = number ∧
      Artifacts.read directory s =
        (match number with
          | none => .ok review
          | some n =>
            if 0 < n then .ok review
            else .error (.artifact (.number pullRequestFile (Number.intText n))), t) := by
  obtain ⟨v, htype⟩ := h.type
  obtain ⟨body, hbody⟩ := h.body
  obtain ⟨message, hmessage⟩ : ∃ message, s.shelf directory messageFile =
    Option.map Text.Utf8.encode (some message) := h.message
  obtain ⟨text, hcomments, hcommentsIn⟩ := h.comments
  obtain ⟨found, hfound⟩ := hcommentsIn s.platform
  obtain ⟨t, hlogged⟩ := (Job.Gives.log .info source
    ("Loaded " ++ toString found.length ++ " line-specific comments")).exists_run s
  have honly := (Runner.OnlyLogs.isCalm.log _ _ _).of_run hlogged
  have hnumber : t.shelf directory pullRequestFile =
      (number.map fun n => Number.intText n ++ "\n").map Text.Utf8.encode := by
    rw [Runner.shelf, Workspace.contentAt?, honly.files.entry _ _ h.ready.isOpen hspared]
    exact h.pull
  refine ⟨⟨v.name, Text.strip (Text.unified body), some (Text.unified message), found, number⟩, t,
    ⟨v, v.ofText_name⟩, rfl, ?_⟩
  rw [read_texts h.ready htype hbody hmessage hcomments hfound,
    Action.bind_run_ok hlogged, Action.bind_run,
    readPullRequest_run (h.ready.grows honly.files.grows) hnumber, v.strip_line]
  cases number with
  | none => rfl
  | some n =>
    simp only [Option.map_some, numberIn, numberOf_line (h.short n rfl)]
    split_ifs <;> rfl

end Artifacts

end ReviewGate

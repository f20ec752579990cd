import Mathlib.Logic.Function.Basic
import ReviewGate.Artifacts
import ReviewGate.Proofs.Job

/-! What storing a review writes: the texts of its files, each under its name in one directory. The
other files of the directory stay as they were. -/
namespace ReviewGate

namespace Runner

/-- The files in a directory, by their names. -/
def shelf (s : Runner) (directory : Path) (name : String) : Option (List UInt8) :=
  s.workspace.contentAt? (directory.place ++ [name])

theorem shelf_congr {s t : Runner} {directory : Path} (h : t.workspace = s.workspace) :
    t.shelf directory = s.shelf directory := by
  funext name
  simp only [Runner.shelf, h]

/-- Whether files can be stored in a directory and stay there: it is there, and the log is not in it. -/
structure CanStore (s : Runner) (directory : Path) : Prop where
  ready : s.workspace.IsReady directory
  apart : s.journal.IsApart directory.place

theorem Leaves.canStore {s t : Runner} {directory : Path} (h : s.Leaves directory.place t)
    (hs : s.CanStore directory) : t.CanStore directory :=
  ⟨hs.ready.grows h.grows, h.journal ▸ hs.apart⟩

theorem Leaves.shelf {s t : Runner} {directory : Path} (h : s.Leaves directory.place t)
    (hs : s.CanStore directory) : t.shelf directory = s.shelf directory := by
  funext name
  simp only [Runner.shelf, Workspace.contentAt?, h.entry hs.apart hs.ready.isOpen name]

/-- Whether no files are in a directory, and the log file, if there is one, is open. -/
structure IsVacant (s : Runner) (directory : Path) : Prop where
  files : ∀ name, s.shelf directory name = none
  log : s.HasLog

theorem IsVacant.isApart {s : Runner} {directory : Path} (h : s.IsVacant directory) :
    s.journal.IsApart directory.place := by
  intro layout f hfile heq
  obtain ⟨content, hcontent⟩ := h.log layout f hfile
  obtain ⟨name, -, -, hentry⟩ := LogFile.exists_child_of_content hcontent
  have hnone := h.files name
  rw [heq] at hentry
  rw [Runner.shelf, Workspace.contentAt_eq_some.mpr hentry] at hnone
  cases hnone

theorem IsVacant.of_leaves {s t : Runner} {directory : Path} (h : s.IsVacant directory)
    (hleaves : s.Leaves directory.place t) (hlog : t.HasLog) : t.IsVacant directory :=
  ⟨fun name => hleaves.vacant h.isApart name (h.files name), hlog⟩

/-- Whether two machines differ at most in the files of a directory, if they have no log file. -/
def SameElsewhere (directory : Path) (s t : Runner) : Prop :=
  s.journal.file = none →
    t.journal.file = none ∧
      ∀ place, (∀ name, place ≠ directory.place ++ [name]) →
        t.workspace.contentAt? place = s.workspace.contentAt? place

theorem SameElsewhere.trans {directory : Path} {s t u : Runner} (h : s.SameElsewhere directory t)
    (h' : t.SameElsewhere directory u) : s.SameElsewhere directory u := by
  intro hfile
  obtain ⟨hfile, hsame⟩ := h hfile
  obtain ⟨hfile, hsame'⟩ := h' hfile
  exact ⟨hfile, fun place hplace => (hsame' place hplace).trans (hsame place hplace)⟩

theorem SameDisk.sameElsewhere {s t : Runner} (h : s.SameDisk t) (directory : Path) :
    s.SameElsewhere directory t := by
  intro hfile
  obtain ⟨hfile, hdisk⟩ := h hfile
  exact ⟨hfile, fun place _ => by rw [hdisk]⟩

end Runner

namespace Artifacts

/-- The files of a directory after texts have been written under the given names. -/
def putTexts (shelf : String → Option (List UInt8)) (texts : List (String × String)) :
    String → Option (List UInt8) :=
  texts.foldl (fun shelf (name, text) => Function.update shelf name (some (Text.Utf8.encode text))) shelf

/-- The files with the findings of an analysis. -/
def detailTexts (payload : Payload) : Option AnalysisResult → List (String × String)
  | none => []
  | some r =>
    [(commentsFile, Json.write (.list (payload.comments.map Finding.record)) ++ "\n"),
      (flagsFile, Summary.flags r)]

/-- The file with the number of the pull request. -/
def numberTexts : Option Int → List (String × String)
  | none => []
  | some n => [(pullRequestFile, Number.intText n ++ "\n")]

/-- The files of a review, in the order in which they are written. -/
def fileTexts (payload : Payload) (result : Option AnalysisResult) (number : Option Int) :
    List (String × String) :=
  [(typeFile, payload.verdict.name ++ "\n"), (bodyFile, payload.shortBody ++ "\n"),
    (messageFile, payload.longSummary)] ++ detailTexts payload result ++ numberTexts number

/-- Whether the numbers of a review are short enough to be written. -/
structure IsWritable (payload : Payload) (result : Option AnalysisResult) (number : Option Int) :
    Prop where
  lines : result.isSome → ∀ f ∈ payload.comments, Number.IsShort f.line
  number : ∀ n, number = some n → Number.IsShort n

variable {directory : Path} {s t : Runner}

theorem putTexts_append (shelf : String → Option (List UInt8)) (texts texts' : List (String × String)) :
    putTexts shelf (texts ++ texts') = putTexts (putTexts shelf texts) texts' :=
  List.foldl_append

/-- Whether a job that succeeded has written texts under their names in a directory, and no other
files. -/
structure HasWritten (directory : Path) (texts : List (String × String)) (s : Runner)
    (written : List Path) (t : Runner) : Prop where
  paths : written = texts.map fun text => directory.child text.1
  canStore : t.CanStore directory
  shelf : t.shelf directory = putTexts (s.shelf directory) texts
  elsewhere : s.SameElsewhere directory t
  wires : s.SameWires t

theorem HasWritten.nil (hs : s.CanStore directory) : HasWritten directory [] s [] s where
  paths := rfl
  canStore := hs
  shelf := rfl
  elsewhere := (Runner.SameDisk.refl s).sameElsewhere directory
  wires := .refl s

theorem HasWritten.append {u : Runner} {texts texts' : List (String × String)} {written written' : List Path}
    (h : HasWritten directory texts s written t) (h' : HasWritten directory texts' t written' u) :
    HasWritten directory (texts ++ texts') s (written ++ written') u where
  paths := by rw [h.paths, h'.paths, List.map_append]
  canStore := h'.canStore
  shelf := by rw [h'.shelf, h.shelf, putTexts_append]
  elsewhere := h.elsewhere.trans h'.elsewhere
  wires := h.wires.trans h'.wires

/-- What is needed of a relation between a machine, texts that have been written under their names in a
directory, the paths to them and the machine afterwards, for it to hold of the storing of a review: it
holds of each step, and of steps one after the other. -/
structure IsWriting (directory : Path)
    (P : Runner → List (String × String) → List Path → Runner → Prop) : Prop where
  nil : ∀ s, P s [] [] s
  append : ∀ {s t u texts texts' written written'}, P s texts written t → P t texts' written' u →
    P s (texts ++ texts') (written ++ written') u
  log : ∀ level source message, (Job.log level source message).Keeps fun s t => P s [] [] t
  file : ∀ {s t name text u}, Workspace.IsFileName name →
    Job.writeFile (directory.child name) (Text.Utf8.encode text) s = (.ok u, t) →
    P s [(name, text)] [directory.child name] t

/-- Whether a file has been written under its name in a directory, and no other one. -/
structure PutsFile (directory : Path) (name : String) (content : List UInt8) (s t : Runner) : Prop where
  journal : t.journal = s.journal
  grows : s.workspace.Grows t.workspace
  here : t.workspace.contentAt? (directory.place ++ [name]) = some content
  elsewhere : ∀ place, place ≠ directory.place ++ [name] →
    t.workspace.contentAt? place = s.workspace.contentAt? place
  wires : s.SameWires t

theorem PutsFile.shelf {name text : String} (h : PutsFile directory name (Text.Utf8.encode text) s t) :
    t.shelf directory = putTexts (s.shelf directory) [(name, text)] := by
  funext other
  by_cases hother : other = name
  · subst hother
    simp [Runner.shelf, h.here, putTexts]
  · have hne : directory.place ++ [other] ≠ directory.place ++ [name] := by simpa using hother
    simp [Runner.shelf, h.elsewhere _ hne, putTexts, hother]

theorem writeFile_child {name : String} {content : List UInt8} {u : Unit}
    (hready : s.workspace.IsReady directory) (hname : Workspace.IsFileName name)
    (h : Job.writeFile (directory.child name) content s = (.ok u, t)) :
    PutsFile directory name content s t := by
  obtain ⟨w, hw, rfl⟩ := Job.writeFile_eq_ok h
  obtain ⟨place, hplace, hentry, rfl⟩ := Workspace.write_eq_ok hw
  obtain rfl : directory.place ++ [name] = place := by
    rw [hready.locate_child hname] at hplace
    exact Except.ok.inj hplace
  refine ⟨rfl, Workspace.grows_put hentry _, ?_, fun place hne => ?_, ⟨rfl, rfl, rfl, rfl, rfl, rfl⟩⟩
  · rw [Workspace.contentAt?, Workspace.entryAt_put_self hentry]
  · rw [Workspace.contentAt?, Workspace.entryAt_put_ne _ hne, Workspace.contentAt?]

/-- Where files can be stored, the steps of storing a review write its files. -/
theorem HasWritten.isWriting (directory : Path) :
    IsWriting directory fun s texts written t =>
      s.CanStore directory → HasWritten directory texts s written t where
  nil _ hs := .nil hs
  append h h' hs := (h hs).append (h' (h hs).canStore)
  log level source message s hs := by
    have hleaves := Job.log_leaves level source message directory.place s
    exact ⟨rfl, hleaves.canStore hs, hleaves.shelf hs,
      (Job.log_disk level source message s).sameElsewhere directory, Job.log_wires level source message s⟩
  file {s t name text u} hname h hs := by
    have hput := writeFile_child hs.ready hname h
    exact ⟨rfl, ⟨hs.ready.grows hput.grows, hput.journal ▸ hs.apart⟩, hput.shelf,
      fun hfile => ⟨hput.journal ▸ hfile, fun place hne => hput.elsewhere place (hne name)⟩, hput.wires⟩

private theorem mapM_writeInt {fs : List Finding} {texts : List String}
    (h : fs.mapM (fun f => Number.writeInt f.line) = .ok texts) : ∀ f ∈ fs, Number.IsShort f.line := by
  induction fs generalizing texts with
  | nil => simp
  | cons f fs ih =>
    rw [List.mapM_cons] at h
    rcases hf : Number.writeInt f.line with e | text
    · rw [hf] at h
      cases h
    · rcases hfs : fs.mapM (fun f => Number.writeInt f.line) with e | more
      · rw [hf, hfs] at h
        cases h
      · intro g hg
        rcases List.mem_cons.mp hg with rfl | hg
        · exact (Number.writeInt_eq_ok hf).1
        · exact ih hfs g hg

/-- Comments are written as the JSON of their list, unless a line number is too long. -/
theorem commentsText_eq_ok {comments : List Finding} {text : String}
    (h : commentsText comments = .ok text) :
    (∀ f ∈ comments, Number.IsShort f.line) ∧
      text = Json.write (.list (comments.map Finding.record)) ++ "\n" := by
  unfold commentsText at h
  rcases hm : comments.mapM (fun c => Number.writeInt c.line) with e | texts
  · rw [hm] at h
    cases h
  · rw [hm] at h
    exact ⟨mapM_writeInt hm, (Except.ok.inj h).symm⟩

/-- The part of storing a review that depends on whether there was an analysis. -/
def writeDetails (directory : Path) (payload : Payload) : Option AnalysisResult → Job (List Path)
  | none => pure []
  | some r => writeComments directory payload r

/-- The part of storing a review that depends on whether the pull request is known. -/
def writeNumber (directory : Path) : Option Int → Job (List Path)
  | none => pure []
  | some n => writePullRequest directory n

theorem write_eq (directory : Path) (payload : Payload) (result : Option AnalysisResult)
    (number : Option Int) :
    write directory payload result number = (do
      Job.makeDirectories directory
      let type ← writeText directory typeFile (payload.verdict.name ++ "\n")
      let body ← writeText directory bodyFile (payload.shortBody ++ "\n")
      let message ← writeText directory messageFile payload.longSummary
      let details ← writeDetails directory payload result
      let paths ← writeNumber directory number
      let written := [type, body, message] ++ details ++ paths
      Job.log .info source
        ("Wrote " ++ toString written.length ++ " artifacts to " ++ directory.text)
      return written) := by
  cases result <;> cases number <;> rfl

theorem makeDirectories_ok {u : Unit} (h : Job.makeDirectories directory s = (.ok u, t)) :
    ∃ w, t = { s with workspace := w } ∧ w.IsReady directory ∧ s.workspace.AddsDirectories w := by
  have hadds := Workspace.makeDirectories_adds directory s.workspace
  rw [Job.makeDirectories_run] at h
  rcases hrun : Workspace.makeDirectories directory s.workspace with ⟨_ | _, w⟩
  · rw [hrun] at h
    cases h
  · rw [hrun] at h hadds
    cases h
    exact ⟨w, rfl, Workspace.makeDirectories_ready hrun, hadds⟩

/-- Making the directory of a review leaves its files as they were. -/
theorem makeDirectories_eq_ok (hapart : s.journal.IsApart directory.place) {u : Unit}
    (h : Job.makeDirectories directory s = (.ok u, t)) : HasWritten directory [] s [] t := by
  obtain ⟨w, rfl, hready, hadds⟩ := makeDirectories_ok h
  exact ⟨rfl, ⟨hready, hapart⟩, funext fun name => hadds.contentAt _,
    fun hfile => ⟨hfile, fun place _ => hadds.contentAt place⟩, ⟨rfl, rfl, rfl, rfl, rfl, rfl⟩⟩

namespace IsWriting

variable {P : Runner → List (String × String) → List Path → Runner → Prop} (hP : IsWriting directory P)
include hP

/-- Jobs that only log write no texts. -/
theorem isCalm : Runner.IsCalm fun s t => P s [] [] t :=
  ⟨hP.nil, fun h h' => hP.append h h', hP.log⟩

theorem text {name text : String} {path : Path} (hname : Workspace.IsFileName name)
    (h : writeText directory name text s = (.ok path, t)) : P s [(name, text)] [path] t := by
  simp only [writeText, Action.bind_eq_ok] at h
  obtain ⟨_, s₁, hwrite, _, s₂, hlog, hpure⟩ := h
  cases hpure
  exact hP.append (hP.file hname hwrite) ((hP.log _ _ _).of_run hlog)

theorem details {payload : Payload} {result : Option AnalysisResult} {written : List Path}
    (h : writeDetails directory payload result s = (.ok written, t)) :
    P s (detailTexts payload result) written t ∧
      (result.isSome → ∀ f ∈ payload.comments, Number.IsShort f.line) := by
  cases result with
  | none =>
    cases h
    exact ⟨hP.nil s, fun h => by cases h⟩
  | some r =>
    simp only [writeDetails, writeComments, Action.bind_eq_ok, Job.ofExcept_run] at h
    obtain ⟨text, s₁, htext, comments, s₂, hcomments, flags, s₃, hflags, hpure⟩ := h
    cases hpure
    rcases htext' : commentsText payload.comments with e | text'
    · rw [htext'] at htext
      cases htext
    · rw [htext'] at htext
      cases htext
      obtain ⟨hshort, rfl⟩ := commentsText_eq_ok htext'
      have hboth := hP.append (hP.text (by decide) hcomments) (hP.text (by decide) hflags)
      exact ⟨hboth, fun _ => hshort⟩

theorem number {number : Option Int} {written : List Path}
    (h : writeNumber directory number s = (.ok written, t)) :
    P s (numberTexts number) written t ∧ ∀ n, number = some n → Number.IsShort n := by
  cases number with
  | none =>
    cases h
    exact ⟨hP.nil s, fun n h => by cases h⟩
  | some n =>
    simp only [writeNumber, writePullRequest, Action.bind_eq_ok, Job.ofExcept_run] at h
    obtain ⟨text, s₁, htext, path, s₂, hpath, hpure⟩ := h
    cases hpure
    rcases htext' : Number.writeInt n with e | text'
    · rw [htext'] at htext
      cases htext
    · rw [htext'] at htext
      cases htext
      obtain ⟨hshort, rfl⟩ := Number.writeInt_eq_ok htext'
      exact ⟨hP.text (by decide) hpath, fun m hm => Option.some.inj hm ▸ hshort⟩

/-- Once the directory of a review has been made, its files are written. -/
theorem review {payload : Payload} {result : Option AnalysisResult} {number : Option Int}
    {written : List Path} (h : write directory payload result number s = (.ok written, t)) :
    ∃ u s₁, Job.makeDirectories directory s = (.ok u, s₁) ∧
      P s₁ (fileTexts payload result number) written t ∧ IsWritable payload result number := by
  rw [write_eq] at h
  simp only [Action.bind_eq_ok] at h
  obtain ⟨u, s₁, hdirs, type, s₂, htype, body, s₃, hbody, message, s₄, hmessage, details, s₅, hdetails,
    paths, s₆, hpaths, _, s₇, hlog, hpure⟩ := h
  cases hpure
  obtain ⟨hdetails, hlines⟩ := hP.details hdetails
  obtain ⟨hpaths, hnumber⟩ := hP.number hpaths
  have htype := hP.text (by decide) htype
  have hbody := hP.text (by decide) hbody
  have hmessage := hP.text (by decide) hmessage
  have hlog := (hP.log _ _ _).of_run hlog
  have hfiles := hP.append (hP.append (hP.append (hP.append htype hbody) hmessage) hdetails) hpaths
  have hall := hP.append hfiles hlog
  rw [List.append_nil, List.append_nil] at hall
  exact ⟨u, s₁, hdirs, hall, hlines, hnumber⟩

end IsWriting

/-- Storing a review writes its files and no other ones. -/
theorem write_eq_ok {payload : Payload} {result : Option AnalysisResult} {number : Option Int}
    {written : List Path} (hapart : s.journal.IsApart directory.place)
    (h : write directory payload result number s = (.ok written, t)) :
    HasWritten directory (fileTexts payload result number) s written t ∧
      IsWritable payload result number := by
  obtain ⟨u, s₁, hdirs, hwritten, hwritable⟩ := (HasWritten.isWriting directory).review h
  have hdirs := makeDirectories_eq_ok hapart hdirs
  exact ⟨hdirs.append (hwritten hdirs.canStore), hwritable⟩

/-- Some files are written for every review. -/
theorem putTexts_always (shelf : String → Option (List UInt8)) (payload : Payload)
    (result : Option AnalysisResult) (number : Option Int) :
    putTexts shelf (fileTexts payload result number) typeFile =
        some (Text.Utf8.encode (payload.verdict.name ++ "\n")) ∧
      putTexts shelf (fileTexts payload result number) bodyFile =
        some (Text.Utf8.encode (payload.shortBody ++ "\n")) ∧
      putTexts shelf (fileTexts payload result number) messageFile =
        some (Text.Utf8.encode payload.longSummary) := by
  cases result <;> cases number <;>
    simp [fileTexts, detailTexts, numberTexts, putTexts, typeFile, bodyFile, messageFile, commentsFile,
      flagsFile, pullRequestFile]

/-- Other files are written for some reviews only. -/
theorem putTexts_sometimes (shelf : String → Option (List UInt8)) (payload : Payload)
    (result : Option AnalysisResult) (number : Option Int) :
    putTexts shelf (fileTexts payload result number) commentsFile =
        (result.map fun _ => Text.Utf8.encode
          (Json.write (.list (payload.comments.map Finding.record)) ++ "\n")).or (shelf commentsFile) ∧
      putTexts shelf (fileTexts payload result number) pullRequestFile =
        (number.map fun n => Text.Utf8.encode (Number.intText n ++ "\n")).or (shelf pullRequestFile) := by
  cases result <;> cases number <;>
    simp [fileTexts, detailTexts, numberTexts, putTexts, typeFile, bodyFile, messageFile, commentsFile,
      flagsFile, pullRequestFile]

/-- A text that is written does not depend on what was there before. -/
theorem putTexts_cases (texts : List (String × String)) (name : String) :
    (∃ content, ∀ shelf, putTexts shelf texts name = some content) ∨
      ∀ shelf, putTexts shelf texts name = shelf name := by
  induction texts with
  | nil => exact Or.inr fun _ => rfl
  | cons text texts ih =>
    rcases ih with ⟨content, h⟩ | h
    · exact Or.inl ⟨content, fun shelf => h _⟩
    · by_cases hname : name = text.1
      · refine Or.inl ⟨Text.Utf8.encode text.2, fun shelf => ?_⟩
        have hput := h (Function.update shelf text.1 (some (Text.Utf8.encode text.2)))
        rw [hname, Function.update_self] at hput
        rw [hname]
        exact hput
      · refine Or.inr fun shelf => ?_
        have hput := h (Function.update shelf text.1 (some (Text.Utf8.encode text.2)))
        rw [Function.update_of_ne hname] at hput
        exact hput

end Artifacts

/-- Whether texts have been written into a directory, and no other files. -/
structure Runner.Stores (directory : Path) (texts : List (String × String)) (s t : Runner) : Prop where
  shelf : t.shelf directory = Artifacts.putTexts (s.shelf directory) texts
  elsewhere : ∀ place, (∀ name, place ≠ directory.place ++ [name]) →
    t.workspace.contentAt? place = s.workspace.contentAt? place

namespace Runner.Stores

variable {directory : Path} {texts : List (String × String)} {s t s' t' : Runner}

theorem congr (h : s.Stores directory texts t) (hs : s'.workspace = s.workspace)
    (ht : t'.workspace = t.workspace) : s'.Stores directory texts t' := by
  refine ⟨?_, fun place hplace => by rw [hs, ht, h.elsewhere place hplace]⟩
  rw [shelf_congr hs, shelf_congr ht, h.shelf]

/-- Where the same texts have been written on two machines, each file is the same on both of them, or
as it was on each of them. -/
theorem same_files (h : s.Stores directory texts t) (h' : s'.Stores directory texts t')
    (place : Location) :
    t.workspace.contentAt? place = t'.workspace.contentAt? place ∨
      (t.workspace.contentAt? place = s.workspace.contentAt? place ∧
        t'.workspace.contentAt? place = s'.workspace.contentAt? place) := by
  by_cases hplace : ∃ name, place = directory.place ++ [name]
  · obtain ⟨name, rfl⟩ := hplace
    have hname := congrFun h.shelf name
    have hname' := congrFun h'.shelf name
    rcases Artifacts.putTexts_cases texts name with ⟨content, hput⟩ | hput
    · rw [hput] at hname hname'
      exact Or.inl (hname.trans hname'.symm)
    · rw [hput] at hname hname'
      exact Or.inr ⟨hname, hname'⟩
  · have hne := not_exists.mp hplace
    exact Or.inr ⟨h.elsewhere place hne, h'.elsewhere place hne⟩

end Runner.Stores

theorem Artifacts.HasWritten.stores {directory : Path} {texts : List (String × String)} {s t : Runner}
    {written : List Path} (h : HasWritten directory texts s written t)
    (hfile : s.journal.file = none) : s.Stores directory texts t :=
  ⟨h.shelf, (h.elsewhere hfile).2⟩

end ReviewGate

import ReviewGate.Proofs.Artifacts.Rewrite
import ReviewGate.Proofs.Workspace.Make

/-! A review that is stored in a directory that is missing or empty is stored completely, and read back
with its verdict, its texts, its comments and the number of its pull request. -/
namespace ReviewGate

namespace Artifacts

/-- The names of the files that a review may consist of. -/
def fileNames : List String :=
  [typeFile, bodyFile, messageFile, commentsFile, flagsFile, pullRequestFile]

theorem isFileName_of_mem {name : String} (h : name ∈ fileNames) : Workspace.IsFileName name := by
  have hall : ∀ name ∈ fileNames, Workspace.IsFileName name := by decide
  exact hall name h

end Artifacts

/-- Whether a directory is missing or empty and can be made. The way to it may lead through places in
it, but not through those of the files of a review. -/
structure Workspace.IsBlank (w : Workspace) (directory : Path) : Prop where
  canMake : w.CanMake directory
  empty : ∀ name e, (directory.place ++ [name], e) ∉ w.entries
  outside : ∀ name ∈ Artifacts.fileNames, ¬ directory.IsOnWay (directory.place ++ [name])

/-- Whether the files of a review can be stored in a directory: no directory has the name of one of
them. -/
structure Runner.HasRoom (s : Runner) (directory : Path) : Prop where
  canStore : s.CanStore directory
  free : ∀ name ∈ Artifacts.fileNames,
    s.workspace.entryAt? (directory.place ++ [name]) ≠ some .directory

theorem Runner.HasRoom.of_leaves {s t : Runner} {directory : Path} (h : s.HasRoom directory)
    (hleaves : s.Leaves directory.place t) : t.HasRoom directory where
  canStore := hleaves.canStore h.canStore
  free name hname := by
    rw [hleaves.entry h.canStore.apart h.canStore.ready.isOpen]
    exact h.free name hname

namespace Workspace.IsBlank

variable {w : Workspace} {m : Runner} {directory : Path}

theorem isVacant (h : m.workspace.IsBlank directory) (hlog : m.HasLog) : m.IsVacant directory where
  files name := by
    rcases hcontent : m.shelf directory name with _ | content
    · rfl
    · exact absurd (mem_of_entryAt (contentAt_eq_some.mp hcontent) (by simp)) (h.empty name _)
  log := hlog

/-- In a directory that is missing or empty no directory has the name of a file of a review. -/
theorem entry (h : w.IsBlank directory) {name : String} (hname : name ∈ Artifacts.fileNames) :
    w.entryAt? (directory.place ++ [name]) ≠ some .directory := by
  have hfixed : isFixed (directory.place ++ [name]) = false := by
    have hup : name ≠ ".." := (Artifacts.isFileName_of_mem hname).1
    have hroot : ∀ name ∈ Artifacts.fileNames, name ≠ "/" := by decide
    have hlast : directory.place ++ [name] ≠ [] ++ ["/"] := fun heq =>
      hroot name hname (List.singleton_inj.mp (List.append_inj' heq rfl).2)
    simp only [isFixed, Bool.or_eq_false_iff, beq_eq_false_iff_ne]
    exact ⟨by simp [hup], hlast⟩
  intro hentry
  simp only [entryAt?, hfixed, Bool.false_eq_true, if_false] at hentry
  exact h.empty name _ (mem_of_lookup hentry)

end Workspace.IsBlank

namespace Artifacts

variable {directory : Path} {m s : Runner}

/-! ### Storing succeeds -/

/-- A text is stored where there is room for it. -/
theorem writeText_run (hs : s.HasRoom directory) (name : String) (hname : name ∈ fileNames)
    (text : String) :
    ∃ t, writeText directory name text s = (.ok (directory.child name), t) ∧ t.HasRoom directory := by
  have hfile := isFileName_of_mem hname
  have hplace : (directory.child name).place = directory.place ++ [name] :=
    Workspace.place_child hfile.1 directory
  have hfree : s.workspace.IsFree (directory.child name) := by
    refine ⟨Workspace.hasNul_child hs.canStore.ready.noNul hfile, ?_, ?_⟩ <;> rw [hplace]
    · exact hs.canStore.ready.locate_child hfile
    · exact hs.free name hname
  have hwrite := hfree.write (Text.Utf8.encode text)
  rw [hplace] at hwrite
  let s₁ : Runner :=
    { s with workspace := s.workspace.put (directory.place ++ [name]) (.file (Text.Utf8.encode text)) }
  have hjob : Job.writeFile (directory.child name) (Text.Utf8.encode text) s = (.ok (), s₁) := by
    simp only [Job.writeFile, Action.bind_run, Action.get_run, Job.ofExcept_run, hwrite,
      Action.modify_run]
    rfl
  have hroom : s₁.HasRoom directory := by
    refine ⟨⟨hs.canStore.ready.grows (Workspace.grows_put (hs.free name hname) _), hs.canStore.apart⟩,
      fun other hother => Workspace.write_ne_directory hwrite (hs.free other hother)⟩
  have hlogged := Job.log_ok .debug source ("Wrote artifact " ++ (directory.child name).text) s₁
  rcases hlog : Job.log .debug source ("Wrote artifact " ++ (directory.child name).text) s₁ with ⟨_, t⟩
  rw [hlog] at hlogged
  subst hlogged
  refine ⟨t, ?_, hroom.of_leaves ((Job.log_leaves _ _ _ directory.place).of_run hlog)⟩
  rw [writeText, Action.bind_run_ok hjob, Action.bind_run_ok hlog, Action.pure_run]

theorem commentsText_run {comments : List Finding} (h : ∀ f ∈ comments, Number.IsShort f.line) :
    commentsText comments = .ok (Json.write (.list (comments.map Finding.record)) ++ "\n") := by
  have hlines : ∃ texts, comments.mapM (fun f => Number.writeInt f.line) = .ok texts := by
    induction comments with
    | nil => exact ⟨[], rfl⟩
    | cons f fs ih =>
      obtain ⟨texts, htexts⟩ := ih fun g hg => h g (List.mem_cons_of_mem _ hg)
      refine ⟨Number.intText f.line :: texts, ?_⟩
      rw [List.mapM_cons, Number.writeInt_of_isShort (h f List.mem_cons_self), htexts]
      rfl
  obtain ⟨texts, htexts⟩ := hlines
  rw [commentsText, htexts]
  rfl

theorem writeDetails_run (hs : s.HasRoom directory) {payload : Payload} {result : Option AnalysisResult}
    (hlines : result.isSome → ∀ f ∈ payload.comments, Number.IsShort f.line) :
    ∃ written t, writeDetails directory payload result s = (.ok written, t) ∧ t.HasRoom directory := by
  cases result with
  | none => exact ⟨[], s, rfl, hs⟩
  | some r =>
    obtain ⟨t, hcomments, ht⟩ := writeText_run hs commentsFile (by decide)
      (Json.write (.list (payload.comments.map Finding.record)) ++ "\n")
    obtain ⟨u, hflags, hu⟩ := writeText_run ht flagsFile (by decide) (Summary.flags r)
    refine ⟨[directory.child commentsFile, directory.child flagsFile], u, ?_, hu⟩
    have htext : Job.ofExcept ((commentsText payload.comments).mapError .integer) s =
        (.ok (Json.write (.list (payload.comments.map Finding.record)) ++ "\n"), s) := by
      rw [commentsText_run (hlines rfl)]
      rfl
    rw [writeDetails, writeComments, Action.bind_run_ok htext, Action.bind_run_ok hcomments,
      Action.bind_run_ok hflags, Action.pure_run]

theorem writeNumber_run (hs : s.HasRoom directory) {number : Option Int}
    (hnumber : ∀ n, number = some n → Number.IsShort n) :
    ∃ written t, writeNumber directory number s = (.ok written, t) ∧ t.HasRoom directory := by
  cases number with
  | none => exact ⟨[], s, rfl, hs⟩
  | some n =>
    obtain ⟨t, hwrite, ht⟩ := writeText_run hs pullRequestFile (by decide)
      (Number.intText n ++ "\n")
    refine ⟨[directory.child pullRequestFile], t, ?_, ht⟩
    have htext : Job.ofExcept ((Number.writeInt n).mapError .integer) s = (.ok (Number.intText n), s) := by
      rw [Number.writeInt_of_isShort (hnumber n rfl)]
      rfl
    rw [writeNumber, writePullRequest, Action.bind_run_ok htext, Action.bind_run_ok hwrite,
      Action.pure_run]

/-- Making a directory that is missing leaves room in it. -/
theorem makeDirectories_run_ok (hblank : m.workspace.IsBlank directory) (hlog : m.HasLog) :
    ∃ s, Job.makeDirectories directory m = (.ok (), s) ∧ s.HasRoom directory := by
  obtain ⟨w, hrun⟩ := hblank.canMake.makeDirectories
  have hjob : Job.makeDirectories directory m = (.ok (), { m with workspace := w }) := by
    rw [Job.makeDirectories_run, hrun]
  have hmade := makeDirectories_eq_ok (hblank.isVacant hlog).isApart hjob
  refine ⟨_, hjob, hmade.canStore, fun name hname => ?_⟩
  have hentry := Workspace.makeDirectories_entry (hblank.outside name hname) m.workspace
  rw [hrun] at hentry
  exact hentry ▸ hblank.entry hname

/-- A review whose numbers can be written is stored in a directory that is missing or empty. -/
theorem write_run (payload : Payload) (result : Option AnalysisResult) (number : Option Int)
    (hblank : m.workspace.IsBlank directory) (hlog : m.HasLog)
    (hwritable : IsWritable payload result number) :
    ∃ written s, write directory payload result number m = (.ok written, s) := by
  obtain ⟨s₁, hdirs, h₁⟩ := makeDirectories_run_ok hblank hlog
  obtain ⟨s₂, htype, h₂⟩ := writeText_run h₁ typeFile (by decide) (payload.verdict.name ++ "\n")
  obtain ⟨s₃, hbody, h₃⟩ := writeText_run h₂ bodyFile (by decide) (payload.shortBody ++ "\n")
  obtain ⟨s₄, hmessage, h₄⟩ := writeText_run h₃ messageFile (by decide) payload.longSummary
  obtain ⟨details, s₅, hdetails, h₅⟩ := writeDetails_run h₄ hwritable.lines
  obtain ⟨paths, s₆, hpaths, -⟩ := writeNumber_run h₅ hwritable.number
  rw [write_eq, Action.bind_run_ok hdirs, Action.bind_run_ok htype, Action.bind_run_ok hbody,
    Action.bind_run_ok hmessage, Action.bind_run_ok hdetails, Action.bind_run_ok hpaths]
  obtain ⟨errors, w, hlog', -⟩ := Job.log_run .info source
    ("Wrote " ++ toString ([directory.child typeFile, directory.child bodyFile,
      directory.child messageFile] ++ details ++ paths).length ++ " artifacts to " ++ directory.text) s₆
  exact ⟨_, _, Action.bind_run_ok hlog' _⟩

/-! ### The round trip -/

/-- A review that is stored in a directory that is missing or empty is read back: its verdict by its
name, its short text without the blanks around it and its summary, both with unified line ends, its
comments with their paths, lines and bodies, and the number of its pull request. -/
theorem read_write_review (payload : Payload) (result : AnalysisResult) (number : Option Int)
    (hblank : m.workspace.IsBlank directory) (hlog : m.HasLog)
    (hpaths : ∀ f ∈ payload.comments, Text.isBlankText f.path = false)
    (hlines : ∀ f ∈ payload.comments, Number.IsShort f.line)
    (hnumber : ∀ n, number = some n → 0 < n ∧ Number.IsShort n) :
    ∃ written s review t, write directory payload (some result) number m = (.ok written, s) ∧
      read directory s = (.ok review, t) ∧
      review.reviewType = payload.verdict.name ∧
      Verdict.ofText? review.reviewType = some payload.verdict ∧
      review.body = Text.strip (Text.unified payload.shortBody) ∧
      review.message = some (Text.unified payload.longSummary) ∧
      review.comments.map LineComment.data = payload.comments.map Finding.data ∧
      review.pullRequest = number := by
  obtain ⟨written, s, hwrite⟩ := write_run payload (some result) number hblank hlog
    ⟨fun _ => hlines, fun n hn => (hnumber n hn).2⟩
  let call : Submission := ⟨payload, some result, number⟩
  have hproper : ∀ c ∈ [] ++ [call], c.IsProper := by
    intro c hc
    obtain rfl : c = call := by simpa using hc
    exact ⟨hpaths, fun n hn => (hnumber n hn).1⟩
  have hrun : storeAll directory ([] ++ [call]) m = (.ok (), s) := by
    rw [List.nil_append, storeAll, Action.bind_run_ok hwrite]
    rfl
  have hvacant := hblank.isVacant hlog
  obtain ⟨found, t, -, hread, hdata⟩ :=
    read_latest hvacant hproper hrun (storeAll_canStore hvacant.isApart hrun) rfl
  refine ⟨written, s, _, t, hwrite, hread, rfl, Verdict.ofText_name _, rfl, rfl, hdata, ?_⟩
  cases number <;> rfl

/-- A review with quotes, line ends of all kinds and characters that take two code units. -/
def knottyReview : Payload where
  verdict := .requestChanges
  shortBody := " Issues\r\nfound.\r"
  longSummary := "Line\rby line.\r\n"
  comments :=
    [⟨"src/\"a\\b\" 😀.cs", 1, .nullCheck, "Tab\tand\rreturn.", Nat.one_pos, rfl⟩]

theorem read_write_knottyReview :
    ∃ written s review t,
      write (.ofText "out/reviews") knottyReview (some ⟨knottyReview.comments, 1⟩) (some 7) (.fresh 0) =
          (.ok written, s) ∧
        read (.ofText "out/reviews") s = (.ok review, t) ∧
        Verdict.ofText? review.reviewType = some .requestChanges ∧ review.body = "Issues\nfound." ∧
        review.message = some "Line\nby line.\n" ∧
        review.comments.map LineComment.data = [("src/\"a\\b\" 😀.cs", 1, "Tab\tand\rreturn.")] ∧
        review.pullRequest = some 7 := by
  have hblank : (Runner.fresh 0).workspace.IsBlank (.ofText "out/reviews") := by
    refine ⟨⟨by decide, by decide, fun place _ => ?_⟩, by simp [Runner.fresh, Workspace.empty],
      fun name _ => Path.not_isOnWay_child (by decide) name⟩
    unfold Workspace.contentAt? Workspace.entryAt?
    split_ifs <;> rfl
  obtain ⟨written, s, review, t, hwrite, hread, -, hverdict, hbody, hmessage, hcomments, hnumber⟩ :=
    read_write_review knottyReview ⟨knottyReview.comments, 1⟩ (some 7) hblank (fun _ _ h => by cases h)
      (by decide) (by decide) (by decide)
  refine ⟨written, s, review, t, hwrite, hread, hverdict, ?_, ?_, hcomments, hnumber⟩
  · rw [hbody]
    decide +kernel
  · rw [hmessage]
    decide +kernel

end Artifacts

end ReviewGate

import ReviewGate.Proofs.Artifacts.Read

/-! What a stored review that is not read is blamed on. The files of a review are looked at one after the
other, and the first one that is not fit decides. It is named, unless its bytes are no text or its comments
hold a number that is too long or are nested too deeply. -/
namespace ReviewGate.Artifacts

variable {α β : Type} {directory : Path} {s t : Runner} {name : String} {content : Option (List UInt8)}
  {found : String → Option (List UInt8)} {names : List String} {room : Json.Room} {e : Fault}

/-! ### What is expected of a file -/

/-- The files that are looked at, in this order. -/
def readingOrder : List String :=
  [typeFile, bodyFile, messageFile, commentsFile, pullRequestFile]

/-- Whether a text is one that the file with this name may hold, the comments having some room. -/
structure Suits (room : Json.Room) (name text : String) : Prop where
  comments : name = commentsFile → ∃ items comments,
    Json.read room text = .ok (.list items) ∧ items.mapM LineComment.ofValue = .ok comments
  number : name = pullRequestFile → ∃ n, Number.readInt (Text.strip text) = .ok n ∧ 0 < n

/-- Whether a review can be read as far as the file with this name goes, if there is one. -/
def IsFit (room : Json.Room) (name : String) : Option (List UInt8) → Prop
  | none => name ≠ typeFile ∧ name ≠ bodyFile
  | some bytes => ∃ text, Text.Utf8.decode bytes = .ok text ∧ Suits room name (Text.unified text)

/-- Whether the comments in a text cannot be read because of a limit of the reader, and of which one. -/
inductive IsBeyond (room : Json.Room) (text : String) : Fault → Prop
  | number (f : Number.IntegerFault) (read : Json.read room text = .error (.number f)) :
    IsBeyond room text (.integer f)
  | depth (b : Json.Bracket) (read : Json.read room text = .error (.tooDeep b)) :
    IsBeyond room text (.tooDeep b)

/-- Whether it cannot even be said what a file holds, and why not. -/
def IsIllegible (room : Json.Room) (name : String) (content : Option (List UInt8)) (e : Fault) : Prop :=
  ∃ bytes, content = some bytes ∧
    ((∃ m, Text.Utf8.decode bytes = .error m ∧ e = .notUtf8 m) ∨
      name = commentsFile ∧ ∃ text, Text.Utf8.decode bytes = .ok text ∧ IsBeyond room (Text.unified text) e)

/-- Whether a fault is the one that a file gives rise to: it names the file if it can be said what the
file holds. -/
structure IsBlamed (room : Json.Room) (name : String) (content : Option (List UInt8)) (e : Fault) :
    Prop where
  unfit : ¬ IsFit room name content
  fault : IsIllegible room name content e ∨
    (∀ f, ¬ IsIllegible room name content f) ∧ ∃ p, e = .artifact p ∧ p.file? = some name

/-- How reading files one after the other ends. -/
inductive EndsAfter (room : Json.Room) (found : String → Option (List UInt8)) :
    List String → Except Fault α → Prop
  | read {names : List String} (a : α) (fit : ∀ name ∈ names, IsFit room name (found name)) :
    EndsAfter room found names (.ok a)
  | unfit {before after : List String} {name : String} {e : Fault}
    (fit : ∀ earlier ∈ before, IsFit room earlier (found earlier))
    (blame : IsBlamed room name (found name) e) : EndsAfter room found (before ++ name :: after) (.error e)

theorem EndsAfter.cons {result : Except Fault α} (hfit : IsFit room name (found name))
    (h : EndsAfter room found names result) : EndsAfter room found (name :: names) result := by
  cases h with
  | read a hmore => exact .read a (List.forall_mem_cons.mpr ⟨hfit, hmore⟩)
  | @unfit before after flawed e hmore hblame =>
    rw [← List.cons_append]
    exact .unfit (List.forall_mem_cons.mpr ⟨hfit, hmore⟩) hblame

theorem EndsAfter.head (h : IsBlamed room name (found name) e) :
    EndsAfter room found (name :: names) (.error e : Except Fault α) := by
  rw [← List.nil_append (name :: names)]
  exact .unfit (by simp) h

/-- A file is to blame if reading breaks off. -/
theorem EndsAfter.exists_blamed (h : EndsAfter room found names (.error e : Except Fault α)) :
    ∃ name ∈ names, IsBlamed room name (found name) e := by
  cases h with
  | @unfit before after flawed _ _ blame => exact ⟨flawed, by simp, blame⟩

/-- If the file that is looked at first is not fit, then it is to blame. -/
theorem EndsAfter.blames_head (h : EndsAfter room found (name :: names) (.error e : Except Fault α))
    (hunfit : ¬ IsFit room name (found name)) : IsBlamed room name (found name) e := by
  generalize hnames : name :: names = all at h
  generalize hresult : (.error e : Except Fault α) = result at h
  cases h with
  | read => cases hresult
  | @unfit before after flawed e' fit blame =>
    cases hresult
    cases before with
    | nil =>
      cases hnames
      exact blame
    | cons first before =>
      cases hnames
      exact absurd (fit _ List.mem_cons_self) hunfit

/-! ### One file -/

theorem IsBlamed.notUtf8 {bytes : List UInt8} {m : Text.Utf8.Malformed}
    (h : Text.Utf8.decode bytes = .error m) : IsBlamed room name (some bytes) (.notUtf8 m) := by
  refine ⟨?_, Or.inl ⟨bytes, rfl, Or.inl ⟨m, h, rfl⟩⟩⟩
  rintro ⟨text, htext, -⟩
  rw [h] at htext
  cases htext

/-- A file with a text that is not one for it is named. -/
theorem IsBlamed.named {bytes : List UInt8} {text : String} {p : ArtifactProblem}
    (htext : Text.Utf8.decode bytes = .ok text) (hsuits : ¬ Suits room name (Text.unified text))
    (hlegible : name = commentsFile → ∀ f, ¬ IsBeyond room (Text.unified text) f)
    (hfile : p.file? = some name) : IsBlamed room name (some bytes) (.artifact p) := by
  refine ⟨?_, Or.inr ⟨?_, p, rfl, hfile⟩⟩
  · rintro ⟨text', htext', hsuits'⟩
    obtain rfl : text = text' := by simpa [htext] using htext'
    exact hsuits hsuits'
  · rintro f ⟨bytes', hbytes, ⟨m, hm, -⟩ | ⟨hname, text', htext', hbeyond⟩⟩
    · obtain rfl : bytes = bytes' := by simpa using hbytes
      rw [htext] at hm
      cases hm
    · obtain rfl : bytes = bytes' := by simpa using hbytes
      obtain rfl : text = text' := by simpa [htext] using htext'
      exact hlegible hname f hbeyond

theorem IsBlamed.missing (h : name = typeFile ∨ name = bodyFile) :
    IsBlamed room name none (.artifact (.missing name)) := by
  refine ⟨fun hfit => ?_, Or.inr ⟨?_, _, rfl, rfl⟩⟩
  · rcases h with h | h
    · exact hfit.1 h
    · exact hfit.2 h
  · rintro f ⟨bytes, hbytes, -⟩
    cases hbytes

theorem readText_cases (hs : s.workspace.IsReady directory) (hname : Workspace.IsFileName name)
    {bytes : List UInt8} (h : s.shelf directory name = some bytes) :
    (∃ m, Text.Utf8.decode bytes = .error m ∧
        readText (directory.child name) s = (.error (.notUtf8 m), s)) ∨
      ∃ text, Text.Utf8.decode bytes = .ok text ∧
        readText (directory.child name) s = (.ok (Text.unified text), s) := by
  simp only [readText, Job.readFile, Action.bind_run, Action.get_run, Job.ofExcept_run,
    hs.read_child hname h]
  rcases Text.Utf8.decode bytes with m | text
  · exact Or.inl ⟨m, rfl, rfl⟩
  · exact Or.inr ⟨text, rfl, rfl⟩

/-- Whether a job that looks at a file of a directory goes on as long as the file is fit, and otherwise
breaks off with a fault that the file gives rise to. -/
def Judges (room : Json.Room) (directory : Path) (name : String) (s : Runner) (j : Job α) : Prop :=
  (∃ a, IsFit room name (s.shelf directory name) ∧ j s = (.ok a, s)) ∨
    ∃ e, IsBlamed room name (s.shelf directory name) e ∧ j s = (.error e, s)

theorem Judges.congr {j k : Job α} (h : j s = k s) (hk : Judges room directory name s k) :
    Judges room directory name s j := by
  rwa [Judges, h]

/-- A file that is there is judged by what is made of its text. -/
theorem readText_judges (hs : s.workspace.IsReady directory) (hname : Workspace.IsFileName name)
    {bytes : List UInt8} (hfound : s.shelf directory name = some bytes) {f : String → Job α}
    (hf : ∀ text, Text.Utf8.decode bytes = .ok text →
      (∃ a, Suits room name (Text.unified text) ∧ f (Text.unified text) s = (.ok a, s)) ∨
        ∃ e, IsBlamed room name (some bytes) e ∧ f (Text.unified text) s = (.error e, s)) :
    Judges room directory name s (readText (directory.child name) >>= f) := by
  rw [Judges, hfound, Action.bind_run]
  rcases readText_cases hs hname hfound with ⟨m, hm, hrun⟩ | ⟨text, htext, hrun⟩
  · rw [hrun]
    exact Or.inr ⟨_, .notUtf8 hm, rfl⟩
  · rw [hrun]
    rcases hf text htext with ⟨a, hsuits, ha⟩ | ⟨e, hblame, he⟩
    · exact Or.inl ⟨a, ⟨text, htext, hsuits⟩, ha⟩
    · exact Or.inr ⟨e, hblame, he⟩

theorem suits_text (hcomments : name ≠ commentsFile) (hnumber : name ≠ pullRequestFile) (text : String) :
    Suits room name text :=
  ⟨fun h => absurd h hcomments, fun h => absurd h hnumber⟩

theorem readRequired_judges (hs : s.workspace.IsReady directory) (hname : Workspace.IsFileName name)
    (hrequired : name = typeFile ∨ name = bodyFile) :
    Judges room directory name s (readRequired directory name) := by
  have hsuits : ∀ text, Suits room name text := by
    rcases hrequired with rfl | rfl <;> exact suits_text (by decide) (by decide)
  rcases hfound : s.shelf directory name with _ | bytes
  · rw [Judges, hfound, readRequired, Action.bind_run, isFile_run hs hname, hfound]
    exact Or.inr ⟨_, .missing hrequired, rfl⟩
  · have hread : readRequired directory name s =
        (readText (directory.child name) >>= fun text => pure (Text.strip text)) s := by
      rw [readRequired, Action.bind_run, isFile_run hs hname, hfound]
      rfl
    exact .congr hread (readText_judges hs hname hfound fun text _ => Or.inl ⟨_, hsuits _, rfl⟩)

/-- A file that may be missing is judged by what is made of its text. -/
theorem readOptional_judges (hs : s.workspace.IsReady directory) (hname : Workspace.IsFileName name)
    (hoptional : name ≠ typeFile ∧ name ≠ bodyFile) {f : Option String → Job α}
    (hnone : ∃ a, f none s = (.ok a, s))
    (hsome : ∀ bytes text, Text.Utf8.decode bytes = .ok text →
      (∃ a, Suits room name (Text.unified text) ∧ f (some (Text.unified text)) s = (.ok a, s)) ∨
        ∃ e, IsBlamed room name (some bytes) e ∧ f (some (Text.unified text)) s = (.error e, s)) :
    Judges room directory name s (readOptional directory name >>= f) := by
  rcases hfound : s.shelf directory name with _ | bytes
  · obtain ⟨a, ha⟩ := hnone
    rw [Judges, hfound, Action.bind_run, readOptional, Action.bind_run, isFile_run hs hname, hfound]
    exact Or.inl ⟨a, hoptional, ha⟩
  · have hread : (readOptional directory name >>= f) s =
        (readText (directory.child name) >>= fun text => f (some text)) s := by
      rw [Action.bind_run, Action.bind_run, readOptional, Action.bind_run, isFile_run hs hname, hfound]
      simp only [Option.isSome_some, if_true, Action.bind_run]
      rcases readText (directory.child name) s with ⟨e | text, t⟩ <;> rfl
    exact .congr hread (readText_judges hs hname hfound (hsome bytes))

theorem readMessage_judges (hs : s.workspace.IsReady directory) :
    Judges room directory messageFile s (readOptional directory messageFile) := by
  rw [← bind_pure (readOptional directory messageFile)]
  exact readOptional_judges hs (by decide) (by decide) ⟨none, rfl⟩ fun _ text _ =>
    Or.inl ⟨_, suits_text (by decide) (by decide) _, rfl⟩

/-- Comments are read from a text that suits, and any other text is to blame. -/
theorem commentsOf_judged {bytes : List UInt8} {text : String} (htext : Text.Utf8.decode bytes = .ok text) :
    (∃ comments, Suits room commentsFile (Text.unified text) ∧
        commentsOf room (Text.unified text) = .ok comments) ∨
      ∃ e, IsBlamed room commentsFile (some bytes) e ∧ commentsOf room (Text.unified text) = .error e := by
  have hbad : (∀ items comments, Json.read room (Text.unified text) = .ok (.list items) →
      items.mapM LineComment.ofValue ≠ .ok comments) → ¬ Suits room commentsFile (Text.unified text) := by
    intro hnone hsuits
    obtain ⟨items, comments, hread, hcomments⟩ := hsuits.comments rfl
    exact hnone items comments hread hcomments
  have hbeyond : ∀ {e}, IsBeyond room (Text.unified text) e → IsBlamed room commentsFile (some bytes) e := by
    intro e he
    refine ⟨?_, Or.inl ⟨bytes, rfl, Or.inr ⟨rfl, text, htext, he⟩⟩⟩
    rintro ⟨text', htext', hsuits⟩
    obtain rfl : text = text' := by simpa [htext] using htext'
    cases he with
    | number f hread => exact hbad (by simp [hread]) hsuits
    | depth b hread => exact hbad (by simp [hread]) hsuits
  unfold commentsOf
  rcases hread : Json.read room (Text.unified text) with (m | f | b) | v
  · refine Or.inr ⟨_, .named htext (hbad (by simp [hread])) ?_ rfl, rfl⟩
    rintro - f (⟨_, hlimit⟩ | ⟨_, hlimit⟩) <;> simp [hread] at hlimit
  · exact Or.inr ⟨_, hbeyond (.number f hread), rfl⟩
  · exact Or.inr ⟨_, hbeyond (.depth b hread), rfl⟩
  · have hlegible : commentsFile = commentsFile → ∀ f, ¬ IsBeyond room (Text.unified text) f := by
      rintro - f (⟨_, hlimit⟩ | ⟨_, hlimit⟩) <;> simp [hread] at hlimit
    cases v with
    | list items =>
      dsimp only
      rcases hcomments : items.mapM LineComment.ofValue with report | comments
      · refine Or.inr ⟨_, .named htext (hbad ?_) hlegible rfl, rfl⟩
        rintro items' comments hread' hcomments'
        obtain rfl : items = items' := by simpa [hread] using hread'
        rw [hcomments] at hcomments'
        cases hcomments'
      · exact Or.inl ⟨comments,
          ⟨fun _ => ⟨items, comments, hread, hcomments⟩, fun h => absurd h (by decide)⟩, rfl⟩
    | _ => exact Or.inr ⟨_, .named htext (hbad (by simp [hread])) hlegible rfl, rfl⟩

theorem readComments_judges (hs : s.workspace.IsReady directory) :
    Judges s.platform.room directory commentsFile s (readComments directory) := by
  refine readOptional_judges hs (by decide) (by decide) ⟨[], rfl⟩ fun bytes text htext => ?_
  simpa only [Action.bind_run, Action.get_run, Job.ofExcept_run, Action.outcome_eq, and_true] using
    commentsOf_judged htext

/-- A number is read from a text that suits, and any other text is to blame. -/
theorem numberOf_judged {bytes : List UInt8} {text : String} (htext : Text.Utf8.decode bytes = .ok text) :
    (∃ n, Suits room pullRequestFile (Text.unified text) ∧ numberOf (Text.unified text) = .ok n) ∨
      ∃ e, IsBlamed room pullRequestFile (some bytes) e ∧ numberOf (Text.unified text) = .error e := by
  have hbad : (∀ n, Number.readInt (Text.strip (Text.unified text)) = .ok n → ¬ 0 < n) →
      ¬ Suits room pullRequestFile (Text.unified text) := by
    intro hnone hsuits
    obtain ⟨n, hread, hpos⟩ := hsuits.number rfl
    exact hnone n hread hpos
  have hname : pullRequestFile ≠ commentsFile := by decide
  have hblame : ¬ Suits room pullRequestFile (Text.unified text) → IsBlamed room pullRequestFile (some bytes)
      (.artifact (.number pullRequestFile (Text.strip (Text.unified text)))) :=
    fun hsuits => .named htext hsuits (fun h => absurd h hname) rfl
  unfold numberOf
  dsimp only
  rcases hread : Number.readInt (Text.strip (Text.unified text)) with f | n
  · exact Or.inr ⟨_, hblame (hbad (by simp [hread])), rfl⟩
  · dsimp only
    split_ifs with hpos
    · exact Or.inl ⟨n, ⟨fun h => absurd h hname, fun _ => ⟨n, hread, hpos⟩⟩, rfl⟩
    · refine Or.inr ⟨_, hblame (hbad ?_), rfl⟩
      rintro m hread'
      obtain rfl : n = m := by simpa [hread] using hread'
      exact hpos

theorem readPullRequest_judges (hs : s.workspace.IsReady directory) :
    Judges room directory pullRequestFile s (readPullRequest directory) := by
  refine readOptional_judges hs (by decide) (by decide) ⟨none, rfl⟩ fun bytes text htext => ?_
  simp only [Action.bind_run, Job.ofExcept_run]
  rcases numberOf_judged htext with ⟨n, hsuits, hn⟩ | ⟨e, hblame, he⟩
  · exact Or.inl ⟨some n, hsuits, by rw [hn]; rfl⟩
  · exact Or.inr ⟨e, hblame, by rw [he]⟩

/-! ### One file after the other -/

/-- After a file that is fit the other files decide. -/
theorem Judges.bind {j : Job α} {f : α → Job β} {result : Except Fault β}
    (hj : Judges room directory name s j) (hfound : found name = s.shelf directory name)
    (hnext : ∀ a, f a s = (result, t) → EndsAfter room found names result)
    (h : (j >>= f) s = (result, t)) : EndsAfter room found (name :: names) result := by
  rcases hj with ⟨a, hfit, hrun⟩ | ⟨e, hblame, hrun⟩
  · rw [Action.bind_run_ok hrun] at h
    exact .cons (hfound ▸ hfit) (hnext a h)
  · rw [Action.bind_run_error hrun] at h
    cases h
    exact .head (hfound ▸ hblame)

/-- What is found under a name while a review is read: the file with the number is looked at last, after a
message in the log. -/
def foundUnder (directory : Path) (s t : Runner) (name : String) : Option (List UInt8) :=
  (if name = pullRequestFile then t else s).shelf directory name

theorem readFiles_ends {result : Except Fault StoredReview} (hs : s.workspace.IsReady directory)
    (h : readFiles directory s = (result, t)) :
    EndsAfter s.platform.room (foundUnder directory s t) readingOrder result := by
  refine (readRequired_judges hs (by decide) (Or.inl rfl)).bind rfl (fun type h => ?_) h
  refine (readRequired_judges hs (by decide) (Or.inr rfl)).bind rfl (fun body h => ?_) h
  refine (readMessage_judges hs).bind rfl (fun message h => ?_) h
  refine (readComments_judges hs).bind rfl (fun comments h => ?_) h
  obtain ⟨u, hlog⟩ := (Job.Gives.log .info source
    ("Loaded " ++ toString comments.length ++ " line-specific comments")).exists_run s
  have hu : u.workspace.IsReady directory :=
    hs.grows ((Job.log_leaves _ _ _ directory.place).of_run hlog).grows
  rw [Action.bind_run_ok hlog] at h
  have hnumber : Judges s.platform.room directory pullRequestFile u (readPullRequest directory) :=
    readPullRequest_judges hu
  have ht : t = u := by
    rcases hnumber with ⟨n, -, hrun⟩ | ⟨e, -, hrun⟩
    · rw [Action.bind_run_ok hrun] at h
      cases h
      rfl
    · rw [Action.bind_run_error hrun] at h
      cases h
      rfl
  subst ht
  refine hnumber.bind rfl (fun number h => ?_) h
  cases h
  exact .read _ (by simp)

theorem isDirectory_eq_error {w : Workspace} (h : w.isDirectory directory = .error e) :
    e = .storage .nameTooLong directory.text := by
  unfold Workspace.isDirectory Workspace.status at h
  split_ifs at h with hnul
  · cases h
  · rcases hlocate : w.locate directory with problem | place
    · cases problem with
      | nameTooLong =>
        rw [hlocate] at h
        cases h
        rfl
      | _ =>
        rw [hlocate] at h
        cases h
    · rw [hlocate] at h
      cases h

/-- Whatever a directory holds, a review is read from it with comments on lines and the number of a pull
request, if it has one, or reading breaks off. A directory that is missing or holds nothing is refused as a
whole. Otherwise the first file that is not fit is named, and all files are fit if there is none; only
when it cannot even be said what that file holds, another fault takes the place of its name. -/
theorem read_blames_first_unfit_file {result : Except Fault StoredReview}
    (h : read directory s = (result, t)) :
    (∀ review, result = .ok review →
      (∀ c ∈ review.comments,
        1 ≤ c.line ∧ Text.isBlankText c.path = false ∧ Text.isBlankText c.body = false) ∧
      ∀ n, review.pullRequest = some n → 0 < n) ∧
    (∀ f, s.workspace.isDirectory directory = .error f →
      f = .storage .nameTooLong directory.text ∧ result = .error f) ∧
    (∀ there, s.workspace.isDirectory directory = .ok there →
      there = false ∨ s.workspace.hasChildren directory = false →
        result = .error (.artifact (.unavailable directory.text))) ∧
    (s.workspace.isDirectory directory = .ok true → s.workspace.hasChildren directory = true →
      EndsAfter s.platform.room (foundUnder directory s t) readingOrder result) := by
  refine ⟨?_, ?_⟩
  · rintro review rfl
    exact ⟨fun c _ => ⟨c.line_pos, c.path_given, c.body_given⟩, fun n hn => read_number_pos h hn⟩
  rcases read_cases h with ⟨f, hdirectory, rfl⟩ | ⟨there, hdirectory, hbare, rfl⟩ |
    ⟨hdirectory, hchildren, hfiles⟩
  all_goals rw [hdirectory]
  · refine ⟨?_, by simp, by simp⟩
    rintro f' ⟨⟩
    exact ⟨isDirectory_eq_error hdirectory, rfl⟩
  · refine ⟨by simp, fun _ _ _ => rfl, ?_⟩
    rintro ⟨⟩ hchildren
    exact absurd hbare (by simp [hchildren])
  · refine ⟨by simp, ?_, fun _ _ => readFiles_ends (Workspace.isReady_of_isDirectory hdirectory) hfiles⟩
    rintro there ⟨⟩ hbare
    exact absurd hbare (by simp [hchildren])

def reviewDirectory : Path := .ofText "artifacts"

/-- A machine with a directory that holds a file of one byte, which is no text, and nothing else. -/
def withStrayByte : Runner :=
  { Runner.fresh 0 with
    workspace := Workspace.empty.install [] (.file [0xff]) ["artifacts", "review_type.txt"] }

/-- The file of the verdict is not fit, and what it ends with does not name it. -/
theorem read_blames_stray_byte :
    ∃ e, (read reviewDirectory withStrayByte).1 = .error e ∧
      IsBlamed withStrayByte.platform.room typeFile (some [0xff]) e ∧
      e = .notUtf8 ⟨0, [0xff], .invalidStart⟩ := by
  have hrun : read reviewDirectory withStrayByte =
      ((read reviewDirectory withStrayByte).1, (read reviewDirectory withStrayByte).2) := rfl
  have hresult : (read reviewDirectory withStrayByte).1 = .error (.notUtf8 ⟨0, [0xff], .invalidStart⟩) := rfl
  have hends := (read_blames_first_unfit_file hrun).2.2.2 rfl rfl
  rw [hresult] at hends
  have hunfit : ¬ IsFit withStrayByte.platform.room typeFile (some [0xff]) := by
    rintro ⟨text, htext, -⟩
    cases htext
  refine ⟨_, hresult, ?_, rfl⟩
  exact hends.blames_head hunfit

/-- A byte that is no text is not blamed on its file. -/
theorem read_breaks_on_stray_byte :
    (read reviewDirectory withStrayByte).1 = .error (.notUtf8 ⟨0, [0xff], .invalidStart⟩) := rfl

end ReviewGate.Artifacts

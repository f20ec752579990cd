import Mathlib.Tactic.SplitIfs
import ReviewGate.Changes
import ReviewGate.Proofs.Effects

/-! Collecting changed files: which files are collected, and that nothing is written except to the log. -/
namespace ReviewGate.Checkout

/-- A list of texts makes a checkout, whose endings are theirs. -/
theorem make_texts (root : String) (extensions : List String) :
    make root (.list (extensions.map .str)) = .ok ⟨.ofText root, extensions.map ending⟩ := by
  have hendings : (extensions.map Value.str).mapM endingOf = .ok (extensions.map ending) := by
    induction extensions with
    | nil => rfl
    | cons extension extensions ih =>
      rw [List.map_cons, List.mapM_cons, ih]
      rfl
  simp only [make, Value.items, bind, Except.bind, hendings]
  rfl

/-- The changed file at a path; `none` if it cannot be read. -/
def fileAt? (c : Checkout) (w : Workspace) (path : String) : Option ChangedFile :=
  (w.read (c.root.follow path)).toOption.bind fun content => (fileOf path content).toOption

/-- The paths that version control names when it ends in the given way. -/
def namedPaths (c : Checkout) : ChildOutcome → List String
  | .exited code output _ => if code = 0 then c.select (Text.brokenLines output) else []
  | _ => []

/-! ### What is done -/

section Effects

variable (c : Checkout)

theorem fileOf_failsPlainly (path : String) (content : List UInt8) :
    FailsPlainly ((fileOf path content).mapError .refused) := by
  unfold fileOf ChangedFile.ofText ChangedFile.make
  split_ifs
  · exact .ok _
  · exact .error rfl

theorem loadFile_effects (path : String) : (c.loadFile path).HasEffects Effect.IsQuiet := by
  refine .bind (.catching _ trivial (Job.readFile_effects _)) fun content => ?_
  cases content with
  | error e => exact .bind (.log _ _ _) fun _ => .pure _
  | ok content =>
    exact .bind (.log _ _ _) fun _ => .bind (.ofExcept (fileOf_failsPlainly _ _)) fun _ => .pure _

theorem loadFiles_effects (paths : List String) : (c.loadFiles paths).HasEffects Effect.IsQuiet := by
  induction paths with
  | nil => exact .pure _
  | cons path paths ih => exact .bind (c.loadFile_effects path) fun _ => .bind ih fun _ => .pure _

theorem changedPaths_effects (base head : String) :
    (c.changedPaths base head).HasEffects Effect.IsLocal := by
  refine .bind (.start _ trivial) fun outcome => ?_
  cases outcome with
  | error e => exact .bind (.log _ _ _) fun _ => .pure _
  | ok ended => exact .ite (.bind (.log _ _ _) fun _ => .pure _) (.bind (.log _ _ _) fun _ => .pure _)

theorem collect_effects (base head : String) : (c.collect base head).HasEffects Effect.IsLocal :=
  .bind (c.changedPaths_effects base head) fun _ => (c.loadFiles_effects _).mono .of_quiet

end Effects

/-! ### What is collected -/

variable {c : Checkout} {s t : Runner}

theorem loadFile_eq_ok {path : String} {file : Option ChangedFile}
    (h : c.loadFile path s = (.ok file, t)) : file = c.fileAt? s.workspace path := by
  rw [loadFile, Action.bind_run, Job.catching_run, Job.readFile_run] at h
  rcases hcontent : s.workspace.read (c.root.follow path) with e | content
  · simp only [hcontent] at h
    rcases he : e.isStorage with _ | _
    · simp only [he] at h
      cases h
    · simp only [he, if_true] at h
      obtain ⟨u, -, -, hdone⟩ := Job.log_bind h
      cases hdone
      simp [fileAt?, hcontent, Except.toOption]
  · simp only [hcontent] at h
    obtain ⟨u, -, -, hdone⟩ := Job.log_bind h
    rw [Action.bind_run, Job.ofExcept_run] at hdone
    rcases hfile : fileOf path content with refusal | file'
    · rw [hfile] at hdone
      cases hdone
    · rw [hfile] at hdone
      cases hdone
      simp [fileAt?, hcontent, hfile, Except.toOption]

/-- Without a log file, the files are read as they were at the start. -/
theorem loadFiles_eq_ok (hfile : s.journal.file = none) {paths : List String}
    {files : List ChangedFile} (h : c.loadFiles paths s = (.ok files, t)) :
    files = paths.filterMap (c.fileAt? s.workspace) := by
  induction paths generalizing s files with
  | nil =>
    cases h
    rfl
  | cons path paths ih =>
    simp only [loadFiles, Action.bind_eq_ok] at h
    obtain ⟨file, s₁, hload, more, s₂, hmore, hdone⟩ := h
    cases hdone
    obtain ⟨hfile₁, hdisk⟩ := ((c.loadFile_effects path).keeps_of_quiet Runner.SameDisk.isCalm).of_run hload hfile
    rw [ih hfile₁ hmore, hdisk, loadFile_eq_ok hload, List.filterMap_cons]
    rcases c.fileAt? s.workspace path with _ | found <;> rfl

theorem changedPaths_eq_ok {base head : String} {paths : List String}
    (h : c.changedPaths base head s = (.ok paths, t)) : paths = c.namedPaths s.child := by
  rcases hcheck : (c.diff base head).check with e | ⟨⟩
  · rw [changedPaths, Action.bind_run_error (Job.start_refused rfl hcheck s)] at h
    cases h
  rw [changedPaths, Action.bind_run, Job.start_run rfl hcheck] at h
  rcases hchild : s.child with ⟨code, output, errors⟩ | _ | _ | _ <;> simp only [hchild] at h
  · split_ifs at h with hcode
    all_goals
      obtain ⟨u, -, -, hdone⟩ := Job.log_bind h
      cases hdone
      simp [namedPaths, hcode]
  all_goals
    obtain ⟨u, -, -, hdone⟩ := Job.log_bind h
    cases hdone
    rfl

theorem collect_eq_ok (hfile : s.journal.file = none) {base head : String} {files : List ChangedFile}
    (h : c.collect base head s = (.ok files, t)) :
    files = (c.namedPaths s.child).filterMap (c.fileAt? s.workspace) := by
  simp only [collect, Action.bind_eq_ok] at h
  obtain ⟨paths, s₁, hpaths, hfiles⟩ := h
  obtain ⟨hfile₁, hdisk⟩ := ((c.changedPaths_effects base head).keeps_of_local
    Runner.SameDisk.isCalm Runner.SameDisk.allowsCommands).of_run hpaths hfile
  rw [loadFiles_eq_ok hfile₁ hfiles, hdisk, changedPaths_eq_ok hpaths]

end ReviewGate.Checkout

import Mathlib.Tactic.SplitIfs
import ReviewGate.Proofs.Artifacts.Write
import ReviewGate.Proofs.Changes
import ReviewGate.Proofs.Scan
import ReviewGate.Reviewer.Stages

/-! The analysis stage: what is stored is the review of the scan of the collected files. -/
namespace ReviewGate.Reviewer

/-- The files that an analysis of a change looks at. -/
def filesIn (r : Reviewer) (change : ChangeSelection) (s : Runner) : List ChangedFile :=
  match Checkout.make change.checkout r.settings.analysis.extensions with
  | .error _ => []
  | .ok c =>
    let paths := (change.paths.map c.select).getD (c.namedPaths s.child)
    paths.filterMap (c.fileAt? s.workspace)

section Effects

variable {A : Effect → Prop} (r : Reviewer)

theorem commit_effects (name : Option String) : (commit name).HasEffects A := by
  cases name with
  | none => exact .throw rfl
  | some name => exact .ite (.throw rfl) (.pure _)

theorem collect_effects (change : ChangeSelection) : (r.collect change).HasEffects Effect.IsLocal := by
  refine .bind (.use _) fun c => ?_
  rcases change.paths with _ | paths
  · refine .bind (commit_effects _) fun base => .bind (commit_effects _) fun head =>
      .bind (c.collect_effects base head) fun files => ?_
    exact .ite (.bind (.log _ _ _) fun _ => .pure _) (.pure _)
  · exact (c.loadFiles_effects _).mono .of_quiet

theorem logScan_effects (f : ChangedFile) (findings : List Finding) :
    (r.logScan f findings).HasEffects A :=
  .ite (.log _ _ _) (.bind (.use _) fun _ => .ite (.log _ _ _) (.pure _))

theorem logScans_effects (scans : List (ChangedFile × List Finding)) : (r.logScans scans).HasEffects A := by
  induction scans with
  | nil => exact .pure _
  | cons scan scans ih => exact .bind (r.logScan_effects _ _) fun _ => ih

theorem logCounts_effects (scans : List (ChangedFile × List Finding)) : (logCounts scans).HasEffects A := by
  induction scans with
  | nil => exact .pure _
  | cons scan scans ih => exact .bind (.log _ _ _) fun _ => ih

theorem analyze_effects (files : List ChangedFile) : (r.analyze files).HasEffects A :=
  .bind (.log _ _ _) fun _ => .bind (r.logScans_effects _) fun _ => .bind (logCounts_effects _) fun _ =>
    .bind (.log _ _ _) fun _ => .pure _

theorem judge_effects (result : AnalysisResult) : (judge result).HasEffects A :=
  .ite (.bind (.log _ _ _) fun _ => .pure _) (.bind (.log _ _ _) fun _ => .pure _)

end Effects

variable {r : Reviewer} {change : ChangeSelection} {number : Option Int} {s t : Runner}

/-- Without a log file, the files are collected as they were at the start. -/
theorem collect_eq_ok (hfile : s.journal.file = none) {files : List ChangedFile}
    (h : r.collect change s = (.ok files, t)) : files = r.filesIn change s := by
  rw [collect, Action.bind_run, Job.use_run] at h
  rcases hmake : Checkout.make change.checkout r.settings.analysis.extensions with m | c
  · rw [hmake] at h
    cases h
  · simp only [hmake, Except.mapError] at h
    rcases hpaths : change.paths with _ | paths
    · simp only [hpaths, Action.bind_eq_ok] at h
      obtain ⟨base, s₁, hbase, head, s₂, hhead, found, s₃, hcollect, h⟩ := h
      have hfound : found = files := by
        split_ifs at h
        · obtain ⟨u, -, -, hdone⟩ := Job.log_bind h
          cases hdone
          rfl
        · cases h
          rfl
      have haside := ((commit_effects change.base).keeps_of_quiet Runner.Aside.isCalm).of_run hbase
      have haside' := ((commit_effects change.head).keeps_of_quiet Runner.Aside.isCalm).of_run hhead
      have hcommits := haside.trans haside'
      obtain ⟨hfile₂, hsame⟩ := hcommits.disk hfile
      rw [← hfound, Checkout.collect_eq_ok hfile₂ hcollect, hsame, hcommits.wires.child]
      simp [filesIn, hmake, hpaths]
    · simp only [hpaths] at h
      simp [filesIn, hmake, hpaths, Checkout.loadFiles_eq_ok hfile h]

theorem analyze_eq_ok {files : List ChangedFile} {result : AnalysisResult}
    (h : r.analyze files s = (.ok result, t)) : result = aggregate r.rules files := by
  simp only [analyze, Action.bind_eq_ok] at h
  obtain ⟨_, s₁, -, _, s₂, -, _, s₃, -, _, s₄, -, hdone⟩ := h
  cases hdone
  exact r.crew.aggregate_eq r.rules files

theorem judge_eq_ok {result : AnalysisResult} {payload : Payload}
    (h : judge result s = (.ok payload, t)) : payload = result.payload := by
  unfold judge at h
  split_ifs at h
  all_goals
    obtain ⟨u, -, -, hdone⟩ := Job.log_bind h
    cases hdone
    rfl

/-- Up to the judgement, an analysis of a change starts a program and logs messages at most. -/
theorem keeps_of_judge {R : Runner → Runner → Prop} (hR : Runner.IsCalm R)
    (hcommands : Runner.AllowsCommands R) {files : List ChangedFile} {result : AnalysisResult}
    {payload : Payload} {s₁ s₂ s₃ : Runner} (hcollect : r.collect change s = (.ok files, s₁))
    (hanalyze : r.analyze files s₁ = (.ok result, s₂)) (hjudge : judge result s₂ = (.ok payload, s₃)) :
    R s s₃ := by
  have hcollected := ((r.collect_effects change).keeps_of_local hR hcommands).of_run hcollect
  have hanalyzed := ((r.analyze_effects files).keeps_of_quiet hR).of_run hanalyze
  have hjudged := ((judge_effects result).keeps_of_quiet hR).of_run hjudge
  exact hR.trans hcollected (hR.trans hanalyzed hjudged)

/-- An analysis of a change stores the review of the scan of the collected files. -/
theorem analyzeChange_eq_ok {a : Analysis} (h : r.analyzeChange change number s = (.ok a, t)) :
    ∃ files result s₁ written s₂,
      (r.collect change s).1 = .ok files ∧ result = aggregate r.rules files ∧
      (∀ R, Runner.IsCalm R → Runner.AllowsCommands R → R s s₁) ∧
      Artifacts.write r.store result.payload (some result) number s₁ = (.ok written, s₂) ∧
      (∀ R, Runner.IsCalm R → R s₂ t) ∧ a.payload = result.payload := by
  simp only [analyzeChange, Action.bind_eq_ok] at h
  obtain ⟨files, s₁, hcollect, result, s₂, hanalyze, payload, s₃, hjudge, written, s₄, hwrite, _, s₅,
    hlog, hdone⟩ := h
  cases hdone
  obtain rfl := judge_eq_ok hjudge
  refine ⟨files, result, s₃, written, s₄, by rw [hcollect], analyze_eq_ok hanalyze, ?_, hwrite, ?_, rfl⟩
  · exact fun R hR hcommands => keeps_of_judge hR hcommands hcollect hanalyze hjudge
  · exact fun R hR => (hR.log _ _ _).of_run hlog

/-! ### Without a log file -/

theorem filesIn_congr (hdisk : t.workspace = s.workspace) (hchild : t.child = s.child) :
    r.filesIn change t = r.filesIn change s := by
  simp only [filesIn, hdisk, hchild]

/-- An analysis of a change writes the files of its review. -/
theorem analyzeChange_stores (hfile : s.journal.file = none) {a : Analysis}
    (h : r.analyzeChange change number s = (.ok a, t)) :
    ∃ result, result = aggregate r.rules (r.filesIn change s) ∧
      s.Stores r.store (Artifacts.fileTexts result.payload (some result) number) t := by
  obtain ⟨files, result, s₁, written, s₂, hcollect, hresult, hquiet, hwrite, hcalm, -⟩ :=
    analyzeChange_eq_ok h
  rcases hrun : r.collect change s with ⟨collected, s₀⟩
  rw [hrun] at hcollect
  obtain rfl := hcollect
  obtain ⟨hfile₁, hdisk₁⟩ := hquiet _ Runner.SameDisk.isCalm Runner.SameDisk.allowsCommands hfile
  have hapart : s₁.journal.IsApart r.store.place := fun layout f hf => by simp [hfile₁] at hf
  have hstores := (Artifacts.write_eq_ok hapart hwrite).1
  obtain ⟨-, hdisk₂⟩ := hcalm _ Runner.SameDisk.isCalm (hstores.elsewhere hfile₁).1
  refine ⟨result, by rw [hresult, collect_eq_ok hfile hrun], ?_⟩
  exact (hstores.stores hfile₁).congr hdisk₁.symm hdisk₂

/-- Without an analysis the files of the review of failing tests are written, whatever the change is. -/
theorem rejectUntested_stores (hfile : s.journal.file = none) {a : Analysis}
    (h : r.rejectUntested number s = (.ok a, t)) :
    s.Stores r.store (Artifacts.fileTexts .failingTests none number) t ∧ s.SameWires t := by
  rw [rejectUntested, Action.bind_eq_ok] at h
  obtain ⟨written, s₁, hwrite, hdone⟩ := h
  cases hdone
  have hapart : s.journal.IsApart r.store.place := fun layout f hf => by simp [hfile] at hf
  have hstores := (Artifacts.write_eq_ok hapart hwrite).1
  exact ⟨hstores.stores hfile, hstores.wires⟩

end ReviewGate.Reviewer

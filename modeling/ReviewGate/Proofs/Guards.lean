import ReviewGate.Proofs.Posting.Requests
import ReviewGate.Proofs.Reviewer.Analysis
import ReviewGate.Proofs.TestGate

/-! Guards: the parts of the program that are made from settings look at what they are given once more. An
action passes the guards if none of them ever stops it. Of all that the program does, only making a reviewer,
a client or a poster meets a guard at all. -/
namespace ReviewGate

/-- Whether a result is not that of a guard. -/
def Unguarded {α : Type} (x : Except Fault α) : Prop :=
  ∀ e, x = .error e → e.isGuard = false

/-- Whether no guard stops an action, wherever it starts. -/
def PassesGuards {σ α : Type} (j : ExceptT Fault (StateM σ) α) : Prop :=
  ∀ s, Unguarded (j s).1

namespace Unguarded

variable {α : Type}

theorem ok (a : α) : Unguarded (.ok a) :=
  fun _ h => nomatch h

theorem error {e : Fault} (h : e.isGuard = false) : Unguarded (.error e : Except Fault α) := by
  rintro _ ⟨⟩
  exact h

end Unguarded

theorem FailsPlainly.unguarded {α : Type} {x : Except Fault α} (h : FailsPlainly x) : Unguarded x :=
  fun e hx => (Fault.isPlain_iff.mp (h e hx)).1

/-! ### Actions in general -/

namespace PassesGuards

section Action

variable {σ α β : Type} {j : ExceptT Fault (StateM σ) α}

theorem pure (a : α) : PassesGuards (Pure.pure a : ExceptT Fault (StateM σ) α) :=
  fun _ => .ok a

theorem throw {e : Fault} (h : e.isGuard = false) :
    PassesGuards (MonadExcept.throw e : ExceptT Fault (StateM σ) α) :=
  fun _ => .error h

theorem get : PassesGuards (MonadState.get : ExceptT Fault (StateM σ) σ) :=
  fun s => .ok s

theorem changing (f : σ → σ) : PassesGuards (modify f : ExceptT Fault (StateM σ) PUnit) := by
  intro s
  rw [Action.modify_run]
  exact .ok _

theorem setting (s : σ) : PassesGuards (MonadState.set s : ExceptT Fault (StateM σ) PUnit) :=
  fun _ => .ok PUnit.unit

theorem bind_of_run (hj : PassesGuards j) {f : α → ExceptT Fault (StateM σ) β}
    (hf : ∀ s a t, j s = (.ok a, t) → PassesGuards (f a)) : PassesGuards (j >>= f) := by
  intro s
  have hs := hj s
  rw [Action.bind_run]
  rcases hrun : j s with ⟨e | a, t⟩ <;> rw [hrun] at hs
  · exact .error (hs e rfl)
  · exact hf s a t hrun t

theorem bind (hj : PassesGuards j) {f : α → ExceptT Fault (StateM σ) β} (hf : ∀ a, PassesGuards (f a)) :
    PassesGuards (j >>= f) :=
  hj.bind_of_run fun _ a _ _ => hf a

theorem ite {c : Prop} [Decidable c] {j' : ExceptT Fault (StateM σ) α} (hj : PassesGuards j)
    (hj' : PassesGuards j') : PassesGuards (if c then j else j') := by
  split_ifs <;> assumption

end Action

section Job

variable {α : Type} {j : Job α}

theorem log (level : LogLevel) (source message : String) : PassesGuards (Job.log level source message) := by
  intro s
  rw [Job.log_ok]
  exact .ok ()

theorem ofExcept {x : Except Fault α} (h : Unguarded x) : PassesGuards (Job.ofExcept x) := by
  intro s
  rw [Job.ofExcept_run]
  exact h

theorem use (x : Except Misuse α) : PassesGuards (Job.use x) := by
  intro s
  rw [Job.use_run]
  exact (FailsPlainly.mapError (fun _ => rfl) x).unguarded

theorem catching (hj : PassesGuards j) (family : Fault → Bool) : PassesGuards (Job.catching family j) := by
  intro s
  have hs := hj s
  rw [Job.catching_run]
  rcases hrun : j s with ⟨e | a, t⟩ <;> rw [hrun] at hs
  · dsimp only
    split_ifs
    · exact .ok _
    · exact .error (hs e rfl)
  · exact .ok _

theorem start (c : Command) : PassesGuards (Job.start c) := by
  have hnote : PassesGuards (Job.note c) := .changing _
  unfold Job.start
  cases c.args with
  | nil => exact .bind hnote fun _ => .throw rfl
  | cons program more =>
    refine .bind (.ofExcept c.check_failsPlainly.unguarded) fun _ => ?_
    refine .bind hnote fun _ => .bind .get fun s => ?_
    cases s.child <;> exact .pure _

end Job

end PassesGuards

/-! ### Files -/

section Files

open Workspace

variable (w : Workspace) (p : Path) (content : List UInt8)

theorem unguarded_write : Unguarded (w.write p content) := by
  unfold write
  split_ifs
  · exact .error rfl
  · exact (refused_failsPlainly p _).unguarded

theorem unlessDirectory_passes (problem : StorageProblem) :
    PassesGuards (makeDirectoriesFrom.unlessDirectory p problem) := by
  intro w
  have hdirectory := (w.isDirectory_failsPlainly p).unguarded
  unfold makeDirectoriesFrom.unlessDirectory
  cases problem
  case missing => exact .error rfl
  all_goals
    simp only [Action.bind_run, Action.get_run]
    rcases hfound : w.isDirectory p with e | _ | _
    · exact .error (hdirectory e hfound)
    · exact .error rfl
    · exact .ok ()

theorem makeDirectoriesFrom_passes (root : String) (parts : List String) :
    PassesGuards (makeDirectoriesFrom root parts) := by
  induction parts with
  | nil => exact .pure _
  | cons part before ih =>
    refine .bind .get fun w => ?_
    split
    · exact .setting _
    · refine .bind ih fun _ => .bind .get fun w => ?_
      split
      · exact .setting _
      · exact unlessDirectory_passes _ _
    · exact unlessDirectory_passes _ _

theorem makeDirectories_passes : PassesGuards (Job.makeDirectories p) := by
  have hdisk : PassesGuards (makeDirectories p) :=
    .ite (.throw rfl) (makeDirectoriesFrom_passes _ _)
  intro s
  rw [Job.makeDirectories_run]
  exact hdisk s.workspace

theorem writeFile_passes : PassesGuards (Job.writeFile p content) :=
  .bind .get fun s => .bind (.ofExcept (unguarded_write s.workspace p content)) fun _ => .changing _

end Files

/-! ### Stored reviews and test results -/

namespace Artifacts

variable (directory path : Path) (name : String)

theorem writeText_passes (content : String) : PassesGuards (writeText directory name content) :=
  .bind (writeFile_passes _ _) fun _ => .bind (.log _ _ _) fun _ => .pure _

theorem write_passes (payload : Payload) (result : Option AnalysisResult) (number : Option Int) :
    PassesGuards (write directory payload result number) := by
  have htext := writeText_passes directory
  have hdetails : PassesGuards (writeDetails directory payload result) := by
    cases result with
    | none => exact .pure _
    | some r =>
      exact .bind (.ofExcept (FailsPlainly.mapError (fun _ => rfl) _).unguarded) fun _ =>
        .bind (htext _ _) fun _ => .bind (htext _ _) fun _ => .pure _
  have hnumber : PassesGuards (writeNumber directory number) := by
    cases number with
    | none => exact .pure _
    | some n =>
      exact .bind (.ofExcept (FailsPlainly.mapError (fun _ => rfl) _).unguarded) fun _ =>
        .bind (htext _ _) fun _ => .pure _
  rw [write_eq]
  exact .bind (makeDirectories_passes _) fun _ => .bind (htext _ _) fun _ => .bind (htext _ _) fun _ =>
    .bind (htext _ _) fun _ => .bind hdetails fun _ => .bind hnumber fun _ => .bind (.log _ _ _) fun _ =>
      .pure _

end Artifacts

namespace TestGate

theorem writeResults_passes (path : Path) (passed : Bool) : PassesGuards (writeResults path passed) :=
  .bind (makeDirectories_passes _) fun _ => .bind (writeFile_passes _ _) fun _ => .pure _

end TestGate

/-! ### The forge -/

namespace Forge

theorem noteBudget_passes (r : Reply) : PassesGuards (noteBudget r) := by
  have hnumber : ∀ name (note : Int → Job Unit), (∀ n, PassesGuards (note n)) →
      PassesGuards (noteNumber r name note) := by
    intro name note hnote
    refine .bind (.ofExcept (headerNumber_failsPlainly r name).unguarded) fun n => ?_
    cases n with
    | none => exact .pure _
    | some n => exact hnote n
  have hboth : PassesGuards (noteNumber r remainingHeader noteRemaining >>= fun _ =>
      noteNumber r resetHeader noteReset) :=
    .bind (hnumber _ _ fun _ => .changing _) fun _ => hnumber _ _ fun n =>
      .bind (.ofExcept (checkTime_failsPlainly n).unguarded) fun _ => .changing _
  intro s
  rw [noteBudget_eq]
  exact hboth s

theorem accept_passes (r : Reply) : PassesGuards (accept r) := by
  have hreset : PassesGuards (resetOf r) := .bind .get fun _ => .pure _
  have hdescribe : ∀ data : Value, PassesGuards (Job.use (data.getOr "message" (.str "Unknown error")) >>=
      fun description => throw (.answer r.status data description) : Job Reply) := fun _ =>
    .bind (.use _) fun _ => .throw rfl
  exact .ite (.bind hreset fun _ => .throw rfl) (.ite (.pure _)
    (.ite (.bind (.pure _) hdescribe) (.bind (.ofExcept (json_failsPlainly r).unguarded) hdescribe)))

theorem send_passes (q : Request) : PassesGuards (send q) := by
  have hhold : PassesGuards holdBack :=
    .bind .get fun _ => .ite (.bind (.log _ _ _) fun _ => .throw rfl) (.pure _)
  rw [send_eq]
  refine .bind hhold fun _ => .bind (fun s => .ok _) fun o => ?_
  cases o with
  | broken description => exact .bind (.log _ _ _) fun _ => .throw rfl
  | reply r => exact .bind (noteBudget_passes r) fun _ => accept_passes r

end Forge

/-- What fails plainly by itself passes the guards: requests do, and programs that are started. -/
theorem PassesGuards.of_effects {A : Effect → Prop} {α : Type} {j : Job α} (h : j.HasEffects A) :
    PassesGuards j := by
  induction h with
  | pure a => exact .pure a
  | throw plain => exact .throw (Fault.isPlain_iff.mp plain).1
  | get => exact .get
  | ofExcept plain => exact .ofExcept plain.unguarded
  | use x => exact .use x
  | log level source message => exact .log level source message
  | start c _ => exact .start c
  | send q _ => exact Forge.send_passes q
  | catching family _ _ ih => exact .catching ih family
  | bind _ _ ihfirst ihnext => exact .bind ihfirst ihnext

/-! ### The stages -/

namespace Reviewer

variable (r : Reviewer)

theorem runTests_passes : PassesGuards r.runTests :=
  .bind (.of_effects (TestGate.runTests_effects _ _ _)) fun passed => .bind (.use _) fun path =>
    .bind (TestGate.writeResults_passes path passed) fun _ => .pure _

theorem runAnalysis_passes (tested : Bool) (change : ChangeSelection) (number : Option Int) :
    PassesGuards (r.runAnalysis tested change number) := by
  refine .ite ?_ (.bind (Artifacts.write_passes _ _ _ _) fun _ => .pure _)
  have hcollect : PassesGuards (r.collect change) := .of_effects (r.collect_effects change)
  have hanalyze : ∀ files, PassesGuards (r.analyze files) := fun files =>
    .of_effects (r.analyze_effects (A := Effect.IsQuiet) files)
  have hjudge : ∀ result, PassesGuards (judge result) := fun result =>
    .of_effects (judge_effects (A := Effect.IsQuiet) result)
  exact .bind hcollect fun files => .bind (hanalyze files) fun result => .bind (hjudge result) fun _ =>
    .bind (Artifacts.write_passes _ _ _ _) fun _ => .bind (.log _ _ _) fun _ => .pure _

theorem readStored_passes : PassesGuards r.readStored := by
  intro s
  have hread := PassesGuards.of_effects (Artifacts.read_effects (A := Effect.IsQuiet) r.store) s
  rw [readStored, Action.bind_run, Job.catching_run]
  rcases hrun : Artifacts.read r.store s with ⟨e | review, t⟩ <;> rw [hrun] at hread
  · -- What is thrown again has been read off the files, and no guard has been met.
    have hagain : PassesGuards (Job.log .error source ("Cannot post review: " ++ e.message) >>=
        fun _ => throw e : Job StoredReview) := .bind (.log _ _ _) fun _ => .throw (hread e rfl)
    dsimp only
    split_ifs
    · exact hagain t
    · exact .error (hread e rfl)
  · exact .ok review

/-- A token that has been looked at once is good enough for a client. -/
theorem clientFor_passes (client : Option Forge.Client) : PassesGuards (r.clientFor client) := by
  cases client with
  | some c => exact .pure c
  | none =>
    unfold clientFor
    dsimp only
    cases htoken : r.settings.forge.token.isGiven with
    | false => exact .throw rfl
    | true =>
      have hmake : Unguarded (Forge.Client.make r.settings.forge.token r.settings.forge.baseUrl
          r.settings.forge.timeout) := by
        unfold Forge.Client.make
        simp only [htoken, Bool.not_true, Bool.false_eq_true, if_false]
        split
        · exact .ok _
        · exact .error rfl
      exact .bind (.ofExcept hmake) fun _ => .bind (.changing _) fun _ => .pure _

/-- A posting passes the guards if the repository, unless there is none, is good enough for a poster. -/
theorem runPosting_passes
    (h : r.settings.forge.repository.isGiven = true →
      ∀ c marker recreate, Unguarded (Poster.make c r.settings.forge.repository marker recreate))
    (client : Option Forge.Client) (run number : Option Int) (details : Option String) :
    PassesGuards (r.runPosting client run number details) := by
  unfold runPosting
  cases hgiven : r.settings.forge.repository.isGiven with
  | false => exact .throw rfl
  | true =>
    exact .bind r.readStored_passes fun review => .bind (r.clientFor_passes client) fun c =>
      .bind (.ofExcept (h hgiven c _ _)) fun p => .of_effects (p.post_effects review run number details)

end Reviewer

end ReviewGate

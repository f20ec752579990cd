import Mathlib.Tactic.SplitIfs
import ReviewGate.Proofs.Action
import ReviewGate.Proofs.Log

/-! What jobs leave alone. Most jobs only read files and log what they do. -/
namespace ReviewGate

/-- Whether the log file, if there is one, is in another directory. -/
def Journal.IsApart (j : Journal) (place : Location) : Prop :=
  ∀ layout f, j.file = some (layout, f) → f.path.parent.place ≠ place

namespace Runner

/-- Whether the log file, if there is one, is open: it can be read, and lines can be added to it. -/
def HasLog (s : Runner) : Prop :=
  ∀ layout f, s.journal.file = some (layout, f) →
    ∃ content, LogFile.content? s.workspace f.path = some content

/-- Whether a log file that is open stays open. -/
def KeepsLog (s t : Runner) : Prop :=
  s.HasLog → t.HasLog

/-- Whether two machines differ at most in their files and in what they have shown. -/
structure SameWires (s t : Runner) : Prop where
  now : t.now = s.now
  child : t.child = s.child
  network : t.network = s.network
  budget : t.budget = s.budget
  commands : t.commands = s.commands
  requests : t.requests = s.requests

theorem SameWires.refl (s : Runner) : s.SameWires s :=
  ⟨rfl, rfl, rfl, rfl, rfl, rfl⟩

theorem SameWires.trans {s t u : Runner} (h : s.SameWires t) (h' : t.SameWires u) : s.SameWires u :=
  ⟨h'.now.trans h.now, h'.child.trans h.child, h'.network.trans h.network, h'.budget.trans h.budget,
    h'.commands.trans h.commands, h'.requests.trans h.requests⟩

/-- Whether a directory, if it is one, is left as it is: the log goes on as before, and only the log
writes files. -/
structure Leaves (place : Location) (s t : Runner) : Prop where
  journal : t.journal = s.journal
  grows : s.workspace.Grows t.workspace
  entry : s.journal.IsApart place → s.workspace.IsOpen place →
    ∀ name, t.workspace.entryAt? (place ++ [name]) = s.workspace.entryAt? (place ++ [name])
  vacant : s.journal.IsApart place → ∀ name, s.workspace.contentAt? (place ++ [name]) = none →
    t.workspace.contentAt? (place ++ [name]) = none

theorem Leaves.refl (place : Location) (s : Runner) : s.Leaves place s :=
  ⟨rfl, .refl _, fun _ _ _ => rfl, fun _ _ h => h⟩

theorem Leaves.trans {place : Location} {s t u : Runner} (h : s.Leaves place t)
    (h' : t.Leaves place u) : s.Leaves place u := by
  refine ⟨h'.journal.trans h.journal, h.grows.trans h'.grows, fun hapart hopen name => ?_,
    fun hapart name hnone => ?_⟩
  · rw [h'.entry (h.journal ▸ hapart) (h.grows place hopen), h.entry hapart hopen]
  · exact h'.vacant (h.journal ▸ hapart) name (h.vacant hapart name hnone)

end Runner

/-- Whether two machines have the same files if they have no log file. -/
def Runner.SameDisk (s t : Runner) : Prop :=
  s.journal.file = none → t.journal.file = none ∧ t.workspace = s.workspace

theorem Runner.SameDisk.refl (s : Runner) : s.SameDisk s :=
  fun hfile => ⟨hfile, rfl⟩

theorem Runner.SameDisk.trans {s t u : Runner} (h : s.SameDisk t) (h' : t.SameDisk u) :
    s.SameDisk u := by
  intro hfile
  obtain ⟨hfile', hdisk⟩ := h hfile
  obtain ⟨hfile'', hdisk'⟩ := h' hfile'
  exact ⟨hfile'', hdisk'.trans hdisk⟩

/-- Whether two machines without a log file differ at most in how they log and in what has been shown on
the error output. -/
structure Runner.Aside (s t : Runner) : Prop where
  wires : s.SameWires t
  disk : s.SameDisk t
  output : t.output = s.output

theorem Runner.Aside.refl (s : Runner) : s.Aside s :=
  ⟨.refl s, .refl s, rfl⟩

theorem Runner.Aside.trans {s t u : Runner} (h : s.Aside t) (h' : t.Aside u) : s.Aside u :=
  ⟨h.wires.trans h'.wires, h.disk.trans h'.disk, h'.output.trans h.output⟩

namespace Job

/-- Logging shows something and may add to the log file. -/
theorem log_run (level : LogLevel) (source message : String) (s : Runner) :
    ∃ errors w, log level source message s = (.ok (), { s with errors := errors, workspace := w }) ∧
      (w = s.workspace ∨
        ∃ layout f line, s.journal.file = some (layout, f) ∧ w = f.append line s.workspace) := by
  unfold log
  rw [Action.modify_run]
  split_ifs
  · exact ⟨s.errors, s.workspace, rfl, Or.inl rfl⟩
  · refine ⟨_, _, rfl, ?_⟩
    rcases hfile : s.journal.file with _ | ⟨layout, f⟩
    · exact Or.inl rfl
    · dsimp only
      rcases LogLayout.line? layout ⟨level, source, message⟩ with _ | line
      · exact Or.inl rfl
      · exact Or.inr ⟨layout, f, line, rfl, rfl⟩

theorem log_ok (level : LogLevel) (source message : String) (s : Runner) :
    (log level source message s).1 = .ok () := by
  obtain ⟨errors, w, hrun, -⟩ := log_run level source message s
  rw [hrun]

theorem log_wires (level : LogLevel) (source message : String) :
    (log level source message).Keeps Runner.SameWires := by
  intro s
  obtain ⟨errors, w, hrun, -⟩ := log_run level source message s
  rw [hrun]
  exact ⟨rfl, rfl, rfl, rfl, rfl, rfl⟩

theorem log_leaves (level : LogLevel) (source message : String) (place : Location) :
    (log level source message).Keeps (Runner.Leaves place) := by
  intro s
  obtain ⟨errors, w, hrun, hw⟩ := log_run level source message s
  rw [hrun]
  rcases hw with rfl | ⟨layout, f, line, hfile, rfl⟩
  · exact ⟨rfl, .refl _, fun _ _ _ => rfl, fun _ _ h => h⟩
  · have happart := LogFile.append_apart f line s.workspace
    exact ⟨rfl, happart.grows,
      fun hapart hopen name => happart.entry place hopen (hapart layout f hfile).symm name,
      fun hapart name hnone => happart.vacant place (hapart layout f hfile).symm name hnone⟩

theorem log_disk (level : LogLevel) (source message : String) :
    (log level source message).Keeps Runner.SameDisk := by
  intro s hfile
  obtain ⟨errors, w, hrun, hw⟩ := log_run level source message s
  rw [hrun]
  rcases hw with rfl | ⟨layout, f, line, hfile', -⟩
  · exact ⟨hfile, rfl⟩
  · rw [hfile] at hfile'
    cases hfile'

theorem log_keepsLog (level : LogLevel) (source message : String) :
    (log level source message).Keeps Runner.KeepsLog := by
  intro s hs layout f hfile
  obtain ⟨errors, w, hrun, hw⟩ := log_run level source message s
  rw [hrun] at hfile ⊢
  obtain ⟨content, hcontent⟩ := hs layout f hfile
  rcases hw with rfl | ⟨layout', f', line, hfile', rfl⟩
  · exact ⟨content, hcontent⟩
  · obtain ⟨rfl, rfl⟩ : layout = layout' ∧ f = f' := by simpa using hfile.symm.trans hfile'
    exact LogFile.exists_content_append hcontent line

end Job

/-- Whether a relation between machines holds of those that differ by what jobs do on the side: nothing,
a message in the log, or one such thing after the other. -/
structure Runner.IsCalm (R : Runner → Runner → Prop) : Prop where
  refl : ∀ s, R s s
  trans : ∀ {s t u}, R s t → R t u → R s u
  log : ∀ level source message, (Job.log level source message).Keeps R

/-- Whether a relation between machines holds of those that differ in the programs they have started. -/
def Runner.AllowsCommands (R : Runner → Runner → Prop) : Prop :=
  ∀ s commands, R s { s with commands := commands }

namespace Runner

theorem SameWires.isCalm : IsCalm SameWires :=
  ⟨.refl, .trans, Job.log_wires⟩

theorem Leaves.isCalm (place : Location) : IsCalm (Leaves place) :=
  ⟨.refl place, .trans, fun level source message => Job.log_leaves level source message place⟩

theorem SameDisk.isCalm : IsCalm SameDisk :=
  ⟨.refl, .trans, Job.log_disk⟩

theorem KeepsLog.isCalm : IsCalm KeepsLog :=
  ⟨fun _ h => h, fun h h' hs => h' (h hs), Job.log_keepsLog⟩

theorem Aside.isCalm : IsCalm Aside := by
  refine ⟨.refl, .trans, fun level source message s => ?_⟩
  refine ⟨Job.log_wires level source message s, Job.log_disk level source message s, ?_⟩
  obtain ⟨errors, w, hrun, -⟩ := Job.log_run level source message s
  rw [hrun]

theorem Leaves.allowsCommands (place : Location) : AllowsCommands (Leaves place) :=
  fun s _ => ⟨rfl, .refl s.workspace, fun _ _ _ => rfl, fun _ _ h => h⟩

theorem SameDisk.allowsCommands : AllowsCommands SameDisk :=
  fun _ _ hfile => ⟨hfile, rfl⟩

theorem KeepsLog.allowsCommands : AllowsCommands KeepsLog :=
  fun _ _ h => h

end Runner

namespace Job

variable {α : Type} {level : LogLevel} {source message : String} {s t : Runner}

/-- After a message has been logged, the rest of a job goes on on a machine that is hardly different. -/
theorem log_calm {rest : Job α} {result : Except Fault α}
    (h : (log level source message >>= fun _ => rest) s = (result, t)) :
    ∃ u, (∀ R, Runner.IsCalm R → R s u) ∧ rest u = (result, t) := by
  obtain ⟨errors, w, hlog, -⟩ := log_run level source message s
  rw [Action.bind_run_ok hlog] at h
  exact ⟨_, fun R hR => (hR.log level source message).of_run hlog, h⟩

/-- After a message has been logged, the rest of a job goes on as before. -/
theorem log_bind {rest : Job α} {result : Except Fault α}
    (h : (log level source message >>= fun _ => rest) s = (result, t)) :
    ∃ u, s.SameWires u ∧ (∀ place, s.Leaves place u) ∧ rest u = (result, t) := by
  obtain ⟨u, hcalm, hrest⟩ := log_calm h
  exact ⟨u, hcalm _ Runner.SameWires.isCalm, fun place => hcalm _ (Runner.Leaves.isCalm place), hrest⟩

theorem log_return {a b : α} (h : (do log level source message; return b : Job α) s = (.ok a, t)) :
    a = b ∧ ∀ R, Runner.IsCalm R → R s t := by
  obtain ⟨u, hcalm, hdone⟩ := log_calm h
  cases hdone
  exact ⟨rfl, hcalm⟩

end Job

namespace Job.Keeps

variable {α β : Type} {R : Runner → Runner → Prop} {j : Job α} (hR : Runner.IsCalm R)
include hR

theorem pure (a : α) : (Pure.pure a : Job α).Keeps R :=
  hR.refl

theorem throw (e : Fault) : (MonadExcept.throw e : Job α).Keeps R :=
  hR.refl

theorem get : (MonadState.get : Job Runner).Keeps R :=
  hR.refl

theorem ofExcept (x : Except Fault α) : (Job.ofExcept x).Keeps R := by
  intro s
  rw [Job.ofExcept_run]
  exact hR.refl s

theorem use (x : Except Misuse α) : (Job.use x).Keeps R := by
  intro s
  rw [Job.use_run]
  exact hR.refl s

theorem bind (hj : j.Keeps R) {f : α → Job β} (hf : ∀ a, (f a).Keeps R) : (j >>= f).Keeps R := by
  intro s
  have hs := hj s
  rw [Action.bind_run]
  rcases h : j s with ⟨_ | a, t⟩ <;> rw [h] at hs
  · exact hs
  · exact hR.trans hs (hf a t)

/-- A job that goes on with the use of a value need only be looked at where the value is fit for it. -/
theorem use_bind {x : Except Misuse α} {f : α → Job β} (hf : ∀ a, x = .ok a → (f a).Keeps R) :
    (Job.use x >>= f).Keeps R := by
  intro s
  rw [Action.bind_run, Job.use_run]
  cases x with
  | error m => exact hR.refl s
  | ok a => exact hf a rfl s

omit hR in
theorem catching (hj : j.Keeps R) (family : Fault → Bool) : (Job.catching family j).Keeps R := by
  intro s
  have hs := hj s
  rw [Job.catching_run]
  rcases h : j s with ⟨e | a, t⟩ <;> rw [h] at hs
  · cases hfamily : family e <;> simpa [hfamily] using hs
  · exact hs

omit hR in
theorem ite {c : Prop} [Decidable c] {j' : Job α} (hj : j.Keeps R) (hj' : j'.Keeps R) :
    (if c then j else j').Keeps R := by
  split_ifs <;> assumption

theorem start (hcommands : Runner.AllowsCommands R) (c : Command) :
    (Job.start c).Keeps R := by
  have hnote : (Job.note c).Keeps R := fun s => hcommands s _
  unfold Job.start
  cases c.args with
  | nil => exact .bind hR hnote fun _ => .throw hR _
  | cons program more =>
    refine .bind hR (.ofExcept hR _) fun _ => .bind hR hnote fun _ => .bind hR (.get hR) fun s => ?_
    cases s.child <;> exact .pure hR _

end Job.Keeps

/-- Whether an action has a result on every machine. -/
def Job.Gives {α : Type} (j : Job α) (a : α) : Prop :=
  ∀ s, (j s).1 = .ok a

namespace Job.Gives

variable {α β : Type} {j : Job α} {a : α} {b : β}

theorem pure (a : α) : (Pure.pure a : Job α).Gives a :=
  fun _ => rfl

theorem log (level : LogLevel) (source message : String) : (Job.log level source message).Gives () :=
  Job.log_ok level source message

theorem exists_run (h : j.Gives a) (s : Runner) : ∃ t, j s = (.ok a, t) := by
  have hs := h s
  rcases hrun : j s with ⟨result, t⟩
  rw [hrun] at hs
  obtain rfl : result = .ok a := hs
  exact ⟨t, rfl⟩

theorem bind (hj : j.Gives a) {f : α → Job β} (hf : (f a).Gives b) : (j >>= f).Gives b := by
  intro s
  obtain ⟨t, hrun⟩ := hj.exists_run s
  rw [Action.bind_run_ok hrun]
  exact hf t

theorem catching (hj : j.Gives a) (family : Fault → Bool) : (Job.catching family j).Gives (.ok a) := by
  intro s
  obtain ⟨t, hrun⟩ := hj.exists_run s
  rw [Job.catching_run, hrun]

theorem unique {c : α} (hj : j.Gives a) (hj' : j.Gives c) : a = c :=
  Except.ok.inj ((hj (.fresh 0)).symm.trans (hj' (.fresh 0)))

/-- Jobs one after the other give what each of them gives by itself. -/
theorem mapM {f : α → Job β} {g : α → β} (h : ∀ a, (f a).Gives (g a)) (as : List α) :
    (as.mapM f).Gives (as.map g) := by
  induction as with
  | nil => exact .pure []
  | cons a as ih =>
    rw [List.mapM_cons, List.map_cons]
    exact .bind (h a) (.bind ih (.pure _))

end Job.Gives

end ReviewGate

import ReviewGate.Forge.Client
import ReviewGate.Proofs.Job

/-! The effects of jobs. Apart from looking at the machine and logging, a job starts programs, sends requests
and goes on after faults. Going through a job once shows which of these it does. What it leaves alone, and
how it may fail, follows from that alone. -/
namespace ReviewGate

/-! ### Faults -/

/-- Whether a fault is that of a part that was given something it is not made for. -/
def Fault.isGuard : Fault → Bool
  | .refused .windowNotPositive | .refused .noWorkers | .refused .repositoryForm | .refused .noToken => true
  | _ => false

/-- Whether a fault is neither that of a guard nor one of the forge. -/
def Fault.isPlain (e : Fault) : Bool :=
  !e.isGuard && !e.isForge

/-- Whether a result, if it is a fault, is a plain one. -/
def FailsPlainly {α : Type} (x : Except Fault α) : Prop :=
  ∀ e, x = .error e → e.isPlain = true

theorem Fault.isPlain_iff {e : Fault} : e.isPlain = true ↔ e.isGuard = false ∧ e.isForge = false := by
  simp [isPlain]

namespace FailsPlainly

variable {α β ε : Type} {x : Except Fault α}

theorem ok (a : α) : FailsPlainly (.ok a) :=
  fun _ h => nomatch h

theorem error {e : Fault} (h : e.isPlain = true) : FailsPlainly (.error e : Except Fault α) := by
  rintro _ ⟨⟩
  exact h

theorem mapError {f : ε → Fault} (h : ∀ e, (f e).isPlain = true) (y : Except ε α) :
    FailsPlainly (y.mapError f) := by
  cases y with
  | ok a => exact ok a
  | error e => exact error (h e)

theorem map (h : FailsPlainly x) (f : α → β) : FailsPlainly (x.map f) := by
  cases x with
  | ok a => exact ok _
  | error e => exact error (h e rfl)

theorem bind (h : FailsPlainly x) {f : α → Except Fault β} (hf : ∀ a, FailsPlainly (f a)) :
    FailsPlainly (x >>= f) := by
  cases x with
  | ok a => exact hf a
  | error e => exact error (h e rfl)

theorem isForge (h : FailsPlainly x) {e : Fault} (hx : x = .error e) : e.isForge = false :=
  (Fault.isPlain_iff.mp (h e hx)).2

end FailsPlainly

theorem Command.check_failsPlainly (c : Command) : FailsPlainly c.check := by
  unfold check
  repeat' split
  all_goals first | exact .ok _ | exact .error rfl

/-! ### Effects -/

/-- What a job does apart from looking at the machine and logging. -/
inductive Effect where
  | start
  | send (q : Forge.Request)
  | recover

namespace Effect

/-- Whether an effect is to go on after a fault. -/
def IsQuiet : Effect → Prop
  | recover => True
  | _ => False

/-- Whether an effect stays on the machine. -/
def IsLocal : Effect → Prop
  | send _ => False
  | _ => True

/-- Whether an effect is to send a request that has a property. -/
def IsRequest (P : Forge.Request → Prop) : Effect → Prop
  | send q => P q
  | _ => False

/-- Whether an effect is to send a request that has a property, or to go on after a fault. -/
def IsExchange (P : Forge.Request → Prop) : Effect → Prop
  | start => False
  | send q => P q
  | recover => True

variable {P Q : Forge.Request → Prop} {x : Effect}

theorem IsLocal.of_quiet (h : x.IsQuiet) : x.IsLocal := by
  cases x with
  | recover => trivial
  | start => trivial
  | send q => cases h

theorem IsRequest.mono (himp : ∀ q, P q → Q q) (h : x.IsRequest P) : x.IsRequest Q := by
  cases x with
  | send q => exact himp q h
  | start => cases h
  | recover => cases h

theorem IsExchange.of_request (h : x.IsRequest P) : x.IsExchange P := by
  cases x with
  | send q => exact h
  | start => cases h
  | recover => cases h

theorem IsExchange.mono (himp : ∀ q, P q → Q q) (h : x.IsExchange P) : x.IsExchange Q := by
  cases x with
  | start => cases h
  | send q => exact himp q h
  | recover => trivial

end Effect

namespace Job

/-- Whether all effects of a job have a property. What it fails with by itself is plain: it is the forge that
a request fails with, and it is a guard that is met where a part is made from settings. -/
inductive HasEffects (A : Effect → Prop) : {α : Type} → Job α → Prop
  | pure {α : Type} (a : α) : HasEffects A (Pure.pure a : Job α)
  | throw {α : Type} {e : Fault} (plain : e.isPlain = true) :
    HasEffects A (MonadExcept.throw e : Job α)
  | get : HasEffects A (MonadState.get : Job Runner)
  | ofExcept {α : Type} {x : Except Fault α} (plain : FailsPlainly x) : HasEffects A (Job.ofExcept x)
  | use {α : Type} (x : Except Misuse α) : HasEffects A (Job.use x)
  | log (level : LogLevel) (source message : String) : HasEffects A (Job.log level source message)
  | start (c : Command) (allowed : A .start) : HasEffects A (Job.start c)
  | send (q : Forge.Request) (allowed : A (.send q)) : HasEffects A (Forge.send q)
  | catching {α : Type} {j : Job α} (family : Fault → Bool) (allowed : A .recover)
    (job : HasEffects A j) : HasEffects A (Job.catching family j)
  | bind {α β : Type} {j : Job α} {f : α → Job β} (first : HasEffects A j)
    (next : ∀ a, HasEffects A (f a)) : HasEffects A (j >>= f)

namespace HasEffects

variable {A B : Effect → Prop} {R : Runner → Runner → Prop} {α : Type} {j : Job α}

theorem ite {c : Prop} [Decidable c] {j' : Job α} (hj : j.HasEffects A) (hj' : j'.HasEffects A) :
    (if c then j else j').HasEffects A := by
  split_ifs <;> assumption

theorem mono (himp : ∀ {x : Effect}, A x → B x) (h : j.HasEffects A) : j.HasEffects B := by
  induction h with
  | pure a => exact .pure a
  | throw plain => exact .throw plain
  | get => exact .get
  | ofExcept plain => exact .ofExcept plain
  | use x => exact .use x
  | log level source message => exact .log level source message
  | start c allowed => exact .start c (himp allowed)
  | send q allowed => exact .send q (himp allowed)
  | catching family allowed _ ih => exact .catching family (himp allowed) ih
  | bind _ _ ihfirst ihnext => exact .bind ihfirst ihnext

/-- What messages in the log leave alone, and what each effect of a job does, is left alone by the job. -/
theorem keeps (hR : Runner.IsCalm R) (hstart : A .start → Runner.AllowsCommands R)
    (hsend : ∀ q, A (.send q) → (Forge.send q).Keeps R) (h : j.HasEffects A) : j.Keeps R := by
  induction h with
  | pure a => exact .pure hR a
  | throw _ => exact .throw hR _
  | get => exact .get hR
  | ofExcept _ => exact .ofExcept hR _
  | use x => exact .use hR x
  | log level source message => exact hR.log level source message
  | start c allowed => exact .start hR (hstart allowed) c
  | send q allowed => exact hsend q allowed
  | catching family _ _ ih => exact .catching ih family
  | bind _ _ ihfirst ihnext => exact .bind hR ihfirst ihnext

theorem keeps_of_quiet (h : j.HasEffects Effect.IsQuiet) (hR : Runner.IsCalm R) : j.Keeps R :=
  h.keeps hR (fun hstart => hstart.elim) fun _ hsend => hsend.elim

theorem keeps_of_local (h : j.HasEffects Effect.IsLocal) (hR : Runner.IsCalm R)
    (hcommands : Runner.AllowsCommands R) : j.Keeps R :=
  h.keeps hR (fun _ => hcommands) fun _ hsend => hsend.elim

end HasEffects

end Job

/-! ### Looking at files -/

namespace Workspace

variable (w : Workspace) (p : Path)

theorem refused_failsPlainly {α : Type} (x : Except StorageProblem α) : FailsPlainly (refused p x) := by
  cases x with
  | ok a => exact .ok a
  | error problem => exact .error rfl

theorem status_failsPlainly : FailsPlainly (w.status p) := by
  unfold status
  split_ifs
  · exact .ok _
  · split
    · exact .ok _
    · exact .error rfl
    · exact .ok _

theorem isFile_failsPlainly : FailsPlainly (w.isFile p) :=
  (w.status_failsPlainly p).map _

theorem isDirectory_failsPlainly : FailsPlainly (w.isDirectory p) :=
  (w.status_failsPlainly p).map _

theorem read_failsPlainly : FailsPlainly (w.read p) := by
  unfold Workspace.read
  split_ifs
  · exact .error rfl
  · exact refused_failsPlainly p _

end Workspace

namespace Job

variable {A : Effect → Prop} (p : Path)

theorem isFile_effects : (isFile p).HasEffects A :=
  .bind .get fun s => .ofExcept (s.workspace.isFile_failsPlainly p)

theorem isDirectory_effects : (isDirectory p).HasEffects A :=
  .bind .get fun s => .ofExcept (s.workspace.isDirectory_failsPlainly p)

theorem readFile_effects : (readFile p).HasEffects A :=
  .bind .get fun s => .ofExcept (s.workspace.read_failsPlainly p)

end Job

end ReviewGate

import ReviewGate.Runner

/-! What actions do, step by step: an action changes a state and gives a result or a fault. -/
namespace ReviewGate

namespace Action

variable {ε σ α β : Type}

/-- Two outcomes are the same if their results and their states are. -/
theorem outcome_eq {a b : α} {s t : σ} : @Eq (Id (α × σ)) (a, s) (b, t) ↔ a = b ∧ s = t := by
  show (a, s) = (b, t) ↔ _
  exact Prod.ext_iff

theorem pure_run (a : α) (s : σ) : (pure a : ExceptT ε (StateM σ) α) s = (.ok a, s) := rfl

theorem throw_run (e : ε) (s : σ) : (throw e : ExceptT ε (StateM σ) α) s = (.error e, s) := rfl

theorem get_run (s : σ) : (get : ExceptT ε (StateM σ) σ) s = (.ok s, s) := rfl

theorem modify_run (f : σ → σ) (s : σ) :
    (modify f : ExceptT ε (StateM σ) PUnit) s = (.ok ⟨⟩, f s) := rfl

/-- Two actions in a row: the second one is not started if the first one fails. -/
theorem bind_run (j : ExceptT ε (StateM σ) α) (f : α → ExceptT ε (StateM σ) β) (s : σ) :
    (j >>= f) s =
      match j s with
      | (.ok a, t) => f a t
      | (.error e, t) => (.error e, t) := by
  show ExceptT.bind j f s = _
  unfold ExceptT.bind ExceptT.mk ExceptT.bindCont
  show StateT.bind j _ s = _
  unfold StateT.bind
  rcases h : j s with ⟨result, t⟩
  cases result <;> rfl

theorem bind_run_ok {j : ExceptT ε (StateM σ) α} {s t : σ} {a : α} (h : j s = (.ok a, t))
    (f : α → ExceptT ε (StateM σ) β) : (j >>= f) s = f a t := by
  rw [bind_run, h]

theorem bind_run_error {j : ExceptT ε (StateM σ) α} {s t : σ} {e : ε} (h : j s = (.error e, t))
    (f : α → ExceptT ε (StateM σ) β) : (j >>= f) s = (.error e, t) := by
  rw [bind_run, h]

/-- Two actions in a row succeed only if both of them do. -/
theorem bind_eq_ok {j : ExceptT ε (StateM σ) α} {f : α → ExceptT ε (StateM σ) β} {s u : σ} {b : β} :
    (j >>= f) s = (.ok b, u) ↔ ∃ a t, j s = (.ok a, t) ∧ f a t = (.ok b, u) := by
  rw [bind_run]
  rcases h : j s with ⟨e | a, t⟩
  · simp [outcome_eq]
  · simp only [outcome_eq, Except.ok.injEq]
    exact ⟨fun h => ⟨a, t, ⟨rfl, rfl⟩, h⟩, fun ⟨_, _, ⟨ha, ht⟩, h⟩ => ha ▸ ht ▸ h⟩

theorem exists_run_of_toOption {j : ExceptT ε (StateM σ) α} {s : σ} {a : α}
    (h : (j s).1.toOption = some a) : ∃ t, j s = (.ok a, t) := by
  rcases hrun : j s with ⟨e | b, t⟩
  all_goals rw [hrun] at h
  · cases h
  · cases h
    exact ⟨t, rfl⟩

/-- Two steps that may fail succeed only if both of them do. -/
theorem except_bind_eq_ok {x : Except ε α} {f : α → Except ε β} {b : β} :
    (x >>= f) = .ok b ↔ ∃ a, x = .ok a ∧ f a = .ok b := by
  cases x with
  | error e => simp [bind, Except.bind]
  | ok a => simp [bind, Except.bind]

theorem except_map_eq_ok {f : α → β} {x : Except ε α} {b : β} :
    x.map f = .ok b ↔ ∃ a, x = .ok a ∧ f a = b := by
  cases x <;> simp [Except.map]

theorem bind_assoc_run {γ : Type} (j : ExceptT ε (StateM σ) α) (f : α → ExceptT ε (StateM σ) β)
    (g : β → ExceptT ε (StateM σ) γ) (s : σ) :
    (j >>= fun a => f a >>= g) s = ((j >>= f) >>= g) s := by
  simp only [bind_run]
  rcases j s with ⟨e | a, t⟩ <;> rfl

end Action

namespace Job

variable {α β : Type}

theorem ofExcept_run (x : Except Fault α) (s : Runner) : ofExcept x s = (x, s) := by
  cases x <;> rfl

theorem use_run (x : Except Misuse α) (s : Runner) : use x s = (x.mapError .misuse, s) := by
  cases x <;> rfl

theorem ofExcept_eq_ok {x : Except Fault α} {a : α} {s t : Runner} :
    ofExcept x s = (.ok a, t) ↔ x = .ok a ∧ s = t := by
  rw [ofExcept_run, Action.outcome_eq]

theorem use_eq_ok {x : Except Misuse α} {a : α} {s t : Runner} :
    use x s = (.ok a, t) ↔ x = .ok a ∧ s = t := by
  rw [use_run, Action.outcome_eq]
  refine and_congr_left fun _ => ⟨fun h => ?_, fun h => ?_⟩
  · rcases x with m | b
    · cases h
    · exact congrArg Except.ok (Except.ok.inj h)
  · rw [h]
    rfl

theorem readFile_run (p : Path) (s : Runner) : readFile p s = (s.workspace.read p, s) := by
  simp only [readFile, Action.bind_run, Action.get_run, ofExcept_run]

theorem isFile_run (p : Path) (s : Runner) : isFile p s = (s.workspace.isFile p, s) := by
  simp only [isFile, Action.bind_run, Action.get_run, ofExcept_run]

/-- Whether programs can be started in a directory: it is a path that the system takes, or none is given. -/
inductive IsStartable : Value → Prop
  | none : IsStartable .null
  | text {s : String} (ended : '\x00' ∉ s.toList) : IsStartable (.str s)
  | bytes {content : List UInt8} (ended : 0 ∉ content) : IsStartable (.bytes content)

/-- A program can be started if and only if the system takes its arguments and the directory. -/
theorem check_iff {c : Command} :
    c.check = .ok () ↔ (∀ arg ∈ c.args, '\x00' ∉ arg.toList) ∧ IsStartable c.directory := by
  have hargs : (c.args.any fun arg => arg.toList.contains '\x00') = true ↔
      ¬ ∀ arg ∈ c.args, '\x00' ∉ arg.toList := by
    simp
  unfold Command.check
  rcases hnul : c.args.any fun arg => arg.toList.contains '\x00' with _ | _
  · have hall : ∀ arg ∈ c.args, '\x00' ∉ arg.toList := by
      rw [hnul] at hargs
      simpa using hargs
    rw [if_neg Bool.false_ne_true]
    refine Iff.trans ?_ (and_iff_right hall).symm
    rcases c.directory with _ | _ | _ | _ | s | content | _ | _ | _
    case null => exact iff_of_true rfl .none
    case str =>
      by_cases hs : '\x00' ∈ s.toList
      · exact iff_of_false (by simp [hs]) fun | .text ended => ended hs
      · exact iff_of_true (by simp [hs]) (.text hs)
    case bytes =>
      by_cases hs : 0 ∈ content
      · exact iff_of_false (by simp [hs]) fun | .bytes ended => ended hs
      · exact iff_of_true (by simp [hs]) (.bytes hs)
    all_goals exact iff_of_false (fun h => by cases h) fun h => by cases h
  · exact iff_of_false (by simp) fun h => hargs.mp hnul h.1

theorem start_run {command : Command} {program : String} {more : List String}
    (hargs : command.args = program :: more) (hcheck : command.check = .ok ()) (s : Runner) :
    start command s =
      (match s.child with
        | .exited code output errors => .ok (.ok (code, output, errors))
        | .timedOut => .ok (.error (.timedOut program))
        | .notFound => .ok (.error (.notFound program))
        | .forbidden => .ok (.error (.forbidden program)),
        { s with commands := s.commands ++ [command] }) := by
  simp only [start, note, hcheck, ofExcept, Action.bind_run, Action.pure_run, Action.modify_run, hargs,
    Action.get_run]
  cases s.child <;> rfl

/-- A program that cannot be started is not noted. -/
theorem start_refused {command : Command} {program : String} {more : List String} {e : Fault}
    (hargs : command.args = program :: more) (hcheck : command.check = .error e) (s : Runner) :
    start command s = (.error e, s) := by
  simp only [start, hargs, hcheck, ofExcept, Action.bind_run]
  rfl

theorem writeFile_eq_ok {path : Path} {content : List UInt8} {s t : Runner} {u : Unit}
    (h : writeFile path content s = (.ok u, t)) :
    ∃ w, s.workspace.write path content = .ok w ∧ t = { s with workspace := w } := by
  simp only [writeFile, Action.bind_run, Action.get_run, ofExcept_run] at h
  rcases hw : s.workspace.write path content with e | w
  · rw [hw] at h
    cases h
  · rw [hw] at h
    cases h
    exact ⟨w, rfl, rfl⟩

theorem makeDirectories_run (p : Path) (s : Runner) :
    makeDirectories p s =
      ((Workspace.makeDirectories p s.workspace).1,
        { s with workspace := (Workspace.makeDirectories p s.workspace).2 }) := by
  simp only [makeDirectories, disk]
  rcases Workspace.makeDirectories p s.workspace with ⟨result, w⟩
  rfl

theorem catching_run (family : Fault → Bool) (job : Job α) (s : Runner) :
    catching family job s =
      match job s with
      | (.ok a, t) => (.ok (.ok a), t)
      | (.error e, t) => if family e then (.ok (.error e), t) else (.error e, t) := rfl

/-- A result that was caught is that of the action. -/
theorem catching_eq_ok {family : Fault → Bool} {job : Job α} {s t : Runner} {a : α}
    (h : catching family job s = (.ok (.ok a), t)) : job s = (.ok a, t) := by
  rw [catching_run] at h
  rcases hrun : job s with ⟨e | b, u⟩
  · simp only [hrun] at h
    split at h <;> cases h
  · rw [hrun] at h
    cases h
    rfl

end Job

/-- Whether an action relates the machine before it to the machine after it, however it ends. -/
def Job.Keeps {α : Type} (R : Runner → Runner → Prop) (j : Job α) : Prop :=
  ∀ s, R s (j s).2

theorem Job.Keeps.of_run {α : Type} {R : Runner → Runner → Prop} {j : Job α} (hj : j.Keeps R)
    {s t : Runner} {result : Except Fault α} (h : j s = (result, t)) : R s t := by
  have hs := hj s
  rwa [h] at hs

end ReviewGate

import ReviewGate.Proofs.Artifacts.Read
import ReviewGate.TestGate

/-! The outcome of the tests: it is how the program that runs them ends, and a file keeps it. In such a
file the first line that names the outcome counts, and it has to say true. -/
namespace ReviewGate

/-- Whether a program ended with exit code zero. -/
def ChildOutcome.isPass : ChildOutcome → Bool
  | .exited code _ _ => code = 0
  | .timedOut => false
  | .notFound => false
  | .forbidden => false

/-- Whether a program has been started, and nothing has been printed. -/
structure Runner.Started (s t : Runner) : Prop where
  output : t.output = s.output
  commands : ∃ c, t.commands = s.commands ++ [c]

theorem Runner.Started.after {s t u : Runner} (h : t.Started u) (h' : s.Aside t) : s.Started u := by
  obtain ⟨c, hcommands⟩ := h.commands
  exact ⟨h.output.trans h'.output, c, by rw [hcommands, h'.wires.commands]⟩

theorem Runner.Started.before {s t u : Runner} (h : s.Started t) (h' : t.Aside u) : s.Started u := by
  obtain ⟨c, hcommands⟩ := h.commands
  exact ⟨h'.output.trans h.output, c, by rw [h'.wires.commands, hcommands]⟩

namespace TestGate

/-- What stands before the first equals sign of a line, or all of it. -/
def keyOf (line : String) : List Char :=
  line.toList.takeWhile (· ≠ '=')

/-- What stands after the first equals sign of a line. -/
def valueOf (line : String) : List Char :=
  (line.toList.dropWhile (· ≠ '=')).drop 1

def IsEntry (line : String) : Prop :=
  Text.stripChars (keyOf line) = entryName.toList

def SaysTrue (line : String) : Prop :=
  Text.lowerChars (Text.stripChars (valueOf line)) = "true".toList

/-- Whether the first entry of a text says that the tests passed. -/
def SaysPassed (text : String) : Prop :=
  ∃ before line after, Text.brokenLines text = before ++ line :: after ∧
    (∀ other ∈ before, ¬ IsEntry other) ∧ IsEntry line ∧ SaysTrue line

/-- Whether a file is there and its first entry says that the tests passed. -/
def Recorded (w : Workspace) (path : Path) : Prop :=
  ∃ content text, w.read path = .ok content ∧ Text.Utf8.decode content = .ok text ∧
    SaysPassed (Text.unified text)

theorem cut_getD (cs : List Char) :
    (Text.cut? '=' cs).getD (cs, []) =
      (cs.takeWhile (· ≠ '='), (cs.dropWhile (· ≠ '=')).drop 1) := by
  induction cs with
  | nil => rfl
  | cons c cs ih =>
    by_cases hc : c = '='
    · simp [Text.cut?, hc]
    · rw [Text.cut?, if_neg hc, List.takeWhile_cons_of_pos (by simpa using hc),
        List.dropWhile_cons_of_pos (by simpa using hc)]
      rcases hcut : Text.cut? '=' cs with _ | ⟨before, after⟩
      all_goals
        rw [hcut] at ih
        obtain ⟨hbefore, hafter⟩ := Prod.ext_iff.mp ih
        simp only [Option.getD_none, Option.getD_some] at hbefore hafter
        rw [← hbefore, ← hafter]
        rfl

theorem outcomeIn_eq_none {line : String} : outcomeIn? line = none ↔ ¬ IsEntry line := by
  simp [outcomeIn?, cut_getD, IsEntry, keyOf]

theorem outcomeIn_eq_some_true {line : String} :
    outcomeIn? line = some true ↔ IsEntry line ∧ SaysTrue line := by
  simp [outcomeIn?, cut_getD, IsEntry, keyOf, SaysTrue, valueOf]

theorem outcomeOf_eq_some_true {text : String} : outcomeOf text = some true ↔ SaysPassed text := by
  simp only [outcomeOf, List.findSome?_eq_some_iff, outcomeIn_eq_some_true, outcomeIn_eq_none,
    SaysPassed]
  refine ⟨?_, ?_⟩
  · rintro ⟨before, line, after, hlines, ⟨hentry, htrue⟩, hbefore⟩
    exact ⟨before, line, after, hlines, hbefore, hentry, htrue⟩
  · rintro ⟨before, line, after, hlines, hbefore, hentry, htrue⟩
    exact ⟨before, line, after, hlines, ⟨hentry, htrue⟩, hbefore⟩

/-! ### Reading the file -/

variable {A : Effect → Prop} {s t : Runner} {path : Path}

theorem readResults_effects (path : Path) : (readResults path).HasEffects A :=
  .bind (Job.isFile_effects _) fun _ =>
    .ite (.bind (Artifacts.readText_effects _) fun _ => .pure _) (.pure _)

/-- The outcome that is read is true if and only if the file says so. -/
theorem readResults_eq_ok {outcome : Option Bool} (h : readResults path s = (.ok outcome, t)) :
    outcome = some true ↔ Recorded s.workspace path := by
  rw [readResults, Action.bind_run, Job.isFile_run] at h
  rcases hstatus : s.workspace.isFile path with e | _ | _
  · rw [hstatus] at h
    cases h
  · rw [hstatus] at h
    cases h
    refine iff_of_false (by simp) ?_
    rintro ⟨content, text, hcontent, -⟩
    rw [Workspace.isFile_of_read hcontent] at hstatus
    cases hstatus
  · rw [hstatus] at h
    simp only [if_true, Action.bind_eq_ok, Artifacts.readText, Job.readFile_run] at h
    obtain ⟨text, s₁, ⟨content, s₂, hcontent, htext⟩, hdone⟩ := h
    cases hdone
    obtain ⟨hbytes, rfl⟩ := Action.outcome_eq.mp hcontent
    rcases hdecode : Text.Utf8.decode content with m | decoded
    · simp only [hdecode] at htext
      cases htext
    · simp only [hdecode] at htext
      cases htext
      rw [outcomeOf_eq_some_true]
      refine ⟨fun hpassed => ⟨content, decoded, hbytes, hdecode, hpassed⟩, ?_⟩
      rintro ⟨content', text', hcontent', hdecode', hpassed⟩
      obtain rfl : content = content' := by simpa [hbytes] using hcontent'
      obtain rfl : decoded = text' := by simpa [hdecode] using hdecode'
      exact hpassed

/-- What is written about an outcome is read as that outcome. -/
theorem outcomeOf_record (passed : Bool) : outcomeOf (Text.unified (record passed)) = some passed := by
  cases passed
  all_goals decide +kernel

/-- The outcome that was kept is read back, and nothing else happens. -/
theorem readResults_record {passed : Bool}
    (h : s.workspace.read path = .ok (Text.Utf8.encode (record passed))) :
    readResults path s = (.ok (some passed), s) := by
  have hfile : Job.isFile path s = (.ok true, s) := by
    rw [Job.isFile_run, Workspace.isFile_of_read h]
  have htext : Artifacts.readText path s = (.ok (Text.unified (record passed)), s) := by
    rw [Artifacts.readText, Action.bind_run_ok (by rw [Job.readFile_run, h]), Text.Utf8.decode_encode]
    rfl
  rw [readResults, Action.bind_run_ok hfile, if_pos rfl, Action.bind_run_ok htext, outcomeOf_record]
  rfl

/-! ### Running the tests -/

theorem runTests_effects (command directory : Value) (timeout : Option Nat) :
    (runTests command directory timeout).HasEffects Effect.IsLocal := by
  have hwords : FailsPlainly (words command) := by
    unfold words
    split
    · exact .mapError (fun _ => rfl) _
    · exact .ok _
    · exact .error rfl
  refine .bind (.ofExcept hwords) fun args => .bind (.log _ _ _) fun _ =>
    .bind (.start _ trivial) fun outcome => ?_
  split
  · exact .bind (.log _ _ _) fun _ => .pure _
  · exact .ite (.bind (.log _ _ _) fun _ => .pure _) (.bind (.log _ _ _) fun _ => .pure _)

/-- A program that is started gives an outcome, by which the tests pass if and only if it ended with exit
code zero. -/
theorem start_eq_ok {command : Command} {outcome : Except ChildFault (Int × String × String)}
    (h : Job.start command s = (.ok outcome, t)) :
    s.Started t ∧
      s.child.isPass = match outcome with
        | .error _ => false
        | .ok (code, _, _) => code = 0 := by
  rcases hargs : command.args with _ | ⟨program, more⟩
  · simp only [Job.start, Action.bind_run, hargs] at h
    cases h
  · rcases hcheck : command.check with e | ⟨⟩
    · rw [Job.start_refused hargs hcheck] at h
      cases h
    rw [Job.start_run hargs hcheck] at h
    rcases hchild : s.child with ⟨code, out, err⟩ | _ | _ | _
    all_goals
      rw [hchild] at h
      cases h
      exact ⟨⟨rfl, _, rfl⟩, rfl⟩

/-- The tests pass if and only if the program that is started for them ends with exit code zero. -/
theorem runTests_eq_ok {command directory : Value} {timeout : Option Nat} {passed : Bool}
    (h : runTests command directory timeout s = (.ok passed, t)) :
    s.Started t ∧ passed = s.child.isPass := by
  rw [runTests, Action.bind_eq_ok] at h
  obtain ⟨args, s₁, hargs, h⟩ := h
  obtain ⟨-, rfl⟩ := Job.ofExcept_eq_ok.mp hargs
  obtain ⟨s₂, hcalm, h⟩ := Job.log_calm h
  have haside := hcalm _ Runner.Aside.isCalm
  obtain ⟨outcome, s₃, hstart, h⟩ := Action.bind_eq_ok.mp h
  obtain ⟨hstarted, hpasses⟩ := start_eq_ok hstart
  rw [← haside.wires.child, hpasses]
  rcases outcome with e | ⟨code, out, err⟩
  · obtain ⟨rfl, hlogged⟩ := Job.log_return h
    exact ⟨(hstarted.before (hlogged _ Runner.Aside.isCalm)).after haside, by simp⟩
  · dsimp only at h
    split_ifs at h with hcode
    all_goals
      obtain ⟨rfl, hlogged⟩ := Job.log_return h
      exact ⟨(hstarted.before (hlogged _ Runner.Aside.isCalm)).after haside, by simp [hcode]⟩

/-- The file in which an outcome is kept holds that outcome alone. -/
theorem writeResults_eq_ok {written : Path} {passed : Bool}
    (h : writeResults path passed s = (.ok written, t)) :
    t.workspace.read path = .ok (Text.Utf8.encode (record passed)) ∧
      ∃ w, t = { s with workspace := w } := by
  simp only [writeResults, Action.bind_eq_ok] at h
  obtain ⟨_, s₁, hmake, _, s₂, hwrite, hdone⟩ := h
  cases hdone
  obtain ⟨w, rfl, -, -⟩ := Artifacts.makeDirectories_ok hmake
  obtain ⟨w', hw', rfl⟩ := Job.writeFile_eq_ok hwrite
  exact ⟨Workspace.read_write hw', w', rfl⟩

end TestGate

end ReviewGate

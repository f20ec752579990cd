import ReviewGate.Proofs.CommandLine.Prepare
import ReviewGate.Proofs.Review.Payload
import ReviewGate.Proofs.Reviewer.Analysis
import ReviewGate.Proofs.TestGate

/-! What the command that analyses a change writes. Code is approved only if its tests are known to have
passed and the scan of its files has found nothing. -/
namespace ReviewGate.CommandLine

/-- Whether the tests count as passed: as the command line says or, if it does not, as the results file
says. -/
def GateIsOpen (s : Settings) (gate : Option Bool) (w : Workspace) : Prop :=
  gate = some true ∨
    (gate = none ∧ ∃ path, Settings.pathOf s.tests.resultsFile = .ok path ∧ TestGate.Recorded w path)

theorem testsPassed_effects {A : Effect → Prop} (s : Settings) (gate : Option Bool) :
    (testsPassed s gate).HasEffects A := by
  cases gate with
  | some passed => exact .pure _
  | none =>
    refine .bind (.use _) fun path => .bind (TestGate.readResults_effects path) fun outcome => ?_
    cases outcome with
    | some passed => exact .pure _
    | none => exact .bind (.log _ _ _) fun _ => .pure _

variable {s : Settings} {r : Reviewer} {gate : Option Bool} {change : ChangeSelection}
  {number : Option Int} {m n : Runner}

/-- The tests count as passed if and only if the gate is open. -/
theorem testsPassed_eq_ok {passed : Bool} (h : testsPassed s gate m = (.ok passed, n)) :
    passed = true ↔ GateIsOpen s gate m.workspace := by
  cases gate with
  | some given =>
    cases h
    simp [GateIsOpen]
  | none =>
    simp only [testsPassed, Action.bind_eq_ok, Job.use_run] at h
    obtain ⟨path, m₁, hpath, outcome, m₂, hread, h⟩ := h
    rcases hfile : Settings.pathOf s.tests.resultsFile with misuse | file
    · rw [hfile] at hpath
      cases hpath
    · rw [hfile] at hpath
      cases hpath
      have hrecorded := TestGate.readResults_eq_ok hread
      have hopen : GateIsOpen s none m.workspace ↔ TestGate.Recorded m.workspace path := by
        simp [GateIsOpen, hfile]
      rw [hopen, ← hrecorded]
      cases outcome with
      | some known =>
        cases h
        simp
      | none =>
        obtain ⟨u, -, -, hdone⟩ := Job.log_bind h
        cases hdone
        simp

/-- An analysis that ends well prints the verdict of its stage. -/
theorem exists_runAnalysis (h : runAnalyze r gate change number m = (.ok 0, n)) :
    ∃ passed s a t, testsPassed r.settings gate m = (.ok passed, s) ∧
      r.runAnalysis passed change number s = (.ok a, t) ∧
      n = { t with output := t.output ++ (a.payload.verdict.name ++ "\n") } := by
  rw [runAnalyze, Action.bind_eq_ok] at h
  obtain ⟨e | a, t, hcatch, h⟩ := h
  · obtain ⟨u, -, -, hdone⟩ := Job.log_bind h
    cases hdone
  · cases h
    obtain ⟨passed, s, hpassed, hrun⟩ := Action.bind_eq_ok.mp (Job.catching_eq_ok hcatch)
    exact ⟨passed, s, a, t, hpassed, hrun, rfl⟩

/-- What an analysis that ends well writes: the review of the scan if the gate is open, that of failing
tests if it is closed. -/
theorem runAnalyze_eq_zero (hfile : m.journal.file = none)
    (h : runAnalyze r gate change number m = (.ok 0, n)) :
    (GateIsOpen r.settings gate m.workspace ∧
        ∃ result, result = aggregate r.rules (r.filesIn change m) ∧
          m.Stores r.store (Artifacts.fileTexts result.payload (some result) number) n) ∨
      (¬ GateIsOpen r.settings gate m.workspace ∧ m.SameWires n ∧
        m.Stores r.store (Artifacts.fileTexts .failingTests none number) n) := by
  obtain ⟨passed, m₁, a, m₂, hpassed, hrun, rfl⟩ := exists_runAnalysis h
  have haside := ((testsPassed_effects r.settings gate).keeps_of_quiet Runner.Aside.isCalm).of_run hpassed
  obtain ⟨hfile₁, hdisk₁⟩ := haside.disk hfile
  have hopen := testsPassed_eq_ok hpassed
  cases passed with
  | true =>
    obtain ⟨result, hresult, hstores⟩ := Reviewer.analyzeChange_stores hfile₁ hrun
    refine Or.inl ⟨hopen.mp rfl, result, ?_, hstores.congr hdisk₁.symm rfl⟩
    rw [hresult, Reviewer.filesIn_congr hdisk₁ haside.wires.child]
  | false =>
    obtain ⟨hstores, hwires⟩ := Reviewer.rejectUntested_stores hfile₁ hrun
    have hclosed : ¬ GateIsOpen r.settings gate m.workspace := fun h => by simpa using hopen.mpr h
    refine Or.inr ⟨hclosed, ?_, hstores.congr hdisk₁.symm rfl⟩
    have hall := haside.wires.trans hwires
    exact ⟨hall.now, hall.child, hall.network, hall.budget, hall.commands, hall.requests⟩

/-- Whether a command line that asks for the analysis of a change is obeyed: the settings, which name
no log file, are read and put to use, and the exit code is zero. -/
structure Analyzes (env : Settings.Environment) (config : Option String) (s : Settings)
    (gate : Option Bool) (number : Option Int) (change : ChangeSelection) (m n : Runner) : Prop where
  settings : (readSettings env config m).1 = .ok s
  unlogged : s.log.file.isGiven = false
  silent : m.journal.file = none
  run : ∃ args, read args = .ok ⟨config, .analyze gate change number⟩ ∧ execute env args m = (.ok 0, n)

variable {env : Settings.Environment} {config : Option String}

/-- After the settings have been put to use, the analysis starts on a machine with the same files. -/
theorem Analyzes.exists_start (h : Analyzes env config s gate number change m n) :
    ∃ r m₁, Reviewer.make s = .ok r ∧ m.SameWires m₁ ∧ m₁.journal.file = none ∧
      m₁.workspace = m.workspace ∧ runAnalyze r gate change number m₁ = (.ok 0, n) := by
  obtain ⟨hsettings, hunlogged, hsilent, args, hread, hrun⟩ := h
  simp only [execute, hread] at hrun
  obtain ⟨s', m₁, r, m₃, hprepare, hstart, hrun⟩ := run_eq_zero hrun
  obtain ⟨m₂, hreadSettings, hactivate⟩ := prepare_eq_ok hprepare
  obtain ⟨hmake, hlog⟩ := Reviewer.start_eq_ok hstart
  -- The settings of the run are those that the environment gives.
  obtain rfl : s = s' := by
    rw [hreadSettings] at hsettings
    exact (Except.ok.inj hsettings).symm
  have hR := Runner.Aside.isCalm
  have haside₂ := (readSettings_keeps hR env config).of_run hreadSettings
  have haside₁ := (Settings.activate_keeps hR .allowsJournals hunlogged).of_run hactivate
  have haside := (haside₂.trans haside₁).trans ((hR.log _ _ _).of_run hlog)
  obtain ⟨hfile₃, hdisk₃⟩ := haside.disk hsilent
  exact ⟨r, m₃, hmake, haside.wires, hfile₃, hdisk₃, hrun⟩

/-- What an analysis writes, seen from the machine on which the command was given. -/
theorem Analyzes.stores (h : Analyzes env config s gate number change m n) :
    ∃ r, Reviewer.make s = .ok r ∧
      ((GateIsOpen s gate m.workspace ∧
          ∃ result, result = aggregate r.rules (r.filesIn change m) ∧
            m.Stores r.store (Artifacts.fileTexts result.payload (some result) number) n) ∨
        (¬ GateIsOpen s gate m.workspace ∧ m.SameWires n ∧
          m.Stores r.store (Artifacts.fileTexts .failingTests none number) n)) := by
  obtain ⟨r, m₁, hmake, hwires, hfile, hdisk, hrun⟩ := h.exists_start
  refine ⟨r, hmake, ?_⟩
  have hcases := runAnalyze_eq_zero hfile hrun
  rw [(Reviewer.make_eq_ok hmake).1, hdisk] at hcases
  rcases hcases with ⟨hopen, result, hresult, hstores⟩ | ⟨hclosed, hwires', hstores⟩
  · refine Or.inl ⟨hopen, result, ?_, hstores.congr hdisk.symm rfl⟩
    rw [hresult, Reviewer.filesIn_congr hdisk hwires.child]
  · exact Or.inr ⟨hclosed, hwires.trans hwires', hstores.congr hdisk.symm rfl⟩

theorem encode_verdict_eq {v : Verdict} :
    some (Text.Utf8.encode (v.name ++ "\n")) = some (Text.Utf8.encode "APPROVE\n") ↔ v = .approve := by
  cases v with
  | approve => simp [Verdict.name]
  | requestChanges => decide +kernel

/-- The verdict that is written is an approval if and only if the gate is open and the scan of the
files finds nothing. While the gate is closed, no program is started and the files that are written are
those of failing tests, so that two analyses of different changes write the same files. -/
theorem analyze_approves_iff (h : Analyzes env config s gate number change m n) :
    ∃ r, Reviewer.make s = .ok r ∧
      (n.shelf r.store Artifacts.typeFile = some (Text.Utf8.encode "APPROVE\n") ∨
        n.shelf r.store Artifacts.typeFile = some (Text.Utf8.encode "REQUEST_CHANGES\n")) ∧
      (n.shelf r.store Artifacts.typeFile = some (Text.Utf8.encode "APPROVE\n") ↔
        GateIsOpen s gate m.workspace ∧ ∀ f ∈ r.filesIn change m, scan r.rules f = []) ∧
      (¬ GateIsOpen s gate m.workspace →
        n.commands = m.commands ∧ n.requests = m.requests ∧
        m.Stores r.store (Artifacts.fileTexts .failingTests none number) n ∧
        ∀ change' m' n', Analyzes env config s gate number change' m' n' →
          ¬ GateIsOpen s gate m'.workspace → ∀ place,
            n.workspace.contentAt? place = n'.workspace.contentAt? place ∨
              (n.workspace.contentAt? place = m.workspace.contentAt? place ∧
                n'.workspace.contentAt? place = m'.workspace.contentAt? place)) := by
  obtain ⟨r, hmake, hcases⟩ := h.stores
  refine ⟨r, hmake, ?_⟩
  rcases hcases with ⟨hopen, result, hresult, hstores⟩ | ⟨hclosed, hwires, hstores⟩
  · have htype : n.shelf r.store Artifacts.typeFile =
        some (Text.Utf8.encode (result.payload.verdict.name ++ "\n")) := by
      rw [hstores.shelf]
      exact (Artifacts.putTexts_always _ _ _ _).1
    have hclean : result.payload.verdict = .approve ↔ ∀ f ∈ r.filesIn change m, scan r.rules f = [] := by
      rw [AnalysisResult.payload_verdict, hresult, aggregate_findings, ← List.flatMap_eq_nil_iff]
      split_ifs with hnone <;> simp [hnone]
    refine ⟨?_, ?_, fun hclosed => absurd hopen hclosed⟩
    · rw [htype]
      cases result.payload.verdict
      · exact Or.inl rfl
      · exact Or.inr rfl
    · rw [htype, encode_verdict_eq, hclean]
      exact ⟨fun h => ⟨hopen, h⟩, And.right⟩
  · have htype : n.shelf r.store Artifacts.typeFile =
        some (Text.Utf8.encode (Verdict.requestChanges.name ++ "\n")) := by
      rw [hstores.shelf]
      exact (Artifacts.putTexts_always _ _ _ _).1
    refine ⟨Or.inr htype, ?_, fun _ => ⟨hwires.commands, hwires.requests, hstores, ?_⟩⟩
    · rw [htype, encode_verdict_eq]
      exact iff_of_false (by decide) fun h => hclosed h.1
    · intro change' m' n' h' hclosed' place
      obtain ⟨r', hmake', hcases'⟩ := h'.stores
      obtain rfl : r = r' := Except.ok.inj (hmake.symm.trans hmake')
      rcases hcases' with ⟨hopen', -⟩ | ⟨-, -, hstores'⟩
      · exact absurd hopen' hclosed'
      · exact hstores.same_files hstores' place

/-- A machine with one file, in which nothing is disabled, and no outcome of any tests. -/
def cleanFile : Runner :=
  { Runner.fresh 0 with workspace := ⟨[(["A.cs"], .file (Text.Utf8.encode "class A"))]⟩ }

theorem execute_cleanFile :
    (execute [] ["analyze", "--files", "A.cs"] cleanFile).1.toOption = some 0 := by
  decide +kernel

theorem gate_closed_cleanFile : ¬ GateIsOpen .default none cleanFile.workspace := by
  rintro (h | ⟨-, path, hpath, content, text, hread, -⟩)
  · cases h
  · have hnone : (cleanFile.workspace.read (.ofText "test-results.txt")).toOption = none := by
      decide +kernel
    cases hpath
    rw [hread] at hnone
    cases hnone

theorem analyze_cleanFile_untested :
    ∃ n r, execute [] ["analyze", "--files", "A.cs"] cleanFile = (.ok 0, n) ∧
      Reviewer.make .default = .ok r ∧ n.commands = [] ∧
      n.shelf r.store Artifacts.typeFile = some (Text.Utf8.encode "REQUEST_CHANGES\n") := by
  have hok := execute_cleanFile
  rcases hrun : execute [] ["analyze", "--files", "A.cs"] cleanFile with ⟨_ | code, n⟩
  · rw [hrun] at hok
    cases hok
  · rw [hrun] at hok
    cases hok
    have hanalyzes : Analyzes [] none .default none none ⟨".", some ["A.cs"], none, none⟩ cleanFile n :=
      ⟨rfl, by decide, rfl, ["analyze", "--files", "A.cs"], rfl, hrun⟩
    obtain ⟨r, hmake, htype, happroves, hclosed⟩ := analyze_approves_iff hanalyzes
    refine ⟨n, r, rfl, hmake, (hclosed gate_closed_cleanFile).1, htype.resolve_left fun h => ?_⟩
    exact gate_closed_cleanFile (happroves.mp h).1

end ReviewGate.CommandLine

import ReviewGate.Proofs.CommandLine.Post
import ReviewGate.Proofs.Reviewer.Reliable
import ReviewGate.Proofs.Settings.Shape

/-! How far the exit code of the command that posts a review can be trusted. -/
namespace ReviewGate

open Forge

namespace Settings

theorem textIn_str (env : Environment) (name default : String) :
    ∃ text, textIn env name (.str default) = .str text := by
  unfold textIn
  rcases setting? env name with _ | text
  · exact ⟨default, rfl⟩
  · exact ⟨text, rfl⟩

/-- The settings of an environment are texts where a posting needs them to be. -/
theorem ofEnvironment_hasTexts {env : Environment} {s : Settings} (h : ofEnvironment env = .ok s) :
    s.HasTexts ∧ ∃ text, s.artifacts.directory = .str text := by
  have hrepository : (textIn env "GITHUB_REPOSITORY" .null).isGiven = true →
      ∃ text, textIn env "GITHUB_REPOSITORY" .null = .str text := by
    unfold textIn
    rcases setting? env "GITHUB_REPOSITORY" with _ | text
    · exact fun hgiven => by cases hgiven
    · exact fun _ => ⟨text, rfl⟩
  simp only [ofEnvironment, Action.except_bind_eq_ok] at h
  obtain ⟨timeout, -, window, -, workers, -, maxSize, -, backups, -, hdone⟩ := h
  cases hdone
  exact ⟨⟨textIn_str _ _ _, textIn_str _ _ _, hrepository⟩, textIn_str _ _ _⟩

/-- Settings without problems have a window and somebody to do the work. -/
theorem check_eq_ok {s : Settings} (h : s.check = .ok ()) :
    s.analysis.window.atMost 0 = .ok false ∧ s.analysis.workers.lessThan 1 = .ok false := by
  have hall := none_of_check h
  exact ⟨hall (s.analysis.window.atMost 0, "STEP 2 window must be positive") (by simp [conditions]),
    hall (s.analysis.workers.lessThan 1, "Scan workers must be at least 1") (by simp [conditions])⟩

end Settings

/-- Settings without problems make a reviewer if they have a directory for stored reviews. -/
theorem Reviewer.make_of_check {s : Settings} {store : Path} (hcheck : s.check = .ok ())
    (hstore : Settings.pathOf s.artifacts.directory = .ok store) :
    make s = .ok ⟨s, s.analysis.window.asInt?, store⟩ := by
  obtain ⟨hwindow, hworkers⟩ := Settings.check_eq_ok hcheck
  rw [make, hwindow, hworkers, hstore]
  rfl

namespace Forge

/-- Whether the forge has accepted a review. -/
def AcceptsReview (said : List (Request × Outcome)) : Prop :=
  ∃ x ∈ said, x.1.IsReview ∧ x.2.accepted?.isSome

/-- If only the last request can be for a review, a forge that keeps its promises accepts a review if and
only if this request is done. -/
theorem endsWithReview_iff {net : Network} {qs : List Request} (hlast : reviews qs.dropLast = 0)
    (hkept : AllKept (net.exchange qs)) :
    EndsWithReview (net.exchange qs) ↔ AcceptsReview (net.exchange qs) := by
  constructor
  · rintro ⟨before, q, o, heq, hreview, -, r, v, hreply, -⟩
    refine ⟨(q, o), ?_, hreview, by simp [hreply]⟩
    rw [heq]
    exact List.mem_append_right _ (List.mem_singleton.mpr rfl)
  · rintro ⟨⟨q, o⟩, hmem, hreview, haccepted⟩
    obtain ⟨r, hreply⟩ := Option.isSome_iff_exists.mp haccepted
    have hq := hkept _ hmem
    obtain ⟨v, hjson, -⟩ := hq.answer r hreply fun hdelete =>
      absurd (hreview.1.symm.trans hdelete) (by decide)
    have htaken : o.IsTaken := ⟨hq.legible, r, v, hreply, hjson⟩
    rcases List.eq_nil_or_concat qs with rfl | ⟨before, last, rfl⟩
    · cases hmem
    · rw [List.concat_eq_append] at hlast hmem ⊢
      rw [List.dropLast_concat] at hlast
      rw [Network.exchange_append] at hmem ⊢
      rcases List.mem_append.mp hmem with hbefore | hlast'
      · exact absurd hreview (reviews_eq_zero.mp hlast q (Network.fst_mem_of_mem_exchange hbefore))
      · cases List.mem_singleton.mp hlast'
        exact endsWithReview_concat.mpr ⟨hreview, htaken⟩

end Forge

namespace CommandLine

variable {env : Settings.Environment} {settings : Settings} {m n s t : Runner} {rest : List String}
  {i : Invocation}

/-- The command takes its settings from the environment. -/
theorem read_post (h : read ("post" :: rest) = .ok i) :
    ∃ run number details, i = ⟨none, .post run number details⟩ := by
  have hname : CommandName.ofName? "post" = some .post := rfl
  have hword : Word.ofText generalOptions "post" = .ok (.plain "post") := rfl
  rw [read, Action.except_bind_eq_ok] at h
  obtain ⟨words, hwords, h⟩ := h
  rw [Word.ofTexts, if_neg (by decide), hword] at hwords
  rcases hmore : Word.ofTexts generalOptions rest with m | more
  · rw [hmore] at hwords
    cases hwords
  · rw [hmore] at hwords
    cases hwords
    rw [List.zip_cons_cons, readWords, readTask, hname] at h
    obtain ⟨⟨task, extras⟩, hcommand, h⟩ := Action.except_bind_eq_ok.mp h
    simp only [readCommand, Action.except_bind_eq_ok] at hcommand
    obtain ⟨_, -, ⟨g, _⟩, -, hdone⟩ := hcommand
    cases hdone
    dsimp only at h
    split at h
    · cases h
      exact ⟨g.run, g.number, g.details, rfl⟩
    · cases h

/-- Settings from the environment that have been put to use make a reviewer ready. -/
theorem start_ok (h : prepare env none m = (.ok settings, s)) :
    ∃ r t, Reviewer.start settings s = (.ok r, t) ∧ r.settings.HasTexts ∧
      Settings.pathOf settings.artifacts.directory = .ok r.store := by
  obtain ⟨u, hread, hactivate⟩ := prepare_eq_ok h
  have henv : Settings.ofEnvironment env = .ok settings := by
    rw [readSettings] at hread
    exact (Action.outcome_eq.mp ((Job.ofExcept_run _ _).symm.trans hread)).1
  obtain ⟨htexts, directory, hdirectory⟩ := Settings.ofEnvironment_hasTexts henv
  simp only [Settings.activate, Action.bind_eq_ok, Job.ofExcept_run] at hactivate
  obtain ⟨_, _, hcheck, -⟩ := hactivate
  have hstore : Settings.pathOf settings.artifacts.directory = .ok (.ofText directory) := by
    rw [hdirectory]
    rfl
  have hmake := Reviewer.make_of_check (Action.outcome_eq.mp hcheck).1 hstore
  have hstart := (Reviewer.start_result settings s).trans hmake
  exact ⟨_, _, Prod.ext hstart rfl, htexts, hstore⟩

/-- A command whose settings cannot be put to use sends nothing. Its exit code, if it has one, is that
of a mistake in the settings. -/
theorem execute_unprepared {args : List String} {e : Fault} {result : Except Fault Nat}
    (hread : read args = .ok i) (hprepare : prepare env i.config m = (.error e, s))
    (hrun : execute env args m = (result, n)) :
    m.SameWires n ∧ result = if isConfigurationFault e then .ok 2 else .error e := by
  have hwires : m.SameWires s :=
    (prepare_keeps Runner.SameWires.isCalm Runner.SameWires.allowsFiles env i.config).of_run hprepare
  simp only [execute, hread] at hrun
  obtain ⟨t, haside, hends⟩ := run_of_unprepared hprepare
  cases (hends i.task).symm.trans hrun
  exact ⟨hwires.trans haside.wires, rfl⟩

/-- A posting that ends in a way that is reported has an exit code. -/
theorem exitOf_ok {posting : Except Fault Posting} (h : Reports (fun _ => True) posting) :
    exitOf posting = .ok 0 ∨ exitOf posting = .ok 1 := by
  cases posting with
  | ok posting =>
    simp only [exitOf]
    split_ifs
    · exact Or.inl rfl
    · exact Or.inr rfl
  | error e =>
    have he : isPostingFault e = true := h
    simp [exitOf, he]

theorem exitOf_ends (posting : Except Fault Posting) :
    exitOf posting = .ok 0 ∨ exitOf posting = .ok 1 ∨
      ∃ e, exitOf posting = .error e ∧ isPostingFault e = false := by
  by_cases hreported : Reports (fun _ => True) posting
  · exact (exitOf_ok hreported).imp_right Or.inl
  · cases posting with
    | ok posting => exact absurd trivial hreported
    | error e =>
      have he : isPostingFault e = false := Bool.eq_false_iff.mpr hreported
      exact Or.inr (Or.inr ⟨e, by simp [exitOf, he], he⟩)

/-- The command that posts a review succeeds if and only if its last request was for a review, and is
done. -/
theorem execute_post_ends {result : Except Fault Nat} (hread : read ("post" :: rest) = .ok i)
    (hrun : execute env ("post" :: rest) m = (result, n)) :
    ∃ sent, m.Sends sent n ∧ reviews sent.dropLast = 0 ∧
      (result = .ok 0 ↔ EndsWithReview (m.network.exchange sent)) := by
  obtain ⟨run, number, details, rfl⟩ := read_post hread
  rcases hprepare : prepare env none m with ⟨e | settings, s⟩
  · obtain ⟨hwires, rfl⟩ := execute_unprepared hread hprepare hrun
    refine ⟨[], hwires.sends, rfl, iff_of_false ?_ (not_endsWithReview rfl)⟩
    split_ifs <;> simp
  · obtain ⟨r, t, hstart, -⟩ := start_ok hprepare
    rw [execute_post hread hprepare hstart] at hrun
    exact runPost_eq_zero_iff (start_wires hprepare hstart) hrun

/-- Once the settings are put to use, the exit code of the command is zero or one unless there is a fault
that is not reported. There is none on a forge that keeps its promises, if the file system takes the
names in the path of the stored review and there is room for its comments. -/
theorem execute_post_code {result : Except Fault Nat} (hread : read ("post" :: rest) = .ok i)
    (hprepare : prepare env none m = (.ok settings, s))
    (hrun : execute env ("post" :: rest) m = (result, n)) :
    (result = .ok 0 ∨ result = .ok 1 ∨ ∃ e, result = .error e ∧ isPostingFault e = false) ∧
      ∃ r t, Reviewer.start settings s = (.ok r, t) ∧
        (r.store.HasShortNames → Artifacts.HasRoom r.store t → ∃ sent, m.Sends sent n ∧
          (AllKept (m.network.exchange sent) → result = .ok 0 ∨ result = .ok 1)) := by
  obtain ⟨run, number, details, rfl⟩ := read_post hread
  obtain ⟨r, t, hstart, htexts, -⟩ := start_ok hprepare
  have hwires : m.SameWires t := start_wires hprepare hstart
  rw [execute_post hread hprepare hstart] at hrun
  obtain ⟨posting, v, hposting, hwires', rfl⟩ := runPost_run hrun
  refine ⟨exitOf_ends posting, r, t, hstart, fun hnames hroom => ?_⟩
  have hends : (r.runPosting none run number details).EndsWell True (fun _ => True) t :=
    Reviewer.runPosting_endsWell htexts hnames hroom none run number details
  obtain ⟨sent, hsent, hreports⟩ := hends
  rw [hposting, hwires.network] at hreports
  rw [hposting] at hsent
  exact ⟨sent, (Runner.Sends.after hwires hsent).before hwires', fun hkept =>
    exitOf_ok (hreports trivial hkept)⟩

/-- The command that posts a review succeeds if and only if its last request was for a review and is
done: it is accepted, and sense can be made of the reply. Once the settings are put to use, it fails with
exit code one or with a fault that is not reported. On a forge that keeps its promises, with a directory
whose names the file system takes, and with room for the comments that are stored there, there is no such
fault, and the command succeeds if and only if a review is accepted. -/
theorem post_exit_code {result : Except Fault Nat} (hread : read ("post" :: rest) = .ok i)
    (hrun : execute env ("post" :: rest) m = (result, n)) :
    ∃ sent, m.Sends sent n ∧
      (result = .ok 0 ↔ EndsWithReview (m.network.exchange sent)) ∧
      ∀ settings s, prepare env none m = (.ok settings, s) →
        (result = .ok 0 ∨ result = .ok 1 ∨ ∃ e, result = .error e ∧ isPostingFault e = false) ∧
        ∃ r t, Reviewer.start settings s = (.ok r, t) ∧
          (r.store.HasShortNames → Artifacts.HasRoom r.store t → AllKept (m.network.exchange sent) →
            (result = .ok 0 ∨ result = .ok 1) ∧
            (result = .ok 0 ↔ AcceptsReview (m.network.exchange sent))) := by
  obtain ⟨sent, hsent, hlast, hdone⟩ := execute_post_ends hread hrun
  refine ⟨sent, hsent, hdone, fun settings s hprepare => ?_⟩
  obtain ⟨hcode, r, t, hstart, hreliable⟩ := execute_post_code hread hprepare hrun
  refine ⟨hcode, r, t, hstart, fun hnames hroom hkept => ?_⟩
  obtain ⟨sent', hsent', hends⟩ := hreliable hnames hroom
  obtain rfl := hsent'.unique hsent
  exact ⟨hends hkept, hdone.trans (endsWithReview_iff hlast hkept)⟩

/-- An empty object as the answer to a request that creates something keeps all promises. -/
theorem isKept_created {q : Request} (hq : q.method = "POST") :
    IsKept q (.reply (.of 200 [] "\x7b\x7d")) := by
  have hother : ∀ {q' : Request}, q'.method = "GET" → q ≠ q' := by
    rintro q' hget rfl
    exact absurd (hq.symm.trans hget) (by decide)
  refine ⟨⟨⟨⟨none, rfl⟩, none, rfl, by simp⟩, Or.inl rfl⟩, ?_⟩
  rintro r ⟨⟩ -
  refine ⟨.map [], rfl, ?_, ?_, ?_, ?_⟩
  · exact fun _ _ _ _ => ⟨[], rfl⟩
  · exact fun _ _ _ h => absurd h (hother rfl)
  · exact fun _ _ _ _ h => absurd h (hother rfl)
  · exact fun _ _ _ _ => ⟨[], rfl⟩

theorem post_exit_code_approved : ∃ n sent,
    execute exampleEnvironment ["post", "--pr-number", "17"] approved = (.ok 0, n) ∧
      approved.Sends sent n ∧ AllKept (approved.network.exchange sent) ∧
      AcceptsReview (approved.network.exchange sent) := by
  have hread : read ["post", "--pr-number", "17"] = .ok ⟨none, .post none (some 17) none⟩ := rfl
  obtain ⟨hzero, hmethods⟩ :
      (execute exampleEnvironment ["post", "--pr-number", "17"] approved).1.toOption = some 0 ∧
        (execute exampleEnvironment ["post", "--pr-number", "17"] approved).2.requests.map
          Request.method = ["POST"] := by
    decide +kernel
  obtain ⟨hready, hcomments⟩ :
      ((prepare exampleEnvironment none >>= Reviewer.start) approved).1.toOption.map Reviewer.store =
          some ⟨"", ["artifacts"]⟩ ∧
        ((prepare exampleEnvironment none >>= Reviewer.start) approved).2.shelf ⟨"", ["artifacts"]⟩
          Artifacts.commentsFile = none := by
    decide +kernel
  obtain ⟨n, hrun⟩ := Action.exists_run_of_toOption hzero
  obtain ⟨r, hr, hstore⟩ := Option.map_eq_some_iff.mp hready
  obtain ⟨t, hready⟩ := Action.exists_run_of_toOption hr
  obtain ⟨settings, s, hprepare, hstart⟩ := Action.bind_eq_ok.mp hready
  rw [hrun] at hmethods
  rw [hready] at hcomments
  obtain ⟨q, hrequests, hmethod⟩ := List.map_eq_singleton_iff.mp hmethods
  obtain ⟨sent, hsent, -, hprepared⟩ := post_exit_code hread hrun
  obtain rfl := (hsent.eq_requests rfl).trans hrequests
  have hkept : AllKept (approved.network.exchange [q]) := by
    intro x hx
    cases List.mem_singleton.mp hx
    exact isKept_created hmethod
  obtain ⟨-, r', t', hstart', hreliable⟩ := hprepared settings s hprepare
  cases hstart.symm.trans hstart'
  have hnames : r.store.HasShortNames := by
    rw [hstore]
    show ∀ name ∈ ["artifacts"], name.utf8ByteSize ≤ Workspace.nameLimit
    decide
  have hroom : Artifacts.HasRoom r.store t := by
    rw [hstore]
    intro bytes text b hfound
    cases hcomments.symm.trans hfound
  exact ⟨n, [q], hrun, hsent, hkept, (hreliable hnames hroom hkept).2.mp rfl⟩

/-- A forge that takes a review and has nothing to say about it. -/
def silent : Runner :=
  { approved with network := .script [.reply (.of 200 [] "")] }

/-- A stored review with a summary, and a forge with a number where a comment should be. -/
def garbled : Runner :=
  { approved with
    workspace := ⟨(["artifacts", "review_message.md"], .file (Text.Utf8.encode "Fine.\n")) ::
      approved.workspace.entries⟩
    network := .script [.reply (.of 200 [] "[1]")] }

/-- A review that is accepted without a word is reported as a failure, and a number in place of a comment
is not reported at all. -/
theorem post_exit_code_misleads :
    (∃ n sent, execute exampleEnvironment ["post", "--pr-number", "17"] silent = (.ok 1, n) ∧
      silent.Sends sent n ∧ AcceptsReview (silent.network.exchange sent)) ∧
    ∃ n e, execute exampleEnvironment ["post", "--pr-number", "17"] garbled = (.error e, n) ∧
      isPostingFault e = false := by
  constructor
  · have hread : read ["post", "--pr-number", "17"] = .ok ⟨none, .post none (some 17) none⟩ := rfl
    obtain ⟨hone, hreviews⟩ :
        (execute exampleEnvironment ["post", "--pr-number", "17"] silent).1.toOption = some 1 ∧
          (execute exampleEnvironment ["post", "--pr-number", "17"] silent).2.requests.map
            (fun q => decide q.IsReview) = [true] := by
      decide +kernel
    obtain ⟨n, hrun⟩ := Action.exists_run_of_toOption hone
    rw [hrun] at hreviews
    obtain ⟨q, hrequests, hreview⟩ := List.map_eq_singleton_iff.mp hreviews
    obtain ⟨sent, hsent, -⟩ := execute_post_ends hread hrun
    obtain rfl := (hsent.eq_requests rfl).trans hrequests
    exact ⟨n, [q], hrun, hsent, _, List.mem_singleton.mpr rfl, of_decide_eq_true hreview, rfl⟩
  · have hescapes : (Job.catching isPostingFault
        (execute exampleEnvironment ["post", "--pr-number", "17"]) garbled).1.isOk = false := by
      decide +kernel
    rw [Job.catching_run] at hescapes
    rcases hrun : execute exampleEnvironment ["post", "--pr-number", "17"] garbled with ⟨e | code, n⟩
    all_goals rw [hrun] at hescapes
    · refine ⟨n, e, rfl, ?_⟩
      cases hfamily : isPostingFault e with
      | false => rfl
      | true =>
        simp only [hfamily, if_true] at hescapes
        cases hescapes
    · cases hescapes

end CommandLine

end ReviewGate

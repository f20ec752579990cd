import ReviewGate.Proofs.Artifacts.Rewrite
import ReviewGate.Proofs.Review.Payload
import ReviewGate.Proofs.Reviewer.Analysis
import ReviewGate.Proofs.Reviewer.Posting

/-! From the analysis stage to the posting stage: the findings of a scan are posted as they are, whatever
the files hold and whatever the forge replies. -/
namespace ReviewGate

/-- A finding as a comment in a request. -/
def Finding.posted (f : Finding) : Value :=
  .record [("path", .str f.path), ("line", .int f.line), ("side", .str "RIGHT"), ("body", .str f.body)]

/-- What is posted of a comment depends on its path, its line and its body only. -/
theorem posted_eq_of_data {comments : List LineComment} {fs : List Finding}
    (h : comments.map LineComment.data = fs.map Finding.data) :
    comments.map LineComment.posted = fs.map Finding.posted := by
  let posted : String × Nat × String → Value := fun (path, line, body) =>
    .record [("path", .str path), ("line", .int line), ("side", .str "RIGHT"), ("body", .str body)]
  have hcomment : LineComment.posted = posted ∘ LineComment.data := rfl
  have hfinding : Finding.posted = posted ∘ Finding.data := rfl
  rw [hcomment, hfinding, ← List.map_map, h, List.map_map]

/-- Whether a machine has the files of another, and logs to the same file. -/
structure Runner.TakesOver (s t : Runner) : Prop where
  workspace : t.workspace = s.workspace
  log : t.journal.file = s.journal.file

/-- Whether nothing has changed on a machine, if it shows no log. -/
def Runner.StaysUnlogged (s t : Runner) : Prop :=
  s.journal = .silent → t = s

theorem Runner.StaysUnlogged.isCalm : IsCalm StaysUnlogged where
  refl _ _ := rfl
  trans h h' hs := by rw [h' (h hs ▸ hs), h hs]
  log level source message s hs := by
    obtain ⟨_, _⟩ := s
    cases hs
    show (if level.weight < 30 then _ else _) = _
    split_ifs
    · rfl
    · simp

namespace Reviewer

variable {r : Reviewer} {s t : Runner}

/-- The posting stage posts the stored review, unless it stops before anything has been sent. -/
theorem runPosting_cases {client : Option Forge.Client} {run given : Option Int}
    {details : Option String} {review : StoredReview} {u : Runner} {result : Except Fault Posting}
    (hread : Artifacts.read r.store s = (.ok review, u))
    (h : r.runPosting client run given details s = (result, t)) :
    (t.requests = s.requests ∧ ∃ e, result = .error e) ∨
      ∃ (p : Poster) (v : Runner), p.marker = r.settings.artifacts.marker ∧
        v.requests = s.requests ∧ p.post review run given details v = (result, t) := by
  rcases runPosting_ends h with ⟨hnone, e, rfl⟩ | ⟨stored, p, v, hreaches, hpost⟩
  · exact Or.inl ⟨by simpa using hnone.requests, e, rfl⟩
  · obtain ⟨u', hstored⟩ := hreaches.stored
    obtain rfl : stored = review := by
      rw [hread] at hstored
      exact (Except.ok.inj (Action.outcome_eq.mp hstored).1).symm
    exact Or.inr ⟨p, v, (Poster.make_eq_ok hreaches.made).2.1, by simpa using hreaches.quiet.requests,
      hpost⟩

variable {m m₁ m₂ m₃ : Runner} {change : ChangeSelection} {number : Option Int} {a : Analysis}

/-- What is read after an analysis is its review, with the findings of the scan as comments and with the
number that was given. -/
theorem read_analysis (hvacant : m.IsVacant r.store) (hnumber : ∀ n, number = some n → 0 < n)
    (hanalysis : r.analyzeChange change number m = (.ok a, m₁)) (hover : m₁.TakesOver m₂) :
    ∃ files review u, (r.collect change m).1 = .ok files ∧
      a.payload = (aggregate r.rules files).payload ∧
      Artifacts.read r.store m₂ = (.ok review, u) ∧ m₂.SameWires u ∧
      review.reviewType = a.payload.verdict.name ∧ review.body = a.payload.shortBody ∧
      review.message = some a.payload.longSummary ∧ review.pullRequest = number ∧
      review.comments.map LineComment.data = (files.flatMap (scan r.rules)).map Finding.data := by
  obtain ⟨files, result, s₁, written, s₂, hcollect, rfl, hquiet, hwrite, hcalm, hpayload⟩ :=
    analyzeChange_eq_ok hanalysis
  have hleaves := hquiet _ (Runner.Leaves.isCalm r.store.place) (Runner.Leaves.allowsCommands _)
  have hlog := hquiet _ Runner.KeepsLog.isCalm Runner.KeepsLog.allowsCommands
  have hempty := hvacant.of_leaves hleaves (hlog hvacant.log)
  have hstored := (Artifacts.write_eq_ok hempty.isApart hwrite).1
  -- After the review has been stored only messages are logged, in another directory.
  have hleaves' := hcalm _ (Runner.Leaves.isCalm r.store.place)
  have hstore₁ := hleaves'.canStore hstored.canStore
  have hshelf₁ := hleaves'.shelf hstored.canStore
  have hstore : m₂.CanStore r.store := by
    refine ⟨hover.workspace ▸ hstore₁.ready, fun layout f hfile => ?_⟩
    exact hstore₁.apart layout f (hover.log ▸ hfile)
  have hshelf : m₂.shelf r.store = s₂.shelf r.store := by
    rw [← hshelf₁, Runner.shelf_congr hover.workspace]
  let call : Artifacts.Submission :=
    ⟨(aggregate r.rules files).payload, some (aggregate r.rules files), number⟩
  have hproper : ∀ c ∈ [] ++ [call], c.IsProper := by
    intro c hc
    obtain rfl : c = call := by simpa using hc
    refine ⟨fun f hf => ?_, hnumber⟩
    exact path_given_of_mem_aggregate (AnalysisResult.payload_comments _ ▸ hf)
  have hrun : Artifacts.storeAll r.store ([] ++ [call]) s₁ = (.ok (), s₂) := by
    simp only [List.nil_append, Artifacts.storeAll]
    rw [Action.bind_run_ok hwrite]
    rfl
  obtain ⟨found, u, hwires, hread, hdata⟩ :=
    Artifacts.read_latest hempty hproper hrun hstore hshelf
  refine ⟨files, _, u, hcollect, hpayload, hread, hwires, ?_, ?_, ?_, by cases number <;> rfl, ?_⟩
  · rw [hpayload]
  · rw [hpayload, AnalysisResult.strip_shortBody]
  · rw [hpayload, AnalysisResult.unified_longSummary]
  · rw [hdata, ← aggregate_findings, ← AnalysisResult.payload_comments]
    rfl

/-- Whatever the files hold and whatever the forge replies, a review that is posted after an analysis
has the verdict and the findings of the scan, and every summary is that of the analysis with the marker
after it. -/
theorem runPosting_posts_scan {client : Option Forge.Client} {run given : Option Int}
    {details : Option String} {result : Except Fault Posting} (hvacant : m.IsVacant r.store)
    (hnumber : ∀ n, number = some n → 0 < n)
    (hanalysis : r.runAnalysis true change number m = (.ok a, m₁)) (hover : m₁.TakesOver m₂)
    (hposting : r.runPosting client run given details m₂ = (result, m₃)) :
    ∃ files sent, (r.collect change m).1 = .ok files ∧
      a.payload = (aggregate r.rules files).payload ∧ m₃.requests = m₂.requests ++ sent ∧
      (∀ q ∈ sent, q.IsReview → q.json = some (Forge.reviewContent
        (if files.flatMap (scan r.rules) = [] then "APPROVE" else "REQUEST_CHANGES")
        a.payload.shortBody ((files.flatMap (scan r.rules)).map Finding.posted))) ∧
      (∀ q ∈ sent, q.IsSummary → q.json = some (Forge.commentContent
        (Text.stripEnd a.payload.longSummary ++ "\n" ++ r.settings.artifacts.marker.text ++ "\n"))) ∧
      ∀ posting, result = .ok posting → posting.status = .posted →
        ∃ q, sent.getLast? = some q ∧ q.IsReview := by
  obtain ⟨files, review, u, hcollect, hpayload, hread, -, htype, hbody, hmessage, -, hdata⟩ :=
    read_analysis hvacant hnumber hanalysis hover
  have hverdict : a.payload.verdict.name =
      if files.flatMap (scan r.rules) = [] then "APPROVE" else "REQUEST_CHANGES" := by
    rw [hpayload, AnalysisResult.payload_verdict, aggregate_findings]
    split_ifs <;> rfl
  have hname : Verdict.ofText? review.reviewType = some a.payload.verdict := by
    rw [htype, Verdict.ofText_name]
  refine ⟨files, ?_⟩
  rcases runPosting_cases hread hposting with ⟨hnone, e, rfl⟩ | ⟨p, v, hmarker, hv, hpost⟩
  · refine ⟨[], hcollect, hpayload, by rw [hnone, List.append_nil], by simp, by simp, ?_⟩
    intro posting hok
    cases hok
  · obtain ⟨sent, ⟨hsent, -⟩, hcarries⟩ := (p.post_carries hname run given details).of_run hpost
    rw [hv] at hsent
    refine ⟨sent, hcollect, hpayload, hsent, fun q hq hreview => ?_, fun q hq hsummary => ?_, ?_⟩
    · rw [(hcarries q hq).review hreview, Poster.reviewOf, ← hverdict, hbody, posted_eq_of_data hdata]
    · rw [(hcarries q hq).summary hsummary, Poster.summaryOf, Poster.marked, hmarker, hmessage]
      rfl
    · rintro posting rfl hstatus
      obtain ⟨before, q, hlast, hq⟩ := Poster.post_eq_ok hname hpost hstatus
      rw [hv, hsent] at hlast
      exact ⟨q, by rw [List.append_cancel_left hlast]; simp, hq⟩

def exampleReviewer : Reviewer where
  settings :=
    { Settings.default with
      forge := { Settings.default.forge with repository := .str "owner/repo" } }
  window := some 30
  store := .ofText "reviews"

def exampleChange : ChangeSelection := ⟨".", some ["A.cs"], none, none⟩

/-- A machine with one file, in which a line is disabled. -/
def disabledLine : Runner :=
  { Runner.fresh 0 with workspace := ⟨[(["A.cs"], .file (Text.Utf8.encode "// try"))]⟩ }

def exampleClient : Forge.Client := ⟨.str "t", "https://api.github.com", .int 30⟩

def examplePoster : Poster :=
  ⟨exampleClient, ⟨"owner", "repo"⟩, exampleReviewer.settings.artifacts.marker, true⟩

/-- A machine with some files, and a forge that has no comments yet and takes all that it is sent. -/
def reachingForge (w : Workspace) : Runner :=
  { Runner.fresh 0 with
    workspace := w
    network := .script
      [.reply (.of 200 [] "[]"), .reply (.of 201 [] "\x7b\x7d"), .reply (.of 201 [] "\x7b\x7d")] }

/-- That forge takes every review that has a summary, for a pull request that is known. -/
theorem runPosting_reachingForge {w : Workspace} {review : StoredReview} {verdict : Verdict} {body : String}
    {result : Except Fault Posting}
    (hread : Artifacts.read exampleReviewer.store (reachingForge w) = (.ok review, s))
    (hverdict : Verdict.ofText? review.reviewType = some verdict) (hnumber : review.pullRequest = some 7)
    (hmessage : review.message = some body) (hbody : body ≠ "")
    (h : exampleReviewer.runPosting (some exampleClient) none none none (reachingForge w) = (result, t)) :
    ∃ posting, result = .ok posting ∧ posting.status = .posted := by
  obtain rfl : s = reachingForge w :=
    ((Artifacts.read_effects _).keeps_of_quiet Runner.StaysUnlogged.isCalm).of_run hread rfl
  have hstored : exampleReviewer.readStored (reachingForge w) = (.ok review, reachingForge w) := by
    rw [readStored, Action.bind_run, Job.catching_run, hread]
    rfl
  have hmade : Poster.make exampleClient exampleReviewer.settings.forge.repository
      exampleReviewer.settings.artifacts.marker exampleReviewer.settings.artifacts.recreate =
        .ok examplePoster := rfl
  have hgiven : exampleReviewer.settings.forge.repository.isGiven = true := rfl
  simp only [runPosting, hgiven, Bool.not_true, Bool.false_eq_true, if_false, Action.bind_run_ok hstored,
    clientFor, pure_bind, hmade] at h
  rw [Action.bind_run, Job.ofExcept_run] at h
  dsimp only at h
  rw [Poster.post_run hverdict (by rw [hnumber]; rfl), Poster.submit, Poster.trySummary, hmessage] at h
  simp only [Option.getD_some, if_neg hbody] at h
  cases h
  exact ⟨_, rfl, rfl⟩

theorem runAnalysis_disabledLine :
    (exampleReviewer.runAnalysis true exampleChange (some 7) disabledLine).1.isOk = true ∧
      (exampleReviewer.runAnalysis true exampleChange (some 7) disabledLine).2.journal.file.isNone := by
  decide +kernel

theorem runPosting_posts_disabled_line :
    ∃ a m₁ files sent,
      exampleReviewer.runAnalysis true exampleChange (some 7) disabledLine = (.ok a, m₁) ∧
      (exampleReviewer.collect exampleChange disabledLine).1 = .ok files ∧
      (exampleReviewer.runPosting (some exampleClient) none none none
          (reachingForge m₁.workspace)).2.requests = sent ∧
      (∃ q ∈ sent, q.IsReview) ∧
      ∀ q ∈ sent, q.IsReview → q.json = some (Forge.reviewContent
        (if files.flatMap (scan exampleReviewer.rules) = [] then "APPROVE" else "REQUEST_CHANGES")
        a.payload.shortBody ((files.flatMap (scan exampleReviewer.rules)).map Finding.posted)) := by
  obtain ⟨hok, hsilent⟩ := runAnalysis_disabledLine
  rcases hanalysis : exampleReviewer.runAnalysis true exampleChange (some 7) disabledLine with
    ⟨_ | a, m₁⟩
  all_goals rw [hanalysis] at hok hsilent
  · cases hok
  have hplace : exampleReviewer.store.place = ["reviews"] := by decide
  have hvacant : disabledLine.IsVacant exampleReviewer.store := by
    refine ⟨fun name => ?_, fun _ _ h => by cases h⟩
    simp [Runner.shelf, hplace, disabledLine, Workspace.contentAt?, Workspace.entryAt?,
      Workspace.isFixed, Workspace.lookup]
  have hover : m₁.TakesOver (reachingForge m₁.workspace) :=
    ⟨rfl, (Option.isNone_iff_eq_none.mp hsilent).symm⟩
  rcases hposting : exampleReviewer.runPosting (some exampleClient) none none none
    (reachingForge m₁.workspace) with ⟨result, m₃⟩
  obtain ⟨_, review, u, -, hpayload, hread, -, htype, -, hmessage, hnumber, -⟩ :=
    read_analysis hvacant (by decide) hanalysis hover
  obtain ⟨posting, rfl, hstatus⟩ := runPosting_reachingForge hread (by rw [htype, Verdict.ofText_name])
    hnumber hmessage (by rw [hpayload]; exact AnalysisResult.longSummary_ne_empty _) hposting
  obtain ⟨files, sent, hcollect, -, hsent, hreview, -, hlast⟩ :=
    runPosting_posts_scan hvacant (by decide) hanalysis hover hposting
  obtain ⟨q, hq, hposted⟩ := hlast posting rfl hstatus
  refine ⟨a, m₁, files, sent, rfl, hcollect, ?_, ⟨q, List.mem_of_getLast? hq, hposted⟩, hreview⟩
  rw [hposting]
  exact hsent

end Reviewer

end ReviewGate

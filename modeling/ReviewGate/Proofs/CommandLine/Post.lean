import ReviewGate.Proofs.CommandLine.Prepare
import ReviewGate.Proofs.Posting.Once
import ReviewGate.Proofs.Reviewer.Posting

/-! What the exit code of the command that posts a review says about the review. -/
namespace ReviewGate

open Forge

variable {r : Reviewer} {run number : Option Int} {details : Option String} {s t m n : Runner}

/-- The posting stage says that it has posted a review if and only if its last request was for a review,
and is done. -/
theorem Reviewer.runPosting_once {client : Option Client} {result : Except Fault Posting}
    (h : r.runPosting client run number details s = (result, t)) :
    ∃ sent, s.Sends sent t ∧ reviews sent.dropLast = 0 ∧
      ((∃ posting, result = .ok posting ∧ posting.status = .posted) ↔
        EndsWithReview (s.network.exchange sent)) := by
  rcases runPosting_ends h with ⟨hnone, e, rfl⟩ | ⟨review, p, v, hreaches, hpost⟩
  · exact ⟨[], hnone, rfl, iff_of_false (by simp) (not_endsWithReview rfl)⟩
  · obtain ⟨sent, hsent, honce⟩ := Poster.post_once hpost
    have hnetwork : v.network = s.network := hreaches.quiet.network
    exact ⟨sent, hreaches.quiet.trans hsent, honce.last, hnetwork ▸ honce.done⟩

namespace CommandLine

variable {env : Settings.Environment} {args : List String} {config : Option String} {settings : Settings}

/-- The exit code after a posting, or the fault that is not reported by one. -/
def exitOf : Except Fault Posting → Except Fault Nat
  | .ok posting => .ok (if posting.status = .posted then 0 else 1)
  | .error e => if isPostingFault e then .ok 1 else .error e

theorem exitOf_eq_zero {result : Except Fault Posting} :
    exitOf result = .ok 0 ↔ ∃ posting, result = .ok posting ∧ posting.status = .posted := by
  cases result with
  | ok posting => simp [exitOf]
  | error e =>
    simp only [exitOf]
    split_ifs <;> simp

/-- The command posts the stored review, and ends with the exit code for what came of it. -/
theorem runPost_run {result : Except Fault Nat} (h : runPost r run number details s = (result, t)) :
    ∃ posting v, r.runPosting none run number details s = (posting, v) ∧ v.SameWires t ∧
      result = exitOf posting := by
  rw [runPost, Action.bind_run, Job.catching_run] at h
  rcases hrun : r.runPosting none run number details s with ⟨e | posting, v⟩
  all_goals refine ⟨_, v, rfl, ?_⟩
  · rw [hrun] at h
    rcases hfamily : isPostingFault e with _ | _
    · simp only [hfamily, Bool.false_eq_true, if_false] at h
      cases h
      exact ⟨.refl _, by simp [exitOf, hfamily]⟩
    · simp only [hfamily, if_true] at h
      obtain ⟨w, hwires, -, hdone⟩ := Job.log_bind h
      cases hdone
      exact ⟨hwires, by simp [exitOf, hfamily]⟩
  · rw [hrun] at h
    rcases hstatus : posting.status with _ | _
    all_goals
      simp only [hstatus] at h
      cases h
      exact ⟨.refl _, by simp [exitOf, hstatus]⟩

/-- Once the settings are put to use and a reviewer is ready, the command does what it is for. -/
theorem execute_post (hread : read args = .ok ⟨config, .post run number details⟩)
    (hprepare : prepare env config m = (.ok settings, s))
    (hstart : Reviewer.start settings s = (.ok r, t)) :
    execute env args m = runPost r run number details t := by
  simp only [execute, hread]
  exact run_of_start hprepare hstart

/-- Up to the posting nothing is sent. -/
theorem start_wires (hprepare : prepare env config m = (.ok settings, s))
    (hstart : Reviewer.start settings s = (.ok r, t)) : m.SameWires t :=
  have hR := Runner.SameWires.isCalm
  ((prepare_keeps hR Runner.SameWires.allowsFiles env config).of_run hprepare).trans
    ((Reviewer.start_keeps hR settings).of_run hstart)

/-- The exit code of a posting is zero if and only if the last request was for a review, and is done. -/
theorem runPost_eq_zero_iff {result : Except Fault Nat} (hwires : m.SameWires s)
    (h : runPost r run number details s = (result, n)) :
    ∃ sent, m.Sends sent n ∧ reviews sent.dropLast = 0 ∧
      (result = .ok 0 ↔ EndsWithReview (m.network.exchange sent)) := by
  obtain ⟨posting, v, hrun, hwires', rfl⟩ := runPost_run h
  obtain ⟨sent, hsent, hlast, hdone⟩ := Reviewer.runPosting_once hrun
  refine ⟨sent, (Runner.Sends.after hwires hsent).before hwires', hlast, ?_⟩
  rw [exitOf_eq_zero, hdone, hwires.network]

/-- A machine with a review that approves, and a forge that takes what it is sent. -/
def approved : Runner :=
  { Runner.fresh 0 with
    workspace :=
      ⟨[(["artifacts"], .directory),
        (["artifacts", "review_type.txt"], .file (Text.Utf8.encode "APPROVE\n")),
        (["artifacts", "review_body.txt"], .file (Text.Utf8.encode "Fine.\n"))]⟩
    network := .script [.reply (.of 200 [] "\x7b\x7d")] }

def exampleEnvironment : Settings.Environment :=
  [("GITHUB_TOKEN", "t"), ("GITHUB_REPOSITORY", "owner/repo")]

end CommandLine

end ReviewGate

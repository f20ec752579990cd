import ReviewGate.Proofs.Artifacts.Read
import ReviewGate.Proofs.Review.Payload

/-! Reviews stored one after the other in one directory. A call writes some of the files only, so what
is read afterwards mixes the last call with earlier ones: comments are those of the last call with an
analysis, and the number of the pull request is the last one that was given. -/
namespace ReviewGate.Artifacts

/-- What is stored by one call. -/
structure Submission where
  payload : Payload
  result : Option AnalysisResult
  number : Option Int

namespace Submission

/-- The findings of a call that come from an analysis. -/
def findings? (c : Submission) : Option (List Finding) :=
  c.result.map fun _ => c.payload.comments

/-- Whether all comments of a call have a path, and its number is that of a pull request. -/
structure IsProper (c : Submission) : Prop where
  paths : ∀ f ∈ c.payload.comments, Text.isBlankText f.path = false
  number : ∀ n, c.number = some n → 0 < n

end Submission

/-- The calls one after the other. -/
def storeAll (directory : Path) : List Submission → Job Unit
  | [] => pure ()
  | c :: more => do
    let _ ← write directory c.payload c.result c.number
    storeAll directory more

/-- What the last of those calls gives that give anything. -/
def latest? {α : Type} (part : Submission → Option α) (calls : List Submission) : Option α :=
  calls.reverse.findSome? part

variable {directory : Path} {m s t : Runner} {α : Type}

theorem latest_concat (part : Submission → Option α) (calls : List Submission) (last : Submission) :
    latest? part (calls ++ [last]) = (part last).or (latest? part calls) := by
  simp only [latest?, List.reverse_append, List.reverse_singleton, List.singleton_append,
    List.findSome?_cons]
  cases part last <;> rfl

theorem latest_cons (part : Submission → Option α) (c : Submission) (calls : List Submission) :
    latest? part (c :: calls) = (latest? part calls).or (part c) := by
  simp only [latest?, List.reverse_cons, List.findSome?_append, List.findSome?_cons, List.findSome?_nil]
  cases part c <;> rfl

/-- The text of the file with the comments, where a call writes it. -/
def commentsText? (c : Submission) : Option String :=
  c.findings?.map fun fs => Json.write (.list (fs.map Finding.record)) ++ "\n"

/-- The text of the file with the number of the pull request, where a call writes it. -/
def numberText? (c : Submission) : Option String :=
  c.number.map fun n => Number.intText n ++ "\n"

/-- A file that only some calls write holds what the last of them has written. -/
theorem storeAll_eq_ok {calls : List Submission} (hapart : m.journal.IsApart directory.place)
    (hrun : storeAll directory calls m = (.ok (), s)) :
    s.journal.IsApart directory.place ∧
      s.shelf directory commentsFile =
        ((latest? commentsText? calls).map Text.Utf8.encode).or (m.shelf directory commentsFile) ∧
      s.shelf directory pullRequestFile =
        ((latest? numberText? calls).map Text.Utf8.encode).or (m.shelf directory pullRequestFile) ∧
      ∀ c ∈ calls, IsWritable c.payload c.result c.number := by
  -- What the first call leaves is what the later ones start with, so the machine is not fixed.
  induction calls generalizing m with
  | nil =>
    cases hrun
    exact ⟨hapart, rfl, rfl, by simp⟩
  | cons c calls ih =>
    rw [storeAll, Action.bind_eq_ok] at hrun
    obtain ⟨written, m₁, hwrite, hmore⟩ := hrun
    obtain ⟨⟨-, hm₁, hshelf, -, -⟩, hwritable⟩ := write_eq_ok hapart hwrite
    obtain ⟨hs, hcomments, hnumber, hall⟩ := ih hm₁.apart hmore
    obtain ⟨hcomments₁, hnumber₁⟩ :=
      putTexts_sometimes (m.shelf directory) c.payload c.result c.number
    rw [hshelf, hcomments₁] at hcomments
    rw [hshelf, hnumber₁] at hnumber
    refine ⟨hs, ?_, ?_, ?_⟩
    · rw [hcomments, latest_cons, Option.map_or, Option.or_assoc, commentsText?, Submission.findings?,
        Option.map_map, Option.map_map]
      rfl
    · rw [hnumber, latest_cons, Option.map_or, Option.or_assoc, numberText?, Option.map_map]
      rfl
    · exact fun d hd => (List.mem_cons.mp hd).elim (fun h => h ▸ hwritable) (hall d)

theorem storeAll_concat {calls : List Submission} {last : Submission}
    (hrun : storeAll directory (calls ++ [last]) m = (.ok (), s)) :
    ∃ s₁ written, storeAll directory calls m = (.ok (), s₁) ∧
      write directory last.payload last.result last.number s₁ = (.ok written, s) := by
  induction calls generalizing m with
  | nil =>
    rw [List.nil_append, storeAll, Action.bind_eq_ok] at hrun
    obtain ⟨written, s₁, hwrite, hdone⟩ := hrun
    cases hdone
    exact ⟨m, written, rfl, hwrite⟩
  | cons c calls ih =>
    rw [List.cons_append, storeAll, Action.bind_eq_ok] at hrun
    obtain ⟨written, m₁, hwrite, hmore⟩ := hrun
    obtain ⟨s₁, written', hcalls, hlast⟩ := ih hmore
    exact ⟨s₁, written', Action.bind_eq_ok.mpr ⟨written, m₁, hwrite, hcalls⟩, hlast⟩

theorem exists_of_latest {part : Submission → Option α} {calls : List Submission} {a : α}
    (h : latest? part calls = some a) : ∃ c ∈ calls, part c = some a := by
  obtain ⟨c, hc, hpart⟩ := List.exists_of_findSome?_eq_some h
  exact ⟨c, List.mem_reverse.mp hc, hpart⟩

theorem latest_map {β : Type} (part : Submission → Option α) (f : α → β) (calls : List Submission) :
    latest? (fun c => (part c).map f) calls = (latest? part calls).map f := by
  induction calls with
  | nil => rfl
  | cons c calls ih => rw [latest_cons, latest_cons, ih, Option.map_or]

/-- The comments in the file are those of the last call with an analysis. -/
theorem commentsIn_latest {room : Json.Room} (hroom : room.Takes 2) {calls : List Submission}
    (hproper : ∀ c ∈ calls, c.IsProper)
    (hwritable : ∀ c ∈ calls, IsWritable c.payload c.result c.number) :
    ∃ found, commentsIn room (latest? commentsText? calls) = .ok found ∧
      found.map LineComment.data =
        ((latest? Submission.findings? calls).getD []).map Finding.data := by
  have htext : latest? commentsText? calls = (latest? Submission.findings? calls).map
      fun fs => Json.write (.list (fs.map Finding.record)) ++ "\n" := latest_map _ _ calls
  rw [htext]
  rcases hlatest : latest? Submission.findings? calls with _ | fs
  · exact ⟨[], rfl, rfl⟩
  · obtain ⟨c, hc, hfs⟩ := exists_of_latest hlatest
    obtain ⟨r, hr, rfl⟩ := Option.map_eq_some_iff.mp hfs
    simp only [Option.map_some, commentsIn, Option.getD_some]
    exact commentsOf_write hroom ((hwritable c hc).lines (by simp [hr])) (hproper c hc).paths

/-- The number in the file is the last one that was given. -/
theorem numberIn_latest {calls : List Submission} (hproper : ∀ c ∈ calls, c.IsProper)
    (hwritable : ∀ c ∈ calls, IsWritable c.payload c.result c.number) :
    numberIn (latest? numberText? calls) = .ok (latest? Submission.number calls) := by
  have htext : latest? numberText? calls = (latest? Submission.number calls).map
      fun n => Number.intText n ++ "\n" := latest_map _ _ calls
  rw [htext]
  rcases hlatest : latest? Submission.number calls with _ | n
  · rfl
  · obtain ⟨c, hc, hn⟩ := exists_of_latest hlatest
    simp only [Option.map_some, numberIn]
    rw [numberOf_write ((hwritable c hc).number n hn) ((hproper c hc).number n hn)]
    rfl

theorem storeAll_canStore {calls : List Submission} {last : Submission}
    (hapart : m.journal.IsApart directory.place)
    (hrun : storeAll directory (calls ++ [last]) m = (.ok (), s)) : s.CanStore directory := by
  obtain ⟨s₁, written, hcalls, hlast⟩ := storeAll_concat hrun
  exact (write_eq_ok (storeAll_eq_ok hapart hcalls).1 hlast).1.canStore

/-- What is read after some calls, on any machine with the same files in the directory: the verdict and
the texts of the last one, with the last comments and the last number that any of them has stored. -/
theorem read_latest {calls : List Submission} {last : Submission} (hvacant : m.IsVacant directory)
    (hproper : ∀ c ∈ calls ++ [last], c.IsProper)
    (hrun : storeAll directory (calls ++ [last]) m = (.ok (), s)) (hstore : t.CanStore directory)
    (hsame : t.shelf directory = s.shelf directory) :
    ∃ found u, t.SameWires u ∧
      read directory t =
        (.ok ⟨last.payload.verdict.name, Text.strip (Text.unified last.payload.shortBody),
          some (Text.unified last.payload.longSummary), found,
          latest? Submission.number (calls ++ [last])⟩, u) ∧
      found.map LineComment.data =
        ((latest? Submission.findings? (calls ++ [last])).getD []).map Finding.data := by
  obtain ⟨hs, hcomments, hnumber, hwritable⟩ := storeAll_eq_ok hvacant.isApart hrun
  obtain ⟨s₁, written, hcalls, hlast⟩ := storeAll_concat hrun
  have hshelf := (write_eq_ok (storeAll_eq_ok hvacant.isApart hcalls).1 hlast).1.shelf
  obtain ⟨htype, hbody, hmessage⟩ := putTexts_always (s₁.shelf directory) last.payload last.result last.number
  rw [← hshelf, ← hsame] at htype hbody hmessage
  rw [hvacant.files, Option.or_none, ← hsame] at hcomments hnumber
  obtain ⟨found, hfound, hdata⟩ := commentsIn_latest t.platform.room_takes hproper hwritable
  have hmessage' : t.shelf directory messageFile =
      (some last.payload.longSummary).map Text.Utf8.encode := hmessage
  obtain ⟨u, hwires, -, hread⟩ := read_run hstore htype hbody hmessage' hcomments hnumber hfound
    (numberIn_latest hproper hwritable)
  rw [Verdict.strip_line, Text.strip_unified_line, Option.map_some] at hread
  exact ⟨found, u, hwires, hread, hdata⟩

/-! ### When nothing is left of earlier calls -/

/-- Whether a review that has been read holds the comments and the number of a call: no comments if
there was no analysis, and no number if none was given. -/
def IsOf (review : StoredReview) (c : Submission) : Prop :=
  review.comments.map LineComment.data = (c.findings?.getD []).map Finding.data ∧
    review.pullRequest = c.number

/-- Whether a call covers what the earlier ones have left: it has an analysis unless the last one
before it had no findings, and it gives a number unless none has been given. -/
def Covers (calls : List Submission) (last : Submission) : Prop :=
  (last.findings? = none → (latest? Submission.findings? calls).getD [] = []) ∧
    (last.number = none → latest? Submission.number calls = none)

/-- After a number of calls the verdict and the texts of the last one are read. The comments and the
number are those of the last call if and only if it covers what the earlier ones have left. -/
theorem read_storeAll {calls : List Submission} {last : Submission} (hvacant : m.IsVacant directory)
    (hproper : ∀ c ∈ calls ++ [last], c.IsProper)
    (hrun : storeAll directory (calls ++ [last]) m = (.ok (), s)) :
    ∃ review t, read directory s = (.ok review, t) ∧
      review.reviewType = last.payload.verdict.name ∧
      review.body = Text.strip (Text.unified last.payload.shortBody) ∧
      review.message = some (Text.unified last.payload.longSummary) ∧
      review.comments.map LineComment.data =
        ((latest? Submission.findings? (calls ++ [last])).getD []).map Finding.data ∧
      review.pullRequest = latest? Submission.number (calls ++ [last]) ∧
      (IsOf review last ↔ Covers calls last) := by
  obtain ⟨found, t, -, hread, hdata⟩ :=
    read_latest hvacant hproper hrun (storeAll_canStore hvacant.isApart hrun) rfl
  refine ⟨_, t, hread, rfl, rfl, rfl, hdata, rfl, ?_⟩
  simp only [IsOf, Covers, hdata, latest_concat]
  refine and_congr ?_ ?_
  · cases last.findings? <;> simp
  · cases last.number <;> simp

/-- A review with a finding in a pull request that is known. -/
def flaggedReview : Submission :=
  let finding : Finding := ⟨"src/User.cs", 3, .nullCheck, "Add a null check.", Nat.succ_pos 2, rfl⟩
  ⟨⟨.requestChanges, "Issues found.", "Missing null checks.", [finding]⟩, some ⟨[finding], 1⟩, some 7⟩

/-- A review of a change that has not been analysed, in a pull request that is not known. -/
def untestedReview : Submission :=
  ⟨⟨.requestChanges, "Tests fail.", "Please fix the tests.", []⟩, none, none⟩

/-- A review that has not been analysed is read with the comment and the number of the review before
it. -/
theorem storeAll_leaves_stale_data :
    ((storeAll (.ofText "reviews") [flaggedReview, untestedReview] >>= fun _ =>
        read (.ofText "reviews")) (.fresh 0)).1.toOption.map
          (fun review => (review.comments.map LineComment.data, review.pullRequest)) =
      some ([("src/User.cs", 3, "Add a null check.")], some 7) := by
  decide +kernel

theorem isOk_storeAll_example :
    ((storeAll (.ofText "reviews") ([flaggedReview] ++ [untestedReview])) (.fresh 0)).1.isOk = true := by
  decide +kernel

theorem read_storeAll_of_untested :
    ∃ s review t,
      storeAll (.ofText "reviews") ([flaggedReview] ++ [untestedReview]) (.fresh 0) = (.ok (), s) ∧
        read (.ofText "reviews") s = (.ok review, t) ∧ review.reviewType = "REQUEST_CHANGES" ∧
        review.comments.map LineComment.data = [("src/User.cs", 3, "Add a null check.")] ∧
        review.pullRequest = some 7 ∧ ¬ IsOf review untestedReview := by
  have hok := isOk_storeAll_example
  rcases hrun : storeAll (.ofText "reviews") ([flaggedReview] ++ [untestedReview]) (.fresh 0) with ⟨_ | _, s⟩
  · rw [hrun] at hok
    cases hok
  · obtain ⟨review, t, hread, htype, -, -, hcomments, hnumber, hiff⟩ :=
      read_storeAll ⟨fun name => rfl, fun _ _ h => by cases h⟩
        (by
          intro c hc
          simp only [List.singleton_append, List.mem_cons, List.not_mem_nil, or_false] at hc
          rcases hc with rfl | rfl
          · exact ⟨by decide, by decide⟩
          · exact ⟨by decide, by decide⟩) hrun
    refine ⟨s, review, t, rfl, hread, htype, hcomments, hnumber, ?_⟩
    rw [hiff]
    rintro ⟨-, h⟩
    exact absurd (h rfl) (by decide)

end ReviewGate.Artifacts

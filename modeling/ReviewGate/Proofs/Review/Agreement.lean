import Mathlib.Data.List.Count
import Mathlib.Data.List.Nodup
import ReviewGate.Proofs.Review.Payload

/-! The verdict, the summary and the flags of a result are written apart from each other, from two tables
of categories. Line by line, they say the same. -/
namespace ReviewGate

/-- Whether a finding counts for a category of the summary: for its own, and a block of the second step
for documentation and logging. -/
def Finding.CountsFor (f : Finding) (c : Category) : Prop :=
  f.category = c ∨ (f.category = .stepTwoBlock ∧ (c = .documentation ∨ c = .logging))

theorem Category.mem_flagged {c : Category} (hc : c ∈ summaryOrder) (d : Category) :
    c ∈ d.flagged ↔ d = c ∨ (d = .stepTwoBlock ∧ (c = .documentation ∨ c = .logging)) := by
  have hstep : c ≠ .stepTwoBlock := by
    rintro rfl
    exact absurd hc (by decide)
  cases d with
  | stepTwoBlock => simp [flagged, hstep.symm]
  | _ => simp [flagged, eq_comm]

namespace AnalysisResult

theorem flags_iff (r : AnalysisResult) {c : Category} (hc : c ∈ Category.summaryOrder) :
    r.flags c = true ↔ ∃ f ∈ r.findings, f.CountsFor c := by
  simp only [flags, List.any_eq_true, List.contains_iff_mem, Category.mem_flagged hc,
    Finding.CountsFor]

/-- A result with findings counts for some category of the summary, because every finding does. -/
theorem exists_flags_iff (r : AnalysisResult) :
    (∃ c ∈ Category.summaryOrder, r.flags c = true) ↔ r.findings ≠ [] := by
  constructor
  · rintro ⟨c, -, hc⟩ hnone
    simp [flags, hnone] at hc
  · intro hsome
    obtain ⟨f, more, hfindings⟩ := List.exists_cons_of_ne_nil hsome
    have hf : ∃ c ∈ Category.summaryOrder, c ∈ f.category.flagged := by
      cases f.category <;> decide
    obtain ⟨c, hc, hflagged⟩ := hf
    refine ⟨c, hc, ?_⟩
    simp [flags, hfindings, hflagged]

theorem hasIssues_iff (r : AnalysisResult) : r.hasIssues = true ↔ r.findings ≠ [] := by
  simp [hasIssues]

end AnalysisResult

namespace Summary

/-! ### The flags -/

/-- Whether a text of flags sets one of them, and does not clear it as well. -/
def IsSet (text key : String) : Prop :=
  key ++ "=true" ∈ Text.linesIn text ∧ key ++ "=false" ∉ Text.linesIn text

/-- All flags of a result by their keys. -/
def flagTable (r : AnalysisResult) : List (String × Bool) :=
  ("ISSUES_FOUND", r.hasIssues) :: flagNames.map fun (key, c) => (key, r.flags c)

theorem flagLines_eq (r : AnalysisResult) :
    flagLines r = (flagTable r).map fun (key, isSet) => flagLine key isSet := by
  simp [flagLines, flagTable, Function.comp_def]

theorem map_fst_flagTable (r : AnalysisResult) :
    (flagTable r).map Prod.fst = "ISSUES_FOUND" :: flagNames.map Prod.fst := by
  simp [flagTable, Function.comp_def]

theorem key_plain {r : AnalysisResult} {key : String} {b : Bool} (h : (key, b) ∈ flagTable r) :
    '=' ∉ key.toList ∧ '\n' ∉ key.toList := by
  have hkeys : ∀ key ∈ "ISSUES_FOUND" :: flagNames.map Prod.fst,
      '=' ∉ key.toList ∧ '\n' ∉ key.toList := by decide +kernel
  have hmem : key ∈ (flagTable r).map Prod.fst := List.mem_map_of_mem h
  rw [map_fst_flagTable] at hmem
  exact hkeys key hmem

theorem key_unique {r : AnalysisResult} {key : String} {b b' : Bool} (h : (key, b) ∈ flagTable r)
    (h' : (key, b') ∈ flagTable r) : b = b' := by
  have hkeys : ((flagTable r).map Prod.fst).Nodup := by
    rw [map_fst_flagTable]
    decide +kernel
  have hpair := List.inj_on_of_nodup_map hkeys h h' rfl
  exact congrArg Prod.snd hpair

/-- A flag is read back from its line, because its key has no equals sign. -/
theorem flagLine_inj {key key' : String} (hkey' : '=' ∉ key'.toList) {b b' : Bool}
    (h : flagLine key b = flagLine key' b') : key = key' ∧ b = b' := by
  have hlist := congrArg String.toList h
  have hsign : "=".toList = ['='] := rfl
  simp only [flagLine, String.toList_append, hsign, List.append_assoc, List.singleton_append] at hlist
  have hvalue : '=' ∉ (if b' then "true" else "false").toList := by
    cases b' <;> decide
  obtain ⟨hkeys, -, hvalues⟩ := (List.append_cons_inj_of_notMem hkey' hvalue).mp hlist.symm
  have hb : b = b' := by
    revert hvalues
    cases b <;> cases b' <;> decide
  exact ⟨(String.toList_injective hkeys).symm, hb⟩

theorem linesIn_flags (r : AnalysisResult) : Text.linesIn (flags r) = flagLines r := by
  refine Text.linesIn_join (by simp [flagLines]) fun line hline => ?_
  rw [flagLines_eq, List.mem_map] at hline
  obtain ⟨⟨key, b⟩, hkey, rfl⟩ := hline
  refine Text.not_mem_append (Text.not_mem_append (key_plain hkey).2 (by decide)) ?_
  cases b <;> decide

theorem flagLine_mem_flagLines {r : AnalysisResult} {key : String} {b : Bool}
    (h : (key, b) ∈ flagTable r) (b' : Bool) : flagLine key b' ∈ flagLines r ↔ b = b' := by
  rw [flagLines_eq, List.mem_map]
  constructor
  · rintro ⟨⟨key', b''⟩, hmem, hline⟩
    obtain ⟨rfl, rfl⟩ := flagLine_inj (key_plain h).1 hline
    exact key_unique h hmem
  · rintro rfl
    exact ⟨(key, b), h, rfl⟩

/-- The text of the flags says what the result does. -/
theorem isSet_flags {r : AnalysisResult} {key : String} {b : Bool} (h : (key, b) ∈ flagTable r) :
    IsSet (flags r) key ↔ b = true := by
  have htrue : key ++ "=true" = flagLine key true := by simp [flagLine, String.append_assoc]
  have hfalse : key ++ "=false" = flagLine key false := by simp [flagLine, String.append_assoc]
  rw [IsSet, linesIn_flags, htrue, hfalse, flagLine_mem_flagLines h, flagLine_mem_flagLines h]
  cases b <;> simp

theorem isSet_issuesFound (r : AnalysisResult) :
    IsSet (flags r) "ISSUES_FOUND" ↔ r.findings ≠ [] := by
  rw [isSet_flags (r := r) (b := r.hasIssues) (by simp [flagTable]), r.hasIssues_iff]

theorem isSet_flagName (r : AnalysisResult) {key : String} {c : Category} (h : (key, c) ∈ flagNames) :
    IsSet (flags r) key ↔ r.flags c = true := by
  have hmem : (key, r.flags c) ∈ flagTable r :=
    List.mem_cons_of_mem _ (List.mem_map.mpr ⟨(key, c), h, rfl⟩)
  exact isSet_flags hmem

/-- The flags are those of the categories of the summary. -/
theorem map_snd_flagNames : flagNames.map Prod.snd = Category.summaryOrder := rfl

theorem mem_summaryOrder {key : String} {c : Category} (h : (key, c) ∈ flagNames) :
    c ∈ Category.summaryOrder := by
  rw [← map_snd_flagNames]
  exact List.mem_map_of_mem h

/-! ### The summary -/

/-- The character in which the lines for categories differ from each other and from all other lines. -/
def mark (line : String) : Option Char :=
  line.toList[14]?

theorem mark_ofList (cs : List Char) : mark (String.ofList cs) = cs[14]? := by
  rw [mark, String.toList_ofList]

theorem mark_append {cs : List Char} (h : 14 < cs.length) (s : String) :
    mark (String.ofList cs ++ s) = cs[14]? := by
  rw [mark, String.toList_append, String.toList_ofList, List.getElem?_append_left h]

def markOf : Category → Option Char
  | .nullCheck => some 'N'
  | .validation => some 'I'
  | .documentation => some 'D'
  | .exceptionHandling => some 'E'
  | .logging => some 'L'
  | .stepTwoBlock => none

theorem mark_bullet (c : Category) : mark (bullet c) = markOf c := by
  cases c with
  | stepTwoBlock => exact mark_ofList []
  | _ => exact mark_append (by decide) _

theorem bullet_injective : Function.Injective bullet := by
  intro c d h
  have hmarks : markOf c = markOf d := by rw [← mark_bullet, h, mark_bullet]
  revert hmarks
  cases c <;> cases d <;> decide

/-- No line for a category is the same as a line with another mark. -/
theorem bullet_not_mem {lines : List String} {c : Category}
    (h : ∀ line ∈ lines, mark line ≠ markOf c) : bullet c ∉ lines :=
  fun hmem => h _ hmem (mark_bullet c)

theorem mark_header : mark header = some ' ' := mark_ofList _

theorem mark_issuesHeading : mark issuesHeading = some 't' := mark_ofList _

theorem mark_closing : mark closing = some ' ' := mark_append (by decide) _

/-- What a summary without findings says. -/
def approvalLine : String :=
  "🎉 **Great job!** All tests are passing and code quality standards have been met."

theorem mark_approvalLine : mark approvalLine = some '*' := mark_ofList _

theorem linesIn_approvalSummary : Text.linesIn approvalSummary = [header, "", approvalLine] := by
  have hheader : '\n' ∉ header.toList := Text.not_mem_ofList (by decide)
  have hfeeds : "\n\n" = "\n" ++ ("" ++ "\n") := by decide
  have hline : Text.linesIn
      "🎉 **Great job!** All tests are passing and code quality standards have been met.\n" =
        [approvalLine] := Text.linesIn_ofList _
  rw [approvalSummary, hfeeds, ← String.append_assoc, String.append_assoc,
    Text.linesIn_append_feed hheader, Text.linesIn_append_feed (by decide), hline]

theorem linesIn_issues (r : AnalysisResult) : Text.linesIn (issues r) = issueLines r :=
  Text.linesIn_join (by simp [issueLines]) fun _ => break_not_mem_issueLines (Or.inl rfl) r

/-- A category is counted in the lines of a summary as often as it is shown. -/
theorem count_bullet {c : Category} (hc : c ≠ .stepTwoBlock) (shown : List Category) :
    ([header, "", issuesHeading] ++ shown.map bullet ++ ["", closing]).count (bullet c) =
      shown.count c := by
  have hmark : markOf c ≠ some ' ' ∧ markOf c ≠ some 't' ∧ markOf c ≠ none := by
    revert hc
    cases c <;> decide
  have hempty : mark "" = none := mark_ofList []
  have hbefore : bullet c ∉ [header, "", issuesHeading] := by
    refine bullet_not_mem ?_
    simp [mark_header, hempty, mark_issuesHeading, hmark.1.symm, hmark.2.1.symm, hmark.2.2.symm]
  have hafter : bullet c ∉ ["", closing] := by
    refine bullet_not_mem ?_
    simp [hempty, mark_closing, hmark.1.symm, hmark.2.2.symm]
  rw [List.count_append, List.count_append, List.count_eq_zero.mpr hbefore,
    List.count_eq_zero.mpr hafter, List.count_map_of_injective shown bullet bullet_injective]
  omega

end Summary

namespace AnalysisResult

open Summary

/-- The categories that the summary of a result shows. -/
def shown (r : AnalysisResult) : List Category :=
  Category.summaryOrder.filter r.flags

theorem linesIn_longSummary (r : AnalysisResult) :
    Text.linesIn r.payload.longSummary =
      if r.findings = [] then [header, "", approvalLine]
      else [header, "", issuesHeading] ++ r.shown.map bullet ++ ["", closing] := by
  rcases hfindings : r.findings with _ | ⟨f, more⟩
  · simpa [payload, hasIssues, hfindings] using linesIn_approvalSummary
  · simpa [payload, hasIssues, hfindings, issueLines, shown] using linesIn_issues r

theorem count_shown (r : AnalysisResult) {c : Category} (hc : c ∈ Category.summaryOrder) :
    r.shown.count c = if r.flags c then 1 else 0 := by
  have honce : Category.summaryOrder.count c = 1 :=
    List.count_eq_one_of_mem (by decide) hc
  by_cases hflags : r.flags c = true
  · rw [if_pos hflags, shown, List.count_filter hflags, honce]
  · rw [if_neg hflags, List.count_eq_zero, shown, List.mem_filter]
    exact fun h => hflags h.2

/-- The line for a category is in the summary once if the result counts for it, and not at all if it
does not. -/
theorem count_bullet_longSummary (r : AnalysisResult) {c : Category}
    (hc : c ∈ Category.summaryOrder) :
    (Text.linesIn r.payload.longSummary).count (bullet c) = if r.flags c then 1 else 0 := by
  have hstep : c ≠ .stepTwoBlock := by
    rintro rfl
    exact absurd hc (by decide)
  rw [linesIn_longSummary]
  by_cases hfindings : r.findings = []
  · have hflags : r.flags c = false := by simp [flags, hfindings]
    have hmark : markOf c ≠ some ' ' ∧ markOf c ≠ some '*' ∧ markOf c ≠ none := by
      revert hstep
      cases c <;> decide
    have hempty : mark "" = none := mark_ofList []
    have hnone : bullet c ∉ [header, "", approvalLine] := by
      refine bullet_not_mem ?_
      simp [mark_header, hempty, mark_approvalLine, hmark.1.symm, hmark.2.1.symm, hmark.2.2.symm]
    simp [hfindings, hflags, List.count_eq_zero.mpr hnone]
  · rw [if_neg hfindings, count_bullet hstep, count_shown r hc]

theorem bullet_mem_longSummary (r : AnalysisResult) {c : Category}
    (hc : c ∈ Category.summaryOrder) :
    bullet c ∈ Text.linesIn r.payload.longSummary ↔ r.flags c = true := by
  rw [← List.count_pos_iff, count_bullet_longSummary r hc]
  cases r.flags c <;> decide

theorem requestChanges_iff (r : AnalysisResult) :
    r.payload.verdict = .requestChanges ↔ r.findings ≠ [] := by
  rw [payload_verdict]
  by_cases hfindings : r.findings = [] <;> simp [hfindings]

/-- Verdict, summary, flags and comments of a result agree. Changes are requested if there is a finding,
which is when the first flag is set and when any of the others is; the line for a category is in the
summary if its flag is set, which is when a finding counts for it; those lines are there once each and in
their order, between the heading and the closing line; and the comments are the findings. -/
theorem outputs_agree (r : AnalysisResult) :
    (r.payload.verdict = .requestChanges ↔ r.findings ≠ []) ∧
      (r.payload.verdict = .requestChanges ↔ IsSet (Summary.flags r) "ISSUES_FOUND") ∧
      (r.payload.verdict = .requestChanges ↔
        ∃ key ∈ flagNames.map Prod.fst, IsSet (Summary.flags r) key) ∧
      flagNames.map Prod.snd = Category.summaryOrder ∧
      (∀ key c, (key, c) ∈ flagNames →
        (bullet c ∈ Text.linesIn r.payload.longSummary ↔ IsSet (Summary.flags r) key) ∧
          (IsSet (Summary.flags r) key ↔ ∃ f ∈ r.findings, f.CountsFor c) ∧
          (Text.linesIn r.payload.longSummary).count (bullet c) ≤ 1) ∧
      (r.findings ≠ [] → ∃ shown : List Category, shown.Sublist Category.summaryOrder ∧
        Text.linesIn r.payload.longSummary =
          [header, "", issuesHeading] ++ shown.map bullet ++ ["", closing]) ∧
      r.payload.comments = r.findings := by
  refine ⟨r.requestChanges_iff, ?_, ?_, map_snd_flagNames, ?_, ?_, r.payload_comments⟩
  · rw [r.requestChanges_iff, isSet_issuesFound]
  · rw [r.requestChanges_iff, ← r.exists_flags_iff, ← map_snd_flagNames]
    constructor
    · rintro ⟨c, hc, hflags⟩
      obtain ⟨⟨key, c⟩, hkey, rfl⟩ := List.mem_map.mp hc
      exact ⟨key, List.mem_map_of_mem hkey, (isSet_flagName r hkey).mpr hflags⟩
    · rintro ⟨key, hkey, hset⟩
      obtain ⟨⟨key, c⟩, hmem, rfl⟩ := List.mem_map.mp hkey
      exact ⟨c, List.mem_map_of_mem hmem, (isSet_flagName r hmem).mp hset⟩
  · intro key c hkey
    have hc := mem_summaryOrder hkey
    refine ⟨?_, ?_, ?_⟩
    · rw [r.bullet_mem_longSummary hc, isSet_flagName r hkey]
    · rw [isSet_flagName r hkey, r.flags_iff hc]
    · rw [r.count_bullet_longSummary hc]
      split <;> omega
  · intro hfindings
    exact ⟨r.shown, List.filter_sublist, by rw [linesIn_longSummary, if_neg hfindings]⟩

end AnalysisResult

end ReviewGate

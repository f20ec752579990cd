import Mathlib.Order.Lattice.Nat
import ReviewGate.Proofs.Review.Agreement
import ReviewGate.Proofs.Rule.Report
import ReviewGate.Proofs.Scan

/-! The window of a rule that looks behind an anchor. The rule reports the first line that it describes within
the window, so a larger window only adds to what is found. -/
namespace ReviewGate

/-- Whether numbers are what a window asks for: the one of the first line with a property that comes within so
many lines after the first line with an anchor, and none if there is no such line. -/
structure IsWindowed (anchor : String) (size : Int) (P : String → Prop) (lines : List String)
    (reported : List Nat) : Prop where
  one : ∀ n, reported = [n] ↔ ∃ a, IsLeast (numbersOf (Mentions anchor) lines) a ∧
    IsLeast (numbersOf P lines ∩ windowAfter a size) n
  none : reported = [] ↔ numbersOf (Mentions anchor) lines = ∅ ∨
    ∃ a, IsLeast (numbersOf (Mentions anchor) lines) a ∧ numbersOf P lines ∩ windowAfter a size = ∅

namespace Reach

variable {anchor : String} {size size' : Int}

theorem isOpen_window (hsize : 1 ≤ size) : (window anchor size).IsOpen := by
  intro anchor' size' h
  cases h
  exact hsize

theorem length_numbers_window (test : String → Bool) (lines : List String) :
    ((window anchor size).numbers test lines).length ≤ 1 := by
  unfold numbers
  dsimp only
  split
  · exact Nat.zero_le 1
  · exact List.length_take_le _ _

theorem eq_singleton_iff {l : List Nat} (hl : l.length ≤ 1) {n : Nat} : l = [n] ↔ n ∈ l := by
  constructor
  · rintro rfl
    exact List.mem_singleton_self n
  · intro hn
    have hone : l.length = 1 := Nat.le_antisymm hl (List.length_pos_of_mem hn)
    obtain ⟨m, rfl⟩ := List.length_eq_one_iff.mp hone
    rw [List.mem_singleton.mp hn]

theorem numbers_isWindowed (hsize : 1 ≤ size) (anchor : String) (test : String → Bool)
    (lines : List String) :
    IsWindowed anchor size (test · = true) lines ((window anchor size).numbers test lines) := by
  have hmem : ∀ n, n ∈ (window anchor size).numbers test lines ↔
      ∃ a, IsLeast (numbersOf (Mentions anchor) lines) a ∧
        IsLeast (numbersOf (test · = true) lines ∩ windowAfter a size) n :=
    fun n => mem_numbers (isOpen_window hsize)
  constructor
  · intro n
    rw [eq_singleton_iff (length_numbers_window test lines), hmem]
  · rw [List.eq_nil_iff_forall_not_mem]
    constructor
    · intro hnone
      rcases Set.eq_empty_or_nonempty (numbersOf (Mentions anchor) lines) with hempty | hanchors
      · exact Or.inl hempty
      · refine Or.inr ⟨_, isLeast_csInf hanchors, ?_⟩
        by_contra hsome
        have hleast := isLeast_csInf (Set.nonempty_iff_ne_empty.mpr hsome)
        exact hnone _ ((hmem _).mpr ⟨_, isLeast_csInf hanchors, hleast⟩)
    · intro hnone n hn
      obtain ⟨a, ha, hleast⟩ := (hmem n).mp hn
      rcases hnone with hempty | ⟨a', ha', hempty⟩
      · exact Set.notMem_empty a (hempty ▸ ha.1)
      · obtain rfl := ha.unique ha'
        exact Set.notMem_empty n (hempty ▸ hleast.1)

/-- The first line in a window is the first one in a larger window. -/
theorem isLeast_larger {s : Set Nat} {a n : Nat} (hle : size ≤ size')
    (hn : IsLeast (s ∩ windowAfter a size) n) : IsLeast (s ∩ windowAfter a size') n := by
  obtain ⟨⟨hs, hafter, hwithin⟩, hleast⟩ := hn
  refine ⟨⟨hs, hafter, by omega⟩, ?_⟩
  rintro m ⟨hm, hmafter, -⟩
  by_contra hless
  have hearlier : n ≤ m := hleast ⟨hm, hmafter, by omega⟩
  exact hless hearlier

/-- What a window reports, a larger window reports first. -/
theorem numbers_window_larger (hsize : 1 ≤ size) (hle : size ≤ size') (anchor : String)
    (test : String → Bool) (lines : List String) :
    ∃ extra, (window anchor size').numbers test lines = (window anchor size).numbers test lines ++ extra ∧
      extra.length ≤ 1 := by
  have hlarge := numbers_isWindowed (hsize.trans hle) anchor test lines
  have hsmall := numbers_isWindowed hsize anchor test lines
  rcases hnumbers : (window anchor size).numbers test lines with _ | ⟨n, more⟩
  · exact ⟨_, rfl, length_numbers_window test lines⟩
  · have hone : (window anchor size).numbers test lines = [n] := by
      rw [eq_singleton_iff (length_numbers_window test lines), hnumbers]
      exact List.mem_cons_self
    obtain ⟨a, ha, hleast⟩ := (hsmall.one n).mp hone
    refine ⟨[], ?_, Nat.zero_le 1⟩
    rw [(hlarge.one n).mpr ⟨a, ha, isLeast_larger hle hleast⟩, List.append_nil, ← hnumbers, hone]

end Reach

/-- With a larger window at most one finding is added to those in a file, after all others. -/
theorem scan_larger {w w' : Int} (hw : 1 ≤ w) (hle : w ≤ w') (file : ChangedFile) :
    ∃ extra, scan (ruleTable w') file = scan (ruleTable w) file ++ extra ∧ extra.length ≤ 1 ∧
      ∀ f ∈ extra, f.category = .stepTwoBlock := by
  obtain ⟨extra, hextra, hone⟩ :=
    Reach.numbers_window_larger hw hle Rule.stepTwoMarker (Rule.stepTwoBlock w).describes file.lines
  have hnumbers : (Rule.stepTwoBlock w').matchLines file.lines =
      (Rule.stepTwoBlock w).matchLines file.lines ++ extra := by
    rw [Rule.matchLines_eq, Rule.matchLines_eq]
    exact hextra
  refine ⟨extra.filterMap ((Rule.stepTwoBlock w).findingAt file.path), ?_, ?_, ?_⟩
  · have htable : ∀ v, scan (ruleTable v) file = scan lineRules file ++ (Rule.stepTwoBlock v).scan file := by
      intro v
      simp only [scan, ruleTable, List.flatMap_append, List.flatMap_singleton]
    have hlast : (Rule.stepTwoBlock w').scan file = (Rule.stepTwoBlock w).scan file ++
        extra.filterMap ((Rule.stepTwoBlock w).findingAt file.path) := by
      unfold Rule.scan
      rw [hnumbers, List.filterMap_append]
      rfl
    rw [htable, htable, hlast, List.append_assoc]
  · exact (List.length_filterMap_le _ _).trans hone
  · intro f hf
    obtain ⟨n, -, hfinding⟩ := List.mem_filterMap.mp hf
    unfold Rule.findingAt at hfinding
    split_ifs at hfinding
    cases hfinding
    rfl

/-- A larger window leaves all findings in some files. -/
theorem aggregate_larger {w w' : Int} (hw : 1 ≤ w) (hle : w ≤ w') (files : List ChangedFile) :
    (aggregate (ruleTable w) files).findings.Sublist (aggregate (ruleTable w') files).findings := by
  rw [aggregate_findings, aggregate_findings]
  induction files with
  | nil => exact .refl _
  | cons file files ih =>
    obtain ⟨extra, hextra, -⟩ := scan_larger hw hle file
    rw [List.flatMap_cons, List.flatMap_cons, hextra]
    exact (List.sublist_append_left _ extra).append ih

/-- A rule with a window reports the first line that it describes in the window after its anchor, whatever
the anchor, the patterns and the lines are. A larger window keeps the findings in a file in their order and
adds at most one, a block of the second step; so changes go on to be requested, whoever scans the files. -/
theorem window_reports_first {w : Int} (hw : 1 ≤ w) :
    (∀ (anchor : String) (test : String → Bool) (lines : List String),
      IsWindowed anchor w (test · = true) lines ((Reach.window anchor w).numbers test lines)) ∧
    (∀ (r : Rule) (anchor : String) (lines : List String), r.reach = .window anchor w →
      IsWindowed anchor w r.Finds lines (r.matchLines lines)) ∧
    ∀ (w' : Int) (rules rules' : List Rule), w ≤ w' → buildRules w = .ok rules →
      buildRules w' = .ok rules' →
        (∀ file, (scan rules file).Sublist (scan rules' file) ∧
          ∃ extra, scan rules' file = scan rules file ++ extra ∧ extra.length ≤ 1 ∧
            ∀ f ∈ extra, f.category = .stepTwoBlock) ∧
        ∀ (c c' : Crew) (files : List ChangedFile),
          (c.aggregate rules files).payload.verdict = .requestChanges →
            (c'.aggregate rules' files).payload.verdict = .requestChanges := by
  refine ⟨Reach.numbers_isWindowed hw, ?_, ?_⟩
  · intro r anchor lines hreach
    have hlaw := Reach.numbers_isWindowed hw anchor r.describes lines
    rwa [← hreach, ← r.matchLines_eq, r.describes_eq_finds] at hlaw
  · intro w' rules rules' hle hrules hrules'
    obtain ⟨-, rfl⟩ := buildRules_eq_ok hrules
    obtain ⟨-, rfl⟩ := buildRules_eq_ok hrules'
    constructor
    · intro file
      obtain ⟨extra, hextra, hone, hcategory⟩ := scan_larger hw hle file
      refine ⟨?_, extra, hextra, hone, hcategory⟩
      rw [hextra]
      exact List.sublist_append_left _ extra
    · intro c c' files hverdict
      rw [Crew.aggregate_eq, AnalysisResult.requestChanges_iff] at hverdict ⊢
      intro hnone
      have hfewer := aggregate_larger hw hle files
      rw [hnone, List.sublist_nil] at hfewer
      exact hverdict hfewer

/-- A file with a block comment in the line of the marker and another one three lines later, and with an
attempt that is disabled. -/
def lateBlock : ChangedFile :=
  ⟨"Late.cs", ["/* STEP 2: AFTER TESTS PASS */", "", "// STEP 2: AFTER TESTS PASS", "/* var x; */", "// try"],
    rfl⟩

theorem window_reports_first_lateBlock :
    (1 : Int) ≤ 2 ∧ (2 : Int) ≤ 3 ∧ buildRules 2 = .ok (ruleTable 2) ∧ buildRules 3 = .ok (ruleTable 3) ∧
      (Rule.stepTwoBlock 2).matchLines lateBlock.lines = [] ∧
      (Rule.stepTwoBlock 3).matchLines lateBlock.lines = [4] ∧
      IsWindowed Rule.stepTwoMarker 2 (Rule.stepTwoBlock 2).Finds lateBlock.lines
        ((Rule.stepTwoBlock 2).matchLines lateBlock.lines) ∧
      (∃ extra, scan (ruleTable 3) lateBlock = scan (ruleTable 2) lateBlock ++ extra ∧ extra.length ≤ 1 ∧
        ∀ f ∈ extra, f.category = .stepTwoBlock) ∧
      (Crew.aggregate ⟨1, []⟩ (ruleTable 2) [lateBlock]).payload.verdict = .requestChanges ∧
      (Crew.aggregate ⟨4, []⟩ (ruleTable 3) [lateBlock]).payload.verdict = .requestChanges := by
  have hrules : buildRules 2 = .ok (ruleTable 2) := rfl
  have hrules' : buildRules 3 = .ok (ruleTable 3) := rfl
  obtain ⟨-, hlaw, hlarger⟩ := window_reports_first (w := 2) (by omega)
  obtain ⟨hfile, hverdicts⟩ := hlarger 3 _ _ (by omega) hrules hrules'
  obtain ⟨-, hextra⟩ := hfile lateBlock
  have hverdict : (Crew.aggregate ⟨1, []⟩ (ruleTable 2) [lateBlock]).payload.verdict = .requestChanges := by
    rw [Crew.aggregate_eq]
    decide +kernel
  refine ⟨by omega, by omega, hrules, hrules', by decide +kernel, by decide +kernel, ?_, hextra, hverdict, ?_⟩
  · exact hlaw (Rule.stepTwoBlock 2) Rule.stepTwoMarker lateBlock.lines rfl
  · exact hverdicts ⟨1, []⟩ ⟨4, []⟩ [lateBlock] hverdict

end ReviewGate

import Mathlib.Data.List.Forall2
import ReviewGate.Proofs.Rule.Report
import ReviewGate.Scan

/-! The places of the findings in a file: for each finding the position of its rule in the table and the number
of its line. They are in order, none comes twice, and they are those that the rules are to report. -/
namespace ReviewGate

/-- Whether a finding is what a rule has to say about a line of a file. -/
structure Finding.IsMadeBy (f : Finding) (r : Rule) (file : ChangedFile) (n : Nat) : Prop where
  path : f.path = file.path
  line : f.line = n
  category : f.category = r.category
  body : f.body = r.comment

namespace Rule

variable {r : Rule} {file : ChangedFile}

theorem Reports.pos {lines : List String} {n : Nat} (h : r.Reports lines n) : 0 < n := by
  obtain ⟨hn, -⟩ := h.mem_numbersOf
  omega

theorem findingAt_pos (path : String) {n : Nat} (hn : 0 < n) :
    r.findingAt path n = some ⟨path, n, r.category, r.comment, hn, r.comment_given⟩ := by
  unfold findingAt
  rw [dif_pos hn]

/-- Each number that is given makes a finding. -/
theorem forall₂_findingAt {numbers : List Nat} (hpos : ∀ n ∈ numbers, 0 < n) :
    List.Forall₂ (fun n f => f.IsMadeBy r file n) numbers (numbers.filterMap (r.findingAt file.path)) := by
  induction numbers with
  | nil => exact .nil
  | cons n numbers ih =>
    have hn := hpos n List.mem_cons_self
    rw [List.filterMap_cons, findingAt_pos file.path hn]
    apply List.Forall₂.cons
    · exact ⟨rfl, rfl, rfl, rfl⟩
    · exact ih fun m hm => hpos m (List.mem_cons_of_mem _ hm)

theorem forall₂_scan (hopen : r.reach.IsOpen) :
    List.Forall₂ (fun n f => f.IsMadeBy r file n) (r.matchLines file.lines) (r.scan file) := by
  apply forall₂_findingAt
  intro n hn
  exact ((mem_matchLines hopen).mp hn).pos

end Rule

/-! ### Rule by rule -/

/-- The places of the findings in some lines, the first rule having the position `first`. -/
def placesFrom (first : Nat) (lines : List String) : List Rule → List (Nat × Nat)
  | [] => []
  | r :: rules => (r.matchLines lines).map (first, ·) ++ placesFrom (first + 1) lines rules

variable {lines : List String} {rules : List Rule} {first i n : Nat}

theorem mem_placesFrom :
    (i, n) ∈ placesFrom first lines rules ↔
      ∃ k r, rules[k]? = some r ∧ i = first + k ∧ n ∈ r.matchLines lines := by
  induction rules generalizing first with
  | nil => simp [placesFrom]
  | cons r rules ih =>
    rw [placesFrom, List.mem_append, ih]
    constructor
    · rintro (hfirst | ⟨k, r', hr', rfl, hn⟩)
      · obtain ⟨m, hm, hplace⟩ := List.mem_map.mp hfirst
        cases hplace
        exact ⟨0, r, rfl, rfl, hm⟩
      · exact ⟨k + 1, r', hr', by omega, hn⟩
    · rintro ⟨k, r', hr', rfl, hn⟩
      cases k with
      | zero =>
        obtain rfl : r = r' := by simpa using hr'
        exact Or.inl (List.mem_map.mpr ⟨n, hn, rfl⟩)
      | succ k => exact Or.inr ⟨k, r', hr', by omega, hn⟩

/-- Places are in the order of the rules, and for a rule in the order of the lines. -/
theorem placesFrom_ascending :
    (placesFrom first lines rules).Pairwise (Prod.Lex (· < ·) (· < ·)) := by
  induction rules generalizing first with
  | nil => exact .nil
  | cons r rules ih =>
    rw [placesFrom, List.pairwise_append]
    refine ⟨?_, ih, ?_⟩
    · rw [List.pairwise_map]
      exact (r.matchLines_ascending lines).imp fun hless => .right _ hless
    · rintro ⟨i, n⟩ hplace ⟨j, m⟩ hlater
      obtain ⟨k, hk, hfirst⟩ := List.mem_map.mp hplace
      obtain ⟨k', r', -, hnext, -⟩ := mem_placesFrom.mp hlater
      cases hfirst
      apply Prod.Lex.left
      omega

theorem forall₂_placesFrom {file : ChangedFile} (hopen : ∀ r ∈ rules, r.reach.IsOpen) :
    List.Forall₂ (fun place f => ∃ k r, rules[k]? = some r ∧ place.1 = first + k ∧ f.IsMadeBy r file place.2)
      (placesFrom first file.lines rules) (scan rules file) := by
  induction rules generalizing first with
  | nil => exact .nil
  | cons r rules ih =>
    have hrule : List.Forall₂ (fun n f => f.IsMadeBy r file n) (r.matchLines file.lines) (r.scan file) :=
      Rule.forall₂_scan (hopen r List.mem_cons_self)
    have hrest := @ih (first + 1) fun r' hr' => hopen r' (List.mem_cons_of_mem _ hr')
    unfold scan at hrest ⊢
    rw [placesFrom, List.flatMap_cons]
    apply List.rel_append
    · rw [List.forall₂_map_left_iff]
      exact hrule.imp fun n f hf => ⟨0, r, rfl, rfl, hf⟩
    · refine hrest.imp ?_
      rintro place f ⟨k, r', hr', hplace, hf⟩
      exact ⟨k + 1, r', hr', by omega, hf⟩

/-- The findings in a file are in the order of their rules and, for each rule, of their lines, and none of
them comes twice. They are just those that the rules are to report, each with the path of the file and with
the category and the comment of its rule. -/
theorem scan_places {window : Int} {rules : List Rule} (hrules : buildRules window = .ok rules)
    (file : ChangedFile) :
    ∃ places : List (Nat × Nat), places.Pairwise (Prod.Lex (· < ·) (· < ·)) ∧ places.Nodup ∧
      (∀ i n, (i, n) ∈ places ↔ ∃ r, rules[i]? = some r ∧ r.Reports file.lines n) ∧
      List.Forall₂ (fun place f => ∃ r, rules[place.1]? = some r ∧ f.IsMadeBy r file place.2) places
        (scan rules file) := by
  have hopen : ∀ r ∈ rules, r.reach.IsOpen := by
    obtain ⟨hwindow, rfl⟩ := buildRules_eq_ok hrules
    exact fun r hr => Rule.isOpen_of_mem_ruleTable hwindow hr
  have hascending : (placesFrom 0 file.lines rules).Pairwise (Prod.Lex (· < ·) (· < ·)) :=
    placesFrom_ascending
  refine ⟨placesFrom 0 file.lines rules, hascending, hascending.nodup, fun i n => ?_, ?_⟩
  · rw [mem_placesFrom]
    constructor
    · rintro ⟨k, r, hr, rfl, hn⟩
      rw [Nat.zero_add]
      exact ⟨r, hr, (Rule.mem_matchLines (hopen r (List.mem_of_getElem? hr))).mp hn⟩
    · rintro ⟨r, hr, hn⟩
      refine ⟨i, r, hr, (Nat.zero_add i).symm, ?_⟩
      exact (Rule.mem_matchLines (hopen r (List.mem_of_getElem? hr))).mpr hn
  · refine (forall₂_placesFrom hopen).imp ?_
    rintro place f ⟨k, r, hr, hplace, hf⟩
    rw [hplace, Nat.zero_add]
    exact ⟨r, hr, hf⟩

/-- A file in which rules find the same line, lines come in another order than rules, and two blocks stand
where only the first one counts. -/
def mixedFile : ChangedFile :=
  ⟨"Mixed.cs",
    ["// catch", "/* /// <summary> _logger.Log();", "/* /// <summary>", "// try // try",
      "// STEP 2: AFTER TESTS PASS", "/* first */", "/* second */"], rfl⟩

theorem scan_places_mixedFile :
    buildRules 30 = .ok (ruleTable 30) ∧
      (scan (ruleTable 30) mixedFile).map Finding.line = [2, 4, 1, 2, 6] ∧
      ∃ places : List (Nat × Nat), places.Pairwise (Prod.Lex (· < ·) (· < ·)) ∧ places.Nodup ∧
        (∀ i n, (i, n) ∈ places ↔ ∃ r, (ruleTable 30)[i]? = some r ∧ r.Reports mixedFile.lines n) ∧
        List.Forall₂ (fun place f => ∃ r, (ruleTable 30)[place.1]? = some r ∧ f.IsMadeBy r mixedFile place.2)
          places (scan (ruleTable 30) mixedFile) := by
  have hrules : buildRules 30 = .ok (ruleTable 30) := rfl
  exact ⟨hrules, by decide +kernel, scan_places hrules mixedFile⟩

end ReviewGate

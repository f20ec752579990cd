import ReviewGate.Proofs.Scan.Places

/-! Findings after an edit elsewhere in a file. Lines that are added at the end leave the findings before them
as they are, and lines that are added at the start, if no rule has anything to do with them, move the findings
down. -/
namespace ReviewGate

variable {P : String → Prop} {before xs more : List String} {n : Nat}

/-! ### Numbers of lines -/

theorem mem_numbersOf_append (hn : n ≤ xs.length) :
    n ∈ numbersOf P (xs ++ more) ↔ n ∈ numbersOf P xs := by
  constructor
  · rintro ⟨hbounds, hline⟩
    refine ⟨⟨hbounds.1, hn⟩, ?_⟩
    rwa [List.getElem_append_left (by omega)] at hline
  · rintro ⟨hbounds, hline⟩
    refine ⟨⟨hbounds.1, by rw [List.length_append]; omega⟩, ?_⟩
    rwa [List.getElem_append_left (by omega)]

/-- The lines with a property that do not come before others are numbered on from these. -/
theorem mem_numbersOf_behind :
    n ∈ numbersOf P (before ++ xs) ∧ before.length < n ↔ n ∈ (· + before.length) '' numbersOf P xs := by
  constructor
  · rintro ⟨⟨hbounds, hline⟩, hafter⟩
    rw [List.length_append] at hbounds
    refine ⟨n - before.length, ⟨by omega, ?_⟩, by dsimp only; omega⟩
    rw [List.getElem_append_right (by omega)] at hline
    have hindex : n - before.length - 1 = n - 1 - before.length := by omega
    simpa only [hindex] using hline
  · rintro ⟨m, ⟨hbounds, hline⟩, rfl⟩
    dsimp only
    refine ⟨⟨by rw [List.length_append]; omega, ?_⟩, by omega⟩
    rw [List.getElem_append_right (by omega)]
    have hindex : m + before.length - 1 - before.length = m - 1 := by omega
    simpa only [hindex] using hline

/-- If no line before others has a property, the lines that have it are all numbered on. -/
theorem numbersOf_behind (hnone : ∀ line ∈ before, ¬ P line) :
    numbersOf P (before ++ xs) = (· + before.length) '' numbersOf P xs := by
  ext n
  rw [← mem_numbersOf_behind]
  constructor
  · rintro ⟨hbounds, hline⟩
    refine ⟨⟨hbounds, hline⟩, ?_⟩
    by_contra hearly
    rw [List.getElem_append_left (by omega)] at hline
    exact hnone _ (List.getElem_mem _) hline
  · intro hn
    exact hn.1

/-- A window behind other lines is numbered on, whatever these lines are. -/
theorem inter_windowAfter_behind (a : Nat) (size : Int) :
    numbersOf P (before ++ xs) ∩ windowAfter (a + before.length) size =
      (· + before.length) '' (numbersOf P xs ∩ windowAfter a size) := by
  ext m
  constructor
  · rintro ⟨hm, hafter, hwithin⟩
    obtain ⟨m, hline, rfl⟩ := mem_numbersOf_behind.mp ⟨hm, by omega⟩
    dsimp only at hafter hwithin
    exact ⟨m, ⟨hline, by omega, by omega⟩, rfl⟩
  · rintro ⟨m, ⟨hline, hafter, hwithin⟩, rfl⟩
    have hmoved : m + before.length ∈ windowAfter (a + before.length) size := by
      constructor
      · omega
      · omega
    exact ⟨(mem_numbersOf_behind.mpr ⟨m, hline, rfl⟩).1, hmoved⟩

/-- The least of some numbers up to a bound is the least of others that are the same up to there. -/
theorem isLeast_congr {s t : Set Nat} {bound : Nat} (h : ∀ m ≤ bound, m ∈ s ↔ m ∈ t) (hn : n ≤ bound) :
    IsLeast s n ↔ IsLeast t n := by
  have himp : ∀ {s t : Set Nat}, (∀ m ≤ bound, m ∈ s ↔ m ∈ t) → IsLeast s n → IsLeast t n := by
    rintro s t h ⟨hmem, hleast⟩
    refine ⟨(h n hn).mp hmem, fun m hm => ?_⟩
    by_contra hless
    exact hless (hleast ((h m (by omega)).mpr hm))
  exact ⟨himp h, himp fun m hm => (h m hm).symm⟩

theorem isLeast_image_add {s : Set Nat} (k : Nat) :
    IsLeast ((· + k) '' s) n ↔ ∃ m, IsLeast s m ∧ n = m + k := by
  have hmono : StrictMono (· + k : Nat → Nat) := fun a b hless => Nat.add_lt_add_right hless k
  constructor
  · intro hn
    obtain ⟨m, -, rfl⟩ := hn.1
    exact ⟨m, hmono.map_isLeast.mp hn, rfl⟩
  · rintro ⟨m, hm, rfl⟩
    exact hmono.map_isLeast.mpr hm

/-! ### What rules report -/

namespace Reach

variable {reach : Reach}

theorem picks_append (hn : n ≤ xs.length) : reach.Picks P (xs ++ more) n ↔ reach.Picks P xs n := by
  have hsame : ∀ {Q : String → Prop}, ∀ m ≤ xs.length,
      (m ∈ numbersOf Q (xs ++ more) ↔ m ∈ numbersOf Q xs) := fun m hm => mem_numbersOf_append hm
  cases reach with
  | everyLine => exact hsame n hn
  | firstLine => exact isLeast_congr hsame hn
  | window anchor size =>
    have hwindow : ∀ a, ∀ m ≤ xs.length, (m ∈ numbersOf P (xs ++ more) ∩ windowAfter a size ↔
        m ∈ numbersOf P xs ∩ windowAfter a size) := fun a m hm => and_congr_left fun _ => hsame m hm
    unfold Picks
    dsimp only
    -- The anchor comes before the line that is reported, so it stands in the first lines as well.
    constructor
    · rintro ⟨a, ha, hleast⟩
      have hafter : a < n := hleast.1.2.1
      exact ⟨a, (isLeast_congr hsame (by omega)).mp ha, (isLeast_congr (hwindow a) hn).mp hleast⟩
    · rintro ⟨a, ha, hleast⟩
      have hafter : a < n := hleast.1.2.1
      exact ⟨a, (isLeast_congr hsame (by omega)).mpr ha, (isLeast_congr (hwindow a) hn).mpr hleast⟩

/-- Whether a line does not matter to what is reported after it: it is no line to report, or no anchor. -/
def Ignores (reach : Reach) (P : String → Prop) (line : String) : Prop :=
  match reach with
  | .everyLine | .firstLine => ¬ P line
  | .window anchor _ => ¬ Mentions anchor line

theorem picks_behind (hignored : ∀ line ∈ before, reach.Ignores P line) :
    reach.Picks P (before ++ xs) n ↔ ∃ m, reach.Picks P xs m ∧ n = m + before.length := by
  cases reach with
  | everyLine =>
    unfold Picks
    rw [numbersOf_behind hignored]
    exact exists_congr fun m => and_congr_right fun _ => eq_comm
  | firstLine =>
    unfold Picks
    rw [numbersOf_behind hignored]
    exact isLeast_image_add before.length
  | window anchor size =>
    unfold Picks
    dsimp only
    rw [numbersOf_behind hignored]
    constructor
    · rintro ⟨a', ha', hleast⟩
      obtain ⟨a, ha, rfl⟩ := (isLeast_image_add _).mp ha'
      rw [inter_windowAfter_behind] at hleast
      obtain ⟨m, hm, rfl⟩ := (isLeast_image_add _).mp hleast
      exact ⟨m, ⟨a, ha, hm⟩, rfl⟩
    · rintro ⟨m, ⟨a, ha, hm⟩, rfl⟩
      refine ⟨a + before.length, (isLeast_image_add _).mpr ⟨a, ha, rfl⟩, ?_⟩
      rw [inter_windowAfter_behind]
      exact (isLeast_image_add _).mpr ⟨m, hm, rfl⟩

end Reach

namespace Rule

variable {r : Rule}

theorem matchLines_append (hopen : r.reach.IsOpen) (xs more : List String) :
    (r.matchLines (xs ++ more)).filter (· ≤ xs.length) = r.matchLines xs := by
  apply ((r.matchLines_ascending _).filter _).eq_of_mem_iff (r.matchLines_ascending xs)
  intro n
  rw [List.mem_filter, decide_eq_true_eq, mem_matchLines hopen, mem_matchLines hopen]
  constructor
  · rintro ⟨hreport, hn⟩
    exact (Reach.picks_append hn).mp hreport
  · intro hreport
    obtain ⟨hbounds, -⟩ := hreport.mem_numbersOf
    exact ⟨(Reach.picks_append hbounds.2).mpr hreport, hbounds.2⟩

theorem matchLines_behind (hopen : r.reach.IsOpen) (xs : List String)
    (hignored : ∀ line ∈ before, r.reach.Ignores r.Finds line) :
    r.matchLines (before ++ xs) = (r.matchLines xs).map (· + before.length) := by
  have hmoved : ((r.matchLines xs).map (· + before.length)).Pairwise (· < ·) := by
    rw [List.pairwise_map]
    exact (r.matchLines_ascending xs).imp fun hless => Nat.add_lt_add_right hless _
  apply (r.matchLines_ascending _).eq_of_mem_iff hmoved
  intro n
  rw [mem_matchLines hopen, List.mem_map]
  unfold Reports
  rw [Reach.picks_behind hignored]
  refine exists_congr fun m => ?_
  rw [mem_matchLines hopen, eq_comm (a := n)]
  exact Iff.rfl

end Rule

/-! ### Findings -/

/-- A finding whose line comes so many lines later. -/
def Finding.movedDown (f : Finding) (lines : Nat) : Finding :=
  { f with line := f.line + lines, line_pos := Nat.add_pos_left f.line_pos lines }

namespace Rule

variable {r : Rule} {path : String} {given : Text.isBlankText path = false}

theorem filter_findingAt (bound n : Nat) :
    (r.findingAt path n).filter (·.line ≤ bound) = if n ≤ bound then r.findingAt path n else none := by
  unfold findingAt
  split_ifs with hpos hn hn
  · simpa using hn
  · simpa using hn
  · rfl
  · rfl

theorem scan_append (hopen : r.reach.IsOpen) (xs more : List String) :
    (r.scan ⟨path, xs ++ more, given⟩).filter (·.line ≤ xs.length) = r.scan ⟨path, xs, given⟩ := by
  unfold Rule.scan
  dsimp only
  rw [← matchLines_append hopen xs more, List.filter_filterMap, List.filterMap_filter]
  refine List.filterMap_congr fun n _ => ?_
  rw [filter_findingAt]
  simp only [decide_eq_true_eq]

theorem scan_behind (hopen : r.reach.IsOpen) (xs : List String)
    (hignored : ∀ line ∈ before, r.reach.Ignores r.Finds line) :
    r.scan ⟨path, before ++ xs, given⟩ =
      (r.scan ⟨path, xs, given⟩).map (·.movedDown before.length) := by
  unfold Rule.scan
  dsimp only
  rw [matchLines_behind hopen xs hignored, List.filterMap_map, List.map_filterMap]
  refine List.filterMap_congr fun n hn => ?_
  have hpos : 0 < n := ((mem_matchLines hopen).mp hn).pos
  rw [Function.comp_apply, findingAt_pos path hpos, findingAt_pos path (Nat.add_pos_left hpos _)]
  rfl

/-- The rules have nothing to do with a line that none of those on single lines describes and that does not
hold the marker of the second step, even if a block opens in it. -/
theorem ignores_of_mem_ruleTable {window : Int} (hr : r ∈ ruleTable window) {line : String}
    (hsingle : ∀ r ∈ lineRules, ¬ r.Finds line) (hmarker : ¬ Mentions stepTwoMarker line) :
    r.reach.Ignores r.Finds line := by
  rcases List.mem_append.mp hr with hline | hlast
  · cases hreach : r.reach with
    | everyLine => exact hsingle r hline
    | firstLine => exact hsingle r hline
    | window anchor size => exact absurd hreach (reach_of_mem_lineRules hline anchor size)
  · obtain rfl := List.mem_singleton.mp hlast
    exact hmarker

end Rule

/-- Lines after others leave the findings in these as they are, neither moved nor fewer nor more. Lines before
others, none of which a rule on single lines describes or holds the marker of the second step, move the
findings down by their number and leave their order. -/
theorem scan_edited {window : Int} {rules : List Rule} (hrules : buildRules window = .ok rules)
    {path : String} (given : Text.isBlankText path = false) (xs : List String) :
    (∀ more, (scan rules ⟨path, xs ++ more, given⟩).filter (·.line ≤ xs.length) =
      scan rules ⟨path, xs, given⟩) ∧
    ∀ before : List String,
      (∀ line ∈ before, (∀ r ∈ lineRules, ¬ r.Finds line) ∧ ¬ Mentions Rule.stepTwoMarker line) →
        scan rules ⟨path, before ++ xs, given⟩ =
          (scan rules ⟨path, xs, given⟩).map (·.movedDown before.length) := by
  obtain ⟨hwindow, rfl⟩ := buildRules_eq_ok hrules
  have hopen : ∀ r ∈ ruleTable window, r.reach.IsOpen := fun r hr => Rule.isOpen_of_mem_ruleTable hwindow hr
  constructor
  · intro more
    unfold scan
    rw [List.filter_flatMap]
    exact List.flatMap_congr fun r hr => r.scan_append (hopen r hr) xs more
  · intro before hidle
    unfold scan
    rw [List.map_flatMap]
    refine List.flatMap_congr fun r hr => r.scan_behind (hopen r hr) xs ?_
    intro line hline
    exact Rule.ignores_of_mem_ruleTable hr (hidle line hline).1 (hidle line hline).2

/-- Lines of a file that ends within the window of its second step. -/
def cutShort : List String :=
  ["// try", "// STEP 2: AFTER TESTS PASS", "// catch"]

/-- The findings in the lines stay when a block follows in the window, and move down behind an opened block. -/
theorem scan_edited_cutShort :
    buildRules 30 = .ok (ruleTable 30) ∧
      (∀ line ∈ ["/* using System;", ""],
        (∀ r ∈ lineRules, ¬ r.Finds line) ∧ ¬ Mentions Rule.stepTwoMarker line) ∧
      (scan (ruleTable 30) ⟨"A.cs", cutShort ++ ["/* */", "// try"], rfl⟩).map Finding.line = [1, 5, 3, 4] ∧
      (scan (ruleTable 30) ⟨"A.cs", cutShort ++ ["/* */", "// try"], rfl⟩).filter (·.line ≤ 3) =
        scan (ruleTable 30) ⟨"A.cs", cutShort, rfl⟩ ∧
      scan (ruleTable 30) ⟨"A.cs", ["/* using System;", ""] ++ cutShort, rfl⟩ =
        (scan (ruleTable 30) ⟨"A.cs", cutShort, rfl⟩).map (·.movedDown 2) := by
  have hrules : buildRules 30 = .ok (ruleTable 30) := rfl
  have hidle : ∀ line ∈ ["/* using System;", ""],
      (∀ r ∈ lineRules, ¬ r.Finds line) ∧ ¬ Mentions Rule.stepTwoMarker line := by
    have htests : ∀ line ∈ ["/* using System;", ""], (∀ r ∈ lineRules, r.describes line = false) ∧
        Text.contains line Rule.stepTwoMarker = false := by
      decide +kernel
    intro line hline
    obtain ⟨hsingle, hmarker⟩ := htests line hline
    refine ⟨fun r hr hfinds => ?_, fun hmentions => ?_⟩
    · exact Bool.eq_false_iff.mp (hsingle r hr) (r.describes_iff.mpr hfinds)
    · exact Bool.eq_false_iff.mp hmarker (Text.contains_iff.mpr hmentions)
  have given : Text.isBlankText "A.cs" = false := rfl
  obtain ⟨happended, hprepended⟩ := scan_edited hrules given cutShort
  exact ⟨hrules, hidle, by decide +kernel, happended _, hprepended _ hidle⟩

end ReviewGate

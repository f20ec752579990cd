import Mathlib.Algebra.GroupWithZero.Nat
import Mathlib.Data.List.Nodup
import Mathlib.Tactic.SplitIfs
import ReviewGate.Demo
import ReviewGate.Proofs.Action
import ReviewGate.Proofs.Text.Search

/-! The views of a list of findings: by file, by category, as they are shown and as they are counted. Each of
them is computed on its own, and none of them drops a finding or holds one twice. -/
namespace ReviewGate

/-! ### Groups -/

section Groups

variable {α κ : Type} [DecidableEq κ] (key : α → κ)

/-- The elements of a list group by group, in the order of the keys. -/
def grouped (keys : List κ) (items : List α) : List α :=
  keys.flatMap fun k => items.filter fun a => key a = k

theorem filter_grouped_of_not_mem {k : κ} {keys : List κ} (hk : k ∉ keys) (items : List α) :
    (grouped key keys items).filter (fun a => key a = k) = [] := by
  rw [List.filter_eq_nil_iff]
  intro a ha hkey
  obtain ⟨other, hother, ha⟩ := List.mem_flatMap.mp ha
  have hsame : key a = other := of_decide_eq_true (List.mem_filter.mp ha).2
  exact hk ((of_decide_eq_true hkey : key a = k) ▸ hsame ▸ hother)

/-- Within a group, the order is that of the list. -/
theorem filter_grouped {keys : List κ} (hnodup : keys.Nodup) {k : κ} (hk : k ∈ keys) (items : List α) :
    (grouped key keys items).filter (fun a => key a = k) = items.filter fun a => key a = k := by
  induction keys with
  | nil => cases hk
  | cons first keys ih =>
    obtain ⟨hfirst, hkeys⟩ := List.nodup_cons.mp hnodup
    rw [grouped, List.flatMap_cons, ← grouped, List.filter_append, List.filter_filter]
    rcases List.mem_cons.mp hk with rfl | hk
    · rw [filter_grouped_of_not_mem key hfirst, List.append_nil]
      simp only [Bool.and_self]
    · have hne : k ≠ first := fun hsame => hfirst (hsame ▸ hk)
      have hnone : (items.filter fun a => decide (key a = k) && decide (key a = first)) = [] := by
        rw [List.filter_eq_nil_iff]
        intro a _ hboth
        obtain ⟨hkey, hother⟩ := Bool.and_eq_true_iff.mp hboth
        exact hne ((of_decide_eq_true hkey).symm.trans (of_decide_eq_true hother))
      rw [hnone, List.nil_append, ih hkeys hk]

/-- Groups by different keys that leave out none hold each element of a list once. -/
theorem grouped_perm {keys : List κ} {items : List α} (hnodup : keys.Nodup)
    (hall : ∀ a ∈ items, key a ∈ keys) : (grouped key keys items).Perm items := by
  induction keys generalizing items with
  | nil =>
    have hitems : items = [] := List.eq_nil_iff_forall_not_mem.mpr fun a ha => nomatch hall a ha
    rw [hitems]
    exact .nil
  | cons first keys ih =>
    obtain ⟨hfirst, hkeys⟩ := List.nodup_cons.mp hnodup
    -- The later groups are those of what is left without the first one.
    have hmore : grouped key keys items =
        grouped key keys (items.filter fun a => !decide (key a = first)) := by
      refine List.flatMap_congr fun k hk => ?_
      rw [List.filter_filter]
      refine List.filter_congr fun a _ => ?_
      by_cases hkey : key a = k
      · have hne : key a ≠ first := fun hsame => hfirst (hsame ▸ hkey.symm ▸ hk)
        simp [hkey ▸ hne, hkey]
      · simp [hkey]
    have hleft : ∀ a ∈ items.filter (fun a => !decide (key a = first)), key a ∈ keys := by
      intro a ha
      obtain ⟨ha, hne⟩ := List.mem_filter.mp ha
      exact (List.mem_cons.mp (hall a ha)).resolve_left (by simpa using hne)
    rw [grouped, List.flatMap_cons, ← grouped, hmore]
    exact ((ih hkeys hleft).append_left _).trans (List.filter_append_perm _ items)

end Groups

/-! ### Files -/

namespace AnalysisResult

theorem mem_firstOnes {s : String} {texts : List String} : s ∈ firstOnes texts ↔ s ∈ texts := by
  induction texts with
  | nil => simp [firstOnes]
  | cons t texts ih =>
    rw [firstOnes, List.mem_cons, List.mem_filter, ih, List.mem_cons]
    by_cases hs : s = t <;> simp [hs]

theorem firstOnes_pairwise (texts : List String) :
    (firstOnes texts).Pairwise fun s t => texts.idxOf s < texts.idxOf t := by
  induction texts with
  | nil => exact .nil
  | cons first texts ih =>
    have hmore : ∀ s ∈ (firstOnes texts).filter (· != first),
        (first :: texts).idxOf s = texts.idxOf s + 1 := by
      intro s hs
      have hne : s ≠ first := by simpa using (List.mem_filter.mp hs).2
      exact List.idxOf_cons_ne _ hne.symm
    refine List.pairwise_cons.mpr ⟨fun s hs => ?_, ?_⟩
    · rw [List.idxOf_cons_self, hmore s hs]
      exact Nat.succ_pos _
    · refine (ih.filter _).imp_of_mem fun {s t} hs ht hless => ?_
      rw [hmore s hs, hmore t ht]
      exact Nat.succ_lt_succ hless

theorem firstOnes_nodup (texts : List String) : (firstOnes texts).Nodup := by
  refine (firstOnes_pairwise texts).imp fun {s t} hless hsame => ?_
  rw [hsame] at hless
  exact Nat.lt_irrefl _ hless

end AnalysisResult

/-! ### Counting -/

section Counts

variable {counts : List (Category × Nat)} {findings : List Finding}

theorem lookup_cons_if (c d : Category) (n : Nat) (counts : List (Category × Nat)) :
    ((d, n) :: counts).lookup c = if c = d then some n else counts.lookup c := by
  rw [List.lookup_cons]
  by_cases hc : c = d
  · simp [hc]
  · rw [beq_false_of_ne hc, if_neg hc]

/-- Counting adds one to what a category has been counted, or starts at one. -/
theorem lookup_count (c d : Category) (counts : List (Category × Nat)) :
    (summarize.count c counts).lookup d =
      if d = c then some ((counts.lookup c).getD 0 + 1) else counts.lookup d := by
  induction counts with
  | nil => rw [summarize.count, lookup_cons_if, List.lookup_nil, List.lookup_nil, Option.getD_none]
  | cons entry counts ih =>
    obtain ⟨first, n⟩ := entry
    rw [summarize.count]
    by_cases hfirst : first = c
    · rw [if_pos hfirst, hfirst]
      simp only [lookup_cons_if, if_true, Option.getD_some]
      split_ifs <;> rfl
    · rw [if_neg hfirst]
      simp only [lookup_cons_if, ih, Ne.symm hfirst, if_false]
      by_cases hd : d = first
      · rw [if_pos hd, if_neg (hd ▸ hfirst), if_pos hd]
      · rw [if_neg hd, if_neg hd]

theorem keys_count (c : Category) (counts : List (Category × Nat)) :
    (summarize.count c counts).map Prod.fst =
      if c ∈ counts.map Prod.fst then counts.map Prod.fst else counts.map Prod.fst ++ [c] := by
  induction counts with
  | nil => rfl
  | cons entry counts ih =>
    obtain ⟨first, n⟩ := entry
    rw [summarize.count]
    by_cases hfirst : first = c
    · simp [hfirst]
    · rw [if_neg hfirst, List.map_cons, ih]
      by_cases hc : c ∈ counts.map Prod.fst
      · simp only [List.map_cons, List.mem_cons, hc, or_true, if_true]
      · simp only [List.map_cons, List.mem_cons, hc, or_false, if_false, Ne.symm hfirst, List.cons_append]

theorem sum_count (c : Category) (counts : List (Category × Nat)) :
    ((summarize.count c counts).map Prod.snd).sum = (counts.map Prod.snd).sum + 1 := by
  induction counts with
  | nil => rfl
  | cons entry counts ih =>
    obtain ⟨first, n⟩ := entry
    rw [summarize.count]
    split_ifs
    · simp only [List.map_cons, List.sum_cons]
      omega
    · simp only [List.map_cons, List.sum_cons, ih]
      omega

/-- Whether each category that findings have is counted once, with the number of its findings, and no other
one is. -/
structure IsCountOf (counts : List (Category × Nat)) (findings : List Finding) : Prop where
  nodup : (counts.map Prod.fst).Nodup
  lookup : ∀ c, counts.lookup c =
    if findings.filter (fun f => f.category = c) = [] then none
    else some (findings.filter fun f => f.category = c).length
  total : (counts.map Prod.snd).sum = findings.length

theorem IsCountOf.count (h : IsCountOf counts findings) (f : Finding) :
    IsCountOf (summarize.count f.category counts) (findings ++ [f]) := by
  refine ⟨?_, fun c => ?_, ?_⟩
  · rw [keys_count]
    split_ifs with hkey
    · exact h.nodup
    · rw [← List.concat_eq_append]
      exact h.nodup.concat hkey
  · rw [lookup_count, List.filter_append, h.lookup c, h.lookup f.category]
    by_cases hc : c = f.category
    · subst hc
      by_cases hnil : findings.filter (fun g => g.category = f.category) = [] <;> simp [hnil]
    · simp [hc, Ne.symm hc]
  · rw [sum_count, h.total, List.length_append, List.length_singleton]

theorem isCountOf_summarize (findings : List Finding) : IsCountOf (summarize findings) findings := by
  have hfrom : ∀ (more : List Finding) {counts before}, IsCountOf counts before →
      IsCountOf (more.foldl (fun counts f => summarize.count f.category counts) counts) (before ++ more) := by
    intro more
    induction more with
    | nil =>
      intro counts before h
      rwa [List.append_nil]
    | cons f more ih =>
      intro counts before h
      rw [List.foldl_cons, List.append_cons]
      exact ih (h.count f)
  have hempty : IsCountOf [] [] := ⟨List.nodup_nil, fun _ => rfl, rfl⟩
  exact hfrom findings hempty

end Counts

/-! ### Showing -/

namespace Demo

/-- The path in a line that is the heading of a file. -/
def headingOf? (line : String) : Option String :=
  (Text.dropStart? "📄 ".toList line.toList).map String.ofList

/-- The lines about findings among lines that are read one after the other, each with the path in the last
heading before it. -/
def shownFrom (path : String) : List String → List (String × String)
  | [] => []
  | line :: more =>
    match headingOf? line with
    | some next => shownFrom next more
    | none => if Text.startsWith line "   L" then (path, line) :: shownFrom path more else shownFrom path more

theorem headingOf_heading (path : String) : headingOf? ("📄 " ++ path) = some path := by
  have hdrop : Text.dropStart? "📄 ".toList ("📄 ".toList ++ path.toList) = some path.toList :=
    Text.dropStart_eq_some.mpr rfl
  rw [headingOf?, String.toList_append, hdrop, Option.map_some, String.ofList_toList]

theorem findingLine_start (f : Finding) : ∃ rest, (findingLine f).toList = "   L".toList ++ rest := by
  simp only [findingLine, String.toList_append, List.append_assoc]
  exact ⟨_, rfl⟩

theorem shownFrom_findingLine (path : String) (f : Finding) (more : List String) :
    shownFrom path (findingLine f :: more) = (path, findingLine f) :: shownFrom path more := by
  obtain ⟨rest, hrest⟩ := findingLine_start f
  have hheading : headingOf? (findingLine f) = none := by
    rw [headingOf?, hrest]
    rfl
  have hstart : Text.startsWith (findingLine f) "   L" = true := by
    rw [Text.startsWith, hrest, Text.dropStart_eq_some.mpr rfl]
    rfl
  rw [shownFrom, hheading]
  exact if_pos hstart

/-- The lines about a file show its findings. -/
theorem shownFrom_fileLines (r : AnalysisResult) (last path : String) (more : List String) :
    ∃ next, shownFrom last (fileLines r path ++ more) =
      (r.findings.filter fun f => f.path = path).map (fun f => (f.path, findingLine f)) ++
        shownFrom next more := by
  have hlines : ∀ group : List Finding, (∀ f ∈ group, f.path = path) →
      shownFrom path (group.map findingLine ++ more) =
        group.map (fun f => (f.path, findingLine f)) ++ shownFrom path more := by
    intro group
    induction group with
    | nil => exact fun _ => rfl
    | cons f group ih =>
      intro hgroup
      obtain ⟨hf, hmore⟩ := List.forall_mem_cons.mp hgroup
      rw [List.map_cons, List.cons_append, shownFrom_findingLine, ih hmore, List.map_cons, hf]
      rfl
  refine ⟨path, ?_⟩
  rw [fileLines, List.cons_append, shownFrom, headingOf_heading]
  exact hlines _ fun f hf => of_decide_eq_true (List.mem_filter.mp hf).2

theorem shownFrom_files (r : AnalysisResult) (paths : List String) (last : String) (more : List String) :
    ∃ next, shownFrom last (paths.flatMap (fileLines r) ++ more) =
      (grouped Finding.path paths r.findings).map (fun f => (f.path, findingLine f)) ++
        shownFrom next more := by
  induction paths generalizing last with
  | nil => exact ⟨last, rfl⟩
  | cons path paths ih =>
    obtain ⟨middle, hfile⟩ := shownFrom_fileLines r last path (paths.flatMap (fileLines r) ++ more)
    obtain ⟨next, hmore⟩ := ih middle
    refine ⟨next, ?_⟩
    have hgrouped : grouped Finding.path (path :: paths) r.findings =
        (r.findings.filter fun f => f.path = path) ++ grouped Finding.path paths r.findings :=
      List.flatMap_cons
    rw [List.flatMap_cons, List.append_assoc, hfile, hmore, hgrouped, List.map_append, List.append_assoc]

theorem printLines_run (lines : List String) (s : Runner) :
    printLines lines s = (.ok (), { s with output := s.output ++ String.join (lines.map (· ++ "\n")) }) := by
  induction lines generalizing s with
  | nil => simp [printLines, Action.pure_run, String.join]
  | cons line lines ih =>
    have hprint : printLine line s = (.ok (), { s with output := s.output ++ (line ++ "\n") }) := rfl
    rw [printLines, Action.bind_run_ok hprint, ih]
    simp [String.append_assoc]

/-- Printing the findings writes lines that show each of them under the heading of its own file. -/
theorem printFindings_run (r : AnalysisResult) :
    ∃ lines, (∀ s, printFindings r s =
        (.ok (), { s with output := s.output ++ String.join (lines.map (· ++ "\n")) })) ∧
      shownFrom "" lines =
        (grouped Finding.path r.filesWithIssues r.findings).map fun f => (f.path, findingLine f) := by
  refine ⟨_, printLines_run _, ?_⟩
  have hbanner : ∀ more, shownFrom "" (["🔍 Findings", rule '-' 30] ++ more) = shownFrom "" more :=
    fun _ => rfl
  rw [List.append_assoc, hbanner, findingLines]
  split_ifs with hissues
  · obtain ⟨next, hfiles⟩ := shownFrom_files r r.filesWithIssues "" [""]
    rw [hfiles, show shownFrom next [""] = [] from rfl, List.append_nil]
  · have hnone : r.findings = [] := by simpa [AnalysisResult.hasIssues] using hissues
    rw [AnalysisResult.filesWithIssues, hnone]
    rfl

end Demo

/-! ### All views -/

namespace AnalysisResult

variable (r : AnalysisResult)

/-- The findings file by file. -/
def byFile : List Finding :=
  grouped Finding.path r.filesWithIssues r.findings

/-- Each view of the findings holds each of them once. Files stand in the order of their first findings, and
the findings of a file in the order of the result. What is printed shows each finding under its own file. The
counts are those of the categories that have findings. -/
theorem findings_partitioned :
    (r.filesWithIssues.Nodup ∧ (∀ path, path ∈ r.filesWithIssues ↔ ∃ f ∈ r.findings, f.path = path) ∧
      r.filesWithIssues.Pairwise fun p q =>
        (r.findings.map Finding.path).idxOf p < (r.findings.map Finding.path).idxOf q) ∧
    (r.byFile.Perm r.findings ∧
      (∀ path, (r.byFile.filter fun f => f.path = path) = r.findings.filter fun f => f.path = path) ∧
      ∃ lines, (∀ s, Demo.printFindings r s =
          (.ok (), { s with output := s.output ++ String.join (lines.map (· ++ "\n")) })) ∧
        Demo.shownFrom "" lines = r.byFile.map fun f => (f.path, Demo.findingLine f)) ∧
    (Category.all.flatMap r.ofCategory).Perm r.findings ∧
    ((summarize r.findings).map Prod.fst).Nodup ∧
    (∀ c, (summarize r.findings).lookup c =
      if r.ofCategory c = [] then none else some (r.ofCategory c).length) ∧
    ((summarize r.findings).map Prod.snd).sum = r.findings.length := by
  have hmem : ∀ path, path ∈ r.filesWithIssues ↔ ∃ f ∈ r.findings, f.path = path := fun path => by
    rw [filesWithIssues, mem_firstOnes, List.mem_map]
  have hnodup : r.filesWithIssues.Nodup := firstOnes_nodup _
  have hcovered : ∀ f ∈ r.findings, f.path ∈ r.filesWithIssues := fun f hf => (hmem f.path).mpr ⟨f, hf, rfl⟩
  have horder : ∀ path,
      (r.byFile.filter fun f => f.path = path) = r.findings.filter fun f => f.path = path := by
    intro path
    rw [byFile]
    by_cases hpath : path ∈ r.filesWithIssues
    · exact filter_grouped Finding.path hnodup hpath r.findings
    · rw [filter_grouped_of_not_mem Finding.path hpath, eq_comm, List.filter_eq_nil_iff]
      exact fun f hf hsame => hpath ((of_decide_eq_true hsame : f.path = path) ▸ hcovered f hf)
  have hcategories : (Category.all.flatMap r.ofCategory).Perm r.findings :=
    grouped_perm Finding.category (by decide) fun f _ => by cases f.category <;> decide
  have hcount := isCountOf_summarize r.findings
  exact ⟨⟨hnodup, hmem, firstOnes_pairwise _⟩,
    ⟨grouped_perm Finding.path hnodup hcovered, horder, Demo.printFindings_run r⟩,
    hcategories, hcount.nodup, hcount.lookup, hcount.total⟩

end AnalysisResult

end ReviewGate

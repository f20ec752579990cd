import Mathlib.Tactic.SplitIfs
import ReviewGate.Text.Blank
import ReviewGate.Text.Lines
import ReviewGate.Text.Search

/-! Texts that are stored as lines: what reading them does to their line ends and to the blanks around
them. -/
namespace ReviewGate.Text

/-! ### Blanks at the ends -/

theorem dropBlankEnd_concat {c : Char} (hc : isBlank c = true) (cs : List Char) :
    dropBlankEnd (cs ++ [c]) = dropBlankEnd cs := by
  induction cs with
  | nil => simp [dropBlankEnd, hc]
  | cons d cs ih => rw [List.cons_append, dropBlankEnd, ih, dropBlankEnd]

theorem stripChars_concat {c : Char} (hc : isBlank c = true) (cs : List Char) :
    stripChars (cs ++ [c]) = stripChars cs := by
  unfold stripChars dropBlankStart
  rw [List.dropWhile_append]
  split_ifs with hempty
  · rw [List.isEmpty_iff.mp hempty]
    simp [hc]
  · exact dropBlankEnd_concat hc _

theorem dropBlankEnd_eq_self {cs : List Char} (h : ∀ c ∈ cs, isBlank c = false) :
    dropBlankEnd cs = cs := by
  induction cs with
  | nil => rfl
  | cons c cs ih =>
    have hc := h c (by simp)
    rw [dropBlankEnd, ih fun d hd => h d (by simp [hd])]
    cases cs <;> simp [hc]

theorem stripChars_eq_self {cs : List Char} (h : ∀ c ∈ cs, isBlank c = false) : stripChars cs = cs := by
  have hstart : dropBlankStart cs = cs := by
    cases cs with
    | nil => rfl
    | cons c cs => simp [dropBlankStart, h c (by simp)]
  rw [stripChars, hstart, dropBlankEnd_eq_self h]

theorem dropBlankEnd_starts (cs : List Char) : dropBlankEnd cs <+: cs := by
  induction cs with
  | nil => exact List.prefix_refl []
  | cons c cs ih =>
    rw [dropBlankEnd]
    rcases hkept : dropBlankEnd cs with _ | ⟨d, kept⟩
    · dsimp only
      split_ifs
      · exact List.nil_prefix
      · exact List.prefix_append [c] cs
    · rw [hkept] at ih
      exact List.cons_prefix_cons.mpr ⟨rfl, ih⟩

theorem dropBlankEnd_idem (cs : List Char) : dropBlankEnd (dropBlankEnd cs) = dropBlankEnd cs := by
  induction cs with
  | nil => rfl
  | cons c cs ih =>
    rw [dropBlankEnd]
    rcases hkept : dropBlankEnd cs with _ | ⟨d, kept⟩
    · cases hc : isBlank c <;> simp [dropBlankEnd, hc]
    · rw [hkept] at ih
      dsimp only
      rw [dropBlankEnd, ih]

/-- Once a text begins with a character that is not blank, it goes on to do so. -/
theorem dropBlankEnd_cons {c : Char} (hc : isBlank c = false) (cs : List Char) :
    dropBlankEnd (c :: cs) = c :: dropBlankEnd cs := by
  rw [dropBlankEnd]
  cases dropBlankEnd cs <;> simp [hc]

theorem stripChars_idem (cs : List Char) : stripChars (stripChars cs) = stripChars cs := by
  unfold stripChars dropBlankStart
  rcases hstart : cs.dropWhile isBlank with _ | ⟨c, rest⟩
  · rfl
  · have hc : isBlank c = false := by
      have hne : cs.dropWhile isBlank ≠ [] := by simp [hstart]
      have hhead := List.head_dropWhile_not isBlank hne
      simpa [hstart] using hhead
    rw [dropBlankEnd_cons hc, List.dropWhile_cons_of_neg (by simp [hc]), dropBlankEnd_cons hc,
      dropBlankEnd_idem]

theorem mem_of_mem_stripChars {c : Char} {cs : List Char} (h : c ∈ stripChars cs) : c ∈ cs :=
  (List.dropWhile_sublist isBlank).mem ((dropBlankEnd_starts _).mem h)

/-- A text with visible characters at both ends has no blanks to lose. -/
theorem stripChars_between {first last : Char} (hfirst : isBlank first = false)
    (hlast : isBlank last = false) (cs : List Char) :
    stripChars (first :: (cs ++ [last])) = first :: (cs ++ [last]) := by
  have hend : ∀ cs : List Char, dropBlankEnd (cs ++ [last]) = cs ++ [last] := by
    intro cs
    induction cs with
    | nil => simp [dropBlankEnd, hlast]
    | cons c cs ih =>
      rw [List.cons_append, dropBlankEnd, ih]
      cases cs <;> rfl
  rw [stripChars, dropBlankStart, List.dropWhile_cons_of_neg (by simp [hfirst]),
    dropBlankEnd_cons hfirst, hend]

theorem strip_idem (s : String) : strip (strip s) = strip s := by
  rw [strip, strip, String.toList_ofList, stripChars_idem]

/-! ### Line ends -/

theorem feedNewlines_cons {c : Char} {rest : List Char} (h : c = '\r' → rest.head? ≠ some '\n') :
    feedNewlines (c :: rest) = (if c = '\r' then '\n' else c) :: feedNewlines rest := by
  rw [feedNewlines]
  rintro more hc rfl
  exact h hc rfl

theorem feedNewlines_eq_self {cs : List Char} (h : '\r' ∉ cs) : feedNewlines cs = cs := by
  induction cs with
  | nil => rfl
  | cons c cs ih =>
    have hc : c ≠ '\r' := by
      rintro rfl
      exact h (by simp)
    have hcs := ih fun hmem => h (List.mem_cons_of_mem c hmem)
    rw [feedNewlines_cons fun h => absurd h hc, if_neg hc, hcs]

theorem unified_eq_self {s : String} (h : '\r' ∉ s.toList) : unified s = s := by
  rw [unified, feedNewlines_eq_self h, String.ofList_toList]

/-- A line feed after a text ends its last line, or makes one line end with the carriage return
before it. -/
theorem feedNewlines_concat_feed (cs : List Char) :
    feedNewlines (cs ++ ['\n']) = feedNewlines cs ++ ['\n'] ∨
      feedNewlines (cs ++ ['\n']) = feedNewlines cs := by
  induction cs using feedNewlines.induct with
  | case1 => exact Or.inl rfl
  | case2 rest ih =>
    rcases ih with h | h <;> simp [feedNewlines, h]
  | case3 c rest hne ih =>
    have hhead : c = '\r' → rest.head? ≠ some '\n' := by
      intro hc hrest
      obtain ⟨more, rfl⟩ := List.head?_eq_some_iff.mp hrest
      exact hne more hc rfl
    cases rest with
    | nil =>
      rcases Decidable.em (c = '\r') with rfl | hc
      · exact Or.inr rfl
      · rw [List.cons_append, feedNewlines_cons fun h => absurd h hc, feedNewlines_cons hhead]
        exact Or.inl rfl
    | cons d rest =>
      rw [List.cons_append, feedNewlines_cons hhead, feedNewlines_cons (by simpa using hhead)]
      rw [List.cons_append] at ih
      rcases ih with h | h <;> simp [h]

/-- A line end after a text does not matter where the blanks around the text are left out. -/
theorem strip_unified_line (s : String) : strip (unified (s ++ "\n")) = strip (unified s) := by
  have hlist : (s ++ "\n").toList = s.toList ++ ['\n'] := by simp
  simp only [strip, unified, String.toList_ofList, hlist]
  rcases feedNewlines_concat_feed s.toList with h | h
  · rw [h, stripChars_concat (by decide)]
  · rw [h]

/-! ### Lines -/

/-- The lines of a text: a line ends at each line feed, and what follows the last one is a line only if
it is not empty. -/
def linesIn (s : String) : List String :=
  (feedLines s.toList).map String.ofList

/-- A line that is ended comes before the lines of what follows. -/
theorem feedLines_append_feed {line : List Char} (h : '\n' ∉ line) (rest : List Char) :
    feedLines (line ++ '\n' :: rest) = line :: feedLines rest := by
  induction line with
  | nil => simp [feedLines]
  | cons c line ih =>
    simp only [List.mem_cons, not_or] at h
    simp [feedLines, ih h.2, Ne.symm h.1]

theorem linesIn_append_feed {line : String} (h : '\n' ∉ line.toList) (rest : String) :
    linesIn (line ++ "\n" ++ rest) = line :: linesIn rest := by
  have hfeed : "\n".toList = ['\n'] := rfl
  simp only [linesIn, String.toList_append, hfeed, List.append_assoc, List.singleton_append,
    feedLines_append_feed h, List.map_cons, String.ofList_toList]

/-- A text in which each line is ended has the lines that it was made of. -/
theorem linesIn_join {lines : List String} (hlines : lines ≠ [])
    (h : ∀ line ∈ lines, '\n' ∉ line.toList) : linesIn (join "\n" lines ++ "\n") = lines := by
  induction lines with
  | nil => exact absurd rfl hlines
  | cons line lines ih =>
    have hline := h line (by simp)
    cases lines with
    | nil =>
      rw [join, ← String.append_empty (s := line ++ "\n"), linesIn_append_feed hline]
      rfl
    | cons next more =>
      have hmore := ih (by simp) fun other hother => h other (by simp [hother])
      rw [join, String.append_assoc, linesIn_append_feed hline, hmore]
      simp

theorem brokenLinesFrom_cons {c : Char} (hreturn : c ≠ '\r') (before rest : List Char) :
    brokenLinesFrom before (c :: rest) =
      if isLineBreak c then before.reverse :: brokenLinesFrom [] rest
      else brokenLinesFrom (c :: before) rest := by
  conv =>
    lhs
    unfold brokenLinesFrom
  split
  · contradiction
  · rename_i h
    cases h
    exact absurd rfl hreturn
  · rename_i h
    cases h
    rfl

/-- A line without line breaks comes before the lines of what follows. -/
theorem brokenLinesFrom_line {line : List Char} (h : ∀ c ∈ line, isLineBreak c = false)
    (before rest : List Char) :
    brokenLinesFrom before (line ++ '\n' :: rest) =
      (before.reverse ++ line) :: brokenLinesFrom [] rest := by
  induction line generalizing before with
  | nil =>
    have hfeed : isLineBreak '\n' = true := by decide
    rw [List.nil_append, brokenLinesFrom_cons (by decide), if_pos hfeed, List.append_nil]
  | cons c line ih =>
    obtain ⟨hc, hline⟩ := List.forall_mem_cons.mp h
    have hreturn : c ≠ '\r' := by
      rintro rfl
      exact absurd hc (by decide)
    rw [List.cons_append, brokenLinesFrom_cons hreturn, hc, if_neg (by simp), ih hline]
    simp

/-! ### Texts made of literals

A literal is a list of characters for the kernel, which is what is searched here. -/

theorem not_mem_ofList {c : Char} {cs : List Char} (h : c ∉ cs) : c ∉ (String.ofList cs).toList := by
  rwa [String.toList_ofList]

theorem linesIn_ofList (cs : List Char) :
    linesIn (String.ofList cs) = (feedLines cs).map String.ofList := by
  rw [linesIn, String.toList_ofList]

theorem not_mem_append {c : Char} {s t : String} (hs : c ∉ s.toList) (ht : c ∉ t.toList) :
    c ∉ (s ++ t).toList := by
  rw [String.toList_append, List.mem_append, not_or]
  exact ⟨hs, ht⟩

theorem strip_ofList {cs : List Char} (h : stripChars cs = cs) :
    strip (String.ofList cs) = String.ofList cs := by
  rw [strip, String.toList_ofList, h]

theorem stripEnd_ofList (cs : List Char) :
    stripEnd (String.ofList cs) = String.ofList (dropBlankEnd cs) := by
  rw [stripEnd, String.toList_ofList]

theorem strip_unified_ofList {cs : List Char} (hreturn : '\r' ∉ cs) (hstrip : stripChars cs = cs) :
    strip (unified (String.ofList cs)) = String.ofList cs := by
  rw [unified_eq_self (not_mem_ofList hreturn), strip_ofList hstrip]

theorem not_mem_join {c : Char} {separator : String} (hseparator : c ∉ separator.toList)
    {lines : List String} (h : ∀ line ∈ lines, c ∉ line.toList) : c ∉ (join separator lines).toList := by
  induction lines with
  | nil => exact not_mem_ofList (by simp)
  | cons line lines ih =>
    have hline := h line (by simp)
    have hlines := ih fun other hother => h other (by simp [hother])
    cases lines with
    | nil => exact hline
    | cons next more => exact not_mem_append (not_mem_append hline hseparator) hlines

end ReviewGate.Text

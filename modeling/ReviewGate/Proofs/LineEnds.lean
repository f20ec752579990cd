import ReviewGate.Proofs.LineNumbers

/-! Lines and their ends. A text that is written line by line is read back as the lines that it was written
from, however each of them is ended. Of any text there are as many lines as there are line feeds, and one
more if something follows the last of them. -/
namespace ReviewGate

open Text

/-- How a line is ended: by a line feed, or by a carriage return and a line feed. -/
inductive LineEnd where
  | feed
  | returnFeed
  deriving DecidableEq

namespace LineEnd

/-- What stands between a line and its line feed. -/
def mark : LineEnd → List Char
  | feed => []
  | returnFeed => ['\r']

def text (e : LineEnd) : String :=
  String.ofList (e.mark ++ ['\n'])

end LineEnd

/-- Whether a text can be a line whatever its end: it holds no line feed and has no carriage return at its
end. -/
structure IsLine (line : String) : Prop where
  unbroken : '\n' ∉ line.toList
  unreturned : line.toList.getLast? ≠ some '\r'

/-- The text of lines that are ended, and of one after them that is not, if there is one. -/
def writtenLines (ended : List (String × LineEnd)) (unended : Option String) : String :=
  String.join (ended.map fun (line, e) => line ++ e.text) ++ unended.getD ""

namespace Text

theorem dropReturn_mark {line : String} (h : IsLine line) (e : LineEnd) :
    dropReturn (line.toList ++ e.mark) = line.toList := by
  rw [dropReturn_eq]
  cases e with
  | feed => rw [LineEnd.mark, List.append_nil, if_neg h.unreturned]
  | returnFeed => rw [LineEnd.mark, List.getLast?_concat, if_pos rfl, List.dropLast_concat]

theorem feedLines_eq_nil {cs : List Char} : feedLines cs = [] ↔ cs = [] := by
  cases cs with
  | nil => simp [feedLines]
  | cons c cs =>
    rw [feedLines]
    split
    · simp
    · split <;> simp

/-- There is a line for each line feed, and one for what follows the last of them. -/
theorem length_feedLines (cs : List Char) :
    (feedLines cs).length = cs.count '\n' + if cs = [] ∨ cs.getLast? = some '\n' then 0 else 1 := by
  induction cs with
  | nil => rfl
  | cons c cs ih =>
    by_cases hcs : cs = []
    · -- The last character of a text ends a line, or it is one.
      subst hcs
      by_cases hc : c = '\n' <;> simp [feedLines, hc]
    · have hlast : (c :: cs).getLast? = cs.getLast? := by
        obtain ⟨d, more, rfl⟩ := List.exists_cons_of_ne_nil hcs
        exact List.getLast?_cons_cons
      have hsome : feedLines cs ≠ [] := fun hnil => hcs (feedLines_eq_nil.mp hnil)
      obtain ⟨line, more, hlines⟩ := List.exists_cons_of_ne_nil hsome
      rw [hlines] at ih
      rw [hlast, feedLines, hlines]
      by_cases hc : c = '\n'
      · rw [if_pos hc, hc, List.count_cons_self, List.length_cons, ih]
        simp only [hcs, false_or, List.cons_ne_nil]
        omega
      · rw [if_neg hc, List.count_cons_of_ne hc, List.length_cons, ← List.length_cons, ih]
        simp only [hcs, false_or, List.cons_ne_nil]

theorem feed_not_mem_feedLines (cs : List Char) : ∀ line ∈ feedLines cs, '\n' ∉ line := by
  induction cs with
  | nil => simp [feedLines]
  | cons c cs ih =>
    rw [feedLines]
    split_ifs with hc
    · exact List.forall_mem_cons.mpr ⟨List.not_mem_nil, ih⟩
    · have hfirst : '\n' ∉ [c] := by simpa using Ne.symm hc
      rcases hlines : feedLines cs with _ | ⟨line, more⟩
      · exact List.forall_mem_singleton.mpr hfirst
      · rw [hlines] at ih
        obtain ⟨hline, hmore⟩ := List.forall_mem_cons.mp ih
        refine List.forall_mem_cons.mpr ⟨?_, hmore⟩
        exact fun hmem => (List.mem_cons.mp hmem).elim (Ne.symm hc) hline

theorem mem_of_mem_dropReturn {c : Char} {cs : List Char} (h : c ∈ dropReturn cs) : c ∈ cs := by
  rw [dropReturn_eq] at h
  split_ifs at h
  · exact List.dropLast_subset _ h
  · exact h

end Text

namespace ChangedFile

/-- A line that is ended is read, whatever ends it, before what follows. -/
theorem linesOf_ended {line : String} (h : IsLine line) (e : LineEnd) (rest : String) :
    linesOf (line ++ e.text ++ rest) = line :: linesOf rest := by
  have hfeed : '\n' ∉ line.toList ++ e.mark := by
    cases e <;> simp [LineEnd.mark, h.unbroken]
  have hlist : (line ++ e.text ++ rest).toList = (line.toList ++ e.mark) ++ '\n' :: rest.toList := by
    simp [LineEnd.text]
  rw [linesOf, hlist, feedLines_append_feed hfeed, List.map_cons, dropReturn_mark h, String.ofList_toList]
  rfl

theorem linesOf_unended {line : String} (h : IsLine line) (hline : line ≠ "") : linesOf line = [line] := by
  have hlist : line.toList ≠ [] := fun hnil => hline (String.toList_eq_nil_iff.mp hnil)
  rw [linesOf, feedLines_unended hlist h.unbroken, List.map_singleton, dropReturn_eq, if_neg h.unreturned,
    String.ofList_toList]

theorem linesOf_writtenLines {ended : List (String × LineEnd)} {unended : Option String}
    (hlines : ∀ line ∈ ended.map Prod.fst ++ unended.toList, IsLine line) (hgiven : unended ≠ some "") :
    linesOf (writtenLines ended unended) = ended.map Prod.fst ++ unended.toList := by
  induction ended with
  | nil =>
    cases unended with
    | none => rfl
    | some line =>
      have hline : line ≠ "" := fun hempty => hgiven (congrArg some hempty)
      exact linesOf_unended (hlines line (by simp)) hline
  | cons first ended ih =>
    obtain ⟨line, e⟩ := first
    have hmore := ih fun other hother => hlines other (List.mem_cons_of_mem _ hother)
    have hwritten : writtenLines ((line, e) :: ended) unended =
        line ++ e.text ++ writtenLines ended unended := by
      simp [writtenLines, String.append_assoc]
    rw [hwritten, linesOf_ended (hlines line (by simp)), hmore]
    rfl

/-- Reading a text undoes writing lines, whichever end each of them has. Of every text there is a line for
each line feed, and one for what follows the last of them, and no line holds a line feed. -/
theorem ofText_writtenLines :
    (∀ path ended unended, (∀ line ∈ ended.map Prod.fst ++ unended.toList, IsLine line) →
      unended ≠ some "" →
        ofText path (writtenLines ended unended) = make path (ended.map Prod.fst ++ unended.toList)) ∧
    ∀ path text, ofText path text = make path (linesOf text) ∧
      (linesOf text).length = text.toList.count '\n' +
        (if text = "" ∨ text.toList.getLast? = some '\n' then 0 else 1) ∧
      ∀ line ∈ linesOf text, '\n' ∉ line.toList := by
  constructor
  · intro path ended unended hlines hgiven
    rw [ofText, linesOf_writtenLines hlines hgiven]
  · intro path text
    refine ⟨rfl, ?_, ?_⟩
    · rw [linesOf, List.length_map, length_feedLines]
      simp only [String.toList_eq_nil_iff]
    · intro line hline hfeed
      obtain ⟨cs, hcs, rfl⟩ := List.mem_map.mp hline
      rw [String.toList_ofList] at hfeed
      exact feed_not_mem_feedLines _ cs hcs (mem_of_mem_dropReturn hfeed)

/-- Both ends, an empty line, a carriage return within a line and a line that is not ended. -/
theorem ofText_writtenLines_mixed :
    (∀ line ∈ ["int a;", "", "\rint b;", "// end"], IsLine line) ∧ some "// end" ≠ some "" ∧
      ofText "A.cs" "int a;\r\n\n\rint b;\n// end" =
        .ok ⟨"A.cs", ["int a;", "", "\rint b;", "// end"], by decide⟩ := by
  have hlines : ∀ line ∈ ["int a;", "", "\rint b;", "// end"], IsLine line := by
    have htests : ∀ line ∈ ["int a;", "", "\rint b;", "// end"],
        '\n' ∉ line.toList ∧ line.toList.getLast? ≠ some '\r' := by
      decide +kernel
    exact fun line hline => ⟨(htests line hline).1, (htests line hline).2⟩
  have hgiven : some "// end" ≠ some "" := by decide
  have hread := ofText_writtenLines.1 "A.cs"
    [("int a;", .returnFeed), ("", .feed), ("\rint b;", .feed)] (some "// end") hlines hgiven
  exact ⟨hlines, hgiven, hread⟩

end ChangedFile

end ReviewGate

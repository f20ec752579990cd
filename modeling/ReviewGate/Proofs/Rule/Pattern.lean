import ReviewGate.Proofs.Text.Search
import ReviewGate.Rule.Pattern

/-! The texts that patterns describe. A pattern is looked for by trying one run of characters after the
other; it is found where, and only where, some text that it describes stands. -/
namespace ReviewGate

/-- Whether a part of a pattern describes a text. -/
def Piece.Describes : Piece → String → Prop
  | .text s, t => t = s
  | .blanks, t => Text.isBlankText t = true
  | .anything, t => '\n' ∉ t.toList

namespace Pattern

/-- Whether a text is made of one text after the other that the parts of a pattern describe. -/
def Describes : Pattern → String → Prop
  | [], t => t = ""
  | p :: more, t => ∃ first rest, t = first ++ rest ∧ p.Describes first ∧ Describes more rest

namespace Describes

variable {more : Pattern} {t : String}

theorem last (s : String) : Describes [.text s] s :=
  ⟨s, "", by simp, rfl, rfl⟩

theorem text {s : String} (h : Describes more t) : Describes (.text s :: more) (s ++ t) :=
  ⟨s, t, rfl, rfl, h⟩

theorem blanks {w : String} (hw : Text.isBlankText w = true) (h : Describes more t) :
    Describes (.blanks :: more) (w ++ t) :=
  ⟨w, t, rfl, hw, h⟩

theorem anything {x : String} (hx : '\n' ∉ x.toList) (h : Describes more t) :
    Describes (.anything :: more) (x ++ t) :=
  ⟨x, t, rfl, hx, h⟩

end Describes

/-- Whether a text that a pattern describes stands somewhere in a line. -/
def StandsIn (p : Pattern) (line : String) : Prop :=
  ∃ before found after, line = before ++ found ++ after ∧ p.Describes found

end Pattern

/-- Skipping tries every run of characters of the class that the characters start with. -/
theorem skips_iff {inClass : Char → Bool} {next : List Char → Bool} {cs : List Char} :
    skips inClass next cs = true ↔
      ∃ run rest, cs = run ++ rest ∧ (∀ c ∈ run, inClass c = true) ∧ next rest = true := by
  induction cs with
  | nil =>
    constructor
    · intro h
      exact ⟨[], [], rfl, by simp, h⟩
    · rintro ⟨run, rest, hcs, -, hnext⟩
      obtain ⟨rfl, rfl⟩ := List.append_eq_nil_iff.mp hcs.symm
      exact hnext
  | cons c cs ih =>
    rw [skips, Bool.or_eq_true, Bool.and_eq_true, ih]
    constructor
    · rintro (h | ⟨hc, run, rest, rfl, hrun, hnext⟩)
      · exact ⟨[], c :: cs, rfl, by simp, h⟩
      · exact ⟨c :: run, rest, rfl, by simpa using ⟨hc, hrun⟩, hnext⟩
    · rintro ⟨run, rest, hcs, hrun, hnext⟩
      cases run with
      | nil =>
        left
        rw [hcs]
        exact hnext
      | cons d run =>
        right
        obtain ⟨rfl, rfl⟩ : c = d ∧ cs = run ++ rest := by simpa using hcs
        exact ⟨hrun c (by simp), run, rest, rfl, fun e he => hrun e (by simp [he]), hnext⟩

theorem Piece.matchesThen_iff (p : Piece) {next : List Char → Bool} {cs : List Char} :
    p.matchesThen next cs = true ↔
      ∃ t rest, cs = String.toList t ++ rest ∧ p.Describes t ∧ next rest = true := by
  -- A run of characters of a class is a text of such characters.
  have hskips : ∀ {inClass : Char → Bool} {Describes : String → Prop},
      (∀ t, Describes t ↔ ∀ c ∈ t.toList, inClass c = true) →
      (skips inClass next cs = true ↔
        ∃ t rest, cs = String.toList t ++ rest ∧ Describes t ∧ next rest = true) := by
    intro inClass Describes hclass
    rw [skips_iff]
    constructor
    · rintro ⟨run, rest, hcs, hrun, hnext⟩
      exact ⟨String.ofList run, rest, by simpa using hcs, (hclass _).mpr (by simpa using hrun), hnext⟩
    · rintro ⟨t, rest, hcs, ht, hnext⟩
      exact ⟨t.toList, rest, hcs, (hclass t).mp ht, hnext⟩
  cases p with
  | text s =>
    simp only [matchesThen, Describes]
    constructor
    · intro h
      split at h
      · rename_i rest hrest
        exact ⟨s, rest, Text.dropStart_eq_some.mp hrest, rfl, h⟩
      · cases h
    · rintro ⟨t, rest, hcs, rfl, hnext⟩
      rw [Text.dropStart_eq_some.mpr hcs]
      exact hnext
  | blanks => exact hskips fun t => by simp [Describes, Text.isBlankText]
  | anything =>
    refine hskips fun t => ?_
    simp only [Describes, isWithinLine, bne_iff_ne]
    exact ⟨fun h c hc hfeed => h (hfeed ▸ hc), fun h hfeed => h _ hfeed rfl⟩

namespace Pattern

theorem matchesStart_iff (p : Pattern) {cs : List Char} :
    p.matchesStart cs = true ↔ ∃ t rest, cs = String.toList t ++ rest ∧ p.Describes t := by
  induction p generalizing cs with
  | nil =>
    constructor
    · intro _
      exact ⟨"", cs, rfl, rfl⟩
    · intro _
      rfl
  | cons piece more ih =>
    rw [matchesStart, Piece.matchesThen_iff]
    constructor
    · rintro ⟨first, rest, rfl, hfirst, hrest⟩
      obtain ⟨found, after, rfl, hfound⟩ := ih.mp hrest
      exact ⟨first ++ found, after, by simp, first, found, rfl, hfirst, hfound⟩
    · rintro ⟨t, after, rfl, first, found, rfl, hfirst, hfound⟩
      exact ⟨first, found.toList ++ after, by simp, hfirst, ih.mpr ⟨found, after, rfl, hfound⟩⟩

/-- To look for a pattern is to skip any characters before it. -/
theorem found_eq_skips (p : Pattern) (cs : List Char) :
    p.found cs = skips (fun _ => true) p.matchesStart cs := by
  induction cs with
  | nil => rfl
  | cons c cs ih => rw [found, skips, ih, Bool.true_and]

/-- The search finds a pattern in a line if and only if a text that it describes stands there. -/
theorem found_iff (p : Pattern) {line : String} : p.found line.toList = true ↔ p.StandsIn line := by
  rw [found_eq_skips, skips_iff]
  constructor
  · rintro ⟨before, rest, hline, -, hstart⟩
    obtain ⟨found, after, rfl, hfound⟩ := p.matchesStart_iff.mp hstart
    refine ⟨String.ofList before, found, String.ofList after, ?_, hfound⟩
    apply String.toList_injective
    simp [hline]
  · rintro ⟨before, found, after, rfl, hfound⟩
    refine ⟨before.toList, found.toList ++ after.toList, by simp, by simp, ?_⟩
    exact p.matchesStart_iff.mpr ⟨found, after.toList, rfl, hfound⟩

end Pattern

end ReviewGate

import Mathlib.Tactic.SplitIfs
import ReviewGate.Text.Blank
import ReviewGate.Text.ShellWords

/-! Which command lines have words: those in which every quote is closed and every escape is followed by
the character that it is for. -/
namespace ReviewGate.Text.ShellWords

variable {mark c : Char} {cs more : List Char}

/-- What may stand between two marks of the same kind. Between double ones a character that is escaped may
be the mark itself. -/
inductive IsInner (mark : Char) : List Char → Prop
  | nil : IsInner mark []
  | plain {c : Char} {more : List Char} (other : c ≠ mark) (unescaped : c = '\\' → mark ≠ '"')
    (rest : IsInner mark more) : IsInner mark (c :: more)
  | escaped {c : Char} {more : List Char} (double : mark = '"') (rest : IsInner mark more) :
    IsInner mark ('\\' :: c :: more)

/-- Whether all that is begun in a command line is ended in it: quotes and escapes. -/
inductive IsClosed : List Char → Prop
  | nil : IsClosed []
  | plain {c : Char} {more : List Char} (escape : c ≠ '\\') (quote : isQuote c = false)
    (rest : IsClosed more) : IsClosed (c :: more)
  | escaped {c : Char} {more : List Char} (rest : IsClosed more) : IsClosed ('\\' :: c :: more)
  | quoted {mark : Char} {inner more : List Char} (quote : isQuote mark = true)
    (inside : IsInner mark inner) (rest : IsClosed more) : IsClosed (mark :: (inner ++ mark :: more))

/-- Whether a quote that has been opened is closed, and all after it too. -/
def ClosesQuote (mark : Char) (cs : List Char) : Prop :=
  ∃ inner more, cs = inner ++ mark :: more ∧ IsInner mark inner ∧ IsClosed more

/-- Whether what has been begun at a place is ended in the characters from there on. -/
def Place.Closes : Place → List Char → Prop
  | .outside, cs => IsClosed cs
  | .word, cs => IsClosed cs
  | .quote mark, cs => ClosesQuote mark cs
  | .escape none, cs => ∃ c more, cs = c :: more ∧ IsClosed more
  | .escape (some mark), cs => ∃ c more, cs = c :: more ∧ ClosesQuote mark more

/-! ### By the first character -/

theorem isClosed_plain (hescape : c ≠ '\\') (hquote : isQuote c = false) :
    IsClosed (c :: cs) ↔ IsClosed cs := by
  refine ⟨fun h => ?_, .plain hescape hquote⟩
  cases h with
  | plain _ _ rest => exact rest
  | escaped _ => exact absurd rfl hescape
  | quoted quote _ _ =>
    rw [hquote] at quote
    cases quote

theorem isClosed_escape : IsClosed ('\\' :: cs) ↔ ∃ c more, cs = c :: more ∧ IsClosed more := by
  refine ⟨fun h => ?_, ?_⟩
  · cases h with
    | plain escape _ _ => exact absurd rfl escape
    | escaped rest => exact ⟨_, _, rfl, rest⟩
    | quoted quote _ _ => cases quote
  · rintro ⟨c, more, rfl, hmore⟩
    exact .escaped hmore

theorem isClosed_quote (hmark : isQuote mark = true) : IsClosed (mark :: cs) ↔ ClosesQuote mark cs := by
  refine ⟨fun h => ?_, ?_⟩
  · cases h with
    | plain _ quote _ =>
      rw [hmark] at quote
      cases quote
    | escaped _ => cases hmark
    | quoted _ inside rest => exact ⟨_, _, rfl, inside, rest⟩
  · rintro ⟨inner, more, rfl, hinner, hmore⟩
    exact .quoted hmark hinner hmore

theorem not_closesQuote_nil : ¬ ClosesQuote mark [] := by
  rintro ⟨inner, more, h, -⟩
  cases inner <;> cases h

theorem closesQuote_mark : ClosesQuote mark (mark :: cs) ↔ IsClosed cs := by
  refine ⟨?_, fun h => ⟨[], cs, rfl, .nil, h⟩⟩
  rintro ⟨inner, more, h, hinner, hmore⟩
  cases hinner with
  | nil =>
    cases h
    exact hmore
  | plain other _ _ =>
    cases h
    exact absurd rfl other
  | escaped double _ =>
    cases h
    cases double

theorem closesQuote_escape :
    ClosesQuote '"' ('\\' :: cs) ↔ ∃ c more, cs = c :: more ∧ ClosesQuote '"' more := by
  refine ⟨?_, ?_⟩
  · rintro ⟨inner, more, h, hinner, hmore⟩
    cases hinner with
    | nil => cases h
    | plain _ unescaped _ =>
      cases h
      exact absurd rfl (unescaped rfl)
    | escaped _ rest =>
      cases h
      exact ⟨_, _, rfl, _, _, rfl, rest, hmore⟩
  · rintro ⟨c, _, rfl, inner, more, rfl, hinner, hmore⟩
    exact ⟨'\\' :: c :: inner, more, rfl, .escaped rfl hinner, hmore⟩

theorem closesQuote_plain (hmark : c ≠ mark) (hescape : c = '\\' → mark ≠ '"') :
    ClosesQuote mark (c :: cs) ↔ ClosesQuote mark cs := by
  refine ⟨?_, ?_⟩
  · rintro ⟨inner, more, h, hinner, hmore⟩
    cases hinner with
    | nil =>
      cases h
      exact absurd rfl hmark
    | plain _ _ rest =>
      cases h
      exact ⟨_, _, rfl, rest, hmore⟩
    | escaped double _ =>
      cases h
      exact absurd double (hescape rfl)
  · rintro ⟨inner, more, rfl, hinner, hmore⟩
    exact ⟨c :: inner, more, rfl, .plain hmark hescape hinner, hmore⟩

theorem isClosed_cons : IsClosed (c :: cs) ↔
    (if isGap c then Place.outside else if c == '\\' then .escape none
      else if isQuote c then .quote c else .word).Closes cs := by
  split_ifs with hgap hescape hquote
  · obtain ⟨hescape, hquote⟩ : c ≠ '\\' ∧ isQuote c = false := by
      simp only [isGap, Bool.or_eq_true, beq_iff_eq] at hgap
      rcases hgap with ((rfl | rfl) | rfl) | rfl <;> exact ⟨by decide, rfl⟩
    exact isClosed_plain hescape hquote
  · obtain rfl : c = '\\' := by simpa using hescape
    exact isClosed_escape
  · exact isClosed_quote hquote
  · exact isClosed_plain (by simpa using hescape) (by simpa using hquote)

theorem closesQuote_cons (hmark : isQuote mark = true) : ClosesQuote mark (c :: cs) ↔
    (if c == mark then Place.word else if c == '\\' && mark == '"' then .escape (some mark)
      else .quote mark).Closes cs := by
  split_ifs with hend hescape
  · obtain rfl : c = mark := by simpa using hend
    exact closesQuote_mark
  · obtain ⟨rfl, rfl⟩ : c = '\\' ∧ mark = '"' := by simpa using hescape
    exact closesQuote_escape
  · exact closesQuote_plain (by simpa using hend) (by simpa using hescape)

/-! ### By the whole line -/

/-- Whether a place is one that a reader comes to: escapes count between double quotes only. -/
def Place.IsSound : Place → Prop
  | .outside => True
  | .word => True
  | .quote mark => isQuote mark = true
  | .escape none => True
  | .escape (some mark) => mark = '"'

theorem exists_map_ok {f : List String → List String} {result : Except Malformed (List String)} :
    (∃ ws, result.map f = .ok ws) ↔ ∃ ws, result = .ok ws := by
  cases result with
  | ok ws => exact iff_of_true ⟨_, rfl⟩ ⟨_, rfl⟩
  | error m => exact iff_of_false (fun ⟨_, h⟩ => by cases h) fun ⟨_, h⟩ => by cases h

/-- From a place on there are words if and only if what has been begun there is ended. -/
theorem splitFrom_ok (word : List Char) (isWord : Bool) (place : Place) (hplace : place.IsSound)
    (cs : List Char) : (∃ ws, splitFrom word isWord place cs = .ok ws) ↔ place.Closes cs := by
  induction cs generalizing word isWord place with
  | nil =>
    rcases place with _ | _ | mark | within
    · exact iff_of_true ⟨_, rfl⟩ .nil
    · exact iff_of_true ⟨_, rfl⟩ .nil
    · exact iff_of_false (fun ⟨_, h⟩ => by cases h) not_closesQuote_nil
    · refine iff_of_false (fun ⟨_, h⟩ => by cases h) ?_
      rcases within with _ | mark <;> rintro ⟨c, more, h, -⟩ <;> cases h
  | cons c rest ih =>
    rcases place with _ | _ | mark | _ | mark
    · rw [splitFrom, Place.Closes, isClosed_cons]
      split_ifs with hgap hescape hquote
      · exact ih _ _ .outside trivial
      · exact ih _ _ (.escape none) trivial
      · exact ih _ _ (.quote c) hquote
      · exact ih _ _ .word trivial
    · rw [splitFrom, Place.Closes, isClosed_cons]
      split_ifs with hgap hescape hquote
      · exact exists_map_ok.trans (ih _ _ .outside trivial)
      · exact ih _ _ (.escape none) trivial
      · exact ih _ _ (.quote c) hquote
      · exact ih _ _ .word trivial
    · rw [splitFrom, Place.Closes, closesQuote_cons hplace]
      split_ifs with hend hescape
      · exact ih _ _ .word trivial
      · exact ih _ _ (.escape (some mark)) (beq_iff_eq.mp (Bool.and_eq_true_iff.mp hescape).2)
      · exact ih _ _ (.quote mark) hplace
    -- Whatever is escaped, the place before the escape goes on after it.
    · rw [splitFrom, ih _ _ .word trivial]
      exact ⟨fun h => ⟨c, rest, rfl, h⟩, fun ⟨_, _, heq, h⟩ => (List.cons.inj heq).2 ▸ h⟩
    · rw [splitFrom, ih _ _ (.quote mark) (congrArg isQuote hplace)]
      exact ⟨fun h => ⟨c, rest, rfl, h⟩, fun ⟨_, _, heq, h⟩ => (List.cons.inj heq).2 ▸ h⟩

/-- A command line has words if and only if all that is begun in it is ended. -/
theorem split_ok {command : String} : (∃ ws, split command = .ok ws) ↔ IsClosed command.toList :=
  splitFrom_ok [] false .outside trivial command.toList

/-! ### How many words -/

/-- Whether there is a word, begun or still to come. -/
def HasWord (isWord : Bool) (place : Place) (cs : List Char) : Prop :=
  (isWord = true ∧ place ≠ .outside) ∨ (∃ within, place = .escape within) ∨ ∃ c ∈ cs, isGap c = false

theorem hasWord_begun {place : Place} (hplace : place ≠ .outside) : HasWord true place cs :=
  Or.inl ⟨rfl, hplace⟩

theorem hasWord_escape (isWord : Bool) (within : Option Char) : HasWord isWord (.escape within) cs :=
  Or.inr (Or.inl ⟨within, rfl⟩)

/-- A gap where no word is begun is not the word that there is. -/
theorem HasWord.later {isWord : Bool} {place : Place} (hgap : isGap c = true)
    (hplace : place = .outside ∨ isWord = false ∧ place = .word) (h : HasWord isWord place (c :: cs)) :
    HasWord false .outside cs := by
  refine Or.inr (Or.inr ?_)
  rcases h with ⟨rfl, hother⟩ | ⟨within, rfl⟩ | ⟨d, hd, hshown⟩
  · rcases hplace with rfl | ⟨hnone, -⟩
    · exact absurd rfl hother
    · cases hnone
  · rcases hplace with hplace | ⟨-, hplace⟩ <;> cases hplace
  · rcases List.mem_cons.mp hd with rfl | hd
    · rw [hgap] at hshown
      cases hshown
    · exact ⟨d, hd, hshown⟩

theorem splitFrom_end_ne_nil {word : List Char} {isWord : Bool} {place : Place} {ws : List String}
    (hword : HasWord isWord place []) (h : splitFrom word isWord place [] = .ok ws) : ws ≠ [] := by
  rcases hword with ⟨rfl, hplace⟩ | ⟨within, rfl⟩ | ⟨c, hc, -⟩
  · cases place with
    | outside => exact absurd rfl hplace
    | word =>
      cases h
      exact List.cons_ne_nil _ _
    | quote mark => cases h
    | escape within => cases h
  · cases h
  · cases hc

/-- If there is a word, begun or still to come, words are found. -/
theorem splitFrom_ne_nil {word : List Char} {isWord : Bool} {place : Place} {ws : List String}
    (hword : HasWord isWord place cs) (h : splitFrom word isWord place cs = .ok ws) : ws ≠ [] := by
  induction cs generalizing word isWord place ws with
  | nil => exact splitFrom_end_ne_nil hword h
  | cons c rest ih =>
    rcases place with _ | _ | mark | _ | mark
    · rw [splitFrom] at h
      split_ifs at h with hgap hescape hquote
      · exact ih (hword.later hgap (Or.inl rfl)) h
      · exact ih (hasWord_escape _ none) h
      · exact ih (hasWord_begun (by simp)) h
      · exact ih (hasWord_begun (by simp)) h
    · rw [splitFrom] at h
      split_ifs at h with hgap hescape hquote
      · rcases hrest : splitFrom [] false .outside rest with m | found
        · rw [hrest] at h
          cases h
        · rw [hrest] at h
          cases h
          cases isWord with
          | true => exact List.cons_ne_nil _ _
          | false => exact ih (hword.later hgap (Or.inr ⟨rfl, rfl⟩)) hrest
      · exact ih (hasWord_escape _ none) h
      · exact ih (hasWord_begun (by simp)) h
      · exact ih (hasWord_begun (by simp)) h
    · rw [splitFrom] at h
      split_ifs at h with hend hescape
      · exact ih (hasWord_begun (by simp)) h
      · exact ih (hasWord_begun (by simp)) h
      · exact ih (hasWord_begun (by simp)) h
    · exact ih (hasWord_begun (by simp)) h
    · exact ih (hasWord_begun (by simp)) h

/-- A command line that is not blank has a word. -/
theorem split_ne_nil {command : String} {ws : List String} (hblank : isBlankText command = false)
    (h : split command = .ok ws) : ws ≠ [] := by
  obtain ⟨c, hc, hshown⟩ := List.all_eq_false.mp hblank
  refine splitFrom_ne_nil (Or.inr (Or.inr ⟨c, hc, ?_⟩)) h
  refine Bool.eq_false_iff.mpr fun hgap => hshown ?_
  simp only [isGap, Bool.or_eq_true, beq_iff_eq] at hgap
  rcases hgap with ((rfl | rfl) | rfl) | rfl <;> decide

/-! ### What is in the words -/

/-- Whether a character means nothing to a reader of command lines. -/
structure IsOrdinary (c : Char) : Prop where
  gap : isGap c = false
  quote : isQuote c = false
  escape : c ≠ '\\'

theorem IsOrdinary.ne_gap (hc : IsOrdinary c) {d : Char} (hd : isGap d = true) : c ≠ d := by
  rintro rfl
  exact absurd (hd.symm.trans hc.gap) (by decide)

theorem IsOrdinary.ne_quote (hc : IsOrdinary c) {d : Char} (hd : isQuote d = true) : c ≠ d := by
  rintro rfl
  exact absurd (hd.symm.trans hc.quote) (by decide)

theorem exists_mem_finish {word : List Char} {isWord : Bool} {ws : List String}
    (hword : c ∈ word → isWord = true) :
    (∃ w ∈ finish word isWord ws, c ∈ w.toList) ↔ c ∈ word ∨ ∃ w ∈ ws, c ∈ w.toList := by
  cases isWord with
  | false =>
    have hnone : c ∉ word := fun h => absurd (hword h) (by decide)
    simp [finish, hnone]
  | true => simp [finish]

/-- How a reader goes on after a character: it ends the word, or it has a word in which nothing is new but
that character, as far as an ordinary one is concerned. -/
inductive GoesOn (c : Char) (word : List Char) (isWord : Bool) (d : Char) (rest : List Char) :
    Except Malformed (List String) → Prop
  | ended (gap : isGap d = true) (begun : c ∈ word → isWord = true) :
    GoesOn c word isWord d rest ((splitFrom [] false .outside rest).map (finish word isWord))
  | within {word' : List Char} {isWord' : Bool} {place' : Place} (sound : place'.IsSound)
    (begun : c ∈ word' → isWord' = true ∧ place' ≠ .outside) (kept : c ∈ word' ↔ c ∈ word ∨ c = d) :
    GoesOn c word isWord d rest (splitFrom word' isWord' place' rest)

theorem splitFrom_goesOn (hc : IsOrdinary c) {word : List Char} {isWord : Bool} (place : Place)
    (hplace : place.IsSound) (hword : c ∈ word → isWord = true ∧ place ≠ .outside) (d : Char)
    (rest : List Char) : GoesOn c word isWord d rest (splitFrom word isWord place (d :: rest)) := by
  have hbegun : c ∈ word → isWord = true := fun hmem => (hword hmem).1
  rcases place with _ | _ | mark | _ | mark
  · have hnone : c ∉ word := fun hmem => (hword hmem).2 rfl
    rw [splitFrom]
    split_ifs with hgap hescape hquote
    · exact .within trivial (by simp) (by simp [hnone, hc.ne_gap hgap])
    · obtain rfl : d = '\\' := by simpa using hescape
      exact .within trivial (by simp) (by simp [hnone, hc.escape])
    · exact .within hquote (by simp) (by simp [hnone, hc.ne_quote hquote])
    · exact .within trivial (by simp) (by simp [hnone])
  · rw [splitFrom]
    split_ifs with hgap hescape hquote
    · exact .ended hgap hbegun
    · obtain rfl : d = '\\' := by simpa using hescape
      exact .within trivial (fun hmem => ⟨hbegun hmem, by simp⟩) (by simp [hc.escape])
    · exact .within hquote (by simp) (by simp [hc.ne_quote hquote])
    · exact .within trivial (by simp) (by simp [or_comm])
  · rw [splitFrom]
    split_ifs with hend hescape
    · obtain rfl : d = mark := by simpa using hend
      exact .within trivial (by simp) (by simp [hc.ne_quote hplace])
    · obtain ⟨rfl, hmark⟩ : d = '\\' ∧ mark = '"' := by simpa using hescape
      exact .within hmark (by simp) (by simp [hc.escape])
    · exact .within hplace (by simp) (by simp [or_comm])
  · rw [splitFrom]
    exact .within trivial (by simp) (by simp [or_comm])
  · -- An escape that is kept as it is adds a backslash, which is not ordinary.
    rw [splitFrom]
    refine .within (congrArg isQuote hplace) (by simp) ?_
    split_ifs <;> simp [hc.escape, or_comm]

/-- An ordinary character of a word that is begun, or of the rest of a command line, is in one of the words,
and no other one is. -/
theorem exists_mem_splitFrom (hc : IsOrdinary c) {word : List Char} {isWord : Bool} {ws : List String}
    (place : Place) (hplace : place.IsSound) (hword : c ∈ word → isWord = true ∧ place ≠ .outside)
    (h : splitFrom word isWord place cs = .ok ws) : (∃ w ∈ ws, c ∈ w.toList) ↔ c ∈ word ∨ c ∈ cs := by
  induction cs generalizing word isWord place ws with
  | nil =>
    cases place with
    | quote mark => cases h
    | escape within => cases h
    | _ =>
      cases h
      rw [exists_mem_finish fun hmem => (hword hmem).1]
      simp
  | cons d rest ih =>
    have hgoes := splitFrom_goesOn hc place hplace hword d rest
    generalize splitFrom word isWord place (d :: rest) = result at h hgoes
    cases hgoes with
    | ended hgap hbegun =>
      rcases hrest : splitFrom [] false .outside rest with m | found
      all_goals
        rw [hrest] at h
        cases h
      rw [exists_mem_finish hbegun, ih .outside trivial (by simp) hrest]
      simp [hc.ne_gap hgap]
    | within hsound hbegun hkept =>
      rw [ih _ hsound hbegun h, hkept, List.mem_cons, or_assoc]

/-- An ordinary character is in one of the words of a command line if and only if it is in the line. -/
theorem exists_mem_split (hc : IsOrdinary c) {command : String} {ws : List String}
    (h : split command = .ok ws) : (∃ w ∈ ws, c ∈ w.toList) ↔ c ∈ command.toList := by
  rw [exists_mem_splitFrom hc .outside trivial (by simp) h]
  simp

end ReviewGate.Text.ShellWords

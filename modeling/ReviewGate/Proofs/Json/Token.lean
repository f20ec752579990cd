import Mathlib.Tactic.SplitIfs
import ReviewGate.Proofs.Action
import ReviewGate.Proofs.Json.Grammar
import ReviewGate.Proofs.Text.Search

/-! The parts of a document that hold no other values are read exactly as they are spelled. A text ends
where its quote is; a number ends where no number goes on, so that what follows it matters. -/
namespace ReviewGate.Json

/-! ### Space -/

theorem isSpacing_takeWhile (cs : List Char) : IsSpacing (cs.takeWhile isSpace) :=
  List.all_eq_true.mp List.all_takeWhile

theorem skipSpace_cons {d : Char} (hd : isSpace d = false) (more : List Char) :
    skipSpace (d :: more) = d :: more := by
  simp [skipSpace, hd]

theorem skipSpace_append {space : List Char} (h : IsSpacing space) (cs : List Char) :
    skipSpace (space ++ cs) = skipSpace cs :=
  List.dropWhile_append_of_pos h

/-- Space is skipped up to the next character. -/
theorem skipSpace_mark {c : Char} (h : isSpace c = false) {space : List Char} (hspace : IsSpacing space)
    (rest : List Char) : skipSpace (space ++ c :: rest) = c :: rest := by
  rw [skipSpace_append hspace, skipSpace_cons h]

theorem exists_spacing {cs rest : List Char} (h : skipSpace cs = rest) :
    ∃ space, cs = space ++ rest ∧ IsSpacing space := by
  refine ⟨cs.takeWhile isSpace, ?_, isSpacing_takeWhile cs⟩
  rw [← h, skipSpace, List.takeWhile_append_dropWhile]

/-! ### Texts -/

theorem readUnits_quote (opened rest : List Char) :
    readUnits opened ('"' :: rest) = .ok ([], rest) := by
  unfold readUnits
  rfl

theorem readUnits_plain {c : Char} (hquote : c ≠ '"') (hslash : c ≠ '\\') (hlow : ¬ c.toNat < 32)
    (opened more : List Char) :
    readUnits opened (c :: more) = consUnit c.toNat (readUnits opened more) := by
  rw [readUnits.eq_def]
  simp only [hquote, hslash, hlow, if_false]

theorem readUnits_short {letter c : Char} (hletter : letter ≠ 'u') (hc : escaped? letter = some c)
    (opened more : List Char) :
    readUnits opened ('\\' :: letter :: more) = consUnit c.toNat (readUnits opened more) := by
  rw [readUnits.eq_def]
  simp [hletter, hc]

theorem consUnit_eq_ok {n : Nat} {step : Except Stop (List Nat × List Char)} {units : List Nat}
    {rest : List Char} :
    consUnit n step = .ok (units, rest) ↔ ∃ more, step = .ok (more, rest) ∧ units = n :: more := by
  simp only [consUnit, Action.except_map_eq_ok, Prod.exists, Prod.mk.injEq]
  constructor
  · rintro ⟨more, after, hstep, hunits, rfl⟩
    exact ⟨more, hstep, hunits.symm⟩
  · rintro ⟨more, hstep, hunits⟩
    exact ⟨more, rest, hstep, hunits.symm, rfl⟩

/-- The code units of a text are those that the characters up to its quote spell. -/
theorem readUnits_eq_ok {opened cs : List Char} {units : List Nat} {rest : List Char} :
    readUnits opened cs = .ok (units, rest) ↔ ∃ body, cs = body ++ '"' :: rest ∧ SpellsUnits body units := by
  constructor
  · intro h
    -- Where the reader breaks off there is no result; else it takes a character or an escape and goes on.
    fun_induction readUnits opened cs generalizing units with
    | case1 => cases h
    | case2 =>
      cases h
      exact ⟨[], rfl, .nil⟩
    | case3 => cases h
    | case4 => cases h
    | case5 => cases h
    | case6 a b c d more n quad _ _ ih =>
      obtain ⟨units, hmore, rfl⟩ := consUnit_eq_ok.mp h
      obtain ⟨body, rfl, hbody⟩ := ih hmore
      exact ⟨'\\' :: 'u' :: a :: b :: c :: d :: body, rfl, .unit quad hbody⟩
    | case7 => cases h
    | case8 letter more _ _ e he _ ih =>
      obtain ⟨units, hmore, rfl⟩ := consUnit_eq_ok.mp h
      obtain ⟨body, rfl, hbody⟩ := ih hmore
      exact ⟨'\\' :: letter :: body, rfl, .letter he hbody⟩
    | case9 => cases h
    | case10 => cases h
    | case11 c more hquote hslash hlow ih =>
      obtain ⟨units, hmore, rfl⟩ := consUnit_eq_ok.mp h
      obtain ⟨body, rfl, hbody⟩ := ih hmore
      exact ⟨c :: body, rfl, .plain hquote hslash (Nat.not_lt.mp hlow) hbody⟩
  · rintro ⟨body, rfl, hbody⟩
    induction hbody with
    | nil => exact readUnits_quote opened rest
    | plain quote slash high more ih =>
      rw [List.cons_append, readUnits_plain quote slash (Nat.not_lt.mpr high), ih]
      rfl
    | @letter letter e cs units escape more ih =>
      have hletter : letter ≠ 'u' := by
        rintro rfl
        cases escape
      rw [List.cons_append, List.cons_append, readUnits_short hletter escape, ih]
      rfl
    | unit quad more ih =>
      simp [readUnits, quad, ih]
      rfl

theorem readText_eq_ok {cs text rest : List Char} :
    readText cs = .ok (text, rest) ↔ ∃ body, cs = body ++ '"' :: rest ∧ SpellsText body text := by
  simp only [readText, Action.except_map_eq_ok, Prod.exists, Prod.mk.injEq, readUnits_eq_ok]
  constructor
  · rintro ⟨units, _, ⟨body, hcs, hbody⟩, rfl, rfl⟩
    exact ⟨body, hcs, units, hbody, rfl⟩
  · rintro ⟨body, hcs, units, hbody, rfl⟩
    exact ⟨units, rest, ⟨body, hcs, hbody⟩, rfl, rfl⟩

/-! ### Digits -/

/-- Whether no digit goes on here. -/
def EndsDigits (rest : List Char) : Prop :=
  ∀ c ∈ rest.head?, c.isDigit = false

/-- Whether no number goes on here. -/
def EndsNumber (rest : List Char) : Prop :=
  ∀ c ∈ rest.head?, c.isDigit = false ∧ c ≠ '.' ∧ c ≠ 'e' ∧ c ≠ 'E'

theorem EndsNumber.endsDigits {rest : List Char} (h : EndsNumber rest) : EndsDigits rest :=
  fun c hc => (h c hc).1

theorem digits_append {ds rest : List Char} (hds : ∀ d ∈ ds, d.isDigit = true) (hrest : EndsDigits rest) :
    digits (ds ++ rest) = (ds, rest) := by
  have hstop : rest.takeWhile Char.isDigit = [] ∧ rest.dropWhile Char.isDigit = rest := by
    cases rest with
    | nil => exact ⟨rfl, rfl⟩
    | cons c more => simp [hrest c rfl]
  rw [digits, List.takeWhile_append_of_pos hds, List.dropWhile_append_of_pos hds, hstop.1, hstop.2,
    List.append_nil]

theorem digits_eq {cs ds rest : List Char} (h : digits cs = (ds, rest)) :
    cs = ds ++ rest ∧ ∀ d ∈ ds, d.isDigit = true := by
  obtain ⟨rfl, rfl⟩ := Prod.mk.inj h
  exact ⟨List.takeWhile_append_dropWhile.symm, List.all_eq_true.mp List.all_takeWhile⟩

theorem digits_cons_eq {c : Char} {cs ds rest : List Char} (hc : c.isDigit = true)
    (h : digits (c :: cs) = (ds, rest)) : c :: cs = ds ++ rest ∧ IsDigits ds := by
  obtain ⟨hcs, hds⟩ := digits_eq h
  refine ⟨hcs, ?_, hds⟩
  intro hnil
  have htake := congrArg Prod.fst h
  simp [digits, hc, hnil] at htake

/-! ### The parts of a number -/

theorem wholePart_eq_some {cs ds rest : List Char} (h : wholePart? cs = some (ds, rest)) :
    cs = ds ++ rest ∧ IsWhole ds := by
  cases cs with
  | nil => cases h
  | cons c more =>
    simp only [wholePart?] at h
    split_ifs at h with hzero hdigit
    · cases h
      subst hzero
      have hdigits : IsDigits ['0'] := by simp [IsDigits]
      exact ⟨rfl, hdigits, fun _ => rfl⟩
    · obtain ⟨hcs, hds⟩ := digits_cons_eq hdigit (Option.some.inj h)
      refine ⟨hcs, hds, ?_⟩
      intro hhead
      obtain ⟨d, ds, rfl⟩ := List.exists_cons_of_ne_nil hds.1
      have hc : c = d := (List.cons.inj hcs).1
      exact absurd (hc.trans (Option.some.inj hhead)) hzero

theorem wholePart_append {ds rest : List Char} (hds : IsWhole ds) (hrest : EndsDigits rest) :
    wholePart? (ds ++ rest) = some (ds, rest) := by
  obtain ⟨⟨hne, hdigits⟩, hzero⟩ := hds
  obtain ⟨d, more, rfl⟩ := List.exists_cons_of_ne_nil hne
  have hrun := digits_append hdigits hrest
  simp only [List.cons_append, wholePart?] at hrun ⊢
  split_ifs with h0 hdigit
  · subst h0
    obtain rfl : more = [] := by simpa using hzero rfl
    rfl
  · rw [hrun]
  · exact absurd (hdigits d List.mem_cons_self) hdigit

theorem fractionPart_eq_some {cs ds rest : List Char} (h : fractionPart? cs = some (ds, rest)) :
    cs = '.' :: ds ++ rest ∧ IsDigits ds := by
  unfold fractionPart? at h
  split at h
  · rename_i c more
    split_ifs at h with hdigit
    obtain ⟨hcs, hds⟩ := digits_cons_eq hdigit (Option.some.inj h)
    exact ⟨congrArg ('.' :: ·) hcs, hds⟩
  · cases h

theorem fractionPart_append {ds rest : List Char} (hds : IsDigits ds) (hrest : EndsDigits rest) :
    fractionPart? ('.' :: (ds ++ rest)) = some (ds, rest) := by
  obtain ⟨hne, hdigits⟩ := hds
  obtain ⟨d, more, rfl⟩ := List.exists_cons_of_ne_nil hne
  have hrun := digits_append hdigits hrest
  have hdigit := hdigits d List.mem_cons_self
  simp only [List.cons_append] at hrun ⊢
  simp [fractionPart?, hdigit, hrun]

theorem fractionPart_none {rest : List Char} (h : ∀ c ∈ rest.head?, c ≠ '.') :
    fractionPart? rest = none := by
  unfold fractionPart?
  split
  · exact absurd rfl (h '.' rfl)
  · rfl

theorem signOf_cases (cs : List Char) :
    ∃ sign, (sign = [] ∨ sign = ['+'] ∨ sign = ['-']) ∧ cs = sign ++ (Number.signOf cs).2 ∧
      ((Number.signOf cs).1 = true ↔ sign = ['-']) := by
  unfold Number.signOf
  split
  · exact ⟨['-'], by simp, rfl, by simp⟩
  · exact ⟨['+'], by simp, rfl, by simp⟩
  · exact ⟨[], by simp, rfl, by simp⟩

theorem signOf_append {sign ds : List Char} (hsign : sign = [] ∨ sign = ['+'] ∨ sign = ['-'])
    (hds : IsDigits ds) (rest : List Char) :
    Number.signOf (sign ++ (ds ++ rest)) = (decide (sign = ['-']), ds ++ rest) := by
  obtain rfl | rfl | rfl := hsign
  · obtain ⟨d, more, rfl⟩ := List.exists_cons_of_ne_nil hds.1
    have hd := hds.2 d List.mem_cons_self
    have hplus : d ≠ '+' := ne_of_isDigit hd (by decide)
    have hminus : d ≠ '-' := ne_of_isDigit hd (by decide)
    simp [Number.signOf, hplus, hminus]
  · rfl
  · rfl

theorem exponentPart_eq_some {cs rest : List Char} {n : Int} (h : exponentPart? cs = some (n, rest)) :
    ∃ used, cs = used ++ rest ∧ SpellsExponent used (some n) := by
  cases cs with
  | nil => cases h
  | cons c more =>
    simp only [exponentPart?] at h
    by_cases hletter : c = 'e' ∨ c = 'E'
    · rw [if_pos (by simpa using hletter)] at h
      obtain ⟨sign, hsign, hmore, hminus⟩ := signOf_cases more
      split at h
      · cases h
      · rename_i found after hfound hdigits
        cases h
        obtain ⟨hrest, hall⟩ := digits_eq hdigits
        have hne : found ≠ [] := by
          intro hnil
          subst hnil
          exact hfound rfl
        refine ⟨c :: (sign ++ found), ?_, ?_⟩
        · rw [List.cons_append, List.append_assoc, ← hrest, ← hmore]
        · have hsome := SpellsExponent.some hletter hsign ⟨hne, hall⟩
          simpa only [hminus] using hsome
    · rw [if_neg (by simpa using hletter)] at h
      cases h

theorem exponentPart_append {used rest : List Char} {n : Int} (h : SpellsExponent used (some n))
    (hrest : EndsDigits rest) : exponentPart? (used ++ rest) = some (n, rest) := by
  cases h with
  | @some letter sign ds exponent signed digits =>
    have hsign := signOf_append signed digits rest
    have hrun := digits_append digits.2 hrest
    obtain ⟨d, more, rfl⟩ := List.exists_cons_of_ne_nil digits.1
    simp only [List.cons_append, List.append_assoc] at hrun hsign ⊢
    simp [exponentPart?, exponent, hsign, hrun]

theorem exponentPart_none {rest : List Char} (h : ∀ c ∈ rest.head?, c ≠ 'e' ∧ c ≠ 'E') :
    exponentPart? rest = none := by
  cases rest with
  | nil => rfl
  | cons c more => simp [exponentPart?, h c rfl]

/-! Either part may be missing, and then nothing is taken for it. -/

theorem fractionPart_cases (cs : List Char) :
    ∃ fs rest fraction, cs = fs ++ rest ∧ SpellsFraction fs fraction ∧
      fractionPart? cs = fraction.map (·, rest) := by
  cases h : fractionPart? cs with
  | none => exact ⟨[], cs, none, rfl, .none, rfl⟩
  | some found =>
    obtain ⟨hcs, hds⟩ := fractionPart_eq_some h
    exact ⟨'.' :: found.1, found.2, some found.1, hcs, .some hds, rfl⟩

theorem exponentPart_cases (cs : List Char) :
    ∃ es rest exponent, cs = es ++ rest ∧ SpellsExponent es exponent ∧
      exponentPart? cs = exponent.map (·, rest) := by
  cases h : exponentPart? cs with
  | none => exact ⟨[], cs, none, rfl, .none, rfl⟩
  | some found =>
    obtain ⟨es, hcs, hes⟩ := exponentPart_eq_some h
    exact ⟨es, found.2, some found.1, hcs, hes, rfl⟩

section

variable {fs es rest : List Char} {fraction : Option (List Char)} {exponent : Option Int}

theorem SpellsFraction.endsDigits (h : SpellsFraction fs fraction) (hrest : EndsDigits rest) :
    EndsDigits (fs ++ rest) := by
  cases h with
  | none => exact hrest
  | some digits =>
    intro c hc
    cases hc
    decide

theorem SpellsExponent.endsDigits (h : SpellsExponent es exponent) (hrest : EndsDigits rest) :
    EndsDigits (es ++ rest) := by
  cases h with
  | none => exact hrest
  | some exponent =>
    intro c hc
    cases hc
    obtain rfl | rfl := exponent <;> decide

theorem SpellsExponent.ne_point (h : SpellsExponent es exponent) (hrest : EndsNumber rest) :
    ∀ c ∈ (es ++ rest).head?, c ≠ '.' := by
  cases h with
  | none => exact fun c hc => (hrest c hc).2.1
  | some exponent =>
    intro c hc
    cases hc
    obtain rfl | rfl := exponent <;> decide

theorem fractionPart_spelled (h : SpellsFraction fs fraction) (hrest : EndsDigits rest)
    (hpoint : ∀ c ∈ rest.head?, c ≠ '.') : fractionPart? (fs ++ rest) = fraction.map (·, rest) := by
  cases h with
  | none => exact fractionPart_none hpoint
  | some digits => exact fractionPart_append digits hrest

theorem exponentPart_spelled (h : SpellsExponent es exponent) (hrest : EndsNumber rest) :
    exponentPart? (es ++ rest) = exponent.map (·, rest) := by
  cases exponent with
  | none =>
    cases h
    exact exponentPart_none fun c hc => (hrest c hc).2.2
  | some n => exact exponentPart_append h hrest.endsDigits

end

/-! ### Numbers -/

/-- What is made of the parts of a number. -/
theorem readNumber_eq {cs unsigned whole fs es rest : List Char} {negative : Bool}
    {fraction : Option (List Char)} {exponent : Option Int} (hminus : minusOf cs = (negative, unsigned))
    (hwhole : wholePart? unsigned = some (whole, fs ++ (es ++ rest))) (hfs : SpellsFraction fs fraction)
    (hfraction : fractionPart? (fs ++ (es ++ rest)) = fraction.map (·, es ++ rest))
    (hes : SpellsExponent es exponent) (hexponent : exponentPart? (es ++ rest) = exponent.map (·, rest)) :
    readNumber? cs = some (match quantity? negative whole fraction exponent with
      | some v => .ok (v, rest)
      | none => .error (.number (.tooLongToRead whole.length))) := by
  simp only [readNumber?, hminus, hwhole, Option.bind_eq_bind, Option.bind_some, hfraction]
  cases fraction with
  | none =>
    cases hfs
    cases exponent with
    | none =>
      cases hes
      simp only [Option.map_none, List.nil_append] at hexponent ⊢
      simp only [hexponent, quantity?]
      by_cases hlong : Number.digitLimit < whole.length
      · simp [hlong]
      · simp [hlong]
    | some n =>
      simp only [Option.map_none, Option.map_some, List.nil_append] at hexponent ⊢
      simp [hexponent, quantity?]
  | some ds =>
    cases exponent with
    | none =>
      cases hes
      simp only [Option.map_none, Option.map_some, List.nil_append] at hexponent ⊢
      simp [hexponent, quantity?]
    | some n =>
      simp only [Option.map_some] at hexponent ⊢
      simp [hexponent, quantity?]

theorem minusOf_eq {cs unsigned : List Char} {negative : Bool} (h : minusOf cs = (negative, unsigned)) :
    cs = (if negative then ['-'] else []) ++ unsigned := by
  unfold minusOf at h
  split at h <;> cases h <;> rfl

theorem minusOf_append (negative : Bool) {whole : List Char} (hwhole : IsWhole whole) (rest : List Char) :
    minusOf ((if negative then ['-'] else []) ++ (whole ++ rest)) = (negative, whole ++ rest) := by
  obtain ⟨d, more, rfl⟩ := List.exists_cons_of_ne_nil hwhole.digits.1
  have hd : d ≠ '-' := ne_of_isDigit (hwhole.digits.2 d List.mem_cons_self) (by decide)
  cases negative <;> simp [minusOf, hd]

theorem readNumber_eq_some {cs rest : List Char} {v : Value} (h : readNumber? cs = some (.ok (v, rest))) :
    ∃ used, cs = used ++ rest ∧ SpellsNumber used v := by
  obtain ⟨negative, unsigned, hminus⟩ : ∃ negative unsigned, minusOf cs = (negative, unsigned) :=
    ⟨_, _, rfl⟩
  rcases hwhole : wholePart? unsigned with _ | ⟨whole, behind⟩
  · simp [readNumber?, hminus, hwhole] at h
  · obtain ⟨hunsigned, hw⟩ := wholePart_eq_some hwhole
    obtain ⟨fs, after, fraction, rfl, hf, hfraction⟩ := fractionPart_cases behind
    obtain ⟨es, last, exponent, rfl, he, hexponent⟩ := exponentPart_cases after
    rw [readNumber_eq hminus hwhole hf hfraction he hexponent] at h
    cases hv : quantity? negative whole fraction exponent with
    | none =>
      rw [hv] at h
      cases h
    | some w =>
      rw [hv] at h
      cases h
      refine ⟨_, ?_, .mk hw hf he hv⟩
      rw [minusOf_eq hminus, hunsigned]
      simp only [List.append_assoc]

/-- A number is read up to where it ends. -/
theorem readNumber_append {cs : List Char} {v : Value} (h : SpellsNumber cs v) {rest : List Char}
    (hrest : EndsNumber rest) : readNumber? (cs ++ rest) = some (.ok (v, rest)) := by
  cases h with
  | @mk negative whole fs es fraction exponent v before behind power value =>
    have hends : EndsDigits (es ++ rest) := power.endsDigits hrest.endsDigits
    have hminus := minusOf_append negative before (fs ++ (es ++ rest))
    have hwhole := wholePart_append before (behind.endsDigits hends)
    have hfraction := fractionPart_spelled behind hends (power.ne_point hrest)
    have hexponent := exponentPart_spelled power hrest
    simp only [List.append_assoc]
    rw [readNumber_eq hminus hwhole behind hfraction power hexponent, value]

/-! ### Names -/

theorem readName_eq_some {cs rest : List Char} {v : Value} (h : readName? cs = some (v, rest)) :
    ∃ name, (name, v) ∈ names ∧ cs = name ++ rest := by
  obtain ⟨⟨name, w⟩, hname, hfound⟩ := List.exists_of_findSome?_eq_some h
  obtain ⟨more, hmore, hpair⟩ := Option.map_eq_some_iff.mp hfound
  cases hpair
  exact ⟨name, hname, Text.dropStart_eq_some.mp hmore⟩

theorem readName_append {cs : List Char} {v : Value} (h : (cs, v) ∈ names) (rest : List Char) :
    readName? (cs ++ rest) = some (v, rest) := by
  simp only [names, List.mem_cons, Prod.mk.injEq, List.not_mem_nil, or_false] at h
  obtain ⟨rfl, rfl⟩ | ⟨rfl, rfl⟩ | ⟨rfl, rfl⟩ | ⟨rfl, rfl⟩ | ⟨rfl, rfl⟩ | ⟨rfl, rfl⟩ := h
  all_goals rfl

/-- No number is taken for a name, not even for the one that starts with a minus sign. -/
theorem readName_number {cs : List Char} {v : Value} (h : SpellsNumber cs v) (rest : List Char) :
    readName? (cs ++ rest) = none := by
  have hne : ∀ {c d : Char}, d.isDigit = true → c.isDigit = false → c ≠ d :=
    fun hd hc => (ne_of_isDigit hd hc).symm
  obtain ⟨d, more, rfl, hd⟩ | ⟨d, more, rfl, hd⟩ := h.start
  · have hn : 'n' ≠ d := hne hd (by decide)
    have ht : 't' ≠ d := hne hd (by decide)
    have hf : 'f' ≠ d := hne hd (by decide)
    have hN : 'N' ≠ d := hne hd (by decide)
    have hI : 'I' ≠ d := hne hd (by decide)
    have hminus : '-' ≠ d := hne hd (by decide)
    simp [readName?, names, Text.dropStart?, hn, ht, hf, hN, hI, hminus]
  · have hI : 'I' ≠ d := hne hd (by decide)
    simp [readName?, names, Text.dropStart?, hI]

end ReviewGate.Json

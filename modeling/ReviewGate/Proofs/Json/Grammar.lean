import ReviewGate.Json.Reader

/-! JSON as a grammar: which characters stand for which value, if there is a given room for brackets.
Nothing here says how they are read. The grammar has what is read beyond the standard, the names of
quantities that are not finite, and a whole number with too many digits stands for nothing. A row of items
or entries has at least one of them, so that no comma stands before a bracket. -/
namespace ReviewGate.Json

/-! ### Space -/

def IsSpacing (cs : List Char) : Prop :=
  ∀ c ∈ cs, isSpace c = true

theorem isSpacing_nil : IsSpacing [] := by
  simp [IsSpacing]

theorem IsSpacing.append {cs ds : List Char} (hcs : IsSpacing cs) (hds : IsSpacing ds) :
    IsSpacing (cs ++ ds) := by
  intro c hc
  cases List.mem_append.mp hc with
  | inl hc => exact hcs c hc
  | inr hc => exact hds c hc

/-! ### Texts -/

/-- The code units that the characters between two quotes stand for. -/
inductive SpellsUnits : List Char → List Nat → Prop
  | nil : SpellsUnits [] []
  | plain {c : Char} {cs : List Char} {units : List Nat} (quote : c ≠ '"') (slash : c ≠ '\\')
    (high : 32 ≤ c.toNat) (more : SpellsUnits cs units) : SpellsUnits (c :: cs) (c.toNat :: units)
  | letter {letter e : Char} {cs : List Char} {units : List Nat} (escape : escaped? letter = some e)
    (more : SpellsUnits cs units) : SpellsUnits ('\\' :: letter :: cs) (e.toNat :: units)
  | unit {a b c d : Char} {n : Nat} {cs : List Char} {units : List Nat}
    (quad : hexQuad? a b c d = some n) (more : SpellsUnits cs units) :
    SpellsUnits ('\\' :: 'u' :: a :: b :: c :: d :: cs) (n :: units)

/-- The text that the characters between two quotes stand for. -/
def SpellsText (cs text : List Char) : Prop :=
  ∃ units, SpellsUnits cs units ∧ text = unitChars units

/-! ### Numbers -/

def IsDigits (ds : List Char) : Prop :=
  ds ≠ [] ∧ ∀ d ∈ ds, d.isDigit = true

/-- Whether characters are the digits before a point: a zero at the start stands alone. -/
structure IsWhole (ds : List Char) : Prop where
  digits : IsDigits ds
  zero : ds.head? = some '0' → ds = ['0']

/-- The digits behind a point, if there is one. -/
inductive SpellsFraction : List Char → Option (List Char) → Prop
  | none : SpellsFraction [] none
  | some {ds : List Char} (digits : IsDigits ds) : SpellsFraction ('.' :: ds) (some ds)

/-- The power of ten behind a letter, if there is one. -/
inductive SpellsExponent : List Char → Option Int → Prop
  | none : SpellsExponent [] none
  | some {letter : Char} {sign ds : List Char} (exponent : letter = 'e' ∨ letter = 'E')
    (signed : sign = [] ∨ sign = ['+'] ∨ sign = ['-']) (digits : IsDigits ds) :
    SpellsExponent (letter :: (sign ++ ds))
      (some (if sign = ['-'] then -(Nat.ofDigitChars 10 ds 0 : Int) else Nat.ofDigitChars 10 ds 0))

/-- The value of a number with the given parts. -/
def quantity? (negative : Bool) (whole : List Char) : Option (List Char) → Option Int → Option Value
  | none, none =>
    if Number.digitLimit < whole.length then none
    else
      some (.int (if negative then -(Nat.ofDigitChars 10 whole 0 : Int) else Nat.ofDigitChars 10 whole 0))
  | fraction, exponent =>
    let digits := fraction.getD []
    some (.float (Number.nearestDecimal negative (Nat.ofDigitChars 10 (whole ++ digits) 0)
      (exponent.getD 0 - digits.length)))

/-- The values that characters stand for as numbers. -/
inductive SpellsNumber : List Char → Value → Prop
  | mk {negative : Bool} {whole fs es : List Char} {fraction : Option (List Char)}
    {exponent : Option Int} {v : Value} (before : IsWhole whole) (behind : SpellsFraction fs fraction)
    (power : SpellsExponent es exponent) (value : quantity? negative whole fraction exponent = some v) :
    SpellsNumber ((if negative then ['-'] else []) ++ (whole ++ (fs ++ es))) v

/-! ### Values -/

mutual

/-- The values that characters stand for where there is some room. -/
inductive Spells : Room → List Char → Value → Prop
  | name {room : Room} {cs : List Char} {v : Value} (named : (cs, v) ∈ names) : Spells room cs v
  | number {room : Room} {cs : List Char} {v : Value} (number : SpellsNumber cs v) : Spells room cs v
  | text {room : Room} {body text : List Char} (quoted : SpellsText body text) :
    Spells room ('"' :: (body ++ ['"'])) (.str (String.ofList text))
  | noItems {room inner : Room} {space : List Char} (fits : room.inside? = some inner)
    (blank : IsSpacing space) : Spells room ('[' :: (space ++ [']'])) (.list [])
  | list {room inner : Room} {cs : List Char} {items : List Value} (fits : room.inside? = some inner)
    (row : SpellsItems inner cs items) : Spells room ('[' :: (cs ++ [']'])) (.list items)
  | noEntries {room inner : Room} {space : List Char} (fits : room.inside? = some inner)
    (blank : IsSpacing space) : Spells room ('{' :: (space ++ ['}'])) (.map [])
  | map {room inner : Room} {cs : List Char} {entries : List (Value × Value)}
    (fits : room.inside? = some inner) (row : SpellsEntries inner cs entries) :
    Spells room ('{' :: (cs ++ ['}'])) (.map (Value.entriesOf entries))

/-- The items that characters between two brackets stand for. -/
inductive SpellsItems : Room → List Char → List Value → Prop
  | lastItem {room : Room} {before cs behind : List Char} {v : Value} (blankBefore : IsSpacing before)
    (value : Spells room cs v) (blankBehind : IsSpacing behind) :
    SpellsItems room (before ++ (cs ++ behind)) [v]
  | moreItems {room : Room} {before cs behind ds : List Char} {v : Value} {items : List Value}
    (blankBefore : IsSpacing before) (value : Spells room cs v) (blankBehind : IsSpacing behind)
    (row : SpellsItems room ds items) :
    SpellsItems room (before ++ (cs ++ (behind ++ ',' :: ds))) (v :: items)

/-- A key and its value. -/
inductive SpellsEntry : Room → List Char → Value × Value → Prop
  | mk {room : Room} {before body key middle space cs behind : List Char} {v : Value}
    (blankBefore : IsSpacing before) (quoted : SpellsText body key) (blankMiddle : IsSpacing middle)
    (blank : IsSpacing space) (value : Spells room cs v) (blankBehind : IsSpacing behind) :
    SpellsEntry room (before ++ '"' :: (body ++ '"' :: (middle ++ ':' :: (space ++ (cs ++ behind)))))
      (.str (String.ofList key), v)

/-- The entries that characters between two braces stand for. -/
inductive SpellsEntries : Room → List Char → List (Value × Value) → Prop
  | lastEntry {room : Room} {cs : List Char} {e : Value × Value} (entry : SpellsEntry room cs e) :
    SpellsEntries room cs [e]
  | moreEntries {room : Room} {cs ds : List Char} {e : Value × Value} {entries : List (Value × Value)}
    (entry : SpellsEntry room cs e) (row : SpellsEntries room ds entries) :
    SpellsEntries room (cs ++ ',' :: ds) (e :: entries)

end

/-- The values that a document stands for where there is some room. -/
def SpellsDocument (room : Room) (cs : List Char) (v : Value) : Prop :=
  ∃ before body behind, cs = before ++ (body ++ behind) ∧ IsSpacing before ∧ Spells room body v ∧
    IsSpacing behind

variable {room : Room}

/-! ### Space in front -/

theorem SpellsItems.space {space cs : List Char} {items : List Value} (hspace : IsSpacing space)
    (h : SpellsItems room cs items) : SpellsItems room (space ++ cs) items := by
  cases h with
  | lastItem blankBefore value blankBehind =>
    rw [← List.append_assoc]
    exact .lastItem (hspace.append blankBefore) value blankBehind
  | moreItems blankBefore value blankBehind row =>
    rw [← List.append_assoc]
    exact .moreItems (hspace.append blankBefore) value blankBehind row

theorem SpellsEntry.space {space cs : List Char} {e : Value × Value} (hspace : IsSpacing space)
    (h : SpellsEntry room cs e) : SpellsEntry room (space ++ cs) e := by
  cases h with
  | mk blankBefore quoted blankMiddle blank value blankBehind =>
    rw [← List.append_assoc]
    exact .mk (hspace.append blankBefore) quoted blankMiddle blank value blankBehind

theorem SpellsEntries.space {space cs : List Char} {entries : List (Value × Value)}
    (hspace : IsSpacing space) (h : SpellsEntries room cs entries) :
    SpellsEntries room (space ++ cs) entries := by
  cases h with
  | lastEntry entry => exact .lastEntry (entry.space hspace)
  | moreEntries entry row =>
    rw [← List.append_assoc]
    exact .moreEntries (entry.space hspace) row

/-! ### Starts -/

/-- Whether a value can start with a character: it is neither space nor an end, nor a mark of the order of
bytes. -/
structure IsStart (c : Char) : Prop where
  ink : isSpace c = false
  bracket : c ≠ ']'
  brace : c ≠ '}'
  mark : c ≠ '\uFEFF'

theorem ne_of_isDigit {c d : Char} (hc : c.isDigit = true) (hd : d.isDigit = false) : c ≠ d := by
  intro h
  rw [h, hd] at hc
  cases hc

theorem isStart_digit {c : Char} (h : c.isDigit = true) : IsStart c := by
  constructor
  · have hspace : c ≠ ' ' := ne_of_isDigit h (by decide)
    have htab : c ≠ '\t' := ne_of_isDigit h (by decide)
    have hfeed : c ≠ '\n' := ne_of_isDigit h (by decide)
    have hreturn : c ≠ '\r' := ne_of_isDigit h (by decide)
    simp [isSpace, hspace, htab, hfeed, hreturn]
  · exact ne_of_isDigit h (by decide)
  · exact ne_of_isDigit h (by decide)
  · exact ne_of_isDigit h (by decide)

/-- A number starts with a digit, or with a minus sign and a digit. -/
theorem SpellsNumber.start {cs : List Char} {v : Value} (h : SpellsNumber cs v) :
    (∃ d more, cs = d :: more ∧ d.isDigit = true) ∨
      ∃ d more, cs = '-' :: d :: more ∧ d.isDigit = true := by
  cases h with
  | @mk negative whole fs es fraction exponent v before =>
    obtain ⟨d, more, rfl⟩ := List.exists_cons_of_ne_nil before.digits.1
    have hd := before.digits.2 d List.mem_cons_self
    cases negative with
    | false => exact Or.inl ⟨d, _, rfl, hd⟩
    | true => exact Or.inr ⟨d, _, rfl, hd⟩

theorem exists_start_of_mem_names {cs : List Char} {v : Value} (h : (cs, v) ∈ names) :
    ∃ c more, cs = c :: more ∧ c ∈ ['n', 't', 'f', 'N', 'I', '-'] := by
  simp only [names, List.mem_cons, Prod.mk.injEq, List.not_mem_nil, or_false] at h
  obtain ⟨rfl, -⟩ | ⟨rfl, -⟩ | ⟨rfl, -⟩ | ⟨rfl, -⟩ | ⟨rfl, -⟩ | ⟨rfl, -⟩ := h
  all_goals exact ⟨_, _, rfl, by decide⟩

theorem Spells.start {cs : List Char} {v : Value} (h : Spells room cs v) :
    ∃ c more, cs = c :: more ∧ IsStart c := by
  cases h with
  | name named =>
    obtain ⟨c, more, rfl, hc⟩ := exists_start_of_mem_names named
    refine ⟨c, more, rfl, ?_⟩
    simp only [List.mem_cons, List.not_mem_nil, or_false] at hc
    obtain rfl | rfl | rfl | rfl | rfl | rfl := hc
    all_goals constructor <;> decide
  | number number =>
    obtain ⟨d, more, rfl, hd⟩ | ⟨d, more, rfl, -⟩ := number.start
    · exact ⟨d, more, rfl, isStart_digit hd⟩
    · exact ⟨'-', d :: more, rfl, by constructor <;> decide⟩
  | text | noItems | list | noEntries | map => exact ⟨_, _, rfl, by constructor <;> decide⟩

end ReviewGate.Json

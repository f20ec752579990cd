import Mathlib.Tactic.SplitIfs
import ReviewGate.Json.Writer
import ReviewGate.Proofs.Json.Document
import ReviewGate.Proofs.Number.Integer

/-! Reading back what has been written as JSON: what is written for a value spells it wherever there is
room for as many levels as the value has. -/
namespace ReviewGate.Json

/-! Texts: each character is written as its code units, and code units that come from characters give
them back. -/

/-- The code units of a character. -/
def charUnits (c : Char) : List Nat :=
  if c.toNat < 0x10000 then [c.toNat]
  else [0xD800 + (c.toNat - 0x10000) / 1024, 0xDC00 + (c.toNat - 0x10000) % 1024]

private theorem toNat_range (c : Char) :
    c.toNat < 0xD800 ∨ (0xDFFF < c.toNat ∧ c.toNat < 0x110000) :=
  c.valid

private theorem unitChars_cons {n : Nat} (units : List Nat) (hn : isHighHalf n = false) :
    unitChars (n :: units) = unitChar n :: unitChars units := by
  cases units with
  | nil => rfl
  | cons low rest => simp [unitChars, hn]

private theorem isHighHalf_toNat (c : Char) : isHighHalf c.toNat = false := by
  have := toNat_range c
  simp [isHighHalf]
  omega

private theorem isLowHalf_toNat (c : Char) : isLowHalf c.toNat = false := by
  have := toNat_range c
  simp [isLowHalf]
  omega

theorem unitChars_charUnits (c : Char) (units : List Nat) :
    unitChars (charUnits c ++ units) = c :: unitChars units := by
  have hc := toNat_range c
  unfold charUnits
  split_ifs with h
  · rw [List.singleton_append, unitChars_cons units (isHighHalf_toNat c)]
    simp [unitChar, isHighHalf_toNat, isLowHalf_toNat, Char.ofNat_toNat]
  · have hhigh : isHighHalf (0xD800 + (c.toNat - 0x10000) / 1024) = true := by
      simp [isHighHalf]
      omega
    have hlow : isLowHalf (0xDC00 + (c.toNat - 0x10000) % 1024) = true := by
      simp [isLowHalf]
      omega
    have hpair : pairChar (0xD800 + (c.toNat - 0x10000) / 1024)
        (0xDC00 + (c.toNat - 0x10000) % 1024) = c := by
      unfold pairChar
      rw [show 0x10000 + (0xD800 + (c.toNat - 0x10000) / 1024 - 0xD800) * 1024 +
        (0xDC00 + (c.toNat - 0x10000) % 1024 - 0xDC00) = c.toNat by omega, Char.ofNat_toNat]
    simp [unitChars, hhigh, hlow, hpair]

theorem unitChars_flatMap_charUnits (cs : List Char) : unitChars (cs.flatMap charUnits) = cs := by
  induction cs with
  | nil => rfl
  | cons c cs ih => rw [List.flatMap_cons, unitChars_charUnits, ih]

private theorem hexValue_hexDigit {n : Nat} (hn : n < 16) : hexValue? (Text.hexDigit n) = some n := by
  have hall : ∀ m, m < 16 → hexValue? (Text.hexDigit m) = some m := by decide
  exact hall n hn

private theorem hexQuad_hexDigits {n : Nat} (hn : n < 0x10000) :
    hexQuad? (Text.hexDigit (n / 16 / 16 / 16 % 16)) (Text.hexDigit (n / 16 / 16 % 16))
      (Text.hexDigit (n / 16 % 16)) (Text.hexDigit (n % 16)) = some n := by
  unfold hexQuad?
  rw [hexValue_hexDigit (by omega), hexValue_hexDigit (by omega), hexValue_hexDigit (by omega),
    hexValue_hexDigit (by omega)]
  simp
  omega

private theorem spellsUnits_unitEscape {n : Nat} (hn : n < 0x10000) {cs : List Char} {units : List Nat}
    (h : SpellsUnits cs units) : SpellsUnits (unitEscape n ++ cs) (n :: units) := by
  simpa [unitEscape, Text.hexDigits] using SpellsUnits.unit (hexQuad_hexDigits hn) h

/-- The characters that are written as a letter after a backslash, with their letters. -/
private def letters : List (Char × Char) :=
  [('"', '"'), ('\\', '\\'), ('\n', 'n'), ('\r', 'r'), ('\t', 't'), ('\x0c', 'f'), ('\x08', 'b')]

private theorem forall_letters {f : Char × Char → Bool} (h : letters.all f = true) {x : Char × Char}
    (hx : x ∈ letters) : f x = true :=
  List.all_eq_true.mp h x hx

/-- How a character is written: by a letter after a backslash, as it is, or by its code units. -/
private theorem writtenChar_cases (c : Char) :
    (∃ letter, (c, letter) ∈ letters ∧ writtenChar c = ['\\', letter]) ∨
    (c ≠ '"' ∧ c ≠ '\\' ∧ 32 ≤ c.toNat ∧ c.toNat < 127 ∧ writtenChar c = [c]) ∨
    writtenChar c = (charUnits c).flatMap unitEscape := by
  by_cases hshort : c ∈ letters.map Prod.fst
  · obtain ⟨⟨c, letter⟩, hletter, rfl⟩ := List.mem_map.mp hshort
    have hall : (writtenChar c == ['\\', letter]) = true :=
      forall_letters (f := fun x => writtenChar x.1 == ['\\', x.2]) (by decide) hletter
    exact Or.inl ⟨letter, hletter, by simpa using hall⟩
  · simp only [letters, List.map_cons, List.map_nil, List.mem_cons, List.not_mem_nil, or_false,
      not_or] at hshort
    obtain ⟨hquote, hslash, hfeed, hreturn, htab, hform, hback⟩ := hshort
    rw [writtenChar, if_neg hquote, if_neg hslash, if_neg hfeed, if_neg hreturn, if_neg htab,
      if_neg hform, if_neg hback, charUnits]
    by_cases hplain : 32 ≤ c.toNat ∧ c.toNat < 127
    · exact Or.inr (Or.inl ⟨hquote, hslash, hplain.1, hplain.2, if_pos (by simpa using hplain)⟩)
    · rw [if_neg (by simpa using hplain)]
      split_ifs
      · exact Or.inr (Or.inr (List.append_nil _).symm)
      · exact Or.inr (Or.inr (by simp))

/-- A written character spells its code units. -/
theorem spellsUnits_writtenChar (c : Char) {cs : List Char} {units : List Nat} (h : SpellsUnits cs units) :
    SpellsUnits (writtenChar c ++ cs) (charUnits c ++ units) := by
  have hc := toNat_range c
  obtain ⟨letter, hletter, hwritten⟩ | ⟨hquote, hslash, hlow, hhigh, hwritten⟩ | hwritten :=
    writtenChar_cases c
  · have hall : (escaped? letter == some c && decide (c.toNat < 0x10000)) = true :=
      forall_letters (f := fun x => escaped? x.2 == some x.1 && decide (x.1.toNat < 0x10000)) (by decide)
        hletter
    simp only [Bool.and_eq_true, beq_iff_eq, decide_eq_true_eq] at hall
    rw [hwritten, charUnits, if_pos hall.2]
    exact .letter hall.1 h
  · rw [hwritten, charUnits, if_pos (by omega)]
    exact .plain hquote hslash hlow h
  · rw [hwritten]
    unfold charUnits
    split_ifs with hwide
    · rw [List.flatMap_singleton]
      exact spellsUnits_unitEscape hwide h
    · rw [List.flatMap_cons, List.flatMap_singleton, List.append_assoc]
      exact spellsUnits_unitEscape (by omega) (spellsUnits_unitEscape (by omega) h)

/-- A written text is spelled by its characters, whatever they are. -/
theorem spellsText_written (cs : List Char) : SpellsText (cs.flatMap writtenChar) cs := by
  have hunits : SpellsUnits (cs.flatMap writtenChar) (cs.flatMap charUnits) := by
    induction cs with
    | nil => exact .nil
    | cons c cs ih => exact spellsUnits_writtenChar c ih
  exact ⟨_, hunits, (unitChars_flatMap_charUnits cs).symm⟩

/-! Numbers: a whole one that is not too long is written without a fraction. -/

private theorem isWhole_toDigits (n : Nat) : IsWhole (Nat.toDigits 10 n) := by
  have hdigits : ∀ d ∈ Nat.toDigits 10 n, d.isDigit = true := fun d => Number.isDigit_of_mem_toDigits
  refine ⟨⟨Nat.toDigits_ne_nil, hdigits⟩, ?_⟩
  intro hzero
  rcases Nat.eq_zero_or_pos n with rfl | hn
  · rfl
  · obtain ⟨d, more, hds, hd⟩ := Number.toDigits_head hn
    rw [hds] at hzero
    exact absurd (Option.some.inj hzero) hd

theorem spellsNumber_intChars {n : Int} (hn : Number.IsShort n) :
    SpellsNumber (Number.intChars n) (.int n) := by
  have hvalue : quantity? (decide (n < 0)) (Nat.toDigits 10 n.natAbs) none none = some (.int n) := by
    have hle : ¬ Number.digitLimit < (Nat.toDigits 10 n.natAbs).length := Nat.not_lt.mpr hn
    simpa [quantity?, hle, Nat.ofDigitChars_ten_toDigits] using Number.signed_natAbs n
  have hspelled := SpellsNumber.mk (isWhole_toDigits n.natAbs) .none .none hvalue
  simpa [Number.intChars_eq] using hspelled

/-! Values with other values in them. -/

mutual

/-- Whether a value is what is read from its own JSON: a name, a whole number, a text, or a list or a
map of such values in which no two keys are the same. -/
def IsPlain : Value → Prop
  | .null => True
  | .bool _ => True
  | .int n => Number.IsShort n
  | .str _ => True
  | .list items => ArePlain items
  | .map entries => ArePlainEntries entries
  | .float _ => False
  | .bytes _ => False
  | .tuple _ => False
  | .set _ => False
  | .date .. => False
  | .time _ => False
  | .loop _ => False

def ArePlain : List Value → Prop
  | [] => True
  | v :: more => IsPlain v ∧ ArePlain more

def ArePlainEntries : List (Value × Value) → Prop
  | [] => True
  | (k, v) :: more =>
    (∃ s, k = .str s ∧ ∀ e ∈ more, e.1 ≠ .str s) ∧ IsPlain v ∧ ArePlainEntries more

end

mutual

/-- How many levels of lists and maps a value has. -/
def depth : Value → Nat
  | .list items => depthOfItems items + 1
  | .map entries => depthOfEntries entries + 1
  | _ => 0

def depthOfItems : List Value → Nat
  | [] => 0
  | v :: more => max (depth v) (depthOfItems more)

def depthOfEntries : List (Value × Value) → Nat
  | [] => 0
  | (_, v) :: more => max (depth v) (depthOfEntries more)

end

theorem depthOfItems_le {items : List Value} {n : Nat} (h : ∀ v ∈ items, depth v ≤ n) :
    depthOfItems items ≤ n := by
  induction items with
  | nil => exact Nat.zero_le n
  | cons v more ih => exact Nat.max_le.mpr ⟨h v (by simp), ih fun w hw => h w (by simp [hw])⟩

/-- Whether there is room for some number of levels. -/
def Room.Takes : Room → Nat → Prop
  | endless, _ => True
  | levels count, n => n ≤ count

theorem Room.takes_endless (n : Nat) : endless.Takes n :=
  trivial

theorem Room.Takes.mono {room : Room} {m n : Nat} (h : room.Takes n) (hle : m ≤ n) : room.Takes m := by
  cases room with
  | endless => trivial
  | levels count => exact Nat.le_trans hle h

/-- Where there is room for a level, there is room inside of a bracket for the levels below it. -/
theorem Room.Takes.exists_inside {room : Room} {n : Nat} (h : room.Takes (n + 1)) :
    ∃ inner, room.inside? = some inner ∧ inner.Takes n := by
  cases room with
  | endless => exact ⟨endless, rfl, trivial⟩
  | levels count =>
    obtain ⟨count, rfl⟩ := Nat.exists_eq_add_one.mpr (Nat.lt_of_lt_of_le n.succ_pos h)
    exact ⟨levels count, rfl, Nat.le_of_succ_le_succ h⟩

theorem arePlain_iff {items : List Value} : ArePlain items ↔ ∀ v ∈ items, IsPlain v := by
  induction items with
  | nil => simp [ArePlain]
  | cons v more ih => simp [ArePlain, ih]

private theorem str_same_eq_false {s t : String} (h : s ≠ t) :
    (Value.str s).same (.str t) = false := by
  simpa [Value.same] using h

private theorem exists_str_of_mem {pairs : List (Value × Value)} (hpairs : ArePlainEntries pairs)
    {e : Value × Value} (he : e ∈ pairs) : ∃ t, e.1 = .str t := by
  induction pairs with
  | nil => cases he
  | cons d pairs ih =>
    obtain ⟨⟨s, hs, -⟩, -, hmore⟩ := hpairs
    rcases List.mem_cons.mp he with rfl | he
    · exact ⟨s, hs⟩
    · exact ih hmore he

private theorem put_eq_append {key v : Value} {entries : List (Value × Value)}
    (hnew : ∀ e ∈ entries, key.same e.1 = false) :
    Value.put key v entries = entries ++ [(key, v)] := by
  induction entries with
  | nil => rfl
  | cons e entries ih =>
    have he := hnew e (by simp)
    have hmore := ih fun e' h => hnew e' (by simp [h])
    simp [Value.put, he, hmore]

private theorem putAll_eq_append {before pairs : List (Value × Value)} (hpairs : ArePlainEntries pairs)
    (hnew : ∀ e ∈ pairs, ∀ b ∈ before, e.1.same b.1 = false) :
    pairs.foldl (fun entries (k, v) => Value.put k v entries) before = before ++ pairs := by
  induction pairs generalizing before with
  | nil => simp
  | cons e pairs ih =>
    obtain ⟨k, v⟩ := e
    obtain ⟨⟨s, rfl, hs⟩, -, hmore⟩ := hpairs
    have hput : Value.put (.str s) v before = before ++ [(.str s, v)] :=
      put_eq_append (hnew (.str s, v) (by simp))
    simp only [List.foldl_cons, hput]
    rw [ih hmore]
    · simp
    · intro e he b hb
      rcases List.mem_append.mp hb with hb | hb
      · exact hnew e (by simp [he]) b hb
      · rw [List.mem_singleton.mp hb]
        obtain ⟨t, ht⟩ := exists_str_of_mem hmore he
        have hne := hs e he
        rw [ht] at hne ⊢
        exact str_same_eq_false fun h => hne (h ▸ rfl)

/-- Entries with different keys stay as they are. -/
theorem entriesOf_eq {pairs : List (Value × Value)} (hpairs : ArePlainEntries pairs) :
    Value.entriesOf pairs = pairs := by
  rw [Value.entriesOf, putAll_eq_append hpairs (by simp), List.nil_append]

/-- The items of a list, the first one without the comma and the new line before it. -/
def writtenRow (level : Nat) : List Value → List Char
  | [] => []
  | v :: more => written level v ++ writtenItems level more

/-- The entries of a map, the first one without the comma and the new line before it. -/
def writtenEntryRow (level : Nat) : List (Value × Value) → List Char
  | [] => []
  | (k, v) :: more =>
    writtenKey k ++ ':' :: ' ' :: (written level v ++ writtenEntries level more)

private theorem written_list (level : Nat) {items : List Value} (h : items ≠ []) :
    written level (.list items) =
      '[' :: (newLine (level + 1) ++ (writtenRow (level + 1) items ++ (newLine level ++ [']']))) := by
  cases items with
  | nil => exact absurd rfl h
  | cons v more => simp [written, writtenList, writtenRow]

private theorem written_map (level : Nat) {entries : List (Value × Value)} (h : entries ≠ []) :
    written level (.map entries) =
      '{' :: (newLine (level + 1) ++ (writtenEntryRow (level + 1) entries ++ (newLine level ++ ['}']))) := by
  cases entries with
  | nil => exact absurd rfl h
  | cons e more => simp [written, writtenEntryRow]

private theorem writtenItems_eq (level : Nat) {items : List Value} (h : items ≠ []) :
    writtenItems level items = ',' :: (newLine level ++ writtenRow level items) := by
  cases items with
  | nil => exact absurd rfl h
  | cons v more => simp [writtenItems, writtenRow]

private theorem writtenEntries_eq (level : Nat) {entries : List (Value × Value)} (h : entries ≠ []) :
    writtenEntries level entries = ',' :: (newLine level ++ writtenEntryRow level entries) := by
  cases entries with
  | nil => exact absurd rfl h
  | cons e more => simp [writtenEntries, writtenEntryRow]

theorem isSpacing_newLine (level : Nat) : IsSpacing (newLine level) := by
  intro c hc
  simp only [newLine, List.mem_cons, List.mem_replicate] at hc
  obtain rfl | ⟨-, rfl⟩ := hc <;> decide

mutual

/-- What is written for a value spells it, if there is room for it. -/
theorem spells_written (v : Value) (hv : IsPlain v) (room : Room) (hroom : room.Takes (depth v))
    (level : Nat) : Spells room (written level v) v := by
  match v, hv with
  | .null, _ => exact .name List.mem_cons_self
  | .bool true, _ => exact .name (List.mem_cons_of_mem _ List.mem_cons_self)
  | .bool false, _ => exact .name (List.mem_cons_of_mem _ (List.mem_cons_of_mem _ List.mem_cons_self))
  | .int n, hn => exact .number (spellsNumber_intChars hn)
  | .str s, _ =>
    have htext := @Spells.text room _ _ (spellsText_written s.toList)
    rwa [String.ofList_toList] at htext
  | .list items, hitems =>
    obtain ⟨inner, hfits, hinner⟩ := hroom.exists_inside
    by_cases hne : items = []
    · subst hne
      exact .noItems hfits isSpacing_nil
    · have hrow := Spells.list hfits (spellsItems_written items hitems hne inner hinner (level + 1) level)
      simpa [written_list level hne] using hrow
  | .map entries, hentries =>
    obtain ⟨inner, hfits, hinner⟩ := hroom.exists_inside
    by_cases hne : entries = []
    · subst hne
      exact .noEntries hfits isSpacing_nil
    · have hrow := Spells.map hfits
        (spellsEntries_written entries hentries hne inner hinner (level + 1) level)
      simpa [written_map level hne, entriesOf_eq hentries] using hrow

theorem spellsItems_written (items : List Value) (hitems : ArePlain items) (hne : items ≠ [])
    (room : Room) (hroom : room.Takes (depthOfItems items)) (level outer : Nat) :
    SpellsItems room (newLine level ++ (writtenRow level items ++ newLine outer)) items := by
  match items, hitems with
  | v :: more, ⟨hv, hmore⟩ =>
    have hvalue := spells_written v hv room (hroom.mono (Nat.le_max_left _ _)) level
    by_cases hmore' : more = []
    · subst hmore'
      have hlast := SpellsItems.lastItem (isSpacing_newLine level) hvalue (isSpacing_newLine outer)
      simpa [writtenRow, writtenItems] using hlast
    · have hrow := spellsItems_written more hmore hmore' room (hroom.mono (Nat.le_max_right _ _)) level outer
      have hitem := SpellsItems.moreItems (isSpacing_newLine level) hvalue isSpacing_nil hrow
      simpa [writtenRow, writtenItems_eq level hmore'] using hitem

theorem spellsEntries_written (entries : List (Value × Value)) (hentries : ArePlainEntries entries)
    (hne : entries ≠ []) (room : Room) (hroom : room.Takes (depthOfEntries entries)) (level outer : Nat) :
    SpellsEntries room (newLine level ++ (writtenEntryRow level entries ++ newLine outer)) entries := by
  match entries, hentries with
  | (k, v) :: more, ⟨⟨s, hs, _⟩, hv, hmore⟩ =>
    subst hs
    have hblank : IsSpacing [' '] := by simp [IsSpacing, isSpace]
    have hvalue := spells_written v hv room (hroom.mono (Nat.le_max_left _ _)) level
    have hentry : ∀ {behind : List Char}, IsSpacing behind → SpellsEntry room
        (newLine level ++ '"' :: (s.toList.flatMap writtenChar ++ '"' :: ([] ++ ':' :: ([' '] ++
          (written level v ++ behind))))) (.str (String.ofList s.toList), v) := by
      intro behind hbehind
      exact .mk (isSpacing_newLine level) (spellsText_written s.toList) isSpacing_nil hblank hvalue hbehind
    by_cases hmore' : more = []
    · subst hmore'
      have hlast := SpellsEntries.lastEntry (hentry (isSpacing_newLine outer))
      simpa [writtenEntryRow, writtenKey, writtenText, writtenEntries] using hlast
    · have hrow :=
        spellsEntries_written more hmore hmore' room (hroom.mono (Nat.le_max_right _ _)) level outer
      have hentries := SpellsEntries.moreEntries (hentry isSpacing_nil) hrow
      simpa [writtenEntryRow, writtenKey, writtenText, writtenEntries_eq level hmore'] using hentries

end

/-- A document of one line end after a written value is read as the value, if there is room for it. -/
theorem read_write {v : Value} (hv : IsPlain v) {room : Room} (hroom : room.Takes (depth v)) :
    read room (write v ++ "\n") = .ok v := by
  have hend : IsSpacing ['\n'] := by simp [IsSpacing, isSpace]
  have hdocument : SpellsDocument room (written 0 v ++ ['\n']) v :=
    ⟨[], written 0 v, ['\n'], rfl, isSpacing_nil, spells_written v hv room hroom 0, hend⟩
  have hread := readDocument_eq_ok.mpr hdocument
  simp [read, write, hread, Except.mapError]

/-! What is written is printable. -/

/-- Whether a character is one that is written: a line feed or a printable one of seven bits. -/
def IsInk (c : Char) : Prop :=
  c = '\n' ∨ (32 ≤ c.toNat ∧ c.toNat < 127)

instance (c : Char) : Decidable (IsInk c) := inferInstanceAs (Decidable (_ ∨ _))

private theorem isInk_hexDigit (n : Nat) : IsInk (Text.hexDigit (n % 16)) := by
  have hall : ∀ m, m < 16 → 32 ≤ (Text.hexDigit m).toNat ∧ (Text.hexDigit m).toNat < 127 := by decide
  exact Or.inr (hall (n % 16) (by omega))

private theorem isInk_unitEscape {n : Nat} {c : Char} (hc : c ∈ unitEscape n) : IsInk c := by
  simp only [unitEscape, Text.hexDigits, List.nil_append, List.mem_cons, List.mem_append,
    List.not_mem_nil, or_false] at hc
  rcases hc with rfl | rfl | ((rfl | rfl) | rfl) | rfl
  · decide
  · decide
  all_goals exact isInk_hexDigit _

private theorem isInk_writtenChar {c d : Char} (hd : d ∈ writtenChar c) : IsInk d := by
  obtain ⟨letter, hletter, hwritten⟩ | ⟨-, -, hlow, hhigh, hwritten⟩ | hwritten := writtenChar_cases c
  all_goals rw [hwritten] at hd
  · have hink : decide (IsInk letter) = true :=
      forall_letters (f := fun x => decide (IsInk x.2)) (by decide) hletter
    simp only [List.mem_cons, List.not_mem_nil, or_false] at hd
    rcases hd with rfl | rfl
    · decide
    · exact of_decide_eq_true hink
  · rw [List.mem_singleton.mp hd]
    exact Or.inr ⟨hlow, hhigh⟩
  · obtain ⟨n, -, hn⟩ := List.mem_flatMap.mp hd
    exact isInk_unitEscape hn

private theorem isInk_writtenText {cs : List Char} {d : Char} (hd : d ∈ writtenText cs) : IsInk d := by
  simp only [writtenText, List.cons_append, List.mem_cons, List.mem_append, List.mem_flatMap,
    List.not_mem_nil, or_false] at hd
  rcases hd with rfl | ⟨c, -, hd⟩ | rfl
  · decide
  · exact isInk_writtenChar hd
  · decide

private theorem isInk_intChars {n : Int} {d : Char} (hd : d ∈ Number.intChars n) : IsInk d := by
  rcases Number.mem_intChars hd with rfl | hd
  · decide
  · have := Number.toNat_lt_of_isDigit hd
    exact Or.inr (by omega)

private theorem isInk_newLine {level : Nat} {d : Char} (hd : d ∈ newLine level) : IsInk d := by
  simp only [newLine, List.mem_cons, List.mem_replicate] at hd
  rcases hd with rfl | ⟨-, rfl⟩
  · exact Or.inl rfl
  · decide

mutual

theorem written_printable (v : Value) (hv : IsPlain v) (level : Nat) (d : Char)
    (hd : d ∈ written level v) : IsInk d := by
  match v, hv with
  | .null, _ => revert d; simp [written, writtenScalar]; decide
  | .bool true, _ => revert d; simp [written, writtenScalar]; decide
  | .bool false, _ => revert d; simp [written, writtenScalar]; decide
  | .int n, _ => exact isInk_intChars hd
  | .str s, _ => exact isInk_writtenText hd
  | .list items, hitems =>
    rcases Decidable.em (items = []) with rfl | hne
    · revert d; simp [written, writtenList, IsInk]
    · rw [written_list level hne] at hd
      simp only [List.mem_cons, List.mem_append, List.not_mem_nil, or_false] at hd
      rcases hd with rfl | hd | hd | hd | rfl
      · decide
      · exact isInk_newLine hd
      · exact writtenRow_printable items hitems (level + 1) d hd
      · exact isInk_newLine hd
      · decide
  | .map entries, hentries =>
    rcases Decidable.em (entries = []) with rfl | hne
    · revert d; simp [written, IsInk]
    · rw [written_map level hne] at hd
      simp only [List.mem_cons, List.mem_append, List.not_mem_nil, or_false] at hd
      rcases hd with rfl | hd | hd | hd | rfl
      · decide
      · exact isInk_newLine hd
      · exact writtenEntryRow_printable entries hentries (level + 1) d hd
      · exact isInk_newLine hd
      · decide

theorem writtenRow_printable (items : List Value) (hitems : ArePlain items) (level : Nat) (d : Char)
    (hd : d ∈ writtenRow level items) : IsInk d := by
  match items, hitems with
  | v :: more, ⟨hv, hmore⟩ =>
    rcases List.mem_append.mp hd with hd | hd
    · exact written_printable v hv level d hd
    · rcases Decidable.em (more = []) with rfl | hmore'
      · cases hd
      · rw [writtenItems_eq level hmore'] at hd
        simp only [List.mem_cons, List.mem_append] at hd
        rcases hd with rfl | hd | hd
        · decide
        · exact isInk_newLine hd
        · exact writtenRow_printable more hmore level d hd

theorem writtenEntryRow_printable (entries : List (Value × Value)) (hentries : ArePlainEntries entries)
    (level : Nat) (d : Char) (hd : d ∈ writtenEntryRow level entries) : IsInk d := by
  match entries, hentries with
  | (k, v) :: more, ⟨⟨s, hs, _⟩, hv, hmore⟩ =>
    subst hs
    simp only [writtenEntryRow, writtenKey, List.mem_cons, List.mem_append] at hd
    rcases hd with hd | rfl | rfl | hd | hd
    · exact isInk_writtenText hd
    · decide
    · decide
    · exact written_printable v hv level d hd
    · rcases Decidable.em (more = []) with rfl | hmore'
      · cases hd
      · rw [writtenEntries_eq level hmore'] at hd
        simp only [List.mem_cons, List.mem_append] at hd
        rcases hd with rfl | hd | hd
        · decide
        · exact isInk_newLine hd
        · exact writtenEntryRow_printable more hmore level d hd

end

theorem return_not_mem_write {v : Value} (hv : IsPlain v) : '\r' ∉ (write v).toList := by
  rw [write, String.toList_ofList]
  exact fun h => absurd (written_printable v hv 0 '\r' h) (by decide)

end ReviewGate.Json

import ReviewGate.Json.Encoded
import ReviewGate.Proofs.Json.Token

/-! A document is read as the value that it spells, and as nothing if it spells none, in whatever room
there is. That what is found is spelled goes by the budget of the reader; that what is spelled is found
goes by the grammar, whatever follows a value in its document. -/
namespace ReviewGate.Json

variable {room : Room}

/-! ### What is found is spelled -/

theorem readPlain_eq_ok {cs rest : List Char} {v : Value} (h : readPlain cs = .ok (v, rest)) :
    ∃ used, cs = used ++ rest ∧ Spells room used v := by
  unfold readPlain at h
  split at h
  · rename_i found hname
    cases h
    obtain ⟨name, hmem, hcs⟩ := readName_eq_some hname
    exact ⟨name, hcs, .name hmem⟩
  · split at h
    · rename_i step hnumber
      rw [h] at hnumber
      obtain ⟨used, hcs, hused⟩ := readNumber_eq_some hnumber
      exact ⟨used, hcs, .number hused⟩
    · cases h

/-- Whether all that is found within a budget is spelled. -/
structure FindsSpelled (budget : Nat) : Prop where
  value : ∀ {room : Room} {cs rest : List Char} {v : Value}, readValue room budget cs = .ok (v, rest) →
    ∃ used, cs = used ++ rest ∧ Spells room used v
  items : ∀ {room : Room} {cs rest : List Char} {items : List Value},
    readItems room budget cs = .ok (items, rest) →
    ∃ used, cs = used ++ ']' :: rest ∧ SpellsItems room used items
  entries : ∀ {room : Room} {cs rest : List Char} {entries : List (Value × Value)},
    readEntries room budget cs = .ok (entries, rest) →
      ∃ used, cs = used ++ '}' :: rest ∧ SpellsEntries room used entries

namespace FindsSpelled

variable {budget : Nat} {cs rest : List Char}

theorem stepValue (h : FindsSpelled budget) {v : Value}
    (hread : readValue room (budget + 1) cs = .ok (v, rest)) :
    ∃ used, cs = used ++ rest ∧ Spells room used v := by
  cases cs with
  | nil => cases hread
  | cons c more =>
    simp only [readValue] at hread
    split_ifs at hread with hquote hbracket hbrace
    · subst hquote
      obtain ⟨⟨text, after⟩, htext, hpair⟩ := Action.except_map_eq_ok.mp hread
      cases hpair
      obtain ⟨body, rfl, hbody⟩ := readText_eq_ok.mp htext
      exact ⟨'"' :: (body ++ ['"']), by simp, .text hbody⟩
    · subst hbracket
      rcases hfits : room.inside? with _ | inner
      · simp [hfits] at hread
      simp only [hfits] at hread
      split at hread
      · cases hread
      · rename_i d after hskip
        obtain ⟨space, rfl, hspace⟩ := exists_spacing hskip
        split_ifs at hread with hclose
        · cases hread
          subst hclose
          exact ⟨'[' :: (space ++ [']']), by simp, .noItems hfits hspace⟩
        · obtain ⟨⟨items, last⟩, hitems, hpair⟩ := Action.except_map_eq_ok.mp hread
          cases hpair
          obtain ⟨used, hused, hrow⟩ := h.items hitems
          exact ⟨'[' :: (space ++ used ++ [']']), by simp [hused], .list hfits (hrow.space hspace)⟩
    · subst hbrace
      rcases hfits : room.inside? with _ | inner
      · simp [hfits] at hread
      simp only [hfits] at hread
      split at hread
      · cases hread
      · rename_i d after hskip
        obtain ⟨space, rfl, hspace⟩ := exists_spacing hskip
        split_ifs at hread with hclose
        · cases hread
          subst hclose
          exact ⟨'{' :: (space ++ ['}']), by simp, .noEntries hfits hspace⟩
        · obtain ⟨⟨entries, last⟩, hentries, hpair⟩ := Action.except_map_eq_ok.mp hread
          cases hpair
          obtain ⟨used, hused, hrow⟩ := h.entries hentries
          exact ⟨'{' :: (space ++ used ++ ['}']), by simp [hused], .map hfits (hrow.space hspace)⟩
    · exact readPlain_eq_ok hread

theorem stepItems (h : FindsSpelled budget) {items : List Value}
    (hread : readItems room (budget + 1) cs = .ok (items, rest)) :
    ∃ used, cs = used ++ ']' :: rest ∧ SpellsItems room used items := by
  simp only [readItems] at hread
  obtain ⟨⟨v, behind⟩, hvalue, hnext⟩ := Action.except_bind_eq_ok.mp hread
  obtain ⟨used, rfl, hused⟩ := h.value hvalue
  split at hnext
  · cases hnext
  · rename_i c after hskip
    obtain ⟨space, rfl, hspace⟩ := exists_spacing hskip
    split_ifs at hnext with hclose hcomma
    · cases hnext
      subst hclose
      exact ⟨[] ++ (used ++ space), by simp, .lastItem isSpacing_nil hused hspace⟩
    · subst hcomma
      obtain ⟨⟨more, last⟩, hitems, hdone⟩ := Action.except_bind_eq_ok.mp hnext
      cases hdone
      -- The space behind a comma has been skipped already; it belongs to the row that follows.
      obtain ⟨ds, hds, hrow⟩ := h.items hitems
      obtain ⟨gap, rfl, hgap⟩ := exists_spacing hds
      refine ⟨[] ++ (used ++ (space ++ ',' :: (gap ++ ds))), by simp, ?_⟩
      exact .moreItems isSpacing_nil hused hspace (hrow.space hgap)

theorem stepEntries (h : FindsSpelled budget) {entries : List (Value × Value)}
    (hread : readEntries room (budget + 1) cs = .ok (entries, rest)) :
    ∃ used, cs = used ++ '}' :: rest ∧ SpellsEntries room used entries := by
  cases cs with
  | nil => cases hread
  | cons quote text =>
    simp only [readEntries] at hread
    split_ifs at hread with hquote
    subst hquote
    obtain ⟨⟨key, behind⟩, htext, hcolon⟩ := Action.except_bind_eq_ok.mp hread
    obtain ⟨body, rfl, hbody⟩ := readText_eq_ok.mp htext
    split at hcolon
    · cases hcolon
    · rename_i colon after hskip
      obtain ⟨middle, rfl, hmiddle⟩ := exists_spacing hskip
      split_ifs at hcolon with hmark
      subst hmark
      obtain ⟨⟨v, behind⟩, hvalue, hnext⟩ := Action.except_bind_eq_ok.mp hcolon
      obtain ⟨used, hafter, hused⟩ := h.value hvalue
      obtain ⟨space, rfl, hspace⟩ := exists_spacing hafter
      split at hnext
      · cases hnext
      · rename_i c after hskip
        obtain ⟨gap, rfl, hgap⟩ := exists_spacing hskip
        have hentry := SpellsEntry.mk isSpacing_nil hbody hmiddle hspace hused hgap
        split_ifs at hnext with hclose hcomma
        · cases hnext
          subst hclose
          exact ⟨_, by simp, .lastEntry hentry⟩
        · subst hcomma
          obtain ⟨⟨more, last⟩, hentries, hdone⟩ := Action.except_bind_eq_ok.mp hnext
          cases hdone
          obtain ⟨ds, hds, hrow⟩ := h.entries hentries
          obtain ⟨gap', rfl, hgap'⟩ := exists_spacing hds
          exact ⟨_, by simp, .moreEntries hentry (hrow.space hgap')⟩

end FindsSpelled

theorem findsSpelled (budget : Nat) : FindsSpelled budget := by
  induction budget with
  | zero => constructor <;> (intro _ _ _ _ h; cases h)
  | succ budget ih => exact ⟨ih.stepValue, ih.stepItems, ih.stepEntries⟩

/-! ### What is spelled is found -/

/-- Whether what follows a value can start here. -/
def FollowsValue (rest : List Char) : Prop :=
  ∀ c ∈ rest.head?, isSpace c = true ∨ c = ',' ∨ c = ']' ∨ c = '}'

theorem FollowsValue.endsNumber {rest : List Char} (h : FollowsValue rest) : EndsNumber rest := by
  intro c hc
  obtain hspace | rfl | rfl | rfl := h c hc
  · simp only [isSpace, Bool.or_eq_true, beq_iff_eq] at hspace
    obtain ((rfl | rfl) | rfl) | rfl := hspace <;> decide
  all_goals decide

theorem followsValue_nil : FollowsValue [] := by
  simp [FollowsValue]

theorem followsValue_append {space rest : List Char} (hspace : IsSpacing space) (hrest : FollowsValue rest) :
    FollowsValue (space ++ rest) := by
  cases space with
  | nil => exact hrest
  | cons c more =>
    intro d hd
    cases hd
    exact Or.inl (hspace c List.mem_cons_self)

theorem followsValue_cons {c : Char} (h : c = ',' ∨ c = ']' ∨ c = '}') (rest : List Char) :
    FollowsValue (c :: rest) := by
  intro d hd
  cases hd
  exact Or.inr h

theorem skipSpace_value {space cs : List Char} {v : Value} (hspace : IsSpacing space) (h : Spells room cs v)
    (rest : List Char) : skipSpace (space ++ (cs ++ rest)) = cs ++ rest := by
  obtain ⟨c, more, rfl, hc⟩ := h.start
  rw [List.cons_append, skipSpace_mark hc.ink hspace]

/-- Whether the reader finds a value in its characters, whatever follows them. -/
def ReadsValue (room : Room) (cs : List Char) (v : Value) : Prop :=
  ∀ budget rest, cs.length ≤ budget → FollowsValue rest → readValue room budget (cs ++ rest) = .ok (v, rest)

def ReadsItems (room : Room) (cs : List Char) (items : List Value) : Prop :=
  ∀ budget rest, cs.length < budget →
    readItems room budget (skipSpace (cs ++ ']' :: rest)) = .ok (items, rest)

/-- Whether the reader finds an entry: it stops at a brace, and goes on at a comma. -/
def ReadsEntry (room : Room) (cs : List Char) (e : Value × Value) : Prop :=
  ∀ budget c rest, cs.length ≤ budget → c = ',' ∨ c = '}' →
    readEntries room (budget + 1) (skipSpace (cs ++ c :: rest)) =
      if c = '}' then .ok ([e], rest)
      else (readEntries room budget (skipSpace rest)).map fun (entries, last) => (e :: entries, last)

def ReadsEntries (room : Room) (cs : List Char) (entries : List (Value × Value)) : Prop :=
  ∀ budget rest, cs.length < budget →
    readEntries room budget (skipSpace (cs ++ '}' :: rest)) = .ok (entries, rest)

/-! Names, numbers and texts -/

theorem readsValue_plain {c : Char} {cs : List Char} {v : Value} (hquote : c ≠ '"') (hbracket : c ≠ '[')
    (hbrace : c ≠ '{') (h : ∀ rest, FollowsValue rest → readPlain (c :: cs ++ rest) = .ok (v, rest)) :
    ReadsValue room (c :: cs) v := by
  intro budget rest hbudget hrest
  rw [List.length_cons] at hbudget
  obtain ⟨budget, rfl⟩ := Nat.exists_eq_add_one.mpr (show 0 < budget by omega)
  have hplain := h rest hrest
  rw [List.cons_append] at hplain ⊢
  simp [readValue, hquote, hbracket, hbrace, hplain]

theorem readsValue_name {cs : List Char} {v : Value} (h : (cs, v) ∈ names) : ReadsValue room cs v := by
  have hplain : ∀ rest, FollowsValue rest → readPlain (cs ++ rest) = .ok (v, rest) := by
    intro rest _
    rw [readPlain, readName_append h]
  obtain ⟨c, more, rfl, hc⟩ := exists_start_of_mem_names h
  simp only [List.mem_cons, List.not_mem_nil, or_false] at hc
  apply readsValue_plain
  case h => exact hplain
  all_goals obtain rfl | rfl | rfl | rfl | rfl | rfl := hc <;> decide

theorem readsValue_number {cs : List Char} {v : Value} (h : SpellsNumber cs v) : ReadsValue room cs v := by
  have hplain : ∀ rest, FollowsValue rest → readPlain (cs ++ rest) = .ok (v, rest) := by
    intro rest hrest
    rw [readPlain, readName_number h, readNumber_append h hrest.endsNumber]
  obtain ⟨d, more, rfl, hd⟩ | ⟨d, more, rfl, -⟩ := h.start
  · exact readsValue_plain (ne_of_isDigit hd (by decide)) (ne_of_isDigit hd (by decide))
      (ne_of_isDigit hd (by decide)) hplain
  · exact readsValue_plain (by decide) (by decide) (by decide) hplain

theorem readsValue_text {body text : List Char} (h : SpellsText body text) :
    ReadsValue room ('"' :: (body ++ ['"'])) (.str (String.ofList text)) := by
  intro budget rest hbudget _
  rw [List.length_cons] at hbudget
  obtain ⟨budget, rfl⟩ := Nat.exists_eq_add_one.mpr (show 0 < budget by omega)
  have htext : readText (body ++ '"' :: rest) = .ok (text, rest) := readText_eq_ok.mpr ⟨body, rfl, h⟩
  simp [readValue, htext, Except.map]

/-! Lists -/

theorem readsItems_last {before cs behind : List Char} {v : Value} (hbefore : IsSpacing before)
    (hcs : Spells room cs v) (hbehind : IsSpacing behind) (h : ReadsValue room cs v) :
    ReadsItems room (before ++ (cs ++ behind)) [v] := by
  intro budget rest hbudget
  simp only [List.length_append] at hbudget
  obtain ⟨budget, rfl⟩ := Nat.exists_eq_add_one.mpr (show 0 < budget by omega)
  have hclose : skipSpace (behind ++ ']' :: rest) = ']' :: rest := skipSpace_mark (by decide) hbehind rest
  have hvalue : readValue room budget (cs ++ (behind ++ ']' :: rest)) = .ok (v, behind ++ ']' :: rest) := by
    apply h
    · omega
    · exact followsValue_append hbehind (followsValue_cons (by decide) rest)
  rw [List.append_assoc, List.append_assoc, skipSpace_value hbefore hcs]
  simp [readItems, hvalue, hclose, bind, Except.bind]

theorem readsItems_more {before cs behind ds : List Char} {v : Value} {items : List Value}
    (hbefore : IsSpacing before) (hcs : Spells room cs v) (hbehind : IsSpacing behind)
    (h : ReadsValue room cs v)
    (hmore : ReadsItems room ds items) :
    ReadsItems room (before ++ (cs ++ (behind ++ ',' :: ds))) (v :: items) := by
  intro budget rest hbudget
  simp only [List.length_append, List.length_cons] at hbudget
  obtain ⟨budget, rfl⟩ := Nat.exists_eq_add_one.mpr (show 0 < budget by omega)
  have hcomma : skipSpace (behind ++ ',' :: (ds ++ ']' :: rest)) = ',' :: (ds ++ ']' :: rest) :=
    skipSpace_mark (by decide) hbehind _
  have hvalue : readValue room budget (cs ++ (behind ++ ',' :: (ds ++ ']' :: rest))) =
      .ok (v, behind ++ ',' :: (ds ++ ']' :: rest)) := by
    apply h
    · omega
    · exact followsValue_append hbehind (followsValue_cons (by decide) _)
  have hitems := hmore budget rest (by omega)
  simp only [List.append_assoc, List.cons_append]
  rw [skipSpace_value hbefore hcs]
  simp [readItems, hvalue, hcomma, hitems, bind, Except.bind]

theorem readsValue_noItems {inner : Room} {space : List Char} (hfits : room.inside? = some inner)
    (h : IsSpacing space) :
    ReadsValue room ('[' :: (space ++ [']'])) (.list []) := by
  intro budget rest hbudget _
  rw [List.length_cons] at hbudget
  obtain ⟨budget, rfl⟩ := Nat.exists_eq_add_one.mpr (show 0 < budget by omega)
  have hclose : skipSpace (space ++ ']' :: rest) = ']' :: rest := skipSpace_mark (by decide) h rest
  simp [readValue, hfits, hclose]

theorem SpellsItems.start {cs : List Char} {items : List Value} (h : SpellsItems room cs items)
    (rest : List Char) : ∃ c more, skipSpace (cs ++ rest) = c :: more ∧ IsStart c := by
  cases h with
  | lastItem blankBefore value blankBehind =>
    have hskip := skipSpace_value blankBefore value
    obtain ⟨c, more, rfl, hc⟩ := value.start
    exact ⟨c, _, by simpa using hskip _, hc⟩
  | moreItems blankBefore value blankBehind row =>
    have hskip := skipSpace_value blankBefore value
    obtain ⟨c, more, rfl, hc⟩ := value.start
    exact ⟨c, _, by simpa using hskip _, hc⟩

theorem readsValue_list {inner : Room} {cs : List Char} {items : List Value}
    (hfits : room.inside? = some inner) (hrow : SpellsItems inner cs items)
    (h : ReadsItems inner cs items) : ReadsValue room ('[' :: (cs ++ [']'])) (.list items) := by
  intro budget rest hbudget _
  simp only [List.length_cons, List.length_append, List.length_nil] at hbudget
  obtain ⟨budget, rfl⟩ := Nat.exists_eq_add_one.mpr (show 0 < budget by omega)
  obtain ⟨c, more, hskip, hc⟩ := hrow.start (']' :: rest)
  have hitems := h budget rest (by omega)
  rw [hskip] at hitems
  simp [readValue, hfits, hskip, hc.bracket, hitems, Except.map]

/-! Maps -/

theorem readsEntry_mk {before body key middle space cs behind : List Char} {v : Value}
    (hbefore : IsSpacing before) (hquoted : SpellsText body key) (hmiddle : IsSpacing middle)
    (hspace : IsSpacing space) (hcs : Spells room cs v) (hbehind : IsSpacing behind)
    (h : ReadsValue room cs v) :
    ReadsEntry room (before ++ '"' :: (body ++ '"' :: (middle ++ ':' :: (space ++ (cs ++ behind)))))
      (.str (String.ofList key), v) := by
  intro budget c rest hbudget hc
  simp only [List.length_append, List.length_cons] at hbudget
  have hink : isSpace c = false := by
    obtain rfl | rfl := hc <;> decide
  have hkey : readText (body ++ '"' :: (middle ++ ':' :: (space ++ (cs ++ (behind ++ c :: rest))))) =
      .ok (key, middle ++ ':' :: (space ++ (cs ++ (behind ++ c :: rest)))) :=
    readText_eq_ok.mpr ⟨body, rfl, hquoted⟩
  have hcolon : skipSpace (middle ++ ':' :: (space ++ (cs ++ (behind ++ c :: rest)))) =
      ':' :: (space ++ (cs ++ (behind ++ c :: rest))) :=
    skipSpace_mark (by decide) hmiddle _
  have hvalue : readValue room budget (cs ++ (behind ++ c :: rest)) = .ok (v, behind ++ c :: rest) := by
    apply h
    · omega
    · exact followsValue_append hbehind (followsValue_cons (hc.imp_right Or.inr) rest)
  have hend : skipSpace (behind ++ c :: rest) = c :: rest := skipSpace_mark hink hbehind rest
  simp only [List.append_assoc, List.cons_append]
  rw [skipSpace_mark (by decide) hbefore]
  simp only [readEntries, if_true, hkey, hcolon, skipSpace_value hspace hcs, hvalue, hend, bind, Except.bind]
  obtain rfl | rfl := hc
  · cases readEntries room budget (skipSpace rest) <;> rfl
  · rfl

theorem readsEntries_last {cs : List Char} {e : Value × Value} (h : ReadsEntry room cs e) :
    ReadsEntries room cs [e] := by
  intro budget rest hbudget
  obtain ⟨budget, rfl⟩ := Nat.exists_eq_add_one.mpr (show 0 < budget by omega)
  rw [h budget '}' rest (by omega) (Or.inr rfl), if_pos rfl]

theorem readsEntries_more {cs ds : List Char} {e : Value × Value} {entries : List (Value × Value)}
    (h : ReadsEntry room cs e) (hmore : ReadsEntries room ds entries) :
    ReadsEntries room (cs ++ ',' :: ds) (e :: entries) := by
  intro budget rest hbudget
  simp only [List.length_append, List.length_cons] at hbudget
  obtain ⟨budget, rfl⟩ := Nat.exists_eq_add_one.mpr (show 0 < budget by omega)
  rw [List.append_assoc, List.cons_append, h budget ',' _ (by omega) (Or.inl rfl), if_neg (by decide),
    hmore budget rest (by omega)]
  rfl

theorem readsValue_noEntries {inner : Room} {space : List Char} (hfits : room.inside? = some inner)
    (h : IsSpacing space) :
    ReadsValue room ('{' :: (space ++ ['}'])) (.map []) := by
  intro budget rest hbudget _
  rw [List.length_cons] at hbudget
  obtain ⟨budget, rfl⟩ := Nat.exists_eq_add_one.mpr (show 0 < budget by omega)
  have hclose : skipSpace (space ++ '}' :: rest) = '}' :: rest := skipSpace_mark (by decide) h rest
  simp [readValue, hfits, hclose]

theorem SpellsEntry.start {cs : List Char} {e : Value × Value} (h : SpellsEntry room cs e)
    (rest : List Char) :
    ∃ more, skipSpace (cs ++ rest) = '"' :: more := by
  cases h with
  | mk blankBefore =>
    rw [List.append_assoc, List.cons_append, skipSpace_mark (by decide) blankBefore]
    exact ⟨_, rfl⟩

theorem SpellsEntries.start {cs : List Char} {entries : List (Value × Value)}
    (h : SpellsEntries room cs entries) (rest : List Char) :
    ∃ more, skipSpace (cs ++ rest) = '"' :: more := by
  cases h with
  | lastEntry entry => exact entry.start rest
  | moreEntries entry row =>
    rw [List.append_assoc]
    exact entry.start _

theorem readsValue_map {inner : Room} {cs : List Char} {entries : List (Value × Value)}
    (hfits : room.inside? = some inner) (hrow : SpellsEntries inner cs entries)
    (h : ReadsEntries inner cs entries) :
    ReadsValue room ('{' :: (cs ++ ['}'])) (.map (Value.entriesOf entries)) := by
  intro budget rest hbudget _
  simp only [List.length_cons, List.length_append, List.length_nil] at hbudget
  obtain ⟨budget, rfl⟩ := Nat.exists_eq_add_one.mpr (show 0 < budget by omega)
  obtain ⟨more, hskip⟩ := hrow.start ('}' :: rest)
  have hentries := h budget rest (by omega)
  rw [hskip] at hentries
  simp [readValue, hfits, hskip, hentries, Except.map]

theorem Spells.reads {cs : List Char} {v : Value} (h : Spells room cs v) : ReadsValue room cs v := by
  -- The induction is on all four kinds of spelling at once.
  induction h using @Spells.rec _ (fun room cs items _ => ReadsItems room cs items)
    (fun room cs e _ => ReadsEntry room cs e) (fun room cs entries _ => ReadsEntries room cs entries) with
  | name named => exact readsValue_name named
  | number number => exact readsValue_number number
  | text quoted => exact readsValue_text quoted
  | noItems fits blank => exact readsValue_noItems fits blank
  | list fits row ih => exact readsValue_list fits row ih
  | noEntries fits blank => exact readsValue_noEntries fits blank
  | map fits row ih => exact readsValue_map fits row ih
  | lastItem blankBefore value blankBehind ih => exact readsItems_last blankBefore value blankBehind ih
  | moreItems blankBefore value blankBehind row ih ihRow =>
    exact readsItems_more blankBefore value blankBehind ih ihRow
  | mk blankBefore quoted blankMiddle blank value blankBehind ih =>
    exact readsEntry_mk blankBefore quoted blankMiddle blank value blankBehind ih
  | lastEntry entry ih => exact readsEntries_last ih
  | moreEntries entry row ih ihRow => exact readsEntries_more ih ihRow

/-! ### Documents -/

/-- A document that spells something does not start with a mark of the order of bytes. -/
theorem SpellsDocument.ne_mark {cs : List Char} {v : Value} (h : SpellsDocument room cs v)
    (more : List Char) :
    cs ≠ '\uFEFF' :: more := by
  obtain ⟨before, body, behind, rfl, hbefore, hbody, -⟩ := h
  obtain ⟨c, rest, rfl, hc⟩ := hbody.start
  intro hmark
  cases before with
  | nil => exact hc.mark (List.cons.inj hmark).1
  | cons d before =>
    obtain rfl : d = '\uFEFF' := (List.cons.inj hmark).1
    exact absurd (hbefore _ List.mem_cons_self) (by decide)

/-- A document is read as the value that it spells: the budget of the reader is always enough. -/
theorem readDocument_eq_ok {cs : List Char} {v : Value} :
    readDocument room cs = .ok v ↔ SpellsDocument room cs v := by
  constructor
  · intro h
    unfold readDocument at h
    split at h
    · cases h
    · obtain ⟨⟨w, behind⟩, hvalue, hdone⟩ := Action.except_bind_eq_ok.mp h
      dsimp only at hdone
      split at hdone
      · rename_i hend
        cases hdone
        obtain ⟨body, hskip, hbody⟩ := (findsSpelled _).value hvalue
        obtain ⟨before, hcs, hbefore⟩ := exists_spacing hskip
        obtain ⟨space, hspace, hbehind⟩ := exists_spacing hend
        rw [hspace, List.append_nil] at hcs
        exact ⟨before, body, space, hcs, hbefore, hbody, hbehind⟩
      · cases hdone
  · intro h
    have hmark := h.ne_mark
    obtain ⟨before, body, behind, rfl, hbefore, hbody, hbehind⟩ := h
    have hskip : skipSpace (before ++ (body ++ behind)) = body ++ behind :=
      skipSpace_value hbefore hbody behind
    have hfollows : FollowsValue behind := by
      have happend := followsValue_append hbehind followsValue_nil
      rwa [List.append_nil] at happend
    have hvalue :
        readValue room (2 * (before ++ (body ++ behind)).length + 1) (body ++ behind) = .ok (v, behind) := by
      apply hbody.reads
      · simp only [List.length_append]
        omega
      · exact hfollows
    have hend : skipSpace behind = [] := by
      rw [← List.append_nil behind, skipSpace_append hbehind]
      rfl
    unfold readDocument
    split
    · rename_i hstart
      exact absurd hstart (hmark _)
    · simp only [hskip, hvalue, hend, bind, Except.bind]

/-- Whether bytes are a document that stands for a value. -/
def Denotes (document : List UInt8) (v : Value) : Prop :=
  ∃ text, textOf? document = some text ∧ SpellsDocument .endless text.toList v

theorem readBytes_eq_some {document : List UInt8} {v : Value} :
    readBytes document = some v ↔ Denotes document v := by
  have hread : ∀ text : String,
      (read .endless text).toOption = some v ↔ SpellsDocument .endless text.toList v := by
    intro text
    rw [← readDocument_eq_ok, read]
    cases readDocument .endless text.toList <;> simp [Except.mapError, Except.toOption]
  simp only [readBytes, Denotes, Option.bind_eq_bind, Option.bind_eq_some_iff, hread]

end ReviewGate.Json

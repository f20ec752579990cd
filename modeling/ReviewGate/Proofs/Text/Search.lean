import ReviewGate.Text.Search

/-! Where texts stand inside others. -/
namespace ReviewGate.Text

theorem dropStart_eq_some {start cs rest : List Char} :
    dropStart? start cs = some rest ↔ cs = start ++ rest := by
  induction start generalizing cs with
  | nil => simp [dropStart?, eq_comm]
  | cons x start ih =>
    cases cs with
    | nil => simp [dropStart?]
    | cons c cs =>
      by_cases hx : x = c
      · simp [dropStart?, hx, ih]
      · simp [dropStart?, hx, Ne.symm hx]

theorem occursIn_iff {needle cs : List Char} : occursIn needle cs = true ↔ needle <:+: cs := by
  induction cs with
  | nil => simp [occursIn]
  | cons c cs ih =>
    have hstart : (dropStart? needle (c :: cs)).isSome = true ↔ needle <+: c :: cs := by
      rw [Option.isSome_iff_exists]
      constructor
      · rintro ⟨rest, hrest⟩
        exact ⟨rest, (dropStart_eq_some.mp hrest).symm⟩
      · rintro ⟨rest, hrest⟩
        exact ⟨rest, dropStart_eq_some.mpr hrest.symm⟩
    rw [occursIn, Bool.or_eq_true, hstart, ih, List.infix_cons_iff]

theorem contains_iff {s needle : String} : contains s needle = true ↔ needle.toList <:+: s.toList :=
  occursIn_iff

theorem endsWith_iff {s ending : String} : endsWith s ending = true ↔ ending.toList <:+ s.toList := by
  rw [endsWith, Option.isSome_iff_exists]
  constructor
  · rintro ⟨rest, hrest⟩
    have hlist := congrArg List.reverse (dropStart_eq_some.mp hrest)
    rw [List.reverse_reverse, List.reverse_append, List.reverse_reverse] at hlist
    exact ⟨rest.reverse, hlist.symm⟩
  · rintro ⟨before, hbefore⟩
    refine ⟨before.reverse, dropStart_eq_some.mpr ?_⟩
    rw [← hbefore, List.reverse_append]

end ReviewGate.Text

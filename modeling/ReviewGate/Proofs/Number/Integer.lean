import Mathlib.Tactic.SplitIfs
import ReviewGate.Number.Integer

/-! Whole numbers as texts: a number that is written within the digit limit is read back. -/
namespace ReviewGate.Number

/-- Whether a number has few enough digits to be written and read. -/
def IsShort (n : Int) : Prop := (Nat.toDigits 10 n.natAbs).length ≤ digitLimit

instance (n : Int) : Decidable (IsShort n) := inferInstanceAs (Decidable (_ ≤ _))

theorem isDigit_of_mem_toDigits {n : Nat} {c : Char} (hc : c ∈ Nat.toDigits 10 n) :
    c.isDigit = true :=
  Nat.isDigit_of_mem_toDigits (by decide) (by decide) hc

/-- Only the number zero starts with the digit zero. -/
theorem toDigits_head {n : Nat} (hn : 0 < n) :
    ∃ d more, Nat.toDigits 10 n = d :: more ∧ d ≠ '0' := by
  induction n using Nat.strongRecOn with
  | ind n ih =>
    by_cases hlt : n < 10
    · refine ⟨n.digitChar, [], Nat.toDigits_of_lt_base hlt, ?_⟩
      have hall : ∀ m, m < 10 → 0 < m → m.digitChar ≠ '0' := by decide
      exact hall n hlt hn
    · obtain ⟨d, more, hd, hne⟩ := ih (n / 10) (by omega) (by omega)
      refine ⟨d, more ++ [(n % 10).digitChar], ?_, hne⟩
      rw [Nat.toDigits_of_base_le (by decide) (by omega), hd, List.cons_append]

theorem toDigits_exists_cons (n : Nat) :
    ∃ d more, Nat.toDigits 10 n = d :: more ∧ d.isDigit = true := by
  cases h : Nat.toDigits 10 n with
  | nil => exact absurd h Nat.toDigits_ne_nil
  | cons d more => exact ⟨d, more, rfl, isDigit_of_mem_toDigits (n := n) (by simp [h])⟩

/-- A decimal number is a minus sign, if it is negative, and digits. -/
theorem intChars_eq (n : Int) :
    intChars n = (if n < 0 then ['-'] else []) ++ Nat.toDigits 10 n.natAbs := by
  unfold intChars
  split_ifs <;> rfl

theorem toNat_lt_of_isDigit {c : Char} (h : c.isDigit = true) : 48 ≤ c.toNat ∧ c.toNat ≤ 57 := by
  simp only [Char.isDigit, Bool.and_eq_true, decide_eq_true_eq] at h
  exact ⟨h.1, h.2⟩

theorem mem_intChars {n : Int} {c : Char} (hc : c ∈ intChars n) : c = '-' ∨ c.isDigit = true := by
  rw [intChars_eq] at hc
  rcases List.mem_append.mp hc with hc | hc
  · split_ifs at hc <;> simp_all
  · exact Or.inr (isDigit_of_mem_toDigits hc)

theorem writeInt_eq_ok {n : Int} {text : String} (h : writeInt n = .ok text) :
    IsShort n ∧ text = intText n := by
  unfold writeInt at h
  split_ifs at h with hlong
  exact ⟨Nat.le_of_not_lt hlong, (Except.ok.inj h).symm⟩

theorem writeInt_of_isShort {n : Int} (h : IsShort n) : writeInt n = .ok (intText n) := by
  rw [writeInt, if_neg (Nat.not_lt.mpr h)]

private theorem plainChar_of_lt {c : Char} (h : c.toNat < 127) : plainChar c = c := by
  simp [plainChar, h]

private theorem map_plainChar_intChars (n : Int) : (intChars n).map plainChar = intChars n := by
  have hfix : ∀ c ∈ intChars n, plainChar c = c := by
    intro c hc
    refine plainChar_of_lt ?_
    rcases mem_intChars hc with rfl | hd
    · decide
    · have := toNat_lt_of_isDigit hd
      omega
  rw [List.map_congr_left hfix, List.map_id']

private theorem digitRun_digits {ds : List Char} (hds : ∀ c ∈ ds, c.isDigit = true) :
    digitRun false ds = some (ds, []) := by
  induction ds with
  | nil => rfl
  | cons d ds ih =>
    have hd := hds d (by simp)
    simp [digitRun, hd, ih fun c hc => hds c (by simp [hc])]

private theorem digitRun_toDigits (n : Nat) :
    digitRun true (Nat.toDigits 10 n) = some (Nat.toDigits 10 n, []) := by
  obtain ⟨d, more, hds, hd⟩ := toDigits_exists_cons n
  have hmore : ∀ c ∈ more, c.isDigit = true := fun c hc =>
    isDigit_of_mem_toDigits (n := n) (by simp [hds, hc])
  rw [hds]
  simp [digitRun, hd, digitRun_digits hmore]

private theorem isGap_eq_false {c : Char} (h : c = '-' ∨ c.isDigit = true) : isGap c = false := by
  rcases h with rfl | h
  · decide
  · have := toNat_lt_of_isDigit h
    have hne : c ≠ ' ' := by rintro rfl; revert h; decide
    simp [isGap, hne]
    omega

theorem signOf_intChars (n : Int) :
    signOf (intChars n) = (decide (n < 0), Nat.toDigits 10 n.natAbs) := by
  obtain ⟨d, more, hds, hd⟩ := toDigits_exists_cons n.natAbs
  rw [intChars_eq]
  split_ifs with hn
  · simp [signOf, hn]
  · have hminus : d ≠ '-' := by rintro rfl; revert hd; decide
    have hplus : d ≠ '+' := by rintro rfl; revert hd; decide
    simp [signOf, hds, hn, hminus, hplus]

theorem signed_natAbs (n : Int) : (if n < 0 then -(n.natAbs : Int) else n.natAbs) = n := by
  split_ifs <;> omega

/-- A text is that of one number. -/
theorem intText_injective {m n : Int} (h : intText m = intText n) : m = n := by
  have hchars : intChars m = intChars n := by simpa [intText] using congrArg String.toList h
  have hsigns := congrArg signOf hchars
  rw [signOf_intChars, signOf_intChars, Prod.mk.injEq, decide_eq_decide] at hsigns
  obtain ⟨hneg, hdigits⟩ := hsigns
  have habs : m.natAbs = n.natAbs := by
    simpa only [Nat.ofDigitChars_ten_toDigits] using congrArg (Nat.ofDigitChars 10 · 0) hdigits
  omega

/-- A number that is written is read back. -/
theorem readInt_intText {n : Int} (hn : IsShort n) : readInt (intText n) = .ok n := by
  have hdrop : (intChars n).dropWhile isGap = intChars n := by
    cases h : intChars n with
    | nil => rfl
    | cons c cs =>
      have hc : isGap c = false := isGap_eq_false (mem_intChars (n := n) (by simp [h]))
      simp [hc]
  have hle : ¬ digitLimit < (Nat.toDigits 10 n.natAbs).length := Nat.not_lt.mpr hn
  simp only [readInt, intText, String.toList_ofList, map_plainChar_intChars, hdrop, signOf_intChars,
    digitRun_toDigits, hle, Nat.ofDigitChars_ten_toDigits]
  simpa using signed_natAbs n

end ReviewGate.Number

import Mathlib.Data.List.Forall2
import ReviewGate.Proofs.Action
import ReviewGate.Schema.Field

/-! What the readers of fields accept, said without them. A field is read if its value is of its kind; of
several things that are read together each one must be. -/
namespace ReviewGate

/-! ### Quantities -/

/-- A floating-point number is a whole one if it compares equal to it. -/
theorem Number.toInt?_eq_some {x : Float} {n : Int} : toInt? x = some n ↔ compareInt? x n = some .eq := by
  unfold toInt? compareInt?
  cases exact x with
  | notANumber => simp
  | infinite negative => cases negative <;> simp
  | finite negative mantissa exponent =>
    have hsize : (if negative then -(mantissa : Int) else mantissa).natAbs = mantissa := by
      cases negative <;> simp
    dsimp only
    generalize (if negative then -(mantissa : Int) else mantissa) = signed at hsize ⊢
    have hunit : (twoTo exponent.natAbs : Int) ≠ 0 := by
      have hpos : 0 < twoTo exponent.natAbs := Nat.two_pow_pos _
      omega
    have hdvd : mantissa % twoTo exponent.natAbs = 0 ↔ (twoTo exponent.natAbs : Int) ∣ signed := by
      rw [← hsize, ← Nat.dvd_iff_mod_eq_zero, ← Int.natAbs_dvd_natAbs, Int.natAbs_natCast]
    by_cases hexp : 0 ≤ exponent
    · simp [hexp, Int.not_lt.mpr hexp]
    · simp only [hexp, Int.not_le.mp hexp, if_true, if_false, hdvd, Option.some.injEq,
        Std.LawfulEqOrd.compare_eq_iff_eq]
      constructor
      · intro h
        split at h
        · rename_i hdiv
          cases h
          exact (Int.ediv_mul_cancel hdiv).symm
        · cases h
      · intro h
        rw [if_pos ⟨n, h.trans (Int.mul_comm n _)⟩, h, Int.mul_ediv_cancel n hunit]

/-- Whether a value counts as true or as false: a quantity that is one or zero, or a word for it. -/
def Value.CountsAs (v : Value) (b : Bool) : Prop :=
  v.sameNumber (.bool b) = true ∨
    ∃ s, v = .str s ∧
      String.ofList (s.toList.map Char.toLower) ∈ if b then Schema.trueWords else Schema.falseWords

/-- The items of a list or a tuple. -/
def Value.HasItems (v : Value) (items : List Value) : Prop :=
  v = .list items ∨ v = .tuple items

namespace Schema

variable {α β : Type}

/-! ### Putting together -/

theorem Checked.both_eq_ok {x : Checked α} {y : Checked β} {a : α} {b : β} :
    x.both y = .ok (a, b) ↔ x = .ok a ∧ y = .ok b := by
  cases x <;> cases y <;> simp [both]

theorem Checked.within_eq_ok {place : Place} {x : Checked α} {a : α} :
    x.within place = .ok a ↔ x = .ok a := by
  cases x <;> simp [within]

theorem Checked.report_eq_ok {record : String} {x : Checked α} {a : α} :
    x.report record = .ok a ↔ x = .ok a := by
  cases x <;> simp [report]

/-! ### Kinds -/

theorem readText_eq_ok {v : Value} {s : String} : readText v = .ok s ↔ v = .str s := by
  cases v <;> simp [readText, complain]

theorem entriesOf_eq_ok {record : String} {v : Value} {entries : List (Value × Value)} :
    entriesOf record v = .ok entries ↔ v = .map entries := by
  cases v <;> simp [entriesOf, complain]

theorem booleanOfInt_eq_ok {n : Int} {b : Bool} : booleanOfInt n = .ok b ↔ n = if b then 1 else 0 := by
  unfold booleanOfInt
  by_cases hzero : n = 0
  · subst hzero
    cases b <;> simp
  · by_cases hone : n = 1
    · subst hone
      cases b <;> simp
    · cases b <;> simp [hzero, hone, complain]

theorem readFloatInteger_eq_ok {x : Float} {n : Int} :
    readFloatInteger x = .ok n ↔ Number.toInt? x = some n ∧ n.natAbs < Number.twoTo 63 := by
  unfold readFloatInteger
  split
  · cases hx : Number.toInt? x with
    | none => simp [complain]
    | some m =>
      by_cases hm : m.natAbs < Number.twoTo 63
      · simp only [hm, if_true, Except.ok.injEq, Option.some.injEq]
        exact ⟨fun h => ⟨h, h ▸ hm⟩, And.left⟩
      · simp only [hm, if_false, complain, Option.some.injEq, reduceCtorEq, false_iff]
        exact fun h => hm (h.1 ▸ h.2)
  · rename_i hexact
    have hnone : Number.toInt? x = none := by
      unfold Number.toInt?
      split
      · exact absurd ‹_› (hexact _ _ _)
      · rfl
    simp [hnone, complain]

/-- What is read as true or as false is what counts as it. -/
theorem readBoolean_eq_ok {v : Value} {b : Bool} : readBoolean v = .ok b ↔ v.CountsAs b := by
  have hquantity : ∀ w : Value, (∀ s, w ≠ .str s) →
      (w.CountsAs b ↔ w.sameNumber (.bool b) = true) := by
    intro w hw
    exact or_iff_left fun ⟨s, hs, _⟩ => hw s hs
  cases v with
  | bool c =>
    rw [hquantity _ (by simp)]
    cases b <;> cases c <;> simp [readBoolean, Value.sameNumber, Value.asInt?]
  | int n =>
    rw [hquantity _ (by simp), readBoolean, booleanOfInt_eq_ok]
    simp [Value.sameNumber, Value.asInt?]
  | float x =>
    have hsmall : (if b then (1 : Int) else 0).natAbs < Number.twoTo 63 := by
      cases b <;> decide
    have hread : readBoolean (.float x) = .ok b ↔ readFloatInteger x = .ok (if b then 1 else 0) := by
      simp only [readBoolean]
      cases readFloatInteger x with
      | ok n => rw [booleanOfInt_eq_ok, Except.ok.injEq]
      | error e => simp [complain]
    rw [hquantity _ (by simp), hread, readFloatInteger_eq_ok, and_iff_left hsmall, Number.toInt?_eq_some]
    simp [Value.sameNumber, Value.asInt?]
  | str s =>
    have hnumber : (Value.str s).sameNumber (.bool b) = false := by
      simp [Value.sameNumber, Value.asInt?]
    have hapart : ∀ word, word ∈ trueWords → word ∉ falseWords := by decide
    have hword := hapart (String.ofList (s.toList.map Char.toLower))
    simp only [Value.CountsAs, hnumber, Bool.false_eq_true, false_or, Value.str.injEq, exists_eq_left',
      readBoolean, List.contains_iff_mem]
    split_ifs <;> cases b <;> simp_all [complain]
  | null | bytes | list | tuple | set | map | date | time | loop =>
    rw [hquantity _ (by simp)]
    simp [readBoolean, complain, Value.sameNumber, Value.asInt?]

/-! ### Fields -/

variable {read : Value → Checked α} {entries : List (Value × Value)} {name : String} {a : α}

theorem field_eq_ok :
    field entries name read = .ok a ↔ ∃ v, Value.find? (.str name) entries = some v ∧ read v = .ok a := by
  rw [field, Checked.within_eq_ok]
  cases Value.find? (.str name) entries <;> simp [complain]

theorem fieldOr_eq_ok {default : α} :
    fieldOr default entries name read = .ok a ↔
      (Value.find? (.str name) entries = none ∧ a = default) ∨
        ∃ v, Value.find? (.str name) entries = some v ∧ read v = .ok a := by
  unfold fieldOr
  cases Value.find? (.str name) entries with
  | none => simp [eq_comm]
  | some v => simp [Checked.within_eq_ok]

/-! ### Lists -/

theorem readItems_eq_ok {index : Nat} {items : List Value} {as : List α} :
    readItems read index items = .ok as ↔ List.Forall₂ (fun a v => read v = .ok a) as items := by
  induction items generalizing index as with
  | nil => simp [readItems, eq_comm]
  | cons v items ih =>
    simp only [readItems, Action.except_map_eq_ok, Prod.exists, Checked.both_eq_ok, Checked.within_eq_ok, ih]
    constructor
    · rintro ⟨a, more, ⟨hv, hmore⟩, rfl⟩
      exact .cons hv hmore
    · intro h
      cases h with
      | cons hv hmore => exact ⟨_, _, ⟨hv, hmore⟩, rfl⟩

/-- A list is read if each of its items is. -/
theorem readList_eq_ok {v : Value} {as : List α} :
    readList read v = .ok as ↔
      ∃ items, v.HasItems items ∧ List.Forall₂ (fun a v => read v = .ok a) as items := by
  cases v <;> simp [readList, Value.HasItems, readItems_eq_ok, complain]

end Schema

end ReviewGate

import Mathlib.Tactic.SplitIfs
import ReviewGate.Proofs.Text.Lines
import ReviewGate.Text.Utf8

/-! Bytes that are read as UTF-8 with replacements, and line feeds. No line feed is lost or made by the
reading, and a line feed ends whatever character was begun before it, so each line is read on its own. -/
namespace ReviewGate.Text

def lineFeed : UInt8 := 0x0A

namespace Utf8

/-- Whether a character begun can only become one beyond those of a single byte. -/
structure Begun.IsWide (b : Begun) : Prop where
  low : 0x80 ≤ b.low
  next : 2 ≤ b.bits * 64 + (b.low - 0x80)
  last : b.after = 0 → 2 ≤ b.bits

theorem ofNat_ne_feed {n : Nat} (h : n ≠ 10) : Char.ofNat n ≠ '\n' := by
  have hnat : (Char.ofNat n).toNat = n ∨ (Char.ofNat n).toNat = 0 := by
    by_cases hvalid : n.isValidChar
    · left
      rw [Char.ofNat, dif_pos hvalid]
      rfl
    · right
      rw [Char.ofNat, dif_neg hvalid]
      rfl
  intro hfeed
  rw [hfeed] at hnat
  have hten : '\n'.toNat = 10 := rfl
  omega

theorem opening_feed : opening lineFeed = .whole '\n' := by
  decide

theorem opening_whole_ne_feed {byte : UInt8} {c : Char} (h : opening byte = .whole c)
    (hbyte : byte ≠ lineFeed) : c ≠ '\n' := by
  have hn : byte.toNat ≠ 10 := fun hn => hbyte (UInt8.toNat_inj.mp hn)
  unfold opening at h
  dsimp only at h
  split_ifs at h
  cases h
  exact ofNat_ne_feed hn

theorem opening_isWide {byte : UInt8} {b : Begun} (h : opening byte = .begun b) : b.IsWide := by
  unfold opening at h
  dsimp only at h
  split_ifs at h with h1 h2 h3 h4 h5 <;> cases h <;> constructor <;> dsimp only <;> omega

theorem grow_feed {b : Begun} (hb : b.IsWide) : b.grow lineFeed = .broken := by
  have hlow := hb.low
  have hfeed : lineFeed.toNat = 10 := rfl
  unfold Begun.grow
  dsimp only
  rw [if_neg (by omega)]

theorem grow_more_isWide {b b' : Begun} {byte : UInt8} (hb : b.IsWide)
    (h : b.grow byte = .more b') : b'.IsWide := by
  have hnext := hb.next
  unfold Begun.grow at h
  dsimp only at h
  split_ifs at h with hbounds
  split at h
  · cases h
  · cases h
    constructor <;> dsimp only <;> omega

theorem grow_done_ne_feed {b : Begun} {byte : UInt8} {c : Char} (hb : b.IsWide)
    (h : b.grow byte = .done c) : c ≠ '\n' := by
  have hlast := hb.last
  unfold Begun.grow at h
  dsimp only at h
  split_ifs at h with hbounds
  split at h
  · rename_i hafter
    have hbits := hlast hafter
    obtain rfl := Growth.done.inj h
    exact ofNat_ne_feed (by omega)
  · cases h

/-! ### Reading step by step -/

/-- The characters that a byte between two characters completes, and the one that it begins. -/
def start (byte : UInt8) : List Char × Option Begun :=
  match opening byte with
  | .whole c => ([c], none)
  | .begun b => ([], some b)
  | .invalid => ([replacement], none)

/-- The characters that a byte completes, and the one that is begun after it. -/
def step : Option Begun → UInt8 → List Char × Option Begun
  | none, byte => start byte
  | some b, byte =>
    match b.grow byte with
    | .done c => ([c], none)
    | .more b => ([], some b)
    | .broken => (replacement :: (start byte).1, (start byte).2)

theorem decodeLossyFrom_cons (state : Option Begun) (byte : UInt8) (rest : List UInt8) :
    decodeLossyFrom state (byte :: rest) =
      (step state byte).1 ++ decodeLossyFrom (step state byte).2 rest := by
  cases state with
  | none => cases h : opening byte <;> simp [decodeLossyFrom, step, start, h]
  | some b =>
    cases h : b.grow byte with
    | broken => cases h' : opening byte <;> simp [decodeLossyFrom, step, start, h, h']
    | _ => simp [decodeLossyFrom, step, h]

/-- Whether a character begun, if there is one, is wide. -/
def IsWide (state : Option Begun) : Prop :=
  ∀ b, state = some b → b.IsWide

theorem start_isWide (byte : UInt8) : IsWide (start byte).2 := by
  intro b hb
  cases hopening : opening byte <;> simp [start, hopening] at hb
  exact hb ▸ opening_isWide hopening

theorem step_isWide {state : Option Begun} (h : IsWide state) (byte : UInt8) :
    IsWide (step state byte).2 := by
  cases state with
  | none => exact start_isWide byte
  | some b =>
    cases hgrow : b.grow byte with
    | done c => simp [step, hgrow, IsWide]
    | more b' =>
      simp only [step, hgrow, IsWide, Option.some.injEq, forall_eq']
      exact grow_more_isWide (h b rfl) hgrow
    | broken =>
      simp only [step, hgrow]
      exact start_isWide byte

theorem feed_not_mem_start {byte : UInt8} (hbyte : byte ≠ lineFeed) : '\n' ∉ (start byte).1 := by
  have hreplacement : '\n' ≠ replacement := by decide
  cases hopening : opening byte with
  | whole c => simpa [start, hopening, eq_comm] using opening_whole_ne_feed hopening hbyte
  | begun b => simp [start, hopening]
  | invalid => simpa [start, hopening] using hreplacement

/-- Only a line feed completes one. -/
theorem feed_not_mem_step {state : Option Begun} (h : IsWide state) {byte : UInt8}
    (hbyte : byte ≠ lineFeed) : '\n' ∉ (step state byte).1 := by
  have hreplacement : '\n' ≠ replacement := by decide
  cases state with
  | none => exact feed_not_mem_start hbyte
  | some b =>
    cases hgrow : b.grow byte with
    | done c => simpa [step, hgrow, eq_comm] using grow_done_ne_feed (h b rfl) hgrow
    | more b' => simp [step, hgrow]
    | broken => simpa [step, hgrow, hreplacement] using feed_not_mem_start hbyte

/-- A line feed puts an end to what was begun before it. -/
theorem step_feed {state : Option Begun} (h : IsWide state) :
    step state lineFeed = (decodeLossyFrom state [] ++ ['\n'], none) := by
  cases state with
  | none => simp [step, start, opening_feed, decodeLossyFrom]
  | some b => simp [step, start, opening_feed, decodeLossyFrom, grow_feed (h b rfl)]

/-- What comes before a line feed and what comes after it are read on their own. -/
theorem decodeLossyFrom_feed {state : Option Begun} (h : IsWide state) (before after : List UInt8) :
    decodeLossyFrom state (before ++ lineFeed :: after) =
      decodeLossyFrom state before ++ '\n' :: decodeLossyFrom none after := by
  induction before generalizing state with
  | nil => rw [List.nil_append, decodeLossyFrom_cons, step_feed h, List.append_assoc]; rfl
  | cons byte before ih =>
    rw [List.cons_append, decodeLossyFrom_cons, ih (step_isWide h byte), decodeLossyFrom_cons,
      List.append_assoc]

theorem feed_not_mem_decodeLossyFrom {state : Option Begun} (h : IsWide state) {bytes : List UInt8}
    (hbytes : lineFeed ∉ bytes) : '\n' ∉ decodeLossyFrom state bytes := by
  induction bytes generalizing state with
  | nil =>
    have hreplacement : '\n' ≠ replacement := by decide
    cases state <;> simp [decodeLossyFrom, hreplacement]
  | cons byte bytes ih =>
    simp only [List.mem_cons, not_or] at hbytes
    rw [decodeLossyFrom_cons, List.mem_append, not_or]
    exact ⟨feed_not_mem_step h (Ne.symm hbytes.1), ih (step_isWide h byte) hbytes.2⟩

/-- No byte is read as nothing. -/
theorem decodeLossyFrom_ne_nil {state : Option Begun} {bytes : List UInt8}
    (h : state.isSome = true ∨ bytes ≠ []) : decodeLossyFrom state bytes ≠ [] := by
  induction bytes generalizing state with
  | nil =>
    cases state with
    | none => simp at h
    | some b => simp [decodeLossyFrom]
  | cons byte bytes ih =>
    -- A byte completes a character or begins one.
    have hstep : (step state byte).1 ≠ [] ∨ (step state byte).2.isSome = true := by
      cases state with
      | none => cases hopening : opening byte <;> simp [step, start, hopening]
      | some b => cases hgrow : b.grow byte <;> simp [step, hgrow]
    rw [decodeLossyFrom_cons]
    rcases hstep with hcompleted | hbegun
    · exact List.append_ne_nil_of_left_ne_nil hcompleted _
    · exact List.append_ne_nil_of_right_ne_nil _ (ih (Or.inl hbegun))

end Utf8

end ReviewGate.Text

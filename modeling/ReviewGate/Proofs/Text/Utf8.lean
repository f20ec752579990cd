import Mathlib.Tactic.SplitIfs
import ReviewGate.Text.Utf8

/-! Reading UTF-8 gives back every text that was written: no text holds surrogates, so the bytes of its
characters are always those of one character each. -/
namespace ReviewGate.Text.Utf8

private theorem toNat_ofNat_of_lt {n : Nat} (h : n < 256) : (UInt8.ofNat n).toNat = n := by
  simp [UInt8.toNat_ofNat']
  omega

private theorem toNat_bounds (c : Char) : c.toNat < 0xD800 ∨ (0xDFFF < c.toNat ∧ c.toNat < 0x110000) :=
  c.valid

private theorem decodeFrom_one {c : Char} (start : Nat) (rest : List UInt8) (h : c.toNat < 0x80) :
    decodeFrom start [] none (UInt8.ofNat c.toNat :: rest) =
      (decodeFrom (start + 1) [] none rest).map (c :: ·) := by
  have hb := toNat_ofNat_of_lt (n := c.toNat) (by omega)
  simp [decodeFrom, opening, hb, h, Char.ofNat_toNat]

private theorem opening_two {n : Nat} (h : n < 0x800) (h' : 0x80 ≤ n) :
    opening (UInt8.ofNat (0xC0 + n / 64)) = .begun ⟨0, 0x80, 0xBF, n / 64⟩ := by
  have hb := toNat_ofNat_of_lt (n := 0xC0 + n / 64) (by omega)
  simp only [opening, hb]
  rw [if_neg (by omega), if_neg (by omega), if_pos (by omega)]
  simp

private theorem opening_three {n : Nat} (h : n < 0x10000) (h' : 0x800 ≤ n) :
    opening (UInt8.ofNat (0xE0 + n / 4096)) =
      .begun ⟨1, if n / 4096 = 0 then 0xA0 else 0x80, if n / 4096 = 13 then 0x9F else 0xBF,
        n / 4096⟩ := by
  have hb := toNat_ofNat_of_lt (n := 0xE0 + n / 4096) (by omega)
  simp only [opening, hb]
  rw [if_neg (by omega), if_neg (by omega), if_neg (by omega), if_pos (by omega)]
  simp [show (224 + n / 4096 = 237) ↔ n / 4096 = 13 by omega]

private theorem opening_four {n : Nat} (h : n < 0x110000) (h' : 0x10000 ≤ n) :
    opening (UInt8.ofNat (0xF0 + n / 262144)) =
      .begun ⟨2, if n / 262144 = 0 then 0x90 else 0x80, if n / 262144 = 4 then 0x8F else 0xBF,
        n / 262144⟩ := by
  have hb := toNat_ofNat_of_lt (n := 0xF0 + n / 262144) (by omega)
  simp only [opening, hb]
  rw [if_neg (by omega), if_neg (by omega), if_neg (by omega), if_neg (by omega),
    if_pos (by omega)]
  simp [show (240 + n / 262144 = 244) ↔ n / 262144 = 4 by omega]

private theorem grow_last {b : Begun} {n : Nat} (hb : b.after = 0) (hn : n < 64)
    (hlow : b.low ≤ 0x80 + n) (hhigh : 0x80 + n ≤ b.high) :
    b.grow (UInt8.ofNat (0x80 + n)) = .done (Char.ofNat (b.bits * 64 + n)) := by
  have hv := toNat_ofNat_of_lt (n := 0x80 + n) (by omega)
  simp only [Begun.grow, hv]
  rw [if_pos ⟨hlow, hhigh⟩]
  simp [hb]

private theorem grow_next {b : Begun} {n m : Nat} (hb : b.after = m + 1) (hn : n < 64)
    (hlow : b.low ≤ 0x80 + n) (hhigh : 0x80 + n ≤ b.high) :
    b.grow (UInt8.ofNat (0x80 + n)) = .more ⟨m, 0x80, 0xBF, b.bits * 64 + n⟩ := by
  have hv := toNat_ofNat_of_lt (n := 0x80 + n) (by omega)
  simp only [Begun.grow, hv]
  rw [if_pos ⟨hlow, hhigh⟩]
  simp [hb]

theorem decodeFrom_encodeChar (c : Char) (start : Nat) (rest : List UInt8) :
    decodeFrom start [] none (encodeChar c ++ rest) =
      (decodeFrom (start + (encodeChar c).length) [] none rest).map (c :: ·) := by
  have hc := toNat_bounds c
  unfold encodeChar
  dsimp only
  split_ifs with h1 h2 h3
  · exact decodeFrom_one start rest h1
  · have hlast := grow_last (b := ⟨0, 0x80, 0xBF, c.toNat / 64⟩) (n := c.toNat % 64) rfl
      (by omega) (by simp only; omega) (by simp only; omega)
    simp only [List.cons_append, List.nil_append, decodeFrom, opening_two h2 (by omega), hlast]
    simp [show c.toNat / 64 * 64 + c.toNat % 64 = c.toNat by omega, Char.ofNat_toNat]
  · have hnext := grow_next (m := 0)
      (b := ⟨1, if c.toNat / 4096 = 0 then 0xA0 else 0x80, if c.toNat / 4096 = 13 then 0x9F else 0xBF,
        c.toNat / 4096⟩) (n := c.toNat / 64 % 64) rfl (by omega)
      (by simp only; split_ifs <;> omega) (by simp only; split_ifs <;> omega)
    have hlast := grow_last (b := ⟨0, 0x80, 0xBF, c.toNat / 4096 * 64 + c.toNat / 64 % 64⟩)
      (n := c.toNat % 64) rfl (by omega) (by simp only; omega) (by simp only; omega)
    simp only [List.cons_append, List.nil_append, decodeFrom, opening_three h3 (by omega), hnext, hlast]
    simp [show (c.toNat / 4096 * 64 + c.toNat / 64 % 64) * 64 + c.toNat % 64 = c.toNat by omega,
      Char.ofNat_toNat]
  · have hnext := grow_next (m := 1)
      (b := ⟨2, if c.toNat / 262144 = 0 then 0x90 else 0x80, if c.toNat / 262144 = 4 then 0x8F else 0xBF,
        c.toNat / 262144⟩) (n := c.toNat / 4096 % 64) rfl (by omega)
      (by simp only; split_ifs <;> omega) (by simp only; split_ifs <;> omega)
    have hmid := grow_next (m := 0)
      (b := ⟨1, 0x80, 0xBF, c.toNat / 262144 * 64 + c.toNat / 4096 % 64⟩)
      (n := c.toNat / 64 % 64) rfl (by omega) (by simp only; omega) (by simp only; omega)
    have hlast := grow_last
      (b := ⟨0, 0x80, 0xBF, (c.toNat / 262144 * 64 + c.toNat / 4096 % 64) * 64 + c.toNat / 64 % 64⟩)
      (n := c.toNat % 64) rfl (by omega) (by simp only; omega) (by simp only; omega)
    simp only [List.cons_append, List.nil_append, decodeFrom, opening_four (by omega : c.toNat < 0x110000)
      (by omega), hnext, hmid, hlast]
    simp [show ((c.toNat / 262144 * 64 + c.toNat / 4096 % 64) * 64 + c.toNat / 64 % 64) * 64 +
      c.toNat % 64 = c.toNat by omega, Char.ofNat_toNat]

theorem decodeFrom_flatMap_encodeChar (cs : List Char) (start : Nat) :
    decodeFrom start [] none (cs.flatMap encodeChar) = .ok cs := by
  induction cs generalizing start with
  | nil => rfl
  | cons c cs ih =>
    rw [List.flatMap_cons, decodeFrom_encodeChar, ih]
    rfl

/-- What has been written is read back, whatever the text. -/
theorem decode_encode (s : String) : decode (encode s) = .ok s := by
  simp [decode, encode, decodeFrom_flatMap_encodeChar, Except.map]

/-! ### Halves of pairs -/

private theorem ofNat_ne_of_lt {n : Nat} (h : n < 256) (hne : n ≠ 0xED) : UInt8.ofNat n ≠ 0xED := by
  intro heq
  have hvalue := congrArg UInt8.toNat heq
  rw [toNat_ofNat_of_lt h] at hvalue
  exact hne hvalue

private theorem replaceHalves_cons {byte : UInt8} (h : byte ≠ 0xED) (rest : List UInt8) :
    replaceHalves (byte :: rest) = byte :: replaceHalves rest := by
  rw [replaceHalves]
  rintro a b more rfl
  exact absurd rfl h

private theorem replaceHalves_whole {a b : UInt8} (h : a < 0xA0) (rest : List UInt8) :
    replaceHalves (0xED :: a :: b :: rest) = 0xED :: replaceHalves (a :: b :: rest) := by
  rw [replaceHalves, if_neg]
  simp [UInt8.not_le.mpr h]

theorem replaceHalves_encodeChar (c : Char) (rest : List UInt8) :
    replaceHalves (encodeChar c ++ rest) = encodeChar c ++ replaceHalves rest := by
  have hc := toNat_bounds c
  unfold encodeChar
  dsimp only
  split_ifs with h1 h2 h3
  · rw [List.singleton_append, replaceHalves_cons (ofNat_ne_of_lt (by omega) (by omega))]
    rfl
  · simp only [List.cons_append, List.nil_append]
    rw [replaceHalves_cons (ofNat_ne_of_lt (by omega) (by omega)),
      replaceHalves_cons (ofNat_ne_of_lt (by omega) (by omega))]
  · simp only [List.cons_append, List.nil_append]
    have hend : replaceHalves (UInt8.ofNat (0x80 + c.toNat / 64 % 64) ::
        UInt8.ofNat (0x80 + c.toNat % 64) :: rest) = UInt8.ofNat (0x80 + c.toNat / 64 % 64) ::
          UInt8.ofNat (0x80 + c.toNat % 64) :: replaceHalves rest := by
      rw [replaceHalves_cons (ofNat_ne_of_lt (by omega) (by omega)),
        replaceHalves_cons (ofNat_ne_of_lt (by omega) (by omega))]
    by_cases hstart : c.toNat / 4096 = 13
    -- This start could be that of a half, but the character is none.
    · have hbits : c.toNat / 64 % 64 < 32 := by omega
      have hlow : UInt8.ofNat (0x80 + c.toNat / 64 % 64) < 0xA0 := by
        rw [UInt8.lt_iff_toNat_lt, toNat_ofNat_of_lt (by omega)]
        simpa using by omega
      have hbyte : UInt8.ofNat (0xE0 + c.toNat / 4096) = 0xED := by rw [hstart]; rfl
      rw [hbyte, replaceHalves_whole hlow, hend]
    · rw [replaceHalves_cons (ofNat_ne_of_lt (by omega) (by omega)), hend]
  · simp only [List.cons_append, List.nil_append]
    rw [replaceHalves_cons (ofNat_ne_of_lt (by omega) (by omega)),
      replaceHalves_cons (ofNat_ne_of_lt (by omega) (by omega)),
      replaceHalves_cons (ofNat_ne_of_lt (by omega) (by omega)),
      replaceHalves_cons (ofNat_ne_of_lt (by omega) (by omega))]

/-- No text has halves of pairs among its bytes. -/
theorem replaceHalves_encode (s : String) : replaceHalves (encode s) = encode s := by
  have hchars : ∀ cs : List Char, replaceHalves (cs.flatMap encodeChar) = cs.flatMap encodeChar := by
    intro cs
    induction cs with
    | nil => rfl
    | cons c cs ih => rw [List.flatMap_cons, replaceHalves_encodeChar, ih]
  exact hchars s.toList

/-! ### Reading with replacements -/

/-- Where nothing has to be replaced, reading with replacements reads the same. -/
theorem decodeLossyFrom_of_decodeFrom {start : Nat} {read : List UInt8} {state : Option Begun}
    {bytes : List UInt8} {cs : List Char} (h : decodeFrom start read state bytes = .ok cs) :
    decodeLossyFrom state bytes = cs := by
  have hrest : ∀ {next : Except Malformed (List Char)} {c : Char} {cs : List Char},
      next.map (c :: ·) = .ok cs → ∃ more, next = .ok more ∧ cs = c :: more := by
    intro next c cs hnext
    cases next with
    | error m => cases hnext
    | ok more => exact ⟨more, rfl, (Except.ok.inj hnext).symm⟩
  induction bytes generalizing start read state cs with
  | nil =>
    cases state with
    | none =>
      cases h
      rfl
    | some b => cases h
  | cons byte bytes ih =>
    cases state with
    | none =>
      rw [decodeFrom] at h
      rw [decodeLossyFrom]
      rcases hopening : opening byte with c | b | _ <;> simp only [hopening] at h ⊢
      · obtain ⟨more, hmore, rfl⟩ := hrest h
        rw [ih hmore]
      · exact ih h
      · cases h
    | some b =>
      rw [decodeFrom] at h
      rw [decodeLossyFrom]
      rcases hgrow : b.grow byte with c | b' | _ <;> simp only [hgrow] at h ⊢
      · obtain ⟨more, hmore, rfl⟩ := hrest h
        rw [ih hmore]
      · exact ih h
      · cases h

theorem decodeLossy_encode (s : String) : decodeLossy (encode s) = s := by
  rw [decodeLossy, encode, decodeLossyFrom_of_decodeFrom (decodeFrom_flatMap_encodeChar s.toList 0),
    String.ofList_toList]

/-- Different texts have different bytes. -/
theorem mem_map_encode {s : String} {texts : List String} :
    encode s ∈ texts.map encode ↔ s ∈ texts := by
  constructor
  · intro h
    obtain ⟨t, ht, hencode⟩ := List.mem_map.mp h
    have hdecode := congrArg decodeLossy hencode
    rw [decodeLossy_encode, decodeLossy_encode] at hdecode
    exact hdecode ▸ ht
  · exact List.mem_map_of_mem

end ReviewGate.Text.Utf8

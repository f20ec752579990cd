import ReviewGate.Json.Encoded
import ReviewGate.Proofs.Json.RoundTrip
import ReviewGate.Proofs.Text.Utf8

/-! JSON as bytes: a value that is written is read back from them, because what is written is taken for no
other encoding. -/
namespace ReviewGate.Json

/-- A document of bytes between one and 127 has no mark, and is no wider encoding. -/
theorem detect_of_narrow {document : List UInt8} (h : ∀ b ∈ document, b ≠ 0 ∧ b < 0x80) :
    detect document = (.bytes, document) := by
  have hencoding : encodingOf document = .bytes := by
    unfold encodingOf
    split
    · rename_i a b
      simp [(h a (by simp)).1, (h b (by simp)).1]
    · rename_i a b _ _ _
      simp [(h a (by simp)).1, (h b (by simp)).1]
    · rfl
  unfold detect
  split
  · exact absurd (h 0x00 (by simp)).1 (by decide)
  · exact absurd (h 0xFF (by simp)).2 (by decide)
  · exact absurd (h 0xFE (by simp)).2 (by decide)
  · exact absurd (h 0xFF (by simp)).2 (by decide)
  · exact absurd (h 0xEF (by simp)).2 (by decide)
  · rw [hencoding]

theorem narrow_of_isInk {c : Char} (h : IsInk c) {b : UInt8} (hb : b ∈ Text.Utf8.encodeChar c) :
    b ≠ 0 ∧ b < 0x80 := by
  have hbounds : 0 < c.toNat ∧ c.toNat < 127 := by
    rcases h with rfl | h
    · decide
    · omega
  have hbyte : Text.Utf8.encodeChar c = [UInt8.ofNat c.toNat] := by
    unfold Text.Utf8.encodeChar
    exact if_pos (by omega)
  obtain rfl : b = UInt8.ofNat c.toNat := by simpa [hbyte] using hb
  have hall : ∀ n, n < 127 → 0 < n → UInt8.ofNat n ≠ 0 ∧ UInt8.ofNat n < 0x80 := by decide
  exact hall c.toNat hbounds.2 hbounds.1

/-- A value that is written is read back from the bytes of the text. -/
theorem readBytes_write {v : Value} (hv : IsPlain v) :
    readBytes (Text.Utf8.encode (write v ++ "\n")) = some v := by
  have hink : ∀ c ∈ (write v ++ "\n").toList, IsInk c := by
    intro c hc
    rw [String.toList_append, write, String.toList_ofList] at hc
    rcases List.mem_append.mp hc with hc | hc
    · exact written_printable v hv 0 c hc
    · exact Or.inl (List.mem_singleton.mp hc)
  have hnarrow : ∀ b ∈ Text.Utf8.encode (write v ++ "\n"), b ≠ 0 ∧ b < 0x80 := by
    intro b hb
    obtain ⟨c, hc, hb⟩ := List.mem_flatMap.mp hb
    exact narrow_of_isInk (hink c hc) hb
  have htext : textOf? (Text.Utf8.encode (write v ++ "\n")) = some (write v ++ "\n") := by
    rw [textOf?, detect_of_narrow hnarrow]
    simp [Text.Utf8.replaceHalves_encode, Text.Utf8.decode_encode, Except.toOption]
  have hread : read .endless (write v ++ "\n") = .ok v := read_write hv trivial
  simp [readBytes, htext, hread, Except.toOption]

end ReviewGate.Json

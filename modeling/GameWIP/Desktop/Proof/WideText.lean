import GameWIP.Desktop.WideText
import GameWIP.Unicode.Proof.RoundTrip

/-!
# Wide text

`utf8ToUtf16` and `utf16ToUtf8` on valid text: the encodings of one list of scalars. Nothing else is
converted, and a text without NUL becomes wide text without NUL.
-/

namespace Desktop

open Unicode Lib

variable {ss : List Nat} {text : List UInt8} {wide : List UInt16}

/-- A destination behind the source shares no byte with it. -/
theorem nonOverlapping_endAddress {α β : Type} {m n : Nat} {s : Span α m} {d : List β}
    (hd : d.length * n < 2 ^ 63) : NonOverlapping s ⟨s.endAddress, d, hd⟩ :=
  fun _ h => absurd h.1.2 (Nat.not_lt.2 h.2.1)

/-- The measure of a text counts its units in the other encoding. -/
theorem measureToUtf16_eq {t : Span UInt8 1} (hv : utf8Code.Valid ss)
    (ht : t.elements = utf8Code.encodeAll ss) :
    Utf8.measureToUtf16 t =
      ⟨t.elements.length, (utf16Code.encodeAll ss).length, .measured⟩ := by
  have hlen := t.size_lt
  obtain ⟨ss', hv', -, ht', hm, -⟩ := transcode (D := utf16Code) utf8Decoder_decodes
    utf16Encoder_encodes (fun _ h => h) (fun s _ => length_utf16Units_le)
    (ht ▸ utf8Code.isText_encodeAll hv) (by omega)
  obtain rfl : ss' = ss := PrefixCode.encodeAll_injective hv' hv (ht'.symm.trans ht)
  rw [Utf8.measureToUtf16, hm]

theorem measureToUtf8_eq {u : Span UInt16 2} (hv : utf16Code.Valid ss)
    (hu : u.elements = utf16Code.encodeAll ss) :
    Utf16.measureToUtf8 u =
      ⟨u.elements.length, (utf8Code.encodeAll ss).length, .measured⟩ := by
  have hlen := u.size_lt
  obtain ⟨ss', hv', -, hu', hm, -⟩ := transcode (D := utf8Code) utf16Decoder_decodes
    utf8Encoder_encodes (fun _ h => h) (fun s _ => length_utf8Bytes_le)
    (hu ▸ utf16Code.isText_encodeAll hv) (by omega)
  obtain rfl : ss' = ss := PrefixCode.encodeAll_injective hv' hv (hu'.symm.trans hu)
  rw [Utf16.measureToUtf8, hm]

/-- Valid UTF-8 without NUL becomes the UTF-16 of the same scalars. -/
theorem utf8ToUtf16_encodeAll (hv : utf8Code.Valid ss) (hnul : 0 ∉ utf8Code.encodeAll ss)
    (hlen : (utf8Code.encodeAll ss).length < 2 ^ 63)
    (hwide : (utf16Code.encodeAll ss).length * 2 < 2 ^ 63) :
    utf8ToUtf16 (utf8Code.encodeAll ss) = .ok (utf16Code.encodeAll ss) := by
  unfold utf8ToUtf16
  split
  · rename_i hempty
    -- no scalar encodes to nothing
    obtain rfl : ss = [] := PrefixCode.encodeAll_injective hv utf8Code.valid_nil
      (List.isEmpty_iff.1 hempty)
    rfl
  have hs : (utf8Code.encodeAll ss).length * 1 < 2 ^ 63 := by rwa [Nat.mul_one]
  have hd : (List.replicate (utf16Code.encodeAll ss).length (0 : UInt16)).length * 2 < 2 ^ 63 := by
    rwa [List.length_replicate]
  obtain ⟨ss', hv', hss, hm, hc⟩ := Utf8.convertToUtf16_spec
    (t := ⟨0, utf8Code.encodeAll ss, hs⟩) (utf8Code.isText_encodeAll hv)
  obtain rfl : ss' = ss := PrefixCode.encodeAll_injective hv' hv hss.symm
  have hconv := hc ⟨_, _, hd⟩ (nonOverlapping_endAddress hd)
    (Nat.le_of_eq (by rw [hm, List.length_replicate]))
  rw [if_neg (by simpa using hnul), dif_pos hs]
  dsimp only
  rw [measureToUtf16_eq hv rfl, if_neg (by simp), if_neg (by simp), dif_pos hd, hconv]
  simp

/-- Valid UTF-16 becomes the UTF-8 of the same scalars. -/
theorem utf16ToUtf8_encodeAll (hv : utf16Code.Valid ss)
    (hlen : (utf8Code.encodeAll ss).length < 2 ^ 63)
    (hwide : (utf16Code.encodeAll ss).length * 2 < 2 ^ 63) :
    utf16ToUtf8 (utf16Code.encodeAll ss) = .ok (utf8Code.encodeAll ss) := by
  unfold utf16ToUtf8
  split
  · rename_i hempty
    obtain rfl : ss = [] := PrefixCode.encodeAll_injective hv utf16Code.valid_nil
      (List.isEmpty_iff.1 hempty)
    rfl
  have hd : (List.replicate (utf8Code.encodeAll ss).length (0 : UInt8)).length * 1 < 2 ^ 63 := by
    rwa [List.length_replicate, Nat.mul_one]
  obtain ⟨ss', hv', hss, hm, hc⟩ := Utf16.convertToUtf8_spec
    (u := ⟨0, utf16Code.encodeAll ss, hwide⟩) (utf16Code.isText_encodeAll hv)
  obtain rfl : ss' = ss := PrefixCode.encodeAll_injective hv' hv hss.symm
  have hconv := hc ⟨_, _, hd⟩ (nonOverlapping_endAddress hd)
    (Nat.le_of_eq (by rw [hm, List.length_replicate]))
  dsimp only
  rw [measureToUtf8_eq hv rfl, if_neg (by simp), if_neg (by simp), dif_pos hd, hconv]
  simp

/-- Only valid UTF-8 without NUL is converted, and only to text that can be held. -/
theorem of_utf8ToUtf16 (h : utf8ToUtf16 text = .ok wide) :
    ∃ ss, utf8Code.Valid ss ∧ text = utf8Code.encodeAll ss ∧ 0 ∉ text ∧ text.length < 2 ^ 63 ∧
      (utf16Code.encodeAll ss).length * 2 < 2 ^ 63 ∧ wide = utf16Code.encodeAll ss := by
  by_cases hempty : text = []
  · subst hempty
    obtain rfl : [] = wide := Except.ok.inj h
    exact ⟨[], utf8Code.valid_nil, rfl, List.not_mem_nil, by simp, by simp, rfl⟩
  have hok := h
  unfold utf8ToUtf16 at h
  rw [if_neg (mt List.isEmpty_iff.1 hempty)] at h
  split at h
  · cases h
  rename_i hnul
  split at h
  · rename_i hs
    dsimp only at h
    split at h
    · cases h
    split at h
    · cases h
    rename_i hmeasured
    obtain ⟨ss, hv, rfl⟩ := isText_of_measured utf8Decoder_decodes (not_not.1 hmeasured)
    rw [measureToUtf16_eq hv rfl] at h
    split at h
    · rename_i hd
      rw [List.length_replicate] at hd
      have hnul : 0 ∉ utf8Code.encodeAll ss := by simpa using hnul
      rw [Nat.mul_one] at hs
      refine ⟨ss, hv, rfl, hnul, hs, hd, ?_⟩
      exact Except.ok.inj (hok.symm.trans (utf8ToUtf16_encodeAll hv hnul hs hd))
    · cases h
  · cases h

/-- Only valid UTF-16 is converted. -/
theorem of_utf16ToUtf8 {out : List UInt8} (h : utf16ToUtf8 wide = .ok out) :
    utf16Code.IsText wide := by
  by_cases hempty : wide = []
  · exact hempty ▸ utf16Code.isText_nil
  unfold utf16ToUtf8 at h
  rw [if_neg (mt List.isEmpty_iff.1 hempty)] at h
  split at h
  · dsimp only at h
    split at h
    · cases h
    split at h
    · cases h
    rename_i hmeasured
    exact isText_of_measured utf16Decoder_decodes (not_not.1 hmeasured)
  · cases h

/-- A scalar whose UTF-16 has a zero unit is U+0000. -/
theorem zero_mem_utf16Units {s : Nat} (hs : isScalarValue s = true) (h : 0 ∈ utf16Units s) :
    s = 0 := by
  rw [isScalarValue_iff] at hs
  by_cases hlow : s ≤ 0xFFFF
  · rw [utf16Units_one hlow, List.mem_singleton] at h
    have hunit := congrArg UInt16.toNat h
    rwa [toNat_unit (by omega), eq_comm] at hunit
  · rw [utf16Units_two (Nat.not_le.1 hlow)] at h
    rcases List.mem_cons.1 h with h | h
    · have hunit := congrArg UInt16.toNat h
      rw [toNat_unit (by omega)] at hunit
      exact absurd hunit (by simp; omega)
    · have hunit := congrArg UInt16.toNat (List.mem_singleton.1 h)
      rw [toNat_unit (by omega)] at hunit
      exact absurd hunit (by simp; omega)

/-- A text without NUL has no NUL in the other encoding. -/
theorem zero_not_mem_utf16 (hv : utf8Code.Valid ss) (hnul : 0 ∉ utf8Code.encodeAll ss) :
    0 ∉ utf16Code.encodeAll ss := by
  intro h
  obtain ⟨s, hs, hzero⟩ := List.mem_flatMap.1 h
  obtain rfl := zero_mem_utf16Units (hv s hs) hzero
  refine hnul (List.mem_flatMap.2 ⟨0, hs, ?_⟩)
  show (0 : UInt8) ∈ utf8Bytes 0
  rw [utf8Bytes_one (by omega)]
  exact List.mem_singleton_self _

end Desktop

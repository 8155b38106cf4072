import GameWIP.Unicode.Proof.Utf8Code

/-!
# The UTF-16 codec is a prefix code

`utf16Code`: the decoder `decodeUtf16Scalar` and the encoding `utf16Units` form a prefix code of
the Unicode scalar values. A unit outside the surrogates is its own scalar, and a pair of a high
and a low surrogate holds the twenty bits above U+FFFF.
-/

namespace Unicode

open Lib

/-! ## Units and surrogates -/

theorem unit_ofNat {u : UInt16} {n : Nat} (h : u.toNat = n) : UInt16.ofNat n = u := by
  apply UInt16.toNat_inj.1
  rw [UInt16.toNat_ofNat', ← h]
  exact Nat.mod_eq_of_lt u.toNat_lt

theorem toNat_unit {n : Nat} (h : n < 65536) : (UInt16.ofNat n).toNat = n := by
  rw [UInt16.toNat_ofNat']
  exact Nat.mod_eq_of_lt h

theorem isHighSurrogate_iff {u : UInt16} :
    Utf16.isHighSurrogate u = true ↔ 0xD800 ≤ u.toNat ∧ u.toNat ≤ 0xDBFF := by
  simp [Utf16.isHighSurrogate, UInt16.le_iff_toNat_le]

theorem isLowSurrogate_iff {u : UInt16} :
    Utf16.isLowSurrogate u = true ↔ 0xDC00 ≤ u.toNat ∧ u.toNat ≤ 0xDFFF := by
  simp [Utf16.isLowSurrogate, UInt16.le_iff_toNat_le]

theorem isSurrogate_iff {u : UInt16} :
    Utf16.isSurrogate u = true ↔ 0xD800 ≤ u.toNat ∧ u.toNat ≤ 0xDFFF := by
  rw [Utf16.isSurrogate, Bool.or_eq_true, isHighSurrogate_iff, isLowSurrogate_iff]
  omega

/-! ## The encoding -/

theorem utf16Units_one {v : Nat} (h : v ≤ 0xFFFF) : utf16Units v = [UInt16.ofNat v] := by
  simp [utf16Units, encodeUtf16Unchecked, utf16EncodedLength, h, Utf16.kMaximumScalarCodeUnits,
    List.replicate]

theorem utf16Units_two {v : Nat} (h : 0xFFFF < v) :
    utf16Units v = [UInt16.ofNat (0xD800 + (v - 0x10000) / 1024),
      UInt16.ofNat (0xDC00 + (v - 0x10000) % 1024)] := by
  have h0 : (v - 0x10000) >>> 10 = (v - 0x10000) / 1024 := Nat.shiftRight_eq_div_pow _ 10
  have h1 : (v - 0x10000) &&& 0x3FF = (v - 0x10000) % 1024 := Nat.and_two_pow_sub_one_eq_mod _ 10
  simp only [utf16Units, encodeUtf16Unchecked, utf16EncodedLength, Utf16.kMaximumScalarCodeUnits,
    List.replicate, if_neg (Nat.not_le.2 h), h0, h1]
  rfl

@[simp] theorem length_utf16Units (v : Nat) : (utf16Units v).length = utf16EncodedLength v := by
  by_cases h : v ≤ 0xFFFF
  · rw [utf16Units_one h, utf16EncodedLength, if_pos h]
    rfl
  · rw [utf16Units_two (Nat.not_le.1 h), utf16EncodedLength, if_neg h]
    rfl

theorem utf16Units_ne_nil (v : Nat) : utf16Units v ≠ [] := by
  rw [← List.length_pos_iff, length_utf16Units, utf16EncodedLength]
  split_ifs <;> omega

/-- What the unchecked encoder leaves in a destination that is large enough. -/
theorem encodeUtf16Unchecked_eq {v : Nat} {d : List UInt16} (h : utf16EncodedLength v ≤ d.length) :
    encodeUtf16Unchecked v d = utf16Units v ++ d.drop (utf16EncodedLength v) := by
  rcases d with _ | ⟨d0, _ | ⟨d1, d⟩⟩ <;>
    simp only [List.length_cons, List.length_nil, utf16EncodedLength] at h <;>
    unfold utf16Units encodeUtf16Unchecked utf16EncodedLength <;>
    split_ifs at h ⊢ <;>
    first
    | omega
    | rfl

/-! ## The decoder -/

section
variable {u v : UInt16} {rest : List UInt16}

theorem decode_bmp (h : ¬ (0xD800 ≤ u.toNat ∧ u.toNat ≤ 0xDFFF)) :
    decodeUtf16Scalar (u :: rest) =
      { scalar := u.toNat, codeUnitsConsumed := 1, outcome := .decoded } := by
  simp [decodeUtf16Scalar, mt isSurrogate_iff.1 h]

theorem decode_loneLow (h : 0xDC00 ≤ u.toNat ∧ u.toNat ≤ 0xDFFF) :
    decodeUtf16Scalar (u :: rest) = { outcome := .invalidEncoding } := by
  have hs := isSurrogate_iff.2 (show 0xD800 ≤ u.toNat ∧ u.toNat ≤ 0xDFFF by omega)
  simp [decodeUtf16Scalar, hs, isLowSurrogate_iff.2 h]

theorem decode_high (h : 0xD800 ≤ u.toNat ∧ u.toNat ≤ 0xDBFF) : decodeUtf16Scalar [u] = {} := by
  have hs := isSurrogate_iff.2 (show 0xD800 ≤ u.toNat ∧ u.toNat ≤ 0xDFFF by omega)
  have hl := mt isLowSurrogate_iff.1 (show ¬ (0xDC00 ≤ u.toNat ∧ u.toNat ≤ 0xDFFF) by omega)
  simp [decodeUtf16Scalar, hs, hl]

theorem decode_pair (h : 0xD800 ≤ u.toNat ∧ u.toNat ≤ 0xDBFF) :
    decodeUtf16Scalar (u :: v :: rest) =
      if 0xDC00 ≤ v.toNat ∧ v.toNat ≤ 0xDFFF then
        { scalar := 0x10000 + (u.toNat - 0xD800) * 1024 + (v.toNat - 0xDC00),
          codeUnitsConsumed := 2, outcome := .decoded }
      else { outcome := .invalidEncoding } := by
  have hs := isSurrogate_iff.2 (show 0xD800 ≤ u.toNat ∧ u.toNat ≤ 0xDFFF by omega)
  have hl := mt isLowSurrogate_iff.1 (show ¬ (0xDC00 ≤ u.toNat ∧ u.toNat ≤ 0xDFFF) by omega)
  have hv := isLowSurrogate_iff (u := v)
  by_cases hlow : 0xDC00 ≤ v.toNat ∧ v.toNat ≤ 0xDFFF
  · simp [decodeUtf16Scalar, hs, hl, hv.2 hlow, hlow, Nat.shiftLeft_eq]
  · simp [decodeUtf16Scalar, hs, hl, mt hv.1 hlow, hlow]

end

/-! ## The prefix code -/

/-- The result of decoding as a step of the code. -/
def Utf16.DecodeResult.decoding (r : Utf16.DecodeResult) : Decoding Nat :=
  ScalarDecode.decoding ⟨r.scalar, r.codeUnitsConsumed, r.outcome⟩

theorem unitDecoding_decoded {s n s' n' : Nat} :
    Utf16.DecodeResult.decoding { scalar := s, codeUnitsConsumed := n, outcome := .decoded } =
      .decoded s' n' ↔ s = s' ∧ n = n' :=
  Decoding.decoded.injEq s n s' n' ▸ Iff.rfl

/-- A decoded scalar is a scalar value whose encoding the units start with. -/
theorem decodeUtf16Scalar_sound {b : List UInt16} {s n : Nat}
    (h : (decodeUtf16Scalar b).decoding = .decoded s n) :
    isScalarValue s = true ∧ n = (utf16Units s).length ∧ utf16Units s <+: b := by
  rw [isScalarValue_iff]
  rcases b with _ | ⟨u, rest⟩
  · cases h
  have hu := u.toNat_lt
  by_cases hbmp : 0xD800 ≤ u.toNat ∧ u.toNat ≤ 0xDFFF
  swap
  · rw [decode_bmp hbmp] at h
    obtain ⟨rfl, rfl⟩ := unitDecoding_decoded.1 h
    rw [utf16Units_one (by omega), unit_ofNat rfl]
    exact ⟨by omega, rfl, List.prefix_append [u] rest⟩
  by_cases hlow : 0xDC00 ≤ u.toNat
  · rw [decode_loneLow ⟨hlow, hbmp.2⟩] at h
    cases h
  rcases rest with _ | ⟨v, rest⟩
  · rw [decode_high (by omega)] at h
    cases h
  rw [decode_pair (by omega)] at h
  split_ifs at h with hv
  swap
  · cases h
  obtain ⟨rfl, rfl⟩ := unitDecoding_decoded.1 h
  rw [utf16Units_two (by omega), unit_ofNat (u := u) (by omega), unit_ofNat (u := v) (by omega)]
  exact ⟨by omega, rfl, List.prefix_append [u, v] rest⟩

/-- Units that start with the encoding of a scalar value decode to it. -/
theorem decodeUtf16Scalar_utf16Units {s : Nat} (hs : isScalarValue s = true)
    (rest : List UInt16) :
    decodeUtf16Scalar (utf16Units s ++ rest) =
      { scalar := s, codeUnitsConsumed := utf16EncodedLength s, outcome := .decoded } := by
  rw [isScalarValue_iff] at hs
  by_cases h1 : s ≤ 0xFFFF
  · have e0 : (UInt16.ofNat s).toNat = s := toNat_unit (by omega)
    rw [utf16Units_one h1, List.singleton_append, decode_bmp (by omega), e0, utf16EncodedLength,
      if_pos h1]
  · have e0 : (UInt16.ofNat (0xD800 + (s - 0x10000) / 1024)).toNat =
        0xD800 + (s - 0x10000) / 1024 := toNat_unit (by omega)
    have e1 : (UInt16.ofNat (0xDC00 + (s - 0x10000) % 1024)).toNat =
        0xDC00 + (s - 0x10000) % 1024 := toNat_unit (by omega)
    have hv : 0x10000 + (0xD800 + (s - 0x10000) / 1024 - 0xD800) * 1024 +
        (0xDC00 + (s - 0x10000) % 1024 - 0xDC00) = s := by omega
    rw [utf16Units_two (by omega), List.cons_append, List.singleton_append,
      decode_pair (by omega), e0, e1, if_pos (by omega), utf16EncodedLength, if_neg h1, hv]

/-- Units that could still become a scalar are a proper prefix of an encoding. -/
theorem decodeUtf16Scalar_completable {b : List UInt16}
    (h : (decodeUtf16Scalar b).decoding = .incomplete) :
    ∃ s, isScalarValue s = true ∧ b <+: utf16Units s ∧ b ≠ utf16Units s := by
  rcases b with _ | ⟨u, rest⟩
  · exact ⟨0, by decide, List.nil_prefix, (utf16Units_ne_nil 0).symm⟩
  have hu := u.toNat_lt
  by_cases hbmp : 0xD800 ≤ u.toNat ∧ u.toNat ≤ 0xDFFF
  swap
  · rw [decode_bmp hbmp] at h
    cases h
  by_cases hlow : 0xDC00 ≤ u.toNat
  · rw [decode_loneLow ⟨hlow, hbmp.2⟩] at h
    cases h
  rcases rest with _ | ⟨v, rest⟩
  · -- the lowest scalar of the row of this high surrogate
    refine ⟨0x10000 + (u.toNat - 0xD800) * 1024, isScalarValue_iff.2 (by omega), ?_⟩
    rw [utf16Units_two (by omega), unit_ofNat (u := u) (by omega)]
    simp
  · rw [decode_pair (by omega)] at h
    split_ifs at h <;> cases h

/-- A proper prefix of an encoding asks for more units. -/
theorem decodeUtf16Scalar_proper_prefix {b : List UInt16} {s : Nat} (hs : isScalarValue s = true)
    (hp : b <+: utf16Units s) (hne : b ≠ utf16Units s) :
    (decodeUtf16Scalar b).decoding = .incomplete := by
  rw [isScalarValue_iff] at hs
  have hlen : b.length < (utf16Units s).length :=
    Nat.lt_of_le_of_ne hp.length_le fun he => hne (hp.eq_of_length he)
  rw [List.prefix_iff_eq_take] at hp
  by_cases h1 : s ≤ 0xFFFF
  · rw [utf16Units_one h1] at hp hlen
    obtain hk : b.length = 0 := by simpa using hlen
    rw [hp, hk]
    rfl
  · have e0 : (UInt16.ofNat (0xD800 + (s - 0x10000) / 1024)).toNat =
        0xD800 + (s - 0x10000) / 1024 := toNat_unit (by omega)
    rw [utf16Units_two (by omega)] at hp hlen
    obtain hk | hk : b.length = 0 ∨ b.length = 1 := by simp at hlen; omega
    all_goals rw [hk] at hp; rw [hp]
    · rfl
    · change (decodeUtf16Scalar [_]).decoding = _
      rw [decode_high (by omega)]
      rfl

/-- **The UTF-16 code** of the Unicode scalar values. -/
def utf16Code : PrefixCode Nat UInt16 where
  valid s := isScalarValue s = true
  encode := utf16Units
  decode b := (decodeUtf16Scalar b).decoding
  encode_ne_nil _ := utf16Units_ne_nil _
  decoded_iff := by
    intro b s n
    refine ⟨decodeUtf16Scalar_sound, ?_⟩
    rintro ⟨hs, rfl, rest, rfl⟩
    rw [decodeUtf16Scalar_utf16Units hs rest, length_utf16Units]
    rfl
  incomplete_iff := by
    intro b
    refine ⟨decodeUtf16Scalar_completable, ?_⟩
    rintro ⟨s, hs, hp, hne⟩
    exact decodeUtf16Scalar_proper_prefix hs hp hne

theorem utf16Decoder_decodes : Decodes utf16Code utf16Decoder := fun _ => rfl

theorem utf16Encoder_encodes : Encodes utf16Code utf16Encoder where
  length_eq _ := (length_utf16Units _).symm
  store_eq _ h := encodeUtf16Unchecked_eq h

end Unicode

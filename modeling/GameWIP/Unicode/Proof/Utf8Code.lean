import GameWIP.Unicode.Proof.ScalarLoop

/-!
# The UTF-8 codec is a prefix code

`utf8Code`: the decoder `decodeUtf8Scalar` and the encoding `utf8Bytes` form a prefix code of the
Unicode scalar values (`decodeUtf8Scalar_decoded_iff`, `decodeUtf8Scalar_incomplete_iff`). The
masks and shifts of both directions are first brought to division and remainder
(`utf8Bytes_two` and its siblings, `decode_two` and its siblings), so that the byte windows of
the decoder and the ranges of the encoder meet in linear arithmetic.
-/

namespace Unicode

open Lib

/-! ## Masks and shifts as arithmetic -/

theorem and_0x3F (x : Nat) : x &&& 0x3F = x % 64 := Nat.and_two_pow_sub_one_eq_mod x 6

theorem shiftLeft_or {a b k : Nat} (h : b < 2 ^ k) : a <<< k ||| b = a * 2 ^ k + b := by
  rw [Nat.shiftLeft_eq, Nat.mul_comm, ← Nat.two_pow_add_eq_or_of_lt h]

theorem or_low {k a b : Nat} (h : b < 2 ^ k) : (2 ^ k * a) ||| b = 2 ^ k * a + b :=
  (Nat.two_pow_add_eq_or_of_lt h a).symm

theorem and_0xC0_eq {n : Nat} (h : n < 256) : n &&& 0xC0 = 0x80 ↔ 0x80 ≤ n ∧ n ≤ 0xBF := by
  have key : ∀ n < 256, n &&& 0xC0 = 0x80 ↔ 0x80 ≤ n ∧ n ≤ 0xBF := by decide +kernel
  exact key n h

theorem byteValue_lt (b : UInt8) : byteValue b < 256 := b.toNat_lt

theorem isContinuationByte_iff (b : UInt8) :
    isContinuationByte b = true ↔ 0x80 ≤ byteValue b ∧ byteValue b ≤ 0xBF := by
  rw [isContinuationByte, beq_iff_eq, and_0xC0_eq (byteValue_lt b)]

/-- A byte is the low byte of a number when the values agree. -/
theorem ofNat_eq {b : UInt8} {n : Nat} (h : byteValue b = n) : UInt8.ofNat n = b := by
  apply UInt8.toNat_inj.1
  rw [UInt8.toNat_ofNat', ← h]
  exact Nat.mod_eq_of_lt (byteValue_lt b)

theorem byteValue_ofNat {n : Nat} (h : n < 256) : byteValue (UInt8.ofNat n) = n := by
  rw [byteValue, UInt8.toNat_ofNat']
  exact Nat.mod_eq_of_lt h

theorem isScalarValue_iff {v : Nat} :
    isScalarValue v = true ↔ v ≤ 0x10FFFF ∧ (v < 0xD800 ∨ 0xDFFF < v) := by
  simp only [isScalarValue, Bool.and_eq_true, Bool.or_eq_true, decide_eq_true_eq, gt_iff_lt]
  rfl

/-! ## The encoding -/

theorem utf8Bytes_one {v : Nat} (h : v ≤ 0x7F) : utf8Bytes v = [UInt8.ofNat v] := by
  simp [utf8Bytes, encodeUtf8Unchecked, utf8EncodedLength, h, Utf8.kMaximumScalarBytes,
    List.replicate]

/-- The continuation byte of six bits. -/
theorem or_0x80 (v : Nat) : 0x80 ||| (v &&& 0x3F) = 128 + v % 64 := by
  rw [and_0x3F]
  exact or_low (k := 6) (a := 2) (by omega)

theorem utf8Bytes_two {v : Nat} (h : 0x7F < v) (h' : v ≤ 0x7FF) :
    utf8Bytes v = [UInt8.ofNat (192 + v / 64), UInt8.ofNat (128 + v % 64)] := by
  have h0 : 0xC0 ||| v >>> 6 = 192 + v / 64 := by
    rw [Nat.shiftRight_eq_div_pow]
    exact or_low (k := 5) (a := 6) (by omega)
  simp only [utf8Bytes, encodeUtf8Unchecked, utf8EncodedLength, Utf8.kMaximumScalarBytes,
    List.replicate, if_neg (Nat.not_le.2 h), if_pos h', h0, or_0x80]
  rfl

theorem utf8Bytes_three {v : Nat} (h : 0x7FF < v) (h' : v ≤ 0xFFFF) :
    utf8Bytes v = [UInt8.ofNat (224 + v / 4096), UInt8.ofNat (128 + v / 64 % 64),
      UInt8.ofNat (128 + v % 64)] := by
  have h0 : 0xE0 ||| v >>> 12 = 224 + v / 4096 := by
    rw [Nat.shiftRight_eq_div_pow]
    exact or_low (k := 4) (a := 14) (by omega)
  have h1 : v >>> 6 = v / 64 := Nat.shiftRight_eq_div_pow v 6
  simp only [utf8Bytes, encodeUtf8Unchecked, utf8EncodedLength, Utf8.kMaximumScalarBytes,
    List.replicate, if_neg (Nat.not_le.2 h), if_neg (show ¬ v ≤ 0x7F by omega), if_pos h', h0,
    or_0x80, h1]
  rfl

theorem utf8Bytes_four {v : Nat} (h : 0xFFFF < v) (h' : v ≤ 0x10FFFF) :
    utf8Bytes v = [UInt8.ofNat (240 + v / 262144), UInt8.ofNat (128 + v / 4096 % 64),
      UInt8.ofNat (128 + v / 64 % 64), UInt8.ofNat (128 + v % 64)] := by
  have h0 : 0xF0 ||| v >>> 18 = 240 + v / 262144 := by
    rw [Nat.shiftRight_eq_div_pow]
    exact or_low (k := 3) (a := 30) (by omega)
  have h1 : v >>> 6 = v / 64 := Nat.shiftRight_eq_div_pow v 6
  have h2 : v >>> 12 = v / 4096 := Nat.shiftRight_eq_div_pow v 12
  simp only [utf8Bytes, encodeUtf8Unchecked, utf8EncodedLength, Utf8.kMaximumScalarBytes,
    List.replicate, if_neg (Nat.not_le.2 h), if_neg (show ¬ v ≤ 0x7F by omega),
    if_neg (show ¬ v ≤ 0x7FF by omega), h0, or_0x80, h1, h2]
  rfl

theorem utf8EncodedLength_pos (v : Nat) : 0 < utf8EncodedLength v := by
  unfold utf8EncodedLength
  split_ifs <;> omega

theorem utf8EncodedLength_le (v : Nat) : utf8EncodedLength v ≤ 4 := by
  unfold utf8EncodedLength
  split_ifs <;> omega

theorem length_encodeUtf8Unchecked (v : Nat) (d : List UInt8) :
    (encodeUtf8Unchecked v d).length = d.length := by
  unfold encodeUtf8Unchecked
  split_ifs <;> simp

@[simp] theorem length_utf8Bytes (v : Nat) : (utf8Bytes v).length = utf8EncodedLength v := by
  rw [utf8Bytes, List.length_take, length_encodeUtf8Unchecked, List.length_replicate]
  exact Nat.min_eq_left (utf8EncodedLength_le v)

/-- What the unchecked encoder leaves in a destination that is large enough. -/
theorem encodeUtf8Unchecked_eq {v : Nat} {d : List UInt8} (h : utf8EncodedLength v ≤ d.length) :
    encodeUtf8Unchecked v d = utf8Bytes v ++ d.drop (utf8EncodedLength v) := by
  rcases d with _ | ⟨d0, _ | ⟨d1, _ | ⟨d2, _ | ⟨d3, d⟩⟩⟩⟩ <;>
    simp only [List.length_cons, List.length_nil, utf8EncodedLength] at h <;>
    unfold utf8Bytes encodeUtf8Unchecked utf8EncodedLength <;>
    split_ifs at h ⊢ <;>
    first
    | omega
    | rfl

/-- What `encodeScalar` stores is the encoding. -/
theorem encodeScalar_bytes {v : Nat} (h : isScalarValue v = true) :
    (Utf8.encodeScalar v).outcome = .encoded ∧
      (Utf8.encodeScalar v).byteCount = utf8EncodedLength v ∧
      (Utf8.encodeScalar v).bytes.take (Utf8.encodeScalar v).byteCount = utf8Bytes v := by
  simp [Utf8.encodeScalar, h, utf8Bytes]

/-! ## The decoder -/

/-- The value of a two-byte sequence. -/
theorem decode_two (a b : Nat) :
    (a &&& 0x1F) <<< 6 ||| (b &&& 0x3F) = a % 32 * 64 + b % 64 := by
  rw [and_0x3F, show a &&& 0x1F = a % 32 from Nat.and_two_pow_sub_one_eq_mod a 5]
  exact shiftLeft_or (by omega)

/-- The value of a three-byte sequence. -/
theorem decode_three (a b c : Nat) :
    (a &&& 0x0F) <<< 12 ||| (b &&& 0x3F) <<< 6 ||| (c &&& 0x3F) =
      a % 16 * 4096 + b % 64 * 64 + c % 64 := by
  simp only [and_0x3F]
  rw [show a &&& 0x0F = a % 16 from Nat.and_two_pow_sub_one_eq_mod a 4, Nat.or_assoc,
    shiftLeft_or (a := b % 64) (k := 6) (by omega), shiftLeft_or (by omega)]
  omega

/-- The value of a four-byte sequence. -/
theorem decode_four (a b c d : Nat) :
    (a &&& 0x07) <<< 18 ||| (b &&& 0x3F) <<< 12 ||| (c &&& 0x3F) <<< 6 ||| (d &&& 0x3F) =
      a % 8 * 262144 + b % 64 * 4096 + c % 64 * 64 + d % 64 := by
  simp only [and_0x3F]
  rw [show a &&& 0x07 = a % 8 from Nat.and_two_pow_sub_one_eq_mod a 3, Nat.or_assoc,
    shiftLeft_or (a := c % 64) (k := 6) (by omega), Nat.or_assoc,
    shiftLeft_or (a := b % 64) (k := 12) (by omega), shiftLeft_or (by omega)]
  omega

/-- The second byte a three-byte sequence that starts with `a` may have. -/
def SecondOfThree (a b : Nat) : Prop :=
  (if a = 0xE0 then 0xA0 else 0x80) ≤ b ∧ b ≤ if a = 0xED then 0x9F else 0xBF

/-- The second byte a four-byte sequence that starts with `a` may have. -/
def SecondOfFour (a b : Nat) : Prop :=
  (if a = 0xF0 then 0x90 else 0x80) ≤ b ∧ b ≤ if a = 0xF4 then 0x8F else 0xBF

/-- A continuation byte. -/
def Tail (b : Nat) : Prop := 0x80 ≤ b ∧ b ≤ 0xBF

instance (a b : Nat) : Decidable (SecondOfThree a b) := inferInstanceAs (Decidable (_ ∧ _))

instance (a b : Nat) : Decidable (SecondOfFour a b) := inferInstanceAs (Decidable (_ ∧ _))

instance (b : Nat) : Decidable (Tail b) := inferInstanceAs (Decidable (_ ∧ _))

theorem SecondOfThree.bounds {a b : Nat} (h : SecondOfThree a b) :
    0x80 ≤ b ∧ b ≤ 0xBF ∧ (a = 0xE0 → 0xA0 ≤ b) ∧ (a = 0xED → b ≤ 0x9F) := by
  unfold SecondOfThree at h
  split_ifs at h <;> omega

theorem SecondOfFour.bounds {a b : Nat} (h : SecondOfFour a b) :
    0x80 ≤ b ∧ b ≤ 0xBF ∧ (a = 0xF0 → 0x90 ≤ b) ∧ (a = 0xF4 → b ≤ 0x8F) := by
  unfold SecondOfFour at h
  split_ifs at h <;> omega

section
variable {b0 b1 b2 b3 : UInt8} {rest : List UInt8}

theorem decode_ascii (h : byteValue b0 ≤ 0x7F) :
    decodeUtf8Scalar (b0 :: rest) =
      { scalar := byteValue b0, bytesConsumed := 1, outcome := .decoded } := by
  simp only [decodeUtf8Scalar, if_pos h]

theorem decode_badLead (h : 0x7F < byteValue b0 ∧ byteValue b0 < 0xC2 ∨ 0xF4 < byteValue b0) :
    decodeUtf8Scalar (b0 :: rest) = { outcome := .invalidEncoding } := by
  simp only [decodeUtf8Scalar]
  split_ifs <;> first | rfl | omega

theorem decode_lead (h : 0xC2 ≤ byteValue b0 ∧ byteValue b0 ≤ 0xF4) :
    decodeUtf8Scalar [b0] = {} := by
  simp only [decodeUtf8Scalar]
  split_ifs <;> first | rfl | omega

theorem tail_iff (b : UInt8) : (byteValue b &&& 0xC0 != 0x80) = true ↔ ¬ Tail (byteValue b) := by
  rw [bne_iff_ne, ne_eq, and_0xC0_eq (byteValue_lt b), Tail]

theorem secondOfThree_iff (a : Nat) (b : UInt8) :
    (!(if a == 0xE0 then byteValue b ≥ 0xA0 && byteValue b ≤ 0xBF
      else if a == 0xED then byteValue b ≥ 0x80 && byteValue b ≤ 0x9F
      else byteValue b &&& 0xC0 == 0x80)) = true ↔ ¬ SecondOfThree a (byteValue b) := by
  have := and_0xC0_eq (byteValue_lt b)
  unfold SecondOfThree
  simp only [beq_iff_eq]
  split_ifs <;> simp [this] <;> omega

theorem secondOfFour_iff (a : Nat) (b : UInt8) :
    (!(if a == 0xF0 then byteValue b ≥ 0x90 && byteValue b ≤ 0xBF
      else if a == 0xF4 then byteValue b ≥ 0x80 && byteValue b ≤ 0x8F
      else byteValue b &&& 0xC0 == 0x80)) = true ↔ ¬ SecondOfFour a (byteValue b) := by
  have := and_0xC0_eq (byteValue_lt b)
  unfold SecondOfFour
  simp only [beq_iff_eq]
  split_ifs <;> simp [this] <;> omega

theorem decode_second (h : 0xC2 ≤ byteValue b0 ∧ byteValue b0 ≤ 0xDF) :
    decodeUtf8Scalar (b0 :: b1 :: rest) =
      if Tail (byteValue b1) then
        { scalar := byteValue b0 % 32 * 64 + byteValue b1 % 64, bytesConsumed := 2,
          outcome := .decoded }
      else { outcome := .invalidEncoding } := by
  simp only [decodeUtf8Scalar, decode_two, tail_iff, ite_not,
    if_neg (show ¬ byteValue b0 ≤ 0x7F by omega), if_neg (show ¬ byteValue b0 < 0xC2 by omega),
    if_pos h.2]

theorem decode_third_short (h : 0xE0 ≤ byteValue b0 ∧ byteValue b0 ≤ 0xEF) :
    decodeUtf8Scalar [b0, b1] =
      if SecondOfThree (byteValue b0) (byteValue b1) then {}
      else { outcome := .invalidEncoding } := by
  simp only [decodeUtf8Scalar, secondOfThree_iff, ite_not,
    if_neg (show ¬ byteValue b0 ≤ 0x7F by omega), if_neg (show ¬ byteValue b0 < 0xC2 by omega),
    if_neg (show ¬ byteValue b0 ≤ 0xDF by omega), if_pos h.2]

theorem decode_third (h : 0xE0 ≤ byteValue b0 ∧ byteValue b0 ≤ 0xEF) :
    decodeUtf8Scalar (b0 :: b1 :: b2 :: rest) =
      if SecondOfThree (byteValue b0) (byteValue b1) then
        if Tail (byteValue b2) then
          { scalar := byteValue b0 % 16 * 4096 + byteValue b1 % 64 * 64 + byteValue b2 % 64,
            bytesConsumed := 3, outcome := .decoded }
        else { outcome := .invalidEncoding }
      else { outcome := .invalidEncoding } := by
  simp only [decodeUtf8Scalar, secondOfThree_iff, tail_iff, decode_three, ite_not,
    if_neg (show ¬ byteValue b0 ≤ 0x7F by omega), if_neg (show ¬ byteValue b0 < 0xC2 by omega),
    if_neg (show ¬ byteValue b0 ≤ 0xDF by omega), if_pos h.2]

theorem decode_fourth_short2 (h : 0xF0 ≤ byteValue b0 ∧ byteValue b0 ≤ 0xF4) :
    decodeUtf8Scalar [b0, b1] =
      if SecondOfFour (byteValue b0) (byteValue b1) then {}
      else { outcome := .invalidEncoding } := by
  simp only [decodeUtf8Scalar, secondOfFour_iff, ite_not,
    if_neg (show ¬ byteValue b0 ≤ 0x7F by omega), if_neg (show ¬ byteValue b0 < 0xC2 by omega),
    if_neg (show ¬ byteValue b0 ≤ 0xDF by omega), if_neg (show ¬ byteValue b0 ≤ 0xEF by omega),
    if_pos h.2]

theorem decode_fourth_short3 (h : 0xF0 ≤ byteValue b0 ∧ byteValue b0 ≤ 0xF4) :
    decodeUtf8Scalar [b0, b1, b2] =
      if SecondOfFour (byteValue b0) (byteValue b1) then
        if Tail (byteValue b2) then {} else { outcome := .invalidEncoding }
      else { outcome := .invalidEncoding } := by
  simp only [decodeUtf8Scalar, secondOfFour_iff, tail_iff, ite_not,
    if_neg (show ¬ byteValue b0 ≤ 0x7F by omega), if_neg (show ¬ byteValue b0 < 0xC2 by omega),
    if_neg (show ¬ byteValue b0 ≤ 0xDF by omega), if_neg (show ¬ byteValue b0 ≤ 0xEF by omega),
    if_pos h.2]

theorem decode_fourth (h : 0xF0 ≤ byteValue b0 ∧ byteValue b0 ≤ 0xF4) :
    decodeUtf8Scalar (b0 :: b1 :: b2 :: b3 :: rest) =
      if SecondOfFour (byteValue b0) (byteValue b1) then
        if Tail (byteValue b2) then
          if Tail (byteValue b3) then
            { scalar := byteValue b0 % 8 * 262144 + byteValue b1 % 64 * 4096 +
                byteValue b2 % 64 * 64 + byteValue b3 % 64,
              bytesConsumed := 4, outcome := .decoded }
          else { outcome := .invalidEncoding }
        else { outcome := .invalidEncoding }
      else { outcome := .invalidEncoding } := by
  simp only [decodeUtf8Scalar, secondOfFour_iff, tail_iff, decode_four, ite_not,
    if_neg (show ¬ byteValue b0 ≤ 0x7F by omega), if_neg (show ¬ byteValue b0 < 0xC2 by omega),
    if_neg (show ¬ byteValue b0 ≤ 0xDF by omega), if_neg (show ¬ byteValue b0 ≤ 0xEF by omega),
    if_pos h.2]

end

/-! ## The prefix code -/

/-- The result of decoding as a step of the code. -/
def Utf8.DecodeResult.decoding (r : Utf8.DecodeResult) : Decoding Nat :=
  ScalarDecode.decoding ⟨r.scalar, r.bytesConsumed, r.outcome⟩

theorem decoding_decoded {s n s' n' : Nat} :
    Utf8.DecodeResult.decoding { scalar := s, bytesConsumed := n, outcome := .decoded } =
      .decoded s' n' ↔ s = s' ∧ n = n' :=
  Decoding.decoded.injEq s n s' n' ▸ Iff.rfl

/-- A decoded scalar is a scalar value whose encoding the bytes start with. -/
theorem decodeUtf8Scalar_sound {b : List UInt8} {s n : Nat}
    (h : (decodeUtf8Scalar b).decoding = .decoded s n) :
    isScalarValue s = true ∧ n = (utf8Bytes s).length ∧ utf8Bytes s <+: b := by
  rw [isScalarValue_iff]
  rcases b with _ | ⟨b0, rest⟩
  · cases h
  have ha := byteValue_lt b0
  by_cases hascii : byteValue b0 ≤ 0x7F
  · rw [decode_ascii hascii] at h
    obtain ⟨rfl, rfl⟩ := decoding_decoded.1 h
    rw [utf8Bytes_one hascii, ofNat_eq rfl]
    exact ⟨by omega, rfl, List.prefix_append [b0] rest⟩
  by_cases hbad : byteValue b0 < 0xC2 ∨ 0xF4 < byteValue b0
  · rw [decode_badLead (by omega)] at h; cases h
  rcases rest with _ | ⟨b1, rest⟩
  · rw [decode_lead (by omega)] at h; cases h
  have hb := byteValue_lt b1
  by_cases h2 : byteValue b0 ≤ 0xDF
  · rw [decode_second (by omega)] at h
    split_ifs at h with ht
    swap
    · cases h
    unfold Tail at ht
    obtain ⟨rfl, rfl⟩ := decoding_decoded.1 h
    rw [utf8Bytes_two (by omega) (by omega), ofNat_eq (b := b0) (by omega),
      ofNat_eq (b := b1) (by omega)]
    exact ⟨by omega, rfl, List.prefix_append [b0, b1] rest⟩
  by_cases h3 : byteValue b0 ≤ 0xEF
  · rcases rest with _ | ⟨b2, rest⟩
    · rw [decode_third_short (by omega)] at h
      split_ifs at h <;> cases h
    have hc := byteValue_lt b2
    rw [decode_third (by omega)] at h
    split_ifs at h with hs ht
    case neg => cases h
    case neg => cases h
    have hw := hs.bounds
    unfold Tail at ht
    obtain ⟨rfl, rfl⟩ := decoding_decoded.1 h
    rw [utf8Bytes_three (by omega) (by omega), ofNat_eq (b := b0) (by omega),
      ofNat_eq (b := b1) (by omega), ofNat_eq (b := b2) (by omega)]
    exact ⟨by omega, rfl, List.prefix_append [b0, b1, b2] rest⟩
  · rcases rest with _ | ⟨b2, _ | ⟨b3, rest⟩⟩
    · rw [decode_fourth_short2 (by omega)] at h
      split_ifs at h <;> cases h
    · rw [decode_fourth_short3 (by omega)] at h
      split_ifs at h <;> cases h
    have hc := byteValue_lt b2
    have hd := byteValue_lt b3
    rw [decode_fourth (by omega)] at h
    split_ifs at h with hs ht hu
    case neg => cases h
    case neg => cases h
    case neg => cases h
    have hw := hs.bounds
    unfold Tail at ht hu
    obtain ⟨rfl, rfl⟩ := decoding_decoded.1 h
    rw [utf8Bytes_four (by omega) (by omega), ofNat_eq (b := b0) (by omega),
      ofNat_eq (b := b1) (by omega), ofNat_eq (b := b2) (by omega), ofNat_eq (b := b3) (by omega)]
    exact ⟨by omega, rfl, List.prefix_append [b0, b1, b2, b3] rest⟩

/-- Bytes that start with the encoding of a scalar value decode to it. -/
theorem decodeUtf8Scalar_utf8Bytes {s : Nat} (hs : isScalarValue s = true) (rest : List UInt8) :
    decodeUtf8Scalar (utf8Bytes s ++ rest) =
      { scalar := s, bytesConsumed := utf8EncodedLength s, outcome := .decoded } := by
  rw [isScalarValue_iff] at hs
  by_cases h1 : s ≤ 0x7F
  · have e0 : byteValue (UInt8.ofNat s) = s := byteValue_ofNat (by omega)
    rw [utf8Bytes_one h1, List.singleton_append, decode_ascii (by omega), e0, utf8EncodedLength,
      if_pos h1]
  by_cases h2 : s ≤ 0x7FF
  · have e0 : byteValue (UInt8.ofNat (192 + s / 64)) = 192 + s / 64 := byteValue_ofNat (by omega)
    have e1 : byteValue (UInt8.ofNat (128 + s % 64)) = 128 + s % 64 := byteValue_ofNat (by omega)
    have ht : Tail (128 + s % 64) := by unfold Tail; omega
    rw [utf8Bytes_two (by omega) h2, List.cons_append, List.singleton_append,
      decode_second (by omega), e0, e1, if_pos ht, utf8EncodedLength, if_neg h1,
      if_pos h2]
    congr 1
    omega
  by_cases h3 : s ≤ 0xFFFF
  · have e0 : byteValue (UInt8.ofNat (224 + s / 4096)) = 224 + s / 4096 :=
      byteValue_ofNat (by omega)
    have e1 : byteValue (UInt8.ofNat (128 + s / 64 % 64)) = 128 + s / 64 % 64 :=
      byteValue_ofNat (by omega)
    have e2 : byteValue (UInt8.ofNat (128 + s % 64)) = 128 + s % 64 := byteValue_ofNat (by omega)
    have hv : SecondOfThree (224 + s / 4096) (128 + s / 64 % 64) := by
      unfold SecondOfThree
      split_ifs <;> omega
    have ht : Tail (128 + s % 64) := by unfold Tail; omega
    rw [utf8Bytes_three (by omega) h3, List.cons_append, List.cons_append, List.singleton_append,
      decode_third (by omega), e0, e1, e2, if_pos hv, if_pos ht,
      utf8EncodedLength, if_neg h1, if_neg h2, if_pos h3]
    congr 1
    omega
  · have e0 : byteValue (UInt8.ofNat (240 + s / 262144)) = 240 + s / 262144 :=
      byteValue_ofNat (by omega)
    have e1 : byteValue (UInt8.ofNat (128 + s / 4096 % 64)) = 128 + s / 4096 % 64 :=
      byteValue_ofNat (by omega)
    have e2 : byteValue (UInt8.ofNat (128 + s / 64 % 64)) = 128 + s / 64 % 64 :=
      byteValue_ofNat (by omega)
    have e3 : byteValue (UInt8.ofNat (128 + s % 64)) = 128 + s % 64 := byteValue_ofNat (by omega)
    have hv : SecondOfFour (240 + s / 262144) (128 + s / 4096 % 64) := by
      unfold SecondOfFour
      split_ifs <;> omega
    have ht : Tail (128 + s / 64 % 64) := by unfold Tail; omega
    have hu : Tail (128 + s % 64) := by unfold Tail; omega
    rw [utf8Bytes_four (by omega) hs.1, List.cons_append, List.cons_append, List.cons_append,
      List.singleton_append, decode_fourth (by omega), e0, e1, e2, e3, if_pos hv,
      if_pos ht, if_pos hu, utf8EncodedLength, if_neg h1, if_neg h2,
      if_neg h3]
    congr 1
    omega

section
variable {b0 b1 b2 : UInt8}

/-- A lead byte starts the encoding of the least scalar its row allows. -/
theorem lead_completable (h : 0xC2 ≤ byteValue b0 ∧ byteValue b0 ≤ 0xF4) :
    ∃ s, isScalarValue s = true ∧ [b0] <+: utf8Bytes s ∧ [b0] ≠ utf8Bytes s := by
  by_cases h2 : byteValue b0 ≤ 0xDF
  · refine ⟨(byteValue b0 - 192) * 64, isScalarValue_iff.2 (by omega), ?_⟩
    rw [utf8Bytes_two (by omega) (by omega), ofNat_eq (b := b0) (by omega)]
    simp
  by_cases h3 : byteValue b0 ≤ 0xEF
  · obtain ⟨s, hs, hv, hlo, hhi⟩ : ∃ s, 224 + s / 4096 = byteValue b0 ∧ isScalarValue s = true ∧
        0x7FF < s ∧ s ≤ 0xFFFF := by
      by_cases he : byteValue b0 = 0xE0
      · exact ⟨0x800, by omega, by decide, by omega, by omega⟩
      · exact ⟨(byteValue b0 - 224) * 4096, by omega, isScalarValue_iff.2 (by omega), by omega,
          by omega⟩
    refine ⟨s, hv, ?_⟩
    rw [utf8Bytes_three hlo hhi, ofNat_eq hs.symm]
    simp
  · obtain ⟨s, hs, hv, hlo, hhi⟩ : ∃ s, 240 + s / 262144 = byteValue b0 ∧
        isScalarValue s = true ∧ 0xFFFF < s ∧ s ≤ 0x10FFFF := by
      by_cases he : byteValue b0 = 0xF0
      · exact ⟨0x10000, by omega, by decide, by omega, by omega⟩
      · exact ⟨(byteValue b0 - 240) * 262144, by omega, isScalarValue_iff.2 (by omega), by omega,
          by omega⟩
    refine ⟨s, hv, ?_⟩
    rw [utf8Bytes_four hlo hhi, ofNat_eq hs.symm]
    simp

theorem two_of_three_completable (h : 0xE0 ≤ byteValue b0 ∧ byteValue b0 ≤ 0xEF)
    (hs : SecondOfThree (byteValue b0) (byteValue b1)) :
    ∃ s, isScalarValue s = true ∧ [b0, b1] <+: utf8Bytes s ∧ [b0, b1] ≠ utf8Bytes s := by
  have hw := hs.bounds
  refine ⟨(byteValue b0 - 224) * 4096 + (byteValue b1 - 128) * 64,
    isScalarValue_iff.2 (by omega), ?_⟩
  rw [utf8Bytes_three (by omega) (by omega), ofNat_eq (b := b0) (by omega),
    ofNat_eq (b := b1) (by omega)]
  simp

theorem two_of_four_completable (h : 0xF0 ≤ byteValue b0 ∧ byteValue b0 ≤ 0xF4)
    (hs : SecondOfFour (byteValue b0) (byteValue b1)) :
    ∃ s, isScalarValue s = true ∧ [b0, b1] <+: utf8Bytes s ∧ [b0, b1] ≠ utf8Bytes s := by
  have hw := hs.bounds
  refine ⟨(byteValue b0 - 240) * 262144 + (byteValue b1 - 128) * 4096,
    isScalarValue_iff.2 (by omega), ?_⟩
  rw [utf8Bytes_four (by omega) (by omega), ofNat_eq (b := b0) (by omega),
    ofNat_eq (b := b1) (by omega)]
  simp

theorem three_of_four_completable (h : 0xF0 ≤ byteValue b0 ∧ byteValue b0 ≤ 0xF4)
    (hs : SecondOfFour (byteValue b0) (byteValue b1)) (ht : Tail (byteValue b2)) :
    ∃ s, isScalarValue s = true ∧ [b0, b1, b2] <+: utf8Bytes s ∧
      [b0, b1, b2] ≠ utf8Bytes s := by
  have hw := hs.bounds
  unfold Tail at ht
  refine ⟨(byteValue b0 - 240) * 262144 + (byteValue b1 - 128) * 4096 +
    (byteValue b2 - 128) * 64, isScalarValue_iff.2 (by omega), ?_⟩
  rw [utf8Bytes_four (by omega) (by omega), ofNat_eq (b := b0) (by omega),
    ofNat_eq (b := b1) (by omega), ofNat_eq (b := b2) (by omega)]
  simp

end

/-- Bytes that could still become a scalar are a proper prefix of an encoding. -/
theorem decodeUtf8Scalar_completable {b : List UInt8}
    (h : (decodeUtf8Scalar b).decoding = .incomplete) :
    ∃ s, isScalarValue s = true ∧ b <+: utf8Bytes s ∧ b ≠ utf8Bytes s := by
  rcases b with _ | ⟨b0, rest⟩
  · exact ⟨0, by decide, List.nil_prefix, by decide⟩
  have ha := byteValue_lt b0
  by_cases hascii : byteValue b0 ≤ 0x7F
  · rw [decode_ascii hascii] at h; cases h
  by_cases hbad : byteValue b0 < 0xC2 ∨ 0xF4 < byteValue b0
  · rw [decode_badLead (by omega)] at h; cases h
  rcases rest with _ | ⟨b1, rest⟩
  · exact lead_completable (by omega)
  have hb := byteValue_lt b1
  by_cases h2 : byteValue b0 ≤ 0xDF
  · rw [decode_second (by omega)] at h
    split_ifs at h <;> cases h
  by_cases h3 : byteValue b0 ≤ 0xEF
  · rcases rest with _ | ⟨b2, rest⟩
    · rw [decode_third_short (by omega)] at h
      split_ifs at h with hs
      swap
      · cases h
      exact two_of_three_completable (by omega) hs
    · rw [decode_third (by omega)] at h
      split_ifs at h <;> cases h
  rcases rest with _ | ⟨b2, _ | ⟨b3, rest⟩⟩
  · rw [decode_fourth_short2 (by omega)] at h
    split_ifs at h with hs
    swap
    · cases h
    exact two_of_four_completable (by omega) hs
  · rw [decode_fourth_short3 (by omega)] at h
    split_ifs at h with hs ht
    case neg => cases h
    case neg => cases h
    exact three_of_four_completable (by omega) hs ht
  · rw [decode_fourth (by omega)] at h
    split_ifs at h <;> cases h

/-- A proper prefix of an encoding asks for more bytes. -/
theorem decodeUtf8Scalar_proper_prefix {b : List UInt8} {s : Nat} (hs : isScalarValue s = true)
    (hp : b <+: utf8Bytes s) (hne : b ≠ utf8Bytes s) :
    (decodeUtf8Scalar b).decoding = .incomplete := by
  rw [isScalarValue_iff] at hs
  have hlen : b.length < (utf8Bytes s).length :=
    Nat.lt_of_le_of_ne hp.length_le fun he => hne (hp.eq_of_length he)
  rw [List.prefix_iff_eq_take] at hp
  by_cases h1 : s ≤ 0x7F
  · rw [utf8Bytes_one h1] at hp hlen
    obtain hk : b.length = 0 := by simpa using hlen
    rw [hp, hk]
    rfl
  by_cases h2 : s ≤ 0x7FF
  · have e0 : byteValue (UInt8.ofNat (192 + s / 64)) = 192 + s / 64 := byteValue_ofNat (by omega)
    rw [utf8Bytes_two (by omega) h2] at hp hlen
    obtain hk | hk : b.length = 0 ∨ b.length = 1 := by simp at hlen; omega
    all_goals rw [hk] at hp; rw [hp]
    · rfl
    · exact congrArg _ (decode_lead (by omega))
  by_cases h3 : s ≤ 0xFFFF
  · have e0 : byteValue (UInt8.ofNat (224 + s / 4096)) = 224 + s / 4096 :=
      byteValue_ofNat (by omega)
    have e1 : byteValue (UInt8.ofNat (128 + s / 64 % 64)) = 128 + s / 64 % 64 :=
      byteValue_ofNat (by omega)
    have hv : SecondOfThree (224 + s / 4096) (128 + s / 64 % 64) := by
      unfold SecondOfThree
      split_ifs <;> omega
    rw [utf8Bytes_three (by omega) h3] at hp hlen
    obtain hk | hk | hk : b.length = 0 ∨ b.length = 1 ∨ b.length = 2 := by simp at hlen; omega
    all_goals rw [hk] at hp; rw [hp]
    · rfl
    · exact congrArg _ (decode_lead (by omega))
    · change (decodeUtf8Scalar [_, _]).decoding = _
      rw [decode_third_short (by omega), e0, e1, if_pos hv]
      rfl
  · have e0 : byteValue (UInt8.ofNat (240 + s / 262144)) = 240 + s / 262144 :=
      byteValue_ofNat (by omega)
    have e1 : byteValue (UInt8.ofNat (128 + s / 4096 % 64)) = 128 + s / 4096 % 64 :=
      byteValue_ofNat (by omega)
    have e2 : byteValue (UInt8.ofNat (128 + s / 64 % 64)) = 128 + s / 64 % 64 :=
      byteValue_ofNat (by omega)
    have hv : SecondOfFour (240 + s / 262144) (128 + s / 4096 % 64) := by
      unfold SecondOfFour
      split_ifs <;> omega
    have ht : Tail (128 + s / 64 % 64) := by unfold Tail; omega
    rw [utf8Bytes_four (by omega) hs.1] at hp hlen
    obtain hk | hk | hk | hk :
        b.length = 0 ∨ b.length = 1 ∨ b.length = 2 ∨ b.length = 3 := by simp at hlen; omega
    all_goals rw [hk] at hp; rw [hp]
    · rfl
    · exact congrArg _ (decode_lead (by omega))
    · change (decodeUtf8Scalar [_, _]).decoding = _
      rw [decode_fourth_short2 (by omega), e0, e1, if_pos hv]
      rfl
    · change (decodeUtf8Scalar [_, _, _]).decoding = _
      rw [decode_fourth_short3 (by omega), e0, e1, e2, if_pos hv, if_pos ht]
      rfl

theorem utf8Bytes_ne_nil (s : Nat) : utf8Bytes s ≠ [] := by
  rw [← List.length_pos_iff, length_utf8Bytes]
  exact utf8EncodedLength_pos s

/-- **The UTF-8 code** of the Unicode scalar values. -/
def utf8Code : PrefixCode Nat UInt8 where
  valid s := isScalarValue s = true
  encode := utf8Bytes
  decode b := (decodeUtf8Scalar b).decoding
  encode_ne_nil _ := utf8Bytes_ne_nil _
  decoded_iff := by
    intro b s n
    refine ⟨decodeUtf8Scalar_sound, ?_⟩
    rintro ⟨hs, rfl, rest, rfl⟩
    rw [decodeUtf8Scalar_utf8Bytes hs rest, length_utf8Bytes]
    rfl
  incomplete_iff := by
    intro b
    refine ⟨decodeUtf8Scalar_completable, ?_⟩
    rintro ⟨s, hs, hp, hne⟩
    exact decodeUtf8Scalar_proper_prefix hs hp hne

theorem utf8Decoder_decodes : Decodes utf8Code utf8Decoder := fun _ => rfl

theorem utf8Encoder_encodes : Encodes utf8Code utf8Encoder where
  length_eq _ := (length_utf8Bytes _).symm
  store_eq _ h := encodeUtf8Unchecked_eq h

end Unicode

import GameWIP.Unicode.Proof.Utf8Code

/-!
# UTF-8 validation

`Utf8.validate` cuts the text at the end of its longest run of encodings (the validation loop at
`utf8Code`), so its result says which of the three kinds of byte strings the text is
(`Utf8.validate_spec`). The statement is about the public encoder: a text is a
concatenation of the bytes `encodeScalar` stores.
-/

namespace Unicode

open Lib

namespace Utf8

/-- A Unicode scalar value: at most U+10FFFF and outside the surrogate range. -/
def IsScalar (v : Nat) : Prop := v ≤ 0x10FFFF ∧ ¬ (0xD800 ≤ v ∧ v ≤ 0xDFFF)

instance (v : Nat) : Decidable (IsScalar v) := inferInstanceAs (Decidable (_ ∧ _))

/-- The bytes `encodeScalar` stores for a scalar. -/
def encoded (s : Nat) : List UInt8 := (encodeScalar s).bytes.take (encodeScalar s).byteCount

/-- A concatenation of encodings of scalar values. -/
def IsText (b : List UInt8) : Prop :=
  ∃ ss : List Nat, (∀ s ∈ ss, IsScalar s) ∧ b = ss.flatMap encoded

/-- A text followed by a nonempty proper prefix of some scalar's encoding. -/
def IsTruncated (b : List UInt8) : Prop :=
  ∃ t p s, b = t ++ p ∧ IsText t ∧ p ≠ [] ∧ IsScalar s ∧ p <+: encoded s ∧ p ≠ encoded s

theorem isScalar_iff {v : Nat} : IsScalar v ↔ isScalarValue v = true := by
  rw [isScalarValue_iff, IsScalar]
  omega

theorem encoded_eq {s : Nat} (h : IsScalar s) : encoded s = utf8Bytes s :=
  (encodeScalar_bytes (isScalar_iff.1 h)).2.2

theorem flatMap_encoded {ss : List Nat} (h : ∀ s ∈ ss, IsScalar s) :
    ss.flatMap encoded = utf8Code.encodeAll ss := by
  induction ss with
  | nil => rfl
  | cons s ss ih =>
    rw [List.flatMap_cons, utf8Code.encodeAll_cons, ih fun t ht => h t (List.mem_cons_of_mem _ ht),
      encoded_eq (h s List.mem_cons_self)]
    rfl

theorem isText_iff {b : List UInt8} : IsText b ↔ utf8Code.IsText b := by
  constructor
  · rintro ⟨ss, hs, rfl⟩
    exact ⟨ss, fun s h => isScalar_iff.1 (hs s h), flatMap_encoded hs⟩
  · rintro ⟨ss, hs, rfl⟩
    have hs' : ∀ s ∈ ss, IsScalar s := fun s h => isScalar_iff.2 (hs s h)
    exact ⟨ss, hs', (flatMap_encoded hs').symm⟩

theorem isTruncated_iff {b : List UInt8} : IsTruncated b ↔ utf8Code.Truncated b := by
  constructor
  · rintro ⟨t, p, s, rfl, ht, hp, hs, hps, hne⟩
    rw [encoded_eq hs] at hps hne
    exact ⟨t, p, s, rfl, isText_iff.1 ht, hp, isScalar_iff.1 hs, hps, hne⟩
  · rintro ⟨t, p, s, rfl, ht, hp, hs, hps, hne⟩
    have hs' := isScalar_iff.2 hs
    refine ⟨t, p, s, rfl, isText_iff.2 ht, hp, hs', ?_, ?_⟩ <;> rw [encoded_eq hs']
    · exact hps
    · exact hne

/-! ## The results -/

theorem decodeScalar_decoded_iff {b : List UInt8} {s n : Nat} :
    decodeScalar b = { scalar := s, bytesConsumed := n, outcome := .decoded } ↔
      utf8Code.decode b = .decoded s n := by
  rw [utf8Decoder_decodes, ScalarDecode.decoding_decoded]
  change decodeUtf8Scalar b = _ ↔ _
  cases h : decodeUtf8Scalar b
  simp [utf8Decoder, h]

theorem validate_valid_iff {b : List UInt8} : (validate b).outcome = .valid ↔ utf8Code.IsText b :=
  validateFrom_valid_iff utf8Decoder_decodes

theorem validate_incomplete_iff {b : List UInt8} :
    (validate b).outcome = .incomplete ↔ utf8Code.Truncated b :=
  validateFrom_incomplete_iff utf8Decoder_decodes

/-- The bytes of a scalar beyond ASCII are beyond ASCII. -/
theorem utf8Bytes_high {v : Nat} (hv : 0x7F < v) (hmax : v ≤ 0x10FFFF) {x : UInt8}
    (hx : x ∈ utf8Bytes v) : 0x80 ≤ byteValue x := by
  by_cases h2 : v ≤ 0x7FF
  · rw [utf8Bytes_two hv h2] at hx
    simp only [List.mem_cons, List.not_mem_nil, or_false] at hx
    rcases hx with rfl | rfl <;> rw [byteValue_ofNat (by omega)] <;> omega
  by_cases h3 : v ≤ 0xFFFF
  · rw [utf8Bytes_three (by omega) h3] at hx
    simp only [List.mem_cons, List.not_mem_nil, or_false] at hx
    rcases hx with rfl | rfl | rfl <;> rw [byteValue_ofNat (by omega)] <;> omega
  · rw [utf8Bytes_four (by omega) hmax] at hx
    simp only [List.mem_cons, List.not_mem_nil, or_false] at hx
    rcases hx with rfl | rfl | rfl | rfl <;> rw [byteValue_ofNat (by omega)] <;> omega

theorem decodeScalar_incomplete_iff {b : List UInt8} :
    (decodeScalar b).outcome = .incomplete ↔ utf8Code.decode b = .incomplete := by
  constructor
  · exact fun h => ScalarDecode.decoding_incomplete.2 h
  · exact fun h => ScalarDecode.decoding_incomplete.1 h

/-- Bytes that break off inside a scalar are beyond ASCII. -/
theorem high_of_incomplete {b : List UInt8} (h : (decodeScalar b).outcome = .incomplete)
    {x : UInt8} (hx : x ∈ b) : 0x80 ≤ byteValue x := by
  obtain ⟨s, hs, hp, hne⟩ := utf8Code.incomplete_iff.1 (decodeScalar_incomplete_iff.1 h)
  change b <+: utf8Bytes s at hp
  change b ≠ utf8Bytes s at hne
  by_cases hascii : s ≤ 0x7F
  · -- a proper prefix of the one byte is empty
    rw [utf8Bytes_one hascii] at hp hne
    rcases List.prefix_cons_iff.1 hp with rfl | ⟨t, rfl, ht⟩
    · cases hx
    · rw [List.prefix_nil.1 ht] at hne
      exact absurd rfl hne
  · exact utf8Bytes_high (by omega) (isScalarValue_iff.1 hs).1 (hp.subset hx)

/-- **Strict UTF-8.** Validation accepts exactly the concatenations of encodings, reports those
that break off inside an encoding as incomplete and all others as invalid, and always reports the
longest prefix that is such a concatenation. A decoded scalar is the one whose encoding the bytes
start with, and a decode attempt is incomplete only when more bytes could finish a scalar. -/
theorem validate_spec (b : List UInt8) :
    ((validate b).outcome = .valid ↔ IsText b) ∧
    ((validate b).outcome = .incomplete ↔ IsTruncated b) ∧
    ((validate b).outcome = .invalidEncoding ↔ ¬ IsText b ∧ ¬ IsTruncated b) ∧
    ((validate b).validPrefixBytes ≤ b.length ∧ IsText (b.take (validate b).validPrefixBytes) ∧
      ∀ m ≤ b.length, IsText (b.take m) → m ≤ (validate b).validPrefixBytes) ∧
    (∀ s n, decodeScalar b = { scalar := s, bytesConsumed := n, outcome := .decoded } ↔
      IsScalar s ∧ n = (encodeScalar s).byteCount ∧ n ≤ b.length ∧ b.take n = encoded s) ∧
    ((decodeScalar b).outcome = .incomplete →
      ∃ ext s n, decodeScalar (b ++ ext) =
        { scalar := s, bytesConsumed := n, outcome := .decoded }) := by
  simp only [isText_iff, isTruncated_iff]
  refine ⟨validate_valid_iff, validate_incomplete_iff, ?_,
    validateFrom_prefix utf8Decoder_decodes, ?_, ?_⟩
  · rw [← validate_valid_iff, ← validate_incomplete_iff]
    cases (validate b).outcome <;> decide
  · intro s n
    rw [decodeScalar_decoded_iff]
    refine utf8Code.decoded_iff.trans ?_
    constructor
    · rintro ⟨hs, rfl, hp⟩
      have hs' := isScalar_iff.2 hs
      have hlen : (utf8Code.encode s).length = (encodeScalar s).byteCount :=
        (length_utf8Bytes s).trans (encodeScalar_bytes hs).2.1.symm
      refine ⟨hs', hlen, hp.length_le, ?_⟩
      rw [encoded_eq hs', ← List.prefix_iff_eq_take.1 hp]
      rfl
    · rintro ⟨hs, rfl, hle, ht⟩
      have hv := isScalar_iff.1 hs
      have hlen : (utf8Code.encode s).length = (encodeScalar s).byteCount :=
        (length_utf8Bytes s).trans (encodeScalar_bytes hv).2.1.symm
      refine ⟨hv, hlen.symm, List.prefix_iff_eq_take.2 ?_⟩
      rw [hlen, ht, encoded_eq hs]
      rfl
  · intro h
    have hd : utf8Code.decode b = .incomplete := decodeScalar_incomplete_iff.1 h
    obtain ⟨ext, s, n, hd⟩ := PrefixCode.exists_completion hd
    exact ⟨ext, s, n, decodeScalar_decoded_iff.2 hd⟩

end Utf8

end Unicode

import Mathlib.Data.List.Basic
import Mathlib.Algebra.Ring.Nat

/-!
# Scalar codecs and validation

The non-allocating codec primitives (`internal/encoding.h`) and the strict validators built on
them (`core/utf8.cpp`, `core/utf16.cpp`). A byte is a `UInt8`, a UTF-16 code unit a `UInt16`, and a
`char32_t` a natural number: every value the decoders compute is below `2 ^ 21`. A
`std::string_view` or a span is the list of its elements, so `substr(offset)` is `drop`.
-/

namespace Unicode

/-- Highest valid Unicode scalar value. -/
def kMaximumScalarValue : Nat := 0x10FFFF

inductive DecodeOutcome where
  | decoded
  | incomplete
  | invalidEncoding
  deriving DecidableEq, Repr

inductive EncodeOutcome where
  | encoded
  | invalidScalar
  deriving DecidableEq, Repr

inductive ValidationOutcome where
  | valid
  | incomplete
  | invalidEncoding
  deriving DecidableEq, Repr

/-- At most U+10FFFF and not a surrogate. -/
def isScalarValue (value : Nat) : Bool :=
  value ≤ kMaximumScalarValue && (value < 0xD800 || value > 0xDFFF)

/-! ## UTF-8 scalars -/

namespace Utf8

def kMaximumScalarBytes : Nat := 4

/-- Result of decoding one UTF-8 scalar. -/
structure DecodeResult where
  scalar : Nat := 0
  bytesConsumed : Nat := 0
  outcome : DecodeOutcome := .incomplete
  deriving DecidableEq, Repr

/-- Fixed-size UTF-8 encoding of one Unicode scalar. -/
structure EncodeResult where
  bytes : List UInt8 := List.replicate kMaximumScalarBytes 0
  byteCount : Nat := 0
  outcome : EncodeOutcome := .invalidScalar
  deriving DecidableEq, Repr

structure ValidationResult where
  validPrefixBytes : Nat := 0
  outcome : ValidationOutcome := .valid
  deriving DecidableEq, Repr

end Utf8

/-- The numeric value of a storage byte. -/
def byteValue (value : UInt8) : Nat := value.toNat

/-- Whether one byte has the UTF-8 continuation-byte form. -/
def isContinuationByte (value : UInt8) : Bool := byteValue value &&& 0xC0 == 0x80

/-- Decodes one strict UTF-8 scalar. -/
def decodeUtf8Scalar (bytes : List UInt8) : Utf8.DecodeResult :=
  match bytes with
  | [] => {}
  | b0 :: rest =>
    let first := byteValue b0
    if first ≤ 0x7F then
      { scalar := first, bytesConsumed := 1, outcome := .decoded }
    else if first < 0xC2 then
      { outcome := .invalidEncoding }
    else if first ≤ 0xDF then
      match rest with
      | [] => {}
      | b1 :: _ =>
        let second := byteValue b1
        if second &&& 0xC0 != 0x80 then
          { outcome := .invalidEncoding }
        else
          { scalar := ((first &&& 0x1F) <<< 6) ||| (second &&& 0x3F), bytesConsumed := 2,
            outcome := .decoded }
    else if first ≤ 0xEF then
      match rest with
      | [] => {}
      | b1 :: rest =>
        let second := byteValue b1
        let secondIsValid :=
          if first == 0xE0 then second ≥ 0xA0 && second ≤ 0xBF
          else if first == 0xED then second ≥ 0x80 && second ≤ 0x9F
          else second &&& 0xC0 == 0x80
        if !secondIsValid then
          { outcome := .invalidEncoding }
        else
          match rest with
          | [] => {}
          | b2 :: _ =>
            let third := byteValue b2
            if third &&& 0xC0 != 0x80 then
              { outcome := .invalidEncoding }
            else
              { scalar := ((first &&& 0x0F) <<< 12) ||| ((second &&& 0x3F) <<< 6) |||
                  (third &&& 0x3F),
                bytesConsumed := 3, outcome := .decoded }
    else if first ≤ 0xF4 then
      match rest with
      | [] => {}
      | b1 :: rest =>
        let second := byteValue b1
        let secondIsValid :=
          if first == 0xF0 then second ≥ 0x90 && second ≤ 0xBF
          else if first == 0xF4 then second ≥ 0x80 && second ≤ 0x8F
          else second &&& 0xC0 == 0x80
        if !secondIsValid then
          { outcome := .invalidEncoding }
        else
          match rest with
          | [] => {}
          | b2 :: rest =>
            let third := byteValue b2
            if third &&& 0xC0 != 0x80 then
              { outcome := .invalidEncoding }
            else
              match rest with
              | [] => {}
              | b3 :: _ =>
                let fourth := byteValue b3
                if fourth &&& 0xC0 != 0x80 then
                  { outcome := .invalidEncoding }
                else
                  { scalar := ((first &&& 0x07) <<< 18) ||| ((second &&& 0x3F) <<< 12) |||
                      ((third &&& 0x3F) <<< 6) ||| (fourth &&& 0x3F),
                    bytesConsumed := 4, outcome := .decoded }
    else
      { outcome := .invalidEncoding }

/-- The UTF-8 byte count of a known-valid scalar. -/
def utf8EncodedLength (scalar : Nat) : Nat :=
  if scalar ≤ 0x7F then 1 else if scalar ≤ 0x7FF then 2 else if scalar ≤ 0xFFFF then 3 else 4

/-- Encodes one known-valid scalar into a destination large enough for it; the elements behind the
encoding stay as they are. -/
def encodeUtf8Unchecked (value : Nat) (destination : List UInt8) : List UInt8 :=
  if value ≤ 0x7F then
    destination.set 0 (UInt8.ofNat value)
  else if value ≤ 0x7FF then
    (destination.set 0 (UInt8.ofNat (0xC0 ||| (value >>> 6)))).set 1
      (UInt8.ofNat (0x80 ||| (value &&& 0x3F)))
  else if value ≤ 0xFFFF then
    ((destination.set 0 (UInt8.ofNat (0xE0 ||| (value >>> 12)))).set 1
      (UInt8.ofNat (0x80 ||| ((value >>> 6) &&& 0x3F)))).set 2
      (UInt8.ofNat (0x80 ||| (value &&& 0x3F)))
  else
    (((destination.set 0 (UInt8.ofNat (0xF0 ||| (value >>> 18)))).set 1
      (UInt8.ofNat (0x80 ||| ((value >>> 12) &&& 0x3F)))).set 2
      (UInt8.ofNat (0x80 ||| ((value >>> 6) &&& 0x3F)))).set 3
      (UInt8.ofNat (0x80 ||| (value &&& 0x3F)))

/-- A decoded scalar has consumed at least one byte, so the loops below make progress. -/
theorem decodeUtf8Scalar_bytesConsumed_pos {bytes : List UInt8}
    (h : (decodeUtf8Scalar bytes).outcome = .decoded) :
    0 < (decodeUtf8Scalar bytes).bytesConsumed := by
  suffices (decodeUtf8Scalar bytes).outcome ≠ .decoded ∨
      0 < (decodeUtf8Scalar bytes).bytesConsumed from this.resolve_left fun hn => hn h
  rcases bytes with _ | ⟨b0, _ | ⟨b1, _ | ⟨b2, _ | ⟨b3, rest⟩⟩⟩⟩ <;> simp only [decodeUtf8Scalar]
  all_goals repeat' split
  all_goals simp

namespace Utf8

def decodeScalar (bytes : List UInt8) : DecodeResult := decodeUtf8Scalar bytes

def encodeScalar (scalar : Nat) : EncodeResult :=
  if !isScalarValue scalar then
    {}
  else
    { bytes := encodeUtf8Unchecked scalar (List.replicate kMaximumScalarBytes 0)
      byteCount := utf8EncodedLength scalar
      outcome := .encoded }

end Utf8

/-! ## UTF-16 scalars -/

namespace Utf16

def kMaximumScalarCodeUnits : Nat := 2

/-- Result of decoding one UTF-16 scalar. -/
structure DecodeResult where
  scalar : Nat := 0
  codeUnitsConsumed : Nat := 0
  outcome : DecodeOutcome := .incomplete
  deriving DecidableEq, Repr

/-- Fixed-size UTF-16 encoding of one Unicode scalar. -/
structure EncodeResult where
  codeUnits : List UInt16 := List.replicate kMaximumScalarCodeUnits 0
  codeUnitCount : Nat := 0
  outcome : EncodeOutcome := .invalidScalar
  deriving DecidableEq, Repr

structure ValidationResult where
  validPrefixCodeUnits : Nat := 0
  outcome : ValidationOutcome := .valid
  deriving DecidableEq, Repr

def isHighSurrogate (codeUnit : UInt16) : Bool := codeUnit ≥ 0xD800 && codeUnit ≤ 0xDBFF

def isLowSurrogate (codeUnit : UInt16) : Bool := codeUnit ≥ 0xDC00 && codeUnit ≤ 0xDFFF

def isSurrogate (codeUnit : UInt16) : Bool := isHighSurrogate codeUnit || isLowSurrogate codeUnit

end Utf16

/-- Decodes one strict UTF-16 scalar. -/
def decodeUtf16Scalar (codeUnits : List UInt16) : Utf16.DecodeResult :=
  match codeUnits with
  | [] => {}
  | first :: rest =>
    if !Utf16.isSurrogate first then
      { scalar := first.toNat, codeUnitsConsumed := 1, outcome := .decoded }
    else if Utf16.isLowSurrogate first then
      { outcome := .invalidEncoding }
    else
      match rest with
      | [] => {}
      | second :: _ =>
        if !Utf16.isLowSurrogate second then
          { outcome := .invalidEncoding }
        else
          let high := first.toNat - 0xD800
          let low := second.toNat - 0xDC00
          { scalar := 0x10000 + (high <<< 10) + low, codeUnitsConsumed := 2, outcome := .decoded }

/-- The UTF-16 code-unit count of a known-valid scalar. -/
def utf16EncodedLength (scalar : Nat) : Nat := if scalar ≤ 0xFFFF then 1 else 2

/-- Encodes one known-valid scalar into a destination large enough for it. -/
def encodeUtf16Unchecked (value : Nat) (destination : List UInt16) : List UInt16 :=
  if value ≤ 0xFFFF then
    destination.set 0 (UInt16.ofNat value)
  else
    let supplementary := value - 0x10000
    (destination.set 0 (UInt16.ofNat (0xD800 + (supplementary >>> 10)))).set 1
      (UInt16.ofNat (0xDC00 + (supplementary &&& 0x3FF)))

theorem decodeUtf16Scalar_codeUnitsConsumed_pos {codeUnits : List UInt16}
    (h : (decodeUtf16Scalar codeUnits).outcome = .decoded) :
    0 < (decodeUtf16Scalar codeUnits).codeUnitsConsumed := by
  suffices (decodeUtf16Scalar codeUnits).outcome ≠ .decoded ∨
      0 < (decodeUtf16Scalar codeUnits).codeUnitsConsumed from this.resolve_left fun hn => hn h
  unfold decodeUtf16Scalar
  repeat' split
  all_goals simp

/-! ## Strict validation

The two validators are one loop over the decoder of their encoding. -/

/-- The scalar, the code units consumed and the classification of one decode attempt, in either
encoding. -/
structure ScalarDecode where
  scalar : Nat
  consumed : Nat
  outcome : DecodeOutcome
  deriving DecidableEq, Repr

/-- A decoder of one scalar, which consumes at least one code unit of a decoded scalar. -/
structure ScalarDecoder (α : Type*) where
  decode : List α → ScalarDecode
  consumed_pos : ∀ {units}, (decode units).outcome = .decoded → 0 < (decode units).consumed

def utf8Decoder : ScalarDecoder UInt8 where
  decode bytes :=
    let decoded := decodeUtf8Scalar bytes
    ⟨decoded.scalar, decoded.bytesConsumed, decoded.outcome⟩
  consumed_pos := decodeUtf8Scalar_bytesConsumed_pos

def utf16Decoder : ScalarDecoder UInt16 where
  decode codeUnits :=
    let decoded := decodeUtf16Scalar codeUnits
    ⟨decoded.scalar, decoded.codeUnitsConsumed, decoded.outcome⟩
  consumed_pos := decodeUtf16Scalar_codeUnitsConsumed_pos

/-- The validation loop from an offset: the length of the valid prefix and the classification. -/
def validateFrom {α : Type*} (decoder : ScalarDecoder α) (text : List α) (offset : Nat) :
    Nat × ValidationOutcome :=
  if _hlt : offset < text.length then
    let decoded := decoder.decode (text.drop offset)
    match ho : decoded.outcome with
    | .incomplete => (offset, .incomplete)
    | .invalidEncoding => (offset, .invalidEncoding)
    | .decoded =>
      have := decoder.consumed_pos ho
      validateFrom decoder text (offset + decoded.consumed)
  else
    (offset, .valid)
termination_by text.length - offset

/-- Validates an entire UTF-8 byte range. -/
def Utf8.validate (text : List UInt8) : Utf8.ValidationResult :=
  let (validPrefixBytes, outcome) := validateFrom utf8Decoder text 0
  { validPrefixBytes, outcome }

/-- Validates an entire UTF-16 code-unit range. -/
def Utf16.validate (text : List UInt16) : Utf16.ValidationResult :=
  let (validPrefixCodeUnits, outcome) := validateFrom utf16Decoder text 0
  { validPrefixCodeUnits, outcome }

/-! ## The encodings as lists

The bytes and the code units the unchecked encoders write, as lists of their own. -/

/-- The UTF-8 bytes of a scalar. -/
def utf8Bytes (value : Nat) : List UInt8 :=
  (encodeUtf8Unchecked value (List.replicate Utf8.kMaximumScalarBytes 0)).take
    (utf8EncodedLength value)

/-- The UTF-16 code units of a scalar. -/
def utf16Units (value : Nat) : List UInt16 :=
  (encodeUtf16Unchecked value (List.replicate Utf16.kMaximumScalarCodeUnits 0)).take
    (utf16EncodedLength value)

end Unicode

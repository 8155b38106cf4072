import GameWIP.Unicode.Encoding

/-!
# UTF-8 and UTF-16 conversion

Measurement and conversion between the encodings (`core/conversion.cpp`). A span is an address with
the elements stored there; a conversion returns its result with the elements of the destination
afterwards. The two directions are one loop over the decoder of the source encoding and the
encoder of the destination encoding.
-/

namespace Unicode

inductive MeasureOutcome where
  | measured
  | incomplete
  | invalidEncoding
  | sizeLimitExceeded
  deriving DecidableEq, Repr

inductive ConversionOutcome where
  | converted
  | incomplete
  | invalidEncoding
  | destinationTooSmall
  | overlappingRanges
  deriving DecidableEq, Repr

/-- A contiguous range of elements of `elementBytes` bytes each. An object holds fewer than
`2 ^ 63` bytes, so that its elements can be indexed by `std::ptrdiff_t`. -/
structure Span (α : Type) (elementBytes : Nat) where
  address : Nat
  elements : List α
  size_lt : elements.length * elementBytes < 2 ^ 63

namespace Span

variable {α : Type} {n : Nat}

/-- The address behind the last byte. -/
def endAddress (s : Span α n) : Nat := s.address + s.elements.length * n

end Span

/-- Whether two ranges overlap in the process address order. -/
def memoryRangesOverlap {α β : Type} {m n : Nat} (first : Span α m) (second : Span β n) : Bool :=
  if first.elements.isEmpty || second.elements.isEmpty then
    false
  else
    first.address < second.endAddress && second.address < first.endAddress

/-- Whether adding two `std::size_t` values would exceed their maximum. -/
def wouldAddOverflow (left right : Nat) : Bool := right > 2 ^ 64 - 1 - left

/-- Maps a scalar-decoding failure to its measurement outcome. -/
def measureOutcome (outcome : DecodeOutcome) : MeasureOutcome :=
  if outcome == .incomplete then .incomplete else .invalidEncoding

/-- Maps a scalar-decoding failure to its conversion outcome. -/
def conversionOutcome (outcome : DecodeOutcome) : ConversionOutcome :=
  if outcome == .incomplete then .incomplete else .invalidEncoding

/-- An encoder of known-valid scalars: the length of an encoding, and the elements of a destination
after the encoding is stored at its beginning. -/
structure ScalarEncoder (β : Type) where
  encodedLength : Nat → Nat
  encodeUnchecked : Nat → List β → List β

def utf8Encoder : ScalarEncoder UInt8 := ⟨utf8EncodedLength, encodeUtf8Unchecked⟩

def utf16Encoder : ScalarEncoder UInt16 := ⟨utf16EncodedLength, encodeUtf16Unchecked⟩

section
variable {α β : Type} (decoder : ScalarDecoder α) (encoder : ScalarEncoder β) (source : List α)

/-- What the measurement loop returns: the units of the source included, the units required for
them and the classification. -/
structure Measure where
  processed : Nat
  required : Nat
  outcome : MeasureOutcome
  deriving DecidableEq, Repr

/-- The measurement loop. -/
def measureFrom (processed required : Nat) : Measure :=
  if _hlt : processed < source.length then
    let decoded := decoder.decode (source.drop processed)
    if ho : decoded.outcome ≠ .decoded then
      ⟨processed, required, measureOutcome decoded.outcome⟩
    else
      let scalarUnits := encoder.encodedLength decoded.scalar
      if wouldAddOverflow required scalarUnits then
        ⟨processed, required, .sizeLimitExceeded⟩
      else
        have := decoder.consumed_pos (not_not.1 ho)
        measureFrom (processed + decoded.consumed) (required + scalarUnits)
  else
    ⟨processed, required, .measured⟩
termination_by source.length - processed

/-- What a conversion returns: the units of the source consumed, the units written, the
classification and the elements of the destination. -/
structure Conversion (β : Type) where
  consumed : Nat
  written : Nat
  outcome : ConversionOutcome
  destination : List β
  deriving DecidableEq, Repr

/-- The conversion loop. -/
def convertFrom (destination : List β) (consumed written : Nat) : Conversion β :=
  if _hlt : consumed < source.length then
    let decoded := decoder.decode (source.drop consumed)
    if ho : decoded.outcome ≠ .decoded then
      ⟨consumed, written, conversionOutcome decoded.outcome, destination⟩
    else
      let scalarUnits := encoder.encodedLength decoded.scalar
      if scalarUnits > destination.length - written then
        ⟨consumed, written, .destinationTooSmall, destination⟩
      else
        have := decoder.consumed_pos (not_not.1 ho)
        -- the encoder writes into `destination.subspan(written)`
        convertFrom (destination.take written ++
            encoder.encodeUnchecked decoded.scalar (destination.drop written))
          (consumed + decoded.consumed) (written + scalarUnits)
  else
    ⟨consumed, written, .converted, destination⟩
termination_by source.length - consumed

end

/-! ## UTF-8 to UTF-16 -/

namespace Utf8

structure ToUtf16MeasureResult where
  sourceBytesProcessed : Nat := 0
  requiredCodeUnits : Nat := 0
  outcome : MeasureOutcome := .measured
  deriving DecidableEq, Repr

structure ToUtf16Result where
  sourceBytesConsumed : Nat := 0
  codeUnitsWritten : Nat := 0
  outcome : ConversionOutcome := .converted
  deriving DecidableEq, Repr

def measureToUtf16 (source : Span UInt8 1) : ToUtf16MeasureResult :=
  let m := measureFrom utf8Decoder utf16Encoder source.elements 0 0
  { sourceBytesProcessed := m.processed, requiredCodeUnits := m.required, outcome := m.outcome }

/-- The result with the elements of the destination afterwards. -/
def convertToUtf16 (source : Span UInt8 1) (destination : Span UInt16 2) :
    ToUtf16Result × List UInt16 :=
  if memoryRangesOverlap source destination then
    ({ outcome := .overlappingRanges }, destination.elements)
  else
    let c := convertFrom utf8Decoder utf16Encoder source.elements destination.elements 0 0
    ({ sourceBytesConsumed := c.consumed, codeUnitsWritten := c.written, outcome := c.outcome },
      c.destination)

end Utf8

/-! ## UTF-16 to UTF-8 -/

namespace Utf16

structure ToUtf8MeasureResult where
  sourceCodeUnitsProcessed : Nat := 0
  requiredBytes : Nat := 0
  outcome : MeasureOutcome := .measured
  deriving DecidableEq, Repr

structure ToUtf8Result where
  sourceCodeUnitsConsumed : Nat := 0
  bytesWritten : Nat := 0
  outcome : ConversionOutcome := .converted
  deriving DecidableEq, Repr

def measureToUtf8 (source : Span UInt16 2) : ToUtf8MeasureResult :=
  let m := measureFrom utf16Decoder utf8Encoder source.elements 0 0
  { sourceCodeUnitsProcessed := m.processed, requiredBytes := m.required, outcome := m.outcome }

/-- The result with the elements of the destination afterwards. -/
def convertToUtf8 (source : Span UInt16 2) (destination : Span UInt8 1) :
    ToUtf8Result × List UInt8 :=
  if memoryRangesOverlap source destination then
    ({ outcome := .overlappingRanges }, destination.elements)
  else
    let c := convertFrom utf16Decoder utf8Encoder source.elements destination.elements 0 0
    ({ sourceCodeUnitsConsumed := c.consumed, bytesWritten := c.written, outcome := c.outcome },
      c.destination)

end Utf16

end Unicode

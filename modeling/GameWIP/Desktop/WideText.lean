import GameWIP.Io.Status
import GameWIP.Unicode.Conversion

/-!
# Wide text

The strict conversions between portable UTF-8 and native wide strings
(`platform/win32/win32_unicode.cpp`). They measure, allocate the result and convert into it, so that
the destination shares no byte with the source. No object holds `2 ^ 63` bytes, so an allocation of
that size throws `std::bad_alloc`; below it memory is taken to be available.
-/

namespace Desktop

open Unicode (Span MeasureOutcome ConversionOutcome)

namespace Native

def errorInvalidParameter : Nat := 87

def errorInsufficientBuffer : Nat := 122

def errorArithmeticOverflow : Nat := 534

def errorNoUnicodeTranslation : Nat := 1113

end Native

/-- How a conversion fails: with a native code, or by an exception. -/
inductive ConversionFailure where
  | native (code : Nat)
  | badAlloc
  | lengthError
  deriving DecidableEq, Repr

/-- Maps a conversion error to the portable vocabulary. -/
def unicodeConversionError (nativeCode : Nat) (malformedEncodingFallback : Io.ErrorCode) :
    Io.ErrorCode :=
  if nativeCode = Native.errorInvalidParameter then .invalidArgument
  else if nativeCode = Native.errorInsufficientBuffer ∨
      nativeCode = Native.errorArithmeticOverflow then .sizeLimitExceeded
  else malformedEncodingFallback

def nativeCodeForConversion (outcome : ConversionOutcome) : Nat :=
  if outcome = .destinationTooSmall then Native.errorInsufficientBuffer
  else Native.errorNoUnicodeTranslation

/-- Converts strict UTF-8 to UTF-16. -/
def utf8ToUtf16 (text : List UInt8) : Except ConversionFailure (List UInt16) :=
  if text.isEmpty then
    .ok []
  -- the callers pass the result to interfaces that end a text at the first NUL
  else if text.contains 0 then
    .error (.native Native.errorInvalidParameter)
  else if hs : text.length * 1 < 2 ^ 63 then
    let source : Span UInt8 1 := ⟨0, text, hs⟩
    let measurement := Unicode.Utf8.measureToUtf16 source
    if measurement.outcome = .sizeLimitExceeded then
      .error (.native Native.errorInsufficientBuffer)
    else if measurement.outcome ≠ .measured then
      .error (.native Native.errorNoUnicodeTranslation)
    else if hd : (List.replicate measurement.requiredCodeUnits (0 : UInt16)).length * 2 < 2 ^ 63 then
      let conversion := Unicode.Utf8.convertToUtf16 source ⟨source.endAddress, _, hd⟩
      if conversion.1.outcome ≠ .converted then
        .error (.native (nativeCodeForConversion conversion.1.outcome))
      else
        .ok (conversion.2.take conversion.1.codeUnitsWritten)
    else
      .error .badAlloc
  else
    .error .badAlloc

/-- Converts UTF-16 to strict UTF-8. -/
def utf16ToUtf8 (text : List UInt16) : Except ConversionFailure (List UInt8) :=
  if text.isEmpty then
    .ok []
  -- the units are copied into a vector
  else if hs : text.length * 2 < 2 ^ 63 then
    let source : Span UInt16 2 := ⟨0, text, hs⟩
    let measurement := Unicode.Utf16.measureToUtf8 source
    if measurement.outcome = .sizeLimitExceeded then
      .error (.native Native.errorInsufficientBuffer)
    else if measurement.outcome ≠ .measured then
      .error (.native Native.errorNoUnicodeTranslation)
    else if hd : (List.replicate measurement.requiredBytes (0 : UInt8)).length * 1 < 2 ^ 63 then
      let conversion := Unicode.Utf16.convertToUtf8 source ⟨source.endAddress, _, hd⟩
      if conversion.1.outcome ≠ .converted then
        .error (.native (nativeCodeForConversion conversion.1.outcome))
      else
        .ok (conversion.2.take conversion.1.bytesWritten)
    else
      .error .lengthError
  else
    .error .badAlloc

end Desktop

import GameWIP.Desktop.TextRange
import GameWIP.Unicode.Conversion

/-!
# The text index of a node

`indexText` (`desktop/core/accessibility.cpp`) with all it keeps: the converted strings, the starts
of the scalars with their UTF-16 offsets, and the unit tables, the tables from one pass over the
text. `wideOffset` (`win32_accessibility_text.cpp`) looks a byte offset up.

The offsets are 32-bit values. Allocation succeeds, and no string is so long that an object could
not hold what it is converted to.
-/

namespace Desktop

namespace TextIndex

open Unicode (Span)
open Unicode (Utf8.decodeScalar)

/-- What is kept of a node. -/
structure AccessibilityTextIndex extends AccessibilityTextCache where
  name : List UInt16 := []
  description : List UInt16 := []
  help : List UInt16 := []
  value : List UInt16 := []
  language : List UInt16 := []
  accessKey : List UInt16 := []
  shortcut : List UInt16 := []
  text : List UInt16 := []
  textLanguage : List UInt16 := []
  annotationValues : List (List UInt16) := []
  scalars : List Nat := []
  utf16Offsets : List Nat := []
  graphemes := []
  words := []
  lines := []
  formats := []
  deriving DecidableEq, Repr

/-- The conversion into a string of the measured size; its outcome is not looked at. -/
def utf16 (text : List UInt8) : List UInt16 :=
  if hs : text.length * 1 < 2 ^ 63 then
    let source : Span UInt8 1 := ⟨0, text, hs⟩
    let required := (Unicode.Utf8.measureToUtf16 source).requiredCodeUnits
    if hd : (List.replicate required (0 : UInt16)).length * 2 < 2 ^ 63 then
      (Unicode.Utf8.convertToUtf16 source ⟨source.endAddress, _, hd⟩).2
    else []
  else []

/-- `static_cast<std::uint32_t>`. -/
def u32 (value : Nat) : Nat := value % 2 ^ 32

/-- The variables of the loop over the scalars. -/
structure Scan where
  offset : Nat := 0
  wideOffset : Nat := 0
  previousSpace : Bool := false
  scalars : List Nat := []
  utf16Offsets : List Nat := []
  words : List Nat := [0]
  lines : List Nat := [0]
  deriving DecidableEq, Repr

/-- The loop over the scalars; `none` when it does not end. -/
def scanScalars (text : List UInt8) (graphemes : List Nat) (s : Scan) : Option Scan :=
  if _hoffset : s.offset < text.length then
    let scalar := Utf8.decodeScalar (text.drop s.offset)
    let space := isSpace scalar.scalar
    let next := u32 (s.offset + scalar.bytesConsumed)
    -- an offset that does not grow has consumed nothing or has wrapped
    if _hnext : next ≤ s.offset then none
    else
      scanScalars text graphemes
        { offset := next
          wideOffset := u32 (s.wideOffset + if scalar.scalar > 0xFFFF then 2 else 1)
          previousSpace := space
          scalars := s.scalars ++ [s.offset]
          utf16Offsets := s.utf16Offsets ++ [s.wideOffset]
          words :=
            if s.previousSpace && !space && binarySearch graphemes s.offset then
              s.words ++ [s.offset]
            else s.words
          lines := if isLineEnd scalar.scalar then s.lines ++ [next] else s.lines }
  else some s
termination_by text.length - s.offset
decreasing_by
  exact Nat.sub_lt_sub_left _hoffset (Nat.lt_of_not_le _hnext)

variable {F : Type}

/-- The edges of the annotations with the ends of the text, sorted, each once. -/
def formatEdges (text : TextContent F) : List Nat :=
  unique (([0, u32 text.utf8.length] ++
    text.annotations.flatMap fun item => [item.range.begin, item.range.end_]).insertionSort (· ≤ ·))

/-- Preconverts native strings and indexes Unicode and annotation boundaries. -/
def indexText (node : Node F) : Option AccessibilityTextIndex :=
  let cache : AccessibilityTextIndex :=
    { name := utf16 node.name
      description := utf16 node.description
      help := utf16 node.helpText
      value := utf16 node.value
      language := utf16 node.language
      accessKey := utf16 node.accessKey
      shortcut := utf16 node.keyboardShortcut }
  match node.text with
  | none => some cache
  | some text =>
    let graphemes := (graphemeBoundaries text.utf8).map u32
    (scanScalars text.utf8 graphemes {}).map fun s =>
      { cache with
        text := utf16 text.utf8
        textLanguage := utf16 text.language
        annotationValues := text.annotations.map fun item => utf16 item.value
        formats := formatEdges text
        graphemes
        scalars := s.scalars ++ [s.offset]
        utf16Offsets := s.utf16Offsets ++ [s.wideOffset]
        words := closeUnits s.offset s.words
        lines := closeUnits s.offset s.lines }

/-- The UTF-16 offset of the first scalar that does not start in front of the offset; `none` when
the lookup is out of range. -/
def wideOffset (cache : AccessibilityTextIndex) (offset : Nat) : Option Nat :=
  cache.utf16Offsets[Lib.search (fun a b => decide (a < b)) id cache.scalars offset]?

end TextIndex

end Desktop

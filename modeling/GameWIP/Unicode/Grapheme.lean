import GameWIP.Unicode.Encoding
import GameWIP.Unicode.Properties

/-!
# Extended grapheme-cluster boundaries

Boundary traversal of UTF-8 text (`core/grapheme.cpp`): the streaming rule context, the ordered
rules, the ASCII shortcuts, the backward search for a safe restart, the complete left-to-right pass
with the cursor over its boundaries, and the two stateless queries. A `std::string_view` is the
list of its bytes; `text[i]` is `text.getD i 0`, always read inside the bounds.
-/

namespace Unicode

/-! ## The scalar before an offset -/

/-- Result of decoding the complete scalar immediately before a byte offset. -/
structure PreviousUtf8ScalarResult where
  decoded : Utf8.DecodeResult := {}
  startOffset : Nat := 0
  deriving DecidableEq, Repr

/-- The loop of `decodePreviousUtf8Scalar`: back over continuation bytes. -/
def skipContinuationBytes (text : List UInt8) : Nat → Nat
  | 0 => 0
  | startOffset + 1 =>
    if isContinuationByte (text.getD (startOffset + 1) 0) then
      skipContinuationBytes text startOffset
    else
      startOffset + 1

/-- Decodes the scalar ending exactly at one nonzero byte offset. -/
def decodePreviousUtf8Scalar (text : List UInt8) (byteOffset : Nat) : PreviousUtf8ScalarResult :=
  if byteOffset == 0 || byteOffset > text.length then
    {}
  else
    let startOffset := skipContinuationBytes text (byteOffset - 1)
    let encodedLength := byteOffset - startOffset
    let decoded := decodeUtf8Scalar ((text.drop startOffset).take encodedLength)
    if decoded.outcome != .decoded || decoded.bytesConsumed != encodedLength then
      { decoded := { outcome := .invalidEncoding }, startOffset := byteOffset }
    else
      { decoded, startOffset }

theorem skipContinuationBytes_le (text : List UInt8) (n : Nat) :
    skipContinuationBytes text n ≤ n := by
  induction n with
  | zero => exact Nat.le_refl _
  | succ n ih =>
    unfold skipContinuationBytes
    split
    · exact Nat.le_succ_of_le ih
    · exact Nat.le_refl _

/-- The search for a restart goes strictly backwards. -/
theorem decodePreviousUtf8Scalar_startOffset_lt {text : List UInt8} {byteOffset : Nat}
    (hpos : 0 < byteOffset)
    (h : (decodePreviousUtf8Scalar text byteOffset).decoded.outcome = .decoded) :
    (decodePreviousUtf8Scalar text byteOffset).startOffset < byteOffset := by
  have hle := skipContinuationBytes_le text (byteOffset - 1)
  unfold decodePreviousUtf8Scalar at h ⊢
  dsimp only at h ⊢
  split_ifs at h ⊢
  dsimp only
  omega

namespace Utf8

/-! ## Results -/

inductive BoundaryOutcome where
  | found
  | atBeginning
  | atEnd
  | invalidOffset
  | invalidEncoding
  deriving DecidableEq, Repr

structure BoundaryResult where
  byteOffset : Nat := 0
  outcome : BoundaryOutcome := .invalidOffset
  deriving DecidableEq, Repr

inductive GraphemeIndexOutcome where
  | indexed
  | destinationTooSmall
  | invalidEncoding
  deriving DecidableEq, Repr

structure GraphemeIndexResult where
  requiredBoundaryCount : Nat := 0
  outcome : GraphemeIndexOutcome := .indexed
  deriving DecidableEq, Repr

/-! ## The rules -/

inductive IndicSequenceState where
  | none
  | consonant
  | linked
  deriving DecidableEq, Repr

inductive EmojiSequenceState where
  | none
  | extendedPictographic
  | extendedPictographicZwj
  deriving DecidableEq, Repr

/-- Streaming context required by the context-sensitive grapheme rules. -/
structure GraphemeState where
  indic : IndicSequenceState := .none
  emoji : EmojiSequenceState := .none
  regionalIndicatorCount : Nat := 0
  deriving DecidableEq, Repr

/-- Incorporates one decoded scalar into the rule context. -/
def GraphemeState.consume (state : GraphemeState) (properties : UnicodeProperties) :
    GraphemeState where
  indic :=
    match properties.indicConjunctBreak with
    | .consonant => .consonant
    | .extend => state.indic
    | .linker => if state.indic == .none then .none else .linked
    | .none => .none
  emoji :=
    if properties.extendedPictographic then .extendedPictographic
    else if properties.graphemeBreak == .extend && state.emoji == .extendedPictographic then
      state.emoji
    else if properties.graphemeBreak == .zwj && state.emoji == .extendedPictographic then
      .extendedPictographicZwj
    else .none
  regionalIndicatorCount :=
    if properties.graphemeBreak == .regionalIndicator then state.regionalIndicatorCount + 1 else 0

/-- Applies the ordered Unicode 17 extended grapheme-cluster rules at one boundary. -/
def shouldBreak (previous current : UnicodeProperties) (state : GraphemeState) : Bool :=
  -- GB3
  if previous.graphemeBreak == .cr && current.graphemeBreak == .lf then false
  -- GB4 and GB5
  else if isControlClass previous.graphemeBreak || isControlClass current.graphemeBreak then true
  -- GB6
  else if previous.graphemeBreak == .l &&
      (current.graphemeBreak == .l || current.graphemeBreak == .v ||
        current.graphemeBreak == .lv || current.graphemeBreak == .lvt) then false
  -- GB7
  else if (previous.graphemeBreak == .lv || previous.graphemeBreak == .v) &&
      (current.graphemeBreak == .v || current.graphemeBreak == .t) then false
  -- GB8
  else if (previous.graphemeBreak == .lvt || previous.graphemeBreak == .t) &&
      current.graphemeBreak == .t then false
  -- GB9
  else if current.graphemeBreak == .extend || current.graphemeBreak == .zwj then false
  -- GB9a
  else if current.graphemeBreak == .spacingMark then false
  -- GB9b
  else if previous.graphemeBreak == .prepend then false
  -- GB9c
  else if current.indicConjunctBreak == .consonant && state.indic == .linked then false
  -- GB11
  else if current.extendedPictographic && state.emoji == .extendedPictographicZwj then false
  -- GB12 and GB13
  else if previous.graphemeBreak == .regionalIndicator &&
      current.graphemeBreak == .regionalIndicator &&
      state.regionalIndicatorCount &&& 1 != 0 then false
  -- GB999
  else true

/-! ## ASCII shortcuts -/

/-- Attempts the common ASCII-only next-boundary path without table lookup. -/
def nextAsciiBoundary (text : List UInt8) (byteOffset : Nat) : BoundaryResult :=
  let current := byteValue (text.getD byteOffset 0)
  if current ≥ 0x80 then
    { byteOffset, outcome := .invalidOffset }
  else
    let previousIsAscii := byteOffset == 0 || byteValue (text.getD (byteOffset - 1) 0) < 0x80
    if !previousIsAscii then
      { byteOffset, outcome := .invalidOffset }
    else if current == 0x0D && byteOffset + 1 < text.length &&
        text.getD (byteOffset + 1) 0 == 0x0A then
      { byteOffset := byteOffset + 2, outcome := .found }
    else
      let currentIsControl := current ≤ 0x1F || current == 0x7F
      let nextIsAscii :=
        byteOffset + 1 == text.length || byteValue (text.getD (byteOffset + 1) 0) < 0x80
      if currentIsControl || nextIsAscii then
        { byteOffset := byteOffset + 1, outcome := .found }
      else
        { byteOffset, outcome := .invalidOffset }

/-- Attempts the common ASCII-only previous-boundary path without table lookup. -/
def previousAsciiBoundary (text : List UInt8) (byteOffset : Nat) : BoundaryResult :=
  let previousOffset := byteOffset - 1
  let previous := byteValue (text.getD previousOffset 0)
  if previous ≥ 0x80 then
    { byteOffset, outcome := .invalidOffset }
  else if previous == 0x0A && previousOffset > 0 && text.getD (previousOffset - 1) 0 == 0x0D then
    { byteOffset := previousOffset - 1, outcome := .found }
  else
    let beforePreviousIsAscii :=
      previousOffset == 0 || byteValue (text.getD (previousOffset - 1) 0) < 0x80
    if beforePreviousIsAscii then
      { byteOffset := previousOffset, outcome := .found }
    else
      { byteOffset, outcome := .invalidOffset }

/-! ## The safe restart -/

/-- Whether a boundary is guaranteed without earlier grapheme state. -/
def isGuaranteedBreak (previous current : UnicodeProperties) : Bool :=
  if previous.graphemeBreak == .cr && current.graphemeBreak == .lf then false
  else if isControlClass previous.graphemeBreak || isControlClass current.graphemeBreak then true
  else if previous.graphemeBreak == .l &&
      (current.graphemeBreak == .l || current.graphemeBreak == .v ||
        current.graphemeBreak == .lv || current.graphemeBreak == .lvt) then false
  else if (previous.graphemeBreak == .lv || previous.graphemeBreak == .v) &&
      (current.graphemeBreak == .v || current.graphemeBreak == .t) then false
  else if (previous.graphemeBreak == .lvt || previous.graphemeBreak == .t) &&
      current.graphemeBreak == .t then false
  else if current.graphemeBreak == .extend || current.graphemeBreak == .zwj ||
      current.graphemeBreak == .spacingMark || previous.graphemeBreak == .prepend then false
  -- GB9c, GB11, GB12 and GB13 depend on state preceding this pair
  else if current.indicConjunctBreak == .consonant || current.extendedPictographic ||
      (previous.graphemeBreak == .regionalIndicator &&
        current.graphemeBreak == .regionalIndicator) then false
  else true

structure RestartResult where
  byteOffset : Nat := 0
  valid : Bool := true
  deriving DecidableEq, Repr

/-- The loop of `findSafeRestart`. -/
def findSafeRestartFrom (text : List UInt8) (scalarOffset currentOffset : Nat) : RestartResult :=
  if hpos : 0 < currentOffset then
    let currentDecoded := decodeUtf8Scalar (text.drop currentOffset)
    if currentDecoded.outcome ≠ .decoded then
      { byteOffset := scalarOffset, valid := false }
    else
      let previousDecoded := decodePreviousUtf8Scalar text currentOffset
      if hp : previousDecoded.decoded.outcome ≠ .decoded then
        { byteOffset := scalarOffset, valid := false }
      else if isGuaranteedBreak (unicodeProperties previousDecoded.decoded.scalar)
          (unicodeProperties currentDecoded.scalar) then
        { byteOffset := currentOffset }
      else
        have := decodePreviousUtf8Scalar_startOffset_lt hpos (not_not.1 hp)
        findSafeRestartFrom text scalarOffset previousDecoded.startOffset
  else
    {}
termination_by currentOffset

/-- Finds the nearest earlier boundary from which grapheme state can be rebuilt independently. -/
def findSafeRestart (text : List UInt8) (scalarOffset : Nat) : RestartResult :=
  findSafeRestartFrom text scalarOffset scalarOffset

/-! ## The passes -/

/-- The loop of `visitGraphemeBoundaries`: the offsets visited, and whether the text is complete. -/
def visitFrom (text : List UInt8) (previousProperties : UnicodeProperties) (state : GraphemeState)
    (currentOffset : Nat) : List Nat × Bool :=
  if _hlt : currentOffset < text.length then
    let currentDecoded := decodeUtf8Scalar (text.drop currentOffset)
    if ho : currentDecoded.outcome ≠ .decoded then
      ([], false)
    else
      let currentProperties := unicodeProperties currentDecoded.scalar
      have := decodeUtf8Scalar_bytesConsumed_pos (not_not.1 ho)
      let (visited, complete) := visitFrom text currentProperties (state.consume currentProperties)
        (currentOffset + currentDecoded.bytesConsumed)
      if shouldBreak previousProperties currentProperties state then
        (currentOffset :: visited, complete)
      else
        (visited, complete)
  else
    ([text.length], true)
termination_by text.length - currentOffset

/-- Visits every grapheme boundary in one complete left-to-right segmentation pass: the offsets
handed to the visitor in order, and the result. -/
def visitGraphemeBoundaries (text : List UInt8) : List Nat × Bool :=
  if text.isEmpty then
    ([0], true)
  else
    let previousDecoded := decodeUtf8Scalar text
    if previousDecoded.outcome ≠ .decoded then
      ([0], false)
    else
      let previousProperties := unicodeProperties previousDecoded.scalar
      let (visited, complete) := visitFrom text previousProperties
        (GraphemeState.consume {} previousProperties) previousDecoded.bytesConsumed
      (0 :: visited, complete)

/-- The loop of `scanNextFrom`. -/
def scanNextLoop (text : List UInt8) (targetOffset : Nat) (previousProperties : UnicodeProperties)
    (state : GraphemeState) (currentOffset : Nat) : BoundaryResult :=
  if _hlt : currentOffset < text.length then
    let currentDecoded := decodeUtf8Scalar (text.drop currentOffset)
    if ho : currentDecoded.outcome ≠ .decoded then
      { byteOffset := targetOffset, outcome := .invalidEncoding }
    else
      let currentProperties := unicodeProperties currentDecoded.scalar
      if shouldBreak previousProperties currentProperties state && currentOffset > targetOffset then
        { byteOffset := currentOffset, outcome := .found }
      else
        have := decodeUtf8Scalar_bytesConsumed_pos (not_not.1 ho)
        scanNextLoop text targetOffset currentProperties (state.consume currentProperties)
          (currentOffset + currentDecoded.bytesConsumed)
  else
    { byteOffset := text.length, outcome := .found }
termination_by text.length - currentOffset

/-- Finds the first grapheme boundary after target using state rebuilt from a safe restart. -/
def scanNextFrom (text : List UInt8) (restartOffset targetOffset : Nat) : BoundaryResult :=
  let previousDecoded := decodeUtf8Scalar (text.drop restartOffset)
  if previousDecoded.outcome ≠ .decoded then
    { byteOffset := targetOffset, outcome := .invalidEncoding }
  else
    let previousProperties := unicodeProperties previousDecoded.scalar
    scanNextLoop text targetOffset previousProperties
      (GraphemeState.consume {} previousProperties) (restartOffset + previousDecoded.bytesConsumed)

/-- The loop of `scanPreviousFrom`. -/
def scanPreviousLoop (text : List UInt8) (targetOffset previousBoundary : Nat)
    (previousProperties : UnicodeProperties) (state : GraphemeState) (currentOffset : Nat) :
    BoundaryResult :=
  if _hlt : currentOffset < text.length then
    let currentDecoded := decodeUtf8Scalar (text.drop currentOffset)
    if ho : currentDecoded.outcome ≠ .decoded then
      { byteOffset := targetOffset, outcome := .invalidEncoding }
    else
      let currentProperties := unicodeProperties currentDecoded.scalar
      have := decodeUtf8Scalar_bytesConsumed_pos (not_not.1 ho)
      if shouldBreak previousProperties currentProperties state then
        if currentOffset ≥ targetOffset then
          { byteOffset := previousBoundary, outcome := .found }
        else
          scanPreviousLoop text targetOffset currentOffset currentProperties
            (state.consume currentProperties) (currentOffset + currentDecoded.bytesConsumed)
      else
        scanPreviousLoop text targetOffset previousBoundary currentProperties
          (state.consume currentProperties) (currentOffset + currentDecoded.bytesConsumed)
  else
    { byteOffset := previousBoundary, outcome := .found }
termination_by text.length - currentOffset

/-- Finds the last grapheme boundary before target using state rebuilt from a safe restart. -/
def scanPreviousFrom (text : List UInt8) (restartOffset targetOffset : Nat) : BoundaryResult :=
  let previousDecoded := decodeUtf8Scalar (text.drop restartOffset)
  if previousDecoded.outcome ≠ .decoded then
    { byteOffset := targetOffset, outcome := .invalidEncoding }
  else
    let previousProperties := unicodeProperties previousDecoded.scalar
    scanPreviousLoop text targetOffset restartOffset previousProperties
      (GraphemeState.consume {} previousProperties) (restartOffset + previousDecoded.bytesConsumed)

/-! ## The stateless queries -/

def nextGraphemeBoundary (text : List UInt8) (byteOffset : Nat) : BoundaryResult :=
  if byteOffset > text.length then
    { byteOffset, outcome := .invalidOffset }
  else if byteOffset < text.length && isContinuationByte (text.getD byteOffset 0) then
    { byteOffset, outcome := .invalidOffset }
  else if byteOffset == text.length then
    if (validate text).outcome != .valid then
      { byteOffset, outcome := .invalidEncoding }
    else
      { byteOffset, outcome := .atEnd }
  else if byteValue (text.getD byteOffset 0) < 0x80 &&
      (nextAsciiBoundary text byteOffset).outcome == .found then
    nextAsciiBoundary text byteOffset
  else
    let restart := findSafeRestart text byteOffset
    if !restart.valid then
      { byteOffset, outcome := .invalidEncoding }
    else
      scanNextFrom text restart.byteOffset byteOffset

def previousGraphemeBoundary (text : List UInt8) (byteOffset : Nat) : BoundaryResult :=
  if byteOffset > text.length then
    { byteOffset, outcome := .invalidOffset }
  else if byteOffset < text.length && isContinuationByte (text.getD byteOffset 0) then
    { byteOffset, outcome := .invalidOffset }
  else if byteOffset == 0 then
    { byteOffset := 0, outcome := .atBeginning }
  else if byteValue (text.getD (byteOffset - 1) 0) < 0x80 &&
      (previousAsciiBoundary text byteOffset).outcome == .found then
    previousAsciiBoundary text byteOffset
  else
    let previousScalar := decodePreviousUtf8Scalar text byteOffset
    if previousScalar.decoded.outcome ≠ .decoded then
      { byteOffset, outcome := .invalidEncoding }
    else
      let restart := findSafeRestart text previousScalar.startOffset
      if !restart.valid then
        { byteOffset, outcome := .invalidEncoding }
      else
        scanPreviousFrom text restart.byteOffset byteOffset

/-! ## The cursor -/

/-- Caller-owned traversal state over the boundaries of one text. -/
structure GraphemeCursor where
  boundaries_ : List Nat := []
  currentBoundaryIndex_ : Nat := 0
  deriving DecidableEq, Repr

namespace GraphemeCursor

def clear (_cursor : GraphemeCursor) : GraphemeCursor := {}

def ready (cursor : GraphemeCursor) : Bool := !cursor.boundaries_.isEmpty

def byteOffset (cursor : GraphemeCursor) : Nat :=
  if cursor.ready then cursor.boundaries_.getD cursor.currentBoundaryIndex_ 0 else 0

def boundaryCount (cursor : GraphemeCursor) : Nat := cursor.boundaries_.length

/-- Rebuilds the complete grapheme-boundary index in storage for `storageSize` offsets. -/
def reset (cursor : GraphemeCursor) (text : List UInt8) (storageSize : Nat) :
    GraphemeCursor × GraphemeIndexResult :=
  let (visited, complete) := visitGraphemeBoundaries text
  if !complete then
    (cursor.clear, { outcome := .invalidEncoding })
  else if visited.length > storageSize then
    (cursor.clear, { requiredBoundaryCount := visited.length, outcome := .destinationTooSmall })
  else
    ({ boundaries_ := visited, currentBoundaryIndex_ := 0 },
      { requiredBoundaryCount := visited.length, outcome := .indexed })

/-- Moves to one exact indexed grapheme boundary. `std::lower_bound` is the first offset that is
not below the one sought. -/
def seek (cursor : GraphemeCursor) (byteOffset : Nat) : GraphemeCursor × BoundaryResult :=
  if !cursor.ready then
    (cursor, { byteOffset, outcome := .invalidOffset })
  else
    let found := cursor.boundaries_.findIdx fun boundary => byteOffset ≤ boundary
    if found == cursor.boundaries_.length || cursor.boundaries_.getD found 0 != byteOffset then
      (cursor, { byteOffset, outcome := .invalidOffset })
    else
      ({ cursor with currentBoundaryIndex_ := found }, { byteOffset, outcome := .found })

def next (cursor : GraphemeCursor) : GraphemeCursor × BoundaryResult :=
  if !cursor.ready then
    (cursor, { outcome := .invalidOffset })
  else if cursor.currentBoundaryIndex_ + 1 ≥ cursor.boundaries_.length then
    (cursor, { byteOffset := cursor.byteOffset, outcome := .atEnd })
  else
    let moved := { cursor with currentBoundaryIndex_ := cursor.currentBoundaryIndex_ + 1 }
    (moved, { byteOffset := moved.byteOffset, outcome := .found })

def previous (cursor : GraphemeCursor) : GraphemeCursor × BoundaryResult :=
  if !cursor.ready then
    (cursor, { outcome := .invalidOffset })
  else if cursor.currentBoundaryIndex_ == 0 then
    (cursor, { byteOffset := 0, outcome := .atBeginning })
  else
    let moved := { cursor with currentBoundaryIndex_ := cursor.currentBoundaryIndex_ - 1 }
    (moved, { byteOffset := moved.byteOffset, outcome := .found })

/-- Discards every retained boundary after the current position. -/
def discardAfterCurrent (cursor : GraphemeCursor) : GraphemeCursor :=
  if cursor.ready then
    { cursor with boundaries_ := cursor.boundaries_.take (cursor.currentBoundaryIndex_ + 1) }
  else
    cursor

end GraphemeCursor

end Utf8

end Unicode

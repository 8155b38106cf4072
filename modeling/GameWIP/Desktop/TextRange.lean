import GameWIP.Desktop.Transport

/-!
# Text ranges

The unit tables that `indexText` keeps for a text (`desktop/core/accessibility.cpp`), and the range
methods of `win32_accessibility_text.cpp` that change the bounds of a range:
`ExpandToEnclosingUnit`, `Move`, `MoveEndpointByUnit` and `MoveEndpointByRange`.

`RangeState` holds the ranges of one text node of one published snapshot. A change of a range is one
step; `MoveEndpointByRange` is two, since it loads the offset of its peer before it exchanges its own
bounds. What a step finds outside is in its action: whether the query succeeds, and how many of its
weak exchanges fail spuriously. The pointers for results are not null.
-/

namespace Desktop

open Unicode (Utf8.decodeScalar)

/-! ## Unit tables -/

/-- The tables of the units of a text. -/
structure AccessibilityTextCache where
  graphemes : List Nat
  words : List Nat
  lines : List Nat
  formats : List Nat
  deriving DecidableEq, Repr

def isSpace (scalar : Nat) : Bool :=
  scalar = 0x20 || scalar = 0x09 || scalar = 0x0D || scalar = 0x0A || scalar = 0xA0 ||
    scalar = 0x1680 || (0x2000 ≤ scalar && scalar ≤ 0x200A) || scalar = 0x2028 ||
    scalar = 0x2029 || scalar = 0x202F || scalar = 0x205F || scalar = 0x3000

def isLineEnd (scalar : Nat) : Bool := scalar = 0x0A || scalar = 0x2028 || scalar = 0x2029

/-- The loop over the scalars; `none` when it does not end. -/
def indexUnits (text : List UInt8) (graphemes : List Nat) (offset : Nat) (previousSpace : Bool)
    (words lines : List Nat) : Option (Nat × List Nat × List Nat) :=
  if _hoffset : offset < text.length then
    let scalar := Utf8.decodeScalar (text.drop offset)
    let space := isSpace scalar.scalar
    if _hconsumed : scalar.bytesConsumed = 0 then none
    else
      indexUnits text graphemes (offset + scalar.bytesConsumed) space
        (if previousSpace && !space && binarySearch graphemes offset then words ++ [offset]
         else words)
        (if isLineEnd scalar.scalar then lines ++ [offset + scalar.bytesConsumed] else lines)
  else some (offset, words, lines)
termination_by text.length - offset
decreasing_by
  exact Nat.sub_lt_sub_left _hoffset (Nat.lt_add_of_pos_right (Nat.pos_of_ne_zero _hconsumed))

/-- `std::unique` on sorted values. -/
def unique : List Nat → List Nat
  | a :: b :: rest => if a = b then unique (b :: rest) else a :: unique (b :: rest)
  | rest => rest

/-- The end of the text closes a table. -/
def closeUnits (offset : Nat) (units : List Nat) : List Nat :=
  if units.getLast? ≠ some offset then units ++ [offset] else units

/-- The unit tables that `indexText` keeps. -/
def indexTextUnits {F : Type} (text : TextContent F) : Option AccessibilityTextCache :=
  let graphemes := graphemeBoundaries text.utf8
  (indexUnits text.utf8 graphemes 0 false [0] [0]).map fun (offset, words, lines) =>
    { graphemes
      words := closeUnits offset words
      lines := closeUnits offset lines
      formats := unique (([0, text.utf8.length] ++
        text.annotations.flatMap fun item => [item.range.begin, item.range.end_]).insertionSort
          (· ≤ ·)) }

/-! ## Ranges -/

inductive TextUnit where
  | character
  | format
  | word
  | line
  | paragraph
  | page
  | document
  /-- A value outside the enumeration. -/
  | unknown
  deriving DecidableEq, Repr

inductive TextPatternRangeEndpoint where
  | start
  | end_
  /-- A value outside the enumeration. -/
  | unknown
  deriving DecidableEq, Repr

inductive HResult where
  | ok
  | unavailable
  | invalidArgument
  | busy
  deriving DecidableEq, Repr

def pack (range : TextRange) : UInt64 :=
  (UInt64.ofNat range.begin <<< 32) ||| UInt64.ofNat range.end_

def unpack (value : UInt64) : TextRange where
  begin := (value >>> 32).toUInt32.toNat
  end_ := value.toUInt32.toNat

def validEndpoint (endpoint : TextPatternRangeEndpoint) : Bool :=
  endpoint = .start || endpoint = .end_

def endpointOffset (range : TextRange) (endpoint : TextPatternRangeEndpoint) : Nat :=
  if endpoint = .start then range.begin else range.end_

/-- What the ranges of a text node read. -/
structure RangeText where
  size : Nat
  cache : AccessibilityTextCache

def unitIndex (text : RangeText) (unit : TextUnit) : List Nat :=
  match unit with
  | .character => text.cache.graphemes
  | .word => text.cache.words
  | .line | .paragraph => text.cache.lines
  | .format => text.cache.formats
  | .page | .document => [0, text.size]
  | .unknown => []

/-- The index of the unit that contains the offset: `std::ranges::upper_bound`. -/
def unitAt (units : List Nat) (offset : Nat) : Nat :=
  let index := Lib.lowerBound (fun entry => decide (entry ≤ offset)) units
  if index = 0 then 0 else min (index - 1) (units.length - 1)

def clamp (value low high : Int) : Int := max low (min value high)

/-! ## What one exchange writes -/

namespace TextRangeProvider

def expanded (units : List Nat) (range : TextRange) : TextRange :=
  let start := min (unitAt units range.begin) (if units.length > 1 then units.length - 2 else 0)
  let end_ := if units.length > 1 then start + 1 else start
  { begin := units.getD start 0, end_ := units.getD end_ 0 }

/-- The new bounds, with the number of units moved. -/
def moved (units : List Nat) (count : Int) (range : TextRange) : TextRange × Int :=
  let degenerate : Bool := range.begin = range.end_
  let maxIndex := if units.length > 1 then units.length - (if degenerate then 1 else 2) else 0
  let initial := min (unitAt units range.begin) maxIndex
  let destination := clamp (initial + count) 0 maxIndex
  let index := destination.toNat
  ({ begin := units.getD index 0
     end_ := if degenerate then units.getD index 0
       else units.getD (min (index + 1) (units.length - 1)) 0 },
    destination - initial)

/-- The range with one endpoint put at an offset; the other one gives way. -/
def withEndpoint (endpoint : TextPatternRangeEndpoint) (offset : Nat) (range : TextRange) :
    TextRange :=
  if endpoint = .start then { begin := offset, end_ := max offset range.end_ }
  else { begin := min range.begin offset, end_ := offset }

def movedEndpoint (endpoint : TextPatternRangeEndpoint) (units : List Nat) (count : Int)
    (range : TextRange) : TextRange × Int :=
  let offset := endpointOffset range endpoint
  let found : Int := Lib.lowerBound (fun entry => decide (entry < offset)) units
  let initial :=
    if count > 0 && found < units.length && units.getD found.toNat 0 ≠ offset then found - 1
    else found
  let destination := clamp (initial + count) 0 (units.length - 1)
  (withEndpoint endpoint (units.getD destination.toNat 0) range, destination - initial)

end TextRangeProvider

/-! ## The methods -/

/-- A change of a range that waits for its exchange, in `MoveEndpointByRange`. -/
structure PendingEndpoint where
  endpoint : TextPatternRangeEndpoint
  offset : Nat
  deriving DecidableEq, Repr

structure TextRangeProvider where
  bounds : UInt64
  pending : Option PendingEndpoint := none
  deriving DecidableEq, Repr

/-- What a call returns. -/
structure RangeReport where
  result : HResult
  moved : Int := 0
  deriving DecidableEq, Repr

/-- What a call meets: whether its query succeeds and how many of its exchanges fail. -/
structure RangeCall where
  available : Bool := true
  failures : Nat := 0
  deriving DecidableEq, Repr

namespace TextRangeProvider

/-- At most `attempts` weak exchanges, of which the first `failures` fail. -/
def exchange (change : TextRange → TextRange × Int) (range : TextRangeProvider) :
    Nat → Nat → TextRangeProvider × RangeReport
  | 0, _ => (range, { result := .busy })
  | attempts + 1, failures + 1 => exchange change range attempts failures
  | _ + 1, 0 =>
    let (next, moved) := change (unpack range.bounds)
    ({ range with bounds := pack next }, { result := .ok, moved })

def expandToEnclosingUnit (text : RangeText) (unit : TextUnit) (call : RangeCall)
    (range : TextRangeProvider) : TextRangeProvider × RangeReport :=
  let units := unitIndex text unit
  if !call.available then (range, { result := .unavailable })
  else if units.isEmpty then (range, { result := .invalidArgument })
  else exchange (fun bounds => (expanded units bounds, 0)) range 8 call.failures

def move (text : RangeText) (unit : TextUnit) (count : Int) (call : RangeCall)
    (range : TextRangeProvider) : TextRangeProvider × RangeReport :=
  let units := unitIndex text unit
  if !call.available then (range, { result := .unavailable })
  else if units.isEmpty then (range, { result := .invalidArgument })
  else if count = 0 then (range, { result := .ok })
  else exchange (TextRangeProvider.moved units count) range 8 call.failures

def moveEndpointByUnit (text : RangeText) (endpoint : TextPatternRangeEndpoint) (unit : TextUnit)
    (count : Int) (call : RangeCall) (range : TextRangeProvider) :
    TextRangeProvider × RangeReport :=
  let units := unitIndex text unit
  if !call.available then (range, { result := .unavailable })
  else if !validEndpoint endpoint then (range, { result := .invalidArgument })
  else if units.isEmpty then (range, { result := .invalidArgument })
  else if count = 0 then (range, { result := .ok })
  else exchange (movedEndpoint endpoint units count) range 8 call.failures

/-- The checks of `MoveEndpointByRange` and the load of its peer. -/
def loadEndpoint (endpoint : TextPatternRangeEndpoint) (peer : Option TextRangeProvider)
    (target : TextPatternRangeEndpoint) (call : RangeCall) (range : TextRangeProvider) :
    TextRangeProvider × RangeReport :=
  if !call.available then (range, { result := .unavailable })
  else if !validEndpoint endpoint || !validEndpoint target then
    (range, { result := .invalidArgument })
  else
    match peer with
    | none => (range, { result := .invalidArgument })
    | some peer =>
      let offset := endpointOffset (unpack peer.bounds) target
      ({ range with pending := some { endpoint, offset } }, { result := .ok })

/-- The exchange of `MoveEndpointByRange`. -/
def storeEndpoint (pending : PendingEndpoint) (call : RangeCall) (range : TextRangeProvider) :
    TextRangeProvider × RangeReport :=
  exchange (fun bounds => (withEndpoint pending.endpoint pending.offset bounds, 0))
    { range with pending := none } 8 call.failures

end TextRangeProvider

/-! ## Runs -/

/-- The ranges of a text node, with what the last call returned. -/
structure RangeState where
  ranges : List TextRangeProvider
  report : RangeReport := { result := .ok }
  deriving DecidableEq, Repr

/-- A method called on a range. -/
inductive RangeMethod where
  | expandToEnclosingUnit (unit : TextUnit)
  | move (unit : TextUnit) (count : Int)
  | moveEndpointByUnit (endpoint : TextPatternRangeEndpoint) (unit : TextUnit) (count : Int)
  | loadEndpoint (endpoint : TextPatternRangeEndpoint) (peer : Nat)
      (target : TextPatternRangeEndpoint)
  | storeEndpoint
  deriving DecidableEq, Repr

structure RangeAction where
  range : Nat
  method : RangeMethod
  call : RangeCall := {}
  deriving DecidableEq, Repr

namespace RangeState

/-- A method on a range; a method does not start while a change of the range is pending. -/
def apply (text : RangeText) (s : RangeState) (action : RangeAction) (range : TextRangeProvider) :
    Option (TextRangeProvider × RangeReport) :=
  match action.method, range.pending with
  | .expandToEnclosingUnit unit, none => some (range.expandToEnclosingUnit text unit action.call)
  | .move unit count, none => some (range.move text unit count action.call)
  | .moveEndpointByUnit endpoint unit count, none =>
    some (range.moveEndpointByUnit text endpoint unit count action.call)
  | .loadEndpoint endpoint peer target, none =>
    some (range.loadEndpoint endpoint s.ranges[peer]? target action.call)
  | .storeEndpoint, some pending => some (range.storeEndpoint pending action.call)
  | _, _ => none

def step (text : RangeText) (s : RangeState) (action : RangeAction) : Option RangeState :=
  s.ranges[action.range]?.bind fun range =>
    (s.apply text action range).map fun (range, report) =>
      { ranges := s.ranges.set action.range range, report }

end RangeState

end Desktop

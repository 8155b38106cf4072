import GameWIP.Desktop.TextIndex

/-!
# The text of a range

`FindText` and `GetText` of the text ranges (`win32_accessibility_text.cpp`). What a call meets
outside is its input: whether its query succeeds, what the new range object answers, and whether a
string is allocated. `CompareStringOrdinal` compares units, through a map of the units when the case
is ignored. The pointers for results are not null; `none` is an access out of range.
-/

namespace Desktop

namespace TextIndex

/-- A `BSTR`: the number of its bytes is a 32-bit value. -/
structure Bstr where
  units : List UInt16
  small : units.length * 2 < 2 ^ 32

/-- The failures among the results of a query. -/
inductive QueryError where
  | unavailable
  | invalidArgument
  | unsupported
  | notEnoughQuota
  | outOfMemory
  deriving DecidableEq, Repr

structure QueryAnswers where
  available : Bool := true
  /-- What `UiaState::range` answers for a range. -/
  range : Except QueryError Unit := .ok ()
  allocated : Bool := true

/-- A range object, when there is one to have. -/
def makeRange (answers : QueryAnswers) (range : TextRange) : Except QueryError (Option TextRange) :=
  answers.range.map fun _ => some range

/-- A subtraction of 32-bit values. -/
def sub32 (a b : Nat) : Nat := u32 (a + 2 ^ 32 - b)

/-- `std::u16string_view::substr`. -/
def substr (text : List UInt16) (start length : Nat) : Option (List UInt16) :=
  if start ≤ text.length then some ((text.drop start).take length) else none

def compareStringOrdinal (upper : UInt16 → UInt16) (a b : List UInt16) (ignoreCase : Bool) : Bool :=
  if ignoreCase then a.map upper = b.map upper else a = b

/-! ## Search -/

/-- The lookup of an offset in a table: `std::ranges::lower_bound`. -/
def lowerBound (offsets : List Nat) (offset : Nat) : Nat :=
  Lib.search (fun a b => decide (a < b)) id offsets offset

/-- The end of the match that starts at a UTF-16 offset, when there is a match from one grapheme
boundary to another. -/
def matchEnd (cache : AccessibilityTextIndex) (upper : UInt16 → UInt16) (text : List UInt16)
    (ignoreCase : Bool) (start : Nat) : Option (Option Nat) := do
  let units ← substr cache.text start text.length
  if units.length < text.length then none
  else if !compareStringOrdinal upper units text ignoreCase then some none
  else
    let endPosition := lowerBound cache.utf16Offsets (u32 (start + text.length))
    if cache.utf16Offsets[endPosition]? ≠ some (u32 (start + text.length)) then some none
    else
      let end_ ← cache.scalars[endPosition]?
      if binarySearch cache.graphemes end_ then some (some end_) else some none

/-- The loop over the graphemes from the begin of the range on. -/
def findLoop (cache : AccessibilityTextIndex) (upper : UInt16 → UInt16) (text : List UInt16)
    (backward ignoreCase : Bool) (rangeEnd endWide : Nat) :
    List Nat → Option TextRange → Option (Option TextRange)
  | [], found => some found
  | offset :: rest, found =>
    if rangeEnd < offset then some found
    else do
      let start ← wideOffset cache offset
      if start > sub32 endWide text.length then some found
      else
        match ← matchEnd cache upper text ignoreCase start with
        | none => findLoop cache upper text backward ignoreCase rangeEnd endWide rest found
        | some end_ =>
          if backward then
            findLoop cache upper text backward ignoreCase rangeEnd endWide rest
              (some { begin := offset, end_ })
          else some (some { begin := offset, end_ })

/-- `std::numeric_limits<int>::max()`. -/
def intMax : Nat := 2147483647

/-- `FindText`; no range when the text is not found. -/
def findText (cache : AccessibilityTextIndex) (upper : UInt16 → UInt16) (text : Bstr)
    (backward ignoreCase : Bool) (answers : QueryAnswers) (provider : TextRangeProvider) :
    Option (Except QueryError (Option TextRange)) :=
  if !answers.available then some (.error .unavailable)
  else if text.units.length = 0 || text.units.length > intMax then some (.error .invalidArgument)
  else do
    let range := unpack provider.bounds
    let beginWide ← wideOffset cache range.begin
    let endWide ← wideOffset cache range.end_
    if text.units.length > sub32 endWide beginWide then some (.ok none)
    else
      match ← findLoop cache upper text.units backward ignoreCase range.end_ endWide
        (cache.graphemes.drop (lowerBound cache.graphemes range.begin)) none with
      | none => some (.ok none)
      | some found => some (makeRange answers found)

/-! ## Text -/

/-- The first unit of a surrogate pair. -/
def isHighHalf (unit : UInt16) : Bool := 0xD800 ≤ unit && unit ≤ 0xDBFF

/-- The length without half a surrogate pair at its end. -/
def withoutHalf (cache : AccessibilityTextIndex) (start end_ length : Nat) : Option Nat :=
  if length > 0 && u32 (start + length) < end_ then
    (cache.text[sub32 (u32 (start + length)) 1]?).map fun unit =>
      if isHighHalf unit then length - 1 else length
  else some length

/-- `GetText`. -/
def getText (cache : AccessibilityTextIndex) (maximumLength : Int32) (answers : QueryAnswers)
    (provider : TextRangeProvider) : Option (Except QueryError (List UInt16)) :=
  if !answers.available then some (.error .unavailable)
  else if maximumLength < -1 then some (.error .invalidArgument)
  else do
    let range := unpack provider.bounds
    let start ← wideOffset cache range.begin
    let end_ ← wideOffset cache range.end_
    let whole := sub32 end_ start
    let length := if maximumLength ≥ 0 then min whole maximumLength.toUInt32.toNat else whole
    let length ← withoutHalf cache start end_ length
    let units ← substr cache.text start length
    some (if answers.allocated then .ok units else .error .outOfMemory)

end TextIndex

end Desktop

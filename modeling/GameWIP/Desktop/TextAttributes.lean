import GameWIP.Desktop.TextSearch

/-!
# The attributes of a range

`GetAttributeValue` and `FindAttribute` of the text ranges (`win32_accessibility_text.cpp`), with the
projection of one attribute over a segment. `LocaleNameToLCID` is a function of the name up to its
first zero. What a call meets outside is in its answers; the two reserved markers of the platform are
different objects.
-/

namespace Desktop

namespace TextIndex

/-! ## Native values -/

/-- The reserved objects of the platform. -/
inductive Marker where
  | mixed
  | notSupported
  deriving DecidableEq, Repr

/-- A `VARIANT`. -/
inductive Variant (F : Type) where
  | bool (boolVal : Int16)
  | i4 (lVal : Int32)
  | r8 (dblVal : F)
  | bstr (bstrVal : List UInt16)
  | unknown (punkVal : Marker)
  /-- Arrays of providers and of annotation types. -/
  | nodes (ids : List NodeId)
  | types (types : List Int32)
  deriving DecidableEq, Repr

def variantTrue : Int16 := -1

def variantFalse : Int16 := 0

inductive TextAttributeId where
  | isReadOnly
  | isHidden
  | textFlowDirections
  | culture
  | isItalic
  | fontWeight
  | annotationTypes
  | annotationObjects
  | other
  deriving DecidableEq, Repr

def AnnotationType_SpellingError : Int32 := 60001

structure AttributeAnswers extends QueryAnswers where
  /-- The platform hands out its reserved markers. -/
  markers : Bool := true

variable {F : Type}

def reserved (answers : AttributeAnswers) (marker : Marker) : Except QueryError (Variant F) :=
  if answers.markers then .ok (.unknown marker) else .error .outOfMemory

/-! ## What a query reads -/

structure UiaQuery (F : Type) where
  node : Node F
  textContent : TextContent F
  text : AccessibilityTextIndex

/-- `State::Invisible` and `State::Editable`. -/
def invisibleShift : UInt64 := 4

def editableShift : UInt64 := 21

def hasState (states : StateSet) (shift : UInt64) : Bool := states.flags &&& (1 <<< shift) ≠ 0

def contentReadOnly (node : Node F) : Bool :=
  node.states.contains .readOnly ||
    (!hasState node.states editableShift && !node.actions.contains .setValue)

def TextAnnotationKind.emphasis : TextAnnotationKind := 1

def TextAnnotationKind.spelling : TextAnnotationKind := 2

def TextDirection.rightToLeft : TextDirection := 2

/-- `italic`. -/
def italicName : List UInt8 := [0x69, 0x74, 0x61, 0x6C, 0x69, 0x63]

/-- `bold`. -/
def boldName : List UInt8 := [0x62, 0x6F, 0x6C, 0x64]

def overlap (range other : TextRange) : Bool :=
  if range.begin = range.end_ then range.begin ≥ other.begin && range.begin < other.end_
  else range.begin < other.end_ && other.begin < range.end_

/-- `c_str`. -/
def cString (text : List UInt16) : List UInt16 := text.takeWhile (· ≠ 0)

/-! ## One segment -/

def relevant (id : TextAttributeId) (item : TextAnnotation) : Bool :=
  (id = .culture && item.kind = .language) ||
    (id = .isItalic && item.kind = TextAnnotationKind.emphasis && item.value = italicName) ||
    (id = .fontWeight && item.kind = TextAnnotationKind.emphasis && item.value = boldName) ||
    (id = .annotationTypes && item.kind = TextAnnotationKind.spelling) ||
    (id = .annotationObjects && item.target ≠ 0)

/-- An annotation with its index. -/
abbrev AnnotationAt := TextAnnotation × Nat

/-- The `LCID` of the converted value of an annotation. -/
def annotationLcid (q : UiaQuery F) (lcid : List UInt16 → UInt32) (index : Nat) : UInt32 :=
  lcid (cString (q.text.annotationValues.getD index []))

/-- Whether two annotations say the same for an attribute. -/
def sameAttribute (q : UiaQuery F) (lcid : List UInt16 → UInt32) (id : TextAttributeId)
    (a b : AnnotationAt) : Bool :=
  if id = .culture then annotationLcid q lcid a.2 = annotationLcid q lcid b.2
  else a.1.kind = b.1.kind && a.1.value = b.1.value &&
    (id ≠ .annotationObjects || a.1.target = b.1.target)

/-- The loop over the annotations; `none` when they do not agree over the segment. -/
def selectLoop (q : UiaQuery F) (lcid : List UInt16 → UInt32) (id : TextAttributeId)
    (bounds : TextRange) :
    List AnnotationAt → Option AnnotationAt →
      Option (Option AnnotationAt)
  | [], selected => some selected
  | item :: rest, selected =>
    if !relevant id item.1 || !overlap bounds item.1.range then selectLoop q lcid id bounds rest selected
    else if bounds.begin < item.1.range.begin || bounds.end_ > item.1.range.end_ then none
    else if selected.any fun old => !sameAttribute q lcid id old item then none
    else selectLoop q lcid id bounds rest (some item)

/-- The language of the annotation selected, of the text or of the node. -/
def effectiveLanguage (q : UiaQuery F) (selected : Option AnnotationAt) : List UInt16 :=
  match selected with
  | some item => q.text.annotationValues.getD item.2 []
  | none => if !q.text.textLanguage.isEmpty then q.text.textLanguage else q.text.language

/-- The value of an attribute for the annotation selected. -/
def selectedValue (q : UiaQuery F) (lcid : List UInt16 → UInt32) (id : TextAttributeId)
    (answers : AttributeAnswers) (selected : Option AnnotationAt) :
    Except QueryError (Variant F) :=
  match id with
  | .culture =>
    let language := effectiveLanguage q selected
    if language.isEmpty then reserved answers .notSupported
    else .ok (.i4 (lcid (cString language)).toInt32)
  | .isItalic =>
    .ok (.bool (if selected.any (·.1.value = italicName) then variantTrue else variantFalse))
  | .fontWeight => .ok (.i4 (if selected.any (·.1.value = boldName) then 700 else 400))
  | .annotationObjects =>
    if answers.allocated then .ok (.nodes (selected.toList.map (·.1.target))) else .error .outOfMemory
  | _ =>
    if answers.allocated then .ok (.types (selected.toList.map fun _ => AnnotationType_SpellingError))
    else .error .outOfMemory

/-- Projects one attribute over a span with no internal annotation boundary. -/
def attributeSegment (q : UiaQuery F) (lcid : List UInt16 → UInt32) (bounds : TextRange)
    (id : TextAttributeId) (answers : AttributeAnswers) : Except QueryError (Variant F) :=
  match id with
  | .isReadOnly => .ok (.bool (if contentReadOnly q.node then variantTrue else variantFalse))
  | .isHidden => .ok (.bool (if hasState q.node.states invisibleShift then variantTrue else variantFalse))
  | .textFlowDirections =>
    if q.textContent.direction = .mixed then reserved answers .mixed
    else if q.textContent.direction = 0 then reserved answers .notSupported
    else .ok (.i4 (if q.textContent.direction = TextDirection.rightToLeft then 1 else 0))
  | .other => reserved answers .notSupported
  | id =>
    match selectLoop q lcid id bounds q.textContent.annotations.zipIdx none with
    | none => reserved answers .mixed
    | some selected => selectedValue q lcid id answers selected

/-! ## A range -/

def attributeEquals [FloatOps F] (a b : Variant F) : Bool :=
  match a, b with
  | .bool x, .bool y => x = y
  | .i4 x, .i4 y => x = y
  | .r8 x, .r8 y => FloatOps.eq x y
  | .bstr x, .bstr y => x = y
  | .unknown x, .unknown y => x = y
  | _, _ => false

/-- The loop over the pieces between format edges. -/
def attributeLoop [FloatOps F] (q : UiaQuery F) (lcid : List UInt16 → UInt32) (bounds : TextRange)
    (id : TextAttributeId) (answers : AttributeAnswers) :
    List Nat → Option (Variant F) → Except QueryError (Option (Variant F))
  | position :: next :: rest, found =>
    if position < bounds.end_ then
      let segment : TextRange := { begin := max position bounds.begin, end_ := min next bounds.end_ }
      if segment.begin ≥ segment.end_ then attributeLoop q lcid bounds id answers (next :: rest) found
      else do
        let candidate ← attributeSegment q lcid segment id answers
        match found with
        | none => attributeLoop q lcid bounds id answers (next :: rest) (some candidate)
        | some value =>
          if attributeEquals value candidate then
            attributeLoop q lcid bounds id answers (next :: rest) found
          else (reserved answers .mixed).map some
    else .ok found
  | _, found => .ok found

/-- Compares effective scalar attributes across cached annotation boundaries. -/
def attributeValue [FloatOps F] (q : UiaQuery F) (lcid : List UInt16 → UInt32) (bounds : TextRange)
    (id : TextAttributeId) (answers : AttributeAnswers) : Except QueryError (Variant F) :=
  if (id ≠ .culture && id ≠ .isItalic && id ≠ .fontWeight) || bounds.begin = bounds.end_ then
    attributeSegment q lcid bounds id answers
  else do
    let position := Lib.lowerBound (fun entry => decide (entry ≤ bounds.begin)) q.text.formats
    match ← attributeLoop q lcid bounds id answers (q.text.formats.drop (position - 1)) none with
    | some value => .ok value
    | none => attributeSegment q lcid bounds id answers

/-- `GetAttributeValue`. -/
def getAttributeValue [FloatOps F] (q : UiaQuery F) (lcid : List UInt16 → UInt32)
    (id : TextAttributeId) (answers : AttributeAnswers) (provider : TextRangeProvider) :
    Except QueryError (Variant F) :=
  if !answers.available then .error .unavailable
  else attributeValue q lcid (unpack provider.bounds) id answers

/-- The values that can be searched for. -/
def searchable : Variant F → Bool
  | .bool _ | .i4 _ | .r8 _ | .bstr _ => true
  | _ => false

def findAttributeLoop [FloatOps F] (q : UiaQuery F) (lcid : List UInt16 → UInt32)
    (range : TextRange) (id : TextAttributeId) (value : Variant F) (backward : Bool)
    (answers : AttributeAnswers) :
    List Nat → Option TextRange → Except QueryError (Option TextRange)
  | position :: next :: rest, found =>
    let segment : TextRange := { begin := max position range.begin, end_ := min next range.end_ }
    if segment.begin ≥ segment.end_ then
      findAttributeLoop q lcid range id value backward answers (next :: rest) found
    else do
      let candidate ← attributeValue q lcid segment id answers
      if attributeEquals candidate value then
        if backward then
          findAttributeLoop q lcid range id value backward answers (next :: rest) (some segment)
        else .ok (some segment)
      else findAttributeLoop q lcid range id value backward answers (next :: rest) found
  | _, found => .ok found

/-- `FindAttribute`; no range when the value is not found. -/
def findAttribute [FloatOps F] (q : UiaQuery F) (lcid : List UInt16 → UInt32)
    (id : TextAttributeId) (value : Variant F) (backward : Bool) (answers : AttributeAnswers)
    (provider : TextRangeProvider) : Except QueryError (Option TextRange) :=
  if !answers.available then .error .unavailable
  else if !searchable value then .error .unsupported
  else do
    match ← findAttributeLoop q lcid (unpack provider.bounds) id value backward answers
      q.text.formats none with
    | none => .ok none
    | some found => makeRange answers.toQueryAnswers found

end TextIndex

end Desktop

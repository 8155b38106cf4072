import GameWIP.Input.Control
import GameWIP.Io.Status

/-!
# The data of the accessibility bridge

The snapshots, limits, actions and notifications of `desktop/accessibility.h`. An enumeration whose
unknown values the code rejects is its underlying integer, with names for the enumerators the code
tests. Offsets, counts and limits are natural numbers: the code compares them only.

`F` stands for `double`.
-/

/-- What the engine asks of a `double` besides its arithmetic. -/
class DoubleOps (F : Type*) extends FloatOps F where
  isfinite : F → Bool
  max : F

/-- Whole numbers, to run the model on. -/
instance : DoubleOps Int where
  isfinite _ := true
  max := 2 ^ 1023

namespace Desktop

/-! ## Identity, roles, state and capabilities -/

abbrev NodeId := UInt64

abbrev Generation := UInt64

abbrev RequestId := UInt64

abbrev Role := UInt16

namespace Role

def table : Role := 29
def cell : Role := 31
def columnHeader : Role := 32
def rowHeader : Role := 33
def count : Role := 55

end Role

inductive State where
  | disabled
  | focusable
  | focused
  | readOnly
  | selected
  | selectable
  | checked
  | mixed
  deriving DecidableEq, Repr

/-- The position of the flag. -/
def State.shift : State → UInt64
  | .disabled => 0
  | .focusable => 1
  | .focused => 2
  | .readOnly => 5
  | .selected => 7
  | .selectable => 8
  | .checked => 11
  | .mixed => 12

structure StateSet where
  flags : UInt64 := 0
  deriving DecidableEq, Repr

def StateSet.contains (states : StateSet) (state : State) : Bool := states.flags &&& (1 <<< state.shift) ≠ 0

abbrev ActionKind := UInt8

namespace ActionKind

def focus : ActionKind := 0
def invoke : ActionKind := 1
def setValue : ActionKind := 2
def scrollTo : ActionKind := 10
def setTextSelection : ActionKind := 12
def realize : ActionKind := 13
def count : ActionKind := 14

end ActionKind

structure ActionSet where
  flags : UInt64 := 0
  deriving DecidableEq, Repr

/-- An invalid enumerator is contained in no set. -/
def ActionSet.contains (actions : ActionSet) (action : ActionKind) : Bool :=
  action < .count && actions.flags &&& (1 <<< action.toUInt64) ≠ 0

abbrev Exposure := UInt8

def Exposure.redactContent : Exposure := 3

/-! ## Geometry -/

structure Point (F : Type) where
  x : F
  y : F
  deriving DecidableEq, Repr

structure Rect (F : Type) where
  x : F
  y : F
  width : F
  height : F
  deriving DecidableEq, Repr

structure AffineTransform (F : Type) where
  m11 : F
  m12 : F
  m21 : F
  m22 : F
  tx : F
  ty : F
  deriving DecidableEq, Repr

structure Geometry (F : Type) where
  localBounds : Rect F
  toWindow : AffineTransform F
  clippingBounds : Option (Rect F) := none
  visible : Bool := true
  hitTestable : Bool := true
  hitTestOrder : Nat := 0
  deriving DecidableEq, Repr

/-! ## Text content and layout -/

structure TextRange where
  begin : Nat := 0
  end_ : Nat := 0
  deriving DecidableEq, Repr

abbrev TextDirection := UInt8

def TextDirection.mixed : TextDirection := 3

abbrev TextAnnotationKind := UInt8

namespace TextAnnotationKind

def language : TextAnnotationKind := 0
def custom : TextAnnotationKind := 4

end TextAnnotationKind

structure TextAnnotation where
  range : TextRange := {}
  kind : TextAnnotationKind := .custom
  value : List UInt8 := []
  target : NodeId := 0
  deriving DecidableEq, Repr

structure TextFragment (F : Type) where
  range : TextRange
  bounds : Rect F
  deriving DecidableEq, Repr

structure TextContent (F : Type) where
  utf8 : List UInt8 := []
  direction : TextDirection := 0
  language : List UInt8 := []
  annotations : List TextAnnotation := []
  fragments : List (TextFragment F) := []
  selection : List TextRange := []
  caret : Option Nat := none
  deriving DecidableEq, Repr

/-! ## Values, selection and collections -/

structure RangeValue (F : Type) where
  value : F
  minimum : F
  maximum : F
  smallChange : F
  largeChange : F
  deriving DecidableEq, Repr

structure ScrollInfo (F : Type) where
  horizontalScrollable : Bool
  verticalScrollable : Bool
  horizontalPercent : F
  verticalPercent : F
  horizontalViewSize : F
  verticalViewSize : F
  deriving DecidableEq, Repr

structure SelectionInfo where
  selectedNodes : List NodeId := []
  activeNode : NodeId := 0
  multiSelectable : Bool := false
  selectionRequired : Bool := false
  deriving DecidableEq, Repr

structure CollectionInfo where
  rowCount : Nat := 0
  columnCount : Nat := 0
  rowIndex : Nat := 0
  columnIndex : Nat := 0
  rowSpan : Nat := 1
  columnSpan : Nat := 1
  positionInSet : Nat := 0
  setSize : Nat := 0
  level : Nat := 0
  deriving DecidableEq, Repr

structure VirtualizationInfo where
  virtualized : Bool := false
  realized : Bool := true
  canRealize : Bool := false
  realizedChildCount : Nat := 0
  totalChildCount : Nat := 0
  deriving DecidableEq, Repr

/-! ## Relations and extensions -/

abbrev RelationKind := UInt8

def RelationKind.columnHeaders : RelationKind := 10

structure Relation where
  kind : RelationKind := 0
  targets : List NodeId := []
  deriving DecidableEq, Repr

/-- The active payload of an extension value; `unknown` is a kind that is no enumerator. -/
inductive ExtensionValue (F : Type) where
  | boolean (value : Bool)
  | signedInteger (value : Int)
  | unsignedInteger (value : Nat)
  | real (value : F)
  | utf8 (value : List UInt8)
  | nodeReference (value : NodeId)
  | list (values : List (ExtensionValue F))
  | unknown (kind : UInt8)

structure Extension (F : Type) where
  namespaceName : List UInt8
  name : List UInt8
  value : ExtensionValue F

/-! ## Semantic nodes and snapshots -/

structure Node (F : Type) where
  id : NodeId := 0
  parent : NodeId := 0
  role : Role := 0
  states : StateSet := {}
  actions : ActionSet := {}
  name : List UInt8 := []
  description : List UInt8 := []
  helpText : List UInt8 := []
  value : List UInt8 := []
  language : List UInt8 := []
  accessKey : List UInt8 := []
  keyboardShortcut : List UInt8 := []
  exposure : Exposure := 0
  children : List NodeId := []
  relations : List Relation := []
  extensions : List (Extension F) := []
  geometry : Option (Geometry F) := none
  rangeValue : Option (RangeValue F) := none
  scroll : Option (ScrollInfo F) := none
  selection : Option SelectionInfo := none
  collection : Option CollectionInfo := none
  virtualization : Option VirtualizationInfo := none
  text : Option (TextContent F) := none

structure SnapshotView (F : Type) where
  generation : Generation := 0
  root : NodeId := 0
  nodes : List (Node F) := []

/-! ## Limits and validation results -/

structure Limits where
  maximumNodes : Nat := 65536
  maximumChildrenPerNode : Nat := 4096
  maximumRelationsPerNode : Nat := 256
  maximumExtensionsPerNode : Nat := 128
  maximumExtensionListItems : Nat := 256
  maximumTextBytesPerNode : Nat := 1048576
  maximumTotalTextBytes : Nat := 16777216
  maximumTextAnnotationsPerNode : Nat := 4096
  maximumTextFragmentsPerNode : Nat := 4096
  maximumActionQueue : Nat := 256
  maximumNotificationQueue : Nat := 512
  maximumActionTextBytes : Nat := 1048576
  maximumSelectionRangesPerAction : Nat := 256
  maximumAnnouncementBytes : Nat := 4096
  maximumExtensionDepth : Nat := 8
  maximumExtensionValuesPerNode : Nat := 4096
  maximumRelationTargetsPerNode : Nat := 4096
  maximumTextSelectionsPerNode : Nat := 256
  maximumNativeProviders : Nat := 262144
  maximumNativeTextRanges : Nat := 1024
  deriving DecidableEq, Repr

inductive ValidationIssue where
  | none
  | invalidLimits
  | zeroGeneration
  | emptyTree
  | invalidRoot
  | invalidNodeId
  | duplicateNodeId
  | missingNode
  | parentMismatch
  | duplicateChild
  | cycle
  | unreachableNode
  | invalidRole
  | invalidAction
  | invalidRelation
  | invalidText
  | invalidTextRange
  | invalidGeometry
  | invalidValue
  | invalidExtension
  | invalidState
  | invalidSelection
  | invalidCollection
  | invalidVirtualization
  | limitExceeded
  deriving DecidableEq, Repr

structure ValidationResult where
  status : Io.Status := {}
  issue : ValidationIssue := .none
  node : NodeId := 0
  index : Nat := 0
  deriving DecidableEq, Repr

def ValidationResult.ok (result : ValidationResult) : Bool := result.status.ok

end Desktop

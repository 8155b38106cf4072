import GameWIP.Desktop.Accessibility
import GameWIP.Lib.RootedTree
import GameWIP.Unicode.Grapheme

/-!
# Validation of a snapshot

`Accessibility::validate` (`desktop/core/accessibility_validation.cpp`): the checks of each node in
storage order, then the breadth-first pass from the root, then the containment of selections and
cells by preorder intervals. A check returns early with the first issue. Allocation succeeds; the
loops run on fuel.
-/

namespace Desktop

open Unicode (Utf8.validate Utf8.GraphemeCursor)

/-- A computation that may return the result of the validation early. -/
abbrev Check := Except ValidationResult

def fail (issue : ValidationIssue) (node : NodeId) (index : Nat) : ValidationResult :=
  { status := Io.makeStatus
      (if issue = .limitExceeded then .sizeLimitExceeded else .invalidArgument)
    issue, node, index }

/-- Returns the result when the condition holds. -/
def failIf (condition : Bool) (result : ValidationResult) : Check Unit :=
  if condition then .error result else .ok ()

/-! ## Primitive validation and resource budgets -/

def validUtf8 (value : List UInt8) : Bool := (Utf8.validate value).outcome = .valid

/-- Sorted values, as `std::ranges::sort` leaves them. -/
def sorted (ids : List NodeId) : List NodeId := ids.insertionSort (· ≤ ·)

/-- `std::adjacent_find` finds a pair. -/
def adjacentFind : List NodeId → Bool
  | a :: b :: rest => a = b || adjacentFind (b :: rest)
  | _ => false

/-- `std::ranges::binary_search`. -/
def binarySearch {K : Type} [LT K] [DecidableLT K] [DecidableEq K] (l : List K) (k : K) : Bool :=
  Lib.isMatching id l (Lib.search (fun a b => decide (a < b)) id l k) k

structure Budget where
  bytes : Nat := 0
  nodeBytes : Nat := 0
  extensionValues : Nat := 0

namespace Budget

def string (limits : Limits) (value : List UInt8) (budget : Budget) :
    Except ValidationIssue Budget :=
  if value.length > limits.maximumTextBytesPerNode || value.length > limits.maximumTotalTextBytes ||
      budget.nodeBytes + value.length > limits.maximumTextBytesPerNode ||
      budget.bytes + value.length > limits.maximumTotalTextBytes then .error .limitExceeded
  else if !validUtf8 value then .error .invalidText
  else
    .ok { budget with
      nodeBytes := budget.nodeBytes + value.length
      bytes := budget.bytes + value.length }

variable {F : Type} [DoubleOps F]

/-- The count of the values and the depth, checked at each value. -/
def enter (limits : Limits) (depth : Nat) (budget : Budget) : Except ValidationIssue Budget :=
  let budget := { budget with extensionValues := budget.extensionValues + 1 }
  if budget.extensionValues > limits.maximumExtensionValuesPerNode ||
      depth > limits.maximumExtensionDepth then .error .limitExceeded
  else .ok budget

mutual

def extension (limits : Limits) : ExtensionValue F → Nat → Budget → Except ValidationIssue Budget
  | .boolean _, depth, budget | .signedInteger _, depth, budget
  | .unsignedInteger _, depth, budget => budget.enter limits depth
  | .real value, depth, budget => do
    let budget ← budget.enter limits depth
    if DoubleOps.isfinite value then .ok budget else .error .invalidExtension
  | .utf8 value, depth, budget => do
    let budget ← budget.enter limits depth
    budget.string limits value
  | .nodeReference value, depth, budget => do
    let budget ← budget.enter limits depth
    if value ≠ 0 then .ok budget else .error .invalidExtension
  | .list values, depth, budget => do
    let budget ← budget.enter limits depth
    if values.length > limits.maximumExtensionListItems then .error .limitExceeded
    else extensionList limits values (depth + 1) budget
  | .unknown _, depth, budget => do
    let _ ← budget.enter limits depth
    .error .invalidExtension

def extensionList (limits : Limits) :
    List (ExtensionValue F) → Nat → Budget → Except ValidationIssue Budget
  | [], _, budget => .ok budget
  | item :: rest, depth, budget => do
    let budget ← extension limits item depth budget
    extensionList limits rest depth budget

end

end Budget

def validLimits (limits : Limits) : Bool :=
  ([limits.maximumNodes, limits.maximumChildrenPerNode, limits.maximumRelationsPerNode,
    limits.maximumExtensionsPerNode, limits.maximumExtensionListItems,
    limits.maximumTextBytesPerNode, limits.maximumTotalTextBytes,
    limits.maximumTextAnnotationsPerNode, limits.maximumTextFragmentsPerNode,
    limits.maximumActionQueue, limits.maximumNotificationQueue, limits.maximumActionTextBytes,
    limits.maximumSelectionRangesPerAction, limits.maximumAnnouncementBytes,
    limits.maximumExtensionDepth, limits.maximumExtensionValuesPerNode,
    limits.maximumRelationTargetsPerNode, limits.maximumTextSelectionsPerNode,
    limits.maximumNativeProviders, limits.maximumNativeTextRanges].all fun value =>
      value ≠ 0 && value ≤ 2 ^ 31 - 1) &&
    limits.maximumExtensionDepth ≤ 32 && limits.maximumNativeProviders ≥ limits.maximumNodes

section

variable {F : Type} [DoubleOps F]

open FloatOps (zero ofInt neg add sub mul lt eq)
open DoubleOps (isfinite)

def validRect (rect : Rect F) : Bool :=
  isfinite rect.x && isfinite rect.y && isfinite rect.width && isfinite rect.height &&
    !lt rect.width zero && !lt rect.height zero && isfinite (add rect.x rect.width) &&
    isfinite (add rect.y rect.height)

/-! ## The index -/

/-- The order of `std::pair`. -/
abbrev pairLe (a b : NodeId × Nat) : Prop := a.1 < b.1 ∨ a.1 = b.1 ∧ a.2 ≤ b.2

variable (snapshot : SnapshotView F)

namespace SnapshotView

/-- The identities with their positions, sorted. -/
def index : List (NodeId × Nat) :=
  (snapshot.nodes.zipIdx.map fun entry => (entry.1.id, entry.2)).insertionSort pairLe

/-- The position of a node by `std::lower_bound`, or the number of nodes. -/
def find (id : NodeId) : Nat :=
  match snapshot.index[Lib.search (fun a b => decide (a < b)) Prod.fst snapshot.index id]? with
  | some entry => if entry.1 = id then entry.2 else snapshot.nodes.length
  | none => snapshot.nodes.length

def node (i : Nat) : Node F := snapshot.nodes.getD i {}

def isKnown (id : NodeId) : Bool := snapshot.find id ≠ snapshot.nodes.length

/-- The positions of the children of a node, in order. -/
def kids (i : Nat) : List Nat := (snapshot.node i).children.map snapshot.find

/-- The position of the parent. -/
def parent (i : Nat) : Option Nat :=
  if (snapshot.node i).parent = 0 then none else some (snapshot.find (snapshot.node i).parent)

end SnapshotView

/-- The first pair of neighbours with one identity. -/
def checkDistinct : List (NodeId × Nat) → Check Unit
  | a :: b :: rest =>
    if a.1 = b.1 then .error (fail .duplicateNodeId b.1 b.2) else checkDistinct (b :: rest)
  | _ => .ok ()

def checkIds : Check Unit :=
  snapshot.nodes.zipIdx.forM fun entry =>
    failIf (entry.1.id = 0) (fail .invalidNodeId 0 entry.2)

end

/-! ## The checks of a node -/

section

variable {F : Type} [DoubleOps F] (snapshot : SnapshotView F) (limits : Limits)

open FloatOps (zero ofInt neg add sub mul lt eq)
open DoubleOps (isfinite)

/-- What the loop over the nodes carries on: the bytes of all nodes, the incoming counts and the
number of focused nodes. -/
structure Scan where
  bytes : Nat := 0
  incoming : Nat → Nat := fun _ => 0
  focused : Nat := 0

def withNode {α : Type} (node : NodeId) (index : Nat) (x : Except ValidationIssue α) : Check α :=
  x.mapError fun issue => fail issue node index

def strings (node : NodeId) (index : Nat) (values : List (List UInt8)) (budget : Budget) :
    Check Budget :=
  values.foldlM (fun budget value => withNode node index (budget.string limits value)) budget

/-- Role, states, actions and exposure; the number of focused nodes. -/
def checkFlags (node : Node F) (i focused : Nat) : Check Nat := do
  failIf (node.role ≥ .count) (fail .invalidRole node.id i)
  failIf (node.states.flags >>> 23 ≠ 0 ||
    node.states.contains .focused && !node.states.contains .focusable ||
    node.states.contains .mixed && node.states.contains .checked) (fail .invalidState node.id i)
  let focused := if node.states.contains .focused then focused + 1 else focused
  failIf (node.states.contains .focused && focused > 1) (fail .invalidState node.id i)
  failIf (node.actions.flags >>> ActionKind.count.toUInt64 ≠ 0) (fail .invalidAction node.id i)
  failIf (node.exposure > .redactContent) (fail .invalidValue node.id i)
  .ok focused

def checkStrings (node : Node F) (i : Nat) (budget : Budget) : Check Budget := do
  let budget ← strings limits node.id i
    [node.name, node.description, node.helpText, node.value, node.language, node.accessKey,
      node.keyboardShortcut] budget
  failIf (node.language.contains 0) (fail .invalidText node.id i)
  .ok budget

/-- One listed child: it exists, its parent is the node, and it has not been listed before. -/
def checkChild (node : Node F) (i : Nat) (incoming : Nat → Nat) (child : NodeId) :
    Check (Nat → Nat) := do
  let childIndex := snapshot.find child
  failIf (childIndex = snapshot.nodes.length) (fail .missingNode node.id i)
  failIf ((snapshot.node childIndex).parent ≠ node.id) (fail .parentMismatch child i)
  let incoming := Function.update incoming childIndex (incoming childIndex + 1)
  failIf (incoming childIndex > 1) (fail .parentMismatch child i)
  .ok incoming

def checkChildren (node : Node F) (i : Nat) (incoming : Nat → Nat) : Check (Nat → Nat) := do
  failIf (node.children.length > limits.maximumChildrenPerNode ||
    node.relations.length > limits.maximumRelationsPerNode ||
    node.extensions.length > limits.maximumExtensionsPerNode) (fail .limitExceeded node.id i)
  failIf (adjacentFind (sorted node.children)) (fail .duplicateChild node.id i)
  node.children.foldlM (checkChild snapshot node i) incoming

def checkParent (root : Nat) (node : Node F) (i : Nat) : Check Unit :=
  failIf (i ≠ root && (node.parent = 0 || !snapshot.isKnown node.parent))
    (fail .parentMismatch node.id i)

/-- The targets counted so far and the kinds seen. -/
def checkRelation (node : Node F) (i : Nat) (seen : Nat × List RelationKind)
    (relation : Relation) : Check (Nat × List RelationKind) := do
  failIf (relation.kind > .columnHeaders || relation.targets.isEmpty)
    (fail .invalidRelation node.id i)
  failIf (seen.2.contains relation.kind) (fail .invalidRelation node.id i)
  let relationTargets := seen.1 + relation.targets.length
  failIf (relationTargets > limits.maximumRelationTargetsPerNode) (fail .limitExceeded node.id i)
  failIf (adjacentFind (sorted relation.targets)) (fail .invalidRelation node.id i)
  relation.targets.forM fun target =>
    failIf (!snapshot.isKnown target) (fail .missingNode node.id i)
  .ok (relationTargets, relation.kind :: seen.2)

mutual

/-- Every node reference in the value is known. -/
def checkReferences : ExtensionValue F → Bool
  | .nodeReference value => snapshot.isKnown value
  | .list values => checkReferencesList values
  | _ => true

def checkReferencesList : List (ExtensionValue F) → Bool
  | [] => true
  | item :: rest => checkReferences item && checkReferencesList rest

end

def checkExtension (node : Node F) (budget : Budget) (entry : Extension F × Nat) :
    Check Budget := do
  let (extension, e) := entry
  failIf (extension.namespaceName.isEmpty || extension.name.isEmpty)
    (fail .invalidExtension node.id e)
  failIf ((node.extensions.take e).any fun previous =>
    previous.namespaceName = extension.namespaceName && previous.name = extension.name)
    (fail .invalidExtension node.id e)
  let budget ← strings limits node.id e [extension.namespaceName, extension.name] budget
  let budget ← withNode node.id e (Budget.extension limits extension.value 0 budget)
  failIf (!checkReferences snapshot extension.value) (fail .missingNode node.id e)
  .ok budget

/-- The corners of the bounds in the window. -/
def projectedCorners (g : Geometry F) : List (F × F) :=
  let t := g.toWindow
  [g.localBounds.x, add g.localBounds.x g.localBounds.width].flatMap fun x =>
    [g.localBounds.y, add g.localBounds.y g.localBounds.height].map fun y =>
      (add (add (mul t.m11 x) (mul t.m21 y)) t.tx, add (add (mul t.m12 x) (mul t.m22 y)) t.ty)

/-- `std::min`, `std::max`. -/
def minimum (a b : F) : F := if lt b a then b else a

def maximum (a b : F) : F := if lt a b then b else a

def checkGeometry (node : Node F) (i : Nat) : Check Unit :=
  match node.geometry with
  | none => .ok ()
  | some g => do
    let t := g.toWindow
    failIf (!validRect g.localBounds || g.clippingBounds.any (!validRect ·) ||
      !isfinite t.m11 || !isfinite t.m12 || !isfinite t.m21 || !isfinite t.m22 ||
      !isfinite t.tx || !isfinite t.ty) (fail .invalidGeometry node.id i)
    let determinant := sub (mul t.m11 t.m22) (mul t.m12 t.m21)
    failIf (!isfinite determinant || g.hitTestable && eq determinant zero)
      (fail .invalidGeometry node.id i)
    let corners := projectedCorners g
    failIf (corners.any fun corner => !isfinite corner.1 || !isfinite corner.2)
      (fail .invalidGeometry node.id i)
    let first : F := DoubleOps.max
    let left := corners.foldl (fun left corner => minimum left corner.1) first
    let right := corners.foldl (fun right corner => maximum right corner.1) (neg first)
    let top := corners.foldl (fun top corner => minimum top corner.2) first
    let bottom := corners.foldl (fun bottom corner => maximum bottom corner.2) (neg first)
    failIf (!isfinite (sub right left) || !isfinite (sub bottom top))
      (fail .invalidGeometry node.id i)

def checkRangeValue (node : Node F) (i : Nat) : Check Unit :=
  failIf (node.rangeValue.any fun r =>
    !isfinite r.value || !isfinite r.minimum || !isfinite r.maximum || !isfinite r.smallChange ||
      !isfinite r.largeChange || lt r.value r.minimum || lt r.maximum r.value ||
      lt r.smallChange zero || lt r.largeChange zero) (fail .invalidValue node.id i)

def checkScroll (node : Node F) (i : Nat) : Check Unit :=
  failIf (node.scroll.any fun s =>
    [s.horizontalPercent, s.verticalPercent, s.horizontalViewSize, s.verticalViewSize].any
      fun value => !isfinite value || lt value zero || lt (ofInt 100) value)
    (fail .invalidValue node.id i)

def checkSelection (node : Node F) (i : Nat) : Check Unit :=
  match node.selection with
  | none => .ok ()
  | some s => do
    failIf (!s.multiSelectable && s.selectedNodes.length > 1 ||
      s.selectionRequired && s.selectedNodes.isEmpty) (fail .invalidSelection node.id i)
    failIf (s.selectedNodes.length > limits.maximumNodes) (fail .limitExceeded node.id i)
    let selected := sorted s.selectedNodes
    failIf (adjacentFind selected) (fail .invalidSelection node.id i)
    failIf (s.activeNode ≠ 0 && !binarySearch selected s.activeNode)
      (fail .invalidSelection node.id i)
    selected.forM fun id =>
      failIf (!snapshot.isKnown id ||
        !(snapshot.node (snapshot.find id)).states.contains .selected ||
        !(snapshot.node (snapshot.find id)).states.contains .selectable)
        (fail .invalidSelection node.id i)

def checkCollection (node : Node F) (i : Nat) : Check Unit :=
  match node.collection with
  | none => .ok ()
  | some c => do
    failIf ([c.rowCount, c.columnCount, c.rowIndex, c.columnIndex, c.rowSpan, c.columnSpan,
      c.positionInSet, c.setSize, c.level].any fun value => value > 2 ^ 31 - 1)
      (fail .invalidCollection node.id i)
    failIf (c.rowSpan = 0 || c.columnSpan = 0 ||
      c.rowCount ≠ 0 && (c.rowIndex ≥ c.rowCount || c.rowSpan > c.rowCount - c.rowIndex) ||
      c.columnCount ≠ 0 &&
        (c.columnIndex ≥ c.columnCount || c.columnSpan > c.columnCount - c.columnIndex) ||
      c.setSize ≠ 0 && c.positionInSet > c.setSize || c.rowCount > 2 ^ 31 - 1 ||
      c.columnCount > 2 ^ 31 - 1) (fail .invalidCollection node.id i)

def checkVirtualization (node : Node F) (i : Nat) : Check Unit :=
  failIf (node.virtualization.any fun v =>
    v.realizedChildCount > v.totalChildCount || v.realizedChildCount > node.children.length ||
      !v.realized && !v.virtualized || v.canRealize && !node.actions.contains .realize)
    (fail .invalidVirtualization node.id i)

/-- The boundaries a cursor indexes in storage that holds them all. -/
def graphemeBoundaries (text : List UInt8) : List Nat :=
  let (cursor, segmented) := Utf8.GraphemeCursor.reset {} text (text.length + 1)
  cursor.boundaries_.take segmented.requiredBoundaryCount

def validRange (text : List UInt8) (boundaries : List Nat) (range : TextRange) : Bool :=
  range.begin ≤ range.end_ && range.end_ ≤ text.length && binarySearch boundaries range.begin &&
    binarySearch boundaries range.end_

def checkAnnotation (node : Node F) (i : Nat) (text : TextContent F) (boundaries : List Nat)
    (budget : Budget) (item : TextAnnotation) : Check Budget := do
  failIf (!validRange text.utf8 boundaries item.range) (fail .invalidTextRange node.id i)
  failIf (item.kind > .custom) (fail .invalidText node.id i)
  failIf (item.kind = .language && item.value.contains 0) (fail .invalidText node.id i)
  failIf (item.target ≠ 0 && !snapshot.isKnown item.target)
    (fail .missingNode node.id i)
  withNode node.id i (budget.string limits item.value)

def checkText (node : Node F) (i : Nat) (budget : Budget) : Check Budget :=
  match node.text with
  | none => .ok budget
  | some text => do
    let budget ← strings limits node.id i [text.utf8, text.language] budget
    failIf (text.language.contains 0) (fail .invalidText node.id i)
    failIf (text.direction > .mixed) (fail .invalidText node.id i)
    failIf (text.annotations.length > limits.maximumTextAnnotationsPerNode ||
      text.fragments.length > limits.maximumTextFragmentsPerNode ||
      text.selection.length > limits.maximumTextSelectionsPerNode) (fail .limitExceeded node.id i)
    failIf (text.selection.length > 1 && !node.selection.any (·.multiSelectable))
      (fail .invalidSelection node.id i)
    let boundaries := graphemeBoundaries text.utf8
    let budget ← text.annotations.foldlM
      (fun budget item => checkAnnotation snapshot limits node i text boundaries budget item) budget
    failIf (text.fragments.any fun fragment =>
      !validRange text.utf8 boundaries fragment.range || !validRect fragment.bounds)
      (fail .invalidTextRange node.id i)
    failIf (text.selection.any (!validRange text.utf8 boundaries ·))
      (fail .invalidTextRange node.id i)
    failIf (text.caret.any fun caret =>
      !validRange text.utf8 boundaries { begin := caret, end_ := caret })
      (fail .invalidTextRange node.id i)
    .ok budget

/-- The loop body. -/
def checkNode (root : Nat) (scan : Scan) (entry : Node F × Nat) : Check Scan := do
  let (node, i) := entry
  let focused ← checkFlags node i scan.focused
  let budget ← checkStrings limits node i { bytes := scan.bytes }
  let incoming ← checkChildren snapshot limits node i scan.incoming
  checkParent snapshot root node i
  let _ ← node.relations.foldlM (checkRelation snapshot limits node i) (0, [])
  let budget ← node.extensions.zipIdx.foldlM (checkExtension snapshot limits node) budget
  checkGeometry node i
  checkRangeValue node i
  checkScroll node i
  checkSelection snapshot limits node i
  checkCollection node i
  checkVirtualization node i
  let budget ← checkText snapshot limits node i budget
  .ok { bytes := budget.bytes, incoming, focused }

/-- Everything up to the incoming counts; the position of the root. -/
def checkNodes : Check Nat := do
  failIf (!validLimits limits) (fail .invalidLimits 0 0)
  failIf (snapshot.generation = 0) (fail .zeroGeneration 0 0)
  failIf snapshot.nodes.isEmpty (fail .emptyTree 0 0)
  failIf (snapshot.nodes.length > limits.maximumNodes) (fail .limitExceeded 0 0)
  checkIds snapshot
  checkDistinct snapshot.index
  let root := snapshot.find snapshot.root
  failIf (root = snapshot.nodes.length || (snapshot.node root).parent ≠ 0)
    (fail .invalidRoot snapshot.root 0)
  let scan ← snapshot.nodes.zipIdx.foldlM (checkNode snapshot limits root) {}
  failIf (scan.incoming root ≠ 0) (fail .cycle snapshot.root 0)
  (List.range snapshot.nodes.length).forM fun i =>
    failIf (i ≠ root && scan.incoming i ≠ 1) (fail .parentMismatch (snapshot.node i).id i)
  .ok root

/-! ## Containment -/

/-- The preorder traversal with its ordinals and the nearest table above each node. -/
structure Traversal where
  traversal : List Nat := []
  ordinal : Nat → Nat := fun _ => 0
  grid : Nat → Nat

/-- A table with collection data. -/
def isGrid (i : Nat) : Bool :=
  (snapshot.node i).role = .table && (snapshot.node i).collection.isSome

def visit (t : Traversal) (i : Nat) : Traversal where
  traversal := t.traversal ++ [i]
  ordinal := Function.update t.ordinal i t.traversal.length
  grid :=
    match snapshot.parent i with
    | none => t.grid
    | some parent =>
      Function.update t.grid i (if isGrid snapshot parent then parent else t.grid parent)

/-- The selected nodes stand in the interval of the container. -/
def checkSelected (t : Traversal) (subtree : Nat → Nat) (node : Node F) (i : Nat) : Check Unit :=
  match node.selection with
  | none => .ok ()
  | some selection =>
    selection.selectedNodes.forM fun selected =>
      let position := t.ordinal (snapshot.find selected)
      failIf (position ≤ t.ordinal i || position ≥ t.ordinal i + subtree i)
        (fail .invalidSelection node.id i)

/-- A cell is inside the grid. -/
def checkCell (t : Traversal) (node : Node F) (i : Nat) : Check Unit :=
  match node.collection with
  | none => .ok ()
  | some item =>
    if t.grid i < snapshot.nodes.length &&
        (node.role = .cell || node.role = .rowHeader || node.role = .columnHeader) then
      let container := (snapshot.node (t.grid i)).collection.getD {}
      failIf (item.rowIndex ≥ container.rowCount ||
        item.rowSpan > container.rowCount - item.rowIndex ||
        item.columnIndex ≥ container.columnCount ||
        item.columnSpan > container.columnCount - item.columnIndex)
        (fail .invalidCollection node.id i)
    else .ok ()

/-- The last loop. -/
def checkContained (t : Traversal) (subtree : Nat → Nat) (entry : Node F × Nat) : Check Unit := do
  checkSelected snapshot t subtree entry.1 entry.2
  checkCell snapshot t entry.1 entry.2

/-- The validation, with fuel for the loops of the breadth-first pass and the traversal. -/
def validate (fuel : Nat) : Option ValidationResult :=
  match checkNodes snapshot limits with
  | .error result => some result
  | .ok root =>
    match Lib.breadth snapshot.kids fuel [root] 0 (fun _ => false) with
    | none => none
    | some (.error i) => some (fail .cycle (snapshot.node i).id i)
    | some (.ok work) =>
      if work.length ≠ snapshot.nodes.length then some (fail .unreachableNode 0 0)
      else
        match Lib.walk snapshot.kids (visit snapshot) fuel [root]
          { grid := fun _ => snapshot.nodes.length } with
        | none => none
        | some t =>
          let subtree := Lib.addSizes snapshot.parent t.traversal fun _ => 1
          match snapshot.nodes.zipIdx.forM (checkContained snapshot t subtree) with
          | .error result => some result
          | .ok _ => some {}

end

end Desktop

import GameWIP.Desktop.Bridge

/-!
# Authoring and copying snapshots

`SnapshotBuilder` (`desktop/core/accessibility_snapshot.cpp`) with the payload copies that back its
nodes, and the part of the `Facade` (`desktop/core/accessibility.cpp`) that reads a published snapshot
and copies it into a builder. A view is the value it shows; `OwnedAccessibilityNode.Owns` says where the
storage behind the views of a node is. Allocation succeeds.
-/

namespace Desktop

variable {F : Type}

/-! ## Owned payload copies -/

/-- Deep-owned payload storage backing one borrowed node. -/
structure OwnedAccessibilityNode (F : Type) where
  node : Node F
  strings : List (List UInt8) := []
  children : List NodeId := []
  relations : List Relation := []
  relationTargets : List (List NodeId) := []
  extensions : List (Extension F) := []
  extensionLists : List (List (ExtensionValue F)) := []
  annotations : List TextAnnotation := []
  fragments : List (TextFragment F) := []
  textSelection : List TextRange := []
  selectedNodes : List NodeId := []

namespace OwnedAccessibilityNode

/-- A view of the copy that the deque of strings has at its end. -/
def copyString (source : List UInt8) (owned : OwnedAccessibilityNode F) :
    List UInt8 × OwnedAccessibilityNode F :=
  if source.isEmpty then ([], owned)
  else
    let strings := owned.strings ++ [source]
    (strings.getLastD [], { owned with strings })

/-- The items of the list of a slot, which grows by one. -/
def pushItem (slot : Nat) (item : ExtensionValue F) (owned : OwnedAccessibilityNode F) :
    OwnedAccessibilityNode F :=
  { owned with extensionLists := owned.extensionLists.modify slot (· ++ [item]) }

mutual

def copyExtension : ExtensionValue F → OwnedAccessibilityNode F →
    ExtensionValue F × OwnedAccessibilityNode F
  | .boolean value, owned => (.boolean value, owned)
  | .signedInteger value, owned => (.signedInteger value, owned)
  | .unsignedInteger value, owned => (.unsignedInteger value, owned)
  | .real value, owned => (.real value, owned)
  | .utf8 value, owned =>
    let (value, owned) := owned.copyString value
    (.utf8 value, owned)
  | .nodeReference value, owned => (.nodeReference value, owned)
  | .list values, owned =>
    let slot := owned.extensionLists.length
    let owned := copyItems slot values { owned with extensionLists := owned.extensionLists ++ [[]] }
    (.list (owned.extensionLists.getD slot []), owned)
  | .unknown kind, owned => (.unknown kind, owned)

/-- The items of a list value, copied into its slot. -/
def copyItems (slot : Nat) : List (ExtensionValue F) → OwnedAccessibilityNode F →
    OwnedAccessibilityNode F
  | [], owned => owned
  | item :: rest, owned =>
    let (item, owned) := copyExtension item owned
    copyItems slot rest (owned.pushItem slot item)

end

def copyRelation (owned : OwnedAccessibilityNode F) (relation : Relation) :
    OwnedAccessibilityNode F :=
  let relationTargets := owned.relationTargets ++ [relation.targets]
  { owned with
    relationTargets
    relations := owned.relations ++ [{ kind := relation.kind, targets := relationTargets.getLastD [] }] }

def copyEntry (owned : OwnedAccessibilityNode F) (extension : Extension F) :
    OwnedAccessibilityNode F :=
  let (namespaceName, owned) := owned.copyString extension.namespaceName
  let (name, owned) := owned.copyString extension.name
  let (value, owned) := owned.copyExtension extension.value
  { owned with extensions := owned.extensions ++ [{ namespaceName, name, value }] }

/-- The annotation at a position gets its own copy of its text. -/
def copyAnnotation (owned : OwnedAccessibilityNode F) (i : Nat) : OwnedAccessibilityNode F :=
  let annotation := owned.annotations.getD i {}
  let (value, owned) := owned.copyString annotation.value
  { owned with annotations := owned.annotations.set i { annotation with value } }

/-- The seven texts that every node has. -/
def copyTexts (owned : OwnedAccessibilityNode F) (source : Node F) : OwnedAccessibilityNode F :=
  let (name, owned) := owned.copyString source.name
  let (description, owned) := owned.copyString source.description
  let (helpText, owned) := owned.copyString source.helpText
  let (value, owned) := owned.copyString source.value
  let (language, owned) := owned.copyString source.language
  let (accessKey, owned) := owned.copyString source.accessKey
  let (keyboardShortcut, owned) := owned.copyString source.keyboardShortcut
  { owned with
    node := { owned.node with
      name, description, helpText, value, language, accessKey, keyboardShortcut } }

def copySelection (owned : OwnedAccessibilityNode F) (source : Node F) : OwnedAccessibilityNode F :=
  match source.selection with
  | none => owned
  | some selection =>
    { owned with
      selectedNodes := selection.selectedNodes
      node := { owned.node with
        selection := owned.node.selection.map ({ · with selectedNodes := selection.selectedNodes }) } }

def copyText (owned : OwnedAccessibilityNode F) (source : Node F) : OwnedAccessibilityNode F :=
  match source.text with
  | none => owned
  | some text =>
    let (utf8, owned) := owned.copyString text.utf8
    let (language, owned) := owned.copyString text.language
    let owned := { owned with annotations := text.annotations }
    let owned := (List.range text.annotations.length).foldl copyAnnotation owned
    let owned := { owned with fragments := text.fragments, textSelection := text.selection }
    { owned with
      node := { owned.node with
        text := owned.node.text.map ({ · with
          utf8, language
          annotations := owned.annotations
          fragments := owned.fragments
          selection := owned.textSelection }) } }

/-- The constructor: the active payloads of a node whose budgets have been checked. -/
def ofNode (source : Node F) : OwnedAccessibilityNode F :=
  let owned : OwnedAccessibilityNode F := { node := source }
  let owned := owned.copyTexts source
  let owned := { owned with
    children := source.children
    node := { owned.node with children := source.children } }
  let owned := source.relations.foldl copyRelation owned
  let owned := { owned with node := { owned.node with relations := owned.relations } }
  let owned := source.extensions.foldl copyEntry owned
  let owned := { owned with node := { owned.node with extensions := owned.extensions } }
  let owned := owned.copySelection source
  owned.copyText source

end OwnedAccessibilityNode

/-! ## The builder budget -/

/-- What `boundedNode` counts of one node. -/
structure NodeCount where
  nodeBytes : Nat := 0
  values : Nat := 0

namespace NodeCount

def string (limits : Limits) (text : List UInt8) (count : NodeCount) : Option NodeCount :=
  if text.length > limits.maximumTextBytesPerNode then none
  else
    let count := { count with nodeBytes := count.nodeBytes + text.length }
    if count.nodeBytes ≤ limits.maximumTextBytesPerNode then some count else none

/-- The depth and the count of the values, checked at each value. -/
def enter (limits : Limits) (depth : Nat) (count : NodeCount) : Option NodeCount :=
  if depth > limits.maximumExtensionDepth then none
  else
    let count := { count with values := count.values + 1 }
    if count.values > limits.maximumExtensionValuesPerNode then none else some count

mutual

def extension (limits : Limits) : ExtensionValue F → Nat → NodeCount → Option NodeCount
  | .boolean _, depth, count | .signedInteger _, depth, count | .unsignedInteger _, depth, count
  | .real _, depth, count | .nodeReference _, depth, count => count.enter limits depth
  | .utf8 value, depth, count => do
    let count ← count.enter limits depth
    count.string limits value
  | .list values, depth, count => do
    let count ← count.enter limits depth
    if values.length > limits.maximumExtensionListItems then none
    else extensionList limits values (depth + 1) count
  | .unknown _, depth, count => do
    let _ ← count.enter limits depth
    none

def extensionList (limits : Limits) :
    List (ExtensionValue F) → Nat → NodeCount → Option NodeCount
  | [], _, count => some count
  | item :: rest, depth, count => do
    let count ← extension limits item depth count
    extensionList limits rest depth count

end

def entry (limits : Limits) (count : NodeCount) (value : Extension F) : Option NodeCount := do
  let count ← count.string limits value.namespaceName
  let count ← count.string limits value.name
  extension limits value.value 0 count

def text (limits : Limits) (text : TextContent F) (count : NodeCount) : Option NodeCount := do
  if text.annotations.length > limits.maximumTextAnnotationsPerNode ||
      text.fragments.length > limits.maximumTextFragmentsPerNode ||
      text.selection.length > limits.maximumTextSelectionsPerNode then none
  else
    let count ← count.string limits text.utf8
    let count ← count.string limits text.language
    text.annotations.foldlM (fun count annotation => count.string limits annotation.value) count

end NodeCount

/-- The targets counted so far. -/
def countTargets (limits : Limits) (targets : Nat) (relation : Relation) : Option Nat :=
  let targets := targets + relation.targets.length
  if targets > limits.maximumRelationTargetsPerNode then none else some targets

/-- The count of a node within its own budgets. -/
def NodeCount.node (limits : Limits) (node : Node F) (count : NodeCount) : Option NodeCount := do
  let count ← [node.name, node.description, node.helpText, node.value, node.language, node.accessKey,
    node.keyboardShortcut].foldlM (fun count text => count.string limits text) count
  if node.children.length > limits.maximumChildrenPerNode ||
      node.relations.length > limits.maximumRelationsPerNode ||
      node.extensions.length > limits.maximumExtensionsPerNode then none
  else
    let _ ← node.relations.foldlM (countTargets limits) 0
    let count ← node.extensions.foldlM (NodeCount.entry limits) count
    if node.selection.any fun selection => selection.selectedNodes.length > limits.maximumNodes then
      none
    else
      match node.text with
      | none => some count
      | some text => count.text limits text

/-- The bytes of all nodes with those of this node, unless it exceeds a budget. -/
def boundedNode (node : Node F) (limits : Limits) (bytes : Nat) : Option Nat := do
  let count ← NodeCount.node limits node {}
  let bytes := bytes + count.nodeBytes
  if bytes ≤ limits.maximumTotalTextBytes then some bytes else none

/-! ## Snapshot authoring -/

/-- Authoring metadata and the owners behind the view. -/
structure SnapshotBuilderState (F : Type) where
  generation : Generation := 0
  root : NodeId := 0
  owned : List (OwnedAccessibilityNode F) := []
  nodes : List (Node F) := []
  nodeIds : List NodeId := []
  textBytes : Nat := 0

def SnapshotBuilderState.view (state : SnapshotBuilderState F) : SnapshotView F where
  generation := state.generation
  root := state.root
  nodes := state.nodes

/-- A node with its owner, at the end. -/
def SnapshotBuilderState.push (state : SnapshotBuilderState F) (node : Node F) (bytes : Nat) :
    SnapshotBuilderState F :=
  let owned := state.owned ++ [OwnedAccessibilityNode.ofNode node]
  { state with
    owned
    nodes := state.nodes ++ [((owned.map (·.node)).getLastD {})]
    nodeIds := node.id :: state.nodeIds
    textBytes := bytes }

structure SnapshotBuilder (F : Type) where
  limits_ : Limits := {}
  state_ : Option (SnapshotBuilderState F) := none

namespace SnapshotBuilder

variable (builder : SnapshotBuilder F)

def clear : SnapshotBuilder F := { builder with state_ := none }

def view : SnapshotView F := (builder.state_.map (·.view)).getD {}

def setGeneration (generation : Generation) : Io.Status × SnapshotBuilder F :=
  if generation = 0 then (Io.makeStatus .invalidArgument, builder)
  else ({}, { builder with state_ := some { builder.state_.getD {} with generation } })

def setRoot (root : NodeId) : Io.Status × SnapshotBuilder F :=
  if root = 0 then (Io.makeStatus .invalidArgument, builder)
  else ({}, { builder with state_ := some { builder.state_.getD {} with root } })

variable [DoubleOps F]

def addNode (node : Node F) : Io.Status × SnapshotBuilder F :=
  let validation := validate ({} : SnapshotView F) builder.limits_ 1
  if validation.any (·.issue = .invalidLimits) || node.id = 0 then
    (Io.makeStatus .invalidArgument, builder)
  else if builder.state_.any (·.nodes.length ≥ builder.limits_.maximumNodes) then
    (Io.makeStatus .sizeLimitExceeded, builder)
  else if builder.state_.any (·.nodeIds.contains node.id) then
    (Io.makeStatus .invalidArgument, builder)
  else
    match boundedNode node builder.limits_ ((builder.state_.map (·.textBytes)).getD 0) with
    | none => (Io.makeStatus .sizeLimitExceeded, builder)
    | some bytes => ({}, { builder with state_ := some ((builder.state_.getD {}).push node bytes) })

/-- A call that authors. -/
inductive Edit (F : Type) where
  | clear
  | setGeneration (generation : Generation)
  | setRoot (root : NodeId)
  | addNode (node : Node F)

def edit : Edit F → Io.Status × SnapshotBuilder F
  | .clear => ({}, builder.clear)
  | .setGeneration generation => builder.setGeneration generation
  | .setRoot root => builder.setRoot root
  | .addNode node => builder.addNode node

/-- The calls in order, with their statuses. -/
def editAll (builder : SnapshotBuilder F) : List (Edit F) → List Io.Status × SnapshotBuilder F
  | [] => ([], builder)
  | edit :: rest =>
    let (status, builder) := builder.edit edit
    let (statuses, builder) := builder.editAll rest
    (status :: statuses, builder)

end SnapshotBuilder

/-! ## Publication and copies -/

/-- The storage of the candidate that `publish` builds. -/
def publishedStorage (snapshot : SnapshotView F) : SnapshotBuilderState F :=
  let owned := snapshot.nodes.map .ofNode
  { generation := snapshot.generation
    root := snapshot.root
    owned
    nodes := owned.map (·.node) }

/-- The reader of a bridge: the published snapshot of the activation while it is live. -/
def Bridge.readSnapshot (s : Bridge F) : Option (PublishedSnapshot F) := do
  let a ← s.runtime
  let r ← s.runtimes[a]?
  if r.live then r.snapshot else none

variable [DoubleOps F]

/-- Adds a node to the copy. -/
def copyNode (copy : SnapshotBuilder F) (node : Node F) : Except Io.Status (SnapshotBuilder F) :=
  let (status, copy) := copy.addNode node
  if status.ok then .ok copy else .error status

/-- Copies what a reader shows into a builder with the limits of the destination. -/
def copySnapshot (reader : Option (PublishedSnapshot F)) (destination : SnapshotBuilder F) :
    Io.Status × SnapshotBuilder F :=
  match reader with
  | none => (Io.makeStatus .notOpen, destination)
  | some snapshot =>
    let copy : SnapshotBuilder F := { limits_ := destination.limits_ }
    let (status, copy) := copy.setGeneration snapshot.storage.generation
    if !status.ok then (status, destination)
    else
      let (status, copy) := copy.setRoot snapshot.storage.root
      if !status.ok then (status, destination)
      else
        match snapshot.storage.nodes.foldlM copyNode copy with
        | .error status => (status, destination)
        | .ok copy => ({}, copy)

end Desktop

import GameWIP.Desktop.NativeSnapshot

/-!
# Tree queries of native clients

`Navigate`, `GetItem` and `FindItemByProperty` of a provider (`platform/win32/win32_accessibility.cpp`)
on one published snapshot, with an output argument that is not null and an activation that is live.
Text is compared in the form that is cached with the snapshot.
-/

namespace Desktop

namespace Native

open TextIndex (Variant QueryError)

variable {F : Type}

/-- A provider of an identity with the snapshot it answers from. -/
structure Query (F : Type) where
  snapshot : SnapshotView F
  native : UiaSnapshot F
  id : NodeId

namespace Query

variable (q : Query F)

def providerFor (id : NodeId) : Option ProviderRef := q.native.providers[q.snapshot.find id]?

/-- The position of the node, unless the snapshot has none. -/
def index : Except QueryError Nat :=
  if q.snapshot.find q.id < q.snapshot.nodes.length then .ok (q.snapshot.find q.id)
  else .error .unavailable

end Query

/-! ## Navigation -/

inductive NavigateDirection where
  | parent
  | nextSibling
  | previousSibling
  | firstChild
  | lastChild
  | other
  deriving DecidableEq, Repr

/-- `PublishedSnapshot::find`. -/
def findNode (snapshot : SnapshotView F) (id : NodeId) : Option (Node F) :=
  snapshot.nodes[snapshot.find id]?

/-- The child behind or in front of an identity; zero when there is none. -/
def sibling (children : List NodeId) (id : NodeId) (next : Bool) : NodeId :=
  let i := children.idxOf id
  if i = children.length then 0
  else if next then children.getD (i + 1) 0
  else if i = 0 then 0
  else children.getD (i - 1) 0

namespace Query

variable (q : Query F)

def navigate (direction : NavigateDirection) : Except QueryError (Option ProviderRef) := do
  let node := q.snapshot.node (← q.index)
  let siblingOf (next : Bool) :=
    match findNode q.snapshot node.parent with
    | none => 0
    | some parent => sibling parent.children q.id next
  let target ← match direction with
    | .parent => .ok node.parent
    | .firstChild => .ok (node.children.head?.getD 0)
    | .lastChild => .ok (node.children.getLast?.getD 0)
    | .nextSibling => .ok (siblingOf true)
    | .previousSibling => .ok (siblingOf false)
    | .other => .error .invalidArgument
  .ok (q.providerFor target)

end Query

/-! ## Grid items -/

/-- `patternSupported` for `UIA_GridItemPatternId`. -/
def gridItemSupported (node : Node F) : Bool :=
  node.collection.isSome && (node.role == .cell || node.role == .rowHeader || node.role == .columnHeader)

/-- The item reaches over a row and a column. -/
def covers (item : CollectionInfo) (row column : Nat) : Bool :=
  row ≥ item.rowIndex && row - item.rowIndex < item.rowSpan &&
    column ≥ item.columnIndex && column - item.columnIndex < item.columnSpan

namespace Query

variable (q : Query F)

/-- A cell of this table that reaches over a row and a column. -/
def isItemAt (row column : Nat) (entry : Node F × Nat) : Bool :=
  gridItemSupported entry.1 && (q.native.layout entry.2).containingGrid == q.id &&
    entry.1.collection.any fun item => covers item row column

def getItem (row column : Int) : Except QueryError (Option ProviderRef) := do
  let node := q.snapshot.node (← q.index)
  match node.collection with
  | none => .error .unsupported
  | some c =>
    if row < 0 ∨ column < 0 ∨ row.toNat ≥ c.rowCount ∨ column.toNat ≥ c.columnCount then
      .error .invalidArgument
    else
      match q.snapshot.nodes.zipIdx.find? (q.isItemAt row.toNat column.toNat) with
      | none => .ok none
      | some entry => .ok (q.providerFor entry.1.id)

end Query

/-! ## Known items by property -/

inductive PropertyId where
  | none
  | name
  | controlType
  | isSelected
  | automationId
  | other
  deriving DecidableEq, Repr

/-- `UIA_…ControlTypeId`. -/
inductive ControlType where
  | button | calendar | checkBox | comboBox | edit | hyperlink | image | listItem | list | menu
  | menuBar | menuItem | progressBar | radioButton | scrollBar | slider | spinner | statusBar | tab
  | tabItem | text | toolBar | toolTip | tree | treeItem | custom | group | dataItem | document
  | window | pane | headerItem | table | separator
  deriving DecidableEq, Repr

def ControlType.id : ControlType → Int32
  | .button => 50000
  | .calendar => 50001
  | .checkBox => 50002
  | .comboBox => 50003
  | .edit => 50004
  | .hyperlink => 50005
  | .image => 50006
  | .listItem => 50007
  | .list => 50008
  | .menu => 50009
  | .menuBar => 50010
  | .menuItem => 50011
  | .progressBar => 50012
  | .radioButton => 50013
  | .scrollBar => 50014
  | .slider => 50015
  | .spinner => 50016
  | .statusBar => 50017
  | .tab => 50018
  | .tabItem => 50019
  | .text => 50020
  | .toolBar => 50021
  | .toolTip => 50022
  | .tree => 50023
  | .treeItem => 50024
  | .custom => 50025
  | .group => 50026
  | .dataItem => 50029
  | .document => 50030
  | .window => 50032
  | .pane => 50033
  | .headerItem => 50035
  | .table => 50036
  | .separator => 50038

/-- The control types of the roles, in the order of the roles. -/
def controlTypes : List ControlType :=
  [.custom, .window, .window, .window, .group, .pane, .group, .toolBar, .menuBar, .menu, .menuItem,
    .checkBox, .radioButton, .button, .button, .hyperlink, .image, .text, .edit, .edit, .edit,
    .slider, .progressBar, .scrollBar, .pane, .list, .listItem, .tree, .treeItem, .table, .dataItem,
    .dataItem, .headerItem, .headerItem, .tabItem, .tab, .pane, .comboBox, .spinner, .calendar,
    .calendar, .custom, .separator, .statusBar, .custom, .toolTip, .custom, .custom, .custom,
    .document, .document, .group, .group, .group, .custom]

def controlType (role : Role) : Int32 := (controlTypes.getD role.toNat .custom).id

/-- `std::to_chars`, widened. -/
def decimal (n : Nat) : List UInt16 := (Nat.toDigits 10 n).map fun c => UInt16.ofNat c.toNat

/-- What is wrong with a criterion. -/
def criterionFailure (id : PropertyId) (value : Variant F) : Option QueryError :=
  match id, value with
  | .other, _ => some .unsupported
  | .none, _ => none
  | .name, .bstr _ => none
  | .automationId, .bstr _ => none
  | .controlType, .i4 _ => none
  | .isSelected, .bool _ => none
  | _, _ => some .invalidArgument

def propertyMatches (id : PropertyId) (value : Variant F) (node : Node F) : Bool :=
  match id, value with
  | .none, _ => true
  | .controlType, .i4 lVal => controlType node.role == lVal
  | .isSelected, .bool boolVal =>
    node.states.contains .selected == (boolVal != TextIndex.variantFalse)
  | .name, .bstr bstrVal =>
    node.exposure != .redactContent && TextIndex.utf16 node.name == bstrVal
  | .automationId, .bstr bstrVal => bstrVal == decimal node.id.toNat
  | _, _ => false

def uint32Max : Nat := 2 ^ 32 - 1

namespace Query

variable (q : Query F)

/-- The ordinal of the node a provider belongs to. -/
def startOrdinal (start : ProviderRef) : Except QueryError Nat :=
  match q.snapshot.nodes.zipIdx.find? fun entry => q.providerFor entry.1.id == some start with
  | none => .error .invalidArgument
  | some entry => .ok (q.native.layout entry.2).ordinal

/-- The ordinal to start behind, when there is a start. -/
def startAfter : Option ProviderRef → Except QueryError (Option Nat)
  | none => .ok none
  | some start => (q.startOrdinal start).map some

/-- An item below the container, behind the start. -/
def isCandidate (after : Option Nat) (id : PropertyId) (value : Variant F) (entry : Node F × Nat) :
    Bool :=
  descendant q.snapshot q.native.layout entry.1.id q.id &&
    after.all (fun ordinal => ordinal < (q.native.layout entry.2).ordinal) &&
    propertyMatches id value entry.1

/-- The candidate with the least ordinal; zero when there is none. -/
def best (after : Option Nat) (id : PropertyId) (value : Variant F) : NodeId × Nat :=
  q.snapshot.nodes.zipIdx.foldl (fun best entry =>
    if q.isCandidate after id value entry ∧ (q.native.layout entry.2).ordinal < best.2 then
      (entry.1.id, (q.native.layout entry.2).ordinal)
    else best) (0, uint32Max)

def findItemByProperty (start : Option ProviderRef) (id : PropertyId) (value : Variant F) :
    Except QueryError (Option ProviderRef) := do
  let _ ← q.index
  match criterionFailure id value with
  | some failure => .error failure
  | none =>
    let after ← q.startAfter start
    let best := (q.best after id value).1
    .ok (if best = 0 then none else q.providerFor best)

end Query

/-! ## Clients -/

/-- A client with the objects of its providers and the snapshot they answer from. -/
structure Client (F : Type) where
  heap : Heap
  snapshot : SnapshotView F
  native : UiaSnapshot F

namespace Client

variable (client : Client F)

/-- A call on a provider. -/
def query (provider : ProviderRef) : Except QueryError (Query F) :=
  match client.heap[provider]? with
  | none => .error .unavailable
  | some p => .ok ⟨client.snapshot, client.native, p.id⟩

def navigate (provider : ProviderRef) (direction : NavigateDirection) :
    Except QueryError (Option ProviderRef) :=
  (client.query provider).bind fun q => q.navigate direction

def getItem (provider : ProviderRef) (row column : Int) : Except QueryError (Option ProviderRef) :=
  (client.query provider).bind fun q => q.getItem row column

def findItemByProperty (provider : ProviderRef) (start : Option ProviderRef) (id : PropertyId)
    (value : Variant F) : Except QueryError (Option ProviderRef) :=
  (client.query provider).bind fun q => q.findItemByProperty start id value

/-- The providers met from one on by first children and next siblings; nothing when a call fails. -/
def visits : Nat → Option ProviderRef → Option (List ProviderRef)
  | _, none => some []
  | 0, some _ => none
  | fuel + 1, some provider => do
    let child ← (client.navigate provider .firstChild).toOption
    let below ← visits fuel child
    let next ← (client.navigate provider .nextSibling).toOption
    let behind ← visits fuel next
    return provider :: below ++ behind

/-- The items found one by one, each from the one before it; nothing when a call fails. -/
def items (container : ProviderRef) (id : PropertyId) (value : Variant F) :
    Nat → Option ProviderRef → Option (List ProviderRef)
  | 0, _ => none
  | fuel + 1, start =>
    match client.findItemByProperty container start id value with
    | .error _ => none
    | .ok none => some []
    | .ok (some item) => (items container id value fuel (some item)).map (item :: ·)

end Client

end Native

end Desktop

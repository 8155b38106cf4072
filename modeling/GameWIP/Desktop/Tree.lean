import GameWIP.Desktop.Accessibility
import Mathlib.Logic.Relation

/-!
# Snapshots that are trees

What a snapshot has to be, in terms of the identities its nodes carry: one rooted ordered tree whose
references resolve (`IsTree`), selections of nodes below their container (`SelectsBelow`) and cells
inside the nearest table above them (`CellsInside`).
-/

namespace Desktop

variable {F : Type}

mutual

/-- The nodes a value refers to. -/
def ExtensionValue.references : ExtensionValue F → List NodeId
  | .nodeReference value => [value]
  | .list values => ExtensionValue.referencesList values
  | _ => []

def ExtensionValue.referencesList : List (ExtensionValue F) → List NodeId
  | [] => []
  | item :: rest => item.references ++ ExtensionValue.referencesList rest

end

/-- A cell or a header of a table. -/
def Node.IsCell (node : Node F) : Prop :=
  node.role = .cell ∨ node.role = .rowHeader ∨ node.role = .columnHeader

/-- A table with collection data. -/
def Node.IsGrid (node : Node F) : Prop := node.role = .table ∧ node.collection.isSome

/-- The item lies inside the dimensions. -/
structure CollectionInfo.Inside (item container : CollectionInfo) : Prop where
  row : item.rowIndex < container.rowCount
  rowEnd : item.rowIndex + item.rowSpan ≤ container.rowCount
  column : item.columnIndex < container.columnCount
  columnEnd : item.columnIndex + item.columnSpan ≤ container.columnCount

namespace SnapshotView

variable (snapshot : SnapshotView F)

def ids : List NodeId := snapshot.nodes.map Node.id

/-- `b` is listed among the children of `a`. -/
def Lists (a b : NodeId) : Prop := ∃ node ∈ snapshot.nodes, node.id = a ∧ b ∈ node.children

/-- `a` is the declared parent of `b`. -/
def IsParent (a b : NodeId) : Prop := ∃ node ∈ snapshot.nodes, node.id = b ∧ node.parent = a

/-- The references of the node are nodes of the snapshot. -/
structure Resolves (node : Node F) : Prop where
  relations : ∀ relation ∈ node.relations, ∀ target ∈ relation.targets, target ∈ snapshot.ids
  annotations : ∀ text, node.text = some text → ∀ item ∈ text.annotations, item.target ≠ 0 →
    item.target ∈ snapshot.ids
  extensions : ∀ entry ∈ node.extensions, ∀ id ∈ entry.value.references, id ∈ snapshot.ids

/-- **One rooted ordered tree.** -/
structure IsTree : Prop where
  nonzero : 0 ∉ snapshot.ids
  distinct : snapshot.ids.Nodup
  root : snapshot.IsParent 0 snapshot.root
  listed : ∀ node ∈ snapshot.nodes, node.id ≠ snapshot.root →
    ∃ parent ∈ snapshot.nodes, parent.id = node.parent ∧ parent.children.count node.id = 1
  declared : ∀ a b, snapshot.Lists a b → snapshot.IsParent a b
  reachable : ∀ id ∈ snapshot.ids, Relation.ReflTransGen snapshot.Lists snapshot.root id
  resolves : ∀ node ∈ snapshot.nodes, snapshot.Resolves node

/-- What a container selects is below it. -/
def SelectsBelow : Prop :=
  ∀ node ∈ snapshot.nodes, ∀ selection, node.selection = some selection →
    ∀ id ∈ selection.selectedNodes, id ∈ snapshot.ids ∧ Relation.TransGen snapshot.IsParent node.id id

/-- The nearest table with collection data above a node. -/
inductive NearestGrid : Node F → Node F → Prop
  | parent {node parent : Node F} : parent ∈ snapshot.nodes → parent.id = node.parent →
    parent.IsGrid → NearestGrid node parent
  | above {node parent grid : Node F} : parent ∈ snapshot.nodes → parent.id = node.parent →
    ¬ parent.IsGrid → NearestGrid parent grid → NearestGrid node grid

/-- The nearest proper ancestor with a property. -/
inductive NearestAbove (P : Node F → Prop) : Node F → Node F → Prop
  | parent {node parent : Node F} : parent ∈ snapshot.nodes → parent.id = node.parent →
    P parent → NearestAbove P node parent
  | above {node parent found : Node F} : parent ∈ snapshot.nodes → parent.id = node.parent →
    ¬ P parent → NearestAbove P parent found → NearestAbove P node found

/-- Cells are inside the dimensions of the nearest table above them. -/
def CellsInside : Prop :=
  ∀ node ∈ snapshot.nodes, node.IsCell → ∀ item, node.collection = some item →
    ∀ grid, snapshot.NearestGrid node grid → ∀ container, grid.collection = some container →
      item.Inside container

end SnapshotView

end Desktop

import GameWIP.Desktop.TextAttributes
import GameWIP.Desktop.Tree
import Mathlib.Data.List.AList

/-!
# Native snapshots

The provider registry of an activation and `prepareAccessibilitySnapshot`
(`platform/win32/win32_accessibility.cpp`): missing providers are created, the tree is laid out, and
then the registry takes the new providers. Every allocation of a call may throw; a `push_back` within
reserved capacity does not allocate. Providers are objects with a count of references, in the order of
their creation; those with no reference left are deleted.
-/

namespace Desktop

namespace Native

open Io (ErrorCode Status)
open FloatOps (zero neg add sub mul)

variable {F : Type}

/-! ## Providers -/

/-- `NodeProvider`. -/
structure NodeProvider where
  id : NodeId
  root : Bool
  references : Nat := 1
  deriving DecidableEq, Repr

/-- A provider, by its number. -/
abbrev ProviderRef := Nat

abbrev Heap := List NodeProvider

namespace Heap

/-- `new NodeProvider`: the number of the next object, and the objects with it. -/
def create (heap : Heap) (id : NodeId) (root : Bool) : ProviderRef × Heap :=
  (heap.length, heap ++ [{ id := id, root := root }])

def addRef (heap : Heap) (provider : ProviderRef) : Heap :=
  heap.modify provider fun p => { p with references := p.references + 1 }

def release (heap : Heap) (provider : ProviderRef) : Heap :=
  heap.modify provider fun p => { p with references := p.references - 1 }

end Heap

/-- `std::map<NodeId, NodeProvider *>`. -/
abbrev ProviderMap := AList fun _ : NodeId => ProviderRef

/-- `UiaState`. -/
structure UiaState where
  providers : ProviderMap := ∅

/-! ## Layout -/

/-- `UiaSnapshot::Layout`. -/
structure Layout (F : Type) where
  bounds : Rect F
  clip : Option (Rect F) := none
  visible : Bool := true
  order : Nat := 0
  ordinal : Nat := 0
  subtreeEnd : Nat := 0
  selectionContainer : NodeId := 0
  containingGrid : NodeId := 0
  deriving DecidableEq, Repr

/-- `UiaSnapshot`. -/
structure UiaSnapshot (F : Type) where
  providers : List ProviderRef
  layout : Nat → Layout F
  /-- The first annotation that targets a node: the position of its node, or the number of nodes, and
  its index. -/
  annotationSources : List (Nat × Nat)

section

variable [DoubleOps F]

def intersection (a b : Rect F) : Rect F :=
  let right := minimum (add a.x a.width) (add b.x b.width)
  let bottom := minimum (add a.y a.height) (add b.y b.height)
  let x := maximum a.x b.x
  let y := maximum a.y b.y
  ⟨x, y, maximum zero (sub right x), maximum zero (sub bottom y)⟩

/-- The axis-aligned enclosure of the bounds in the window. -/
def transformed (geometry : Geometry F) : Rect F :=
  let r := geometry.localBounds
  let t := geometry.toWindow
  let corners := [(r.x, r.y), (add r.x r.width, r.y), (r.x, add r.y r.height),
    (add r.x r.width, add r.y r.height)].map fun c =>
      (add (add (mul t.m11 c.1) (mul t.m21 c.2)) t.tx,
        add (add (mul t.m12 c.1) (mul t.m22 c.2)) t.ty)
  let first : F := DoubleOps.max
  let left := corners.foldl (fun left c => minimum left c.1) first
  let right := corners.foldl (fun right c => maximum right c.1) (neg first)
  let top := corners.foldl (fun top c => minimum top c.2) first
  let bottom := corners.foldl (fun bottom c => maximum bottom c.2) (neg first)
  ⟨left, top, sub right left, sub bottom top⟩

/-- A value-initialized layout. -/
def Layout.initial : Layout F := { bounds := ⟨zero, zero, zero, zero⟩ }

variable (snapshot : SnapshotView F)

/-- What a node takes over from its parent. -/
def inherit (layout : Nat → Layout F) (i : Nat) (own : Layout F) : Layout F :=
  match snapshot.parent i with
  | none => own
  | some parentIndex =>
    let parent := layout parentIndex
    let parentNode := snapshot.node parentIndex
    { own with
      clip := parent.clip
      visible := parent.visible
      selectionContainer :=
        if parentNode.selection.isSome then parentNode.id else parent.selectionContainer
      containingGrid :=
        if parentNode.role = .table ∧ parentNode.collection.isSome then parentNode.id
        else parent.containingGrid }

/-- What the geometry of a node adds. -/
def place (node : Node F) (own : Layout F) : Layout F :=
  match node.geometry with
  | none => own
  | some geometry =>
    { own with
      bounds := transformed geometry
      visible := own.visible && geometry.visible
      order := geometry.hitTestOrder
      clip :=
        match geometry.clippingBounds with
        | none => own.clip
        | some bounds => some (own.clip.elim bounds (intersection · bounds)) }

/-- The nodes taken so far and their layout. -/
structure LayoutState (F : Type) where
  traversal : List Nat := []
  layout : Nat → Layout F

def layOut (s : LayoutState F) (i : Nat) : LayoutState F :=
  let node := snapshot.node i
  let ordinal := s.traversal.length
  let own := inherit snapshot s.layout i
    { s.layout i with ordinal := ordinal, subtreeEnd := ordinal + 1 }
  let own := { own with visible := own.visible && !TextIndex.hasState node.states TextIndex.invisibleShift }
  { traversal := s.traversal ++ [i], layout := Function.update s.layout i (place node own) }

/-- The ends of the subtrees, from the last node to the first. -/
def raiseSubtreeEnds (traversal : List Nat) (layout : Nat → Layout F) : Nat → Layout F :=
  traversal.foldr (fun i layout =>
    match snapshot.parent i with
    | none => layout
    | some p => Function.update layout p
        { layout p with subtreeEnd := max (layout p).subtreeEnd (layout i).subtreeEnd }) layout

end

/-- The first annotation for each target, nodes and annotations in order. -/
def annotationSources (snapshot : SnapshotView F) : List (Nat × Nat) :=
  let none := snapshot.nodes.length
  snapshot.nodes.zipIdx.foldl (fun sources (node, i) =>
    match node.text with
    | .none => sources
    | .some text => text.annotations.zipIdx.foldl (fun sources (item, j) =>
        if item.target = 0 then sources
        else sources.modify (snapshot.find item.target) fun reference =>
          if reference.1 = none then (i, j) else reference) sources)
    (List.replicate none (none, 0))

/-! ## Allocation -/

/-- What an allocation throws. -/
inductive AllocationFailure where
  | badAlloc
  | lengthError
  deriving DecidableEq, Repr

/-- What the handlers return. -/
def AllocationFailure.status : AllocationFailure → Status
  | .badAlloc => { code := .outOfMemory }
  | .lengthError => { code := .sizeLimitExceeded }

/-- What the allocations of a call throw, by their number. -/
abbrev Memory := Nat → Option AllocationFailure

/-- The next `n` allocations; the number of the one behind them. -/
def allocate (memory : Memory) : Nat → Nat → Except AllocationFailure Nat
  | 0, site => .ok site
  | n + 1, site =>
    match memory site with
    | some failure => .error failure
    | none => allocate memory n (site + 1)

/-! ## Creation of missing providers -/

/-- The local providers of a call with the objects. -/
structure Additions where
  values : ProviderMap := ∅
  heap : Heap

/-- `~Additions`. -/
def Additions.destroy (additions : Additions) : Heap :=
  additions.values.entries.foldl (fun heap entry => heap.release entry.2) additions.heap

/-- Creates the missing providers, one allocation for the object and one for the entry. -/
def createProviders (memory : Memory) (providers : ProviderMap) (root : NodeId) :
    List (Node F) → Nat → Additions → Except AllocationFailure Nat × Additions
  | [], site, additions => (.ok site, additions)
  | node :: nodes, site, additions =>
    if node.id ∈ providers then createProviders memory providers root nodes site additions
    else
      match memory site with
      | some failure => (.error failure, additions)
      | none =>
        let (provider, heap) := additions.heap.create node.id (node.id == root)
        match memory (site + 1) with
        | some failure => (.error failure, { additions with heap := heap.release provider })
        | none =>
          -- `emplace` keeps an entry that exists
          let values := if node.id ∈ additions.values then additions.values
            else additions.values.insert node.id provider
          createProviders memory providers root nodes (site + 2) ⟨values, heap⟩

/-! ## Preparation -/

section

variable [DoubleOps F] (snapshot : SnapshotView F)

/-- The loop over the pending nodes; children beyond the reserved capacity are an allocation. -/
def traverse (memory : Memory) : Nat → Nat → List Nat → LayoutState F →
    Option (Except AllocationFailure (LayoutState F))
  | _, _, [], s => some (.ok s)
  | 0, _, _ :: _, _ => none
  | fuel + 1, site, i :: pending, s =>
    let next := snapshot.kids i ++ pending
    let growth := if next.length ≤ snapshot.nodes.length then 0 else 1
    match allocate memory growth site with
    | .error failure => some (.error failure)
    | .ok site => traverse memory fuel site next (layOut snapshot s i)

/-- What a call leaves: its result, the state and the objects. -/
structure Outcome (F : Type) where
  result : Except Status (UiaSnapshot F)
  native : UiaState
  heap : Heap

/-- The end of a call that threw. -/
def unwind (native : UiaState) (failure : AllocationFailure) (heap : Heap) : Outcome F :=
  ⟨.error failure.status, native, heap⟩

/-- The merge with what follows it; nothing in it allocates. -/
def commit (native : UiaState) (additions : Additions) (layout : Nat → Layout F) : Outcome F :=
  let providers := native.providers ∪ additions.values
  -- entries that existed are left behind
  let left : Additions :=
    ⟨⟨additions.values.entries.filter fun entry => entry.1 ∈ native.providers,
      additions.values.nodupKeys.sublist List.filter_sublist⟩, additions.heap⟩
  let own := snapshot.nodes.map fun node => (providers.lookup node.id).getD 0
  let heap := own.foldl Heap.addRef left.destroy
  ⟨.ok ⟨own, layout, annotationSources snapshot⟩, { native with providers := providers }, heap⟩

def prepareAccessibilitySnapshot (limits : Limits) (memory : Memory) (fuel : Nat)
    (native : UiaState) (heap : Heap) : Option (Outcome F) :=
  let missing := (snapshot.nodes.filter fun node => node.id ∉ native.providers).length
  -- the registry never holds more than the maximum
  if missing > limits.maximumNativeProviders - native.providers.entries.length then
    some ⟨.error { code := .sizeLimitExceeded }, native, heap⟩
  else
    -- the result, its three vectors and the local map
    match allocate memory 5 0 with
    | .error failure => some (unwind native failure heap)
    | .ok site =>
      match createProviders memory native.providers snapshot.root snapshot.nodes site { heap := heap } with
      | (.error failure, additions) => some (unwind native failure additions.destroy)
      | (.ok site, additions) =>
        -- `pending` and `traversal`
        match allocate memory 2 site with
        | .error failure => some (unwind native failure additions.destroy)
        | .ok site =>
          match traverse snapshot memory fuel site [snapshot.find snapshot.root]
              { layout := fun _ => .initial } with
          | none => none
          | some (.error failure) => some (unwind native failure additions.destroy)
          | some (.ok s) =>
            some (commit snapshot native additions (raiseSubtreeEnds snapshot s.traversal s.layout))

/-! ## Runs -/

/-- The validation accepts the snapshot. -/
def validated (limits : Limits) : Bool :=
  (validate snapshot limits (snapshot.nodes.length + 1)).any ValidationResult.ok

/-- What happens to the providers of an activation. -/
inductive NativeAction (F : Type) where
  | prepare (snapshot : SnapshotView F) (memory : Memory)
  /-- Clients and retired snapshots take and give back references. -/
  | references (heap : Heap)

/-- Only validated snapshots are prepared, and no reference changes which objects there are. -/
def step (limits : Limits) (s : UiaState × Heap) : NativeAction F → Option (UiaState × Heap)
  | .prepare snapshot memory =>
    if validated snapshot limits then
      (prepareAccessibilitySnapshot snapshot limits memory (snapshot.nodes.length + 1) s.1 s.2).map
        fun o => (o.native, o.heap)
    else none
  | .references heap =>
    if heap.map NodeProvider.id = s.2.map NodeProvider.id then some (s.1, heap) else none

/-! ## Reading a layout -/

variable (layout : Nat → Layout F)

/-- The node is below the ancestor. -/
def descendant (node ancestor : NodeId) : Bool :=
  let nodeIndex := snapshot.find node
  let ancestorIndex := snapshot.find ancestor
  if nodeIndex ≥ snapshot.nodes.length ∨ ancestorIndex ≥ snapshot.nodes.length then false
  else (layout nodeIndex).ordinal > (layout ancestorIndex).ordinal &&
    (layout nodeIndex).ordinal < (layout ancestorIndex).subtreeEnd

end

end Native

end Desktop

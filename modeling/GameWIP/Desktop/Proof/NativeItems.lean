import GameWIP.Desktop.Proof.NativeQueries
import GameWIP.Lib.Least

/-!
# Items of native clients

* `getItem_spec`: the cells of a table;
* `items_spec`: the matching items below a container are found one by one, in preorder;
* `clients_followTree`: what a client is answered on a snapshot that was prepared in a run.
-/

namespace Desktop

open Lib (Child IsPreorder)

variable {F : Type}

/-- The item reaches over a row and a column. -/
structure CollectionInfo.ReachesOver (item : CollectionInfo) (row column : Int) : Prop where
  rowStart : (item.rowIndex : Int) ≤ row
  rowEnd : row < item.rowIndex + item.rowSpan
  columnStart : (item.columnIndex : Int) ≤ column
  columnEnd : column < item.columnIndex + item.columnSpan

/-- A cell whose nearest table is this one reaches over a row and a column. -/
def SnapshotView.CoversCell (snapshot : SnapshotView F) (table cell : Node F) (row column : Int) : Prop :=
  cell.IsCell ∧ snapshot.NearestAbove Node.IsGrid cell table ∧
    ∃ item, cell.collection = some item ∧ item.ReachesOver row column

namespace Native

open TextIndex (Variant QueryError)

/-! ## Grid items -/

section
variable {snapshot : SnapshotView F} {root i : Nat}

/-- The entries of the loops over the nodes. -/
theorem mem_zipIdx_nodes {entry : Node F × Nat} :
    entry ∈ snapshot.nodes.zipIdx ↔
      entry.2 < snapshot.nodes.length ∧ entry = (snapshot.node entry.2, entry.2) := by
  rw [List.mem_zipIdx_iff_getElem?]
  constructor
  · intro hat
    exact ⟨(List.getElem?_eq_some_iff.1 hat).1, by rw [SnapshotView.node_eq hat]⟩
  · rintro ⟨hlt, heq⟩
    rw [heq]
    exact (Checked.node_of_lt hlt).1

theorem mem_of_nearestAbove {P : Node F → Prop} {node found : Node F}
    (h : snapshot.NearestAbove P node found) : found ∈ snapshot.nodes ∧ P found := by
  induction h with
  | parent hmem _ hP => exact ⟨hmem, hP⟩
  | above _ _ _ _ ih => exact ih

theorem nearestGrid_of_nearestAbove {node found : Node F}
    (h : snapshot.NearestAbove Node.IsGrid node found) : snapshot.NearestGrid node found := by
  induction h with
  | parent hmem hid hP => exact .parent hmem hid hP
  | above hmem hid hP _ ih => exact .above hmem hid hP ih

/-- The identity of a node is the named one when the node is the nearest. -/
theorem NamesNearest.eq_iff (h : Checked snapshot root) {P : Node F → Prop} {node : Node F} {id : NodeId}
    (hnames : NamesNearest snapshot P node id) (hi : i < snapshot.nodes.length) :
    id = (snapshot.node i).id ↔ snapshot.NearestAbove P node (snapshot.node i) := by
  refine ⟨fun heq => ?_, hnames.1 _⟩
  by_cases hsome : ∃ found, snapshot.NearestAbove P node found
  · obtain ⟨found, hfound⟩ := hsome
    obtain ⟨j, hat⟩ := List.mem_iff_getElem?.1 (mem_of_nearestAbove hfound).1
    have hsame : j = i := by
      have hj := SnapshotView.find_eq h.distinct hat
      rw [← hnames.1 found hfound, heq, h.find_node hi] at hj
      exact hj.symm
    rw [← hsame, SnapshotView.node_eq hat]
    exact hfound
  · exact absurd (heq.symm.trans (hnames.2 (not_exists.1 hsome))) (h.id_ne_zero hi)

theorem gridItemSupported_iff (node : Node F) :
    gridItemSupported node = true ↔ node.collection.isSome = true ∧ node.IsCell := by
  simp [gridItemSupported, Node.IsCell, or_assoc]

theorem covers_iff (item : CollectionInfo) (row column : Nat) :
    covers item row column = true ↔ item.ReachesOver row column := by
  simp only [covers, Bool.and_eq_true, decide_eq_true_eq]
  constructor
  · rintro ⟨⟨⟨hrow, hrowEnd⟩, hcolumn⟩, hcolumnEnd⟩
    exact ⟨by omega, by omega, by omega, by omega⟩
  · rintro ⟨hrow, hrowEnd, hcolumn, hcolumnEnd⟩
    exact ⟨⟨⟨by omega, by omega⟩, by omega⟩, by omega⟩

end

namespace Serves

variable {client : Client F} {pre : Nat → List Nat} {root i k : Nat} {r : ProviderRef}

/-- The test of a cell. -/
theorem isItemAt_iff (h : Serves client pre root) (hi : i < client.snapshot.nodes.length)
    (hk : k < client.snapshot.nodes.length) (row column : Nat) :
    Query.isItemAt ⟨client.snapshot, client.native, (client.snapshot.node i).id⟩ row column
        (client.snapshot.node k, k) = true ↔
      client.snapshot.CoversCell (client.snapshot.node i) (client.snapshot.node k) row column := by
  have hgrid := ((h.intervals.names k (h.all k hk)).grid).eq_iff h.checked hi
  simp only [Query.isItemAt, Bool.and_eq_true, gridItemSupported_iff, beq_iff_eq, Option.any_eq_true,
    covers_iff, hgrid, SnapshotView.CoversCell]
  constructor
  · rintro ⟨⟨⟨-, hcell⟩, hnear⟩, hitem⟩
    exact ⟨hcell, hnear, hitem⟩
  · rintro ⟨hcell, hnear, item, hitem, hreaches⟩
    exact ⟨⟨⟨by rw [hitem]; rfl, hcell⟩, hnear⟩, item, hitem, hreaches⟩

/-- A cell that reaches over a row and a column is inside its table. -/
theorem inside_of_coversCell (h : Serves client pre root) (hk : k < client.snapshot.nodes.length)
    {container : CollectionInfo} (hcontainer : (client.snapshot.node i).collection = some container)
    {row column : Int}
    (hcovers : client.snapshot.CoversCell (client.snapshot.node i) (client.snapshot.node k) row column) :
    ¬ (row < 0 ∨ column < 0 ∨ row.toNat ≥ container.rowCount ∨ column.toNat ≥ container.columnCount) := by
  obtain ⟨hcell, hnear, item, hitem, hreaches⟩ := hcovers
  have hinside := h.contained _ (Checked.node_of_lt hk).2 hcell item hitem _
    (nearestGrid_of_nearestAbove hnear) container hcontainer
  have hrow := hinside.rowEnd
  have hcolumn := hinside.columnEnd
  obtain ⟨hrowStart, hrowEnd, hcolumnStart, hcolumnEnd⟩ := hreaches
  omega

/-- A call by the collection data of the node. -/
theorem getItem_eq (h : Serves client pre root) (hr : client.native.providers[i]? = some r)
    (row column : Int) :
    client.getItem r row column =
      match (client.snapshot.node i).collection with
      | none => .error .unsupported
      | some c =>
        if row < 0 ∨ column < 0 ∨ row.toNat ≥ c.rowCount ∨ column.toNat ≥ c.columnCount then
          .error .invalidArgument
        else
          match client.snapshot.nodes.zipIdx.find? (Query.isItemAt
            ⟨client.snapshot, client.native, (client.snapshot.node i).id⟩ row.toNat column.toNat) with
          | none => .ok none
          | some entry => .ok (Query.providerFor
              ⟨client.snapshot, client.native, (client.snapshot.node i).id⟩ entry.1.id) := by
  rw [Client.getItem, h.query_provider hr]
  show Query.getItem _ row column = _
  rw [Query.getItem, h.index_node (h.lt_of_provider hr)]
  rfl

/-- **The cells of a table.** -/
theorem getItem_spec (h : Serves client pre root) (hr : client.native.providers[i]? = some r)
    (row column : Int) :
    (∀ cell, client.getItem r row column = .ok (some cell) →
      ∃ k, client.native.providers[k]? = some cell ∧
        client.snapshot.CoversCell (client.snapshot.node i) (client.snapshot.node k) row column) ∧
    ((∃ k < client.snapshot.nodes.length,
        client.snapshot.CoversCell (client.snapshot.node i) (client.snapshot.node k) row column) →
      ∃ cell, client.getItem r row column = .ok (some cell)) := by
  have hi := h.lt_of_provider hr
  have hcall := h.getItem_eq hr row column
  cases hcontainer : (client.snapshot.node i).collection with
  | none =>
    rw [hcall, hcontainer]
    refine ⟨fun cell hcell => (by cases hcell), ?_⟩
    rintro ⟨k, -, -, hnear, -⟩
    have hsome := (mem_of_nearestAbove hnear).2.2
    rw [hcontainer] at hsome
    cases hsome
  | some container =>
  rw [hcall, hcontainer]
  dsimp only
  by_cases houtside : row < 0 ∨ column < 0 ∨ row.toNat ≥ container.rowCount ∨
      column.toNat ≥ container.columnCount
  · rw [if_pos houtside]
    refine ⟨fun cell hcell => (by cases hcell), ?_⟩
    rintro ⟨k, hk, hcovers⟩
    exact absurd houtside (h.inside_of_coversCell hk hcontainer hcovers)
  · rw [if_neg houtside]
    have hrow : ((row.toNat : Nat) : Int) = row := Int.toNat_of_nonneg (by omega)
    have hcolumn : ((column.toNat : Nat) : Int) = column := Int.toNat_of_nonneg (by omega)
    cases hfind : client.snapshot.nodes.zipIdx.find? (Query.isItemAt
        ⟨client.snapshot, client.native, (client.snapshot.node i).id⟩ row.toNat column.toNat) with
    | none =>
      refine ⟨fun cell hcell => (by cases hcell), ?_⟩
      rintro ⟨k, hk, hcovers⟩
      rw [← hrow, ← hcolumn] at hcovers
      exact absurd ((h.isItemAt_iff hi hk _ _).2 hcovers)
        (List.find?_eq_none.1 hfind _ (mem_zipIdx_nodes.2 ⟨hk, rfl⟩))
    | some entry =>
      obtain ⟨hk, hentry⟩ := mem_zipIdx_nodes.1 (List.mem_of_find?_eq_some hfind)
      generalize entry.2 = k at hk hentry
      subst hentry
      obtain ⟨cell, hcell⟩ := h.exists_provider hk
      dsimp only
      rw [h.providerFor_node hk, hcell]
      refine ⟨fun cell' heq => ?_, fun _ => ⟨cell, rfl⟩⟩
      obtain rfl := Option.some.inj (Except.ok.inj heq)
      have hcovers := (h.isItemAt_iff hi hk _ _).1 (List.find?_some hfind)
      rw [hrow, hcolumn] at hcovers
      exact ⟨k, hcell, hcovers⟩

end Serves

/-! ## Items by property -/

/-- The matching nodes below a container, in preorder. -/
def found (client : Client F) (pre : Nat → List Nat) (i : Nat) (id : PropertyId) (value : Variant F) :
    List Nat :=
  (pre i).tail.filter fun k => propertyMatches id value (client.snapshot.node k)

namespace Serves

variable {client : Client F} {pre : Nat → List Nat} {root i k : Nat} {r : ProviderRef}
  {id : PropertyId} {value : Variant F} {after : Option Nat} {start : Option ProviderRef}

/-- The ordinals follow the preorder. -/
theorem ordinal_lt (h : Serves client pre root) :
    (pre root).Pairwise fun a b =>
      (client.native.layout a).ordinal < (client.native.layout b).ordinal := by
  have hnodup := h.preorder.nodup h.checked.forest root
  refine (Lib.pairwise_idxOf hnodup).imp_of_mem fun {a b} ha hb hlt => ?_
  rwa [h.intervals.ordinal a ha, h.intervals.ordinal b hb]

theorem ordinal_lt_max (h : Serves client pre root) (hk : k < client.snapshot.nodes.length) :
    (client.native.layout k).ordinal < uint32Max := by
  have hmem := h.all k hk
  rw [h.intervals.ordinal k hmem]
  exact (List.idxOf_lt_length_of_mem hmem).trans
    ((h.checked.length_pre_le h.preorder).trans_lt h.size)

/-- The test of an item. -/
theorem isCandidate_iff (h : Serves client pre root) (hi : i < client.snapshot.nodes.length)
    (hk : k < client.snapshot.nodes.length) :
    Query.isCandidate ⟨client.snapshot, client.native, (client.snapshot.node i).id⟩ after id value
        (client.snapshot.node k, k) = true ↔
      (k ∈ (pre i).tail ∧ propertyMatches id value (client.snapshot.node k) = true) ∧
        ∀ ordinal ∈ after, ordinal < (client.native.layout k).ordinal := by
  have hbelow := h.intervals.descendant_iff h.checked h.preorder h.all
    (List.mem_map_of_mem (f := Node.id) (Checked.node_of_lt hk).2)
    (List.mem_map_of_mem (f := Node.id) (Checked.node_of_lt hi).2)
  rw [h.checked.find_node hi, h.checked.find_node hk, ← h.preorder.mem_tail_iff] at hbelow
  simp only [Query.isCandidate, Bool.and_eq_true, hbelow, Option.all_eq_true, decide_eq_true_eq]
  exact and_right_comm

/-- The scan finds the head of the candidates in preorder. -/
theorem best_eq (h : Serves client pre root) {sorted : List Nat}
    (hsorted : sorted.Pairwise fun a b =>
      (client.native.layout a).ordinal < (client.native.layout b).ordinal)
    (hmem : ∀ k, k ∈ sorted ↔ k < client.snapshot.nodes.length ∧ Query.isCandidate
      ⟨client.snapshot, client.native, (client.snapshot.node i).id⟩ after id value
        (client.snapshot.node k, k) = true) :
    (Query.best ⟨client.snapshot, client.native, (client.snapshot.node i).id⟩ after id value).1 =
      (sorted.head?.map fun k => (client.snapshot.node k).id).getD 0 := by
  let q : Query F := ⟨client.snapshot, client.native, (client.snapshot.node i).id⟩
  have hleast := Lib.foldl_least_sorted (q.isCandidate after id value)
    (fun entry => (client.native.layout entry.2).ordinal) (fun entry => entry.1.id) 0
    (fun entry hentry => h.ordinal_lt_max (mem_zipIdx_nodes.1 hentry).1)
    (List.pairwise_map.2 hsorted : (sorted.map fun k => (client.snapshot.node k, k)).Pairwise _)
    (fun entry => ?_)
  · rw [List.head?_map, Option.map_map] at hleast
    exact hleast
  · constructor
    · intro hin
      obtain ⟨k, hk, rfl⟩ := List.mem_map.1 hin
      obtain ⟨hlt, hcandidate⟩ := (hmem k).1 hk
      exact ⟨mem_zipIdx_nodes.2 ⟨hlt, rfl⟩, hcandidate⟩
    · rintro ⟨hentry, hcandidate⟩
      obtain ⟨hlt, heq⟩ := mem_zipIdx_nodes.1 hentry
      rw [heq] at hcandidate ⊢
      exact List.mem_map_of_mem (f := fun k => (client.snapshot.node k, k)) ((hmem _).2 ⟨hlt, hcandidate⟩)

theorem startOrdinal_provider (h : Serves client pre root) (hr : client.native.providers[k]? = some r)
    (container : NodeId) :
    Query.startOrdinal ⟨client.snapshot, client.native, container⟩ r =
      .ok (client.native.layout k).ordinal := by
  have hk := h.lt_of_provider hr
  unfold Query.startOrdinal
  dsimp only
  cases hfind : client.snapshot.nodes.zipIdx.find? fun entry =>
      Query.providerFor ⟨client.snapshot, client.native, container⟩ entry.1.id == some r with
  | none =>
    have hnot := List.find?_eq_none.1 hfind (client.snapshot.node k, k) (mem_zipIdx_nodes.2 ⟨hk, rfl⟩)
    rw [h.providerFor_node hk, hr] at hnot
    exact absurd (beq_self_eq_true (some r)) hnot
  | some entry =>
    obtain ⟨hlt, hentry⟩ := mem_zipIdx_nodes.1 (List.mem_of_find?_eq_some hfind)
    have hsame := List.find?_some hfind
    rw [beq_iff_eq, hentry, h.providerFor_node hlt] at hsame
    dsimp only
    rw [h.provider_inj hsame hr]

theorem found_sorted (h : Serves client pre root) (hi : i < client.snapshot.nodes.length)
    (id : PropertyId) (value : Variant F) :
    (found client pre i id value).Pairwise fun a b =>
      (client.native.layout a).ordinal < (client.native.layout b).ordinal := by
  obtain ⟨l₁, l₂, heq⟩ := h.preorder.split (h.all i hi)
  have hsub : (pre i).Sublist (pre root) := by
    rw [heq, List.append_assoc]
    exact (List.sublist_append_left _ _).trans (List.sublist_append_right _ _)
  exact h.ordinal_lt.sublist ((List.filter_sublist.trans (List.tail_sublist _)).trans hsub)

theorem lt_of_mem_found (h : Serves client pre root) (hk : k ∈ found client pre i id value) :
    k < client.snapshot.nodes.length := by
  have hbelow := h.preorder.mem_tail_iff.1 (List.mem_filter.1 hk).1
  obtain ⟨a, -, hchild⟩ := Relation.TransGen.tail'_iff.1 hbelow
  exact (h.checked.kid hchild).1

/-- A call finds the head of the items that are left. -/
theorem findItemByProperty_eq (h : Serves client pre root) (hr : client.native.providers[i]? = some r)
    (hcriterion : criterionFailure id value = none) (start : Option ProviderRef)
    (hstart : Query.startAfter ⟨client.snapshot, client.native, (client.snapshot.node i).id⟩ start =
      .ok after)
    (rest : List Nat) (hrest : rest.Sublist (found client pre i id value))
    (hmem : ∀ k, k ∈ rest ↔ k ∈ found client pre i id value ∧
      ∀ ordinal ∈ after, ordinal < (client.native.layout k).ordinal) :
    client.findItemByProperty r start id value =
      .ok (rest.head?.bind (client.native.providers[·]?)) := by
  have hi := h.lt_of_provider hr
  have hcandidates : ∀ k, k ∈ rest ↔ k < client.snapshot.nodes.length ∧ Query.isCandidate
      ⟨client.snapshot, client.native, (client.snapshot.node i).id⟩ after id value
        (client.snapshot.node k, k) = true := by
    intro k
    rw [hmem]
    constructor
    · rintro ⟨hin, hafter⟩
      have hk := h.lt_of_mem_found hin
      exact ⟨hk, (h.isCandidate_iff hi hk).2 ⟨List.mem_filter.1 hin, hafter⟩⟩
    · rintro ⟨hk, hcandidate⟩
      obtain ⟨hin, hafter⟩ := (h.isCandidate_iff hi hk).1 hcandidate
      exact ⟨List.mem_filter.2 hin, hafter⟩
  have hbest := h.best_eq ((h.found_sorted hi id value).sublist hrest) hcandidates
  rw [Client.findItemByProperty, h.query_provider hr]
  show Query.findItemByProperty _ start id value = _
  rw [Query.findItemByProperty, h.index_node hi]
  simp only [hcriterion, hstart, bind, Except.bind]
  show Except.ok (if (Query.best _ after id value).1 = 0 then none
    else Query.providerFor _ (Query.best _ after id value).1) = _
  rw [hbest]
  cases hhead : rest.head? with
  | none => rfl
  | some k =>
    have hk := h.lt_of_mem_found (hrest.subset (List.mem_of_head? hhead))
    rw [Option.map_some, Option.getD_some, if_neg (h.checked.id_ne_zero hk), h.providerFor_node hk]
    rfl

/-- **The items one by one**: `rest` is what is left when those before it have been found. -/
theorem items_rest (h : Serves client pre root) (hr : client.native.providers[i]? = some r)
    (hcriterion : criterionFailure id value = none) (done : List Nat) {rest : List Nat}
    (hfound : found client pre i id value = done ++ rest)
    (hcall : client.findItemByProperty r start id value =
      .ok (rest.head?.bind (client.native.providers[·]?))) {fuel : Nat} (hfuel : rest.length < fuel) :
    ∃ order, client.items r id value fuel start = some order ∧
      order.map some = rest.map (client.native.providers[·]?) := by
  induction rest generalizing done start fuel with
  | nil =>
    cases fuel with
    | zero => cases hfuel
    | succ fuel =>
      refine ⟨[], ?_, rfl⟩
      rw [Client.items, hcall]
      rfl
  | cons k rest ih =>
    cases fuel with
    | zero => cases hfuel
    | succ fuel =>
      have hi := h.lt_of_provider hr
      have hsorted := h.found_sorted hi id value
      have hat : (found client pre i id value)[done.length]? = some k := by simp [hfound]
      have hdrop : (found client pre i id value).drop (done.length + 1) = rest := by
        rw [hfound, List.append_cons, List.drop_left' (by simp)]
      obtain ⟨item, hitem⟩ := h.exists_provider (h.lt_of_mem_found (List.mem_of_getElem? hat))
      have hnext := h.findItemByProperty_eq hr hcriterion (some item)
        (congrArg (Except.map some) (h.startOrdinal_provider hitem _)) rest (hdrop ▸ List.drop_sublist _ _) (fun j => by
          rw [← hdrop, Lib.mem_drop_iff hsorted hat]
          simp)
      obtain ⟨order, horder, hmap⟩ := ih (done ++ [k]) (by simpa using hfound) hnext
        (Nat.lt_of_succ_lt_succ hfuel)
      refine ⟨item :: order, ?_, ?_⟩
      · rw [Client.items, hcall, List.head?_cons, Option.bind_some, hitem]
        dsimp only
        rw [horder]
        rfl
      · rw [List.map_cons, List.map_cons, hmap, hitem]

/-- The items from the first one on. -/
theorem items_spec (h : Serves client pre root) (hr : client.native.providers[i]? = some r)
    (hcriterion : criterionFailure id value = none) {fuel : Nat}
    (hfuel : client.snapshot.nodes.length ≤ fuel) :
    ∃ order, client.items r id value fuel none = some order ∧
      order.map some = (found client pre i id value).map (client.native.providers[·]?) := by
  have hi := h.lt_of_provider hr
  have hcall := h.findItemByProperty_eq hr hcriterion none rfl (found client pre i id value)
    (List.Sublist.refl _) (by simp)
  refine h.items_rest hr hcriterion [] rfl hcall (Nat.lt_of_lt_of_le ?_ hfuel)
  have hsplit : (pre i).length ≤ (pre root).length :=
    h.preorder.length_le_of_reachable (h.preorder.mem_iff.1 (h.all i hi))
  have hle := h.checked.length_pre_le h.preorder
  have hpos := List.length_pos_of_mem (h.preorder.self_mem i)
  have htail : (found client pre i id value).length ≤ (pre i).length - 1 :=
    (List.length_filter_le _ _).trans (List.length_tail ▸ Nat.le_refl _)
  show (found client pre i id value).length < _
  omega

end Serves

/-! ## Clients -/

/-- **What clients are answered**: the directions, the cells of a table and the items found one by one
are those of the ordered tree. -/
structure FollowsTree (client : Client F) (pre : Nat → List Nat) (root : Nat) : Prop where
  preorder : IsPreorder client.snapshot.kids pre
  all : (pre root).Perm (List.range client.snapshot.nodes.length)
  below : ∀ i < client.snapshot.nodes.length, ∀ k < client.snapshot.nodes.length,
    (k ∈ (pre i).tail ↔ Relation.TransGen client.snapshot.IsParent (client.snapshot.node i).id
      (client.snapshot.node k).id)
  providers : client.native.providers.length = client.snapshot.nodes.length ∧
    client.native.providers.Nodup
  visits : ∀ fuel, client.snapshot.nodes.length ≤ fuel →
    ∃ order, client.visits fuel client.native.providers[root]? = some order ∧
      order.map some = (pre root).map (client.native.providers[·]?)
  siblings : ∀ r ∈ client.native.providers, ∀ r' ∈ client.native.providers,
    (client.navigate r .nextSibling = .ok (some r') ↔
      client.navigate r' .previousSibling = .ok (some r))
  lastChild : ∀ r ∈ client.native.providers, ∀ last,
    (client.navigate r .lastChild = .ok (some last) ↔
      ∃ first, client.navigate r .firstChild = .ok (some first) ∧
        Relation.ReflTransGen (Next client) first last ∧
        client.navigate last .nextSibling = .ok none)
  parent : ∀ a, ∀ b ∈ client.snapshot.kids a, ∀ r, client.native.providers[b]? = some r →
    client.navigate r .parent = .ok client.native.providers[a]?
  items : ∀ i r, client.native.providers[i]? = some r → ∀ id value, criterionFailure id value = none →
    ∀ fuel, client.snapshot.nodes.length ≤ fuel →
      ∃ order, client.items r id value fuel none = some order ∧
        order.map some = (found client pre i id value).map (client.native.providers[·]?)
  cell : ∀ i r, client.native.providers[i]? = some r → ∀ row column,
      (∀ cell, client.getItem r row column = .ok (some cell) →
        ∃ k, client.native.providers[k]? = some cell ∧
          client.snapshot.CoversCell (client.snapshot.node i) (client.snapshot.node k) row column) ∧
      ((∃ k < client.snapshot.nodes.length,
          client.snapshot.CoversCell (client.snapshot.node i) (client.snapshot.node k) row column) →
        ∃ cell, client.getItem r row column = .ok (some cell))

theorem Serves.followsTree {client : Client F} {pre : Nat → List Nat} {root : Nat}
    (h : Serves client pre root) : FollowsTree client pre root := by
  have hnodup := h.preorder.nodup h.checked.forest root
  have hid : ∀ i < client.snapshot.nodes.length, (client.snapshot.node i).id ∈ client.snapshot.ids :=
    fun i hi => List.mem_map_of_mem (Checked.node_of_lt hi).2
  refine ⟨h.preorder, ?_, fun i hi k hk => ?_, ⟨h.length, h.distinct⟩, fun fuel hfuel => ?_,
    fun r hr r' hr' => h.nextSibling_iff hr hr', fun r hr last => h.lastChild_iff hr,
    fun a b hb r hr => h.parent_of_kid hb hr, fun i r hr id value hcriterion fuel hfuel => ?_,
    fun i r hr row column => h.getItem_spec hr row column⟩
  · refine (List.perm_ext_iff_of_nodup hnodup List.nodup_range).2 fun i => ?_
    rw [List.mem_range]
    exact ⟨h.checked.lt_of_mem_pre h.preorder, h.all i⟩
  · rw [h.preorder.mem_tail_iff, ← below_iff h.checked (hid k hk) (hid i hi), h.checked.find_node hi,
      h.checked.find_node hk]
  · exact h.visits_root ((h.checked.length_pre_le h.preorder).trans hfuel)
  · exact h.items_spec hr hcriterion hfuel

variable [DoubleOps F]

/-- A snapshot that was prepared is served as long as the activation runs. -/
theorem serves_of_prepared {limits : Limits} {snapshot : SnapshotView F} {pre : Nat → List Nat}
    {root : Nat} {native : UiaState} {heap : Heap} {o : Outcome F} {result : UiaSnapshot F}
    {t : UiaState × Heap} {tr : List (Lib.Transition (UiaState × Heap) (NativeAction F))}
    (hvalid : validated snapshot limits = true) (h : Checked snapshot root)
    (hpre : IsPreorder snapshot.kids pre) (hall : ∀ i < snapshot.nodes.length, i ∈ pre root)
    (hprepared : Prepared snapshot limits pre root native heap o) (hok : o.result = .ok result)
    (hlater : Lib.Trace (step limits) (o.native, o.heap) tr t) :
    Serves ⟨t.2, snapshot, result⟩ pre root := by
  obtain ⟨hreg, hkeeps⟩ := registered_trace hlater hprepared.registered
  obtain ⟨hintervals, hprovides⟩ := hprepared.laidOut result hok
  unfold validated at hvalid
  obtain ⟨r, hr, hrok⟩ := (Option.any_eq_true _ _).1 hvalid
  have hacceptable := acceptable_of_validate hr hrok
  refine ⟨h, hpre, hall, hintervals, hprovides.length, hprovides.distinct, fun i r hir => ?_,
    hacceptable.accepted.2.2, ?_⟩
  · have hi : i < snapshot.nodes.length := hprovides.length ▸ (List.getElem?_eq_some_iff.1 hir).1
    have hlookup := hkeeps _ _ (hprovides.lookup i _ r (Checked.node_of_lt hi).1 hir)
    exact hreg.owner ⟨_, r⟩ (List.of_mem_dlookup hlookup)
  · have hlimit : limits.maximumNodes ≤ 2 ^ 31 - 1 := by
      have hvalidLimits := hacceptable.admissible.valid
      simp only [validLimits, Bool.and_eq_true, List.all_cons, decide_eq_true_eq] at hvalidLimits
      exact hvalidLimits.1.1.1.2
    exact Nat.lt_of_le_of_lt (hacceptable.admissible.size.trans hlimit) (by decide)

/-- **Clients of a snapshot.** In every run of an activation, a validated snapshot whose preparation
succeeds answers by its tree from then on, whatever the run does afterwards. -/
theorem clients_followTree {limits : Limits} {heap : Heap} {s : UiaState × Heap}
    {tr : List (Lib.Transition (UiaState × Heap) (NativeAction F))}
    (hrun : Lib.Trace (step limits) ({}, heap) tr s) {snapshot : SnapshotView F}
    (hvalid : validated snapshot limits = true) (memory : Memory) :
    ∃ root pre o, snapshot.find snapshot.root = root ∧
      (∀ fuel, snapshot.nodes.length < fuel →
        prepareAccessibilitySnapshot snapshot limits memory fuel s.1 s.2 = some o) ∧
      ∀ result, o.result = .ok result → ∀ (tr' : List (Lib.Transition (UiaState × Heap) (NativeAction F)))
        (t : UiaState × Heap), Lib.Trace (step limits) (o.native, o.heap) tr' t →
          FollowsTree ⟨t.2, snapshot, result⟩ pre root := by
  obtain ⟨hreg, -⟩ := registered_trace hrun (registered_start heap)
  obtain ⟨root, pre, o, h, hpre, hall, hcall, hprepared⟩ := prepared_of_validated hvalid hreg memory
  exact ⟨root, pre, o, h.find_root, hcall, fun result hok tr' t hlater =>
    (serves_of_prepared hvalid h hpre hall hprepared hok hlater).followsTree⟩

/-- The table and its cell: a client asks the table for the cell, and the root for its items. -/
theorem clients_followTree_tableSnapshot :
    ∃ (client : Client Int) (pre : Nat → List Nat) (root : Nat), client.snapshot = tableSnapshot ∧
      FollowsTree client pre root ∧ (client.getItem 2 1 2).toOption = some (some 0) ∧
      client.items 1 .none (.i4 0) 3 none = some [2, 0] := by
  have hactions : (prepareAccessibilitySnapshot tableSnapshot {} (fun _ => none) 4 {} []).any
      (fun o => o.result.toOption.any fun result =>
        (Client.getItem ⟨o.heap, tableSnapshot, result⟩ 2 1 2).toOption = some (some 0) ∧
          Client.items ⟨o.heap, tableSnapshot, result⟩ 1 .none (.i4 0) 3 none = some [2, 0]) = true := by
    decide +kernel
  have hrun : Lib.Trace (step (F := Int) {}) ({}, []) [] ({}, []) := .nil _
  have hvalid : validated tableSnapshot {} = true := by decide +kernel
  obtain ⟨root, pre, o, -, hcall, hclients⟩ := clients_followTree hrun hvalid fun _ => none
  rw [hcall 4 (by decide), Option.any_some] at hactions
  obtain ⟨result, hresult, hanswers⟩ := (Option.any_eq_true _ _).1 hactions
  have hok : o.result = .ok result := by
    cases hresult' : o.result with
    | error status => simp [hresult', Except.toOption] at hresult
    | ok other =>
      rw [hresult'] at hresult
      exact congrArg Except.ok (Option.some.inj hresult)
  obtain ⟨hitem, hitems⟩ := of_decide_eq_true hanswers
  exact ⟨_, pre, root, rfl, hclients result hok [] _ (.nil _), hitem, hitems⟩

end Native

end Desktop

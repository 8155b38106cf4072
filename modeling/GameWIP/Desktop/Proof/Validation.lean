import GameWIP.Desktop.Proof.NodeChecks

/-!
# The validation accepts trees

`validate_acceptsTrees`: what `validate` accepts is one rooted ordered tree with its selections and cells
contained; a tree is rejected with none of the structural issues; and the validation ends.

The checks leave a forest of positions (`Checked.forest`). On it the breadth-first pass and the
traversal are those of `Lib.RootedTree`; `Walked` says what the traversal knows of the nodes done.
-/

namespace Desktop

open Lib (Yields Child Forest Pass IsPreorder)

variable {F : Type} {snapshot : SnapshotView F} {root : Nat}

/-! ## The forest of positions -/

namespace Checked

variable {a b i : Nat}

theorem node_of_lt (hi : i < snapshot.nodes.length) :
    snapshot.nodes[i]? = some (snapshot.node i) ∧ snapshot.node i ∈ snapshot.nodes := by
  have hat := List.getElem?_eq_getElem hi
  have hnode := SnapshotView.node_eq hat
  rw [hnode]
  exact ⟨hat, List.getElem_mem hi⟩

theorem kids_of_le (hi : snapshot.nodes.length ≤ i) : snapshot.kids i = [] := by
  simp [SnapshotView.kids, SnapshotView.node, List.getElem?_eq_none hi]

theorem lt_of_mem_kids (hb : b ∈ snapshot.kids a) : a < snapshot.nodes.length := by
  by_contra hle
  rw [kids_of_le (Nat.le_of_not_lt hle)] at hb
  cases hb

theorem find_node (h : Checked snapshot root) (hi : i < snapshot.nodes.length) :
    snapshot.find (snapshot.node i).id = i :=
  SnapshotView.find_eq h.distinct (node_of_lt hi).1

theorem find_lt (h : Checked snapshot root) {id : NodeId} (hid : id ∈ snapshot.ids) :
    snapshot.find id < snapshot.nodes.length ∧ (snapshot.node (snapshot.find id)).id = id := by
  obtain ⟨node, hat, hnode⟩ := SnapshotView.find_lt h.distinct hid
  rw [SnapshotView.node_eq hat]
  exact ⟨(List.getElem?_eq_some_iff.1 hat).1, hnode⟩

theorem id_ne_zero (h : Checked snapshot root) (hi : i < snapshot.nodes.length) :
    (snapshot.node i).id ≠ 0 := fun hzero =>
  h.nonzero (hzero ▸ List.mem_map_of_mem (node_of_lt hi).2)

theorem root_lt (h : Checked snapshot root) : root < snapshot.nodes.length :=
  h.find_root ▸ (h.find_lt h.known).1

/-- A child is a node that declares its parent. -/
theorem kid (h : Checked snapshot root) (hb : b ∈ snapshot.kids a) :
    b < snapshot.nodes.length ∧ (snapshot.node b).parent = (snapshot.node a).id ∧
      (snapshot.node b).id ∈ (snapshot.node a).children := by
  obtain ⟨child, hchild, rfl⟩ := List.mem_map.1 hb
  obtain ⟨hid, hparent⟩ := (h.linked a _ (node_of_lt (lt_of_mem_kids hb)).1).children child hchild
  obtain ⟨hlt, heq⟩ := h.find_lt hid
  exact ⟨hlt, hparent, heq.symm ▸ hchild⟩

theorem parent_of_mem_kids (h : Checked snapshot root) (hb : b ∈ snapshot.kids a) :
    snapshot.parent b = some a := by
  have ha := lt_of_mem_kids hb
  rw [SnapshotView.parent, (h.kid hb).2.1, if_neg (h.id_ne_zero ha), h.find_node ha]

theorem mem_kidsOf_of_mem_kids (hb : b ∈ snapshot.kids a) :
    b ∈ kidsOf snapshot snapshot.nodes :=
  List.mem_flatMap.2 ⟨_, (node_of_lt (lt_of_mem_kids hb)).2, hb⟩

theorem root_notMem_kids (h : Checked snapshot root) (a : Nat) : root ∉ snapshot.kids a :=
  fun hmem => h.root_notMem (mem_kidsOf_of_mem_kids hmem)

/-- The links of a parent go both ways. -/
theorem parent_iff (h : Checked snapshot root) (hb : b < snapshot.nodes.length) :
    snapshot.parent b = some a ↔ b ∈ snapshot.kids a := by
  refine ⟨fun hparent => ?_, h.parent_of_mem_kids⟩
  have hne : b ≠ root := by
    rintro rfl
    simp [SnapshotView.parent, h.root_parent] at hparent
  have hmem : b ∈ kidsOf snapshot snapshot.nodes := by
    have := h.count b hb hne
    exact List.count_pos_iff.1 (by omega)
  obtain ⟨node, hnode, hkid⟩ := List.mem_flatMap.1 hmem
  obtain ⟨c, hat⟩ := List.mem_iff_getElem?.1 hnode
  rw [← SnapshotView.node_eq hat] at hkid
  have hc := h.parent_of_mem_kids hkid
  obtain rfl := Option.some.inj (hc.symm.trans hparent)
  exact hkid

theorem kidsOf_nodup (h : Checked snapshot root) : (kidsOf snapshot snapshot.nodes).Nodup := by
  refine List.nodup_iff_count_le_one.2 fun x => ?_
  by_cases hx : x ∈ kidsOf snapshot snapshot.nodes
  · obtain ⟨node, hnode, hkid⟩ := List.mem_flatMap.1 hx
    obtain ⟨a, hat⟩ := List.mem_iff_getElem?.1 hnode
    rw [← SnapshotView.node_eq hat] at hkid
    have hne : x ≠ root := fun heq => h.root_notMem (heq ▸ hx)
    exact (h.count x (h.kid hkid).1 hne).le
  · rw [List.count_eq_zero.2 hx]
    omega

/-- **The positions form a forest.** -/
theorem forest (h : Checked snapshot root) : Forest snapshot.kids where
  nodup a := by
    by_cases ha : a < snapshot.nodes.length
    · exact (List.nodup_flatMap.1 h.kidsOf_nodup).1 _ (node_of_lt ha).2
    · rw [kids_of_le (Nat.le_of_not_lt ha)]
      exact List.nodup_nil
  unique a b c hca hcb :=
    Option.some.inj ((h.parent_of_mem_kids hca).symm.trans (h.parent_of_mem_kids hcb))

/-- The breadth-first pass. -/
theorem pass (h : Checked snapshot root) : ∃ work,
    (∀ fuel, snapshot.nodes.length < fuel →
      Lib.breadth snapshot.kids fuel [root] 0 (fun _ => false) = some (.ok work)) ∧
    Pass snapshot.kids (List.range snapshot.nodes.length) root work work := by
  have hkids : ∀ a ∈ List.range snapshot.nodes.length, ∀ b ∈ snapshot.kids a,
      b ∈ List.range snapshot.nodes.length := fun a _ b hb => List.mem_range.2 (h.kid hb).1
  have hfuel : (List.range snapshot.nodes.length).length < snapshot.nodes.length + 1 := by simp
  obtain ⟨work, hrun, hpass⟩ := Lib.breadth_spec h.forest h.root_notMem_kids hkids
    (List.mem_range.2 h.root_lt) hfuel
  exact ⟨work, fun fuel hfuel => Lib.breadth_mono hrun hfuel, hpass⟩

/-- A pass as long as the list of nodes visits them all. -/
theorem mem_of_length {work : List Nat}
    (hpass : Pass snapshot.kids (List.range snapshot.nodes.length) root work work)
    (hlength : work.length = snapshot.nodes.length) (hi : i < snapshot.nodes.length) : i ∈ work := by
  have hsub := List.subperm_of_subset hpass.nodup hpass.inside
  have hperm := hsub.perm_of_length_le (by simp [hlength])
  exact hperm.mem_iff.2 (List.mem_range.2 hi)

theorem exists_preorder (h : Checked snapshot root) {work : List Nat}
    (hpass : Pass snapshot.kids (List.range snapshot.nodes.length) root work work)
    (hlength : work.length = snapshot.nodes.length) : ∃ pre, IsPreorder snapshot.kids pre := by
  refine hpass.exists_preorder h.forest h.root_notMem_kids fun a => ?_
  by_cases ha : a < snapshot.nodes.length
  · exact .inl (mem_of_length hpass hlength ha)
  · exact .inr (kids_of_le (Nat.le_of_not_lt ha))

/-! ## Positions and identities -/

theorem lists_of_child (h : Checked snapshot root) (hab : Child snapshot.kids a b) :
    snapshot.Lists (snapshot.node a).id (snapshot.node b).id :=
  ⟨_, (node_of_lt (lt_of_mem_kids hab)).2, rfl, (h.kid hab).2.2⟩

theorem isParent_of_child (h : Checked snapshot root) (hab : Child snapshot.kids a b) :
    snapshot.IsParent (snapshot.node a).id (snapshot.node b).id :=
  ⟨_, (node_of_lt (h.kid hab).1).2, rfl, (h.kid hab).2.1⟩

theorem child_of_lists (h : Checked snapshot root) {a b : NodeId} (hab : snapshot.Lists a b) :
    Child snapshot.kids (snapshot.find a) (snapshot.find b) := by
  obtain ⟨node, hnode, rfl, hchild⟩ := hab
  obtain ⟨i, hat⟩ := List.mem_iff_getElem?.1 hnode
  rw [Child, SnapshotView.find_eq h.distinct hat, SnapshotView.kids, SnapshotView.node_eq hat]
  exact List.mem_map_of_mem hchild

/-- A snapshot that passes the checks and whose nodes are reachable is a tree. -/
theorem isTree (h : Checked snapshot root)
    (hreach : ∀ i < snapshot.nodes.length, Relation.ReflTransGen (Child snapshot.kids) root i) :
    snapshot.IsTree where
  nonzero := h.nonzero
  distinct := h.distinct
  root := by
    refine ⟨snapshot.node root, (node_of_lt h.root_lt).2, ?_, h.root_parent⟩
    rw [← h.find_root]
    exact (h.find_lt h.known).2
  listed node hnode hne := by
    obtain ⟨i, hat⟩ := List.mem_iff_getElem?.1 hnode
    obtain ⟨hi, -⟩ := List.getElem?_eq_some_iff.1 hat
    have hroot : i ≠ root := by
      rintro rfl
      refine hne ?_
      rw [← SnapshotView.node_eq hat, ← h.find_root]
      exact (h.find_lt h.known).2
    obtain ⟨hzero, hparent⟩ := (h.linked i node hat).parent hroot
    obtain ⟨hlt, hid⟩ := h.find_lt hparent
    have hkid : i ∈ snapshot.kids (snapshot.find node.parent) := by
      rw [← h.parent_iff hi, SnapshotView.parent, SnapshotView.node_eq hat, if_neg hzero]
    have hlisted := (h.kid hkid).2.2
    rw [SnapshotView.node_eq hat] at hlisted
    have hnodup : (snapshot.node (snapshot.find node.parent)).children.Nodup :=
      List.Nodup.of_map _ (h.forest.nodup _)
    exact ⟨_, (node_of_lt hlt).2, hid, List.count_eq_one_of_mem hnodup hlisted⟩
  declared a b hab := by
    have hchild := h.child_of_lists hab
    obtain ⟨node, hnode, rfl, hb⟩ := hab
    obtain ⟨i, hat⟩ := List.mem_iff_getElem?.1 hnode
    obtain ⟨hid, -⟩ := (h.linked i node hat).children b hb
    have hparent := h.isParent_of_child hchild
    rwa [(h.find_lt hid).2, (h.find_lt (List.mem_map_of_mem hnode)).2] at hparent
  reachable id hid := by
    obtain ⟨hlt, heq⟩ := h.find_lt hid
    have hlift := (hreach _ hlt).lift (fun i => (snapshot.node i).id) fun a b => h.lists_of_child
    rwa [Function.onFun_apply, ← h.find_root, (h.find_lt h.known).2, heq] at hlift
  resolves node hnode := by
    obtain ⟨i, hat⟩ := List.mem_iff_getElem?.1 hnode
    exact (h.linked i node hat).resolves

/-- In a tree the pass reaches every node. -/
theorem length_of_isTree (h : Checked snapshot root) (htree : snapshot.IsTree) {work : List Nat}
    (hpass : Pass snapshot.kids (List.range snapshot.nodes.length) root work work) :
    work.length = snapshot.nodes.length := by
  have hall : List.range snapshot.nodes.length ⊆ work := by
    intro i hi
    have hlt := List.mem_range.1 hi
    have hreach := htree.reachable _ (List.mem_map_of_mem (node_of_lt hlt).2)
    have hlift := hreach.lift snapshot.find fun a b => h.child_of_lists
    rw [Function.onFun_apply, h.find_root, h.find_node hlt] at hlift
    exact hpass.mem_of_reachable hlift
  have hle := hpass.length_le
  have hge := (List.subperm_of_subset List.nodup_range hall).length_le
  simp only [List.length_range] at hle hge
  omega

end Checked

/-! ## The traversal -/

/-- What the traversal knows once it has visited the nodes of a list. -/
structure Walked (snapshot : SnapshotView F) (done : List Nat) (t : Traversal) : Prop where
  traversal : t.traversal = done
  ordinal : ∀ x ∈ done, t.ordinal x = done.idxOf x
  grid : ∀ x ∈ done, ∀ g, snapshot.NearestGrid (snapshot.node x) g →
    t.grid x < snapshot.nodes.length ∧ snapshot.node (t.grid x) = g

theorem isGrid_iff (i : Nat) : isGrid snapshot i = true ↔ (snapshot.node i).IsGrid := by
  simp [isGrid, Node.IsGrid]

variable {done : List Nat} {t : Traversal} {i : Nat}

/-- The position of a declared parent. -/
theorem parent_of_id (h : Checked snapshot root) {parent : Node F} (hmem : parent ∈ snapshot.nodes)
    (hid : parent.id = (snapshot.node i).parent) :
    ∃ p, snapshot.parent i = some p ∧ p < snapshot.nodes.length ∧ snapshot.node p = parent := by
  obtain ⟨p, hat⟩ := List.mem_iff_getElem?.1 hmem
  have hne : (snapshot.node i).parent ≠ 0 := fun hzero =>
    h.nonzero (hzero ▸ hid ▸ List.mem_map_of_mem hmem)
  refine ⟨p, ?_, (List.getElem?_eq_some_iff.1 hat).1, SnapshotView.node_eq hat⟩
  rw [SnapshotView.parent, if_neg hne, ← hid, SnapshotView.find_eq h.distinct hat]

/-- The nearest table above a node, by its parent. -/
theorem grid_of_parent (h : Checked snapshot root) {g : Node F}
    (hg : snapshot.NearestGrid (snapshot.node i) g) :
    ∃ p, snapshot.parent i = some p ∧ p < snapshot.nodes.length ∧
      (isGrid snapshot p = true ∧ snapshot.node p = g ∨
        isGrid snapshot p = false ∧ snapshot.NearestGrid (snapshot.node p) g) := by
  cases hg with
  | parent hmem hid hgrid =>
    obtain ⟨p, hp, hlt, rfl⟩ := parent_of_id h hmem hid
    exact ⟨p, hp, hlt, .inl ⟨(isGrid_iff p).2 hgrid, rfl⟩⟩
  | above hmem hid hgrid hrest =>
    obtain ⟨p, hp, hlt, rfl⟩ := parent_of_id h hmem hid
    exact ⟨p, hp, hlt, .inr ⟨Bool.eq_false_iff.2 fun htrue => hgrid ((isGrid_iff p).1 htrue), hrest⟩⟩

/-- Visiting a node whose parent has been visited. -/
theorem Walked.visit (h : Checked snapshot root) (ht : Walked snapshot done t) (hnew : i ∉ done)
    (hparent : ∀ p, snapshot.parent i = some p → p ∈ done) :
    Walked snapshot (done ++ [i]) (visit snapshot t i) := by
  refine ⟨by simp [Desktop.visit, ht.traversal], fun x hx => ?_, fun x hx g hg => ?_⟩
  · rcases List.mem_append.1 hx with hx | hx
    · have hne : x ≠ i := fun heq => hnew (heq ▸ hx)
      rw [List.idxOf_append_of_mem hx, ← ht.ordinal x hx]
      simp [Desktop.visit, Function.update_of_ne hne]
    · obtain rfl := List.mem_singleton.1 hx
      rw [List.idxOf_append_of_notMem hnew]
      simp [Desktop.visit, ht.traversal]
  · rcases List.mem_append.1 hx with hx | hx
    · have hne : x ≠ i := fun heq => hnew (heq ▸ hx)
      have hsame : (Desktop.visit snapshot t i).grid x = t.grid x := by
        unfold Desktop.visit
        cases snapshot.parent i with
        | none => rfl
        | some p => exact Function.update_of_ne hne _ _
      rw [hsame]
      exact ht.grid x hx g hg
    · obtain rfl := List.mem_singleton.1 hx
      obtain ⟨p, hp, hlt, hcases⟩ := grid_of_parent h hg
      have hgrid : (Desktop.visit snapshot t x).grid x =
          if isGrid snapshot p then p else t.grid p := by
        simp [Desktop.visit, hp]
      rw [hgrid]
      rcases hcases with ⟨htrue, hnode⟩ | ⟨hfalse, hrest⟩
      · rw [if_pos htrue]
        exact ⟨hlt, hnode⟩
      · rw [if_neg (Bool.eq_false_iff.1 hfalse)]
        exact ht.grid p (hparent p hp) g hrest

theorem Checked.lt_of_mem_pre (h : Checked snapshot root) {pre : Nat → List Nat}
    (hpre : IsPreorder snapshot.kids pre) (hi : i ∈ pre root) : i < snapshot.nodes.length := by
  rcases Relation.ReflTransGen.cases_tail (hpre.mem_iff.1 hi) with hroot | ⟨a, -, hchild⟩
  · exact hroot ▸ h.root_lt
  · exact (h.kid hchild).1

/-- What a loop over the preorder keeps: each node is visited once, behind its parent. -/
theorem Checked.foldl_visit (h : Checked snapshot root) {pre : Nat → List Nat}
    (hpre : IsPreorder snapshot.kids pre) {S : Type*} {f : S → Nat → S} {I : List Nat → S → Prop}
    (hvisit : ∀ done t i, i < snapshot.nodes.length → i ∉ done →
      (∀ p, snapshot.parent i = some p → p ∈ done) → I done t → I (done ++ [i]) (f t i))
    {t : S} (ht : I [] t) : I (pre root) ((pre root).foldl f t) := by
  have hnodup := hpre.nodup h.forest root
  suffices hrun : ∀ done rest t, pre root = done ++ rest → I done t →
      I (pre root) (rest.foldl f t) from hrun [] _ t rfl ht
  intro done rest
  induction rest generalizing done with
  | nil =>
    intro t heq ht
    rw [List.append_nil] at heq
    exact heq ▸ ht
  | cons i rest ih =>
    intro t heq ht
    have hi : i ∈ pre root := by simp [heq]
    have hlt := h.lt_of_mem_pre hpre hi
    refine ih (done ++ [i]) _ (by simp [heq]) (hvisit done t i hlt ?_ (fun p hp => ?_) ht)
    · rw [heq] at hnodup
      exact fun hmem => (List.nodup_append.1 hnodup).2.2 i hmem i List.mem_cons_self rfl
    · have hkid := (h.parent_iff hlt).1 hp
      have hreach : p ∈ pre root := by
        rcases Relation.ReflTransGen.cases_tail (hpre.mem_iff.1 hi) with hroot | ⟨a, ha, hchild⟩
        · exact absurd (hroot ▸ hkid) (h.root_notMem_kids p)
        · obtain rfl := h.forest.unique p a i hkid hchild
          exact hpre.mem_iff.2 ha
      exact hpre.parent_before hnodup heq hkid hreach

/-- **The traversal** of the tree below the root. -/
theorem walked (h : Checked snapshot root) {pre : Nat → List Nat}
    (hpre : IsPreorder snapshot.kids pre) (t : Traversal) (ht : t.traversal = []) :
    Walked snapshot (pre root) ((pre root).foldl (visit snapshot) t) :=
  h.foldl_visit hpre (I := Walked snapshot)
    (fun _ _ _ _ hnew hparent ht => ht.visit h hnew hparent) ⟨ht, by simp, by simp⟩

theorem Checked.length_pre_le (h : Checked snapshot root) {pre : Nat → List Nat}
    (hpre : IsPreorder snapshot.kids pre) : (pre root).length ≤ snapshot.nodes.length := by
  have hsub : pre root ⊆ List.range snapshot.nodes.length := fun i hi =>
    List.mem_range.2 (h.lt_of_mem_pre hpre hi)
  have hsize := (List.subperm_of_subset (hpre.nodup h.forest root) hsub).length_le
  rwa [List.length_range] at hsize

/-- The traversal ends: it visits no more nodes than there are. -/
theorem Checked.walk_eq (h : Checked snapshot root) {pre : Nat → List Nat}
    (hpre : IsPreorder snapshot.kids pre) (t : Traversal) (fuel : Nat)
    (hfuel : snapshot.nodes.length < fuel) :
    Lib.walk snapshot.kids (visit snapshot) fuel [root] t =
      some ((pre root).foldl (visit snapshot) t) := by
  have hsize := h.length_pre_le hpre
  have hstack : [root].flatMap pre = pre root := by simp
  have hrun := Lib.walk_eq hpre (visit snapshot) (s := t) (hstack.symm ▸ hsize.trans hfuel.le)
  rwa [hstack] at hrun

/-! ## Containment -/

/-- What the last loop checks of a node. -/
structure Contained (snapshot : SnapshotView F) (t : Traversal) (subtree : Nat → Nat)
    (node : Node F) (i : Nat) : Prop where
  selection : ∀ selection, node.selection = some selection → ∀ id ∈ selection.selectedNodes,
    t.ordinal i < t.ordinal (snapshot.find id) ∧
      t.ordinal (snapshot.find id) < t.ordinal i + subtree i
  cell : node.IsCell → t.grid i < snapshot.nodes.length → ∀ item, node.collection = some item →
    item.Inside ((snapshot.node (t.grid i)).collection.getD {})

theorem checkContained_spec (t : Traversal) (subtree : Nat → Nat) (node : Node F) (i : Nat) :
    Yields (fun _ => Contained snapshot t subtree node i) (Spares snapshot)
      (checkContained snapshot t subtree (node, i)) := by
  have hselected : Yields (fun _ => ∀ selection, node.selection = some selection →
      ∀ id ∈ selection.selectedNodes, t.ordinal i < t.ordinal (snapshot.find id) ∧
        t.ordinal (snapshot.find id) < t.ordinal i + subtree i) (Spares snapshot)
      (checkSelected snapshot t subtree node i) := by
    unfold checkSelected
    split
    · rename_i hnone
      simp [Yields, hnone]
    · rename_i selection hsome
      refine (Yields.forM (P := fun id => t.ordinal i < t.ordinal (snapshot.find id) ∧
        t.ordinal (snapshot.find id) < t.ordinal i + subtree i) fun id _ => ?_).imp fun _ hall => ?_
      · dsimp only [failIf]
        split
        · exact fail_spares _ _ (by decide)
        · rename_i hfalse
          show t.ordinal i < t.ordinal (snapshot.find id) ∧ _
          simpa using hfalse
      · intro selection' heq
        obtain rfl := Option.some.inj (hsome.symm.trans heq)
        exact hall
  have hcell : Yields (fun _ => node.IsCell → t.grid i < snapshot.nodes.length →
      ∀ item, node.collection = some item →
        item.Inside ((snapshot.node (t.grid i)).collection.getD {})) (Spares snapshot)
      (checkCell snapshot t node i) := by
    unfold checkCell
    split
    · rename_i hnone
      simp [Yields, hnone]
    · rename_i item hsome
      split
      · dsimp only [failIf]
        split
        · exact fail_spares _ _ (by decide)
        · rename_i hfalse
          intro _ _ item' heq
          obtain rfl := Option.some.inj (hsome.symm.trans heq)
          simp at hfalse
          constructor <;> omega
      · rename_i hother
        intro hcell hgrid
        simp [hgrid] at hother
        rcases hcell with hrole | hrole | hrole <;> simp [hrole] at hother
  exact hselected.bind fun _ hsel => hcell.imp fun _ hin => ⟨hsel, hin⟩

/-- The checks of the last loop are containment in the tree. -/
theorem contained_of_walked (h : Checked snapshot root) {pre : Nat → List Nat}
    (hpre : IsPreorder snapshot.kids pre)
    (hall : ∀ i < snapshot.nodes.length, i ∈ pre root) {t : Traversal}
    (ht : Walked snapshot (pre root) t)
    (hcontained : ∀ node i, snapshot.nodes[i]? = some node →
      Contained snapshot t (Lib.addSizes snapshot.parent t.traversal fun _ => 1) node i) :
    snapshot.SelectsBelow ∧ snapshot.CellsInside := by
  have hinside : ∀ i ∈ pre root, i < snapshot.nodes.length := fun i => h.lt_of_mem_pre hpre
  constructor
  · intro node hnode selection hsome id hid
    obtain ⟨i, hat⟩ := List.mem_iff_getElem?.1 hnode
    have hi := hall i (List.getElem?_eq_some_iff.1 hat).1
    have hknown := (h.clean node hnode).selected selection hsome id hid
    obtain ⟨hlt, heq⟩ := h.find_lt hknown
    obtain ⟨hlow, hhigh⟩ := (hcontained node i hat).selection selection hsome id hid
    rw [ht.traversal, hpre.addSizes_eq h.forest (fun a b hb => h.parent_iff (hinside b hb)) hi,
      ht.ordinal _ (hall _ hlt), ht.ordinal _ hi] at hhigh
    rw [ht.ordinal _ (hall _ hlt), ht.ordinal _ hi] at hlow
    have hbelow := hpre.below_of_idxOf (hpre.nodup h.forest root) hi hlow hhigh
    have hlift := hbelow.lift (fun i => (snapshot.node i).id) fun a b => h.isParent_of_child
    rw [Function.onFun_apply, SnapshotView.node_eq hat, heq] at hlift
    exact ⟨hknown, hlift⟩
  · intro node hnode hcell item hitem grid hgrid container hcontainer
    obtain ⟨i, hat⟩ := List.mem_iff_getElem?.1 hnode
    have hi := hall i (List.getElem?_eq_some_iff.1 hat).1
    rw [← SnapshotView.node_eq hat] at hgrid
    obtain ⟨hlt, rfl⟩ := ht.grid i hi grid hgrid
    have hin := (hcontained node i hat).cell hcell hlt item hitem
    rwa [hcontainer] at hin

/-! ## The whole validation -/

variable [DoubleOps F] {limits : Limits}

theorem validate_mono {fuel fuel' : Nat} {r : ValidationResult}
    (h : validate snapshot limits fuel = some r) (hle : fuel ≤ fuel') :
    validate snapshot limits fuel' = some r := by
  unfold validate at h ⊢
  cases hnodes : checkNodes snapshot limits with
  | error result => simpa only [hnodes] using h
  | ok root =>
    simp only [hnodes] at h ⊢
    cases hbreadth : Lib.breadth snapshot.kids fuel [root] 0 (fun _ => false) with
    | none => simp [hbreadth] at h
    | some r =>
      rw [Lib.breadth_mono hbreadth hle]
      rw [hbreadth] at h
      cases r with
      | error i => exact h
      | ok work =>
        dsimp only at h ⊢
        by_cases hlength : work.length ≠ snapshot.nodes.length
        · rwa [if_pos hlength] at h ⊢
        · rw [if_neg hlength] at h ⊢
          cases hwalk : Lib.walk snapshot.kids (visit snapshot) fuel [root]
              { grid := fun _ => snapshot.nodes.length } with
          | none => simp [hwalk] at h
          | some t =>
            rw [Lib.walk_mono hwalk hle]
            rwa [hwalk] at h

/-- What is accepted. -/
def Accepted (snapshot : SnapshotView F) : Prop :=
  snapshot.IsTree ∧ snapshot.SelectsBelow ∧ snapshot.CellsInside

/-- What the traversal leaves when it takes the nodes in an order. -/
def traversed (snapshot : SnapshotView F) (order : List Nat) : Traversal :=
  order.foldl (visit snapshot) { grid := fun _ => snapshot.nodes.length }

/-- The checks of the last loop on a traversal. -/
def containedChecks (snapshot : SnapshotView F) (t : Traversal) : Check PUnit :=
  snapshot.nodes.zipIdx.forM
    (checkContained snapshot t (Lib.addSizes snapshot.parent t.traversal fun _ => 1))

/-- When the breadth-first pass has reached every node, the validation ends with the last loop. -/
theorem Checked.validate_eq (h : Checked snapshot root) (hnodes : checkNodes snapshot limits = .ok root)
    {work : List Nat} (hbreadth : ∀ fuel, snapshot.nodes.length < fuel →
      Lib.breadth snapshot.kids fuel [root] 0 (fun _ => false) = some (.ok work))
    (hpass : Pass snapshot.kids (List.range snapshot.nodes.length) root work work)
    (hlength : work.length = snapshot.nodes.length) :
    ∃ pre, IsPreorder snapshot.kids pre ∧ (∀ i < snapshot.nodes.length, i ∈ pre root) ∧
      ∀ fuel, snapshot.nodes.length < fuel → Desktop.validate snapshot limits fuel =
        match containedChecks snapshot (traversed snapshot (pre root)) with
        | .error result => some result
        | .ok _ => some {} := by
  obtain ⟨pre, hpre⟩ := h.exists_preorder hpass hlength
  refine ⟨pre, hpre, fun i hi => hpre.mem_iff.2 ?_, fun fuel hfuel => ?_⟩
  · exact hpass.reachable_of_mem (mem_of_length hpass hlength hi)
  · unfold Desktop.validate
    simp only [hnodes, hbreadth fuel hfuel, hlength, ne_eq, not_true_eq_false, if_false]
    have hfinished : Lib.walk snapshot.kids (visit snapshot) fuel [root]
        { grid := fun _ => snapshot.nodes.length } = some (traversed snapshot (pre root)) :=
      h.walk_eq hpre _ fuel hfuel
    rw [hfinished]
    all_goals rfl

/-- The passes end with a result that fails unless the snapshot is a contained tree. -/
theorem Checked.validate (h : Checked snapshot root) (hnodes : checkNodes snapshot limits = .ok root) :
    ∃ r, (∀ fuel, snapshot.nodes.length < fuel → Desktop.validate snapshot limits fuel = some r) ∧
      (r.ok = true → Accepted snapshot) ∧ (snapshot.IsTree → r.issue ∉ structural) := by
  obtain ⟨work, hbreadth, hpass⟩ := h.pass
  by_cases hlength : work.length = snapshot.nodes.length
  · obtain ⟨pre, hpre, hall, hresult⟩ := h.validate_eq hnodes hbreadth hpass hlength
    have htree := h.isTree fun i hi => hpre.mem_iff.1 (hall i hi)
    have hwalked : Walked snapshot (pre root) (traversed snapshot (pre root)) := walked h hpre _ rfl
    have hloop : Yields (fun _ => ∀ entry ∈ snapshot.nodes.zipIdx, Contained snapshot
        (traversed snapshot (pre root)) (Lib.addSizes snapshot.parent
          (traversed snapshot (pre root)).traversal fun _ => 1) entry.1 entry.2) (Spares snapshot)
        (containedChecks snapshot (traversed snapshot (pre root))) :=
      Yields.forM fun entry _ => checkContained_spec _ _ entry.1 entry.2
    cases hcontained : containedChecks snapshot (traversed snapshot (pre root)) with
    | error result =>
      rw [hcontained] at hresult hloop
      exact ⟨result, hresult, fun hok => absurd (hloop.1.symm.trans hok) (by decide), hloop.2⟩
    | ok u =>
      rw [hcontained] at hresult hloop
      have hin := contained_of_walked h hpre hall hwalked fun node i hat =>
        hloop (node, i) (List.mem_zipIdx_iff_getElem?.2 hat)
      exact ⟨{}, hresult, fun _ => ⟨htree, hin⟩, fun _ => by decide⟩
  · refine ⟨fail .unreachableNode 0 0, fun fuel hfuel => ?_, fun hok => ?_, fun htree => ?_⟩
    · unfold Desktop.validate
      simp only [hnodes, hbreadth fuel hfuel, ne_eq, hlength, not_false_eq_true, if_true]
    · rw [fail_ok] at hok
      cases hok
    · exact absurd (h.length_of_isTree htree hpass) hlength

theorem validate_cases (snapshot : SnapshotView F) (limits : Limits) :
    ∃ r, (∀ fuel, snapshot.nodes.length < fuel → validate snapshot limits fuel = some r) ∧
      (r.ok = true → Accepted snapshot) ∧ (snapshot.IsTree → r.issue ∉ structural) := by
  have hspec : Yields (Checked snapshot) (Spares snapshot) (checkNodes snapshot limits) :=
    checkNodes_spec
  cases hnodes : checkNodes snapshot limits with
  | ok root =>
    rw [hnodes] at hspec
    exact hspec.validate hnodes
  | error result =>
    rw [hnodes] at hspec
    refine ⟨result, fun fuel _ => ?_, fun hok => absurd (hspec.1.symm.trans hok) (by decide), hspec.2⟩
    unfold validate
    rw [hnodes]

theorem checked_of_validate {fuel : Nat} {r : ValidationResult}
    (h : validate snapshot limits fuel = some r) (hok : r.ok = true) :
    ∃ root, Checked snapshot root := by
  have hspec : Yields (Checked snapshot) (Spares snapshot) (checkNodes snapshot limits) :=
    checkNodes_spec
  unfold validate at h
  cases hnodes : checkNodes snapshot limits with
  | ok root =>
    rw [hnodes] at hspec
    exact ⟨root, hspec⟩
  | error result =>
    rw [hnodes] at h hspec
    obtain rfl := Option.some.inj h
    exact absurd (hspec.1.symm.trans hok) (by decide)

theorem validate_isTree {fuel : Nat} {r : ValidationResult}
    (h : validate snapshot limits fuel = some r) (hok : r.ok = true) : snapshot.IsTree := by
  obtain ⟨r', hrun, haccepted, -⟩ := validate_cases snapshot limits
  have hmono := validate_mono h (Nat.le_max_left fuel (snapshot.nodes.length + 1))
  rw [hrun _ (by omega)] at hmono
  obtain rfl := Option.some.inj hmono
  exact (haccepted hok).1

/-- The positions of an accepted snapshot in preorder. -/
theorem preorder_of_validate {fuel : Nat} {r : ValidationResult}
    (h : validate snapshot limits fuel = some r) (hok : r.ok = true) :
    ∃ root pre, Checked snapshot root ∧ IsPreorder snapshot.kids pre ∧
      ∀ i < snapshot.nodes.length, i ∈ pre root := by
  obtain ⟨root, hchecked⟩ := checked_of_validate h hok
  obtain ⟨work, -, hpass⟩ := hchecked.pass
  have hlength := hchecked.length_of_isTree (validate_isTree h hok) hpass
  obtain ⟨pre, hpre⟩ := hchecked.exists_preorder hpass hlength
  exact ⟨root, pre, hchecked, hpre, fun i hi =>
    hpre.mem_iff.2 (hpass.reachable_of_mem (Checked.mem_of_length hpass hlength hi))⟩

/-- **The validation** accepts only contained trees, rejects no tree for its shape, and ends. -/
theorem validate_acceptsTrees (snapshot : SnapshotView F) (limits : Limits) :
    (∀ fuel r, validate snapshot limits fuel = some r → r.ok = true →
      snapshot.IsTree ∧ snapshot.SelectsBelow ∧ snapshot.CellsInside) ∧
    (∀ fuel r, snapshot.IsTree → validate snapshot limits fuel = some r → r.issue ≠ .duplicateNodeId ∧
      r.issue ≠ .parentMismatch ∧ r.issue ≠ .cycle ∧ r.issue ≠ .unreachableNode ∧
      r.issue ≠ .missingNode) ∧
    ∃ r, ∀ fuel, snapshot.nodes.length < fuel → validate snapshot limits fuel = some r := by
  obtain ⟨r, hrun, haccepted, hspares⟩ := validate_cases snapshot limits
  have hsame : ∀ fuel r', validate snapshot limits fuel = some r' → r' = r := by
    intro fuel r' h
    have hmono := validate_mono h (Nat.le_max_left fuel (snapshot.nodes.length + 1))
    rw [hrun _ (by omega)] at hmono
    exact (Option.some.inj hmono).symm
  refine ⟨fun fuel r' h hok => ?_, fun fuel r' htree h => ?_, r, hrun⟩
  · exact haccepted (hsame fuel r' h ▸ hok)
  · have hnot := hspares htree
    rw [← hsame fuel r' h] at hnot
    simpa [structural] using hnot

/-- A table with a cell, stored in front of the root; the table selects the cell. -/
def tableSnapshot : SnapshotView Int where
  generation := 1
  root := 10
  nodes := [
    { id := 12, parent := 11, role := .cell, states := { flags := 0x180 },
      collection := some { rowIndex := 1, columnIndex := 2 } },
    { id := 10, children := [11],
      extensions := [{ namespaceName := [97], name := [98], value := .list [.nodeReference 12] }] },
    { id := 11, parent := 10, role := .table, children := [12],
      relations := [{ targets := [10] }],
      selection := some { selectedNodes := [12], activeNode := 12 },
      collection := some { rowCount := 2, columnCount := 3 } }]

theorem validate_acceptsTrees_tableSnapshot :
    tableSnapshot.IsTree ∧ tableSnapshot.SelectsBelow ∧ tableSnapshot.CellsInside :=
  (validate_acceptsTrees tableSnapshot {}).1 10 {} (by decide +kernel) (by decide)

end Desktop

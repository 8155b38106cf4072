import GameWIP.Desktop.Validation
import GameWIP.Desktop.Tree
import GameWIP.Lib.EarlyReturn

/-!
# The checks of the nodes

`checkNodes_spec`: a snapshot that passes the checks of its nodes has distinct identities, linked
nodes and, but for the root, each node listed once; and a tree fails none of them for its shape.

The parts: the sorted index (`find_eq`), the checks of one node (`checkNode_spec`), what holds of the
nodes of a tree (`SnapshotView.IsTree.linked`, `kidsOf_nodup`), and the loop over the nodes
(`scan_spec`).
-/

namespace Desktop

open Lib (Yields SortedBy)

variable {F : Type} {snapshot : SnapshotView F}

/-! ## The index -/

theorem nodeId_strictTotal : Lib.StrictTotal fun a b : NodeId => decide (a < b) := by
  have hlt : ∀ a b : NodeId, decide (a < b) = decide (a.toNat < b.toNat) := by
    simp [UInt64.lt_iff_toNat_lt]
  exact .of_rank hlt fun _ _ => UInt64.toNat.inj

namespace SnapshotView

theorem pairLe_iff (a b : NodeId × Nat) :
    pairLe a b ↔ a.1.toNat < b.1.toNat ∨ a.1.toNat = b.1.toNat ∧ a.2 ≤ b.2 := by
  simp [pairLe, UInt64.lt_iff_toNat_lt, ← UInt64.toNat_inj]

instance : IsTrans (NodeId × Nat) pairLe where
  trans a b c hab hbc := by
    rw [pairLe_iff] at hab hbc ⊢
    omega

instance : Std.Total (pairLe : NodeId × Nat → NodeId × Nat → Prop) where
  total a b := by
    rw [pairLe_iff, pairLe_iff]
    omega

theorem pairwise_index : snapshot.index.Pairwise pairLe := List.pairwise_insertionSort _ _

theorem mem_index {id : NodeId} {i : Nat} :
    (id, i) ∈ snapshot.index ↔ ∃ node, snapshot.nodes[i]? = some node ∧ node.id = id := by
  simp only [index, List.mem_insertionSort, List.mem_map, Prod.mk.injEq, Prod.exists,
    List.mem_zipIdx_iff_getElem?]
  constructor
  · rintro ⟨node, j, hat, hid, rfl⟩
    exact ⟨node, hat, hid⟩
  · rintro ⟨node, hat, hid⟩
    exact ⟨node, i, hat, hid, rfl⟩

theorem index_fst_perm (snapshot : SnapshotView F) :
    (snapshot.index.map Prod.fst).Perm snapshot.ids := by
  refine ((List.perm_insertionSort pairLe _).map Prod.fst).trans (List.Perm.of_eq ?_)
  rw [List.map_map, ids]
  show snapshot.nodes.zipIdx.map (Node.id ∘ Prod.fst) = _
  rw [← List.map_map, List.zipIdx_map_fst]

theorem sortedBy_index (h : snapshot.ids.Nodup) :
    SortedBy (fun a b => decide (a < b)) Prod.fst snapshot.index := by
  have hnodup : (snapshot.index.map Prod.fst).Nodup := (index_fst_perm snapshot).nodup_iff.2 h
  refine (pairwise_index.and (List.pairwise_map.1 hnodup)).imp fun ⟨hle, hne⟩ => ?_
  rcases hle with hlt | ⟨heq, -⟩
  · exact decide_eq_true hlt
  · exact absurd heq hne

/-- The position of a node. -/
theorem find_eq (h : snapshot.ids.Nodup) {i : Nat} {node : Node F}
    (hat : snapshot.nodes[i]? = some node) : snapshot.find node.id = i := by
  have hmem : (node.id, i) ∈ snapshot.index := mem_index.2 ⟨node, hat, rfl⟩
  unfold find
  rcases (sortedBy_index h).search_cases nodeId_strictTotal node.id with
    ⟨l₁, e, l₂, heq, hs, hk, -, -⟩ | ⟨l₁, l₂, heq, hs, h₁, h₂⟩
  · have he : e ∈ snapshot.index := by simp [heq]
    have hsame : e = (node.id, i) := (sortedBy_index h).eq_of_key nodeId_strictTotal he hmem hk
    rw [hs, heq]
    simp [hsame]
  · exfalso
    rw [heq] at hmem
    rcases List.mem_append.1 hmem with hmem | hmem
    · exact SortedBy.ne_of_lt nodeId_strictTotal (h₁ _ hmem) rfl
    · exact SortedBy.ne_of_lt nodeId_strictTotal (h₂ _ hmem) rfl

theorem find_of_notMem {id : NodeId} (h : id ∉ snapshot.ids) :
    snapshot.find id = snapshot.nodes.length := by
  unfold find
  split
  · rename_i entry hat
    refine if_neg fun heq => h ?_
    obtain ⟨node, hnode, hid⟩ := mem_index.1 (List.mem_of_getElem? hat)
    exact List.mem_map.2 ⟨node, List.mem_of_getElem? hnode, hid.trans heq⟩
  · rfl

theorem find_lt (h : snapshot.ids.Nodup) {id : NodeId} (hid : id ∈ snapshot.ids) :
    ∃ node, snapshot.nodes[snapshot.find id]? = some node ∧ node.id = id := by
  obtain ⟨node, hnode, rfl⟩ := List.mem_map.1 hid
  obtain ⟨i, hat⟩ := List.mem_iff_getElem?.1 hnode
  exact ⟨node, by rw [find_eq h hat, hat], rfl⟩

theorem isKnown_iff (h : snapshot.ids.Nodup) (id : NodeId) :
    snapshot.isKnown id = true ↔ id ∈ snapshot.ids := by
  simp only [isKnown, decide_eq_true_eq]
  constructor
  · intro hfind
    by_contra hid
    exact hfind (find_of_notMem hid)
  · intro hid
    obtain ⟨node, hat, -⟩ := find_lt h hid
    exact Nat.ne_of_lt (List.getElem?_eq_some_iff.1 hat).1

theorem node_eq {i : Nat} {node : Node F} (hat : snapshot.nodes[i]? = some node) :
    snapshot.node i = node := by
  simp [SnapshotView.node, hat]

end SnapshotView

/-! ## The checks -/

section Checks

/-- The issues of the shape of the tree. -/
def structural : List ValidationIssue :=
  [.duplicateNodeId, .parentMismatch, .cycle, .unreachableNode, .missingNode]

/-- A rejection that no tree meets. -/
def Spares (snapshot : SnapshotView F) (result : ValidationResult) : Prop :=
  result.ok = false ∧ (snapshot.IsTree → result.issue ∉ structural)

/-- A check that says nothing about the shape. -/
abbrev Plain {α : Type} (x : Check α) : Prop :=
  Yields (fun _ => True) (fun result => result.ok = false ∧ result.issue ∉ structural) x

theorem yields_spares {α : Type} {I : α → Prop} {x : Check α}
    (h : Yields I (fun result => result.ok = false ∧ result.issue ∉ structural) x) :
    Yields I (Spares snapshot) x :=
  h.mono fun _ ⟨hok, hissue⟩ => ⟨hok, fun _ => hissue⟩

theorem Plain.spares {α : Type} {x : Check α} (h : Plain x) :
    Yields (fun _ => True) (Spares snapshot) x :=
  yields_spares h

theorem fail_ok (issue : ValidationIssue) (node : NodeId) (index : Nat) :
    (fail issue node index).ok = false := by
  unfold fail
  split <;> rfl

theorem fail_spares {issue : ValidationIssue} (node : NodeId) (index : Nat)
    (h : issue ∉ structural) : Spares snapshot (fail issue node index) :=
  ⟨fail_ok issue node index, fun _ => h⟩

theorem failIf_plain (c : Bool) {issue : ValidationIssue} {node : NodeId} {index : Nat}
    (h : issue ∉ structural) : Plain (failIf c (fail issue node index)) := by
  unfold failIf
  split
  · exact ⟨fail_ok issue node index, h⟩
  · trivial

/-- A check that fails exactly when something does not hold that holds of a tree. -/
theorem failIf_spares {P : Prop} {c : Bool} {issue : ValidationIssue} {node : NodeId} {index : Nat}
    (hc : c = false ↔ P) (htree : snapshot.IsTree → P) :
    Yields (fun _ => P) (Spares snapshot) (failIf c (fail issue node index)) := by
  unfold failIf
  split
  · rename_i htrue
    refine ⟨fail_ok issue node index, fun h => ?_⟩
    rw [hc.2 (htree h)] at htrue
    cases htrue
  · rename_i hfalse
    exact hc.1 (Bool.eq_false_iff.2 hfalse)

/-- A check of something a tree need not have. -/
theorem failIf_checked (c : Bool) {issue : ValidationIssue} {node : NodeId} {index : Nat}
    (h : issue ∉ structural) :
    Yields (fun _ => c = false) (Spares snapshot) (failIf c (fail issue node index)) := by
  unfold failIf
  split
  · exact fail_spares _ _ h
  · rename_i hfalse
    exact Bool.eq_false_iff.2 hfalse

theorem withNode_yields {α : Type} {I : α → Prop} {node : NodeId} {index : Nat}
    {x : Except ValidationIssue α} (h : Yields I (· ∉ structural) x) :
    Yields I (fun result => result.ok = false ∧ result.issue ∉ structural) (withNode node index x) := by
  cases x with
  | ok a => exact h
  | error issue => exact ⟨fail_ok issue node index, h⟩

variable {limits : Limits}

theorem Budget.string_spec (value : List UInt8) (budget : Budget) :
    Yields (fun _ => validUtf8 value = true ∧ value.length ≤ limits.maximumTextBytesPerNode)
      (· ∉ structural) (budget.string limits value) := by
  unfold Budget.string
  split
  · exact (by decide : ValidationIssue.limitExceeded ∉ structural)
  · rename_i hsize
    split
    · exact (by decide : ValidationIssue.invalidText ∉ structural)
    · rename_i hvalid
      simp only [Bool.or_eq_true, decide_eq_true_eq, not_or, not_lt] at hsize
      exact ⟨by simpa using hvalid, hsize.1.1.1⟩

theorem Budget.enter_plain (depth : Nat) (budget : Budget) :
    Yields (fun _ => True) (· ∉ structural) (budget.enter limits depth) := by
  unfold Budget.enter
  dsimp only
  split
  · exact (by decide : ValidationIssue.limitExceeded ∉ structural)
  · trivial

theorem validLimits_text (h : validLimits limits = true) :
    limits.maximumTextBytesPerNode < 2 ^ 31 := by
  simp [validLimits] at h
  omega

theorem strings_spec (node : NodeId) (index : Nat) (values : List (List UInt8)) (budget : Budget) :
    Yields (fun _ => ∀ value ∈ values,
        validUtf8 value = true ∧ value.length ≤ limits.maximumTextBytesPerNode)
      (fun result => result.ok = false ∧ result.issue ∉ structural)
      (strings limits node index values budget) := by
  refine Yields.foldlM_prefix (I := fun (done : List (List UInt8)) _ =>
    ∀ value ∈ done, validUtf8 value = true ∧ value.length ≤ limits.maximumTextBytesPerNode) ?_
      (by simp)
  intro done value rest budget _ hdone
  refine (withNode_yields (Budget.string_spec value budget)).imp fun _ hvalid other hother => ?_
  rcases List.mem_append.1 hother with hother | hother
  · exact hdone other hother
  · exact List.mem_singleton.1 hother ▸ hvalid

theorem strings_plain (node : NodeId) (index : Nat) (values : List (List UInt8)) (budget : Budget) :
    Plain (strings limits node index values budget) :=
  (strings_spec node index values budget).imp fun _ _ => trivial

theorem checkFlags_plain (node : Node F) (i focused : Nat) : Plain (checkFlags node i focused) := by
  unfold checkFlags
  refine (failIf_plain _ (by decide)).bind fun _ _ => ?_
  refine (failIf_plain _ (by decide)).bind fun _ _ => ?_
  refine (failIf_plain _ (by decide)).bind fun _ _ => ?_
  refine (failIf_plain _ (by decide)).bind fun _ _ => ?_
  exact (failIf_plain _ (by decide)).bind fun _ _ => trivial

theorem checkStrings_plain (node : Node F) (i : Nat) (budget : Budget) :
    Plain (checkStrings limits node i budget) := by
  refine (strings_plain _ _ _ _).bind fun budget _ => ?_
  exact (failIf_plain _ (by decide)).bind fun _ _ => trivial

theorem checkCollection_plain (node : Node F) (i : Nat) : Plain (checkCollection node i) := by
  unfold checkCollection
  split
  · trivial
  · exact (failIf_plain _ (by decide)).bind fun _ _ => failIf_plain _ (by decide)

/-! ## The links of a node -/

/-- The links of a node: its children, its parent and its references. -/
structure Linked (snapshot : SnapshotView F) (root i : Nat) (node : Node F) : Prop where
  children : ∀ child ∈ node.children, child ∈ snapshot.ids ∧
    (snapshot.node (snapshot.find child)).parent = node.id
  parent : i ≠ root → node.parent ≠ 0 ∧ node.parent ∈ snapshot.ids
  resolves : snapshot.Resolves node

/-- What the checks establish of a node besides. -/
structure Clean (snapshot : SnapshotView F) (node : Node F) : Prop where
  selected : ∀ selection, node.selection = some selection →
    ∀ id ∈ selection.selectedNodes, id ∈ snapshot.ids
  text : ∀ text, node.text = some text → validUtf8 text.utf8 = true
  size : ∀ text, node.text = some text → text.utf8.length < 2 ^ 31
  annotations : ∀ text, node.text = some text → ∀ item ∈ text.annotations,
    validRange text.utf8 (graphemeBoundaries text.utf8) item.range = true

/-- The positions of the children of nodes. -/
def kidsOf (snapshot : SnapshotView F) (nodes : List (Node F)) : List Nat :=
  nodes.flatMap fun node => node.children.map snapshot.find

theorem failIf_known (hd : snapshot.ids.Nodup) {id : NodeId} {issue : ValidationIssue}
    {node : NodeId} {index : Nat} (htree : snapshot.IsTree → id ∈ snapshot.ids) :
    Yields (fun _ => id ∈ snapshot.ids) (Spares snapshot)
      (failIf (!snapshot.isKnown id) (fail issue node index)) := by
  refine failIf_spares ?_ htree
  rw [← SnapshotView.isKnown_iff hd, Bool.not_eq_false']

theorem checkChild_spec (hd : snapshot.ids.Nodup) (node : Node F) (i : Nat) {l : List Nat}
    {child : NodeId}
    (htree : snapshot.IsTree → snapshot.find child ∉ l ∧ child ∈ snapshot.ids ∧
      (snapshot.node (snapshot.find child)).parent = node.id) :
    Yields (fun incoming => (incoming = fun x => (l ++ [snapshot.find child]).count x) ∧
        child ∈ snapshot.ids ∧ (snapshot.node (snapshot.find child)).parent = node.id)
      (Spares snapshot) (checkChild snapshot node i (fun x => l.count x) child) := by
  unfold checkChild
  refine (failIf_spares (P := child ∈ snapshot.ids) ?_ fun h => (htree h).2.1).bind fun _ hid => ?_
  · rw [← SnapshotView.isKnown_iff hd]
    simp [SnapshotView.isKnown]
  refine (failIf_spares (by simp) fun h => (htree h).2.2).bind fun _ hparent => ?_
  refine (failIf_spares (P := l.count (snapshot.find child) = 0)
    (by simp [List.count_eq_zero]) fun h =>
    List.count_eq_zero.2 (htree h).1).bind fun _ _ => ?_
  refine ⟨funext fun x => ?_, hid, hparent⟩
  by_cases hx : x = snapshot.find child
  · subst hx
    simp
  · simp [Function.update_of_ne hx, Ne.symm hx]

theorem checkChildren_spec (hd : snapshot.ids.Nodup) (node : Node F) (i : Nat) (l : List Nat)
    (htree : snapshot.IsTree → (l ++ node.children.map snapshot.find).Nodup ∧
      ∀ child ∈ node.children, child ∈ snapshot.ids ∧
        (snapshot.node (snapshot.find child)).parent = node.id) :
    Yields (fun incoming => (incoming = fun x => (l ++ node.children.map snapshot.find).count x) ∧
        ∀ child ∈ node.children, child ∈ snapshot.ids ∧
          (snapshot.node (snapshot.find child)).parent = node.id)
      (Spares snapshot) (checkChildren snapshot limits node i fun x => l.count x) := by
  unfold checkChildren
  refine (failIf_plain _ (by decide)).spares.bind fun _ _ => ?_
  refine (failIf_plain _ (by decide)).spares.bind fun _ _ => ?_
  refine Yields.foldlM_prefix (I := fun done incoming =>
    (incoming = fun x => (l ++ done.map snapshot.find).count x) ∧
      ∀ child ∈ done, child ∈ snapshot.ids ∧
        (snapshot.node (snapshot.find child)).parent = node.id) ?_ (by simp)
  rintro done child rest _ heq ⟨rfl, hdone⟩
  refine (checkChild_spec hd node i fun h => ?_).imp fun incoming hchild => ?_
  · obtain ⟨hnodup, hlinked⟩ := htree h
    refine ⟨fun hmem => ?_, hlinked child (by simp [heq])⟩
    rw [heq, List.map_append, List.map_cons, ← List.append_assoc] at hnodup
    exact (List.nodup_append.1 hnodup).2.2 _ hmem _ List.mem_cons_self rfl
  · refine ⟨hchild.1.trans (by simp), fun c hc => ?_⟩
    rcases List.mem_append.1 hc with hc | hc
    · exact hdone c hc
    · exact List.mem_singleton.1 hc ▸ hchild.2

theorem checkParent_spec (hd : snapshot.ids.Nodup) {root i : Nat} {node : Node F}
    (htree : snapshot.IsTree → i ≠ root → node.parent ≠ 0 ∧ node.parent ∈ snapshot.ids) :
    Yields (fun _ => i ≠ root → node.parent ≠ 0 ∧ node.parent ∈ snapshot.ids) (Spares snapshot)
      (checkParent snapshot root node i) := by
  refine failIf_spares ?_ htree
  rw [← SnapshotView.isKnown_iff hd]
  simp

theorem checkRelation_spec (hd : snapshot.ids.Nodup) (node : Node F) (i : Nat)
    (seen : Nat × List RelationKind) (relation : Relation)
    (htree : snapshot.IsTree → ∀ target ∈ relation.targets, target ∈ snapshot.ids) :
    Yields (fun _ => ∀ target ∈ relation.targets, target ∈ snapshot.ids) (Spares snapshot)
      (checkRelation snapshot limits node i seen relation) := by
  unfold checkRelation
  refine (failIf_plain _ (by decide)).spares.bind fun _ _ => ?_
  refine (failIf_plain _ (by decide)).spares.bind fun _ _ => ?_
  refine (failIf_plain _ (by decide)).spares.bind fun _ _ => ?_
  refine (failIf_plain _ (by decide)).spares.bind fun _ _ => ?_
  refine (Yields.forM fun target htarget => ?_).bind fun _ htargets => htargets
  exact failIf_known hd fun h => htree h target htarget

theorem checkRelations_spec (hd : snapshot.ids.Nodup) (node : Node F) (i : Nat)
    (htree : snapshot.IsTree → snapshot.Resolves node) :
    Yields (fun _ => ∀ relation ∈ node.relations, ∀ target ∈ relation.targets,
      target ∈ snapshot.ids) (Spares snapshot)
      (node.relations.foldlM (checkRelation snapshot limits node i) (0, [])) := by
  refine Yields.foldlM_prefix (I := fun (done : List Relation) _ => ∀ relation ∈ done,
    ∀ target ∈ relation.targets, target ∈ snapshot.ids) ?_ (by simp)
  intro done relation rest seen heq hdone
  refine (checkRelation_spec hd node i seen relation fun h =>
    (htree h).relations relation (by simp [heq])).imp fun _ hrelation => ?_
  simpa [or_imp, forall_and] using ⟨hdone, hrelation⟩

mutual

theorem checkReferences_iff (hd : snapshot.ids.Nodup) : ∀ value : ExtensionValue F,
    checkReferences snapshot value = true ↔ ∀ id ∈ value.references, id ∈ snapshot.ids
  | .nodeReference value => by
    simp [checkReferences, ExtensionValue.references, SnapshotView.isKnown_iff hd]
  | .list values => checkReferencesList_iff hd values
  | .boolean _ | .signedInteger _ | .unsignedInteger _ | .real _ | .utf8 _ | .unknown _ => by
    simp [checkReferences, ExtensionValue.references]

theorem checkReferencesList_iff (hd : snapshot.ids.Nodup) : ∀ values : List (ExtensionValue F),
    checkReferencesList snapshot values = true ↔
      ∀ id ∈ ExtensionValue.referencesList values, id ∈ snapshot.ids
  | [] => by simp [checkReferencesList, ExtensionValue.referencesList]
  | item :: rest => by
    simp [checkReferencesList, ExtensionValue.referencesList, checkReferences_iff hd item,
      checkReferencesList_iff hd rest, or_imp, forall_and]

end

theorem checkSelection_spec (hd : snapshot.ids.Nodup) (node : Node F) (i : Nat) :
    Yields (fun _ => ∀ selection, node.selection = some selection →
      ∀ id ∈ selection.selectedNodes, id ∈ snapshot.ids) (Spares snapshot)
      (checkSelection snapshot limits node i) := by
  unfold checkSelection
  split
  · rename_i hnone
    simp [Yields, hnone]
  · rename_i s hsome
    refine (failIf_plain _ (by decide)).spares.bind fun _ _ => ?_
    refine (failIf_plain _ (by decide)).spares.bind fun _ _ => ?_
    refine (failIf_plain _ (by decide)).spares.bind fun _ _ => ?_
    refine (failIf_plain _ (by decide)).spares.bind fun _ _ => ?_
    refine (Yields.forM (P := fun id => id ∈ snapshot.ids) fun id _ => ?_).imp fun _ hall => ?_
    · unfold failIf
      split
      · exact fail_spares _ _ (by decide)
      · rename_i hfalse
        simp at hfalse
        exact (SnapshotView.isKnown_iff hd id).1 hfalse.1.1
    · intro selection heq id hid
      obtain rfl := Option.some.inj (hsome.symm.trans heq)
      exact hall id ((List.mem_insertionSort _).2 hid)

theorem checkAnnotation_spec (hd : snapshot.ids.Nodup) (node : Node F) (i : Nat)
    (text : TextContent F) (boundaries : List Nat) (budget : Budget) (item : TextAnnotation)
    (htree : snapshot.IsTree → item.target ≠ 0 → item.target ∈ snapshot.ids) :
    Yields (fun _ => (item.target ≠ 0 → item.target ∈ snapshot.ids) ∧
        validRange text.utf8 boundaries item.range = true) (Spares snapshot) <|
      checkAnnotation snapshot limits node i text boundaries budget item := by
  unfold checkAnnotation
  refine (failIf_checked _ (by decide)).bind fun _ hrange => ?_
  refine (failIf_plain _ (by decide)).spares.bind fun _ _ => ?_
  refine (failIf_plain _ (by decide)).spares.bind fun _ _ => ?_
  refine (failIf_spares ?_ htree).bind fun _ htarget => ?_
  · rw [← SnapshotView.isKnown_iff hd]
    simp
  · exact yields_spares ((withNode_yields (Budget.string_spec _ _)).imp fun _ _ =>
      ⟨htarget, by simpa using hrange⟩)

variable [DoubleOps F]

mutual

theorem Budget.extension_plain : ∀ (value : ExtensionValue F) (depth : Nat) (budget : Budget),
    Yields (fun _ => True) (· ∉ structural) (Budget.extension limits value depth budget)
  | .boolean _, depth, budget | .signedInteger _, depth, budget
  | .unsignedInteger _, depth, budget => Budget.enter_plain depth budget
  | .real value, depth, budget => by
    refine (Budget.enter_plain depth budget).bind fun budget _ => ?_
    split
    · trivial
    · exact (by decide : ValidationIssue.invalidExtension ∉ structural)
  | .utf8 value, depth, budget =>
    (Budget.enter_plain depth budget).bind fun budget _ =>
      (Budget.string_spec value budget).imp fun _ _ => trivial
  | .nodeReference value, depth, budget => by
    refine (Budget.enter_plain depth budget).bind fun budget _ => ?_
    split
    · trivial
    · exact (by decide : ValidationIssue.invalidExtension ∉ structural)
  | .list values, depth, budget => by
    refine (Budget.enter_plain depth budget).bind fun budget _ => ?_
    split
    · exact (by decide : ValidationIssue.limitExceeded ∉ structural)
    · exact Budget.extensionList_plain values (depth + 1) budget
  | .unknown _, depth, budget =>
    (Budget.enter_plain depth budget).bind fun _ _ =>
      (by decide : ValidationIssue.invalidExtension ∉ structural)

theorem Budget.extensionList_plain :
    ∀ (values : List (ExtensionValue F)) (depth : Nat) (budget : Budget),
      Yields (fun _ => True) (· ∉ structural) (Budget.extensionList limits values depth budget)
  | [], _, _ => trivial
  | item :: rest, depth, budget =>
    (Budget.extension_plain item depth budget).bind fun budget _ =>
      Budget.extensionList_plain rest depth budget

end

theorem checkGeometry_plain (node : Node F) (i : Nat) : Plain (checkGeometry node i) := by
  unfold checkGeometry
  split
  · trivial
  · refine (failIf_plain _ (by decide)).bind fun _ _ => ?_
    refine (failIf_plain _ (by decide)).bind fun _ _ => ?_
    exact (failIf_plain _ (by decide)).bind fun _ _ => failIf_plain _ (by decide)

theorem checkExtensions_spec (hd : snapshot.ids.Nodup) (node : Node F) (budget : Budget)
    (htree : snapshot.IsTree → snapshot.Resolves node) :
    Yields (fun _ => ∀ entry ∈ node.extensions, ∀ id ∈ entry.value.references, id ∈ snapshot.ids)
      (Spares snapshot)
      (node.extensions.zipIdx.foldlM (checkExtension snapshot limits node) budget) := by
  have hrun : Yields (fun _ => ∀ entry ∈ node.extensions.zipIdx,
      ∀ id ∈ entry.1.value.references, id ∈ snapshot.ids) (Spares snapshot)
      (node.extensions.zipIdx.foldlM (checkExtension snapshot limits node) budget) := by
    refine Yields.foldlM_prefix (I := fun (done : List (Extension F × Nat)) _ => ∀ entry ∈ done,
      ∀ id ∈ entry.1.value.references, id ∈ snapshot.ids) ?_ (by simp)
    rintro done ⟨extension, e⟩ rest budget heq hdone
    have hmem : extension ∈ node.extensions := by
      have hentry : (extension, e) ∈ node.extensions.zipIdx := by simp [heq]
      exact List.mem_of_getElem? (List.mem_zipIdx_iff_getElem?.1 hentry)
    unfold checkExtension
    refine (failIf_plain _ (by decide)).spares.bind fun _ _ => ?_
    refine (failIf_plain _ (by decide)).spares.bind fun _ _ => ?_
    refine (strings_plain _ _ _ _).spares.bind fun budget _ => ?_
    refine (yields_spares (withNode_yields (Budget.extension_plain _ _ _))).bind fun budget _ => ?_
    refine (failIf_spares ?_ fun h => (htree h).extensions extension hmem).bind
      fun _ hextension => ?_
    · rw [← checkReferences_iff hd, Bool.not_eq_false']
    · intro entry hentry
      rcases List.mem_append.1 hentry with hentry | hentry
      · exact hdone entry hentry
      · rw [List.mem_singleton.1 hentry]
        exact hextension
  refine hrun.imp fun _ hall entry hentry => ?_
  obtain ⟨e, hat⟩ := List.mem_iff_getElem?.1 hentry
  exact hall (entry, e) (List.mem_zipIdx_iff_getElem?.2 hat)

theorem checkText_spec (hd : snapshot.ids.Nodup) (node : Node F) (i : Nat) (budget : Budget)
    (htree : snapshot.IsTree → snapshot.Resolves node) :
    Yields (fun _ => ∀ text, node.text = some text →
        (validUtf8 text.utf8 = true ∧ text.utf8.length ≤ limits.maximumTextBytesPerNode) ∧
        ∀ item ∈ text.annotations, (item.target ≠ 0 → item.target ∈ snapshot.ids) ∧
          validRange text.utf8 (graphemeBoundaries text.utf8) item.range = true)
      (Spares snapshot) (checkText snapshot limits node i budget) := by
  unfold checkText
  split
  · rename_i hnone
    simp [Yields, hnone]
  · rename_i text hsome
    refine (yields_spares (strings_spec _ _ _ _)).bind fun budget hvalid => ?_
    refine (failIf_plain _ (by decide)).spares.bind fun _ _ => ?_
    refine (failIf_plain _ (by decide)).spares.bind fun _ _ => ?_
    refine (failIf_plain _ (by decide)).spares.bind fun _ _ => ?_
    refine (failIf_plain _ (by decide)).spares.bind fun _ _ => ?_
    refine (Yields.foldlM_prefix (I := fun (done : List TextAnnotation) _ => ∀ item ∈ done,
      (item.target ≠ 0 → item.target ∈ snapshot.ids) ∧
        validRange text.utf8 (graphemeBoundaries text.utf8) item.range = true) ?_
      (by simp)).bind fun budget hall => ?_
    · intro done item rest budget heq hdone
      refine (checkAnnotation_spec hd node i text _ budget item fun h =>
        (htree h).annotations text hsome item (by simp [heq])).imp fun _ hitem other hother => ?_
      rcases List.mem_append.1 hother with hother | hother
      · exact hdone other hother
      · exact List.mem_singleton.1 hother ▸ hitem
    · refine (failIf_plain _ (by decide)).spares.bind fun _ _ => ?_
      refine (failIf_plain _ (by decide)).spares.bind fun _ _ => ?_
      refine (failIf_plain _ (by decide)).spares.bind fun _ _ => ?_
      intro text' heq
      obtain rfl := Option.some.inj (hsome.symm.trans heq)
      exact ⟨hvalid text.utf8 (by simp), hall⟩

/-- The loop body: the incoming counts go on over the children, and the node is linked. -/
theorem checkNode_spec (hd : snapshot.ids.Nodup) {root i : Nat} {node : Node F} {l : List Nat}
    {scan : Scan} (hin : scan.incoming = fun x => l.count x)
    (htree : snapshot.IsTree → (l ++ node.children.map snapshot.find).Nodup ∧
      Linked snapshot root i node) (hlimits : validLimits limits = true) :
    Yields (fun scan => (scan.incoming = fun x => (l ++ node.children.map snapshot.find).count x) ∧
        Linked snapshot root i node ∧ Clean snapshot node)
      (Spares snapshot) (checkNode snapshot limits root scan (node, i)) := by
  have hlinked := fun h => (htree h).2
  unfold checkNode
  refine (checkFlags_plain node i _).spares.bind fun focused _ => ?_
  refine (checkStrings_plain node i _).spares.bind fun budget _ => ?_
  rw [hin]
  refine (checkChildren_spec hd node i l fun h =>
    ⟨(htree h).1, (hlinked h).children⟩).bind fun incoming hchildren => ?_
  refine (checkParent_spec hd fun h => (hlinked h).parent).bind fun _ hparent => ?_
  refine (checkRelations_spec hd node i fun h => (hlinked h).resolves).bind fun _ hrelations => ?_
  refine (checkExtensions_spec hd node budget fun h => (hlinked h).resolves).bind
    fun budget hextensions => ?_
  refine (checkGeometry_plain node i).spares.bind fun _ _ => ?_
  refine (failIf_plain _ (by decide)).spares.bind fun _ _ => ?_
  refine (failIf_plain _ (by decide)).spares.bind fun _ _ => ?_
  refine (checkSelection_spec hd node i).bind fun _ hselection => ?_
  refine (checkCollection_plain node i).spares.bind fun _ _ => ?_
  refine (failIf_plain _ (by decide)).spares.bind fun _ _ => ?_
  refine (checkText_spec hd node i budget fun h => (hlinked h).resolves).bind
    fun budget htext => ?_
  refine ⟨hchildren.1, ⟨hchildren.2, hparent, hrelations,
    fun text h item hitem => ((htext text h).2 item hitem).1, hextensions⟩,
    hselection, fun text h => (htext text h).1.1, fun text h => ?_,
    fun text h item hitem => ((htext text h).2 item hitem).2⟩
  have hle := (htext text h).1.2
  have hmax := validLimits_text hlimits
  omega

end Checks

/-! ## The shape of a tree -/

section Shape

theorem eq_of_id (hd : snapshot.ids.Nodup) {a b : Node F} (ha : a ∈ snapshot.nodes)
    (hb : b ∈ snapshot.nodes) (h : a.id = b.id) : a = b :=
  List.inj_on_of_nodup_map hd ha hb h

theorem find_inj (hd : snapshot.ids.Nodup) {a b : NodeId} (ha : a ∈ snapshot.ids)
    (hb : b ∈ snapshot.ids) (h : snapshot.find a = snapshot.find b) : a = b := by
  obtain ⟨node, hat, rfl⟩ := SnapshotView.find_lt hd ha
  obtain ⟨node', hat', rfl⟩ := SnapshotView.find_lt hd hb
  rw [← h, hat] at hat'
  rw [Option.some.inj hat']

theorem mem_kidsOf {nodes : List (Node F)} {x : Nat} :
    x ∈ kidsOf snapshot nodes ↔ ∃ node ∈ nodes, ∃ child ∈ node.children, snapshot.find child = x := by
  simp [kidsOf]

namespace SnapshotView.IsTree

/-- The node behind a listed child; it is not the root. -/
theorem child (h : snapshot.IsTree) {node : Node F} (hnode : node ∈ snapshot.nodes) {id : NodeId}
    (hid : id ∈ node.children) :
    ∃ child ∈ snapshot.nodes, child.id = id ∧ child.parent = node.id ∧ id ≠ snapshot.root := by
  obtain ⟨child, hchild, rfl, hparent⟩ := h.declared _ _ ⟨node, hnode, rfl, hid⟩
  refine ⟨child, hchild, rfl, hparent, fun hroot => h.nonzero ?_⟩
  obtain ⟨root, hmem, heq, hzero⟩ := h.root
  obtain rfl := eq_of_id h.distinct hmem hchild (heq.trans hroot.symm)
  exact List.mem_map.2 ⟨node, hnode, hparent.symm.trans hzero⟩

theorem linked (h : snapshot.IsTree) {i : Nat} {node : Node F}
    (hat : snapshot.nodes[i]? = some node) : Linked snapshot (snapshot.find snapshot.root) i node := by
  have hnode := List.mem_of_getElem? hat
  refine ⟨fun id hid => ?_, fun hne => ?_, h.resolves node hnode⟩
  · obtain ⟨child, hchild, rfl, hparent, -⟩ := h.child hnode hid
    obtain ⟨j, hj⟩ := List.mem_iff_getElem?.1 hchild
    refine ⟨List.mem_map_of_mem hchild, ?_⟩
    rw [find_eq h.distinct hj, node_eq hj]
    exact hparent
  · have hnot : node.id ≠ snapshot.root := fun heq => hne (by rw [← heq, find_eq h.distinct hat])
    obtain ⟨parent, hmem, hid, -⟩ := h.listed node hnode hnot
    rw [← hid]
    exact ⟨fun hzero => h.nonzero (hzero ▸ List.mem_map_of_mem hmem), List.mem_map_of_mem hmem⟩

theorem children_nodup (h : snapshot.IsTree) {node : Node F} (hnode : node ∈ snapshot.nodes) :
    node.children.Nodup := by
  refine List.nodup_iff_count_le_one.2 fun id => ?_
  by_cases hid : id ∈ node.children
  · obtain ⟨child, hchild, rfl, hparent, hroot⟩ := h.child hnode hid
    obtain ⟨parent, hmem, heq, hcount⟩ := h.listed child hchild hroot
    obtain rfl := eq_of_id h.distinct hmem hnode (heq.trans hparent)
    exact hcount.le
  · rw [List.count_eq_zero.2 hid]
    omega

/-- No node is listed twice. -/
theorem kidsOf_nodup (h : snapshot.IsTree) : (kidsOf snapshot snapshot.nodes).Nodup := by
  have hids : ∀ node ∈ snapshot.nodes, ∀ id ∈ node.children, id ∈ snapshot.ids := by
    intro node hnode id hid
    obtain ⟨child, hchild, rfl, -⟩ := h.child hnode hid
    exact List.mem_map_of_mem hchild
  refine List.nodup_flatMap.2 ⟨fun node hnode => ?_, ?_⟩
  · refine (h.children_nodup hnode).map_on fun a ha b hb heq => ?_
    exact find_inj h.distinct (hids node hnode a ha) (hids node hnode b hb) heq
  · refine (List.pairwise_map.1 h.distinct).imp_of_mem fun {a b} ha hb hne x hxa hxb => hne ?_
    obtain ⟨c, hc, rfl⟩ := List.mem_map.1 hxa
    obtain ⟨d, hd, heq⟩ := List.mem_map.1 hxb
    obtain rfl := find_inj h.distinct (hids b hb d hd) (hids a ha c hc) heq
    obtain ⟨child, hchild, rfl, hparent, -⟩ := h.child ha hc
    obtain ⟨child', hchild', heq', hparent', -⟩ := h.child hb hd
    obtain rfl := eq_of_id h.distinct hchild' hchild heq'
    exact hparent.symm.trans hparent'

theorem root_notMem_kidsOf (h : snapshot.IsTree) :
    snapshot.find snapshot.root ∉ kidsOf snapshot snapshot.nodes := by
  intro hmem
  obtain ⟨node, hnode, id, hid, heq⟩ := mem_kidsOf.1 hmem
  obtain ⟨child, hchild, rfl, -, hne⟩ := h.child hnode hid
  obtain ⟨root, hroot, hroot', -⟩ := h.root
  exact hne (find_inj h.distinct (List.mem_map_of_mem hchild)
    (hroot' ▸ List.mem_map_of_mem hroot) heq)

theorem mem_kidsOf_of_ne (h : snapshot.IsTree) {i : Nat} (hi : i < snapshot.nodes.length)
    (hne : i ≠ snapshot.find snapshot.root) : i ∈ kidsOf snapshot snapshot.nodes := by
  have hat := List.getElem?_eq_getElem hi
  have hnot : (snapshot.nodes[i]).id ≠ snapshot.root := fun heq =>
    hne (by rw [← heq, find_eq h.distinct hat])
  obtain ⟨parent, hmem, -, hcount⟩ := h.listed _ (List.getElem_mem hi) hnot
  have hlisted : snapshot.nodes[i].id ∈ parent.children := List.count_pos_iff.1 (by omega)
  exact mem_kidsOf.2 ⟨parent, hmem, _, hlisted, find_eq h.distinct hat⟩

end SnapshotView.IsTree

end Shape

/-! ## The whole of the checks -/

theorem checkIds_spec : Yields (fun _ => 0 ∉ snapshot.ids) (Spares snapshot) (checkIds snapshot) := by
  refine (Yields.forM (P := fun entry : Node F × Nat => entry.1.id ≠ 0) fun entry hentry => ?_).imp
    fun _ hall hzero => ?_
  · refine failIf_spares (P := entry.1.id ≠ 0) (by simp) fun h hid => h.nonzero ?_
    have hat := List.mem_zipIdx_iff_getElem?.1 (show (entry.1, entry.2) ∈ _ from hentry)
    exact List.mem_map.2 ⟨entry.1, List.mem_of_getElem? hat, hid⟩
  · obtain ⟨node, hnode, hid⟩ := List.mem_map.1 hzero
    obtain ⟨i, hat⟩ := List.mem_iff_getElem?.1 hnode
    exact hall (node, i) (List.mem_zipIdx_iff_getElem?.2 hat) hid

/-- The neighbours of a sorted index are checked. -/
theorem checkDistinct_cases (l : List (NodeId × Nat))
    (hl : l.Pairwise pairLe) :
    Yields (fun _ => (l.map Prod.fst).Nodup)
      (fun result => result.ok = false ∧ ¬ (l.map Prod.fst).Nodup) (checkDistinct l) := by
  induction l with
  | nil => exact List.nodup_nil
  | cons a l ih =>
    cases l with
    | nil => exact List.nodup_singleton _
    | cons b rest =>
      obtain ⟨ha, hrest⟩ := List.pairwise_cons.1 hl
      unfold checkDistinct
      split
      · rename_i heq
        refine ⟨fail_ok _ _ _, fun hnodup => ?_⟩
        exact (List.nodup_cons.1 hnodup).1 (by simp [heq])
      · rename_i hne
        refine ((ih hrest).imp fun _ hnodup => ?_).mono fun _ hnot =>
          ⟨hnot.1, fun hnodup => hnot.2 (List.nodup_cons.1 hnodup).2⟩
        refine List.nodup_cons.2 ⟨fun hmem => ?_, hnodup⟩
        obtain ⟨c, hc, heq⟩ := List.mem_map.1 hmem
        have hab : a.1 < b.1 := (ha b List.mem_cons_self).resolve_right fun h => hne h.1
        rcases List.mem_cons.1 hc with rfl | hc
        · exact hne heq.symm
        · have hbc := (List.pairwise_cons.1 hrest).1 c hc
          rw [SnapshotView.pairLe_iff] at hbc
          simp only [UInt64.lt_iff_toNat_lt, ← UInt64.toNat_inj] at hab heq
          omega

theorem checkDistinct_spec :
    Yields (fun _ => snapshot.ids.Nodup) (Spares snapshot) (checkDistinct snapshot.index) := by
  have hperm := SnapshotView.index_fst_perm snapshot
  exact ((checkDistinct_cases _ SnapshotView.pairwise_index).imp fun _ h => hperm.nodup_iff.1 h).mono
    fun _ h => ⟨h.1, fun htree => absurd (hperm.nodup_iff.2 htree.distinct) h.2⟩

/-- What the checks establish of a snapshot with a root. -/
structure Checked (snapshot : SnapshotView F) (root : Nat) : Prop where
  nonzero : 0 ∉ snapshot.ids
  distinct : snapshot.ids.Nodup
  known : snapshot.root ∈ snapshot.ids
  find_root : snapshot.find snapshot.root = root
  root_parent : (snapshot.node root).parent = 0
  linked : ∀ i node, snapshot.nodes[i]? = some node → Linked snapshot root i node
  clean : ∀ node ∈ snapshot.nodes, Clean snapshot node
  root_notMem : root ∉ kidsOf snapshot snapshot.nodes
  count : ∀ i < snapshot.nodes.length, i ≠ root → (kidsOf snapshot snapshot.nodes).count i = 1

variable [DoubleOps F] {limits : Limits}

/-- The loop over the nodes. -/
theorem scan_spec (hd : snapshot.ids.Nodup) {root : Nat} (hroot : snapshot.find snapshot.root = root)
    (hlimits : validLimits limits = true) :
    Yields (fun scan => (scan.incoming = fun x => (kidsOf snapshot snapshot.nodes).count x) ∧
        (∀ i node, snapshot.nodes[i]? = some node → Linked snapshot root i node) ∧
        ∀ node ∈ snapshot.nodes, Clean snapshot node)
      (Spares snapshot) (snapshot.nodes.zipIdx.foldlM (checkNode snapshot limits root) {}) := by
  have hrun : Yields (fun scan : Scan =>
      (scan.incoming = fun x => (kidsOf snapshot (snapshot.nodes.zipIdx.map Prod.fst)).count x) ∧
        ∀ entry ∈ snapshot.nodes.zipIdx,
          Linked snapshot root entry.2 entry.1 ∧ Clean snapshot entry.1)
      (Spares snapshot) (snapshot.nodes.zipIdx.foldlM (checkNode snapshot limits root) {}) := by
    refine Yields.foldlM_prefix (I := fun (done : List (Node F × Nat)) (scan : Scan) =>
      (scan.incoming = fun x => (kidsOf snapshot (done.map Prod.fst)).count x) ∧
        ∀ entry ∈ done, Linked snapshot root entry.2 entry.1 ∧ Clean snapshot entry.1)
      ?_ (by simp [kidsOf])
    rintro done ⟨node, i⟩ rest scan heq ⟨hin, hdone⟩
    have hat : snapshot.nodes[i]? = some node :=
      List.mem_zipIdx_iff_getElem?.1 (heq ▸ by simp : (node, i) ∈ snapshot.nodes.zipIdx)
    have hnodes : snapshot.nodes = done.map Prod.fst ++ node :: rest.map Prod.fst := by
      have := congrArg (List.map Prod.fst) heq
      rwa [List.zipIdx_map_fst, List.map_append, List.map_cons] at this
    have hkids : kidsOf snapshot ((done ++ [(node, i)]).map Prod.fst) =
        kidsOf snapshot (done.map Prod.fst) ++ node.children.map snapshot.find := by
      simp [kidsOf]
    refine (checkNode_spec hd hin (fun h => ⟨?_, hroot ▸ h.linked hat⟩) hlimits).imp
      fun scan ⟨hin, hlinked, hclean⟩ => ⟨?_, fun entry hentry => ?_⟩
    · have hnodup := h.kidsOf_nodup
      rw [kidsOf, hnodes, List.flatMap_append, List.flatMap_cons, ← List.append_assoc] at hnodup
      exact (List.nodup_append.1 hnodup).1
    · rw [hkids]
      exact hin
    · rcases List.mem_append.1 hentry with hentry | hentry
      · exact hdone entry hentry
      · obtain rfl := List.mem_singleton.1 hentry
        exact ⟨hlinked, hclean⟩
  refine hrun.imp fun scan ⟨hin, hall⟩ => ⟨?_, fun i node hat => ?_, fun node hnode => ?_⟩
  · rwa [List.zipIdx_map_fst] at hin
  · exact (hall (node, i) (List.mem_zipIdx_iff_getElem?.2 hat)).1
  · obtain ⟨i, hat⟩ := List.mem_iff_getElem?.1 hnode
    exact (hall (node, i) (List.mem_zipIdx_iff_getElem?.2 hat)).2

/-- **The checks** leave a snapshot whose nodes are linked, each but the root listed once. -/
theorem checkNodes_spec :
    Yields (fun root => Checked snapshot root) (Spares snapshot) (checkNodes snapshot limits) := by
  unfold checkNodes
  refine (failIf_checked _ (by decide)).bind fun _ hlimits => ?_
  refine (failIf_plain _ (by decide)).spares.bind fun _ _ => ?_
  refine (failIf_plain _ (by decide)).spares.bind fun _ _ => ?_
  refine (failIf_plain _ (by decide)).spares.bind fun _ _ => ?_
  refine checkIds_spec.bind fun _ hzero => ?_
  refine checkDistinct_spec.bind fun _ hd => ?_
  refine Yields.bind (I := fun _ => snapshot.root ∈ snapshot.ids ∧
    (snapshot.node (snapshot.find snapshot.root)).parent = 0) ?_ fun _ hroot => ?_
  · unfold failIf
    split
    · exact fail_spares _ _ (by decide)
    · rename_i hfalse
      simp only [Bool.or_eq_true, decide_eq_true_eq, not_or, not_not] at hfalse
      refine ⟨?_, hfalse.2⟩
      rw [← SnapshotView.isKnown_iff hd]
      exact decide_eq_true hfalse.1
  refine (scan_spec hd rfl (by simpa using hlimits)).bind fun scan ⟨hin, hlinked, hclean⟩ => ?_
  rw [hin]
  refine (failIf_spares (P := snapshot.find snapshot.root ∉ kidsOf snapshot snapshot.nodes)
    (by simp [List.count_eq_zero]) fun h => h.root_notMem_kidsOf).bind fun _ hnot => ?_
  refine (Yields.forM (P := fun i => i ≠ snapshot.find snapshot.root →
    (kidsOf snapshot snapshot.nodes).count i = 1) fun i hi => ?_).bind fun _ hcount => ?_
  · refine failIf_spares (by simp) fun h hne => ?_
    exact List.count_eq_one_of_mem h.kidsOf_nodup (h.mem_kidsOf_of_ne (List.mem_range.1 hi) hne)
  · exact ⟨hzero, hd, hroot.1, rfl, hroot.2, hlinked, hclean, hnot,
      fun i hi => hcount i (List.mem_range.2 hi)⟩

end Desktop

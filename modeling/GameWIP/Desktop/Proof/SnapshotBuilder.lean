import GameWIP.Desktop.Proof.Acceptance
import GameWIP.Desktop.Proof.OwnedNodes

/-!
# Builders hold what was accepted

A list of nodes that has `Room` in the limits is taken by a builder with these limits, one node after
the other, and is then what the builder shows (`editAll_authored`). The nodes of an accepted snapshot
have room, in any order (`Acceptable.room`). A call that is refused leaves the builder as it was
(`edit_refused`, `copySnapshot_refused`).
-/

namespace Desktop

open Lib (Yields)

variable {F : Type} {snapshot : SnapshotView F} {limits : Limits} {node : Node F}

/-! ## Room for nodes -/

/-- The nodes fit into a builder, in any order. -/
structure Room (limits : Limits) (nodes : List (Node F)) : Prop where
  valid : validLimits limits = true
  nonzero : ∀ node ∈ nodes, node.id ≠ 0
  distinct : (nodes.map Node.id).Nodup
  size : nodes.length ≤ limits.maximumNodes
  fits : ∀ node ∈ nodes, node.Fits limits
  nodeBytes : ∀ node ∈ nodes, node.cost.1 ≤ limits.maximumTextBytesPerNode
  values : ∀ node ∈ nodes, node.cost.2 ≤ limits.maximumExtensionValuesPerNode
  bytes : (nodes.map (·.cost.1)).sum ≤ limits.maximumTotalTextBytes

theorem Room.perm {nodes nodes' : List (Node F)} (h : Room limits nodes) (hperm : nodes'.Perm nodes) :
    Room limits nodes' where
  valid := h.valid
  nonzero := fun node hnode => h.nonzero node (hperm.mem_iff.1 hnode)
  distinct := (hperm.map Node.id).nodup_iff.2 h.distinct
  size := hperm.length_eq ▸ h.size
  fits := fun node hnode => h.fits node (hperm.mem_iff.1 hnode)
  nodeBytes := fun node hnode => h.nodeBytes node (hperm.mem_iff.1 hnode)
  values := fun node hnode => h.values node (hperm.mem_iff.1 hnode)
  bytes := (hperm.map fun node => node.cost.1).sum_eq.trans_le h.bytes

theorem Room.of_append {l₁ l₂ : List (Node F)} (h : Room limits (l₁ ++ l₂)) : Room limits l₁ where
  valid := h.valid
  nonzero := fun node hnode => h.nonzero node (List.mem_append_left _ hnode)
  distinct := by
    have hdistinct := h.distinct
    rw [List.map_append] at hdistinct
    exact (List.nodup_append.1 hdistinct).1
  size := by
    have hsize := h.size
    rw [List.length_append] at hsize
    omega
  fits := fun node hnode => h.fits node (List.mem_append_left _ hnode)
  nodeBytes := fun node hnode => h.nodeBytes node (List.mem_append_left _ hnode)
  values := fun node hnode => h.values node (List.mem_append_left _ hnode)
  bytes := by
    have hbytes := h.bytes
    rw [List.map_append, List.sum_append] at hbytes
    omega

theorem failIf_yields (c : Bool) (result : ValidationResult) :
    Yields (fun _ => c = false) (fun _ => True) (failIf c result) := by
  cases c
  · rfl
  · trivial

/-- The targets the validation counts. -/
theorem checkRelation_targets (i : Nat) (seen : Nat × List RelationKind) (relation : Relation) :
    Yields (fun seen' => seen'.1 = seen.1 + relation.targets.length ∧
      seen'.1 ≤ limits.maximumRelationTargetsPerNode) (fun _ => True)
      (checkRelation snapshot limits node i seen relation) := by
  unfold checkRelation
  refine (failIf_yields _ _).bind fun _ _ => ?_
  refine (failIf_yields _ _).bind fun _ _ => ?_
  refine (failIf_yields _ _).bind fun _ htargets => ?_
  refine (failIf_yields _ _).bind fun _ _ => ?_
  refine (Yields.forM (P := fun _ => True) fun target _ => ?_).bind fun _ _ =>
    ⟨rfl, by simpa using htargets⟩
  exact (failIf_yields _ _).imp fun _ _ => trivial

theorem targets_le_of_checkRelations {i : Nat}
    (h : (node.relations.foldlM (checkRelation snapshot limits node i) (0, [])).toOption.isSome = true) :
    node.targets ≤ limits.maximumRelationTargetsPerNode := by
  have hrun : Yields (fun seen : Nat × List RelationKind => seen.1 = node.targets ∧
      seen.1 ≤ limits.maximumRelationTargetsPerNode) (fun _ => True)
      (node.relations.foldlM (checkRelation snapshot limits node i) (0, [])) := by
    refine Yields.foldlM_prefix (I := fun (done : List Relation) (seen : Nat × List RelationKind) =>
      seen.1 = (done.map (·.targets.length)).sum ∧ seen.1 ≤ limits.maximumRelationTargetsPerNode)
      (fun done relation rest seen _ hseen => ?_) (by simp)
    refine (checkRelation_targets i seen relation).imp fun seen' hseen' => ⟨?_, hseen'.2⟩
    simp [hseen'.1, hseen.1]
  cases hfold : node.relations.foldlM (checkRelation snapshot limits node i) (0, []) with
  | error result =>
    rw [hfold] at h
    cases h
  | ok seen =>
    have hseen := hrun.of_ok hfold
    exact hseen.1 ▸ hseen.2

theorem selected_le_of_checkSelection {i : Nat} {selection : SelectionInfo}
    (h : (checkSelection snapshot limits node i).toOption.isSome = true)
    (hsome : node.selection = some selection) :
    selection.selectedNodes.length ≤ limits.maximumNodes := by
  obtain ⟨u, hsuccess⟩ := Option.isSome_iff_exists.1 h
  rw [checkSelection, hsome] at hsuccess
  simpa using (failIf_bind_eq_some.1 (failIf_bind_eq_some.1 hsuccess).2).1

variable [DoubleOps F]

/-- What the validation admits fits into a builder. -/
theorem Admits.fits (h : Admits snapshot limits node) : node.Fits limits := by
  have hlengths := h.lengths
  simp only [Bool.or_eq_false_iff, decide_eq_false_iff_not, Nat.not_lt] at hlengths
  refine ⟨hlengths.1.1, hlengths.1.2, hlengths.2, targets_le_of_checkRelations h.relations,
    fun entry hentry => ?_, fun selection hsome => selected_le_of_checkSelection h.selection hsome,
    fun text htext => (h.text text htext).fits⟩
  obtain ⟨e, hat⟩ := List.mem_iff_getElem?.1 hentry
  exact (h.extensions (entry, e) (List.mem_zipIdx_iff_getElem?.2 hat)).value.1

/-- **The nodes of an accepted snapshot have room.** -/
theorem Acceptable.room (h : Acceptable snapshot limits) : Room limits snapshot.nodes where
  valid := h.admissible.valid
  nonzero _ hnode hzero := h.accepted.1.nonzero (hzero ▸ List.mem_map_of_mem hnode)
  distinct := h.accepted.1.distinct
  size := h.admissible.size
  fits node hnode := (h.admissible.admits node hnode).fits
  nodeBytes node hnode := (h.admissible.admits node hnode).bytes
  values node hnode := (h.admissible.admits node hnode).values
  bytes := h.admissible.bytes

/-! ## Refused calls -/

namespace SnapshotBuilder

variable {builder : SnapshotBuilder F}

theorem edit_refused {edit : Edit F} (h : (builder.edit edit).1.ok = false) :
    (builder.edit edit).2 = builder := by
  cases edit with
  | clear => cases h
  | setGeneration generation =>
    simp only [SnapshotBuilder.edit, setGeneration] at h ⊢
    split
    · rfl
    · rename_i hne
      rw [if_neg hne] at h
      cases h
  | setRoot root =>
    simp only [SnapshotBuilder.edit, setRoot] at h ⊢
    split
    · rfl
    · rename_i hne
      rw [if_neg hne] at h
      cases h
  | addNode node =>
    simp only [SnapshotBuilder.edit, addNode] at h ⊢
    split_ifs at h ⊢ <;> try rfl
    cases hbounded : boundedNode node builder.limits_ ((builder.state_.map (·.textBytes)).getD 0) with
    | none => rfl
    | some bytes =>
      rw [hbounded] at h
      cases h

/-! ## Authoring -/

/-- The metadata and the owners, those of an empty builder to begin with. -/
def state (builder : SnapshotBuilder F) : SnapshotBuilderState F := builder.state_.getD {}

omit [DoubleOps F] in
theorem view_eq (builder : SnapshotBuilder F) : builder.view = builder.state.view := by
  unfold view state
  cases builder.state_ <;> rfl

omit [DoubleOps F] in
/-- A check that an empty builder passes. -/
theorem any_state {p : SnapshotBuilderState F → Bool} (hp : p {} = false) :
    builder.state_.any p = p builder.state := by
  unfold state
  cases builder.state_ with
  | none => exact hp.symm
  | some state => rfl

/-- The builder holds these nodes, each with an owner. -/
structure Holds (limits : Limits) (nodes : List (Node F)) (builder : SnapshotBuilder F) : Prop where
  same : builder.limits_ = limits
  shown : builder.state.nodes = nodes
  ids : ∀ id, id ∈ builder.state.nodeIds ↔ id ∈ nodes.map Node.id
  bytes : builder.state.textBytes = (nodes.map (·.cost.1)).sum
  owned : builder.state.owned.map (·.node) = nodes
  owns : ∀ owned ∈ builder.state.owned, owned.Owns

omit [DoubleOps F] in
theorem holds_empty (limits : Limits) : Holds limits [] ({ limits_ := limits } : SnapshotBuilder F) :=
  ⟨rfl, rfl, fun _ => Iff.rfl, rfl, rfl, by simp [state]⟩

theorem invalidLimits_eq (limits : Limits) :
    (validate ({} : SnapshotView F) limits 1).any (·.issue = .invalidLimits) = !validLimits limits := by
  have hchecks : checkNodes ({} : SnapshotView F) limits =
      .error (fail (if validLimits limits then .zeroGeneration else .invalidLimits) 0 0) := by
    cases hvalid : validLimits limits <;> simp only [checkNodes, failIf, hvalid] <;> rfl
  rw [validate, hchecks]
  cases validLimits limits <;> rfl

/-- A node with room is taken. -/
theorem addNode_taken {nodes : List (Node F)} (h : Holds limits nodes builder)
    (hroom : Room limits (nodes ++ [node])) :
    (builder.addNode node).1.ok = true ∧ Holds limits (nodes ++ [node]) (builder.addNode node).2 ∧
      (builder.addNode node).2.state.generation = builder.state.generation ∧
      (builder.addNode node).2.state.root = builder.state.root := by
  have hmem : node ∈ nodes ++ [node] := by simp
  have hsize : nodes.length < limits.maximumNodes := by
    have hle := hroom.size
    rwa [List.length_append, List.length_singleton] at hle
  have hcount : builder.state_.any (·.nodes.length ≥ builder.limits_.maximumNodes) = false := by
    rw [any_state, h.shown, h.same]
    · simpa using hsize
    · rw [h.same]
      exact decide_eq_false (by simp; omega)
  have hnew : builder.state_.any (·.nodeIds.contains node.id) = false := by
    have hdistinct := hroom.distinct
    rw [List.map_append, List.nodup_append] at hdistinct
    rw [any_state rfl, Bool.eq_false_iff, ne_eq, List.contains_iff_mem, h.ids]
    exact fun hid => hdistinct.2.2 _ hid _ (List.mem_singleton_self _) rfl
  have hbytes : boundedNode node builder.limits_ ((builder.state_.map (·.textBytes)).getD 0) =
      some ((nodes.map (·.cost.1)).sum + node.cost.1) := by
    have htext : (builder.state_.map (·.textBytes)).getD 0 = builder.state.textBytes := by
      unfold state
      cases builder.state_ <;> rfl
    rw [htext, h.bytes, h.same]
    refine boundedNode_iff.2 ⟨hroom.fits node hmem, hroom.nodeBytes node hmem, hroom.values node hmem,
      ?_, rfl⟩
    simpa using hroom.bytes
  have hadded : builder.addNode node = ({}, { builder with
      state_ := some (builder.state.push node ((nodes.map (·.cost.1)).sum + node.cost.1)) }) := by
    have hguard : ((validate ({} : SnapshotView F) builder.limits_ 1).any (·.issue = .invalidLimits) ||
        decide (node.id = 0)) = false := by
      rw [invalidLimits_eq, h.same, hroom.valid]
      simpa using hroom.nonzero node hmem
    simp only [addNode, hguard, hcount, hnew, hbytes]
    rfl
  rw [hadded]
  obtain ⟨hcopy, howns⟩ := OwnedAccessibilityNode.ofNode_spec node
  refine ⟨rfl, ⟨h.same, ?_, fun id => ?_, ?_, ?_, fun owned howned => ?_⟩, rfl, rfl⟩
  · show builder.state.nodes ++ [((builder.state.owned ++ [OwnedAccessibilityNode.ofNode node]).map
      OwnedAccessibilityNode.node).getLastD {}] = _
    simp [h.shown, hcopy]
  · show id ∈ node.id :: builder.state.nodeIds ↔ _
    rw [List.mem_cons, h.ids]
    simp [or_comm]
  · show (nodes.map (·.cost.1)).sum + node.cost.1 = _
    simp
  · show (builder.state.owned ++ [OwnedAccessibilityNode.ofNode node]).map
      OwnedAccessibilityNode.node = _
    simp [h.owned, hcopy]
  · rcases List.mem_append.1 (show owned ∈ builder.state.owned ++ [.ofNode node] from howned)
      with howned | howned
    · exact h.owns owned howned
    · exact List.mem_singleton.1 howned ▸ howns

/-! ## Authoring a snapshot -/

/-- The node that a call adds. -/
def Edit.added : Edit F → Option (Node F)
  | .addNode node => some node
  | _ => none

/-- The calls that author a snapshot, in the order of its nodes. -/
def authoring (snapshot : SnapshotView F) : List (Edit F) :=
  .setGeneration snapshot.generation :: .setRoot snapshot.root :: snapshot.nodes.map .addNode

omit [DoubleOps F] in
theorem added_authoring (snapshot : SnapshotView F) :
    (authoring snapshot).filterMap Edit.added = snapshot.nodes := by
  have hadded : (Edit.added ∘ Edit.addNode : Node F → Option (Node F)) = some := rfl
  show (snapshot.nodes.map Edit.addNode).filterMap Edit.added = snapshot.nodes
  rw [List.filterMap_map, hadded, List.filterMap_some]

/-- What the builder is after some of the calls that author a snapshot. -/
structure Authored (limits : Limits) (snapshot : SnapshotView F) (done : List (Edit F))
    (builder : SnapshotBuilder F) : Prop where
  holds : Holds limits (done.filterMap Edit.added) builder
  generation : .setGeneration snapshot.generation ∈ done →
    builder.state.generation = snapshot.generation
  root : .setRoot snapshot.root ∈ done → builder.state.root = snapshot.root

/-- One of the calls. -/
theorem edit_authored {done : List (Edit F)} {edit : Edit F} (h : Authored limits snapshot done builder)
    (hedit : edit ∈ authoring snapshot) (hgeneration : snapshot.generation ≠ 0)
    (hroot : snapshot.root ≠ 0) (hroom : Room limits ((done ++ [edit]).filterMap Edit.added)) :
    (builder.edit edit).1.ok = true ∧ Authored limits snapshot (done ++ [edit]) (builder.edit edit).2 := by
  cases edit with
  | clear => simp [authoring] at hedit
  | setGeneration generation =>
    obtain rfl : generation = snapshot.generation := by simpa [authoring] using hedit
    have hset : builder.edit (.setGeneration snapshot.generation) = ({}, { builder with
        state_ := some { builder.state with generation := snapshot.generation } }) := if_neg hgeneration
    rw [hset]
    refine ⟨rfl, ⟨?_, fun _ => rfl, fun hmem => h.root ?_⟩⟩
    · simp only [List.filterMap_append, List.filterMap_cons, Edit.added, List.filterMap_nil,
        List.append_nil]
      exact ⟨h.holds.same, h.holds.shown, h.holds.ids, h.holds.bytes, h.holds.owned, h.holds.owns⟩
    · simpa using hmem
  | setRoot root =>
    obtain rfl : root = snapshot.root := by simpa [authoring] using hedit
    have hset : builder.edit (.setRoot snapshot.root) = ({}, { builder with
        state_ := some { builder.state with root := snapshot.root } }) := if_neg hroot
    rw [hset]
    refine ⟨rfl, ⟨?_, fun hmem => h.generation ?_, fun _ => rfl⟩⟩
    · simp only [List.filterMap_append, List.filterMap_cons, Edit.added, List.filterMap_nil,
        List.append_nil]
      exact ⟨h.holds.same, h.holds.shown, h.holds.ids, h.holds.bytes, h.holds.owned, h.holds.owns⟩
    · simpa using hmem
  | addNode node =>
    have hadded : (done ++ [Edit.addNode node]).filterMap Edit.added =
        done.filterMap Edit.added ++ [node] := List.filterMap_append
    rw [hadded] at hroom
    obtain ⟨hok, hholds, hkeptGeneration, hkeptRoot⟩ := addNode_taken h.holds hroom
    refine ⟨hok, ⟨hadded.symm ▸ hholds, fun hmem => ?_, fun hmem => ?_⟩⟩
    · exact hkeptGeneration.trans (h.generation (by simpa using hmem))
    · exact hkeptRoot.trans (h.root (by simpa using hmem))

/-- **All of the calls, in any order.** -/
theorem editAll_authored {edits : List (Edit F)} (hperm : edits.Perm (authoring snapshot))
    (hgeneration : snapshot.generation ≠ 0) (hroot : snapshot.root ≠ 0)
    (hroom : Room limits snapshot.nodes) {done rest : List (Edit F)} (hedits : edits = done ++ rest)
    (h : Authored limits snapshot done builder) :
    (∀ status ∈ (builder.editAll rest).1, status.ok = true) ∧
      Authored limits snapshot edits (builder.editAll rest).2 := by
  induction rest generalizing done builder with
  | nil =>
    rw [List.append_nil] at hedits
    exact ⟨by simp [editAll], hedits ▸ h⟩
  | cons edit rest ih =>
    have hadded : Room limits (edits.filterMap Edit.added) :=
      hroom.perm ((hperm.filterMap _).trans (.of_eq (added_authoring snapshot)))
    have hsplit : edits = (done ++ [edit]) ++ rest := by simp [hedits]
    rw [hsplit, List.filterMap_append] at hadded
    obtain ⟨hok, hauthored⟩ := edit_authored h (hperm.mem_iff.1 (by simp [hedits])) hgeneration hroot
      hadded.of_append
    obtain ⟨hall, hend⟩ := ih hsplit hauthored
    exact ⟨List.forall_mem_cons.2 ⟨hok, hall⟩, hend⟩

omit [DoubleOps F] in
theorem authored_empty (limits : Limits) (snapshot : SnapshotView F) :
    Authored limits snapshot [] { limits_ := limits } :=
  ⟨holds_empty limits, by simp, by simp⟩

omit [DoubleOps F] in
/-- What the builder shows in the end. -/
theorem Authored.view {edits : List (Edit F)} (h : Authored limits snapshot edits builder)
    (hperm : edits.Perm (authoring snapshot)) : builder.view =
      { generation := snapshot.generation
        root := snapshot.root
        nodes := edits.filterMap Edit.added } := by
  have hgeneration := h.generation (hperm.mem_iff.2 (by simp [authoring]))
  have hroot := h.root (hperm.mem_iff.2 (by simp [authoring]))
  rw [view_eq, SnapshotBuilderState.view, hgeneration, hroot, h.holds.shown]

end SnapshotBuilder

/-! ## Copies -/

open SnapshotBuilder (authoring Authored)

variable {builder destination : SnapshotBuilder F} {reader : Option (PublishedSnapshot F)}

theorem copySnapshot_refused (h : (copySnapshot reader destination).1.ok = false) :
    (copySnapshot reader destination).2 = destination := by
  cases reader with
  | none => rfl
  | some snapshot =>
    simp only [copySnapshot] at h ⊢
    split
    · rfl
    · rename_i hgeneration
      rw [if_neg hgeneration] at h
      split
      · rfl
      · rename_i hroot
        rw [if_neg hroot] at h
        split
        · rfl
        · rename_i copy hcopy
          rw [hcopy] at h
          cases h

/-- The loop over the nodes, when every node is taken. -/
theorem foldlM_copyNode {nodes : List (Node F)}
    (h : ∀ status ∈ (builder.editAll (nodes.map .addNode)).1, status.ok = true) :
    nodes.foldlM copyNode builder = .ok (builder.editAll (nodes.map .addNode)).2 := by
  induction nodes generalizing builder with
  | nil => rfl
  | cons node nodes ih =>
    obtain ⟨hok, hall⟩ := List.forall_mem_cons.1 h
    have hnode : copyNode builder node = .ok (builder.addNode node).2 := if_pos hok
    rw [List.foldlM_cons, hnode]
    exact ih hall

/-- A copy of what has room is the copy of all of it. -/
theorem copySnapshot_authored {p : PublishedSnapshot F} (hgeneration : p.storage.generation ≠ 0)
    (hroot : p.storage.root ≠ 0) (hroom : Room destination.limits_ p.storage.nodes) :
    (copySnapshot (some p) destination).1.ok = true ∧
      Authored destination.limits_ p.storage (authoring p.storage)
        (copySnapshot (some p) destination).2 := by
  obtain ⟨hall, hauthored⟩ := SnapshotBuilder.editAll_authored (.refl _) hgeneration hroot hroom rfl
    (SnapshotBuilder.authored_empty destination.limits_ p.storage)
  let start : SnapshotBuilder F := { limits_ := destination.limits_ }
  have hset : start.setGeneration p.storage.generation =
      ({}, (start.setGeneration p.storage.generation).2) := by
    rw [SnapshotBuilder.setGeneration, if_neg hgeneration]
  have hset' : ((start.setGeneration p.storage.generation).2.setRoot p.storage.root) =
      ({}, ((start.setGeneration p.storage.generation).2.setRoot p.storage.root).2) := by
    rw [SnapshotBuilder.setRoot, if_neg hroot]
  have hcopies : p.storage.nodes.foldlM copyNode
      ((start.setGeneration p.storage.generation).2.setRoot p.storage.root).2 =
        .ok (start.editAll (authoring p.storage)).2 :=
    foldlM_copyNode fun status hstatus =>
      hall status (List.mem_cons_of_mem _ (List.mem_cons_of_mem _ hstatus))
  have hrun : copySnapshot (some p) destination = ({}, (start.editAll (authoring p.storage)).2) := by
    simp only [copySnapshot]
    rw [hset]
    dsimp only
    rw [hset']
    dsimp only
    rw [hcopies]
    rfl
  rw [hrun]
  exact ⟨rfl, hauthored⟩

end Desktop

import GameWIP.Desktop.Transport
import GameWIP.Desktop.Proof.Validation

/-!
# What the notification queue tells

`Runtime.Marked`: an invalidation is queued exactly when one is pending, and never two. Every locked
section keeps it.

`queueDiff_nothingLost`: behind a publication, each node that differs between the two snapshots is
told by a notification of that publication, or by a change of the structure, or by an invalidation of
the newest tree. `Node.Same` says which nodes do not differ; doubles are compared as the code does.
-/

namespace Desktop

variable {F : Type} [DoubleOps F]

/-! ## Nodes that do not differ -/

section Same

open FloatOps (eq)

structure Rect.Same (a b : Rect F) : Prop where
  x : eq a.x b.x = true
  y : eq a.y b.y = true
  width : eq a.width b.width = true
  height : eq a.height b.height = true

structure AffineTransform.Same (a b : AffineTransform F) : Prop where
  m11 : eq a.m11 b.m11 = true
  m12 : eq a.m12 b.m12 = true
  m21 : eq a.m21 b.m21 = true
  m22 : eq a.m22 b.m22 = true
  tx : eq a.tx b.tx = true
  ty : eq a.ty b.ty = true

structure Geometry.Same (a b : Geometry F) : Prop where
  localBounds : a.localBounds.Same b.localBounds
  toWindow : a.toWindow.Same b.toWindow
  clippingBounds : Option.Rel Rect.Same a.clippingBounds b.clippingBounds
  visible : a.visible = b.visible
  hitTestable : a.hitTestable = b.hitTestable
  hitTestOrder : a.hitTestOrder = b.hitTestOrder

structure RangeValue.Same (a b : RangeValue F) : Prop where
  value : eq a.value b.value = true
  minimum : eq a.minimum b.minimum = true
  maximum : eq a.maximum b.maximum = true
  smallChange : eq a.smallChange b.smallChange = true
  largeChange : eq a.largeChange b.largeChange = true

structure ScrollInfo.Same (a b : ScrollInfo F) : Prop where
  horizontalScrollable : a.horizontalScrollable = b.horizontalScrollable
  verticalScrollable : a.verticalScrollable = b.verticalScrollable
  horizontalPercent : eq a.horizontalPercent b.horizontalPercent = true
  verticalPercent : eq a.verticalPercent b.verticalPercent = true
  horizontalViewSize : eq a.horizontalViewSize b.horizontalViewSize = true
  verticalViewSize : eq a.verticalViewSize b.verticalViewSize = true

structure TextFragment.Same (a b : TextFragment F) : Prop where
  range : a.range = b.range
  bounds : a.bounds.Same b.bounds

structure TextContent.Same (a b : TextContent F) : Prop where
  utf8 : a.utf8 = b.utf8
  direction : a.direction = b.direction
  language : a.language = b.language
  annotations : a.annotations = b.annotations
  fragments : List.Forall₂ TextFragment.Same a.fragments b.fragments
  selection : a.selection = b.selection
  caret : a.caret = b.caret

/-- Every field but the identity and the extensions. -/
structure Node.Same (a b : Node F) : Prop where
  parent : a.parent = b.parent
  role : a.role = b.role
  states : a.states = b.states
  actions : a.actions = b.actions
  name : a.name = b.name
  description : a.description = b.description
  helpText : a.helpText = b.helpText
  value : a.value = b.value
  language : a.language = b.language
  accessKey : a.accessKey = b.accessKey
  keyboardShortcut : a.keyboardShortcut = b.keyboardShortcut
  exposure : a.exposure = b.exposure
  children : a.children = b.children
  relations : a.relations = b.relations
  geometry : Option.Rel Geometry.Same a.geometry b.geometry
  rangeValue : Option.Rel RangeValue.Same a.rangeValue b.rangeValue
  scroll : Option.Rel ScrollInfo.Same a.scroll b.scroll
  selection : a.selection = b.selection
  collection : a.collection = b.collection
  virtualization : a.virtualization = b.virtualization
  text : Option.Rel TextContent.Same a.text b.text

omit [DoubleOps F] in
theorem rel_of_optionalEqual {α : Type} {equal : α → α → Bool} {R : α → α → Prop}
    {a b : Option α} (h : optionalEqual equal a b = true)
    (hR : ∀ x ∈ a, ∀ y ∈ b, equal x y = true → R x y) : Option.Rel R a b := by
  cases a with
  | none =>
    cases b with
    | none => exact .none
    | some y => cases h
  | some x =>
    cases b with
    | none => cases h
    | some y => exact .some (hR x rfl y rfl h)

omit [DoubleOps F] in
theorem forall₂_of_rangesEqual {α : Type} {equal : α → α → Bool} {R : α → α → Prop}
    (hR : ∀ x y, equal x y = true → R x y) :
    ∀ {as bs : List α}, rangesEqual equal as bs = true → List.Forall₂ R as bs
  | [], [], _ => .nil
  | [], _ :: _, h => nomatch h
  | _ :: _, [], h => nomatch h
  | a :: as, b :: bs, h => by
    rw [rangesEqual, Bool.and_eq_true] at h
    exact .cons (hR a b h.1) (forall₂_of_rangesEqual hR h.2)

theorem same_of_rectEqual {a b : Rect F} (h : rectEqual a b = true) : a.Same b := by
  simp only [rectEqual, Bool.and_eq_true] at h
  obtain ⟨⟨⟨hx, hy⟩, hwidth⟩, hheight⟩ := h
  exact ⟨hx, hy, hwidth, hheight⟩

theorem same_of_geometryEqual {a b : Geometry F} (h : geometryEqual a b = true) : a.Same b := by
  simp only [geometryEqual, Bool.and_eq_true, decide_eq_true_eq] at h
  obtain ⟨⟨⟨⟨⟨⟨⟨⟨⟨⟨hbounds, hclip⟩, h11⟩, h12⟩, h21⟩, h22⟩, htx⟩, hty⟩, hvisible⟩, htest⟩, horder⟩ := h
  exact ⟨same_of_rectEqual hbounds, ⟨h11, h12, h21, h22, htx, hty⟩,
    rel_of_optionalEqual hclip fun _ _ _ _ => same_of_rectEqual, hvisible, htest, horder⟩

theorem same_of_scrollEqual {a b : ScrollInfo F} (h : scrollEqual a b = true) : a.Same b := by
  simp only [scrollEqual, Bool.and_eq_true, decide_eq_true_eq] at h
  obtain ⟨⟨⟨⟨⟨hh, hv⟩, hhp⟩, hvp⟩, hhs⟩, hvs⟩ := h
  exact ⟨hh, hv, hhp, hvp, hhs, hvs⟩

theorem same_of_fragmentEqual {a b : TextFragment F} (h : fragmentEqual a b = true) : a.Same b := by
  simp only [fragmentEqual, Bool.and_eq_true, decide_eq_true_eq] at h
  exact ⟨h.1, same_of_rectEqual h.2⟩

theorem rangeValue_same {node old : Node F} (hvalue : valueChanged node old = false)
    (h : optionalEqual rangeEqual node.rangeValue old.rangeValue = true) :
    Option.Rel RangeValue.Same node.rangeValue old.rangeValue := by
  refine rel_of_optionalEqual h fun a ha b hb hab => ?_
  simp only [rangeEqual, Bool.and_eq_true] at hab
  obtain ⟨⟨⟨hmin, hmax⟩, hsmall⟩, hlarge⟩ := hab
  rw [Option.mem_def] at ha hb
  simp [valueChanged, ha, hb] at hvalue
  exact ⟨hvalue.2, hmin, hmax, hsmall, hlarge⟩

omit [DoubleOps F] in
theorem selection_same {node old : Node F}
    (h : optionalEqual selectionEqual node.selection old.selection = true)
    (hflags : (match node.selection, old.selection with
      | some a, some b =>
        a.multiSelectable ≠ b.multiSelectable || a.selectionRequired ≠ b.selectionRequired ||
          a.activeNode ≠ b.activeNode
      | _, _ => false) = false) : node.selection = old.selection := by
  cases ha : node.selection with
  | none =>
    cases hb : old.selection with
    | none => rfl
    | some b => simp [ha, hb, optionalEqual] at h
  | some a =>
    cases hb : old.selection with
    | none => simp [ha, hb, optionalEqual] at h
    | some b =>
      simp only [ha, hb, optionalEqual, selectionEqual, Bool.and_eq_true, decide_eq_true_eq] at h
      simp [ha, hb] at hflags
      cases a
      cases b
      simp_all

theorem text_same {node old : Node F} (htext : textChanged node old = false)
    (hcaret : caretChanged node old = false)
    (h : optionalEqual textMetadataEqual node.text old.text = true) :
    Option.Rel TextContent.Same node.text old.text := by
  refine rel_of_optionalEqual h fun a ha b hb hab => ?_
  rw [Option.mem_def] at ha hb
  simp [textChanged, ha, hb] at htext
  simp [caretChanged, ha, hb] at hcaret
  simp only [textMetadataEqual, Bool.and_eq_true, decide_eq_true_eq] at hab
  obtain ⟨⟨⟨⟨hdirection, hlanguage⟩, -⟩, hannotations⟩, hfragments⟩ := hab
  exact ⟨htext, hdirection, hlanguage, hannotations,
    forall₂_of_rangesEqual (fun _ _ => same_of_fragmentEqual) hfragments, hcaret.2, hcaret.1⟩

/-- **No check is missing**: without a change or a change of the structure nothing differs. -/
theorem same_of_changes {node old : Node F} (hchanges : changes node old = [])
    (hstructure : structureChanged node old = false) : node.Same old := by
  simp only [changes, List.map_eq_nil_iff, List.filter_eq_nil_iff, List.forall_mem_cons,
    List.not_mem_nil, false_imp_iff, implies_true, and_true, Bool.not_eq_true, decide_eq_false_iff_not,
    not_not, Bool.not_eq_false', Bool.or_eq_false_iff] at hchanges
  obtain ⟨hname, hdescription, hvalue, hrange, hscroll, hstates, -, ⟨-, hselection⟩, htext, hcaret,
    hgeometry, hexposure, hmetadata⟩ := hchanges
  simp only [metadataChanged, Bool.or_eq_false_iff, decide_eq_false_iff_not, not_not,
    Bool.not_eq_false'] at hmetadata
  obtain ⟨⟨⟨⟨⟨⟨⟨⟨⟨⟨hactions, hhelp⟩, hlanguage⟩, hkey⟩, hshortcut⟩, hrelations⟩, hcontent⟩,
    hcollection⟩, hvirtualization⟩, -⟩, hflags⟩ := hmetadata
  simp only [structureChanged, Bool.or_eq_false_iff, decide_eq_false_iff_not, not_not] at hstructure
  have hstring : node.value = old.value := by
    simp [valueChanged] at hvalue
    exact hvalue.1
  exact {
    parent := hstructure.1.1
    role := hstructure.2
    states := congrArg StateSet.mk hstates
    actions := congrArg ActionSet.mk hactions
    name := hname
    description := hdescription
    helpText := hhelp
    value := hstring
    language := hlanguage
    accessKey := hkey
    keyboardShortcut := hshortcut
    exposure := hexposure
    children := hstructure.1.2
    relations := hrelations
    geometry := rel_of_optionalEqual hgeometry fun _ _ _ _ => same_of_geometryEqual
    rangeValue := rangeValue_same hvalue hrange
    scroll := rel_of_optionalEqual hscroll fun _ _ _ _ => same_of_scrollEqual
    selection := selection_same hselection hflags
    collection := hcollection
    virtualization := hvirtualization
    text := text_same htext hcaret hcontent }

end Same

/-! ## Published snapshots -/

/-- The node with an identity. -/
def SnapshotView.node? {F : Type} (snapshot : SnapshotView F) (id : NodeId) : Option (Node F) :=
  snapshot.nodes.find? fun node => node.id = id

namespace PublishedSnapshot

/-- The snapshot of a view that `validate` accepts. -/
def Validated (p : PublishedSnapshot F) : Prop :=
  ∃ view limits fuel result, p = publishedSnapshot view ∧
    validate view limits fuel = some result ∧ result.ok = true

variable {p : PublishedSnapshot F}

theorem Validated.isTree (h : p.Validated) : p.storage.IsTree := by
  obtain ⟨view, limits, fuel, result, rfl, hrun, hok⟩ := h
  exact validate_isTree hrun hok

theorem Validated.find_eq (h : p.Validated) (id : NodeId) : p.find id = p.storage.node? id := by
  have hdistinct := h.isTree.distinct
  obtain ⟨view, limits, fuel, result, rfl, -, -⟩ := h
  have hd : view.ids.Nodup := hdistinct
  show view.nodes[view.find id]? = view.node? id
  by_cases hid : id ∈ view.ids
  · obtain ⟨node, hat, hnode⟩ := SnapshotView.find_lt hd hid
    rw [hat, SnapshotView.node?]
    cases hfind : view.nodes.find? fun node => decide (node.id = id) with
    | none =>
      have := List.find?_eq_none.1 hfind node (List.mem_of_getElem? hat)
      simp [hnode] at this
    | some other =>
      have hother : other.id = id := by simpa using List.find?_some hfind
      rw [eq_of_id hd (List.mem_of_getElem? hat) (List.mem_of_find?_eq_some hfind)
        (hnode.trans hother.symm)]
  · rw [SnapshotView.find_of_notMem hid, List.getElem?_eq_none (Nat.le_refl _)]
    refine (List.find?_eq_none.2 fun node hnode heq => hid ?_).symm
    exact List.mem_map.2 ⟨node, hnode, by simpa using heq⟩

end PublishedSnapshot

omit [DoubleOps F] in
theorem node?_isSome_iff {snapshot : SnapshotView F} {id : NodeId} :
    (∃ node, snapshot.node? id = some node) ↔ id ∈ snapshot.ids := by
  constructor
  · rintro ⟨node, hnode⟩
    have hid : node.id = id := by simpa using List.find?_some hnode
    exact List.mem_map.2 ⟨node, List.mem_of_find?_eq_some hnode, hid⟩
  · intro hid
    obtain ⟨node, hnode, heq⟩ := List.mem_map.1 hid
    refine Option.isSome_iff_exists.1 (List.find?_isSome.2 ⟨node, hnode, by simpa using heq⟩)

/-! ## The mark of an invalidation -/

namespace Runtime

variable {r : Runtime F} {before : Option (PublishedSnapshot F)} {after : PublishedSnapshot F}
  {kind : NotificationKind} {id : NodeId} {property : PropertyKind}

section Marks

/-- One invalidation is queued when one is pending, and none otherwise. -/
def Marked (r : Runtime F) : Prop :=
  r.notifications.contents.countP PendingNotification.isInvalidation =
    if r.invalidationPending then 1 else 0

omit [DoubleOps F]

theorem Marked.exists_invalidation (h : r.Marked) (hpending : r.invalidationPending = true) :
    ∃ n ∈ r.notifications.contents, n.isInvalidation = true := by
  rw [Marked, if_pos hpending] at h
  exact List.countP_pos_iff.1 (by omega)

/-- The claim of the queue information. -/
theorem Marked.pending_iff (h : r.Marked) : r.invalidationPending = true ↔
    r.notifications.contents.countP PendingNotification.isInvalidation = 1 := by
  rw [Marked] at h
  rw [h]
  cases r.invalidationPending <;> simp

theorem marked_invalidation : (r.invalidation before after).Marked := by
  simp [Marked, invalidation, PendingNotification.isInvalidation]

theorem marked_pushDiff (h : r.Marked) (hkind : kind ≠ .treeInvalidated) :
    (r.pushDiff before after kind id property).Marked := by
  unfold pushDiff
  split
  · exact h
  · split
    · exact marked_invalidation
    · simpa [Marked, PendingNotification.isInvalidation, hkind] using h

/-- Refreshing the invalidation leaves one. -/
theorem countP_updateFirst {q : Lib.Ring (PendingNotification F)}
    {f : PendingNotification F → PendingNotification F}
    (hf : ∀ n, n.isInvalidation = true → (f n).isInvalidation = true)
    (h : ∃ n ∈ q.contents, n.isInvalidation = true) :
    (q.updateFirst PendingNotification.isInvalidation f).contents.countP
      PendingNotification.isInvalidation =
        q.contents.countP PendingNotification.isInvalidation := by
  obtain ⟨l₁, n, l₂, heq, hn, -, hnext⟩ := Lib.Ring.updateFirst_split (f := f) h
  rw [hnext, heq]
  simp [List.countP_append, hn, hf n hn]

theorem marked_invalidateTree {snapshot : PublishedSnapshot F} (h : r.Marked) :
    (r.invalidateTree snapshot).Marked := by
  unfold invalidateTree
  split
  · rename_i hpending
    refine (countP_updateFirst (fun n hn => ?_) (h.exists_invalidation hpending)).trans h
    exact hn
  · rename_i hpending
    rw [Marked, if_neg hpending] at h
    have hroom : r.notifications.makeRoom.contents.countP PendingNotification.isInvalidation = 0 := by
      unfold Lib.Ring.makeRoom
      split
      · simp
      · exact h
    simp [Marked, hroom, PendingNotification.isInvalidation]

theorem marked_notifyFocus {snapshot : PublishedSnapshot F} {focusGained : Bool} (h : r.Marked) :
    (r.notifyFocus snapshot focusGained).Marked := by
  unfold notifyFocus
  split
  · split
    · exact h
    · simpa [Marked, PendingNotification.isInvalidation] using h
  · exact h

theorem marked_invalidateHost {focusGained : Bool} (h : r.Marked) :
    (r.invalidateHost focusGained).Marked := by
  unfold invalidateHost
  split
  · exact h
  · split
    · exact h
    · exact marked_notifyFocus (marked_invalidateTree h)

theorem marked_pushAnnouncement {snapshot : PublishedSnapshot F} {announcement : AnnouncementView}
    (h : r.Marked) : (r.pushAnnouncement snapshot id announcement).2.Marked := by
  unfold pushAnnouncement
  split
  · exact h
  · split
    · exact h
    · simpa [Marked, PendingNotification.isInvalidation] using h

theorem marked_drainNotification {n : PendingNotification F} {r' : Runtime F} (h : r.Marked)
    (hdrain : r.drainNotification = some (n, r')) : r'.Marked := by
  unfold drainNotification at hdrain
  split at hdrain
  · cases hdrain
  · rename_i hcount
    simp only [Bool.or_eq_true, decide_eq_true_eq, not_or] at hcount
    obtain ⟨rfl, rfl⟩ := Prod.mk.inj (Option.some.inj hdrain)
    rw [Marked, Lib.Ring.contents_pop hcount.2, List.countP_cons] at h
    rw [Marked]
    dsimp only
    generalize (r.notifications.slots.getD r.notifications.head default).isInvalidation = b at h ⊢
    cases b with
    | true =>
      cases hpending : r.invalidationPending <;> simp [hpending] at h
      simpa using h
    | false => simpa using h

theorem marked_clearNotifications : r.clearNotifications.Marked := by
  simp [Marked, clearNotifications]

/-! ## The differences -/

/-- A notification of the publication of `after` over `before`. -/
structure OfPublication (before : Option (PublishedSnapshot F)) (after : PublishedSnapshot F)
    (n : PendingNotification F) : Prop where
  generation : n.notification.generation = after.storage.generation
  before : n.before = before
  after : n.after = some after

/-- An invalidation of the tree `after` is queued. -/
def Swept (after : PublishedSnapshot F) (r : Runtime F) : Prop :=
  ∃ n ∈ r.notifications.contents, n.isInvalidation = true ∧ n.after = some after

/-- The queue holds a notification of the publication with a property, or an invalidation. -/
def Told (before : Option (PublishedSnapshot F)) (after : PublishedSnapshot F)
    (P : Notification → Prop) (r : Runtime F) : Prop :=
  (∃ n ∈ r.notifications.contents, OfPublication before after n ∧ P n.notification) ∨ Swept after r

variable {P Q : Notification → Prop}

theorem Told.imp (h : Told before after P r) (hPQ : ∀ n, P n → Q n) : Told before after Q r := by
  rcases h with ⟨n, hn, hof, hP⟩ | h
  · exact .inl ⟨n, hn, hof, hPQ _ hP⟩
  · exact .inr h

/-- What the diff keeps: an invalidation that is pending is one of the new tree. -/
structure Diffing (after : PublishedSnapshot F) (r : Runtime F) : Prop where
  marked : r.Marked
  swept : r.invalidationPending = true → Swept after r

theorem swept_invalidation : Swept after (r.invalidation before after) := by
  simp [Swept, invalidation, PendingNotification.isInvalidation]

theorem Diffing.pushDiff (h : Diffing after r) (hkind : kind ≠ .treeInvalidated) :
    Diffing after (r.pushDiff before after kind id property) := by
  refine ⟨marked_pushDiff h.marked hkind, ?_⟩
  unfold Runtime.pushDiff
  split
  · exact h.swept
  · rename_i hpending
    split
    · exact fun _ => swept_invalidation
    · exact fun hpending' => absurd hpending' hpending

/-- What was told stays told. -/
theorem Told.pushDiff (h : Told before after P r) :
    Told before after P (r.pushDiff before after kind id property) := by
  unfold Runtime.pushDiff
  split
  · exact h
  · split
    · exact .inr swept_invalidation
    · rcases h with ⟨n, hn, hof, hP⟩ | ⟨n, hn, hinv, hafter⟩
      · exact .inl ⟨n, by simp [hn], hof, hP⟩
      · exact .inr ⟨n, by simp [hn], hinv, hafter⟩

theorem told_pushDiff (h : Diffing after r)
    (hP : P { kind, generation := after.storage.generation, node := id, property }) :
    Told before after P (r.pushDiff before after kind id property) := by
  unfold Runtime.pushDiff
  split
  · rename_i hpending
    exact .inr (h.swept hpending)
  · split
    · exact .inr swept_invalidation
    · rename_i hroom
      let n : PendingNotification F :=
        { notification := { kind, generation := after.storage.generation, node := id, property }
          before, after := some after }
      have hn : n ∈ (r.notifications.push n hroom).contents := by simp
      exact .inl ⟨n, hn, ⟨rfl, rfl, rfl⟩, hP⟩

/-- The invalidation of a first publication. -/
theorem pushInvalidation (before : Option (PublishedSnapshot F)) (after : PublishedSnapshot F)
    (id : NodeId) (property : PropertyKind) (h : r.Marked) (hidle : r.invalidationPending = false) :
    (r.pushDiff before after .treeInvalidated id property).notifications.contents.countP
        PendingNotification.isInvalidation = 1 ∧
      Swept after (r.pushDiff before after .treeInvalidated id property) := by
  rw [Marked, hidle, if_neg Bool.false_ne_true] at h
  unfold Runtime.pushDiff
  rw [if_neg (Bool.eq_false_iff.1 hidle)]
  split
  · exact ⟨marked_invalidation, swept_invalidation⟩
  · simp [h, Swept, PendingNotification.isInvalidation]

/-- Pushing the notifications of a node. -/
theorem pushChanges (before : Option (PublishedSnapshot F)) (id : NodeId) (h : Diffing after r) (l : List (NotificationKind × PropertyKind))
    (hl : ∀ change ∈ l, change.1 ≠ .treeInvalidated) :
    let r' := l.foldl (fun r change => r.pushDiff before after change.1 id change.2) r
    Diffing after r' ∧ (∀ P, Told before after P r → Told before after P r') ∧
      (l ≠ [] → Told before after (·.node = id) r') := by
  induction l generalizing r with
  | nil => exact ⟨h, fun _ hP => hP, fun hne => absurd rfl hne⟩
  | cons change l ih =>
    obtain ⟨hchange, hl⟩ := List.forall_mem_cons.1 hl
    obtain ⟨hdiff, hkeep, -⟩ := ih (h.pushDiff hchange) hl
    refine ⟨hdiff, fun P hP => hkeep P hP.pushDiff, fun _ => hkeep _ (told_pushDiff h rfl)⟩

end Marks

theorem changes_ne_treeInvalidated (node old : Node F) :
    ∀ change ∈ changes node old, change.1 ≠ .treeInvalidated := by
  intro change hchange
  obtain ⟨check, hcheck, rfl⟩ := List.mem_map.1 hchange
  have hmem := (List.mem_filter.1 hcheck).1
  simp only [List.mem_cons, List.not_mem_nil, or_false] at hmem
  rcases hmem with rfl | rfl | rfl | rfl | rfl | rfl | rfl | rfl | rfl | rfl | rfl | rfl | rfl <;>
    simp

/-- What is known of the nodes the loop has done. -/
structure Scanned (previous after : PublishedSnapshot F) (differ : Bool) (done : List (Node F))
    (acc : Bool × Runtime F) : Prop where
  diffing : Diffing after acc.2
  differ : differ = true → acc.1 = true
  missing : ∀ node ∈ done, previous.find node.id = none → acc.1 = true
  told : ∀ node ∈ done, ∀ old, previous.find node.id = some old → ¬ node.Same old →
    acc.1 = true ∨ Told (some previous) after (·.node = node.id) acc.2

theorem Scanned.diffNode {previous after : PublishedSnapshot F} {differ : Bool}
    {done : List (Node F)} {acc : Bool × Runtime F} (h : Scanned previous after differ done acc)
    (node : Node F) :
    Scanned previous after differ (done ++ [node]) (diffNode previous after acc node) := by
  unfold Runtime.diffNode
  cases hfind : previous.find node.id with
  | none =>
    refine ⟨h.diffing, fun _ => rfl, fun _ _ _ => rfl, fun _ _ _ _ _ => .inl rfl⟩
  | some old =>
    obtain ⟨hdiffing, hkeep, htold⟩ := pushChanges (some previous) node.id h.diffing
      (changes node old) (changes_ne_treeInvalidated node old)
    refine ⟨hdiffing, fun hd => by simp [h.differ hd], fun x hx hmissing => ?_,
      fun x hx old' hold' hdiffers => ?_⟩
    · rcases List.mem_append.1 hx with hx | hx
      · simp [h.missing x hx hmissing]
      · rw [List.mem_singleton.1 hx, hfind] at hmissing
        cases hmissing
    · rcases List.mem_append.1 hx with hx | hx
      · rcases h.told x hx old' hold' hdiffers with hstructure | htold'
        · exact .inl (by simp [hstructure])
        · exact .inr (hkeep _ htold')
      · obtain rfl := List.mem_singleton.1 hx
        obtain rfl := Option.some.inj (hfind.symm.trans hold')
        cases hstructure : structureChanged x old with
        | true => exact .inl (by simp [hstructure])
        | false =>
          refine .inr (htold fun hnone => hdiffers ?_)
          exact same_of_changes hnone hstructure

theorem scanned_foldl {previous after : PublishedSnapshot F} {differ : Bool}
    {done : List (Node F)} {acc : Bool × Runtime F} (h : Scanned previous after differ done acc)
    (nodes : List (Node F)) :
    Scanned previous after differ (done ++ nodes) (nodes.foldl (Runtime.diffNode previous after) acc) := by
  induction nodes generalizing done acc with
  | nil => simpa using h
  | cons node nodes ih =>
    have := ih (h.diffNode node)
    rwa [List.append_assoc] at this

/-- A node that left is noticed: the numbers of nodes differ or another one came. -/
theorem structure_of_removed {previous after : PublishedSnapshot F} {acc : Bool × Runtime F}
    (hprevious : previous.Validated) (hafter : after.Validated)
    (h : Scanned previous after
      (decide (previous.storage.nodes.length ≠ after.storage.nodes.length))
      after.storage.nodes acc) {id : NodeId} (hold : id ∈ previous.storage.ids)
    (hnew : id ∉ after.storage.ids) : acc.1 = true := by
  by_cases hlength : previous.storage.nodes.length = after.storage.nodes.length
  · by_contra hstructure
    have hsub : after.storage.ids ⊆ previous.storage.ids := by
      intro other hother
      obtain ⟨node, hnode, rfl⟩ := List.mem_map.1 hother
      by_contra hnot
      refine hstructure (h.missing node hnode ?_)
      rw [hprevious.find_eq, Option.eq_none_iff_forall_ne_some]
      exact fun x hx => hnot (node?_isSome_iff.1 ⟨x, hx⟩)
    have hsubperm := List.subperm_of_subset hafter.isTree.distinct hsub
    have hperm := hsubperm.perm_of_length_le (by simp [SnapshotView.ids, hlength])
    exact hnew (hperm.mem_iff.2 hold)
  · exact h.differ (decide_eq_true hlength)

/-- Everything that differs is told. -/
def NothingLost (before : Option (PublishedSnapshot F)) (after : PublishedSnapshot F)
    (r : Runtime F) : Prop :=
  ∀ id, ¬ Option.Rel Node.Same (after.storage.node? id) (before.bind (·.storage.node? id)) →
    Told before after (fun n => n.node = id ∨ n.kind = .structureChanged) r

theorem nothingLost_of_scanned {previous after : PublishedSnapshot F} {acc : Bool × Runtime F}
    (hprevious : previous.Validated) (hafter : after.Validated)
    (h : Scanned previous after
      (decide (previous.storage.nodes.length ≠ after.storage.nodes.length))
      after.storage.nodes acc) :
    NothingLost (some previous) after
      (if acc.1 then
        acc.2.pushDiff (some previous) after .structureChanged after.storage.root .name
      else acc.2) := by
  intro id hdiffers
  -- a change of the structure is told at the end
  have hstructure : acc.1 = true → Told (some previous) after
      (fun n => n.node = id ∨ n.kind = .structureChanged)
      (if acc.1 then
        acc.2.pushDiff (some previous) after .structureChanged after.storage.root .name
      else acc.2) := by
    intro htrue
    rw [if_pos htrue]
    exact told_pushDiff h.diffing (.inr rfl)
  rw [Option.bind_some] at hdiffers
  cases hnew : after.storage.node? id with
  | none =>
    have hnot : id ∉ after.storage.ids := fun hid => by
      obtain ⟨node, hnode⟩ := node?_isSome_iff.2 hid
      rw [hnew] at hnode
      cases hnode
    cases hold : previous.storage.node? id with
    | none =>
      rw [hnew, hold] at hdiffers
      exact absurd .none hdiffers
    | some old =>
      exact hstructure (structure_of_removed hprevious hafter h
        (node?_isSome_iff.1 ⟨old, hold⟩) hnot)
  | some node =>
    have hid : node.id = id := by simpa using List.find?_some hnew
    have hmem := List.mem_of_find?_eq_some hnew
    cases hold : previous.storage.node? id with
    | none => exact hstructure (h.missing node hmem (by rw [hprevious.find_eq, hid, hold]))
    | some old =>
      rw [hnew, hold] at hdiffers
      have hfind : previous.find node.id = some old := by rw [hprevious.find_eq, hid, hold]
      rcases h.told node hmem old hfind fun hsame => hdiffers (.some hsame) with htrue | htold
      · exact hstructure htrue
      · have htold' := htold.imp (Q := fun n => n.node = id ∨ n.kind = .structureChanged)
          fun n hn => .inl (hn.trans hid)
        split
        · exact htold'.pushDiff
        · exact htold'

/-- **No change is lost** by a publication. -/
theorem queueDiff_nothingLost (h : r.Marked) (hbefore : ∀ p ∈ before, p.Validated)
    (hafter : after.Validated) :
    (r.queueDiff before after).Marked ∧ NothingLost before after (r.queueDiff before after) := by
  unfold queueDiff
  split
  · rename_i hpending
    have hexists := h.exists_invalidation hpending
    have hany : r.notifications.contents.any PendingNotification.isInvalidation = true := by
      simpa using hexists
    rw [if_pos hany]
    refine ⟨(countP_updateFirst (fun n hn => ?_) hexists).trans h, fun id _ => .inr ?_⟩
    · exact hn
    · obtain ⟨n, hn, hmem⟩ := Lib.Ring.exists_updateFirst
        (fun pending => { pending.refresh after with before := none }) hexists
      exact ⟨_, hmem, hn, rfl⟩
  · rename_i hpending
    have hidle : r.invalidationPending = false := Bool.eq_false_iff.2 hpending
    cases before with
    | none =>
      obtain ⟨hcount, hswept⟩ := pushInvalidation none after after.storage.root .name h hidle
      exact ⟨hcount, fun id _ => .inr hswept⟩
    | some previous =>
      let differ := decide (previous.storage.nodes.length ≠ after.storage.nodes.length)
      have hstart : Scanned previous after differ [] (differ, r) :=
        ⟨⟨h, fun htrue => absurd htrue hpending⟩, fun hd => hd, by simp, by simp⟩
      have hscan := scanned_foldl hstart after.storage.nodes
      rw [List.nil_append] at hscan
      have hlost : NothingLost (some previous) after
          (if (after.storage.nodes.foldl (Runtime.diffNode previous after) (differ, r)).1 then
            (after.storage.nodes.foldl (Runtime.diffNode previous after) (differ, r)).2.pushDiff
              (some previous) after .structureChanged after.storage.root .name
          else (after.storage.nodes.foldl (Runtime.diffNode previous after) (differ, r)).2) :=
        nothingLost_of_scanned (hbefore previous rfl) hafter hscan
      refine ⟨?_, hlost⟩
      dsimp only
      split
      · exact marked_pushDiff hscan.diffing.marked (by simp)
      · exact hscan.diffing.marked

end Runtime

end Desktop

import GameWIP.Desktop.Validation
import GameWIP.Lib.CoalescingQueue
import GameWIP.Lib.Ring

/-!
# The accessibility transport of one activation

`AccessibilityRuntime` (`desktop/internal/accessibility_state.h`) with what is done to it under its
locks (`desktop/core/accessibility.cpp`): actions are submitted and popped under `actionMutex`,
notifications are queued and drained under `notificationMutex`. `publish` queues the differences of
two snapshots (`Runtime.queueDiff`).

The UTF-16 texts and native data that a published snapshot also keeps are left out; no function here
reads them. `Runtime.history` is not in the code: it records what was accepted and popped.
-/

namespace Desktop

open Lib (Event)
open Unicode (Utf8.validate)

/-! ## Published snapshots -/

/-- An immutable tree with its index and the grapheme boundaries of its texts. -/
structure PublishedSnapshot (F : Type) where
  storage : SnapshotView F
  focusedNode : NodeId := 0
  index : List (NodeId × Nat)
  textCache : List (List Nat)

namespace PublishedSnapshot

variable {F : Type}

def findIndex (snapshot : PublishedSnapshot F) (id : NodeId) : Nat :=
  match snapshot.index[Lib.search (fun a b => decide (a < b)) Prod.fst snapshot.index id]? with
  | some entry => if entry.1 = id then entry.2 else snapshot.storage.nodes.length
  | none => snapshot.storage.nodes.length

def find (snapshot : PublishedSnapshot F) (id : NodeId) : Option (Node F) :=
  snapshot.storage.nodes[snapshot.findIndex id]?

end PublishedSnapshot

/-- The boundaries `indexText` keeps. -/
def indexText {F : Type} (node : Node F) : List Nat :=
  match node.text with
  | none => []
  | some text => graphemeBoundaries text.utf8

/-- The candidate that `publish` builds. -/
def publishedSnapshot {F : Type} (snapshot : SnapshotView F) : PublishedSnapshot F where
  storage := snapshot
  focusedNode := snapshot.nodes.foldl
    (fun focused node => if node.states.contains .focused then node.id else focused) 0
  index := snapshot.index
  textCache := snapshot.nodes.map indexText

/-! ## Actions and notifications -/

inductive ActionAcceptance where
  | accepted
  | rejected
  | closed
  | invalid
  | unsupported
  | queueFull
  deriving DecidableEq, Repr

structure ActionResult where
  acceptance : ActionAcceptance := .rejected
  requestId : RequestId := 0
  observedGeneration : Generation := 0
  deriving DecidableEq, Repr

abbrev ScrollUnit := UInt8

def ScrollUnit.step : ScrollUnit := 2

abbrev SelectionOperation := UInt8

def SelectionOperation.remove : SelectionOperation := 2

structure ScrollRequest (F : Type) where
  horizontal : F
  vertical : F
  absolute : Bool := false
  unit : ScrollUnit := 0
  deriving DecidableEq, Repr

structure ActionRequest (F : Type) where
  requestId : RequestId := 0
  observedGeneration : Generation := 0
  node : NodeId := 0
  action : ActionKind := .invoke
  value : F
  point : Point F
  scroll : ScrollRequest F
  range : Option TextRange := none
  selection : List TextRange := []
  text : List UInt8 := []
  selectionOperation : SelectionOperation := 0
  deriving DecidableEq, Repr

instance {F : Type} [DoubleOps F] : Inhabited (ActionRequest F) where
  default :=
    let zero : F := FloatOps.zero
    { value := zero, point := ⟨zero, zero⟩, scroll := { horizontal := zero, vertical := zero } }

inductive NotificationKind where
  | treeInvalidated
  | structureChanged
  | propertyChanged
  | focusChanged
  | selectionChanged
  | textChanged
  | liveRegionChanged
  deriving DecidableEq, Repr

inductive PropertyKind where
  | name
  | description
  | value
  | state
  | selection
  | range
  | scroll
  | geometry
  | text
  | exposure
  | metadata
  deriving DecidableEq, Repr

structure Notification where
  kind : NotificationKind := .treeInvalidated
  generation : Generation := 0
  node : NodeId := 0
  relatedNode : NodeId := 0
  property : PropertyKind := .name
  deriving DecidableEq, Repr

abbrev AnnouncementPriority := UInt8

namespace AnnouncementPriority

def normal : AnnouncementPriority := 1
def high : AnnouncementPriority := 2

end AnnouncementPriority

/-- A notification with both snapshots of its diff. The announcement is kept as the code gets it. -/
structure PendingNotification (F : Type) where
  notification : Notification := {}
  before : Option (PublishedSnapshot F) := none
  after : Option (PublishedSnapshot F) := none
  announcement : List UInt8 := []
  priority : AnnouncementPriority := .normal

instance {F : Type} : Inhabited (PendingNotification F) := ⟨{}⟩

structure AnnouncementView where
  node : NodeId := 0
  text : List UInt8 := []
  language : List UInt8 := []
  priority : AnnouncementPriority := .normal
  deriving DecidableEq, Repr

/-- The position of the flag. -/
inductive Feature where
  | announcements
  | announcementLanguage
  deriving DecidableEq, Repr

def Feature.shift : Feature → UInt64
  | .announcements => 6
  | .announcementLanguage => 18

structure Features where
  flags : UInt64 := 0
  deriving DecidableEq, Repr

def Features.supports (features : Features) (feature : Feature) : Bool :=
  features.flags &&& (1 <<< feature.shift) ≠ 0

/-! ## The state of an activation -/

structure Runtime (F : Type) where
  limits : Limits
  features : Features
  live : Bool := true
  hostEnabled : Bool := true
  snapshot : Option (PublishedSnapshot F) := none
  actions : Lib.Ring (ActionRequest F)
  nextRequest : RequestId := 1
  rejected : UInt64 := 0
  notifications : Lib.Ring (PendingNotification F)
  collapsed : UInt64 := 0
  invalidationPending : Bool := false
  history : List (Event (ActionRequest F)) := []

theorem validLimits_queues {limits : Limits} (h : validLimits limits = true) :
    0 < limits.maximumActionQueue ∧ 0 < limits.maximumNotificationQueue := by
  simp [validLimits] at h
  omega

/-! ## Differences of snapshots -/

section Diff

variable {F : Type} [DoubleOps F]

open FloatOps (eq)

def optionalEqual {α : Type} (equal : α → α → Bool) : Option α → Option α → Bool
  | none, none => true
  | some a, some b => equal a b
  | _, _ => false

/-- `std::ranges::equal`. -/
def rangesEqual {α : Type} (equal : α → α → Bool) : List α → List α → Bool
  | [], [] => true
  | a :: as, b :: bs => equal a b && rangesEqual equal as bs
  | _, _ => false

def rectEqual (a b : Rect F) : Bool :=
  eq a.x b.x && eq a.y b.y && eq a.width b.width && eq a.height b.height

def geometryEqual (a b : Geometry F) : Bool :=
  let x := a.toWindow
  let y := b.toWindow
  rectEqual a.localBounds b.localBounds && optionalEqual rectEqual a.clippingBounds b.clippingBounds &&
    eq x.m11 y.m11 && eq x.m12 y.m12 && eq x.m21 y.m21 && eq x.m22 y.m22 && eq x.tx y.tx &&
    eq x.ty y.ty && a.visible = b.visible && a.hitTestable = b.hitTestable &&
    a.hitTestOrder = b.hitTestOrder

def valueChanged (node old : Node F) : Bool :=
  node.value ≠ old.value || node.rangeValue.any fun r =>
    match old.rangeValue with
    | none => true
    | some r' => !eq r.value r'.value

def rangeEqual (a b : RangeValue F) : Bool :=
  eq a.minimum b.minimum && eq a.maximum b.maximum && eq a.smallChange b.smallChange &&
    eq a.largeChange b.largeChange

def scrollEqual (a b : ScrollInfo F) : Bool :=
  a.horizontalScrollable = b.horizontalScrollable && a.verticalScrollable = b.verticalScrollable &&
    eq a.horizontalPercent b.horizontalPercent && eq a.verticalPercent b.verticalPercent &&
    eq a.horizontalViewSize b.horizontalViewSize && eq a.verticalViewSize b.verticalViewSize

def selectionEqual (a b : SelectionInfo) : Bool :=
  a.activeNode = b.activeNode && a.selectedNodes = b.selectedNodes

def textChanged (node old : Node F) : Bool :=
  match node.text, old.text with
  | none, none => false
  | some a, some b => a.utf8 ≠ b.utf8
  | _, _ => true

def caretChanged (node old : Node F) : Bool :=
  match node.text, old.text with
  | some a, some b => a.caret ≠ b.caret || a.selection ≠ b.selection
  | _, _ => false

def fragmentEqual (x y : TextFragment F) : Bool :=
  x.range = y.range && rectEqual x.bounds y.bounds

def textMetadataEqual (a b : TextContent F) : Bool :=
  a.direction = b.direction && a.language = b.language && a.caret = b.caret &&
    a.annotations = b.annotations && rangesEqual fragmentEqual a.fragments b.fragments

def metadataChanged (node old : Node F) : Bool :=
  node.actions.flags ≠ old.actions.flags || node.helpText ≠ old.helpText ||
    node.language ≠ old.language || node.accessKey ≠ old.accessKey ||
    node.keyboardShortcut ≠ old.keyboardShortcut || node.relations ≠ old.relations ||
    !optionalEqual textMetadataEqual node.text old.text || node.collection ≠ old.collection ||
    node.virtualization ≠ old.virtualization ||
    node.selection.isSome ≠ old.selection.isSome ||
    match node.selection, old.selection with
    | some a, some b =>
      a.multiSelectable ≠ b.multiSelectable || a.selectionRequired ≠ b.selectionRequired ||
        a.activeNode ≠ b.activeNode
    | _, _ => false

/-- The notifications for a node, in the order of the checks. -/
def changes (node old : Node F) : List (NotificationKind × PropertyKind) :=
  let checks : List (Bool × NotificationKind × PropertyKind) := [
    (node.name ≠ old.name, .propertyChanged, .name),
    (node.description ≠ old.description, .propertyChanged, .description),
    (valueChanged node old, .propertyChanged, .value),
    (!optionalEqual rangeEqual node.rangeValue old.rangeValue, .propertyChanged, .range),
    (!optionalEqual scrollEqual node.scroll old.scroll, .propertyChanged, .scroll),
    (node.states.flags ≠ old.states.flags, .propertyChanged, .state),
    (node.states.contains .focused && !old.states.contains .focused, .focusChanged, .name),
    (node.states.contains .selected ≠ old.states.contains .selected ||
      !optionalEqual selectionEqual node.selection old.selection, .selectionChanged, .name),
    (textChanged node old, .textChanged, .name),
    (caretChanged node old, .selectionChanged, .text),
    (!optionalEqual geometryEqual node.geometry old.geometry, .propertyChanged, .geometry),
    (node.exposure ≠ old.exposure, .propertyChanged, .exposure),
    (metadataChanged node old, .propertyChanged, .metadata)]
  (checks.filter (·.1)).map (·.2)

/-- Whether the links or the role of a node changed. -/
def structureChanged (node old : Node F) : Bool :=
  node.parent ≠ old.parent || node.children ≠ old.children || node.role ≠ old.role

end Diff

/-! ## Notifications, under `notificationMutex` -/

namespace PendingNotification

variable {F : Type}

def isInvalidation (pending : PendingNotification F) : Bool :=
  pending.notification.kind = .treeInvalidated

/-- The invalidation of a newer tree. -/
def refresh (after : PublishedSnapshot F) (pending : PendingNotification F) :
    PendingNotification F :=
  { pending with
    notification := { pending.notification with generation := after.storage.generation }
    after := some after }

end PendingNotification

namespace Runtime

variable {F : Type}

/-- Replaces everything queued by one invalidation. -/
def invalidation (r : Runtime F) (before : Option (PublishedSnapshot F))
    (after : PublishedSnapshot F) : Runtime F :=
  { r with
    notifications := r.notifications.clear.push
      { notification :=
          { kind := .treeInvalidated, generation := after.storage.generation, node := after.storage.root }
        before, after := some after } Lib.Ring.count_ne_capacity_clear
    invalidationPending := true
    collapsed := r.collapsed + 1 }

def pushDiff (before : Option (PublishedSnapshot F)) (after : PublishedSnapshot F) (r : Runtime F)
    (kind : NotificationKind) (id : NodeId) (property : PropertyKind) : Runtime F :=
  if r.invalidationPending then r
  else if h : r.notifications.count = r.notifications.capacity then r.invalidation before after
  else
    { r with
      notifications := r.notifications.push
        { notification := { kind, generation := after.storage.generation, node := id, property }
          before, after := some after } h }

variable [DoubleOps F]

/-- The loop body: whether the structure changed so far, and the notifications of a node. -/
def diffNode (previous after : PublishedSnapshot F) (acc : Bool × Runtime F) (node : Node F) :
    Bool × Runtime F :=
  match previous.find node.id with
  | none => (true, acc.2)
  | some old =>
    (acc.1 || structureChanged node old,
      (changes node old).foldl
        (fun r change => r.pushDiff (some previous) after change.1 node.id change.2) acc.2)

def queueDiff (r : Runtime F) (before : Option (PublishedSnapshot F))
    (after : PublishedSnapshot F) : Runtime F :=
  if r.invalidationPending then
    if r.notifications.contents.any PendingNotification.isInvalidation then
      { r with
        notifications := r.notifications.updateFirst PendingNotification.isInvalidation fun pending =>
          { pending.refresh after with before := none }
        collapsed := r.collapsed + 1 }
    else r
  else
    match before with
    | none =>
      { r.pushDiff none after .treeInvalidated after.storage.root .name with
        invalidationPending := true }
    | some previous =>
      let (structure_, r) := after.storage.nodes.foldl (diffNode previous after)
        (decide (previous.storage.nodes.length ≠ after.storage.nodes.length), r)
      if structure_ then r.pushDiff before after .structureChanged after.storage.root .name else r

omit [DoubleOps F] in
/-- The invalidation of `invalidateAccessibilityHost`. -/
def invalidateTree (r : Runtime F) (snapshot : PublishedSnapshot F) : Runtime F :=
  if r.invalidationPending then
    { r with
      notifications :=
        r.notifications.updateFirst PendingNotification.isInvalidation (·.refresh snapshot) }
  else
    { r with
      invalidationPending := true
      collapsed := if r.notifications.count = r.notifications.capacity then r.collapsed + 1
        else r.collapsed
      notifications := r.notifications.makeRoom.push
        { notification :=
            { kind := .treeInvalidated
              generation := snapshot.storage.generation
              node := snapshot.storage.root }
          before := some snapshot
          after := some snapshot } Lib.Ring.count_ne_capacity_makeRoom }

omit [DoubleOps F] in
/-- Its focus notification. -/
def notifyFocus (r : Runtime F) (snapshot : PublishedSnapshot F) (focusGained : Bool) : Runtime F :=
  if focusGained && snapshot.focusedNode ≠ 0 then
    if h : r.notifications.count = r.notifications.capacity then
      { r with collapsed := r.collapsed + 1 }
    else
      { r with
        notifications := r.notifications.push
          { notification :=
              { kind := .focusChanged
                generation := snapshot.storage.generation
                node := snapshot.focusedNode }
            before := some snapshot
            after := some snapshot } h }
  else r

/-- The locked section of `invalidateAccessibilityHost`. -/
def invalidateHost (r : Runtime F) (focusGained : Bool) : Runtime F :=
  match r.snapshot with
  | none => r
  | some snapshot =>
    if !r.live then r else (r.invalidateTree snapshot).notifyFocus snapshot focusGained

/-- The locked section of `announce`. -/
def pushAnnouncement (r : Runtime F) (snapshot : PublishedSnapshot F) (id : NodeId)
    (announcement : AnnouncementView) : Io.Status × Runtime F :=
  if !r.live then (Io.makeStatus .notOpen, r)
  else if h : r.notifications.count = r.notifications.capacity then
    (Io.makeStatus .sizeLimitExceeded, r)
  else
    ({},
      { r with
        notifications := r.notifications.push
          { notification :=
              { kind := .liveRegionChanged, generation := snapshot.storage.generation, node := id }
            after := some snapshot
            announcement := announcement.text
            priority := announcement.priority } h })

/-- One turn of the loop of `drainAccessibilityNotifications`; none when the loop returns. -/
def drainNotification (r : Runtime F) : Option (PendingNotification F × Runtime F) :=
  if !r.live || r.notifications.count = 0 then none
  else
    let notification := r.notifications.slots.getD r.notifications.head default
    some (notification,
      { r with
        notifications := r.notifications.pop
        invalidationPending :=
          if notification.isInvalidation then false else r.invalidationPending })

/-! ## Actions -/

/-- A text range at boundaries. -/
def validTextRange (boundaries : List Nat) (range : TextRange) : Bool :=
  range.begin ≤ range.end_ && binarySearch boundaries range.begin &&
    binarySearch boundaries range.end_

/-- What `submitAccessibilityAction` checks against the snapshot it loaded, without a lock. -/
def checkAction (r : Runtime F) (snapshot : Option (PublishedSnapshot F)) (request : ActionRequest F) :
    Except ActionAcceptance (PublishedSnapshot F) :=
  match snapshot with
  | none => .error .invalid
  | some snapshot =>
    match snapshot.find request.node with
    | none => .error .invalid
    | some node =>
      if request.action ≥ .count || !node.actions.contains request.action then .error .unsupported
      else if node.states.contains .disabled || !r.hostEnabled then .error .rejected
      else if !DoubleOps.isfinite request.value || !DoubleOps.isfinite request.point.x ||
          !DoubleOps.isfinite request.point.y || !DoubleOps.isfinite request.scroll.horizontal ||
          !DoubleOps.isfinite request.scroll.vertical ||
          request.text.length > r.limits.maximumActionTextBytes ||
          request.selection.length > r.limits.maximumSelectionRangesPerAction ||
          !validUtf8 request.text then .error .invalid
      else if request.action = .setValue && node.states.contains .readOnly then .error .rejected
      else if request.action = .setValue && node.rangeValue.any (fun range =>
          FloatOps.lt request.value range.minimum || FloatOps.lt range.maximum request.value) then
        .error .invalid
      else if request.scroll.unit > .step || request.selectionOperation > .remove then
        .error .invalid
      else if request.action = .setTextSelection || request.range.isSome ||
          !request.selection.isEmpty then
        match node.text with
        | none => .error .unsupported
        | some _ =>
          let boundaries := snapshot.textCache.getD (snapshot.findIndex node.id) []
          if request.range.any (!validTextRange boundaries ·) ||
              request.selection.any (!validTextRange boundaries ·) then .error .invalid
          else .ok snapshot
      else .ok snapshot

/-- The actions of which only the newest matters. -/
def coalescible (action : ActionKind) : Bool :=
  action = .focus || action = .setValue || action = .scrollTo || action = .realize

/-- The new request takes the place of the tail. -/
def replaces (tail request : ActionRequest F) : Bool :=
  coalescible request.action && tail.node = request.node && tail.action = request.action

/-- The identity and the generation filled in. -/
def fillRequest (r : Runtime F) (snapshot : PublishedSnapshot F) (request : ActionRequest F) :
    ActionRequest F :=
  { request with
    requestId := r.nextRequest
    observedGeneration :=
      if request.observedGeneration = 0 then snapshot.storage.generation
      else request.observedGeneration }

/-- The locked section of `submitAccessibilityAction`. -/
def commitAction (r : Runtime F) (snapshot : PublishedSnapshot F) (request : ActionRequest F) :
    ActionResult × Runtime F :=
  if !r.live then ({ acceptance := .closed }, r)
  else if r.nextRequest = 0 then ({ acceptance := .rejected }, r)
  else
    let request := r.fillRequest snapshot request
    if request.observedGeneration > snapshot.storage.generation then
      ({ acceptance := .invalid }, r)
    else
      let r := { r with nextRequest := r.nextRequest + 1 }
      let result : ActionResult :=
        { acceptance := .accepted
          requestId := request.requestId
          observedGeneration := request.observedGeneration }
      let tail := r.actions.slots.getD (r.actions.slot (r.actions.count - 1)) default
      if r.actions.count ≠ 0 && replaces tail request then
        (result,
          { r with
            actions := r.actions.setTail request
            history := r.history ++ [.accepted request] })
      else if h : r.actions.count = r.actions.capacity then
        ({ acceptance := .queueFull, observedGeneration := request.observedGeneration },
          { r with rejected := r.rejected + 1 })
      else
        (result,
          { r with
            actions := r.actions.push request h
            history := r.history ++ [.accepted request] })

/-- The locked section of `popAction`. -/
def popAction (r : Runtime F) : Option (ActionRequest F × Runtime F) :=
  if !r.live || r.actions.count = 0 then none
  else
    let request := r.actions.slots.getD r.actions.head default
    some (request, { r with actions := r.actions.pop, history := r.history ++ [.popped request] })

/-! ## The life of an activation -/

/-- The runtime that `enable` makes. -/
def create (limits : Limits) (features : Features) (h : validLimits limits = true) : Runtime F where
  limits
  features
  actions := Lib.Ring.ofCapacity limits.maximumActionQueue (validLimits_queues h).1
  notifications := Lib.Ring.ofCapacity limits.maximumNotificationQueue (validLimits_queues h).2

/-- The locked sections of `closeAccessibility`. -/
def clearActions (r : Runtime F) : Runtime F := { r with actions := r.actions.clear }

def clearNotifications (r : Runtime F) : Runtime F :=
  { r with notifications := r.notifications.clear, invalidationPending := false }

end Runtime

end Desktop

import GameWIP.Lib.Ring

/-!
# The event queue of a Window

`enqueueEvent` (`desktop/core/events.cpp`) with `Window::popEvent`, `popEvents` and `clearEvents`
(`desktop/core/window.cpp`) over the fixed slots of `WindowState`. The payloads are those of
`desktop/events.h`. Sequence numbers and the count of drops are natural numbers: they do not wrap in
fewer than 2^64 events. The owner thread makes the calls.
-/

namespace Desktop

namespace Events

/-! ## Payloads -/

/-- A `float` by its bits. -/
structure Binary32 where
  bits : UInt32
  deriving DecidableEq, Repr

namespace Binary32

def magnitude (a : Binary32) : UInt32 := a.bits &&& 0x7FFFFFFF

def isNaN (a : Binary32) : Bool := a.magnitude > 0x7F800000

/-- No value equals a NaN, and both zeros are equal. -/
instance : BEq Binary32 where
  beq a b := !a.isNaN && !b.isNaN && (a.bits = b.bits || (a.magnitude = 0 && b.magnitude = 0))

end Binary32

structure ScreenPosition where
  x : Int32 := 0
  y : Int32 := 0
  deriving DecidableEq, Repr

structure LogicalPosition where
  x : Int32 := 0
  y : Int32 := 0
  deriving DecidableEq, Repr

structure LogicalSize where
  width : UInt32 := 0
  height : UInt32 := 0
  deriving DecidableEq, Repr

structure PixelSize where
  width : UInt32 := 0
  height : UInt32 := 0
  deriving DecidableEq, Repr

structure ContentScale where
  x : Binary32 := ⟨0x3F800000⟩
  y : Binary32 := ⟨0x3F800000⟩
  deriving DecidableEq, Repr

instance : BEq ContentScale where
  beq a b := a.x == b.x && a.y == b.y

structure Dpi where
  x : Binary32 := ⟨0⟩
  y : Binary32 := ⟨0⟩
  deriving DecidableEq, Repr

instance : BEq Dpi where
  beq a b := a.x == b.x && a.y == b.y

abbrev WindowId := UInt64

abbrev MonitorId := UInt64

inductive CloseRequestSource where
  | user
  | programmatic
  | system
  deriving DecidableEq, Repr

inductive WindowMode where
  | windowed
  | borderlessFullscreen
  | exclusiveFullscreen
  deriving DecidableEq, Repr

inductive PresentationState where
  | normal
  | minimized
  | maximized
  deriving DecidableEq, Repr

structure ContentScaleChanged where
  previousScale : ContentScale := {}
  scale : ContentScale := {}
  previousDpi : Dpi := {}
  dpi : Dpi := {}
  framebufferSize : PixelSize := {}
  deriving DecidableEq, Repr

inductive Payload where
  | closeRequested (source : CloseRequestSource)
  | nativeDestroyed
  | interactiveMoveResizeStarted
  | interactiveMoveResizeEnded
  | visibilityChanged (visible : Bool)
  | clientPositionChanged (position : ScreenPosition)
  | clientSizeChanged (size : LogicalSize)
  | framebufferSizeChanged (size : PixelSize)
  | focusChanged (focused : Bool)
  | presentationStateChanged (state : PresentationState)
  | contentScaleChanged (change : ContentScaleChanged)
  | monitorChanged (previousMonitor monitor : MonitorId)
  | windowModeChanged (previous current : WindowMode)
  | ownerChanged (previousOwner owner : Option WindowId)
  | displayConfigurationChanged
  | cursorPresenceChanged (insideClientArea : Bool)
  | filesDropped (clientPosition : Option LogicalPosition) (paths : List (List UInt16))
  | occlusionChanged (occluded : Bool)
  | redrawRequested
  deriving DecidableEq, Repr

structure Event where
  sequence : Nat := 0
  data : Payload := .closeRequested .user
  deriving DecidableEq, Repr

instance : Inhabited Event := ⟨{}⟩

/-! ## The queue -/

structure WindowState where
  queue : Lib.Ring Event
  suppressEvents : Bool := false
  nextSequence : Nat := 1
  droppedEvents : Nat := 0

inductive EnqueueResult where
  | queued
  | coalesced
  | dropped
  deriving DecidableEq, Repr

def isCoalescible : Payload → Bool
  | .clientPositionChanged _ | .clientSizeChanged _ | .framebufferSizeChanged _
  | .contentScaleChanged _ => true
  | _ => false

/-- The index of the payload's alternative. -/
def Payload.index : Payload → Nat
  | .closeRequested _ => 0
  | .nativeDestroyed => 1
  | .interactiveMoveResizeStarted => 2
  | .interactiveMoveResizeEnded => 3
  | .visibilityChanged _ => 4
  | .clientPositionChanged _ => 5
  | .clientSizeChanged _ => 6
  | .framebufferSizeChanged _ => 7
  | .focusChanged _ => 8
  | .presentationStateChanged _ => 9
  | .contentScaleChanged _ => 10
  | .monitorChanged _ _ => 11
  | .windowModeChanged _ _ => 12
  | .ownerChanged _ _ => 13
  | .displayConfigurationChanged => 14
  | .cursorPresenceChanged _ => 15
  | .filesDropped _ _ => 16
  | .occlusionChanged _ => 17
  | .redrawRequested => 18

def sameCoalescibleType (left right : Payload) : Bool :=
  left.index = right.index && isCoalescible left

/-- The queued scale transition extended to the latest state, and whether it has returned to its
start. -/
def mergeContentScaleChanged (queued latest : ContentScaleChanged) : ContentScaleChanged × Bool :=
  ({ queued with scale := latest.scale, dpi := latest.dpi, framebufferSize := latest.framebufferSize },
    queued.previousScale == latest.scale && queued.previousDpi == latest.dpi)

/-- The last event of the payload's type among the coalescible events at the end of the first
`offset`. -/
def findMergeable (queue : Lib.Ring Event) (data : Payload) : Nat → Option Nat
  | 0 => none
  | offset + 1 =>
    let queued := queue.get offset
    if !isCoalescible queued.data then none
    else if sameCoalescibleType queued.data data then some offset
    else findMergeable queue data offset

def discardAt (state : WindowState) (index : Nat) : WindowState :=
  { state with queue := state.queue.removeAt index, droppedEvents := state.droppedEvents + 1 }

/-- The payload goes into the queued event of its type. -/
def coalesce (state : WindowState) (index : Nat) (data : Payload) : WindowState :=
  match (state.queue.get index).data, data with
  | .contentScaleChanged queuedScale, .contentScaleChanged latestScale =>
    let (merged, noNetScaleChange) := mergeContentScaleChanged queuedScale latestScale
    let queue := state.queue.modify index fun queued =>
      { queued with data := .contentScaleChanged merged }
    { state with queue := if noNetScaleChange then queue.removeAt index else queue }
  | _, _ => { state with queue := state.queue.modify index fun queued => { queued with data } }

/-- The event that makes room in a full queue. -/
def replaceIndex (state : WindowState) (data : Payload) : Option Nat :=
  match (List.range state.queue.count).find? fun index =>
      isCoalescible (state.queue.get index).data with
  | some index => some index
  | none => if data = .nativeDestroyed then some 0 else none

def append (state : WindowState) (data : Payload) (h : state.queue.count ≠ state.queue.capacity) :
    WindowState :=
  { state with
    queue := state.queue.push { sequence := state.nextSequence, data } h
    nextSequence := state.nextSequence + 1 }

def enqueueEvent (state : WindowState) (data : Payload) : EnqueueResult × WindowState :=
  if state.suppressEvents then (.coalesced, state)
  else if state.queue.capacity = 0 then
    (.dropped, { state with droppedEvents := state.droppedEvents + 1 })
  else
    match if isCoalescible data then findMergeable state.queue data state.queue.count else none with
    | some index => (.coalesced, coalesce state index data)
    | none =>
      if hroom : state.queue.count = state.queue.capacity then
        match replaceIndex state data with
        | none => (.dropped, { state with droppedEvents := state.droppedEvents + 1 })
        | some index =>
          (.queued, append (discardAt state index) data
            (Lib.Ring.count_ne_capacity_removeAt hroom))
      else (.queued, append state data hroom)

def popEvent (state : WindowState) : Option Event × WindowState :=
  if state.queue.count = 0 then (none, state)
  else (some (state.queue.get 0), { state with queue := state.queue.pop.restart })

/-- Into a destination of `size` events. -/
def popEvents : Nat → WindowState → List Event × WindowState
  | 0, state => ([], state)
  | size + 1, state =>
    match popEvent state with
    | (none, state) => ([], state)
    | (some event, state) =>
      let (events, state) := popEvents size state
      (event :: events, state)

def clearEvents (state : WindowState) : WindowState := { state with queue := state.queue.clear }

/-! ## Runs -/

inductive EventCall where
  | enqueueEvent (data : Payload)
  | popEvent
  | popEvents (size : Nat)
  | clearEvents
  deriving DecidableEq, Repr

/-- The queue of a new window. -/
def WindowState.initial (capacity : Nat) (h : 0 < capacity) : WindowState where
  queue := Lib.Ring.ofCapacity capacity h

def step (state : WindowState) : EventCall → Option WindowState
  | .enqueueEvent data => some (enqueueEvent state data).2
  | .popEvent => some (popEvent state).2
  | .popEvents size => some (popEvents size state).2
  | .clearEvents => some (clearEvents state)

end Events

end Desktop

import GameWIP.Desktop.DataTransfer
import GameWIP.Lib.LinkedSlots
import GameWIP.Lib.Trace

/-!
# The event queue of a drop target

`desktop/core/drag_drop.cpp`: the queue of `DragDropState`, its fixed event slots threaded by a FIFO
list, a list of the movements among them and a stack of the free slots. The payloads are those of
`desktop/drag_drop.h`. Sequence numbers and the count of drops are natural numbers: they do not wrap
in fewer than 2^64 events. The owner thread makes the calls.
-/

namespace Desktop

namespace DragDrop

open DataTransfer (Format)
open Events (LogicalPosition)
open Lib (Links)

/-! ## Effects -/

/-- A bitmask of transfer effects. -/
structure Effect where
  bits : UInt8
  deriving DecidableEq, Repr

namespace Effect

def none : Effect := ⟨0⟩

def copy : Effect := ⟨1⟩

def move : Effect := ⟨2⟩

def link : Effect := ⟨4⟩

instance : AndOp Effect := ⟨fun left right => ⟨left.bits &&& right.bits⟩⟩

instance : OrOp Effect := ⟨fun left right => ⟨left.bits ||| right.bits⟩⟩

end Effect

/-! ## Events -/

abbrev SessionId := UInt64

abbrev RegionId := UInt64

inductive EventPayload where
  | entered (sessionId : SessionId) (position : LogicalPosition) (region : Option RegionId)
      (effect : Effect) (formats : Option (List Format))
  | moved (sessionId : SessionId) (position : LogicalPosition) (previousRegion : Option RegionId)
      (region : Option RegionId) (effect : Effect) (formats : Option (List Format))
  | left (sessionId : SessionId)
  | dropped (sessionId : SessionId) (position : LogicalPosition) (region : RegionId)
      (effect : Effect) (payload : DataTransfer.Payload)
  deriving DecidableEq, Repr

structure Event where
  sequence : Nat := 0
  data : EventPayload := .entered 0 {} none .none none
  deriving DecidableEq, Repr

instance : Inhabited Event := ⟨{}⟩

/-- What `std::move` leaves of a payload: the alternative stays, without what it owned. -/
def EventPayload.movedFrom : EventPayload → EventPayload
  | .entered sessionId position region effect _ => .entered sessionId position region effect none
  | .moved sessionId position previousRegion region effect _ =>
    .moved sessionId position previousRegion region effect none
  | .left sessionId => .left sessionId
  | .dropped sessionId position region effect _ => .dropped sessionId position region effect []

def Event.movedFrom (event : Event) : Event := { event with data := event.data.movedFrom }

/-! ## The queue -/

structure DragDropState where
  eventStorage : List Event
  /-- `queueNext`, `queuePrevious`, `eventHead` and `eventTail`. -/
  queue : Links
  /-- `movementNext`, `movementPrevious`, `movementHead` and `movementTail`. -/
  movement : Links
  freeNext : List (Option Nat)
  freeHead : Option Nat := none
  eventCount : Nat := 0
  nextSequence : Nat := 1
  droppedEvents : Nat := 0
  deriving DecidableEq, Repr

namespace DragDropState

/-- The event in a slot. -/
def slot (state : DragDropState) (slot : Nat) : Event := state.eventStorage.getD slot {}

def setSlot (state : DragDropState) (slot : Nat) (event : Event) : DragDropState :=
  { state with eventStorage := state.eventStorage.set slot event }

end DragDropState

/-- The event is a movement. -/
def movement (event : Event) : Bool :=
  match event.data with
  | .moved .. => true
  | _ => false

def unlinkMovement (state : DragDropState) (slot : Nat) : DragDropState :=
  { state with movement := state.movement.unlink slot }

def removeSlot (state : DragDropState) (slot : Nat) : DragDropState :=
  let state := if movement (state.slot slot) then unlinkMovement state slot else state
  let state := { state with queue := state.queue.unlink slot }
  let state := state.setSlot slot {}
  { state with
    freeNext := state.freeNext.set slot state.freeHead
    freeHead := some slot
    eventCount := state.eventCount - 1 }

def appendSlot (state : DragDropState) (slot : Nat) (event : Event) : DragDropState :=
  let state := state.setSlot slot event
  let state := { state with queue := state.queue.pushBack slot }
  let state :=
    if movement (state.slot slot) then { state with movement := state.movement.pushBack slot }
    else state
  { state with eventCount := state.eventCount + 1 }

def initializeDragDropEventQueue (state : DragDropState) : DragDropState :=
  let capacity := state.eventStorage.length
  { state with
    queue := { state.queue with
      next := List.replicate capacity none
      previous := List.replicate capacity none }
    movement := { state.movement with
      next := List.replicate capacity none
      previous := List.replicate capacity none }
    freeNext := (List.range capacity).map fun slot =>
      if slot + 1 < capacity then some (slot + 1) else none
    freeHead := if capacity = 0 then none else some 0 }

/-- The movement a new one of its session replaces, with the region it came from. -/
def coalesced (last incoming : Event) : Option Event :=
  match last.data, incoming.data with
  | .moved lastSession _ previousRegion _ _ _, .moved sessionId position _ region effect formats =>
    if lastSession = sessionId then
      some { incoming with
        data := .moved sessionId position previousRegion region effect formats }
    else none
  | _, _ => none

def enqueueDragDropEvent (state : DragDropState) (data : EventPayload) (terminal : Bool) :
    Bool × DragDropState :=
  if state.eventStorage.isEmpty then (false, state)
  else
    let incoming : Event := { sequence := state.nextSequence, data }
    let state := { state with nextSequence := state.nextSequence + 1 }
    match state.queue.tail.bind fun tail => (coalesced (state.slot tail) incoming).map (tail, ·) with
    | some (tail, replacement) => (true, state.setSlot tail replacement)
    | none =>
      if state.eventCount = state.eventStorage.length && !terminal then
        (false, { state with droppedEvents := state.droppedEvents + 1 })
      else
        let state :=
          if state.eventCount = state.eventStorage.length then
            let state := match state.movement.head <|> state.queue.head with
              | some oldest => removeSlot state oldest
              | none => state
            { state with droppedEvents := state.droppedEvents + 1 }
          else state
        match state.freeHead with
        | none => (true, state)
        | some slot =>
          let state := { state with
            freeHead := (state.freeNext[slot]?).join
            freeNext := state.freeNext.set slot none }
          (true, appendSlot state slot incoming)

def popEvent (state : DragDropState) : Option Event × DragDropState :=
  if state.eventCount = 0 then (none, state)
  else
    match state.queue.head with
    | none => (none, state)
    | some index =>
      let out := state.slot index
      (some out, removeSlot (state.setSlot index out.movedFrom) index)

/-- Into a destination of `size` events. -/
def popEvents : Nat → DragDropState → List Event × DragDropState
  | 0, state => ([], state)
  | size + 1, state =>
    match popEvent state with
    | (none, state) => ([], state)
    | (some event, state) =>
      let (events, state) := popEvents size state
      (event :: events, state)

/-- Slots taken off the front, at most `fuel`. -/
def clearFrom : Nat → DragDropState → DragDropState
  | 0, state => state
  | fuel + 1, state =>
    match state.queue.head with
    | none => state
    | some slot => clearFrom fuel (removeSlot state slot)

def clearEvents (state : DragDropState) : DragDropState :=
  clearFrom state.eventStorage.length state

/-! ## Runs -/

inductive QueueCall where
  | enqueueDragDropEvent (data : EventPayload) (terminal : Bool)
  | popEvent
  | popEvents (size : Nat)
  | clearEvents
  deriving DecidableEq, Repr

/-- A target opened on event storage, which may hold anything. -/
def DragDropState.initial (eventStorage : List Event) : DragDropState :=
  initializeDragDropEventQueue
    { eventStorage, queue := { next := [], previous := [] },
      movement := { next := [], previous := [] }, freeNext := [] }

def step (state : DragDropState) : QueueCall → Option DragDropState
  | .enqueueDragDropEvent data terminal => some (enqueueDragDropEvent state data terminal).2
  | .popEvent => some (popEvent state).2
  | .popEvents size => some (popEvents size state).2
  | .clearEvents => some (clearEvents state)

/-- The queued events, from the slots in FIFO order. -/
def eventsFrom (state : DragDropState) : Nat → Option Nat → List Event
  | 0, _ => []
  | _, none => []
  | count + 1, some slot =>
    state.slot slot :: eventsFrom state count (state.queue.nextOf slot)

def DragDropState.events (state : DragDropState) : List Event :=
  eventsFrom state state.eventCount state.queue.head

end DragDrop

end Desktop

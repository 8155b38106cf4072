import GameWIP.Desktop.DragDrop

/-!
# The OLE drop target

`DropTarget` of `desktop/platform/win32/win32_drag_drop.cpp`, with `negotiateDragDropEffect` and
`allocateDragDropSessionId` of `desktop/core/drag_drop.cpp`. What a callback gets from outside is
its input: whether its pointers are there, the point as `clientPosition` converts it, the formats the
source enumerates, the item that materializing a format gives. A failure and an exception at the
same place have the same effect, and are both `none` there. A target that is being closed (`detach`)
is not modelled.
-/

namespace Desktop

namespace DragDrop

open DataTransfer (Format Item)
open Events (LogicalPosition LogicalSize)

/-! ## Regions -/

structure LogicalRect where
  position : LogicalPosition := {}
  size : LogicalSize := {}
  deriving DecidableEq, Repr

def pointInRect (point : LogicalPosition) (rect : LogicalRect) : Bool :=
  let right := rect.position.x.toInt + rect.size.width.toNat
  let bottom := rect.position.y.toInt + rect.size.height.toNat
  point.x.toInt ≥ rect.position.x.toInt && point.y.toInt ≥ rect.position.y.toInt &&
    point.x.toInt < right && point.y.toInt < bottom

structure EffectPolicy where
  allowed : Effect := .copy
  preferred : Effect := .copy
  deriving DecidableEq, Repr

/-- A region as `copyRegions` and `prepareDragDropRegions` leave it: it has an identity, and the
clipboard format of each accepted format. -/
structure DragDropRegion where
  id : RegionId
  rect : Option LogicalRect
  formats : List Format
  nativeFormats : List UInt32
  effects : EffectPolicy
  valid : id ≠ 0
  paired : nativeFormats.length = formats.length
  clipboard : ∀ native ∈ nativeFormats, native.toUInt16.toUInt32 = native

def accepts (region : DragDropRegion) (offered : UInt16) : Bool :=
  region.nativeFormats.contains offered.toUInt32

/-- The last matching region. -/
def regionAt (regions : List DragDropRegion) (point : LogicalPosition) (offered : List UInt16) :
    Option DragDropRegion :=
  regions.foldl (fun result region =>
    let inside := region.rect.all fun rect => pointInRect point rect
    let acceptedFormat := offered.any fun offeredFormat => accepts region offeredFormat
    if inside && acceptedFormat then some region else result) none

/-! ## Effects -/

def portableEffects (effects : UInt32) : Effect :=
  let result := Effect.none
  let result := if effects &&& 1 ≠ 0 then result ||| .copy else result
  let result := if effects &&& 2 ≠ 0 then result ||| .move else result
  if effects &&& 4 ≠ 0 then result ||| .link else result

def nativeEffects (effects : Effect) : UInt32 :=
  let result : UInt32 := 0
  let result := if effects &&& .copy ≠ .none then result ||| 1 else result
  let result := if effects &&& .move ≠ .none then result ||| 2 else result
  if effects &&& .link ≠ .none then result ||| 4 else result

def validEffectBits (value : Effect) : Bool := value.bits &&& ~~~7 = 0

/-- At most one bit is set. -/
def singleBit (value : Effect) : Bool := value.bits &&& (value.bits - 1) = 0

def negotiateDragDropEffect (source target preferred : Effect) : Effect :=
  if !validEffectBits source || !validEffectBits target || !validEffectBits preferred then .none
  else
    let candidates := source &&& target
    if candidates = .none then candidates
    else if singleBit candidates then candidates
    else if preferred ≠ .none && candidates &&& preferred = preferred && singleBit preferred then
      preferred
    else
      match [Effect.copy, .move, .link].find? fun effect => candidates &&& effect ≠ .none with
      | some effect => effect
      | none => .none

/-! ## Callbacks -/

/-- A format the source offers. -/
structure FormatIdentity where
  portable : Format
  native : UInt16
  deriving DecidableEq, Repr

/-- The target with its native session. -/
structure TargetState where
  queue : DragDropState
  regions : List DragDropRegion := []
  nextSessionId : UInt64 := 1
  session : SessionId := 0
  currentRegion : RegionId := 0
  sourceEffects : Effect := .none
  formats : Option (List Format) := none
  nativeFormats : List UInt16 := []

def allocateDragDropSessionId (state : TargetState) : SessionId × TargetState :=
  let value := state.nextSessionId
  let state := { state with nextSessionId := state.nextSessionId + 1 }
  if value = 0 then (state.nextSessionId, { state with nextSessionId := state.nextSessionId + 1 })
  else (value, state)

def clearSession (state : TargetState) : TargetState :=
  { state with
    formats := none
    nativeFormats := []
    session := 0
    currentRegion := 0
    sourceEffects := .none }

def routeDragDropEvent (state : TargetState) (data : EventPayload) (terminal : Bool) : TargetState :=
  { state with queue := (enqueueDragDropEvent state.queue data terminal).2 }

/-- The effect selected in the region under the pointer. -/
def selectedEffect (state : TargetState) (region : Option DragDropRegion) : Effect :=
  match region with
  | some region =>
    negotiateDragDropEffect state.sourceEffects region.effects.allowed region.effects.preferred
  | none => .none

/-- What a callback reports through its effect pointer. -/
abbrev Reported := Option UInt32

def dragEnter (state : TargetState) (pointers : Bool) (effect : UInt32) (point : LogicalPosition)
    (offered : Option (List FormatIdentity)) : Reported × TargetState :=
  if !pointers then (none, state)
  else
    let state := clearSession state
    match offered with
    | none => (some 0, clearSession state)
    | some offered =>
      let state := { state with
        formats := some (offered.map FormatIdentity.portable)
        nativeFormats := offered.map FormatIdentity.native
        sourceEffects := portableEffects effect }
      let (session, state) := allocateDragDropSessionId state
      let state := { state with session }
      let active := regionAt state.regions point state.nativeFormats
      let selected := selectedEffect state active
      let state := { state with currentRegion := (active.map DragDropRegion.id).getD 0 }
      let state := routeDragDropEvent state
        (.entered state.session point (active.map DragDropRegion.id) selected state.formats) false
      (some (nativeEffects selected), state)

def dragOver (state : TargetState) (effectPointer : Bool) (point : LogicalPosition) :
    Reported × TargetState :=
  if !effectPointer then (none, state)
  else if state.formats.isNone then (some 0, state)
  else
    let next := regionAt state.regions point state.nativeFormats
    let region := (next.map DragDropRegion.id).getD 0
    let selected := selectedEffect state next
    let state := routeDragDropEvent state
      (.moved state.session point
        (if state.currentRegion ≠ 0 then some state.currentRegion else none)
        (next.map fun _ => region) selected state.formats) false
    (some (nativeEffects selected), { state with currentRegion := region })

def dragLeave (state : TargetState) : TargetState :=
  let state :=
    if state.session ≠ 0 then routeDragDropEvent state (.left state.session) false else state
  clearSession state

/-- The items of the offered formats among those from `index` on, all or nothing. -/
def materializeFrom (nativeFormats : List UInt16) (materialize : Format → Option Item) :
    List (Format × UInt32) → Option (List Item)
  | [] => some []
  | (format, native) :: rest =>
    if nativeFormats.contains native.toUInt16 then
      match materialize format with
      | none => none
      | some item => (materializeFrom nativeFormats materialize rest).map (item :: ·)
    else materializeFrom nativeFormats materialize rest

def drop (state : TargetState) (effectPointer object : Bool) (point : LogicalPosition)
    (materialize : Format → Option Item) : Reported × TargetState :=
  if !effectPointer || !object || state.formats.isNone then
    (if effectPointer then some 0 else none, clearSession state)
  else
    match regionAt state.regions point state.nativeFormats with
    | none => (some 0, clearSession state)
    | some region =>
      let selected := selectedEffect state (some region)
      if selected = .none then (some 0, clearSession state)
      else
        match materializeFrom state.nativeFormats materialize
          (region.formats.zip region.nativeFormats) with
        | none => (some 0, clearSession state)
        | some payload =>
          if payload.isEmpty then (some 0, clearSession state)
          else
            let state := routeDragDropEvent state
              (.dropped state.session point region.id selected payload) true
            (some (nativeEffects selected), clearSession state)

/-! ## Runs -/

/-- A native callback, a replacement of the regions, or a call of the consumer. -/
inductive TargetCall where
  | dragEnter (pointers : Bool) (effect : UInt32) (point : LogicalPosition)
      (offered : Option (List FormatIdentity))
  | dragOver (effectPointer : Bool) (point : LogicalPosition)
  | dragLeave
  | drop (effectPointer object : Bool) (point : LogicalPosition)
      (materialize : Format → Option Item)
  | setRegions (regions : List DragDropRegion)
  | popEvent
  | popEvents (size : Nat)
  | clearEvents

namespace TargetState

/-- A target opened on event storage. -/
def initial (eventStorage : List Event) (regions : List DragDropRegion) : TargetState where
  queue := .initial eventStorage
  regions := regions

def step (state : TargetState) : TargetCall → Option TargetState
  | .dragEnter pointers effect point offered => some (dragEnter state pointers effect point offered).2
  | .dragOver effectPointer point => some (dragOver state effectPointer point).2
  | .dragLeave => some (dragLeave state)
  | .drop effectPointer object point materialize =>
    some (drop state effectPointer object point materialize).2
  | .setRegions regions => some { state with regions }
  | .popEvent => some { state with queue := (popEvent state.queue).2 }
  | .popEvents size => some { state with queue := (popEvents size state.queue).2 }
  | .clearEvents => some { state with queue := clearEvents state.queue }

end TargetState

end DragDrop

end Desktop

import GameWIP.Desktop.Events
import GameWIP.Io.Status

/-!
# Window owners

`registerWindowId`, `unregisterWindowId` and `resolveWindowId` of
`desktop/platform/win32/win32_window.cpp`, `setOwner` of `win32_operations.cpp` and `Window::setOwner`
of `desktop/core/window.cpp`. All Windows belong to one thread, and a registered Window has its
platform state, which `unregisterWindowId` precedes the release of.

What the native parent and style calls return is an input. `routed` is the list of the events routed
to a Window, which a full queue may drop later. The ids that the counter gives out are fresh.
-/

namespace Desktop

namespace WindowOwners

open Events (Payload WindowId)

def isValid (id : WindowId) : Bool := id ≠ 0

/-- The optional that names an owner in an event. -/
def toOptional (owner : WindowId) : Option WindowId := if isValid owner then some owner else none

structure WindowState where
  id : WindowId
  owner : WindowId
  /-- The owner in the description the Window was opened with. -/
  openedOwner : WindowId
  routed : List Payload := []
  deriving DecidableEq, Repr

def routeEvent (state : WindowState) (data : Payload) : WindowState :=
  { state with routed := state.routed ++ [data] }

structure Platform where
  nextWindowId : UInt64 := 1
  windowRegistry : List WindowState := []
  deriving DecidableEq, Repr

def resolveWindowId (p : Platform) (id : WindowId) : Option WindowState :=
  if isValid id then p.windowRegistry.find? (·.id = id) else none

/-! ## Opening and closing -/

/-- The identity that `registerWindowId` takes from the counter, and the counter behind it. -/
def takeWindowId (next : UInt64) : WindowId × UInt64 :=
  if next = 0 then (1, 2) else (next, next + 1)

/-- What `open` does to the registry: the owner of the description has to be a registered Window, and
the new identity is in no use. -/
def openWindow (p : Platform) (owner : Option WindowId) : Option Platform :=
  let (id, next) := takeWindowId p.nextWindowId
  let known := owner.all fun owner => (resolveWindowId p owner).isSome
  if known && !(p.windowRegistry.any fun state => state.id = id) then
    let state := { id, owner := owner.getD 0, openedOwner := owner.getD 0 }
    some { nextWindowId := next, windowRegistry := p.windowRegistry ++ [state] }
  else none

/-- A closed Window is released with its identity; the Windows it owned are told. -/
def unregisterWindowId (p : Platform) (removed : WindowId) : Platform :=
  { p with
    windowRegistry := (p.windowRegistry.filter fun state => state.id ≠ removed).map fun candidate =>
      if candidate.owner = removed then
        routeEvent { candidate with owner := 0 } (.ownerChanged (some removed) none)
      else candidate }

/-! ## Changing the owner -/

/-- What the native calls of one `setOwner` return. -/
structure SetOwnerAnswers where
  parent : Io.Status := {}
  style : Io.Status := {}
  parentRollback : Io.Status := {}
  styleRollback : Io.Status := {}
  deriving DecidableEq, Repr

/-- A native call; `parent` names the Window whose handle is passed. -/
inductive NativeCall where
  | parent (owner : Option WindowId)
  | style
  deriving DecidableEq, Repr

/-- What a `setOwner` returns, with the native calls it made. -/
structure SetOwnerReport where
  status : Io.Status
  calls : List NativeCall := []
  deriving DecidableEq, Repr

/-- The walk from the new owner up: whether it meets the Window. `none` when it does not end within
`fuel` rounds. -/
def ancestorWalk (p : Platform) (state : WindowState) : Nat → Option WindowState → Option Bool
  | 0, _ => none
  | _ + 1, none => some false
  | fuel + 1, some ancestor =>
    if !isValid ancestor.owner then some false
    else if ancestor.owner = state.id then some true
    else ancestorWalk p state fuel (resolveWindowId p ancestor.owner)

/-- The Window in the registry. -/
def store (p : Platform) (state : WindowState) : Platform :=
  { p with
    windowRegistry := p.windowRegistry.map fun other => if other.id = state.id then state else other }

/-- Rounds enough for the walk (`ancestorWalk_ends`). -/
def fuel (p : Platform) : Nat := p.windowRegistry.length + 1

/-- The native part of `Platform::setOwner`, behind its checks. -/
def changeOwner (p : Platform) (state : WindowState) (owner : WindowId) (answers : SetOwnerAnswers) :
    Platform × SetOwnerReport :=
  let previous := state.owner
  let parent := NativeCall.parent ((resolveWindowId p owner).map WindowState.id)
  if !answers.parent.ok then (p, { status := answers.parent, calls := [parent] })
  else if !answers.style.ok then
    let previousOwner := (resolveWindowId p previous).map WindowState.id
    let status :=
      if !answers.parentRollback.ok then answers.parentRollback
      else if answers.styleRollback.ok then answers.style
      else answers.styleRollback
    -- the owner has been set and is set back
    (store p { { state with owner := owner } with owner := previous },
      { status, calls := [parent, .style, .parent previousOwner, .style] })
  else
    let state := { state with owner := owner }
    let state :=
      if state.owner ≠ previous then
        routeEvent state (.ownerChanged (toOptional previous) (toOptional state.owner))
      else state
    (store p state, { status := Io.successStatus, calls := [parent, .style] })

/-- `Platform::setOwner`; `none` when the walk does not end. -/
def platformSetOwner (p : Platform) (state : WindowState) (owner : WindowId) (answers : SetOwnerAnswers) :
    Option (Platform × SetOwnerReport) :=
  let ownerState := resolveWindowId p owner
  if isValid owner && ownerState.isNone then some (p, { status := Io.makeStatus .invalidArgument })
  else
    (ancestorWalk p state (fuel p) ownerState).map fun cycle =>
      if cycle then (p, { status := Io.makeStatus .invalidArgument })
      else changeOwner p state owner answers

/-- `Window::setOwner` of a registered Window that is live and whose owner thread calls. -/
def setOwner (p : Platform) (state : WindowState) (owner : Option WindowId) (answers : SetOwnerAnswers) :
    Option (Platform × SetOwnerReport) :=
  if owner = some state.id then some (p, { status := Io.makeStatus .invalidArgument })
  else platformSetOwner p state (owner.getD 0) answers

/-! ## Runs -/

inductive Action where
  | openWindow (owner : Option WindowId)
  | setOwner (window : WindowId) (owner : Option WindowId) (answers : SetOwnerAnswers)
  | unregisterWindowId (window : WindowId)
  deriving DecidableEq, Repr

/-- One operation; a Window that is not open has none. -/
def step (p : Platform) : Action → Option Platform
  | .openWindow owner => openWindow p owner
  | .setOwner window owner answers => (resolveWindowId p window).bind fun state =>
    (setOwner p state owner answers).map Prod.fst
  | .unregisterWindowId window => (resolveWindowId p window).map fun _ => unregisterWindowId p window

end WindowOwners

end Desktop

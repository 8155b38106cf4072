import GameWIP.Io.Status
import GameWIP.Lib.Lease
import GameWIP.Lib.Slots
import GameWIP.Lib.Trace

/-!
# Managed input ownership

Stdin has one owner at a time: an open session or the lease of one direct read
(`terminal/core/session.cpp`). Whoever claims it captures the native input mode, sets its own, and
restores the captured mode before it lets the claim go. `acquireManagedInput` and
`restoreManagedInput` are shared by sessions and leases; a session that fails to restore at `close`
keeps its claim for a retry, every other release gives the claim up in any case.

The platform's results are answers of each call, a platform call that throws among the failing
ones. `InputSide.log` records what is done to the input: claims and releases of the coordinator,
captures, changes and restorations of the native mode. The output side of a session's close and the
reading itself enter by their statuses.
-/

namespace Terminal

open Io (Status ErrorCode makeStatus successStatus)
open Lib (Slots)

/-! ## Streams, options and modes -/

/-- `Types::Input::Stream`; `other` is a value that is no enumerator, as below. -/
inductive InputStream where
  | stdin
  | other (value : Int)
  deriving DecidableEq, Repr

def validInputStream (stream : InputStream) : Bool := stream == .stdin

inductive DeliveryMode where
  | events
  | stream
  | other (value : Int)
  deriving DecidableEq, Repr

def validDeliveryMode (mode : DeliveryMode) : Bool := mode == .events || mode == .stream

inductive ControlKeyMode where
  | nativeProcessing
  | reportAsInput
  | other (value : Int)
  deriving DecidableEq, Repr

def validControlKeyMode (mode : ControlKeyMode) : Bool :=
  mode == .nativeProcessing || mode == .reportAsInput

inductive StreamKind where
  | detached
  | terminal
  | redirected
  | other
  deriving DecidableEq, Repr

/-- `Types::Input::Capabilities`, the fields ownership reads. -/
structure InputCapabilities where
  kind : StreamKind := .detached
  supportsUtf8Text : Bool := false
  supportsByteInput : Bool := false
  supportsLineInput : Bool := false
  supportsEventInput : Bool := false
  supportsResizeEvents : Bool := false

structure InputCapabilitiesResult where
  status : Status := {}
  capabilities : InputCapabilities := {}

/-- `Platform::InputMode`. -/
structure InputMode where
  lineBuffered : Bool := true
  echoInput : Bool := true
  processControlKeys : Bool := true
  reportResizeEvents : Bool := false
  reportPointerEvents : Bool := false
  exclusiveEventDelivery : Bool := false
  deriving DecidableEq, Repr

/-- `Platform::InputModeSnapshot`. -/
structure InputModeSnapshot where
  mode : InputMode := {}
  nativeMode : UInt64 := 0
  hasNativeMode : Bool := false
  deriving DecidableEq, Repr

structure InputModeSnapshotResult where
  status : Status := {}
  snapshot : InputModeSnapshot := {}

/-- `Types::SessionOptions`, the fields of the input side. -/
structure InputOptions where
  input : InputStream := .stdin
  deliveryMode : DeliveryMode := .events
  controlKeyMode : ControlKeyMode := .nativeProcessing

def deliverySupported (capabilities : InputCapabilities) (deliveryMode : DeliveryMode) : Bool :=
  if deliveryMode = .events then capabilities.supportsEventInput
  else capabilities.supportsByteInput || capabilities.supportsUtf8Text ||
    capabilities.supportsLineInput

/-- The mode an owner runs the input in. Event delivery, and stream delivery on a terminal with
events, use one immediate native engine. -/
def managedMode (options : InputOptions) (previousMode : InputMode)
    (capabilities : InputCapabilities) : InputMode :=
  let mode := { previousMode with
    processControlKeys := options.controlKeyMode == .nativeProcessing }
  if options.deliveryMode == .events || capabilities.supportsEventInput then
    { mode with
      lineBuffered := false
      echoInput := false
      reportResizeEvents := capabilities.supportsResizeEvents
      reportPointerEvents := false
      exclusiveEventDelivery := true }
  else mode

def appendRestorationDiagnostic (primary restoration : Status) : Status :=
  if primary.ok || restoration.ok then primary
  else
    { primary with message :=
        (if primary.message.isEmpty then primary.message else primary.message ++ " ") ++
          "Terminal input restoration also failed" ++
          (if restoration.message.isEmpty then "" else ": " ++ restoration.message) ++ "." }

/-! ## The coordinator -/

/-- A claimant of the input: a session, by its state, or the direct lease. -/
inductive Claimant where
  | session (id : Nat)
  | direct
  deriving DecidableEq, Repr

abbrev InputEvent := Lib.Lease.Event Claimant InputModeSnapshot InputMode

/-- The coordinator of stdin and the log of what is done to the input. -/
structure InputSide where
  owner : Option Nat := none
  directLease : Bool := false
  log : List InputEvent := []

namespace InputSide

def record (side : InputSide) (event : InputEvent) : InputSide :=
  { side with log := side.log ++ [event] }

def claimInput (stream : InputStream) (owner : Nat) (side : InputSide) : InputSide × Status :=
  if !validInputStream stream then (side, makeStatus .invalidArgument)
  else if side.owner.isSome || side.directLease then (side, makeStatus .resourceBusy)
  else ({ side with owner := some owner }.record (.claim (.session owner)), successStatus)

def claimDirectInput (stream : InputStream) (side : InputSide) : InputSide × Status :=
  if !validInputStream stream then (side, makeStatus .invalidArgument)
  else if side.owner.isSome || side.directLease then (side, makeStatus .resourceBusy)
  else ({ side with directLease := true }.record (.claim .direct), successStatus)

/-- The claim of an acquisition: the direct lease's without an owner. -/
def claim (stream : InputStream) (owner : Option Nat) (side : InputSide) : InputSide × Status :=
  match owner with
  | none => side.claimDirectInput stream
  | some owner => side.claimInput stream owner

def releaseDirectInput (stream : InputStream) (side : InputSide) : InputSide :=
  if !validInputStream stream then side
  else { side with directLease := false }.record (.release .direct)

/-- `owner` is the session's state, `none` the null pointer. -/
def releaseInput (stream : InputStream) (owner : Option Nat) (side : InputSide) : InputSide :=
  match owner with
  | none => side
  | some owner =>
    if !validInputStream stream then side
    else if side.owner = some owner then
      { side with owner := none }.record (.release (.session owner))
    else side

end InputSide

/-! ## Acquisition and restoration -/

structure PreparedInputOwnership where
  capabilities : InputCapabilities := {}
  previousMode : InputModeSnapshot := {}
  hasPreviousMode : Bool := false
  claimed : Bool := false
  directClaimed : Bool := false

/-- The result of an ownership call. -/
structure OwnershipResult where
  side : InputSide
  ownership : PreparedInputOwnership
  status : Status

def restoreManagedInput (stream : InputStream) (ownership : PreparedInputOwnership)
    (owner : Option Nat) (retainOwnershipOnFailure : Bool) (restoreInputMode : Status)
    (side : InputSide) : OwnershipResult :=
  let (side, restoration) :=
    if ownership.hasPreviousMode then
      (side.record (.restore ownership.previousMode), restoreInputMode)
    else (side, successStatus)
  if !restoration.ok && retainOwnershipOnFailure then ⟨side, ownership, restoration⟩
  else
    let (side, ownership) :=
      if ownership.claimed then
        if ownership.directClaimed then
          (side.releaseDirectInput stream,
            { ownership with directClaimed := false, claimed := false })
        else (side.releaseInput stream owner, { ownership with claimed := false })
      else (side, ownership)
    ⟨side, { ownership with hasPreviousMode := false }, restoration⟩

/-- What the platform answers an acquisition. -/
structure AcquireAnswers where
  getInputCapabilities : InputCapabilitiesResult := {}
  captureInputMode : InputModeSnapshotResult := {}
  setInputMode : Status := {}
  restoreInputMode : Status := {}

/-- The queries and mode changes of an acquisition whose claim is made. -/
def prepareInput (options : InputOptions) (answers : AcquireAnswers)
    (ownership : PreparedInputOwnership) (side : InputSide) : OwnershipResult :=
  if !answers.getInputCapabilities.status.ok then
    ⟨side, ownership, answers.getInputCapabilities.status⟩
  else
    let capabilities := answers.getInputCapabilities.capabilities
    let ownership := { ownership with capabilities }
    if capabilities.kind = .detached then ⟨side, ownership, makeStatus .notOpen⟩
    else if !deliverySupported capabilities options.deliveryMode then
      ⟨side, ownership, makeStatus .unsupported⟩
    else if capabilities.kind = .terminal then
      let captured := answers.captureInputMode
      if !captured.status.ok then ⟨side, ownership, captured.status⟩
      else
        ⟨(side.record (.capture captured.snapshot)).record
            (.change (managedMode options captured.snapshot.mode capabilities)),
          { ownership with previousMode := captured.snapshot, hasPreviousMode := true },
          answers.setInputMode⟩
    else ⟨side, ownership, successStatus⟩

/-- Claims the input for a session or, without one, for a direct lease; every failure behind the
claim puts the mode back and gives the claim up. -/
def acquireManagedInput (options : InputOptions) (owner : Option Nat) (answers : AcquireAnswers)
    (side : InputSide) : OwnershipResult :=
  let (side, status) := side.claim options.input owner
  if !status.ok then ⟨side, {}, status⟩
  else
    let prepared := prepareInput options answers
      { claimed := true, directClaimed := owner.isNone } side
    if prepared.status.ok then prepared
    else
      let restored := restoreManagedInput options.input prepared.ownership owner false
        answers.restoreInputMode prepared.side
      ⟨restored.side, restored.ownership,
        appendRestorationDiagnostic prepared.status restored.status⟩

/-! ## Sessions and direct reads -/

/-- The input part of a session's state. -/
structure SessionInput where
  options : InputOptions := {}
  ownership : PreparedInputOwnership := {}
  isOpen : Bool := false

structure DirectInputLease where
  options_ : InputOptions
  ownership_ : PreparedInputOwnership := {}

/-- The input side, the sessions built so far and the leases of the direct reads. -/
structure InputSystem where
  side : InputSide := {}
  sessions : Slots SessionInput := []
  leases : Slots DirectInputLease := []

inductive InputCall where
  | construct
  | openSession (session : Nat) (options : InputOptions) (answers : AcquireAnswers)
  | close (session : Nat) (restoreOutputState restoreInputMode : Status)
  | destroy (session : Nat) (restoreInputMode : Status)
  | beginRead (options : InputOptions) (answers : AcquireAnswers)
  | endRead (lease : Nat) (primary : Option Status) (restoreInputMode : Status)

namespace InputSystem

/-- `Session::open`, from the check of its options on. -/
def openSession (system : InputSystem) (id : Nat) (options : InputOptions)
    (answers : AcquireAnswers) (session : SessionInput) : InputSystem × Status :=
  if !validInputStream options.input || !validDeliveryMode options.deliveryMode ||
      !validControlKeyMode options.controlKeyMode then (system, makeStatus .invalidArgument)
  else if session.isOpen then (system, makeStatus .alreadyOpen)
  else
    let acquired := acquireManagedInput options (some id) answers system.side
    if !acquired.status.ok then ({ system with side := acquired.side }, acquired.status)
    else
      ({ system with
        side := acquired.side
        sessions := system.sessions.set id
          (some { options, ownership := acquired.ownership, isOpen := true }) }, successStatus)

/-- `Session::close`, with the status of its output side. -/
def close (system : InputSystem) (id : Nat) (restoreOutputState restoreInputMode : Status)
    (session : SessionInput) : InputSystem × Status :=
  if !session.isOpen then (system, successStatus)
  else if !restoreOutputState.ok then (system, restoreOutputState)
  else
    let restored := restoreManagedInput session.options.input session.ownership (some id) true
      restoreInputMode system.side
    let session := { session with ownership := restored.ownership }
    if !restored.status.ok then
      ({ system with side := restored.side, sessions := system.sessions.set id (some session) },
        restored.status)
    else
      ({ system with
        side := restored.side
        sessions := system.sessions.set id (some { session with isOpen := false }) },
        successStatus)

/-- `Session::~Session`. -/
def destroy (system : InputSystem) (id : Nat) (restoreInputMode : Status)
    (session : SessionInput) : InputSystem :=
  if !session.isOpen then { system with sessions := system.sessions.set id none }
  else
    let restored := restoreManagedInput session.options.input session.ownership (some id) false
      restoreInputMode system.side
    { system with side := restored.side, sessions := system.sessions.set id none }

/-- A direct read up to the reading: the lease is built and opened, and destroyed when that fails.
The lease's destructor finds nothing to restore then. -/
def beginRead (system : InputSystem) (options : InputOptions) (answers : AcquireAnswers) :
    InputSystem × Status :=
  let acquired := acquireManagedInput options none answers system.side
  if !acquired.status.ok then
    let destroyed := restoreManagedInput options.input acquired.ownership none false
      successStatus acquired.side
    ({ system with side := destroyed.side, leases := system.leases ++ [none] }, acquired.status)
  else
    ({ system with
      side := acquired.side
      leases := system.leases ++ [some { options_ := options, ownership_ := acquired.ownership }] },
      successStatus)

/-- The end of a direct read: `finish` with the status of the reading, or without one the
destructor alone, behind an exception. The destructor behind `finish` finds nothing to restore. -/
def endRead (system : InputSystem) (id : Nat) (primary : Option Status)
    (restoreInputMode : Status) (lease : DirectInputLease) : InputSystem × Status :=
  let finished := restoreManagedInput lease.options_.input lease.ownership_ none false
    restoreInputMode system.side
  let destroyed := restoreManagedInput lease.options_.input finished.ownership none false
    successStatus finished.side
  ({ system with side := destroyed.side, leases := system.leases.set id none },
    match primary with
    | some primary =>
      if primary.ok then finished.status else appendRestorationDiagnostic primary finished.status
    | none => makeStatus .unknown)

/-- A call on the live objects it names: the system after it and the status it returns. -/
def call (system : InputSystem) : InputCall → Option (InputSystem × Status)
  | .construct => some ({ system with sessions := system.sessions ++ [some {}] }, successStatus)
  | .openSession id options answers =>
    (Slots.get? system.sessions id).map (system.openSession id options answers)
  | .close id restoreOutputState restoreInputMode =>
    (Slots.get? system.sessions id).map (system.close id restoreOutputState restoreInputMode)
  | .destroy id restoreInputMode =>
    (Slots.get? system.sessions id).map fun session =>
      (system.destroy id restoreInputMode session, successStatus)
  | .beginRead options answers => some (system.beginRead options answers)
  | .endRead id primary restoreInputMode =>
    (Slots.get? system.leases id).map (system.endRead id primary restoreInputMode)

def step (system : InputSystem) (call : InputCall) : Option InputSystem :=
  (system.call call).map Prod.fst

end InputSystem

end Terminal

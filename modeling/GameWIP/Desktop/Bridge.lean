import GameWIP.Desktop.Transport

/-!
# The accessibility bridge of one Window object

`AccessibilityState` with the threads that use it. Any number of callers publish, announce, submit
native actions and report host changes; the owner thread enables, disables and closes the bridge, pops
actions and drains notifications; the calls of the owner's functions that are refused on another thread
are left out. A step of a thread is one atomic access or one locked section; between two steps any
other thread may run. `publicationMutex` is held over several steps.

The functions are those of `desktop/core/accessibility.cpp`. What the environment decides comes with
the action: whether an allocation or the platform's preparation fails, and whether the owner window
takes input. `Bridge.stored` is not in the code: it lists what was published, in store order.
-/

namespace Desktop

open Unicode (Utf8.validate)

/-! ## The threads -/

/-- Where a call of `publish` stands; `a` is the captured activation. -/
inductive PublishStage (F : Type) where
  | load (snapshot : SnapshotView F)
  | live (a : Nat) (snapshot : SnapshotView F)
  | validate (a : Nat) (snapshot : SnapshotView F)
  | lock (a : Nat) (candidate : PublishedSnapshot F)
  | liveLocked (a : Nat) (candidate : PublishedSnapshot F)
  | generation (a : Nat) (candidate : PublishedSnapshot F)
  | root (a : Nat) (candidate : PublishedSnapshot F)
  | prepare (a : Nat) (candidate : PublishedSnapshot F) (before : Option (PublishedSnapshot F))
  | liveAgain (a : Nat) (candidate : PublishedSnapshot F) (before : Option (PublishedSnapshot F))
  | store (a : Nat) (candidate : PublishedSnapshot F) (before : Option (PublishedSnapshot F))
  | record (a : Nat) (candidate : PublishedSnapshot F) (before : Option (PublishedSnapshot F))
  | diff (a : Nat) (candidate : PublishedSnapshot F) (before : Option (PublishedSnapshot F))
  | unlock (status : Io.Status)

inductive AnnounceStage (F : Type) where
  | load (announcement : AnnouncementView)
  | live (a : Nat) (announcement : AnnouncementView)
  | check (a : Nat) (announcement : AnnouncementView)
  | snapshot (a : Nat) (announcement : AnnouncementView)
  | push (a : Nat) (snapshot : PublishedSnapshot F) (id : NodeId) (announcement : AnnouncementView)

inductive SubmitStage (F : Type) where
  | live (a : Nat) (request : ActionRequest F)
  | snapshot (a : Nat) (request : ActionRequest F)
  | check (a : Nat) (snapshot : Option (PublishedSnapshot F)) (request : ActionRequest F)
  | commit (a : Nat) (snapshot : PublishedSnapshot F) (request : ActionRequest F)

inductive InvalidateStage where
  | load (focusGained : Bool)
  | live (a : Nat) (focusGained : Bool)
  | locked (a : Nat) (focusGained : Bool)

/-- A thread that may call everything but what belongs to the owner. -/
inductive Caller (F : Type) where
  | idle
  | publish (stage : PublishStage F)
  | announce (stage : AnnounceStage F)
  | submit (stage : SubmitStage F)
  | invalidate (stage : InvalidateStage)
  | published (status : Io.Status)
  | announced (status : Io.Status)
  | submitted (result : ActionResult)
  | invalidated

/-- The owner thread. -/
inductive Owner (F : Type) where
  | idle
  | enableLoad (limits : Limits) (features : Features)
  | enableLive (a : Nat) (limits : Limits) (features : Features)
  | enableMake (limits : Limits) (features : Features)
  | enableStore (limits : Limits) (features : Features) (h : validLimits limits = true)
  | disableLoad
  | disableLive (a : Nat)
  | closeLoad
  | closeExchange (a : Nat)
  | closeLock (a : Nat)
  | closeSnapshot (a : Nat)
  | closeActions (a : Nat)
  | closeNotifications (a : Nat)
  | closeUnlock (a : Nat)
  | popLoad
  | popLocked (a : Nat)
  | drainLoad
  | drain (a remaining : Nat)

inductive Holder where
  | caller (c : Nat)
  | owner
  deriving DecidableEq, Repr

/-! ## The state -/

structure Bridge (F : Type) where
  runtimes : List (Runtime F) := []
  runtime : Option Nat := none
  publicationMutex : Option Holder := none
  lastGeneration : Generation := 0
  callers : List (Caller F)
  owner : Owner F := .idle
  stored : List (Nat × PublishedSnapshot F) := []

inductive Call (F : Type) where
  | publish (snapshot : SnapshotView F)
  | announce (announcement : AnnouncementView)
  | submit (a : Nat) (request : ActionRequest F)
  | invalidate (focusGained : Bool)

inductive OwnerCall where
  | enable (limits : Limits) (features : Features)
  | disable
  | close
  | pop
  | drain

/-- A call begins, a thread takes its next step, or the owner window is enabled or disabled. -/
inductive BridgeAction (F : Type) where
  | call (c : Nat) (call : Call F)
  | step (c : Nat) (outcome : Io.Status)
  | ownerCall (call : OwnerCall)
  | ownerStep (outcome : Io.Status)
  | hostEnabled (a : Nat) (enabled : Bool)

namespace Bridge

variable {F : Type}

def initial (n : Nat) : Bridge F where
  callers := List.replicate n .idle

def setCaller (s : Bridge F) (c : Nat) (caller : Caller F) : Bridge F :=
  { s with callers := s.callers.set c caller }

def setRuntime (s : Bridge F) (a : Nat) (runtime : Runtime F) : Bridge F :=
  { s with runtimes := s.runtimes.set a runtime }

def setOwner (s : Bridge F) (owner : Owner F) : Bridge F := { s with owner }

/-- Whether the thread is in no call. -/
def ready : Caller F → Bool
  | .publish _ | .announce _ | .submit _ | .invalidate _ => false
  | _ => true

def begin : Call F → Caller F
  | .publish snapshot => .publish (.load snapshot)
  | .announce announcement => .announce (.load announcement)
  | .submit a request => .submit (.live a request)
  | .invalidate focusGained => .invalidate (.load focusGained)

def beginOwner : OwnerCall → Owner F
  | .enable limits features => .enableLoad limits features
  | .disable => .disableLoad
  | .close => .closeLoad
  | .pop => .popLoad
  | .drain => .drainLoad

variable [DoubleOps F]

/-! ## publish -/

def publishStep (s : Bridge F) (c : Nat) (outcome : Io.Status) : PublishStage F → Option (Bridge F)
  | .load snapshot =>
    match s.runtime with
    | none => some (s.setCaller c (.published (Io.makeStatus .notOpen)))
    | some a => some (s.setCaller c (.publish (.live a snapshot)))
  | .live a snapshot => do
    let r ← s.runtimes[a]?
    if !r.live then some (s.setCaller c (.published (Io.makeStatus .notOpen)))
    else some (s.setCaller c (.publish (.validate a snapshot)))
  | .validate a snapshot => do
    let r ← s.runtimes[a]?
    let validation ← validate snapshot r.limits (snapshot.nodes.length + 1)
    if !validation.ok then some (s.setCaller c (.published validation.status))
    else if !outcome.ok then some (s.setCaller c (.published outcome))
    else some (s.setCaller c (.publish (.lock a (publishedSnapshot snapshot))))
  | .lock a candidate =>
    match s.publicationMutex with
    | some _ => none
    | none =>
      some ({ s with publicationMutex := some (.caller c) }.setCaller c
        (.publish (.liveLocked a candidate)))
  | .liveLocked a candidate => do
    let r ← s.runtimes[a]?
    if !r.live then some (s.setCaller c (.publish (.unlock (Io.makeStatus .notOpen))))
    else some (s.setCaller c (.publish (.generation a candidate)))
  | .generation a candidate =>
    if candidate.storage.generation ≤ s.lastGeneration then
      some (s.setCaller c (.publish (.unlock (Io.makeStatus .invalidArgument))))
    else some (s.setCaller c (.publish (.root a candidate)))
  | .root a candidate => do
    let r ← s.runtimes[a]?
    if r.snapshot.any (·.storage.root ≠ candidate.storage.root) then
      some (s.setCaller c (.publish (.unlock (Io.makeStatus .invalidArgument))))
    else some (s.setCaller c (.publish (.prepare a candidate r.snapshot)))
  | .prepare a candidate before =>
    if !outcome.ok then some (s.setCaller c (.publish (.unlock outcome)))
    else some (s.setCaller c (.publish (.liveAgain a candidate before)))
  | .liveAgain a candidate before => do
    let r ← s.runtimes[a]?
    if !r.live then some (s.setCaller c (.publish (.unlock (Io.makeStatus .notOpen))))
    else some (s.setCaller c (.publish (.store a candidate before)))
  | .store a candidate before => do
    let r ← s.runtimes[a]?
    some (({ s with stored := s.stored ++ [(a, candidate)] }.setRuntime a
      { r with snapshot := some candidate }).setCaller c (.publish (.record a candidate before)))
  | .record a candidate before =>
    some ({ s with lastGeneration := candidate.storage.generation }.setCaller c
      (.publish (.diff a candidate before)))
  | .diff a candidate before => do
    let r ← s.runtimes[a]?
    some ((s.setRuntime a (r.queueDiff before candidate)).setCaller c (.publish (.unlock {})))
  | .unlock status =>
    some ({ s with publicationMutex := none }.setCaller c (.published status))

/-! ## announce -/

def announceStep (s : Bridge F) (c : Nat) (outcome : Io.Status) :
    AnnounceStage F → Option (Bridge F)
  | .load announcement =>
    match s.runtime with
    | none => some (s.setCaller c (.announced (Io.makeStatus .notOpen)))
    | some a => some (s.setCaller c (.announce (.live a announcement)))
  | .live a announcement => do
    let r ← s.runtimes[a]?
    if !r.live then some (s.setCaller c (.announced (Io.makeStatus .notOpen)))
    else some (s.setCaller c (.announce (.check a announcement)))
  | .check a announcement => do
    let r ← s.runtimes[a]?
    if !r.features.supports .announcements then
      some (s.setCaller c (.announced (Io.makeStatus .unsupported)))
    else if announcement.priority > .high ||
        announcement.text.length + announcement.language.length >
          r.limits.maximumAnnouncementBytes then
      some (s.setCaller c (.announced (Io.makeStatus .invalidArgument)))
    else if !validUtf8 announcement.text || !validUtf8 announcement.language then
      some (s.setCaller c (.announced (Io.makeStatus .encodingFailed)))
    else some (s.setCaller c (.announce (.snapshot a announcement)))
  | .snapshot a announcement => do
    let r ← s.runtimes[a]?
    match r.snapshot with
    | none => some (s.setCaller c (.announced (Io.makeStatus .invalidArgument)))
    | some snapshot =>
      let id := if announcement.node ≠ 0 then announcement.node else snapshot.storage.root
      match snapshot.find id with
      | none => some (s.setCaller c (.announced (Io.makeStatus .invalidArgument)))
      | some node =>
        if !announcement.language.isEmpty && announcement.language ≠ node.language &&
            !r.features.supports .announcementLanguage then
          some (s.setCaller c (.announced (Io.makeStatus .unsupported)))
        else if !outcome.ok then some (s.setCaller c (.announced (Io.makeStatus .outOfMemory)))
        else some (s.setCaller c (.announce (.push a snapshot id announcement)))
  | .push a snapshot id announcement => do
    let r ← s.runtimes[a]?
    let (status, r) := r.pushAnnouncement snapshot id announcement
    some ((s.setRuntime a r).setCaller c (.announced status))

/-! ## Native actions and host changes -/

def submitStep (s : Bridge F) (c : Nat) : SubmitStage F → Option (Bridge F)
  | .live a request => do
    let r ← s.runtimes[a]?
    if !r.live then some (s.setCaller c (.submitted { acceptance := .closed }))
    else some (s.setCaller c (.submit (.snapshot a request)))
  | .snapshot a request => do
    let r ← s.runtimes[a]?
    some (s.setCaller c (.submit (.check a r.snapshot request)))
  | .check a snapshot request => do
    let r ← s.runtimes[a]?
    match r.checkAction snapshot request with
    | .error acceptance => some (s.setCaller c (.submitted { acceptance }))
    | .ok snapshot => some (s.setCaller c (.submit (.commit a snapshot request)))
  | .commit a snapshot request => do
    let r ← s.runtimes[a]?
    let (result, r) := r.commitAction snapshot request
    some ((s.setRuntime a r).setCaller c (.submitted result))

def invalidateStep (s : Bridge F) (c : Nat) : InvalidateStage → Option (Bridge F)
  | .load focusGained =>
    match s.runtime with
    | none => some (s.setCaller c .invalidated)
    | some a => some (s.setCaller c (.invalidate (.live a focusGained)))
  | .live a focusGained => do
    let r ← s.runtimes[a]?
    if !r.live then some (s.setCaller c .invalidated)
    else some (s.setCaller c (.invalidate (.locked a focusGained)))
  | .locked a focusGained => do
    let r ← s.runtimes[a]?
    some ((s.setRuntime a (r.invalidateHost focusGained)).setCaller c .invalidated)

def callerStep (s : Bridge F) (c : Nat) (outcome : Io.Status) : Caller F → Option (Bridge F)
  | .publish stage => s.publishStep c outcome stage
  | .announce stage => s.announceStep c outcome stage
  | .submit stage => s.submitStep c stage
  | .invalidate stage => s.invalidateStep c stage
  | _ => none

/-! ## The owner thread -/

def ownerStep (s : Bridge F) (outcome : Io.Status) : Owner F → Option (Bridge F)
  | .idle => none
  | .enableLoad limits features =>
    match s.runtime with
    | none => some (s.setOwner (.enableMake limits features))
    | some a => some (s.setOwner (.enableLive a limits features))
  | .enableLive a limits features => do
    let r ← s.runtimes[a]?
    if r.live then some (s.setOwner .idle) else some (s.setOwner (.enableMake limits features))
  | .enableMake limits features =>
    if h : validLimits limits = true then
      if outcome.ok then some (s.setOwner (.enableStore limits features h))
      else some (s.setOwner .idle)
    else some (s.setOwner .idle)
  | .enableStore limits features h =>
    some ({ s with
      runtimes := s.runtimes ++ [Runtime.create limits features h]
      runtime := some s.runtimes.length }.setOwner .idle)
  | .disableLoad =>
    match s.runtime with
    | none => some (s.setOwner .idle)
    | some a => some (s.setOwner (.disableLive a))
  | .disableLive a => do
    let r ← s.runtimes[a]?
    if !r.live then some (s.setOwner .idle) else some (s.setOwner .closeLoad)
  | .closeLoad =>
    match s.runtime with
    | none => some (s.setOwner .idle)
    | some a => some (s.setOwner (.closeExchange a))
  | .closeExchange a => do
    let r ← s.runtimes[a]?
    if !r.live then some (s.setOwner .idle)
    else some ((s.setRuntime a { r with live := false }).setOwner (.closeLock a))
  | .closeLock a =>
    match s.publicationMutex with
    | some _ => none
    | none => some ({ s with publicationMutex := some .owner }.setOwner (.closeSnapshot a))
  | .closeSnapshot a => do
    let r ← s.runtimes[a]?
    some ((s.setRuntime a { r with snapshot := none }).setOwner (.closeActions a))
  | .closeActions a => do
    let r ← s.runtimes[a]?
    some ((s.setRuntime a r.clearActions).setOwner (.closeNotifications a))
  | .closeNotifications a => do
    let r ← s.runtimes[a]?
    some ((s.setRuntime a r.clearNotifications).setOwner (.closeUnlock a))
  | .closeUnlock _ => some ({ s with publicationMutex := none }.setOwner .idle)
  | .popLoad =>
    match s.runtime with
    | none => some (s.setOwner .idle)
    | some a => some (s.setOwner (.popLocked a))
  | .popLocked a => do
    let r ← s.runtimes[a]?
    match r.popAction with
    | none => some (s.setOwner .idle)
    | some (_, r) => some ((s.setRuntime a r).setOwner .idle)
  | .drainLoad =>
    match s.runtime with
    | none => some (s.setOwner .idle)
    | some a => do
      let r ← s.runtimes[a]?
      some (s.setOwner (.drain a r.notifications.capacity))
  | .drain _ 0 => some (s.setOwner .idle)
  | .drain a (remaining + 1) => do
    let r ← s.runtimes[a]?
    match r.drainNotification with
    | none => some (s.setOwner .idle)
    | some (_, r) => some ((s.setRuntime a r).setOwner (.drain a remaining))

/-! ## Steps -/

def bridgeStep (s : Bridge F) : BridgeAction F → Option (Bridge F)
  | .call c call => do
    let caller ← s.callers[c]?
    if ready caller then some (s.setCaller c (begin call)) else none
  | .step c outcome => do
    let caller ← s.callers[c]?
    s.callerStep c outcome caller
  | .ownerCall call =>
    match s.owner with
    | .idle => some (s.setOwner (beginOwner call))
    | _ => none
  | .ownerStep outcome => s.ownerStep outcome s.owner
  | .hostEnabled a enabled => do
    let r ← s.runtimes[a]?
    some (s.setRuntime a { r with hostEnabled := enabled })

end Bridge

end Desktop

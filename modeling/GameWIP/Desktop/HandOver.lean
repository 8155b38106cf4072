import GameWIP.Lib.Chain

/-!
# Cleanup handed over to the owner thread

A native object is destroyed by the thread that owns it. A destructor on another thread hands its
state over to the owner's dispatcher (`deferCleanupToOwner` and its variants), which cleans it up
when it next pumps (`pruneAbandonedStates`) or when its thread ends (`Dispatcher::~Dispatcher`), all
in `platform/win32/win32_window.cpp`.

The deferred lists are chains through `deferredCleanupNext`, with an owning head for each kind of
state. `dispatcherRegistryMutex` is held over many steps and is part of the state. What happens
under `deferredMutex` is one step, since only its holder touches the heads. Steps of different
threads interleave in any order, and every close may fail or succeed.

The native objects stay outside: a close is its outcome. The states that are still registered when
the dispatcher ends are closed there too, but were never handed over.
-/

namespace Desktop

namespace HandOver

/-- The four kinds of state a dispatcher cleans up. -/
inductive StateKind where
  | window
  | childSurface
  | progressDialog
  | dragDropTarget
  deriving DecidableEq, Repr

abbrev StateId := Nat

abbrev ThreadId := Nat

/-- The thread whose dispatcher this is. -/
def ownerThread : ThreadId := 0

/-- Where a hand-over is. -/
inductive CallPhase where
  /-- In front of the registry lock. -/
  | enter
  /-- The registry is locked. -/
  | search
  /-- The owner is found; the end of the chain is at `tail` or behind it. -/
  | walk (tail : StateId)
  /-- Behind the splice or the failed lookup, with the result. -/
  | leave (result : Bool)
  deriving DecidableEq, Repr

/-- A hand-over: its argument is the state of the caller, or the rest of the owner's cleanup chain
when the owner puts a failed chain back. A direct one is the owner's own of a progress dialog, which
goes to the dispatcher of the thread without the registry. -/
structure Call where
  kind : StateKind
  argument : Option StateId
  putsBack : Bool := false
  direct : Bool := false
  phase : CallPhase := .enter
  deriving DecidableEq, Repr

/-- What the owner thread does. -/
inductive OwnerPhase where
  | idle
  /-- `pruneAbandonedStates`, about to take the list of a kind. -/
  | take (kind : StateKind)
  | drain (kind : StateKind)
  /-- A progress dialog could not be closed; its chain ends at `tail` or behind it. -/
  | requeue (tail : StateId)
  /-- A drop target could not be closed and its chain is being handed over again. -/
  | putBack
  /-- `Dispatcher::~Dispatcher`, under the registry lock. -/
  | exitTake (kind : StateKind)
  | exitDrain (kind : StateKind)
  | exitErase
  | exitUnlock
  | exited
  deriving DecidableEq, Repr

/-- A hand-over that returned: the state, whether it had native resources, and the result. -/
structure Returned where
  state : StateId
  native : Bool
  result : Bool
  deriving DecidableEq, Repr

structure State where
  /-- `deferredCleanupNext`. -/
  next : StateId → Option StateId := fun _ => none
  /-- The heads of the deferred lists. -/
  heads : StateKind → Option StateId := fun _ => none
  /-- The owner's local chain. -/
  cleanup : Option StateId := none
  owner : OwnerPhase := .idle
  /-- The thread is in `dispatcherRegistry`. -/
  registered : Bool := true
  /-- The holder of `dispatcherRegistryMutex`. -/
  registryLock : Option ThreadId := none
  calls : ThreadId → Option Call := fun _ => none
  /-- The states whose owning pointer is still their caller's. -/
  held : StateId → Bool := fun _ => true
  returned : List Returned := []
  /-- The states closed and freed, in order. -/
  finalized : List StateId := []

inductive Action where
  /-- A thread hands over a state with or without native resources. -/
  | handOver (thread : ThreadId) (state : StateId) (native : Bool)
  | lockRegistry (thread : ThreadId)
  | find (thread : ThreadId)
  | splice (thread : ThreadId)
  | return (thread : ThreadId)
  | prune
  | take
  /-- The first state of the chain is closed, with the outcome. -/
  | close (closed : Bool)
  | requeue
  | exit
  deriving DecidableEq, Repr

/-- Closing windows and child surfaces has no result; the others are kept when it fails. -/
def keptOnFailure : StateKind → Bool
  | .window | .childSurface => false
  | .progressDialog | .dragDropTarget => true

/-- The kind behind `kind` in `pruneAbandonedStates`. -/
def pruneAfter : StateKind → OwnerPhase
  | .progressDialog => .take .window
  | .window => .take .childSurface
  | .childSurface => .take .dragDropTarget
  | .dragDropTarget => .idle

/-- The part behind `kind` in the dispatcher's destructor. -/
def exitAfter : StateKind → OwnerPhase
  | .progressDialog => .exitTake .dragDropTarget
  | .dragDropTarget => .exitErase
  | .window => .exitTake .childSurface
  | .childSurface => .exitUnlock

/-! ## Hand-over -/

def setCall (s : State) (thread : ThreadId) (call : Option Call) : State :=
  { s with calls := Function.update s.calls thread call }

/-- A hand-over of a state without native resources returns at once: `true` for a window, which
then needs no cleanup, `false` for the others. The owner hands over only between its prunes. -/
def handOver (kind : StateId → StateKind) (s : State) (thread : ThreadId) (state : StateId)
    (native : Bool) : Option State :=
  if s.calls thread ≠ none ∨ s.held state = false ∨
      (thread = ownerThread ∧ s.owner ≠ .idle) then none
  else if native then
    let direct := kind state == .progressDialog && thread == ownerThread
    some (setCall { s with held := Function.update s.held state false } thread
      (some {
        kind := kind state, argument := some state, direct := direct,
        phase := if direct then .walk state else .enter }))
  else
    some { s with returned := s.returned ++ [⟨state, false, kind state == .window⟩] }

/-- The registry lock is waited for. -/
def lockRegistry (s : State) (thread : ThreadId) : Option State :=
  match s.calls thread with
  | some call =>
    if call.phase = .enter ∧ s.registryLock = none then
      some (setCall { s with registryLock := some thread } thread (some { call with phase := .search }))
    else none
  | none => none

/-- The pointer a hand-over works on. -/
def argument (s : State) (call : Call) : Option StateId :=
  if call.putsBack then s.cleanup else call.argument

/-- The lookup of the owner. -/
def find (s : State) (thread : ThreadId) : Option State :=
  match s.calls thread with
  | some call =>
    match call.phase, argument s call with
    | .search, some state =>
      let phase := if s.registered then .walk state else .leave false
      some (setCall s thread (some { call with phase := phase }))
    | _, _ => none
  | none => none

/-- The head of a list becomes the chain, whose end is linked to the old head. -/
def linkFront (s : State) (kind : StateKind) (tail : StateId) (head : Option StateId) : State :=
  { s with
    next := Function.update s.next tail (s.heads kind)
    heads := Function.update s.heads kind head }

/-- The walk goes one state on, or the chain is linked in front of the deferred list. Windows and
child surfaces come alone and are linked without a walk. -/
def splice (s : State) (thread : ThreadId) : Option State :=
  match s.calls thread with
  | some call =>
    match call.phase with
    | .walk tail =>
      match keptOnFailure call.kind, s.next tail with
      | true, some following =>
        some (setCall s thread (some { call with phase := .walk following }))
      | _, _ =>
        let linked := linkFront s call.kind tail (argument s call)
        let moved := if call.putsBack then { linked with cleanup := none } else linked
        some (setCall moved thread (some { call with phase := .leave true }))
    | _ => none
  | none => none

/-- The lock is released and the result returned. When the owner's own hand-over fails, the first
state of its chain is freed with the local pointer and the others are lost with it. -/
def returnCall (s : State) (thread : ThreadId) : Option State :=
  match s.calls thread with
  | some call =>
    match call.phase with
    | .leave result =>
      let lock := if call.direct then s.registryLock else none
      let unlocked := setCall { s with registryLock := lock } thread none
      if call.putsBack then
        some { unlocked with cleanup := none, owner := .idle }
      else
        match call.argument with
        | some state =>
          some { unlocked with
            held := Function.update s.held state !result
            returned := s.returned ++ [⟨state, true, result⟩] }
        | none => none
    | _ => none
  | none => none

/-! ## The owner -/

/-- `pruneAbandonedStates` begins with the progress dialogs. -/
def prune (s : State) : Option State :=
  if s.owner = .idle ∧ s.calls ownerThread = none then
    some { s with owner := .take .progressDialog }
  else none

/-- A deferred list is moved into the local chain. -/
def takeList (s : State) (kind : StateKind) (owner : OwnerPhase) : State :=
  { s with cleanup := s.heads kind, heads := Function.update s.heads kind none, owner := owner }

def take (s : State) : Option State :=
  match s.owner with
  | .take kind => some (takeList s kind (.drain kind))
  | .exitTake kind => some (takeList s kind (.exitDrain kind))
  | _ => none

/-- The first state is unlinked, closed and freed. -/
def finalizeFirst (s : State) (state : StateId) : State :=
  { s with
    cleanup := s.next state
    next := Function.update s.next state none
    finalized := s.finalized ++ [state] }

/-- One round of a drain loop. At the end of the chain the owner goes on behind the loop. -/
def close (s : State) (closed : Bool) : Option State :=
  match s.owner, s.cleanup with
  | .drain kind, none => some { s with owner := pruneAfter kind }
  | .drain kind, some state =>
    if keptOnFailure kind && !closed then
      if kind = .progressDialog then some { s with owner := .requeue state }
      else
        some (setCall { s with owner := .putBack } ownerThread
          (some { kind := kind, argument := none, putsBack := true }))
    else some (finalizeFirst s state)
  | .exitDrain kind, none => some { s with owner := exitAfter kind }
  | .exitDrain _, some state => some (finalizeFirst s state)
  | _, _ => none

/-- The walk of a failed progress chain, or its splice, behind which the windows are next. -/
def requeue (s : State) : Option State :=
  match s.owner with
  | .requeue tail =>
    match s.next tail with
    | some following => some { s with owner := .requeue following }
    | none =>
      some { linkFront s .progressDialog tail s.cleanup with
        cleanup := none, owner := pruneAfter .progressDialog }
  | _ => none

/-- The steps of the destructor outside of its loops: the registry is locked, the thread's entry
erased and the lock released. -/
def exit (s : State) : Option State :=
  match s.owner with
  | .idle =>
    if s.calls ownerThread = none ∧ s.registryLock = none then
      some { s with registryLock := some ownerThread, owner := .exitTake .progressDialog }
    else none
  | .exitErase => some { s with registered := false, owner := .exitTake .window }
  | .exitUnlock => some { s with registryLock := none, owner := .exited }
  | _ => none

def step (kind : StateId → StateKind) (s : State) : Action → Option State
  | .handOver thread state native => handOver kind s thread state native
  | .lockRegistry thread => lockRegistry s thread
  | .find thread => find s thread
  | .splice thread => splice s thread
  | .return thread => returnCall s thread
  | .prune => prune s
  | .take => take s
  | .close closed => close s closed
  | .requeue => requeue s
  | .exit => exit s

end HandOver

end Desktop

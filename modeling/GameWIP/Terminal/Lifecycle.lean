import GameWIP.Lib.Slots
import GameWIP.Lib.Trace

/-!
# The lifecycle gate of a session

Every operation of a session holds a `State::Operation`, and `open` and `close` run under a
`State::Mutation` (`terminal/core/session.cpp`). An operation is admitted under `lifecycleMutex`:
its constructor waits until no mutation is announced, registers the operation in
`activeOperations` if the session is open, and lets go of the mutex; the open flag is read again
afterwards, without the mutex. A mutation announces itself, waits for the count to reach zero and
keeps the mutex for its body.

`step` interleaves any number of threads, each with its own stack of operations. Its actions are
the sections the source runs under the mutex, the unguarded read of the open flag and the store of
the flag in a mutation's body; a wait on the condition variable is an action that is not enabled.
-/

namespace Terminal

/-- Where an operation is: behind its constructor, behind an open check that passed, or behind one
that failed. -/
inductive OperationPhase where
  | entered
  | running
  | refused
  deriving DecidableEq, Repr

/-- A live `State::Operation`; `registered` is `state_ != nullptr`. -/
structure Operation where
  registered : Bool
  phase : OperationPhase
  deriving DecidableEq, Repr

inductive LifecycleCall where
  | opening
  | closing
  deriving DecidableEq, Repr

/-- What the call stores in the open flag. -/
def LifecycleCall.target : LifecycleCall → Bool
  | opening => true
  | closing => false

/-- Where a `State::Mutation` is: in front of the first wait of its constructor, in front of the
second one, or in its body, which has stored the open flag or not. -/
inductive MutationPhase where
  | waiting
  | draining
  | body (stored : Bool)
  deriving DecidableEq, Repr

structure Mutation where
  call : LifecycleCall
  phase : MutationPhase
  deriving DecidableEq, Repr

/-- A thread: its live operations on the session, the innermost first, and its mutation. -/
structure Thread where
  operations : List Operation := []
  mutation : Option Mutation := none
  deriving DecidableEq, Repr

namespace Thread

/-- `Operation::activeOnCurrentThread`: the chain of current operations holds the registered
ones. -/
def activeOnCurrentThread (thread : Thread) : Bool := thread.operations.any (·.registered)

/-- The thread may call the session: from outside, or from inside a running operation. -/
def canCall (thread : Thread) : Bool :=
  thread.mutation.isNone &&
    match thread.operations with
    | [] => true
    | operation :: _ => operation.phase = .running

def push (thread : Thread) (operation : Operation) : Thread :=
  { thread with operations := operation :: thread.operations }

def pop (thread : Thread) : Thread := { thread with operations := thread.operations.tail }

/-- The innermost operation gets to a phase. -/
def setPhase (thread : Thread) (phase : OperationPhase) : Thread :=
  match thread.operations with
  | [] => thread
  | operation :: operations => { thread with operations := { operation with phase } :: operations }

end Thread

/-- The lifecycle part of `Session::State` and the threads that use the session. Between two
actions `lifecycleMutex` is held by the thread in the body of a mutation, if by any. -/
structure Lifecycle where
  lifecycleMutex : Option Nat := none
  lifecycleMutation : Bool := false
  activeOperations : Nat := 0
  isOpen : Bool := false
  threads : List Thread := []
  deriving DecidableEq, Repr

inductive LifecycleAction where
  | beginOperation (thread : Nat)
  | checkOpen (thread : Nat)
  | endOperation (thread : Nat)
  | beginMutation (thread : Nat) (call : LifecycleCall)
  | announce (thread : Nat)
  | drained (thread : Nat)
  | abort (thread : Nat)
  | store (thread : Nat)
  | endMutation (thread : Nat)
  deriving DecidableEq, Repr

namespace Lifecycle

def setThread (state : Lifecycle) (t : Nat) (thread : Thread) : Lifecycle :=
  { state with threads := state.threads.set t thread }

/-- The locked section of the `Operation` constructor. -/
def beginOperation (state : Lifecycle) (t : Nat) (thread : Thread) : Option Lifecycle :=
  if !thread.canCall || state.lifecycleMutex.isSome then none
  else if !thread.activeOnCurrentThread && state.lifecycleMutation then none
  else if !state.isOpen then
    some (state.setThread t (thread.push { registered := false, phase := .entered }))
  else
    some ({ state with activeOperations := state.activeOperations + 1 }.setThread t
      (thread.push { registered := true, phase := .entered }))

/-- The open check of an operation, which takes no lock. -/
def checkOpen (state : Lifecycle) (t : Nat) (thread : Thread) : Option Lifecycle :=
  match thread.operations with
  | [] => none
  | operation :: _ =>
    if operation.phase = .entered then
      some (state.setThread t (thread.setPhase (if state.isOpen then .running else .refused)))
    else none

/-- The `Operation` destructor; only a registered operation takes the lock. -/
def endOperation (state : Lifecycle) (t : Nat) (thread : Thread) : Option Lifecycle :=
  match thread.operations with
  | [] => none
  | operation :: _ =>
    if operation.phase = .entered || thread.mutation.isSome then none
    else if !operation.registered then some (state.setThread t thread.pop)
    else if state.lifecycleMutex.isSome then none
    else
      some ({ state with activeOperations := state.activeOperations - 1 }.setThread t thread.pop)

/-- The entry of `open` and `close`, which return at once inside an operation of their thread. -/
def beginMutation (state : Lifecycle) (t : Nat) (call : LifecycleCall) (thread : Thread) :
    Option Lifecycle :=
  if !thread.canCall then none
  else if thread.activeOnCurrentThread then some state
  else some (state.setThread t { thread with mutation := some { call, phase := .waiting } })

/-- The `Mutation` constructor up to its second wait, and through it when nothing is active. -/
def announce (state : Lifecycle) (t : Nat) (thread : Thread) : Option Lifecycle :=
  match thread.mutation with
  | some ⟨call, .waiting⟩ =>
    if state.lifecycleMutex.isSome || state.lifecycleMutation then none
    else if state.activeOperations = 0 then
      some ({ state with lifecycleMutation := true, lifecycleMutex := some t }.setThread t
        { thread with mutation := some { call, phase := .body false } })
    else
      some ({ state with lifecycleMutation := true }.setThread t
        { thread with mutation := some { call, phase := .draining } })
  | _ => none

/-- The end of the second wait. -/
def drained (state : Lifecycle) (t : Nat) (thread : Thread) : Option Lifecycle :=
  match thread.mutation with
  | some ⟨call, .draining⟩ =>
    if state.lifecycleMutex.isSome || state.activeOperations ≠ 0 then none
    else
      some ({ state with lifecycleMutex := some t }.setThread t
        { thread with mutation := some { call, phase := .body false } })
  | _ => none

/-- The second wait throws: the constructor takes its announcement back. -/
def abort (state : Lifecycle) (t : Nat) (thread : Thread) : Option Lifecycle :=
  match thread.mutation with
  | some ⟨_, .draining⟩ =>
    if state.lifecycleMutex.isSome then none
    else some ({ state with lifecycleMutation := false }.setThread t { thread with mutation := none })
  | _ => none

/-- The store of the open flag in the body of `open` on a closed and of `close` on an open session;
a body that fails or has nothing to do stores nothing. -/
def store (state : Lifecycle) (t : Nat) (thread : Thread) : Option Lifecycle :=
  match thread.mutation with
  | some ⟨call, .body false⟩ =>
    if state.isOpen = call.target then none
    else
      some ({ state with isOpen := call.target }.setThread t
        { thread with mutation := some { call, phase := .body true } })
  | _ => none

/-- The `Mutation` destructor. -/
def endMutation (state : Lifecycle) (t : Nat) (thread : Thread) : Option Lifecycle :=
  match thread.mutation with
  | some ⟨_, .body _⟩ =>
    some ({ state with lifecycleMutation := false, lifecycleMutex := none }.setThread t
      { thread with mutation := none })
  | _ => none

/-- One action of one thread. -/
def step (state : Lifecycle) : LifecycleAction → Option Lifecycle
  | .beginOperation t => state.threads[t]?.bind (state.beginOperation t)
  | .checkOpen t => state.threads[t]?.bind (state.checkOpen t)
  | .endOperation t => state.threads[t]?.bind (state.endOperation t)
  | .beginMutation t call => state.threads[t]?.bind (state.beginMutation t call)
  | .announce t => state.threads[t]?.bind (state.announce t)
  | .drained t => state.threads[t]?.bind (state.drained t)
  | .abort t => state.threads[t]?.bind (state.abort t)
  | .store t => state.threads[t]?.bind (state.store t)
  | .endMutation t => state.threads[t]?.bind (state.endMutation t)

/-- A session that has not been opened, used by `n` threads. -/
def initial (n : Nat) : Lifecycle := { threads := List.replicate n {} }

end Lifecycle

end Terminal

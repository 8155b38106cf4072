import GameWIP.Logger.Queue

/-!
# The worker of the logger, and who wakes it

The threads of one epoch (`enqueueAndWakeWorker` and `loggerWorker` in
`tools/logger/core/logger_queue.cpp`, `ProducerActivity`, `flushInternal`, `shutdownImpl`): any
number of producers and flush callers, the worker and one shutdown. `loggerStep` interleaves them
over the queue.

Every access to an atomic outside `logMutex` is a step of its own. A critical section with at most
one such access is one step, taken while the mutex is free; the worker, which loads several
counters under the mutex, holds it from `loadingHead` on until it sleeps, leaves or marks itself
busy. Every wait may wake for no reason.
-/

namespace Logger

/-- Where a producer is in `enqueueAndWakeWorker`; in `queueing` it is in the queue. -/
inductive Caller where
  | idle
  | entering (entry : PendingLogEntry)
  | filtering (entry : PendingLogEntry)
  | queueing
  | leaving (notifyWorker : Bool)
  | leaveNotifying (notifyWorker : Bool)
  | left (notifyWorker : Bool)
  deriving DecidableEq, Repr

/-- Where the worker is in its loop: up to `asleep` in the wait and its predicate, then in the test
for the end, then in a batch. -/
inductive LoopStage where
  | locking
  | loadingHead
  | loadingActive
  | loadingDepth
  | unready
  | asleep
  | checkingPublished
  | checkingDepth
  | checkingActive
  | marking
  | starting
  | draining
  | writing (index : Nat)
  | flushing
  | finishing
  | notifying
  | exited
  deriving DecidableEq, Repr

/-- The worker holds `logMutex`. -/
def LoopStage.locked : LoopStage → Bool
  | .loadingHead | .loadingActive | .loadingDepth | .unready | .checkingPublished | .checkingDepth
  | .checkingActive | .marking => true
  | _ => false

/-- Where a caller is in `flushInternal`. -/
inductive Flusher where
  | idle
  | checking
  | asleep
  | timedOut
  | flushed
  deriving DecidableEq, Repr

/-- Where `shutdownImpl` is, up to its flush; what is behind it ends the epoch. -/
inductive ShutdownStage where
  | idle
  | notifying
  | joining
  | checking
  | asleep
  | flushed
  deriving DecidableEq, Repr

/-- One epoch of the logger. `runtimeStateRunning` is the running bit of `runtimeStateBits`;
`written` and `flushed` record the entries written to the sinks and how many of them a finished
batch holds. -/
structure LoggerState where
  queue : Queue
  workerBatchSize : Nat
  workerRunning : Bool := true
  workerBusy : Bool := false
  runtimeStateRunning : Bool := true
  activeProducers : Nat := 0
  callers : List Caller
  worker : LoopStage := .locking
  flushers : List Flusher
  shutdown : ShutdownStage := .idle
  written : List QueuedLogEntry := []
  flushed : Nat := 0

inductive LoggerAction where
  | call (producer : Nat) (entry : PendingLogEntry)
  /-- The next step of a producer; `filtered` is a record the filters reject, `fails` as in
  `QueueAction.produce`. -/
  | caller (producer : Nat) (filtered fails : Bool)
  | worker
  | wake
  | flush (flusher : Nat)
  /-- The next step of a flush caller; `expired` is its deadline. -/
  | flusher (flusher : Nat) (expired : Bool)
  | shutdown

namespace LoggerState

/-- The state behind `startWorkerThread`, for `n` producers and `m` flush callers. -/
def initial (config : QueueConfig) (workerBatchSize n m : Nat) : LoggerState where
  queue := .initial config n
  workerBatchSize := workerBatchSize
  callers := List.replicate n .idle
  flushers := List.replicate m .idle

def setCaller (s : LoggerState) (p : Nat) (caller : Caller) : LoggerState :=
  { s with callers := s.callers.set p caller }

def setFlusher (s : LoggerState) (f : Nat) (flusher : Flusher) : LoggerState :=
  { s with flushers := s.flushers.set f flusher }

/-- A critical section of another thread than the worker. -/
def withMutex (s : LoggerState) (next : LoggerState) : Option LoggerState :=
  if s.worker.locked then none else some next

/-- `logCondition.notify_all`. -/
def notifyAll (s : LoggerState) : LoggerState :=
  { s with
    worker := if s.worker = .asleep then .locking else s.worker
    flushers := s.flushers.map fun flusher => if flusher = .asleep then .checking else flusher
    shutdown := if s.shutdown = .asleep then .checking else s.shutdown }

/-- `enter` begins with the count. -/
def call (s : LoggerState) (p : Nat) (entry : PendingLogEntry) : Caller → Option LoggerState
  | .idle =>
    some (({ s with activeProducers := s.activeProducers + 1 } : LoggerState).setCaller p
      (.entering entry))
  | _ => none

/-- The next step of a producer. -/
def caller (s : LoggerState) (p : Nat) (filtered fails : Bool) : Caller → Option LoggerState
  | .idle => none
  | .entering entry =>
    some (s.setCaller p (if s.runtimeStateRunning then .filtering entry else .leaving false))
  | .filtering entry =>
    if !s.runtimeStateRunning || filtered then some (s.setCaller p (.leaving false))
    else
      (queueStep s.queue (.enqueue p entry)).map fun queue =>
        ({ s with queue } : LoggerState).setCaller p .queueing
  | .queueing =>
    match s.queue.producers[p]? with
    | some (.returned _ notifyWorker) => some (s.setCaller p (.leaving notifyWorker))
    | _ => (queueStep s.queue (.produce p fails)).map fun queue => { s with queue }
  | .leaving notifyWorker =>
    some (({ s with activeProducers := s.activeProducers - 1 } : LoggerState).setCaller p
      (if s.activeProducers = 1 then .leaveNotifying notifyWorker else .left notifyWorker))
  | .leaveNotifying notifyWorker => s.withMutex (s.notifyAll.setCaller p (.left notifyWorker))
  | .left notifyWorker =>
    if notifyWorker then s.withMutex (s.notifyAll.setCaller p .idle) else some (s.setCaller p .idle)

def queueHeadIsPublished (s : LoggerState) : Bool :=
  if s.queue.config.logRingSize = 0 then false
  else (s.queue.slot s.queue.dequeueTicket).sequence = s.queue.dequeueTicket + 1

/-- The next step of the worker. -/
def work (s : LoggerState) : Option LoggerState :=
  match s.worker with
  | .locking => some { s with worker := .loadingHead }
  | .loadingHead =>
    some { s with
      worker :=
        if s.queueHeadIsPublished then .checkingPublished
        else if s.workerRunning then .unready
        else .loadingActive }
  | .loadingActive =>
    some { s with worker := if s.activeProducers = 0 then .loadingDepth else .unready }
  | .loadingDepth =>
    some { s with worker := if s.queue.queueDepth = 0 then .checkingPublished else .unready }
  | .unready => some { s with worker := .asleep }
  | .asleep => none
  | .checkingPublished =>
    some { s with
      worker := if s.queue.publishedQueueDepth = 0 then .checkingDepth else .marking }
  | .checkingDepth =>
    some { s with worker := if s.queue.queueDepth = 0 then .checkingActive else .marking }
  | .checkingActive =>
    some { s with
      worker := if s.activeProducers = 0 && !s.workerRunning then .exited else .marking }
  | .marking => some { s with worker := .starting, workerBusy := true }
  | .starting =>
    (queueStep s.queue (.drain s.workerBatchSize)).map fun queue =>
      { s with queue, worker := .draining }
  | .draining =>
    if s.queue.worker.stage = .idle then
      some { s with worker := if s.queue.worker.batch.isEmpty then .finishing else .writing 0 }
    else (queueStep s.queue .work).map fun queue => { s with queue }
  | .writing index =>
    match s.queue.worker.batch[index]? with
    | some entry => some { s with worker := .writing (index + 1), written := s.written ++ [entry] }
    | none => some { s with worker := .flushing }
  | .flushing => some { s with worker := .finishing, flushed := s.written.length }
  | .finishing => some { s with worker := .notifying, workerBusy := false }
  | .notifying => some { s.notifyAll with worker := .locking }
  | .exited => none

/-- The predicate of the flush. -/
def flushReady (s : LoggerState) : Bool :=
  (!s.workerRunning && !s.workerBusy) || (s.queue.queueDepth = 0 && !s.workerBusy)

/-- The next step of a flush caller; one whose deadline expires gives up on the mutex too. -/
def flusher (s : LoggerState) (f : Nat) (expired : Bool) : Flusher → Option LoggerState
  | .checking =>
    if s.worker.locked && expired then some (s.setFlusher f .timedOut)
    else
      s.withMutex (s.setFlusher f
        (if s.flushReady then .flushed else if expired then .timedOut else .asleep))
  | .asleep => some (s.setFlusher f .checking)
  | _ => none

/-- The next step of the shutdown. -/
def shutdownImpl (s : LoggerState) : Option LoggerState :=
  match s.shutdown with
  | .idle =>
    s.withMutex { s with workerRunning := false, runtimeStateRunning := false, shutdown := .notifying }
  | .notifying => some { s.notifyAll with shutdown := .joining }
  | .joining => if s.worker = .exited then some { s with shutdown := .checking } else none
  | .checking => s.withMutex { s with shutdown := if s.flushReady then .flushed else .asleep }
  | .asleep => some { s with shutdown := .checking }
  | .flushed => none

end LoggerState

/-- One step of one thread. -/
def loggerStep (s : LoggerState) : LoggerAction → Option LoggerState
  | .call p entry => s.callers[p]?.bind (s.call p entry)
  | .caller p filtered fails => s.callers[p]?.bind (s.caller p filtered fails)
  | .worker => s.work
  | .wake => if s.worker = .asleep then some { s with worker := .locking } else none
  | .flush f =>
    match s.flushers[f]? with
    | none | some .checking | some .asleep => none
    | some _ => some (s.setFlusher f .checking)
  | .flusher f expired => s.flushers[f]?.bind (s.flusher f expired)
  | .shutdown => s.shutdownImpl

end Logger

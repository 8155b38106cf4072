import Mathlib.Logic.Function.Basic
import GameWIP.Lib.Slots
import GameWIP.Lib.Trace

/-!
# The queue of the logger

The ring between the producers and the worker (`tools/logger/core/logger_queue.cpp`): a producer
reserves depth, takes a ticket, waits for the slot of its ticket, fills it and publishes it; the
worker drains the slots in ticket order. A slot is handed over by its `sequence`.

`queueStep` interleaves any number of producers and the worker by their atomic steps, which are
sequentially consistent: every load, store, compare-exchange and fetch-add on the shared counters
and sequences is a step of its own, and the plain accesses to a slot between two of them are one
step. Tickets and depths are natural numbers; the number of published
slots wraps, since it may be decremented in front of its increment.
-/

namespace Logger

/-! ## Entries -/

inductive LogLevel where
  | trace
  | debug
  | info
  | warn
  | error
  | fatal
  deriving DecidableEq, Repr

def isLowPriority (level : LogLevel) : Bool :=
  level = .trace || level = .debug || level = .info || level = .warn

structure PendingLogEntry where
  level : LogLevel := .info
  usesRegisteredSource : Bool := false
  sourceId : UInt32 := 0
  sourceText : List UInt8 := []
  message : List UInt8 := []
  alreadyTruncated : Bool := false
  deriving DecidableEq, Repr

structure QueuedLogEntry where
  level : LogLevel := .info
  usesRegisteredSource : Bool := false
  sourceId : UInt32 := 0
  sourceText : List UInt8 := []
  message : List UInt8 := []
  deriving DecidableEq, Repr

/-- The loop over the trailing continuation bytes: the index of the last lead byte, at most three
bytes back. -/
def tailLead (text : List UInt8) : Nat → Nat → Nat
  | 0, lead => lead
  | count + 1, lead =>
    if lead = 0 || (text.getD lead 0) &&& 0xC0 ≠ 0x80 then lead else tailLead text count (lead - 1)

/-- The byte count that keeps a valid UTF-8 prefix of a view that may end inside a scalar. -/
def completeUtf8TailBoundary (text : List UInt8) : Nat :=
  if text.isEmpty then 0
  else
    let lead := tailLead text 3 (text.length - 1)
    let first := text.getD lead 0
    let available := text.length - lead
    let cut := fun expected => if available < expected then lead else text.length
    if 0xC2 ≤ first ∧ first ≤ 0xDF then cut 2
    else if 0xE0 ≤ first ∧ first ≤ 0xEF then cut 3
    else if 0xF0 ≤ first ∧ first ≤ 0xF4 then cut 4
    else text.length

def assignJoined (first second : List UInt8) : List UInt8 :=
  first.take (completeUtf8TailBoundary first) ++ second

/-- `"... [truncated]"`. -/
def truncationSuffix : List UInt8 :=
  [0x2E, 0x2E, 0x2E, 0x20, 0x5B, 0x74, 0x72, 0x75, 0x6E, 0x63, 0x61, 0x74, 0x65, 0x64, 0x5D]

/-- The retained prefix and suffix, and whether the message was cut. -/
def assignRetainedMessage (message : List UInt8) (maxMessageLength : Nat) : List UInt8 × Bool :=
  if message.length ≤ maxMessageLength then (message, false)
  else if maxMessageLength = 0 then ([], true)
  else if maxMessageLength ≤ truncationSuffix.length then
    (truncationSuffix.take maxMessageLength, true)
  else
    (assignJoined (message.take (maxMessageLength - truncationSuffix.length)) truncationSuffix, true)

/-- What the slot holds of an entry once it is copied. -/
def copyPendingEntryToQueueSlot (source : PendingLogEntry) (maxMessageLength : Nat) :
    QueuedLogEntry where
  level := source.level
  usesRegisteredSource := source.usesRegisteredSource
  sourceId := source.sourceId
  sourceText := if source.usesRegisteredSource then [] else source.sourceText
  message :=
    if source.alreadyTruncated then source.message
    else (assignRetainedMessage source.message maxMessageLength).1

/-! ## The ring -/

structure QueueSlot where
  sequence : Nat := 0
  skip : Bool := false
  entry : QueuedLogEntry := {}
  deriving DecidableEq, Repr

/-- The sizes of an epoch, as `init` prepares them. -/
structure QueueConfig where
  softQueueSize : Nat
  hardQueueSize : Nat
  logRingSize : Nat
  maxMessageLength : Nat
  soft_pos : 1 ≤ softQueueSize
  soft_le : softQueueSize ≤ hardQueueSize
  ring_eq : logRingSize = hardQueueSize

inductive EnqueueStatus where
  | skipped
  | queued
  | droppedSoft
  | droppedHard
  | allocationFailure
  deriving DecidableEq, Repr

/-- Where a producer is in its call: `reserveQueueDepth` up to `reserved`, then
`publishReservedQueueEntry`, with `publishQueueSlot` from `publishing` on. -/
inductive Producer where
  | idle
  | loadingDepth (entry : PendingLogEntry)
  | comparing (entry : PendingLogEntry) (depth : Nat)
  | reserved (entry : PendingLogEntry)
  | waiting (entry : PendingLogEntry) (ticket : Nat)
  | filling (entry : PendingLogEntry) (ticket : Nat)
  | publishing (ticket : Nat) (status : EnqueueStatus)
  | counting (ticket : Nat) (status : EnqueueStatus)
  | checkingHead (ticket : Nat) (status : EnqueueStatus) (firstPublishedSlot : Bool)
  | returned (status : EnqueueStatus) (notifyWorker : Bool)
  deriving DecidableEq, Repr

/-- Where the worker is in `drainQueueBatch`. -/
inductive WorkerStage where
  | idle
  | checking
  | moving (ticket : Nat)
  | storingSequence (ticket : Nat)
  | storingTicket (ticket : Nat)
  | countingDown
  | releasing
  deriving DecidableEq, Repr

/-- The worker, with the batch drained so far. -/
structure QueueWorker where
  stage : WorkerStage := .idle
  batch : List QueuedLogEntry := []
  batchLimit : Nat := 0

/-- The history of a ticket: who took it for what, how the copy ended, and whether its slot has
been published. -/
structure Issue where
  producer : Nat
  entry : PendingLogEntry
  status : Option EnqueueStatus := none
  published : Bool := false
  deriving DecidableEq, Repr

/-- The queue of one epoch. `history`, `drained` and `returned` record the run. -/
structure Queue where
  config : QueueConfig
  queueDepth : Nat := 0
  enqueueTicket : Nat := 0
  dequeueTicket : Nat := 0
  publishedQueueDepth : UInt64 := 0
  logRing : Nat → QueueSlot
  producers : List Producer
  worker : QueueWorker := {}
  history : List Issue := []
  drained : List (Nat × QueuedLogEntry) := []
  returned : List (Nat × EnqueueStatus) := []

inductive QueueAction where
  | enqueue (producer : Nat) (entry : PendingLogEntry)
  /-- The next step of a producer; `fails` is a compare-exchange that fails for no reason, or a copy
  without memory. -/
  | produce (producer : Nat) (fails : Bool)
  | drain (batchSize : Nat)
  | work

namespace Queue

/-- `prepareQueueStorage`, for `n` producers. -/
def initial (config : QueueConfig) (n : Nat) : Queue where
  config := config
  logRing index := { sequence := index }
  producers := List.replicate n .idle

def slot (queue : Queue) (ticket : Nat) : QueueSlot :=
  queue.logRing (ticket % queue.config.logRingSize)

def setSlot (queue : Queue) (ticket : Nat) (slot : QueueSlot) : Queue :=
  { queue with logRing := Function.update queue.logRing (ticket % queue.config.logRingSize) slot }

def setProducer (queue : Queue) (p : Nat) (producer : Producer) : Queue :=
  { queue with producers := queue.producers.set p producer }

def setStage (queue : Queue) (stage : WorkerStage) : Queue :=
  { queue with worker := { queue.worker with stage } }

/-- The call begins with the load of the depth. -/
def enqueue (queue : Queue) (p : Nat) (entry : PendingLogEntry) (producer : Producer) :
    Option Queue :=
  match producer with
  | .idle | .returned _ _ => some (queue.setProducer p (.loadingDepth entry))
  | _ => none

/-- The loop body of `reserveQueueDepth`; a compare-exchange that fails loads the depth again. -/
def reserveQueueDepth (queue : Queue) (p : Nat) (fails : Bool) (entry : PendingLogEntry)
    (depth : Nat) : Queue :=
  if depth ≥ queue.config.hardQueueSize then queue.setProducer p (.returned .droppedHard false)
  else if depth ≥ queue.config.softQueueSize && isLowPriority entry.level then
    queue.setProducer p (.returned .droppedSoft false)
  else if fails || queue.queueDepth ≠ depth then
    queue.setProducer p (.comparing entry queue.queueDepth)
  else ({ queue with queueDepth := depth + 1 } : Queue).setProducer p (.reserved entry)

/-- Takes a ticket; a queue without a ring gives its reservation back. -/
def takeTicket (queue : Queue) (p : Nat) (entry : PendingLogEntry) : Queue :=
  if queue.config.logRingSize = 0 then
    ({ queue with queueDepth := queue.queueDepth - 1 } : Queue).setProducer p
      (.returned .droppedHard false)
  else
    let ticketed : Queue :=
      { queue with
        enqueueTicket := queue.enqueueTicket + 1
        history := queue.history ++ [{ producer := p, entry }] }
    ticketed.setProducer p (.waiting entry queue.enqueueTicket)

/-- The `try` block that fills the slot, or the skip marker of a copy that failed. -/
def fillSlot (queue : Queue) (p : Nat) (fails : Bool) (entry : PendingLogEntry) (ticket : Nat) :
    Queue :=
  let status : EnqueueStatus := if fails then .allocationFailure else .queued
  let slot := queue.slot ticket
  let slot :=
    if fails then { slot with skip := true, entry := {} }
    else
      { slot with
        skip := false
        entry := copyPendingEntryToQueueSlot entry queue.config.maxMessageLength }
  let recorded : Queue :=
    { queue with
      history := queue.history.modify ticket fun issue => { issue with status := some status } }
  (recorded.setSlot ticket slot).setProducer p (.publishing ticket status)

/-- The store of the sequence. -/
def publishSlot (queue : Queue) (p : Nat) (ticket : Nat) (status : EnqueueStatus) : Queue :=
  let recorded : Queue :=
    { queue with
      history := queue.history.modify ticket fun issue => { issue with published := true } }
  (recorded.setSlot ticket { queue.slot ticket with sequence := ticket + 1 }).setProducer p
    (.counting ticket status)

/-- The next step of a producer; a wait for the sequence spins. -/
def produce (queue : Queue) (p : Nat) (fails : Bool) (producer : Producer) : Option Queue :=
  match producer with
  | .idle | .returned _ _ => none
  | .loadingDepth entry => some (queue.setProducer p (.comparing entry queue.queueDepth))
  | .comparing entry depth => some (queue.reserveQueueDepth p fails entry depth)
  | .reserved entry => some (queue.takeTicket p entry)
  | .waiting entry ticket =>
    if (queue.slot ticket).sequence ≠ ticket then some queue
    else some (queue.setProducer p (.filling entry ticket))
  | .filling entry ticket => some (queue.fillSlot p fails entry ticket)
  | .publishing ticket status => some (queue.publishSlot p ticket status)
  | .counting ticket status =>
    let counted : Queue := { queue with publishedQueueDepth := queue.publishedQueueDepth + 1 }
    some (counted.setProducer p (.checkingHead ticket status (queue.publishedQueueDepth == 0)))
  | .checkingHead ticket status firstPublishedSlot =>
    let answered : Queue := { queue with returned := queue.returned ++ [(ticket, status)] }
    some (answered.setProducer p
      (.returned status (firstPublishedSlot || ticket == queue.dequeueTicket)))

/-- The worker enters `drainQueueBatch` with an empty batch of a size. -/
def drain (queue : Queue) (batchSize : Nat) : Option Queue :=
  if queue.worker.stage = .idle then
    let batchLimit := if batchSize = 0 then queue.config.logRingSize else batchSize
    some { queue with worker := { stage := .checking, batch := [], batchLimit } }
  else none

/-- The loop condition of the drain and its look at the head. -/
def checkHead (queue : Queue) : Queue :=
  if queue.worker.batch.length < queue.worker.batchLimit then
    let ticket := queue.dequeueTicket
    if (queue.slot ticket).sequence ≠ ticket + 1 then queue.setStage .idle
    else queue.setStage (.moving ticket)
  else queue.setStage .idle

/-- Moves the entry of a slot that is not skipped into the batch, and clears the slot. -/
def moveEntry (queue : Queue) (ticket : Nat) : Queue :=
  let slot := queue.slot ticket
  let moved : Queue :=
    if !slot.skip then
      { queue with
        worker := { queue.worker with batch := queue.worker.batch ++ [slot.entry] }
        drained := queue.drained ++ [(ticket, slot.entry)] }
    else queue
  (moved.setSlot ticket { slot with skip := false, entry := {} }).setStage (.storingSequence ticket)

/-- The next step of the worker. -/
def work (queue : Queue) : Option Queue :=
  match queue.worker.stage with
  | .idle => none
  | .checking => some queue.checkHead
  | .moving ticket => some (queue.moveEntry ticket)
  | .storingSequence ticket =>
    some ((queue.setSlot ticket { queue.slot ticket with
      sequence := ticket + queue.config.logRingSize }).setStage (.storingTicket ticket))
  | .storingTicket ticket =>
    some (({ queue with dequeueTicket := ticket + 1 } : Queue).setStage .countingDown)
  | .countingDown =>
    some (({ queue with publishedQueueDepth := queue.publishedQueueDepth - 1 } : Queue).setStage
      .releasing)
  | .releasing =>
    some (({ queue with queueDepth := queue.queueDepth - 1 } : Queue).setStage .checking)

end Queue

/-- One atomic step of one thread. -/
def queueStep (queue : Queue) : QueueAction → Option Queue
  | .enqueue p entry => queue.producers[p]?.bind (queue.enqueue p entry)
  | .produce p fails => queue.producers[p]?.bind (queue.produce p fails)
  | .drain batchSize => queue.drain batchSize
  | .work => queue.work

end Logger

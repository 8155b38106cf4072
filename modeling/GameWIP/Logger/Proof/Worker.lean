import GameWIP.Logger.Proof.Queue
import GameWIP.Logger.Worker

/-!
# The worker is woken, drains everything and is waited for

`loggerKept`: in every interleaving of the threads of an epoch, the worker does not sleep on a
published head unless a producer is about to notify it, it leaves only when no producer is active
and every queued record has been drained, and a flush that succeeds before the shutdown finds every
queued record written.

The invariant says of each place in the worker's loop what its loads have shown (`StageKept`). A
head that is published while the worker goes to sleep has a producer behind it that finds its
ticket at the head (`Pending`). A worker that tests for the end saw either a published head, whose
reservation keeps the depth above zero, or a logger that takes no more records (`Quiet`).
-/

namespace Logger

open Lib (Trace Transition total)

/-! ## Positions -/

/-- The producer is not in a call. -/
def Producer.Settled : Producer → Prop
  | .idle | .returned _ _ => True
  | _ => False

/-- A caller counts as an active producer. -/
def Caller.active : Caller → Nat
  | .entering _ | .filtering _ | .queueing | .leaving _ => 1
  | _ => 0

/-- A caller is on its way to notify a worker that sleeps in front of a head. -/
def Notifies (head : Nat) : Caller → Producer → Prop
  | .leaving notifyWorker, _ | .leaveNotifying notifyWorker, _ | .left notifyWorker, _ =>
    notifyWorker = true
  | .queueing, .returned _ notifyWorker => notifyWorker = true
  | .queueing, .counting ticket _ | .queueing, .checkingHead ticket _ _ => ticket = head
  | _, _ => False

/-- The worker has marked itself busy. -/
def LoopStage.busy : LoopStage → Bool
  | .starting | .draining | .writing _ | .flushing | .finishing => true
  | _ => false

/-- Every entry written belongs to a finished batch. -/
def LoopStage.finished : LoopStage → Bool
  | .writing _ | .flushing => false
  | _ => true

theorem LoopStage.finished_of_not_busy {stage : LoopStage} (h : stage.busy = false) :
    stage.finished = true := by
  cases stage <;> first | rfl | cases h

/-- The worker has found no reason to go on. -/
def LoopStage.unreadied : LoopStage → Bool
  | .loadingActive | .loadingDepth | .unready | .asleep => true
  | _ => false

/-! ## What a step of the queue leaves -/

/-- The frame of a step of a producer in the queue. -/
structure ProducerStep (queue next : Queue) (p : Nat) (new : Producer) : Prop where
  config : next.config = queue.config
  head : next.dequeueTicket = queue.dequeueTicket
  worker : next.worker = queue.worker
  drained : next.drained = queue.drained
  producers : next.producers = queue.producers.set p new
  kept : ∀ t, Published queue.history t → Published next.history t
  published : ∀ t, Published next.history t →
    Published queue.history t ∨ ∃ status, new = .counting t status
  returned : queue.returned <+: next.returned

/-- A step that leaves the history as it is. -/
theorem ProducerStep.of_history {queue next : Queue} {p : Nat} {new : Producer}
    (hconfig : next.config = queue.config)
    (hhead : next.dequeueTicket = queue.dequeueTicket) (hworker : next.worker = queue.worker)
    (hdrained : next.drained = queue.drained)
    (hproducers : next.producers = queue.producers.set p new)
    (hhistory : next.history = queue.history) (hreturned : queue.returned <+: next.returned) :
    ProducerStep queue next p new :=
  ⟨hconfig, hhead, hworker, hdrained, hproducers, fun _ ht => hhistory ▸ ht,
    fun _ ht => .inl (hhistory ▸ ht), hreturned⟩

namespace Queue

variable {queue next : Queue} {p : Nat} {old : Producer}

theorem reserveQueueDepth_step (queue : Queue) (p : Nat) (fails : Bool) (entry : PendingLogEntry)
    (depth : Nat) :
    ∃ new, ProducerStep queue (queue.reserveQueueDepth p fails entry depth) p new := by
  unfold reserveQueueDepth
  split_ifs <;> exact ⟨_, .of_history rfl rfl rfl rfl rfl rfl (List.prefix_refl _)⟩

theorem takeTicket_step (queue : Queue) (p : Nat) (entry : PendingLogEntry) :
    ∃ new, ProducerStep queue (queue.takeTicket p entry) p new := by
  unfold takeTicket
  split_ifs
  · exact ⟨_, .of_history rfl rfl rfl rfl rfl rfl (List.prefix_refl _)⟩
  · refine ⟨_, rfl, rfl, rfl, rfl, rfl, fun t ht => ?_, fun t ht => .inl ?_, List.prefix_refl _⟩
    · obtain ⟨issue, hissue, htrue⟩ := ht
      exact ⟨issue, (List.getElem?_append_left (List.getElem?_eq_some_iff.1 hissue).1).trans hissue,
        htrue⟩
    · obtain ⟨issue, hissue, htrue⟩ := ht
      have hissue : (queue.history ++ [({ producer := p, entry } : Issue)])[t]? = some issue :=
        hissue
      rcases Nat.lt_or_ge t queue.history.length with hlt | hge
      · rw [List.getElem?_append_left hlt] at hissue
        exact ⟨issue, hissue, htrue⟩
      · rw [List.getElem?_append_right hge, List.getElem?_singleton] at hissue
        split at hissue
        · cases hissue
          cases htrue
        · cases hissue

/-- A step on the history of one ticket that does not take back its publication. -/
theorem published_modify {history : List Issue} {t u : Nat} {f : Issue → Issue}
    (hf : ∀ issue, issue.published = true → (f issue).published = true)
    (h : Published history u) : Published (history.modify t f) u := by
  obtain ⟨issue, hissue, htrue⟩ := h
  by_cases hu : t = u
  · subst hu
    exact ⟨f issue, modify_self hissue, hf issue htrue⟩
  · exact ⟨issue, (List.getElem?_modify_ne _ _ hu).trans hissue, htrue⟩

theorem fillSlot_step (queue : Queue) (p : Nat) (fails : Bool) (entry : PendingLogEntry) (t : Nat) :
    ∃ new, ProducerStep queue (queue.fillSlot p fails entry t) p new := by
  refine ⟨_, rfl, rfl, rfl, rfl, rfl, fun u hu => published_modify (fun _ htrue => htrue) hu,
    fun u hu => .inl ?_, List.prefix_refl _⟩
  obtain ⟨issue, hissue, htrue⟩ := hu
  rcases modify_cases hissue with ⟨rfl, issue', hissue', rfl⟩ | ⟨-, hissue⟩
  · exact ⟨issue', hissue', htrue⟩
  · exact ⟨issue, hissue, htrue⟩

theorem publishSlot_step (queue : Queue) (p t : Nat) (status : EnqueueStatus) :
    ProducerStep queue (queue.publishSlot p t status) p (.counting t status) := by
  refine ⟨rfl, rfl, rfl, rfl, rfl, fun u hu => published_modify (fun _ _ => rfl) hu,
    fun u hu => ?_, List.prefix_refl _⟩
  obtain ⟨issue, hissue, htrue⟩ := hu
  rcases modify_cases hissue with ⟨rfl, -⟩ | ⟨-, hissue⟩
  · exact .inr ⟨status, rfl⟩
  · exact .inl ⟨issue, hissue, htrue⟩

theorem produce_step {fails : Bool} (hp : queue.producers[p]? = some old)
    (hs : queue.produce p fails old = some next) :
    ∃ new, ProducerStep queue next p new ∧
      (Notifies queue.dequeueTicket .queueing old → Notifies queue.dequeueTicket .queueing new) := by
  cases old with
  | idle | returned => cases hs
  | loadingDepth entry =>
    cases hs
    exact ⟨_, .of_history rfl rfl rfl rfl rfl rfl (List.prefix_refl _), False.elim⟩
  | comparing entry depth =>
    cases hs
    obtain ⟨new, hnew⟩ := reserveQueueDepth_step queue p fails entry depth
    exact ⟨new, hnew, False.elim⟩
  | reserved entry =>
    cases hs
    obtain ⟨new, hnew⟩ := takeTicket_step queue p entry
    exact ⟨new, hnew, False.elim⟩
  | waiting entry ticket =>
    simp only [produce] at hs
    split at hs
    · cases hs
      refine ⟨.waiting entry ticket, .of_history rfl rfl rfl rfl ?_ rfl (List.prefix_refl _), False.elim⟩
      obtain ⟨hlt, heq⟩ := List.getElem?_eq_some_iff.1 hp
      rw [← heq, List.set_getElem_self]
    · cases hs
      exact ⟨_, .of_history rfl rfl rfl rfl rfl rfl (List.prefix_refl _), False.elim⟩
  | filling entry ticket =>
    cases hs
    obtain ⟨new, hnew⟩ := fillSlot_step queue p fails entry ticket
    exact ⟨new, hnew, False.elim⟩
  | publishing ticket status =>
    cases hs
    exact ⟨_, publishSlot_step queue p ticket status, False.elim⟩
  | counting ticket status =>
    cases hs
    exact ⟨_, .of_history rfl rfl rfl rfl rfl rfl (List.prefix_refl _), id⟩
  | checkingHead ticket status firstPublishedSlot =>
    cases hs
    refine ⟨_, .of_history rfl rfl rfl rfl rfl rfl (List.prefix_append _ _), fun hhead => ?_⟩
    have hhead : ticket = queue.dequeueTicket := hhead
    show (firstPublishedSlot || ticket == queue.dequeueTicket) = true
    simp [hhead]

theorem enqueue_step {entry : PendingLogEntry} (hs : queue.enqueue p entry old = some next) :
    next = queue.setProducer p (.loadingDepth entry) := by
  cases old with
  | idle | returned =>
    cases hs
    rfl
  | loadingDepth | comparing | reserved | waiting | filling | publishing | counting
  | checkingHead => cases hs

/-- A step of the worker moves what it drains into its batch. -/
theorem work_step (hs : queue.work = some next) :
    next.producers = queue.producers ∧ next.returned = queue.returned ∧ ∃ moved, next.worker.batch = queue.worker.batch ++ moved ∧
        next.drained.map Prod.snd = queue.drained.map Prod.snd ++ moved := by
  unfold work at hs
  split at hs
  · cases hs
  · cases hs
    unfold checkHead
    dsimp only
    split_ifs <;> exact ⟨rfl, rfl, [], by simp [setStage], by simp [setStage]⟩
  · cases hs
    rename_i ticket _
    refine ⟨?_, ?_, _, moveEntry_batch queue ticket, ?_⟩
    · unfold moveEntry
      dsimp only
      split <;> rfl
    · unfold moveEntry
      dsimp only
      split <;> rfl
    · rw [moveEntry_drained, List.map_append]
  · cases hs
    exact ⟨rfl, rfl, [], by simp [setStage, setSlot], by simp [setStage, setSlot]⟩
  · cases hs
    exact ⟨rfl, rfl, [], by simp [setStage], by simp [setStage]⟩
  · cases hs
    exact ⟨rfl, rfl, [], by simp [setStage], by simp [setStage]⟩
  · cases hs
    exact ⟨rfl, rfl, [], by simp [setStage], by simp [setStage]⟩

end Queue

/-! ## The invariant -/

namespace LoggerState

variable {s t : LoggerState} {p : Nat} {old new : Caller}

def HeadPublished (s : LoggerState) : Prop := Published s.queue.history s.queue.dequeueTicket

/-- A producer is about to notify the worker. -/
def Pending (s : LoggerState) : Prop :=
  ∃ (p : Nat) (caller : Caller) (producer : Producer), s.callers[p]? = some caller ∧
    s.queue.producers[p]? = some producer ∧ Notifies s.queue.dequeueTicket caller producer

/-- The logger takes no more records, and none is in the queue. -/
structure Quiet (s : LoggerState) : Prop where
  running : s.workerRunning = false
  callers : Caller.queueing ∉ s.callers
  depth : s.queue.queueDepth = 0

/-- What the loads of the worker have shown. -/
def StageKept (s : LoggerState) : Prop :=
  match s.worker with
  | .loadingActive => s.workerRunning = false ∧ (s.HeadPublished → s.Pending)
  | .loadingDepth =>
    (s.workerRunning = false ∧ Caller.queueing ∉ s.callers) ∧ (s.HeadPublished → s.Pending)
  | .unready | .asleep => s.HeadPublished → s.Pending
  | .checkingPublished | .checkingDepth => s.HeadPublished ∨ s.Quiet
  | .checkingActive | .exited => s.Quiet
  | _ => True

/-- The entries of the batch that have not been written. -/
def unwritten (s : LoggerState) : List QueuedLogEntry :=
  match s.worker with
  | .draining => s.queue.worker.batch
  | .writing index => s.queue.worker.batch.drop index
  | _ => []

/-- The batch of the worker. -/
structure Batched (s : LoggerState) : Prop where
  busy : s.workerBusy = s.worker.busy
  idle : s.worker ≠ .draining → s.queue.worker.stage = .idle
  written : s.written ++ s.unwritten = s.queue.drained.map Prod.snd
  flushed : s.worker.finished = true → s.flushed = s.written.length

/-- The producers between the calls of the queue. -/
structure Called (s : LoggerState) : Prop where
  length : s.callers.length = s.queue.producers.length
  settled : ∀ (p : Nat) caller producer, s.callers[p]? = some caller →
    s.queue.producers[p]? = some producer → caller ≠ .queueing → producer.Settled
  active : s.activeProducers = total Caller.active s.callers
  running : s.runtimeStateRunning = s.workerRunning

structure WellFormed (s : LoggerState) : Prop where
  queue : s.queue.WellFormed
  called : s.Called
  batched : s.Batched
  stage : s.StageKept

/-- The worker's loads have to be told of a step only by what they rest on. -/
theorem StageKept.mono (h : s.StageKept) (hworker : t.worker = s.worker)
    (hrunning : s.workerRunning = false → t.workerRunning = false)
    (hcallers : s.workerRunning = false → Caller.queueing ∉ s.callers →
      Caller.queueing ∉ t.callers)
    (hhead : s.HeadPublished → t.HeadPublished)
    (hpending : s.worker.unreadied = true → (s.HeadPublished → s.Pending) →
      t.HeadPublished → t.Pending)
    (hquiet : s.Quiet → t.Quiet) : t.StageKept := by
  unfold StageKept at h ⊢
  rw [hworker]
  cases hstage : s.worker with
  | loadingActive =>
    rw [hstage] at h hpending
    exact ⟨hrunning h.1, hpending rfl h.2⟩
  | loadingDepth =>
    rw [hstage] at h hpending
    exact ⟨⟨hrunning h.1.1, hcallers h.1.1 h.1.2⟩, hpending rfl h.2⟩
  | unready | asleep =>
    rw [hstage] at h hpending
    exact hpending rfl h
  | checkingPublished | checkingDepth =>
    rw [hstage] at h
    exact h.imp hhead hquiet
  | checkingActive | exited =>
    rw [hstage] at h
    exact hquiet h
  | locking | loadingHead | marking | starting | draining | writing | flushing | finishing
  | notifying => trivial

/-- A head whose slot shows its ticket has been published. -/
theorem WellFormed.head_iff (h : s.WellFormed) (hidle : s.queue.worker.stage = .idle) :
    s.queueHeadIsPublished = true ↔ s.HeadPublished := by
  have hring := Queue.logRingSize_pos s.queue.config
  have hbase : s.queue.base = s.queue.dequeueTicket := by
    unfold Queue.base
    rw [hidle]
    rfl
  unfold queueHeadIsPublished
  rw [if_neg (by omega), decide_eq_true_eq]
  constructor
  · exact h.queue.published_of_sequence (by omega) (by omega)
  · exact (h.queue.ring.sequence _ (by omega) (by omega)).1

/-- A published head holds its reservation until the worker drains it. -/
theorem WellFormed.depth_pos (h : s.WellFormed) (hidle : s.queue.worker.stage = .idle)
    (hhead : s.HeadPublished) : s.queue.queueDepth ≠ 0 := by
  have hdepth := h.queue.counted.depth
  have hlength := h.queue.counted.history
  have hlt : s.queue.dequeueTicket < s.queue.history.length := hhead.lt
  rw [hidle] at hdepth
  simp only [WorkerStage.held] at hdepth
  omega

/-- With no depth reserved, every ticket has been consumed. -/
theorem WellFormed.consumed_eq (h : s.WellFormed) (hdepth : s.queue.queueDepth = 0) :
    s.queue.consumed = s.queue.history.length := by
  have := h.queue.counted.depth
  have hlength := h.queue.counted.history
  have hle := h.queue.consumed_le
  have : s.queue.dequeueTicket ≤ s.queue.consumed := Nat.le_add_right _ _
  omega

/-! ## Steps outside the queue -/

/-- Where the flushes and the shutdown are does not matter to the worker. -/
theorem WellFormed.waiters (h : s.WellFormed) (flushers : List Flusher) (shutdown : ShutdownStage) :
    ({ s with flushers, shutdown } : LoggerState).WellFormed :=
  ⟨h.queue, ⟨h.called.length, h.called.settled, h.called.active, h.called.running⟩,
    ⟨h.batched.busy, h.batched.idle, h.batched.written, h.batched.flushed⟩,
    h.stage.mono rfl id (fun _ hnone => hnone) id (fun _ hpending => hpending)
      fun hquiet => ⟨hquiet.running, hquiet.callers, hquiet.depth⟩⟩

/-- The worker moves on in its loop. -/
theorem WellFormed.setLoop (h : s.WellFormed) (stage : LoopStage)
    (hbusy : stage.busy = s.worker.busy) (hidle : s.queue.worker.stage = .idle)
    (hunwritten : ({ s with worker := stage } : LoggerState).unwritten = s.unwritten)
    (hflushed : stage.finished = true → s.flushed = s.written.length)
    (hstage : ({ s with worker := stage } : LoggerState).StageKept) :
    ({ s with worker := stage } : LoggerState).WellFormed := by
  refine ⟨h.queue, ⟨h.called.length, h.called.settled, h.called.active, h.called.running⟩,
    ⟨h.batched.busy.trans hbusy.symm, fun _ => hidle, ?_, hflushed⟩, hstage⟩
  rw [hunwritten]
  exact h.batched.written

/-- Outside its batches the worker writes nothing. -/
theorem unwritten_eq_nil (h : s.worker.busy = false) : s.unwritten = [] := by
  unfold unwritten
  cases hworker : s.worker <;> simp_all [LoopStage.busy]

theorem WellFormed.idle (h : s.WellFormed) (hbusy : s.worker.busy = false) :
    s.queue.worker.stage = .idle :=
  h.batched.idle fun hworker => by rw [hworker] at hbusy; cases hbusy

/-- The worker moves on outside its batches. -/
theorem WellFormed.look (h : s.WellFormed) (hold : s.worker.busy = false) (stage : LoopStage)
    (hnew : stage.busy = false)
    (hstage : ({ s with worker := stage } : LoggerState).StageKept) :
    ({ s with worker := stage } : LoggerState).WellFormed := by
  refine h.setLoop stage (hnew.trans hold.symm) (h.idle hold) ?_
    (fun _ => h.batched.flushed (LoopStage.finished_of_not_busy hold)) hstage
  rw [unwritten_eq_nil hold]
  exact unwritten_eq_nil hnew

theorem WellFormed.notifyAll (h : s.WellFormed) : s.notifyAll.WellFormed := by
  by_cases hasleep : s.worker = .asleep
  · have hlocking := h.setLoop .locking (by rw [hasleep]; rfl) (h.batched.idle (by simp [hasleep]))
      (by simp [unwritten, hasleep]) (fun _ => h.batched.flushed (by rw [hasleep]; rfl)) trivial
    have hworker : s.notifyAll = { ({ s with worker := .locking } : LoggerState) with
        flushers := s.notifyAll.flushers, shutdown := s.notifyAll.shutdown } := by
      unfold LoggerState.notifyAll
      rw [if_pos hasleep]
    rw [hworker]
    exact hlocking.waiters _ _
  · have hworker : s.notifyAll = { s with
        flushers := s.notifyAll.flushers, shutdown := s.notifyAll.shutdown } := by
      unfold LoggerState.notifyAll
      rw [if_neg hasleep]
    rw [hworker]
    exact h.waiters _ _

/-- A notification under the mutex leaves a worker that looks again. -/
theorem notifyAll_unreadied (hlocked : s.worker.locked = false) :
    s.notifyAll.worker.unreadied = false := by
  show (if s.worker = .asleep then LoopStage.locking else s.worker).unreadied = false
  cases hworker : s.worker <;> simp_all [LoopStage.locked, LoopStage.unreadied]

theorem queueing_not_mem_set {callers : List Caller} (hnew : new ≠ .queueing)
    (h : Caller.queueing ∉ callers) : Caller.queueing ∉ callers.set p new := by
  intro hmem
  rcases List.mem_or_eq_of_mem_set hmem with hmem | heq
  · exact h hmem
  · exact hnew heq.symm

/-- A producer moves on outside the queue; it may drop its notification only while no worker waits
for it. -/
theorem WellFormed.setCaller (h : s.WellFormed) (active : Nat) (hp : s.callers[p]? = some old)
    (hnew : new ≠ .queueing)
    (hactive : active + old.active = s.activeProducers + new.active)
    (hsettled : ∀ producer, s.queue.producers[p]? = some producer → producer.Settled)
    (hnotifies : s.worker.unreadied = true → ∀ producer, s.queue.producers[p]? = some producer →
      Notifies s.queue.dequeueTicket old producer → Notifies s.queue.dequeueTicket new producer) :
    (({ s with activeProducers := active } : LoggerState).setCaller p new).WellFormed := by
  have hlt := (List.getElem?_eq_some_iff.1 hp).1
  refine ⟨h.queue, ⟨?_, ?_, ?_, h.called.running⟩,
    ⟨h.batched.busy, h.batched.idle, h.batched.written, h.batched.flushed⟩, ?_⟩
  · exact (List.length_set ..).trans h.called.length
  · intro q caller producer hcaller hproducer hne
    rcases Lib.getElem?_set_cases hcaller with ⟨rfl, rfl⟩ | ⟨-, hcaller⟩
    · exact hsettled producer hproducer
    · exact h.called.settled q caller producer hcaller hproducer hne
  · have htotal := Lib.total_set (f := Caller.active) (b := new) hp
    have := h.called.active
    show active = total Caller.active (s.callers.set p new)
    omega
  · refine h.stage.mono rfl id (fun _ hnone => queueing_not_mem_set hnew hnone) id
      (fun hunready hpending hhead => ?_)
      (fun hquiet => ⟨hquiet.running, queueing_not_mem_set hnew hquiet.callers, hquiet.depth⟩)
    obtain ⟨q, caller, producer, hcaller, hproducer, hnotify⟩ := hpending hhead
    by_cases hq : q = p
    · subst hq
      obtain rfl := Option.some.inj (hp.symm.trans hcaller)
      exact ⟨q, new, producer, List.getElem?_set_self hlt, hproducer,
        hnotifies hunready producer hproducer hnotify⟩
    · exact ⟨q, caller, producer, (List.getElem?_set_ne (Ne.symm hq)).trans hcaller, hproducer,
        hnotify⟩

/-! ## Steps of the producers -/

/-- A producer steps in the queue. When it publishes the head, its ticket is still at the head. -/
theorem WellFormed.produceStep {next : Queue} {producer newProducer : Producer} (h : s.WellFormed)
    (hp : s.callers[p]? = some old) (hproducer : s.queue.producers[p]? = some producer)
    (hnext : next.WellFormed) (hstep : ProducerStep s.queue next p newProducer)
    (hnotifies : Notifies s.queue.dequeueTicket old producer →
      Notifies s.queue.dequeueTicket .queueing newProducer)
    (hactive : old.active = 1) (hrunning : s.workerRunning = true ∨ old = .queueing) :
    (({ s with queue := next } : LoggerState).setCaller p .queueing).WellFormed := by
  have hlt := (List.getElem?_eq_some_iff.1 hp).1
  have hlt' := (List.getElem?_eq_some_iff.1 hproducer).1
  have hnone : s.workerRunning = false → Caller.queueing ∉ s.callers → False := by
    intro hstopped hnone
    rcases hrunning with hrunning | rfl
    · rw [hstopped] at hrunning
      cases hrunning
    · exact hnone (List.mem_of_getElem? hp)
  refine ⟨hnext, ⟨?_, ?_, ?_, h.called.running⟩, ⟨h.batched.busy, ?_, ?_, h.batched.flushed⟩, ?_⟩
  · show (s.callers.set p _).length = next.producers.length
    rw [hstep.producers, List.length_set, List.length_set]
    exact h.called.length
  · intro q caller other hcaller hother hne
    rcases Lib.getElem?_set_cases hcaller with ⟨rfl, rfl⟩ | ⟨hq, hcaller⟩
    · exact absurd rfl hne
    · have hother : next.producers[q]? = some other := hother
      rw [hstep.producers, List.getElem?_set_ne (Ne.symm hq)] at hother
      exact h.called.settled q caller other hcaller hother hne
  · have htotal := Lib.total_set (f := Caller.active) (b := .queueing) hp
    have := h.called.active
    have : Caller.queueing.active = 1 := rfl
    show s.activeProducers = total Caller.active (s.callers.set p .queueing)
    omega
  · intro hne
    show next.worker.stage = .idle
    rw [hstep.worker]
    exact h.batched.idle hne
  · have hunwritten : (({ s with queue := next } : LoggerState).setCaller p .queueing).unwritten =
        s.unwritten := by
      show (match s.worker with
        | .draining => next.worker.batch
        | .writing index => next.worker.batch.drop index
        | _ => []) = _
      rw [hstep.worker]
      rfl
    rw [hunwritten]
    show s.written ++ s.unwritten = next.drained.map Prod.snd
    rw [hstep.drained]
    exact h.batched.written
  · refine h.stage.mono rfl id (fun hstopped hcallers => (hnone hstopped hcallers).elim)
      (fun hhead => ?_) (fun _ hpending hhead => ?_)
      (fun hquiet => (hnone hquiet.running hquiet.callers).elim)
    · show Published next.history next.dequeueTicket
      rw [hstep.head]
      exact hstep.kept _ hhead
    · have hhead : Published next.history next.dequeueTicket := hhead
      rw [hstep.head] at hhead
      rcases hstep.published _ hhead with hold | ⟨status, rfl⟩
      · obtain ⟨q, caller, other, hcaller, hother, hnotify⟩ := hpending hold
        by_cases hq : q = p
        · subst hq
          obtain rfl := Option.some.inj (hp.symm.trans hcaller)
          obtain rfl := Option.some.inj (hproducer.symm.trans hother)
          refine ⟨q, .queueing, newProducer, List.getElem?_set_self hlt, ?_, ?_⟩
          · show next.producers[q]? = _
            rw [hstep.producers, List.getElem?_set_self hlt']
          · show Notifies next.dequeueTicket _ _
            rw [hstep.head]
            exact hnotifies hnotify
        · refine ⟨q, caller, other, (List.getElem?_set_ne (Ne.symm hq)).trans hcaller, ?_, ?_⟩
          · show next.producers[q]? = _
            rw [hstep.producers, List.getElem?_set_ne (Ne.symm hq)]
            exact hother
          · show Notifies next.dequeueTicket _ _
            rw [hstep.head]
            exact hnotify
      -- the producer has just published the head
      · refine ⟨p, .queueing, .counting s.queue.dequeueTicket status, List.getElem?_set_self hlt,
          ?_, ?_⟩
        · show next.producers[p]? = _
          rw [hstep.producers, List.getElem?_set_self hlt']
        · exact hstep.head.symm

theorem call_wellFormed {entry : PendingLogEntry} (h : s.WellFormed) (hp : s.callers[p]? = some old)
    (hs : s.call p entry old = some t) : t.WellFormed := by
  cases old with
  | idle =>
    cases hs
    exact h.setCaller (s.activeProducers + 1) hp nofun rfl
      (fun producer hproducer => h.called.settled p .idle producer hp hproducer nofun)
      fun _ _ _ hnotify => by cases hnotify
  | entering | filtering | queueing | leaving | leaveNotifying | left => cases hs

theorem withMutex_eq_some {next : LoggerState} (hs : s.withMutex next = some t) :
    s.worker.locked = false ∧ t = next := by
  unfold withMutex at hs
  split at hs
  · cases hs
  · rename_i hlocked
    exact ⟨by simpa using hlocked, (Option.some.inj hs).symm⟩

theorem active_pos (h : s.WellFormed) (hp : s.callers[p]? = some old) :
    old.active ≤ s.activeProducers := by
  rw [h.called.active]
  exact Lib.le_total hp

theorem Called.producer (h : s.Called) (hp : s.callers[p]? = some old) :
    ∃ producer, s.queue.producers[p]? = some producer := by
  have hlt := (List.getElem?_eq_some_iff.1 hp).1
  exact ⟨_, List.getElem?_eq_getElem (h.length ▸ hlt)⟩

/-- Under the mutex a producer may notify and move on. -/
theorem WellFormed.notifyCaller (h : s.WellFormed) (hp : s.callers[p]? = some old)
    (hlocked : s.worker.locked = false) (hnew : new ≠ .queueing) (hold : old ≠ .queueing)
    (hactive : old.active = new.active) : (s.notifyAll.setCaller p new).WellFormed :=
  h.notifyAll.setCaller s.activeProducers hp hnew (by rw [hactive]; rfl)
    (fun producer hproducer => h.called.settled p old producer hp hproducer hold)
    fun hunready => by rw [notifyAll_unreadied hlocked] at hunready; cases hunready

theorem caller_wellFormed {filtered fails : Bool} (h : s.WellFormed) (hp : s.callers[p]? = some old)
    (hs : s.caller p filtered fails old = some t) : t.WellFormed := by
  have hsettled : old ≠ .queueing → ∀ producer, s.queue.producers[p]? = some producer →
      producer.Settled := fun hold producer hproducer =>
    h.called.settled p old producer hp hproducer hold
  cases old with
  | idle => cases hs
  | entering entry =>
    cases hs
    refine h.setCaller s.activeProducers hp ?_ ?_ (hsettled nofun) fun _ _ _ hnotify => by
      cases hnotify
    · split <;> nofun
    · split <;> rfl
  | filtering entry =>
    simp only [caller] at hs
    split at hs
    · cases hs
      exact h.setCaller s.activeProducers hp nofun rfl (hsettled nofun) fun _ _ _ hnotify => by
        cases hnotify
    · rename_i hrunning
      obtain ⟨next, hnext, rfl⟩ := Option.map_eq_some_iff.1 hs
      obtain ⟨producer, hproducer, henqueue⟩ := Option.bind_eq_some_iff.1 hnext
      have hrunning : s.workerRunning = true := by
        rw [← h.called.running]
        simp_all
      obtain rfl := Queue.enqueue_step henqueue
      exact h.produceStep hp hproducer (Queue.step_wellFormed h.queue hnext)
        (.of_history rfl rfl rfl rfl rfl rfl (List.prefix_refl _)) (fun hnotify => by cases hnotify) rfl (.inl hrunning)
  | queueing =>
    obtain ⟨producer, hproducer⟩ := h.called.producer hp
    simp only [caller, hproducer] at hs
    split at hs
    · rename_i status notifyWorker heq
      cases heq
      cases hs
      refine h.setCaller s.activeProducers hp nofun rfl (fun other hother => ?_)
        fun _ other hother hnotify => ?_
      · obtain rfl := Option.some.inj (hproducer.symm.trans hother)
        trivial
      · obtain rfl := Option.some.inj (hproducer.symm.trans hother)
        exact hnotify
    · obtain ⟨next, hnext, rfl⟩ := Option.map_eq_some_iff.1 hs
      obtain ⟨other, hother, hproduce⟩ := Option.bind_eq_some_iff.1 hnext
      obtain ⟨newProducer, hstep, hnotifies⟩ := Queue.produce_step hother hproduce
      have hsame : ({ s with queue := next } : LoggerState) =
          ({ s with queue := next } : LoggerState).setCaller p .queueing := by
        obtain ⟨hlt, heq⟩ := List.getElem?_eq_some_iff.1 hp
        unfold setCaller
        dsimp only
        rw [← heq, List.set_getElem_self]
      rw [hsame]
      exact h.produceStep hp hother (Queue.step_wellFormed h.queue hnext) hstep hnotifies rfl
        (.inr rfl)
  | leaving notifyWorker =>
    cases hs
    have hpos : 1 ≤ s.activeProducers := active_pos h hp
    refine h.setCaller (s.activeProducers - 1) hp ?_ ?_ (hsettled nofun) fun _ _ _ hnotify => ?_
    · split <;> nofun
    · split
      · show s.activeProducers - 1 + 1 = s.activeProducers + 0
        omega
      · show s.activeProducers - 1 + 1 = s.activeProducers + 0
        omega
    · split <;> exact hnotify
  | leaveNotifying notifyWorker =>
    obtain ⟨hlocked, rfl⟩ := withMutex_eq_some hs
    exact h.notifyCaller hp hlocked nofun nofun rfl
  | left notifyWorker =>
    simp only [caller] at hs
    split at hs
    · obtain ⟨hlocked, rfl⟩ := withMutex_eq_some hs
      exact h.notifyCaller hp hlocked nofun nofun rfl
    · rename_i hfalse
      cases hs
      exact h.setCaller s.activeProducers hp nofun rfl (hsettled nofun) fun _ _ _ hnotify =>
        absurd hnotify hfalse

/-! ## Steps of the worker -/

/-- The worker steps in the queue. -/
theorem WellFormed.drainStep {next : Queue} (moved : List QueuedLogEntry) (h : s.WellFormed)
    (hnext : next.WellFormed)
    (hproducers : next.producers = s.queue.producers)
    (hbusy : s.worker.busy = true) (hfinished : s.worker.finished = true)
    (hbatch : next.worker.batch = s.unwritten ++ moved)
    (hdrained : next.drained.map Prod.snd = s.queue.drained.map Prod.snd ++ moved) :
    ({ s with queue := next, worker := .draining } : LoggerState).WellFormed := by
  refine ⟨hnext, ⟨?_, ?_, h.called.active, h.called.running⟩,
    ⟨h.batched.busy.trans hbusy, fun hne => absurd rfl hne, ?_,
      fun _ => h.batched.flushed hfinished⟩, trivial⟩
  · show s.callers.length = next.producers.length
    rw [hproducers]
    exact h.called.length
  · show ∀ (p : Nat) caller producer, s.callers[p]? = some caller →
      next.producers[p]? = some producer → caller ≠ .queueing → producer.Settled
    rw [hproducers]
    exact h.called.settled
  · show s.written ++ next.worker.batch = next.drained.map Prod.snd
    rw [hbatch, hdrained, ← List.append_assoc, h.batched.written]

theorem Quiet.setLoop (h : s.Quiet) (stage : LoopStage) :
    ({ s with worker := stage } : LoggerState).Quiet :=
  ⟨h.running, h.callers, h.depth⟩

/-- With no active producer, none is in the queue. -/
theorem WellFormed.no_queueing (h : s.WellFormed) (hactive : s.activeProducers = 0) :
    Caller.queueing ∉ s.callers := by
  intro hmem
  obtain ⟨p, hp⟩ := List.mem_iff_getElem?.1 hmem
  have : 1 ≤ s.activeProducers := active_pos h hp
  omega

/-- The predicate of the wait. -/
theorem predicate_wellFormed (h : s.WellFormed)
    (hworker : s.worker = .loadingHead ∨ s.worker = .loadingActive ∨ s.worker = .loadingDepth ∨
      s.worker = .unready)
    (hs : s.work = some t) : t.WellFormed := by
  have hstage := h.stage
  unfold StageKept at hstage
  rcases hworker with hworker | hworker | hworker | hworker
  · have hbusy : s.worker.busy = false := by rw [hworker]; rfl
    have hhead := h.head_iff (h.idle hbusy)
    simp only [work, hworker, Option.some.injEq] at hs
    subst hs
    split_ifs with hpublished hrunning
    · exact h.look hbusy _ rfl (.inl (hhead.1 hpublished))
    · exact h.look hbusy _ rfl fun hpub => absurd (hhead.2 hpub) hpublished
    · exact h.look hbusy _ rfl
        ⟨by simpa using hrunning, fun hpub => absurd (hhead.2 hpub) hpublished⟩
  · have hbusy : s.worker.busy = false := by rw [hworker]; rfl
    rw [hworker] at hstage
    simp only [work, hworker, Option.some.injEq] at hs
    subst hs
    split_ifs with hactive
    · exact h.look hbusy _ rfl ⟨⟨hstage.1, h.no_queueing hactive⟩, hstage.2⟩
    · exact h.look hbusy _ rfl hstage.2
  · have hbusy : s.worker.busy = false := by rw [hworker]; rfl
    rw [hworker] at hstage
    simp only [work, hworker, Option.some.injEq] at hs
    subst hs
    split_ifs with hdepth
    · exact h.look hbusy _ rfl (.inr ⟨hstage.1.1, hstage.1.2, hdepth⟩)
    · exact h.look hbusy _ rfl hstage.2
  · rw [hworker] at hstage
    simp only [work, hworker, Option.some.injEq] at hs
    subst hs
    exact h.look (by rw [hworker]; rfl) _ rfl hstage

/-- The test for the end. -/
theorem endTest_wellFormed (h : s.WellFormed)
    (hworker : s.worker = .checkingPublished ∨ s.worker = .checkingDepth ∨
      s.worker = .checkingActive)
    (hs : s.work = some t) : t.WellFormed := by
  have hstage := h.stage
  unfold StageKept at hstage
  rcases hworker with hworker | hworker | hworker
  · have hbusy : s.worker.busy = false := by rw [hworker]; rfl
    rw [hworker] at hstage
    simp only [work, hworker, Option.some.injEq] at hs
    subst hs
    split_ifs
    · exact h.look hbusy _ rfl (hstage.imp id fun hquiet => hquiet.setLoop _)
    · exact h.look hbusy _ rfl trivial
  · have hbusy : s.worker.busy = false := by rw [hworker]; rfl
    rw [hworker] at hstage
    simp only [work, hworker, Option.some.injEq] at hs
    subst hs
    split_ifs with hdepth
    · have hquiet := hstage.resolve_left fun hhead => h.depth_pos (h.idle hbusy) hhead hdepth
      exact h.look hbusy _ rfl (hquiet.setLoop _)
    · exact h.look hbusy _ rfl trivial
  · have hbusy : s.worker.busy = false := by rw [hworker]; rfl
    rw [hworker] at hstage
    simp only [work, hworker, Option.some.injEq] at hs
    subst hs
    split_ifs
    · exact h.look hbusy _ rfl (hstage.setLoop _)
    · exact h.look hbusy _ rfl trivial

/-- The worker marks itself busy, and no longer. -/
theorem WellFormed.setBusy (h : s.WellFormed) (stage : LoopStage)
    (hidle : s.queue.worker.stage = .idle) (hold : s.unwritten = [])
    (hnew : ({ s with worker := stage } : LoggerState).unwritten = [])
    (hflushed : s.flushed = s.written.length)
    (hstage : ({ s with worker := stage } : LoggerState).StageKept) :
    ({ s with worker := stage, workerBusy := stage.busy } : LoggerState).WellFormed := by
  refine ⟨h.queue, ⟨h.called.length, h.called.settled, h.called.active, h.called.running⟩,
    ⟨rfl, fun _ => hidle, ?_, fun _ => hflushed⟩, ?_⟩
  · have hwritten := h.batched.written
    rw [hold] at hwritten
    refine Eq.trans ?_ hwritten
    exact congrArg (s.written ++ ·) hnew
  · exact StageKept.mono hstage rfl id (fun _ hnone => hnone) id (fun _ hpending => hpending)
      fun hquiet => ⟨hquiet.running, hquiet.callers, hquiet.depth⟩

/-- The batch. -/
theorem batch_wellFormed (h : s.WellFormed) (hbusy : s.worker.busy = true)
    (hs : s.work = some t) : t.WellFormed := by
  have hwritten := h.batched.written
  cases hworker : s.worker with
  | locking | loadingHead | loadingActive | loadingDepth | unready | asleep | checkingPublished
  | checkingDepth | checkingActive | marking | notifying | exited =>
    rw [hworker] at hbusy
    cases hbusy
  | starting =>
    simp only [work, hworker] at hs
    obtain ⟨next, hnext, rfl⟩ := Option.map_eq_some_iff.1 hs
    have hunwritten : s.unwritten = [] := by simp [unwritten, hworker]
    have hfields : next.producers = s.queue.producers ∧ next.worker.batch = [] ∧
        next.drained = s.queue.drained := by
      have hdrain : s.queue.drain s.workerBatchSize = some next := hnext
      unfold Queue.drain at hdrain
      split at hdrain
      · cases hdrain
        exact ⟨rfl, rfl, rfl⟩
      · cases hdrain
    obtain ⟨hproducers, hbatch, hdrained⟩ := hfields
    exact h.drainStep [] (Queue.step_wellFormed h.queue hnext) hproducers hbusy
      (by rw [hworker]; rfl) (by rw [hbatch, hunwritten]; rfl)
      (by rw [hdrained, List.append_nil])
  | draining =>
    have hflushed := h.batched.flushed (by rw [hworker]; rfl)
    simp only [work, hworker] at hs
    split at hs
    · rename_i hidle
      cases hs
      split
      · rename_i hempty
        exact h.setLoop _ (by rw [hworker]; rfl) hidle
          (by simp [unwritten, hworker, List.isEmpty_iff.1 hempty]) (fun _ => hflushed) trivial
      · exact h.setLoop _ (by rw [hworker]; rfl) hidle (by simp [unwritten, hworker]) nofun trivial
    · obtain ⟨next, hnext, rfl⟩ := Option.map_eq_some_iff.1 hs
      obtain ⟨hproducers, -, moved, hbatch, hdrained⟩ := Queue.work_step hnext
      refine h.drainStep moved (Queue.step_wellFormed h.queue hnext) hproducers hbusy
        (by rw [hworker]; rfl) ?_ hdrained
      rw [hbatch]
      simp [unwritten, hworker]
  | writing index =>
    have hidle := h.batched.idle (by simp [hworker])
    simp only [work, hworker] at hs
    split at hs
    · rename_i entry hentry
      cases hs
      refine ⟨h.queue, ⟨h.called.length, h.called.settled, h.called.active, h.called.running⟩,
        ⟨h.batched.busy.trans hbusy, fun _ => hidle, ?_, nofun⟩, trivial⟩
      obtain ⟨hlt, rfl⟩ := List.getElem?_eq_some_iff.1 hentry
      unfold unwritten at hwritten ⊢
      rw [hworker] at hwritten
      dsimp only at hwritten ⊢
      rw [List.append_assoc, List.singleton_append, List.getElem_cons_drop]
      exact hwritten
    · rename_i hnone
      cases hs
      refine h.setLoop _ (by rw [hworker]; rfl) hidle ?_ nofun trivial
      simp only [unwritten, hworker]
      exact (List.drop_eq_nil_of_le (List.getElem?_eq_none_iff.1 hnone)).symm
  | flushing =>
    have hidle := h.batched.idle (by simp [hworker])
    simp only [work, hworker] at hs
    cases hs
    refine ⟨h.queue, ⟨h.called.length, h.called.settled, h.called.active, h.called.running⟩,
      ⟨h.batched.busy.trans hbusy, fun _ => hidle, ?_, fun _ => rfl⟩, trivial⟩
    unfold unwritten at hwritten ⊢
    rw [hworker] at hwritten
    exact hwritten
  | finishing =>
    simp only [work, hworker] at hs
    cases hs
    exact h.setBusy .notifying (h.batched.idle (by simp [hworker])) (by simp [unwritten, hworker])
      rfl (h.batched.flushed (by rw [hworker]; rfl)) trivial

theorem work_wellFormed (h : s.WellFormed) (hs : s.work = some t) : t.WellFormed := by
  cases hworker : s.worker with
  | locking =>
    simp only [work, hworker] at hs
    cases hs
    exact h.look (by rw [hworker]; rfl) _ rfl trivial
  | loadingHead => exact predicate_wellFormed h (.inl hworker) hs
  | loadingActive => exact predicate_wellFormed h (.inr (.inl hworker)) hs
  | loadingDepth => exact predicate_wellFormed h (.inr (.inr (.inl hworker))) hs
  | unready => exact predicate_wellFormed h (.inr (.inr (.inr hworker))) hs
  | checkingPublished => exact endTest_wellFormed h (.inl hworker) hs
  | checkingDepth => exact endTest_wellFormed h (.inr (.inl hworker)) hs
  | checkingActive => exact endTest_wellFormed h (.inr (.inr hworker)) hs
  | marking =>
    have hbusy : s.worker.busy = false := by rw [hworker]; rfl
    simp only [work, hworker] at hs
    cases hs
    exact h.setBusy .starting (h.idle hbusy) (unwritten_eq_nil hbusy) rfl
      (h.batched.flushed (by rw [hworker]; rfl)) trivial
  | starting => exact batch_wellFormed h (by rw [hworker]; rfl) hs
  | draining => exact batch_wellFormed h (by rw [hworker]; rfl) hs
  | writing index => exact batch_wellFormed h (by rw [hworker]; rfl) hs
  | flushing => exact batch_wellFormed h (by rw [hworker]; rfl) hs
  | finishing => exact batch_wellFormed h (by rw [hworker]; rfl) hs
  | notifying =>
    simp only [work, hworker] at hs
    cases hs
    have hsame : s.notifyAll.worker = .notifying := by
      show (if s.worker = .asleep then _ else s.worker) = _
      rw [hworker]
      rfl
    exact h.notifyAll.look (by rw [hsame]; rfl) .locking rfl trivial
  | asleep | exited =>
    simp only [work, hworker] at hs
    cases hs

/-! ## Runs -/

theorem flusher_wellFormed {f : Nat} {expired : Bool} {flusher : Flusher} (h : s.WellFormed)
    (hs : s.flusher f expired flusher = some t) : t.WellFormed := by
  cases flusher with
  | checking =>
    simp only [LoggerState.flusher] at hs
    split at hs
    · cases hs
      exact h.waiters _ _
    · obtain ⟨-, rfl⟩ := withMutex_eq_some hs
      exact h.waiters _ _
  | asleep =>
    cases hs
    exact h.waiters _ _
  | idle | timedOut | flushed => cases hs

theorem shutdownImpl_wellFormed (h : s.WellFormed) (hs : s.shutdownImpl = some t) :
    t.WellFormed := by
  unfold shutdownImpl at hs
  split at hs
  · obtain ⟨-, rfl⟩ := withMutex_eq_some hs
    refine ⟨h.queue, ⟨h.called.length, h.called.settled, h.called.active, rfl⟩,
      ⟨h.batched.busy, h.batched.idle, h.batched.written, h.batched.flushed⟩, ?_⟩
    exact h.stage.mono rfl (fun _ => rfl) (fun _ hnone => hnone) id (fun _ hpending => hpending)
      fun hquiet => ⟨rfl, hquiet.callers, hquiet.depth⟩
  · cases hs
    exact h.notifyAll.waiters _ _
  · split at hs
    · cases hs
      exact h.waiters _ _
    · cases hs
  · obtain ⟨-, rfl⟩ := withMutex_eq_some hs
    exact h.waiters _ _
  · cases hs
    exact h.waiters _ _
  · cases hs

theorem step_wellFormed (h : s.WellFormed) {action : LoggerAction}
    (hs : loggerStep s action = some t) : t.WellFormed := by
  cases action with
  | call p entry =>
    obtain ⟨old, hp, hs⟩ := Option.bind_eq_some_iff.1 hs
    exact call_wellFormed h hp hs
  | caller p filtered fails =>
    obtain ⟨old, hp, hs⟩ := Option.bind_eq_some_iff.1 hs
    exact caller_wellFormed h hp hs
  | worker => exact work_wellFormed h hs
  | wake =>
    simp only [loggerStep] at hs
    split at hs
    · rename_i hasleep
      cases hs
      exact h.look (by rw [hasleep]; rfl) _ rfl trivial
    · cases hs
  | flush f =>
    simp only [loggerStep] at hs
    split at hs
    · cases hs
    · cases hs
    · cases hs
    · cases hs
      exact h.waiters _ _
  | flusher f expired =>
    obtain ⟨flusher, -, hs⟩ := Option.bind_eq_some_iff.1 hs
    exact flusher_wellFormed h hs
  | shutdown => exact shutdownImpl_wellFormed h hs

theorem initial_wellFormed (config : QueueConfig) (workerBatchSize n m : Nat) :
    (initial config workerBatchSize n m).WellFormed := by
  refine ⟨Queue.initial_wellFormed config n, ⟨?_, ?_, ?_, rfl⟩, ⟨rfl, fun _ => rfl, rfl, fun _ => rfl⟩,
    trivial⟩
  · show (List.replicate n Caller.idle).length = (List.replicate n Producer.idle).length
    rw [List.length_replicate, List.length_replicate]
  · intro p caller producer _ hproducer _
    obtain rfl : producer = .idle := List.eq_of_mem_replicate (List.mem_of_getElem? hproducer)
    trivial
  · show 0 = total Caller.active (List.replicate n .idle)
    simp [total, Caller.active]

/-! ## What a step leaves to the waiters -/

/-- Whose step it is that ends the loop or a flush. -/
structure Frame (s t : LoggerState) : Prop where
  worker : t.worker = s.worker ∨ t.worker = .locking
  flushers : t.flushers = s.flushers ∨ t.flushers = s.notifyAll.flushers
  returned : s.queue.returned <+: t.queue.returned

theorem notifyAll_worker (s : LoggerState) :
    s.notifyAll.worker = s.worker ∨ s.notifyAll.worker = .locking := by
  by_cases hasleep : s.worker = .asleep
  · exact .inr (if_pos hasleep)
  · exact .inl (if_neg hasleep)

theorem caller_frame {filtered fails : Bool} (hs : s.caller p filtered fails old = some t) :
    s.Frame t := by
  have hnotify : ∀ new, s.Frame (s.notifyAll.setCaller p new) := fun _ =>
    ⟨notifyAll_worker s, .inr rfl, List.prefix_refl _⟩
  cases old with
  | idle => cases hs
  | entering entry =>
    cases hs
    exact ⟨.inl rfl, .inl rfl, List.prefix_refl _⟩
  | filtering entry =>
    simp only [caller] at hs
    split at hs
    · cases hs
      exact ⟨.inl rfl, .inl rfl, List.prefix_refl _⟩
    · obtain ⟨next, hnext, rfl⟩ := Option.map_eq_some_iff.1 hs
      obtain ⟨producer, hproducer, henqueue⟩ := Option.bind_eq_some_iff.1 hnext
      obtain rfl := Queue.enqueue_step henqueue
      exact ⟨.inl rfl, .inl rfl, List.prefix_refl _⟩
  | queueing =>
    simp only [caller] at hs
    split at hs
    · cases hs
      exact ⟨.inl rfl, .inl rfl, List.prefix_refl _⟩
    · obtain ⟨next, hnext, rfl⟩ := Option.map_eq_some_iff.1 hs
      obtain ⟨producer, hproducer, hproduce⟩ := Option.bind_eq_some_iff.1 hnext
      obtain ⟨new, hstep, -⟩ := Queue.produce_step hproducer hproduce
      exact ⟨.inl rfl, .inl rfl, hstep.returned⟩
  | leaving notifyWorker =>
    cases hs
    exact ⟨.inl rfl, .inl rfl, List.prefix_refl _⟩
  | leaveNotifying notifyWorker =>
    obtain ⟨-, rfl⟩ := withMutex_eq_some hs
    exact hnotify _
  | left notifyWorker =>
    simp only [caller] at hs
    split at hs
    · obtain ⟨-, rfl⟩ := withMutex_eq_some hs
      exact hnotify _
    · cases hs
      exact ⟨.inl rfl, .inl rfl, List.prefix_refl _⟩

/-- A notification completes no flush. -/
theorem notifyAll_flushed {f : Nat} (h : s.notifyAll.flushers[f]? = some .flushed) :
    s.flushers[f]? = some .flushed := by
  have h : (s.flushers.map fun flusher => if flusher = .asleep then .checking else flusher)[f]? =
      some .flushed := h
  rw [List.getElem?_map] at h
  obtain ⟨flusher, hflusher, heq⟩ := Option.map_eq_some_iff.1 h
  split at heq
  · cases heq
  · rw [hflusher, heq]

/-- Every queued record has been drained. -/
def AllDrained (s : LoggerState) : Prop :=
  ∀ (t : Nat) (issue : Issue), s.queue.history[t]? = some issue → issue.status = some .queued →
    (t, copyPendingEntryToQueueSlot issue.entry s.queue.config.maxMessageLength) ∈ s.queue.drained

/-- Every queued record has been drained and written, and its batch is finished. -/
structure AllWritten (s : LoggerState) : Prop where
  drained : s.AllDrained
  written : s.written = s.queue.drained.map Prod.snd
  flushed : s.flushed = s.written.length

theorem WellFormed.allDrained (h : s.WellFormed) (hdepth : s.queue.queueDepth = 0) :
    s.AllDrained := by
  intro t issue hissue hstatus
  have hlt := (List.getElem?_eq_some_iff.1 hissue).1
  rw [h.queue.ring.drained, List.mem_filterMap]
  refine ⟨t, List.mem_range.2 (by rw [h.consumed_eq hdepth]; exact hlt), ?_⟩
  rw [delivery, hissue, Option.bind_some, if_pos hstatus]

/-- A flush before the shutdown succeeds when everything has been written. -/
theorem WellFormed.allWritten (h : s.WellFormed) (hready : s.flushReady = true)
    (hrunning : s.workerRunning = true) : s.AllWritten := by
  unfold flushReady at hready
  rw [hrunning] at hready
  have hready : s.queue.queueDepth = 0 ∧ s.workerBusy = false := by simpa using hready
  have hbusy : s.worker.busy = false := h.batched.busy.symm.trans hready.2
  refine ⟨h.allDrained hready.1, ?_, ?_⟩
  · have hwritten := h.batched.written
    rw [unwritten_eq_nil hbusy, List.append_nil] at hwritten
    exact hwritten
  · exact h.batched.flushed (LoopStage.finished_of_not_busy hbusy)

/-- What a step may end: the loop of the worker, with no producer active and every record drained,
and a flush, with every record written. -/
structure Ends (s t : LoggerState) : Prop where
  returned : s.queue.returned <+: t.queue.returned
  exited : s.worker ≠ .exited → t.worker = .exited → s.activeProducers = 0 ∧ t.AllDrained
  flushed : ∀ f : Nat, s.flushers[f]? ≠ some .flushed → t.flushers[f]? = some .flushed →
    s.workerRunning = true → t.AllWritten

theorem Frame.ends (h : s.Frame t) : s.Ends t := by
  refine ⟨h.returned, fun hne hexited => ?_, fun f hne hflushed _ => ?_⟩
  · rcases h.worker with hsame | hlocking
    · exact absurd (hsame ▸ hexited) hne
    · rw [hlocking] at hexited
      cases hexited
  · rcases h.flushers with hsame | hnotified
    · exact absurd (hsame ▸ hflushed) hne
    · exact absurd (notifyAll_flushed (hnotified ▸ hflushed)) hne

/-- The loop ends at the last load of the test for the end. -/
theorem work_ends (h : s.WellFormed) (hs : s.work = some t) : s.Ends t := by
  have hstay : ∀ {t : LoggerState}, t.flushers = s.flushers →
      s.queue.returned <+: t.queue.returned → t.worker ≠ .exited → s.Ends t :=
    fun hflushers hreturned hne => ⟨hreturned, fun _ hexited => absurd hexited hne,
      fun f hnot hflushed => absurd (hflushers ▸ hflushed) hnot⟩
  have hstage := h.stage
  unfold StageKept at hstage
  cases hworker : s.worker with
  | checkingActive =>
    rw [hworker] at hstage
    have hdrained := h.allDrained hstage.depth
    simp only [work, hworker, Option.some.injEq] at hs
    subst hs
    refine ⟨List.prefix_refl _, fun _ hexited => ?_, fun f hnot hflushed => absurd hflushed hnot⟩
    dsimp only at hexited
    split at hexited
    · rename_i hactive
      simp only [Bool.and_eq_true, decide_eq_true_eq] at hactive
      exact ⟨hactive.1, hdrained⟩
    · cases hexited
  | starting =>
    simp only [work, hworker] at hs
    obtain ⟨next, hnext, rfl⟩ := Option.map_eq_some_iff.1 hs
    refine hstay rfl ?_ nofun
    have hdrain : s.queue.drain s.workerBatchSize = some next := hnext
    unfold Queue.drain at hdrain
    split at hdrain
    · cases hdrain
      exact List.prefix_refl _
    · cases hdrain
  | draining =>
    simp only [work, hworker] at hs
    split at hs
    · cases hs
      refine hstay rfl (List.prefix_refl _) ?_
      dsimp only
      split <;> nofun
    · obtain ⟨next, hnext, rfl⟩ := Option.map_eq_some_iff.1 hs
      obtain ⟨-, hreturned, -⟩ := Queue.work_step hnext
      exact hstay rfl (hreturned ▸ List.prefix_refl _) nofun
  | writing index =>
    simp only [work, hworker] at hs
    split at hs <;> cases hs <;> exact hstay rfl (List.prefix_refl _) nofun
  | notifying =>
    simp only [work, hworker] at hs
    cases hs
    exact Frame.ends ⟨.inr rfl, .inr rfl, List.prefix_refl _⟩
  | asleep | exited =>
    simp only [work, hworker] at hs
    cases hs
  | locking | unready | marking | flushing | finishing =>
    simp only [work, hworker] at hs
    cases hs
    exact hstay rfl (List.prefix_refl _) nofun
  | loadingHead | loadingActive | loadingDepth | checkingPublished | checkingDepth =>
    simp only [work, hworker, Option.some.injEq] at hs
    subst hs
    refine hstay rfl (List.prefix_refl _) ?_
    dsimp only
    split_ifs <;> nofun

theorem step_ends (h : s.WellFormed) {action : LoggerAction} (hs : loggerStep s action = some t) :
    s.Ends t := by
  have hset : ∀ f flusher, flusher ≠ .flushed → s.Ends (s.setFlusher f flusher) := by
    intro f flusher hne
    refine ⟨List.prefix_refl _, fun hnot hexited => absurd hexited hnot, fun g hnot hflushed => ?_⟩
    have hflushed : (s.flushers.set f flusher)[g]? = some .flushed := hflushed
    rw [List.getElem?_set] at hflushed
    split at hflushed
    · split at hflushed
      · exact absurd (Option.some.inj hflushed) hne
      · cases hflushed
    · exact absurd hflushed hnot
  cases action with
  | call p entry =>
    obtain ⟨old, hp, hs⟩ := Option.bind_eq_some_iff.1 hs
    cases old with
    | idle =>
      cases hs
      exact Frame.ends ⟨.inl rfl, .inl rfl, List.prefix_refl _⟩
    | entering | filtering | queueing | leaving | leaveNotifying | left => cases hs
  | caller p filtered fails =>
    obtain ⟨old, hp, hs⟩ := Option.bind_eq_some_iff.1 hs
    exact (caller_frame hs).ends
  | worker => exact work_ends h hs
  | wake =>
    simp only [loggerStep] at hs
    split at hs
    · cases hs
      exact Frame.ends ⟨.inr rfl, .inl rfl, List.prefix_refl _⟩
    · cases hs
  | flush f =>
    simp only [loggerStep] at hs
    split at hs
    · cases hs
    · cases hs
    · cases hs
    · cases hs
      exact hset f .checking nofun
  | flusher f expired =>
    obtain ⟨flusher, -, hs⟩ := Option.bind_eq_some_iff.1 hs
    cases flusher with
    | checking =>
      simp only [LoggerState.flusher] at hs
      split at hs
      · cases hs
        exact hset f .timedOut nofun
      · obtain ⟨-, rfl⟩ := withMutex_eq_some hs
        split_ifs with hready
        · refine ⟨List.prefix_refl _, fun hnot hexited => absurd hexited hnot, fun _ _ _ hrunning => ?_⟩
          obtain ⟨hdrained, hwritten, hflushed⟩ := h.allWritten hready hrunning
          exact ⟨hdrained, hwritten, hflushed⟩
        · exact hset f .timedOut nofun
        · exact hset f .asleep nofun
    | asleep =>
      cases hs
      exact hset f .checking nofun
    | idle | timedOut | flushed => cases hs
  | shutdown =>
    unfold loggerStep shutdownImpl at hs
    dsimp only at hs
    split at hs
    · obtain ⟨-, rfl⟩ := withMutex_eq_some hs
      exact Frame.ends ⟨.inl rfl, .inl rfl, List.prefix_refl _⟩
    · cases hs
      exact Frame.ends ⟨notifyAll_worker s, .inr rfl, List.prefix_refl _⟩
    · split at hs
      · cases hs
        exact Frame.ends ⟨.inl rfl, .inl rfl, List.prefix_refl _⟩
      · cases hs
    · obtain ⟨-, rfl⟩ := withMutex_eq_some hs
      exact Frame.ends ⟨.inl rfl, .inl rfl, List.prefix_refl _⟩
    · cases hs
      exact Frame.ends ⟨.inl rfl, .inl rfl, List.prefix_refl _⟩
    · cases hs

/-! ## The wake-up -/

/-- The next steps of the producer alone wake the worker. -/
def Wakes (s : LoggerState) (p : Nat) : Prop :=
  ∃ count r, Lib.run loggerStep s (List.replicate count (.caller p false false)) = some r ∧
    r.2.worker ≠ .asleep

theorem Wakes.here (p : Nat) (h : s.worker ≠ .asleep) : s.Wakes p := ⟨0, ([], s), rfl, h⟩

theorem Wakes.step (h : t.Wakes p) (hs : loggerStep s (.caller p false false) = some t) :
    s.Wakes p := by
  obtain ⟨count, r, hr, hawake⟩ := h
  exact ⟨count + 1, _, Lib.run_cons hs hr, hawake⟩

theorem notifyAll_awake (s : LoggerState) : s.notifyAll.worker ≠ .asleep := by
  show (if s.worker = .asleep then LoopStage.locking else s.worker) ≠ .asleep
  split
  · nofun
  · assumption

theorem step_of_caller (hp : s.callers[p]? = some old) :
    loggerStep s (.caller p false false) = s.caller p false false old := by
  rw [loggerStep, hp, Option.bind_some]

/-- A producer on its way out notifies. -/
theorem wakes_of_leaving (hasleep : s.worker = .asleep)
    (hp : s.callers[p]? = some (.leaving true) ∨ s.callers[p]? = some (.leaveNotifying true) ∨
      s.callers[p]? = some (.left true)) : s.Wakes p := by
  have hlast : ∀ {s : LoggerState}, s.worker = .asleep →
      s.callers[p]? = some (.leaveNotifying true) ∨ s.callers[p]? = some (.left true) →
        s.Wakes p := by
    intro s hasleep hp
    have hmutex : ∀ next, s.withMutex next = some next := fun next => by
      unfold withMutex
      rw [hasleep]
      rfl
    rcases hp with hp | hp
    · have hnext : (s.notifyAll.setCaller p (.left true)).Wakes p := .here p (notifyAll_awake s)
      exact hnext.step ((step_of_caller hp).trans (hmutex _))
    · have hnext : (s.notifyAll.setCaller p .idle).Wakes p := .here p (notifyAll_awake s)
      exact hnext.step ((step_of_caller hp).trans (hmutex _))
  rcases hp with hp | hp
  · have hlt := (List.getElem?_eq_some_iff.1 hp).1
    refine (hlast ?_ ?_).step (step_of_caller hp)
    · exact hasleep
    · show (s.callers.set p _)[p]? = _ ∨ (s.callers.set p _)[p]? = _
      rw [List.getElem?_set_self hlt]
      split
      · exact .inl rfl
      · exact .inr rfl
  · exact hlast hasleep hp

/-- A producer whose call in the queue answers that the worker is to be notified. -/
theorem wakes_of_returned {status : EnqueueStatus} (hasleep : s.worker = .asleep)
    (hp : s.callers[p]? = some .queueing)
    (hproducer : s.queue.producers[p]? = some (.returned status true)) : s.Wakes p := by
  have hlt := (List.getElem?_eq_some_iff.1 hp).1
  have hnext : (s.setCaller p (.leaving true)).Wakes p :=
    wakes_of_leaving hasleep (.inl (List.getElem?_set_self hlt))
  refine hnext.step ((step_of_caller hp).trans ?_)
  simp only [caller, hproducer]

/-- A producer with the ticket at the head finds it there. -/
theorem wakes_of_checkingHead {status : EnqueueStatus} {firstPublishedSlot : Bool}
    (hasleep : s.worker = .asleep) (hp : s.callers[p]? = some .queueing)
    (hproducer : s.queue.producers[p]? =
      some (.checkingHead s.queue.dequeueTicket status firstPublishedSlot)) : s.Wakes p := by
  have hlt := (List.getElem?_eq_some_iff.1 hproducer).1
  let answered : Queue :=
    { s.queue with returned := s.queue.returned ++ [(s.queue.dequeueTicket, status)] }
  have hstep : s.queue.produce p false
      (.checkingHead s.queue.dequeueTicket status firstPublishedSlot) =
        some (answered.setProducer p (.returned status true)) := by
    simp [Queue.produce, answered]
  have hnext : ({ s with queue := answered.setProducer p (.returned status true) } :
      LoggerState).Wakes p :=
    wakes_of_returned hasleep hp (List.getElem?_set_self hlt)
  refine hnext.step ((step_of_caller hp).trans ?_)
  simp only [caller, hproducer, queueStep, Option.bind_some, hstep]
  rfl

theorem wakes_of_counting {status : EnqueueStatus} (hasleep : s.worker = .asleep)
    (hp : s.callers[p]? = some .queueing)
    (hproducer : s.queue.producers[p]? = some (.counting s.queue.dequeueTicket status)) :
    s.Wakes p := by
  have hlt := (List.getElem?_eq_some_iff.1 hproducer).1
  let counted : Queue :=
    { s.queue with publishedQueueDepth := s.queue.publishedQueueDepth + 1 }
  have hnext : ({ s with queue := counted.setProducer p (.checkingHead s.queue.dequeueTicket status
      (s.queue.publishedQueueDepth == 0)) } : LoggerState).Wakes p :=
    wakes_of_checkingHead hasleep hp (List.getElem?_set_self hlt)
  refine hnext.step ((step_of_caller hp).trans ?_)
  simp only [caller, hproducer, queueStep, Option.bind_some]
  rfl

/-- Who is about to notify wakes the worker. -/
theorem Pending.wakes (h : s.Pending) (hasleep : s.worker = .asleep) : ∃ p, s.Wakes p := by
  obtain ⟨p, caller, producer, hp, hproducer, hnotify⟩ := h
  refine ⟨p, ?_⟩
  cases caller with
  | idle | entering | filtering => cases hnotify
  | leaving notifyWorker =>
    obtain rfl : notifyWorker = true := hnotify
    exact wakes_of_leaving hasleep (.inl hp)
  | leaveNotifying notifyWorker =>
    obtain rfl : notifyWorker = true := hnotify
    exact wakes_of_leaving hasleep (.inr (.inl hp))
  | left notifyWorker =>
    obtain rfl : notifyWorker = true := hnotify
    exact wakes_of_leaving hasleep (.inr (.inr hp))
  | queueing =>
    cases producer with
    | idle | loadingDepth | comparing | reserved | waiting | filling | publishing => cases hnotify
    | counting ticket status =>
      obtain rfl : ticket = s.queue.dequeueTicket := hnotify
      exact wakes_of_counting hasleep hp hproducer
    | checkingHead ticket status firstPublishedSlot =>
      obtain rfl : ticket = s.queue.dequeueTicket := hnotify
      exact wakes_of_checkingHead hasleep hp hproducer
    | returned status notifyWorker =>
      obtain rfl : notifyWorker = true := hnotify
      exact wakes_of_returned hasleep hp hproducer

/-- What holds between any two steps. -/
structure Kept (s : LoggerState) : Prop where
  queue : s.queue.Kept
  returned : ∀ t, (t, .queued) ∈ s.queue.returned →
    ∃ issue, s.queue.history[t]? = some issue ∧ issue.status = some .queued
  awake : s.worker = .asleep → s.queueHeadIsPublished = true → ∃ p, s.Wakes p
  exited : s.worker = .exited → Caller.queueing ∉ s.callers ∧ s.AllDrained

theorem WellFormed.kept (h : s.WellFormed) : s.Kept where
  queue := h.queue.kept
  returned t ht := h.queue.kept.returned t .queued ht
  awake hasleep hhead := by
    have hidle := h.batched.idle (by simp [hasleep])
    have hstage := h.stage
    unfold StageKept at hstage
    rw [hasleep] at hstage
    exact (hstage ((h.head_iff hidle).1 hhead)).wakes hasleep
  exited hexited := by
    have hstage := h.stage
    unfold StageKept at hstage
    rw [hexited] at hstage
    exact ⟨hstage.callers, h.allDrained hstage.depth⟩

end LoggerState

/-- **The worker is woken, drains everything and is waited for**, in every interleaving of any
number of producers and flush callers, the worker and one shutdown. -/
theorem loggerKept {config : QueueConfig} {workerBatchSize n m : Nat} {s : LoggerState}
    {tr : List (Transition LoggerState LoggerAction)}
    (h : Trace loggerStep (.initial config workerBatchSize n m) tr s) :
    s.Kept ∧ ∀ x ∈ tr, x.pre.Kept ∧ x.post.Kept ∧ x.pre.Ends x.post := by
  obtain ⟨hs, hall⟩ := h.invariant_of_step
    (LoggerState.initial_wellFormed config workerBatchSize n m)
    fun _ _ _ hi hs => LoggerState.step_wellFormed hi hs
  exact ⟨hs.kept, fun x hx => ⟨(hall x hx).1.kept, (hall x hx).2.kept,
    LoggerState.step_ends (hall x hx).1 (h.mem_step hx)⟩⟩

/-- A record wakes the worker, a flush waits for its batch, and the logger is shut down. -/
def epochActions : List LoggerAction :=
  List.replicate 3 .worker ++ .call 0 { message := [0x61] } ::
    List.replicate 14 (.caller 0 false false) ++ [.flush 0, .flusher 0 false] ++
    List.replicate 18 .worker ++ [.flusher 0 false, .shutdown, .shutdown] ++
    List.replicate 7 .worker ++ List.replicate 2 .shutdown

theorem loggerKept_epochActions :
    (Lib.run loggerStep (.initial smallConfig 1 1 1) epochActions).map
      (fun r => (r.2.worker, r.2.flushers, r.2.shutdown, r.2.written.map QueuedLogEntry.message)) =
        some (.exited, [.flushed], .flushed, [[0x61]]) ∧
    ∀ r, Lib.run loggerStep (.initial smallConfig 1 1 1) epochActions = some r → r.2.Kept :=
  ⟨by decide +kernel, fun _ hr => (loggerKept (Trace.of_run hr)).1⟩

end Logger

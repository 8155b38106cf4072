import Mathlib.Data.Int.ModEq
import Mathlib.Tactic.SplitIfs
import GameWIP.Logger.Queue

/-!
# The queue delivers every record once, in ticket order

`queueKept`: in every interleaving of any number of producers and the worker, what has been drained
is exactly the queued records of the tickets consumed so far, in ticket order and as their producers
wrote them; no producer writes a slot that the worker reads or that holds an earlier record, and a
wait for a slot never has to wait.

The invariant has three parts. `Counted` ties the depth to the tickets: a reservation is held from
the compare-exchange until the worker has let go of the slot, so the tickets outstanding fit the
ring. `RingKept` says what the slots of that window hold: the sequence of a ticket tells whether its
slot has been published. `Owned` says whose the unpublished tickets are.
-/

namespace Logger

open Lib (Trace Transition total)

/-! ## Positions -/

/-- The ticket of a producer that has not published its slot. -/
def Producer.owned : Producer → Option Nat
  | .waiting _ ticket | .filling _ ticket | .publishing ticket _ => some ticket
  | _ => none

/-- The ticket and the status of a producer that has published its slot. -/
def Producer.reported : Producer → Option (Nat × EnqueueStatus)
  | .counting ticket status | .checkingHead ticket status _ => some (ticket, status)
  | _ => none

/-- A reservation without a ticket. -/
def Producer.reservations : Producer → Nat
  | .reserved _ => 1
  | _ => 0

/-- What the producer of an unpublished ticket knows of it. -/
def Producer.Agrees : Producer → Issue → Prop
  | .waiting entry _, issue | .filling entry _, issue => issue.entry = entry ∧ issue.status = none
  | .publishing _ status, issue => issue.status = some status
  | _, _ => False

namespace WorkerStage

/-- The ticket the worker is at. -/
def ticket : WorkerStage → Option Nat
  | .moving ticket | .storingSequence ticket | .storingTicket ticket => some ticket
  | _ => none

/-- The slots emptied behind the dequeue ticket. -/
def taken : WorkerStage → Nat
  | .storingSequence _ | .storingTicket _ => 1
  | _ => 0

/-- The slots handed on behind the dequeue ticket. -/
def freed : WorkerStage → Nat
  | .storingTicket _ => 1
  | _ => 0

/-- The reservations the worker has still to give back. -/
def held : WorkerStage → Nat
  | .countingDown | .releasing => 1
  | _ => 0

theorem freed_le_taken (stage : WorkerStage) : stage.freed ≤ stage.taken := by
  cases stage <;> simp [freed, taken]

end WorkerStage

/-! ## The invariant -/

/-- The slot of the ticket has been published. -/
def Published (history : List Issue) (t : Nat) : Prop :=
  ∃ issue, history[t]? = some issue ∧ issue.published = true

theorem Published.lt {history : List Issue} {t : Nat} (h : Published history t) :
    t < history.length := by
  obtain ⟨issue, hissue, -⟩ := h
  exact (List.getElem?_eq_some_iff.1 hissue).1

/-- The slot holds what the copy for the ticket left there. -/
def QueueSlot.Holds (slot : QueueSlot) (config : QueueConfig) (entry : PendingLogEntry) :
    EnqueueStatus → Prop
  | .queued =>
    slot.skip = false ∧ slot.entry = copyPendingEntryToQueueSlot entry config.maxMessageLength
  | _ => slot.skip = true

/-- What a ticket delivers: its record, unless its slot is skipped. -/
def delivery (config : QueueConfig) (history : List Issue) (t : Nat) :
    Option (Nat × QueuedLogEntry) :=
  history[t]?.bind fun issue =>
    if issue.status = some .queued then
      some (t, copyPendingEntryToQueueSlot issue.entry config.maxMessageLength)
    else none

namespace Queue

variable {queue next : Queue}

/-- The reservations without a ticket. -/
def reserved (queue : Queue) : Nat := total Producer.reservations queue.producers

/-- The tickets consumed: their slots are empty. -/
def consumed (queue : Queue) : Nat := queue.dequeueTicket + queue.worker.stage.taken

/-- The first ticket whose slot has not been handed on. -/
def base (queue : Queue) : Nat := queue.dequeueTicket + queue.worker.stage.freed

structure Counted (queue : Queue) : Prop where
  depth : queue.queueDepth + queue.dequeueTicket =
    queue.enqueueTicket + queue.reserved + queue.worker.stage.held
  bounded : queue.queueDepth ≤ queue.config.hardQueueSize
  history : queue.history.length = queue.enqueueTicket

structure RingKept (queue : Queue) : Prop where
  worker : ∀ ticket, queue.worker.stage.ticket = some ticket →
    ticket = queue.dequeueTicket ∧ Published queue.history ticket
  past : ∀ t < queue.dequeueTicket, Published queue.history t
  settled : ∀ (t : Nat) issue, queue.history[t]? = some issue → issue.published = true →
    issue.status.isSome
  sequence : ∀ t, queue.base ≤ t → t < queue.base + queue.config.logRingSize →
    (Published queue.history t → (queue.slot t).sequence = t + 1) ∧
      (¬ Published queue.history t → (queue.slot t).sequence = t)
  content : ∀ (t : Nat) issue status, queue.consumed ≤ t → queue.history[t]? = some issue →
    issue.status = some status → (queue.slot t).Holds queue.config issue.entry status
  drained : queue.drained =
    (List.range queue.consumed).filterMap (delivery queue.config queue.history)

structure Owned (queue : Queue) : Prop where
  owners : ∀ (p : Nat) producer t, queue.producers[p]? = some producer → producer.owned = some t →
    ∃ issue, queue.history[t]? = some issue ∧ issue.producer = p ∧ issue.published = false ∧
      producer.Agrees issue
  pending : ∀ (t : Nat) issue, queue.history[t]? = some issue → issue.published = false →
    queue.producers[issue.producer]?.bind Producer.owned = some t
  reports : ∀ (p : Nat) producer t status, queue.producers[p]? = some producer →
    producer.reported = some (t, status) →
      ∃ issue, queue.history[t]? = some issue ∧ issue.published = true ∧
        issue.status = some status
  returned : ∀ t status, (t, status) ∈ queue.returned →
    ∃ issue, queue.history[t]? = some issue ∧ issue.published = true ∧ issue.status = some status

/-- What holds in every interleaving. -/
structure WellFormed (queue : Queue) : Prop where
  counted : queue.Counted
  ring : queue.RingKept
  owned : queue.Owned

/-! ## Windows -/

/-- Tickets of one window of the ring have slots of their own. -/
theorem eq_of_mod_eq {capacity lo t u : Nat} (ht : lo ≤ t) (ht' : t < lo + capacity)
    (hu : lo ≤ u) (hu' : u < lo + capacity) (h : t % capacity = u % capacity) : t = u := by
  apply Nat.ModEq.eq_of_abs_lt h
  rw [abs_lt]
  omega

@[simp] theorem slot_setSlot_self (queue : Queue) (slot : QueueSlot) (t : Nat) :
    (queue.setSlot t slot).slot t = slot := by
  simp [Queue.slot, setSlot]

theorem slot_eq_of_mod {t u : Nat} (h : u % queue.config.logRingSize = t % queue.config.logRingSize) :
    queue.slot u = queue.slot t := by
  simp only [Queue.slot, h]

theorem slot_setSlot_ne {t u : Nat} (queue : Queue) (slot : QueueSlot)
    (h : u % queue.config.logRingSize ≠ t % queue.config.logRingSize) :
    (queue.setSlot t slot).slot u = queue.slot u := by
  simp [Queue.slot, setSlot, Function.update_of_ne h]

/-- Another ticket of the window keeps its slot. -/
theorem slot_setSlot_window {t u : Nat} (queue : Queue) (lo : Nat) (slot : QueueSlot)
    (hne : u ≠ t) (ht : lo ≤ t) (ht' : t < lo + queue.config.logRingSize) (hu : lo ≤ u)
    (hu' : u < lo + queue.config.logRingSize) : (queue.setSlot t slot).slot u = queue.slot u :=
  slot_setSlot_ne queue slot fun h => hne (eq_of_mod_eq hu hu' ht ht' h)

/-- **The tickets outstanding fit the ring.** -/
theorem Counted.window (h : queue.Counted) :
    queue.enqueueTicket + queue.reserved + queue.worker.stage.held ≤
      queue.dequeueTicket + queue.config.logRingSize := by
  have := h.depth
  have := h.bounded
  have := queue.config.ring_eq
  omega

/-- A ticket consumed has been published. -/
theorem RingKept.published_of_consumed (h : queue.RingKept) {t : Nat} (ht : t < queue.consumed) :
    Published queue.history t := by
  unfold consumed at ht
  by_cases hpast : t < queue.dequeueTicket
  · exact h.past t hpast
  · cases hstage : queue.worker.stage with
    | idle | checking | moving | countingDown | releasing =>
      simp only [hstage, WorkerStage.taken] at ht
      omega
    | storingSequence ticket | storingTicket ticket =>
      simp only [hstage, WorkerStage.taken] at ht
      obtain ⟨hticket, hpublished⟩ := h.worker ticket (by rw [hstage]; rfl)
      obtain rfl : t = ticket := by omega
      exact hpublished

theorem WellFormed.consumed_le (h : queue.WellFormed) :
    queue.consumed ≤ queue.enqueueTicket := by
  rw [← h.counted.history]
  by_contra hlt
  have := (h.ring.published_of_consumed (by omega : queue.history.length < queue.consumed)).lt
  omega

theorem base_le_consumed (queue : Queue) : queue.base ≤ queue.consumed :=
  Nat.add_le_add_left queue.worker.stage.freed_le_taken _

/-- A ticket without a published slot is in the window. -/
theorem WellFormed.outstanding (h : queue.WellFormed) {t : Nat} {issue : Issue}
    (hissue : queue.history[t]? = some issue) (hp : issue.published = false) :
    queue.consumed ≤ t ∧ t < queue.dequeueTicket + queue.config.logRingSize := by
  constructor
  · by_contra hlt
    obtain ⟨issue', hissue', hp'⟩ := h.ring.published_of_consumed (by omega : t < queue.consumed)
    rw [hissue] at hissue'
    cases hissue'
    rw [hp] at hp'
    cases hp'
  · have := (List.getElem?_eq_some_iff.1 hissue).1
    have := h.counted.history
    have := h.counted.window
    omega

/-! ## Steps that leave a part as it is -/

theorem Counted.congr (h : queue.Counted) (hconfig : next.config = queue.config)
    (hdepth : next.queueDepth = queue.queueDepth)
    (henqueue : next.enqueueTicket = queue.enqueueTicket)
    (hdequeue : next.dequeueTicket = queue.dequeueTicket) (hreserved : next.reserved = queue.reserved)
    (hheld : next.worker.stage.held = queue.worker.stage.held)
    (hhistory : next.history.length = queue.history.length) : next.Counted := by
  refine ⟨?_, ?_, ?_⟩
  · rw [hdepth, hdequeue, henqueue, hreserved, hheld]
    exact h.depth
  · rw [hdepth, hconfig]
    exact h.bounded
  · rw [hhistory, henqueue]
    exact h.history

theorem RingKept.congr (h : queue.RingKept) (hconfig : next.config = queue.config)
    (hring : next.logRing = queue.logRing) (hdequeue : next.dequeueTicket = queue.dequeueTicket)
    (hstage : next.worker.stage = queue.worker.stage) (hhistory : next.history = queue.history)
    (hdrained : next.drained = queue.drained) : next.RingKept := by
  have hslot : ∀ t, next.slot t = queue.slot t := fun t => by
    unfold Queue.slot
    rw [hring, hconfig]
  have hconsumed : next.consumed = queue.consumed := by
    unfold consumed
    rw [hdequeue, hstage]
  have hbase : next.base = queue.base := by
    unfold base
    rw [hdequeue, hstage]
  refine ⟨?_, ?_, ?_, ?_, ?_, ?_⟩
  · rw [hstage, hdequeue, hhistory]
    exact h.worker
  · rw [hdequeue, hhistory]
    exact h.past
  · rw [hhistory]
    exact h.settled
  · rw [hbase, hconfig, hhistory]
    intro t
    rw [hslot]
    exact h.sequence t
  · rw [hconsumed, hconfig, hhistory]
    intro t
    rw [hslot]
    exact h.content t
  · rw [hdrained, hconsumed, hconfig, hhistory]
    exact h.drained

theorem Owned.congr (h : queue.Owned) (hhistory : next.history = queue.history)
    (hproducers : next.producers = queue.producers) (hreturned : next.returned = queue.returned) :
    next.Owned := by
  refine ⟨?_, ?_, ?_, ?_⟩
  · rw [hhistory, hproducers]
    exact h.owners
  · rw [hhistory, hproducers]
    exact h.pending
  · rw [hhistory, hproducers]
    exact h.reports
  · rw [hhistory, hreturned]
    exact h.returned

/-! ## Producers -/

variable {p : Nat} {old new : Producer}

theorem reserved_setProducer (new : Producer) (hp : queue.producers[p]? = some old) :
    (queue.setProducer p new).reserved + old.reservations = queue.reserved + new.reservations :=
  Lib.total_set hp

/-- A producer that moves on without a change of its ticket keeps the tickets owned. -/
theorem Owned.setProducer (new : Producer) (h : queue.Owned) (hp : queue.producers[p]? = some old)
    (howned : new.owned = old.owned)
    (hagrees : ∀ issue t, new.owned = some t → old.Agrees issue → new.Agrees issue)
    (hreported : new.reported = none ∨ new.reported = old.reported) :
    (queue.setProducer p new).Owned := by
  refine ⟨?_, ?_, ?_, h.returned⟩
  · intro q producer t hq ht
    rcases Lib.getElem?_set_cases hq with ⟨rfl, rfl⟩ | ⟨-, hq⟩
    · obtain ⟨issue, hissue, hproducer, hpublished, hold⟩ := h.owners q old t hp (howned ▸ ht)
      exact ⟨issue, hissue, hproducer, hpublished, hagrees issue t ht hold⟩
    · exact h.owners q producer t hq ht
  · intro t issue hissue hpublished
    have hpending := h.pending t issue hissue hpublished
    show (queue.producers.set p new)[issue.producer]?.bind Producer.owned = some t
    by_cases hq : issue.producer = p
    · rw [hq, hp] at hpending
      rw [hq, List.getElem?_set_self (List.getElem?_eq_some_iff.1 hp).1]
      exact howned.trans hpending
    · rw [List.getElem?_set_ne (Ne.symm hq)]
      exact hpending
  · intro q producer t status hq ht
    rcases Lib.getElem?_set_cases hq with ⟨rfl, rfl⟩ | ⟨-, hq⟩
    · rcases hreported with hnone | hsame
      · rw [hnone] at ht
        cases ht
      · exact h.reports q old t status hp (hsame ▸ ht)
    · exact h.reports q producer t status hq ht

/-- A step of a producer that touches neither tickets nor slots. -/
theorem WellFormed.move (h : queue.WellFormed) (hp : queue.producers[p]? = some old)
    (howned : new.owned = old.owned)
    (hagrees : ∀ issue t, new.owned = some t → old.Agrees issue → new.Agrees issue)
    (hreported : new.reported = none ∨ new.reported = old.reported)
    (hreservations : new.reservations = old.reservations) :
    (queue.setProducer p new).WellFormed := by
  refine ⟨h.counted.congr rfl rfl rfl rfl ?_ rfl rfl, h.ring.congr rfl rfl rfl rfl rfl rfl,
    h.owned.setProducer new hp howned hagrees hreported⟩
  have := reserved_setProducer new hp
  omega

/-- The compare-exchange reserves depth. -/
theorem reserveQueueDepth_wellFormed {entry : PendingLogEntry} {depth : Nat} (fails : Bool)
    (h : queue.WellFormed) (hp : queue.producers[p]? = some (.comparing entry depth)) :
    (queue.reserveQueueDepth p fails entry depth).WellFormed := by
  unfold reserveQueueDepth
  split_ifs with hhard hsoft hfails
  · exact h.move hp rfl (fun _ _ ht => by cases ht) (.inl rfl) rfl
  · exact h.move hp rfl (fun _ _ ht => by cases ht) (.inl rfl) rfl
  · exact h.move hp rfl (fun _ _ ht => by cases ht) (.inl rfl) rfl
  · have hdepth : queue.queueDepth = depth := by simp_all
    have hreserved := reserved_setProducer (.reserved entry) hp
    have howned := h.owned.setProducer (.reserved entry) hp rfl
      (fun _ _ ht => by cases ht) (.inl rfl)
    refine ⟨⟨?_, ?_, h.counted.history⟩, h.ring.congr rfl rfl rfl rfl rfl rfl,
      howned.congr rfl rfl rfl⟩
    · have := h.counted.depth
      show depth + 1 + queue.dequeueTicket = queue.enqueueTicket +
        (queue.setProducer p (.reserved entry)).reserved + queue.worker.stage.held
      simp only [Producer.reservations] at hreserved
      omega
    · show depth + 1 ≤ queue.config.hardQueueSize
      omega

/-- Taking a ticket adds it to the history, unpublished. -/
theorem takeTicket_wellFormed {entry : PendingLogEntry} (h : queue.WellFormed)
    (hp : queue.producers[p]? = some (.reserved entry)) :
    (queue.takeTicket p entry).WellFormed := by
  have hwindow := h.counted.window
  have hlength := h.counted.history
  have hreserved := reserved_setProducer (.waiting entry queue.enqueueTicket) hp
  simp only [Producer.reservations] at hreserved
  have hring : queue.config.logRingSize ≠ 0 := by
    have := queue.config.ring_eq
    have := queue.config.soft_pos
    have := queue.config.soft_le
    omega
  unfold takeTicket
  rw [if_neg hring]
  dsimp only
  have hold : ∀ {t : Nat} {issue : Issue}, queue.history[t]? = some issue →
      (queue.history ++ [({ producer := p, entry } : Issue)])[t]? = some issue := by
    intro t issue hissue
    rw [List.getElem?_append_left (List.getElem?_eq_some_iff.1 hissue).1]
    exact hissue
  have hcases : ∀ {t : Nat} {issue : Issue},
      (queue.history ++ [({ producer := p, entry } : Issue)])[t]? = some issue →
      queue.history[t]? = some issue ∨
        t = queue.enqueueTicket ∧ issue = { producer := p, entry } := by
    intro t issue hissue
    rcases Nat.lt_or_ge t queue.history.length with hlt | hge
    · rw [List.getElem?_append_left hlt] at hissue
      exact .inl hissue
    · rw [List.getElem?_append_right hge, List.getElem?_singleton] at hissue
      split at hissue
      · exact .inr ⟨by omega, (Option.some.inj hissue).symm⟩
      · cases hissue
  have hpublished : ∀ t, Published (queue.history ++ [({ producer := p, entry } : Issue)]) t ↔
      Published queue.history t := by
    intro t
    constructor
    · rintro ⟨issue, hissue, hp⟩
      rcases hcases hissue with hissue | ⟨-, rfl⟩
      · exact ⟨issue, hissue, hp⟩
      · cases hp
    · rintro ⟨issue, hissue, hp⟩
      exact ⟨issue, hold hissue, hp⟩
  refine ⟨⟨?_, h.counted.bounded, ?_⟩, ⟨?_, ?_, ?_, ?_, ?_, ?_⟩, ⟨?_, ?_, ?_, ?_⟩⟩
  · have := h.counted.depth
    show queue.queueDepth + queue.dequeueTicket = queue.enqueueTicket + 1 +
      (queue.setProducer p (.waiting entry queue.enqueueTicket)).reserved +
        queue.worker.stage.held
    omega
  · show (queue.history ++ [_]).length = queue.enqueueTicket + 1
    rw [List.length_append, hlength]
    rfl
  · intro ticket hticket
    obtain ⟨heq, hp⟩ := h.ring.worker ticket hticket
    exact ⟨heq, (hpublished ticket).2 hp⟩
  · exact fun t ht => (hpublished t).2 (h.ring.past t ht)
  · intro t issue hissue hp
    rcases hcases hissue with hissue | ⟨-, rfl⟩
    · exact h.ring.settled t issue hissue hp
    · cases hp
  · intro t hlo hhi
    obtain ⟨hyes, hno⟩ := h.ring.sequence t hlo hhi
    exact ⟨fun ht => hyes ((hpublished t).1 ht), fun ht => hno fun ht' => ht ((hpublished t).2 ht')⟩
  · intro t issue status ht hissue hstatus
    rcases hcases hissue with hissue | ⟨-, rfl⟩
    · exact h.ring.content t issue status ht hissue hstatus
    · cases hstatus
  · refine h.ring.drained.trans (List.filterMap_congr fun t ht => ?_)
    have hlt : t < queue.history.length :=
      (h.ring.published_of_consumed (List.mem_range.1 ht)).lt
    show delivery queue.config queue.history t = delivery queue.config (queue.history ++ [_]) t
    rw [delivery, delivery, List.getElem?_append_left hlt]
  · intro q producer t hq ht
    rcases Lib.getElem?_set_cases hq with ⟨rfl, rfl⟩ | ⟨-, hq⟩
    · cases ht
      refine ⟨{ producer := q, entry }, ?_, rfl, rfl, rfl, rfl⟩
      show (queue.history ++ [_])[queue.enqueueTicket]? = _
      rw [← hlength, List.getElem?_concat_length]
    · obtain ⟨issue, hissue, hrest⟩ := h.owned.owners q producer t hq ht
      exact ⟨issue, hold hissue, hrest⟩
  · intro t issue hissue hnot
    show (queue.producers.set p (.waiting entry queue.enqueueTicket))[issue.producer]?.bind
      Producer.owned = some t
    rcases hcases hissue with hissue | ⟨rfl, rfl⟩
    · have hpending := h.owned.pending t issue hissue hnot
      have hne : issue.producer ≠ p := by
        rintro heq
        rw [heq, hp] at hpending
        cases hpending
      rw [List.getElem?_set_ne (Ne.symm hne)]
      exact hpending
    · rw [List.getElem?_set_self (List.getElem?_eq_some_iff.1 hp).1]
      rfl
  · intro q producer t status hq ht
    rcases Lib.getElem?_set_cases hq with ⟨rfl, rfl⟩ | ⟨-, hq⟩
    · cases ht
    · obtain ⟨issue, hissue, hrest⟩ := h.owned.reports q producer t status hq ht
      exact ⟨issue, hold hissue, hrest⟩
  · intro t status ht
    obtain ⟨issue, hissue, hrest⟩ := h.owned.returned t status ht
    exact ⟨issue, hold hissue, hrest⟩

/-! ## The owner of a slot -/

/-- A step of the owner of an unpublished ticket: it rewrites the history of the ticket and its
slot. -/
def ownerStep (queue : Queue) (p t : Nat) (f : Issue → Issue) (slot : QueueSlot)
    (new : Producer) : Queue :=
  (({ queue with history := queue.history.modify t f } : Queue).setSlot t slot).setProducer p new

theorem modify_cases {history : List Issue} {t u : Nat} {f : Issue → Issue} {issue' : Issue}
    (h : (history.modify t f)[u]? = some issue') :
    u = t ∧ (∃ issue, history[t]? = some issue ∧ issue' = f issue) ∨
      u ≠ t ∧ history[u]? = some issue' := by
  by_cases hu : t = u
  · subst hu
    rw [List.getElem?_modify_eq] at h
    obtain ⟨issue, hissue, rfl⟩ := Option.map_eq_some_iff.1 h
    exact .inl ⟨rfl, issue, hissue, rfl⟩
  · rw [List.getElem?_modify_ne _ _ hu] at h
    exact .inr ⟨Ne.symm hu, h⟩

theorem modify_self {history : List Issue} {t : Nat} {f : Issue → Issue} {issue : Issue}
    (h : history[t]? = some issue) : (history.modify t f)[t]? = some (f issue) := by
  rw [List.getElem?_modify_eq, h]
  rfl

/-- The owner of a ticket keeps the invariant when its slot says of the ticket what the history
does. -/
theorem WellFormed.ownerStep {t : Nat} {issue : Issue} (f : Issue → Issue) (slot : QueueSlot)
    (new : Producer) (h : queue.WellFormed) (hp : queue.producers[p]? = some old) (ht : old.owned = some t)
    (hissue : queue.history[t]? = some issue) (hproducer : (f issue).producer = issue.producer)
    (hentry : (f issue).entry = issue.entry)
    (hsettled : (f issue).published = true → (f issue).status.isSome)
    (hsequence : slot.sequence = if (f issue).published then t + 1 else t)
    (hcontent : ∀ status, (f issue).status = some status →
      slot.Holds queue.config issue.entry status)
    (howned : new.owned = if (f issue).published then none else some t)
    (hagrees : (f issue).published = false → new.Agrees (f issue))
    (hreported : ∀ u status, new.reported = some (u, status) →
      u = t ∧ (f issue).published = true ∧ (f issue).status = some status)
    (hreservations : new.reservations = old.reservations) :
    (queue.ownerStep p t f slot new).WellFormed := by
  obtain ⟨issue', hissue', hself, hunpublished, -⟩ := h.owned.owners p old t hp ht
  obtain rfl : issue' = issue := Option.some.inj (hissue'.symm.trans hissue)
  obtain ⟨hlo, hhi⟩ := h.outstanding hissue hunpublished
  have hbase := queue.base_le_consumed
  have hle : queue.dequeueTicket ≤ queue.base := Nat.le_add_right _ _
  have hset : p < queue.producers.length := (List.getElem?_eq_some_iff.1 hp).1
  -- the other tickets of the window keep their slots
  have hslot : ∀ u, u ≠ t → queue.dequeueTicket ≤ u →
      u < queue.dequeueTicket + queue.config.logRingSize →
      (queue.ownerStep p t f slot new).slot u = queue.slot u := fun u hne hu hu' =>
    slot_setSlot_window queue queue.dequeueTicket slot hne (by omega) hhi hu hu'
  have hslot_self : (queue.ownerStep p t f slot new).slot t = slot :=
    slot_setSlot_self queue slot t
  have hpublished : ∀ u, u ≠ t →
      (Published (queue.ownerStep p t f slot new).history u ↔ Published queue.history u) := by
    intro u hne
    show (∃ issue, (queue.history.modify t f)[u]? = some issue ∧ _) ↔ _
    rw [List.getElem?_modify_ne _ _ (Ne.symm hne)]
    rfl
  have hpublished_mono : ∀ u, Published queue.history u →
      Published (queue.ownerStep p t f slot new).history u := by
    intro u hu
    have hne : u ≠ t := by
      rintro rfl
      obtain ⟨other, hother, htrue⟩ := hu
      rw [hissue] at hother
      cases hother
      rw [hunpublished] at htrue
      cases htrue
    exact (hpublished u hne).2 hu
  have hpublished_self : Published (queue.ownerStep p t f slot new).history t ↔
      (f issue').published = true := by
    constructor
    · rintro ⟨other, hother, htrue⟩
      rw [show (queue.ownerStep p t f slot new).history[t]? = _ from modify_self hissue] at hother
      cases hother
      exact htrue
    · exact fun htrue => ⟨f issue', modify_self hissue, htrue⟩
  refine ⟨h.counted.congr rfl rfl rfl rfl ?_ rfl (List.length_modify _ _ _),
    ⟨?_, ?_, ?_, ?_, ?_, ?_⟩, ⟨?_, ?_, ?_, ?_⟩⟩
  · have := reserved_setProducer new hp
    show (queue.setProducer p new).reserved = queue.reserved
    omega
  · intro ticket hticket
    obtain ⟨heq, hpub⟩ := h.ring.worker ticket hticket
    exact ⟨heq, hpublished_mono ticket hpub⟩
  · exact fun u hu => hpublished_mono u (h.ring.past u hu)
  · intro u other hother htrue
    rcases modify_cases hother with ⟨rfl, issue, hissue'', rfl⟩ | ⟨-, hother⟩
    · obtain rfl := Option.some.inj (hissue''.symm.trans hissue)
      exact hsettled htrue
    · exact h.ring.settled u other hother htrue
  · intro u hu hu'
    by_cases hne : u = t
    · subst hne
      rw [hslot_self, hpublished_self, hsequence]
      exact ⟨fun htrue => if_pos htrue, fun hfalse => if_neg hfalse⟩
    · have hother : (queue.ownerStep p t f slot new).slot u = queue.slot u :=
        slot_setSlot_window queue queue.base slot hne (by omega)
          (by omega) hu hu'
      rw [hother, hpublished u hne]
      exact h.ring.sequence u hu hu'
  · intro u other status hu hother hstatus
    rcases modify_cases hother with ⟨rfl, issue, hissue'', rfl⟩ | ⟨hne, hother⟩
    · obtain rfl := Option.some.inj (hissue''.symm.trans hissue)
      rw [hslot_self, hentry]
      exact hcontent status hstatus
    · have hwindow := h.counted.window
      have hlength := h.counted.history
      have hlt := (List.getElem?_eq_some_iff.1 hother).1
      have hu' : queue.consumed ≤ u := hu
      rw [hslot u hne (by omega) (by omega)]
      exact h.ring.content u other status hu hother hstatus
  · refine h.ring.drained.trans (List.filterMap_congr fun u hu => ?_)
    have hu' : u < queue.consumed := List.mem_range.1 hu
    show delivery queue.config queue.history u =
      delivery queue.config (queue.history.modify t f) u
    rw [delivery, delivery, List.getElem?_modify_ne _ _ (by omega)]
  · intro q producer u hq hu
    rcases Lib.getElem?_set_cases hq with ⟨rfl, rfl⟩ | ⟨hqp, hq⟩
    · rw [howned] at hu
      split at hu
      · cases hu
      · rename_i hfalse
        cases hu
        have hfalse : (f issue').published = false := by simpa using hfalse
        exact ⟨f issue', modify_self hissue, hproducer.trans hself, hfalse, hagrees hfalse⟩
    · obtain ⟨other, hother, hrest⟩ := h.owned.owners q producer u hq hu
      refine ⟨other, ?_, hrest⟩
      have hne : t ≠ u := by
        rintro rfl
        rw [hissue] at hother
        cases hother
        exact hqp (hrest.1.symm.trans hself)
      exact (List.getElem?_modify_ne _ _ hne).trans hother
  · intro u other hother hfalse
    show (queue.producers.set p new)[other.producer]?.bind Producer.owned = some u
    rcases modify_cases hother with ⟨rfl, issue, hissue'', rfl⟩ | ⟨hne, hother⟩
    · obtain rfl := Option.some.inj (hissue''.symm.trans hissue)
      rw [hproducer, hself, List.getElem?_set_self hset]
      show new.owned = some u
      rw [howned, hfalse]
      rfl
    · have hpending := h.owned.pending u other hother hfalse
      have hqp : other.producer ≠ p := by
        intro heq
        rw [heq, hp] at hpending
        exact hne (Option.some.inj (hpending.symm.trans ht))
      rw [List.getElem?_set_ne (Ne.symm hqp)]
      exact hpending
  · intro q producer u status hq hu
    rcases Lib.getElem?_set_cases hq with ⟨rfl, rfl⟩ | ⟨-, hq⟩
    · obtain ⟨rfl, htrue, hstatus⟩ := hreported u status hu
      exact ⟨f issue', modify_self hissue, htrue, hstatus⟩
    · obtain ⟨other, hother, htrue, hstatus⟩ := h.owned.reports q producer u status hq hu
      have hne : t ≠ u := by
        rintro rfl
        rw [hissue] at hother
        cases hother
        rw [hunpublished] at htrue
        cases htrue
      exact ⟨other, (List.getElem?_modify_ne _ _ hne).trans hother, htrue, hstatus⟩
  · intro u status hu
    obtain ⟨other, hother, htrue, hstatus⟩ := h.owned.returned u status hu
    have hne : t ≠ u := by
      rintro rfl
      rw [hissue] at hother
      cases hother
      rw [hunpublished] at htrue
      cases htrue
    exact ⟨other, (List.getElem?_modify_ne _ _ hne).trans hother, htrue, hstatus⟩

/-- The slot of a ticket that is not published. -/
theorem WellFormed.sequence_owned (h : queue.WellFormed) {t : Nat} {issue : Issue}
    (hissue : queue.history[t]? = some issue) (hp : issue.published = false) :
    (queue.slot t).sequence = t := by
  obtain ⟨hlo, hhi⟩ := h.outstanding hissue hp
  have hbase := queue.base_le_consumed
  have hle : queue.dequeueTicket ≤ queue.base := Nat.le_add_right _ _
  refine (h.ring.sequence t (by omega) (by omega)).2 ?_
  rintro ⟨other, hother, htrue⟩
  rw [hissue] at hother
  cases hother
  rw [hp] at htrue
  cases htrue

theorem fillSlot_wellFormed {entry : PendingLogEntry} {t : Nat} (fails : Bool)
    (h : queue.WellFormed) (hp : queue.producers[p]? = some (.filling entry t)) :
    (queue.fillSlot p fails entry t).WellFormed := by
  obtain ⟨issue, hissue, -, hfalse, hentry, -⟩ := h.owned.owners p _ t hp rfl
  have hsequence := h.sequence_owned hissue hfalse
  cases fails with
  | true =>
    refine h.ownerStep (fun issue => { issue with status := some .allocationFailure })
      { queue.slot t with skip := true, entry := {} } (.publishing t .allocationFailure) hp rfl
      hissue rfl rfl (fun _ => rfl) ?_ (fun status hsome => ?_) ?_ (fun _ => rfl)
      (fun _ _ hsome => by cases hsome) rfl
    · simpa [hfalse] using hsequence
    · cases hsome
      rfl
    · simp [hfalse, Producer.owned]
  | false =>
    refine h.ownerStep (fun issue => { issue with status := some .queued })
      { queue.slot t with
        skip := false
        entry := copyPendingEntryToQueueSlot entry queue.config.maxMessageLength }
      (.publishing t .queued) hp rfl
      hissue rfl rfl (fun _ => rfl) ?_ (fun status hsome => ?_) ?_ (fun _ => rfl)
      (fun _ _ hsome => by cases hsome) rfl
    · simpa [hfalse] using hsequence
    · cases hsome
      exact ⟨rfl, by rw [hentry]⟩
    · simp [hfalse, Producer.owned]

theorem publishSlot_wellFormed {status : EnqueueStatus} {t : Nat} (h : queue.WellFormed)
    (hp : queue.producers[p]? = some (.publishing t status)) :
    (queue.publishSlot p t status).WellFormed := by
  obtain ⟨issue, hissue, -, hfalse, hstatus⟩ := h.owned.owners p _ t hp rfl
  have hcontent := h.ring.content t issue status (h.outstanding hissue hfalse).1 hissue hstatus
  refine h.ownerStep (fun issue => { issue with published := true })
    { queue.slot t with sequence := t + 1 } (.counting t status) hp rfl hissue rfl rfl
    (fun _ => by rw [hstatus]; rfl) rfl (fun status' hsome => ?_) rfl
    (fun hfalse => by cases hfalse) (fun u status' hsome => ?_) rfl
  · obtain rfl : status = status' := Option.some.inj (hstatus.symm.trans hsome)
    cases status <;> exact hcontent
  · cases hsome
    exact ⟨rfl, rfl, hstatus⟩

/-- The number of published slots is a hint of the wake-up; nothing here rests on it. -/
theorem WellFormed.count (h : queue.WellFormed) (published : UInt64) :
    ({ queue with publishedQueueDepth := published } : Queue).WellFormed :=
  ⟨h.counted.congr rfl rfl rfl rfl rfl rfl rfl, h.ring.congr rfl rfl rfl rfl rfl rfl,
    h.owned.congr rfl rfl rfl⟩

theorem WellFormed.answer {t : Nat} {status : EnqueueStatus} {firstPublishedSlot : Bool}
    (h : queue.WellFormed)
    (hp : queue.producers[p]? = some (.checkingHead t status firstPublishedSlot)) :
    ({ queue with returned := queue.returned ++ [(t, status)] } : Queue).WellFormed := by
  have hreports := h.owned.reports p _ t status hp rfl
  refine ⟨h.counted.congr rfl rfl rfl rfl rfl rfl rfl, h.ring.congr rfl rfl rfl rfl rfl rfl,
    ⟨h.owned.owners, h.owned.pending, h.owned.reports, fun u status' hu => ?_⟩⟩
  rcases List.mem_append.1 hu with hu | hu
  · exact h.owned.returned u status' hu
  · cases List.mem_singleton.1 hu
    exact hreports

theorem enqueue_wellFormed {entry : PendingLogEntry} (h : queue.WellFormed)
    (hp : queue.producers[p]? = some old) (hs : queue.enqueue p entry old = some next) :
    next.WellFormed := by
  cases old with
  | idle | returned =>
    cases hs
    exact h.move hp rfl (fun _ _ ht => by cases ht) (.inl rfl) rfl
  | loadingDepth | comparing | reserved | waiting | filling | publishing | counting
  | checkingHead => cases hs

theorem produce_wellFormed {fails : Bool} (h : queue.WellFormed)
    (hp : queue.producers[p]? = some old) (hs : queue.produce p fails old = some next) :
    next.WellFormed := by
  cases old with
  | idle | returned => cases hs
  | loadingDepth entry =>
    cases hs
    exact h.move hp rfl (fun _ _ ht => by cases ht) (.inl rfl) rfl
  | comparing entry depth =>
    cases hs
    exact reserveQueueDepth_wellFormed fails h hp
  | reserved entry =>
    cases hs
    exact takeTicket_wellFormed h hp
  | waiting entry ticket =>
    simp only [produce] at hs
    split at hs
    · cases hs
      exact h
    · cases hs
      exact h.move hp rfl (fun _ _ _ hagrees => hagrees) (.inl rfl) rfl
  | filling entry ticket =>
    cases hs
    exact fillSlot_wellFormed fails h hp
  | publishing ticket status =>
    cases hs
    exact publishSlot_wellFormed h hp
  | counting ticket status =>
    cases hs
    exact (h.count _).move hp rfl (fun _ _ ht => by cases ht)
      (.inr rfl) rfl
  | checkingHead ticket status firstPublishedSlot =>
    cases hs
    exact (h.answer hp).move hp rfl (fun _ _ ht => by cases ht)
      (.inl rfl) rfl

/-! ## The worker -/

/-- A step of the worker that neither empties nor hands on a slot. -/
theorem WellFormed.setWorker {worker : QueueWorker} (h : queue.WellFormed)
    (htaken : worker.stage.taken = queue.worker.stage.taken)
    (hfreed : worker.stage.freed = queue.worker.stage.freed)
    (hheld : worker.stage.held = queue.worker.stage.held)
    (hticket : ∀ ticket, worker.stage.ticket = some ticket →
      ticket = queue.dequeueTicket ∧ Published queue.history ticket) :
    ({ queue with worker } : Queue).WellFormed := by
  have hconsumed : ({ queue with worker } : Queue).consumed = queue.consumed := by
    unfold consumed
    rw [htaken]
  have hbase : ({ queue with worker } : Queue).base = queue.base := by
    unfold base
    rw [hfreed]
  refine ⟨h.counted.congr rfl rfl rfl rfl rfl hheld rfl,
    ⟨hticket, h.ring.past, h.ring.settled, ?_, ?_, ?_⟩, h.owned.congr rfl rfl rfl⟩
  · rw [hbase]
    exact h.ring.sequence
  · rw [hconsumed]
    exact h.ring.content
  · rw [hconsumed]
    exact h.ring.drained

theorem drain_wellFormed {batchSize : Nat} (h : queue.WellFormed)
    (hs : queue.drain batchSize = some next) : next.WellFormed := by
  unfold drain at hs
  split at hs
  · rename_i hidle
    cases hs
    exact h.setWorker (by rw [hidle]; rfl) (by rw [hidle]; rfl) (by rw [hidle]; rfl)
      fun _ ht => by cases ht
  · cases hs

/-- A slot whose sequence is past its ticket has been published. -/
theorem WellFormed.published_of_sequence (h : queue.WellFormed) {t : Nat} (hlo : queue.base ≤ t)
    (hhi : t < queue.base + queue.config.logRingSize) (hs : (queue.slot t).sequence = t + 1) :
    Published queue.history t := by
  by_contra hnot
  have := (h.ring.sequence t hlo hhi).2 hnot
  omega

theorem logRingSize_pos (config : QueueConfig) : 0 < config.logRingSize := by
  have := config.ring_eq
  have := config.soft_pos
  have := config.soft_le
  omega

theorem checkHead_wellFormed (h : queue.WellFormed) (hstage : queue.worker.stage = .checking) :
    queue.checkHead.WellFormed := by
  have hidle : (queue.setStage .idle).WellFormed :=
    h.setWorker (by rw [hstage]; rfl) (by rw [hstage]; rfl) (by rw [hstage]; rfl)
      fun _ ht => by cases ht
  have hbase : queue.base = queue.dequeueTicket := by
    unfold base
    rw [hstage]
    rfl
  have hring := logRingSize_pos queue.config
  unfold checkHead
  dsimp only
  split_ifs with hlimit hsequence
  · exact hidle
  · refine h.setWorker (by rw [hstage]; rfl) (by rw [hstage]; rfl) (by rw [hstage]; rfl)
      fun ticket hticket => ?_
    cases hticket
    exact ⟨rfl, h.published_of_sequence (by omega) (by omega) (not_not.1 hsequence)⟩
  · exact hidle

/-- What the slot of a published ticket holds is what the ticket delivers. -/
theorem WellFormed.delivery_eq (h : queue.WellFormed) {t : Nat} (ht : queue.consumed ≤ t)
    (hp : Published queue.history t) :
    delivery queue.config queue.history t =
      if !(queue.slot t).skip then some (t, (queue.slot t).entry) else none := by
  obtain ⟨issue, hissue, htrue⟩ := hp
  obtain ⟨status, hstatus⟩ := Option.isSome_iff_exists.1 (h.ring.settled t issue hissue htrue)
  have hcontent := h.ring.content t issue status ht hissue hstatus
  have heq : delivery queue.config queue.history t =
      if issue.status = some .queued then
        some (t, copyPendingEntryToQueueSlot issue.entry queue.config.maxMessageLength)
      else none := by
    rw [delivery, hissue]
    rfl
  rw [heq, hstatus]
  cases status with
  | queued =>
    obtain ⟨hskip, hentry⟩ := hcontent
    simp [hskip, hentry]
  | skipped | droppedSoft | droppedHard | allocationFailure =>
    have hskip : (queue.slot t).skip = true := hcontent
    simp [hskip]

theorem moveEntry_wellFormed {t : Nat} (h : queue.WellFormed)
    (hstage : queue.worker.stage = .moving t) : (queue.moveEntry t).WellFormed := by
  obtain ⟨hhead, hpublished⟩ := h.ring.worker t (by rw [hstage]; rfl)
  have hconsumed : queue.consumed = t := by
    unfold consumed
    rw [hstage, hhead]
    rfl
  have hbase : queue.base = t := by
    unfold base
    rw [hstage, hhead]
    rfl
  have hdelivery := h.delivery_eq (by omega) hpublished
  have hwindow := h.counted.window
  have hlength := h.counted.history
  -- the fields of the state after the step
  obtain ⟨worker, drained, hmoved, hworker, hdrained⟩ : ∃ worker drained,
      queue.moveEntry t = ({ queue with worker, drained } : Queue).setSlot t
        { queue.slot t with skip := false, entry := {} } ∧
      worker.stage = .storingSequence t ∧
      drained = queue.drained ++ (delivery queue.config queue.history t).toList := by
    unfold moveEntry
    rw [hdelivery]
    dsimp only
    cases hskip : (queue.slot t).skip with
    | true =>
      refine ⟨{ queue.worker with stage := .storingSequence t }, queue.drained, rfl, rfl, ?_⟩
      simp
    | false =>
      refine ⟨{ queue.worker with
        stage := .storingSequence t, batch := queue.worker.batch ++ [(queue.slot t).entry] },
        queue.drained ++ [(t, (queue.slot t).entry)], rfl, rfl, ?_⟩
      simp
  rw [hmoved]
  have hslot : ∀ u, u ≠ t → t ≤ u → u < t + queue.config.logRingSize →
      (({ queue with worker, drained } : Queue).setSlot t
        { queue.slot t with skip := false, entry := {} }).slot u = queue.slot u :=
    fun u hne hu hu' => slot_setSlot_window ({ queue with worker, drained } : Queue) t _ hne
      (Nat.le_refl t) (by show t < t + queue.config.logRingSize; omega) hu hu'
  have hconsumed' : (({ queue with worker, drained } : Queue).setSlot t
      { queue.slot t with skip := false, entry := {} }).consumed = t + 1 := by
    show queue.dequeueTicket + worker.stage.taken = t + 1
    rw [hworker, hhead]
    rfl
  have hbase' : (({ queue with worker, drained } : Queue).setSlot t
      { queue.slot t with skip := false, entry := {} }).base = t := by
    show queue.dequeueTicket + worker.stage.freed = t
    rw [hworker, hhead]
    rfl
  refine ⟨h.counted.congr rfl rfl rfl rfl rfl (by rw [hstage]; show worker.stage.held = _; rw [hworker]; rfl) rfl,
    ⟨?_, h.ring.past, h.ring.settled, ?_, ?_, ?_⟩, h.owned.congr rfl rfl rfl⟩
  · intro ticket hticket
    have hticket : worker.stage.ticket = some ticket := hticket
    rw [hworker] at hticket
    cases hticket
    exact ⟨hhead, hpublished⟩
  · rw [hbase']
    intro u hu hu'
    have hold := h.ring.sequence u (by omega) (by rw [hbase]; exact hu')
    by_cases hne : u = t
    · subst hne
      rw [slot_setSlot_self]
      exact hold
    · rw [hslot u hne hu hu']
      exact hold
  · rw [hconsumed']
    intro u issue status hu hissue hstatus
    have hlt := (List.getElem?_eq_some_iff.1 hissue).1
    have hlt' : u < queue.history.length := hlt
    rw [hslot u (by omega) (by omega) (by omega)]
    exact h.ring.content u issue status (by omega) hissue hstatus
  · rw [hconsumed']
    show drained = (List.range (t + 1)).filterMap (delivery queue.config queue.history)
    rw [hdrained, h.ring.drained, hconsumed, List.range_succ, List.filterMap_append,
      List.filterMap_cons]
    cases delivery queue.config queue.history t <;> rfl

/-- The slot is handed on to the ticket one round later, which has not been taken yet. -/
theorem storeSequence_wellFormed {t : Nat} (h : queue.WellFormed)
    (hstage : queue.worker.stage = .storingSequence t) :
    ((queue.setSlot t { queue.slot t with sequence := t + queue.config.logRingSize }).setStage
      (.storingTicket t)).WellFormed := by
  obtain ⟨hhead, hpublished⟩ := h.ring.worker t (by rw [hstage]; rfl)
  have hconsumed : queue.consumed = t + 1 := by
    unfold consumed
    rw [hstage, hhead]
    rfl
  have hbase : queue.base = t := by
    unfold base
    rw [hstage, hhead]
    rfl
  have hwindow := h.counted.window
  have hlength := h.counted.history
  have hring := logRingSize_pos queue.config
  have hslot : ∀ u, u ≠ t → t ≤ u → u < t + queue.config.logRingSize →
      ((queue.setSlot t { queue.slot t with sequence := t + queue.config.logRingSize }).setStage
        (.storingTicket t)).slot u = queue.slot u := fun u hne hu hu' =>
    slot_setSlot_window queue t _ hne (Nat.le_refl t) (by omega) hu hu'
  refine ⟨h.counted.congr rfl rfl rfl rfl rfl (by rw [hstage]; rfl) rfl,
    ⟨?_, h.ring.past, h.ring.settled, ?_, ?_, ?_⟩, h.owned.congr rfl rfl rfl⟩
  · intro ticket hticket
    cases hticket
    exact ⟨hhead, hpublished⟩
  · intro u hu hu'
    have hu : t + 1 ≤ u := hhead ▸ hu
    have hu' : u < t + 1 + queue.config.logRingSize := by
      rw [hhead]
      exact hu'
    by_cases hlast : u = t + queue.config.logRingSize
    · have hsame : ((queue.setSlot t
          { queue.slot t with sequence := t + queue.config.logRingSize }).setStage
            (.storingTicket t)).slot u =
          { queue.slot t with sequence := t + queue.config.logRingSize } := by
        rw [hlast]
        exact (slot_eq_of_mod (Nat.add_mod_right t _)).trans
          (slot_setSlot_self queue { queue.slot t with sequence := t + queue.config.logRingSize } t)
      rw [hsame]
      refine ⟨fun hpub => ?_, fun _ => hlast.symm⟩
      have := hpub.lt
      have : u < queue.history.length := hpub.lt
      omega
    · rw [hslot u (by omega) (by omega) (by omega)]
      exact h.ring.sequence u (by omega) (by omega)
  · intro u issue status hu hissue hstatus
    have hu : t + 1 ≤ u := hhead ▸ hu
    have hlt : u < queue.history.length := (List.getElem?_eq_some_iff.1 hissue).1
    rw [hslot u (by omega) (by omega) (by omega)]
    exact h.ring.content u issue status (by omega) hissue hstatus
  · have hdrained := h.ring.drained
    rw [hconsumed, hhead] at hdrained
    exact hdrained

theorem storeTicket_wellFormed {t : Nat} (h : queue.WellFormed)
    (hstage : queue.worker.stage = .storingTicket t) :
    (({ queue with dequeueTicket := t + 1 } : Queue).setStage .countingDown).WellFormed := by
  obtain ⟨hhead, hpublished⟩ := h.ring.worker t (by rw [hstage]; rfl)
  have hconsumed : queue.consumed = t + 1 := by
    unfold consumed
    rw [hstage, hhead]
    rfl
  have hbase : queue.base = t + 1 := by
    unfold base
    rw [hstage, hhead]
    rfl
  refine ⟨⟨?_, h.counted.bounded, h.counted.history⟩, ⟨nofun, ?_,
    h.ring.settled, ?_, ?_, ?_⟩, h.owned.congr rfl rfl rfl⟩
  · have hdepth := h.counted.depth
    rw [hstage] at hdepth
    show queue.queueDepth + (t + 1) = queue.enqueueTicket + queue.reserved + 1
    simp only [WorkerStage.held] at hdepth
    omega
  · exact fun u hu => h.ring.published_of_consumed (by rw [hconsumed]; exact hu)
  · intro u hu hu'
    exact h.ring.sequence u (by rw [hbase]; exact hu) (by rw [hbase]; exact hu')
  · intro u issue status hu
    exact h.ring.content u issue status (by rw [hconsumed]; exact hu)
  · rw [h.ring.drained, hconsumed]
    rfl

theorem release_wellFormed (h : queue.WellFormed) (hstage : queue.worker.stage = .releasing) :
    (({ queue with queueDepth := queue.queueDepth - 1 } : Queue).setStage .checking).WellFormed := by
  have hdepth := h.counted.depth
  have hconsumed := h.consumed_le
  have hbounded := h.counted.bounded
  have hworker : (queue.setStage .checking).RingKept := by
    refine ⟨nofun, h.ring.past, h.ring.settled, ?_, ?_, ?_⟩
    · have := h.ring.sequence
      unfold base at this
      rw [hstage] at this
      exact this
    · have := h.ring.content
      unfold consumed at this
      rw [hstage] at this
      exact this
    · have := h.ring.drained
      unfold consumed at this
      rw [hstage] at this
      exact this
  refine ⟨⟨?_, ?_, h.counted.history⟩, hworker.congr rfl rfl rfl rfl rfl rfl,
    h.owned.congr rfl rfl rfl⟩
  · unfold consumed at hconsumed
    rw [hstage] at hdepth hconsumed
    simp only [WorkerStage.held, WorkerStage.taken] at hdepth hconsumed
    show queue.queueDepth - 1 + queue.dequeueTicket = queue.enqueueTicket + queue.reserved + 0
    omega
  · show queue.queueDepth - 1 ≤ queue.config.hardQueueSize
    omega

theorem work_wellFormed (h : queue.WellFormed) (hs : queue.work = some next) :
    next.WellFormed := by
  unfold work at hs
  cases hstage : queue.worker.stage with
  | idle =>
    rw [hstage] at hs
    cases hs
  | checking =>
    rw [hstage] at hs
    cases hs
    exact checkHead_wellFormed h hstage
  | moving ticket =>
    rw [hstage] at hs
    cases hs
    exact moveEntry_wellFormed h hstage
  | storingSequence ticket =>
    rw [hstage] at hs
    cases hs
    exact storeSequence_wellFormed h hstage
  | storingTicket ticket =>
    rw [hstage] at hs
    cases hs
    exact storeTicket_wellFormed h hstage
  | countingDown =>
    rw [hstage] at hs
    cases hs
    exact (h.count _).setWorker
      (by show _ = queue.worker.stage.taken; rw [hstage]; rfl)
      (by show _ = queue.worker.stage.freed; rw [hstage]; rfl)
      (by show _ = queue.worker.stage.held; rw [hstage]; rfl) fun _ ht => by cases ht
  | releasing =>
    rw [hstage] at hs
    cases hs
    exact release_wellFormed h hstage

/-! ## Runs -/

theorem step_wellFormed (h : queue.WellFormed) {action : QueueAction}
    (hs : queueStep queue action = some next) : next.WellFormed := by
  cases action with
  | enqueue p entry =>
    obtain ⟨old, hp, hs⟩ := Option.bind_eq_some_iff.1 hs
    exact enqueue_wellFormed h hp hs
  | produce p fails =>
    obtain ⟨old, hp, hs⟩ := Option.bind_eq_some_iff.1 hs
    exact produce_wellFormed h hp hs
  | drain batchSize => exact drain_wellFormed h hs
  | work => exact work_wellFormed h hs

theorem initial_wellFormed (config : QueueConfig) (n : Nat) : (initial config n).WellFormed := by
  have hidle : ∀ {q : Nat} {producer : Producer}, (initial config n).producers[q]? = some producer →
      producer = .idle := fun hq => List.eq_of_mem_replicate (List.mem_of_getElem? hq)
  refine ⟨⟨?_, Nat.zero_le _, rfl⟩,
    ⟨nofun, nofun, nofun, fun t _ ht => ⟨?_, fun _ => ?_⟩, nofun, rfl⟩, ⟨?_, nofun, ?_, nofun⟩⟩
  · show 0 + 0 = 0 + total Producer.reservations (List.replicate n .idle) + 0
    simp [total, Producer.reservations]
  · rintro ⟨issue, hissue, -⟩
    cases hissue
  · exact Nat.mod_eq_of_lt (Nat.lt_of_lt_of_eq ht (Nat.zero_add _))
  · intro q producer t hq ht
    rw [hidle hq] at ht
    cases ht
  · intro q producer t status hq ht
    rw [hidle hq] at ht
    cases ht

/-- What holds of the queue between any two steps. A skipped slot is consumed like another: six
steps of the worker pass it. -/
structure Kept (queue : Queue) : Prop where
  depth : queue.queueDepth ≤ queue.config.hardQueueSize
  drained : queue.drained =
    (List.range queue.consumed).filterMap (delivery queue.config queue.history)
  once : (queue.drained.map Prod.fst).Pairwise (· < ·)
  returned : ∀ t status, (t, status) ∈ queue.returned →
    ∃ issue, queue.history[t]? = some issue ∧ issue.status = some status
  writers : ∀ (p : Nat) producer t, queue.producers[p]? = some producer → producer.owned = some t →
    ∀ u < t, u % queue.config.logRingSize = t % queue.config.logRingSize → u < queue.dequeueTicket
  readers : ∀ (p : Nat) producer t ticket, queue.producers[p]? = some producer →
    producer.owned = some t → queue.worker.stage.ticket = some ticket →
      t % queue.config.logRingSize ≠ ticket % queue.config.logRingSize
  waits : ∀ (p : Nat) entry t, queue.producers[p]? = some (.waiting entry t) →
    (queue.slot t).sequence = t
  passes : queue.worker.stage = .checking → queue.worker.batch.length < queue.worker.batchLimit →
    Published queue.history queue.dequeueTicket →
      ∃ r, Lib.run queueStep queue (List.replicate 6 .work) = some r ∧
        r.2.dequeueTicket = queue.dequeueTicket + 1 ∧ r.2.worker.stage = .checking ∧
        r.2.drained = queue.drained ++
          (delivery queue.config queue.history queue.dequeueTicket).toList ∧
        r.2.worker.batch = queue.worker.batch ++
          ((delivery queue.config queue.history queue.dequeueTicket).toList.map Prod.snd)

theorem delivery_fst {config : QueueConfig} {history : List Issue} {t : Nat}
    {record : Nat × QueuedLogEntry} (h : delivery config history t = some record) :
    record.1 = t := by
  obtain ⟨issue, -, hrecord⟩ := Option.bind_eq_some_iff.1 h
  split at hrecord
  · cases hrecord
    rfl
  · cases hrecord

/-- The deliveries of a range are in ticket order. -/
theorem delivery_pairwise (config : QueueConfig) (history : List Issue) (count : Nat) :
    (((List.range count).filterMap (delivery config history)).map Prod.fst).Pairwise (· < ·) := by
  rw [List.pairwise_map]
  refine List.Pairwise.filterMap (delivery config history) (fun t u hlt record hrecord other hother => ?_)
    List.pairwise_lt_range
  rw [delivery_fst hrecord, delivery_fst hother]
  exact hlt

theorem moveEntry_drained (queue : Queue) (t : Nat) : (queue.moveEntry t).drained = queue.drained ++
    (if !(queue.slot t).skip then some (t, (queue.slot t).entry) else none).toList := by
  unfold moveEntry
  dsimp only
  cases (queue.slot t).skip with
  | true => exact (List.append_nil _).symm
  | false => rfl

theorem moveEntry_batch (queue : Queue) (t : Nat) :
    (queue.moveEntry t).worker.batch = queue.worker.batch ++
      (if !(queue.slot t).skip then some (t, (queue.slot t).entry) else none).toList.map
        Prod.snd := by
  unfold moveEntry
  dsimp only
  cases (queue.slot t).skip with
  | true => exact (List.append_nil _).symm
  | false => rfl

theorem moveEntry_stage (queue : Queue) (t : Nat) :
    (queue.moveEntry t).worker.stage = .storingSequence t := rfl

/-- The worker hands an emptied slot on in four steps. -/
theorem run_handOn {t : Nat} (hstage : queue.worker.stage = .storingSequence t) :
    ∃ r, Lib.run queueStep queue (List.replicate 4 .work) = some r ∧
      r.2.dequeueTicket = t + 1 ∧ r.2.worker.stage = .checking ∧ r.2.drained = queue.drained ∧
      r.2.worker.batch = queue.worker.batch := by
  have hfirst : queueStep queue .work = some ((queue.setSlot t { queue.slot t with
      sequence := t + queue.config.logRingSize }).setStage (.storingTicket t)) := by
    show queue.work = _
    unfold work
    rw [hstage]
  rw [List.replicate_succ, Lib.run, hfirst, Option.bind_some]
  exact ⟨_, rfl, rfl, rfl, rfl, rfl⟩

theorem WellFormed.writers (h : queue.WellFormed) {t u : Nat}
    (hp : queue.producers[p]? = some old) (ht : old.owned = some t) (hlt : u < t)
    (hu : u % queue.config.logRingSize = t % queue.config.logRingSize) :
    u < queue.dequeueTicket := by
  obtain ⟨issue, hissue, -, hfalse, -⟩ := h.owned.owners p old t hp ht
  obtain ⟨hlo, hhi⟩ := h.outstanding hissue hfalse
  by_contra hge
  have := eq_of_mod_eq (by omega) (by omega) (by omega) hhi hu
  omega

theorem WellFormed.readers (h : queue.WellFormed) {t ticket : Nat}
    (hp : queue.producers[p]? = some old) (ht : old.owned = some t)
    (hticket : queue.worker.stage.ticket = some ticket) :
    t % queue.config.logRingSize ≠ ticket % queue.config.logRingSize := by
  obtain ⟨issue, hissue, -, hfalse, -⟩ := h.owned.owners p old t hp ht
  obtain ⟨hlo, hhi⟩ := h.outstanding hissue hfalse
  obtain ⟨rfl, other, hother, htrue⟩ := h.ring.worker ticket hticket
  have hring := logRingSize_pos queue.config
  have hle : queue.dequeueTicket ≤ queue.consumed := Nat.le_add_right _ _
  intro heq
  obtain rfl := eq_of_mod_eq (by omega) hhi (Nat.le_refl _) (by omega) heq
  rw [hissue] at hother
  cases hother
  rw [hfalse] at htrue
  cases htrue

/-- A published head is consumed, whether it is skipped or not. -/
theorem WellFormed.passes (h : queue.WellFormed) (hstage : queue.worker.stage = .checking)
    (hlimit : queue.worker.batch.length < queue.worker.batchLimit)
    (hpublished : Published queue.history queue.dequeueTicket) :
    ∃ r, Lib.run queueStep queue (List.replicate 6 .work) = some r ∧
      r.2.dequeueTicket = queue.dequeueTicket + 1 ∧ r.2.worker.stage = .checking ∧
      r.2.drained = queue.drained ++
        (delivery queue.config queue.history queue.dequeueTicket).toList ∧
      r.2.worker.batch = queue.worker.batch ++
        ((delivery queue.config queue.history queue.dequeueTicket).toList.map Prod.snd) := by
  have hbase : queue.base = queue.dequeueTicket := by
    unfold base
    rw [hstage]
    rfl
  have hconsumed : queue.consumed = queue.dequeueTicket := by
    unfold consumed
    rw [hstage]
    rfl
  have hring := logRingSize_pos queue.config
  have hsequence := (h.ring.sequence queue.dequeueTicket (by omega) (by omega)).1 hpublished
  have hdelivery := h.delivery_eq (by omega) hpublished
  have hfirst : queueStep queue .work = some (queue.setStage (.moving queue.dequeueTicket)) := by
    show queue.work = _
    unfold work checkHead
    rw [hstage]
    dsimp only
    rw [if_pos hlimit, if_neg (not_not.2 hsequence)]
  have hsecond : queueStep (queue.setStage (.moving queue.dequeueTicket)) .work =
      some ((queue.setStage (.moving queue.dequeueTicket)).moveEntry queue.dequeueTicket) := rfl
  obtain ⟨r, hr, hticket, hstage', hdrained, hbatch⟩ :=
    run_handOn (moveEntry_stage (queue.setStage (.moving queue.dequeueTicket)) queue.dequeueTicket)
  rw [hdelivery]
  refine ⟨_, Lib.run_cons hfirst (Lib.run_cons hsecond hr), hticket, hstage', ?_, ?_⟩
  · exact hdrained.trans (moveEntry_drained (queue.setStage (.moving queue.dequeueTicket)) _)
  · exact hbatch.trans (moveEntry_batch (queue.setStage (.moving queue.dequeueTicket)) _)

theorem WellFormed.kept (h : queue.WellFormed) : queue.Kept where
  depth := h.counted.bounded
  drained := h.ring.drained
  once := by
    rw [h.ring.drained]
    exact delivery_pairwise _ _ _
  returned t status ht := by
    obtain ⟨issue, hissue, -, hstatus⟩ := h.owned.returned t status ht
    exact ⟨issue, hissue, hstatus⟩
  writers _ _ _ hp ht _ hlt hu := h.writers hp ht hlt hu
  readers _ _ _ _ hp ht hticket := h.readers hp ht hticket
  waits p entry t hp := by
    obtain ⟨issue, hissue, -, hfalse, -⟩ := h.owned.owners p _ t hp rfl
    exact h.sequence_owned hissue hfalse
  passes := h.passes

end Queue

/-- **The queue delivers every record once, in ticket order**, and a slot has one user at a time, in
every interleaving of the producers and the worker. -/
theorem queueKept {config : QueueConfig} {n : Nat} {queue : Queue}
    {tr : List (Transition Queue QueueAction)} (h : Trace queueStep (.initial config n) tr queue) :
    queue.Kept ∧ ∀ x ∈ tr, x.pre.Kept ∧ x.post.Kept := by
  obtain ⟨hqueue, hall⟩ := h.invariant_of_step (Queue.initial_wellFormed config n)
    fun _ _ _ hi hs => Queue.step_wellFormed hi hs
  exact ⟨hqueue.kept, fun x hx => ⟨(hall x hx).1.kept, (hall x hx).2.kept⟩⟩

/-- One slot. -/
def smallConfig : QueueConfig where
  softQueueSize := 1
  hardQueueSize := 1
  logRingSize := 1
  maxMessageLength := 20
  soft_pos := Nat.le_refl 1
  soft_le := Nat.le_refl 1
  ring_eq := rfl

/-- A record that finds no memory, and one that reuses its slot. -/
def skipActions : List QueueAction :=
  .enqueue 0 { message := [0x61] } :: List.replicate 4 (.produce 0 false) ++
    .produce 0 true :: List.replicate 3 (.produce 0 false) ++ .drain 1 :: List.replicate 6 .work ++
    .enqueue 1 { message := [0x62] } :: List.replicate 8 (.produce 1 false) ++
    List.replicate 4 .work

theorem queueKept_skipActions :
    (Lib.run queueStep (.initial smallConfig 2) skipActions).map
      (fun r => (r.2.returned, r.2.drained.map fun record => (record.1, record.2.message))) =
        some ([(0, .allocationFailure), (1, .queued)], [(1, [0x62])]) ∧
    ∀ r, Lib.run queueStep (.initial smallConfig 2) skipActions = some r → r.2.Kept :=
  ⟨by decide +kernel, fun _ hr => (queueKept (Trace.of_run hr)).1⟩

end Logger

import GameWIP.Desktop.Proof.DragDropSlots

/-!
# The calls on a drop target's queue

`Enqueued` says all that `enqueueDragDropEvent` can do to the queued events; `popEvent_spec`,
`popEvents_spec` and `clearEvents_spec` say it of the other calls.
-/

namespace Desktop

namespace DragDrop

/-- The lists through the slots are consistent. -/
def WellFormed (state : DragDropState) : Prop := ∃ fifo free, Consistent state fifo free

/-- The capacity stays, and the counters advance. -/
structure Frame (s s' : DragDropState) (sequences drops : Nat) : Prop where
  capacity : s'.eventStorage.length = s.eventStorage.length
  nextSequence : s'.nextSequence = s.nextSequence + sequences
  droppedEvents : s'.droppedEvents = s.droppedEvents + drops

theorem Frame.refl (s : DragDropState) : Frame s s 0 0 := ⟨rfl, rfl, rfl⟩

theorem Frame.trans {s t u : DragDropState} (h₁ : Frame s t 0 0) (h₂ : Frame t u 0 0) :
    Frame s u 0 0 :=
  ⟨h₂.capacity.trans h₁.capacity, h₂.nextSequence.trans h₁.nextSequence,
    h₂.droppedEvents.trans h₁.droppedEvents⟩

theorem frame_removeSlot (s : DragDropState) (slot : Nat) : Frame s (removeSlot s slot) 0 0 := by
  refine ⟨Consistent.length_removeSlot, ?_, ?_⟩ <;>
    (unfold removeSlot; dsimp only; split <;> rfl)

/-! ## Enqueueing -/

/-- The event a payload is queued as. -/
def DragDropState.incoming (s : DragDropState) (data : EventPayload) : Event :=
  { sequence := s.nextSequence, data }

/-- The payload does not go into the last event. -/
def Fresh (s : DragDropState) (data : EventPayload) : Prop :=
  ∀ last ∈ s.events.getLast?, coalesced last (s.incoming data) = none

/-- The event between `l` and `r` is the first movement, or the first event when none moves. -/
def Oldest (l : List Event) (lost : Event) (r : List Event) : Prop :=
  (∀ e ∈ l, movement e = false) ∧
    (movement lost = true ∨ l = [] ∧ ∀ e ∈ lost :: r, movement e = false)

/-- What enqueueing a payload does. -/
inductive Enqueued (s : DragDropState) (data : EventPayload) (terminal : Bool) :
    Bool → DragDropState → Prop
  | coalesced {s' : DragDropState} (front : List Event) (last event : Event)
      (before : s.events = front ++ [last])
      (merge : DragDrop.coalesced last (s.incoming data) = some event)
      (after : s'.events = front ++ [event]) (frame : Frame s s' 1 0) :
      Enqueued s data terminal true s'
  | refused {s' : DragDropState} (fresh : Fresh s data)
      (full : s.events.length = s.eventStorage.length) (ordinary : terminal = false)
      (after : s'.events = s.events) (frame : Frame s s' 1 1) : Enqueued s data terminal false s'
  | queued {s' : DragDropState} (fresh : Fresh s data)
      (room : s.events.length < s.eventStorage.length)
      (after : s'.events = s.events ++ [s.incoming data]) (frame : Frame s s' 1 0) :
      Enqueued s data terminal true s'
  | evicted {s' : DragDropState} (l r : List Event) (lost : Event) (fresh : Fresh s data)
      (full : s.events.length = s.eventStorage.length) (final : terminal = true)
      (before : s.events = l ++ lost :: r) (oldest : Oldest l lost r)
      (after : s'.events = l ++ r ++ [s.incoming data]) (frame : Frame s s' 1 1) :
      Enqueued s data terminal true s'

section
variable {s : DragDropState} {data : EventPayload} {terminal : Bool} {fifo free : List Nat}

theorem movement_of_coalesced {last incoming event : Event}
    (h : coalesced last incoming = some event) :
    movement last = true ∧ movement incoming = true ∧ movement event = true := by
  unfold coalesced at h
  split at h
  · rename_i hlast hincoming
    split at h
    · obtain rfl := Option.some.inj h
      simp [movement, hlast, hincoming]
    · cases h
  · cases h

/-- The eviction picks the oldest event. -/
theorem exists_oldest (h : Consistent s fifo free) (hne : fifo ≠ []) :
    ∃ l₁ slot l₂, fifo = l₁ ++ slot :: l₂ ∧ (s.movement.head <|> s.queue.head) = some slot ∧
      Oldest (l₁.map s.slot) (s.slot slot) (l₂.map s.slot) := by
  have hhead := h.movementLinks.head
  rw [List.head?_filter] at hhead
  cases hfind : fifo.find? fun slot => movement (s.slot slot) with
  | some slot =>
    rw [hfind] at hhead
    obtain ⟨hmoved, l₁, l₂, hsplit, hbefore⟩ := List.find?_eq_some_iff_append.1 hfind
    refine ⟨l₁, slot, l₂, hsplit, by rw [hhead]; rfl, ?_, .inl hmoved⟩
    simpa using hbefore
  | none =>
    rw [hfind] at hhead
    obtain ⟨slot, rest, rfl⟩ := List.exists_cons_of_ne_nil hne
    have hstill := List.find?_eq_none.1 hfind
    refine ⟨[], slot, rest, rfl, by rw [hhead, h.queueLinks.head]; rfl, nofun, .inr ⟨rfl, ?_⟩⟩
    simpa using hstill

/-- A queue with room has a free slot for the event. -/
theorem append_spec (h : Consistent s fifo free) (hroom : fifo.length < s.eventStorage.length)
    (event : Event) :
    ∃ slot, s.freeHead = some slot ∧ WellFormed (appendFree s slot event) ∧
      (appendFree s slot event).events = fifo.map s.slot ++ [event] ∧
      Frame s (appendFree s slot event) 0 0 := by
  have hlength := h.length_add
  cases free with
  | nil =>
    rw [List.length_nil] at hlength
    omega
  | cons slot free =>
    have hlt : slot < s.eventStorage.length := h.mem_iff.1 (.inr List.mem_cons_self)
    refine ⟨slot, h.freeLinks.1, ⟨_, _, h.appendFree⟩, h.events_appendFree, ?_⟩
    rw [Consistent.appendFree_eq hlt]
    exact ⟨List.length_set, rfl, rfl⟩

/-- The payload goes into the last event, or it is fresh. -/
theorem merge_cases (h : Consistent s fifo free) (data : EventPayload) :
    (∃ front tail event, fifo = front ++ [tail] ∧ s.queue.tail = some tail ∧
      coalesced (s.slot tail) (s.incoming data) = some event) ∨
    (s.queue.tail.bind fun tail => (coalesced (s.slot tail) (s.incoming data)).map (tail, ·)) = none ∧
      Fresh s data := by
  have htail := h.queueLinks.tail
  unfold Fresh
  rw [h.events_eq]
  rcases List.eq_nil_or_concat' fifo with rfl | ⟨front, tail, rfl⟩
  · rw [htail]
    exact .inr ⟨rfl, nofun⟩
  · rw [List.getLast?_concat] at htail
    cases hmerge : coalesced (s.slot tail) (s.incoming data) with
    | some event => exact .inl ⟨front, tail, event, rfl, htail, hmerge⟩
    | none =>
      refine .inr ⟨?_, fun last hlast => ?_⟩
      · rw [htail, Option.bind_some, hmerge]
        rfl
      · rw [List.map_append, List.map_singleton, List.getLast?_concat] at hlast
        rwa [← Option.some.inj hlast]

/-- **Enqueueing.** -/
theorem enqueue_spec (h : WellFormed s) (hpos : 0 < s.eventStorage.length) (data : EventPayload)
    (terminal : Bool) :
    WellFormed (enqueueDragDropEvent s data terminal).2 ∧
      Enqueued s data terminal (enqueueDragDropEvent s data terminal).1
        (enqueueDragDropEvent s data terminal).2 := by
  obtain ⟨fifo, free, h⟩ := h
  have hnonempty : s.eventStorage.isEmpty = false := by
    rw [List.isEmpty_eq_false_iff]
    exact List.ne_nil_of_length_pos hpos
  have hlength := h.length_events
  have hnext := h.counters (s.nextSequence + 1) s.droppedEvents
  unfold enqueueDragDropEvent
  rw [hnonempty, if_neg Bool.false_ne_true]
  dsimp only
  rcases merge_cases h data with ⟨front, tail, event, rfl, htail, hmerge⟩ | ⟨hnone, hfresh⟩
  · have hfound : (s.queue.tail.bind fun tail => (coalesced
        ({ s with nextSequence := s.nextSequence + 1 }.slot tail)
        { sequence := s.nextSequence, data }).map (tail, ·)) = some (tail, event) := by
      rw [htail, Option.bind_some]
      exact congrArg (Option.map _) hmerge
    rw [hfound]
    obtain ⟨hlast, -, hevent⟩ := movement_of_coalesced hmerge
    have hset : Consistent ({ s with nextSequence := s.nextSequence + 1 }.setSlot tail event)
        (front ++ [tail]) free := hnext.setSlot (hevent.trans hlast.symm)
    refine ⟨⟨_, _, hset⟩, .coalesced (front.map s.slot) (s.slot tail) event ?_ hmerge ?_ ⟨?_, rfl, rfl⟩⟩
    · rw [h.events_eq, List.map_append, List.map_singleton]
    · exact hnext.events_setSlot (hevent.trans hlast.symm)
    · exact List.length_set
  · have hnothing : (s.queue.tail.bind fun tail => (coalesced
        ({ s with nextSequence := s.nextSequence + 1 }.slot tail)
        { sequence := s.nextSequence, data }).map (tail, ·)) = none := hnone
    rw [hnothing]
    dsimp only
    by_cases hfull : s.eventCount = s.eventStorage.length
    · cases terminal with
      | false =>
        rw [if_pos (by simp [hfull])]
        have hcounted := h.counters (s.nextSequence + 1) (s.droppedEvents + 1)
        refine ⟨⟨_, _, hcounted⟩, .refused hfresh (hlength.trans hfull) rfl ?_ ⟨rfl, rfl, rfl⟩⟩
        rw [hcounted.events_eq, h.events_eq]
        rfl
      | true =>
        have hne : fifo ≠ [] := by
          rintro rfl
          have := h.count
          rw [List.length_nil] at this
          omega
        obtain ⟨l₁, oldest, l₂, rfl, hhead, holdest⟩ := exists_oldest h hne
        rw [if_neg (by simp), if_pos hfull, hhead]
        dsimp only
        have hframe := frame_removeSlot { s with nextSequence := s.nextSequence + 1 } oldest
        have hremoved := hnext.removeSlot
        have hevents := hremoved.events_eq.symm.trans hnext.events_removeSlot
        generalize removeSlot { s with nextSequence := s.nextSequence + 1 } oldest = kept at *
        have hcapacity : kept.eventStorage.length = s.eventStorage.length := hframe.capacity
        have hroom : (l₁ ++ l₂).length < kept.eventStorage.length := by
          rw [hcapacity, ← hfull, h.count]
          simp
        obtain ⟨slot, hslot, hwell, hafter, hadded⟩ := append_spec
          (hremoved.counters kept.nextSequence (kept.droppedEvents + 1)) hroom (s.incoming data)
        rw [hslot]
        refine ⟨hwell, .evicted (l₁.map s.slot) (l₂.map s.slot) (s.slot oldest) hfresh
          (hlength.trans hfull) rfl ?_ holdest ?_ ⟨?_, ?_, ?_⟩⟩
        · rw [h.events_eq, List.map_append, List.map_cons]
        · exact hafter.trans (congrArg (· ++ _) hevents)
        · exact hadded.capacity.trans hcapacity
        · exact hadded.nextSequence.trans hframe.nextSequence
        · exact hadded.droppedEvents.trans (congrArg (· + 1) hframe.droppedEvents)
    · have hroom : fifo.length < s.eventStorage.length := by
        have := h.length_add
        rw [h.count] at hfull
        omega
      obtain ⟨slot, hslot, hwell, hafter, hframe⟩ := append_spec hnext hroom (s.incoming data)
      rw [if_neg (by simp [hfull]), if_neg hfull, hslot]
      refine ⟨hwell, .queued hfresh (by rwa [hlength, h.count]) ?_ ?_⟩
      · rw [h.events_eq]
        exact hafter
      · exact ⟨hframe.capacity, hframe.nextSequence, hframe.droppedEvents⟩

end

/-! ## Popping and clearing -/

@[simp] theorem movement_movedFrom (event : Event) :
    movement event.movedFrom = movement event := by
  obtain ⟨sequence, data⟩ := event
  cases data <;> rfl

theorem popEvent_spec {s : DragDropState} (h : WellFormed s) :
    WellFormed (popEvent s).2 ∧ Frame s (popEvent s).2 0 0 ∧
      s.events = (popEvent s).1.toList ++ (popEvent s).2.events ∧
      ((popEvent s).1 = none → s.events = []) := by
  obtain ⟨fifo, free, h⟩ := h
  unfold popEvent
  by_cases hcount : s.eventCount = 0
  · rw [if_pos hcount]
    refine ⟨⟨fifo, free, h⟩, .refl s, rfl, fun _ => ?_⟩
    exact List.length_eq_zero_iff.1 (h.length_events.trans hcount)
  · rw [if_neg hcount]
    cases fifo with
    | nil => exact absurd h.count hcount
    | cons index rest =>
      have hhead : s.queue.head = some index := h.queueLinks.head
      have hset : Consistent (s.setSlot index (s.slot index).movedFrom) ([] ++ index :: rest) free :=
        h.setSlot (movement_movedFrom _)
      have hevents := hset.events_removeSlot
      have hframe := frame_removeSlot (s.setSlot index (s.slot index).movedFrom) index
      rw [hhead]
      refine ⟨⟨_, _, hset.removeSlot⟩, ⟨?_, hframe.nextSequence, hframe.droppedEvents⟩, ?_, nofun⟩
      · exact hframe.capacity.trans List.length_set
      · have hrest : rest.map (s.setSlot index (s.slot index).movedFrom).slot = rest.map s.slot := by
          refine List.map_congr_left fun other hmem => Consistent.slot_setSlot_ne ?_
          rintro rfl
          exact (List.nodup_cons.1 h.queueLinks.nodup).1 hmem
        rw [hevents, h.events_eq, hrest]
        rfl

theorem popEvents_spec (size : Nat) {s : DragDropState} (h : WellFormed s) :
    WellFormed (popEvents size s).2 ∧ Frame s (popEvents size s).2 0 0 ∧
      s.events = (popEvents size s).1 ++ (popEvents size s).2.events := by
  induction size generalizing s with
  | zero => exact ⟨h, .refl s, rfl⟩
  | succ size ih =>
    obtain ⟨hwell, hframe, hevents, -⟩ := popEvent_spec h
    unfold popEvents
    generalize popEvent s = popped at hwell hframe hevents
    obtain ⟨out, s'⟩ := popped
    cases out with
    | none => exact ⟨hwell, hframe, hevents⟩
    | some event =>
      obtain ⟨hrest, hrestFrame, hrestEvents⟩ := ih hwell
      refine ⟨hrest, hframe.trans hrestFrame, ?_⟩
      rw [hevents, hrestEvents]
      rfl

theorem clearFrom_spec (fuel : Nat) {s : DragDropState} {fifo free : List Nat}
    (h : Consistent s fifo free) (hfuel : fifo.length ≤ fuel) :
    ∃ free, Consistent (clearFrom fuel s) [] free ∧ Frame s (clearFrom fuel s) 0 0 := by
  induction fuel generalizing s fifo free with
  | zero =>
    obtain rfl := List.length_eq_zero_iff.1 (Nat.le_zero.1 hfuel)
    exact ⟨free, h, .refl s⟩
  | succ fuel ih =>
    unfold clearFrom
    rw [h.queueLinks.head]
    cases fifo with
    | nil => exact ⟨free, h, .refl s⟩
    | cons slot rest =>
      have hremoved : Consistent (removeSlot s slot) ([] ++ rest) (slot :: free) := h.removeSlot
      obtain ⟨free, hcleared, hframe⟩ := ih hremoved (Nat.le_of_succ_le_succ hfuel)
      exact ⟨free, hcleared, (frame_removeSlot s slot).trans hframe⟩

/-- Clearing ends with the queue empty. -/
theorem clearEvents_spec {s : DragDropState} (h : WellFormed s) :
    WellFormed (clearEvents s) ∧ Frame s (clearEvents s) 0 0 ∧ (clearEvents s).events = [] := by
  obtain ⟨fifo, free, h⟩ := h
  have hlength := h.length_add
  obtain ⟨free, hcleared, hframe⟩ := clearFrom_spec s.eventStorage.length h (by omega)
  exact ⟨⟨_, _, hcleared⟩, hframe, hcleared.events_eq⟩

end DragDrop

end Desktop

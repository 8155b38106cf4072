import GameWIP.Desktop.DragDrop

/-!
# The slots of a drop target's queue

`Consistent state fifo free`: the FIFO list and the movement list hold what they say, and every slot
is queued or free. Removing, appending and replacing keep it (`Consistent.removeSlot`,
`Consistent.append`, `Consistent.setSlot`), and say what becomes of the queued events.
-/

namespace Desktop

namespace DragDrop

open Lib (Links Stacked)

/-- The lists through the slots. -/
structure Consistent (state : DragDropState) (fifo free : List Nat) : Prop where
  queueLinks : state.queue.Holds fifo
  movementLinks : state.movement.Holds (fifo.filter fun slot => movement (state.slot slot))
  freeLinks : Stacked state.freeNext state.freeHead free
  slots : (fifo ++ free).Perm (List.range state.eventStorage.length)
  count : state.eventCount = fifo.length
  queueNext : state.queue.next.length = state.eventStorage.length
  queuePrevious : state.queue.previous.length = state.eventStorage.length
  movementNext : state.movement.next.length = state.eventStorage.length
  movementPrevious : state.movement.previous.length = state.eventStorage.length
  freeNext : state.freeNext.length = state.eventStorage.length

/-- The top of the free stack is taken and appended. -/
def appendFree (state : DragDropState) (slot : Nat) (event : Event) : DragDropState :=
  appendSlot { state with
    freeHead := (state.freeNext[slot]?).join
    freeNext := state.freeNext.set slot none } slot event

namespace Consistent

variable {state : DragDropState} {fifo free l₁ l₂ : List Nat} {slot : Nat} {event : Event}

theorem mem_iff (h : Consistent state fifo free) :
    slot ∈ fifo ∨ slot ∈ free ↔ slot < state.eventStorage.length := by
  rw [← List.mem_append, h.slots.mem_iff, List.mem_range]

theorem lt_length (h : Consistent state fifo free) (hmem : slot ∈ fifo) :
    slot < state.eventStorage.length :=
  h.mem_iff.1 (.inl hmem)

theorem nodup (h : Consistent state fifo free) : (fifo ++ free).Nodup :=
  h.slots.nodup_iff.2 List.nodup_range

theorem length_add (h : Consistent state fifo free) :
    fifo.length + free.length = state.eventStorage.length := by
  simpa using h.slots.length_eq

/-! ## The queued events -/

theorem eventsFrom_eq (h : state.queue.Holds (l₁ ++ l₂)) :
    eventsFrom state l₂.length l₂.head? = l₂.map state.slot := by
  induction l₂ generalizing l₁ with
  | nil => rfl
  | cons slot l₂ ih =>
    have hnext := h.nextOf
    rw [List.append_cons] at h
    rw [List.length_cons, List.head?_cons, eventsFrom, hnext, ih h, List.map_cons]

theorem events_eq (h : Consistent state fifo free) : state.events = fifo.map state.slot := by
  rw [DragDropState.events, h.count, h.queueLinks.head]
  exact eventsFrom_eq (show state.queue.Holds ([] ++ fifo) from h.queueLinks)

theorem length_events (h : Consistent state fifo free) : state.events.length = state.eventCount := by
  rw [h.events_eq, h.count, List.length_map]

/-! ## Slots -/

theorem slot_setSlot_self (hlt : slot < state.eventStorage.length) :
    (state.setSlot slot event).slot slot = event := by
  simp [DragDropState.slot, DragDropState.setSlot, List.getD_eq_getElem?_getD, hlt]

theorem slot_setSlot_ne {other : Nat} (hne : slot ≠ other) :
    (state.setSlot slot event).slot other = state.slot other := by
  simp [DragDropState.slot, DragDropState.setSlot, List.getD_eq_getElem?_getD, hne]

/-- An event gives way to one of its kind. -/
theorem setSlot (h : Consistent state fifo free)
    (hkind : movement event = movement (state.slot slot)) :
    Consistent (state.setSlot slot event) fifo free := by
  have hslot : ∀ other, movement ((state.setSlot slot event).slot other) =
      movement (state.slot other) := by
    intro other
    by_cases heq : slot = other
    · subst heq
      by_cases hlt : slot < state.eventStorage.length
      · rw [slot_setSlot_self hlt, hkind]
      · rw [DragDropState.setSlot, List.set_eq_of_length_le (Nat.le_of_not_lt hlt)]
    · rw [slot_setSlot_ne heq]
  have hlength : (state.setSlot slot event).eventStorage.length = state.eventStorage.length :=
    List.length_set
  refine ⟨h.queueLinks, ?_, h.freeLinks, ?_, h.count, ?_, ?_, ?_, ?_, ?_⟩
  · simp only [hslot]
    exact h.movementLinks
  · rw [hlength]
    exact h.slots
  all_goals rw [hlength]
  · exact h.queueNext
  · exact h.queuePrevious
  · exact h.movementNext
  · exact h.movementPrevious
  · exact h.freeNext

theorem events_setSlot (h : Consistent state (l₁ ++ slot :: l₂) free)
    (hkind : movement event = movement (state.slot slot)) :
    (state.setSlot slot event).events = l₁.map state.slot ++ event :: l₂.map state.slot := by
  have hnotMem := (List.nodup_middle.1 h.queueLinks.nodup).notMem
  have hsame : ∀ l : List Nat, slot ∉ l → l.map (state.setSlot slot event).slot = l.map state.slot := by
    intro l hl
    refine List.map_congr_left fun other hmem => slot_setSlot_ne ?_
    rintro rfl
    exact hl hmem
  rw [(h.setSlot hkind).events_eq, List.map_append, List.map_cons,
    slot_setSlot_self (h.lt_length (by simp)), hsame l₁ (fun hmem => hnotMem (by simp [hmem])),
    hsame l₂ (fun hmem => hnotMem (by simp [hmem]))]

/-! ## Removing a slot -/

theorem slot_removeSlot {other : Nat} (hne : slot ≠ other) :
    (removeSlot state slot).slot other = state.slot other := by
  unfold removeSlot
  dsimp only
  split <;> exact slot_setSlot_ne hne

@[simp] theorem length_removeSlot :
    (removeSlot state slot).eventStorage.length = state.eventStorage.length := by
  unfold removeSlot
  dsimp only
  split <;> exact List.length_set

/-- The movements among the slots that stay. -/
theorem movementLinks_removeSlot (h : Consistent state (l₁ ++ slot :: l₂) free) :
    (removeSlot state slot).movement.Holds
      ((l₁ ++ l₂).filter fun other => movement (state.slot other)) := by
  have hlinks := h.movementLinks
  rw [List.filter_append] at hlinks ⊢
  by_cases hmoved : movement (state.slot slot) = true
  · have hkept : (removeSlot state slot).movement = state.movement.unlink slot := by
      simp [removeSlot, hmoved, unlinkMovement, DragDropState.setSlot]
    rw [List.filter_cons, if_pos hmoved] at hlinks
    rw [hkept]
    exact hlinks.unlink
  · have hkept : (removeSlot state slot).movement = state.movement := by
      simp [removeSlot, hmoved, DragDropState.setSlot]
    rw [List.filter_cons, if_neg hmoved] at hlinks
    rwa [hkept]

/-- **Removing.** -/
theorem removeSlot (h : Consistent state (l₁ ++ slot :: l₂) free) :
    Consistent (removeSlot state slot) (l₁ ++ l₂) (slot :: free) := by
  have hnodup := h.nodup
  have hne : ∀ other ∈ l₁ ++ l₂, slot ≠ other := by
    rintro other hmem rfl
    exact (List.nodup_middle.1 h.queueLinks.nodup).notMem hmem
  have hfree : slot ∉ free := by
    intro hmem
    exact (List.nodup_append.1 hnodup).2.2 slot (by simp) slot hmem rfl
  have hslot : slot < state.eventStorage.length := h.lt_length (by simp)
  have hmovement : (DragDrop.removeSlot state slot).movement.next.length =
        state.movement.next.length ∧
      (DragDrop.removeSlot state slot).movement.previous.length =
        state.movement.previous.length := by
    unfold DragDrop.removeSlot unlinkMovement
    dsimp only
    split <;> simp [DragDropState.setSlot]
  have hrest : (DragDrop.removeSlot state slot).queue = state.queue.unlink slot ∧
      (DragDrop.removeSlot state slot).freeNext = state.freeNext.set slot state.freeHead ∧
      (DragDrop.removeSlot state slot).freeHead = some slot ∧
      (DragDrop.removeSlot state slot).eventCount = state.eventCount - 1 := by
    unfold DragDrop.removeSlot unlinkMovement
    dsimp only
    split <;> exact ⟨rfl, rfl, rfl, rfl⟩
  obtain ⟨hqueue, hfreeNext, hfreeHead, hcount⟩ := hrest
  refine ⟨?_, ?_, ?_, ?_, ?_, ?_, ?_, ?_, ?_, ?_⟩
  · rw [hqueue]
    exact h.queueLinks.unlink
  · have hsame : ((l₁ ++ l₂).filter fun other =>
        movement ((DragDrop.removeSlot state slot).slot other)) =
        (l₁ ++ l₂).filter fun other => movement (state.slot other) :=
      List.filter_congr fun other hmem => by rw [slot_removeSlot (hne other hmem)]
    rw [hsame]
    exact h.movementLinks_removeSlot
  · rw [hfreeNext, hfreeHead]
    exact h.freeLinks.push hfree (h.freeNext ▸ hslot)
  · rw [length_removeSlot]
    refine List.Perm.trans ?_ h.slots
    rw [List.append_assoc, List.append_assoc]
    exact List.perm_append_comm_assoc l₂ [slot] free |>.append_left l₁
  · rw [hcount, h.count]
    simp
  · rw [hqueue, Links.length_next_unlink, h.queueNext, length_removeSlot]
  · rw [hqueue, Links.length_previous_unlink, h.queuePrevious, length_removeSlot]
  · rw [hmovement.1, h.movementNext, length_removeSlot]
  · rw [hmovement.2, h.movementPrevious, length_removeSlot]
  · rw [hfreeNext, List.length_set, h.freeNext, length_removeSlot]

theorem events_removeSlot (h : Consistent state (l₁ ++ slot :: l₂) free) :
    (DragDrop.removeSlot state slot).events = l₁.map state.slot ++ l₂.map state.slot := by
  rw [h.removeSlot.events_eq, ← List.map_append]
  refine List.map_congr_left fun other hmem => slot_removeSlot ?_
  rintro rfl
  exact (List.nodup_middle.1 h.queueLinks.nodup).notMem hmem

/-! ## Appending a slot -/

theorem appendFree_eq (hlt : slot < state.eventStorage.length) :
    appendFree state slot event = { state with
      eventStorage := state.eventStorage.set slot event
      queue := state.queue.pushBack slot
      movement := if movement event then state.movement.pushBack slot else state.movement
      freeHead := (state.freeNext[slot]?).join
      freeNext := state.freeNext.set slot none
      eventCount := state.eventCount + 1 } := by
  by_cases hmoved : movement event = true <;>
    simp [appendFree, appendSlot, DragDropState.setSlot, DragDropState.slot,
      List.getD_eq_getElem?_getD, hlt, hmoved]

/-- **Appending.** -/
theorem appendFree (h : Consistent state fifo (slot :: free)) :
    Consistent (DragDrop.appendFree state slot event) (fifo ++ [slot]) free := by
  have hnodup := h.nodup
  have hfifo : slot ∉ fifo := fun hmem =>
    (List.nodup_append.1 hnodup).2.2 slot hmem slot List.mem_cons_self rfl
  have hfree : slot ∉ free := (List.nodup_cons.1 (List.nodup_append.1 hnodup).2.1).1
  have hslot : slot < state.eventStorage.length := h.mem_iff.1 (.inr List.mem_cons_self)
  have hself : (state.setSlot slot event).slot slot = event := slot_setSlot_self hslot
  rw [appendFree_eq hslot]
  have hmovers : (fifo ++ [slot]).filter (fun other =>
      movement ((state.setSlot slot event).slot other)) =
      fifo.filter (fun other => movement (state.slot other)) ++
        if movement event then [slot] else [] := by
    rw [List.filter_append]
    congr 1
    · refine List.filter_congr fun other hmem => ?_
      rw [slot_setSlot_ne]
      rintro rfl
      exact hfifo hmem
    · rw [List.filter_cons, hself]
      rfl
  refine ⟨h.queueLinks.pushBack hfifo (h.queueNext ▸ hslot) (h.queuePrevious ▸ hslot), ?_,
    (h.freeLinks.pop hfree).2, ?_, ?_, ?_, ?_, ?_, ?_, ?_⟩
  · refine hmovers ▸ ?_
    dsimp only
    split
    · exact h.movementLinks.pushBack (fun hmem => hfifo (List.mem_of_mem_filter hmem))
        (h.movementNext ▸ hslot) (h.movementPrevious ▸ hslot)
    · rw [List.append_nil]
      exact h.movementLinks
  · simpa using h.slots
  · simpa using h.count
  · simpa using h.queueNext
  · simpa using h.queuePrevious
  · have := h.movementNext
    dsimp only
    split <;> simpa
  · have := h.movementPrevious
    dsimp only
    split <;> simpa
  · simpa using h.freeNext

theorem events_appendFree (h : Consistent state fifo (slot :: free)) :
    (DragDrop.appendFree state slot event).events = fifo.map state.slot ++ [event] := by
  have hslot : slot < state.eventStorage.length := h.mem_iff.1 (.inr List.mem_cons_self)
  have hsame : (DragDrop.appendFree state slot event).slot = (state.setSlot slot event).slot := by
    rw [appendFree_eq hslot]
    rfl
  rw [h.appendFree.events_eq, List.map_append, List.map_singleton, hsame, slot_setSlot_self hslot]
  congr 1
  refine List.map_congr_left fun other hmem => ?_
  rw [slot_setSlot_ne]
  rintro rfl
  exact (List.nodup_append.1 h.nodup).2.2 slot hmem slot List.mem_cons_self rfl

/-! ## What the lists do not read -/

/-- The counters are free. -/
theorem counters (h : Consistent state fifo free) (sequence drops : Nat) :
    Consistent { state with nextSequence := sequence, droppedEvents := drops } fifo free :=
  ⟨h.queueLinks, h.movementLinks, h.freeLinks, h.slots, h.count, h.queueNext, h.queuePrevious,
    h.movementNext, h.movementPrevious, h.freeNext⟩

/-! ## The empty queue -/

theorem initial (eventStorage : List Event) :
    Consistent (.initial eventStorage) [] (List.range eventStorage.length) where
  queueLinks := Links.holds_empty _
  movementLinks := Links.holds_empty _
  freeLinks := by
    have hstack : Stacked (DragDropState.initial eventStorage).freeNext
        (if 0 < eventStorage.length then some 0 else none) (List.range' 0 eventStorage.length) :=
      Stacked.of_successors (by simp) (by
        intro i hi
        simp [DragDropState.initial, initializeDragDropEventQueue, hi])
    rw [List.range_eq_range']
    convert hstack using 1
    simp only [DragDropState.initial, initializeDragDropEventQueue]
    split_ifs <;> first | rfl | omega
  slots := List.Perm.refl _
  count := rfl
  queueNext := List.length_replicate
  queuePrevious := List.length_replicate
  movementNext := List.length_replicate
  movementPrevious := List.length_replicate
  freeNext := by simp [DragDropState.initial, initializeDragDropEventQueue]

end Consistent

end DragDrop

end Desktop

import GameWIP.Desktop.Events
import GameWIP.Lib.Numbered
import GameWIP.Lib.SortedTable
import GameWIP.Lib.Trace

/-!
# The event queue keeps what it took in

`Enqueued` says once what an enqueue can do to the queued events. From it follow the accounts of a
run (`Accounts`): what has been popped and what is queued is in the order of the sequence numbers; a
durable event is missing from it exactly when it was cleared or gave way to `NativeDestroyed`; every
event refused or pushed out is counted.

A consumer that applies what it pops has the values last published (`Faithful`): a coalesced payload
changes its own value only and stands behind no durable event, and a scale change that is taken out
would have changed nothing.
-/

namespace Desktop

namespace Events

open Lib (Trace Transition)

/-! ## Floating-point equality -/

theorem Binary32.beq_iff {a b : Binary32} :
    (a == b) = true ↔ a.isNaN = false ∧ b.isNaN = false ∧
      (a.bits = b.bits ∨ a.magnitude = 0 ∧ b.magnitude = 0) := by
  show (!a.isNaN && !b.isNaN && (a.bits = b.bits || (a.magnitude = 0 && b.magnitude = 0))) = true ↔ _
  simp [and_assoc]

instance : PartialEquivBEq Binary32 where
  symm {a b} h := by
    obtain ⟨ha, hb, heq⟩ := Binary32.beq_iff.1 h
    exact Binary32.beq_iff.2 ⟨hb, ha, heq.imp Eq.symm And.symm⟩
  trans {a b c} hab hbc := by
    obtain ⟨ha, hb, heq⟩ := Binary32.beq_iff.1 hab
    obtain ⟨-, hc, heq'⟩ := Binary32.beq_iff.1 hbc
    refine Binary32.beq_iff.2 ⟨ha, hc, ?_⟩
    -- the magnitude of a number is read off its bits
    have hmagnitude : ∀ {x y : Binary32}, x.bits = y.bits → x.magnitude = y.magnitude :=
      fun h => congrArg (· &&& 0x7FFFFFFF) h
    rcases heq with heq | heq <;> rcases heq' with heq' | heq'
    · exact .inl (heq.trans heq')
    · exact .inr ⟨(hmagnitude heq).trans heq'.1, heq'.2⟩
    · exact .inr ⟨heq.1, (hmagnitude heq').symm.trans heq.2⟩
    · exact .inr ⟨heq.1, heq'.2⟩

instance : PartialEquivBEq ContentScale where
  symm {a b} h := by
    obtain ⟨hx, hy⟩ := (Bool.and_eq_true _ _ ▸ h : (a.x == b.x) = true ∧ (a.y == b.y) = true)
    exact (Bool.and_eq_true _ _).symm ▸ ⟨PartialEquivBEq.symm hx, PartialEquivBEq.symm hy⟩
  trans {a b c} hab hbc := by
    obtain ⟨hx, hy⟩ := (Bool.and_eq_true _ _ ▸ hab : (a.x == b.x) = true ∧ (a.y == b.y) = true)
    obtain ⟨hx', hy'⟩ := (Bool.and_eq_true _ _ ▸ hbc : (b.x == c.x) = true ∧ (b.y == c.y) = true)
    exact (Bool.and_eq_true _ _).symm ▸ ⟨PartialEquivBEq.trans hx hx', PartialEquivBEq.trans hy hy'⟩

/-! ## What an enqueue does -/

variable {state : WindowState} {data : Payload}

/-- The queued events, oldest first. -/
abbrev WindowState.events (state : WindowState) : List Event := state.queue.contents

/-- The event that an enqueue makes of a payload. -/
abbrev WindowState.newEvent (state : WindowState) (data : Payload) : Event :=
  { sequence := state.nextSequence, data }

/-- An event that no later one replaces. -/
def Event.durable (e : Event) : Bool := !isCoalescible e.data

/-- The event with a payload in place of its own. -/
def Event.merged (queued : Event) (data : Payload) : Event :=
  match queued.data, data with
  | .contentScaleChanged queuedScale, .contentScaleChanged latestScale =>
    { queued with data := .contentScaleChanged (mergeContentScaleChanged queuedScale latestScale).1 }
  | _, _ => { queued with data }

/-- The scale change that the payload brings back to its start. -/
def Event.Cancelled (queued : Event) (data : Payload) : Prop :=
  ∃ queuedScale latestScale, queued.data = .contentScaleChanged queuedScale ∧
    data = .contentScaleChanged latestScale ∧ (queuedScale.previousScale == latestScale.scale) = true ∧
      (queuedScale.previousDpi == latestScale.dpi) = true

theorem findMergeable_spec {queue : Lib.Ring Event} {offset index : Nat}
    (h : findMergeable queue data offset = some index) :
    index < offset ∧ sameCoalescibleType (queue.get index).data data = true ∧
      ∀ j, index < j → j < offset → isCoalescible (queue.get j).data = true ∧
        sameCoalescibleType (queue.get j).data data = false := by
  induction offset with
  | zero => cases h
  | succ offset ih =>
    unfold findMergeable at h
    dsimp only at h
    split_ifs at h with hdurable hsame
    · obtain rfl := Option.some.inj h
      exact ⟨Nat.lt_succ_self _, hsame, fun j h₁ h₂ => by omega⟩
    · obtain ⟨hlt, hindex, hall⟩ := ih h
      refine ⟨by omega, hindex, fun j h₁ h₂ => ?_⟩
      rcases Nat.lt_succ_iff_lt_or_eq.1 h₂ with hj | rfl
      · exact hall j h₁ hj
      · exact ⟨by simpa using hdurable, by simpa using hsame⟩

/-- The state without its queue. -/
structure SameBut (state next : WindowState) (sequences drops : Nat) : Prop where
  capacity : next.queue.capacity = state.queue.capacity
  suppressEvents : next.suppressEvents = state.suppressEvents
  nextSequence : next.nextSequence = state.nextSequence + sequences
  droppedEvents : next.droppedEvents = state.droppedEvents + drops

/-- What an enqueue can do: the payload goes into a queued event of its kind, takes one out, is
refused, or becomes the last event, alone or in place of another one. -/
inductive Enqueued (state : WindowState) (data : Payload) : EnqueueResult → WindowState → Prop
  | merged {next : WindowState} (l r : List Event) (queued : Event)
    (before : state.events = l ++ queued :: r)
    (same : sameCoalescibleType queued.data data = true)
    (behind : ∀ e ∈ r, e.durable = false ∧ sameCoalescibleType e.data data = false)
    (after : next.events = l ++ queued.merged data :: r) (frame : SameBut state next 0 0) :
    Enqueued state data .coalesced next
  | cancelled {next : WindowState} (l r : List Event) (queued : Event)
    (before : state.events = l ++ queued :: r) (cancelled : queued.Cancelled data)
    (behind : ∀ e ∈ r, e.durable = false ∧ sameCoalescibleType e.data data = false)
    (after : next.events = l ++ r) (frame : SameBut state next 0 0) :
    Enqueued state data .coalesced next
  | refused {next : WindowState} (full : state.events.length = state.queue.capacity)
    (durable : ∀ e ∈ state.events, e.durable = true) (other : data ≠ .nativeDestroyed)
    (after : next.events = state.events) (frame : SameBut state next 0 1) :
    Enqueued state data .dropped next
  | queued {next : WindowState}
    (after : next.events = state.events ++ [state.newEvent data])
    (frame : SameBut state next 1 0) : Enqueued state data .queued next
  | evicted {next : WindowState} (l r : List Event) (lost : Event)
    (before : state.events = l ++ lost :: r) (first : ∀ e ∈ l, e.durable = true)
    (coalescible : lost.durable = false)
    (after : next.events = l ++ r ++ [state.newEvent data])
    (frame : SameBut state next 1 1) : Enqueued state data .queued next
  | displaced {next : WindowState} (r : List Event) (lost : Event)
    (before : state.events = lost :: r) (destroyed : data = .nativeDestroyed)
    (full : state.events.length = state.queue.capacity)
    (durable : ∀ e ∈ state.events, e.durable = true)
    (after : next.events = r ++ [state.newEvent data])
    (frame : SameBut state next 1 1) : Enqueued state data .queued next

theorem Event.merged_scale {queued : Event} {queuedScale latestScale : ContentScaleChanged}
    (h : queued.data = .contentScaleChanged queuedScale) :
    queued.merged (.contentScaleChanged latestScale) = { queued with
      data := .contentScaleChanged (mergeContentScaleChanged queuedScale latestScale).1 } := by
  simp [Event.merged, h]

theorem Event.merged_other {queued : Event}
    (h : ∀ a b, queued.data = .contentScaleChanged a → data ≠ .contentScaleChanged b) :
    queued.merged data = { queued with data } := by
  unfold Event.merged
  split
  next a b ha => exact absurd rfl (h a b ha)
  next => rfl

theorem coalesce_other {index : Nat} (h : ∀ a b,
      (state.queue.get index).data = .contentScaleChanged a → data ≠ .contentScaleChanged b) :
    coalesce state index data =
      { state with queue := state.queue.modify index fun queued => { queued with data } } := by
  unfold coalesce
  split
  next a b ha => exact absurd rfl (h a b ha)
  next => rfl

/-- The payload goes into the queued event that the search has found. -/
theorem coalesce_enqueued {index : Nat}
    (h : findMergeable state.queue data state.queue.count = some index) :
    Enqueued state data .coalesced (coalesce state index data) := by
  obtain ⟨hlt, hsame, hbehind⟩ := findMergeable_spec h
  obtain ⟨l, r, hsplit, hindex⟩ := Lib.Ring.exists_split_of_lt hlt
  have hr : ∀ e ∈ r, e.durable = false ∧ sameCoalescibleType e.data data = false := by
    intro e he
    obtain ⟨j, hj, rfl⟩ := List.getElem_of_mem he
    have hcount : state.queue.count = l.length + (r.length + 1) := by
      rw [← Lib.Ring.length_contents, hsplit, List.length_append, List.length_cons]
    have hget : state.queue.get (index + 1 + j) = r[j] := by
      have hat := Lib.Ring.get_eq (r := state.queue) (i := index + 1 + j) (by omega)
      rw [hsplit, List.getElem?_append_right (by omega),
        show index + 1 + j - l.length = j + 1 by omega, List.getElem?_cons_succ,
        List.getElem?_eq_getElem hj] at hat
      exact (Option.some.inj hat).symm
    have hat := hbehind (index + 1 + j) (by omega) (by omega)
    rw [hget] at hat
    exact ⟨by simp [Event.durable, hat.1], hat.2⟩
  subst hindex
  generalize hqueued : state.queue.get l.length = queued at hsplit hsame
  have hframe : ∀ f, SameBut state { state with queue := state.queue.modify l.length f } 0 0 :=
    fun f => ⟨Lib.Ring.capacity_modify, rfl, rfl, rfl⟩
  by_cases hscale : ∃ a b, queued.data = .contentScaleChanged a ∧ data = .contentScaleChanged b
  · obtain ⟨queuedScale, latestScale, hdata, rfl⟩ := hscale
    have hmodify := Lib.Ring.contents_modify_of_split (f := fun queued : Event => { queued with
      data := .contentScaleChanged (mergeContentScaleChanged queuedScale latestScale).1 }) hsplit
    simp only [coalesce, hqueued, hdata]
    by_cases hnet : (mergeContentScaleChanged queuedScale latestScale).2 = true
    · rw [if_pos hnet]
      refine .cancelled l r queued hsplit ?_ hr (Lib.Ring.contents_removeAt_of_split hmodify)
        ⟨by simp, rfl, rfl, rfl⟩
      rw [mergeContentScaleChanged, Bool.and_eq_true] at hnet
      exact ⟨queuedScale, latestScale, hdata, rfl, hnet.1, hnet.2⟩
    · rw [if_neg hnet]
      refine .merged l r queued hsplit hsame hr ?_ (hframe _)
      rw [Event.merged_scale hdata]
      exact hmodify
  · have hother : ∀ a b, queued.data = .contentScaleChanged a → data ≠ .contentScaleChanged b :=
      fun a b ha hb => hscale ⟨a, b, ha, hb⟩
    rw [coalesce_other (hqueued.symm ▸ hother)]
    refine .merged l r queued hsplit hsame hr ?_ (hframe _)
    rw [Event.merged_other hother]
    exact Lib.Ring.contents_modify_of_split hsplit

theorem durable_get {e : Event} (he : e ∈ state.events)
    (h : ∀ i < state.queue.count, isCoalescible (state.queue.get i).data = false) :
    e.durable = true := by
  obtain ⟨i, hi, rfl⟩ := List.getElem_of_mem he
  rw [Lib.Ring.length_contents] at hi
  have hat := Lib.Ring.get_eq hi
  rw [List.getElem?_eq_getElem (by simpa)] at hat
  rw [Option.some.inj hat, Event.durable, h i hi]
  rfl

/-- The event that gives way in a full queue. -/
theorem replaceIndex_spec (hfull : state.queue.count = state.queue.capacity) (data : Payload) :
    (∀ index, replaceIndex state data = some index →
      ∃ l lost r, state.events = l ++ lost :: r ∧ l.length = index ∧
        ((∀ e ∈ l, e.durable = true) ∧ lost.durable = false ∨
          l = [] ∧ data = .nativeDestroyed ∧ ∀ e ∈ state.events, e.durable = true)) ∧
    (replaceIndex state data = none →
      (∀ e ∈ state.events, e.durable = true) ∧ data ≠ .nativeDestroyed) := by
  have hpos := state.queue.capacity_pos
  unfold replaceIndex
  cases hfind : (List.range state.queue.count).find? fun index =>
      isCoalescible (state.queue.get index).data with
  | some found =>
    have hlt : found < state.queue.count := List.mem_range.1 (List.mem_of_find?_eq_some hfind)
    obtain ⟨-, hbefore⟩ := List.find?_range_eq_some.1 hfind
    obtain ⟨l, r, hsplit, hlength⟩ := Lib.Ring.exists_split_of_lt hlt
    refine ⟨fun index h => ?_, nofun⟩
    obtain rfl := Option.some.inj h
    refine ⟨l, _, r, hsplit, hlength, .inl ⟨fun e he => ?_, ?_⟩⟩
    · obtain ⟨j, hj, rfl⟩ := List.getElem_of_mem he
      have hat := Lib.Ring.get_eq (r := state.queue) (i := j) (by omega)
      rw [hsplit, List.getElem?_append_left hj, List.getElem?_eq_getElem hj] at hat
      rw [Option.some.inj hat, Event.durable]
      exact hbefore.2 j (by omega)
    · have hfound := List.find?_some hfind
      simp [Event.durable, hfound]
  | none =>
    have hall : ∀ e ∈ state.events, e.durable = true := fun e he => durable_get he fun i hi =>
      by simpa using List.find?_eq_none.1 hfind i (List.mem_range.2 hi)
    dsimp only
    refine ⟨fun index h => ?_, fun h => ?_⟩
    · split_ifs at h with hdestroyed
      obtain rfl := Option.some.inj h
      obtain ⟨l, r, hsplit, hlength⟩ :=
        Lib.Ring.exists_split_of_lt (r := state.queue) (i := 0) (by omega)
      exact ⟨l, _, r, hsplit, hlength,
        .inr ⟨List.length_eq_zero_iff.1 hlength, hdestroyed, hall⟩⟩
    · split_ifs at h with hdestroyed
      exact ⟨hall, hdestroyed⟩

theorem SameBut.trans {a b c : WindowState} {n m k l : Nat} (h : SameBut a b n m)
    (h' : SameBut b c k l) : SameBut a c (n + k) (m + l) where
  capacity := h'.capacity.trans h.capacity
  suppressEvents := h'.suppressEvents.trans h.suppressEvents
  nextSequence := by rw [h'.nextSequence, h.nextSequence, Nat.add_assoc]
  droppedEvents := by rw [h'.droppedEvents, h.droppedEvents, Nat.add_assoc]

theorem append_events (h : state.queue.count ≠ state.queue.capacity) :
    (append state data h).events =
      state.events ++ [state.newEvent data] :=
  Lib.Ring.contents_push h

theorem append_frame (h : state.queue.count ≠ state.queue.capacity) (data : Payload) :
    SameBut state (append state data h) 1 0 :=
  ⟨Lib.Ring.capacity_push h, rfl, rfl, rfl⟩

/-- **One enqueue.** -/
theorem enqueueEvent_enqueued (hactive : state.suppressEvents = false) (data : Payload) :
    Enqueued state data (enqueueEvent state data).1 (enqueueEvent state data).2 := by
  have hpos := state.queue.capacity_pos
  unfold enqueueEvent
  rw [if_neg (by rw [hactive]; decide), if_neg hpos.ne']
  generalize hmerge : (if isCoalescible data = true then
    findMergeable state.queue data state.queue.count else none) = mergeable
  cases mergeable with
  | some index =>
    refine coalesce_enqueued ?_
    split_ifs at hmerge
    exact hmerge
  | none =>
    dsimp only
    by_cases hroom : state.queue.count = state.queue.capacity
    · rw [dif_pos hroom]
      obtain ⟨hsome, hnone⟩ := replaceIndex_spec hroom data
      split
      next h =>
        obtain ⟨hall, hother⟩ := hnone h
        exact .refused (by simpa using hroom) hall hother rfl ⟨rfl, rfl, rfl, rfl⟩
      next index h =>
        obtain ⟨l, lost, r, hsplit, rfl, hlost⟩ := hsome index h
        have hremoved := Lib.Ring.contents_removeAt_of_split hsplit
        have hdiscard : SameBut state (discardAt state l.length) 0 1 :=
          ⟨Lib.Ring.capacity_removeAt, rfl, rfl, rfl⟩
        have hfree : (discardAt state l.length).queue.count ≠
            (discardAt state l.length).queue.capacity := Lib.Ring.count_ne_capacity_removeAt hroom
        have hafter : (append (discardAt state l.length) data hfree).events =
            l ++ r ++ [state.newEvent data] := by
          rw [append_events]
          exact congrArg (· ++ _) hremoved
        have hframe := hdiscard.trans (append_frame hfree data)
        rcases hlost with ⟨hfirst, hcoalescible⟩ | ⟨rfl, hdestroyed, hall⟩
        · exact .evicted l r lost hsplit hfirst hcoalescible hafter hframe
        · exact .displaced r lost hsplit hdestroyed (by simpa using hroom) hall hafter hframe
    · rw [dif_neg hroom]
      exact .queued (append_events hroom) (append_frame hroom data)

/-! ## What the other calls do -/

theorem popEvent_spec (state : WindowState) :
    state.events = (popEvent state).1.toList ++ (popEvent state).2.events ∧
      SameBut state (popEvent state).2 0 0 := by
  unfold popEvent
  split_ifs with h
  · exact ⟨rfl, rfl, rfl, rfl, rfl⟩
  · refine ⟨?_, Lib.Ring.capacity_restart.trans Lib.Ring.capacity_pop, rfl, rfl, rfl⟩
    have hcontents := Lib.Ring.contents_pop h
    have hget : state.queue.get 0 = state.queue.slots.getD state.queue.head default := by
      rw [Lib.Ring.get, Lib.Ring.slot, Nat.add_zero, Nat.mod_eq_of_lt]
      exact state.queue.head_lt
    show state.queue.contents = state.queue.get 0 :: state.queue.pop.restart.contents
    rw [Lib.Ring.contents_restart, hget]
    exact hcontents

theorem popEvents_spec (size : Nat) (state : WindowState) :
    state.events = (popEvents size state).1 ++ (popEvents size state).2.events ∧
      SameBut state (popEvents size state).2 0 0 := by
  induction size generalizing state with
  | zero => exact ⟨rfl, rfl, rfl, rfl, rfl⟩
  | succ size ih =>
    obtain ⟨hevents, hframe⟩ := popEvent_spec state
    unfold popEvents
    generalize popEvent state = popped at hevents hframe
    obtain ⟨_ | event, next⟩ := popped
    · exact ⟨hevents, hframe⟩
    · obtain ⟨hrest, hframe'⟩ := ih next
      refine ⟨?_, hframe.trans hframe'⟩
      rw [hevents, hrest]
      rfl

/-! ## What an enqueue keeps -/

theorem Event.merged_sequence (queued : Event) (data : Payload) :
    (queued.merged data).sequence = queued.sequence := by
  unfold Event.merged
  split <;> rfl

theorem sameCoalescibleType_iff {left right : Payload} :
    sameCoalescibleType left right = true ↔
      left.index = right.index ∧ isCoalescible left = true := by
  rw [sameCoalescibleType, Bool.and_eq_true, decide_eq_true_eq]

/-- Whether a payload can be replaced is told by its alternative. -/
theorem isCoalescible_index {left right : Payload} (h : left.index = right.index) :
    isCoalescible left = isCoalescible right := by
  cases left <;> cases right <;> first | rfl | cases h

theorem Event.merged_durable {queued : Event}
    (h : sameCoalescibleType queued.data data = true) :
    queued.durable = false ∧ (queued.merged data).durable = false := by
  obtain ⟨hindex, hqueued⟩ := sameCoalescibleType_iff.1 h
  have hdata : isCoalescible data = true := isCoalescible_index hindex ▸ hqueued
  refine ⟨by simp [Event.durable, hqueued], ?_⟩
  unfold Event.merged
  split
  · rfl
  · simp [Event.durable, hdata]

theorem Event.Cancelled.durable {queued : Event} (h : queued.Cancelled data) :
    queued.durable = false := by
  obtain ⟨a, b, ha, -⟩ := h
  rw [Event.durable, ha]
  rfl

/-- The sequence numbers increase and are below the next one. -/
def Increasing (events : List Event) (nextSequence : Nat) : Prop :=
  (events.map Event.sequence).Pairwise (· < ·) ∧ ∀ e ∈ events, e.sequence < nextSequence

namespace Increasing

variable {events : List Event} {n : Nat}

theorem nil : Increasing [] n := Lib.Numbered.nil

theorem sublist {events' : List Event} (h : Increasing events n) (hs : events'.Sublist events) :
    Increasing events' n :=
  Lib.Numbered.sublist h hs

theorem concat (h : Increasing events n) (data : Payload) :
    Increasing (events ++ [{ sequence := n, data }]) (n + 1) :=
  Lib.Numbered.concat h rfl

theorem nodup (h : Increasing events n) : events.Nodup := Lib.Numbered.nodup h

theorem merged {l r : List Event} {queued : Event} (h : Increasing (l ++ queued :: r) n)
    (data : Payload) : Increasing (l ++ queued.merged data :: r) n := by
  have hmap : (l ++ queued.merged data :: r).map Event.sequence =
      (l ++ queued :: r).map Event.sequence := by
    simp [Event.merged_sequence]
  refine ⟨hmap ▸ h.1, fun e he => ?_⟩
  have hmem : e.sequence ∈ (l ++ queued :: r).map Event.sequence :=
    hmap ▸ List.mem_map_of_mem he
  obtain ⟨e', he', heq⟩ := List.mem_map.1 hmem
  exact heq ▸ h.2 e' he'

end Increasing

namespace Enqueued

variable {result : EnqueueResult} {next : WindowState} {before : List Event} {e : Event}

/-- The sequence numbers stay in order, behind events that have left. -/
theorem increasing (h : Enqueued state data result next)
    (hi : Increasing (before ++ state.events) state.nextSequence) :
    Increasing (before ++ next.events) next.nextSequence := by
  cases h with
  | merged l r queued hbefore _ _ hafter frame =>
    rw [hbefore, ← List.append_assoc] at hi
    rw [hafter, ← List.append_assoc, frame.nextSequence]
    exact hi.merged data
  | cancelled l r queued hbefore _ _ hafter frame =>
    rw [hbefore] at hi
    rw [hafter, frame.nextSequence]
    exact hi.sublist ((List.sublist_cons_self queued r).append_left l |>.append_left before)
  | refused _ _ _ hafter frame =>
    rw [hafter, frame.nextSequence]
    exact hi
  | queued hafter frame =>
    rw [hafter, ← List.append_assoc, frame.nextSequence]
    exact hi.concat data
  | evicted l r lost hbefore _ _ hafter frame =>
    rw [hbefore] at hi
    rw [hafter, ← List.append_assoc, frame.nextSequence]
    exact (hi.sublist ((List.sublist_cons_self lost r).append_left l |>.append_left before)).concat
      data
  | displaced r lost hbefore _ _ _ hafter frame =>
    rw [hbefore] at hi
    rw [hafter, ← List.append_assoc, frame.nextSequence]
    exact (hi.sublist ((List.sublist_cons_self lost r).append_left before)).concat data

/-- The event that the payload became. -/
def taken (state : WindowState) (data : Payload) (result : EnqueueResult) : List Event :=
  if result = .queued then [state.newEvent data] else []

/-- The durable events stay in their order, with the new one last. -/
theorem durable_sublist (h : Enqueued state data result next) :
    (next.events.filter Event.durable).Sublist
      (state.events.filter Event.durable ++ (taken state data result).filter Event.durable) := by
  rw [← List.filter_append]
  cases h with
  | merged l r queued hbefore hsame _ hafter _ =>
    obtain ⟨hqueued, hmerged⟩ := Event.merged_durable hsame
    rw [hbefore, hafter]
    simp [hqueued, hmerged, taken]
  | cancelled l r queued hbefore _ _ hafter _ =>
    rw [hbefore, hafter, taken, if_neg (by decide), List.append_nil]
    exact ((List.sublist_cons_self queued r).append_left l).filter _
  | refused _ _ _ hafter _ =>
    rw [hafter, taken, if_neg (by decide), List.append_nil]
  | queued hafter _ =>
    rw [hafter, taken, if_pos rfl]
  | evicted l r lost hbefore _ _ hafter _ =>
    rw [hbefore, hafter, taken, if_pos rfl]
    exact (((List.sublist_cons_self lost r).append_left l).append_right _).filter _
  | displaced r lost hbefore _ _ _ hafter _ =>
    rw [hbefore, hafter, taken, if_pos rfl]
    exact ((List.sublist_cons_self lost r).append_right _).filter _

/-- The new event is queued. -/
theorem mem_of_taken (h : Enqueued state data result next) (he : e ∈ taken state data result) :
    e = state.newEvent data ∧ e ∈ next.events := by
  unfold taken at he
  split_ifs at he with hqueued
  · obtain rfl := List.mem_singleton.1 he
    refine ⟨rfl, ?_⟩
    cases h with
    | merged | cancelled | refused => cases hqueued
    | queued hafter _ => simp [hafter]
    | evicted l r lost _ _ _ hafter _ => simp [hafter]
    | displaced r lost _ _ _ _ hafter _ => simp [hafter]
  · cases he

/-- A durable event of the queue was there before, or is the new one. -/
theorem mem_of_durable (h : Enqueued state data result next) (he : e ∈ next.events)
    (hdurable : e.durable = true) : e ∈ state.events ∨ e ∈ taken state data result := by
  have hmem := h.durable_sublist.subset (List.mem_filter.2 ⟨he, hdurable⟩)
  rw [List.mem_append] at hmem
  exact hmem.imp (fun h => (List.mem_filter.1 h).1) fun h => (List.mem_filter.1 h).1

/-- `NativeDestroyed` puts the first event of a full queue of durable ones out. -/
structure Displaced (state : WindowState) (data : Payload) (e : Event) : Prop where
  destroyed : data = .nativeDestroyed
  full : state.events.length = state.queue.capacity
  durable : ∀ c ∈ state.events, c.durable = true
  head : state.events.head? = some e

theorem length_events_le (state : WindowState) : state.events.length ≤ state.queue.capacity := by
  rw [Lib.Ring.length_contents]
  exact state.queue.count_le

theorem newEvent_not_mem (hi : Increasing state.events state.nextSequence) (data : Payload) :
    state.newEvent data ∉ state.events := fun h => Nat.lt_irrefl _ (hi.2 _ h)

/-- A durable event leaves the queue only for `NativeDestroyed`. -/
theorem displaced_of_missing (h : Enqueued state data result next) (hmem : e ∈ state.events)
    (hdurable : e.durable = true) (hmissing : e ∉ next.events) : Displaced state data e := by
  have hne : ∀ {c : Event}, c.durable = false → e ≠ c := by
    rintro c hc rfl
    exact Bool.false_ne_true (hc.symm.trans hdurable)
  cases h with
  | merged l r queued hbefore hsame _ hafter _ =>
    rw [hbefore] at hmem
    simp only [hafter, List.mem_append, List.mem_cons, not_or] at hmem hmissing
    rcases hmem with hl | rfl | hr
    · exact absurd hl hmissing.1
    · exact absurd rfl (hne (Event.merged_durable hsame).1)
    · exact absurd hr hmissing.2.2
  | cancelled l r queued hbefore hcancelled _ hafter _ =>
    rw [hbefore] at hmem
    simp only [hafter, List.mem_append, List.mem_cons, not_or] at hmem hmissing
    rcases hmem with hl | rfl | hr
    · exact absurd hl hmissing.1
    · exact absurd rfl (hne hcancelled.durable)
    · exact absurd hr hmissing.2
  | refused _ _ _ hafter _ => exact absurd (hafter ▸ hmem) hmissing
  | queued hafter _ => exact absurd (hafter ▸ List.mem_append_left _ hmem) hmissing
  | evicted l r lost hbefore _ hlost hafter _ =>
    rw [hbefore] at hmem
    simp only [hafter, List.mem_append, List.mem_cons, not_or] at hmem hmissing
    rcases hmem with hl | rfl | hr
    · exact absurd hl hmissing.1.1
    · exact absurd rfl (hne hlost)
    · exact absurd hr hmissing.1.2
  | displaced r lost hbefore hdestroyed hfull hall hafter _ =>
    refine ⟨hdestroyed, hfull, hall, ?_⟩
    rw [hbefore] at hmem ⊢
    rcases List.mem_cons.1 hmem with rfl | hr
    · rfl
    · exact absurd (hafter ▸ List.mem_append_left _ hr) hmissing

theorem Displaced.mem (hd : Displaced state data e) : e ∈ state.events := by
  obtain ⟨l, hl⟩ := List.head?_eq_some_iff.1 hd.head
  rw [hl]
  exact List.mem_cons_self

/-- `NativeDestroyed` does put that event out. -/
theorem Displaced.missing (hd : Displaced state data e) (h : Enqueued state data result next)
    (hi : Increasing state.events state.nextSequence) : e ∉ next.events := by
  obtain ⟨rfl, hfull, hall, hhead⟩ := hd
  cases h with
  | merged l r queued hbefore hsame _ _ _ =>
    obtain ⟨hindex, hcoalescible⟩ := sameCoalescibleType_iff.1 hsame
    rw [isCoalescible_index hindex] at hcoalescible
    cases hcoalescible
  | cancelled l r queued _ hcancelled _ _ _ =>
    obtain ⟨a, b, -, hb, -⟩ := hcancelled
    cases hb
  | refused _ _ hother _ _ => exact absurd rfl hother
  | queued hafter frame =>
    have hle := length_events_le next
    rw [hafter, frame.capacity, List.length_append, List.length_singleton] at hle
    omega
  | evicted l r lost hbefore _ hlost _ _ =>
    have := hall lost (hbefore ▸ by simp)
    rw [hlost] at this
    cases this
  | displaced r lost hbefore _ _ _ hafter _ =>
    rw [hbefore] at hhead hi
    obtain rfl := Option.some.inj hhead
    rw [hafter, List.mem_append, List.mem_singleton, not_or]
    refine ⟨(List.nodup_cons.1 hi.nodup).1, ?_⟩
    rintro rfl
    exact Nat.lt_irrefl _ (hi.2 _ List.mem_cons_self)

/-- The events that an enqueue pushes out. -/
def lost (state next : WindowState) (result : EnqueueResult) : List Event :=
  if result = .queued then state.events.filter fun e => e ∉ next.events else []

/-- Every event refused or pushed out is counted. -/
theorem drops (h : Enqueued state data result next)
    (hi : Increasing state.events state.nextSequence) :
    next.droppedEvents =
      state.droppedEvents + (if result = .dropped then 1 else 0) + (lost state next result).length := by
  cases h with
  | merged l r queued _ _ _ _ frame =>
    rw [frame.droppedEvents, lost, if_neg (by decide), if_neg (by decide)]
    rfl
  | cancelled l r queued _ _ _ _ frame =>
    rw [frame.droppedEvents, lost, if_neg (by decide), if_neg (by decide)]
    rfl
  | refused _ _ _ _ frame =>
    rw [frame.droppedEvents, lost, if_pos rfl, if_neg (by decide)]
    rfl
  | queued hafter frame =>
    have hnone : (state.events.filter fun e => e ∉ next.events) = [] := by
      refine List.filter_eq_nil_iff.2 fun e he => ?_
      rw [decide_eq_true_eq, not_not, hafter]
      exact List.mem_append_left _ he
    rw [frame.droppedEvents, lost, if_neg (by decide), if_pos rfl, hnone]
    rfl
  | evicted l r lost hbefore _ _ hafter frame =>
    have hnew := newEvent_not_mem hi data
    rw [frame.droppedEvents, Enqueued.lost, if_neg (by decide), if_pos rfl]
    rw [hbefore] at hi hnew
    rw [hbefore, hafter, Lib.filter_missing hi.nodup hnew]
    rfl
  | displaced r lost hbefore _ _ _ hafter frame =>
    have hnew := newEvent_not_mem hi data
    rw [frame.droppedEvents, Enqueued.lost, if_neg (by decide), if_pos rfl]
    rw [hbefore] at hi hnew
    have hfilter := Lib.filter_missing (l := []) hi.nodup hnew
    rw [List.nil_append, List.nil_append] at hfilter
    rw [hbefore, hafter, hfilter]
    rfl

/-- A durable payload is queued, or refused by a full queue of durable events; `NativeDestroyed` is
not refused. -/
theorem durable_result (h : Enqueued state data result next) (hdurable : isCoalescible data = false) :
    result = .queued ∨ result = .dropped ∧ data ≠ .nativeDestroyed ∧
      state.events.length = state.queue.capacity ∧ ∀ e ∈ state.events, e.durable = true := by
  cases h with
  | merged l r queued _ hsame _ _ _ =>
    obtain ⟨hindex, hcoalescible⟩ := sameCoalescibleType_iff.1 hsame
    rw [isCoalescible_index hindex, hdurable] at hcoalescible
    cases hcoalescible
  | cancelled l r queued _ hcancelled _ _ _ =>
    obtain ⟨a, b, -, rfl, -⟩ := hcancelled
    cases hdurable
  | refused hfull hall hother _ _ => exact .inr ⟨rfl, hother, hfull, hall⟩
  | queued | evicted | displaced => exact .inl rfl

end Enqueued

end Events

end Desktop

import GameWIP.Desktop.Proof.DragDropEvents
import GameWIP.Lib.Numbered
import Mathlib.Data.List.Chain

/-!
# Runs of a drop target's queue

The accounts of a run: order, what becomes of every event, the count of drops, and, while nothing is
dropped, which incoming events each event stands for.
-/

namespace Desktop

namespace DragDrop

open Lib (Numbered Trace Transition)

abbrev Step := Transition DragDropState QueueCall

instance (s : DragDropState) (data : EventPayload) : Decidable (Fresh s data) :=
  inferInstanceAs (Decidable (∀ last ∈ s.events.getLast?, coalesced last (s.incoming data) = none))

namespace Step

/-- The event that the step hands to the queue. -/
def incoming (x : Step) : List Event :=
  match x.action with
  | .enqueueDragDropEvent data _ => [x.pre.incoming data]
  | _ => []

def refused (x : Step) : List Event :=
  match x.action with
  | .enqueueDragDropEvent data terminal =>
    if (enqueueDragDropEvent x.pre data terminal).1 then [] else [x.pre.incoming data]
  | _ => []

/-- The queued events that give way to an event that does not coalesce. -/
def evicted (x : Step) : List Event :=
  match x.action with
  | .enqueueDragDropEvent data _ =>
    if Fresh x.pre data then x.pre.events.filter fun e => e ∉ x.post.events else []
  | _ => []

def popped (x : Step) : List Event :=
  match x.action with
  | .popEvent => (popEvent x.pre).1.toList
  | .popEvents size => (popEvents size x.pre).1
  | _ => []

def cleared (x : Step) : List Event :=
  match x.action with
  | .clearEvents => x.pre.events
  | _ => []

end Step

def incoming (tr : List Step) : List Event := tr.flatMap Step.incoming

def refused (tr : List Step) : List Event := tr.flatMap Step.refused

def evicted (tr : List Step) : List Event := tr.flatMap Step.evicted

def popped (tr : List Step) : List Event := tr.flatMap Step.popped

/-- What has left at the front, popped or cleared. -/
def removed (tr : List Step) : List Event := tr.flatMap fun x => x.popped ++ x.cleared

/-- The session of a movement. -/
def movedSession (event : Event) : Option SessionId :=
  match event.data with
  | .moved sessionId .. => some sessionId
  | _ => none

/-- The events are not movements of one session. -/
def Apart (a b : Event) : Prop := movedSession a = none ∨ movedSession a ≠ movedSession b

/-- The event stands for the incoming events of a group: it is the only one, or all are movements of
one session and it has the first one's previous region and the rest from the last one. -/
inductive Represents : List Event → Event → Prop
  | alone (event : Event) : Represents [event] event
  | moved {group : List Event} {first : Event} {sequence : Nat} {session : SessionId}
      {position position₁ : Events.LogicalPosition} {previous previous₁ region region₁ : Option RegionId}
      {effect effect₁ : Effect} {formats formats₁ : Option (List DataTransfer.Format)}
      (same : ∀ e ∈ group, movedSession e = some session)
      (head : group.head? = some first)
      (start : first.data = .moved session position₁ previous₁ region₁ effect₁ formats₁)
      (last : group.getLast? =
        some ⟨sequence, .moved session position previous region effect formats⟩) :
      Represents group ⟨sequence, .moved session position previous₁ region effect formats⟩

/-! ## Coalescing -/

section
variable {a b e : Event} {group : List Event} {n : Nat} {session : SessionId}
  {position : Events.LogicalPosition} {previous region : Option RegionId} {effect : Effect}
  {formats : Option (List DataTransfer.Format)}

theorem coalesced_eq_none_iff : coalesced a b = none ↔ Apart a b := by
  obtain ⟨_, adata⟩ := a
  obtain ⟨_, bdata⟩ := b
  cases adata <;> cases bdata <;> simp [coalesced, Apart, movedSession]

theorem movedSession_of_coalesced (h : coalesced a b = some e) :
    e.sequence = b.sequence ∧ movedSession e = movedSession a := by
  obtain ⟨_, adata⟩ := a
  obtain ⟨_, bdata⟩ := b
  cases adata <;> cases bdata <;> simp [coalesced, movedSession] at h ⊢
  obtain ⟨rfl, rfl⟩ := h
  exact ⟨rfl, rfl⟩

theorem movedSession_eq_none_iff : movedSession e = none ↔ movement e = false := by
  obtain ⟨_, data⟩ := e
  cases data <;> simp [movedSession, movement]

/-- A movement stands for movements, and has the first one's previous region. -/
theorem Represents.first (h : Represents group ⟨n, .moved session position previous region effect formats⟩) :
    (∀ e ∈ group, movedSession e = some session) ∧
      ∃ first position₁ region₁ effect₁ formats₁, group.head? = some first ∧
        first.data = .moved session position₁ previous region₁ effect₁ formats₁ := by
  cases h with
  | alone => exact ⟨by simp [movedSession], _, _, _, _, _, rfl, rfl⟩
  | moved same head start _ => exact ⟨same, _, _, _, _, _, head, start⟩

/-- A group goes on with the movement that coalesces into its event. -/
theorem Represents.concat (h : Represents group a) (hmerge : coalesced a b = some e) :
    Represents (group ++ [b]) e := by
  obtain ⟨n, adata⟩ := a
  obtain ⟨m, bdata⟩ := b
  unfold coalesced at hmerge
  split at hmerge
  · rename_i session _ _ _ _ _ session' position _ region effect formats ha hb
    dsimp only at ha hb
    subst ha hb
    split at hmerge
    · rename_i hsession
      subst hsession
      obtain rfl := Option.some.inj hmerge
      obtain ⟨hsame, first, _, _, _, _, hhead, hfirst⟩ := h.first
      have hstart : ∀ b : Event, (group ++ [b]).head? = some first := by
        intro b
        rw [List.head?_append, hhead]
        rfl
      refine .moved (fun e he => ?_) (hstart _) hfirst List.getLast?_concat
      rcases List.mem_append.1 he with he | he
      · exact hsame e he
      · rw [List.mem_singleton.1 he]
        rfl
    · cases hmerge
  · cases hmerge

end

/-! ## Steps -/

/-- A step enqueues, or it moves events out at the front. -/
theorem step_cases {x : Step} (h : WellFormed x.pre) (hpos : 0 < x.pre.eventStorage.length)
    (hs : step x.pre x.action = some x.post) :
    WellFormed x.post ∧
    ((∃ data terminal, x.action = .enqueueDragDropEvent data terminal ∧
        Enqueued x.pre data terminal (enqueueDragDropEvent x.pre data terminal).1 x.post) ∨
      (∀ data terminal, x.action ≠ .enqueueDragDropEvent data terminal) ∧
      Frame x.pre x.post 0 0 ∧ x.pre.events = x.popped ++ x.cleared ++ x.post.events) := by
  obtain ⟨pre, action, post⟩ := x
  dsimp only at h hpos hs ⊢
  cases action with
  | enqueueDragDropEvent data terminal =>
    obtain rfl := Option.some.inj hs
    obtain ⟨hwell, henqueued⟩ := enqueue_spec h hpos data terminal
    exact ⟨hwell, .inl ⟨data, terminal, rfl, henqueued⟩⟩
  | popEvent =>
    obtain rfl := Option.some.inj hs
    obtain ⟨hwell, hframe, hevents, -⟩ := popEvent_spec h
    exact ⟨hwell, .inr ⟨nofun, hframe, by simpa [Step.popped, Step.cleared] using hevents⟩⟩
  | popEvents size =>
    obtain rfl := Option.some.inj hs
    obtain ⟨hwell, hframe, hevents⟩ := popEvents_spec size h
    exact ⟨hwell, .inr ⟨nofun, hframe, by simpa [Step.popped, Step.cleared] using hevents⟩⟩
  | clearEvents =>
    obtain rfl := Option.some.inj hs
    obtain ⟨hwell, hframe, hevents⟩ := clearEvents_spec h
    exact ⟨hwell, .inr ⟨nofun, hframe, by simp [Step.popped, Step.cleared, hevents]⟩⟩

section
variable {s s' : DragDropState} {data : EventPayload} {terminal result : Bool}

theorem Enqueued.frame (h : Enqueued s data terminal result s') : ∃ drops, Frame s s' 1 drops := by
  cases h <;> exact ⟨_, ‹_›⟩

/-- What was queued before, but for what coalesces or is evicted, comes first; the new event last. -/
theorem Enqueued.numbered (h : Enqueued s data terminal result s') {before : List Event}
    (hn : Numbered Event.sequence (before ++ s.events) s.nextSequence) :
    Numbered Event.sequence (before ++ s'.events) s'.nextSequence := by
  cases h with
  | coalesced front last event hbefore hmerge hafter frame =>
    rw [hbefore] at hn
    rw [hafter, frame.nextSequence, ← List.append_assoc]
    refine (hn.sublist ?_).concat (movedSession_of_coalesced hmerge).1
    exact (List.sublist_append_left front [last]).append_left before
  | refused _ _ _ hafter frame =>
    rw [hafter, frame.nextSequence]
    exact hn.mono (Nat.le_add_right _ 1)
  | queued _ _ hafter frame =>
    rw [hafter, frame.nextSequence, ← List.append_assoc]
    exact hn.concat rfl
  | evicted l r lost _ _ _ hbefore _ hafter frame =>
    rw [hbefore] at hn
    rw [hafter, frame.nextSequence, ← List.append_assoc]
    refine (hn.sublist ?_).concat rfl
    exact ((List.sublist_cons_self lost r).append_left l).append_left before

/-- Adjacent queued events stay apart. -/
theorem Enqueued.apart (h : Enqueued s data terminal result s') (ha : s.events.IsChain Apart) :
    s'.events.IsChain Apart := by
  have hfresh : Fresh s data → ∀ last ∈ s.events.getLast?, Apart last (s.incoming data) :=
    fun hfresh last hlast => coalesced_eq_none_iff.1 (hfresh last hlast)
  cases h with
  | coalesced front last event hbefore hmerge hafter _ =>
    rw [hbefore, List.isChain_append] at ha
    rw [hafter, List.isChain_append]
    refine ⟨ha.1, .singleton event, fun a hlast b hb => ?_⟩
    obtain rfl := Option.some.inj hb
    have := ha.2.2 a hlast last rfl
    rwa [Apart, (movedSession_of_coalesced hmerge).2]
  | refused _ _ _ hafter _ => rwa [hafter]
  | queued hdata _ hafter _ =>
    rw [hafter, List.isChain_append]
    refine ⟨ha, .singleton _, fun last hlast b hb => ?_⟩
    obtain rfl := Option.some.inj hb
    exact hfresh hdata last hlast
  | evicted l r lost hdata _ _ hbefore holdest hafter _ =>
    have hstill : ∀ a ∈ l, ∀ b, Apart a b := fun a hmem b =>
      .inl (movedSession_eq_none_iff.2 (holdest.1 a hmem))
    rw [hbefore] at ha hfresh
    obtain ⟨hl, hr, -⟩ := List.isChain_append.1 ha
    rw [hafter, List.isChain_append]
    refine ⟨List.isChain_append.2 ⟨hl, hr.tail, fun a hlast b _ =>
      hstill a (List.mem_of_getLast? hlast) b⟩, .singleton _, fun last hlast b hb => ?_⟩
    obtain rfl := Option.some.inj hb
    -- the last event is the one of before, or stands in front of the evicted one
    rcases List.eq_nil_or_concat' r with rfl | ⟨r, last', rfl⟩
    · rw [List.append_nil] at hlast
      exact hstill last (List.mem_of_getLast? hlast) _
    · refine hfresh hdata last ?_
      simpa [List.getLast?_append, List.getLast?_cons] using hlast

/-- Every event refused or evicted is counted. -/
theorem Enqueued.drops (h : Enqueued s data terminal result s')
    (hn : Numbered Event.sequence s.events s.nextSequence) :
    s'.droppedEvents = s.droppedEvents + (if result then [] else [s.incoming data]).length +
      (if Fresh s data then s.events.filter fun e => e ∉ s'.events else []).length := by
  cases h with
  | coalesced front last event hbefore hmerge _ frame =>
    have hstale : ¬ Fresh s data := fun hfresh => by
      have := hfresh last (by simp [hbefore])
      rw [hmerge] at this
      cases this
    rw [frame.droppedEvents, if_pos rfl, if_neg hstale]
    rfl
  | refused hfresh _ _ hafter frame =>
    have hkept : (s.events.filter fun e => e ∉ s'.events) = [] :=
      List.filter_eq_nil_iff.2 fun e he => by simpa [hafter] using he
    rw [frame.droppedEvents, if_neg Bool.false_ne_true, if_pos hfresh, hkept]
    rfl
  | queued hfresh _ hafter frame =>
    have hkept : (s.events.filter fun e => e ∉ s'.events) = [] :=
      List.filter_eq_nil_iff.2 fun e he => by simp [hafter, he]
    rw [frame.droppedEvents, if_pos rfl, if_pos hfresh, hkept]
    rfl
  | evicted l r lost hfresh _ _ hbefore _ hafter frame =>
    have hnew : s.incoming data ∉ s.events := hn.notMem (le_refl s.nextSequence)
    rw [frame.droppedEvents, if_pos rfl, if_pos hfresh]
    rw [hbefore] at hn hnew
    rw [hbefore, hafter, Lib.filter_missing hn.nodup hnew]
    rfl

/-- While nothing is dropped, the new event goes into the last group or starts one. -/
theorem Enqueued.groups (h : Enqueued s data terminal result s')
    (hkept : s'.droppedEvents = s.droppedEvents) {before : List Event} {groups : List (List Event)}
    (hg : List.Forall₂ Represents groups (before ++ s.events)) :
    ∃ groups', groups'.flatten = groups.flatten ++ [s.incoming data] ∧
      List.Forall₂ Represents groups' (before ++ s'.events) := by
  cases h with
  | coalesced front last event hbefore hmerge hafter _ =>
    rw [hbefore, ← List.append_assoc] at hg
    rw [hafter, ← List.append_assoc]
    have hfront := List.forall₂_take_append groups (before ++ front) [last] hg
    have hlast := List.forall₂_drop_append groups (before ++ front) [last] hg
    obtain ⟨group, hgroup, hrest⟩ : ∃ group, Represents group last ∧
        groups.drop (before ++ front).length = [group] := by
      generalize groups.drop (before ++ front).length = rest at hlast
      cases hlast with
      | cons hgroup hnil =>
        cases hnil
        exact ⟨_, hgroup, rfl⟩
    refine ⟨groups.take (before ++ front).length ++ [group ++ [s.incoming data]], ?_,
      List.rel_append hfront (.cons (hgroup.concat hmerge) .nil)⟩
    conv_rhs => rw [← List.take_append_drop (before ++ front).length groups, hrest]
    simp
  | refused _ _ _ _ frame =>
    have := frame.droppedEvents
    omega
  | queued _ _ hafter _ =>
    refine ⟨groups ++ [[s.incoming data]], by simp, ?_⟩
    rw [hafter, ← List.append_assoc]
    exact List.rel_append hg (.cons (.alone _) .nil)
  | evicted l r lost _ _ _ _ _ _ frame =>
    have := frame.droppedEvents
    omega

/-- An ordinary event leaves only as the oldest one, for a terminal event. -/
theorem Enqueued.evicted_of_missing (h : Enqueued s data terminal result s') {e : Event}
    (he : e ∈ s.events) (hkind : movement e = false) (hmissing : e ∉ s'.events) :
    terminal = true ∧ s.events.length = s.eventStorage.length ∧
      (∀ other ∈ s.events, movement other = false) ∧ s.events.head? = some e := by
  cases h with
  | coalesced front last event hbefore hmerge hafter _ =>
    rw [hbefore] at he
    rcases List.mem_append.1 he with he | he
    · exact absurd (hafter ▸ List.mem_append_left _ he) hmissing
    · rw [List.mem_singleton.1 he, (movement_of_coalesced hmerge).1] at hkind
      cases hkind
  | refused _ _ _ hafter _ => exact absurd (hafter ▸ he) hmissing
  | queued _ _ hafter _ => exact absurd (hafter ▸ List.mem_append_left _ he) hmissing
  | evicted l r lost _ hfull hterminal hbefore holdest hafter _ =>
    have hkept : e ∉ l ++ r := fun hmem => hmissing (hafter ▸ List.mem_append_left _ hmem)
    have hlost : e = lost := by
      rw [hbefore] at he
      simp only [List.mem_append, List.mem_cons] at he hkept
      tauto
    subst hlost
    rcases holdest.2 with hmoved | ⟨rfl, hstill⟩
    · rw [hmoved] at hkind
      cases hkind
    · exact ⟨hterminal, hfull, fun other hother => hstill other (by rwa [hbefore] at hother), by simp [hbefore]⟩

/-- A terminal event is queued. -/
theorem Enqueued.terminal_queued (h : Enqueued s data true result s') :
    result = true ∧ ∃ event, s'.events.getLast? = some event ∧ event.sequence = s.nextSequence ∧
      (event = s.incoming data ∨
        ∃ last, s.events.getLast? = some last ∧
          DragDrop.coalesced last (s.incoming data) = some event) := by
  cases h with
  | coalesced front last event hbefore hmerge hafter _ =>
    refine ⟨rfl, event, by simp [hafter], (movedSession_of_coalesced hmerge).1, .inr ⟨last, ?_, hmerge⟩⟩
    simp [hbefore]
  | refused _ _ hordinary _ _ => cases hordinary
  | queued _ _ hafter _ => exact ⟨rfl, _, by simp [hafter], rfl, .inl rfl⟩
  | evicted l r lost _ _ _ _ _ hafter _ => exact ⟨rfl, _, by simp [hafter], rfl, .inl rfl⟩

end

/-! ## The accounts -/

/-- What the steps of a run say of the events popped and queued. -/
structure Accounts (capacity : Nat) (tr : List Step) (s : DragDropState) : Prop where
  well : WellFormed s
  capacity : s.eventStorage.length = capacity
  numbered : Numbered Event.sequence (removed tr ++ s.events) s.nextSequence
  apart : s.events.IsChain Apart
  drops : s.droppedEvents = (refused tr).length + (evicted tr).length
  groups : s.droppedEvents = 0 → ∃ groups : List (List Event), groups.flatten = incoming tr ∧
    List.Forall₂ Represents groups (removed tr ++ s.events)

theorem accounts_initial (eventStorage : List Event) :
    Accounts eventStorage.length [] (.initial eventStorage) where
  well := ⟨_, _, .initial eventStorage⟩
  capacity := rfl
  numbered := .nil
  apart := .nil
  drops := rfl
  groups _ := ⟨[], rfl, .nil⟩

section
variable {capacity : Nat} {tr : List Step} {x : Step} {s : DragDropState}

theorem accounts_step (h : Accounts capacity tr x.pre) (hpos : 0 < capacity)
    (hs : step x.pre x.action = some x.post) : Accounts capacity (tr ++ [x]) x.post := by
  obtain ⟨hwell, hcases⟩ := step_cases h.well (h.capacity ▸ hpos) hs
  have hincoming : incoming (tr ++ [x]) = incoming tr ++ x.incoming := by simp [incoming]
  have hrefused : refused (tr ++ [x]) = refused tr ++ x.refused := by simp [refused]
  have hevicted : evicted (tr ++ [x]) = evicted tr ++ x.evicted := by simp [evicted]
  have hremoved : removed (tr ++ [x]) = removed tr ++ (x.popped ++ x.cleared) := by simp [removed]
  rw [← List.append_assoc] at hremoved
  rcases hcases with ⟨data, terminal, haction, henqueued⟩ | ⟨hcall, hframe, hevents⟩
  · have hsame : removed (tr ++ [x]) = removed tr := by
      simp [hremoved, Step.popped, Step.cleared, haction]
    have hnew : x.incoming = [x.pre.incoming data] := by simp [Step.incoming, haction]
    have hpre : Numbered Event.sequence x.pre.events x.pre.nextSequence :=
      h.numbered.sublist (List.sublist_append_right _ _)
    have hdrops := henqueued.drops hpre
    refine ⟨hwell, ?_, hsame ▸ henqueued.numbered h.numbered, henqueued.apart h.apart, ?_,
      fun hnone => ?_⟩
    · obtain ⟨drops, hframe⟩ := henqueued.frame
      exact hframe.capacity.trans h.capacity
    · rw [hdrops, h.drops, hrefused, hevicted]
      simp only [Step.refused, Step.evicted, haction, List.length_append]
      omega
    · have hkept : x.post.droppedEvents = x.pre.droppedEvents := by omega
      obtain ⟨groups, hflatten, hgroups⟩ := h.groups (hkept ▸ hnone)
      obtain ⟨groups', hflatten', hgroups'⟩ := henqueued.groups hkept hgroups
      exact ⟨groups', by rw [hflatten', hflatten, hincoming, hnew], hsame ▸ hgroups'⟩
  · have hlist : removed (tr ++ [x]) ++ x.post.events = removed tr ++ x.pre.events := by
      rw [hremoved, hevents]
      simp
    have hnone : x.incoming = [] ∧ x.refused = [] ∧ x.evicted = [] := by
      cases haction : x.action with
      | enqueueDragDropEvent data terminal => exact absurd haction (hcall data terminal)
      | _ => simp [Step.incoming, Step.refused, Step.evicted, haction]
    obtain ⟨hincomingNil, hrefusedNil, hevictedNil⟩ := hnone
    refine ⟨hwell, hframe.capacity.trans h.capacity, ?_, ?_, ?_, fun hdropped => ?_⟩
    · rw [hlist, hframe.nextSequence]
      exact h.numbered
    · exact (hevents ▸ h.apart : List.IsChain _ _).right_of_append
    · rw [hframe.droppedEvents, h.drops, hrefused, hevicted, hrefusedNil, hevictedNil,
        List.append_nil, List.append_nil, Nat.add_zero]
    · rw [hframe.droppedEvents, Nat.add_zero] at hdropped
      obtain ⟨groups, hflatten, hgroups⟩ := h.groups hdropped
      exact ⟨groups, by rw [hflatten, hincoming, hincomingNil, List.append_nil], hlist ▸ hgroups⟩

/-- **The accounts of a run.** -/
theorem accounts_run {eventStorage : List Event} (hpos : 0 < eventStorage.length)
    (h : Trace step (.initial eventStorage) tr s) : Accounts eventStorage.length tr s :=
  h.history (accounts_initial eventStorage) fun _ _ _ hs hbefore => accounts_step hbefore hpos hs

theorem popped_sublist (tr : List Step) : (popped tr).Sublist (removed tr) := by
  induction tr with
  | nil => exact .slnil
  | cons x tr ih => exact (List.sublist_append_left x.popped x.cleared).append ih

end

/-- **The event queue of a drop target**: in every run the lists through the slots are consistent,
the popped events are in order, a terminal event is queued, an ordinary event leaves only popped,
cleared or as the oldest one for a terminal event, the drops are counted, adjacent movements of a
session are one event, and while nothing is dropped the events stand for all that came in. -/
theorem dragDropQueue {eventStorage : List Event} (hpos : 0 < eventStorage.length)
    {tr : List Step} {s : DragDropState} (h : Trace step (.initial eventStorage) tr s) :
    (∃ fifo free, Consistent s fifo free ∧ s.events = fifo.map s.slot) ∧
    ((popped tr).map Event.sequence).Pairwise (· < ·) ∧
    (∀ x ∈ tr, ∀ data, x.action = .enqueueDragDropEvent data true →
      (enqueueDragDropEvent x.pre data true).1 = true ∧
        ∃ event, x.post.events.getLast? = some event ∧ event.sequence = x.pre.nextSequence ∧
          (event = x.pre.incoming data ∨ ∃ last, x.pre.events.getLast? = some last ∧
            coalesced last (x.pre.incoming data) = some event)) ∧
    (∀ x ∈ tr, ∀ e ∈ x.pre.events, movement e = false → e ∉ x.post.events →
      e ∈ x.popped ∨ e ∈ x.cleared ∨
        (∃ data, x.action = .enqueueDragDropEvent data true) ∧
          x.pre.events.length = x.pre.eventStorage.length ∧
          (∀ other ∈ x.pre.events, movement other = false) ∧ x.pre.events.head? = some e) ∧
    s.droppedEvents = (refused tr).length + (evicted tr).length ∧
    s.events.IsChain Apart ∧
    (s.droppedEvents = 0 → ∃ groups : List (List Event), groups.flatten = incoming tr ∧
      List.Forall₂ Represents groups (removed tr ++ s.events)) := by
  have haccounts := accounts_run hpos h
  have hsteps : ∀ x ∈ tr, WellFormed x.pre ∧ 0 < x.pre.eventStorage.length := by
    intro x hx
    obtain ⟨before, after, rfl⟩ := List.append_of_mem hx
    have hpre := accounts_run hpos h.split.1
    exact ⟨hpre.well, hpre.capacity ▸ hpos⟩
  obtain ⟨fifo, free, hlists⟩ := haccounts.well
  refine ⟨⟨fifo, free, hlists, hlists.events_eq⟩, ?_, fun x hx data haction => ?_,
    fun x hx e he hkind hmissing => ?_, haccounts.drops, haccounts.apart, haccounts.groups⟩
  · exact (haccounts.numbered.sublist
      ((popped_sublist tr).trans (List.sublist_append_left _ _))).1
  · obtain ⟨hwell, hroom⟩ := hsteps x hx
    have hs := h.mem_step hx
    rw [haction] at hs
    obtain hpost := Option.some.inj hs
    rw [← hpost]
    exact (enqueue_spec hwell hroom data true).2.terminal_queued
  · obtain ⟨hwell, hroom⟩ := hsteps x hx
    rcases (step_cases hwell hroom (h.mem_step hx)).2 with
      ⟨data, terminal, haction, henqueued⟩ | ⟨-, -, hevents⟩
    · obtain ⟨rfl, hfull, hstill, hhead⟩ := henqueued.evicted_of_missing he hkind hmissing
      exact .inr (.inr ⟨⟨data, haction⟩, hfull, hstill, hhead⟩)
    · rw [hevents, List.mem_append, List.mem_append] at he
      tauto

/-- A session on two slots: its movements coalesce, and its drop evicts the one that is left. -/
def sessionCalls : List QueueCall := [
  .enqueueDragDropEvent (.entered 1 {} none .none (some [])) false,
  .enqueueDragDropEvent (.moved 1 { x := 1 } none (some 7) .copy (some [])) false,
  .enqueueDragDropEvent (.moved 1 { x := 2 } (some 7) (some 8) .copy (some [])) false,
  .enqueueDragDropEvent (.dropped 1 { x := 2 } 8 .copy [.text [0x61]]) true,
  .popEvent,
  .enqueueDragDropEvent (.entered 2 {} none .none (some [])) false,
  .enqueueDragDropEvent (.left 2) false,
  .popEvents 3]

def sessionRun : List Step × DragDropState :=
  (Lib.run step (.initial [{}, {}]) sessionCalls).get (by decide +kernel)

theorem dragDropQueue_sessionCalls :
    popped sessionRun.1 = [⟨1, .entered 1 {} none .none (some [])⟩,
      ⟨4, .dropped 1 { x := 2 } 8 .copy [.text [0x61]]⟩,
      ⟨5, .entered 2 {} none .none (some [])⟩] ∧
    sessionRun.2.droppedEvents = (refused sessionRun.1).length + (evicted sessionRun.1).length ∧
    (refused sessionRun.1).length = 1 ∧ (evicted sessionRun.1).length = 1 := by
  have hrun : Trace step (.initial [{}, {}]) sessionRun.1 sessionRun.2 :=
    Trace.of_run (Option.some_get _).symm
  exact ⟨by decide +kernel, (dragDropQueue (by decide) hrun).2.2.2.2.1, by decide +kernel,
    by decide +kernel⟩

end DragDrop

end Desktop

import GameWIP.Desktop.Proof.DropTarget

/-!
# Runs of a drop target

`replay` reads a list of events as sessions: `Entered`, movements that start where the event before
them ended, and one `Left` or `Dropped`. Coalescing does not change what is read (`replay_eq`), so the
events that a consumer sees are the sessions the callbacks made.
-/

namespace Desktop

namespace DragDrop

open DataTransfer (Format Item)
open Events (LogicalPosition)
open Lib (Trace Transition)

/-! ## Sessions in a list of events -/

/-- The session after an event; `none` when the event does not fit. A session without an end may be
followed by the next one only where `unclosed` says so. -/
def follow (unclosed : Bool) (visit : Visit) (event : Event) : Option Visit :=
  match event.data with
  | .entered sessionId _ region _ _ =>
    if visit.isNone || unclosed then some (some (sessionId, region)) else none
  | .moved sessionId _ previousRegion region _ _ =>
    if visit = some (sessionId, previousRegion) then some (some (sessionId, region)) else none
  | .left sessionId => if visit.map Prod.fst = some sessionId then some none else none
  | .dropped sessionId _ _ _ _ => if visit.map Prod.fst = some sessionId then some none else none

def replay (unclosed : Bool) (visit : Visit) (events : List Event) : Option Visit :=
  events.foldlM (follow unclosed) visit

section
variable {unclosed : Bool} {start visit v : Visit} {e first : Event} {l r group : List Event}
  {session : SessionId}

@[simp] theorem replay_nil : replay unclosed v [] = some v := rfl

@[simp] theorem replay_cons :
    replay unclosed v (e :: l) = (follow unclosed v e).bind fun v => replay unclosed v l := rfl

@[simp] theorem replay_append :
    replay unclosed v (l ++ r) = (replay unclosed v l).bind fun v => replay unclosed v r := by
  simp [replay, List.foldlM_append]

theorem follow_mono (h : follow false v e = some visit) : follow true v e = some visit := by
  obtain ⟨_, data⟩ := e
  cases data with
  | entered => 
    simp only [follow, Bool.or_false, Bool.or_true, if_true] at h ⊢
    split at h
    · exact h
    · cases h
  | _ => exact h

/-- What is read with every session closed is read the same without. -/
theorem replay_mono (h : replay false v l = some visit) : replay true v l = some visit := by
  induction l generalizing v with
  | nil => exact h
  | cons e l ih =>
    obtain ⟨v', hv', h⟩ := Option.bind_eq_some_iff.1 h
    rw [replay_cons, follow_mono hv']
    exact ih h

theorem movedSession_eq_some_iff : movedSession e = some session ↔
    ∃ position previous region effect formats,
      e.data = .moved session position previous region effect formats := by
  obtain ⟨_, data⟩ := e
  cases data <;> simp [movedSession]

/-- Linked movements of a session lead from the first one's previous region to the last one's. -/
theorem replay_moved {previous region : Option RegionId} {position position₁ : LogicalPosition}
    {previous₁ region₁ : Option RegionId} {effect effect₁ : Effect}
    {formats formats₁ : Option (List Format)} {n : Nat}
    (hsame : ∀ e ∈ group, movedSession e = some session) (hhead : group.head? = some first)
    (hfirst : first.data = .moved session position₁ previous region₁ effect₁ formats₁)
    (hlast : group.getLast? = some ⟨n, .moved session position previous₁ region effect formats⟩)
    (hreplay : replay true start group = some visit) (unclosed : Bool) (v : Visit) :
    replay unclosed v group =
      if v = some (session, previous) then some (some (session, region)) else none := by
  induction group generalizing start first previous position₁ region₁ effect₁ formats₁ unclosed v with
  | nil => cases hhead
  | cons m rest ih =>
    obtain rfl := Option.some.inj hhead
    have hfollow : ∀ u w, follow u w m =
        if w = some (session, previous) then some (some (session, region₁)) else none := by
      intro u w
      rw [follow, hfirst]
    cases rest with
    | nil =>
      obtain rfl := Option.some.inj hlast
      cases hfirst
      rw [replay_cons, hfollow]
      split <;> rfl
    | cons m' rest =>
      obtain ⟨_, previous', _, _, _, hm'⟩ := movedSession_eq_some_iff.1 (hsame m' (by simp))
      obtain ⟨w, hw, hrest⟩ := Option.bind_eq_some_iff.1 hreplay
      have hread := ih (fun e he => hsame e (List.mem_cons_of_mem _ he)) rfl hm'
        (by simpa using hlast) hrest
      -- the second movement starts where the first one ends
      have hlinked : region₁ = previous' := by
        rw [hfollow] at hw
        split at hw
        · obtain rfl := Option.some.inj hw
          have hstart := (hread true (some (session, region₁))).symm.trans hrest
          split at hstart
          · rename_i heq
            exact (Prod.mk.inj (Option.some.inj heq)).2
          · cases hstart
        · cases hw
      rw [replay_cons, hfollow]
      split
      · rw [Option.bind_some, hread, hlinked, if_pos rfl]
      · rfl

/-- What coalesced is read like the group it stands for. -/
theorem Represents.replay (h : Represents group e) (hreplay : replay true start group = some visit)
    (unclosed : Bool) (v : Visit) : replay unclosed v group = follow unclosed v e := by
  cases h with
  | alone => rw [replay_cons]; cases follow unclosed v e <;> rfl
  | moved same head first last => exact replay_moved same head first last hreplay unclosed v

/-- **Coalescing keeps the sessions.** -/
theorem replay_eq {groups : List (List Event)} (h : List.Forall₂ Represents groups l)
    (hreplay : replay true start groups.flatten = some visit) (unclosed : Bool) (v : Visit) :
    replay unclosed v groups.flatten = replay unclosed v l := by
  induction h generalizing start v with
  | nil => rfl
  | cons hgroup _ ih =>
    rw [List.flatten_cons, replay_append] at hreplay
    obtain ⟨v', hv', hrest⟩ := Option.bind_eq_some_iff.1 hreplay
    rw [List.flatten_cons, replay_append, replay_cons, hgroup.replay hv']
    congr 1
    funext w
    exact ih hrest w

end

/-! ## Runs -/

abbrev TargetStep := Transition TargetState TargetCall

/-- What a callback makes of being inside a visit; the callbacks of a visit come in order. -/
def visitCall (inside : Bool) : TargetCall → Option Bool
  | .dragEnter .. => if inside then none else some true
  | .dragOver .. => if inside then some true else none
  | .dragLeave => if inside then some false else none
  | .drop .. => if inside then some false else none
  | _ => some inside

/-- Each `DragEnter` of the run is followed by any number of `DragOver` and one `DragLeave` or `Drop`;
`inside` says whether the run ends within a visit. -/
def Visits (tr : List TargetStep) (inside : Bool) : Prop :=
  (tr.map Transition.action).foldlM visitCall false = some inside

namespace TargetStep

/-- The step as one of the queue. -/
def onQueue (x : TargetStep) (call : QueueCall) : Step := ⟨x.pre.queue, call, x.post.queue⟩

/-- What the consumer takes out at the front. -/
def removed (x : TargetStep) : List Event :=
  match consumerCall x.action with
  | some call => (onQueue x call).popped ++ (onQueue x call).cleared
  | none => []

/-- A drop of an open session that the target does not take. -/
def Rejected (x : TargetStep) : Prop :=
  ∃ effectPointer object point materialize,
    x.action = .drop effectPointer object point materialize ∧ x.pre.visit ≠ none ∧
    ¬ Accepted x.pre effectPointer object point materialize

end TargetStep

/-- What has left the queue at the front, popped or cleared. -/
def taken (tr : List TargetStep) : List Event := tr.flatMap TargetStep.removed

/-- The sessions of a run, before they are coalesced. -/
structure Sessions (eventStorage : List Event) (tr : List TargetStep) (s : TargetState)
    (inside : Bool) (qtr : List Step) : Prop where
  coherent : Coherent s
  outside : inside = false → s.visit = none
  queue : Trace step (.initial eventStorage) qtr s.queue
  removed : removed qtr = taken tr
  unclosed : ∃ visit, replay true none (incoming qtr) = some visit ∧ (s.visit ≠ none → visit = s.visit)
  closed : replay false none (incoming qtr) = some s.visit ↔ ∀ x ∈ tr, ¬ TargetStep.Rejected x

section
variable {eventStorage : List Event} {regions : List DragDropRegion} {tr : List TargetStep}
  {x : TargetStep} {s : TargetState} {inside inside' : Bool} {qtr : List Step}

theorem sessions_initial :
    Sessions eventStorage [] (.initial eventStorage regions) false [] := by
  have hvisit : (TargetState.initial eventStorage regions).visit = none := rfl
  refine ⟨by simp [Coherent, TargetState.initial], fun _ => hvisit, .nil _, rfl, ?_, ?_⟩
  · exact ⟨none, rfl, fun hopen => absurd hvisit hopen⟩
  · rw [hvisit]
    exact iff_of_true rfl fun _ hx => absurd hx List.not_mem_nil

/-- A step that routes an event. -/
theorem Sessions.route (h : Sessions eventStorage tr x.pre inside qtr) {data : EventPayload}
    {terminal : Bool}
    (hqueue : x.post.queue = (enqueueDragDropEvent x.pre.queue data terminal).2)
    (hconsumer : consumerCall x.action = none) (hkept : ¬ TargetStep.Rejected x)
    (hcoherent : Coherent x.post) (houtside : inside' = false → x.post.visit = none)
    (hfollow : ∀ v, (x.pre.visit ≠ none → v = x.pre.visit) →
      follow true v (x.pre.queue.incoming data) = some x.post.visit ∧
      (follow false v (x.pre.queue.incoming data) = some x.post.visit ↔ v = x.pre.visit)) :
    Sessions eventStorage (tr ++ [x]) x.post inside' 
      (qtr ++ [x.onQueue (.enqueueDragDropEvent data terminal)]) := by
  have hincoming : incoming (qtr ++ [x.onQueue (.enqueueDragDropEvent data terminal)]) =
      incoming qtr ++ [x.pre.queue.incoming data] := by
    simp [incoming, Step.incoming, TargetStep.onQueue]
  obtain ⟨v, hv, hvisit⟩ := h.unclosed
  obtain ⟨hloose, -⟩ := hfollow v hvisit
  refine ⟨hcoherent, houtside, ?_, ?_, ⟨x.post.visit, ?_, fun _ => rfl⟩, ?_⟩
  · exact h.queue.concat (hqueue ▸ rfl)
  · rw [taken, List.flatMap_append, ← taken, ← h.removed]
    simp [DragDrop.removed, TargetStep.removed, hconsumer, Step.popped, Step.cleared,
      TargetStep.onQueue]
  · rw [hincoming, replay_append, hv, Option.bind_some, replay_cons, hloose]
    rfl
  · have hall : (∀ y ∈ tr ++ [x], ¬ TargetStep.Rejected y) ↔ ∀ y ∈ tr, ¬ TargetStep.Rejected y := by
      rw [List.forall_mem_append, List.forall_mem_singleton, and_iff_left hkept]
    rw [hall, ← h.closed, hincoming, replay_append]
    constructor
    · intro hclosed
      obtain ⟨w, hw, hnext⟩ := Option.bind_eq_some_iff.1 hclosed
      obtain rfl : w = v := Option.some.inj ((replay_mono hw).symm.trans hv)
      rw [replay_cons, Option.bind_eq_some_iff] at hnext
      obtain ⟨w', hw', heq⟩ := hnext
      obtain rfl := Option.some.inj heq
      rw [hw, (hfollow w hvisit).2.1 hw']
    · intro hclosed
      rw [hclosed, Option.bind_some, replay_cons, (hfollow _ fun _ => rfl).2.2 rfl]
      rfl

/-- A step that routes nothing and leaves the session. -/
theorem Sessions.same (h : Sessions eventStorage tr x.pre inside qtr)
    (hqueue : x.post.queue = x.pre.queue) (hconsumer : consumerCall x.action = none)
    (hkept : ¬ TargetStep.Rejected x) (hcoherent : Coherent x.post)
    (houtside : inside' = false → x.post.visit = none) (hvisit : x.post.visit = x.pre.visit) :
    Sessions eventStorage (tr ++ [x]) x.post inside' qtr := by
  refine ⟨hcoherent, houtside, hqueue ▸ h.queue, ?_, hvisit ▸ h.unclosed, ?_⟩
  · rw [taken, List.flatMap_append, ← taken, ← h.removed]
    simp [TargetStep.removed, hconsumer]
  · rw [hvisit, h.closed, List.forall_mem_append, List.forall_mem_singleton, and_iff_left hkept]

/-- A step that a rejected drop makes. -/
theorem Sessions.reject (h : Sessions eventStorage tr x.pre inside qtr)
    (hqueue : x.post.queue = x.pre.queue) (hconsumer : consumerCall x.action = none)
    (hrejected : TargetStep.Rejected x) (hcoherent : Coherent x.post)
    (hvisit : x.post.visit = none) :
    Sessions eventStorage (tr ++ [x]) x.post inside' qtr := by
  obtain ⟨v, hv, hopen⟩ := h.unclosed
  refine ⟨hcoherent, fun _ => hvisit, hqueue ▸ h.queue, ?_, ⟨v, hv, fun h => absurd hvisit h⟩, ?_⟩
  · rw [taken, List.flatMap_append, ← taken, ← h.removed]
    simp [TargetStep.removed, hconsumer]
  · refine iff_of_false (fun hclosed => ?_) fun hall => hall x (by simp) hrejected
    obtain ⟨_, _, _, _, -, hsession, -⟩ := hrejected
    rw [hvisit] at hclosed
    have hnone : none = v := Option.some.inj ((replay_mono hclosed).symm.trans hv)
    exact hsession (hnone.trans (hopen hsession)).symm

/-- A call of the consumer. -/
theorem Sessions.consume (h : Sessions eventStorage tr x.pre inside qtr) {call : QueueCall}
    (hconsumer : consumerCall x.action = some call)
    (hqueue : DragDrop.step x.pre.queue call = some x.post.queue) (hcoherent : Coherent x.post)
    (houtside : inside' = false → x.post.visit = none) (hvisit : x.post.visit = x.pre.visit) :
    Sessions eventStorage (tr ++ [x]) x.post inside' (qtr ++ [x.onQueue call]) := by
  have hkept : ¬ TargetStep.Rejected x := by
    rintro ⟨_, _, _, _, haction, -⟩
    rw [haction] at hconsumer
    cases hconsumer
  have hincoming : incoming (qtr ++ [x.onQueue call]) = incoming qtr := by
    have hnone : (x.onQueue call).incoming = [] := by
      cases haction : x.action <;> rw [haction] at hconsumer <;> cases hconsumer <;> rfl
    simp [incoming, hnone]
  refine ⟨hcoherent, houtside, h.queue.concat hqueue, ?_, ?_, ?_⟩
  · rw [taken, List.flatMap_append, ← taken, ← h.removed]
    simp [DragDrop.removed, TargetStep.removed, hconsumer]
  · rw [hincoming, hvisit]
    exact h.unclosed
  · rw [hincoming, hvisit, h.closed, List.forall_mem_append, List.forall_mem_singleton,
      and_iff_left hkept]

theorem visitCall_outside {a : TargetCall} (h : visitCall inside a = some false) :
    endsVisit a = true ∨ inside = false := by
  cases a <;> simp_all [visitCall, endsVisit]

theorem Sessions.step (h : Sessions eventStorage tr x.pre inside qtr)
    (hs : x.pre.step x.action = some x.post) (hcall : visitCall inside x.action = some inside') :
    ∃ qtr', Sessions eventStorage (tr ++ [x]) x.post inside' qtr' := by
  obtain ⟨hstepped, hcoherent⟩ := stepped hs h.coherent
  have houtside : inside' = false → x.pre.visit = none ∨ endsVisit x.action = true := by
    rintro rfl
    exact (visitCall_outside hcall).symm.imp h.outside id
  obtain ⟨pre, action, post⟩ := x
  dsimp only at *
  cases hstepped with
  | quiet queue visit consumer ended =>
    refine ⟨qtr, h.same queue consumer ?_ hcoherent (fun hnone => ?_) visit⟩
    · rintro ⟨_, _, _, _, haction, hsession, -⟩
      dsimp only at haction
      exact hsession (ended (haction ▸ rfl))
    · rw [visit]
      exact (houtside hnone).elim id ended
  | failed queue visit =>
    have hclosed : pre.visit = none := h.outside (by
      cases inside
      · rfl
      · cases hcall)
    refine ⟨qtr, h.same queue rfl ?_ hcoherent (fun _ => visit) (visit.trans hclosed.symm)⟩
    rintro ⟨_, _, _, _, haction, -⟩
    cases haction
  | entered session region selected formats queue visit =>
    have hclosed : pre.visit = none := h.outside (by
      cases inside
      · rfl
      · cases hcall)
    have hinside : inside' ≠ false := by
      cases inside
      · cases hcall
        decide
      · cases hcall
    refine ⟨_, h.route queue rfl ?_ hcoherent (fun hnone => absurd hnone hinside) fun v _ => ?_⟩
    · rintro ⟨_, _, _, _, haction, -⟩
      cases haction
    · dsimp only
      rw [visit, hclosed]
      cases v <;> simp [follow, DragDropState.incoming]
  | moved session previous region selected formats before queue visit =>
    have hinside : inside' ≠ false := by
      cases inside
      · cases hcall
      · cases hcall
        decide
    refine ⟨_, h.route queue rfl ?_ hcoherent (fun hnone => absurd hnone hinside) fun v hv => ?_⟩
    · rintro ⟨_, _, _, _, haction, -⟩
      cases haction
    · dsimp only at hv ⊢
      rw [before] at hv ⊢
      obtain rfl := hv (by simp)
      rw [visit]
      simp [follow, DragDropState.incoming]
  | left session previous before queue visit =>
    refine ⟨_, h.route queue rfl ?_ hcoherent (fun _ => visit) fun v hv => ?_⟩
    · rintro ⟨_, _, _, _, haction, -⟩
      cases haction
    · dsimp only at hv ⊢
      rw [before] at hv ⊢
      obtain rfl := hv (by simp)
      rw [visit]
      simp [follow, DragDropState.incoming]
  | dropped session previous region effect payload before accepted completed reported queue visit =>
    refine ⟨_, h.route queue rfl ?_ hcoherent (fun _ => visit) fun v hv => ?_⟩
    · rintro ⟨_, _, _, _, haction, -, hrefused⟩
      cases haction
      exact hrefused accepted
    · dsimp only at hv ⊢
      rw [before] at hv ⊢
      obtain rfl := hv (by simp)
      rw [visit]
      simp [follow, DragDropState.incoming]
  | rejected refused reported queue visit =>
    by_cases hclosed : pre.visit = none
    · refine ⟨qtr, h.same queue rfl ?_ hcoherent (fun _ => visit) (visit.trans hclosed.symm)⟩
      rintro ⟨_, _, _, _, -, hsession, -⟩
      exact hsession hclosed
    · exact ⟨qtr, h.reject queue rfl ⟨_, _, _, _, rfl, hclosed, refused⟩ hcoherent visit⟩
  | consumed call consumer queue visit =>
    refine ⟨_, h.consume consumer queue hcoherent (fun hnone => ?_) visit⟩
    rw [visit]
    refine (houtside hnone).elim id fun hends => ?_
    cases action <;> simp_all [endsVisit, consumerCall]

/-- **The sessions of a run.** -/
theorem sessions_run (h : Trace TargetState.step (.initial eventStorage regions) tr s)
    (hvisits : Visits tr inside) : ∃ qtr, Sessions eventStorage tr s inside qtr := by
  refine h.history (P := fun tr s => ∀ inside, Visits tr inside →
    ∃ qtr, Sessions eventStorage tr s inside qtr) ?_ ?_ inside hvisits
  · rintro _ hvisits
    cases hvisits
    exact ⟨[], sessions_initial⟩
  · intro tr x _ hs ih inside' hvisits
    rw [Visits, List.map_append, List.foldlM_append] at hvisits
    obtain ⟨inside, hbefore, hcall⟩ := Option.bind_eq_some_iff.1 hvisits
    obtain ⟨qtr, hsessions⟩ := ih inside hbefore
    refine hsessions.step hs ?_
    obtain ⟨_, hcall, heq⟩ := Option.bind_eq_some_iff.1 hcall
    cases heq
    exact hcall

/-! ## The queue of a run -/

/-- A call leaves the queue, or makes one call on it. -/
theorem Stepped.queue_cases {t : TargetState} {a : TargetCall} (h : Stepped s a t) :
    t.queue = s.queue ∨ ∃ call, DragDrop.step s.queue call = some t.queue := by
  cases h with
  | quiet queue => exact .inl queue
  | failed queue => exact .inl queue
  | entered _ _ _ _ queue => exact .inr ⟨.enqueueDragDropEvent _ false, congrArg some queue.symm⟩
  | moved _ _ _ _ _ _ queue => exact .inr ⟨.enqueueDragDropEvent _ false, congrArg some queue.symm⟩
  | left _ _ _ queue => exact .inr ⟨.enqueueDragDropEvent _ false, congrArg some queue.symm⟩
  | dropped _ _ _ _ _ _ _ _ _ queue => exact .inr ⟨.enqueueDragDropEvent _ true, congrArg some queue.symm⟩
  | rejected _ _ queue => exact .inl queue
  | consumed call _ queue => exact .inr ⟨call, queue⟩

/-- The lists of the queue are consistent, and so is the session. -/
structure Sound (s : TargetState) : Prop where
  queue : WellFormed s.queue
  capacity : 0 < s.queue.eventStorage.length
  session : Coherent s

/-- One call keeps the target sound and takes no drop back. -/
theorem Sound.step {t : TargetState} {a : TargetCall} (h : Sound s) (hs : s.step a = some t) :
    Sound t ∧ s.queue.droppedEvents ≤ t.queue.droppedEvents := by
  obtain ⟨hstepped, hcoherent⟩ := stepped hs h.session
  rcases hstepped.queue_cases with hqueue | ⟨call, hqueue⟩
  · exact ⟨⟨hqueue ▸ h.queue, hqueue ▸ h.capacity, hcoherent⟩, le_of_eq (by rw [hqueue])⟩
  · obtain ⟨hwell, hcases⟩ := step_cases (x := ⟨s.queue, call, t.queue⟩) h.queue h.capacity hqueue
    have hframe : ∃ n m, Frame s.queue t.queue n m := by
      rcases hcases with ⟨_, _, -, henqueued⟩ | ⟨-, hframe, -⟩
      · exact ⟨1, henqueued.frame⟩
      · exact ⟨0, 0, hframe⟩
    obtain ⟨_, _, hframe⟩ := hframe
    exact ⟨⟨hwell, hframe.capacity ▸ h.capacity, hcoherent⟩,
      hframe.droppedEvents ▸ Nat.le_add_right _ _⟩

theorem Sound.run {t : TargetState} (h : Sound s) (hr : Trace TargetState.step s tr t) :
    Sound t ∧ s.queue.droppedEvents ≤ t.queue.droppedEvents := by
  refine (hr.invariant_of_step (I := fun u => Sound u ∧ s.queue.droppedEvents ≤ u.queue.droppedEvents)
    ⟨h, le_rfl⟩ fun u a v hu hs => ?_).1
  obtain ⟨hv, hle⟩ := hu.1.step hs
  exact ⟨hv, hu.2.trans hle⟩

theorem sound_initial (hpos : 0 < eventStorage.length) : Sound (.initial eventStorage regions) where
  queue := ⟨_, _, .initial eventStorage⟩
  capacity := hpos
  session := by simp [Coherent, TargetState.initial]

/-- What an ordinary enqueue brings in is its event, or a movement. -/
theorem Enqueued.mem_cases {q q' : DragDropState} {data : EventPayload} {terminal result : Bool}
    (h : Enqueued q data terminal result q') {e : Event} (he : e ∈ q'.events) (hnew : e ∉ q.events) :
    e = q.incoming data ∨ movement e = true := by
  cases h with
  | coalesced front last event before merge after _ =>
    rw [after] at he
    rw [before] at hnew
    rcases List.mem_append.1 he with he | he
    · exact absurd (List.mem_append_left _ he) hnew
    · exact .inr (List.mem_singleton.1 he ▸ (movement_of_coalesced merge).2.2)
  | refused _ _ _ after _ => exact absurd (after ▸ he) hnew
  | queued _ _ after _ =>
    rw [after] at he
    exact .inl ((List.mem_append.1 he).elim (fun he => absurd he hnew) List.mem_singleton.1)
  | evicted l r lost _ _ _ before _ after _ =>
    rw [after] at he
    rw [before] at hnew
    refine .inl ((List.mem_append.1 he).elim (fun he => absurd ?_ hnew) List.mem_singleton.1)
    rcases List.mem_append.1 he with he | he
    · exact List.mem_append_left _ he
    · exact List.mem_append_right _ (List.mem_cons_of_mem _ he)

/-- Nothing is dropped: a final event that does not coalesce comes last. -/
theorem Enqueued.appended {q q' : DragDropState} {data : EventPayload} {terminal result : Bool}
    (h : Enqueued q data terminal result q') (hdata : movement (q.incoming data) = false)
    (hroom : q'.droppedEvents = q.droppedEvents) : q'.events = q.events ++ [q.incoming data] := by
  cases h with
  | coalesced front last event before merge _ _ =>
    rw [(movement_of_coalesced merge).2.1] at hdata
    cases hdata
  | refused _ _ _ _ frame =>
    have := frame.droppedEvents
    omega
  | queued _ _ after _ => exact after
  | evicted l r lost _ _ _ _ _ _ frame =>
    have := frame.droppedEvents
    omega

/-- What a drop reports and queues: nothing, or one complete event with the effect reported. -/
inductive DropOutcome (x : TargetStep) (effectPointer object : Bool) (point : LogicalPosition)
    (materialize : Format → Option Item) : Prop
  | nothing (reported : (drop x.pre effectPointer object point materialize).1.getD 0 = 0)
      (events : x.post.queue.events = x.pre.queue.events)
  | completed (session : SessionId) (previous : Option RegionId) (region : DragDropRegion)
      (effect : Effect) (payload : List Item) (before : x.pre.visit = some (session, previous))
      (completed : Completed x.pre point materialize region effect payload)
      (reported : (drop x.pre effectPointer object point materialize).1 = some (nativeEffects effect))
      (some_effect : nativeEffects effect ≠ 0)
      (events : x.post.queue.events = x.pre.queue.events ++
        [⟨x.pre.queue.nextSequence, .dropped session point region.id effect payload⟩])

theorem nativeEffects_ne_zero {effect : Effect} (hvalid : validEffectBits effect = true)
    (hne : effect ≠ .none) : nativeEffects effect ≠ 0 := by
  intro h
  have hback := portableEffects_nativeEffects effect hvalid
  rw [h] at hback
  exact hne (hback.symm.trans (by decide))

/-- Without a session a drop reports no effect. -/
theorem drop_of_closed {effectPointer object : Bool} {point : LogicalPosition}
    {materialize : Format → Option Item} (h : s.visit = none) :
    (drop s effectPointer object point materialize).1.getD 0 = 0 := by
  have hclosed : s.formats.isNone = true := by
    rw [Option.isNone_iff_eq_none, ← Option.not_isSome_iff_eq_none]
    intro hopen
    rw [TargetState.visit, if_pos hopen] at h
    cases h
  rw [drop, if_pos (by simp [hclosed])]
  cases effectPointer <;> rfl

theorem Sound.drop_outcome (h : Sound x.pre) (hs : x.pre.step x.action = some x.post)
    (hroom : x.post.queue.droppedEvents = x.pre.queue.droppedEvents) {effectPointer object : Bool}
    {point : LogicalPosition} {materialize : Format → Option Item}
    (haction : x.action = .drop effectPointer object point materialize) :
    DropOutcome x effectPointer object point materialize := by
  obtain ⟨hstepped, -⟩ := stepped hs h.session
  obtain ⟨pre, action, post⟩ := x
  dsimp only at *
  subst haction
  cases hstepped with
  | quiet queue visit consumer ended =>
    refine .nothing (drop_of_closed (ended rfl)) (by rw [queue])
  | dropped session previous region effect payload before accepted completed reported queue visit =>
    have henqueued := (enqueue_spec h.queue h.capacity
      (.dropped session point region.id effect payload) true).2
    rw [← queue] at henqueued
    exact .completed session previous region effect payload before completed reported
      (nativeEffects_ne_zero completed.valid completed.some_effect) (henqueued.appended rfl hroom)
  | rejected refused reported queue visit => exact .nothing reported (by rw [queue])
  | consumed call consumer => cases consumer

/-- Only a drop brings in a `Dropped` event. -/
theorem Sound.drop_of_dropped (h : Sound x.pre) (hs : x.pre.step x.action = some x.post) {e : Event}
    (he : e ∈ x.post.queue.events) (hnew : e ∉ x.pre.queue.events) {session : SessionId}
    {position : LogicalPosition} {region : RegionId} {effect : Effect} {payload : List Item}
    (hdata : e.data = .dropped session position region effect payload) :
    ∃ effectPointer object point materialize,
      x.action = .drop effectPointer object point materialize := by
  obtain ⟨hstepped, -⟩ := stepped hs h.session
  obtain ⟨pre, action, post⟩ := x
  dsimp only at *
  have hstill : movement e = false := by simp [movement, hdata]
  have hother : ∀ data terminal, post.queue = (enqueueDragDropEvent pre.queue data terminal).2 →
      e.data = data := by
    intro data terminal hqueue
    have henqueued := (enqueue_spec h.queue h.capacity data terminal).2
    rw [← hqueue] at henqueued
    rcases henqueued.mem_cases he hnew with rfl | hmoved
    · rfl
    · rw [hstill] at hmoved
      cases hmoved
  cases hstepped with
  | quiet queue => exact absurd (queue ▸ he) hnew
  | failed queue => exact absurd (queue ▸ he) hnew
  | entered _ _ _ _ queue => cases hdata.symm.trans (hother _ _ queue)
  | moved _ _ _ _ _ _ queue => cases hdata.symm.trans (hother _ _ queue)
  | left _ _ _ queue => cases hdata.symm.trans (hother _ _ queue)
  | dropped => exact ⟨_, _, _, _, rfl⟩
  | rejected => exact ⟨_, _, _, _, rfl⟩
  | consumed call consumer queue =>
    have hcases := (step_cases (x := ⟨pre.queue, call, post.queue⟩) h.queue h.capacity queue).2
    rcases hcases with ⟨data, terminal, hcall, -⟩ | ⟨-, -, hevents⟩
    · dsimp only at hcall
      subst hcall
      cases action <;> cases consumer
    · exact absurd (hevents ▸ List.mem_append_right _ he) hnew

end

/-- A target whose client area takes text. -/
def textRegion : DragDropRegion where
  id := 7
  rect := none
  formats := [{}]
  nativeFormats := [13]
  effects := {}
  valid := by decide
  paired := rfl
  clipboard := by simp

/-- A visit that offers text and drops it. -/
def textVisit (materialize : Format → Option Item) : List TargetCall := [
  .dragEnter true 1 {} (some [⟨{}, 13⟩]),
  .dragOver true { x := 1 },
  .drop true true { x := 1 } materialize]

def textRun (materialize : Format → Option Item) :
    Option (List TargetStep × TargetState) :=
  Lib.run TargetState.step (.initial [{}, {}, {}, {}] [textRegion]) (textVisit materialize)

/-- The text is there. -/
def acceptedRun : List TargetStep × TargetState :=
  (textRun fun _ => some (.text [0x61])).get (by decide +kernel)

/-- The text cannot be had any more. -/
def rejectedRun : List TargetStep × TargetState :=
  (textRun fun _ => none).get (by decide +kernel)

end DragDrop

end Desktop

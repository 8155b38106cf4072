import GameWIP.Desktop.Proof.Events

/-!
# Runs of the event queue

The accounts of a run (`accounts_run`) and what a consumer of the popped events sees
(`faithful_run`).
-/

namespace Desktop

namespace Events

open Lib (Trace Transition)

/-! ## What a step publishes, takes in and gives out -/

abbrev Step := Transition WindowState EventCall

namespace Step

def published (x : Step) : List Payload :=
  match x.action with
  | .enqueueEvent data => [data]
  | _ => []

def queued (x : Step) : List Event :=
  match x.action with
  | .enqueueEvent data => Enqueued.taken x.pre data (enqueueEvent x.pre data).1
  | _ => []

def refused (x : Step) : List Payload :=
  match x.action with
  | .enqueueEvent data => if (enqueueEvent x.pre data).1 = .dropped then [data] else []
  | _ => []

/-- The events that an enqueue pushes out, evicted or displaced. -/
def lost (x : Step) : List Event :=
  match x.action with
  | .enqueueEvent data => Enqueued.lost x.pre x.post (enqueueEvent x.pre data).1
  | _ => []

def popped (x : Step) : List Event :=
  match x.action with
  | .popEvent => (popEvent x.pre).1.toList
  | .popEvents size => (popEvents size x.pre).1
  | _ => []

def cleared (x : Step) : List Event :=
  match x.action with
  | .clearEvents => x.pre.events
  | _ => []

/-- The step takes the event out of the queue without popping it: it is cleared, or gives way to
`NativeDestroyed`. -/
def Removes (x : Step) (e : Event) : Prop :=
  e ∈ x.cleared ∨ ∃ data, x.action = .enqueueEvent data ∧ Enqueued.Displaced x.pre data e

end Step

/-- All that the steps of a run have popped. -/
def popped (tr : List Step) : List Event := tr.flatMap Step.popped

def queued (tr : List Step) : List Event := tr.flatMap Step.queued

def published (tr : List Step) : List Payload := tr.flatMap Step.published

def refused (tr : List Step) : List Payload := tr.flatMap Step.refused

def lost (tr : List Step) : List Event := tr.flatMap Step.lost

/-- A step enqueues, or it leaves the numbers and moves events out at the front. -/
theorem step_cases {x : Step} (hactive : x.pre.suppressEvents = false)
    (hs : step x.pre x.action = some x.post) :
    (∃ data result, x.action = .enqueueEvent data ∧ Enqueued x.pre data result x.post ∧
      (enqueueEvent x.pre data).1 = result) ∨
    SameBut x.pre x.post 0 0 ∧ x.pre.events = x.popped ++ x.cleared ++ x.post.events ∧
      x.published = [] ∧ x.queued = [] ∧ x.refused = [] ∧ x.lost = [] ∧
      (x.cleared = [] ∨ x.popped = [] ∧ x.post.events = []) ∧
      ∀ data, x.action ≠ .enqueueEvent data := by
  obtain ⟨pre, action, post⟩ := x
  dsimp only at hactive hs ⊢
  cases action with
  | enqueueEvent data =>
    obtain rfl := Option.some.inj hs
    exact .inl ⟨data, _, rfl, enqueueEvent_enqueued hactive data, rfl⟩
  | popEvent =>
    obtain rfl := Option.some.inj hs
    obtain ⟨hevents, hframe⟩ := popEvent_spec pre
    exact .inr ⟨hframe, by simpa [Step.popped, Step.cleared] using hevents, rfl, rfl, rfl, rfl, .inl rfl,
      nofun⟩
  | popEvents size =>
    obtain rfl := Option.some.inj hs
    obtain ⟨hevents, hframe⟩ := popEvents_spec size pre
    exact .inr ⟨hframe, by simpa [Step.popped, Step.cleared] using hevents, rfl, rfl, rfl, rfl, .inl rfl,
      nofun⟩
  | clearEvents =>
    obtain rfl := Option.some.inj hs
    refine .inr ⟨⟨Lib.Ring.capacity_clear, rfl, rfl, rfl⟩, ?_, rfl, rfl, rfl, rfl, .inr ⟨rfl, rfl⟩, nofun⟩
    simp [Step.popped, Step.cleared, clearEvents, WindowState.events]

/-! ## The accounts -/

/-- What the steps of a run say of the events popped and queued. -/
structure Accounts (capacity : Nat) (tr : List Step) (s : WindowState) : Prop where
  active : s.suppressEvents = false
  capacity : s.queue.capacity = capacity
  increasing : Increasing (popped tr ++ s.events) s.nextSequence
  order : ((popped tr ++ s.events).filter Event.durable).Sublist
    ((queued tr).filter Event.durable)
  missing : ∀ e ∈ queued tr, e.durable = true →
    (e ∉ popped tr ++ s.events ↔ ∃ x ∈ tr, x.Removes e)
  removed : ∀ x ∈ tr, ∀ e, x.Removes e → e.sequence < s.nextSequence
  drops : s.droppedEvents = (refused tr).length + (lost tr).length

theorem accounts_initial {capacity : Nat} (h : 0 < capacity) :
    Accounts capacity [] (.initial capacity h) where
  active := rfl
  capacity := by simp [WindowState.initial, Lib.Ring.ofCapacity, Lib.Ring.capacity]
  increasing := .nil
  order := List.Sublist.refl _
  missing := nofun
  removed := nofun
  drops := rfl

section
variable {capacity : Nat} {tr : List Step} {x : Step} {s : WindowState}

@[simp] theorem popped_concat : popped (tr ++ [x]) = popped tr ++ x.popped := by simp [popped]

@[simp] theorem queued_concat : queued (tr ++ [x]) = queued tr ++ x.queued := by simp [queued]

@[simp] theorem published_concat : published (tr ++ [x]) = published tr ++ x.published := by
  simp [published]

@[simp] theorem refused_concat : refused (tr ++ [x]) = refused tr ++ x.refused := by
  simp [refused]

@[simp] theorem lost_concat : lost (tr ++ [x]) = lost tr ++ x.lost := by simp [lost]

theorem Accounts.events_increasing (h : Accounts capacity tr s) :
    Increasing s.events s.nextSequence :=
  h.increasing.sublist (List.sublist_append_right _ _)

theorem Accounts.lt_of_queued (h : Accounts capacity tr s) {e : Event} (he : e ∈ queued tr)
    (hdurable : e.durable = true) : e.sequence < s.nextSequence := by
  by_cases hmem : e ∈ popped tr ++ s.events
  · exact h.increasing.2 e hmem
  · obtain ⟨x, hx, hremoves⟩ := (h.missing e he hdurable).1 hmem
    exact h.removed x hx e hremoves

/-- What is missing after one enqueue more. -/
theorem Accounts.missing_enqueue (h : Accounts capacity tr x.pre) {data : Payload}
    {result : EnqueueResult} (henqueued : Enqueued x.pre data result x.post)
    (hqueued : x.queued = Enqueued.taken x.pre data result) (hpopped : x.popped = [])
    (hremoves : ∀ e, x.Removes e ↔ Enqueued.Displaced x.pre data e) {e : Event}
    (he : e ∈ queued (tr ++ [x])) (hdurable : e.durable = true) :
    e ∉ popped (tr ++ [x]) ++ x.post.events ↔ ∃ y ∈ tr ++ [x], y.Removes e := by
  have hboth : (∃ y ∈ tr ++ [x], y.Removes e) ↔
      (∃ y ∈ tr, y.Removes e) ∨ Enqueued.Displaced x.pre data e := by
    rw [← hremoves e]
    constructor
    · rintro ⟨y, hy, hr⟩
      rcases List.mem_append.1 hy with hy | hy
      · exact .inl ⟨y, hy, hr⟩
      · exact .inr (List.mem_singleton.1 hy ▸ hr)
    · rintro (⟨y, hy, hr⟩ | hr)
      · exact ⟨y, List.mem_append_left _ hy, hr⟩
      · exact ⟨x, List.mem_append_right _ (List.mem_singleton_self x), hr⟩
  rw [hboth, popped_concat, hpopped, List.append_nil, List.mem_append, not_or]
  rw [queued_concat, hqueued] at he
  rcases List.mem_append.1 he with he | he
  · -- an event taken in before: it is not the new one
    have hlt := h.lt_of_queued he hdurable
    rw [← h.missing e he hdurable, List.mem_append, not_or]
    constructor
    · rintro ⟨hpopped, hpost⟩
      by_cases hpre : e ∈ x.pre.events
      · exact .inr (henqueued.displaced_of_missing hpre hdurable hpost)
      · exact .inl ⟨hpopped, hpre⟩
    · rintro (⟨hpopped, hpre⟩ | hdisplaced)
      · refine ⟨hpopped, fun hpost => ?_⟩
        rcases henqueued.mem_of_durable hpost hdurable with hmem | hmem
        · exact hpre hmem
        · rw [(henqueued.mem_of_taken hmem).1] at hlt
          exact Nat.lt_irrefl _ hlt
      · exact ⟨fun hmem => (List.nodup_append.1 h.increasing.nodup).2.2 e hmem e
          hdisplaced.mem rfl, hdisplaced.missing henqueued h.events_increasing⟩
  · -- the new event
    obtain ⟨heq, hpost⟩ := henqueued.mem_of_taken he
    have hnot : ¬ e.sequence < x.pre.nextSequence := by
      rw [heq]
      exact Nat.lt_irrefl _
    refine iff_of_false (fun hmissing => hmissing.2 hpost) ?_
    rintro (⟨y, hy, hr⟩ | hdisplaced)
    · exact hnot (h.removed y hy e hr)
    · exact hnot (h.events_increasing.2 e hdisplaced.mem)

/-- One enqueue more. -/
theorem Accounts.enqueue (h : Accounts capacity tr x.pre) {data : Payload}
    {result : EnqueueResult} (haction : x.action = .enqueueEvent data)
    (henqueued : Enqueued x.pre data result x.post)
    (hresult : (enqueueEvent x.pre data).1 = result) :
    Accounts capacity (tr ++ [x]) x.post := by
  have hpopped : x.popped = [] := by simp [Step.popped, haction]
  have hqueued : x.queued = Enqueued.taken x.pre data result := by
    simp [Step.queued, haction, hresult]
  have hcleared : x.cleared = [] := by simp [Step.cleared, haction]
  have hremoves : ∀ e, x.Removes e ↔ Enqueued.Displaced x.pre data e := by
    intro e
    simp [Step.Removes, hcleared, haction]
  have hframe : ∃ n m, SameBut x.pre x.post n m := by
    cases henqueued <;> exact ⟨_, _, ‹_›⟩
  obtain ⟨sequences, drops, hframe⟩ := hframe
  have hincreasing := henqueued.increasing h.increasing
  refine ⟨hframe.suppressEvents.trans h.active, hframe.capacity.trans h.capacity, ?_, ?_,
    fun e he hdurable => ?_, fun y hy e hy' => ?_, ?_⟩
  · simpa [hpopped] using hincreasing
  · rw [popped_concat, hpopped, List.append_nil, queued_concat, hqueued, List.filter_append,
      List.filter_append]
    have horder := h.order
    rw [List.filter_append] at horder
    have hstep : ((popped tr).filter Event.durable ++ x.post.events.filter Event.durable).Sublist
        ((popped tr).filter Event.durable ++ x.pre.events.filter Event.durable ++
          (Enqueued.taken x.pre data result).filter Event.durable) := by
      rw [List.append_assoc]
      exact henqueued.durable_sublist.append_left _
    exact hstep.trans (horder.append_right _)
  · exact h.missing_enqueue henqueued hqueued hpopped hremoves he hdurable
  · have hle : x.pre.nextSequence ≤ x.post.nextSequence :=
      hframe.nextSequence ▸ Nat.le_add_right _ _
    rcases List.mem_append.1 hy with hy | hy
    · exact (h.removed y hy e hy').trans_le hle
    · obtain rfl := List.mem_singleton.1 hy
      exact (h.events_increasing.2 e ((hremoves e).1 hy').mem).trans_le hle
  · rw [henqueued.drops h.events_increasing, h.drops, refused_concat, lost_concat]
    have hrefused : x.refused.length = if result = .dropped then 1 else 0 := by
      simp only [Step.refused, haction, hresult]
      split_ifs <;> rfl
    have hlost : x.lost = Enqueued.lost x.pre x.post result := by
      simp [Step.lost, haction, hresult]
    rw [List.length_append, List.length_append, hrefused, hlost]
    omega

/-- One call more that pops or clears. -/
theorem Accounts.drain (h : Accounts capacity tr x.pre) (hframe : SameBut x.pre x.post 0 0)
    (hevents : x.pre.events = x.popped ++ x.cleared ++ x.post.events) (hqueued : x.queued = [])
    (hrefused : x.refused = []) (hlost : x.lost = [])
    (hcleared : x.cleared = [] ∨ x.popped = [] ∧ x.post.events = [])
    (hremoves : ∀ e, x.Removes e ↔ e ∈ x.cleared) : Accounts capacity (tr ++ [x]) x.post := by
  have hsub : (popped (tr ++ [x]) ++ x.post.events).Sublist (popped tr ++ x.pre.events) := by
    rw [hevents, popped_concat, List.append_assoc, List.append_assoc]
    exact ((List.sublist_append_right _ _).append_left _).append_left _
  have hmem : ∀ e, e ∈ popped tr ++ x.pre.events ↔
      e ∈ popped (tr ++ [x]) ++ x.post.events ∨ e ∈ x.cleared := by
    intro e
    simp only [hevents, popped_concat, List.mem_append]
    tauto
  refine ⟨hframe.suppressEvents.trans h.active, hframe.capacity.trans h.capacity, ?_, ?_,
    fun e he hdurable => ?_, fun y hy e hy' => ?_, ?_⟩
  · rw [hframe.nextSequence]
    exact h.increasing.sublist hsub
  · rw [queued_concat, hqueued, List.append_nil]
    exact (hsub.filter _).trans h.order
  · rw [queued_concat, hqueued, List.append_nil] at he
    have hbefore := h.missing e he hdurable
    have hdisjoint : e ∈ x.cleared → e ∉ popped (tr ++ [x]) ++ x.post.events := by
      intro hc hmem'
      rcases hcleared with hnil | ⟨hpopped, hpost⟩
      · rw [hnil] at hc
        cases hc
      · rw [popped_concat, hpopped, hpost, List.append_nil, List.append_nil] at hmem'
        refine (List.nodup_append.1 h.increasing.nodup).2.2 e hmem' e ?_ rfl
        rw [hevents]
        simp [hc]
    constructor
    · intro hmissing
      by_cases hc : e ∈ x.cleared
      · exact ⟨x, by simp, (hremoves e).2 hc⟩
      · obtain ⟨y, hy, hr⟩ := hbefore.1 fun hm => ((hmem e).1 hm).elim hmissing hc
        exact ⟨y, List.mem_append_left _ hy, hr⟩
    · rintro ⟨y, hy, hr⟩
      rcases List.mem_append.1 hy with hy | hy
      · exact fun hm => hbefore.2 ⟨y, hy, hr⟩ ((hmem e).2 (.inl hm))
      · obtain rfl := List.mem_singleton.1 hy
        exact hdisjoint ((hremoves e).1 hr)
  · rw [hframe.nextSequence]
    rcases List.mem_append.1 hy with hy | hy
    · exact h.removed y hy e hy'
    · obtain rfl := List.mem_singleton.1 hy
      refine h.events_increasing.2 e ?_
      rw [hevents]
      simp [(hremoves e).1 hy']
  · rw [hframe.droppedEvents, h.drops, refused_concat, lost_concat, hrefused, hlost,
      List.append_nil, List.append_nil]
    rfl

theorem accounts_step (h : Accounts capacity tr x.pre) (hs : step x.pre x.action = some x.post) :
    Accounts capacity (tr ++ [x]) x.post := by
  rcases step_cases h.active hs with
    ⟨data, result, haction, henqueued, hresult⟩ |
    ⟨hframe, hevents, -, hqueued, hrefused, hlost, hcleared, hcall⟩
  · exact h.enqueue haction henqueued hresult
  · exact h.drain hframe hevents hqueued hrefused hlost hcleared fun e => by
      simp [Step.Removes, hcall]

/-- **The accounts of a run.** -/
theorem accounts_run (hcapacity : 0 < capacity) (h : Trace step (.initial capacity hcapacity) tr s) :
    Accounts capacity tr s :=
  h.history (accounts_initial hcapacity) fun _ _ _ hs hbefore => accounts_step hbefore hs

end

end Events

end Desktop

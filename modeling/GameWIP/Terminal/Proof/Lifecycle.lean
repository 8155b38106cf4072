import Mathlib.Tactic.SplitIfs
import GameWIP.Terminal.Lifecycle

/-!
# Operations and mutations of a session exclude each other

`Lifecycle.WellFormed` holds in every interleaving: `activeOperations` is the number of registered
operations, a registered operation keeps the session open, and the body of a mutation holds the
mutex with no operation registered. So a *registered* operation never meets a mutation.

What the claim needs on top is that an operation behind its open check is registered. The open
check is a second read of the flag: an operation whose constructor found the session closed is not
registered, and when the session is opened before its check it goes on all the same.
`safe_iff`: the interleavings without such a check are exactly the safe ones.
-/

namespace Terminal

open Lib (Transition Trace total)

/-- The number of registered operations of a thread. -/
def Thread.registered (thread : Thread) : Nat := thread.operations.countP (·.registered)

namespace Lifecycle

/-- The number of registered operations. -/
def registered (state : Lifecycle) : Nat := total Thread.registered state.threads

/-- The thread is in the body of its mutation. -/
def InBody (thread : Thread) : Prop := ∃ call stored, thread.mutation = some ⟨call, .body stored⟩

/-- An operation of some thread. -/
def HasOperation (state : Lifecycle) (operation : Operation) : Prop :=
  ∃ thread ∈ state.threads, operation ∈ thread.operations

/-- What the gate promises: no operation is behind its open check while the body of a mutation
runs, and an operation behind its open check is counted and sees the session open. -/
structure Safe (state : Lifecycle) : Prop where
  exclusive : ∀ thread ∈ state.threads, InBody thread →
    ∀ operation, state.HasOperation operation → operation.phase ≠ .running
  counted : ∀ operation, state.HasOperation operation → operation.phase = .running →
    operation.registered = true
  activeOperations : state.activeOperations = state.registered
  observed : ∀ operation, state.HasOperation operation → operation.phase = .running →
    state.isOpen = true

/-- What holds in every interleaving. -/
structure WellFormed (state : Lifecycle) : Prop where
  activeOperations : state.activeOperations = state.registered
  opened : 0 < state.activeOperations → state.isOpen = true
  drained : state.lifecycleMutex.isSome = true → state.activeOperations = 0
  body : ∀ (t : Nat) thread, state.threads[t]? = some thread → InBody thread →
    state.lifecycleMutex = some t

/-- An operation behind its open check is registered. -/
def RunningRegistered (state : Lifecycle) : Prop :=
  ∀ operation, state.HasOperation operation → operation.phase = .running →
    operation.registered = true

variable {state next : Lifecycle} {t : Nat} {thread thread' : Thread} {action : LifecycleAction}
  {operation : Operation} {operations : List Operation}

theorem registered_pos (h : state.HasOperation operation) (hr : operation.registered = true) :
    0 < state.registered := by
  obtain ⟨thread, hthread, hm⟩ := h
  obtain ⟨t, ht⟩ := List.getElem?_of_mem hthread
  have hpos : 0 < thread.registered := List.countP_pos_iff.2 ⟨operation, hm, hr⟩
  exact Nat.lt_of_lt_of_le hpos (Lib.le_total ht)

/-- The gate keeps its promise as soon as running operations are registered. -/
theorem WellFormed.safe (h : state.WellFormed) (hr : state.RunningRegistered) : state.Safe where
  exclusive thread hthread hb operation ho hp := by
    obtain ⟨t, ht⟩ := List.getElem?_of_mem hthread
    have hzero := h.drained (by rw [h.body t thread ht hb]; rfl)
    have hpos := registered_pos ho (hr operation ho hp)
    have := h.activeOperations
    omega
  counted := hr
  activeOperations := h.activeOperations
  observed operation ho hp := by
    have hpos := registered_pos ho (hr operation ho hp)
    exact h.opened (by rw [h.activeOperations]; exact hpos)

/-! ## Steps on one thread -/

/-- A step that rewrites one thread keeps the invariant when it counts the operations of the
thread and no body is left without the mutex. -/
theorem WellFormed.update (h : state.WellFormed) (ht : state.threads[t]? = some thread)
    (hthreads : next.threads = state.threads.set t thread')
    (hcount : next.activeOperations + thread.registered =
      state.activeOperations + thread'.registered)
    (hopened : 0 < next.activeOperations → next.isOpen = true)
    (hdrained : next.lifecycleMutex.isSome = true → next.activeOperations = 0)
    (hself : InBody thread' → next.lifecycleMutex = some t)
    (hothers : ∀ t', t ≠ t' → state.lifecycleMutex = some t' → next.lifecycleMutex = some t') :
    next.WellFormed := by
  refine ⟨?_, hopened, hdrained, fun t' th hth hb => ?_⟩
  · have htotal : next.registered + thread.registered = state.registered + thread'.registered := by
      unfold registered
      rw [hthreads]
      exact Lib.total_set ht
    have := h.activeOperations
    omega
  · rw [hthreads] at hth
    by_cases he : t = t'
    · subst he
      rw [List.getElem?_set_self (List.getElem?_eq_some_iff.1 ht).1] at hth
      cases hth
      exact hself hb
    · rw [List.getElem?_set_ne he] at hth
      exact hothers t' he (h.body t' th hth hb)

/-! ## Every step keeps the invariant -/

theorem registered_push : (thread.push operation).registered =
    thread.registered + if operation.registered then 1 else 0 := by
  simp [Thread.registered, Thread.push, List.countP_cons]

theorem registered_pop (h : thread.operations = operation :: operations) :
    thread.pop.registered + (if operation.registered then 1 else 0) = thread.registered := by
  simp [Thread.registered, Thread.pop, h, List.countP_cons]

theorem registered_setPhase {phase : OperationPhase} :
    (thread.setPhase phase).registered = thread.registered := by
  unfold Thread.setPhase Thread.registered
  split
  · rfl
  · next h => simp [h, List.countP_cons]

theorem mutation_setPhase {phase : OperationPhase} :
    (thread.setPhase phase).mutation = thread.mutation := by
  unfold Thread.setPhase
  split <;> rfl

theorem not_inBody_of_canCall (h : thread.canCall = true) : ¬ InBody thread := by
  intro ⟨call, stored, hb⟩
  simp [Thread.canCall, hb] at h

theorem beginOperation_wellFormed (h : state.WellFormed) (ht : state.threads[t]? = some thread)
    (hs : state.beginOperation t thread = some next) : next.WellFormed := by
  unfold beginOperation at hs
  split_ifs at hs with hcall hwait ho
  · cases hs
    have hbody : ¬ InBody thread := not_inBody_of_canCall (by simp_all)
    refine h.update ht rfl ?_ h.opened h.drained (fun hb => absurd hb hbody) fun _ _ hm => hm
    rw [registered_push]
    rfl
  · cases hs
    have hbody : ¬ InBody thread := not_inBody_of_canCall (by simp_all)
    have hmutex : state.lifecycleMutex.isSome = false := by simp_all
    have hopen : state.isOpen = true := by simpa using ho
    refine h.update ht rfl ?_ (fun _ => hopen) ?_ (fun hb => absurd hb hbody) fun _ _ hm => hm
    · rw [registered_push]
      simp only [setThread, if_true]
      omega
    · intro hm
      exact absurd hm (by simpa [setThread] using hmutex)

theorem checkOpen_wellFormed (h : state.WellFormed) (ht : state.threads[t]? = some thread)
    (hs : state.checkOpen t thread = some next) : next.WellFormed := by
  unfold checkOpen at hs
  cases hops : thread.operations with
  | nil => simp [hops] at hs
  | cons operation operations =>
    simp only [hops] at hs
    split_ifs at hs
    all_goals
      cases hs
      refine h.update ht rfl ?_ h.opened h.drained ?_ fun _ _ hm => hm
      · rw [registered_setPhase]
        rfl
      · intro hb
        refine h.body t thread ht ?_
        obtain ⟨call, stored, hb⟩ := hb
        exact ⟨call, stored, by rwa [mutation_setPhase] at hb⟩

theorem endOperation_wellFormed (h : state.WellFormed) (ht : state.threads[t]? = some thread)
    (hs : state.endOperation t thread = some next) : next.WellFormed := by
  unfold endOperation at hs
  cases hops : thread.operations with
  | nil => simp [hops] at hs
  | cons operation operations =>
    simp only [hops] at hs
    have hpop := registered_pop hops
    split_ifs at hs with hphase hr hm
    · cases hs
      refine h.update ht rfl ?_ h.opened h.drained (fun hb => h.body t thread ht hb) fun _ _ hm => hm
      simp only [setThread]
      simp_all
    · cases hs
      have hr' : operation.registered = true := by simpa using hr
      rw [hr'] at hpop
      have hmem : operation ∈ thread.operations := by
        rw [hops]
        exact List.mem_cons_self
      have hpos : 0 < state.registered :=
        registered_pos ⟨thread, List.mem_of_getElem? ht, hmem⟩ hr'
      have hactive := h.activeOperations
      refine h.update ht rfl ?_ ?_ ?_ (fun hb => h.body t thread ht hb) fun _ _ hm => hm
      · simp only [setThread, if_true] at hpop ⊢
        omega
      · intro ha
        exact h.opened (by rw [hactive]; exact hpos)
      · intro hm'
        exact absurd hm' (by simpa [setThread] using hm)

theorem beginMutation_wellFormed {call : LifecycleCall} (h : state.WellFormed)
    (ht : state.threads[t]? = some thread)
    (hs : state.beginMutation t call thread = some next) : next.WellFormed := by
  unfold beginMutation at hs
  split_ifs at hs
  · cases hs
    exact h
  · cases hs
    refine h.update ht rfl rfl h.opened h.drained ?_ fun _ _ hm => hm
    intro ⟨call', stored, hb⟩
    cases hb

theorem announce_wellFormed (h : state.WellFormed) (ht : state.threads[t]? = some thread)
    (hs : state.announce t thread = some next) : next.WellFormed := by
  unfold announce at hs
  split at hs
  · split_ifs at hs with hlock hzero
    · cases hs
      refine h.update ht rfl rfl ?_ (fun _ => hzero) (fun _ => rfl) ?_
      · intro ha
        exact h.opened ha
      · intro t' _ hm
        simp [hm] at hlock
    · cases hs
      refine h.update ht rfl rfl h.opened h.drained ?_ fun _ _ hm => hm
      intro ⟨call', stored, hb⟩
      cases hb
  · cases hs

theorem drained_wellFormed (h : state.WellFormed) (ht : state.threads[t]? = some thread)
    (hs : state.drained t thread = some next) : next.WellFormed := by
  unfold drained at hs
  split at hs
  · split_ifs at hs with hlock
    cases hs
    have hzero : state.activeOperations = 0 := by simp_all
    refine h.update ht rfl rfl h.opened (fun _ => hzero) (fun _ => rfl) ?_
    intro t' _ hm
    simp [hm] at hlock
  · cases hs

theorem abort_wellFormed (h : state.WellFormed) (ht : state.threads[t]? = some thread)
    (hs : state.abort t thread = some next) : next.WellFormed := by
  unfold abort at hs
  split at hs
  · split_ifs at hs
    cases hs
    refine h.update ht rfl rfl h.opened h.drained ?_ fun _ _ hm => hm
    intro ⟨call', stored, hb⟩
    cases hb
  · cases hs

theorem store_wellFormed (h : state.WellFormed) (ht : state.threads[t]? = some thread)
    (hs : state.store t thread = some next) : next.WellFormed := by
  unfold store at hs
  split at hs
  · next call hmutation =>
    have hbody := h.body t thread ht ⟨_, _, hmutation⟩
    have hzero : state.activeOperations = 0 := h.drained (by rw [hbody]; rfl)
    split_ifs at hs
    cases hs
    refine h.update ht rfl rfl ?_ h.drained (fun _ => hbody) fun _ _ hm => hm
    intro ha
    exact absurd hzero (Nat.ne_of_gt ha)
  · cases hs

theorem endMutation_wellFormed (h : state.WellFormed) (ht : state.threads[t]? = some thread)
    (hs : state.endMutation t thread = some next) : next.WellFormed := by
  unfold endMutation at hs
  split at hs
  · next call stored hmutation =>
    have hbody := h.body t thread ht ⟨_, _, hmutation⟩
    cases hs
    refine h.update ht rfl rfl h.opened (fun hm => by cases hm) ?_ ?_
    · intro ⟨call', stored', hb⟩
      cases hb
    · intro t' hne hm
      rw [hbody] at hm
      exact absurd (Option.some.inj hm) hne
  · cases hs

theorem step_wellFormed (h : state.WellFormed) (hs : state.step action = some next) :
    next.WellFormed := by
  cases action with
  | beginOperation t =>
    obtain ⟨thread, ht, hs⟩ := Option.bind_eq_some_iff.1 hs
    exact beginOperation_wellFormed h ht hs
  | checkOpen t =>
    obtain ⟨thread, ht, hs⟩ := Option.bind_eq_some_iff.1 hs
    exact checkOpen_wellFormed h ht hs
  | endOperation t =>
    obtain ⟨thread, ht, hs⟩ := Option.bind_eq_some_iff.1 hs
    exact endOperation_wellFormed h ht hs
  | beginMutation t call =>
    obtain ⟨thread, ht, hs⟩ := Option.bind_eq_some_iff.1 hs
    exact beginMutation_wellFormed h ht hs
  | announce t =>
    obtain ⟨thread, ht, hs⟩ := Option.bind_eq_some_iff.1 hs
    exact announce_wellFormed h ht hs
  | drained t =>
    obtain ⟨thread, ht, hs⟩ := Option.bind_eq_some_iff.1 hs
    exact drained_wellFormed h ht hs
  | abort t =>
    obtain ⟨thread, ht, hs⟩ := Option.bind_eq_some_iff.1 hs
    exact abort_wellFormed h ht hs
  | store t =>
    obtain ⟨thread, ht, hs⟩ := Option.bind_eq_some_iff.1 hs
    exact store_wellFormed h ht hs
  | endMutation t =>
    obtain ⟨thread, ht, hs⟩ := Option.bind_eq_some_iff.1 hs
    exact endMutation_wellFormed h ht hs

/-! ## The open check -/

theorem RunningRegistered.update (h : state.RunningRegistered)
    (hthreads : next.threads = state.threads.set t thread')
    (hself : ∀ operation ∈ thread'.operations, operation.phase = .running →
      operation.registered = true) : next.RunningRegistered := by
  intro operation ⟨th, hth, hm⟩ hp
  rw [hthreads] at hth
  obtain hth | rfl := List.mem_or_eq_of_mem_set hth
  · exact h operation ⟨th, hth, hm⟩ hp
  · exact hself operation hm hp

/-- The operations of one thread. -/
theorem RunningRegistered.onThread (h : state.RunningRegistered)
    (ht : state.threads[t]? = some thread) : ∀ operation ∈ thread.operations,
      operation.phase = .running → operation.registered = true :=
  fun operation hm => h operation ⟨thread, List.mem_of_getElem? ht, hm⟩

/-- The steps of a mutation leave the operations alone. -/
theorem RunningRegistered.mutate {mutation : Option Mutation} (h : state.RunningRegistered)
    (ht : state.threads[t]? = some thread)
    (hthreads : next.threads = state.threads.set t { thread with mutation }) :
    next.RunningRegistered :=
  h.update hthreads fun operation hm => h.onThread ht operation hm

end Lifecycle

/-- The open check of an operation that found the session closed in its constructor finds it closed
again. -/
def LifecycleAction.Guard (state : Lifecycle) : LifecycleAction → Prop
  | .checkOpen t => ∀ thread ∈ state.threads[t]?, ∀ operation ∈ thread.operations.head?,
      operation.registered = false → operation.phase = .entered → state.isOpen = false
  | _ => True

instance (state : Lifecycle) (action : LifecycleAction) : Decidable (action.Guard state) :=
  match action with
  | .checkOpen t => inferInstanceAs (Decidable (∀ thread ∈ state.threads[t]?,
      ∀ operation ∈ thread.operations.head?, _ → _ → _))
  | .beginOperation _ | .endOperation _ | .beginMutation .. | .announce _ | .drained _ | .abort _
  | .store _ | .endMutation _ => .isTrue trivial

namespace Lifecycle

variable {state next : Lifecycle} {t : Nat} {thread : Thread} {action : LifecycleAction}

theorem checkOpen_running (h : state.RunningRegistered) (ht : state.threads[t]? = some thread)
    (hs : state.checkOpen t thread = some next) :
    next.RunningRegistered ↔ LifecycleAction.Guard state (.checkOpen t) := by
  unfold checkOpen at hs
  cases hops : thread.operations with
  | nil => simp [hops] at hs
  | cons operation operations =>
    simp only [hops] at hs
    have hphase : thread.setPhase (if state.isOpen then .running else .refused) =
        { thread with operations :=
          { operation with phase := if state.isOpen then .running else .refused } :: operations } := by
      simp [Thread.setPhase, hops]
    split at hs
    · next he =>
      cases hs
      rw [hphase]
      constructor
      · intro hr thread' ht' operation' ho' hreg hp
        obtain rfl : thread = thread' := by simpa [ht] using ht'
        obtain rfl : operation = operation' := by simpa [hops] using ho'
        by_contra hopen
        have hrun := hr { operation with phase := .running }
          ⟨_, List.mem_set (List.getElem?_eq_some_iff.1 ht).1 _, by simp [hopen]⟩ rfl
        simp [hreg] at hrun
      · intro hg
        refine h.update rfl fun operation' hm hp => ?_
        obtain rfl | hm := List.mem_cons.1 hm
        · by_contra hreg
          have hclosed := hg thread ht operation (by simp [hops]) (by simpa using hreg) he
          simp [hclosed] at hp
        · exact h.onThread ht operation' (by rw [hops]; exact List.mem_cons_of_mem _ hm) hp
    · cases hs

theorem step_running (h : state.RunningRegistered) (hs : state.step action = some next) :
    next.RunningRegistered ↔ action.Guard state := by
  cases action with
  | checkOpen t =>
    obtain ⟨thread, ht, hs⟩ := Option.bind_eq_some_iff.1 hs
    exact checkOpen_running h ht hs
  | beginOperation t =>
    refine iff_of_true ?_ trivial
    obtain ⟨thread, ht, hs⟩ := Option.bind_eq_some_iff.1 hs
    unfold beginOperation at hs
    split_ifs at hs
    all_goals
      cases hs
      refine h.update rfl fun operation hm hp => ?_
      obtain rfl | hm := List.mem_cons.1 hm
      · cases hp
      · exact h.onThread ht operation hm hp
  | endOperation t =>
    refine iff_of_true ?_ trivial
    obtain ⟨thread, ht, hs⟩ := Option.bind_eq_some_iff.1 hs
    unfold endOperation at hs
    split at hs
    · cases hs
    · split_ifs at hs
      all_goals
        cases hs
        exact h.update rfl fun operation hm => h.onThread ht operation (List.mem_of_mem_tail hm)
  | beginMutation t call =>
    refine iff_of_true ?_ trivial
    obtain ⟨thread, ht, hs⟩ := Option.bind_eq_some_iff.1 hs
    unfold beginMutation at hs
    split_ifs at hs
    · cases hs
      exact h
    · cases hs
      exact h.mutate ht rfl
  | announce t =>
    refine iff_of_true ?_ trivial
    obtain ⟨thread, ht, hs⟩ := Option.bind_eq_some_iff.1 hs
    unfold announce at hs
    split at hs
    · split_ifs at hs
      all_goals
        cases hs
        exact h.mutate ht rfl
    · cases hs
  | drained t =>
    refine iff_of_true ?_ trivial
    obtain ⟨thread, ht, hs⟩ := Option.bind_eq_some_iff.1 hs
    unfold drained at hs
    split at hs
    · split_ifs at hs
      cases hs
      exact h.mutate ht rfl
    · cases hs
  | abort t =>
    refine iff_of_true ?_ trivial
    obtain ⟨thread, ht, hs⟩ := Option.bind_eq_some_iff.1 hs
    unfold abort at hs
    split at hs
    · split_ifs at hs
      cases hs
      exact h.mutate ht rfl
    · cases hs
  | store t =>
    refine iff_of_true ?_ trivial
    obtain ⟨thread, ht, hs⟩ := Option.bind_eq_some_iff.1 hs
    unfold store at hs
    split at hs
    · split_ifs at hs
      cases hs
      exact h.mutate ht rfl
    · cases hs
  | endMutation t =>
    refine iff_of_true ?_ trivial
    obtain ⟨thread, ht, hs⟩ := Option.bind_eq_some_iff.1 hs
    unfold endMutation at hs
    split at hs
    · cases hs
      exact h.mutate ht rfl
    · cases hs

theorem initial_wellFormed (n : Nat) : (initial n).WellFormed := by
  have hthread : ∀ (t : Nat) thread, (initial n).threads[t]? = some thread → thread = {} := by
    intro t thread ht
    exact List.eq_of_mem_replicate (List.mem_of_getElem? ht)
  refine ⟨?_, by simp [initial], by simp [initial], fun t thread ht hb => ?_⟩
  · simp [initial, registered, total, Thread.registered]
  · obtain rfl := hthread t thread ht
    obtain ⟨call, stored, hb⟩ := hb
    cases hb

theorem initial_running (n : Nat) : (initial n).RunningRegistered := by
  intro operation ⟨thread, hth, hm⟩
  obtain rfl := List.eq_of_mem_replicate hth
  cases hm

end Lifecycle

/-- **The gate keeps its promise** in an interleaving of any number of threads exactly when no
operation that found the session closed in its constructor finds it open in its check. -/
theorem safe_iff {n : Nat} {tr : List (Transition Lifecycle LifecycleAction)} {u : Lifecycle}
    (h : Trace Lifecycle.step (.initial n) tr u) :
    (∀ x ∈ tr, x.post.Safe) ↔ ∀ x ∈ tr, x.action.Guard x.pre := by
  have hwf := (h.invariant_of_step (Lifecycle.initial_wellFormed n) fun s a t hs ht =>
    Lifecycle.step_wellFormed hs ht).2
  have hiff := h.invariant_iff_guard (I := Lifecycle.RunningRegistered)
    (G := fun s a => a.Guard s) (Lifecycle.initial_running n)
    (fun s a t hs hg ht => (Lifecycle.step_running hs ht).2 hg)
    (fun s a t hs ht hr => (Lifecycle.step_running hs ht).1 hr)
  rw [← hiff]
  constructor
  · intro hs x hx
    exact (hs x hx).counted
  · intro hr x hx
    exact (hwf x hx).2.safe (hr x hx)

/-- One thread opens the session and closes it while another is inside an operation, which calls
the session again from inside before it ends. -/
def nestedOperation : List LifecycleAction :=
  [.beginMutation 1 .opening, .announce 1, .store 1, .endMutation 1, .beginOperation 0,
    .checkOpen 0, .beginMutation 1 .closing, .announce 1, .beginOperation 0, .checkOpen 0,
    .endOperation 0, .endOperation 0, .drained 1, .store 1, .endMutation 1]

theorem safe_nestedOperation :
    (Lib.run Lifecycle.step (.initial 2) nestedOperation).map (fun r => (r.2.isOpen,
      r.1.map fun x => x.post.activeOperations)) =
      some (false, [0, 0, 0, 0, 1, 1, 1, 1, 2, 2, 1, 0, 0, 0, 0]) ∧
    ∀ r, Lib.run Lifecycle.step (.initial 2) nestedOperation = some r →
      ∀ x ∈ r.1, x.post.Safe := by
  refine ⟨by decide +kernel, fun r hr => (safe_iff (Trace.of_run hr)).2 ?_⟩
  have hg : (Lib.run Lifecycle.step (.initial 2) nestedOperation).all (fun r =>
      r.1.all fun x => decide (x.action.Guard x.pre)) = true := by decide +kernel
  simpa [hr] using hg

/-- An operation begins on the closed session, another thread opens it, the operation passes its
open check, and the session is closed. -/
def lateCheck : List LifecycleAction :=
  [.beginOperation 0, .beginMutation 1 .opening, .announce 1, .store 1, .endMutation 1,
    .checkOpen 0, .beginMutation 1 .closing, .announce 1, .store 1]

/-- The operation runs uncounted, next to the body of the mutation that closes the session. -/
theorem safe_lateCheck :
    (Lib.run Lifecycle.step (.initial 2) lateCheck).map (fun r =>
      (r.2.isOpen, r.2.activeOperations, r.2.threads)) =
      some (false, 0, [{ operations := [⟨false, .running⟩] },
        { mutation := some ⟨.closing, .body true⟩ }]) ∧
    ¬ ∀ n tr u, Trace Lifecycle.step (.initial n) tr u → ∀ x ∈ tr, x.post.Safe := by
  refine ⟨by decide +kernel, fun h => ?_⟩
  have hbad : (Lib.run Lifecycle.step (.initial 2) lateCheck).any (fun r => r.1.any fun x =>
      x.post.threads.any fun thread => thread.operations.any fun operation =>
        decide (operation.phase = .running ∧ operation.registered = false)) = true := by
    decide +kernel
  obtain ⟨r, hr, hx⟩ := (Option.any_eq_true _ _).1 hbad
  obtain ⟨x, hx, hthread⟩ := List.any_eq_true.1 hx
  obtain ⟨thread, hthread, hop⟩ := List.any_eq_true.1 hthread
  obtain ⟨operation, hop, hrun⟩ := List.any_eq_true.1 hop
  obtain ⟨hphase, hreg⟩ := of_decide_eq_true hrun
  have hcounted := (h 2 r.1 r.2 (Trace.of_run hr) x hx).counted operation ⟨thread, hthread, hop⟩ hphase
  simp [hreg] at hcounted

end Terminal

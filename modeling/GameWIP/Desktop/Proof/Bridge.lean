import GameWIP.Desktop.Proof.Effects

/-!
# What the bridge guarantees in every interleaving

* `notificationsKept`: the notification queue stays in its bounds, `invalidationPending` tells
  whether an invalidation is queued, and after the diff of a publication every node that changed is
  told about.
* `publicationsKept`: generations increase in store order and the root of an activation stays, a
  publication that fails changes nothing, and a closed activation stays empty.
-/

namespace Desktop

open Lib (Trace Transition Superseded acceptedOf poppedOf)

variable {F : Type} {s t : Bridge F} {a c : Nat} {r r' : Runtime F} {outcome : Io.Status} {old : Caller F}
  {p : PublishedSnapshot F} {before : Option (PublishedSnapshot F)}
  {tr : List (Transition (Bridge F) (BridgeAction F))}

namespace Bridge

section Closing

variable [DoubleOps F]

/-! ## Closed activations -/

/-- The closing of the activation has returned. -/
def Closed (s : Bridge F) (a : Nat) : Prop := s.Dead a ∧ s.owner.remaining a = 0

/-- The activation holds nothing. -/
def Emptied (s : Bridge F) (a : Nat) : Prop :=
  ∃ r, s.runtimes[a]? = some r ∧ r.snapshot = none ∧ r.actions.contents = [] ∧
    r.notifications.contents = []

theorem WellFormed.emptied (h : s.WellFormed) (hclosed : s.Closed a) : s.Emptied a := by
  obtain ⟨⟨r, hr, hdead⟩, hremaining⟩ := hclosed
  have hcleared := (h.runtimes a r hr).cleared hdead
  rw [hremaining] at hcleared
  exact ⟨r, hr, hcleared.snapshot (by omega), hcleared.actions (by omega),
    hcleared.notifications (by omega)⟩

omit [DoubleOps F] in
theorem Closed.not_open (h : s.Closed a) : ¬ s.Open a := by
  rintro ⟨r, hr, hopen⟩
  have hdead := h.1.live hr
  have := hopen.resolve_left (by simp [hdead])
  rw [Closed, this] at h
  simp [Owner.remaining] at h

omit [DoubleOps F] in
/-- A step of the owner that leaves the live flags. -/
theorem Closed.lives (h : s.Closed a) (hlives : Lives s t)
    (howner : s.owner.remaining a = 0 → t.owner.remaining a = 0) : t.Closed a :=
  ⟨hlives.dead h.1, howner h.2⟩

theorem closed_ownerStep (h : s.Closed a) (hs : s.ownerStep outcome s.owner = some t) :
    t.Closed a := by
  have hplain : ∀ o : Owner F, o.plain = true → (s.setOwner o).Closed a :=
    fun o ho => h.lives (lives_refl s) fun _ => Owner.remaining_plain ho a
  cases howner : s.owner with
  | idle =>
    rw [howner] at hs
    cases hs
  | enableLoad limits features =>
    rw [howner] at hs
    simp only [ownerStep] at hs
    split at hs <;> cases hs <;> exact hplain _ rfl
  | enableLive b limits features =>
    rw [howner] at hs
    obtain ⟨r, hr, hs⟩ := Option.bind_eq_some_iff.1 hs
    split at hs <;> cases hs <;> exact hplain _ rfl
  | enableMake limits features =>
    rw [howner] at hs
    simp only [ownerStep] at hs
    split_ifs at hs <;> cases hs <;> exact hplain _ rfl
  | enableStore limits features hlimits =>
    rw [howner] at hs
    cases hs
    refine h.lives (fun b r hr => ⟨r, ?_, rfl⟩) fun _ => rfl
    exact (List.getElem?_append_left (List.getElem?_eq_some_iff.1 hr).1).trans hr
  | disableLoad =>
    rw [howner] at hs
    simp only [ownerStep] at hs
    split at hs <;> cases hs <;> exact hplain _ rfl
  | disableLive b =>
    rw [howner] at hs
    obtain ⟨r, hr, hs⟩ := Option.bind_eq_some_iff.1 hs
    split at hs <;> cases hs <;> exact hplain _ rfl
  | closeLoad =>
    rw [howner] at hs
    simp only [ownerStep] at hs
    split at hs <;> cases hs <;> exact hplain _ rfl
  | closeExchange b =>
    rw [howner] at hs
    obtain ⟨r, hr, hs⟩ := Option.bind_eq_some_iff.1 hs
    split at hs
    · cases hs
      exact hplain _ rfl
    · rename_i hlive
      cases hs
      -- the flag of a closed activation has been cleared before
      have hne : a ≠ b := by
        rintro rfl
        exact hlive (by simp [h.1.live hr])
      obtain ⟨⟨x, hx, hdead⟩, -⟩ := h
      refine ⟨⟨x, (getElem?_setRuntime_ne hne).trans hx, hdead⟩, ?_⟩
      exact if_neg hne.symm
  | closeLock b =>
    rw [howner] at hs
    simp only [ownerStep] at hs
    split at hs
    · cases hs
    · cases hs
      refine h.lives (lives_refl s) fun hremaining => ?_
      rw [howner] at hremaining
      exact hremaining
  | closeSnapshot b =>
    rw [howner] at hs
    obtain ⟨r, hr, hs⟩ := Option.bind_eq_some_iff.1 hs
    cases hs
    refine h.lives (lives_setRuntime hr rfl) fun hremaining => ?_
    rw [howner] at hremaining
    by_cases hb : b = a
    · simp [Owner.remaining, hb] at hremaining
    · exact if_neg hb
  | closeActions b =>
    rw [howner] at hs
    obtain ⟨r, hr, hs⟩ := Option.bind_eq_some_iff.1 hs
    cases hs
    refine h.lives (lives_setRuntime hr rfl) fun hremaining => ?_
    rw [howner] at hremaining
    by_cases hb : b = a
    · simp [Owner.remaining, hb] at hremaining
    · exact if_neg hb
  | closeNotifications b =>
    rw [howner] at hs
    obtain ⟨r, hr, hs⟩ := Option.bind_eq_some_iff.1 hs
    cases hs
    exact h.lives (lives_setRuntime hr rfl) fun _ => rfl
  | closeUnlock b =>
    rw [howner] at hs
    cases hs
    exact h.lives (lives_refl s) fun _ => rfl
  | popLoad =>
    rw [howner] at hs
    simp only [ownerStep] at hs
    split at hs <;> cases hs <;> exact hplain _ rfl
  | popLocked b =>
    rw [howner] at hs
    obtain ⟨r, hr, hs⟩ := Option.bind_eq_some_iff.1 hs
    split at hs
    · cases hs
      exact hplain _ rfl
    · rename_i hpop
      cases hs
      exact h.lives (lives_setRuntime hr (Runtime.same_popAction hpop).live) fun _ => rfl
  | drainLoad =>
    rw [howner] at hs
    simp only [ownerStep] at hs
    split at hs
    · cases hs
      exact hplain _ rfl
    · obtain ⟨r, hr, hs⟩ := Option.bind_eq_some_iff.1 hs
      cases hs
      exact hplain _ rfl
  | drain b remaining =>
    rw [howner] at hs
    cases remaining with
    | zero =>
      cases hs
      exact hplain _ rfl
    | succ remaining =>
      obtain ⟨r, hr, hs⟩ := Option.bind_eq_some_iff.1 hs
      split at hs
      · cases hs
        exact hplain _ rfl
      · rename_i hdrain
        cases hs
        exact h.lives (lives_setRuntime hr (Runtime.same_drainNotification hdrain).live) fun _ => rfl

/-- A closed activation stays closed. -/
theorem closed_bridgeStep {action : BridgeAction F} (h : s.Closed a)
    (hs : s.bridgeStep action = some t) : t.Closed a := by
  cases action with
  | call c call =>
    obtain ⟨caller, hc, hs⟩ := Option.bind_eq_some_iff.1 hs
    split at hs
    · cases hs
      exact h
    · cases hs
  | step c outcome =>
    obtain ⟨caller, hc, hs⟩ := Option.bind_eq_some_iff.1 hs
    obtain ⟨new, heffect⟩ := callerStep_effect hs
    exact h.lives heffect.lives fun hremaining => heffect.owner ▸ hremaining
  | ownerCall call =>
    simp only [bridgeStep] at hs
    split at hs
    · cases hs
      refine h.lives (lives_refl s) fun _ => ?_
      cases call <;> rfl
    · cases hs
  | ownerStep outcome => exact closed_ownerStep h hs
  | hostEnabled b enabled =>
    obtain ⟨r, hr, hs⟩ := Option.bind_eq_some_iff.1 hs
    cases hs
    exact h.lives (lives_setRuntime hr rfl) id

end Closing

/-! ## Notifications -/

/-- The queue information of every activation. -/
def NotificationsBounded (s : Bridge F) : Prop :=
  ∀ r ∈ s.runtimes, r.notifications.count ≤ r.notifications.capacity ∧
    (r.invalidationPending = true ↔
      r.notifications.contents.countP PendingNotification.isInvalidation = 1)

/-- The step stores a snapshot in the place of the one before. -/
structure Stores (x : Transition (Bridge F) (BridgeAction F)) (c a : Nat) (p : PublishedSnapshot F)
    (before : Option (PublishedSnapshot F)) : Prop where
  stage : x.pre.callers[c]? = some (.publish (.store a p before))
  action : ∃ outcome, x.action = .step c outcome
  previous : x.pre.snapshot a = before
  next : x.post.snapshot a = some p

/-- The step is the diff of a publication. -/
structure Diffs (x : Transition (Bridge F) (BridgeAction F)) (c a : Nat) (p : PublishedSnapshot F)
    (before : Option (PublishedSnapshot F)) : Prop where
  stage : x.pre.callers[c]? = some (.publish (.diff a p before))
  action : ∃ outcome, x.action = .step c outcome

variable [DoubleOps F]

/-- The newest snapshot is the one of the diff, and nothing of it is lost. -/
def Tells (s : Bridge F) (a : Nat) (p : PublishedSnapshot F)
    (before : Option (PublishedSnapshot F)) : Prop :=
  ∃ r, s.runtimes[a]? = some r ∧ r.snapshot = some p ∧ r.NothingLost before p

theorem WellFormed.bounded (h : s.WellFormed) : s.NotificationsBounded := by
  intro r hr
  obtain ⟨a, hr⟩ := List.getElem?_of_mem hr
  exact ⟨r.notifications.count_le, (h.runtimes a r hr).marked.pending_iff⟩

theorem tells_of_diffs {x : Transition (Bridge F) (BridgeAction F)} (h : x.pre.WellFormed)
    (hs : x.pre.bridgeStep x.action = some x.post) (hx : Diffs x c a p before) :
    x.post.Tells a p before := by
  obtain ⟨hc, outcome, haction⟩ := hx
  rw [haction] at hs
  obtain ⟨caller, hc', hs⟩ := Option.bind_eq_some_iff.1 hs
  obtain rfl := Option.some.inj (hc.symm.trans hc')
  obtain ⟨r, hr, hs⟩ := Option.bind_eq_some_iff.1 hs
  have hstored : x.pre.Stored a p before := h.callers c _ hc
  have hsnapshot := hstored.snapshot
  rw [snapshot, hr, Option.bind_some] at hsnapshot
  rw [← Option.some.inj hs]
  exact ⟨_, getElem?_setRuntime hr, Runtime.same_queueDiff.snapshot.trans hsnapshot,
    (h.diff hstored hr).2⟩

theorem stores_of_step {x : Transition (Bridge F) (BridgeAction F)} (h : x.pre.WellFormed)
    (hs : x.pre.bridgeStep x.action = some x.post) (haction : x.action = .step c outcome)
    (hc : x.pre.callers[c]? = some (.publish (.store a p before))) : Stores x c a p before := by
  refine ⟨hc, ⟨outcome, haction⟩, (h.callers c _ hc).1.loaded, ?_⟩
  rw [haction] at hs
  obtain ⟨caller, hc', hs⟩ := Option.bind_eq_some_iff.1 hs
  obtain rfl := Option.some.inj (hc.symm.trans hc')
  obtain ⟨r, hr, hs⟩ := Option.bind_eq_some_iff.1 hs
  rw [← Option.some.inj hs]
  exact snapshot_setRuntime (s := { x.pre with stored := x.pre.stored ++ [(a, p)] }) hr

/-- The publications past their store have stored in this run. -/
def StoredIn (tr : List (Transition (Bridge F) (BridgeAction F))) (s : Bridge F) : Prop :=
  ∀ (c a : Nat) p before, s.callers[c]? = some (.publish (.record a p before)) ∨
    s.callers[c]? = some (.publish (.diff a p before)) → ∃ x ∈ tr, Stores x c a p before

theorem storedIn_step {x : Transition (Bridge F) (BridgeAction F)} (h : x.pre.WellFormed)
    (hs : x.pre.bridgeStep x.action = some x.post) (hx : x ∈ tr) (hstored : StoredIn tr x.pre) :
    StoredIn tr x.post := by
  cases haction : x.action with
  | call c call =>
    rw [haction] at hs
    obtain ⟨caller, hc, hs⟩ := Option.bind_eq_some_iff.1 hs
    split at hs
    · intro c' a p before hc'
      rw [← Option.some.inj hs] at hc'
      have hearly := begin_early call a p before
      refine hstored c' a p before (hc'.imp (fun hc' => ?_) fun hc' => ?_)
      · exact (Lib.getElem?_set_cases hc').elim (fun heq => absurd heq.2.symm hearly.1) And.right
      · exact (Lib.getElem?_set_cases hc').elim (fun heq => absurd heq.2.symm hearly.2) And.right
    · cases hs
  | step c outcome =>
    rw [haction] at hs
    obtain ⟨caller, hc, hs'⟩ := Option.bind_eq_some_iff.1 hs
    obtain ⟨new, heffect⟩ := callerStep_effect hs'
    intro c' a p before hc'
    rw [heffect.callers] at hc'
    have hnext := heffect.next a p before
    rcases hc' with hc' | hc' <;> rcases Lib.getElem?_set_cases hc' with ⟨rfl, hnew⟩ | ⟨-, hc'⟩
    · rw [hnext.1 hnew.symm] at hc
      exact ⟨x, hx, stores_of_step h (haction ▸ hs) haction hc⟩
    · exact hstored c' a p before (.inl hc')
    · rw [hnext.2 hnew.symm] at hc
      exact hstored c' a p before (.inl hc)
    · exact hstored c' a p before (.inr hc')
  | ownerCall call =>
    rw [haction] at hs
    simp only [bridgeStep] at hs
    split at hs
    · rw [← Option.some.inj hs]
      exact hstored
    · cases hs
  | ownerStep outcome =>
    rw [haction] at hs
    have hcallers := ownerStep_callers hs
    intro c' a p before hc'
    rw [hcallers] at hc'
    exact hstored c' a p before hc'
  | hostEnabled a enabled =>
    rw [haction] at hs
    obtain ⟨r, hr, hs⟩ := Option.bind_eq_some_iff.1 hs
    rw [← Option.some.inj hs]
    exact hstored

/-- **Notifications are bounded and lose nothing**, in every interleaving of publications, host
invalidations, announcements, drains and all other calls. -/
theorem notificationsKept {n : Nat} (h : Trace bridgeStep (.initial n) tr s) :
    s.NotificationsBounded ∧ ∀ x ∈ tr, x.pre.NotificationsBounded ∧ x.post.NotificationsBounded ∧
      ∀ (c a : Nat) p before, Diffs x c a p before →
        x.post.Tells a p before ∧ ∃ y ∈ tr, Stores y c a p before := by
  obtain ⟨hs, hall⟩ := wellFormed_run h
  have hstored := (h.invariant (I := fun s => s.WellFormed ∧ StoredIn tr s)
    (G := fun s action => ∃ t, (⟨s, action, t⟩ : Transition _ _) ∈ tr)
    ⟨wellFormed_initial n, fun c a p before hc => ?_⟩ (fun s action t hi hg hs => ?_)
    fun x hx => ⟨x.post, hx⟩).2
  · refine ⟨hs.bounded, fun x hx => ⟨(hall x hx).1.bounded, (hall x hx).2.bounded, ?_⟩⟩
    intro c a p before hdiff
    exact ⟨tells_of_diffs (hall x hx).1 (h.mem_step hx) hdiff,
      (hstored x hx).1.2 c a p before (.inr hdiff.stage)⟩
  · have hidle : ∀ caller : Caller F, (initial n).callers[c]? = some caller → caller = .idle :=
      fun caller hc => List.eq_of_mem_replicate (List.mem_of_getElem? hc)
    rcases hc with hc | hc <;> cases hidle _ hc
  · obtain ⟨t', hx⟩ := hg
    obtain rfl := Option.some.inj (hs.symm.trans (h.mem_step hx))
    exact ⟨wellFormed_bridgeStep hi.1 hs, storedIn_step hi.1 hs hx hi.2⟩

/-- A snapshot of one named button. -/
def buttonSnapshot (generation : Generation) (name : List UInt8) : SnapshotView Int where
  generation
  root := 10
  nodes := [{ id := 10, name, actions := { flags := 3 } }]

def focusRequest : ActionRequest Int := { (default : ActionRequest Int) with node := 10, action := .focus }

def invokeRequest : ActionRequest Int := { focusRequest with action := .invoke }

/-- A call of a caller with its steps. -/
def callSteps (c : Nat) (call : Call Int) (n : Nat) : List (BridgeAction Int) :=
  .call c call :: List.replicate n (.step c {})

def ownerSteps (call : OwnerCall) (n : Nat) : List (BridgeAction Int) :=
  .ownerCall call :: List.replicate n (.ownerStep {})

def smallLimits : Limits := { maximumActionQueue := 2, maximumNotificationQueue := 1 }

/-- Two publications with a drain in between, an older one that fails, and three requests of which
one is popped; the activation is closed and another one enabled. -/
def sessionActions : List (BridgeAction Int) :=
  List.flatten [
    ownerSteps (.enable smallLimits {}) 3,
    callSteps 0 (.publish (buttonSnapshot 1 [0x61])) 13,
    ownerSteps .drain 3,
    callSteps 1 (.publish (buttonSnapshot 2 [0x62])) 13,
    callSteps 0 (.publish (buttonSnapshot 1 [0x61])) 7,
    callSteps 2 (.submit 0 focusRequest) 4,
    callSteps 2 (.submit 0 focusRequest) 4,
    ownerSteps .pop 2,
    callSteps 2 (.submit 0 invokeRequest) 4,
    ownerSteps .close 7,
    ownerSteps (.enable smallLimits {}) 4]

theorem notificationsKept_sessionActions :
    (Lib.run bridgeStep (.initial 3) sessionActions).map
      (fun r => (r.2.lastGeneration, r.2.stored.map Prod.fst, r.2.runtimes.map Runtime.live)) =
        some (2, [0, 0], [false, true]) ∧
    ∀ r, Lib.run bridgeStep (.initial 3) sessionActions = some r → r.2.NotificationsBounded :=
  ⟨by decide +kernel, fun _ hr => (notificationsKept (Trace.of_run hr)).1⟩

/-! ## Publications -/

/-- The step is one of the caller's own. -/
def OwnStep (c : Nat) (x : Transition (Bridge F) (BridgeAction F)) : Prop :=
  ∃ outcome, x.action = .step c outcome

/-- The closing of the activation returns. -/
def ReturnsClose (x : Transition (Bridge F) (BridgeAction F)) (a : Nat) : Prop :=
  (x.pre.owner = .closeUnlock a ∨ x.pre.owner = .closeExchange a) ∧ x.post.owner = .idle

/-- The caller is in a call of `publish` that captured the activation. -/
def Captured (s : Bridge F) (c a : Nat) : Prop :=
  ∃ stage, s.callers[c]? = some (.publish stage) ∧ stage.activation = some a

/-- What was published is in order. -/
structure Ordered (s : Bridge F) : Prop where
  generations : s.stored.Pairwise fun x y => x.2.storage.generation < y.2.storage.generation
  roots : ∀ x ∈ s.stored, ∀ y ∈ s.stored, x.1 = y.1 → x.2.storage.root = y.2.storage.root

/-- The steps of others do not move the caller. -/
theorem callers_of_other {x : Transition (Bridge F) (BridgeAction F)}
    (hs : x.pre.bridgeStep x.action = some x.post) (hcall : ∀ call, x.action ≠ .call c call)
    (hown : ¬ OwnStep c x) : x.post.callers[c]? = x.pre.callers[c]? := by
  cases haction : x.action with
  | call c' call =>
    rw [haction] at hs
    have hne : c' ≠ c := fun h => hcall call (h ▸ haction)
    obtain ⟨other, -, hs⟩ := Option.bind_eq_some_iff.1 hs
    split at hs
    · rw [← Option.some.inj hs]
      exact List.getElem?_set_ne hne
    · cases hs
  | step c' outcome =>
    rw [haction] at hs
    obtain ⟨other, -, hs⟩ := Option.bind_eq_some_iff.1 hs
    have hne : c' ≠ c := fun h => hown ⟨outcome, h ▸ haction⟩
    obtain ⟨new, heffect⟩ := callerStep_effect hs
    rw [heffect.callers]
    exact List.getElem?_set_ne hne
  | ownerCall call =>
    rw [haction] at hs
    simp only [bridgeStep] at hs
    split at hs
    · rw [← Option.some.inj hs]
      rfl
    · cases hs
  | ownerStep outcome =>
    rw [haction] at hs
    exact congrArg (·[c]?) (ownerStep_callers hs)
  | hostEnabled a enabled =>
    rw [haction] at hs
    obtain ⟨r, hr, hs⟩ := Option.bind_eq_some_iff.1 hs
    rw [← Option.some.inj hs]
    rfl

/-- After a step, the call of `publish` goes on or has returned; once committed it stays so. -/
theorem step_publishing {x : Transition (Bridge F) (BridgeAction F)} {caller : Caller F}
    (hs : x.pre.bridgeStep x.action = some x.post) (hcall : ∀ call, x.action ≠ .call c call)
    (hc : x.pre.callers[c]? = some caller) (hpublishing : caller.Publishing) :
    ∃ new, x.post.callers[c]? = some new ∧ new.Publishing ∧ (caller.Committed → new.Committed) ∧
      (OwnStep c x → SameState x.pre x.post ∨ new.Committed) := by
  by_cases hown : OwnStep c x
  · obtain ⟨outcome, haction⟩ := hown
    rw [haction] at hs
    obtain ⟨caller', hc', hs⟩ := Option.bind_eq_some_iff.1 hs
    obtain rfl := Option.some.inj (hc.symm.trans hc')
    cases caller with
    | publish stage =>
      obtain ⟨new, heffect⟩ := publishStep_effect hs
      refine ⟨new, ?_, heffect.publishing, heffect.committed, fun _ => ?_⟩
      · rw [heffect.caller.callers]
        exact List.getElem?_set_self (List.getElem?_eq_some_iff.1 hc).1
      · exact heffect.changes.imp_right And.left
    | idle | published | announce | submit | invalidate | announced | submitted | invalidated =>
      first | cases hs | cases hpublishing
  · exact ⟨caller, (callers_of_other hs hcall hown).trans hc, hpublishing, id, fun h => absurd h hown⟩

/-- A publication that fails has changed nothing. -/
theorem same_of_failed {u : Bridge F} {status : Io.Status} {caller : Caller F}
    (h : Trace bridgeStep s tr u) (hcall : ∀ x ∈ tr, ∀ call, x.action ≠ .call c call)
    (hc : s.callers[c]? = some caller) (hpublishing : caller.Publishing)
    (hu : u.callers[c]? = some (.published status)) (hfailed : status.ok = false) :
    ¬ caller.Committed ∧ ∀ x ∈ tr, OwnStep c x → SameState x.pre x.post := by
  induction h generalizing caller with
  | nil s =>
    obtain rfl := Option.some.inj (hc.symm.trans hu)
    refine ⟨fun hcommitted => ?_, fun x hx => absurd hx List.not_mem_nil⟩
    have hok : status.ok = true := hcommitted
    exact Bool.false_ne_true (hfailed.symm.trans hok)
  | cons hs h ih =>
    obtain ⟨hfirst, hcall⟩ := List.forall_mem_cons.1 hcall
    obtain ⟨new, hnew, hpub, hcommitted, hsame⟩ := step_publishing hs hfirst hc hpublishing
    obtain ⟨hnot, hrest⟩ := ih hcall hnew hpub hu
    refine ⟨fun h => hnot (hcommitted h), fun x hx hown => ?_⟩
    rcases List.mem_cons.1 hx with rfl | hx
    · exact (hsame hown).resolve_right hnot
    · exact hrest x hx hown

/-- The closing leaves a closed activation. -/
theorem closed_of_returns {x : Transition (Bridge F) (BridgeAction F)} (h : x.pre.WellFormed)
    (hs : x.pre.bridgeStep x.action = some x.post) (hreturns : ReturnsClose x a) :
    x.post.Closed a := by
  obtain ⟨hpre, hidle⟩ := hreturns
  -- only a step of the owner returns
  have hmoves : x.post.owner ≠ x.pre.owner := by
    rw [hidle]
    rcases hpre with hpre | hpre <;> simp [hpre]
  cases haction : x.action with
  | call c call =>
    rw [haction] at hs
    obtain ⟨caller, hc, hs⟩ := Option.bind_eq_some_iff.1 hs
    split at hs
    · exact absurd (by rw [← Option.some.inj hs]; rfl) hmoves
    · cases hs
  | step c outcome =>
    rw [haction] at hs
    obtain ⟨caller, hc, hs⟩ := Option.bind_eq_some_iff.1 hs
    obtain ⟨new, heffect⟩ := callerStep_effect hs
    exact absurd heffect.owner hmoves
  | ownerCall call =>
    rw [haction] at hs
    simp only [bridgeStep] at hs
    rcases hpre with hpre | hpre <;> rw [hpre] at hs <;> cases hs
  | ownerStep outcome =>
    rw [haction] at hs
    rcases hpre with hpre | hpre
    · have hshown := h.owner
      rw [hpre] at hshown
      simp only [bridgeStep, hpre, ownerStep] at hs
      rw [← Option.some.inj hs]
      exact ⟨hshown.2, rfl⟩
    · simp only [bridgeStep, hpre] at hs
      obtain ⟨r, hr, hs⟩ := Option.bind_eq_some_iff.1 hs
      split at hs
      · rename_i hdead
        rw [← Option.some.inj hs]
        exact ⟨⟨r, hr, by simpa using hdead⟩, rfl⟩
      · rw [← Option.some.inj hs] at hidle
        cases hidle
  | hostEnabled b enabled =>
    rw [haction] at hs
    obtain ⟨r, hr, hs⟩ := Option.bind_eq_some_iff.1 hs
    exact absurd (by rw [← Option.some.inj hs]; rfl) hmoves

/-- What a publication does after its activation has been closed. -/
theorem same_of_closed {x : Transition (Bridge F) (BridgeAction F)} (h : x.pre.WellFormed)
    (hs : x.pre.bridgeStep x.action = some x.post) (hclosed : x.pre.Closed a)
    (hcaptured : x.pre.Captured c a) (hown : OwnStep c x) : SameState x.pre x.post := by
  obtain ⟨stage, hc, hstage⟩ := hcaptured
  obtain ⟨outcome, haction⟩ := hown
  rw [haction] at hs
  obtain ⟨caller, hc', hs⟩ := Option.bind_eq_some_iff.1 hs
  obtain rfl := Option.some.inj (hc.symm.trans hc')
  obtain ⟨new, heffect⟩ := publishStep_effect hs
  refine heffect.changes.resolve_right ?_
  rintro ⟨-, b, hb, hopen⟩
  obtain rfl := Option.some.inj (hstage.symm.trans hb)
  exact hclosed.not_open (hopen (h.callers c _ hc))

theorem frame_of_captured {x : Transition (Bridge F) (BridgeAction F)}
    (hs : x.pre.bridgeStep x.action = some x.post) (hcaptured : x.pre.Captured c a)
    (hown : OwnStep c x) {b : Nat} (hb : b ≠ a) : x.post.runtimes[b]? = x.pre.runtimes[b]? := by
  obtain ⟨stage, hc, hstage⟩ := hcaptured
  obtain ⟨outcome, haction⟩ := hown
  rw [haction] at hs
  obtain ⟨caller, hc', hs⟩ := Option.bind_eq_some_iff.1 hs
  obtain rfl := Option.some.inj (hc.symm.trans hc')
  obtain ⟨new, heffect⟩ := publishStep_effect hs
  refine heffect.frame b fun h => hb ?_
  exact Option.some.inj (h.symm.trans hstage)

/-- What holds of a step, of the run after it and of its end. -/
structure StepKept (x : Transition (Bridge F) (BridgeAction F))
    (later : List (Transition (Bridge F) (BridgeAction F))) (s : Bridge F) : Prop where
  stored : ∀ (c a : Nat) p before, Stores x c a p before → x.post.stored = x.pre.stored ++ [(a, p)]
  failed : ∀ c snapshot status, x.action = .call c (.publish snapshot) →
    (∀ y ∈ later, ∀ call, y.action ≠ .call c call) →
    s.callers[c]? = some (.published status) → status.ok = false →
    ∀ y ∈ later, OwnStep c y → SameState y.pre y.post
  closed : ∀ a, ReturnsClose x a → x.post.Emptied a ∧ ∀ y ∈ later, y.post.Emptied a ∧
    ∀ c, y.pre.Captured c a → OwnStep c y → SameState y.pre y.post
  frame : ∀ c a, x.pre.Captured c a → OwnStep c x →
    ∀ b, b ≠ a → x.post.runtimes[b]? = x.pre.runtimes[b]?

/-- **Publications are ordered, and a closed activation stays empty**, in every interleaving of any
number of callers and the owner. -/
theorem publicationsKept {n : Nat} (h : Trace bridgeStep (.initial n) tr s) :
    s.Ordered ∧ ∀ earlier x later, tr = earlier ++ x :: later → StepKept x later s := by
  obtain ⟨hs, hall⟩ := wellFormed_run h
  refine ⟨⟨hs.stored.increasing, hs.stored.roots⟩, ?_⟩
  rintro earlier x later rfl
  obtain ⟨-, hstep, hlater⟩ := h.split
  have hx := hall x (by simp)
  refine ⟨fun c a p before hstores => ?_, fun c snapshot status haction hcall hs hfailed => ?_,
    fun a hreturns => ?_, fun c a hcaptured hown b hb => frame_of_captured hstep hcaptured hown hb⟩
  · obtain ⟨hc, ⟨outcome, haction⟩, -, -⟩ := hstores
    rw [haction] at hstep
    obtain ⟨caller, hc', hstep⟩ := Option.bind_eq_some_iff.1 hstep
    obtain rfl := Option.some.inj (hc.symm.trans hc')
    obtain ⟨r, hr, hstep⟩ := Option.bind_eq_some_iff.1 hstep
    rw [← Option.some.inj hstep]
    rfl
  · rw [haction] at hstep
    obtain ⟨caller, hc, hstep⟩ := Option.bind_eq_some_iff.1 hstep
    split at hstep
    · have hset : x.post.callers[c]? = some (begin (.publish snapshot)) := by
        rw [← Option.some.inj hstep]
        exact List.getElem?_set_self (List.getElem?_eq_some_iff.1 hc).1
      exact (same_of_failed hlater hcall hset trivial hs hfailed).2
    · cases hstep
  · have hclosed := closed_of_returns hx.1 hstep hreturns
    have hstay := (hlater.invariant_of_step (I := fun s => s.Closed a) hclosed
      fun _ _ _ hi hs => closed_bridgeStep hi hs).2
    refine ⟨hx.2.emptied hclosed, fun y hy => ?_⟩
    have hy' := hall y (by simp [hy])
    exact ⟨hy'.2.emptied (hstay y hy).2, fun c hcaptured hown =>
      same_of_closed hy'.1 (hlater.mem_step hy) (hstay y hy).1 hcaptured hown⟩

theorem publicationsKept_sessionActions :
    (Lib.run bridgeStep (.initial 3) sessionActions).map
      (fun r => (r.2.stored.map fun x => (x.1, x.2.storage.generation, x.2.storage.root))) =
        some [(0, 1, 10), (0, 2, 10)] ∧
    ∀ r, Lib.run bridgeStep (.initial 3) sessionActions = some r → r.2.Ordered :=
  ⟨by decide +kernel, fun _ hr => (publicationsKept (Trace.of_run hr)).1⟩

end Bridge

end Desktop

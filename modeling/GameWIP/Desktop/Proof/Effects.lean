import GameWIP.Desktop.Proof.Interleaving

/-!
# What one step leaves to the others

`CallerEffect` is said of the step of any caller, `PublishEffect` and `SubmitEffect` of a step of the
two calls that the results are about. A publication changes only its own activation, and changes
something only when it can no longer fail.
-/

namespace Desktop

open Lib (Trace Transition Superseded acceptedOf poppedOf)

variable {F : Type} {s t : Bridge F} {a c : Nat} {r r' : Runtime F} {outcome : Io.Status} {old : Caller F}
  {p : PublishedSnapshot F} {before : Option (PublishedSnapshot F)}
  {tr : List (Transition (Bridge F) (BridgeAction F))}

/-! ## The steps of one publication -/

/-- The activation whose state the next step may change. -/
def PublishStage.activation : PublishStage F → Option Nat
  | .load _ | .unlock _ => none
  | .live a _ | .validate a _ | .lock a _ | .liveLocked a _ | .generation a _ | .root a _
  | .prepare a _ _ | .liveAgain a _ _ | .store a _ _ | .record a _ _ | .diff a _ _ => some a

/-- The publication has stored its snapshot, or has succeeded. -/
def Caller.Committed : Caller F → Prop
  | .publish (.record _ _ _) | .publish (.diff _ _ _) => True
  | .publish (.unlock status) | .published status => status.ok = true
  | _ => False

/-- In a call of `publish`, or returned from it. -/
def Caller.Publishing : Caller F → Prop
  | .publish _ | .published _ => True
  | _ => False

/-- The request of a submission on its way. -/
def SubmitStage.request : SubmitStage F → Nat × ActionRequest F
  | .live a request | .snapshot a request | .check a _ request | .commit a _ request => (a, request)

/-- What the publications change. -/
structure Bridge.SameState (s t : Bridge F) : Prop where
  runtimes : t.runtimes = s.runtimes
  lastGeneration : t.lastGeneration = s.lastGeneration
  stored : t.stored = s.stored

namespace Bridge

/-- Every activation stays, with its live flag. -/
def Lives (s t : Bridge F) : Prop :=
  ∀ (b : Nat) r, s.runtimes[b]? = some r → ∃ r', t.runtimes[b]? = some r' ∧ r'.live = r.live

theorem lives_refl (s : Bridge F) : Lives s s := fun _ r hr => ⟨r, hr, rfl⟩

theorem lives_setRuntime (hr : s.runtimes[a]? = some r) (hlive : r'.live = r.live) :
    Lives s (s.setRuntime a r') := by
  intro b x hx
  by_cases hb : b = a
  · subst hb
    obtain rfl := Option.some.inj (hr.symm.trans hx)
    exact ⟨r', getElem?_setRuntime hr, hlive⟩
  · exact ⟨x, (getElem?_setRuntime_ne hb).trans hx, rfl⟩

theorem Lives.dead (h : Lives s t) (hdead : s.Dead a) : t.Dead a := by
  obtain ⟨r, hr, hlive⟩ := hdead
  obtain ⟨r', hr', heq⟩ := h a r hr
  exact ⟨r', hr', heq.trans hlive⟩

/-- No activation has taken in a request. -/
def Histories (s t : Bridge F) : Prop :=
  ∀ (b : Nat) r', t.runtimes[b]? = some r' → acceptedOf r'.history = [] ∨
    ∃ r, s.runtimes[b]? = some r ∧ acceptedOf r'.history = acceptedOf r.history

theorem histories_refl (s : Bridge F) : Histories s s := fun _ r hr => .inr ⟨r, hr, rfl⟩

theorem histories_setRuntime (hr : s.runtimes[a]? = some r)
    (hhistory : acceptedOf r'.history = acceptedOf r.history) : Histories s (s.setRuntime a r') := by
  intro b x hx
  rcases getElem?_setRuntime_cases hx with ⟨rfl, rfl⟩ | ⟨-, hx⟩
  · exact .inr ⟨r, hr, hhistory⟩
  · exact .inr ⟨x, hx, rfl⟩

/-- What the step of a caller leaves to the others. -/
structure CallerEffect (s : Bridge F) (c : Nat) (old new : Caller F) (t : Bridge F) : Prop where
  callers : t.callers = s.callers.set c new
  owner : t.owner = s.owner
  lives : Lives s t
  next : ∀ a p before, (new = .publish (.record a p before) → old = .publish (.store a p before)) ∧
    (new = .publish (.diff a p before) → old = .publish (.record a p before))
  history : Histories s t ∨ ∃ a snapshot request, old = .submit (.commit a snapshot request)

/-- No snapshot has just been stored by the caller. -/
def Caller.Early (caller : Caller F) : Prop :=
  ∀ a p before, caller ≠ .publish (.record a p before) ∧ caller ≠ .publish (.diff a p before)

theorem callerEffect_move {new : Caller F} (hnew : Caller.Early new) :
    CallerEffect s c old new (s.setCaller c new) :=
  ⟨rfl, rfl, lives_refl s,
    fun a p before => ⟨fun h => absurd h (hnew a p before).1, fun h => absurd h (hnew a p before).2⟩,
    .inl (histories_refl s)⟩

theorem callerEffect_runtime {new : Caller F} (hr : s.runtimes[a]? = some r)
    (hsame : r.SameActions r') (hnew : Caller.Early new) :
    CallerEffect s c old new ((s.setRuntime a r').setCaller c new) :=
  ⟨rfl, rfl, lives_setRuntime hr hsame.live,
    fun a p before => ⟨fun h => absurd h (hnew a p before).1, fun h => absurd h (hnew a p before).2⟩,
    .inl (histories_setRuntime hr (congrArg acceptedOf hsame.history))⟩

variable [DoubleOps F]

/-- What one step of a publication does. -/
structure PublishEffect (s : Bridge F) (c : Nat) (stage : PublishStage F) (new : Caller F)
    (t : Bridge F) : Prop where
  caller : CallerEffect s c (.publish stage) new t
  publishing : new.Publishing
  committed : (Caller.publish stage).Committed → new.Committed
  frame : ∀ b, stage.activation ≠ some b → t.runtimes[b]? = s.runtimes[b]?
  changes : SameState s t ∨ (new.Committed ∧ ∃ b, stage.activation = some b ∧
    (stage.Shown s → s.Open b))

theorem publishEffect_move {stage : PublishStage F} {new : Caller F} (hnew : new.Publishing)
    (hearly : Caller.Early new) (hcommitted : (Caller.publish stage).Committed → new.Committed) :
    PublishEffect s c stage new (s.setCaller c new) :=
  ⟨callerEffect_move hearly, hnew, hcommitted, fun _ _ => rfl, .inl ⟨rfl, rfl, rfl⟩⟩

theorem publishStep_effect {stage : PublishStage F} (hs : s.publishStep c outcome stage = some t) :
    ∃ new, PublishEffect s c stage new t := by
  cases stage with
  | load snapshot =>
    simp only [publishStep] at hs
    split at hs <;> cases hs <;> exact ⟨_, publishEffect_move trivial (by simp [Caller.Early]) False.elim⟩
  | live a snapshot =>
    obtain ⟨r, hr, hs⟩ := Option.bind_eq_some_iff.1 hs
    split at hs <;> cases hs <;> exact ⟨_, publishEffect_move trivial (by simp [Caller.Early]) False.elim⟩
  | validate a snapshot =>
    obtain ⟨r, hr, hs⟩ := Option.bind_eq_some_iff.1 hs
    obtain ⟨validation, hv, hs⟩ := Option.bind_eq_some_iff.1 hs
    split_ifs at hs <;> cases hs <;> exact ⟨_, publishEffect_move trivial (by simp [Caller.Early]) False.elim⟩
  | lock a candidate =>
    simp only [publishStep] at hs
    split at hs
    · cases hs
    · cases hs
      exact ⟨_, ⟨rfl, rfl, lives_refl s, fun _ _ _ => ⟨(fun h => by cases h), fun h => by cases h⟩, .inl (histories_refl s)⟩, trivial, False.elim,
        fun _ _ => rfl, .inl ⟨rfl, rfl, rfl⟩⟩
  | liveLocked a candidate =>
    obtain ⟨r, hr, hs⟩ := Option.bind_eq_some_iff.1 hs
    split at hs <;> cases hs <;> exact ⟨_, publishEffect_move trivial (by simp [Caller.Early]) False.elim⟩
  | generation a candidate =>
    simp only [publishStep] at hs
    split at hs <;> cases hs <;> exact ⟨_, publishEffect_move trivial (by simp [Caller.Early]) False.elim⟩
  | root a candidate =>
    obtain ⟨r, hr, hs⟩ := Option.bind_eq_some_iff.1 hs
    split at hs <;> cases hs <;> exact ⟨_, publishEffect_move trivial (by simp [Caller.Early]) False.elim⟩
  | prepare a candidate before =>
    simp only [publishStep] at hs
    split at hs <;> cases hs <;> exact ⟨_, publishEffect_move trivial (by simp [Caller.Early]) False.elim⟩
  | liveAgain a candidate before =>
    obtain ⟨r, hr, hs⟩ := Option.bind_eq_some_iff.1 hs
    split at hs <;> cases hs <;> exact ⟨_, publishEffect_move trivial (by simp [Caller.Early]) False.elim⟩
  | store a candidate before =>
    obtain ⟨r, hr, hs⟩ := Option.bind_eq_some_iff.1 hs
    cases hs
    refine ⟨_, ⟨rfl, rfl, lives_setRuntime (s := s) hr rfl, fun b q old => ⟨fun h => ?_, fun h => by cases h⟩,
        .inl (histories_setRuntime (s := s) hr rfl)⟩,
      trivial, False.elim, fun b hb => getElem?_setRuntime_ne fun h => hb (h ▸ rfl),
      .inr ⟨trivial, a, rfl, And.right⟩⟩
    cases h
    rfl
  | record a candidate before =>
    cases hs
    refine ⟨_, ⟨rfl, rfl, lives_refl s, fun b q old => ⟨(fun h => by cases h), fun h => ?_⟩, .inl (histories_refl s)⟩,
      trivial, id, fun _ _ => rfl, .inr ⟨trivial, a, rfl, fun h => h.1.opened⟩⟩
    cases h
    rfl
  | diff a candidate before =>
    obtain ⟨r, hr, hs⟩ := Option.bind_eq_some_iff.1 hs
    cases hs
    exact ⟨_, callerEffect_runtime hr Runtime.same_queueDiff (by simp [Caller.Early]), trivial,
      fun _ => rfl, fun b hb => getElem?_setRuntime_ne fun h => hb (h ▸ rfl),
      .inr ⟨rfl, a, rfl, fun h => h.opened⟩⟩
  | unlock status =>
    cases hs
    exact ⟨_, ⟨rfl, rfl, lives_refl s, fun _ _ _ => ⟨(fun h => by cases h), fun h => by cases h⟩, .inl (histories_refl s)⟩, trivial, id, fun _ _ => rfl,
      .inl ⟨rfl, rfl, rfl⟩⟩

/-! ## The steps of the other threads -/

omit [DoubleOps F] in
theorem announceStep_effect {stage : AnnounceStage F} (hs : s.announceStep c outcome stage = some t) :
    ∃ new, CallerEffect s c old new t ∧ ∀ stage, new ≠ .submit stage := by
  cases stage with
  | load announcement =>
    simp only [announceStep] at hs
    split at hs <;> cases hs <;> exact ⟨_, callerEffect_move (by simp [Caller.Early]), by simp⟩
  | live a announcement =>
    obtain ⟨r, hr, hs⟩ := Option.bind_eq_some_iff.1 hs
    split at hs <;> cases hs <;> exact ⟨_, callerEffect_move (by simp [Caller.Early]), by simp⟩
  | check a announcement =>
    obtain ⟨r, hr, hs⟩ := Option.bind_eq_some_iff.1 hs
    split_ifs at hs <;> cases hs <;> exact ⟨_, callerEffect_move (by simp [Caller.Early]), by simp⟩
  | snapshot a announcement =>
    obtain ⟨r, hr, hs⟩ := Option.bind_eq_some_iff.1 hs
    split at hs
    · cases hs
      exact ⟨_, callerEffect_move (by simp [Caller.Early]), fun _ h => by cases h⟩
    · dsimp only at hs
      split at hs
      · cases hs
        exact ⟨_, callerEffect_move (by simp [Caller.Early]), fun _ h => by cases h⟩
      · split_ifs at hs <;> cases hs <;> exact ⟨_, callerEffect_move (by simp [Caller.Early]), by simp⟩
  | push a snapshot id announcement =>
    obtain ⟨r, hr, hs⟩ := Option.bind_eq_some_iff.1 hs
    cases hs
    exact ⟨_, callerEffect_runtime hr Runtime.same_pushAnnouncement (by simp [Caller.Early]), fun _ h => by cases h⟩

omit [DoubleOps F] in
theorem invalidateStep_effect {stage : InvalidateStage} (hs : s.invalidateStep c stage = some t) :
    ∃ new, CallerEffect s c old new t ∧ ∀ stage, new ≠ .submit stage := by
  cases stage with
  | load focusGained =>
    simp only [invalidateStep] at hs
    split at hs <;> cases hs <;> exact ⟨_, callerEffect_move (by simp [Caller.Early]), by simp⟩
  | live a focusGained =>
    obtain ⟨r, hr, hs⟩ := Option.bind_eq_some_iff.1 hs
    split at hs <;> cases hs <;> exact ⟨_, callerEffect_move (by simp [Caller.Early]), by simp⟩
  | locked a focusGained =>
    obtain ⟨r, hr, hs⟩ := Option.bind_eq_some_iff.1 hs
    cases hs
    exact ⟨_, callerEffect_runtime hr Runtime.same_invalidateHost (by simp [Caller.Early]), fun _ h => by cases h⟩

/-- A step of a submission: before the commit nothing is shared. -/
inductive SubmitEffect (s : Bridge F) (c : Nat) (t : Bridge F) : SubmitStage F → Prop
  | move {stage : SubmitStage F} {new : Caller F}
      (haccepted : ∀ result, new = .submitted result → result.acceptance ≠ .accepted)
      (hearly : Caller.Early new)
      (hrequest : ∀ next, new = .submit next → next.request = stage.request)
      (hcheck : ∀ a snapshot request, new = .submit (.commit a snapshot request) →
        ∃ loaded r, stage = .check a loaded request ∧ s.runtimes[a]? = some r ∧
          r.checkAction loaded request = .ok snapshot) (ht : t = s.setCaller c new) : SubmitEffect s c t stage
  | commit {a : Nat} {snapshot : PublishedSnapshot F} {request : ActionRequest F} {r : Runtime F}
      (hr : s.runtimes[a]? = some r)
      (ht : t = (s.setRuntime a (r.commitAction snapshot request).2).setCaller c
        (.submitted (r.commitAction snapshot request).1)) : SubmitEffect s c t (.commit a snapshot request)

theorem submitStep_effect {stage : SubmitStage F} (hs : s.submitStep c stage = some t) :
    SubmitEffect s c t stage := by
  cases stage with
  | live a request =>
    obtain ⟨r, hr, hs⟩ := Option.bind_eq_some_iff.1 hs
    split at hs <;> cases hs <;>
      exact .move (by simp) (by simp [Caller.Early]) (by simp [SubmitStage.request]) (by simp) rfl
  | snapshot a request =>
    obtain ⟨r, hr, hs⟩ := Option.bind_eq_some_iff.1 hs
    cases hs
    exact .move (by simp) (by simp [Caller.Early]) (by simp [SubmitStage.request]) (by simp) rfl
  | check a loaded request =>
    obtain ⟨r, hr, hs⟩ := Option.bind_eq_some_iff.1 hs
    split at hs
    · rename_i hcheck
      cases hs
      refine .move (fun result hresult => ?_) (by simp [Caller.Early]) (by simp) (by simp) rfl
      cases hresult
      exact checkAction_ne_accepted hcheck
    · rename_i hcheck
      cases hs
      refine .move (by simp) (by simp [Caller.Early]) (by simp [SubmitStage.request])
        (fun b q request' hnew => ?_) rfl
      cases hnew
      exact ⟨loaded, r, rfl, hr, hcheck⟩
  | commit a snapshot request =>
    obtain ⟨r, hr, hs⟩ := Option.bind_eq_some_iff.1 hs
    cases hs
    exact .commit hr rfl

theorem SubmitEffect.caller {stage : SubmitStage F} (h : SubmitEffect s c t stage) :
    ∃ new, CallerEffect s c (.submit stage) new t := by
  cases h with
  | move haccepted hearly hrequest hcheck ht => exact ⟨_, ht ▸ callerEffect_move hearly⟩
  | commit hr ht =>
    subst ht
    exact ⟨_, rfl, rfl, lives_setRuntime hr Runtime.same_commitAction.live,
      fun _ _ _ => ⟨nofun, nofun⟩, .inr ⟨_, _, _, rfl⟩⟩

theorem callerStep_effect {caller : Caller F} (hs : s.callerStep c outcome caller = some t) :
    ∃ new, CallerEffect s c caller new t := by
  cases caller with
  | publish stage =>
    obtain ⟨new, h⟩ := publishStep_effect hs
    exact ⟨new, h.caller⟩
  | announce stage =>
    obtain ⟨new, h, -⟩ := announceStep_effect hs
    exact ⟨new, h⟩
  | submit stage => exact (submitStep_effect hs).caller
  | invalidate stage =>
    obtain ⟨new, h, -⟩ := invalidateStep_effect hs
    exact ⟨new, h⟩
  | idle | published | announced | submitted | invalidated => cases hs

/-! ## The steps of the owner -/

theorem ownerStep_callers {o : Owner F} (hs : s.ownerStep outcome o = some t) :
    t.callers = s.callers := by
  cases o with
  | drain a remaining => cases remaining <;> simp [ownerStep] at hs <;> grind [setOwner, setRuntime]
  | _ => simp [ownerStep] at hs <;> grind [setOwner, setRuntime]

theorem histories_ownerStep {o : Owner F} (hs : s.ownerStep outcome o = some t) : Histories s t := by
  have hmove : ∀ o : Owner F, Histories s (s.setOwner o) := fun _ => histories_refl s
  cases o with
  | idle => cases hs
  | enableLoad limits features =>
    simp only [ownerStep] at hs
    split at hs <;> cases hs <;> exact hmove _
  | enableLive b limits features =>
    obtain ⟨r, hr, hs⟩ := Option.bind_eq_some_iff.1 hs
    split at hs <;> cases hs <;> exact hmove _
  | enableMake limits features =>
    simp only [ownerStep] at hs
    split_ifs at hs <;> cases hs <;> exact hmove _
  | enableStore limits features hlimits =>
    cases hs
    intro b x hx
    rcases Nat.lt_or_ge b s.runtimes.length with hlt | hge
    · exact .inr ⟨x, (List.getElem?_append_left hlt).symm.trans hx, rfl⟩
    · have hx := (List.getElem?_append_right hge).symm.trans hx
      rw [List.getElem?_singleton] at hx
      split at hx
      · rw [← Option.some.inj hx]
        exact .inl rfl
      · cases hx
  | disableLoad =>
    simp only [ownerStep] at hs
    split at hs <;> cases hs <;> exact hmove _
  | disableLive b =>
    obtain ⟨r, hr, hs⟩ := Option.bind_eq_some_iff.1 hs
    split at hs <;> cases hs <;> exact hmove _
  | closeLoad =>
    simp only [ownerStep] at hs
    split at hs <;> cases hs <;> exact hmove _
  | closeExchange b =>
    obtain ⟨r, hr, hs⟩ := Option.bind_eq_some_iff.1 hs
    split at hs
    · cases hs
      exact hmove _
    · cases hs
      exact histories_setRuntime hr rfl
  | closeLock b =>
    simp only [ownerStep] at hs
    split at hs
    · cases hs
    · cases hs
      exact hmove (.closeSnapshot b)
  | closeSnapshot b | closeActions b | closeNotifications b =>
    obtain ⟨r, hr, hs⟩ := Option.bind_eq_some_iff.1 hs
    cases hs
    exact histories_setRuntime hr rfl
  | closeUnlock b =>
    cases hs
    exact hmove .idle
  | popLoad =>
    simp only [ownerStep] at hs
    split at hs <;> cases hs <;> exact hmove _
  | popLocked b =>
    obtain ⟨r, hr, hs⟩ := Option.bind_eq_some_iff.1 hs
    split at hs
    · cases hs
      exact hmove _
    · rename_i hpop
      cases hs
      refine histories_setRuntime hr ?_
      rw [(Runtime.popAction_spec hpop).2, Lib.acceptedOf_popped]
  | drainLoad =>
    simp only [ownerStep] at hs
    split at hs
    · cases hs
      exact hmove _
    · obtain ⟨r, hr, hs⟩ := Option.bind_eq_some_iff.1 hs
      cases hs
      exact hmove _
  | drain b remaining =>
    cases remaining with
    | zero =>
      cases hs
      exact hmove _
    | succ remaining =>
      obtain ⟨r, hr, hs⟩ := Option.bind_eq_some_iff.1 hs
      split at hs
      · cases hs
        exact hmove _
      · rename_i hdrain
        cases hs
        exact histories_setRuntime hr
          (congrArg acceptedOf (Runtime.same_drainNotification hdrain).history)

omit [DoubleOps F] in
theorem Histories.accepted (h : Histories s t) {P : Nat → ActionRequest F → Prop}
    (hs : ∀ (a : Nat) r, s.runtimes[a]? = some r → ∀ q ∈ acceptedOf r.history, P a q) (a : Nat)
    (r' : Runtime F) (hr' : t.runtimes[a]? = some r') : ∀ q ∈ acceptedOf r'.history, P a q := by
  intro q hq
  rcases h a r' hr' with hnil | ⟨r, hr, heq⟩
  · rw [hnil] at hq
    cases hq
  · exact hs a r hr q (heq ▸ hq)

omit [DoubleOps F] in
theorem begin_early (call : Call F) : Caller.Early (begin call) := by
  cases call <;> simp [begin, Caller.Early]

end Bridge

end Desktop

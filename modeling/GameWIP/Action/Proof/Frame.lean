import GameWIP.Action.Proof.ActionMap

/-!
# Presses and releases over a run of frames

`reportsKept_iff`: a button action with one `Down` or `Hold` binding reports its presses and its
releases in turn, and is down between them, exactly when no frame of the run presses the primary
control of a `PrimaryLast` combo in a way the level of the combo does not follow
(`ActionBinding.Follows`).

The gesture decides a press from the controls pressed in the frame and a release from the level,
so that a tap within one frame is a press without a release.
-/

namespace Action

open Lib (Trace Transition)
open Input (InputState InputControl)

variable {F : Type*}

/-! ## Reports in turn -/

/-- The report due after `k` others. -/
def reportDue (k : Nat) : ActionReport := if k % 2 = 0 then .pressed else .released

/-- The reports alternate, and the first is a press. -/
def Alternating (reports : List ActionReport) : Prop :=
  ∀ k report, reports[k]? = some report → report = reportDue k

/-- What is promised of an action after a frame. -/
structure FrameRun.ReportsKept (run : FrameRun F) (action : Nat) : Prop where
  alternating : Alternating run.reports
  down : run.map.isDown action = true ↔
    run.reports.count .released < run.reports.count .pressed

theorem alternating_append {reports : List ActionReport} {report : ActionReport} :
    Alternating (reports ++ [report]) ↔
      Alternating reports ∧ report = reportDue reports.length := by
  constructor
  · intro h
    refine ⟨fun k r hk => h k r ?_, h _ _ (by simp)⟩
    rw [List.getElem?_append_left (List.getElem?_eq_some_iff.1 hk).1]
    exact hk
  · rintro ⟨h, hlast⟩ k r hk
    rcases Nat.lt_or_ge k reports.length with hlt | hge
    · rw [List.getElem?_append_left hlt] at hk
      exact h k r hk
    · rw [List.getElem?_append_right hge, List.getElem?_singleton] at hk
      split at hk
      · obtain rfl : k = reports.length := by omega
        exact (Option.some.inj hk).symm.trans hlast
      · cases hk

/-- Of reports in turn, half are presses, with the odd one. -/
theorem Alternating.counts {reports : List ActionReport} (h : Alternating reports) :
    reports.count .pressed = (reports.length + 1) / 2 ∧
      reports.count .released = reports.length / 2 := by
  induction reports using List.reverseRecOn with
  | nil => exact ⟨rfl, rfl⟩
  | append_singleton reports report ih =>
    obtain ⟨hinit, rfl⟩ := alternating_append.1 h
    obtain ⟨hpressed, hreleased⟩ := ih hinit
    rw [List.count_append, List.count_append, hpressed, hreleased, List.length_append,
      List.length_singleton, reportDue]
    split_ifs
    · simp
      omega
    · simp
      omega

theorem Alternating.pressed_ahead {reports : List ActionReport} (h : Alternating reports) :
    reports.count .released < reports.count .pressed ↔ reports.length % 2 = 1 := by
  rw [h.counts.1, h.counts.2]
  omega

/-- The reports so far are in turn, and one press is open exactly when `held`. -/
def OpenReports (reports : List ActionReport) (held : Bool) : Prop :=
  Alternating reports ∧ (held = true ↔ reports.length % 2 = 1)

/-- The reports of one frame keep the turn exactly when they are the edges of `held`. -/
theorem openReports_append {reports : List ActionReport} {held released : Bool}
    (pressed next : Bool) (h : OpenReports reports held) (hreleased : released = true → held = true) :
    OpenReports (reports ++ ((if pressed then [.pressed] else []) ++
        (if released then [.released] else []))) next ↔
      pressed = (!held && next) ∧ released = (held && !next) := by
  obtain ⟨halternating, hheld⟩ := h
  unfold OpenReports
  cases released with
  | false =>
    cases pressed with
    | false =>
      simp only [Bool.false_eq_true, if_false, List.append_nil, halternating, true_and, ← hheld]
      cases held <;> cases next <;> simp
    | true =>
      simp only [if_true, Bool.false_eq_true, if_false, List.append_nil, alternating_append,
        halternating, true_and, List.length_append, List.length_singleton, reportDue]
      cases held with
      | true => simp [hheld.1 rfl]
      | false =>
        have heven : reports.length % 2 = 0 := by
          have := mt hheld.2 Bool.false_ne_true
          omega
        have hodd : (reports.length + 1) % 2 = 1 := by omega
        simp [heven, hodd]
  | true =>
    obtain rfl := hreleased rfl
    have hodd := hheld.1 rfl
    have heven : (reports.length + 1) % 2 = 0 := by omega
    cases pressed with
    | false =>
      simp [alternating_append, halternating, reportDue, hodd, heven]
    | true =>
      rw [if_pos rfl, if_pos rfl, ← List.append_assoc, alternating_append, alternating_append]
      simp [reportDue, hodd]

/-! ## Gestures -/

/-- The action of the binding is down while the binding is active, for `Hold` once it has fired. -/
def isHeld (trigger : ActionTrigger) (bindingState : RuntimeBindingState F) : Bool :=
  bindingState.active && (trigger ≠ .hold || bindingState.holdFired)

theorem isHeld_congr {trigger : ActionTrigger} {recorded bindingState : RuntimeBindingState F}
    (h : recorded.gesture = bindingState.gesture) :
    isHeld trigger recorded = isHeld trigger bindingState := by
  show isHeld trigger recorded.gesture = isHeld trigger bindingState.gesture
  rw [h]

/-- A press of the primary control that starts a `PrimaryLast` combo finds the action up; for
`Down` the combo is moreover down when the frame is evaluated. -/
def ActionBinding.Follows (binding : ActionBinding F) (inputState : InputState F)
    (bindingState : RuntimeBindingState F) : Prop :=
  binding.combo.activationMode = .primaryLast →
    wasPrimaryPressed inputState binding.combo = true →
      isHeld binding.gesture.trigger bindingState = false ∧
        (binding.gesture.trigger = .down → isComboDown inputState binding.combo = true)

instance (binding : ActionBinding F) (inputState : InputState F)
    (bindingState : RuntimeBindingState F) :
    Decidable (binding.Follows inputState bindingState) :=
  inferInstanceAs (Decidable (_ → _ → _ ∧ (_ → _)))

variable [FloatOps F] {binding : ActionBinding F}

/-- The reports of a `Hold`, from the flags of the source's locals; `fires` is whether the control
has been held for long enough. -/
theorem evaluateGesture_hold (ht : binding.gesture.trigger = .hold) (inputState : InputState F)
    (bindingState : RuntimeBindingState F) (matching : Bool) (frameSeconds : F) :
    let evaluated := evaluateGesture inputState binding bindingState matching frameSeconds
    let starts := startsThisFrame inputState binding.combo bindingState.active
    let next := nextBindingActive inputState binding.combo bindingState.active
    let fired := !starts && bindingState.holdFired
    ∃ fires, evaluated.state.active = next ∧ evaluated.state.holdFired = (fired || next && fires) ∧
      evaluated.down = (next && (fired || fires)) ∧ evaluated.pressed = (next && !fired && fires) ∧
      evaluated.released = (bindingState.active && !next && fired) := by
  refine ⟨FloatOps.le binding.gesture.holdSeconds (FloatOps.add (if startsThisFrame inputState
    binding.combo bindingState.active then FloatOps.zero else bindingState.heldSeconds)
    frameSeconds), ?_⟩
  rw [evaluateGesture, ht]
  dsimp only
  by_cases hnext : nextBindingActive inputState binding.combo bindingState.active = true
  · rw [if_pos hnext]
    by_cases hstarts : startsThisFrame inputState binding.combo bindingState.active = true
    · simp [hnext, hstarts]
    · cases hfired : bindingState.holdFired <;> simp [hnext, hstarts]
  · rw [if_neg hnext]
    by_cases hstarts : startsThisFrame inputState binding.combo bindingState.active = true
    · simp [hnext, hstarts]
    · simp [hnext, hstarts]

/-- The action is reported down exactly while its binding holds it. -/
theorem evaluateGesture_down
    (htrigger : binding.gesture.trigger = .down ∨ binding.gesture.trigger = .hold)
    (inputState : InputState F) (bindingState : RuntimeBindingState F) (matching : Bool)
    (frameSeconds : F) :
    (evaluateGesture inputState binding bindingState matching frameSeconds).down =
      isHeld binding.gesture.trigger
        (evaluateGesture inputState binding bindingState matching frameSeconds).state := by
  rcases htrigger with ht | ht
  · simp [evaluateGesture, isHeld, ht]
  · obtain ⟨fires, hactive, hfired, hdown, -, -⟩ :=
      evaluateGesture_hold ht inputState bindingState matching frameSeconds
    rw [isHeld, hactive, hfired, hdown, ht]
    cases nextBindingActive inputState binding.combo bindingState.active <;> simp

/-- A release is reported of an action that was down. -/
theorem evaluateGesture_released
    (htrigger : binding.gesture.trigger = .down ∨ binding.gesture.trigger = .hold)
    (inputState : InputState F) (bindingState : RuntimeBindingState F) (matching : Bool)
    (frameSeconds : F)
    (h : (evaluateGesture inputState binding bindingState matching frameSeconds).released = true) :
    isHeld binding.gesture.trigger bindingState = true := by
  rcases htrigger with ht | ht
  · simp_all [evaluateGesture, isHeld]
  · obtain ⟨fires, -, -, -, -, hreleased⟩ :=
      evaluateGesture_hold ht inputState bindingState matching frameSeconds
    rw [hreleased] at h
    simp_all [isHeld]

/-- The gesture reports the edges of the level exactly when the press of the frame follows it. -/
theorem evaluateGesture_edges
    (htrigger : binding.gesture.trigger = .down ∨ binding.gesture.trigger = .hold)
    (inputState : InputState F) (bindingState : RuntimeBindingState F) (matching : Bool)
    (frameSeconds : F) :
    let evaluated := evaluateGesture inputState binding bindingState matching frameSeconds
    let held := isHeld binding.gesture.trigger bindingState
    let next := isHeld binding.gesture.trigger evaluated.state
    evaluated.pressed = (!held && next) ∧ evaluated.released = (held && !next) ↔
      binding.Follows inputState bindingState := by
  dsimp only
  unfold ActionBinding.Follows
  rcases htrigger with ht | ht
  · simp only [evaluateGesture, isHeld, startsThisFrame, nextBindingActive, ht]
    cases binding.combo.activationMode
    · cases isComboDown inputState binding.combo <;>
        cases wasPrimaryPressed inputState binding.combo <;> cases bindingState.active <;> simp
    · cases isComboDown inputState binding.combo <;> cases bindingState.active <;> simp
  · obtain ⟨fires, hactive, hfired, -, hpressed, hreleased⟩ :=
      evaluateGesture_hold ht inputState bindingState matching frameSeconds
    rw [isHeld, isHeld, hactive, hfired, hpressed, hreleased, nextBindingActive, startsThisFrame, ht]
    cases binding.combo.activationMode
    · cases isComboDown inputState binding.combo <;>
        cases wasPrimaryPressed inputState binding.combo <;> cases bindingState.active <;>
        cases bindingState.holdFired <;> simp
    · cases isComboDown inputState binding.combo <;> cases bindingState.active <;>
        cases bindingState.holdFired <;> simp

/-! ## Frames -/

/-- The map has one binding of the button action: `binding`, at `i`. -/
structure ActionMap.BindsOnly (map : ActionMap F) (action i : Nat) (binding : ActionBinding F) :
    Prop where
  wellFormed : map.WellFormed
  kind : map.actionKinds[action]? = some .button
  bound : map.bindings[i]? = some binding
  target : binding.action = action
  only : ∀ j other, map.bindings[j]? = some other → other.action = action → j = i

/-- **One frame**: the action reports what the gesture of its binding answers. -/
theorem FrameRun.advance_spec {run : FrameRun F} {action i : Nat}
    {bindingState : RuntimeBindingState F} (h : run.map.BindsOnly action i binding)
    (hs : run.map.bindingStates[i]? = some bindingState) (frame : Frame F) :
    ∃ (recorded : RuntimeBindingState F) (matching : Bool) (frameSeconds : F),
      recorded.gesture = bindingState.gesture ∧
      let evaluated :=
        evaluateGesture (run.evaluatedInput frame) binding recorded matching frameSeconds
      let next := run.advance action frame
      next.map.BindsOnly action i binding ∧
      next.map.bindingStates[i]? = some evaluated.state ∧
      next.map.isDown action = evaluated.down ∧
      next.reports = run.reports ++ ((if evaluated.pressed then [.pressed] else []) ++
        (if evaluated.released then [.released] else [])) := by
  have hvalid : action < run.map.actionKinds.length := (List.getElem?_eq_some_iff.1 h.kind).1
  obtain ⟨actionState, ha⟩ : ∃ actionState, run.map.actionStates[action]? = some actionState :=
    ⟨_, List.getElem?_eq_getElem (h.wellFormed.actions ▸ hvalid)⟩
  have hcleared : run.map.advanceFrame.actionStates[action]? = some
      { actionState with down := false, pressed := false, released := false, value := .zero } := by
    simp [ActionMap.advanceFrame, ha]
  have hstart : run.map.advanceFrame.BindsOnly action i binding :=
    ⟨ActionMap.apply_wellFormed h.wellFormed .advanceFrame, h.kind, h.bound, h.target, h.only⟩
  obtain ⟨recorded, matching, frameSeconds, hgesture, hbindings, hkinds, hstate, hreports⟩ :=
    ActionMap.evaluate_spec (run.evaluatedInput frame) hstart.bound hstart.target hstart.only hs
      hstart.kind hcleared frame.deltaSeconds
  refine ⟨recorded, matching, frameSeconds, hgesture, ?_⟩
  obtain ⟨after, hafter, hequal⟩ := Option.map_eq_some_iff.1 hreports
  simp only [ActionState.reports, ActionState.report, Bool.false_or, Prod.mk.injEq] at hequal
  obtain ⟨hdown, hpressed, hreleased⟩ := hequal
  have hvalid' : (run.map.advanceFrame.evaluate (run.evaluatedInput frame)
      frame.deltaSeconds).isValidAction action = true := by
    apply decide_eq_true
    rw [hkinds]
    exact hvalid
  refine ⟨⟨?_, hkinds ▸ h.kind, hbindings ▸ h.bound, h.target, ?_⟩, hstate, ?_, ?_⟩
  · exact ActionMap.apply_wellFormed hstart.wellFormed
      (.evaluate (run.evaluatedInput frame) frame.deltaSeconds)
  · intro j other hj
    exact h.only j other (hbindings ▸ hj)
  · show (run.map.advanceFrame.evaluate (run.evaluatedInput frame) frame.deltaSeconds).isDown
      action = _
    simp [ActionMap.isDown, hvalid', hafter, hdown]
  · show run.reports ++ ActionMap.frameReports _ action = _
    simp [ActionMap.frameReports, ActionMap.wasPressed, ActionMap.wasReleased, hvalid', hafter,
      hpressed, hreleased]

/-- The frame presses the primary control of a `PrimaryLast` combo only as its level follows. -/
def Frame.Follows (frame : Frame F) (run : FrameRun F) (i : Nat) (binding : ActionBinding F) :
    Prop :=
  ∀ bindingState, run.map.bindingStates[i]? = some bindingState →
    binding.Follows (run.evaluatedInput frame) bindingState

/-- The reports so far are in turn, and a press is open while the binding holds the action. -/
def FrameRun.Open (run : FrameRun F) (action i : Nat) (binding : ActionBinding F) : Prop :=
  run.map.BindsOnly action i binding ∧
    ∃ bindingState, run.map.bindingStates[i]? = some bindingState ∧
      OpenReports run.reports (isHeld binding.gesture.trigger bindingState)

/-- A frame keeps the reports in turn exactly when it follows, and it is down as promised. -/
theorem FrameRun.advance_open {run : FrameRun F} {action i : Nat} (h : run.Open action i binding)
    (htrigger : binding.gesture.trigger = .down ∨ binding.gesture.trigger = .hold)
    (frame : Frame F) :
    ((run.advance action frame).Open action i binding ↔ frame.Follows run i binding) ∧
      ((run.advance action frame).ReportsKept action ↔
        (run.advance action frame).Open action i binding) := by
  obtain ⟨hbinds, bindingState, hs, hopen⟩ := h
  obtain ⟨recorded, matching, frameSeconds, hgesture, hnext⟩ := advance_spec hbinds hs frame
  obtain ⟨hbinds', hs', hdown, hreports⟩ := hnext
  rw [← isHeld_congr hgesture] at hopen
  have hiff := openReports_append
    (evaluateGesture (run.evaluatedInput frame) binding recorded matching frameSeconds).pressed
    (isHeld binding.gesture.trigger
      (evaluateGesture (run.evaluatedInput frame) binding recorded matching frameSeconds).state)
    hopen (evaluateGesture_released htrigger (run.evaluatedInput frame) recorded matching
      frameSeconds)
  have hedges := evaluateGesture_edges htrigger (run.evaluatedInput frame) recorded matching
    frameSeconds
  dsimp only at hedges
  rw [hedges, ← hreports] at hiff
  have hnextOpen : (run.advance action frame).Open action i binding ↔
      OpenReports (run.advance action frame).reports (isHeld binding.gesture.trigger
        (evaluateGesture (run.evaluatedInput frame) binding recorded matching
          frameSeconds).state) := by
    refine ⟨fun ⟨_, state, hstate, hstateOpen⟩ => ?_, fun h => ⟨hbinds', _, hs', h⟩⟩
    obtain rfl := Option.some.inj (hs'.symm.trans hstate)
    exact hstateOpen
  constructor
  · rw [hnextOpen, hiff]
    constructor
    · intro hfollows state hstate hmode hpress
      obtain rfl := Option.some.inj (hs.symm.trans hstate)
      rw [← isHeld_congr hgesture]
      exact hfollows hmode hpress
    · intro hfollows hmode hpress
      rw [isHeld_congr hgesture]
      exact hfollows bindingState hs hmode hpress
  · rw [hnextOpen, ← evaluateGesture_down htrigger, ← hdown]
    constructor
    · intro hkept
      exact ⟨hkept.alternating, hkept.down.trans hkept.alternating.pressed_ahead⟩
    · rintro ⟨halternating, hheld⟩
      exact ⟨halternating, hheld.trans halternating.pressed_ahead.symm⟩

/-- **Presses and releases alternate**, and the action is down between them, along every run of
frames that starts with the action up, exactly when every frame follows. -/
theorem reportsKept_iff {actionCount action i : Nat} {map : ActionMap F}
    {setup : List (Transition (ActionMap F) (MapOperation F))}
    {bindingState : RuntimeBindingState F} {input : InputState F} {run : FrameRun F}
    {frames : List (Transition (FrameRun F) (Frame F))}
    (hsetup : Trace mapStep (.new actionCount) setup map)
    (hkind : map.actionKinds[action]? = some .button)
    (hbound : map.bindings[i]? = some binding) (htarget : binding.action = action)
    (honly : ∀ j other, map.bindings[j]? = some other → other.action = action → j = i)
    (htrigger : binding.gesture.trigger = .down ∨ binding.gesture.trigger = .hold)
    (hstate : map.bindingStates[i]? = some bindingState)
    (hup : isHeld binding.gesture.trigger bindingState = false)
    (hrun : Trace (frameStep action) ⟨input, map, []⟩ frames run) :
    (∀ x ∈ frames, x.post.ReportsKept action) ↔
      ∀ x ∈ frames, x.action.Follows x.pre i binding := by
  have hwf : map.WellFormed := (hsetup.invariant_of_step (ActionMap.new_wellFormed actionCount)
    fun map operation next hmap hnext => by
      cases hnext
      exact ActionMap.apply_wellFormed hmap operation).1
  have hstart : (⟨input, map, []⟩ : FrameRun F).Open action i binding := by
    refine ⟨⟨hwf, hkind, hbound, htarget, honly⟩, bindingState, hstate, ?_⟩
    rw [hup]
    exact ⟨by simp [Alternating], by simp⟩
  have hfollows := hrun.invariant_iff_guard (I := fun run => run.Open action i binding)
    (G := fun run frame => frame.Follows run i binding) hstart
    (fun run frame next hopen hguard hnext => by
      cases hnext
      exact (FrameRun.advance_open hopen htrigger frame).1.2 hguard)
    (fun run frame next hopen hnext hopen' => by
      cases hnext
      exact (FrameRun.advance_open hopen htrigger frame).1.1 hopen')
  have hkept := hrun.invariant_iff_guard (I := fun run => run.Open action i binding)
    (G := fun run frame => (run.advance action frame).ReportsKept action) hstart
    (fun run frame next hopen hguard hnext => by
      cases hnext
      exact (FrameRun.advance_open hopen htrigger frame).2.1 hguard)
    (fun run frame next hopen hnext hopen' => by
      cases hnext
      exact (FrameRun.advance_open hopen htrigger frame).2.2 hopen')
  rw [← hfollows, hkept]
  refine forall₂_congr fun x hx => ?_
  rw [← Option.some.inj (hrun.mem_step hx)]

/-- A key bound to the button action 0 by one `Down` binding. -/
def keyBinding : ActionBinding Int where
  action := 0
  combo := { primaryControl := { controlCode := 4 } }
  gesture := ⟨.down, 0, 0⟩
  valueMapping := ⟨.scalar, 1, 0⟩
  settings := defaultSettings .button
  hasCustomSettings := false

def keyMap : ActionMap Int := (ActionMap.new 1).addBindingUnchecked keyBinding

/-- One frame for each list of what happens to the key. -/
def keyFrames (edges : List (List Bool)) : List (Frame Int) :=
  edges.map fun isDown => ⟨isDown.map (.setButton { controlCode := 4 }), 1⟩

theorem keyMap_only (j : Nat) (other : ActionBinding Int) (h : keyMap.bindings[j]? = some other) :
    j = 0 := by
  have : j < 1 := (List.getElem?_eq_some_iff.1 h).1
  omega

/-- The key goes down and is let go; in the last frame it goes down, up and down again. -/
def tappedKey : List (Frame Int) := keyFrames [[true], [], [false], [true, false, true]]

theorem reportsKept_tappedKey :
    (Lib.run (frameStep 0) ⟨{}, keyMap, []⟩ tappedKey).map
      (fun r => (r.2.reports, r.2.map.isDown 0)) =
        some ([.pressed, .released, .pressed], true) ∧
    ∀ r, Lib.run (frameStep 0) ⟨{}, keyMap, []⟩ tappedKey = some r →
      ∀ x ∈ r.1, x.post.ReportsKept 0 := by
  refine ⟨by decide +kernel, fun r hr => ?_⟩
  have hbound : keyMap.bindings[0]? = some keyBinding := rfl
  have hstate : keyMap.bindingStates[0]? = some .initial := rfl
  apply (reportsKept_iff (.cons (a := .addBinding keyBinding) rfl (.nil keyMap)) rfl hbound rfl
    (fun j other h _ => keyMap_only j other h) (.inl rfl) hstate rfl (Trace.of_run hr)).2
  have hguard : (Lib.run (frameStep 0) ⟨{}, keyMap, []⟩ tappedKey).all (fun r =>
      r.1.all fun x => (x.pre.map.bindingStates[0]?).all fun bindingState =>
          decide (keyBinding.Follows (x.pre.evaluatedInput x.action) bindingState)) = true := by
    decide +kernel
  simp only [hr, Option.all_some, List.all_eq_true] at hguard
  intro x hx bindingState hstate
  simpa [hstate] using hguard x hx

/-- The key is pressed and let go within a frame: the press is reported, the release never is. -/
theorem reportsKept_tap :
    (Lib.run (frameStep 0) ⟨{}, keyMap, []⟩ (keyFrames [[true, false], [], []])).map
      (fun r => (r.2.reports, r.2.map.isDown 0)) = some ([.pressed], false) ∧
    ¬ ∀ (actionCount action i : Nat) (map : ActionMap Int) (setup) (binding : ActionBinding Int)
        (frames) (run : FrameRun Int), Trace mapStep (.new actionCount) setup map →
      map.actionKinds[action]? = some .button → map.bindings[i]? = some binding →
      binding.action = action →
      (∀ j other, map.bindings[j]? = some other → other.action = action → j = i) →
      binding.gesture.trigger = .down ∨ binding.gesture.trigger = .hold →
      map.bindingStates[i]? = some .initial →
      Trace (frameStep action) ⟨{}, map, []⟩ frames run →
      ∀ x ∈ frames, x.post.ReportsKept action := by
  refine ⟨by decide +kernel, fun h => ?_⟩
  have hrun : (Lib.run (frameStep 0) ⟨{}, keyMap, []⟩ (keyFrames [[true, false], [], []])).any
      (fun r => r.1.any fun x => decide (x.post.map.isDown 0 = false ∧
        x.post.reports.count .released < x.post.reports.count .pressed)) = true := by
    decide +kernel
  obtain ⟨r, hr, hrun⟩ := (Option.any_eq_true _ _).1 hrun
  obtain ⟨x, hx, hlost⟩ := List.any_eq_true.1 hrun
  obtain ⟨hup, hopen⟩ := of_decide_eq_true hlost
  have hkept := h 1 0 0 keyMap _ keyBinding _ _
    (.cons (a := .addBinding keyBinding) rfl (.nil keyMap)) rfl rfl rfl
    (fun j other h _ => keyMap_only j other h) (.inl rfl) rfl (Trace.of_run hr) x hx
  rw [hkept.down.2 hopen] at hup
  cases hup

end Action

import GameWIP.Action.Rebind
import GameWIP.Action.Proof.Bindings

/-!
# What is captured can be applied

`Captured` says what a captured binding is: of the requested action, with a primary control that
was activated, with modifiers the mode allows, and let in by `applyCapturedBinding`. The loop over
the activations of a frame keeps what a session has collected (`Collects`), so every call of a run
answers with such a binding (`collectActivations_answers`, `bindingCapture_captured`).
-/

namespace Action

open Lib (Trace Transition)
open Input (InputState InputControl InputActivation isButtonControl)

variable {F : Type*}

/-! ## Modifiers -/

theorem containsControl_iff {controls : List InputControl} {control : InputControl} :
    containsControl controls control = true ↔ control ∈ controls := decide_eq_true_iff

/-- The modifiers that a mode lets a binding have. -/
def RebindModifierMode.Allows : RebindModifierMode → List InputControl → Prop
  | .none, modifiers => modifiers = []
  | .keyboardModifiersOnly, modifiers => ∀ modifier ∈ modifiers, isKeyboardModifier modifier = true
  | .allHeldButtons, _ => True

theorem shouldCaptureModifier_spec {modifier primaryControl : InputControl}
    {modifierMode : RebindModifierMode} {cancelControls ignoredControls : List InputControl}
    (h : shouldCaptureModifier modifier primaryControl modifierMode cancelControls
      ignoredControls = true) :
    modifierMode ≠ .none ∧ modifier ≠ primaryControl ∧ isButtonControl modifier = true ∧
      modifier ∉ cancelControls ∧ modifier ∉ ignoredControls ∧
      (modifierMode = .keyboardModifiersOnly → isKeyboardModifier modifier = true) := by
  unfold shouldCaptureModifier at h
  split at h
  · cases h
  · rename_i hcaptured
    simp only [Bool.or_eq_true, decide_eq_true_eq, containsControl_iff, Bool.not_eq_true', not_or,
      Bool.not_eq_false] at hcaptured
    obtain ⟨⟨⟨⟨hmode, hprimary⟩, hbutton⟩, hcancel⟩, hignored⟩ := hcaptured
    refine ⟨hmode, hprimary, hbutton, hcancel, hignored, fun hkeyboard => ?_⟩
    rwa [if_pos hkeyboard] at h

theorem mem_addUniqueControl {controls : List InputControl} {control other : InputControl} :
    other ∈ addUniqueControl controls control ↔ other ∈ controls ∨ other = control := by
  unfold addUniqueControl
  split
  · simp
  · rename_i hmem
    have hmem : control ∈ controls := by simpa [containsControl] using hmem
    exact ⟨.inl, fun h => h.elim id fun heq => heq ▸ hmem⟩

theorem addUniqueControl_nodup {controls : List InputControl} (h : controls.Nodup)
    (control : InputControl) : (addUniqueControl controls control).Nodup := by
  unfold addUniqueControl
  split
  · rename_i hmem
    have hmem : control ∉ controls := by simpa [containsControl] using hmem
    exact List.nodup_append.2 ⟨h, List.nodup_singleton _, fun a ha b hb heq =>
      hmem (List.mem_singleton.1 hb ▸ heq ▸ ha)⟩
  · exact h

/-- The captured modifiers are distinct, and each is one that should be captured. -/
theorem captureModifiers_spec (primaryControl : InputControl) (modifierMode : RebindModifierMode)
    (cancelControls ignoredControls modifierCandidates : List InputControl) :
    let modifiers := captureModifiers primaryControl modifierMode cancelControls ignoredControls
      modifierCandidates
    modifiers.Nodup ∧ ∀ modifier ∈ modifiers,
      shouldCaptureModifier modifier primaryControl modifierMode cancelControls ignoredControls =
        true := by
  unfold captureModifiers
  refine List.foldlRecOn (motive := fun modifiers : List InputControl => modifiers.Nodup ∧
    ∀ modifier ∈ modifiers, shouldCaptureModifier modifier primaryControl modifierMode
      cancelControls ignoredControls = true) _ _ ⟨List.nodup_nil, by simp⟩ ?_
  intro modifiers ⟨hnodup, hcaptured⟩ candidate _
  split
  · rename_i hcandidate
    refine ⟨addUniqueControl_nodup hnodup candidate, fun modifier hmem => ?_⟩
    rcases mem_addUniqueControl.1 hmem with hmem | rfl
    · exact hcaptured modifier hmem
    · exact hcandidate
  · exact ⟨hnodup, hcaptured⟩

/-! ## Applying what was validated -/

/-- The loop of `clearBindings` passes the bindings of other actions and erases the rest. -/
theorem eraseBindingsFrom_bindings (action : Nat) (bindings : List (ActionBinding F))
    (bindingStates : List (RuntimeBindingState F)) (bindingIndex : Nat) :
    (eraseBindingsFrom action bindings bindingStates bindingIndex).1 =
      bindings.take bindingIndex ++
        (bindings.drop bindingIndex).filter fun binding => binding.action ≠ action := by
  fun_induction eraseBindingsFrom action bindings bindingStates bindingIndex with
  | case1 bindings bindingStates bindingIndex hlt haction ih =>
    have htake : (bindings.take bindingIndex).length = bindingIndex :=
      List.length_take_of_le (Nat.le_of_lt hlt)
    rw [ih, List.eraseIdx_eq_take_drop_succ, List.take_left' htake, List.drop_left' htake,
      List.drop_eq_getElem_cons hlt, List.filter_cons_of_neg (by simpa using haction)]
  | case2 bindings bindingStates bindingIndex hlt haction ih =>
    rw [ih, List.drop_eq_getElem_cons hlt, List.filter_cons_of_pos (by simpa using haction),
      List.take_succ_eq_append_getElem hlt, List.append_assoc]
    rfl
  | case3 bindings bindingStates bindingIndex hge =>
    rw [List.take_of_length_le (Nat.le_of_not_lt hge), List.drop_of_length_le (Nat.le_of_not_lt hge)]
    simp

section
variable [FloatOps F]

/-- Compared with the bindings of other actions only, a binding has no duplicate. -/
theorem compareBindings_ne_duplicate {binding : ActionBinding F} {result : ActionResult}
    {bindings : List (ActionBinding F)} (h : result ≠ .duplicateBinding) :
    compareBindings binding true result bindings ≠ .duplicateBinding := by
  induction bindings generalizing result with
  | nil => exact h
  | cons existingBinding bindings ih =>
    rw [compareBindings]
    by_cases haction : existingBinding.action = binding.action
    · rw [if_pos (by simpa using haction)]
      exact ih h
    · have hdifferent : areSameBinding existingBinding binding = false := by
        simp [areSameBinding, haction]
      rw [if_neg (by simpa using haction), if_neg (by simp [hdifferent])]
      exact ih (by split <;> simp [h])

variable [FloatFinite F]

theorem ActionMap.validateBinding_ne_duplicate {map : ActionMap F} {binding : ActionBinding F} :
    map.validateBinding binding true ≠ .duplicateBinding := by
  unfold ActionMap.validateBinding
  split
  · decide
  · split_ifs
    all_goals first | exact compareBindings_ne_duplicate (by decide) | decide

/-- A capture that replaces the bindings of its action can be applied to the map it was validated
against, and is then the only one. -/
theorem ActionMap.applyCapturedBinding_replaces (map : ActionMap F)
    (capture : ActionRebindCapture F) (hcaptured : capture.result = .captured)
    (hreplace : capture.replaceExistingBindings = true)
    (hvalid : (map.validateBinding capture.binding true).Accepted) :
    (map.applyCapturedBinding capture).1.Accepted ∧
      (map.applyCapturedBinding capture).2.bindings.filter
        (fun binding => binding.action = capture.binding.action) = [capture.binding] := by
  have haction := (validateBinding_accepted hvalid).1
  have hresult : (map.applyCapturedBinding capture).1 = map.validateBinding capture.binding true := by
    unfold ActionMap.applyCapturedBinding
    rw [if_neg (not_not_intro hcaptured), hreplace]
    dsimp only
    split <;> rfl
  have happlied : (map.applyCapturedBinding capture).1.Accepted := hresult ▸ hvalid
  refine ⟨happlied, ?_⟩
  rw [(applyCapturedBinding_accepted happlied).2, if_pos hreplace, ActionMap.clearBindingsInPlace,
    haction]
  simp [ActionMap.addBindingUnchecked, eraseBindingsFrom_bindings, List.filter_append]

end

/-! ## What a capture is -/

section
variable [FloatOps F] [FloatFinite F]

/-- A captured binding, given the activations there were. -/
structure Captured (map : ActionMap F) (action : Nat) (options : ActionRebindOptions F)
    (cancelControls ignoredControls : List InputControl)
    (activated : InputActivation F → Prop) (capture : ActionRebindOutput F) : Prop where
  result : capture.result = .captured
  target : capture.action = action ∧ capture.binding.action = action
  activation : activated capture.activation ∧
    capture.activation.control = capture.binding.combo.primaryControl ∧
    isAllowedCaptureActivation capture.activation options = true
  primary : capture.binding.combo.primaryControl ∉ cancelControls ∧
    capture.binding.combo.primaryControl ∉ ignoredControls
  modifiers : ∀ modifier ∈ capture.binding.combo.modifiers,
    modifier ∉ cancelControls ∧ modifier ∉ ignoredControls
  distinct : capture.binding.combo.DistinctModifiers
  mode : options.modifierMode.Allows capture.binding.combo.modifiers
  applies : options.replaceExistingBindings = true →
    let applied := map.applyCapturedBinding capture.toActionRebindCapture
    applied.1.Accepted ∧
      applied.2.bindings.filter (fun binding => binding.action = action) = [capture.binding]

/-- What a session may take as the primary control. -/
structure Usable (options : ActionRebindOptions F) (cancelControls ignoredControls : List InputControl)
    (activated : InputActivation F → Prop) (activation : InputActivation F) : Prop where
  activated : activated activation
  allowed : isAllowedCaptureActivation activation options = true
  notCancel : activation.control ∉ cancelControls
  notIgnored : activation.control ∉ ignoredControls

variable {map : ActionMap F} {action : Nat} {options : ActionRebindOptions F}
  {cancelControls ignoredControls : List InputControl} {activated : InputActivation F → Prop}

/-- A capture holds the binding it proposed, which was not rejected. -/
theorem buildRebindCapture_cases (map : ActionMap F) (action : Nat)
    (activation : InputActivation F) (primaryControl : InputControl)
    (candidates : List InputControl) (options : ActionRebindOptions F)
    (cancelControls ignoredControls : List InputControl) :
    let capture := map.buildRebindCapture action activation primaryControl candidates options
      cancelControls ignoredControls
    let binding := captureCandidate action activation primaryControl candidates options
      cancelControls ignoredControls
    capture.result ≠ .collecting ∧ (capture.result = .captured →
      capture =
        { binding, action, activation, result := .captured
          replaceExistingBindings := options.replaceExistingBindings } ∧
      ((map.validateBinding binding options.replaceExistingBindings).Accepted ∨
        map.validateBinding binding options.replaceExistingBindings = .duplicateBinding)) := by
  unfold ActionMap.buildRebindCapture
  dsimp only
  split
  · simp
  split
  · simp
  split
  all_goals rename_i hresult
  all_goals simp [hresult, ActionResult.Accepted]

/-- **What is built of a usable activation** is a captured binding or no capture. -/
theorem buildRebindCapture_spec {activation : InputActivation F}
    (h : Usable options cancelControls ignoredControls activated activation)
    (candidates : List InputControl) :
    let capture := map.buildRebindCapture action activation activation.control candidates options
      cancelControls ignoredControls
    capture.result ≠ .collecting ∧
      (capture.result = .captured →
        Captured map action options cancelControls ignoredControls activated capture) := by
  obtain ⟨hresult, hcases⟩ := buildRebindCapture_cases map action activation activation.control
    candidates options cancelControls ignoredControls
  refine ⟨hresult, fun hcaptured => ?_⟩
  obtain ⟨hcapture, hvalid⟩ := hcases hcaptured
  obtain ⟨hnodup, hmodifiers⟩ := captureModifiers_spec activation.control options.modifierMode
    cancelControls ignoredControls candidates
  have hspec := fun modifier hmem => shouldCaptureModifier_spec (hmodifiers modifier hmem)
  rw [hcapture]
  refine
    { result := rfl
      target := ⟨rfl, rfl⟩
      activation := ⟨h.activated, rfl, h.allowed⟩
      primary := ⟨h.notCancel, h.notIgnored⟩
      modifiers := fun modifier hmem => ⟨(hspec modifier hmem).2.2.2.1, (hspec modifier hmem).2.2.2.2.1⟩
      distinct :=
        { nodup := hnodup
          primary := fun hmem => (hspec _ hmem).2.1 rfl
          buttons := fun modifier hmem => (hspec modifier hmem).2.2.1 }
      mode := ?_
      applies := fun hreplace => ?_ }
  · cases hmode : options.modifierMode with
    | none => exact List.eq_nil_iff_forall_not_mem.2 fun modifier hmem => (hspec modifier hmem).1 hmode
    | keyboardModifiersOnly => exact fun modifier hmem => (hspec modifier hmem).2.2.2.2.2 hmode
    | allHeldButtons => trivial
  · rw [hreplace] at hvalid
    have haccepted := hvalid.resolve_right ActionMap.validateBinding_ne_duplicate
    exact map.applyCapturedBinding_replaces (ActionRebindCapture.mk _ _ _) rfl hreplace haccepted

/-! ## Sessions -/

/-- What a session has collected: its primary control was taken from a usable activation. -/
structure Collects (action : Nat) (options : ActionRebindOptions F)
    (cancelControls ignoredControls : List InputControl) (activated : InputActivation F → Prop)
    (session : ActionRebindSession F) : Prop where
  target : session.action = action
  settings : session.options = options
  primary : session.hasPrimaryControl = true →
    Usable options cancelControls ignoredControls activated session.activation ∧
      session.activation.control = session.primaryControl

/-- What a call answers: the session goes on exactly when it is still collecting, and what is
captured is a captured binding. -/
structure Answers (map : ActionMap F) (action : Nat) (options : ActionRebindOptions F)
    (cancelControls ignoredControls : List InputControl) (activated : InputActivation F → Prop)
    (call : ActionMap.CaptureCall F) : Prop where
  collects : Collects action options cancelControls ignoredControls activated call.session
  active : call.session.active = true ↔ call.result = .collecting
  captured : call.result = .captured →
    Captured map action options cancelControls ignoredControls activated call.capture

omit [FloatFinite F] in
theorem Collects.mono {activated' : InputActivation F → Prop} {session : ActionRebindSession F}
    (h : Collects action options cancelControls ignoredControls activated session)
    (hmore : ∀ activation, activated activation → activated' activation) :
    Collects action options cancelControls ignoredControls activated' session where
  target := h.target
  settings := h.settings
  primary hprimary :=
    ⟨{ (h.primary hprimary).1 with activated := hmore _ (h.primary hprimary).1.activated },
      (h.primary hprimary).2⟩

variable {session : ActionRebindSession F}

theorem stop_answers {result : RebindResult}
    (h : Collects action options cancelControls ignoredControls activated session)
    (hcollecting : result ≠ .collecting) (hcaptured : result ≠ .captured) :
    Answers map action options cancelControls ignoredControls activated
      (.stop result session) where
  collects := ⟨h.target, h.settings, h.primary⟩
  active := by simp [ActionMap.CaptureCall.stop, hcollecting]
  captured heq := absurd heq hcaptured

theorem finish_answers (h : Collects action options cancelControls ignoredControls activated session)
    {activation : InputActivation F}
    (husable : Usable options cancelControls ignoredControls activated activation)
    (candidates : List InputControl) :
    Answers map action options cancelControls ignoredControls activated
      (.finish session (map.buildRebindCapture session.action activation activation.control
        candidates session.options cancelControls ignoredControls)) := by
  rw [h.target, h.settings]
  exact
    { collects := ⟨h.target, h.settings, h.primary⟩
      active := decide_eq_true_iff
      captured := (buildRebindCapture_spec husable candidates).2 }

/-- **The loop over a frame** answers with what its activations and the session say. -/
theorem collectActivations_answers (inputState : InputState F)
    {activations : List (InputActivation F)}
    (h : Collects action options cancelControls ignoredControls activated session)
    (hactive : session.active = true) (hactivated : ∀ a ∈ activations, activated a) :
    Answers map action options cancelControls ignoredControls activated
      (map.collectActivations inputState cancelControls ignoredControls session activations) := by
  induction activations generalizing session with
  | nil =>
    exact
      { collects := h
        active := iff_of_true hactive rfl
        captured := nofun }
  | cons activation activations ih =>
    have hlater := fun a ha => hactivated a (List.mem_cons_of_mem _ ha)
    rw [ActionMap.collectActivations]
    dsimp only
    split
    · exact stop_answers h (by decide) (by decide)
    rename_i hcancel
    split
    · exact ih h hactive hlater
    rename_i hignored
    rw [containsControl_iff] at hcancel hignored
    have husable : isAllowedCaptureActivation activation session.options = true →
        Usable options cancelControls ignoredControls activated activation := fun hallowed =>
      ⟨hactivated activation List.mem_cons_self, h.settings ▸ hallowed, hcancel, hignored⟩
    split
    · -- completion on activation
      split
      · exact ih h hactive hlater
      · rename_i hallowed
        exact finish_answers h (husable (by simpa using hallowed)) _
    split
    · rename_i hallowed
      split
      · exact stop_answers h (by decide) (by decide)
      split
      · exact ih ⟨h.target, h.settings, fun _ => ⟨husable hallowed, rfl⟩⟩ hactive hlater
      · exact finish_answers h (husable hallowed) _
    split
    · -- a collected control was released
      rename_i hreleased
      rw [Bool.and_eq_true, Bool.and_eq_true] at hreleased
      obtain ⟨hprimary, hcontrol⟩ := h.primary hreleased.1.2
      rw [← hcontrol]
      exact finish_answers h hprimary _
    · exact ih h hactive hlater

theorem updateBindingCapture_answers {inputState : InputState F}
    (h : Collects action options cancelControls ignoredControls activated session)
    (hactivated : ∀ a ∈ inputState.activations, activated a) :
    Answers map action options cancelControls ignoredControls activated
      (map.updateBindingCapture inputState session cancelControls ignoredControls) := by
  unfold ActionMap.updateBindingCapture
  split
  · rename_i hinactive
    exact
      { collects := h
        active := iff_of_false (by simpa using hinactive) nofun
        captured := nofun }
  rename_i hactive
  split
  · exact stop_answers h (by decide) (by decide)
  · exact collectActivations_answers inputState h (by simpa using hactive) hactivated

theorem beginBindingCapture_answers :
    Answers map action options cancelControls ignoredControls activated
      (map.beginBindingCapture action options) := by
  unfold ActionMap.beginBindingCapture
  dsimp only
  split
  · exact ⟨⟨rfl, rfl, nofun⟩, by simp, nofun⟩
  · exact ⟨⟨rfl, rfl, nofun⟩, by simp, nofun⟩

/-! ## Single captures -/

theorem captureLatest_spec (inputState : InputState F) {best : Option (InputActivation F)}
    {movement : F} {activations : List (InputActivation F)}
    (hbest : ∀ a ∈ best, Usable options cancelControls ignoredControls activated a)
    (hactivated : ∀ a ∈ activations, activated a) :
    let capture := map.captureLatest action inputState options cancelControls ignoredControls best
      movement activations
    capture.result = .captured →
      Captured map action options cancelControls ignoredControls activated capture := by
  induction activations generalizing best movement with
  | nil =>
    cases best with
    | none => nofun
    | some a => exact (buildRebindCapture_spec (hbest a rfl) _).2
  | cons activation earlier ih =>
    have hearlier := fun a ha => hactivated a (List.mem_cons_of_mem _ ha)
    rw [ActionMap.captureLatest]
    dsimp only
    split
    · nofun
    rename_i hcancel
    split
    · exact ih hbest hearlier
    rename_i hskipped
    simp only [Bool.or_eq_true, not_or, containsControl_iff, Bool.not_eq_true',
      Bool.not_eq_false] at hcancel hskipped
    have husable : Usable options cancelControls ignoredControls activated activation :=
      ⟨hactivated activation List.mem_cons_self, hskipped.2, hcancel, hskipped.1⟩
    split
    · split
      · exact ih (fun a ha => Option.mem_some_iff.1 ha ▸ husable) hearlier
      · exact ih hbest hearlier
    · exact (buildRebindCapture_spec husable _).2

/-- **What is captured can be applied.** In every run of a capture the session is active exactly
while the calls answer that they are collecting, and a binding captured by a call, or by a single
capture, is of the requested action, has a primary control that was activated, has only modifiers
that the mode allows, and replaces the bindings of its action when it is applied. -/
theorem bindingCapture_captured (map : ActionMap F) (action : Nat) (options : ActionRebindOptions F)
    (cancelControls ignoredControls : List InputControl) :
    (∀ tr call, Trace (map.captureStep cancelControls ignoredControls)
        (map.beginBindingCapture action options) tr call →
      (call.session.active = true ↔ call.result = .collecting) ∧
      (call.result = .captured →
        Captured map action options cancelControls ignoredControls
          (fun activation => ∃ frame ∈ tr, activation ∈ frame.action.activations) call.capture)) ∧
    ∀ inputState : InputState F,
      let capture := map.captureBinding action inputState options cancelControls ignoredControls
      capture.result = .captured →
        Captured map action options cancelControls ignoredControls
          (· ∈ inputState.activations) capture := by
  constructor
  · intro tr call htrace
    have hanswers : Answers map action options cancelControls ignoredControls
        (fun activation => ∃ frame ∈ tr, activation ∈ frame.action.activations) call := by
      refine htrace.history (P := fun tr call => Answers map action options cancelControls
        ignoredControls (fun activation => ∃ frame ∈ tr, activation ∈ frame.action.activations) call)
        beginBindingCapture_answers fun tr frame _ hstep hbefore => ?_
      rw [← Option.some.inj hstep]
      refine updateBindingCapture_answers (hbefore.collects.mono ?_) fun activation hmem =>
        ⟨frame, by simp, hmem⟩
      rintro activation ⟨earlier, hmem, hactivated⟩
      exact ⟨earlier, List.mem_append_left _ hmem, hactivated⟩
    exact ⟨hanswers.active, hanswers.captured⟩
  · intro inputState
    unfold ActionMap.captureBinding
    split
    · nofun
    · exact captureLatest_spec inputState nofun fun activation hmem => List.mem_reverse.1 hmem

/-- Control and K are pressed in one frame; K is released in the next one. -/
def chordFrames : List (InputState Int) :=
  let control : InputControl := { controlCode := 0xE0 }
  let key : InputControl := { controlCode := 0x0E }
  [{ currentButtons := [key, control]
     activations := [⟨control, .buttonPressed, 1, 0⟩, ⟨key, .buttonPressed, 1, 0⟩] },
   { currentButtons := [control]
     activations := [⟨key, .buttonReleased, 0, 1⟩] }]

def chordOptions : ActionRebindOptions Int where
  trigger := .pressed
  component := .scalar
  scale := 1
  threshold := 0
  holdSeconds := 0
  doubleTapSeconds := 0
  activationMode := .primaryLast
  modifierMode := .keyboardModifiersOnly
  completionMode := .onRelease
  axisCaptureMode := .fullAxis
  deviceFilter := {}
  hasDeviceFilter := false
  axisActivationThreshold := 1
  axisNoiseThreshold := 1
  settings := defaultSettings .button
  hasCustomSettings := false
  replaceExistingBindings := true

theorem bindingCapture_captured_chord :
    ∃ tr call, Trace ((ActionMap.new 1).captureStep [] []) ((ActionMap.new 1).beginBindingCapture 0
        chordOptions) tr call ∧
      call.result = .captured ∧ Captured (ActionMap.new 1) 0 chordOptions [] []
        (fun activation => ∃ frame ∈ tr, activation ∈ frame.action.activations) call.capture ∧
      call.capture.binding.combo.modifiers = [{ controlCode := 0xE0 }] := by
  have hrun : ((Lib.run ((ActionMap.new 1).captureStep [] [])
      ((ActionMap.new 1).beginBindingCapture 0 chordOptions) chordFrames).map fun run =>
        (run.2.result, run.2.capture.binding.combo.modifiers)) =
      some (.captured, [{ controlCode := 0xE0 }]) := by decide +kernel
  obtain ⟨⟨tr, call⟩, hsome, hvalues⟩ := Option.map_eq_some_iff.1 hrun
  obtain ⟨hresult, hmodifiers⟩ := Prod.mk.inj hvalues
  have htrace := Trace.of_run hsome
  exact ⟨tr, call, htrace, hresult, ((bindingCapture_captured (ActionMap.new 1) 0 chordOptions [] []).1
    tr call htrace).2 hresult, hmodifiers⟩

end

end Action

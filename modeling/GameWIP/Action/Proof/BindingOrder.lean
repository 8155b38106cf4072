import GameWIP.Action.Proof.BindingLoop

/-!
# The order of the bindings

The reports of a button action are those of its bindings together, so the order in which the
bindings were added matters only through `hasMatchingHoldFired`, which sees the `Hold` bindings in
front of a `Tap` as this frame leaves them and the others as the last frame did. The two views
differ exactly when a `Hold` that has fired stops and starts again in one frame (`Frame.Separates`).
Without such a frame every order gives the same reports (`reports_orderIndependent`).
-/

namespace Action

open Lib (Trace Transition)
open Input (InputState InputControl)

variable {F : Type*} [FloatOps F] {inputState : InputState F} {frameSeconds : F}

/-! ## Combos with the same modifiers -/

section

variable {combo combo' : ActionCombo}

omit [FloatOps F] in
theorem areModifiersDown_eq (hnodup : combo.modifiers.Nodup)
    (hsame : areSameCombo combo combo' = true) (inputState : InputState F) :
    areModifiersDown inputState combo = areModifiersDown inputState combo' := by
  simp only [areSameCombo, Bool.and_eq_true] at hsame
  exact ((haveSameModifierSet_iff hnodup).1 hsame.2).all_eq

omit [FloatOps F] in
theorem startsThisFrame_eq (hnodup : combo.modifiers.Nodup)
    (hsame : areSameCombo combo combo' = true) (inputState : InputState F) (active : Bool) :
    startsThisFrame inputState combo active = startsThisFrame inputState combo' active := by
  have hmodifiers := areModifiersDown_eq hnodup hsame inputState
  simp only [areSameCombo, Bool.and_eq_true, decide_eq_true_eq] at hsame
  rw [startsThisFrame, startsThisFrame, isComboDown, isComboDown, wasPrimaryPressed,
    wasPrimaryPressed, hmodifiers, hsame.1.1, hsame.1.2]

omit [FloatOps F] in
theorem nextBindingActive_eq (hnodup : combo.modifiers.Nodup)
    (hsame : areSameCombo combo combo' = true) (inputState : InputState F) (active : Bool) :
    nextBindingActive inputState combo active = nextBindingActive inputState combo' active := by
  have hmodifiers := areModifiersDown_eq hnodup hsame inputState
  have hstarts := startsThisFrame_eq hnodup hsame inputState active
  simp only [areSameCombo, Bool.and_eq_true, decide_eq_true_eq] at hsame
  rw [nextBindingActive, nextBindingActive, isComboDown, isComboDown, hmodifiers, hstarts,
    hsame.1.1, hsame.1.2]

end

/-- Every gesture leaves the activity of its combo behind, and `Value` its own. -/
theorem nextState_active {binding : ActionBinding F} (htrigger : binding.gesture.trigger ≠ .value)
    (bindingState : RuntimeBindingState F) :
    (nextState inputState frameSeconds binding bindingState).active =
      nextBindingActive inputState binding.combo bindingState.active := by
  unfold nextState evaluateGesture
  cases h : binding.gesture.trigger with
  | value => exact absurd h htrigger
  | hold => dsimp only; split <;> rfl
  | doubleTap => dsimp only; split <;> rfl
  | pressed | released | down | tap => rfl

/-- A `Hold` that stops keeps its flag, unless it starts in the same frame. -/
theorem nextState_holdFired {binding : ActionBinding F} (htrigger : binding.gesture.trigger = .hold)
    {bindingState : RuntimeBindingState F}
    (hstops : stopsThisFrame inputState binding.combo bindingState.active = true) :
    (nextState inputState frameSeconds binding bindingState).holdFired =
      (!startsThisFrame inputState binding.combo bindingState.active && bindingState.holdFired) := by
  obtain ⟨fires, -, hfired, -⟩ :=
    evaluateGesture_hold htrigger inputState bindingState false frameSeconds
  simp only [stopsThisFrame, Bool.and_eq_true, Bool.not_eq_true'] at hstops
  rw [nextState, hfired, hstops.2]
  simp

/-! ## Entries -/

/-- The bindings with their runtime states. -/
def ActionMap.pairs (map : ActionMap F) : List (ActionBinding F × RuntimeBindingState F) :=
  map.bindings.zip map.bindingStates

omit [FloatOps F] in
theorem ActionMap.mem_pairs {map : ActionMap F}
    {pair : ActionBinding F × RuntimeBindingState F} :
    pair ∈ map.pairs ↔
      ∃ i : Nat, map.bindings[i]? = some pair.1 ∧ map.bindingStates[i]? = some pair.2 := by
  simp only [pairs, List.mem_iff_getElem?, List.getElem?_zip_eq_some]

/-- Some `Hold` on the combo has fired. -/
def anyFired (pairs : List (ActionBinding F × RuntimeBindingState F)) (combo : ActionCombo) :
    Bool :=
  pairs.any fun pair => pair.1.gesture.trigger = .hold && areSameCombo pair.1.combo combo &&
    pair.2.holdFired

omit [FloatOps F] in
theorem anyFired_iff {pairs : List (ActionBinding F × RuntimeBindingState F)}
    {combo : ActionCombo} :
    anyFired pairs combo = true ↔ ∃ pair ∈ pairs, ActionMap.FiredHold combo pair.1 pair.2 := by
  simp [anyFired, ActionMap.FiredHold, and_assoc]

/-- What one binding answers in a frame. -/
def pairEvaluated (inputState : InputState F) (frameSeconds : F)
    (pairs : List (ActionBinding F × RuntimeBindingState F))
    (pair : ActionBinding F × RuntimeBindingState F) : EvaluatedBinding F :=
  evaluateGesture inputState pair.1 pair.2 (anyFired pairs pair.1.combo) frameSeconds

/-- Some binding of the action makes the report. -/
def pairsReport (inputState : InputState F) (frameSeconds : F)
    (pairs : List (ActionBinding F × RuntimeBindingState F)) (action : Nat)
    (report : EvaluatedBinding F → Bool) : Bool :=
  pairs.any fun pair =>
    pair.1.action = action && report (pairEvaluated inputState frameSeconds pairs pair)

/-- No `Hold` that has fired, with a `Tap` on its combo, stops and starts again in the frame. -/
def Separates (inputState : InputState F)
    (pairs : List (ActionBinding F × RuntimeBindingState F)) : Prop :=
  ∀ pair ∈ pairs, ∀ tap ∈ pairs, tap.1.gesture.trigger = .tap →
    ActionMap.FiredHold tap.1.combo pair.1 pair.2 →
      stopsThisFrame inputState pair.1.combo pair.2.active = true →
        startsThisFrame inputState pair.1.combo pair.2.active = false

instance (combo : ActionCombo) (binding : ActionBinding F) (bindingState : RuntimeBindingState F) :
    Decidable (ActionMap.FiredHold combo binding bindingState) :=
  inferInstanceAs (Decidable (_ ∧ _ ∧ _))

instance (inputState : InputState F) (pairs : List (ActionBinding F × RuntimeBindingState F)) :
    Decidable (Separates inputState pairs) :=
  inferInstanceAs (Decidable (∀ pair ∈ pairs, ∀ tap ∈ pairs, _ → _ → _ → _))

/-- The map binds button actions only, with distinct modifiers, and bindings on one combo are
active together. -/
structure ActionMap.ButtonsOnly (map : ActionMap F) : Prop where
  wellFormed : map.WellFormed
  kinds : ∀ binding ∈ map.bindings, map.actionKinds[binding.action]? = some .button
  triggers : ∀ binding ∈ map.bindings, binding.gesture.trigger ≠ .value
  modifiers : ∀ binding ∈ map.bindings, binding.combo.modifiers.Nodup
  together : ∀ pair ∈ map.pairs, ∀ pair' ∈ map.pairs,
    areSameCombo pair.1.combo pair'.1.combo = true → pair.2.active = pair'.2.active

namespace ActionMap.ButtonsOnly

variable {map : ActionMap F}

omit [FloatOps F] in
theorem valid (h : map.ButtonsOnly) {i : Nat} {binding : ActionBinding F}
    (hb : map.bindings[i]? = some binding) : map.isValidAction binding.action = true :=
  decide_eq_true (List.getElem?_eq_some_iff.1 (h.kinds _ (List.mem_of_getElem? hb))).1

/-- The bindings in front of a `Tap` keep the flags it asks for. -/
theorem firedAt_eq (h : map.ButtonsOnly) (hseparates : Separates inputState map.pairs) {i : Nat}
    {tap : ActionBinding F} {tapState : RuntimeBindingState F}
    (hb : map.bindings[i]? = some tap) (hs : map.bindingStates[i]? = some tapState)
    (htrigger : tap.gesture.trigger = .tap)
    (hstops : stopsThisFrame inputState tap.combo tapState.active = true) :
    map.firedAt inputState frameSeconds i = anyFired map.pairs tap.combo := by
  have htap : (tap, tapState) ∈ map.pairs := ActionMap.mem_pairs.2 ⟨i, hb, hs⟩
  have hkeeps : ∀ {j : Nat} {hold holdState}, map.bindings[j]? = some hold →
      map.bindingStates[j]? = some holdState → hold.gesture.trigger = .hold →
      areSameCombo hold.combo tap.combo = true →
        (map.stepState inputState frameSeconds hold holdState).holdFired =
          holdState.holdFired := by
    intro j hold holdState hhold hholdState htriggerHold hcombo
    have hmem : (hold, holdState) ∈ map.pairs := ActionMap.mem_pairs.2 ⟨j, hhold, hholdState⟩
    have hactive := h.together _ hmem _ htap hcombo
    have hnodup := h.modifiers _ (List.mem_of_getElem? hhold)
    have hstopsHold : stopsThisFrame inputState hold.combo holdState.active = true := by
      rw [stopsThisFrame, nextBindingActive_eq hnodup hcombo, hactive]
      exact hstops
    rw [stepState, if_pos (h.valid hhold), nextState_holdFired htriggerHold hstopsHold]
    cases hfired : holdState.holdFired with
    | false => exact Bool.and_false _
    | true =>
      rw [hseparates _ hmem _ htap htrigger ⟨htriggerHold, hcombo, hfired⟩ hstopsHold]
      rfl
  rw [Bool.eq_iff_iff, firedAt_iff h.wellFormed hb, anyFired_iff]
  constructor
  · rintro ⟨j, hold, holdState, -, hhold, hholdState, htriggerHold, hcombo, hfired⟩
    refine ⟨(hold, holdState), ActionMap.mem_pairs.2 ⟨j, hhold, hholdState⟩, htriggerHold, hcombo,
      ?_⟩
    split_ifs at hfired with hlt
    · exact hkeeps hhold hholdState htriggerHold hcombo ▸ hfired
    · exact hfired
  · rintro ⟨⟨hold, holdState⟩, hmem, htriggerHold, hcombo, hfired⟩
    obtain ⟨j, hhold, hholdState⟩ := ActionMap.mem_pairs.1 hmem
    refine ⟨j, hold, holdState, ?_, hhold, hholdState, htriggerHold, hcombo, ?_⟩
    · intro hji
      subst hji
      obtain rfl := Option.some.inj (hb.symm.trans hhold)
      rw [htrigger] at htriggerHold
      cases htriggerHold
    · split_ifs
      · exact (hkeeps hhold hholdState htriggerHold hcombo).trans hfired
      · exact hfired

/-- What the round of a binding answers does not depend on its place. -/
theorem evaluatedAt_eq (h : map.ButtonsOnly) (hseparates : Separates inputState map.pairs)
    {i : Nat} {binding : ActionBinding F} {bindingState : RuntimeBindingState F}
    (hb : map.bindings[i]? = some binding) (hs : map.bindingStates[i]? = some bindingState) :
    map.evaluatedAt inputState frameSeconds i =
      some (binding, pairEvaluated inputState frameSeconds map.pairs (binding, bindingState)) := by
  rw [ActionMap.evaluatedAt_eq hb hs, if_pos (h.valid hb), pairEvaluated]
  congr 2
  exact evaluateGesture_congr fun htrigger hstops => h.firedAt_eq hseparates hb hs htrigger hstops

theorem someReports_eq (h : map.ButtonsOnly) (hseparates : Separates inputState map.pairs)
    (action : Nat) (report : EvaluatedBinding F → Bool) :
    map.someReports inputState frameSeconds action (List.range map.bindings.length) report =
      pairsReport inputState frameSeconds map.pairs action report := by
  rw [Bool.eq_iff_iff, someReports, pairsReport, List.any_eq_true, List.any_eq_true]
  constructor
  · rintro ⟨i, hi, hreport⟩
    obtain ⟨binding, hb⟩ : ∃ binding, map.bindings[i]? = some binding :=
      ⟨_, List.getElem?_eq_getElem (List.mem_range.1 hi)⟩
    obtain ⟨bindingState, hs⟩ := h.wellFormed.exists_state hb
    rw [h.evaluatedAt_eq hseparates hb hs] at hreport
    exact ⟨(binding, bindingState), ActionMap.mem_pairs.2 ⟨i, hb, hs⟩, hreport⟩
  · rintro ⟨⟨binding, bindingState⟩, hmem, hreport⟩
    obtain ⟨i, hb, hs⟩ := ActionMap.mem_pairs.1 hmem
    refine ⟨i, List.mem_range.2 (List.getElem?_eq_some_iff.1 hb).1, ?_⟩
    rw [h.evaluatedAt_eq hseparates hb hs]
    exact hreport

/-! ## A frame -/

omit [FloatOps F] in
/-- Another map with these bindings. -/
theorem of_pairs (h : map.ButtonsOnly) {map' : ActionMap F} (hw : map'.WellFormed)
    (hkinds : map'.actionKinds = map.actionKinds) (hbindings : map'.bindings = map.bindings)
    (htogether : ∀ pair ∈ map'.pairs, ∀ pair' ∈ map'.pairs,
      areSameCombo pair.1.combo pair'.1.combo = true → pair.2.active = pair'.2.active) :
    map'.ButtonsOnly where
  wellFormed := hw
  kinds binding hmem := hkinds ▸ h.kinds binding (hbindings ▸ hmem)
  triggers binding hmem := h.triggers binding (hbindings ▸ hmem)
  modifiers binding hmem := h.modifiers binding (hbindings ▸ hmem)
  together := htogether

/-- The change order of the values is no matter of these bindings. -/
theorem recordChanges_pairs (h : map.ButtonsOnly) (inputState : InputState F) :
    (map.recordChanges inputState).pairs = map.pairs := by
  have hsame := recordChanges_same map inputState
  have hstates : (map.recordChanges inputState).bindingStates = map.bindingStates := by
    apply List.ext_getElem?
    intro i
    cases hb : map.bindings[i]? with
    | some binding =>
      exact recordChanges_state hb (h.triggers _ (List.mem_of_getElem? hb)) inputState
    | none =>
      rw [List.getElem?_eq_none_iff] at hb
      rw [List.getElem?_eq_none, List.getElem?_eq_none]
      · exact h.wellFormed.states ▸ hb
      · rw [(hsame.wellFormed h.wellFormed).states, hsame.bindings]
        exact hb
  rw [pairs, pairs, hsame.bindings, hstates]

theorem recordChanges (h : map.ButtonsOnly) (inputState : InputState F) :
    (map.recordChanges inputState).ButtonsOnly := by
  have hsame := recordChanges_same map inputState
  refine h.of_pairs (hsame.wellFormed h.wellFormed) hsame.kinds hsame.bindings ?_
  rw [h.recordChanges_pairs]
  exact h.together

theorem advanceFrame (h : map.ButtonsOnly) : map.advanceFrame.ButtonsOnly :=
  h.of_pairs (ActionMap.apply_wellFormed h.wellFormed .advanceFrame) rfl rfl h.together

/-- **A frame** steps each binding on its own. -/
theorem evaluate_pairs (h : map.ButtonsOnly) (inputState : InputState F) (deltaSeconds : F) :
    (map.evaluate inputState deltaSeconds).pairs = map.pairs.map fun pair =>
      (pair.1, nextState inputState (frameSecondsOf deltaSeconds) pair.1 pair.2) := by
  apply List.ext_getElem?
  intro i
  have hsame := map.evaluate_bindings inputState deltaSeconds
  rw [List.getElem?_map]
  cases hb : map.bindings[i]? with
  | some binding =>
    obtain ⟨bindingState, hs⟩ := h.wellFormed.exists_state hb
    have hpair : map.pairs[i]? = some (binding, bindingState) :=
      List.getElem?_zip_eq_some.2 ⟨hb, hs⟩
    have hnext := evaluate_states h.wellFormed hb (h.triggers _ (List.mem_of_getElem? hb)) hs
      inputState deltaSeconds
    rw [stepState, if_pos (h.valid hb)] at hnext
    rw [hpair]
    exact List.getElem?_zip_eq_some.2 ⟨hsame ▸ hb, hnext⟩
  | none =>
    rw [List.getElem?_eq_none_iff] at hb
    rw [List.getElem?_eq_none, List.getElem?_eq_none]
    · rfl
    · rw [pairs, List.length_zip]
      exact Nat.le_trans (Nat.min_le_left _ _) hb
    · rw [pairs, List.length_zip, hsame]
      exact Nat.le_trans (Nat.min_le_left _ _) hb

omit [FloatOps F] in
theorem mem_bindings {pair : ActionBinding F × RuntimeBindingState F} (hmem : pair ∈ map.pairs) :
    pair.1 ∈ map.bindings :=
  (List.of_mem_zip hmem).1

theorem evaluate (h : map.ButtonsOnly) (inputState : InputState F) (deltaSeconds : F) :
    (map.evaluate inputState deltaSeconds).ButtonsOnly := by
  refine h.of_pairs (ActionMap.evaluate_wellFormed h.wellFormed inputState deltaSeconds)
    (evaluate_kinds h.wellFormed inputState deltaSeconds)
    (map.evaluate_bindings inputState deltaSeconds) ?_
  rw [h.evaluate_pairs, List.forall_mem_map]
  intro pair hpair
  rw [List.forall_mem_map]
  intro pair' hpair' hcombo
  rw [nextState_active (h.triggers _ (mem_bindings hpair)),
    nextState_active (h.triggers _ (mem_bindings hpair')), h.together _ hpair _ hpair' hcombo]
  exact nextBindingActive_eq (h.modifiers _ (mem_bindings hpair)) hcombo inputState _

/-- **The reports of a frame** that separates: those of the bindings of the action together. -/
theorem evaluate_reports (h : map.ButtonsOnly) (hseparates : Separates inputState map.pairs)
    {action : Nat} (hkind : map.actionKinds[action]? = some .button) {actionState : ActionState F}
    (ha : map.actionStates[action]? = some actionState)
    (hclear : actionState.reports = (false, false, false)) (deltaSeconds : F) :
    let report := pairsReport inputState (frameSecondsOf deltaSeconds) map.pairs action
    ((map.evaluate inputState deltaSeconds).actionStates[action]?).map ActionState.reports =
      some (report (·.down), report (·.pressed), report (·.released)) := by
  have hrecorded := h.recordChanges inputState
  have hpairs := h.recordChanges_pairs inputState
  have hreports := ActionMap.evaluate_reports h.wellFormed hkind ha hclear inputState deltaSeconds
  dsimp only at hreports ⊢
  rw [hrecorded.someReports_eq (hpairs ▸ hseparates), hrecorded.someReports_eq
    (hpairs ▸ hseparates), hrecorded.someReports_eq (hpairs ▸ hseparates), hpairs] at hreports
  exact hreports

end ActionMap.ButtonsOnly

/-! ## Two orders -/

section

variable {pairs pairs' : List (ActionBinding F × RuntimeBindingState F)}

omit [FloatOps F] in
theorem anyFired_perm (hperm : pairs'.Perm pairs) (combo : ActionCombo) :
    anyFired pairs' combo = anyFired pairs combo :=
  hperm.any_eq

theorem pairsReport_perm (hperm : pairs'.Perm pairs) (inputState : InputState F)
    (frameSeconds : F) (action : Nat) (report : EvaluatedBinding F → Bool) :
    pairsReport inputState frameSeconds pairs' action report =
      pairsReport inputState frameSeconds pairs action report := by
  unfold pairsReport pairEvaluated
  simp only [anyFired_perm hperm]
  exact hperm.any_eq

omit [FloatOps F] in
theorem Separates.perm (h : Separates inputState pairs) (hperm : pairs'.Perm pairs) :
    Separates inputState pairs' :=
  fun pair hpair tap htap => h pair (hperm.mem_iff.1 hpair) tap (hperm.mem_iff.1 htap)

end

/-- What the action reports. -/
def ActionMap.observed (map : ActionMap F) (action : Nat) : Bool × Bool × Bool :=
  (map.isDown action, map.wasPressed action, map.wasReleased action)

namespace FrameRun

/-- The run after some of the frames. -/
def after (run : FrameRun F) (action : Nat) (frames : Nat → Frame F) : Nat → FrameRun F
  | 0 => run
  | count + 1 => (run.after action frames count).advance action (frames count)

variable {run run' : FrameRun F}

/-- **The reports of a frame** that separates: those of the bindings of the action together. -/
theorem observed_advance (h : run.map.ButtonsOnly) {frame : Frame F}
    (hseparates : Separates (run.evaluatedInput frame) run.map.pairs) {action : Nat}
    (hkind : run.map.actionKinds[action]? = some .button) (watched : Nat) :
    let report := pairsReport (run.evaluatedInput frame)
      (ActionMap.frameSecondsOf frame.deltaSeconds) run.map.pairs action
    (run.advance watched frame).map.observed action =
      (report (·.down), report (·.pressed), report (·.released)) := by
  have hlt := (List.getElem?_eq_some_iff.1 hkind).1
  obtain ⟨actionState, ha⟩ : ∃ actionState, run.map.actionStates[action]? = some actionState :=
    ⟨_, List.getElem?_eq_getElem (h.wellFormed.actions ▸ hlt)⟩
  have hcleared : run.map.advanceFrame.actionStates[action]? = some
      { actionState with down := false, pressed := false, released := false, value := .zero } := by
    simp [ActionMap.advanceFrame, ha]
  have hreports := h.advanceFrame.evaluate_reports hseparates hkind hcleared rfl frame.deltaSeconds
  obtain ⟨after, hafter, hequal⟩ := Option.map_eq_some_iff.1 hreports
  have hvalid : (run.map.advanceFrame.evaluate (run.evaluatedInput frame)
      frame.deltaSeconds).isValidAction action = true := by
    apply decide_eq_true
    rw [ActionMap.evaluate_kinds h.advanceFrame.wellFormed]
    exact hlt
  simp only [ActionState.reports, Prod.mk.injEq] at hequal
  unfold advance ActionMap.observed
  simp only [ActionMap.isDown, ActionMap.wasPressed, ActionMap.wasReleased, hvalid, hafter]
  simp only [Bool.not_true, Bool.false_eq_true, if_false, Option.any_some, hequal]
  rfl

/-- The runs have had the same input, and have the same bindings in some order each. -/
structure SameBindings (run run' : FrameRun F) : Prop where
  left : run.map.ButtonsOnly
  right : run'.map.ButtonsOnly
  input : run'.input = run.input
  kinds : run'.map.actionKinds = run.map.actionKinds
  pairs : run'.map.pairs.Perm run.map.pairs

/-- **One frame** keeps the bindings the same. -/
theorem SameBindings.advance (h : SameBindings run run') (watched : Nat) (frame : Frame F) :
    SameBindings (run.advance watched frame) (run'.advance watched frame) := by
  have hinput : run'.evaluatedInput frame = run.evaluatedInput frame := by
    rw [evaluatedInput, evaluatedInput, h.input]
  unfold FrameRun.advance
  dsimp only
  refine ⟨h.left.advanceFrame.evaluate _ _, h.right.advanceFrame.evaluate _ _, ?_, ?_, ?_⟩
  · exact congrArg InputState.advanceFrame hinput
  · rw [ActionMap.evaluate_kinds h.left.advanceFrame.wellFormed,
      ActionMap.evaluate_kinds h.right.advanceFrame.wellFormed]
    exact h.kinds
  · rw [h.left.advanceFrame.evaluate_pairs, h.right.advanceFrame.evaluate_pairs, hinput]
    exact h.pairs.map _

/-- **One frame** that separates gives the same reports. -/
theorem SameBindings.observed (h : SameBindings run run') {frame : Frame F}
    (hseparates : Separates (run.evaluatedInput frame) run.map.pairs) {action : Nat}
    (hkind : run.map.actionKinds[action]? = some .button) (watched : Nat) :
    (run'.advance watched frame).map.observed action =
      (run.advance watched frame).map.observed action := by
  have hinput : run'.evaluatedInput frame = run.evaluatedInput frame := by
    rw [evaluatedInput, evaluatedInput, h.input]
  rw [observed_advance h.left hseparates hkind,
    observed_advance h.right (hinput ▸ hseparates.perm h.pairs) (h.kinds ▸ hkind), hinput]
  simp only [pairsReport_perm h.pairs]

/-- The bindings stay the same along the frames. -/
theorem SameBindings.after (h : SameBindings run run') (watched : Nat) (frames : Nat → Frame F)
    (count : Nat) :
    SameBindings (run.after watched frames count) (run'.after watched frames count) := by
  induction count with
  | zero => exact h
  | succ count ih => exact ih.advance watched (frames count)

theorem after_kinds (h : run.map.ButtonsOnly) (watched : Nat) (frames : Nat → Frame F)
    (count : Nat) : (run.after watched frames count).map.actionKinds = run.map.actionKinds ∧
      (run.after watched frames count).map.ButtonsOnly := by
  induction count with
  | zero => exact ⟨rfl, h⟩
  | succ count ih =>
    obtain ⟨hkinds, hbuttons⟩ := ih
    refine ⟨?_, hbuttons.advanceFrame.evaluate _ _⟩
    exact (ActionMap.evaluate_kinds hbuttons.advanceFrame.wellFormed _ _).trans hkinds

end FrameRun

/-! ## Adding the bindings -/

section
variable [FloatFinite F]

/-- The bindings added in turn, when none is rejected. -/
def ActionMap.addBindings (map : ActionMap F) : List (ActionBinding F) → Option (ActionMap F)
  | [] => some map
  | binding :: bindings =>
    if (map.addBinding binding).1.Accepted then (map.addBinding binding).2.addBindings bindings
    else none

/-- An accepted binding of a button action is not one of values. -/
theorem ActionMap.validateBinding_trigger {map : ActionMap F} {binding : ActionBinding F}
    (h : (map.validateBinding binding false).Accepted)
    (hkind : map.actionKinds[binding.action]? = some .button) :
    binding.gesture.trigger ≠ .value := by
  unfold ActionMap.validateBinding at h
  simp only [hkind] at h
  split_ifs at h with h1 hcompatible h3 h4 h5 h6 h7 h8
  all_goals try exact absurd h (by decide)
  simp only [isBindingCompatibleWithActionKind, Bool.not_eq_true', Bool.not_eq_false,
    Bool.and_eq_true, decide_eq_true_eq] at hcompatible
  exact hcompatible.1

/-- Adding bindings of button actions appends them, each with a new runtime state. -/
theorem ActionMap.addBindings_spec {map map' : ActionMap F} {bindings : List (ActionBinding F)}
    (hbutton : ∀ binding ∈ bindings, map.actionKinds[binding.action]? = some .button)
    (h : map.addBindings bindings = some map') :
    map' = { map with
      bindings := map.bindings ++ bindings
      bindingStates := map.bindingStates ++ List.replicate bindings.length .initial } ∧
    ∀ binding ∈ bindings,
      binding.combo.modifiers.Nodup ∧ binding.gesture.trigger ≠ .value := by
  induction bindings generalizing map with
  | nil =>
    obtain rfl := Option.some.inj h
    simp
  | cons binding bindings ih =>
    rw [addBindings] at h
    split_ifs at h with haccepted
    rw [addBinding_eq] at haccepted h
    dsimp only at haccepted h
    rw [if_pos haccepted] at h
    obtain ⟨hmap, hrest⟩ := @ih (map.addBindingUnchecked binding)
      (fun other hmem => hbutton other (List.mem_cons_of_mem _ hmem)) h
    refine ⟨?_, ?_⟩
    · rw [hmap]
      simp [addBindingUnchecked, List.replicate_succ]
    · intro other hmem
      rcases List.mem_cons.1 hmem with rfl | hmem
      · exact ⟨(validateBinding_accepted haccepted).2.1.nodup,
          validateBinding_trigger haccepted (hbutton _ List.mem_cons_self)⟩
      · exact hrest other hmem

/-- A map without bindings, once bindings of button actions are added. -/
theorem ActionMap.addBindings_buttonsOnly {map map' : ActionMap F}
    {bindings : List (ActionBinding F)} (hw : map.WellFormed) (hempty : map.bindings = [])
    (hbutton : ∀ binding ∈ bindings, map.actionKinds[binding.action]? = some .button)
    (h : map.addBindings bindings = some map') :
    map'.ButtonsOnly ∧ map'.actionKinds = map.actionKinds ∧
      map'.actionStates = map.actionStates ∧
      map'.pairs = bindings.map fun binding => (binding, .initial) := by
  obtain ⟨rfl, hadded⟩ := addBindings_spec hbutton h
  have hstates : map.bindingStates = [] := by
    rw [← List.length_eq_zero_iff, hw.states, hempty]
    rfl
  have hpairs : pairs { map with
      bindings := map.bindings ++ bindings
      bindingStates := map.bindingStates ++ List.replicate bindings.length .initial } =
        bindings.map fun binding => (binding, .initial) := by
    rw [pairs, hempty, hstates, List.nil_append, List.nil_append]
    clear h hadded hbutton
    induction bindings with
    | nil => rfl
    | cons binding bindings ih => simp [List.replicate_succ, ih]
  refine ⟨⟨⟨hw.actions, ?_⟩, ?_, ?_, ?_, ?_⟩, rfl, rfl, hpairs⟩
  · simp [hempty, hstates]
  · intro binding hmem
    exact hbutton binding (by simpa [hempty] using hmem)
  · intro binding hmem
    exact (hadded binding (by simpa [hempty] using hmem)).2
  · intro binding hmem
    exact (hadded binding (by simpa [hempty] using hmem)).1
  · rw [hpairs, List.forall_mem_map]
    intro binding _
    rw [List.forall_mem_map]
    exact fun _ _ _ => rfl

end

/-! ## The reports -/

/-- No `Hold` that has fired, with a `Tap` on its combo, stops and starts again in the frame. -/
def Frame.Separates (frame : Frame F) (run : FrameRun F) : Prop :=
  Action.Separates (run.evaluatedInput frame) run.map.pairs

/-- **The order of the bindings** does not matter along a run whose frames separate: a button
action is down, pressed and released after the same frames. -/
theorem reports_orderIndependent [FloatFinite F] {actionCount : Nat}
    {operations : List (Transition (BindingRun F) (BindingOperation F))} {base : BindingRun F}
    (hbase : Trace bindingStep (.initial actionCount) operations base)
    (hempty : base.map.bindings = []) {bindings bindings' : List (ActionBinding F)}
    (hperm : bindings'.Perm bindings)
    (hbutton : ∀ binding ∈ bindings, base.map.actionKinds[binding.action]? = some .button)
    {map map' : ActionMap F} (hadded : base.map.addBindings bindings = some map)
    (hadded' : base.map.addBindings bindings' = some map') (input : InputState F) (watched : Nat)
    (frames : Nat → Frame F) {count : Nat}
    (hseparates : ∀ k < count,
      (frames k).Separates (FrameRun.after ⟨input, map, []⟩ watched frames k)) :
    ∀ k ≤ count, ∀ action, base.map.actionKinds[action]? = some .button →
      (FrameRun.after ⟨input, map', []⟩ watched frames k).map.observed action =
        (FrameRun.after ⟨input, map, []⟩ watched frames k).map.observed action := by
  intro k hk action hkind
  have hw := (BindingRun.kept_of_trace hbase).1.wellFormed
  have hbutton' : ∀ binding ∈ bindings',
      base.map.actionKinds[binding.action]? = some .button := fun binding hmem =>
    hbutton binding (hperm.mem_iff.1 hmem)
  obtain ⟨hleft, hkinds, hstates, hpairs⟩ :=
    ActionMap.addBindings_buttonsOnly hw hempty hbutton hadded
  obtain ⟨hright, hkinds', hstates', hpairs'⟩ :=
    ActionMap.addBindings_buttonsOnly hw hempty hbutton' hadded'
  have hstart : FrameRun.SameBindings ⟨input, map, []⟩ ⟨input, map', []⟩ := by
    refine ⟨hleft, hright, rfl, hkinds'.trans hkinds.symm, ?_⟩
    rw [hpairs, hpairs']
    exact hperm.map _
  cases k with
  | zero =>
    simp only [FrameRun.after, ActionMap.observed, ActionMap.isDown, ActionMap.wasPressed,
      ActionMap.wasReleased, ActionMap.isValidAction, hkinds, hkinds', hstates, hstates']
  | succ k =>
    obtain ⟨hsame, -⟩ := FrameRun.after_kinds hstart.left watched frames k
    refine (hstart.after watched frames k).observed (hseparates k (by omega)) ?_ watched
    rw [hsame, hkinds]
    exact hkind

instance (frame : Frame F) (run : FrameRun F) : Decidable (frame.Separates run) :=
  inferInstanceAs (Decidable (Separates _ _))

/-- The key 4, tapped for the button action 0. -/
def tapBinding : ActionBinding Int where
  action := 0
  combo := { primaryControl := { controlCode := 4 } }
  gesture := ⟨.tap, 1, 0⟩
  valueMapping := ⟨.scalar, 1, 0⟩
  settings := defaultSettings .button
  hasCustomSettings := false

/-- The same key, held for the button action 1. -/
def holdBinding : ActionBinding Int := { tapBinding with action := 1, gesture := ⟨.hold, 1, 0⟩ }

/-- A frame for each list of what happens to the key, then frames in which nothing happens. -/
def keyFrame (edges : List (List Bool)) (k : Nat) : Frame Int :=
  ⟨((edges[k]?).getD []).map (.setButton { controlCode := 4 }), 1⟩

/-- The reports of the actions 0 and 1 after some frames of the key. -/
def keyReports (bindings : List (ActionBinding Int)) (edges : List (List Bool)) (count : Nat) :
    Option ((Bool × Bool × Bool) × (Bool × Bool × Bool)) :=
  (ActionMap.addBindings (.new 2) bindings).map fun map =>
    let run := FrameRun.after ⟨{}, map, []⟩ 0 (keyFrame edges) count
    (run.map.observed 0, run.map.observed 1)

/-- The key is held until the `Hold` fires and let go. -/
theorem reports_orderIndependent_held :
    keyReports [holdBinding, tapBinding] [[true], [false]] 2 =
        some ((false, false, false), (false, false, true)) ∧
      keyReports [tapBinding, holdBinding] [[true], [false]] 2 =
        keyReports [holdBinding, tapBinding] [[true], [false]] 2 := by
  refine ⟨by decide +kernel, ?_⟩
  obtain ⟨map, hadded⟩ : ∃ map,
      ActionMap.addBindings (.new 2) [holdBinding, tapBinding] = some map := ⟨_, rfl⟩
  obtain ⟨map', hadded'⟩ : ∃ map,
      ActionMap.addBindings (.new 2) [tapBinding, holdBinding] = some map := ⟨_, rfl⟩
  have hguard : ((ActionMap.addBindings (.new 2) [holdBinding, tapBinding]).all fun map =>
      (List.range 2).all fun k => decide ((keyFrame [[true], [false]] k).Separates
        (FrameRun.after ⟨{}, map, []⟩ 0 (keyFrame [[true], [false]]) k))) = true := by
    decide +kernel
  simp only [hadded, Option.all_some, List.all_eq_true, List.mem_range, decide_eq_true_eq] at hguard
  have hbase : Trace bindingStep (.initial 2) [] (.initial 2 : BindingRun Int) := .nil _
  have hbutton : ∀ binding ∈ [holdBinding, tapBinding],
      (BindingRun.initial 2 : BindingRun Int).map.actionKinds[binding.action]? = some .button := by
    decide
  have hsame := reports_orderIndependent hbase rfl (List.Perm.swap _ _ _) hbutton hadded hadded'
    {} 0 (keyFrame [[true], [false]]) hguard 2 (Nat.le_refl 2)
  rw [keyReports, keyReports, hadded, hadded']
  simp only [Option.map_some]
  rw [hsame 0 rfl, hsame 1 rfl]

/-- The key is let go, pressed and let go again in one frame: a `Hold` added first has forgotten
that it fired when the `Tap` asks. -/
theorem reports_orderIndependent_retapped :
    keyReports [holdBinding, tapBinding] [[true], [false, true, false]] 2 =
        some ((true, true, false), (false, false, false)) ∧
      keyReports [tapBinding, holdBinding] [[true], [false, true, false]] 2 =
        some ((false, false, false), (false, false, false)) ∧
      ¬ ∀ (actionCount : Nat) (bindings bindings' : List (ActionBinding Int))
        (map map' : ActionMap Int) (input : InputState Int) (frames : Nat → Frame Int)
        (count action : Nat), bindings'.Perm bindings →
        (∀ binding ∈ bindings,
          (ActionMap.new actionCount : ActionMap Int).actionKinds[binding.action]? =
            some .button) →
        ActionMap.addBindings (.new actionCount) bindings = some map →
        ActionMap.addBindings (.new actionCount) bindings' = some map' →
        action < actionCount →
        (FrameRun.after ⟨input, map', []⟩ 0 frames count).map.observed action =
          (FrameRun.after ⟨input, map, []⟩ 0 frames count).map.observed action := by
  have hfirst : keyReports [holdBinding, tapBinding] [[true], [false, true, false]] 2 =
      some ((true, true, false), (false, false, false)) := by decide +kernel
  have hsecond : keyReports [tapBinding, holdBinding] [[true], [false, true, false]] 2 =
      some ((false, false, false), (false, false, false)) := by decide +kernel
  refine ⟨hfirst, hsecond, fun h => ?_⟩
  obtain ⟨map, hadded⟩ : ∃ map,
      ActionMap.addBindings (.new 2) [holdBinding, tapBinding] = some map := ⟨_, rfl⟩
  obtain ⟨map', hadded'⟩ : ∃ map,
      ActionMap.addBindings (.new 2) [tapBinding, holdBinding] = some map := ⟨_, rfl⟩
  have hsame := h 2 _ _ map map' {} (keyFrame [[true], [false, true, false]]) 2 0
    (List.Perm.swap _ _ _) (by decide) hadded hadded' (by decide)
  rw [keyReports, hadded, Option.map_some, Option.some.injEq, Prod.mk.injEq] at hfirst
  rw [keyReports, hadded', Option.map_some, Option.some.injEq, Prod.mk.injEq] at hsecond
  rw [hfirst.1, hsecond.1] at hsame
  cases hsame

end Action

import GameWIP.Action.ActionMap
import GameWIP.Lib.Trace

/-!
# What a frame does to a button action

`ActionMap.WellFormed` ties the parallel vectors of the map together; every operation keeps it.

`evaluate_spec` is the frame of one button action with a single binding: whatever the other
bindings and values do, the action reports what `evaluateGesture` answers for its binding, and the
runtime state of the binding is the one it leaves behind.
-/

namespace Action

open Input (InputState InputControl InputActivation)

variable {F : Type*}

/-- The parallel vectors have the same lengths. -/
structure ActionMap.WellFormed (map : ActionMap F) : Prop where
  actions : map.actionStates.length = map.actionKinds.length
  states : map.bindingStates.length = map.bindings.length

/-- The runtime state of a binding without its change order. -/
def RuntimeBindingState.gesture (state : RuntimeBindingState F) : RuntimeBindingState F :=
  { state with valueChangeSequence := 0 }

/-- What an action reports. -/
def ActionState.reports (state : ActionState F) : Bool × Bool × Bool :=
  (state.down, state.pressed, state.released)

namespace ActionMap

variable {map map' : ActionMap F} {inputState : InputState F}

/-! ## The change-order passes -/

/-- The maps differ in the change order of their values only. -/
structure SameGestures (map map' : ActionMap F) : Prop where
  kinds : map'.actionKinds = map.actionKinds
  actionStates : map'.actionStates = map.actionStates
  bindings : map'.bindings = map.bindings
  gestures : map'.bindingStates.map (·.gesture) = map.bindingStates.map (·.gesture)

theorem SameGestures.refl (map : ActionMap F) : SameGestures map map := ⟨rfl, rfl, rfl, rfl⟩

theorem SameGestures.trans {map'' : ActionMap F} (h : SameGestures map map')
    (h' : SameGestures map' map'') : SameGestures map map'' :=
  ⟨h'.kinds.trans h.kinds, h'.actionStates.trans h.actionStates, h'.bindings.trans h.bindings,
    h'.gestures.trans h.gestures⟩

theorem SameGestures.wellFormed (h : SameGestures map map') (hw : map.WellFormed) :
    map'.WellFormed := by
  obtain ⟨hkinds, hstates, hbindings, hgestures⟩ := h
  have hlength := congrArg List.length hgestures
  rw [List.length_map, List.length_map] at hlength
  refine ⟨?_, ?_⟩
  · rw [hstates, hkinds]
    exact hw.actions
  · rw [hlength, hbindings]
    exact hw.states

theorem SameGestures.setValueChange (h : SameGestures map map') (i : Nat) (sequence : UInt64) :
    SameGestures map (map'.setValueChange i sequence) := by
  refine h.trans ⟨rfl, rfl, rfl, ?_⟩
  apply List.ext_getElem?
  intro j
  simp only [ActionMap.setValueChange, List.getElem?_map, List.getElem?_modify]
  split_ifs
  · cases map'.bindingStates[j]? <;> rfl
  · simp

theorem recordBinding_same (activation : InputActivation F) (progress : ActionMap F × UInt64)
    (i : Nat) : SameGestures progress.1 (recordBinding activation progress i).1 := by
  unfold recordBinding
  dsimp only
  cases progress.1.bindings[i]? with
  | none => exact .refl _
  | some binding =>
    dsimp only
    split_ifs
    · exact .refl _
    · refine SameGestures.setValueChange ?_ _ _
      exact ⟨rfl, rfl, rfl, rfl⟩
    · exact (SameGestures.refl _).setValueChange _ _

theorem recordActivation_same (map : ActionMap F) (activation : InputActivation F) :
    SameGestures map (map.recordActivation activation) :=
  List.foldlRecOn (motive := fun progress : ActionMap F × UInt64 => SameGestures map progress.1)
    _ (recordBinding activation) (.refl map)
    fun progress h i _ => h.trans (recordBinding_same activation progress i)

theorem recordMouse_same (map : ActionMap F) (i : Nat) :
    SameGestures map (recordMouse inputState map i) := by
  unfold recordMouse
  cases map.bindings[i]? with
  | none => exact .refl _
  | some binding =>
    dsimp only
    split_ifs
    · exact .refl _
    · refine SameGestures.setValueChange ?_ _ _
      exact ⟨rfl, rfl, rfl, rfl⟩
    · exact .refl _

variable [FloatOps F]

theorem recordChanges_same (map : ActionMap F) (inputState : InputState F) :
    SameGestures map (map.recordChanges inputState) := by
  have hcopy : SameGestures map (map.copyInputSnapshot inputState) := ⟨rfl, rfl, rfl, rfl⟩
  have hactivations : SameGestures map
      (inputState.activations.foldl recordActivation (map.copyInputSnapshot inputState)) :=
    List.foldlRecOn inputState.activations recordActivation hcopy fun map' h activation _ =>
      h.trans (recordActivation_same map' activation)
  exact List.foldlRecOn _ (recordMouse inputState) hactivations fun map' h i _ =>
    h.trans (recordMouse_same map' i)

/-! ## The binding loop -/

/-- The loop body changes one binding state and the reports of one action. -/
theorem evaluateBinding_cases (inputState : InputState F) (frameSeconds : F)
    (progress : ActionMap F × List (ValueBucket F)) (i : Nat) :
    (evaluateBinding inputState frameSeconds progress i).1 = progress.1 ∧
        (∀ binding bindingState, progress.1.bindings[i]? = some binding →
          progress.1.bindingStates[i]? = some bindingState →
          progress.1.actionKinds[binding.action]? = none) ∨
      ∃ binding bindingState, progress.1.bindings[i]? = some binding ∧
        progress.1.bindingStates[i]? = some bindingState ∧
        (evaluateBinding inputState frameSeconds progress i).1 =
          { progress.1 with
            actionStates := progress.1.actionStates.modify binding.action
              (·.report (evaluateGesture inputState binding bindingState
                (progress.1.hasMatchingHoldFired i) frameSeconds))
            bindingStates := progress.1.bindingStates.set i
              (evaluateGesture inputState binding bindingState
                (progress.1.hasMatchingHoldFired i) frameSeconds).state } := by
  unfold evaluateBinding
  dsimp only
  cases hb : progress.1.bindings[i]? with
  | none => exact .inl ⟨rfl, by simp⟩
  | some binding =>
    cases hs : progress.1.bindingStates[i]? with
    | none => exact .inl ⟨rfl, by simp⟩
    | some bindingState =>
      dsimp only
      cases hk : progress.1.actionKinds[binding.action]? with
      | none =>
        refine .inl ⟨rfl, fun b state hb' hs' => ?_⟩
        cases hb'
        cases hs'
        exact hk
      | some kind => exact .inr ⟨binding, bindingState, rfl, rfl, rfl⟩

/-- What the binding loop is followed by: the bindings and kinds, the slot of the action and the
state of its binding. -/
def observe (action i : Nat) (progress : ActionMap F × List (ValueBucket F)) :=
  (progress.1.bindings, progress.1.actionKinds, progress.1.actionStates[action]?,
    progress.1.bindingStates[i]?)

/-- A binding of another action leaves the action and its binding alone. -/
theorem observe_evaluateBinding {action i j : Nat} {frameSeconds : F}
    {progress : ActionMap F × List (ValueBucket F)} (hij : j ≠ i)
    (hother : ∀ binding, progress.1.bindings[j]? = some binding → binding.action ≠ action) :
    observe action i (evaluateBinding inputState frameSeconds progress j) =
      observe action i progress := by
  unfold observe
  rcases evaluateBinding_cases inputState frameSeconds progress j with
    ⟨heq, -⟩ | ⟨binding, bindingState, hb, -, heq⟩
  · rw [heq]
  · rw [heq]
    dsimp only
    rw [List.getElem?_modify_ne _ _ (hother binding hb), List.getElem?_set_ne hij]

/-- The binding of the action sets its reports and leaves its runtime state behind. -/
theorem observe_evaluateBinding_self {action i : Nat} (inputState : InputState F)
    (frameSeconds : F) {progress : ActionMap F × List (ValueBucket F)} {binding : ActionBinding F}
    {bindingState : RuntimeBindingState F} {actionState : ActionState F}
    (hb : progress.1.bindings[i]? = some binding) (haction : binding.action = action)
    (hs : progress.1.bindingStates[i]? = some bindingState)
    (hvalid : action < progress.1.actionKinds.length)
    (ha : progress.1.actionStates[action]? = some actionState) :
    ∃ matching, observe action i (evaluateBinding inputState frameSeconds progress i) =
      (progress.1.bindings, progress.1.actionKinds,
        some (actionState.report
          (evaluateGesture inputState binding bindingState matching frameSeconds)),
        some (evaluateGesture inputState binding bindingState matching frameSeconds).state) := by
  unfold observe
  rcases evaluateBinding_cases inputState frameSeconds progress i with
    ⟨-, hnone⟩ | ⟨b, state, hb', hs', heq⟩
  · have := hnone binding bindingState hb hs
    rw [haction, List.getElem?_eq_none_iff] at this
    omega
  · obtain rfl : b = binding := Option.some.inj (hb'.symm.trans hb)
    obtain rfl : state = bindingState := Option.some.inj (hs'.symm.trans hs)
    refine ⟨progress.1.hasMatchingHoldFired i, ?_⟩
    have hlt : i < progress.1.bindingStates.length := (List.getElem?_eq_some_iff.1 hs).1
    rw [heq]
    dsimp only
    rw [haction, List.getElem?_modify_eq, ha, List.getElem?_set_self hlt]
    rfl

/-- The loop over other bindings leaves the action and its binding alone. -/
theorem observe_foldl {action i : Nat} (inputState : InputState F) (frameSeconds : F)
    (l : List Nat) (hl : i ∉ l) (progress : ActionMap F × List (ValueBucket F))
    (honly : ∀ j binding, progress.1.bindings[j]? = some binding → binding.action = action →
      j = i) :
    observe action i (l.foldl (evaluateBinding inputState frameSeconds) progress) =
      observe action i progress := by
  refine List.foldlRecOn
    (motive := fun current => observe action i current = observe action i progress) l _ rfl
    fun current h j hj => ?_
  have hbindings : current.1.bindings = progress.1.bindings := congrArg Prod.fst h
  have hij : j ≠ i := fun heq => hl (heq ▸ hj)
  rw [observe_evaluateBinding hij fun binding hb haction =>
    hij (honly j binding (hbindings ▸ hb) haction)]
  exact h

/-- **The binding loop** does to a button action what its only binding does. -/
theorem observe_loop {action i : Nat} (inputState : InputState F) (frameSeconds : F)
    {map : ActionMap F} {binding : ActionBinding F} {bindingState : RuntimeBindingState F}
    {actionState : ActionState F} (hb : map.bindings[i]? = some binding)
    (haction : binding.action = action)
    (honly : ∀ j binding, map.bindings[j]? = some binding → binding.action = action → j = i)
    (hs : map.bindingStates[i]? = some bindingState) (hvalid : action < map.actionKinds.length)
    (ha : map.actionStates[action]? = some actionState) :
    ∃ matching, observe action i ((List.range map.bindings.length).foldl
        (evaluateBinding inputState frameSeconds) (map, [])) =
      (map.bindings, map.actionKinds,
        some (actionState.report
          (evaluateGesture inputState binding bindingState matching frameSeconds)),
        some (evaluateGesture inputState binding bindingState matching frameSeconds).state) := by
  obtain ⟨m, hm⟩ : ∃ m, map.bindings.length = i + (m + 1) := by
    have := (List.getElem?_eq_some_iff.1 hb).1
    exact ⟨map.bindings.length - i - 1, by omega⟩
  rw [hm, List.range_add, List.foldl_append, List.range_succ_eq_map, List.map_cons,
    List.foldl_cons, Nat.add_zero]
  have hbefore := observe_foldl inputState frameSeconds (List.range i) (by simp) (map, []) honly
  obtain ⟨hbindings, hkinds, hstate, hruntime⟩ : _ ∧ _ ∧ _ ∧ _ := by
    simpa only [observe, Prod.mk.injEq] using hbefore
  obtain ⟨matching, hself⟩ := observe_evaluateBinding_self inputState
    frameSeconds (hbindings ▸ hb) haction (hruntime.trans hs)
    (hkinds ▸ hvalid) (hstate.trans ha)
  refine ⟨matching, ?_⟩
  rw [observe_foldl _ _ _ (by simp), hself, hbindings, hkinds]
  intro j b hj
  have hsame : (evaluateBinding inputState frameSeconds ((List.range i).foldl
    (evaluateBinding inputState frameSeconds) (map, [])) i).1.bindings = map.bindings :=
    (congrArg Prod.fst hself).trans hbindings
  exact honly j b (hsame ▸ hj)

/-! ## Values -/

/-- Selecting a value changes no report. -/
theorem offer_reports (pass : ValuePass F) (action : Nat) (bucket : ValueBucket F)
    (magnitude : ActionValue F → F) (candidate : ActionValue F → ActionValue F)
    (candidateMagnitude : F) :
    (pass.offer action bucket magnitude candidate candidateMagnitude).actionStates.map
      (·.reports) = pass.actionStates.map (·.reports) := by
  unfold ValuePass.offer
  cases ha : pass.actionStates[action]? with
  | none => rfl
  | some actionState =>
    dsimp only
    split_ifs
    · apply List.ext_getElem?
      intro j
      rw [List.getElem?_map, List.getElem?_map]
      by_cases hj : action = j
      · subst hj
        rw [List.getElem?_set_self (List.getElem?_eq_some_iff.1 ha).1, ha]
        rfl
      · rw [List.getElem?_set_ne hj]
    · rfl

theorem evaluateBucket_reports (map : ActionMap F) (pass : ValuePass F) (bucket : ValueBucket F) :
    (evaluateBucket map pass bucket).actionStates.map (·.reports) =
      pass.actionStates.map (·.reports) := by
  unfold evaluateBucket
  split_ifs
  · rfl
  · cases bucket.settings.kind with
    | button => rfl
    | axis1D => exact offer_reports _ _ _ _ _ _
    | axis2D => exact offer_reports _ _ _ _ _ _

/-- The reports of a button action are those of the binding loop. -/
theorem evaluateValues_reports {action : Nat} (map : ActionMap F)
    (valueBuckets : List (ValueBucket F)) (hkind : map.actionKinds[action]? = some .button) :
    ((map.evaluateValues valueBuckets).actionStates[action]?).map ActionState.reports =
      (map.actionStates[action]?).map ActionState.reports := by
  have hpass : ∀ pass : ValuePass F,
      ((valueBuckets.foldl (evaluateBucket map) pass).actionStates.map ActionState.reports) =
        pass.actionStates.map ActionState.reports := fun pass =>
    List.foldlRecOn (motive := fun current : ValuePass F =>
      current.actionStates.map ActionState.reports = pass.actionStates.map ActionState.reports)
      valueBuckets (evaluateBucket map) rfl
      fun current h bucket _ => (evaluateBucket_reports map current bucket).trans h
  unfold evaluateValues
  dsimp only
  rw [List.getElem?_mapIdx, Option.map_map]
  have hfinish : ∀ isActive, (ActionState.reports ∘
      fun actionState : ActionState F => finishAction ((map.actionKinds[action]?).getD .button)
        isActive actionState) = ActionState.reports := by
    intro isActive
    funext actionState
    simp [hkind, finishAction]
  rw [hfinish, ← List.getElem?_map, hpass, List.getElem?_map]

/-! ## The frame of a button action -/

/-- **The frame of a button action with one binding**: it reports what the gesture of the binding
answers, and the runtime state left behind is the gesture's. -/
theorem evaluate_spec {action i : Nat} {map : ActionMap F} {binding : ActionBinding F}
    {bindingState : RuntimeBindingState F} {actionState : ActionState F} (inputState : InputState F)
    (hb : map.bindings[i]? = some binding) (haction : binding.action = action)
    (honly : ∀ j binding, map.bindings[j]? = some binding → binding.action = action → j = i)
    (hs : map.bindingStates[i]? = some bindingState)
    (hkind : map.actionKinds[action]? = some .button)
    (ha : map.actionStates[action]? = some actionState) (deltaSeconds : F) :
    ∃ (recorded : RuntimeBindingState F) (matching : Bool) (frameSeconds : F),
      recorded.gesture = bindingState.gesture ∧
      (map.evaluate inputState deltaSeconds).bindings = map.bindings ∧
      (map.evaluate inputState deltaSeconds).actionKinds = map.actionKinds ∧
      (map.evaluate inputState deltaSeconds).bindingStates[i]? =
        some (evaluateGesture inputState binding recorded matching frameSeconds).state ∧
      ((map.evaluate inputState deltaSeconds).actionStates[action]?).map ActionState.reports =
        some (actionState.report
          (evaluateGesture inputState binding recorded matching frameSeconds)).reports := by
  obtain ⟨hkinds, hstates, hbindings, hgestures⟩ := recordChanges_same map inputState
  obtain ⟨recorded, hrecorded, hgesture⟩ : ∃ recorded,
      (map.recordChanges inputState).bindingStates[i]? = some recorded ∧
        recorded.gesture = bindingState.gesture := by
    have hget : ((map.recordChanges inputState).bindingStates[i]?).map (·.gesture) =
        some bindingState.gesture := by
      rw [← List.getElem?_map, hgestures, List.getElem?_map, hs]
      rfl
    exact Option.map_eq_some_iff.1 hget
  obtain ⟨matching, hloop⟩ := observe_loop inputState
    (if FloatOps.lt FloatOps.zero deltaSeconds then deltaSeconds else FloatOps.zero)
    (hbindings ▸ hb) haction (fun j b hj => honly j b (hbindings ▸ hj)) hrecorded
    (hkinds ▸ (List.getElem?_eq_some_iff.1 hkind).1) (hstates ▸ ha)
  obtain ⟨hloopBindings, hloopKinds, hloopState, hloopRuntime⟩ : _ ∧ _ ∧ _ ∧ _ := by
    simpa only [observe, Prod.mk.injEq] using hloop
  refine ⟨recorded, matching, _, hgesture, hloopBindings.trans hbindings, hloopKinds.trans hkinds,
    hloopRuntime, ?_⟩
  refine (evaluateValues_reports _ _ ?_).trans ?_
  · rw [hloopKinds, hkinds]
    exact hkind
  · rw [hloopState]
    rfl

/-! ## The parallel vectors -/

theorem evaluateBinding_wellFormed {frameSeconds : F}
    {progress : ActionMap F × List (ValueBucket F)} (hw : progress.1.WellFormed) (i : Nat) :
    (evaluateBinding inputState frameSeconds progress i).1.WellFormed := by
  rcases evaluateBinding_cases inputState frameSeconds progress i with
    ⟨heq, -⟩ | ⟨binding, bindingState, -, -, heq⟩
  · rw [heq]
    exact hw
  · rw [heq]
    exact ⟨by simpa using hw.actions, by simpa using hw.states⟩

theorem evaluateValues_wellFormed (hw : map.WellFormed) (valueBuckets : List (ValueBucket F)) :
    (map.evaluateValues valueBuckets).WellFormed := by
  refine ⟨?_, hw.states⟩
  have hpass : ∀ pass : ValuePass F,
      (valueBuckets.foldl (evaluateBucket map) pass).actionStates.length =
        pass.actionStates.length := fun pass =>
    List.foldlRecOn (motive := fun current : ValuePass F =>
      current.actionStates.length = pass.actionStates.length)
      valueBuckets (evaluateBucket map) rfl fun current h bucket _ => by
        have := congrArg List.length (evaluateBucket_reports map current bucket)
        rw [List.length_map, List.length_map] at this
        exact this.trans h
  unfold evaluateValues
  dsimp only
  rw [List.length_mapIdx, hpass]
  exact hw.actions

theorem evaluate_wellFormed (hw : map.WellFormed) (inputState : InputState F) (deltaSeconds : F) :
    (map.evaluate inputState deltaSeconds).WellFormed := by
  apply evaluateValues_wellFormed
  exact List.foldlRecOn
    (motive := fun progress : ActionMap F × List (ValueBucket F) => progress.1.WellFormed) _ _
    ((recordChanges_same map inputState).wellFormed hw)
    fun _ h i _ => evaluateBinding_wellFormed h i

theorem length_resizeList {α : Type*} (l : List α) (count : Nat) (fill : α) :
    (resizeList l count fill).length = count := by
  simp [resizeList]
  omega

theorem new_wellFormed (actionCount : Nat) : (new actionCount : ActionMap F).WellFormed :=
  ⟨by simp [new, resize, length_resizeList], rfl⟩

/-- Every operation keeps the vectors parallel. -/
theorem apply_wellFormed (hw : map.WellFormed) (operation : MapOperation F) :
    (map.apply operation).WellFormed := by
  cases operation with
  | resize actionCount => exact ⟨by simp [apply, resize, length_resizeList], hw.states⟩
  | defineAction action kind =>
    show (map.defineAction action kind).WellFormed
    unfold defineAction
    split_ifs
    · exact hw
    · exact ⟨by simpa using hw.actions, hw.states⟩
  | addBinding binding => exact ⟨hw.actions, by simp [apply, addBindingUnchecked, hw.states]⟩
  | clearBindings action =>
    show (map.clearBindings action).WellFormed
    unfold clearBindings
    split_ifs
    · exact hw
    · exact ⟨hw.actions, by simp⟩
  | clearAllBindings => exact ⟨hw.actions, rfl⟩
  | advanceFrame => exact ⟨by simpa [apply, advanceFrame] using hw.actions, hw.states⟩
  | evaluate inputState deltaSeconds => exact evaluate_wellFormed hw inputState deltaSeconds

end ActionMap

end Action

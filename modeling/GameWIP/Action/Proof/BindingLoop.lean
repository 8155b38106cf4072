import GameWIP.Action.Proof.Bindings
import GameWIP.Action.Proof.Frame

/-!
# The binding loop in closed form

Every binding steps its own runtime state (`nextState`), whatever the others do; only what a `Tap`
reports depends on the others, through `hasMatchingHoldFired`. `loopTo_states` and
`loopTo_actionStates` give the states and the reports after a part of the loop,
`evaluate_states` and `evaluate_reports` those after a frame.
-/

namespace Action

open Input (InputState InputControl)

variable {F : Type*} [FloatOps F] {inputState : InputState F} {frameSeconds : F}

/-! ## One binding -/

/-- The runtime state a binding leaves behind. -/
def nextState (inputState : InputState F) (frameSeconds : F) (binding : ActionBinding F)
    (bindingState : RuntimeBindingState F) : RuntimeBindingState F :=
  (evaluateGesture inputState binding bindingState false frameSeconds).state

/-- The combo stops in this frame. -/
def stopsThisFrame (inputState : InputState F) (combo : ActionCombo) (wasBindingActive : Bool) :
    Bool :=
  wasBindingActive && !nextBindingActive inputState combo wasBindingActive

theorem evaluateGesture_state (binding : ActionBinding F) (bindingState : RuntimeBindingState F)
    (matching : Bool) :
    (evaluateGesture inputState binding bindingState matching frameSeconds).state =
      nextState inputState frameSeconds binding bindingState := by
  unfold nextState evaluateGesture
  cases binding.gesture.trigger <;> rfl

/-- Only a `Tap` that stops asks whether a matching `Hold` has fired. -/
theorem evaluateGesture_congr {binding : ActionBinding F} {bindingState : RuntimeBindingState F}
    {matching matching' : Bool}
    (h : binding.gesture.trigger = .tap →
      stopsThisFrame inputState binding.combo bindingState.active = true → matching = matching') :
    evaluateGesture inputState binding bindingState matching frameSeconds =
      evaluateGesture inputState binding bindingState matching' frameSeconds := by
  unfold evaluateGesture
  cases htrigger : binding.gesture.trigger with
  | tap =>
    dsimp only
    cases hstops : stopsThisFrame inputState binding.combo bindingState.active with
    | true => rw [h htrigger hstops]
    | false =>
      unfold stopsThisFrame at hstops
      simp [hstops]
  | pressed | released | down | hold | doubleTap | value => rfl

namespace ActionMap

variable {map : ActionMap F}

/-! ## The loop -/

/-- A round: its binding, when it has an action, steps its state and reports. -/
theorem evaluateBinding_some {progress : ActionMap F × List (ValueBucket F)} {i : Nat}
    {binding : ActionBinding F} {bindingState : RuntimeBindingState F}
    (hb : progress.1.bindings[i]? = some binding)
    (hs : progress.1.bindingStates[i]? = some bindingState) :
    (evaluateBinding inputState frameSeconds progress i).1 =
      if progress.1.isValidAction binding.action then
        { progress.1 with
          actionStates := progress.1.actionStates.modify binding.action
            (·.report (evaluateGesture inputState binding bindingState
              (progress.1.hasMatchingHoldFired i) frameSeconds))
          bindingStates := progress.1.bindingStates.set i
            (nextState inputState frameSeconds binding bindingState) }
      else progress.1 := by
  unfold evaluateBinding
  simp only [hb, hs]
  cases hk : progress.1.actionKinds[binding.action]? with
  | none =>
    rw [List.getElem?_eq_none_iff] at hk
    rw [if_neg (by rw [isValidAction, decide_eq_true_eq]; omega)]
  | some kind =>
    have hvalid : progress.1.isValidAction binding.action = true :=
      decide_eq_true (List.getElem?_eq_some_iff.1 hk).1
    rw [if_pos hvalid]
    dsimp only
    rw [evaluateGesture_state]

theorem evaluateBinding_none {progress : ActionMap F × List (ValueBucket F)} {i : Nat}
    (hb : progress.1.bindings[i]? = none) :
    evaluateBinding inputState frameSeconds progress i = progress := by
  unfold evaluateBinding
  simp only [hb]

/-- The map after the first `count` rounds of the binding loop. -/
def loopTo (map : ActionMap F) (inputState : InputState F) (frameSeconds : F) (count : Nat) :
    ActionMap F × List (ValueBucket F) :=
  (List.range count).foldl (evaluateBinding inputState frameSeconds) (map, [])

@[simp] theorem loopTo_zero (map : ActionMap F) (inputState : InputState F) (frameSeconds : F) :
    map.loopTo inputState frameSeconds 0 = (map, []) := rfl

theorem loopTo_succ (map : ActionMap F) (inputState : InputState F) (frameSeconds : F)
    (count : Nat) :
    map.loopTo inputState frameSeconds (count + 1) =
      evaluateBinding inputState frameSeconds (map.loopTo inputState frameSeconds count) count := by
  rw [loopTo, List.range_succ, List.foldl_append]
  rfl

/-- What the loop does not touch: the bindings, the kinds and the lengths. -/
theorem loopTo_frame (hw : map.WellFormed) (inputState : InputState F) (frameSeconds : F)
    (count : Nat) :
    (map.loopTo inputState frameSeconds count).1.bindings = map.bindings ∧
      (map.loopTo inputState frameSeconds count).1.actionKinds = map.actionKinds ∧
      (map.loopTo inputState frameSeconds count).1.WellFormed := by
  induction count with
  | zero => exact ⟨rfl, rfl, hw⟩
  | succ count ih =>
    obtain ⟨hbindings, hkinds, hwf⟩ := ih
    rw [loopTo_succ]
    refine ⟨?_, ?_, evaluateBinding_wellFormed hwf count⟩
    all_goals
      rcases evaluateBinding_cases inputState frameSeconds
        (map.loopTo inputState frameSeconds count) count with ⟨heq, -⟩ | ⟨_, _, -, -, heq⟩
      · rw [heq]
        assumption
      · rw [heq]
        assumption

omit [FloatOps F] in
/-- A binding of a well-formed map has a runtime state. -/
theorem WellFormed.exists_state (hw : map.WellFormed) {i : Nat} {binding : ActionBinding F}
    (hb : map.bindings[i]? = some binding) :
    ∃ bindingState, map.bindingStates[i]? = some bindingState :=
  ⟨_, List.getElem?_eq_getElem (hw.states ▸ (List.getElem?_eq_some_iff.1 hb).1)⟩

/-- The runtime state of a binding after its round; a binding of no action keeps its state. -/
def stepState (map : ActionMap F) (inputState : InputState F) (frameSeconds : F)
    (binding : ActionBinding F) (bindingState : RuntimeBindingState F) : RuntimeBindingState F :=
  if map.isValidAction binding.action then nextState inputState frameSeconds binding bindingState
  else bindingState

/-- **The states**: a round changes the state of its own binding only. -/
theorem loopTo_states (hw : map.WellFormed) (inputState : InputState F) (frameSeconds : F)
    (count : Nat) {i : Nat} {binding : ActionBinding F} {bindingState : RuntimeBindingState F}
    (hb : map.bindings[i]? = some binding) (hs : map.bindingStates[i]? = some bindingState) :
    (map.loopTo inputState frameSeconds count).1.bindingStates[i]? =
      some (if i < count then map.stepState inputState frameSeconds binding bindingState
        else bindingState) := by
  induction count with
  | zero => simpa using hs
  | succ count ih =>
    obtain ⟨hbindings, hkinds, hwf⟩ := map.loopTo_frame hw inputState frameSeconds count
    have hsame : ∀ action, (map.loopTo inputState frameSeconds count).1.isValidAction action =
        map.isValidAction action := fun action => by rw [isValidAction, hkinds, isValidAction]
    rw [loopTo_succ]
    cases hround : map.bindings[count]? with
    | none =>
      have hlt : i < count := by
        have := (List.getElem?_eq_some_iff.1 hb).1
        rw [List.getElem?_eq_none_iff] at hround
        omega
      rw [evaluateBinding_none (hbindings ▸ hround), ih, if_pos hlt, if_pos (by omega)]
    | some b =>
      obtain ⟨state, hstate⟩ := hwf.exists_state (hbindings ▸ hround)
      rw [evaluateBinding_some (hbindings ▸ hround) hstate, hsame]
      by_cases hi : i = count
      · subst hi
        obtain rfl := Option.some.inj (hb.symm.trans hround)
        rw [if_neg (Nat.lt_irrefl i)] at ih
        obtain rfl := Option.some.inj (ih.symm.trans hstate)
        rw [if_pos (Nat.lt_succ_self i), stepState]
        split_ifs
        · exact List.getElem?_set_self (List.getElem?_eq_some_iff.1 hstate).1
        · exact hstate
      · rw [if_congr (show i < count + 1 ↔ i < count by omega) rfl rfl, ← ih]
        split_ifs
        · exact List.getElem?_set_ne (Ne.symm hi)
        · rfl

/-! ## What a Tap asks for -/

/-- A `Hold` on the combo whose runtime state says that it has fired. -/
def FiredHold (combo : ActionCombo) (binding : ActionBinding F)
    (bindingState : RuntimeBindingState F) : Prop :=
  binding.gesture.trigger = .hold ∧ areSameCombo binding.combo combo = true ∧
    bindingState.holdFired = true

omit [FloatOps F] in
theorem hasMatchingHoldFired_iff {i : Nat} {binding : ActionBinding F}
    (hb : map.bindings[i]? = some binding) :
    map.hasMatchingHoldFired i = true ↔
      ∃ j hold holdState, j ≠ i ∧ map.bindings[j]? = some hold ∧
        map.bindingStates[j]? = some holdState ∧ FiredHold binding.combo hold holdState := by
  unfold hasMatchingHoldFired FiredHold
  simp only [hb, List.any_eq_true, List.mem_range, Bool.and_eq_true, decide_eq_true_eq,
    Option.any_eq_true]
  constructor
  · rintro ⟨j, -, ⟨hji, hold, hhold, htrigger, hcombo⟩, holdState, hstate, hfired⟩
    exact ⟨j, hold, holdState, hji, hhold, hstate, htrigger, hcombo, hfired⟩
  · rintro ⟨j, hold, holdState, hji, hhold, hstate, htrigger, hcombo, hfired⟩
    exact ⟨j, (List.getElem?_eq_some_iff.1 hhold).1, ⟨hji, hold, hhold, htrigger, hcombo⟩,
      holdState, hstate, hfired⟩

/-- Whether a matching `Hold` has fired, when the round of the binding comes. -/
def firedAt (map : ActionMap F) (inputState : InputState F) (frameSeconds : F) (i : Nat) : Bool :=
  (map.loopTo inputState frameSeconds i).1.hasMatchingHoldFired i

/-- The rounds in front have stepped the bindings before this one. -/
theorem firedAt_iff (hw : map.WellFormed) {i : Nat} {binding : ActionBinding F}
    (hb : map.bindings[i]? = some binding) :
    map.firedAt inputState frameSeconds i = true ↔
      ∃ j hold holdState, j ≠ i ∧ map.bindings[j]? = some hold ∧
        map.bindingStates[j]? = some holdState ∧
        FiredHold binding.combo hold
          (if j < i then map.stepState inputState frameSeconds hold holdState else holdState) := by
  obtain ⟨hbindings, -, hwf⟩ := map.loopTo_frame hw inputState frameSeconds i
  rw [firedAt, hasMatchingHoldFired_iff (hbindings ▸ hb), hbindings]
  constructor
  · rintro ⟨j, hold, state, hji, hhold, hstate, hfired⟩
    obtain ⟨holdState, hholdState⟩ := hw.exists_state hhold
    have hloop := map.loopTo_states hw inputState frameSeconds i hhold hholdState
    obtain rfl := Option.some.inj (hloop.symm.trans hstate)
    exact ⟨j, hold, holdState, hji, hhold, hholdState, hfired⟩
  · rintro ⟨j, hold, holdState, hji, hhold, hstate, hfired⟩
    exact ⟨j, hold, _, hji, hhold,
      map.loopTo_states hw inputState frameSeconds i hhold hstate, hfired⟩

/-! ## The reports -/

/-- What the round of a binding leaves in the locals of the loop body. -/
def evaluatedAt (map : ActionMap F) (inputState : InputState F) (frameSeconds : F) (i : Nat) :
    Option (ActionBinding F × EvaluatedBinding F) :=
  match map.bindings[i]?, map.bindingStates[i]? with
  | some binding, some bindingState =>
    if map.isValidAction binding.action then
      some (binding, evaluateGesture inputState binding bindingState
        (map.firedAt inputState frameSeconds i) frameSeconds)
    else none
  | _, _ => none

theorem evaluatedAt_eq {i : Nat} {binding : ActionBinding F} {bindingState : RuntimeBindingState F}
    (hb : map.bindings[i]? = some binding) (hs : map.bindingStates[i]? = some bindingState) :
    map.evaluatedAt inputState frameSeconds i =
      if map.isValidAction binding.action then
        some (binding, evaluateGesture inputState binding bindingState
          (map.firedAt inputState frameSeconds i) frameSeconds)
      else none := by
  simp only [evaluatedAt, hb, hs]

theorem evaluatedAt_binding {i : Nat} {evaluated : ActionBinding F × EvaluatedBinding F}
    (h : map.evaluatedAt inputState frameSeconds i = some evaluated) :
    map.bindings[i]? = some evaluated.1 := by
  unfold evaluatedAt at h
  split at h
  · next binding bindingState hb _ =>
    split_ifs at h
    obtain rfl := Option.some.inj h
    exact hb
  · cases h

/-- The reports of the binding, when it is one of the action. -/
def reportOf (action : Nat) (evaluated : Option (ActionBinding F × EvaluatedBinding F))
    (actionState : ActionState F) : ActionState F :=
  match evaluated with
  | some (binding, locals) =>
    if binding.action = action then actionState.report locals else actionState
  | none => actionState

/-- **The reports**: each round adds those of its binding to its action. -/
theorem loopTo_actionStates (hw : map.WellFormed) (inputState : InputState F) (frameSeconds : F)
    (count action : Nat) :
    (map.loopTo inputState frameSeconds count).1.actionStates[action]? =
      (map.actionStates[action]?).map fun actionState =>
        (List.range count).foldl (fun actionState i =>
          reportOf action (map.evaluatedAt inputState frameSeconds i) actionState) actionState := by
  induction count with
  | zero => simp
  | succ count ih =>
    obtain ⟨hbindings, hkinds, hwf⟩ := map.loopTo_frame hw inputState frameSeconds count
    have hsame : ∀ action, (map.loopTo inputState frameSeconds count).1.isValidAction action =
        map.isValidAction action := fun action => by rw [isValidAction, hkinds, isValidAction]
    rw [loopTo_succ]
    simp only [List.range_succ, List.foldl_append, List.foldl_cons, List.foldl_nil]
    cases hround : map.bindings[count]? with
    | none =>
      rw [evaluateBinding_none (hbindings ▸ hround), ih]
      simp [evaluatedAt, hround, reportOf]
    | some b =>
      obtain ⟨state, hstate⟩ := hw.exists_state hround
      have hloop := map.loopTo_states hw inputState frameSeconds count hround hstate
      rw [if_neg (Nat.lt_irrefl count)] at hloop
      rw [evaluateBinding_some (hbindings ▸ hround) hloop, hsame]
      rw [evaluatedAt_eq hround hstate]
      split_ifs with hvalid
      · dsimp only [reportOf]
        by_cases haction : b.action = action
        · subst haction
          rw [List.getElem?_modify_eq, ih, Option.map_eq_map, Option.map_map]
          simp only [Function.comp_def, firedAt, if_true]
          rfl
        · rw [List.getElem?_modify_ne _ _ haction, ih]
          simp only [if_neg haction]
          rfl
      · rw [ih]
        rfl

/-- Some binding of the action, of those at the given places, makes the report. -/
def someReports (map : ActionMap F) (inputState : InputState F) (frameSeconds : F) (action : Nat)
    (l : List Nat) (report : EvaluatedBinding F → Bool) : Bool :=
  l.any fun i => (map.evaluatedAt inputState frameSeconds i).any fun evaluated =>
    evaluated.1.action = action && report evaluated.2

/-- The loop adds the reports of its bindings to those there were. -/
theorem foldl_reportOf (map : ActionMap F) (inputState : InputState F) (frameSeconds : F)
    (action : Nat) (l : List Nat) (actionState : ActionState F) :
    (l.foldl (fun actionState i =>
      reportOf action (map.evaluatedAt inputState frameSeconds i) actionState) actionState).reports =
      (actionState.down || map.someReports inputState frameSeconds action l (·.down),
        actionState.pressed || map.someReports inputState frameSeconds action l (·.pressed),
        actionState.released || map.someReports inputState frameSeconds action l (·.released)) := by
  induction l generalizing actionState with
  | nil => simp [ActionState.reports, someReports]
  | cons i l ih =>
    rw [List.foldl_cons, ih]
    cases hevaluated : map.evaluatedAt inputState frameSeconds i with
    | none => simp [reportOf, someReports, hevaluated]
    | some evaluated =>
      by_cases haction : evaluated.1.action = action
      · simp [reportOf, ActionState.report, someReports, hevaluated, haction, Bool.or_assoc]
      · simp [reportOf, someReports, hevaluated, haction]

/-! ## The frame -/

/-- `deltaSeconds`, unless it is negative. -/
def frameSecondsOf (deltaSeconds : F) : F :=
  if FloatOps.lt FloatOps.zero deltaSeconds then deltaSeconds else FloatOps.zero

theorem evaluate_eq (map : ActionMap F) (inputState : InputState F) (deltaSeconds : F) :
    map.evaluate inputState deltaSeconds =
      let loop := (map.recordChanges inputState).loopTo inputState (frameSecondsOf deltaSeconds)
        (map.recordChanges inputState).bindings.length
      loop.1.evaluateValues loop.2 := rfl

omit [FloatOps F] in
theorem recordBinding_state {progress : ActionMap F × UInt64} {i : Nat}
    {binding : ActionBinding F} (hb : progress.1.bindings[i]? = some binding)
    (htrigger : binding.gesture.trigger ≠ .value) (activation : Input.InputActivation F) (j : Nat) :
    (recordBinding activation progress j).1.bindingStates[i]? = progress.1.bindingStates[i]? := by
  obtain ⟨current, sequence⟩ := progress
  unfold recordBinding
  dsimp only at hb ⊢
  by_cases hij : j = i
  · subst hij
    simp [hb, htrigger]
  · cases current.bindings[j]? with
    | none => rfl
    | some other =>
      dsimp only
      split_ifs <;> first | rfl | exact List.getElem?_modify_ne _ _ hij

omit [FloatOps F] in
theorem recordActivation_state {i : Nat} {binding : ActionBinding F}
    (hb : map.bindings[i]? = some binding) (htrigger : binding.gesture.trigger ≠ .value)
    (activation : Input.InputActivation F) :
    (map.recordActivation activation).bindingStates[i]? = map.bindingStates[i]? := by
  refine (List.foldlRecOn (motive := fun progress : ActionMap F × UInt64 =>
    progress.1.bindings[i]? = some binding ∧
      progress.1.bindingStates[i]? = map.bindingStates[i]?) _ (recordBinding activation)
    ⟨hb, rfl⟩ fun progress h j _ => ?_).2
  exact ⟨(recordBinding_same activation progress j).bindings ▸ h.1,
    (recordBinding_state h.1 htrigger activation j).trans h.2⟩

omit [FloatOps F] in
theorem recordMouse_state {i : Nat} {binding : ActionBinding F}
    (hb : map.bindings[i]? = some binding) (htrigger : binding.gesture.trigger ≠ .value)
    (inputState : InputState F) (j : Nat) :
    (recordMouse inputState map j).bindingStates[i]? = map.bindingStates[i]? := by
  unfold recordMouse
  by_cases hij : j = i
  · subst hij
    simp [hb, htrigger]
  · cases map.bindings[j]? with
    | none => rfl
    | some other =>
      dsimp only
      split_ifs <;> first | rfl | exact List.getElem?_modify_ne _ _ hij

/-- The change order of the values leaves the state of every other binding as it is. -/
theorem recordChanges_state {i : Nat} {binding : ActionBinding F}
    (hb : map.bindings[i]? = some binding) (htrigger : binding.gesture.trigger ≠ .value)
    (inputState : InputState F) :
    (map.recordChanges inputState).bindingStates[i]? = map.bindingStates[i]? := by
  have hactivations : (inputState.activations.foldl recordActivation
        (map.copyInputSnapshot inputState)).bindings[i]? = some binding ∧
      (inputState.activations.foldl recordActivation
        (map.copyInputSnapshot inputState)).bindingStates[i]? = map.bindingStates[i]? :=
    List.foldlRecOn (motive := fun current : ActionMap F => current.bindings[i]? = some binding ∧
      current.bindingStates[i]? = map.bindingStates[i]?) inputState.activations recordActivation
      ⟨hb, rfl⟩ fun current h activation _ =>
        ⟨(recordActivation_same current activation).bindings ▸ h.1,
          (recordActivation_state h.1 htrigger activation).trans h.2⟩
  exact (List.foldlRecOn (motive := fun current : ActionMap F =>
      current.bindings[i]? = some binding ∧ current.bindingStates[i]? = map.bindingStates[i]?) _
    (recordMouse inputState) hactivations fun current h j _ =>
      ⟨(recordMouse_same current j).bindings ▸ h.1,
        (recordMouse_state h.1 htrigger inputState j).trans h.2⟩).2

/-- **The states after a frame.** -/
theorem evaluate_states (hw : map.WellFormed) {i : Nat} {binding : ActionBinding F}
    {bindingState : RuntimeBindingState F} (hb : map.bindings[i]? = some binding)
    (htrigger : binding.gesture.trigger ≠ .value)
    (hs : map.bindingStates[i]? = some bindingState) (inputState : InputState F)
    (deltaSeconds : F) :
    (map.evaluate inputState deltaSeconds).bindingStates[i]? =
      some (map.stepState inputState (frameSecondsOf deltaSeconds) binding bindingState) := by
  obtain hsame := recordChanges_same map inputState
  have hrecorded := (recordChanges_state hb htrigger inputState).trans hs
  have hbinding : (map.recordChanges inputState).bindings[i]? = some binding :=
    hsame.bindings ▸ hb
  have hlt := (List.getElem?_eq_some_iff.1 hbinding).1
  have hloop := loopTo_states (hsame.wellFormed hw) inputState (frameSecondsOf deltaSeconds)
    (map.recordChanges inputState).bindings.length hbinding hrecorded
  rw [if_pos hlt, stepState, isValidAction, hsame.kinds] at hloop
  exact hloop

theorem evaluate_kinds (hw : map.WellFormed) (inputState : InputState F) (deltaSeconds : F) :
    (map.evaluate inputState deltaSeconds).actionKinds = map.actionKinds := by
  have hsame := recordChanges_same map inputState
  obtain ⟨-, hkinds, -⟩ := loopTo_frame (hsame.wellFormed hw) inputState
    (frameSecondsOf deltaSeconds) (map.recordChanges inputState).bindings.length
  exact hkinds.trans hsame.kinds

/-- **The reports of a button action after a frame** that begins with no reports. -/
theorem evaluate_reports (hw : map.WellFormed) {action : Nat}
    (hkind : map.actionKinds[action]? = some .button) {actionState : ActionState F}
    (ha : map.actionStates[action]? = some actionState)
    (hclear : actionState.reports = (false, false, false)) (inputState : InputState F)
    (deltaSeconds : F) :
    let recorded := map.recordChanges inputState
    let someReport := recorded.someReports inputState (frameSecondsOf deltaSeconds) action
      (List.range recorded.bindings.length)
    ((map.evaluate inputState deltaSeconds).actionStates[action]?).map ActionState.reports =
      some (someReport (·.down), someReport (·.pressed), someReport (·.released)) := by
  have hsame := recordChanges_same map inputState
  have hwf := hsame.wellFormed hw
  obtain ⟨-, hkinds, -⟩ := loopTo_frame hwf inputState (frameSecondsOf deltaSeconds)
    (map.recordChanges inputState).bindings.length
  dsimp only
  rw [evaluate_eq]
  dsimp only
  rw [evaluateValues_reports _ _ (by rw [hkinds, hsame.kinds, hkind]), loopTo_actionStates hwf,
    hsame.actionStates, ha]
  simp only [ActionState.reports, Prod.mk.injEq] at hclear
  rw [Option.map_some, Option.map_some, foldl_reportOf, hclear.1, hclear.2.1, hclear.2.2]
  simp

end ActionMap

end Action

import GameWIP.Action.ActionMap

/-!
# Adding and removing bindings

The checked ways to change the bindings of an `ActionMap` (`action/internal/action_map.inl`,
`action_helpers.inl`): `addBinding`, `applyCapturedBinding`, `clearBindings` and `clearAllBindings`,
with the validation both of the adding functions run first. `clearBindingsInPlace` is the loop of
`clearBindings` as the source has it, erasing from both vectors.
-/

namespace Action

open Input (InputState InputControl isButtonControl)

inductive ActionResult where
  | success
  | invalidAction
  | invalidControl
  | invalidBinding
  | invalidSettings
  | duplicateBinding
  | conflictingBinding
  deriving DecidableEq, Repr

inductive RebindResult where
  | none
  | collecting
  | captured
  | canceled
  | invalidAction
  | invalidControl
  | invalidBinding
  deriving DecidableEq, Repr

/-- `std::isfinite`. -/
class FloatFinite (F : Type*) where
  isFinite : F → Bool

instance : FloatFinite Int where
  isFinite _ := true

/-! ## Helpers -/

def isKeyboardNoneControl (control : InputControl) : Bool :=
  control.deviceType = .keyboard && control.deviceIndex = 0 && control.controlType = .button &&
    control.controlCode = 0

def isValidControl (control : InputControl) : Bool := !isKeyboardNoneControl control

def containsControl (controls : List InputControl) (control : InputControl) : Bool :=
  decide (control ∈ controls)

def hasDuplicateControls : List InputControl → Bool
  | [] => false
  | control :: controls => containsControl controls control || hasDuplicateControls controls

section
variable {F : Type*} [FloatOps F]

def isBindingCompatibleWithActionKind (kind : ActionKind) (binding : ActionBinding F) : Bool :=
  match kind with
  | .button => binding.gesture.trigger ≠ .value && binding.valueMapping.component = .scalar
  | .axis1D => binding.gesture.trigger = .value && binding.valueMapping.component = .scalar
  | .axis2D => binding.gesture.trigger = .value && binding.valueMapping.component ≠ .scalar

def areSameGesture (left right : ActionGesture F) : Bool :=
  left.trigger = right.trigger && FloatOps.eq left.holdSeconds right.holdSeconds &&
    FloatOps.eq left.doubleTapSeconds right.doubleTapSeconds

def areSameValueMapping (left right : ActionValueMapping F) : Bool :=
  left.component = right.component && FloatOps.eq left.scale right.scale &&
    FloatOps.eq left.threshold right.threshold

def areSameBinding (left right : ActionBinding F) : Bool :=
  left.action = right.action && areSameCombo left.combo right.combo &&
    areSameGesture left.gesture right.gesture &&
    areSameValueMapping left.valueMapping right.valueMapping

def hasBindingConflict (left right : ActionBinding F) : Bool :=
  left.action ≠ right.action && areSameCombo left.combo right.combo &&
    areSameGesture left.gesture right.gesture

/-- The last loop of `validateBinding`: a duplicate ends it, a conflict is remembered. -/
def compareBindings (binding : ActionBinding F) (ignoreSameActionBindings : Bool)
    (result : ActionResult) : List (ActionBinding F) → ActionResult
  | [] => result
  | existingBinding :: bindings =>
    if ignoreSameActionBindings && existingBinding.action = binding.action then
      compareBindings binding ignoreSameActionBindings result bindings
    else if areSameBinding existingBinding binding then .duplicateBinding
    else
      compareBindings binding ignoreSameActionBindings
        (if hasBindingConflict existingBinding binding then .conflictingBinding else result)
        bindings

variable [FloatFinite F]

def isValidActionSettings (settings : ActionSettings F) : Bool :=
  FloatFinite.isFinite settings.innerDeadzone && FloatFinite.isFinite settings.outerDeadzone &&
    FloatFinite.isFinite settings.sensitivity && FloatFinite.isFinite settings.curveExponent &&
    FloatFinite.isFinite settings.activationThreshold &&
    FloatOps.le FloatOps.zero settings.innerDeadzone &&
    FloatOps.le settings.innerDeadzone FloatOps.one &&
    FloatOps.le settings.innerDeadzone settings.outerDeadzone &&
    FloatOps.le settings.outerDeadzone FloatOps.one &&
    FloatOps.le FloatOps.zero settings.sensitivity &&
    FloatOps.lt FloatOps.zero settings.curveExponent &&
    FloatOps.le FloatOps.zero settings.activationThreshold

/-- A duration the gesture compares with must be finite and positive. -/
def isInvalidDuration (seconds : F) : Bool :=
  !FloatFinite.isFinite seconds || FloatOps.le seconds FloatOps.zero

namespace ActionMap

def validateBinding (map : ActionMap F) (binding : ActionBinding F)
    (ignoreSameActionBindings : Bool) : ActionResult :=
  match map.actionKinds[binding.action]? with
  | none => .invalidAction
  | some actionKind =>
    if !isValidControl binding.combo.primaryControl then .invalidControl
    else if !isBindingCompatibleWithActionKind actionKind binding then .invalidBinding
    else if binding.hasCustomSettings &&
        (!isValidActionSettings binding.settings || binding.settings.kind ≠ actionKind) then
      .invalidSettings
    else if binding.gesture.trigger ≠ .value && !isButtonControl binding.combo.primaryControl then
      .invalidControl
    else if !FloatFinite.isFinite binding.valueMapping.scale ||
        !FloatFinite.isFinite binding.valueMapping.threshold ||
        FloatOps.lt binding.valueMapping.threshold FloatOps.zero then
      .invalidBinding
    else if binding.combo.modifiers.any fun modifier =>
        !isValidControl modifier || !isButtonControl modifier then
      .invalidControl
    else if containsControl binding.combo.modifiers binding.combo.primaryControl ||
        hasDuplicateControls binding.combo.modifiers then
      .invalidBinding
    else if (binding.gesture.trigger = .hold && isInvalidDuration binding.gesture.holdSeconds) ||
        (binding.gesture.trigger = .doubleTap &&
          isInvalidDuration binding.gesture.doubleTapSeconds) then
      .invalidBinding
    else compareBindings binding ignoreSameActionBindings .success map.bindings

end ActionMap

end

namespace ActionMap

variable {F : Type*} [FloatOps F] [FloatFinite F]

def addBinding (map : ActionMap F) (binding : ActionBinding F) : ActionResult × ActionMap F :=
  let result := map.validateBinding binding false
  if result ≠ .success && result ≠ .conflictingBinding then (result, map)
  else (result, map.addBindingUnchecked binding)

end ActionMap

/-- The loop of `clearBindings`: the entry at `bindingIndex` is erased from both vectors, or
passed. -/
def eraseBindingsFrom {F : Type*} (action : Nat) (bindings : List (ActionBinding F))
    (bindingStates : List (RuntimeBindingState F)) (bindingIndex : Nat) :
    List (ActionBinding F) × List (RuntimeBindingState F) :=
  if hlt : bindingIndex < bindings.length then
    if (bindings.get ⟨bindingIndex, hlt⟩).action = action then
      eraseBindingsFrom action (bindings.eraseIdx bindingIndex)
        (bindingStates.eraseIdx bindingIndex) bindingIndex
    else eraseBindingsFrom action bindings bindingStates (bindingIndex + 1)
  else (bindings, bindingStates)
termination_by bindings.length - bindingIndex
decreasing_by
  · rw [List.length_eraseIdx_of_lt hlt]
    omega
  · omega

/-- What the capture of a rebinding found, as far as applying it is concerned. -/
structure ActionRebindCapture (F : Type*) where
  binding : ActionBinding F
  result : RebindResult := .none
  replaceExistingBindings : Bool := true
  deriving DecidableEq, Repr

namespace ActionMap

variable {F : Type*}

def clearBindingsInPlace (map : ActionMap F) (action : Nat) : ActionMap F :=
  if !map.isValidAction action then map
  else
    let (bindings, bindingStates) := eraseBindingsFrom action map.bindings map.bindingStates 0
    { map with bindings, bindingStates }

variable [FloatOps F] [FloatFinite F]

def applyCapturedBinding (map : ActionMap F) (capture : ActionRebindCapture F) :
    ActionResult × ActionMap F :=
  if capture.result ≠ .captured then (.invalidBinding, map)
  else
    let result := map.validateBinding capture.binding capture.replaceExistingBindings
    if result ≠ .success && result ≠ .conflictingBinding then (result, map)
    else
      let map :=
        if capture.replaceExistingBindings then map.clearBindingsInPlace capture.binding.action
        else map
      (result, map.addBindingUnchecked capture.binding)

end ActionMap

/-! ## Runs -/

/-- What changes the bindings of a map or their runtime states. -/
inductive BindingOperation (F : Type*) where
  | resize (actionCount : Nat)
  | defineAction (action : Nat) (kind : ActionKind)
  | addBinding (binding : ActionBinding F)
  | applyCapturedBinding (capture : ActionRebindCapture F)
  | clearBindings (action : Nat)
  | clearAllBindings
  | advanceFrame
  | evaluate (inputState : InputState F) (deltaSeconds : F)

section
variable {F : Type*} [FloatOps F] [FloatFinite F]

/-- What the adding operations return, and the map after the operation. -/
def ActionMap.change (map : ActionMap F) :
    BindingOperation F → Option ActionResult × ActionMap F
  | .resize actionCount => (none, map.resize actionCount)
  | .defineAction action kind => (none, map.defineAction action kind)
  | .addBinding binding =>
    let (result, map) := map.addBinding binding
    (some result, map)
  | .applyCapturedBinding capture =>
    let (result, map) := map.applyCapturedBinding capture
    (some result, map)
  | .clearBindings action => (none, map.clearBindingsInPlace action)
  | .clearAllBindings => (none, map.clearAllBindings)
  | .advanceFrame => (none, map.advanceFrame)
  | .evaluate inputState deltaSeconds => (none, map.evaluate inputState deltaSeconds)

end

end Action

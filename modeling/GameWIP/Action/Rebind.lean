import GameWIP.Action.Bindings

/-!
# Capturing a binding from player input

`beginBindingCapture`, `updateBindingCapture` and `captureBinding` of `ActionMap`
(`action/internal/action_map.inl`, `action_helpers.inl`). A session collects controls over frames;
each call of `updateBindingCapture` reads the activations of one frame in order and returns at the
first that settles the capture. All three build their binding with `buildRebindCapture`, which
validates it as `applyCapturedBinding` will.
-/

namespace Action

open Input (InputState InputControl InputActivation InputDeviceRef isButtonControl)

/-- Controls which held buttons are captured as rebinding modifiers. -/
inductive RebindModifierMode where
  | none
  | keyboardModifiersOnly
  | allHeldButtons
  deriving DecidableEq, Repr

/-- Controls when a rebind capture is completed. -/
inductive RebindCompletionMode where
  | onActivation
  | onRelease
  deriving DecidableEq, Repr

/-- Controls how analog axes are converted into captured bindings. -/
inductive AxisCaptureMode where
  | fullAxis
  | directionalAxis
  deriving DecidableEq, Repr

structure ActionRebindOptions (F : Type*) where
  trigger : ActionTrigger
  component : ActionComponent
  scale : F
  threshold : F
  holdSeconds : F
  doubleTapSeconds : F
  activationMode : ComboActivationMode
  modifierMode : RebindModifierMode
  completionMode : RebindCompletionMode
  axisCaptureMode : AxisCaptureMode
  deviceFilter : InputDeviceRef
  hasDeviceFilter : Bool
  axisActivationThreshold : F
  axisNoiseThreshold : F
  settings : ActionSettings F
  hasCustomSettings : Bool
  replaceExistingBindings : Bool
  deriving DecidableEq, Repr

/-- `ActionRebindCapture` with the fields that applying it does not read. -/
structure ActionRebindOutput (F : Type*) extends ActionRebindCapture F where
  action : Nat
  activation : InputActivation F
  deriving DecidableEq, Repr

structure ActionRebindSession (F : Type*) where
  action : Nat
  options : ActionRebindOptions F
  controls : List InputControl := []
  primaryControl : InputControl := {}
  activation : InputActivation F
  active : Bool := false
  hasPrimaryControl : Bool := false
  deriving DecidableEq, Repr

/-! ## Helpers -/

/-- The codes of the Control, Shift, Alt and Super keys. -/
def keyboardModifierCodes : List Input.ControlCode :=
  [0xE0, 0xE4, 0xE1, 0xE5, 0xE2, 0xE6, 0xE3, 0xE7]

def isKeyboardModifier (control : InputControl) : Bool :=
  if control.deviceType ≠ .keyboard || control.deviceIndex ≠ 0 || control.controlType ≠ .button then
    false
  else keyboardModifierCodes.contains control.controlCode

def addUniqueControl (controls : List InputControl) (control : InputControl) : List InputControl :=
  if !containsControl controls control then controls ++ [control] else controls

def shouldCaptureModifier (modifier primaryControl : InputControl)
    (modifierMode : RebindModifierMode) (cancelControls ignoredControls : List InputControl) :
    Bool :=
  if modifierMode = .none || modifier = primaryControl || !isButtonControl modifier ||
      containsControl cancelControls modifier || containsControl ignoredControls modifier then
    false
  else if modifierMode = .keyboardModifiersOnly then isKeyboardModifier modifier
  else true

section
variable {F : Type*}

def isCaptureActivation (activation : InputActivation F) : Bool :=
  match activation.activationType with
  | .buttonPressed | .axisPositive | .axisNegative | .axisChanged | .wheelPositive
  | .wheelNegative => true
  | .buttonReleased => false

def isButtonPressActivation (activation : InputActivation F) : Bool :=
  activation.activationType = .buttonPressed

def isButtonReleaseActivation (activation : InputActivation F) : Bool :=
  activation.activationType = .buttonReleased

def isAxisActivation (activation : InputActivation F) : Bool :=
  activation.control.controlType = .axis &&
    (activation.activationType = .axisPositive || activation.activationType = .axisNegative ||
      activation.activationType = .axisChanged)

def isAllowedCaptureDevice (activation : InputActivation F) (options : ActionRebindOptions F) :
    Bool :=
  !options.hasDeviceFilter || activation.control.deviceType = options.deviceFilter.deviceType &&
    activation.control.deviceIndex = options.deviceFilter.deviceIndex

variable [FloatOps F]

def passesAxisCaptureThresholds (activation : InputActivation F)
    (options : ActionRebindOptions F) : Bool :=
  if !isAxisActivation activation then true
  else
    let movement := FloatOps.sub activation.value activation.previousValue
    FloatOps.le options.axisActivationThreshold (absoluteValue activation.value) &&
      FloatOps.le options.axisNoiseThreshold (absoluteValue movement)

def isAllowedCaptureActivation (activation : InputActivation F)
    (options : ActionRebindOptions F) : Bool :=
  isCaptureActivation activation && isAllowedCaptureDevice activation options &&
    passesAxisCaptureThresholds activation options

/-! ## Default values -/

/-- `InputActivation{}`. -/
def defaultActivation : InputActivation F where
  control := {}
  activationType := .buttonPressed
  value := FloatOps.zero
  previousValue := FloatOps.zero

/-- `ActionBinding{}`. -/
def defaultBinding : ActionBinding F where
  action := 0
  combo := { primaryControl := {} }
  gesture := { trigger := .pressed, holdSeconds := FloatOps.zero, doubleTapSeconds := FloatOps.zero }
  valueMapping := { component := .scalar, scale := FloatOps.one, threshold := FloatOps.zero }
  settings := defaultSettings .button
  hasCustomSettings := false

/-- `ActionRebindCapture{}`. -/
def emptyCapture : ActionRebindOutput F where
  binding := defaultBinding
  action := 0
  activation := defaultActivation

end

/-! ## Building the capture -/

section
variable {F : Type*} [FloatOps F]

/-- The scale of the captured binding: with the sign of the movement of a directional axis. -/
def captureScale (activation : InputActivation F) (primaryControl : InputControl)
    (options : ActionRebindOptions F) : F :=
  if options.axisCaptureMode = .directionalAxis && primaryControl.controlType = .axis then
    let movement := FloatOps.sub activation.value activation.previousValue
    let direction :=
      if FloatOps.lt movement FloatOps.zero ||
          FloatOps.eq movement FloatOps.zero && FloatOps.lt activation.value FloatOps.zero then
        FloatOps.neg FloatOps.one
      else FloatOps.one
    FloatOps.mul options.scale direction
  else options.scale

/-- The loop over the candidates. -/
def captureModifiers (primaryControl : InputControl) (modifierMode : RebindModifierMode)
    (cancelControls ignoredControls modifierCandidates : List InputControl) : List InputControl :=
  modifierCandidates.foldl (fun modifiers modifier =>
    if shouldCaptureModifier modifier primaryControl modifierMode cancelControls ignoredControls then
      addUniqueControl modifiers modifier
    else modifiers) []

/-- The binding that a capture proposes. -/
def captureCandidate (action : Nat) (activation : InputActivation F)
    (primaryControl : InputControl) (modifierCandidates : List InputControl)
    (options : ActionRebindOptions F) (cancelControls ignoredControls : List InputControl) :
    ActionBinding F where
  action
  combo :=
    { primaryControl
      modifiers := captureModifiers primaryControl options.modifierMode cancelControls
        ignoredControls modifierCandidates
      activationMode := options.activationMode }
  gesture :=
    { trigger := options.trigger
      holdSeconds := options.holdSeconds
      doubleTapSeconds := options.doubleTapSeconds }
  valueMapping :=
    { component := options.component
      scale := captureScale activation primaryControl options
      threshold := options.threshold }
  settings := options.settings
  hasCustomSettings := options.hasCustomSettings

end

namespace ActionMap

variable {F : Type*} [FloatOps F] [FloatFinite F]

def buildRebindCapture (map : ActionMap F) (action : Nat) (activation : InputActivation F)
    (primaryControl : InputControl) (modifierCandidates : List InputControl)
    (options : ActionRebindOptions F) (cancelControls ignoredControls : List InputControl) :
    ActionRebindOutput F :=
  let outCapture : ActionRebindOutput F :=
    { emptyCapture with
      action, replaceExistingBindings := options.replaceExistingBindings }
  if !map.isValidAction action then { outCapture with result := .invalidAction }
  else if !isValidControl primaryControl then { outCapture with result := .invalidControl }
  else
    let binding := captureCandidate action activation primaryControl modifierCandidates options
      cancelControls ignoredControls
    match map.validateBinding binding options.replaceExistingBindings with
    | .invalidAction => { outCapture with result := .invalidAction }
    | .invalidControl => { outCapture with result := .invalidControl }
    | .invalidBinding | .invalidSettings => { outCapture with result := .invalidBinding }
    | .success | .duplicateBinding | .conflictingBinding =>
      { outCapture with binding, activation, result := .captured }

/-! ## Sessions -/

/-- What a call returns, with the session and the capture it leaves. -/
structure CaptureCall (F : Type*) where
  result : RebindResult
  session : ActionRebindSession F
  capture : ActionRebindOutput F
  deriving DecidableEq, Repr

def beginBindingCapture (map : ActionMap F) (action : Nat) (options : ActionRebindOptions F) :
    CaptureCall F :=
  let session : ActionRebindSession F := { action, options, activation := defaultActivation }
  if !map.isValidAction action then
    { result := .invalidAction, session, capture := emptyCapture }
  else
    { result := .collecting, session := { session with active := true }, capture := emptyCapture }

/-- Returns without a capture. -/
def CaptureCall.stop (result : RebindResult) (session : ActionRebindSession F) : CaptureCall F where
  result
  session := { session with active := false }
  capture := emptyCapture

/-- Returns the capture that was built. -/
def CaptureCall.finish (session : ActionRebindSession F) (capture : ActionRebindOutput F) :
    CaptureCall F where
  result := capture.result
  session := { session with active := capture.result = .collecting }
  capture

/-- The loop over the activations of a frame. -/
def collectActivations (map : ActionMap F) (inputState : InputState F)
    (cancelControls ignoredControls : List InputControl) (session : ActionRebindSession F) :
    List (InputActivation F) → CaptureCall F
  | [] => { result := .collecting, session, capture := emptyCapture }
  | activation :: activations =>
    let build := fun activation primaryControl candidates =>
      map.buildRebindCapture session.action activation primaryControl candidates session.options
        cancelControls ignoredControls
    if containsControl cancelControls activation.control then .stop .canceled session
    else if containsControl ignoredControls activation.control then
      map.collectActivations inputState cancelControls ignoredControls session activations
    else if session.options.completionMode = .onActivation then
      if !isAllowedCaptureActivation activation session.options then
        map.collectActivations inputState cancelControls ignoredControls session activations
      else .finish session (build activation activation.control inputState.currentButtons)
    else if isAllowedCaptureActivation activation session.options then
      if !isValidControl activation.control then .stop .invalidControl session
      else if isButtonPressActivation activation then
        map.collectActivations inputState cancelControls ignoredControls
          { session with
            controls := addUniqueControl session.controls activation.control
            primaryControl := activation.control
            activation
            hasPrimaryControl := true } activations
      else .finish session (build activation activation.control inputState.currentButtons)
    else if isButtonReleaseActivation activation && session.hasPrimaryControl &&
        containsControl session.controls activation.control then
      .finish session (build session.activation session.primaryControl session.controls)
    else map.collectActivations inputState cancelControls ignoredControls session activations

def updateBindingCapture (map : ActionMap F) (inputState : InputState F)
    (session : ActionRebindSession F) (cancelControls ignoredControls : List InputControl) :
    CaptureCall F :=
  if !session.active then { result := .none, session, capture := emptyCapture }
  else if !map.isValidAction session.action then .stop .invalidAction session
  else
    map.collectActivations inputState cancelControls ignoredControls session inputState.activations

/-- One frame of a capture; every call is enabled. -/
def captureStep (map : ActionMap F) (cancelControls ignoredControls : List InputControl)
    (call : CaptureCall F) (inputState : InputState F) : Option (CaptureCall F) :=
  some (map.updateBindingCapture inputState call.session cancelControls ignoredControls)

/-! ## Single captures -/

/-- The loop over the activations from the last one back, with the best axis so far. -/
def captureLatest (map : ActionMap F) (action : Nat) (inputState : InputState F)
    (options : ActionRebindOptions F) (cancelControls ignoredControls : List InputControl)
    (bestAxisActivation : Option (InputActivation F)) (bestAxisMovement : F) :
    List (InputActivation F) → ActionRebindOutput F
  | [] =>
    match bestAxisActivation with
    | some best =>
      map.buildRebindCapture action best best.control inputState.currentButtons options
        cancelControls ignoredControls
    | none => { emptyCapture with result := .none }
  | activation :: earlier =>
    if containsControl cancelControls activation.control then
      { emptyCapture with result := .canceled }
    else if containsControl ignoredControls activation.control ||
        !isAllowedCaptureActivation activation options then
      map.captureLatest action inputState options cancelControls ignoredControls
        bestAxisActivation bestAxisMovement earlier
    else if isAxisActivation activation then
      let movementMagnitude :=
        absoluteValue (FloatOps.sub activation.value activation.previousValue)
      if FloatOps.lt bestAxisMovement movementMagnitude then
        map.captureLatest action inputState options cancelControls ignoredControls
          (some activation) movementMagnitude earlier
      else
        map.captureLatest action inputState options cancelControls ignoredControls
          bestAxisActivation bestAxisMovement earlier
    else
      map.buildRebindCapture action activation activation.control inputState.currentButtons options
        cancelControls ignoredControls

def captureBinding (map : ActionMap F) (action : Nat) (inputState : InputState F)
    (options : ActionRebindOptions F) (cancelControls ignoredControls : List InputControl) :
    ActionRebindOutput F :=
  if !map.isValidAction action then { emptyCapture with result := .invalidAction }
  else
    map.captureLatest action inputState options cancelControls ignoredControls none
      (FloatOps.neg FloatOps.one) inputState.activations.reverse

end ActionMap

end Action

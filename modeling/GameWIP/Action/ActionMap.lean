import GameWIP.Input.State

/-!
# The action map

`ActionMap` of the action library (`action/internal/action_map.inl`, `action_helpers.inl`): the
bindings of physical controls to actions and their evaluation, one frame at a time. An action is
its index in the map.

`evaluate` is a sequence of passes, each a fold over the bindings or what the pass in front left:
the change order of the value sources (`recordActivations`, `recordMouse`), the gestures
(`evaluateBinding`), the values (`evaluateBucket`) and the value actions (`finishAction`).
-/

namespace Action

open Input (InputState InputControl InputActivation InputDeviceType DeviceIndex)

inductive ActionKind where
  | button
  | axis1D
  | axis2D
  deriving DecidableEq, Repr

inductive ActionTrigger where
  | pressed
  | released
  | down
  | hold
  | tap
  | doubleTap
  | value
  deriving DecidableEq, Repr

inductive ActionComponent where
  | scalar
  | x
  | y
  deriving DecidableEq, Repr

inductive ComboActivationMode where
  | primaryLast
  | anyOrder
  deriving DecidableEq, Repr

inductive DeadzoneMode where
  | none
  | axial
  | radial
  deriving DecidableEq, Repr

structure ActionSettings (F : Type*) where
  kind : ActionKind
  clampValue : Bool
  normalizeDiagonal : Bool
  deadzoneMode : DeadzoneMode
  innerDeadzone : F
  outerDeadzone : F
  sensitivity : F
  curveExponent : F
  invert : Bool
  invertX : Bool
  invertY : Bool
  activationThreshold : F
  deriving DecidableEq, Repr

structure ActionCombo where
  primaryControl : InputControl
  modifiers : List InputControl := []
  activationMode : ComboActivationMode := .primaryLast
  deriving DecidableEq, Repr

structure ActionGesture (F : Type*) where
  trigger : ActionTrigger
  holdSeconds : F
  doubleTapSeconds : F
  deriving DecidableEq, Repr

structure ActionValueMapping (F : Type*) where
  component : ActionComponent
  scale : F
  threshold : F
  deriving DecidableEq, Repr

structure ActionBinding (F : Type*) where
  action : Nat
  combo : ActionCombo
  gesture : ActionGesture F
  valueMapping : ActionValueMapping F
  settings : ActionSettings F
  hasCustomSettings : Bool
  deriving DecidableEq, Repr

structure ActionValue (F : Type*) where
  scalar : F
  x : F
  y : F
  deriving DecidableEq, Repr

structure ActionState (F : Type*) where
  down : Bool
  pressed : Bool
  released : Bool
  valueActive : Bool
  value : ActionValue F
  deriving DecidableEq, Repr

structure RuntimeBindingState (F : Type*) where
  active : Bool
  holdFired : Bool
  heldSeconds : F
  timeSinceLastTap : F
  valueChangeSequence : UInt64
  waitingForSecondTap : Bool
  deriving DecidableEq, Repr

variable {F : Type*}

/-! ## Helpers -/

section

variable [FloatOps F]

def ActionValue.zero : ActionValue F := ⟨FloatOps.zero, FloatOps.zero, FloatOps.zero⟩

/-- A slot as `resize` makes it. -/
def ActionState.initial : ActionState F := ⟨false, false, false, false, .zero⟩

/-- The runtime state of a binding just added. -/
def RuntimeBindingState.initial : RuntimeBindingState F :=
  ⟨false, false, FloatOps.zero, FloatOps.zero, 0, false⟩

/-- The settings with the field defaults of `ActionSettings`. -/
def defaultSettings (kind : ActionKind) : ActionSettings F where
  kind := kind
  clampValue := true
  normalizeDiagonal := false
  deadzoneMode := .none
  innerDeadzone := FloatOps.zero
  outerDeadzone := FloatOps.one
  sensitivity := FloatOps.one
  curveExponent := FloatOps.one
  invert := false
  invertX := false
  invertY := false
  activationThreshold := FloatOps.div FloatOps.one (FloatOps.ofInt 2)

/-- `makeButtonSettings`, `makeAxis1DSettings` and `makeAxis2DSettings` with their default
arguments, which are the field defaults. -/
def makeDefaultSettings (kind : ActionKind) : ActionSettings F := defaultSettings kind

def getBindingSettings (binding : ActionBinding F) (kind : ActionKind) : ActionSettings F :=
  if binding.hasCustomSettings then binding.settings else makeDefaultSettings kind

def areSameActionSettings (left right : ActionSettings F) : Bool :=
  left.kind = right.kind && left.clampValue = right.clampValue &&
    left.normalizeDiagonal = right.normalizeDiagonal && left.deadzoneMode = right.deadzoneMode &&
    FloatOps.eq left.innerDeadzone right.innerDeadzone &&
    FloatOps.eq left.outerDeadzone right.outerDeadzone &&
    FloatOps.eq left.sensitivity right.sensitivity &&
    FloatOps.eq left.curveExponent right.curveExponent && left.invert = right.invert &&
    left.invertX = right.invertX && left.invertY = right.invertY &&
    FloatOps.eq left.activationThreshold right.activationThreshold

structure ValueBucket (F : Type*) where
  action : Nat
  deviceType : InputDeviceType
  deviceIndex : DeviceIndex
  settings : ActionSettings F
  value : ActionValue F
  lastChangeSequence : UInt64

def isSameValueBucket (bucket : ValueBucket F) (action : Nat) (control : InputControl)
    (settings : ActionSettings F) : Bool :=
  bucket.action = action && bucket.deviceType = control.deviceType &&
    bucket.deviceIndex = control.deviceIndex && areSameActionSettings bucket.settings settings

/-- The scaled value added to its component, in a bucket as recent as its latest source. -/
def ValueBucket.add (bucket : ValueBucket F) (binding : ActionBinding F) (value : F)
    (lastChangeSequence : UInt64) : ValueBucket F :=
  let scaledValue := FloatOps.mul value binding.valueMapping.scale
  { bucket with
    lastChangeSequence :=
      if lastChangeSequence > bucket.lastChangeSequence then lastChangeSequence
      else bucket.lastChangeSequence
    value :=
      match binding.valueMapping.component with
      | .scalar => { bucket.value with scalar := FloatOps.add bucket.value.scalar scaledValue }
      | .x => { bucket.value with x := FloatOps.add bucket.value.x scaledValue }
      | .y => { bucket.value with y := FloatOps.add bucket.value.y scaledValue } }

def addValueToBucket (buckets : List (ValueBucket F)) (binding : ActionBinding F)
    (kind : ActionKind) (value : F) (lastChangeSequence : UInt64) : List (ValueBucket F) :=
  let settings := getBindingSettings binding kind
  let control := binding.combo.primaryControl
  let bucket := buckets.findIdx fun candidate =>
    isSameValueBucket candidate binding.action control settings
  let buckets :=
    if bucket = buckets.length then
      buckets ++ [{ action := binding.action
                    deviceType := control.deviceType
                    deviceIndex := control.deviceIndex
                    settings
                    value := .zero
                    lastChangeSequence := 0 }]
    else buckets
  buckets.modify bucket fun found => found.add binding value lastChangeSequence

def haveSameModifierSet (left right : List InputControl) : Bool :=
  left.length = right.length && left.all fun modifier => decide (modifier ∈ right)

def areSameCombo (left right : ActionCombo) : Bool :=
  left.primaryControl = right.primaryControl && left.activationMode = right.activationMode &&
    haveSameModifierSet left.modifiers right.modifiers

def areModifiersDown (inputState : InputState F) (combo : ActionCombo) : Bool :=
  combo.modifiers.all fun modifier => inputState.isButtonDown modifier

def isComboDown (inputState : InputState F) (combo : ActionCombo) : Bool :=
  inputState.isButtonDown combo.primaryControl && areModifiersDown inputState combo

def wasPrimaryPressed (inputState : InputState F) (combo : ActionCombo) : Bool :=
  inputState.wasButtonPressed combo.primaryControl && areModifiersDown inputState combo

def absoluteValue (value : F) : F :=
  if FloatOps.lt value FloatOps.zero then FloatOps.neg value else value

def clamp (value minimum maximum : F) : F :=
  if FloatOps.lt value minimum then minimum
  else if FloatOps.lt maximum value then maximum
  else value

def shouldChooseValueCandidate (currentMagnitude : F) (currentSequence : UInt64)
    (candidateMagnitude : F) (candidateSequence : UInt64) : Bool :=
  if FloatOps.lt currentMagnitude candidateMagnitude then true
  else if FloatOps.lt candidateMagnitude currentMagnitude then false
  else decide (candidateSequence > currentSequence)

def sign (value : F) : F :=
  if FloatOps.lt value FloatOps.zero then FloatOps.neg FloatOps.one else FloatOps.one

def getVectorLength (x y : F) : F :=
  FloatOps.sqrt (FloatOps.add (FloatOps.mul x x) (FloatOps.mul y y))

def passesThreshold (value threshold : F) : Bool := FloatOps.lt threshold (absoluteValue value)

def applyDeadzone1D (value innerDeadzone outerDeadzone : F) : F :=
  let magnitude := absoluteValue value
  let inner := clamp innerDeadzone FloatOps.zero FloatOps.one
  let outer := clamp outerDeadzone inner FloatOps.one
  if FloatOps.le magnitude inner then FloatOps.zero
  else if FloatOps.le outer magnitude then sign value
  else
    FloatOps.mul (sign value)
      (FloatOps.div (FloatOps.sub magnitude inner) (FloatOps.sub outer inner))

def applyAxialDeadzone2D (v : F × F) (innerDeadzone outerDeadzone : F) : F × F :=
  (applyDeadzone1D v.1 innerDeadzone outerDeadzone,
    applyDeadzone1D v.2 innerDeadzone outerDeadzone)

/-- Both components times one factor. -/
def scaleVector (v : F × F) (scale : F) : F × F :=
  (FloatOps.mul v.1 scale, FloatOps.mul v.2 scale)

def applyRadialDeadzone2D (v : F × F) (innerDeadzone outerDeadzone : F) : F × F :=
  let length := getVectorLength v.1 v.2
  let inner := clamp innerDeadzone FloatOps.zero FloatOps.one
  let outer := clamp outerDeadzone inner FloatOps.one
  if FloatOps.le length inner || FloatOps.eq length FloatOps.zero then
    (FloatOps.zero, FloatOps.zero)
  else if FloatOps.le outer length then (FloatOps.div v.1 length, FloatOps.div v.2 length)
  else
    let remappedLength := FloatOps.div (FloatOps.sub length inner) (FloatOps.sub outer inner)
    scaleVector v (FloatOps.div remappedLength length)

def applyCurve1D (value curveExponent : F) : F :=
  let exponent := if FloatOps.lt FloatOps.zero curveExponent then curveExponent else FloatOps.one
  FloatOps.mul (sign value) (FloatOps.pow (absoluteValue value) exponent)

def applyCurve2D (v : F × F) (curveExponent : F) : F × F :=
  let length := getVectorLength v.1 v.2
  if FloatOps.eq length FloatOps.zero then v
  else
    let exponent :=
      if FloatOps.lt FloatOps.zero curveExponent then curveExponent else FloatOps.one
    scaleVector v (FloatOps.div (FloatOps.pow length exponent) length)

def clampVectorLength (v : F × F) (maximumLength : F) : F × F :=
  let length := getVectorLength v.1 v.2
  if FloatOps.le length maximumLength || FloatOps.eq length FloatOps.zero then v
  else scaleVector v (FloatOps.div maximumLength length)

/-- `isMouseAxis`; the mouse axes are `DeltaX` with code 0 and `DeltaY` with code 1. -/
def isMouseAxis (control : InputControl) (axis : Input.ControlCode) : Bool :=
  control.deviceType = .mouse && control.deviceIndex = 0 && control.controlType = .axis &&
    control.controlCode = axis

def getMouseAxisValue (inputState : InputState F) (control : InputControl) : F :=
  if isMouseAxis control 0 then FloatOps.ofInt inputState.mouseDeltaX
  else if isMouseAxis control 1 then FloatOps.ofInt inputState.mouseDeltaY
  else FloatOps.zero

def getControlValue (inputState : InputState F) (control : InputControl) : F :=
  match control.controlType with
  | .button => if inputState.isButtonDown control then FloatOps.one else FloatOps.zero
  | .axis =>
    if control.deviceType = .mouse then getMouseAxisValue inputState control
    else inputState.getAxis control
  | .wheel => inputState.getWheelDelta control

end

/-! ## The map -/

structure ActionMap (F : Type*) where
  actionKinds : List ActionKind
  actionStates : List (ActionState F)
  bindings : List (ActionBinding F)
  bindingStates : List (RuntimeBindingState F)
  textInputUtf8Snapshot : List UInt8
  mouseDeltaXSnapshot : Int
  mouseDeltaYSnapshot : Int
  mouseXSnapshot : Int
  mouseYSnapshot : Int
  verticalWheelDeltaSnapshot : F
  horizontalWheelDeltaSnapshot : F
  valueChangeSequence : UInt64
  mousePositionKnownSnapshot : Bool
  deriving DecidableEq, Repr

namespace ActionMap

variable [FloatOps F]

/-- `vector::resize`: the first entries, filled up with copies of `fill`. -/
def resizeList {α : Type*} (l : List α) (count : Nat) (fill : α) : List α :=
  l.take count ++ List.replicate (count - l.length) fill

def resize (map : ActionMap F) (actionCount : Nat) : ActionMap F :=
  { map with
    actionKinds := resizeList map.actionKinds actionCount .button
    actionStates := resizeList map.actionStates actionCount .initial }

/-- The constructor. -/
def new (actionCount : Nat) : ActionMap F :=
  resize
    { actionKinds := [], actionStates := [], bindings := [], bindingStates := []
      textInputUtf8Snapshot := [], mouseDeltaXSnapshot := 0, mouseDeltaYSnapshot := 0
      mouseXSnapshot := 0, mouseYSnapshot := 0, verticalWheelDeltaSnapshot := FloatOps.zero
      horizontalWheelDeltaSnapshot := FloatOps.zero, valueChangeSequence := 0
      mousePositionKnownSnapshot := false } actionCount

def isValidAction (map : ActionMap F) (action : Nat) : Bool := action < map.actionKinds.length

def defineAction (map : ActionMap F) (action : Nat) (kind : ActionKind) : ActionMap F :=
  if !map.isValidAction action then map
  else { map with actionKinds := map.actionKinds.set action kind }

def addBindingUnchecked (map : ActionMap F) (binding : ActionBinding F) : ActionMap F :=
  { map with
    bindings := map.bindings ++ [binding]
    bindingStates := map.bindingStates ++ [.initial] }

/-- The loop erases the binding and its state at one position after the other. -/
def clearBindings (map : ActionMap F) (action : Nat) : ActionMap F :=
  if !map.isValidAction action then map
  else
    let kept := (map.bindings.zip map.bindingStates).filter fun entry => entry.1.action ≠ action
    { map with bindings := kept.map Prod.fst, bindingStates := kept.map Prod.snd }

def clearAllBindings (map : ActionMap F) : ActionMap F :=
  { map with bindings := [], bindingStates := [] }

def isDown (map : ActionMap F) (action : Nat) : Bool :=
  if !map.isValidAction action then false else (map.actionStates[action]?).any (·.down)

def wasPressed (map : ActionMap F) (action : Nat) : Bool :=
  if !map.isValidAction action then false else (map.actionStates[action]?).any (·.pressed)

def wasReleased (map : ActionMap F) (action : Nat) : Bool :=
  if !map.isValidAction action then false else (map.actionStates[action]?).any (·.released)

/-! ## The frame -/

def advanceFrame (map : ActionMap F) : ActionMap F :=
  { map with
    actionStates := map.actionStates.map fun actionState =>
      { actionState with down := false, pressed := false, released := false, value := .zero }
    textInputUtf8Snapshot := []
    mouseDeltaXSnapshot := 0
    mouseDeltaYSnapshot := 0
    verticalWheelDeltaSnapshot := FloatOps.zero
    horizontalWheelDeltaSnapshot := FloatOps.zero }

def copyInputSnapshot (map : ActionMap F) (inputState : InputState F) : ActionMap F :=
  { map with
    textInputUtf8Snapshot := inputState.textInputUtf8
    mouseDeltaXSnapshot := inputState.mouseDeltaX
    mouseDeltaYSnapshot := inputState.mouseDeltaY
    mousePositionKnownSnapshot := inputState.mousePositionKnown
    mouseXSnapshot := inputState.mouseX
    mouseYSnapshot := inputState.mouseY
    verticalWheelDeltaSnapshot :=
      inputState.getWheelDelta { deviceType := .mouse, controlType := .wheel, controlCode := 0 }
    horizontalWheelDeltaSnapshot :=
      inputState.getWheelDelta { deviceType := .mouse, controlType := .wheel, controlCode := 1 } }

/-- The change order of one binding. -/
def setValueChange (map : ActionMap F) (bindingIndex : Nat) (sequence : UInt64) : ActionMap F :=
  { map with
    bindingStates := map.bindingStates.modify bindingIndex fun bindingState =>
      { bindingState with valueChangeSequence := sequence } }

/-- The inner loop body of the first pass: the value bindings of the control activated get one
sequence, drawn at the first of them. -/
def recordBinding (activation : InputActivation F) (progress : ActionMap F × UInt64)
    (bindingIndex : Nat) : ActionMap F × UInt64 :=
  let (map, activationSequence) := progress
  match map.bindings[bindingIndex]? with
  | none => progress
  | some binding =>
    if binding.gesture.trigger ≠ .value || binding.combo.primaryControl ≠ activation.control then
      progress
    else
      let map :=
        if activationSequence = 0 then
          { map with valueChangeSequence := map.valueChangeSequence + 1 }
        else map
      let activationSequence :=
        if activationSequence = 0 then map.valueChangeSequence else activationSequence
      (map.setValueChange bindingIndex activationSequence, activationSequence)

def recordActivation (map : ActionMap F) (activation : InputActivation F) : ActionMap F :=
  ((List.range map.bindings.length).foldl (recordBinding activation) (map, 0)).1

/-- The loop body of the second pass. -/
def recordMouse (inputState : InputState F) (map : ActionMap F) (bindingIndex : Nat) :
    ActionMap F :=
  match map.bindings[bindingIndex]? with
  | none => map
  | some binding =>
    if binding.gesture.trigger ≠ .value then map
    else
      let mouseXChanged :=
        isMouseAxis binding.combo.primaryControl 0 && inputState.mouseDeltaX ≠ 0
      let mouseYChanged :=
        isMouseAxis binding.combo.primaryControl 1 && inputState.mouseDeltaY ≠ 0
      if mouseXChanged || mouseYChanged then
        let map := { map with valueChangeSequence := map.valueChangeSequence + 1 }
        map.setValueChange bindingIndex map.valueChangeSequence
      else map

def hasMatchingHoldFired (map : ActionMap F) (bindingIndex : Nat) : Bool :=
  match map.bindings[bindingIndex]? with
  | none => false
  | some binding =>
    (List.range map.bindings.length).any fun compareIndex =>
      compareIndex ≠ bindingIndex &&
        (map.bindings[compareIndex]?).any (fun compared =>
          compared.gesture.trigger = .hold && areSameCombo compared.combo binding.combo) &&
        (map.bindingStates[compareIndex]?).any (·.holdFired)

end ActionMap

/-! ## Gestures -/

section

variable [FloatOps F]

def startsThisFrame (inputState : InputState F) (combo : ActionCombo)
    (wasBindingActive : Bool) : Bool :=
  if combo.activationMode = .anyOrder then isComboDown inputState combo && !wasBindingActive
  else wasPrimaryPressed inputState combo

def nextBindingActive (inputState : InputState F) (combo : ActionCombo)
    (wasBindingActive : Bool) : Bool :=
  isComboDown inputState combo &&
    (if combo.activationMode = .anyOrder then true
    else wasBindingActive || startsThisFrame inputState combo wasBindingActive)

/-- What the `switch` over the trigger leaves behind: the runtime state with the next `active`,
and the locals of the loop body. -/
structure EvaluatedBinding (F : Type*) where
  state : RuntimeBindingState F
  down : Bool
  contributesValue : Bool
  pressed : Bool
  released : Bool
  value : F

/-- `matchingHoldFired` is `hasMatchingHoldFired` of the binding, which only `Tap` asks for. -/
def evaluateGesture (inputState : InputState F) (binding : ActionBinding F)
    (bindingState : RuntimeBindingState F) (matchingHoldFired : Bool) (frameSeconds : F) :
    EvaluatedBinding F :=
  let wasBindingActive := bindingState.active
  let starts := startsThisFrame inputState binding.combo wasBindingActive
  let next := nextBindingActive inputState binding.combo wasBindingActive
  let stops := wasBindingActive && !next
  let quiet : EvaluatedBinding F :=
    { state := { bindingState with active := next }
      down := false, contributesValue := false, pressed := false, released := false
      value := FloatOps.one }
  match binding.gesture.trigger with
  | .pressed => { quiet with pressed := starts, down := starts }
  | .released => { quiet with released := stops, down := stops }
  | .down => { quiet with down := next, pressed := starts, released := stops }
  | .tap =>
    let fired := stops && !matchingHoldFired
    let heldSeconds :=
      if next then FloatOps.add bindingState.heldSeconds frameSeconds else FloatOps.zero
    { quiet with state := { quiet.state with heldSeconds }, pressed := fired, down := fired }
  | .hold =>
    let holdFired := if starts then false else bindingState.holdFired
    if next then
      let heldSeconds :=
        FloatOps.add (if starts then FloatOps.zero else bindingState.heldSeconds) frameSeconds
      let fires := !holdFired && FloatOps.le binding.gesture.holdSeconds heldSeconds
      { quiet with
        state := { quiet.state with heldSeconds, holdFired := holdFired || fires }
        pressed := fires
        down := holdFired || fires }
    else
      { quiet with
        state := { quiet.state with heldSeconds := FloatOps.zero, holdFired }
        released := stops && holdFired }
  | .doubleTap =>
    let timeSinceLastTap :=
      if bindingState.waitingForSecondTap then
        FloatOps.add bindingState.timeSinceLastTap frameSeconds
      else bindingState.timeSinceLastTap
    let expired := bindingState.waitingForSecondTap &&
      (!areModifiersDown inputState binding.combo ||
        FloatOps.lt binding.gesture.doubleTapSeconds timeSinceLastTap)
    let waitingForSecondTap := bindingState.waitingForSecondTap && !expired
    let timeSinceLastTap := if expired then FloatOps.zero else timeSinceLastTap
    if stops then
      { quiet with
        state := { quiet.state with
          waitingForSecondTap := !waitingForSecondTap, timeSinceLastTap := FloatOps.zero }
        pressed := waitingForSecondTap
        down := waitingForSecondTap }
    else
      { quiet with state := { quiet.state with waitingForSecondTap, timeSinceLastTap } }
  | .value =>
    let rawValue := getControlValue inputState binding.combo.primaryControl
    let valueActive := areModifiersDown inputState binding.combo &&
      passesThreshold rawValue binding.valueMapping.threshold
    if Input.isButtonControl binding.combo.primaryControl then
      { quiet with contributesValue := next }
    else
      { quiet with
        state := { quiet.state with active := valueActive }
        contributesValue := valueActive
        value := rawValue }

/-- The reports of one binding, added to those of its action. -/
def ActionState.report (actionState : ActionState F) (evaluated : EvaluatedBinding F) :
    ActionState F :=
  { actionState with
    pressed := actionState.pressed || evaluated.pressed
    released := actionState.released || evaluated.released
    down := actionState.down || evaluated.down }

namespace ActionMap

/-- The loop body of the binding loop. -/
def evaluateBinding (inputState : InputState F) (frameSeconds : F)
    (progress : ActionMap F × List (ValueBucket F)) (bindingIndex : Nat) :
    ActionMap F × List (ValueBucket F) :=
  let (map, valueBuckets) := progress
  match map.bindings[bindingIndex]?, map.bindingStates[bindingIndex]? with
  | some binding, some bindingState =>
    match map.actionKinds[binding.action]? with
    | none => progress
    | some actionKind =>
      let evaluated := evaluateGesture inputState binding bindingState
        (map.hasMatchingHoldFired bindingIndex) frameSeconds
      ({ map with
         actionStates := map.actionStates.modify binding.action (·.report evaluated)
         bindingStates := map.bindingStates.set bindingIndex evaluated.state },
        if evaluated.contributesValue then
          addValueToBucket valueBuckets binding actionKind evaluated.value
            evaluated.state.valueChangeSequence
        else valueBuckets)
  | _, _ => progress

/-! ## Values -/

/-- The value pass under way: the states, and for each action whether a value is active and the
sequence of the value selected. -/
structure ValuePass (F : Type*) where
  actionStates : List (ActionState F)
  valueActive : List Bool
  selectedValueSequences : List UInt64

/-- The value of an `Axis1D` bucket. -/
def bucketScalar (settings : ActionSettings F) (value : F) : F :=
  let value :=
    if settings.deadzoneMode ≠ .none then
      applyDeadzone1D value settings.innerDeadzone settings.outerDeadzone
    else value
  let value := FloatOps.mul (applyCurve1D value settings.curveExponent) settings.sensitivity
  let value := if settings.invert then FloatOps.neg value else value
  if settings.clampValue then clamp value (FloatOps.neg FloatOps.one) FloatOps.one else value

/-- The vector of an `Axis2D` bucket. -/
def bucketVector (settings : ActionSettings F) (v : F × F) : F × F :=
  let v :=
    match settings.deadzoneMode with
    | .axial => applyAxialDeadzone2D v settings.innerDeadzone settings.outerDeadzone
    | .radial => applyRadialDeadzone2D v settings.innerDeadzone settings.outerDeadzone
    | .none => v
  let v := scaleVector (applyCurve2D v settings.curveExponent) settings.sensitivity
  let v := if settings.invertX then (FloatOps.neg v.1, v.2) else v
  let v := if settings.invertY then (v.1, FloatOps.neg v.2) else v
  let v := if settings.normalizeDiagonal then clampVectorLength v FloatOps.one else v
  if settings.clampValue then clampVectorLength v FloatOps.one else v

/-- A candidate value of an action: its magnitude, and what it writes when it is selected. -/
def ValuePass.offer (pass : ValuePass F) (action : Nat) (bucket : ValueBucket F)
    (magnitude : ActionValue F → F) (candidate : ActionValue F → ActionValue F)
    (candidateMagnitude : F) : ValuePass F :=
  match pass.actionStates[action]? with
  | none => pass
  | some actionState =>
    let chosen := shouldChooseValueCandidate (magnitude actionState.value)
      ((pass.selectedValueSequences[action]?).getD 0) candidateMagnitude bucket.lastChangeSequence
    { actionStates :=
        if chosen then
          pass.actionStates.set action { actionState with value := candidate actionState.value }
        else pass.actionStates
      selectedValueSequences :=
        if chosen then pass.selectedValueSequences.set action bucket.lastChangeSequence
        else pass.selectedValueSequences
      valueActive :=
        if FloatOps.lt bucket.settings.activationThreshold candidateMagnitude then
          pass.valueActive.set action true
        else pass.valueActive }

/-- The loop body of the bucket loop. -/
def evaluateBucket (map : ActionMap F) (pass : ValuePass F) (bucket : ValueBucket F) :
    ValuePass F :=
  if !map.isValidAction bucket.action then pass
  else
    match bucket.settings.kind with
    | .axis1D =>
      let value := bucketScalar bucket.settings bucket.value.scalar
      pass.offer bucket.action bucket (fun current => absoluteValue current.scalar)
        (fun current => { current with scalar := value }) (absoluteValue value)
    | .axis2D =>
      let v := bucketVector bucket.settings (bucket.value.x, bucket.value.y)
      pass.offer bucket.action bucket (fun current => getVectorLength current.x current.y)
        (fun current => { current with x := v.1, y := v.2 }) (getVectorLength v.1 v.2)
    | .button => pass

/-- The body of the last loop: an action with a value is down while its value is active. -/
def finishAction (kind : ActionKind) (isActive : Bool) (actionState : ActionState F) :
    ActionState F :=
  if kind = .button then actionState
  else
    { actionState with
      down := actionState.down || isActive
      pressed := actionState.pressed || (isActive && !actionState.valueActive)
      released := actionState.released || (!isActive && actionState.valueActive)
      valueActive := isActive }

/-- The two loops of `evaluate` behind the binding loop. -/
def evaluateValues (map : ActionMap F) (valueBuckets : List (ValueBucket F)) : ActionMap F :=
  let pass := valueBuckets.foldl (evaluateBucket map)
    { actionStates := map.actionStates
      valueActive := List.replicate map.actionStates.length false
      selectedValueSequences := List.replicate map.actionStates.length 0 }
  { map with
    actionStates := pass.actionStates.mapIdx fun actionIndex actionState =>
      finishAction ((map.actionKinds[actionIndex]?).getD .button)
        ((pass.valueActive[actionIndex]?).getD false) actionState }

/-- The snapshot and the two passes in front of the binding loop. -/
def recordChanges (map : ActionMap F) (inputState : InputState F) : ActionMap F :=
  let map := inputState.activations.foldl recordActivation (map.copyInputSnapshot inputState)
  (List.range map.bindings.length).foldl (recordMouse inputState) map

def evaluate (map : ActionMap F) (inputState : InputState F) (deltaSeconds : F) : ActionMap F :=
  let frameSeconds :=
    if FloatOps.lt FloatOps.zero deltaSeconds then deltaSeconds else FloatOps.zero
  let map := map.recordChanges inputState
  let progress := (List.range map.bindings.length).foldl
    (evaluateBinding inputState frameSeconds) (map, [])
  progress.1.evaluateValues progress.2

end ActionMap

/-! ## Runs -/

/-- What a game does to its map before and between frames. -/
inductive MapOperation (F : Type*) where
  | resize (actionCount : Nat)
  | defineAction (action : Nat) (kind : ActionKind)
  | addBinding (binding : ActionBinding F)
  | clearBindings (action : Nat)
  | clearAllBindings
  | advanceFrame
  | evaluate (inputState : InputState F) (deltaSeconds : F)

def ActionMap.apply (map : ActionMap F) : MapOperation F → ActionMap F
  | .resize actionCount => map.resize actionCount
  | .defineAction action kind => map.defineAction action kind
  | .addBinding binding => map.addBindingUnchecked binding
  | .clearBindings action => map.clearBindings action
  | .clearAllBindings => map.clearAllBindings
  | .advanceFrame => map.advanceFrame
  | .evaluate inputState deltaSeconds => map.evaluate inputState deltaSeconds

/-- One operation; every one is enabled in every state. -/
def mapStep (map : ActionMap F) (operation : MapOperation F) : Option (ActionMap F) :=
  some (map.apply operation)

inductive ActionReport where
  | pressed
  | released
  deriving DecidableEq, Repr

/-- What `wasPressed` and `wasReleased` answer for the action after a frame. -/
def ActionMap.frameReports (map : ActionMap F) (action : Nat) : List ActionReport :=
  (if map.wasPressed action then [.pressed] else []) ++
    (if map.wasReleased action then [.released] else [])

/-- A run of frames under way: the input state, the map and what has been reported for one action
so far. -/
structure FrameRun (F : Type*) where
  input : InputState F
  map : ActionMap F
  reports : List ActionReport

/-- One frame: what reaches the input state, and the time it took. -/
structure Frame (F : Type*) where
  operations : List (Input.InputOperation F)
  deltaSeconds : F

/-- The input state the frame is evaluated with. -/
def FrameRun.evaluatedInput (run : FrameRun F) (frame : Frame F) : InputState F :=
  frame.operations.foldl InputState.apply run.input

/-- One frame of the main loop, seen from `action`. -/
def FrameRun.advance (run : FrameRun F) (action : Nat) (frame : Frame F) : FrameRun F :=
  let input := run.evaluatedInput frame
  let map := run.map.advanceFrame.evaluate input frame.deltaSeconds
  { input := input.advanceFrame
    map := map
    reports := run.reports ++ map.frameReports action }

/-- One frame; every one is enabled in every state. -/
def frameStep (action : Nat) (run : FrameRun F) (frame : Frame F) : Option (FrameRun F) :=
  some (run.advance action frame)

end

end Action

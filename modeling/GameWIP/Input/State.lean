import GameWIP.Input.Control
import GameWIP.Unicode.Encoding

/-!
# The input state

`InputState` of `input/core/input.cpp`: the buttons held, the transitions and activations of the
frame, axis and wheel values, text, mouse and connections. The vectors of controls, values and
devices are sorted and searched by halving, as in the source.

`InputOperation` are the mutators a platform backend has (`InputStateAccess`) with the two public
ones, `clear` and `advanceFrame`; none of them fails.
-/

namespace Input

open Lib (search isMatching)

variable {F : Type*}

/-! ## Sorted vectors of controls -/

def findControl (controls : List InputControl) (control : InputControl) : Nat :=
  search InputControl.lt id controls control

def isMatchingControl (controls : List InputControl) (entry : Nat) (control : InputControl) :
    Bool :=
  isMatching id controls entry control

def containsControl (controls : List InputControl) (control : InputControl) : Bool :=
  isMatchingControl controls (findControl controls control) control

def addUniqueControl (controls : List InputControl) (control : InputControl) :
    List InputControl :=
  let entry := findControl controls control
  if !isMatchingControl controls entry control then controls.insertIdx entry control else controls

def removeControl (controls : List InputControl) (control : InputControl) : List InputControl :=
  let entry := findControl controls control
  if isMatchingControl controls entry control then controls.eraseIdx entry else controls

/-! ## Sorted vectors of values -/

def findControlValue (values : List (InputControl × F)) (control : InputControl) : Nat :=
  search InputControl.lt Prod.fst values control

def isMatchingControlValue (values : List (InputControl × F)) (entry : Nat)
    (control : InputControl) : Bool :=
  isMatching Prod.fst values entry control

section

variable [FloatOps F]

def setControlValue (values : List (InputControl × F)) (control : InputControl) (value : F) :
    List (InputControl × F) :=
  let entry := findControlValue values control
  if FloatOps.eq value FloatOps.zero then
    if isMatchingControlValue values entry control then values.eraseIdx entry else values
  else if isMatchingControlValue values entry control then values.set entry (control, value)
  else values.insertIdx entry (control, value)

def getControlValue (values : List (InputControl × F)) (control : InputControl) : F :=
  let entry := findControlValue values control
  if isMatchingControlValue values entry control then
    (values[entry]?).elim FloatOps.zero Prod.snd
  else FloatOps.zero

end

/-! ## The state -/

/-- `InputState`; `connectedDevices` holds the `InputDeviceId` pairs as device references. -/
structure InputState (F : Type*) where
  currentButtons : List InputControl := []
  pressedButtons : List InputControl := []
  releasedButtons : List InputControl := []
  axisValues : List (InputControl × F) := []
  wheelDeltas : List (InputControl × F) := []
  connectedDevices : List InputDeviceRef := []
  activations : List (InputActivation F) := []
  textInputUtf8 : List UInt8 := []
  clearGeneration : UInt64 := 0
  pendingTextHighSurrogate : UInt16 := 0
  mouseDeltaX : Int := 0
  mouseDeltaY : Int := 0
  mouseX : Int := 0
  mouseY : Int := 0
  mousePositionKnown : Bool := false
  deriving DecidableEq, Repr

def appendUtf8Codepoint (text : List UInt8) (codepoint : Nat) : List UInt8 :=
  let encoded := Unicode.Utf8.encodeScalar codepoint
  let encoded := if encoded.outcome != .encoded then Unicode.Utf8.encodeScalar 0xFFFD else encoded
  text ++ encoded.bytes.take encoded.byteCount

namespace InputState

/-! ### Queries -/

def isButtonDown (state : InputState F) (control : InputControl) : Bool :=
  if !isButtonControl control then false else containsControl state.currentButtons control

def wasButtonPressed (state : InputState F) (control : InputControl) : Bool :=
  if !isButtonControl control then false else containsControl state.pressedButtons control

def wasButtonReleased (state : InputState F) (control : InputControl) : Bool :=
  if !isButtonControl control then false else containsControl state.releasedButtons control

section

variable [FloatOps F]

def getAxis (state : InputState F) (control : InputControl) : F :=
  if !isAxisControl control then FloatOps.zero else getControlValue state.axisValues control

def getWheelDelta (state : InputState F) (control : InputControl) : F :=
  if !isWheelControl control then FloatOps.zero else getControlValue state.wheelDeltas control

/-! ### Buttons -/

def setButtonInternal (state : InputState F) (control : InputControl) (isDown : Bool) :
    InputState F :=
  if !isButtonControl control then state
  else
    let wasDown := containsControl state.currentButtons control
    if isDown == wasDown then state
    else
      let moved : InputState F :=
        if isDown then
          { state with
            currentButtons := addUniqueControl state.currentButtons control
            pressedButtons := addUniqueControl state.pressedButtons control }
        else
          { state with
            currentButtons := removeControl state.currentButtons control
            releasedButtons := addUniqueControl state.releasedButtons control }
      { moved with
        activations := state.activations ++
          [{ control
             activationType := if isDown then .buttonPressed else .buttonReleased
             value := if isDown then FloatOps.one else FloatOps.zero
             previousValue := if wasDown then FloatOps.one else FloatOps.zero }] }

/-- The loop body `clear` and `clearDeviceInternal` share: one held button is reported released. -/
def emitRelease (state : InputState F) (control : InputControl) : InputState F :=
  { state with
    releasedButtons := addUniqueControl state.releasedButtons control
    activations := state.activations ++
      [{ control
         activationType := .buttonReleased
         value := FloatOps.zero
         previousValue := FloatOps.one }] }

def clearMousePositionInternal (state : InputState F) : InputState F :=
  { state with mouseX := 0, mouseY := 0, mousePositionKnown := false }

def clear (state : InputState F) (emitReleaseActivations : Bool) : InputState F :=
  let cleared : InputState F :=
    { state with activations := [], pressedButtons := [], releasedButtons := [] }
  let emitted :=
    if emitReleaseActivations then state.currentButtons.foldl emitRelease cleared else cleared
  clearMousePositionInternal
    { emitted with
      currentButtons := []
      axisValues := []
      wheelDeltas := []
      textInputUtf8 := []
      pendingTextHighSurrogate := 0
      mouseDeltaX := 0
      mouseDeltaY := 0
      clearGeneration := state.clearGeneration + 1 }

def advanceFrame (state : InputState F) : InputState F :=
  { state with
    pressedButtons := []
    releasedButtons := []
    wheelDeltas := []
    activations := []
    textInputUtf8 := []
    mouseDeltaX := 0
    mouseDeltaY := 0 }

/-- The first loop releases the held buttons of the device in their order and erases them, the
second one erases its axis values. -/
def clearDeviceInternal (state : InputState F) (device : InputDeviceRef) : InputState F :=
  let released :=
    (state.currentButtons.filter fun control => isOnDevice control device).foldl emitRelease state
  { released with
    currentButtons := state.currentButtons.filter fun control => !isOnDevice control device
    axisValues := state.axisValues.filter fun value => !isOnDevice value.1 device }

/-! ### Axes, wheels and the pointer -/

def setAxisInternal (state : InputState F) (control : InputControl) (value : F) : InputState F :=
  if !isAxisControl control then state
  else
    let previousValue := state.getAxis control
    if FloatOps.eq previousValue value then state
    else
      let activationType : InputActivationType :=
        if FloatOps.le previousValue FloatOps.zero && FloatOps.lt FloatOps.zero value then
          .axisPositive
        else if FloatOps.le FloatOps.zero previousValue && FloatOps.lt value FloatOps.zero then
          .axisNegative
        else .axisChanged
      { state with
        axisValues := setControlValue state.axisValues control value
        activations := state.activations ++ [{ control, activationType, value, previousValue }] }

def addWheelDeltaInternal (state : InputState F) (control : InputControl) (amount : F) :
    InputState F :=
  if !isWheelControl control || FloatOps.eq amount FloatOps.zero then state
  else
    let newAmount := FloatOps.add (getControlValue state.wheelDeltas control) amount
    { state with
      wheelDeltas := setControlValue state.wheelDeltas control newAmount
      activations := state.activations ++
        [{ control
           activationType :=
             if FloatOps.lt FloatOps.zero amount then .wheelPositive else .wheelNegative
           value := amount
           previousValue := FloatOps.sub newAmount amount }] }

def addMouseDeltaInternal (state : InputState F) (deltaX deltaY : Int) : InputState F :=
  { state with
    mouseDeltaX := state.mouseDeltaX + deltaX, mouseDeltaY := state.mouseDeltaY + deltaY }

def setMousePositionInternal (state : InputState F) (x y : Int) : InputState F :=
  { state with mouseX := x, mouseY := y, mousePositionKnown := true }

/-! ### Text and connections -/

def addTextUtf8Internal (state : InputState F) (text : List UInt8) : InputState F :=
  { state with textInputUtf8 := state.textInputUtf8 ++ text }

def addTextCodepointInternal (state : InputState F) (codepoint : Nat) : InputState F :=
  { state with textInputUtf8 := appendUtf8Codepoint state.textInputUtf8 codepoint }

def setPendingTextHighSurrogateInternal (state : InputState F) (codeUnit : UInt16) :
    InputState F :=
  { state with pendingTextHighSurrogate := codeUnit }

def clearTextCompositionInternal (state : InputState F) : InputState F :=
  { state with pendingTextHighSurrogate := 0 }

def setDeviceConnectedInternal (state : InputState F) (device : InputDeviceRef)
    (connected : Bool) : InputState F :=
  let entry := search InputDeviceRef.lt id state.connectedDevices device
  let found := isMatching id state.connectedDevices entry device
  if connected then
    if !found then
      { state with connectedDevices := state.connectedDevices.insertIdx entry device }
    else state
  else if found then
    { state with connectedDevices := state.connectedDevices.eraseIdx entry }
  else state

end

end InputState

/-! ## Operations -/

inductive InputOperation (F : Type*) where
  | setButton (control : InputControl) (isDown : Bool)
  | setAxis (control : InputControl) (value : F)
  | addWheelDelta (control : InputControl) (amount : F)
  | addMouseDelta (deltaX deltaY : Int)
  | setMousePosition (x y : Int)
  | clearMousePosition
  | addTextUtf8 (text : List UInt8)
  | addTextCodepoint (codepoint : Nat)
  | setPendingTextHighSurrogate (codeUnit : UInt16)
  | clearTextComposition
  | setDeviceConnected (device : InputDeviceRef) (connected : Bool)
  | clearDevice (device : InputDeviceRef)
  | clear (emitReleaseActivations : Bool)
  | advanceFrame
  deriving DecidableEq, Repr

def InputState.apply [FloatOps F] (state : InputState F) : InputOperation F → InputState F
  | .setButton control isDown => state.setButtonInternal control isDown
  | .setAxis control value => state.setAxisInternal control value
  | .addWheelDelta control amount => state.addWheelDeltaInternal control amount
  | .addMouseDelta deltaX deltaY => state.addMouseDeltaInternal deltaX deltaY
  | .setMousePosition x y => state.setMousePositionInternal x y
  | .clearMousePosition => state.clearMousePositionInternal
  | .addTextUtf8 text => state.addTextUtf8Internal text
  | .addTextCodepoint codepoint => state.addTextCodepointInternal codepoint
  | .setPendingTextHighSurrogate codeUnit => state.setPendingTextHighSurrogateInternal codeUnit
  | .clearTextComposition => state.clearTextCompositionInternal
  | .setDeviceConnected device connected => state.setDeviceConnectedInternal device connected
  | .clearDevice device => state.clearDeviceInternal device
  | .clear emitReleaseActivations => state.clear emitReleaseActivations
  | .advanceFrame => state.advanceFrame

/-- One operation; every one is enabled in every state. -/
def inputStep [FloatOps F] (state : InputState F) (operation : InputOperation F) :
    Option (InputState F) :=
  some (state.apply operation)

/-- The operations between two frames; a clear among them emits its releases. -/
def InputOperation.inFrame : InputOperation F → Bool
  | .advanceFrame => false
  | .clear emitReleaseActivations => emitReleaseActivations
  | _ => true

/-- One operation inside a frame. -/
def frameStep [FloatOps F] (state : InputState F) (operation : InputOperation F) :
    Option (InputState F) :=
  if operation.inFrame then inputStep state operation else none

/-- The operation is no bulk clear, or one that meets exactly the buttons `held`. -/
def InputOperation.ClearsHeld (held : List InputControl) (state : InputState F) :
    InputOperation F → Prop
  | .clear _ => state.currentButtons = held
  | _ => True

instance (held : List InputControl) (state : InputState F) (operation : InputOperation F) :
    Decidable (operation.ClearsHeld held state) :=
  match operation with
  | .clear _ => inferInstanceAs (Decidable (state.currentButtons = held))
  | .setButton _ _ | .setAxis _ _ | .addWheelDelta _ _ | .addMouseDelta _ _
  | .setMousePosition _ _ | .clearMousePosition | .addTextUtf8 _ | .addTextCodepoint _
  | .setPendingTextHighSurrogate _ | .clearTextComposition | .setDeviceConnected _ _
  | .clearDevice _ | .advanceFrame => .isTrue trivial

end Input

import GameWIP.Terminal.LineInput

/-!
# Decoding native key records

The decoder that turns the key records of a Win32 console into key events
(`terminal/platform/win32/win32_terminal_events.cpp`). Its state tracks the keys that are down, a
surrogate pair that is half received, and the event that a record with a repeat count leaves behind.

`MapVirtualKeyW` is the layout of the keyboard and stays a parameter. The events here carry the
whole payload of the decoder; `LineInput` keeps of it what the line editor reads.
-/

namespace Terminal

namespace Win32Events

open Io (Status makeStatus successStatus)
open Unicode.Utf16 (isHighSurrogate isLowSurrogate)

/-! ## Events -/

/-- `Types::Events::ModifierKey`. -/
inductive ModifierKey where
  | shift
  | control
  | alt
  | super
  | hyper
  | «meta»
  deriving DecidableEq, Repr

/-- `Types::Events::MediaKey`. -/
inductive MediaKey where
  | play
  | pause
  | playPause
  | stop
  | nextTrack
  | previousTrack
  | fastForward
  | rewind
  | record
  | volumeUp
  | volumeDown
  | mute
  deriving DecidableEq, Repr

/-- `Types::Events::KeyLocation`. -/
inductive KeyLocation where
  | unknown
  | standard
  | left
  | right
  | numpad
  deriving DecidableEq, Repr

/-- The value of the enumerator. -/
def KeyLocation.value : KeyLocation → Nat
  | unknown => 0
  | standard => 1
  | left => 2
  | right => 3
  | numpad => 4

/-- `Types::Events::KeyValue`. -/
inductive EventKey where
  | character (value : Nat)
  | named (key : NamedKey)
  | function (number : Nat)
  | modifier (key : ModifierKey)
  | media (key : MediaKey)
  deriving DecidableEq, Repr

/-- `Types::Events::Key`. -/
structure KeyEvent where
  key : EventKey
  modifiers : KeyModifier := 0
  action : KeyAction := .press
  location : KeyLocation := .unknown
  repeatCount : Nat := 1
  deriving DecidableEq, Repr

def capsLock : KeyModifier := 0x40
def numLock : KeyModifier := 0x80
def scrollLock : KeyModifier := 0x100

def clearModifier (value bit : KeyModifier) : KeyModifier := value &&& ~~~bit

/-! ## Native records -/

/-- A Win32 virtual-key code. -/
abbrev VirtualKey := UInt16

/-- A Win32 control-key state, a set of bits. -/
abbrev ControlState := UInt32

/-- `KEY_EVENT_RECORD`; `bKeyDown` is a truth value. -/
structure KeyRecord where
  bKeyDown : Bool := false
  wRepeatCount : UInt16 := 0
  wVirtualKeyCode : VirtualKey := 0
  wVirtualScanCode : UInt16 := 0
  unicodeChar : UInt16 := 0
  dwControlKeyState : ControlState := 0
  deriving DecidableEq, Repr

def VK_CANCEL : VirtualKey := 0x03
def VK_BACK : VirtualKey := 0x08
def VK_TAB : VirtualKey := 0x09
def VK_CLEAR : VirtualKey := 0x0C
def VK_RETURN : VirtualKey := 0x0D
def VK_SHIFT : VirtualKey := 0x10
def VK_CONTROL : VirtualKey := 0x11
def VK_MENU : VirtualKey := 0x12
def VK_PAUSE : VirtualKey := 0x13
def VK_CAPITAL : VirtualKey := 0x14
def VK_ESCAPE : VirtualKey := 0x1B
def VK_SPACE : VirtualKey := 0x20
def VK_PRIOR : VirtualKey := 0x21
def VK_NEXT : VirtualKey := 0x22
def VK_END : VirtualKey := 0x23
def VK_HOME : VirtualKey := 0x24
def VK_LEFT : VirtualKey := 0x25
def VK_UP : VirtualKey := 0x26
def VK_RIGHT : VirtualKey := 0x27
def VK_DOWN : VirtualKey := 0x28
def VK_SNAPSHOT : VirtualKey := 0x2C
def VK_INSERT : VirtualKey := 0x2D
def VK_DELETE : VirtualKey := 0x2E
def VK_LWIN : VirtualKey := 0x5B
def VK_RWIN : VirtualKey := 0x5C
def VK_APPS : VirtualKey := 0x5D
def VK_NUMPAD0 : VirtualKey := 0x60
def VK_NUMPAD9 : VirtualKey := 0x69
def VK_MULTIPLY : VirtualKey := 0x6A
def VK_ADD : VirtualKey := 0x6B
def VK_SEPARATOR : VirtualKey := 0x6C
def VK_SUBTRACT : VirtualKey := 0x6D
def VK_DECIMAL : VirtualKey := 0x6E
def VK_DIVIDE : VirtualKey := 0x6F
def VK_F1 : VirtualKey := 0x70
def VK_F24 : VirtualKey := 0x87
def VK_NUMLOCK : VirtualKey := 0x90
def VK_SCROLL : VirtualKey := 0x91
def VK_LSHIFT : VirtualKey := 0xA0
def VK_RSHIFT : VirtualKey := 0xA1
def VK_LCONTROL : VirtualKey := 0xA2
def VK_RCONTROL : VirtualKey := 0xA3
def VK_LMENU : VirtualKey := 0xA4
def VK_RMENU : VirtualKey := 0xA5
def VK_VOLUME_MUTE : VirtualKey := 0xAD
def VK_VOLUME_DOWN : VirtualKey := 0xAE
def VK_VOLUME_UP : VirtualKey := 0xAF
def VK_MEDIA_NEXT_TRACK : VirtualKey := 0xB0
def VK_MEDIA_PREV_TRACK : VirtualKey := 0xB1
def VK_MEDIA_STOP : VirtualKey := 0xB2
def VK_MEDIA_PLAY_PAUSE : VirtualKey := 0xB3
def VK_PACKET : VirtualKey := 0xE7

def RIGHT_ALT_PRESSED : ControlState := 0x01
def LEFT_ALT_PRESSED : ControlState := 0x02
def RIGHT_CTRL_PRESSED : ControlState := 0x04
def LEFT_CTRL_PRESSED : ControlState := 0x08
def SHIFT_PRESSED : ControlState := 0x10
def NUMLOCK_ON : ControlState := 0x20
def SCROLLLOCK_ON : ControlState := 0x40
def CAPSLOCK_ON : ControlState := 0x80
def ENHANCED_KEY : ControlState := 0x100

def kControlModifierMask : ControlState := LEFT_CTRL_PRESSED ||| RIGHT_CTRL_PRESSED

def kAltModifierMask : ControlState := LEFT_ALT_PRESSED ||| RIGHT_ALT_PRESSED

/-- Whether the state has a bit of the mask. -/
def ControlState.has (state mask : ControlState) : Bool := state &&& mask != 0

/-! ## Classification -/

def modifierKey (virtualKey : VirtualKey) : Option ModifierKey :=
  if virtualKey ∈ [VK_SHIFT, VK_LSHIFT, VK_RSHIFT] then some .shift
  else if virtualKey ∈ [VK_CONTROL, VK_LCONTROL, VK_RCONTROL] then some .control
  else if virtualKey ∈ [VK_MENU, VK_LMENU, VK_RMENU] then some .alt
  else if virtualKey ∈ [VK_LWIN, VK_RWIN] then some .super
  else none

def namedKey (virtualKey : VirtualKey) : Option NamedKey :=
  [(VK_BACK, NamedKey.backspace), (VK_TAB, .tab), (VK_RETURN, .enter), (VK_ESCAPE, .escape),
    (VK_INSERT, .insert), (VK_DELETE, .delete), (VK_HOME, .home), (VK_END, .end),
    (VK_PRIOR, .pageUp), (VK_NEXT, .pageDown), (VK_UP, .arrowUp), (VK_DOWN, .arrowDown),
    (VK_LEFT, .arrowLeft), (VK_RIGHT, .arrowRight), (VK_CLEAR, .begin), (VK_CAPITAL, .capsLock),
    (VK_NUMLOCK, .numLock), (VK_SCROLL, .scrollLock), (VK_SNAPSHOT, .printScreen),
    (VK_PAUSE, .pause), (VK_CANCEL, .pause), (VK_APPS, .menu)].lookup virtualKey

def mediaKey (virtualKey : VirtualKey) : Option MediaKey :=
  [(VK_MEDIA_PLAY_PAUSE, MediaKey.playPause), (VK_MEDIA_STOP, .stop),
    (VK_MEDIA_NEXT_TRACK, .nextTrack), (VK_MEDIA_PREV_TRACK, .previousTrack),
    (VK_VOLUME_UP, .volumeUp), (VK_VOLUME_DOWN, .volumeDown), (VK_VOLUME_MUTE, .mute)].lookup
    virtualKey

/-- The number of the function key. -/
def functionKey (virtualKey : VirtualKey) : Option Nat :=
  if virtualKey ≥ VK_F1 && virtualKey ≤ VK_F24 then some (virtualKey - VK_F1 + 1).toNat else none

def isNavigationVirtualKey (virtualKey : VirtualKey) : Bool :=
  virtualKey ∈ [VK_INSERT, VK_DELETE, VK_HOME, VK_END, VK_PRIOR, VK_NEXT, VK_UP, VK_DOWN, VK_LEFT,
    VK_RIGHT, VK_CLEAR]

def isNumpadVirtualKey (virtualKey : VirtualKey) : Bool :=
  (virtualKey ≥ VK_NUMPAD0 && virtualKey ≤ VK_NUMPAD9) || virtualKey == VK_MULTIPLY ||
    virtualKey == VK_ADD || virtualKey == VK_SEPARATOR || virtualKey == VK_SUBTRACT ||
    virtualKey == VK_DECIMAL || virtualKey == VK_DIVIDE

/-- `mapVirtualKey` answers the scan code of a virtual key. -/
def keyLocation (mapVirtualKey : VirtualKey → Nat) (record : KeyRecord) : KeyLocation :=
  let virtualKey := record.wVirtualKeyCode
  let enhanced := record.dwControlKeyState.has ENHANCED_KEY
  if virtualKey ∈ [VK_LSHIFT, VK_LCONTROL, VK_LMENU, VK_LWIN] then .left
  else if virtualKey ∈ [VK_RSHIFT, VK_RCONTROL, VK_RMENU, VK_RWIN] then .right
  else if virtualKey ∈ [VK_CONTROL, VK_MENU] then
    if enhanced then .right else .left
  else if virtualKey == VK_SHIFT then
    if record.wVirtualScanCode.toNat == mapVirtualKey VK_LSHIFT then .left
    else if record.wVirtualScanCode.toNat == mapVirtualKey VK_RSHIFT then .right
    else .unknown
  else if virtualKey == VK_RETURN then
    if enhanced then .numpad else .standard
  else if isNumpadVirtualKey virtualKey then .numpad
  else if isNavigationVirtualKey virtualKey && !enhanced then .numpad
  else .standard

/-! ## State -/

def kTrackedLocationCount : Nat := 5

/-- The bits of `DecoderState::keyDown`. -/
def kKeyDownSize : Nat := 256 * 5

def trackingIndex (virtualKey : VirtualKey) (location : KeyLocation) : Nat :=
  virtualKey.toNat * kTrackedLocationCount + location.value

/-- The logical state of the decoder; of `keyDown`, the bits below `kKeyDownSize` are used. -/
structure DecoderState where
  keyDown : Nat → Bool := fun _ => false
  pendingHighSurrogate : UInt16 := 0
  pendingHighSurrogateRecord : KeyRecord := {}
  pendingEvent : Option KeyEvent := none

namespace DecoderState

/-- `keyDown.set` and `keyDown.reset` of one bit. -/
def setKey (state : DecoderState) (index : Nat) (down : Bool) : DecoderState :=
  { state with keyDown := Function.update state.keyDown index down }

def clear (_ : DecoderState) : DecoderState := {}

/-- The decoder without the surrogate it kept. -/
def dropSurrogate (state : DecoderState) : DecoderState :=
  { state with pendingHighSurrogate := 0, pendingHighSurrogateRecord := {} }

end DecoderState

def takePendingEvent (state : DecoderState) : Option KeyEvent × DecoderState :=
  (state.pendingEvent, { state with pendingEvent := none })

inductive KeyDecodeDisposition where
  | produced
  | pending
  | ignored
  | failed
  deriving DecidableEq, Repr

structure KeyDecodeResult where
  status : Status := {}
  disposition : KeyDecodeDisposition := .ignored
  event : Option KeyEvent := none
  deriving DecidableEq, Repr

/-! ## Modifiers -/

def modifiersFromControlState (state : ControlState) (decoderState : DecoderState) : KeyModifier :=
  let bit (set : Bool) (modifier : KeyModifier) : KeyModifier := if set then modifier else 0
  let leftSuper := trackingIndex VK_LWIN .left
  let rightSuper := trackingIndex VK_RWIN .right
  bit (state.has SHIFT_PRESSED) KeyModifier.shift |||
    bit (state.has kControlModifierMask) KeyModifier.control |||
    bit (state.has kAltModifierMask) KeyModifier.alt ||| bit (state.has CAPSLOCK_ON) capsLock |||
    bit (state.has NUMLOCK_ON) numLock ||| bit (state.has SCROLLLOCK_ON) scrollLock |||
    bit ((leftSuper < kKeyDownSize && decoderState.keyDown leftSuper) ||
      (rightSuper < kKeyDownSize && decoderState.keyDown rightSuper)) KeyModifier.super

def isPrintable (scalar : Nat) : Bool := scalar ≥ 0x20 && scalar != 0x7f

/-- AltGr arrives as Left Ctrl and Right Alt; text it typed carries neither. -/
def normalizedCharacterModifiers (record : KeyRecord) (scalar : Nat)
    (decoderState : DecoderState) : KeyModifier :=
  let modifiers := modifiersFromControlState record.dwControlKeyState decoderState
  let altGr := record.dwControlKeyState.has RIGHT_ALT_PRESSED &&
    record.dwControlKeyState.has LEFT_CTRL_PRESSED
  if altGr && isPrintable scalar then
    clearModifier (clearModifier modifiers KeyModifier.control) KeyModifier.alt
  else modifiers

def ModifierKey.bit : ModifierKey → KeyModifier
  | shift => KeyModifier.shift
  | control => KeyModifier.control
  | alt => KeyModifier.alt
  | super => KeyModifier.super
  | hyper => KeyModifier.hyper
  | .meta => KeyModifier.meta

def modifiersForKey (record : KeyRecord) (key : EventKey) (decoderState : DecoderState) :
    KeyModifier :=
  let modifiers := modifiersFromControlState record.dwControlKeyState decoderState
  match key with
  | .character value => normalizedCharacterModifiers record value decoderState
  | .modifier modifier => clearModifier modifiers modifier.bit
  | _ => modifiers

/-! ## Decoding -/

/-- Whether the code is one whose key is tracked: a nonzero code other than `VK_PACKET`. -/
def trackedCode (virtualKey : VirtualKey) : Bool := virtualKey != 0 && virtualKey != VK_PACKET

/-- The count of the record; a count of 0 stands for one. -/
def nativeRepeat (record : KeyRecord) : Nat :=
  if record.wRepeatCount = 0 then 1 else record.wRepeatCount.toNat

section
variable (mapVirtualKey : VirtualKey → Nat)

def makeEvent (key : EventKey) (record : KeyRecord) (state : DecoderState) :
    KeyDecodeResult × DecoderState :=
  let location := keyLocation mapVirtualKey record
  let keyIndex := trackingIndex record.wVirtualKeyCode location
  let trackKey := keyIndex < kKeyDownSize && trackedCode record.wVirtualKeyCode
  let wasDown := trackKey && state.keyDown keyIndex
  let nativeRepeat := nativeRepeat record
  let (action, repeatCount) : KeyAction × Nat :=
    if record.bKeyDown then
      if wasDown then (.repeated, nativeRepeat) else (.press, 1)
    else (.release, 1)
  let state := if trackKey then state.setKey keyIndex record.bKeyDown else state
  let modifiers := modifiersForKey record key state
  let event : KeyEvent := { key, modifiers, action, location, repeatCount }
  let state :=
    if record.bKeyDown && !wasDown && nativeRepeat > 1 then
      { state with
        pendingEvent := some { event with action := .repeated, repeatCount := nativeRepeat - 1 } }
    else state
  ({ status := successStatus, disposition := .produced, event := some event }, state)

/-- The letter or space that a key with Ctrl stands for. -/
def ctrlCharacter (record : KeyRecord) : Option Nat :=
  let control := record.dwControlKeyState.has kControlModifierMask
  if !control then none
  else if record.wVirtualKeyCode ≥ 0x41 && record.wVirtualKeyCode ≤ 0x5A then
    some (0x61 + (record.wVirtualKeyCode - 0x41).toNat)
  else if record.wVirtualKeyCode == VK_SPACE then some 0x20
  else none

def encodingFailure : KeyDecodeResult :=
  { status := makeStatus .encodingFailed, disposition := .failed }

def decodeCharacterRecord (record : KeyRecord) (state : DecoderState) :
    KeyDecodeResult × DecoderState :=
  let unit := record.unicodeChar
  if state.pendingHighSurrogate ≠ 0 then
    if !isLowSurrogate unit then (encodingFailure, state.dropSurrogate)
    else
      let firstRecord := state.pendingHighSurrogateRecord
      let decoded := Unicode.decodeUtf16Scalar [state.pendingHighSurrogate, unit]
      let state := state.dropSurrogate
      if decoded.outcome ≠ .decoded then (encodingFailure, state)
      else makeEvent mapVirtualKey (.character decoded.scalar) firstRecord state
  else if isHighSurrogate unit then
    ({ status := successStatus, disposition := .pending },
      { state with pendingHighSurrogate := unit, pendingHighSurrogateRecord := record })
  else if isLowSurrogate unit then (encodingFailure, state)
  else
    match (if unit ≥ 0x0001 && unit ≤ 0x001a then ctrlCharacter record else none) with
    | some character => makeEvent mapVirtualKey (.character character) record state
    | none =>
      if unit ≠ 0 then
        let decoded := Unicode.decodeUtf16Scalar [unit]
        if decoded.outcome ≠ .decoded then (encodingFailure, state)
        else makeEvent mapVirtualKey (.character decoded.scalar) record state
      else
        match ctrlCharacter record with
        | some character => makeEvent mapVirtualKey (.character character) record state
        | none => ({ status := successStatus, disposition := .ignored }, state)

/-- The key that a virtual-key code stands for by itself. -/
def codeKey (virtualKey : VirtualKey) : Option EventKey :=
  match modifierKey virtualKey with
  | some modifier => some (.modifier modifier)
  | none =>
    match namedKey virtualKey with
    | some named => some (.named named)
    | none =>
      match functionKey virtualKey with
      | some number => some (.function number)
      | none => (mediaKey virtualKey).map .media

def decodeKeyRecord (record : KeyRecord) (state : DecoderState) :
    KeyDecodeResult × DecoderState :=
  -- once a surrogate pair starts, only the low surrogate can finish it
  if state.pendingHighSurrogate ≠ 0 then decodeCharacterRecord mapVirtualKey record state
  else
    match codeKey record.wVirtualKeyCode with
    | some key => makeEvent mapVirtualKey key record state
    | none => decodeCharacterRecord mapVirtualKey record state

/-! ## Feeding -/

/-- What the event reader does with the decoder: it decodes a key record, and it clears the decoder
when the console loses the focus. -/
inductive DecoderCall where
  | record (record : KeyRecord)
  | clear
  deriving DecidableEq, Repr

/-- A record with the event it left behind taken: the result and all the events. -/
def feed (record : KeyRecord) (state : DecoderState) :
    KeyDecodeResult × List KeyEvent × DecoderState :=
  let (result, state) := decodeKeyRecord mapVirtualKey record state
  let (pending, state) := takePendingEvent state
  (result, result.event.toList ++ pending.toList, state)

def step (state : DecoderState) : DecoderCall → DecoderState
  | .record record => (feed mapVirtualKey record state).2.2
  | .clear => state.clear

/-- The decoder after the calls, from its initial state. -/
def after (calls : List DecoderCall) : DecoderState := calls.foldl (step mapVirtualKey) {}

@[simp] theorem after_nil : after mapVirtualKey [] = {} := rfl

@[simp] theorem after_append_singleton (calls : List DecoderCall) (call : DecoderCall) :
    after mapVirtualKey (calls ++ [call]) =
      step mapVirtualKey (after mapVirtualKey calls) call := by
  simp [after]

end

end Win32Events

end Terminal

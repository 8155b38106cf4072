import GameWIP.Input.Control

/-!
# The device registry

`InputDeviceRegistry` of `input/core/input.cpp`: the sorted list of known devices, with the feeds
and identities the backends have attached to each. A device is found by its reference, by halving,
or by its native identity, in order of the list.

A vector position stands for an iterator; the end iterator is a position outside the list.
`std::sort` is any sort: the references it sorts by are distinct.
-/

namespace Input

open Lib (search isMatching)

/-- Human-readable metadata for a bindable control. -/
structure InputControlInfo (F : Type*) where
  control : InputControl
  displayName : String
  minimumValue : F
  maximumValue : F
  relative : Bool
  deriving DecidableEq, Repr

/-- Human-readable metadata for a canonical input device. -/
structure InputDeviceInfo (F : Type*) where
  device : InputDeviceRef := {}
  backend : InputDeviceBackend := .builtIn
  primaryBackend : InputDeviceBackend := .builtIn
  deviceType : InputDeviceType := .keyboard
  displayName : String := ""
  backendName : String := ""
  nativeIdentity : String := ""
  nativeIdentityHash : UInt64 := 0
  hidNativeIdentity : String := ""
  hidNativeIdentityHash : UInt64 := 0
  xInputNativeIdentity : String := ""
  xInputNativeIdentityHash : UInt64 := 0
  vendorId : UInt16 := 0
  productId : UInt16 := 0
  connected : Bool := false
  canonical : Bool := true
  hasBuiltInFeed : Bool := false
  hasXInputFeed : Bool := false
  hasHidFeed : Bool := false
  suppressionReason : String := ""
  controls : List (InputControlInfo F) := []
  deriving DecidableEq, Repr

variable {F : Type*}

/-- Some feed is attached. -/
def InputDeviceInfo.hasFeed (device : InputDeviceInfo F) : Bool :=
  device.hasBuiltInFeed || device.hasXInputFeed || device.hasHidFeed

/-! ## Finding devices -/

def findDeviceEntry (devices : List (InputDeviceInfo F)) (device : InputDeviceRef) : Nat :=
  search InputDeviceRef.lt InputDeviceInfo.device devices device

def isMatchingDevice (devices : List (InputDeviceInfo F)) (entry : Nat)
    (device : InputDeviceRef) : Bool :=
  isMatching InputDeviceInfo.device devices entry device

def hasDeviceIndex (devices : List (InputDeviceInfo F)) (deviceType : InputDeviceType)
    (deviceIndex : DeviceIndex) : Bool :=
  devices.any fun device =>
    device.device.deviceType = deviceType && device.device.deviceIndex = deviceIndex

def isSameNativeIdentity (left right : InputDeviceInfo F) : Bool :=
  left.nativeIdentity ≠ "" && left.nativeIdentityHash ≠ 0 &&
    left.nativeIdentityHash = right.nativeIdentityHash

/-- The first entry with the native identity of a device. -/
def findNativeEntry (devices : List (InputDeviceInfo F)) (device : InputDeviceInfo F) : Nat :=
  devices.findIdx fun candidate => isSameNativeIdentity candidate device

/-! ## Feeds and identities -/

def choosePrimaryBackend (device : InputDeviceInfo F) : InputDeviceBackend :=
  if device.hasBuiltInFeed then .builtIn
  else if device.hasXInputFeed then .xInput
  else if device.hasHidFeed then .rawInputHID
  else device.primaryBackend

def makeBackendName (device : InputDeviceInfo F) : String :=
  let name := ""
  let name := if device.hasBuiltInFeed then name ++ "BuiltIn" else name
  let name :=
    if device.hasXInputFeed then (if name ≠ "" then name ++ "+" else name) ++ "XInput" else name
  let name :=
    if device.hasHidFeed then (if name ≠ "" then name ++ "+" else name) ++ "RawInputHID" else name
  if name = "" then "None" else name

def refreshDeviceSummary (device : InputDeviceInfo F) : InputDeviceInfo F :=
  let primaryBackend := choosePrimaryBackend device
  let device : InputDeviceInfo F :=
    { device with
      connected := device.hasFeed
      primaryBackend
      backend := primaryBackend
      backendName := makeBackendName { device with primaryBackend, backend := primaryBackend } }
  if device.primaryBackend = .xInput && device.xInputNativeIdentity ≠ "" then
    { device with
      nativeIdentity := device.xInputNativeIdentity
      nativeIdentityHash := device.xInputNativeIdentityHash }
  else if device.primaryBackend = .rawInputHID && device.hidNativeIdentity ≠ "" then
    { device with
      nativeIdentity := device.hidNativeIdentity
      nativeIdentityHash := device.hidNativeIdentityHash }
  else device

/-- The feed and the identity of one backend, taken over from `source`. -/
def attachFeed (target source : InputDeviceInfo F) : InputDeviceInfo F :=
  match source.backend with
  | .builtIn => { target with hasBuiltInFeed := source.connected || source.hasBuiltInFeed }
  | .xInput =>
    { target with
      hasXInputFeed := source.connected || source.hasXInputFeed
      xInputNativeIdentity :=
        if source.xInputNativeIdentity ≠ "" then source.xInputNativeIdentity
        else source.nativeIdentity
      xInputNativeIdentityHash :=
        if source.xInputNativeIdentityHash ≠ 0 then source.xInputNativeIdentityHash
        else source.nativeIdentityHash }
  | .rawInputHID =>
    { target with
      hasHidFeed := source.connected || source.hasHidFeed
      hidNativeIdentity :=
        if source.hidNativeIdentity ≠ "" then source.hidNativeIdentity
        else source.nativeIdentity
      hidNativeIdentityHash :=
        if source.hidNativeIdentityHash ≠ 0 then source.hidNativeIdentityHash
        else source.nativeIdentityHash }

def attachBackendInfo (target source : InputDeviceInfo F) : InputDeviceInfo F :=
  let target : InputDeviceInfo F :=
    { target with
      deviceType := source.deviceType
      canonical := source.canonical
      displayName :=
        if source.displayName ≠ "" && (target.displayName = "" || source.backend = .rawInputHID)
        then source.displayName else target.displayName
      vendorId :=
        if target.vendorId = 0 || source.backend = .rawInputHID then source.vendorId
        else target.vendorId
      productId :=
        if target.productId = 0 || source.backend = .rawInputHID then source.productId
        else target.productId }
  let target := attachFeed target source
  let target : InputDeviceInfo F :=
    { target with
      suppressionReason :=
        if source.suppressionReason ≠ "" then source.suppressionReason
        else target.suppressionReason }
  refreshDeviceSummary target

/-- The feed of one backend set. -/
def setFeed (device : InputDeviceInfo F) (backend : InputDeviceBackend) (connected : Bool) :
    InputDeviceInfo F :=
  match backend with
  | .builtIn => { device with hasBuiltInFeed := connected }
  | .xInput => { device with hasXInputFeed := connected }
  | .rawInputHID => { device with hasHidFeed := connected }

/-- The loop body of `clearBackend`. -/
def clearFeed (backend : InputDeviceBackend) (device : InputDeviceInfo F) : InputDeviceInfo F :=
  refreshDeviceSummary <| match backend with
    | .builtIn => device
    | .xInput =>
      { device with
        hasXInputFeed := false, xInputNativeIdentity := "", xInputNativeIdentityHash := 0 }
    | .rawInputHID =>
      { device with hasHidFeed := false, hidNativeIdentity := "", hidNativeIdentityHash := 0 }

/-! ## Controls of a device -/

def addUniqueControlInfo (controls : List (InputControlInfo F)) (control : InputControlInfo F) :
    List (InputControlInfo F) :=
  let entry := controls.findIdx fun candidate => candidate.control = control.control
  if entry = controls.length then controls ++ [control]
  else if control.displayName ≠ "" then controls.set entry control
  else controls

def mergeControlInfo (target source : List (InputControlInfo F)) : List (InputControlInfo F) :=
  source.foldl addUniqueControlInfo target

def remapControl (source target : InputDeviceRef) (control : InputControlInfo F) :
    InputControlInfo F :=
  if isOnDevice control.control source then
    { control with
      control := { control.control with
        deviceType := target.deviceType, deviceIndex := target.deviceIndex } }
  else control

def remapControls (controls : List (InputControlInfo F)) (source target : InputDeviceRef) :
    List (InputControlInfo F) :=
  controls.map (remapControl source target)

/-- A record attached to an entry, with its controls. -/
def attachRecord (target source : InputDeviceInfo F) : InputDeviceInfo F :=
  let target := attachBackendInfo target source
  { target with controls := mergeControlInfo target.controls source.controls }

/-! ## The built-in devices -/

section

variable [FloatOps F]

def makeButtonControlInfo (control : InputControl) (name : String) : InputControlInfo F where
  control := control
  displayName := name
  minimumValue := FloatOps.zero
  maximumValue := FloatOps.one
  relative := false

def makeAxisControlInfo (control : InputControl) (name : String) (relative : Bool) :
    InputControlInfo F where
  control := control
  displayName := name
  minimumValue := if relative then FloatOps.neg FloatOps.one else FloatOps.zero
  maximumValue := FloatOps.one
  relative := relative

/-- `makeKeyboardKey`: a key by its USB HID usage. -/
def makeKeyboardKey (controlCode : ControlCode) : InputControl :=
  { deviceType := .keyboard, deviceIndex := 0, controlType := .button, controlCode }

def makeMouseButton (button : ControlCode) : InputControl :=
  { deviceType := .mouse, deviceIndex := 0, controlType := .button, controlCode := button }

def makeMouseAxis (axis : ControlCode) : InputControl :=
  { deviceType := .mouse, deviceIndex := 0, controlType := .axis, controlCode := axis }

def makeMouseWheel (wheel : ControlCode) : InputControl :=
  { deviceType := .mouse, deviceIndex := 0, controlType := .wheel, controlCode := wheel }

/-- The named keys with their usages. -/
def keys : List (ControlCode × String) :=
  [(0x04, "A"), (0x05, "B"), (0x06, "C"), (0x07, "D"), (0x08, "E"), (0x09, "F"), (0x0A, "G"),
    (0x0B, "H"), (0x0C, "I"), (0x0D, "J"), (0x0E, "K"), (0x0F, "L"), (0x10, "M"), (0x11, "N"),
    (0x12, "O"), (0x13, "P"), (0x14, "Q"), (0x15, "R"), (0x16, "S"), (0x17, "T"), (0x18, "U"),
    (0x19, "V"), (0x1A, "W"), (0x1B, "X"), (0x1C, "Y"), (0x1D, "Z"), (0x27, "0"), (0x1E, "1"),
    (0x1F, "2"), (0x20, "3"), (0x21, "4"), (0x22, "5"), (0x23, "6"), (0x24, "7"), (0x25, "8"),
    (0x26, "9"), (0x29, "Escape"), (0x28, "Enter"), (0x2C, "Space"), (0x2B, "Tab"),
    (0x2A, "Backspace"), (0x50, "Left Arrow"), (0x4F, "Right Arrow"), (0x52, "Up Arrow"),
    (0x51, "Down Arrow"), (0xE0, "Left Ctrl"), (0xE4, "Right Ctrl"), (0xE1, "Left Shift"),
    (0xE5, "Right Shift"), (0xE2, "Left Alt"), (0xE6, "Right Alt"), (0xE3, "Left Super"),
    (0xE7, "Right Super"), (0x3A, "F1"), (0x3B, "F2")]

def makeKeyboardControls : List (InputControlInfo F) :=
  keys.map fun key => makeButtonControlInfo (makeKeyboardKey key.1) key.2

def makeMouseControls : List (InputControlInfo F) :=
  [makeButtonControlInfo (makeMouseButton 0) "Left Button",
    makeButtonControlInfo (makeMouseButton 1) "Right Button",
    makeButtonControlInfo (makeMouseButton 2) "Middle Button",
    makeButtonControlInfo (makeMouseButton 3) "X1 Button",
    makeButtonControlInfo (makeMouseButton 4) "X2 Button",
    makeAxisControlInfo (makeMouseAxis 0) "Delta X" true,
    makeAxisControlInfo (makeMouseAxis 1) "Delta Y" true,
    { control := makeMouseWheel 0, displayName := "Vertical Wheel",
      minimumValue := FloatOps.neg FloatOps.one, maximumValue := FloatOps.one, relative := true },
    { control := makeMouseWheel 1, displayName := "Horizontal Wheel",
      minimumValue := FloatOps.neg FloatOps.one, maximumValue := FloatOps.one, relative := true }]

/-- The record of a built-in device that `addBuiltInDevices` hands to `upsertDevice`. -/
def makeBuiltInDevice (deviceType : InputDeviceType) (displayName nativeIdentity : String)
    (nativeIdentityHash : UInt64) (controls : List (InputControlInfo F)) : InputDeviceInfo F where
  device := { deviceType, deviceIndex := 0 }
  backend := .builtIn
  primaryBackend := .builtIn
  deviceType := deviceType
  displayName := displayName
  backendName := "BuiltIn"
  nativeIdentity := nativeIdentity
  nativeIdentityHash := nativeIdentityHash
  connected := true
  canonical := true
  hasBuiltInFeed := true
  controls := controls

def keyboard : InputDeviceInfo F :=
  makeBuiltInDevice .keyboard "Keyboard" "builtin:keyboard" 1 makeKeyboardControls

def mouse : InputDeviceInfo F :=
  makeBuiltInDevice .mouse "Mouse" "builtin:mouse" 2 makeMouseControls

end

/-! ## The registry -/

structure InputDeviceRegistry (F : Type*) where
  devices : List (InputDeviceInfo F) := []
  deriving DecidableEq, Repr

namespace InputDeviceRegistry

/-- The candidates of `allocateDeviceIndex` in their order. -/
def deviceIndices : List DeviceIndex := (List.range 256).map UInt8.ofNat

def allocateDeviceIndex (devices : List (InputDeviceInfo F)) (deviceType : InputDeviceType) :
    DeviceIndex :=
  (deviceIndices.find? fun deviceIndex => !hasDeviceIndex devices deviceType deviceIndex).getD 255

/-- `nextDevice` of `upsertDevice` in front of the search: the request under its own device type,
with its own feed attached. -/
def requestedInfo (deviceInfo : InputDeviceInfo F) : InputDeviceInfo F :=
  let nextDevice : InputDeviceInfo F :=
    if deviceInfo.device.deviceType ≠ deviceInfo.deviceType then
      { deviceInfo with
        device := { deviceInfo.device with deviceType := deviceInfo.deviceType } }
    else deviceInfo
  attachRecord nextDevice deviceInfo

def upsertDevice (registry : InputDeviceRegistry F) (deviceInfo : InputDeviceInfo F) :
    InputDeviceRegistry F × InputDeviceRef :=
  let devices := registry.devices
  let nextDevice := requestedInfo deviceInfo
  let requestedDevice := deviceInfo.device
  let nativeEntry := findNativeEntry devices nextDevice
  match devices[nativeEntry]? with
  | some native =>
    let merged := attachRecord native
      { nextDevice with
        controls := remapControls nextDevice.controls requestedDevice native.device }
    (⟨(devices.set nativeEntry merged).insertionSort fun left right =>
      right.device.lt left.device = false⟩, merged.device)
  | none =>
    let nextDevice : InputDeviceInfo F :=
      if hasDeviceIndex devices nextDevice.device.deviceType nextDevice.device.deviceIndex then
        let device : InputDeviceRef :=
          { nextDevice.device with
            deviceIndex := allocateDeviceIndex devices nextDevice.device.deviceType }
        { nextDevice with
          device
          controls := remapControls nextDevice.controls requestedDevice device }
      else nextDevice
    let deviceEntry := findDeviceEntry devices nextDevice.device
    if isMatchingDevice devices deviceEntry nextDevice.device then
      (⟨devices.set deviceEntry nextDevice⟩, nextDevice.device)
    else (⟨devices.insertIdx deviceEntry nextDevice⟩, nextDevice.device)

/-- The entry of a device, rewritten in place; nothing happens to an unknown device. -/
def modifyDevice (registry : InputDeviceRegistry F) (device : InputDeviceRef)
    (change : InputDeviceInfo F → InputDeviceInfo F) : InputDeviceRegistry F :=
  let entry := findDeviceEntry registry.devices device
  if isMatchingDevice registry.devices entry device then
    ⟨registry.devices.modify entry change⟩
  else registry

def mergeDeviceBackend (registry : InputDeviceRegistry F) (device : InputDeviceRef)
    (backendInfo : InputDeviceInfo F) : InputDeviceRegistry F × InputDeviceRef :=
  let entry := findDeviceEntry registry.devices device
  if !isMatchingDevice registry.devices entry device then registry.upsertDevice backendInfo
  else
    (registry.modifyDevice device fun target => attachRecord target backendInfo, device)

def setDeviceConnected (registry : InputDeviceRegistry F) (device : InputDeviceRef)
    (connected : Bool) : InputDeviceRegistry F :=
  registry.modifyDevice device fun entry =>
    let entry : InputDeviceInfo F := { entry with connected }
    refreshDeviceSummary
      (if !connected then { entry with hasXInputFeed := false, hasHidFeed := false } else entry)

def setDeviceBackendConnected (registry : InputDeviceRegistry F) (device : InputDeviceRef)
    (backend : InputDeviceBackend) (connected : Bool) : InputDeviceRegistry F :=
  registry.modifyDevice device fun entry =>
    refreshDeviceSummary (setFeed entry backend connected)

def setDeviceCanonical (registry : InputDeviceRegistry F) (device : InputDeviceRef)
    (canonical : Bool) : InputDeviceRegistry F :=
  registry.modifyDevice device fun entry => { entry with canonical }

def mergeDeviceControls (registry : InputDeviceRegistry F) (device : InputDeviceRef)
    (controls : List (InputControlInfo F)) : InputDeviceRegistry F :=
  registry.modifyDevice device fun entry =>
    { entry with controls := mergeControlInfo entry.controls controls }

def clearBackend (registry : InputDeviceRegistry F) (backend : InputDeviceBackend) :
    InputDeviceRegistry F :=
  if backend = .builtIn then registry
  else ⟨(registry.devices.map (clearFeed backend)).filter (·.hasFeed)⟩

/-- The constructor: a registry with the built-in devices. -/
def new [FloatOps F] : InputDeviceRegistry F :=
  ((upsertDevice {} keyboard).1.upsertDevice mouse).1

end InputDeviceRegistry

/-! ## Operations -/

inductive RegistryOperation (F : Type*) where
  | upsertDevice (deviceInfo : InputDeviceInfo F)
  | mergeDeviceBackend (device : InputDeviceRef) (backendInfo : InputDeviceInfo F)
  | setDeviceConnected (device : InputDeviceRef) (connected : Bool)
  | setDeviceBackendConnected (device : InputDeviceRef) (backend : InputDeviceBackend)
      (connected : Bool)
  | setDeviceCanonical (device : InputDeviceRef) (canonical : Bool)
  | mergeDeviceControls (device : InputDeviceRef) (controls : List (InputControlInfo F))
  | clearBackend (backend : InputDeviceBackend)
  deriving DecidableEq, Repr

def InputDeviceRegistry.apply (registry : InputDeviceRegistry F) :
    RegistryOperation F → InputDeviceRegistry F
  | .upsertDevice deviceInfo => (registry.upsertDevice deviceInfo).1
  | .mergeDeviceBackend device backendInfo => (registry.mergeDeviceBackend device backendInfo).1
  | .setDeviceConnected device connected => registry.setDeviceConnected device connected
  | .setDeviceBackendConnected device backend connected =>
    registry.setDeviceBackendConnected device backend connected
  | .setDeviceCanonical device canonical => registry.setDeviceCanonical device canonical
  | .mergeDeviceControls device controls => registry.mergeDeviceControls device controls
  | .clearBackend backend => registry.clearBackend backend

/-- One operation; `mergeDeviceControls` is called with controls of the device it names. -/
def registryStep (registry : InputDeviceRegistry F) (operation : RegistryOperation F) :
    Option (InputDeviceRegistry F) :=
  match operation with
  | .mergeDeviceControls device controls =>
    if controls.all fun control => isOnDevice control.control device then
      some (registry.apply operation)
    else none
  | _ => some (registry.apply operation)

end Input

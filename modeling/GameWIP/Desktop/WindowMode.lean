import GameWIP.Io.Status

/-!
# Windowed and fullscreen modes of a window

The mode transitions of a window (`platform/win32/win32_mode.cpp`) and the life of its exclusive
display mode (`leaveExclusive`, `suspendExclusive`, `resumeExclusive` in
`platform/win32/win32_window.cpp`).

What the native calls answer comes with each operation. A call that goes through
`statusFromWin32` answers with its status, a display change with its result. `changes` records the
display changes the window made, so that what the displays show is a function of the state
(`shown`). Styles, rectangles and placements only go from one native call to another and are left
out.
-/

namespace Desktop

namespace Fullscreen

open Io (ErrorCode Status makeStatus successStatus)

abbrev MonitorId := Nat

/-- A GDI device name. -/
abbrev Device := String

/-- The part of `DEVMODEW` that display modes are compared by. -/
structure NativeMode where
  dmPelsWidth : Nat := 0
  dmPelsHeight : Nat := 0
  dmBitsPerPel : Nat := 0
  dmDisplayFrequency : Nat := 0
  /-- `DM_INTERLACED` in `dmDisplayFlags`. -/
  interlaced : Bool := false
  deriving DecidableEq, Repr

/-- `Types::Display::Mode`. -/
structure DisplayMode where
  width : Nat := 0
  height : Nat := 0
  refreshRateMillihertz : Nat := 0
  bitsPerPixel : Nat := 0
  interlaced : Bool := false
  deriving DecidableEq, Repr

inductive WindowMode where
  | windowed
  | borderlessFullscreen
  | exclusiveFullscreen
  deriving DecidableEq, Repr

inductive WindowModeRequest where
  | windowed
  | borderlessFullscreen (targetMonitor : Option MonitorId)
  | exclusiveFullscreen (targetMonitor : Option MonitorId) (displayMode : Option DisplayMode)
  deriving DecidableEq, Repr

structure FullscreenState where
  monitor : Option MonitorId := none
  requestedDisplayMode : Option DisplayMode := none
  activeDisplayMode : Option DisplayMode := none
  displayModeMatchedExactly : Bool := false
  suspended : Bool := false
  deriving DecidableEq, Repr

/-! ## Display changes -/

/-- Why a display mode is changed. -/
inductive Purpose where
  /-- `leaveExclusive`. -/
  | restoreDesktop
  | suspend
  | validateResume
  | resume
  | validateExclusive
  | enterExclusive
  /-- The rollback of the display that the failed transition changed. -/
  | rollbackRequested
  /-- The rollback to the display mode in front of the transition. -/
  | restorePrevious
  deriving DecidableEq, Repr

/-- The operation named in the status of a failure. -/
def Purpose.operation : Purpose → String
  | .restoreDesktop => "restore desktop display mode"
  | .suspend => "suspend exclusive fullscreen"
  | .validateResume => "validate resumed exclusive fullscreen display mode"
  | .resume => "resume exclusive fullscreen"
  | .validateExclusive => "validate exclusive fullscreen display mode"
  | .enterExclusive => "enter exclusive fullscreen"
  | .rollbackRequested => "rollback requested exclusive display mode"
  | .restorePrevious => "restore previous exclusive display mode"

/-- The flags of `ChangeDisplaySettingsExW`; `none` is zero, which gives the desktop back its mode. -/
inductive ChangeFlags where
  | none
  | test
  | fullscreen
  deriving DecidableEq, Repr

def Purpose.flags : Purpose → ChangeFlags
  | .restoreDesktop | .suspend | .rollbackRequested => .none
  | .validateResume | .validateExclusive => .test
  | .resume | .enterExclusive | .restorePrevious => .fullscreen

/-- A call of `ChangeDisplaySettingsExW`; `DISP_CHANGE_SUCCESSFUL` is zero. -/
structure DisplayChange where
  device : Device
  mode : NativeMode
  purpose : Purpose
  result : Int
  deriving DecidableEq, Repr

def statusFromDisplayChange (nativeCode : Int) (operation : String) : Status where
  -- `DISP_CHANGE_BADMODE`, `DISP_CHANGE_BADPARAM`; `DISP_CHANGE_NOTUPDATED`
  code :=
    if nativeCode = -2 ∨ nativeCode = -5 then .invalidArgument
    else if nativeCode = -3 then .permissionDenied
    else .nativeFailure
  nativeCode := nativeCode
  message := operation ++ " failed with display status " ++ toString nativeCode

def DisplayChange.status (c : DisplayChange) : Status :=
  statusFromDisplayChange c.result c.purpose.operation

/-- The mode that the window made a display show, behind these changes. -/
def shown : List DisplayChange → Device → Option NativeMode
  | [], _ => none
  | c :: earlier, device =>
    if c.result = 0 ∧ c.device = device then
      match c.purpose.flags with
      | .none => none
      | .test => shown earlier device
      | .fullscreen => some c.mode
    else shown earlier device

/-! ## The window -/

structure WindowData where
  /-- Whether the native handle is there. -/
  handle : Bool := true
  hasWindowedPlacement : Bool := false
  exclusiveDevice : Device := ""
  savedDisplayMode : NativeMode := {}
  activeNativeDisplayMode : NativeMode := {}
  activeDisplayMode : DisplayMode := {}
  hasSavedDisplayMode : Bool := false
  exclusiveSuspended : Bool := false
  exactDisplayMode : Bool := false
  modeTransitionDepth : Nat := 0
  deriving DecidableEq, Repr

structure WindowState where
  mode : WindowMode := .windowed
  fullscreen : FullscreenState := {}
  data : WindowData := {}
  /-- The display changes made for the window, the last one first. -/
  changes : List DisplayChange := []
  deriving DecidableEq, Repr

/-- `ChangeDisplaySettingsExW`. -/
def changeDisplaySettings (s : WindowState) (device : Device) (mode : NativeMode) (purpose : Purpose)
    (result : Int) : WindowState :=
  { s with changes := ⟨device, mode, purpose, result⟩ :: s.changes }

/-- The window owns no display mode any more. -/
def clearExclusive (s : WindowState) : WindowState :=
  { s with
    fullscreen := {}
    data := { s.data with
      hasSavedDisplayMode := false
      exclusiveSuspended := false
      exclusiveDevice := ""
      activeDisplayMode := {}
      activeNativeDisplayMode := {} } }

/-- Leaves exclusive mode and restores the saved desktop display mode. -/
def leaveExclusive (s : WindowState) (result : Int) : WindowState × Status :=
  if s.data.hasSavedDisplayMode = false then ({ s with fullscreen := {} }, successStatus)
  else if s.data.exclusiveSuspended then (clearExclusive s, successStatus)
  else
    let s := changeDisplaySettings s s.data.exclusiveDevice s.data.savedDisplayMode .restoreDesktop
      result
    if result ≠ 0 then (s, statusFromDisplayChange result Purpose.restoreDesktop.operation)
    else (clearExclusive s, successStatus)

/-- Temporarily releases exclusive mode while another process is active. -/
def suspendExclusive (s : WindowState) (result : Int) : WindowState × Status :=
  if s.data.modeTransitionDepth ≠ 0 ∨ s.data.hasSavedDisplayMode = false ∨
      s.data.exclusiveSuspended = true then (s, successStatus)
  else
    let s := changeDisplaySettings s s.data.exclusiveDevice s.data.savedDisplayMode .suspend result
    if result ≠ 0 then (s, statusFromDisplayChange result Purpose.suspend.operation)
    else
      ({ s with
        data := { s.data with exclusiveSuspended := true }
        fullscreen := { s.fullscreen with suspended := true } }, successStatus)

/-- Reclaims exclusive mode after this process becomes active again. -/
def resumeExclusive (s : WindowState) (validationResult result : Int) : WindowState × Status :=
  if s.data.modeTransitionDepth ≠ 0 ∨ s.data.hasSavedDisplayMode = false ∨
      s.data.exclusiveSuspended = false then (s, successStatus)
  else
    let s := changeDisplaySettings s s.data.exclusiveDevice s.data.activeNativeDisplayMode
      .validateResume validationResult
    if validationResult ≠ 0 then
      (s, statusFromDisplayChange validationResult Purpose.validateResume.operation)
    else
      let s := changeDisplaySettings s s.data.exclusiveDevice s.data.activeNativeDisplayMode .resume
        result
      if result ≠ 0 then (s, statusFromDisplayChange result Purpose.resume.operation)
      else
        ({ s with
          data := { s.data with exclusiveSuspended := false }
          fullscreen := { s.fullscreen with suspended := false } }, successStatus)

/-! ## Requests -/

structure ResolvedWindowModeRequest where
  mode : WindowMode := .windowed
  targetMonitor : Option MonitorId := none
  displayMode : Option DisplayMode := none
  deriving DecidableEq, Repr

def resolveWindowModeRequest : WindowModeRequest → ResolvedWindowModeRequest
  | .windowed => {}
  | .borderlessFullscreen targetMonitor => ⟨.borderlessFullscreen, targetMonitor, none⟩
  | .exclusiveFullscreen targetMonitor displayMode =>
    ⟨.exclusiveFullscreen, targetMonitor, displayMode⟩

/-- The refresh rate of a native mode; a frequency of zero or one is the default of the device. -/
def NativeMode.refreshRateMillihertz (native : NativeMode) : Nat :=
  if native.dmDisplayFrequency > 1 then native.dmDisplayFrequency * 1000 % 2 ^ 32 else 0

/-- Compares a native display mode with the portable mode contract. -/
def displayModeMatches (native : NativeMode) (mode : DisplayMode) : Bool :=
  native.dmPelsWidth == mode.width && native.dmPelsHeight == mode.height &&
    native.dmBitsPerPel == mode.bitsPerPixel &&
    native.refreshRateMillihertz == mode.refreshRateMillihertz && native.interlaced == mode.interlaced

/-- Finds the exact native display mode requested by the caller. -/
def findNativeMode (modes : List NativeMode) (requested : DisplayMode) : Except Status NativeMode :=
  match modes.find? fun candidate => displayModeMatches candidate requested with
  | some native => .ok native
  | none => .error (makeStatus .invalidArgument)

/-- The portable mode of the current native one. -/
def NativeMode.active (current : NativeMode) : DisplayMode where
  width := current.dmPelsWidth
  height := current.dmPelsHeight
  refreshRateMillihertz := current.refreshRateMillihertz
  bitsPerPixel := current.dmBitsPerPel % 2 ^ 16
  interlaced := current.interlaced

/-! ## Rollback -/

structure ModeSnapshot where
  mode : WindowMode
  fullscreen : FullscreenState
  exclusiveDevice : Device
  savedDisplayMode : NativeMode
  activeNativeDisplayMode : NativeMode
  activeDisplayMode : DisplayMode
  hasSavedDisplayMode : Bool
  exclusiveSuspended : Bool
  exactDisplayMode : Bool
  deriving DecidableEq, Repr

/-- Captures every portable value needed for transactional rollback. -/
def captureModeSnapshot (s : WindowState) : ModeSnapshot where
  mode := s.mode
  fullscreen := s.fullscreen
  exclusiveDevice := s.data.exclusiveDevice
  savedDisplayMode := s.data.savedDisplayMode
  activeNativeDisplayMode := s.data.activeNativeDisplayMode
  activeDisplayMode := s.data.activeDisplayMode
  hasSavedDisplayMode := s.data.hasSavedDisplayMode
  exclusiveSuspended := s.data.exclusiveSuspended
  exactDisplayMode := s.data.exactDisplayMode

/-- The answers of a rollback. -/
structure RollbackAnswers where
  requested : Int := 0
  previous : Int := 0
  style : Status := successStatus
  extendedStyle : Status := successStatus
  bounds : Status := successStatus
  geometry : Status := successStatus
  deriving DecidableEq, Repr

/-- A later failure takes the place of an earlier one. -/
def lastFailure (status next : Status) : Status := if next.ok then status else next

/-- Restores a captured mode snapshot after a failed transition. -/
def restoreModeSnapshot (s : WindowState) (snapshot : ModeSnapshot) (a : RollbackAnswers) :
    WindowState × Status :=
  let (s, rollback) :=
    if s.data.hasSavedDisplayMode ∧ s.data.exclusiveSuspended = false then
      (changeDisplaySettings s s.data.exclusiveDevice s.data.savedDisplayMode .rollbackRequested
          a.requested,
        if a.requested ≠ 0 then
          statusFromDisplayChange a.requested Purpose.rollbackRequested.operation
        else successStatus)
    else (s, successStatus)
  let (s, rollback) :=
    if snapshot.hasSavedDisplayMode ∧ snapshot.exclusiveSuspended = false then
      (changeDisplaySettings s snapshot.exclusiveDevice snapshot.activeNativeDisplayMode
          .restorePrevious a.previous,
        if a.previous ≠ 0 then statusFromDisplayChange a.previous Purpose.restorePrevious.operation
        else rollback)
    else (s, rollback)
  let s := { s with
    data := { s.data with
      exclusiveDevice := snapshot.exclusiveDevice
      savedDisplayMode := snapshot.savedDisplayMode
      activeNativeDisplayMode := snapshot.activeNativeDisplayMode
      activeDisplayMode := snapshot.activeDisplayMode
      hasSavedDisplayMode := snapshot.hasSavedDisplayMode
      exclusiveSuspended := snapshot.exclusiveSuspended
      exactDisplayMode := snapshot.exactDisplayMode }
    mode := snapshot.mode
    fullscreen := snapshot.fullscreen }
  let rollback := lastFailure (lastFailure (lastFailure rollback a.style) a.extendedStyle) a.bounds
  (s, if a.geometry.ok then rollback else a.geometry)

/-- The original transition failure, unless the rollback also failed. -/
def failWithRollback (s : WindowState) (snapshot : ModeSnapshot) (a : RollbackAnswers)
    (failure : Status) : WindowState × Status :=
  let (s, rollback) := restoreModeSnapshot s snapshot a
  (s, if rollback.ok then failure else rollback)

/-! ## Transitions -/

/-- The answers of one `setWindowMode`. -/
structure ModeAnswers where
  /-- `monitorFromNative` of the target monitor. -/
  monitor : Except Status MonitorId := .ok 1
  /-- `monitorDeviceName`. -/
  device : Device := "DISPLAY1"
  /-- `EnumDisplaySettingsExW`, index for index. -/
  nativeModes : List NativeMode := []
  windowRect : Status := successStatus
  savePlacement : Status := successStatus
  capture : Status := successStatus
  leave : Int := 0
  /-- The current display mode of the device. -/
  current : Except Status NativeMode := .ok {}
  validation : Int := 0
  enter : Int := 0
  applyStyle : Status := successStatus
  setPlacement : Status := successStatus
  placeFullscreen : Status := successStatus
  /-- `refreshCachedGeometry` at the end of the transition. -/
  geometry : Status := successStatus
  rollback : RollbackAnswers := {}
  /-- Whether the foreground window belongs to this process. -/
  foreground : Bool := true
  activationValidation : Int := 0
  activation : Int := 0

/-- The display of a fullscreen request. -/
structure Target where
  monitor : MonitorId
  device : Device
  /-- `requestedNativeMode`, when there is one. -/
  nativeMode : Option NativeMode
  deriving DecidableEq, Repr

/-- The monitor, its device and the native mode of a fullscreen request. -/
def resolveTarget (resolved : ResolvedWindowModeRequest) (a : ModeAnswers) : Except Status Target :=
  match a.monitor with
  | .error status => .error status
  | .ok monitor =>
    if a.device = "" then .error (makeStatus .notFound)
    else
      match resolved.mode, resolved.displayMode with
      | .exclusiveFullscreen, some displayMode =>
        match findNativeMode a.nativeModes displayMode with
        | .error status => .error status
        | .ok native => .ok ⟨monitor, a.device, some native⟩
      | _, _ => .ok ⟨monitor, a.device, none⟩

/-- Whether exclusive fullscreen is already what the request asks for. -/
def satisfied (s : WindowState) (resolved : ResolvedWindowModeRequest) (target : Target) : Bool :=
  s.mode == resolved.mode && s.fullscreen.monitor == some target.monitor &&
    !s.fullscreen.suspended && resolved.mode == .exclusiveFullscreen &&
    (resolved.displayMode.isSome && s.fullscreen.displayModeMatchedExactly &&
        s.fullscreen.requestedDisplayMode == resolved.displayMode ||
      resolved.displayMode.isNone && !s.fullscreen.displayModeMatchedExactly)

/-- The transition to windowed mode. -/
def enterWindowed (s : WindowState) (snapshot : ModeSnapshot) (a : ModeAnswers) :
    WindowState × Status :=
  let (s, status) := leaveExclusive s a.leave
  if !status.ok then (s, status)
  else
    let s := { s with mode := .windowed, fullscreen := {} }
    if !a.applyStyle.ok then failWithRollback s snapshot a.rollback a.applyStyle
    else if s.data.hasWindowedPlacement && !a.setPlacement.ok then
      failWithRollback s snapshot a.rollback a.setPlacement
    else (s, a.geometry)

/-- The end of a transition to fullscreen. -/
def placeFullscreen (s : WindowState) (snapshot : ModeSnapshot) (a : ModeAnswers) :
    WindowState × Status :=
  let status := if a.applyStyle.ok then a.placeFullscreen else a.applyStyle
  if !status.ok then failWithRollback s snapshot a.rollback status
  else (s, a.geometry)

/-- The transition to borderless or exclusive fullscreen. -/
def enterFullscreen (s : WindowState) (resolved : ResolvedWindowModeRequest) (target : Target)
    (snapshot : ModeSnapshot) (a : ModeAnswers) : WindowState × Status :=
  let (s, status) := leaveExclusive s a.leave
  if !status.ok then (s, status)
  else if resolved.mode = .exclusiveFullscreen then
    match a.current with
    | .error status => failWithRollback s snapshot a.rollback status
    | .ok current =>
      let desired := target.nativeMode.getD current
      let active := if target.nativeMode.isSome then resolved.displayMode.getD {} else current.active
      let exact := target.nativeMode.isSome
      let s := { s with data := { s.data with exclusiveDevice := target.device } }
      let s := changeDisplaySettings s target.device desired .validateExclusive a.validation
      if a.validation ≠ 0 then
        failWithRollback s snapshot a.rollback
          (statusFromDisplayChange a.validation Purpose.validateExclusive.operation)
      else
        let s := changeDisplaySettings s target.device desired .enterExclusive a.enter
        if a.enter ≠ 0 then
          failWithRollback s snapshot a.rollback
            (statusFromDisplayChange a.enter Purpose.enterExclusive.operation)
        else
          placeFullscreen { s with
            data := { s.data with
              savedDisplayMode := current
              activeNativeDisplayMode := desired
              hasSavedDisplayMode := true
              exclusiveSuspended := false
              activeDisplayMode := active
              exactDisplayMode := exact }
            mode := resolved.mode
            fullscreen := ⟨some target.monitor, resolved.displayMode, some active, exact, false⟩ }
            snapshot a
  else
    placeFullscreen { s with
      mode := .borderlessFullscreen
      fullscreen := ⟨some target.monitor, none, none, false, false⟩ } snapshot a

/-- A transition with `modeTransitionDepth` raised (`ModeTransitionScope`). -/
def inTransition (s : WindowState) (f : WindowState → WindowState × Status) : WindowState × Status :=
  let (s, status) :=
    f { s with data := { s.data with modeTransitionDepth := s.data.modeTransitionDepth + 1 } }
  ({ s with data := { s.data with modeTransitionDepth := s.data.modeTransitionDepth - 1 } }, status)

/-- The part of `applyWindowMode` behind the request. -/
def beginTransition (s : WindowState) (resolved : ResolvedWindowModeRequest) (a : ModeAnswers)
    (enter : WindowState → ModeSnapshot → WindowState × Status) : WindowState × Status :=
  if !a.windowRect.ok then (s, a.windowRect)
  else
    let save := s.mode = .windowed ∧ resolved.mode ≠ .windowed
    if save ∧ a.savePlacement.ok = false then (s, a.savePlacement)
    else
      let s :=
        if save then { s with data := { s.data with hasWindowedPlacement := true } } else s
      if !a.capture.ok then (s, a.capture)
      else inTransition s fun r => enter r (captureModeSnapshot s)

def applyWindowMode (s : WindowState) (request : WindowModeRequest) (a : ModeAnswers) :
    WindowState × Status :=
  if s.data.handle = false then (s, makeStatus .notOpen)
  else if s.data.modeTransitionDepth ≠ 0 then
    -- `ERROR_BUSY`
    (s, ⟨.resourceBusy, 170, "a native window mode transition is already active"⟩)
  else
    let resolved := resolveWindowModeRequest request
    if resolved.mode = .windowed then
      if s.mode = .windowed then (s, successStatus)
      else beginTransition s resolved a fun s snapshot => enterWindowed s snapshot a
    else
      match resolveTarget resolved a with
      | .error status => (s, status)
      | .ok target =>
        if satisfied s resolved target then (s, successStatus)
        else beginTransition s resolved a fun s snapshot => enterFullscreen s resolved target snapshot a

/-- The display mode is given up or taken back, as the process is in the foreground. -/
def activate (s : WindowState) (a : ModeAnswers) : WindowState × Status :=
  if a.foreground then resumeExclusive s a.activationValidation a.activation
  else suspendExclusive s a.activation

def setWindowMode (s : WindowState) (request : WindowModeRequest) (a : ModeAnswers) :
    WindowState × Status :=
  let (s, transition) := applyWindowMode s request a
  let (s, activation) := activate s a
  (s, if transition.ok then activation else transition)

/-! ## Display-change recovery -/

/-- The answers of one `recoverAfterDisplayChange`. -/
structure RecoverAnswers where
  /-- Whether the monitor of the fullscreen state is there. -/
  monitorConnected : Bool := true
  /-- `monitorFromNative` of the primary monitor. -/
  portablePrimary : Status := successStatus
  /-- Whether there is a primary monitor, and its `GetMonitorInfoW`. -/
  primary : Status := successStatus
  primaryInfo : Status := successStatus
  leave : Int := 0
  applyStyle : Status := successStatus
  place : Status := successStatus
  geometry : Status := successStatus
  deriving DecidableEq, Repr

/-- The failure to resolve the primary monitor, or success. -/
def RecoverAnswers.monitorFailure (a : RecoverAnswers) : Status :=
  if !a.portablePrimary.ok then a.portablePrimary
  else if !a.primary.ok then a.primary
  else a.primaryInfo

/-- An earlier failure is kept. -/
def firstFailure (status next : Status) : Status := if status.ok then next else status

/-- `fullscreenMonitorConnected`. -/
def fullscreenMonitorConnected (s : WindowState) (a : RecoverAnswers) : Bool :=
  s.fullscreen.monitor.isSome && a.monitorConnected

def recoverAfterDisplayChange (s : WindowState) (forceRemovedMonitor : Bool) (a : RecoverAnswers) :
    WindowState × Status :=
  if s.data.handle = false then (s, makeStatus .notOpen)
  else if s.mode = .windowed ∨ (forceRemovedMonitor = false ∧ fullscreenMonitorConnected s a) then
    (s, successStatus)
  else if !a.monitorFailure.ok then
    ({ s with fullscreen := {}, mode := .windowed }, a.monitorFailure)
  else if s.data.modeTransitionDepth ≠ 0 then (s, successStatus)
  else
    inTransition s fun s =>
      let connected := fullscreenMonitorConnected s a
      let (s, left) := leaveExclusive s a.leave
      -- the topology change has already removed the mode of a disconnected monitor
      let failure := if !connected && !left.ok then successStatus else left
      let s := clearExclusive { s with
        mode := .windowed
        data := { s.data with exactDisplayMode := false } }
      (s, firstFailure (firstFailure (firstFailure failure a.applyStyle) a.place) a.geometry)

/-! ## Operations -/

inductive Operation where
  | setWindowMode (request : WindowModeRequest) (answers : ModeAnswers)
  | suspendExclusive (result : Int)
  | resumeExclusive (validationResult result : Int)
  | leaveExclusive (result : Int)
  | recoverAfterDisplayChange (forceRemovedMonitor : Bool) (answers : RecoverAnswers)

def perform (s : WindowState) : Operation → WindowState × Status
  | .setWindowMode request answers => setWindowMode s request answers
  | .suspendExclusive result => suspendExclusive s result
  | .resumeExclusive validationResult result => resumeExclusive s validationResult result
  | .leaveExclusive result => leaveExclusive s result
  | .recoverAfterDisplayChange forceRemovedMonitor answers =>
    recoverAfterDisplayChange s forceRemovedMonitor answers

def step (s : WindowState) (op : Operation) : Option WindowState := some (perform s op).1

end Fullscreen

end Desktop

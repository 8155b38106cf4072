import GameWIP.Lib.Chain

/-!
# Progress dialogs and the windows they block

The native side of progress dialogs (`platform/win32/win32_progress_dialog.cpp`), the life of a
`ProgressDialog` around it (`core/progress_dialog.cpp`) and the windows that own dialogs, as far as
they take part: `notifyProgressOwnerLoss`, and the close of a window with its rollback
(`platform/win32/win32_window_lifecycle.cpp`). All of it is on one owner thread.

A dialog may disable its owner. Whoever removes the last one that does has to enable the owner
again; when that fails, the obligation waits in a chain of the dispatcher.

What the native calls answer comes with each operation (`Outcomes`). `DestroyWindow` that succeeds
sends `WM_NCDESTROY` to the window procedure before it returns, so the handle is gone then.
-/

namespace Desktop

namespace ProgressDialog

open Lib (Intrusive)

abbrev WindowId := Nat

abbrev DialogId := Nat

abbrev NativeHandle := Nat

/-- The native side of a progress dialog. `handle` says that the handle is not null. -/
structure ProgressDialogData where
  handle : Bool := false
  nativeOwner : Option NativeHandle := none
  classReferenceHeld : Bool := false
  registered : Bool := false
  blockingOwner : Bool := false
  destroying : Bool := false
  deriving DecidableEq, Repr

structure ProgressDialogState where
  platform : Option ProgressDialogData := none
  ownerId : Option WindowId
  blocksOwner : Bool
  nativeDestroyedPendingFinalize : Bool := false
  ownerRestorePending : Bool := false
  deriving DecidableEq, Repr

/-- A window with its platform. `enabled` is what `IsWindowEnabled` answers. -/
structure WindowState where
  handle : Option NativeHandle
  interactionEnabled : Bool
  enabled : Bool
  destroying : Bool := false
  deriving DecidableEq, Repr

/-- The answers of the native calls of one operation, in order. Behind the last one they succeed. -/
structure Outcomes where
  destroyWindow : List Bool := []
  enableWindow : List Bool := []
  unregisterClass : List Bool := []
  deriving DecidableEq, Repr

structure State where
  /-- `windowRegistry`. -/
  windows : WindowId → Option WindowState := fun _ => none
  nextWindowId : WindowId := 1
  /-- The allocated states. -/
  dialogs : DialogId → Option ProgressDialogState := fun _ => none
  nextDialogId : DialogId := 0
  progressDialogs : List DialogId := []
  /-- `pendingProgressOwnerRestoreHead` and the links `pendingOwnerRestoreNext`. -/
  pendingRestore : Intrusive DialogId := {}
  /-- The chain behind `deferredProgressDialogCleanupHead`. -/
  deferred : List DialogId := []
  /-- The states that a `ProgressDialog` owns. -/
  owned : DialogId → Bool := fun _ => false
  progressClassUsers : Nat := 0
  progressClassOwned : Bool := false
  outcomes : Outcomes := {}

/-! ## Parts of the state -/

def setWindow (s : State) (w : WindowId) (window : Option WindowState) : State :=
  { s with windows := Function.update s.windows w window }

def setDialog (s : State) (d : DialogId) (dialog : Option ProgressDialogState) : State :=
  { s with dialogs := Function.update s.dialogs d dialog }

/-! ## Native calls -/

/-- `DestroyWindow`, of any window. -/
def destroyWindow (s : State) : State × Bool :=
  ({ s with outcomes := { s.outcomes with destroyWindow := s.outcomes.destroyWindow.tail } },
    s.outcomes.destroyWindow.headD true)

/-- `EnableWindow` with the query behind it, which says whether it had an effect. -/
def enableWindow (s : State) (w : WindowId) (window : WindowState) (enable : Bool) : State × Bool :=
  let effective := s.outcomes.enableWindow.headD true
  let s := { s with outcomes := { s.outcomes with enableWindow := s.outcomes.enableWindow.tail } }
  let enabled := if effective then enable else window.enabled
  (setWindow s w (some { window with enabled := enabled }), enabled == enable)

/-- `alreadyExists`: the class is registered by someone else. -/
def acquireProgressClass (s : State) (alreadyExists : Bool) : State :=
  if s.progressClassUsers ≠ 0 then
    { s with progressClassUsers := s.progressClassUsers + 1 }
  else
    { s with progressClassUsers := 1, progressClassOwned := !alreadyExists }

def releaseProgressClass (s : State) : State × Bool :=
  if s.progressClassUsers = 0 then (s, true)
  else if s.progressClassUsers - 1 ≠ 0 ∨ s.progressClassOwned = false then
    ({ s with progressClassUsers := s.progressClassUsers - 1 }, true)
  else
    let outcomes := { s.outcomes with unregisterClass := s.outcomes.unregisterClass.tail }
    if s.outcomes.unregisterClass.headD true then
      ({ s with progressClassUsers := 0, progressClassOwned := false, outcomes := outcomes }, true)
    else
      ({ s with outcomes := outcomes }, false)

/-! ## Owner restoration -/

def resolveWindowId (s : State) (id : Option WindowId) : Option WindowState := id.bind s.windows

/-- Whether a state is a registered dialog that blocks the window. -/
def blocks (window : WindowId) (state : ProgressDialogState) : Bool :=
  match state.platform with
  | some data =>
    !state.nativeDestroyedPendingFinalize && state.ownerId == some window && state.blocksOwner &&
      data.blockingOwner
  | none => false

def windowHasBlockingProgressDialog (s : State) (window : WindowId) : Bool :=
  s.progressDialogs.any fun d => (s.dialogs d).any (blocks window)

/-- Re-enables a blocked window after its last blocking progress dialog is gone. -/
def restoreOwnerAfterRemoval (s : State) (state : ProgressDialogState) : State × Bool :=
  match state.ownerId, resolveWindowId s state.ownerId, state.platform with
  | some w, some owner, some data =>
    if owner.handle = data.nativeOwner ∧ owner.destroying = false ∧ owner.handle ≠ none ∧
        windowHasBlockingProgressDialog s w = false then
      enableWindow s w owner owner.interactionEnabled
    else (s, true)
  | _, _, _ => (s, true)

def queueProgressOwnerRestore (s : State) (d : DialogId) (state : ProgressDialogState) : State :=
  if state.ownerRestorePending then s
  else
    { setDialog s d (some { state with ownerRestorePending := true }) with
      pendingRestore := s.pendingRestore.push d }

/-- The record at `link` is taken out of the chain. -/
def unlinkPending (s : State) (link : Option DialogId) (d : DialogId) (state : ProgressDialogState) :
    State :=
  { setDialog s d (some { state with ownerRestorePending := false }) with
    pendingRestore := s.pendingRestore.unlink link d }

/-- Links enough for every allocated state. -/
def fuel (s : State) : Nat := s.nextDialogId + 1

def cancelProgressOwnerRestore (s : State) (d : DialogId) (state : ProgressDialogState) :
    Option State :=
  if state.ownerRestorePending then
    (s.pendingRestore.findLink d (fuel s) none).map fun link =>
      if s.pendingRestore.read link = some d then unlinkPending s link d state
      else
        { setDialog s d (some { state with ownerRestorePending := false }) with
          pendingRestore := { s.pendingRestore with
            next := Function.update s.pendingRestore.next d none } }
  else some s

def unregisterOpenProgressDialog (s : State) (d : DialogId) : State :=
  { s with progressDialogs := s.progressDialogs.erase d }

/-! ## The close of a dialog -/

/-- The handle of a dialog is destroyed, when it has one. -/
def destroyHandle (s : State) (d : DialogId) (state : ProgressDialogState)
    (data : ProgressDialogData) : State × ProgressDialogData × Bool :=
  if data.handle then
    let (s, destroyed) := destroyWindow s
    if destroyed then
      -- `WM_NCDESTROY` with `destroying` set
      let data := { data with handle := false, destroying := true }
      (setDialog s d (some { state with platform := some data }), data, true)
    else
      let data := { data with destroying := false }
      (setDialog s d (some { state with platform := some data }), data, false)
  else (s, data, true)

/-- The dialog leaves the registry and blocks its owner no more. -/
def retire (s : State) (d : DialogId) (state : ProgressDialogState) (data : ProgressDialogData) :
    State × ProgressDialogState :=
  let s := if data.registered then unregisterOpenProgressDialog s d else s
  let state := { state with
    platform := some { data with registered := false, blockingOwner := false } }
  (setDialog s d (some state), state)

/-- The last part of `finalizeNative`: the class reference and the platform. -/
def releaseNative (s : State) (d : DialogId) (state : ProgressDialogState)
    (data : ProgressDialogData) : State × Bool :=
  let state := { state with nativeDestroyedPendingFinalize := true }
  if data.classReferenceHeld then
    let (s, released) := releaseProgressClass s
    if released then (setDialog s d (some { state with platform := none }), true)
    else (setDialog s d (some state), false)
  else (setDialog s d (some { state with platform := none }), true)

/-- `finalizeNative` behind the retirement. -/
def closeRetired (s : State) (d : DialogId) (state : ProgressDialogState) (data : ProgressDialogData)
    (blocked restoreOwner : Bool) : State × Bool :=
  let (s, restored) :=
    if blocked && restoreOwner then restoreOwnerAfterRemoval s state else (s, true)
  if restored then releaseNative s d state data
  else (queueProgressOwnerRestore s d state, false)

/-- `finalizeNative` behind the pending restoration. -/
def closeNative (s : State) (d : DialogId) (state : ProgressDialogState) (restoreOwner : Bool) :
    State × Bool :=
  match state.platform with
  | none => (setDialog s d (some { state with nativeDestroyedPendingFinalize := true }), true)
  | some data =>
    let (s, data, destroyed) := destroyHandle s d state data
    if destroyed then
      let (s, state) := retire s d state data
      closeRetired s d state data data.blockingOwner restoreOwner
    else (s, false)

/-- Destroys native progress resources and reports whether the close completed. -/
def finalizeNative (s : State) (d : DialogId) (restoreOwner : Bool) : Option (State × Bool) :=
  (s.dialogs d).bind fun state =>
    let (s, restored) :=
      if state.ownerRestorePending && restoreOwner then restoreOwnerAfterRemoval s state
      else (s, true)
    if restored then
      (cancelProgressOwnerRestore s d state).map fun s =>
        closeNative s d { state with ownerRestorePending := false } restoreOwner
    else some (s, false)

def closeProgressBestEffort (s : State) (d : DialogId) : Option (State × Bool) :=
  (s.dialogs d).bind fun state =>
    if state.platform = none then some (s, true) else finalizeNative s d true

/-- The state is deleted. -/
def free (s : State) (d : DialogId) : State :=
  { setDialog s d none with owned := Function.update s.owned d false }

/-- The state goes to the dispatcher's deferred list, or is deleted when it has no platform. -/
def deferProgressCleanupToOwner (s : State) (d : DialogId) : Option State :=
  (s.dialogs d).map fun state =>
    if state.platform = none then free s d
    else { s with deferred := d :: s.deferred, owned := Function.update s.owned d false }

/-- The end of a state that is closed, deferred otherwise. -/
def closeOrDefer (s : State) (d : DialogId) : Option State :=
  (closeProgressBestEffort s d).bind fun (s, closed) =>
    if closed then some (free s d) else deferProgressCleanupToOwner s d

/-- `~ProgressDialog` on the owner thread. -/
def destroy (s : State) (d : DialogId) : Option State :=
  if s.owned d then closeOrDefer s d else none

/-- `ProgressDialog::close`. -/
def close (s : State) (d : DialogId) : Option State :=
  if s.owned d then
    (s.dialogs d).bind fun state =>
      if state.platform = none then some (free s d)
      else (finalizeNative s d true).map fun (s, closed) => if closed then free s d else s
  else none

/-- `WM_NCDESTROY` of a dialog that is not being destroyed by its state. -/
def ncDestroy (s : State) (d : DialogId) : Option State :=
  match s.dialogs d with
  | some state =>
    match state.platform with
    | some data =>
      if data.handle then
        let gone := { data with handle := false }
        if data.destroying then some (setDialog s d (some { state with platform := some gone }))
        else
          let (s, state) := retire s d state gone
          let s := if data.blockingOwner && data.nativeOwner.isSome then
            queueProgressOwnerRestore s d state else s
          (s.dialogs d).map fun state =>
            setDialog s d (some { state with nativeDestroyedPendingFinalize := true })
      else none
    | none => none
  | none => none

/-! ## Open -/

/-- Where an open fails, in the order of the source. -/
inductive OpenStage where
  /-- The texts are converted and the platform is allocated. -/
  | prepare
  | acquireClass
  | createWindow
  /-- The registration throws. -/
  | register
  | createControls
  /-- The mode is applied and the controls are laid out. -/
  | layout
  | update
  | opened
  deriving DecidableEq, Repr

def rollbackProgressOpenBestEffort (s : State) (d : DialogId) : Option (State × Bool) :=
  (finalizeNative s d true).map fun (s, _) => (s, false)

/-- `openProgress` behind the registration of the dialog. -/
def blockOwner (s : State) (d : DialogId) (state : ProgressDialogState) (data : ProgressDialogData)
    (stage : OpenStage) : Option (State × Bool) :=
  let finish (s : State) : Option (State × Bool) :=
    if stage = .update then rollbackProgressOpenBestEffort s d
    else (s.dialogs d).map fun state =>
      (setDialog s d (some { state with nativeDestroyedPendingFinalize := false }), true)
  match state.ownerId, resolveWindowId s state.ownerId with
  | some w, some owner =>
    if state.blocksOwner then
      let (s, disabled) := enableWindow s w owner false
      if disabled then
        finish (setDialog s d (some { state with platform := some { data with blockingOwner := true } }))
      else rollbackProgressOpenBestEffort s d
    else finish s
  | _, _ => finish s

/-- Creates and publishes the native progress dialog of a new state. -/
def openProgress (s : State) (d : DialogId) (state : ProgressDialogState) (stage : OpenStage)
    (alreadyExists : Bool) : Option (State × Bool) :=
  let owner := resolveWindowId s state.ownerId
  if stage = .prepare ∨ (state.ownerId ≠ none ∧ owner.bind (·.handle) = none) ∨
      stage = .acquireClass then some (s, false)
  else
    let s := acquireProgressClass s alreadyExists
    let data : ProgressDialogData :=
      { nativeOwner := owner.bind (·.handle), classReferenceHeld := true }
    if stage = .createWindow then
      some (setDialog s d (some { state with platform := some data }), false)
    else
      let data := { data with handle := true }
      if stage = .register then
        rollbackProgressOpenBestEffort (setDialog s d (some { state with platform := some data })) d
      else
        let data := { data with registered := true }
        let state := { state with platform := some data }
        let s := { setDialog s d (some state) with progressDialogs := s.progressDialogs ++ [d] }
        if stage = .createControls then some (s, false)
        else if stage = .layout then rollbackProgressOpenBestEffort s d
        else blockOwner s d state data stage

/-- `ProgressDialog::open` with a valid description, on a window whose native window is alive. -/
def «open» (s : State) (owner : Option WindowId) (blocksOwner : Bool) (stage : OpenStage)
    (alreadyExists : Bool) : Option State :=
  let d := s.nextDialogId
  let state : ProgressDialogState := { ownerId := owner, blocksOwner := blocksOwner }
  if owner.all fun w => (s.windows w).any fun window => window.handle.isSome then
    let s := { setDialog s d (some state) with nextDialogId := d + 1 }
    (openProgress s d state stage alreadyExists).bind fun (s, opened) =>
      if opened then some { s with owned := Function.update s.owned d true }
      else closeOrDefer s d
  else none

/-! ## Retries -/

/-- The loop of `restorePendingProgressOwners` from a link on. -/
def restoreFrom : Nat → State → Option DialogId → Option State
  | 0, _, _ => none
  | fuel + 1, s, link =>
    match s.pendingRestore.read link with
    | none => some s
    | some d =>
      (s.dialogs d).bind fun state =>
        let owner := resolveWindowId s state.ownerId
        match state.ownerId, owner, state.platform with
        | some w, some window, some data =>
          if state.ownerRestorePending = false ∨ window.handle ≠ data.nativeOwner ∨
              window.destroying = true ∨ window.handle = none then
            restoreFrom fuel (unlinkPending s link d state) link
          else if windowHasBlockingProgressDialog s w then restoreFrom fuel s (some d)
          else
            let (s, restored) := restoreOwnerAfterRemoval s state
            if restored then restoreFrom fuel (unlinkPending s link d state) link
            else restoreFrom fuel s (some d)
        | _, _, _ => restoreFrom fuel (unlinkPending s link d state) link

def restorePendingProgressOwners (s : State) : Option State := restoreFrom (fuel s) s none

/-- The loop over the deferred dialogs; what is left of the chain is queued again. -/
def closeDeferred : State → List DialogId → Option State
  | s, [] => some s
  | s, d :: rest =>
    (closeProgressBestEffort s d).bind fun (s, closed) =>
      if closed then closeDeferred (free s d) rest
      else some { s with deferred := d :: rest ++ s.deferred }

/-- The part of `pruneAbandonedStates` that handles progress dialogs. -/
def prune (s : State) : Option State :=
  (restorePendingProgressOwners s).bind fun s => closeDeferred { s with deferred := [] } s.deferred

/-! ## Owner loss -/

/-- The loop of `notifyProgressOwnerLoss`. -/
def notifyFrom (window : WindowId) : Nat → State → Nat → Option (State × Bool)
  | 0, _, _ => none
  | fuel + 1, s, index =>
    match s.progressDialogs[index]? with
    | none => some (s, true)
    | some d =>
      (s.dialogs d).bind fun state =>
        if state.ownerId = some window then
          (finalizeNative s d false).bind fun (s, closed) =>
            if closed then notifyFrom window fuel s index else some (s, false)
        else notifyFrom window fuel s (index + 1)

/-- Closes the progress dialogs whose owner is being destroyed. -/
def notifyProgressOwnerLoss (s : State) (window : WindowId) : Option (State × Bool) :=
  notifyFrom window (s.progressDialogs.length + 1) s 0

/-- The loop of `notifyProgressOwnerLossBestEffort`. -/
def notifyBestEffortFrom (window : WindowId) : Nat → State → Nat → Option State
  | 0, _, _ => none
  | fuel + 1, s, index =>
    match s.progressDialogs[index]? with
    | none => some s
    | some d =>
      (s.dialogs d).bind fun state =>
        if state.ownerId = some window then
          (finalizeNative s d false).bind fun (s, closed) =>
            let registered := (s.dialogs d).any fun state =>
              state.platform.any fun data => data.registered
            if !closed && registered then notifyBestEffortFrom window fuel s (index + 1)
            else notifyBestEffortFrom window fuel s index
        else notifyBestEffortFrom window fuel s (index + 1)

def notifyProgressOwnerLossBestEffort (s : State) (window : WindowId) : Option State :=
  notifyBestEffortFrom window (s.progressDialogs.length + 1) s 0

/-! ## Windows -/

def openWindow (s : State) (handle : NativeHandle) (interactionEnabled : Bool) : State :=
  { setWindow s s.nextWindowId (some {
      handle := some handle
      interactionEnabled := interactionEnabled
      enabled := interactionEnabled }) with
    nextWindowId := s.nextWindowId + 1 }

/-- `WM_NCDESTROY` of a window: its dialogs are told and the handle is gone. -/
def ncDestroyWindow (s : State) (w : WindowId) : Option State :=
  (notifyProgressOwnerLossBestEffort s w).map fun s =>
    setWindow s w ((s.windows w).map fun window => { window with handle := none })

/-- The window is alive after all and is enabled again, unless a dialog still blocks it. -/
def rollbackClose (s : State) (w : WindowId) : State :=
  match s.windows w with
  | some window =>
    let window := { window with destroying := false }
    let s := setWindow s w (some window)
    if window.handle.isSome ∧ windowHasBlockingProgressDialog s w = false then
      (enableWindow s w window window.interactionEnabled).1
    else s
  | none => s

/-- The close of a window from `notifyProgressOwnerLoss` on. `dragDropClosed` is the answer of
`windowClosingDragDrop`. -/
def closeWindow (s : State) (w : WindowId) (dragDropClosed : Bool) : Option State :=
  (s.windows w).bind fun window =>
    let s := setWindow s w (some { window with destroying := true })
    (notifyProgressOwnerLoss s w).bind fun (s, notified) =>
      if !notified || !dragDropClosed then some (rollbackClose s w)
      else if window.handle = none then some (setWindow s w none)
      else
        let (s, destroyed) := destroyWindow s
        if destroyed then (ncDestroyWindow s w).map fun s => setWindow s w none
        else some (rollbackClose s w)

/-- `closeBestEffort` of a window, which is over whatever the native calls answer. -/
def closeWindowBestEffort (s : State) (w : WindowId) : Option State :=
  (s.windows w).bind fun window =>
    let s := setWindow s w (some { window with destroying := true })
    (notifyProgressOwnerLossBestEffort s w).bind fun s =>
      if window.handle = none then some (setWindow s w none)
      else
        let (s, destroyed) := destroyWindow s
        if destroyed then (ncDestroyWindow s w).map fun s => setWindow s w none
        else some (setWindow s w none)

/-! ## Operations -/

inductive Operation where
  | openWindow (handle : NativeHandle) (interactionEnabled : Bool)
  | open (owner : Option WindowId) (blocksOwner : Bool) (stage : OpenStage) (alreadyExists : Bool)
  | close (dialog : DialogId)
  | destroy (dialog : DialogId)
  | ncDestroy (dialog : DialogId)
  | restorePendingProgressOwners
  | prune
  | closeWindow (window : WindowId) (dragDropClosed : Bool)
  | closeWindowBestEffort (window : WindowId)
  /-- The native window is destroyed by someone else. -/
  | ncDestroyWindow (window : WindowId)
  deriving DecidableEq, Repr

def perform (s : State) : Operation → Option State
  | .openWindow handle interactionEnabled => some (openWindow s handle interactionEnabled)
  | .open owner blocksOwner stage alreadyExists => «open» s owner blocksOwner stage alreadyExists
  | .close dialog => close s dialog
  | .destroy dialog => destroy s dialog
  | .ncDestroy dialog => ncDestroy s dialog
  | .restorePendingProgressOwners => restorePendingProgressOwners s
  | .prune => prune s
  | .closeWindow window dragDropClosed => closeWindow s window dragDropClosed
  | .closeWindowBestEffort window => closeWindowBestEffort s window
  | .ncDestroyWindow window =>
    if (s.windows window).any fun state => state.handle.isSome then ncDestroyWindow s window
    else none

/-- An operation with the answers of its native calls. -/
def step (s : State) (a : Operation × Outcomes) : Option State :=
  perform { s with outcomes := a.2 } a.1

end ProgressDialog

end Desktop

import GameWIP.Lib.Compaction
import GameWIP.Terminal.OutputScope

/-!
# Persistent output state of a session

A session (`terminal/core/session.cpp`) keeps one scope of each kind. `setCursorVisible` and
`enterAlternateScreen` / `leaveAlternateScreen` open and release it, and `outputRestoreOrder` lists
the kinds in the order they were opened, so that `close` releases them in reverse.

The two kinds are handled by the same code: `enterPersistent` and `leavePersistent`. The calls
here are those of one thread, so their admission (`Operation`, `Mutation`) always succeeds.
-/

namespace Terminal

open Io (Status ErrorCode makeStatus successStatus isValidFlushMode)

/-- The output part of `Session::State`; `PersistentOutputState` is the kind of a scope. -/
structure SessionOutput where
  stream : Stream
  isOpen : Bool
  cursorHiddenScope : OutputScope := {}
  alternateScreenScope : OutputScope := {}
  outputRestoreOrder : List ScopeKind := [.cursorHidden, .cursorHidden]
  outputRestoreCount : Nat := 0
  output : Output := {}

namespace SessionOutput

def notOpenStatus : Status := makeStatus .notOpen

def scope (session : SessionOutput) : ScopeKind → OutputScope
  | .cursorHidden => session.cursorHiddenScope
  | .alternateScreen => session.alternateScreenScope

def setScope (session : SessionOutput) (kind : ScopeKind) (scope : OutputScope) : SessionOutput :=
  match kind with
  | .cursorHidden => { session with cursorHiddenScope := scope }
  | .alternateScreen => { session with alternateScreenScope := scope }

/-- `outputRestoreOrder[outputRestoreCount++] = kind`. -/
def pushRestore (session : SessionOutput) (kind : ScopeKind) : SessionOutput :=
  { session with
    outputRestoreOrder := session.outputRestoreOrder.set session.outputRestoreCount kind
    outputRestoreCount := session.outputRestoreCount + 1 }

/-- Takes a kind out of the restore order by compacting the array. -/
def removeRestore (session : SessionOutput) (kind : ScopeKind) : SessionOutput :=
  let compacted := Lib.compact .cursorHidden kind session.outputRestoreOrder
    session.outputRestoreCount
  { session with outputRestoreOrder := compacted.1, outputRestoreCount := compacted.2 }

/-- Opens the persistent scope of a kind unless it is active. The local scope the source builds is
inactive when it is destroyed. -/
def enterPersistent (session : SessionOutput) (kind : ScopeKind) (options : ControlOptions)
    (answers : ControlAnswers) : SessionOutput × Status :=
  if (session.scope kind).active_ then (session, successStatus)
  else
    let (scope, output) := scopedOutputState kind session.stream options answers session.output
    if scope.active_ then
      let (persistent, _, output) := (session.scope kind).moveAssign kind scope answers output
      ((({ session with output }).setScope kind persistent).pushRestore kind, persistent.status_)
    else ({ session with output }, scope.status_)

/-- Releases the persistent scope of a kind; without an active one the transition is manual. -/
def leavePersistent (session : SessionOutput) (kind : ScopeKind)
    (manual : Output → Output × Status) (options : ControlOptions) (answers : ControlAnswers) :
    SessionOutput × Status :=
  if !(session.scope kind).active_ then
    let (output, status) := manual session.output
    ({ session with output }, status)
  else
    let (scope, output) :=
      { session.scope kind with options_ := options }.release kind answers session.output
    let session := ({ session with output }).setScope kind scope
    if !scope.status_.ok then (session, scope.status_)
    else (session.removeRestore kind, successStatus)

/-- The checks in front of an output transition. -/
def checked (session : SessionOutput) (options : ControlOptions)
    (transition : SessionOutput × Status) : SessionOutput × Status :=
  if !session.isOpen then (session, notOpenStatus)
  else if !isValidFlushMode options.flushMode then (session, makeStatus .invalidArgument)
  else transition

def setCursorVisible (session : SessionOutput) (visible : Bool) (options : ControlOptions)
    (answers : ControlAnswers) : SessionOutput × Status :=
  session.checked options
    (if !visible then session.enterPersistent .cursorHidden options answers
    else session.leavePersistent .cursorHidden
      (Terminal.setCursorVisible session.stream true options answers) options answers)

def enterAlternateScreen (session : SessionOutput) (options : ControlOptions)
    (answers : ControlAnswers) : SessionOutput × Status :=
  session.checked options (session.enterPersistent .alternateScreen options answers)

def leaveAlternateScreen (session : SessionOutput) (options : ControlOptions)
    (answers : ControlAnswers) : SessionOutput × Status :=
  session.checked options
    (session.leavePersistent .alternateScreen
      (Terminal.leaveAlternateScreen session.stream options answers) options answers)

/-- The restore loop from a count down, the call of each count with its own answers. -/
def restoreFrom (retainOnFailure : Bool) (answers : Nat → ControlAnswers) :
    Nat → Status → SessionOutput → SessionOutput × Status
  | 0, firstFailure, session => (session, firstFailure)
  | count + 1, firstFailure, session =>
    let kind := session.outputRestoreOrder.getD count .cursorHidden
    let (scope, output) := (session.scope kind).release kind (answers count) session.output
    let session := ({ session with output }).setScope kind scope
    if scope.status_.ok then
      restoreFrom retainOnFailure answers count firstFailure
        { session with outputRestoreCount := count }
    else if retainOnFailure then (session, scope.status_)
    else
      restoreFrom retainOnFailure answers count
        (if firstFailure.ok then scope.status_ else firstFailure)
        { session.setScope kind { scope with restoreOnDestruction_ := false } with
          outputRestoreCount := count }

def restoreOutputState (session : SessionOutput) (retainOnFailure : Bool)
    (answers : Nat → ControlAnswers) : SessionOutput × Status :=
  restoreFrom retainOnFailure answers session.outputRestoreCount successStatus session

/-- `Session::close`; `restoreManagedInput` is what the restoration of the input side answers. -/
def close (session : SessionOutput) (answers : Nat → ControlAnswers)
    (restoreManagedInput : Status) : SessionOutput × Status :=
  if !session.isOpen then (session, successStatus)
  else
    let (session, status) := session.restoreOutputState true answers
    if !status.ok then (session, status)
    else if !restoreManagedInput.ok then (session, restoreManagedInput)
    else ({ session with isOpen := false }, successStatus)

end SessionOutput

/-! ## Calls on one session -/

inductive SessionCall where
  | setCursorVisible (visible : Bool) (options : ControlOptions) (answers : ControlAnswers)
  | enterAlternateScreen (options : ControlOptions) (answers : ControlAnswers)
  | leaveAlternateScreen (options : ControlOptions) (answers : ControlAnswers)
  | close (answers : Nat → ControlAnswers) (restoreManagedInput : Status)

/-- The state a call leaves and the status it returns. -/
def SessionOutput.call (session : SessionOutput) : SessionCall → SessionOutput × Status
  | .setCursorVisible visible options answers => session.setCursorVisible visible options answers
  | .enterAlternateScreen options answers => session.enterAlternateScreen options answers
  | .leaveAlternateScreen options answers => session.leaveAlternateScreen options answers
  | .close answers restoreManagedInput => session.close answers restoreManagedInput

def SessionOutput.step (session : SessionOutput) (call : SessionCall) : Option SessionOutput :=
  some (session.call call).1

end Terminal

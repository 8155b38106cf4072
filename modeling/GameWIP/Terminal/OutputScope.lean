import GameWIP.Lib.Slots
import GameWIP.Lib.Trace
import GameWIP.Terminal.Control

/-!
# Scoped terminal state

`CursorHiddenScope` and `AlternateScreenScope` (`terminal/core/terminal.cpp`) are one class written
twice: a move-only object that, while active, owes the stream a restoring sequence. Scopes of one
stream nest: a depth counter of the stream's output state is raised by every scope and only the
outermost transition writes a sequence. `ScopeKind` carries what the two classes differ in, the
definitions are over it, and the members of either class stand under their own names.

`step` runs the operations of the two classes over the table of all scopes built so far, each
call with its own platform answers.
-/

namespace Terminal

open Io (Status ErrorCode makeStatus isValidFlushMode)
open Lib (Slots)

inductive ScopeKind where
  | cursorHidden
  | alternateScreen
  deriving DecidableEq, Repr

namespace ScopeKind

def feature : ScopeKind → ControlFeature
  | cursorHidden => .cursorVisibility
  | alternateScreen => .alternateScreen

def enterSequence : ScopeKind → String
  | cursorHidden => "\x1b[?25l"
  | alternateScreen => "\x1b[?1049h"

def restoreSequence : ScopeKind → String
  | cursorHidden => "\x1b[?25h"
  | alternateScreen => "\x1b[?1049l"

def unsupportedMessage : ScopeKind → String
  | cursorHidden => "Terminal cursor visibility is unsupported for this output stream."
  | alternateScreen => "Terminal alternate screen is unsupported for this output stream."

end ScopeKind

/-! ## The depth counters -/

def OutputState.scopeDepth (state : OutputState) : ScopeKind → Nat
  | .cursorHidden => state.cursorHiddenScopeDepth
  | .alternateScreen => state.alternateScreenScopeDepth

def OutputState.setScopeDepth (state : OutputState) (kind : ScopeKind) (depth : Nat) :
    OutputState :=
  match kind with
  | .cursorHidden => { state with cursorHiddenScopeDepth := depth }
  | .alternateScreen => { state with alternateScreenScopeDepth := depth }

def Output.depth (output : Output) (kind : ScopeKind) (stream : Stream) : Nat :=
  (output.outputState stream).scopeDepth kind

def Output.setDepth (output : Output) (kind : ScopeKind) (stream : Stream) (depth : Nat) :
    Output :=
  output.setOutputState stream ((output.outputState stream).setScopeDepth kind depth)

/-- The result of leaving a nesting level: `restored` says that the level is gone. -/
structure Restoration where
  output : Output
  status : Status
  restored : Bool

/-- Decrements the nested depth and restores the terminal at the outer boundary. -/
def restoreScope (kind : ScopeKind) (stream : Stream) (options : ControlOptions)
    (answers : ControlAnswers) (output : Output) : Restoration :=
  if output.depth kind stream = 0 then ⟨output, Io.successStatus, true⟩
  else if output.depth kind stream > 1 then
    ⟨output.setDepth kind stream (output.depth kind stream - 1), Io.successStatus, true⟩
  else
    let emission := writeControlSequenceUnlocked stream kind.restoreSequence kind.feature
      kind.unsupportedMessage options.flushMode answers output
    if emission.emitted then
      ⟨emission.output.setDepth kind stream 0, emission.status, true⟩
    else ⟨emission.output, emission.status, false⟩

def restoreCursorHiddenScope := restoreScope .cursorHidden

def leaveAlternateScreenScope := restoreScope .alternateScreen

/-- Releases one nesting obligation after destructor restoration has failed. -/
def abandonScope (kind : ScopeKind) (stream : Stream) (output : Output) : Output :=
  if output.depth kind stream > 0 then
    output.setDepth kind stream (output.depth kind stream - 1)
  else output

def abandonCursorHiddenScope := abandonScope .cursorHidden

def abandonAlternateScreenScope := abandonScope .alternateScreen

/-! ## The scope objects -/

/-- The fields of a scope object of either class. -/
structure OutputScope where
  stream_ : Stream := .stdout
  options_ : ControlOptions := {}
  status_ : Status := {}
  active_ : Bool := false
  restorationEmitted_ : Bool := false
  restoreOnDestruction_ : Bool := true

/-- `restore()` / `leave()`: the status it returns is the `status_` it leaves. -/
def OutputScope.release (kind : ScopeKind) (scope : OutputScope) (answers : ControlAnswers)
    (output : Output) : OutputScope × Output :=
  if scope.active_ then
    if scope.restorationEmitted_ then
      let status := flush scope.stream_ scope.options_.flushMode answers
      if status.ok then
        ({ scope with status_ := status, active_ := false, restorationEmitted_ := false }, output)
      else ({ scope with status_ := status }, output)
    else
      let restoration := restoreScope kind scope.stream_ scope.options_ answers output
      if restoration.restored then
        if restoration.status.ok then
          ({ scope with status_ := restoration.status, active_ := false }, restoration.output)
        else
          ({ scope with status_ := restoration.status, restorationEmitted_ := true },
            restoration.output)
      else ({ scope with status_ := restoration.status }, restoration.output)
  else (scope, output)

def CursorHiddenScope.restore := OutputScope.release .cursorHidden

def AlternateScreenScope.leave := OutputScope.release .alternateScreen

/-- What a move leaves of its source. -/
def OutputScope.movedFrom (other : OutputScope) : OutputScope :=
  { other with
    status_ := { other.status_ with message := "" }
    active_ := false
    restorationEmitted_ := false
    restoreOnDestruction_ := true }

/-- Move assignment between two objects: the destination, the source and the output after it. -/
def OutputScope.moveAssign (kind : ScopeKind) (scope other : OutputScope)
    (answers : ControlAnswers) (output : Output) : OutputScope × OutputScope × Output :=
  if scope.active_ then
    -- Preserve ownership on failure instead of silently losing a restoration obligation.
    let (scope, output) := scope.release kind answers output
    if scope.active_ then (scope, other, output)
    else (other, other.movedFrom, output)
  else (other, other.movedFrom, output)

/-- The destructor. -/
def OutputScope.destroy (kind : ScopeKind) (scope : OutputScope) (answers : ControlAnswers)
    (output : Output) : Output :=
  let (scope, output) :=
    if scope.restoreOnDestruction_ then scope.release kind answers output else (scope, output)
  if scope.active_ then abandonScope kind scope.stream_ output else output

/-- The factory of a scope. A flush that fails after the sequence is written leaves the scope
active, with the failure in its `status_`. -/
def scopedOutputState (kind : ScopeKind) (stream : Stream) (options : ControlOptions)
    (answers : ControlAnswers) (output : Output) : OutputScope × Output :=
  let scope : OutputScope := { stream_ := stream, options_ := options }
  if !validOutputStream stream then
    ({ scope with status_ := makeStatus .invalidArgument }, output)
  else if !isValidFlushMode options.flushMode then
    ({ scope with status_ := makeStatus .invalidArgument }, output)
  else if output.depth kind stream = sizeMax then
    ({ scope with status_ := makeStatus .sizeLimitExceeded }, output)
  else if output.depth kind stream = 0 then
    let emission := writeControlSequenceUnlocked stream kind.enterSequence kind.feature
      kind.unsupportedMessage options.flushMode answers output
    if !emission.emitted then ({ scope with status_ := emission.status }, emission.output)
    else
      ({ scope with status_ := emission.status, active_ := true },
        emission.output.setDepth kind stream (emission.output.depth kind stream + 1))
  else
    ({ scope with active_ := true },
      output.setDepth kind stream (output.depth kind stream + 1))

def scopedCursorHidden := scopedOutputState .cursorHidden

def scopedAlternateScreen := scopedOutputState .alternateScreen

/-! ## Runs over any set of scopes -/

/-- The output side of the process and every scope object built so far, by class. -/
structure ScopeSystem where
  output : Output := {}
  scopes : ScopeKind → Slots OutputScope := fun _ => []

def ScopeSystem.setScopes (system : ScopeSystem) (kind : ScopeKind) (slots : Slots OutputScope) :
    ScopeSystem :=
  { system with scopes := fun k => if k = kind then slots else system.scopes k }

def ScopeSystem.setOutput (system : ScopeSystem) (output : Output) : ScopeSystem :=
  { system with output }

/-- An operation on the objects of one class, named by their positions in its table. -/
inductive ScopeAction where
  | construct (kind : ScopeKind)
  | acquire (kind : ScopeKind) (stream : Stream) (options : ControlOptions)
      (answers : ControlAnswers)
  | release (kind : ScopeKind) (scope : Nat) (answers : ControlAnswers)
  | moveConstruct (kind : ScopeKind) (other : Nat)
  | moveAssign (kind : ScopeKind) (scope other : Nat) (answers : ControlAnswers)
  | destroy (kind : ScopeKind) (scope : Nat) (answers : ControlAnswers)

/-- One operation; it is enabled when the objects it names are alive. -/
def ScopeSystem.step (system : ScopeSystem) : ScopeAction → Option ScopeSystem
  | .construct kind =>
    some (system.setScopes kind (system.scopes kind ++ [some {}]))
  | .acquire kind stream options answers =>
    let (scope, output) := scopedOutputState kind stream options answers system.output
    some ((system.setOutput output).setScopes kind (system.scopes kind ++ [some scope]))
  | .release kind i answers =>
    (Slots.get? (system.scopes kind) i).map fun scope =>
      let (scope, output) := scope.release kind answers system.output
      (system.setOutput output).setScopes kind ((system.scopes kind).set i (some scope))
  | .moveConstruct kind j =>
    (Slots.get? (system.scopes kind) j).map fun other =>
      system.setScopes kind ((system.scopes kind).set j (some other.movedFrom) ++ [some other])
  | .moveAssign kind i j answers =>
    (Slots.get? (system.scopes kind) i).bind fun scope =>
      (Slots.get? (system.scopes kind) j).map fun other =>
        if i = j then system
        else
          let (scope, other, output) := scope.moveAssign kind other answers system.output
          (system.setOutput output).setScopes kind
            (((system.scopes kind).set i (some scope)).set j (some other))
  | .destroy kind i answers =>
    (Slots.get? (system.scopes kind) i).map fun scope =>
      (system.setOutput (scope.destroy kind answers system.output)).setScopes kind
        ((system.scopes kind).set i none)

end Terminal

import GameWIP.Io.Status

/-!
# Terminal control sequences

The output side of the terminal library (`terminal/core/terminal.cpp`): the per-stream state with
its scope depths, the capability gate in front of every control sequence, and the manual
visibility and screen transitions.

The platform backend is the environment: `ControlAnswers` are the results one control call gets
from it, every call with answers of its own. A platform call that throws before the sequence is
written ends, in the `catch` of the public function, like one that fails. `Output.written` is the
log of the texts `writeText` accepted, the most recent first.
-/

namespace Terminal

open Io (Status ErrorCode makeStatus successStatus FlushMode isValidFlushMode)

/-! ## Statuses -/

def statusWithMessage (code : ErrorCode) (message : String) : Status := { code, message }

def unsupportedStatus (message : String) : Status := statusWithMessage .unsupported message

def invalidArgumentStatus (message : String) : Status :=
  statusWithMessage .invalidArgument message

@[simp] theorem unsupportedStatus_ok (message : String) : (unsupportedStatus message).ok = false :=
  rfl

@[simp] theorem invalidArgumentStatus_ok (message : String) :
    (invalidArgumentStatus message).ok = false := rfl

/-! ## Streams and capabilities -/

/-- `Types::Output::Stream`; `other` is a value that is no enumerator. -/
inductive Stream where
  | stdout
  | stderr
  | other (value : Int)
  deriving DecidableEq, Repr

def validOutputStream (stream : Stream) : Bool := stream == .stdout || stream == .stderr

/-- `Types::Style::Capabilities`. -/
structure StyleCapabilities where
  basicColor : Bool := false
  rgbColor : Bool := false
  bold : Bool := false
  dim : Bool := false
  italic : Bool := false
  underline : Bool := false
  inverse : Bool := false
  strikethrough : Bool := false

def anyStyleSupported (capabilities : StyleCapabilities) : Bool :=
  capabilities.basicColor || capabilities.rgbColor || capabilities.bold || capabilities.dim ||
    capabilities.italic || capabilities.underline || capabilities.inverse ||
    capabilities.strikethrough

/-- `Types::Output::Capabilities`, the fields the control emitters read. -/
structure Capabilities where
  style : StyleCapabilities := {}
  supportsCursorMovement : Bool := false
  supportsCursorSaveRestore : Bool := false
  supportsCursorVisibility : Bool := false
  supportsClear : Bool := false
  supportsScroll : Bool := false
  supportsAlternateScreen : Bool := false
  supportsTitle : Bool := false
  supportsBell : Bool := false

structure CapabilitiesResult where
  status : Status := {}
  capabilities : Capabilities := {}

structure ControlOptions where
  flushMode : FlushMode := .none

inductive ControlFeature where
  | styleReset
  | cursorMovement
  | cursorSaveRestore
  | cursorVisibility
  | clear
  | scroll
  | alternateScreen
  | title
  | bell

/-- The capability a control operation needs. -/
def controlFeatureSupported (capabilities : Capabilities) : ControlFeature → Bool
  | .styleReset => anyStyleSupported capabilities.style
  | .cursorMovement => capabilities.supportsCursorMovement
  | .cursorSaveRestore => capabilities.supportsCursorSaveRestore
  | .cursorVisibility => capabilities.supportsCursorVisibility
  | .clear => capabilities.supportsClear
  | .scroll => capabilities.supportsScroll
  | .alternateScreen => capabilities.supportsAlternateScreen
  | .title => capabilities.supportsTitle
  | .bell => capabilities.supportsBell

/-! ## The output state -/

/-- Per-stream nested scope depths. -/
structure OutputState where
  cursorHiddenScopeDepth : Nat := 0
  alternateScreenScopeDepth : Nat := 0

/-- The output side of the process: the state of each stream and the texts written. -/
structure Output where
  stdoutState : OutputState := {}
  stderrState : OutputState := {}
  written : List (Stream × String) := []

def Output.outputState (output : Output) (stream : Stream) : OutputState :=
  if stream = .stderr then output.stderrState else output.stdoutState

def Output.setOutputState (output : Output) (stream : Stream) (state : OutputState) : Output :=
  if stream = .stderr then { output with stderrState := state }
  else { output with stdoutState := state }

/-- `std::numeric_limits<std::size_t>::max()`. -/
def sizeMax : Nat := 2 ^ 64 - 1

/-! ## The control sequence -/

/-- What the platform answers one control call. -/
structure ControlAnswers where
  getOutputCapabilities : CapabilitiesResult := {}
  prepareOutput : CapabilitiesResult := {}
  writeText : Status := {}
  flush : Status := {}

def flushIfRequested (mode : FlushMode) (answers : ControlAnswers) : Status :=
  if !isValidFlushMode mode then invalidArgumentStatus "Unknown IO flush mode."
  else if mode = .none then successStatus
  else answers.flush

/-- The capability checks of a control sequence: the current capabilities, and those after
preparing the output where the current ones lack the feature. -/
def controlFeatureStatus (feature : ControlFeature) (unsupportedMessage : String)
    (answers : ControlAnswers) : Status :=
  if !answers.getOutputCapabilities.status.ok then answers.getOutputCapabilities.status
  else if controlFeatureSupported answers.getOutputCapabilities.capabilities feature then
    successStatus
  else if !answers.prepareOutput.status.ok then answers.prepareOutput.status
  else if controlFeatureSupported answers.prepareOutput.capabilities feature then successStatus
  else unsupportedStatus unsupportedMessage

/-- The result of a control sequence: `emitted` says that the text was written, whatever the flush
after it answered. -/
structure Emission where
  output : Output
  status : Status
  emitted : Bool

def writeControlSequenceUnlocked (stream : Stream) (sequence : String) (feature : ControlFeature)
    (unsupportedMessage : String) (flushMode : FlushMode) (answers : ControlAnswers)
    (output : Output) : Emission :=
  let supported := controlFeatureStatus feature unsupportedMessage answers
  if !isValidFlushMode flushMode then
    ⟨output, invalidArgumentStatus "Unknown IO flush mode.", false⟩
  else if !supported.ok then ⟨output, supported, false⟩
  else if !answers.writeText.ok then ⟨output, answers.writeText, false⟩
  else
    ⟨{ output with written := (stream, sequence) :: output.written },
      flushIfRequested flushMode answers, true⟩

/-- `Terminal::flush`. -/
def flush (stream : Stream) (mode : FlushMode) (answers : ControlAnswers) : Status :=
  if !validOutputStream stream then invalidArgumentStatus "Unknown terminal output stream."
  else if !isValidFlushMode mode then invalidArgumentStatus "Unknown IO flush mode."
  else answers.flush

/-- A manual control call: the stream is checked, then the sequence written. -/
def control (stream : Stream) (sequence : String) (feature : ControlFeature)
    (unsupportedMessage : String) (options : ControlOptions) (answers : ControlAnswers)
    (output : Output) : Output × Status :=
  if !validOutputStream stream then
    (output, invalidArgumentStatus "Unknown terminal output stream.")
  else
    let emission := writeControlSequenceUnlocked stream sequence feature unsupportedMessage
      options.flushMode answers output
    (emission.output, emission.status)

def setCursorVisible (stream : Stream) (visible : Bool) (options : ControlOptions)
    (answers : ControlAnswers) (output : Output) : Output × Status :=
  control stream (if visible then "\x1b[?25h" else "\x1b[?25l") .cursorVisibility
    "Terminal cursor visibility is unsupported for this output stream." options answers output

def leaveAlternateScreen (stream : Stream) (options : ControlOptions) (answers : ControlAnswers)
    (output : Output) : Output × Status :=
  control stream "\x1b[?1049l" .alternateScreen
    "Terminal alternate screen is unsupported for this output stream." options answers output

/-! ## What a control sequence does -/

/-- The platform takes the sequence: the capability checks pass and the text is written. -/
def ControlAnswers.accepts (answers : ControlAnswers) (feature : ControlFeature) : Bool :=
  (controlFeatureStatus feature "" answers).ok && answers.writeText.ok

theorem controlFeatureStatus_ok (feature : ControlFeature) (message message' : String)
    (answers : ControlAnswers) :
    (controlFeatureStatus feature message answers).ok =
      (controlFeatureStatus feature message' answers).ok := by
  unfold controlFeatureStatus
  split_ifs <;> rfl

/-- A sequence is emitted exactly when the platform accepts it, and an unemitted one fails. -/
theorem writeControlSequenceUnlocked_emitted {stream : Stream} {sequence : String}
    {feature : ControlFeature} {message : String} {mode : FlushMode} {answers : ControlAnswers}
    {output : Output} (hm : isValidFlushMode mode = true) (ha : answers.accepts feature = true) :
    writeControlSequenceUnlocked stream sequence feature message mode answers output =
      ⟨{ output with written := (stream, sequence) :: output.written },
        flushIfRequested mode answers, true⟩ := by
  simp only [ControlAnswers.accepts, Bool.and_eq_true,
    controlFeatureStatus_ok feature "" message] at ha
  simp [writeControlSequenceUnlocked, hm, ha.1, ha.2]

theorem writeControlSequenceUnlocked_refused {feature : ControlFeature} {mode : FlushMode}
    {answers : ControlAnswers} (stream : Stream) (sequence message : String) (output : Output)
    (hm : isValidFlushMode mode = true) (ha : answers.accepts feature = false) :
    ∃ status : Status, status.ok = false ∧
      writeControlSequenceUnlocked stream sequence feature message mode answers output =
        ⟨output, status, false⟩ := by
  simp only [ControlAnswers.accepts, Bool.and_eq_false_iff,
    controlFeatureStatus_ok feature "" message] at ha
  unfold writeControlSequenceUnlocked
  dsimp only
  rw [hm]
  by_cases hs : (controlFeatureStatus feature message answers).ok = true
  · have hw : answers.writeText.ok = false := ha.resolve_left (by simp [hs])
    exact ⟨answers.writeText, hw, by simp [hs, hw]⟩
  · exact ⟨_, by simpa using hs, by simp [hs]⟩

/-- A manual call writes its sequence or nothing. -/
theorem control_output (stream : Stream) (sequence : String) (feature : ControlFeature)
    (message : String) (options : ControlOptions) (answers : ControlAnswers) (output : Output) :
    (control stream sequence feature message options answers output).1 = output ∨
    (control stream sequence feature message options answers output).1 =
      { output with written := (stream, sequence) :: output.written } := by
  unfold control writeControlSequenceUnlocked
  dsimp only
  split_ifs
  · exact .inl rfl
  · exact .inl rfl
  · exact .inl rfl
  · exact .inl rfl
  · exact .inr rfl

end Terminal

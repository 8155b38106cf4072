import GameWIP.Lib.EarlyReturn
import GameWIP.Terminal.Control
import GameWIP.Unicode.Grapheme

/-!
# Managed line input

`managedTerminalLineRead` edits one line by the events of the terminal
(`terminal/core/line_input.cpp`): it inserts characters and pastes at a caret that moves by grapheme
clusters, deletes clusters around it, and returns the line at Enter, at a read that does not
complete or at a failure. `GraphemeIndex` caches the boundaries of the line between events.

The reads of the platform are answers, one for each pass of the loop. The echo of the line enters by
the statuses of its calls; a disabled echo does nothing and succeeds. Texts are lists of bytes.
-/

namespace Terminal

open Io (Status ErrorCode makeStatus successStatus)
open Unicode.Utf8 (GraphemeCursor)

/-! ## Events -/

/-- `Types::Events::KeyModifier`, a set of bits. -/
abbrev KeyModifier := UInt16

namespace KeyModifier

def shift : KeyModifier := 0x01
def control : KeyModifier := 0x02
def alt : KeyModifier := 0x04
def super : KeyModifier := 0x08
def hyper : KeyModifier := 0x10
def «meta» : KeyModifier := 0x20

end KeyModifier

def hasModifier (modifiers requested : KeyModifier) : Bool := modifiers &&& requested == requested

def hasShortcutModifier (modifiers : KeyModifier) : Bool :=
  hasModifier modifiers KeyModifier.control || hasModifier modifiers KeyModifier.alt ||
    hasModifier modifiers KeyModifier.super || hasModifier modifiers KeyModifier.hyper ||
    hasModifier modifiers KeyModifier.meta

/-- `Types::Events::KeyAction`; `repeated` is its `Repeat`. -/
inductive KeyAction where
  | press
  | repeated
  | release
  deriving DecidableEq, Repr

inductive NamedKey where
  | backspace
  | tab
  | enter
  | escape
  | insert
  | delete
  | home
  | «end»
  | pageUp
  | pageDown
  | arrowUp
  | arrowDown
  | arrowLeft
  | arrowRight
  | begin
  | capsLock
  | numLock
  | scrollLock
  | printScreen
  | pause
  | menu
  deriving DecidableEq, Repr

/-- `Types::Events::KeyValue`; a character is a code point, which need not be a scalar value. -/
inductive KeyValue where
  | character (value : Nat)
  | named (key : NamedKey)
  | function (number : Nat)
  | modifier
  | media
  deriving DecidableEq, Repr

structure Key where
  key : KeyValue
  modifiers : KeyModifier := 0
  action : KeyAction := .press
  repeatCount : Nat := 1
  deriving DecidableEq, Repr

/-- `Types::Events::Payload`. -/
inductive Event where
  | key (key : Key)
  | paste (text : List UInt8)
  | resize
  deriving DecidableEq, Repr

inductive ReadOutcome where
  | completed
  | endOfStream
  | timedOut
  | wouldBlock
  | cancelled
  deriving DecidableEq, Repr

structure EventResult where
  status : Status := {}
  outcome : ReadOutcome := .completed
  event : Option Event := none
  deriving DecidableEq, Repr

/-! ## Lines -/

inductive ConsumedLineEnding where
  | none
  | lf
  | crLf
  | cr
  deriving DecidableEq, Repr

/-- `Types::Input::LineEndingMode`; `other` is a value that is no enumerator. -/
inductive LineEndingMode where
  | strip
  | keep
  | normalizeToLf
  | other (value : Int)
  deriving DecidableEq, Repr

/-- `Types::Input::LineOptions`, without the stop token the platform's read observes. -/
structure LineOptions where
  timeout : Option Int := none
  maxReturnedBytes : Nat
  echo : Bool := true
  lineEndingMode : LineEndingMode := .strip

structure LineResult where
  status : Status := {}
  outcome : ReadOutcome := .completed
  line : List UInt8 := []
  consumedLineEnding : ConsumedLineEnding := .none
  wasTruncated : Bool := false
  deriving DecidableEq, Repr

def LineOptions.maxBytes (options : LineOptions) : Nat :=
  if options.maxReturnedBytes > sizeMax then sizeMax else options.maxReturnedBytes

/-- What the calls of `LineEcho` in one pass of the loop answer, by the occurrence of the key. -/
structure EchoAnswers where
  append : Nat → Status := fun _ => {}
  eraseTrailingAsciiCell : Nat → Status := fun _ => {}
  redraw : Status := {}
  finish : Status := {}

/-- The status of a call of `LineEcho`, which returns at once when the echo is off. -/
def LineOptions.echoed (options : LineOptions) (answer : Status) : Status :=
  if !options.echo then successStatus else answer

/-! ## The cached boundaries -/

/-- `GraphemeIndex`; `storage_` is the size of the caller's storage. -/
structure GraphemeIndex where
  storage_ : Nat
  cursor_ : GraphemeCursor := {}
  ready_ : Bool := false
  deriving DecidableEq, Repr

namespace GraphemeIndex

def invalidate (index : GraphemeIndex) : GraphemeIndex :=
  { index with ready_ := false, cursor_ := index.cursor_.clear }

def ensure (index : GraphemeIndex) (text : List UInt8) : GraphemeIndex × Status :=
  if index.ready_ then (index, successStatus)
  else
    let (cursor, indexed) := index.cursor_.reset text index.storage_
    let (storage, cursor, indexed) :=
      if indexed.outcome == .destinationTooSmall then
        (indexed.requiredBoundaryCount, cursor.reset text indexed.requiredBoundaryCount)
      else (index.storage_, cursor, indexed)
    if indexed.outcome != .indexed then
      ({ storage_ := storage, cursor_ := cursor.clear }, makeStatus .encodingFailed)
    else ({ storage_ := storage, cursor_ := cursor, ready_ := true }, successStatus)

def seek (index : GraphemeIndex) (text : List UInt8) (byteOffset : Nat) : GraphemeIndex × Status :=
  let (index, status) := index.ensure text
  if !status.ok then (index, status)
  else
    let (cursor, result) := index.cursor_.seek byteOffset
    ({ index with cursor_ := cursor },
      if result.outcome != .found then makeStatus .encodingFailed else successStatus)

def previous (index : GraphemeIndex) (text : List UInt8) (byteOffset : Nat) :
    GraphemeIndex × Option Nat × Status :=
  let (index, status) := index.seek text byteOffset
  if !status.ok then (index, none, status)
  else
    let (cursor, result) := index.cursor_.previous
    ({ index with cursor_ := cursor },
      if result.outcome == .atBeginning then (none, status)
      else if result.outcome != .found then (none, makeStatus .encodingFailed)
      else (some result.byteOffset, status))

def next (index : GraphemeIndex) (text : List UInt8) (byteOffset : Nat) :
    GraphemeIndex × Option Nat × Status :=
  let (index, status) := index.seek text byteOffset
  if !status.ok then (index, none, status)
  else
    let (cursor, result) := index.cursor_.next
    ({ index with cursor_ := cursor },
      if result.outcome == .atEnd then (none, status)
      else if result.outcome != .found then (none, makeStatus .encodingFailed)
      else (some result.byteOffset, status))

def retainThroughCurrent (index : GraphemeIndex) : GraphemeIndex :=
  if index.ready_ then { index with cursor_ := index.cursor_.discardAfterCurrent } else index

/-- Moves an offset that is no boundary to the next one. -/
def normalizeCaret (index : GraphemeIndex) (text : List UInt8) (byteOffset : Nat) :
    GraphemeIndex × Nat × Status :=
  let (index, status) := index.ensure text
  if !status.ok then (index, byteOffset, status)
  else
    let (cursor, exact) := index.cursor_.seek byteOffset
    let index := { index with cursor_ := cursor }
    if exact.outcome == .found then (index, byteOffset, successStatus)
    else
      let next := Unicode.Utf8.nextGraphemeBoundary text byteOffset
      if next.outcome == .found then
        ({ index with cursor_ := (index.cursor_.seek next.byteOffset).1 }, next.byteOffset,
          successStatus)
      else if next.outcome == .atEnd then
        ({ index with cursor_ := (index.cursor_.seek text.length).1 }, text.length, successStatus)
      else (index, byteOffset, makeStatus .encodingFailed)

end GraphemeIndex

/-! ## The editor -/

/-- The variables of `managedTerminalLineRead` between two reads. -/
structure LineEditor where
  result : LineResult := {}
  line : List UInt8 := []
  caret : Nat := 0
  graphemes : GraphemeIndex
  deriving DecidableEq, Repr

/-- What one pass of the loop finds: the clock at its deadline check, which only a positive timeout
reads, the event of the platform and the echo. -/
structure LineAnswer where
  deadlinePassed : Bool := false
  readEvent : EventResult := {}
  echo : EchoAnswers := {}

namespace LineEditor

/-- `result.line = std::move(line); return result;` behind the assignment of a status. -/
def returned (editor : LineEditor) (status : Status) : LineResult :=
  { editor.result with status, line := editor.line }

/-- `result.status = status` and the return of the result when it is not ok. -/
def check (editor : LineEditor) (status : Status) : Except LineResult LineEditor :=
  if !status.ok then .error (editor.returned status)
  else .ok { editor with result := { editor.result with status } }

def truncated (editor : LineEditor) : LineEditor :=
  { editor with result := { editor.result with wasTruncated := true } }

/-- `std::string::insert` at the caret, which moves behind the bytes, and a stale index. -/
def insert (editor : LineEditor) (bytes : List UInt8) : LineEditor :=
  { editor with
    line := editor.line.take editor.caret ++ bytes ++ editor.line.drop editor.caret
    caret := editor.caret + bytes.length
    graphemes := editor.graphemes.invalidate }

/-- `std::string::erase` of the bytes from an offset on, where the caret is then, and a stale
index. -/
def erase (editor : LineEditor) (position count : Nat) : LineEditor :=
  { editor with
    line := editor.line.take position ++ editor.line.drop (position + count)
    caret := position
    graphemes := editor.graphemes.invalidate }

def normalizeCaret (editor : LineEditor) : LineEditor × Status :=
  let (graphemes, caret, status) := editor.graphemes.normalizeCaret editor.line editor.caret
  ({ editor with graphemes, caret }, status)

def insertScalar (editor : LineEditor) (scalar maxBytes : Nat) : LineEditor × Status :=
  let encoded := Unicode.Utf8.encodeScalar scalar
  if encoded.outcome != .encoded then (editor, makeStatus .encodingFailed)
  else
    let bytes := encoded.byteCount
    if bytes > maxBytes - min maxBytes editor.line.length then (editor.truncated, successStatus)
    else
      let inserted := editor.insert (encoded.bytes.take bytes)
      if editor.caret == editor.line.length then (inserted, successStatus)
      else inserted.normalizeCaret

end LineEditor

/-- The loop of `insertPaste`: the bytes accepted, or `none` at a malformed text. -/
def acceptedPaste (text : List UInt8) (remaining accepted : Nat) : Option Nat :=
  if _hlt : accepted < text.length then
    let decoded := Unicode.Utf8.decodeScalar (text.drop accepted)
    if ho : decoded.outcome ≠ .decoded then none
    else if decoded.bytesConsumed > remaining - min remaining accepted then some accepted
    else
      have := Unicode.decodeUtf8Scalar_bytesConsumed_pos (not_not.1 ho)
      acceptedPaste text remaining (accepted + decoded.bytesConsumed)
  else some accepted
termination_by text.length - accepted
decreasing_by
  simp only [Unicode.Utf8.decodeScalar]
  omega

namespace LineEditor

def insertPaste (editor : LineEditor) (text : List UInt8) (maxBytes : Nat) : LineEditor × Status :=
  match acceptedPaste text (maxBytes - min maxBytes editor.line.length) 0 with
  | none => (editor, makeStatus .encodingFailed)
  | some accepted =>
    let editor := if accepted < text.length then editor.truncated else editor
    if accepted > 0 then
      let inserted := editor.insert (text.take accepted)
      if !(editor.caret == editor.line.length) then inserted.normalizeCaret
      else (inserted, successStatus)
    else (editor, successStatus)

def completeManagedLine (editor : LineEditor) (options : LineOptions) : LineResult :=
  let ending : List UInt8 :=
    match options.lineEndingMode with
    | .strip => []
    | .keep => [0x0D, 0x0A]
    | .normalizeToLf => [0x0A]
    | .other _ => []
  let result := { editor.result with consumedLineEnding := .crLf, status := successStatus }
  if ending.length ≤ options.maxBytes - min options.maxBytes editor.line.length then
    { result with line := editor.line ++ ending }
  else { result with wasTruncated := true, line := editor.line }

end LineEditor

/-! ## The keys -/

namespace LineEditor

variable (options : LineOptions) (echo : EchoAnswers)

/-- One occurrence of Backspace; the flag is `redrawRequired`, as below. -/
def backspace (occurrence : Nat) (state : LineEditor × Bool) :
    Except LineResult (LineEditor × Bool) :=
  let (editor, redrawRequired) := state
  let (graphemes, previous, navigationStatus) := editor.graphemes.previous editor.line editor.caret
  let editor := { editor with graphemes }
  if !navigationStatus.ok then .error (editor.returned navigationStatus)
  else
    match previous with
    | none => .ok (editor, redrawRequired)
    | some previous =>
      if editor.caret == editor.line.length then
        let singleCellAscii := editor.caret - previous == 1 &&
          editor.line.getD previous 0 ≥ 0x20 && editor.line.getD previous 0 < 0x7F
        let editor := { editor with
          line := editor.line.take previous
          caret := previous
          graphemes := editor.graphemes.retainThroughCurrent }
        if singleCellAscii && !redrawRequired then
          let status := options.echoed (echo.eraseTrailingAsciiCell occurrence)
          if status.code == .unsupported then
            .ok ({ editor with result := { editor.result with status := successStatus } }, true)
          else (editor.check status).map (·, redrawRequired)
        else .ok (editor, true)
      else
        let (editor, navigationStatus) :=
          (editor.erase previous (editor.caret - previous)).normalizeCaret
        if !navigationStatus.ok then .error (editor.returned navigationStatus)
        else .ok (editor, true)

def delete (state : LineEditor × Bool) : Except LineResult (LineEditor × Bool) :=
  let (editor, redrawRequired) := state
  let (graphemes, next, navigationStatus) := editor.graphemes.next editor.line editor.caret
  let editor := { editor with graphemes }
  if !navigationStatus.ok then .error (editor.returned navigationStatus)
  else
    match next with
    | none => .ok (editor, redrawRequired)
    | some next =>
      if next == editor.line.length then
        let line := editor.line.take editor.caret
        let (graphemes, navigationStatus) := editor.graphemes.seek line editor.caret
        let graphemes :=
          if !navigationStatus.ok then graphemes.invalidate else graphemes.retainThroughCurrent
        .ok ({ editor with line, graphemes }, true)
      else
        let (editor, navigationStatus) :=
          (editor.erase editor.caret (next - editor.caret)).normalizeCaret
        if !navigationStatus.ok then .error (editor.returned navigationStatus)
        else .ok (editor, true)

/-- Both arrows: the caret goes to the boundary found. -/
def moveCaret (state : LineEditor × Bool) (found : GraphemeIndex × Option Nat × Status) :
    Except LineResult (LineEditor × Bool) :=
  let (editor, redrawRequired) := state
  let (graphemes, boundary, navigationStatus) := found
  let editor := { editor with graphemes }
  if !navigationStatus.ok then .error (editor.returned navigationStatus)
  else
    match boundary with
    | none => .ok (editor, redrawRequired)
    | some caret => .ok ({ editor with caret }, true)

def arrowLeft (state : LineEditor × Bool) : Except LineResult (LineEditor × Bool) :=
  moveCaret state (state.1.graphemes.previous state.1.line state.1.caret)

def arrowRight (state : LineEditor × Bool) : Except LineResult (LineEditor × Bool) :=
  moveCaret state (state.1.graphemes.next state.1.line state.1.caret)

def tab (modifiers : KeyModifier) (occurrence : Nat) (state : LineEditor × Bool) :
    Except LineResult (LineEditor × Bool) :=
  let (editor, redrawRequired) := state
  if !hasModifier modifiers KeyModifier.shift then do
    let appending := editor.caret == editor.line.length
    let (editor, status) := editor.insertScalar 0x09 options.maxBytes
    let editor ← editor.check status
    if appending && !redrawRequired then
      (editor.check (options.echoed (echo.append occurrence))).map (·, redrawRequired)
    else .ok (editor, true)
  else .ok state

/-- The switch over the named keys. -/
def namedKey (named : NamedKey) (modifiers : KeyModifier) (occurrence : Nat)
    (state : LineEditor × Bool) : Except LineResult (LineEditor × Bool) :=
  match named with
  | .backspace => backspace options echo occurrence state
  | .delete => delete state
  | .arrowLeft => arrowLeft state
  | .arrowRight => arrowRight state
  | .home => .ok ({ state.1 with caret := 0 }, state.2 || state.1.caret != 0)
  | .end =>
    .ok ({ state.1 with caret := state.1.line.length },
      state.2 || state.1.caret != state.1.line.length)
  | .tab => tab options echo modifiers occurrence state
  | _ => .ok state

/-! ## The loop -/

def paste (editor : LineEditor) (text : List UInt8) : Except LineResult LineEditor := do
  let appending := editor.caret == editor.line.length
  let (editor, status) := editor.insertPaste text options.maxBytes
  let editor ← editor.check status
  editor.check (options.echoed (if appending then echo.append 0 else echo.redraw))

def character (editor : LineEditor) (value occurrences : Nat) : Except LineResult LineEditor := do
  let appending := editor.caret == editor.line.length
  let editor ← Lib.repeated (fun _ editor =>
    let (editor, status) := editor.insertScalar value options.maxBytes
    editor.check status) occurrences editor
  editor.check (options.echoed (if appending then echo.append 0 else echo.redraw))

def occurrences (key : Key) : Nat := if key.action == .repeated then max key.repeatCount 1 else 1

def key (editor : LineEditor) (key : Key) : Except LineResult LineEditor :=
  if key.action == .release then .ok editor
  else
    match key.key with
    | .character value =>
      if hasShortcutModifier key.modifiers then .ok editor
      else character options echo editor value (occurrences key)
    | .named named =>
      if named == .enter then do
        let editor ← editor.check (options.echoed echo.finish)
        .error (editor.completeManagedLine options)
      else if hasShortcutModifier key.modifiers then .ok editor
      else do
        let (editor, redrawRequired) ←
          Lib.repeated (namedKey options echo named key.modifiers) (occurrences key) (editor, false)
        if redrawRequired then editor.check (options.echoed echo.redraw) else .ok editor
    | _ => .ok editor

def event (editor : LineEditor) : Event → Except LineResult LineEditor
  | .resize => editor.check (options.echoed echo.redraw)
  | .paste text => paste options echo editor text
  | .key key => LineEditor.key options echo editor key

/-- One pass of the loop: `.ok` is the next pass and `.error` the return of the result. -/
def pass (editor : LineEditor) (answer : LineAnswer) : Except LineResult LineEditor :=
  if options.timeout.any (0 < ·) && answer.deadlinePassed then
    .error { editor.result with outcome := .timedOut, line := editor.line }
  else
    let eventResult := answer.readEvent
    if !eventResult.status.ok then
      .error { editor.result with
        status := eventResult.status, outcome := eventResult.outcome, line := editor.line }
    else
      match eventResult.outcome, eventResult.event with
      | .completed, some event => editor.event options answer.echo event
      | outcome, _ => .error { editor.result with outcome, line := editor.line }

end LineEditor

/-- The read over the answers of its first passes, with the status of `echo.begin()`: the result it
returned, or the editor in front of the next pass. -/
def managedTerminalLineRead (options : LineOptions) (graphemeStorage : Nat) (begin : Status)
    (answers : List LineAnswer) : Except LineResult LineEditor := do
  let editor : LineEditor := { graphemes := { storage_ := graphemeStorage } }
  let editor ← editor.check (options.echoed begin)
  answers.foldlM (LineEditor.pass options) editor

end Terminal

import GameWIP.Lib.Trace
import GameWIP.Terminal.LineInput

/-!
# Reading redirected input

`readBytes`, `readText` and `readLine` of the Win32 backend
(`terminal/platform/win32/win32_terminal.cpp`) over an input that is no console. The three share the
bytes received and not yet handed out, a `PendingInputBuffer`.

`readInputChunk` is the answers of the input, one for each pass of a reader's loop; the timeout and
the size hint it is called with bear on its answer only. The clock and the growth of the storage are
answers as well (`ReadEnvironment`). Allocations succeed.
-/

namespace Terminal

open Io (Status ErrorCode makeStatus successStatus)
open Unicode (DecodeOutcome decodeUtf8Scalar_bytesConsumed_pos)
open Unicode.Utf8 (decodeScalar validate)
open Lib (answered)

/-! ## Pending bytes -/

/-- Consumed-prefix size that justifies an eager compaction. -/
def kCompactionThreshold : Nat := 4096

theorem zero_le_empty : 0 ≤ ([] : List UInt8).length := Nat.le_refl 0

/-- Unread bytes behind a consumed prefix. -/
structure PendingInputBuffer where
  storage : List UInt8 := []
  offset : Nat := 0
  offset_le : offset ≤ storage.length := by first | exact zero_le_empty | exact Nat.zero_le _

namespace PendingInputBuffer

def size (buffer : PendingInputBuffer) : Nat := buffer.storage.length - buffer.offset

def empty (buffer : PendingInputBuffer) : Bool := buffer.size == 0

/-- All unread bytes. -/
def view (buffer : PendingInputBuffer) : List UInt8 := buffer.storage.drop buffer.offset

/-- Erases the consumed prefix. -/
def compact (buffer : PendingInputBuffer) : PendingInputBuffer := { storage := buffer.view }

/-- `growing` answers whether the bytes exceed the free capacity of the storage. -/
def append (buffer : PendingInputBuffer) (bytes : List UInt8) (growing : Bool) :
    PendingInputBuffer :=
  let buffer :=
    if buffer.offset > 0 && (buffer.offset ≥ kCompactionThreshold || growing) then buffer.compact
    else buffer
  { storage := buffer.storage ++ bytes
    offset := buffer.offset
    offset_le := by
      rw [List.length_append]
      exact Nat.le_add_right_of_le buffer.offset_le }

def clear (_ : PendingInputBuffer) : PendingInputBuffer := {}

/-- Consumes up to the current unread byte count. -/
def consume (buffer : PendingInputBuffer) (bytes : Nat) : PendingInputBuffer :=
  if h : bytes ≥ buffer.size then buffer.clear
  else
    { buffer with
      offset := buffer.offset + bytes
      offset_le := by
        unfold size at h
        omega }

/-- Hands over the unread bytes. -/
def take (buffer : PendingInputBuffer) : List UInt8 × PendingInputBuffer :=
  if buffer.offset = 0 then (buffer.storage, buffer.clear) else (buffer.view, buffer.clear)

end PendingInputBuffer

/-! ## Scalars and lines -/

/-- The largest complete UTF-8 prefix within a byte limit. -/
structure Utf8Prefix where
  valid : Bool := true
  incomplete : Bool := false
  stoppedByMax : Bool := false
  bytes : Nat := 0
  deriving DecidableEq, Repr

/-- The loop behind the first `offset` bytes. -/
def utf8PrefixFrom (bytes : List UInt8) (maxBytes offset : Nat) : Utf8Prefix :=
  if _hlt : offset < bytes.length then
    let decoded := decodeScalar (bytes.drop offset)
    match ho : decoded.outcome with
    | .incomplete => { incomplete := true, bytes := offset }
    | .invalidEncoding => { valid := false, bytes := offset }
    | .decoded =>
      have : 0 < (decodeScalar (bytes.drop offset)).bytesConsumed :=
        decodeUtf8Scalar_bytesConsumed_pos ho
      if decoded.bytesConsumed > maxBytes - min maxBytes offset then
        { stoppedByMax := true, bytes := offset }
      else utf8PrefixFrom bytes maxBytes (offset + decoded.bytesConsumed)
  else { bytes := offset }
termination_by bytes.length - offset

def utf8Prefix (bytes : List UInt8) (maxBytes : Nat) : Utf8Prefix := utf8PrefixFrom bytes maxBytes 0

def validUtf8 (bytes : List UInt8) : Bool := (validate bytes).outcome == .valid

def clampedMaxBytes (maxBytes : Nat) : Nat := if maxBytes > sizeMax then sizeMax else maxBytes

structure LineEndingMatch where
  found : Bool := false
  offset : Nat := 0
  length : Nat := 0
  ending : ConsumedLineEnding := .none
  deriving DecidableEq, Repr

/-- The loop from `index`, in front of the bytes left. -/
def findLineEndingFrom (allowTrailingCr : Bool) : Nat → List UInt8 → LineEndingMatch
  | _, [] => {}
  | index, byte :: rest =>
    if byte = 0x0A then { found := true, offset := index, length := 1, ending := .lf }
    else if byte = 0x0D && rest.head? = some 0x0A then
      { found := true, offset := index, length := 2, ending := .crLf }
    else if byte = 0x0D && (!rest.isEmpty || allowTrailingCr) then
      { found := true, offset := index, length := 1, ending := .cr }
    else findLineEndingFrom allowTrailingCr (index + 1) rest

/-- Finds LF, CRLF, or optionally terminal CR, from `startOffset` on. -/
def findLineEnding (bytes : List UInt8) (startOffset : Nat) (allowTrailingCr : Bool) :
    LineEndingMatch :=
  let index := min startOffset bytes.length
  findLineEndingFrom allowTrailingCr index (bytes.drop index)

/-! ## Results -/

/-- A failed status with its text. -/
def failure (code : ErrorCode) (message : String) : Status := { code, message }

/-- `Types::Input::ByteOptions`, without the stop token `readInputChunk` observes, as below. -/
structure ByteOptions where
  timeout : Option Int := none
  allowPartial : Bool := true

/-- `Types::Input::ByteResult`, with the bytes written to the front of the output buffer;
`bytesRead` is their number. -/
structure ByteResult where
  status : Status := {}
  outcome : ReadOutcome := .completed
  output : List UInt8 := []

def ByteResult.bytesRead (result : ByteResult) : Nat := result.output.length

structure TextOptions where
  timeout : Option Int := none
  maxReturnedBytes : Nat

structure TextResult where
  status : Status := {}
  outcome : ReadOutcome := .completed
  text : List UInt8 := []
  wasTruncated : Bool := false

theorem empty_of_not_ok : ({} : Status).ok = false → ([] : List UInt8) = [] := fun _ => rfl

theorem bytes_of_not_ok (bytes : List UInt8) : ({} : Status).ok = false → bytes = [] := fun h => by cases h

/-- One backend input transfer; a failed one carries no bytes. -/
structure ReadChunk where
  status : Status := {}
  outcome : ReadOutcome := .completed
  bytes : List UInt8 := []
  failed_empty : status.ok = false → bytes = [] := by first | exact empty_of_not_ok | decide

/-- How the system answers one transfer from a redirected file or pipe. -/
inductive FileAnswer where
  | stopped
  | wouldBlock
  | timedOut
  /-- The peek or the read failed with a broken pipe or at the end of the file. -/
  | ended
  | failed (status : Status) (hfailed : status.ok = false)
  | read (bytes : List UInt8)

/-- One transfer from a redirected file or pipe. -/
def readFileInputChunk : FileAnswer → ReadChunk
  | .stopped => { outcome := .cancelled }
  | .wouldBlock => { outcome := .wouldBlock }
  | .timedOut => { outcome := .timedOut }
  | .ended => { outcome := .endOfStream }
  | .failed status _ => { status, failed_empty := fun _ => rfl }
  | .read bytes =>
    if bytes.isEmpty then { outcome := .endOfStream }
    else { bytes, failed_empty := bytes_of_not_ok bytes }

/-- What a call meets besides the chunks: whether the endpoint could be identified, and in each pass
of its loop the milliseconds since its start and whether the storage has to grow. -/
structure ReadEnvironment where
  endpointIdentityStatus : Status := {}
  elapsed : Nat → Int := fun _ => 0
  growing : Nat → Bool := fun _ => false

/-- The forever of the backend is negative. -/
def backendTimeout (timeout : Option Int) : Int := timeout.getD (-1)

def remainingTimeout (elapsed timeout : Int) : Int :=
  if timeout ≤ 0 then timeout else if elapsed ≥ timeout then 0 else timeout - elapsed

/-- The check in front of every transfer. -/
def expired (environment : ReadEnvironment) (requestedTimeout : Int) (pass : Nat) : Bool :=
  requestedTimeout > 0 && remainingTimeout (environment.elapsed pass) requestedTimeout = 0

/-- A reader between two transfers: the pass of its loop, the bytes pending and its locals. -/
structure ReadPass (L : Type) where
  pass : Nat := 0
  buffer : PendingInputBuffer
  progress : L

def ReadPass.absorbed {L : Type} (environment : ReadEnvironment) (current : ReadPass L)
    (bytes : List UInt8) : ReadPass L :=
  { current with
    pass := current.pass + 1
    buffer := current.buffer.append bytes (environment.growing current.pass) }

/-! ## Bytes -/

/-- The loop of `readBytes` up to the transfer. -/
def bytesAttempt (outputSize : Nat) (options : ByteOptions) (environment : ReadEnvironment)
    (current : ReadPass ByteResult) :
    Except (ByteResult × PendingInputBuffer) (ReadPass ByteResult) :=
  let result := current.progress
  if result.bytesRead < outputSize then
    let copied := min (outputSize - result.bytesRead) current.buffer.size
    let copying := !current.buffer.empty
    let result :=
      if copying then { result with output := result.output ++ current.buffer.view.take copied }
      else result
    let buffer := if copying then current.buffer.consume copied else current.buffer
    if copying && (options.allowPartial || result.bytesRead == outputSize) then
      .error (result, buffer)
    else if expired environment (backendTimeout options.timeout) current.pass then
      .error ({ result with outcome := .timedOut }, buffer)
    else .ok { current with buffer, progress := result }
  else .error (result, current.buffer)

def bytesAbsorb (environment : ReadEnvironment) (chunk : ReadChunk)
    (current : ReadPass ByteResult) :
    Except (ByteResult × PendingInputBuffer) (ReadPass ByteResult) :=
  if !chunk.status.ok then
    .error ({ current.progress with status := chunk.status, outcome := chunk.outcome },
      current.buffer)
  else if chunk.bytes.isEmpty then
    .error ({ current.progress with outcome := chunk.outcome }, current.buffer)
  else .ok (current.absorbed environment chunk.bytes)

/-- `readBytes`; the result comes with the bytes pending and the answers left. -/
def readBytes (outputSize : Nat) (options : ByteOptions) (environment : ReadEnvironment)
    (chunks : List ReadChunk) (buffer : PendingInputBuffer) :
    Option ((ByteResult × PendingInputBuffer) × List ReadChunk) :=
  if outputSize = 0 then some (({}, buffer), chunks)
  else if !environment.endpointIdentityStatus.ok then
    some (({ status := environment.endpointIdentityStatus }, buffer), chunks)
  else
    answered (bytesAttempt outputSize options environment) (bytesAbsorb environment) chunks
      { buffer, progress := {} }

/-! ## Text -/

/-- The loop of `readText` up to the transfer. -/
def textAttempt (options : TextOptions) (environment : ReadEnvironment) (current : ReadPass Unit) :
    Except (TextResult × PendingInputBuffer) (ReadPass Unit) :=
  let buffer := current.buffer
  let found := utf8Prefix buffer.view (clampedMaxBytes options.maxReturnedBytes)
  if !buffer.empty && !found.valid then
    .error ({ status := failure .encodingFailed "Terminal input is not valid UTF-8." }, buffer)
  else if !buffer.empty && found.bytes > 0 then
    .error ({ text := buffer.view.take found.bytes, wasTruncated := found.stoppedByMax },
      buffer.consume found.bytes)
  else if !buffer.empty && found.stoppedByMax then
    .error
      ({ status := failure .sizeLimitExceeded
          "Terminal text read maxReturnedBytes is too small for the next UTF-8 code point." },
        buffer)
  else if expired environment (backendTimeout options.timeout) current.pass then
    .error ({ outcome := .timedOut }, buffer)
  else .ok current

def textAbsorb (environment : ReadEnvironment) (chunk : ReadChunk) (current : ReadPass Unit) :
    Except (TextResult × PendingInputBuffer) (ReadPass Unit) :=
  if !chunk.status.ok then
    .error ({ status := chunk.status, outcome := chunk.outcome }, current.buffer)
  else if chunk.bytes.isEmpty then
    if !current.buffer.empty && chunk.outcome == .endOfStream then
      .error
        ({ status := failure .encodingFailed
            "Terminal input ended in the middle of a UTF-8 code point."
           outcome := chunk.outcome }, current.buffer)
    else .error ({ outcome := chunk.outcome }, current.buffer)
  else .ok (current.absorbed environment chunk.bytes)

/-- `readText`; the result comes with the bytes pending and the answers left. -/
def readText (options : TextOptions) (environment : ReadEnvironment) (chunks : List ReadChunk)
    (buffer : PendingInputBuffer) :
    Option ((TextResult × PendingInputBuffer) × List ReadChunk) :=
  if options.maxReturnedBytes = 0 then
    let status :=
      failure .invalidArgument "Terminal text read maxReturnedBytes must be greater than zero."
    some (({ status }, buffer), chunks)
  else if !environment.endpointIdentityStatus.ok then
    some (({ status := environment.endpointIdentityStatus }, buffer), chunks)
  else
    answered (textAttempt options environment) (textAbsorb environment) chunks
      { buffer, progress := () }

/-! ## Lines -/

/-- Moves the largest complete UTF-8 prefix within the limit. -/
def copyTruncatedUtf8Prefix (buffer : PendingInputBuffer) (maxBytes : Nat) :
    Status × List UInt8 × PendingInputBuffer :=
  let found := utf8Prefix buffer.view maxBytes
  if !found.valid then
    (failure .encodingFailed "Terminal input is not valid UTF-8.", [], buffer)
  else if found.bytes = 0 && found.stoppedByMax then
    (failure .sizeLimitExceeded
      "Terminal read maxReturnedBytes is too small for the next UTF-8 code point.", [], buffer)
  else (successStatus, buffer.view.take found.bytes, buffer.consume found.bytes)

/-- What the reader returns of a line over its limit. -/
def truncatedLine (buffer : PendingInputBuffer) (maxBytes : Nat) :
    LineResult × PendingInputBuffer :=
  let (status, line, buffer) := copyTruncatedUtf8Prefix buffer maxBytes
  ({ status, line, wasTruncated := status.ok }, buffer)

/-- The bytes of a matched ending the mode returns, for an enumerator. -/
def returnedLineEnding (lineEndingMode : LineEndingMode) (raw : List UInt8) :
    Option (List UInt8) :=
  match lineEndingMode with
  | .strip => some []
  | .keep => some raw
  | .normalizeToLf => some [0x0A]
  | .other _ => none

/-- Extracts a matched line from pending bytes according to the ending-retention policy. -/
def completeLineFromPending (buffer : PendingInputBuffer) (ending : LineEndingMatch)
    (lineEndingMode : LineEndingMode) (maxBytes : Nat) : LineResult × PendingInputBuffer :=
  if ending.offset > maxBytes then truncatedLine buffer maxBytes
  else
    let line := buffer.view.take ending.offset
    match returnedLineEnding lineEndingMode
        ((buffer.view.drop ending.offset).take ending.length) with
    | none =>
      ({ status := failure .invalidArgument "Unknown terminal line-ending read mode." }, buffer)
    | some returned =>
      let wasTruncated := returned.length > maxBytes - ending.offset
      let line := if wasTruncated then line else line ++ returned
      if !validUtf8 line then
        ({ status := failure .encodingFailed "Terminal line input is not valid UTF-8." }, buffer)
      else
        ({ line, consumedLineEnding := ending.ending, wasTruncated },
          buffer.consume (ending.offset + ending.length))

/-- What the reader returns when no more bytes come: at its deadline, or at an empty transfer. -/
def finishLine (buffer : PendingInputBuffer) (scanOffset : Nat) (outcome : ReadOutcome)
    (lineEndingMode : LineEndingMode) (maxBytes : Nat) : LineResult × PendingInputBuffer :=
  let ending := findLineEnding buffer.view scanOffset true
  if ending.found then completeLineFromPending buffer ending lineEndingMode maxBytes
  else if !buffer.empty then
    if !validUtf8 buffer.view then
      ({ status := failure .encodingFailed "Terminal line input is not valid UTF-8.", outcome },
        buffer)
    else ({ line := buffer.take.1, outcome }, buffer.take.2)
  else ({ outcome }, buffer)

/-- The loop of `readLine` up to the transfer; `progress` is `scanOffset`. -/
def lineAttempt (options : LineOptions) (environment : ReadEnvironment) (current : ReadPass Nat) :
    Except (LineResult × PendingInputBuffer) (ReadPass Nat) :=
  let maxBytes := clampedMaxBytes options.maxReturnedBytes
  let buffer := current.buffer
  let ending := findLineEnding buffer.view current.progress false
  if ending.found then
    .error (completeLineFromPending buffer ending options.lineEndingMode maxBytes)
  else if buffer.size ≥ maxBytes then .error (truncatedLine buffer maxBytes)
  else
    -- a trailing CR is scanned again: the next transfer can turn it into CRLF
    let scanOffset :=
      if buffer.view.getLast? = some 0x0D then buffer.view.length - 1 else buffer.view.length
    if expired environment (backendTimeout options.timeout) current.pass then
      .error (finishLine buffer scanOffset .timedOut options.lineEndingMode maxBytes)
    else .ok { current with progress := scanOffset }

def lineAbsorb (options : LineOptions) (environment : ReadEnvironment) (chunk : ReadChunk)
    (current : ReadPass Nat) : Except (LineResult × PendingInputBuffer) (ReadPass Nat) :=
  if !chunk.status.ok then
    .error ({ status := chunk.status, outcome := chunk.outcome }, current.buffer)
  else if chunk.bytes.isEmpty then
    .error (finishLine current.buffer current.progress chunk.outcome options.lineEndingMode
      (clampedMaxBytes options.maxReturnedBytes))
  else .ok (current.absorbed environment chunk.bytes)

/-- `readLine`; the result comes with the bytes pending and the answers left. -/
def readLine (options : LineOptions) (environment : ReadEnvironment) (chunks : List ReadChunk)
    (buffer : PendingInputBuffer) :
    Option ((LineResult × PendingInputBuffer) × List ReadChunk) :=
  if options.maxReturnedBytes = 0 then
    let status :=
      failure .invalidArgument "Terminal line read maxReturnedBytes must be greater than zero."
    some (({ status }, buffer), chunks)
  else if !environment.endpointIdentityStatus.ok then
    some (({ status := environment.endpointIdentityStatus }, buffer), chunks)
  else
    answered (lineAttempt options environment) (lineAbsorb options environment) chunks
      { buffer, progress := 0 }

/-! ## Runs -/

inductive ReadCall where
  | bytes (outputSize : Nat) (options : ByteOptions)
  | text (options : TextOptions)
  | line (options : LineOptions)

inductive ReadResult where
  | bytes (result : ByteResult)
  | text (result : TextResult)
  | line (result : LineResult)

def ReadCall.perform (call : ReadCall) (environment : ReadEnvironment) (chunks : List ReadChunk)
    (buffer : PendingInputBuffer) : Option ((ReadResult × PendingInputBuffer) × List ReadChunk) :=
  match call with
  | .bytes outputSize options =>
    (readBytes outputSize options environment chunks buffer).map fun answer =>
      ((.bytes answer.1.1, answer.1.2), answer.2)
  | .text options =>
    (readText options environment chunks buffer).map fun answer =>
      ((.text answer.1.1, answer.1.2), answer.2)
  | .line options =>
    (readLine options environment chunks buffer).map fun answer =>
      ((.line answer.1.1, answer.1.2), answer.2)

/-- The bytes of a list of transfers. -/
def chunkBytes (chunks : List ReadChunk) : List UInt8 := chunks.flatMap (·.bytes)

/-- A run of calls on one endpoint: the answers to come, the bytes received from those before and
what the calls have returned. -/
structure StreamRun where
  chunks : List ReadChunk
  buffer : PendingInputBuffer := {}
  received : List UInt8 := []
  results : List (ReadCall × ReadResult) := []

/-- One call; it is not over while it waits for an answer. -/
def readStep (run : StreamRun) (call : ReadCall × ReadEnvironment) : Option StreamRun :=
  (call.1.perform call.2 run.chunks run.buffer).map fun answer =>
    { chunks := answer.2
      buffer := answer.1.2
      received :=
        run.received ++ chunkBytes (run.chunks.take (run.chunks.length - answer.2.length))
      results := run.results ++ [(call.1, answer.1.1)] }

end Terminal

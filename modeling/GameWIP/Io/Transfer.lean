import GameWIP.Io.Status
import GameWIP.Unicode.Encoding

/-!
# Whole-stream transfers

`readAllBytes`, `readAllText`, `writeAllBytes` and `writeAllText` over an arbitrary reader or writer
(`io/core/transfer.cpp`). A reader is a state machine: each query and each read answers and moves it
to a new state, and a read leaves the destination with new contents of the same size. A writer
likewise answers each write. The functions return the state of the reader or writer with their
result.

Allocation always succeeds here: the branches of a failed allocation are left out, while the checks
against the greatest size of a vector or a string stay.
-/

namespace Io

/-- Result returned by byte read operations. -/
structure ReadResult where
  status : Status := {}
  bytesRead : Nat := 0
  endOfStream : Bool := false
  deriving DecidableEq, Repr

structure PositionResult where
  status : Status := {}
  position : Nat := 0
  deriving DecidableEq, Repr

structure SizeResult where
  status : Status := {}
  sizeBytes : Nat := 0
  deriving DecidableEq, Repr

/-- A byte-input interface with any behaviour: `read` receives the contents of the destination and
returns what is stored there afterwards. -/
structure Reader (ρ : Type) where
  size : ρ → SizeResult × ρ
  position : ρ → PositionResult × ρ
  read : ρ → List UInt8 → ReadResult × List UInt8 × ρ
  length_read : ∀ s destination, (read s destination).2.1.length = destination.length

structure ReadAllBytesResult where
  status : Status := {}
  bytes : List UInt8 := []
  deriving DecidableEq, Repr

/-- The greatest size of a `std::vector<std::byte>`. -/
def kVectorMaxSize : Nat := 2 ^ 63 - 1

/-- Non-seekable readers are allowed to use the streaming path. -/
def isUnsupportedReaderCapability (status : Status) : Bool :=
  status.code == .notSeekable || status.code == .unsupported

/-- Result of probing a reader for an exact remaining byte count. -/
structure KnownReadableByteCount where
  status : Status := {}
  byteCount : Nat := 0
  known : Bool := false
  deriving DecidableEq, Repr

section
variable {ρ : Type} (reader : Reader ρ)

def knownReadableByteCount (s : ρ) : KnownReadableByteCount × ρ :=
  let (sizeResult, s) := reader.size s
  if !sizeResult.status.ok then
    if isUnsupportedReaderCapability sizeResult.status then
      ({}, s)
    else
      ({ status := sizeResult.status }, s)
  else
    let (positionResult, s) := reader.position s
    if !positionResult.status.ok then
      if isUnsupportedReaderCapability positionResult.status then
        ({}, s)
      else
        ({ status := positionResult.status }, s)
    else if positionResult.position > sizeResult.sizeBytes then
      ({ status := makeStatus .invalidArgument }, s)
    else
      ({ byteCount := sizeResult.sizeBytes - positionResult.position, known := true }, s)

/-- The loop of `readAllBytesKnownSize`; `bytes` holds the whole expected range. -/
def readKnownSizeFrom (bytes : List UInt8) (totalRead : Nat) (s : ρ) : ReadAllBytesResult × ρ :=
  if _hlt : totalRead < bytes.length then
    let destination := bytes.drop totalRead
    let answer := reader.read s destination
    let readResult := answer.1
    let contents := answer.2.1
    let s' := answer.2.2
    if readResult.bytesRead > destination.length then
      ({ status := makeStatus .readFailed, bytes := bytes.take totalRead }, s')
    else
      let bytes' := bytes.take totalRead ++ contents
      let totalRead' := totalRead + readResult.bytesRead
      if !readResult.status.ok then
        ({ status := readResult.status, bytes := bytes'.take totalRead' }, s')
      else if readResult.endOfStream && totalRead' < bytes.length then
        ({ status := makeStatus .partialRead, bytes := bytes'.take totalRead' }, s')
      else if _hz : readResult.bytesRead == 0 then
        ({ status := makeStatus .readFailed, bytes := bytes'.take totalRead' }, s')
      else
        readKnownSizeFrom bytes' totalRead' s'
  else
    ({ bytes }, s)
termination_by bytes.length - totalRead
decreasing_by
  have hl : contents.length = bytes.length - totalRead :=
    (reader.length_read s destination).trans List.length_drop
  have hz' : readResult.bytesRead ≠ 0 := by simpa using _hz
  change (bytes.take totalRead ++ contents).length - (totalRead + readResult.bytesRead) <
    bytes.length - totalRead
  rw [List.length_append, List.length_take]
  omega

def readAllBytesKnownSize (s : ρ) (knownByteCount maxBytes : Nat) : ReadAllBytesResult × ρ :=
  if knownByteCount > maxBytes then
    ({ status := makeStatus .sizeLimitExceeded }, s)
  else if knownByteCount > kVectorMaxSize then
    ({ status := makeStatus .sizeLimitExceeded }, s)
  else if knownByteCount == 0 then
    ({}, s)
  else
    readKnownSizeFrom reader (List.replicate knownByteCount 0) 0 s

def appendBytes (destination source : List UInt8) : Status × List UInt8 :=
  if source.isEmpty then
    (successStatus, destination)
  else if source.length > kVectorMaxSize - destination.length then
    (makeStatus .sizeLimitExceeded, destination)
  else
    (successStatus, destination ++ source)

/-- Consumes at most one byte to distinguish exact-limit end of stream from over-limit input. The
probe byte is not initialised. -/
def probeForMoreData (probeByte : UInt8) (s : ρ) : Status × ρ :=
  let (readResult, _, s) := reader.read s [probeByte]
  if readResult.bytesRead > 1 then
    (makeStatus .readFailed, s)
  else if readResult.bytesRead > 0 then
    (makeStatus .sizeLimitExceeded, s)
  else if !readResult.status.ok then
    (readResult.status, s)
  else if readResult.endOfStream then
    (successStatus, s)
  else
    (makeStatus .readFailed, s)

/-- The loop of `readAllBytesWithScratch`, with the bytes collected so far. -/
def readWithScratchFrom (probeByte : UInt8) (maxBytes : Nat) (bytes scratchBuffer : List UInt8)
    (totalRead : Nat) (s : ρ) : ReadAllBytesResult × ρ :=
  if _hge : totalRead ≥ maxBytes then
    let (status, s') := probeForMoreData reader probeByte s
    ({ status, bytes }, s')
  else
    let requestSize := min scratchBuffer.length (maxBytes - totalRead)
    let answer := reader.read s (scratchBuffer.take requestSize)
    let readResult := answer.1
    let contents := answer.2.1
    let s' := answer.2.2
    if readResult.bytesRead > requestSize then
      ({ status := makeStatus .readFailed, bytes }, s')
    else
      let appended :=
        if readResult.bytesRead > 0 then appendBytes bytes (contents.take readResult.bytesRead)
        else (successStatus, bytes)
      let bytes' := appended.2
      if !appended.1.ok then
        ({ status := appended.1, bytes := bytes' }, s')
      else if !readResult.status.ok then
        ({ status := readResult.status, bytes := bytes' }, s')
      else if readResult.endOfStream then
        ({ bytes := bytes' }, s')
      else if _hz : readResult.bytesRead == 0 then
        ({ status := makeStatus .readFailed, bytes := bytes' }, s')
      else
        readWithScratchFrom probeByte maxBytes bytes' (contents ++ scratchBuffer.drop requestSize)
          (totalRead + readResult.bytesRead) s'
termination_by maxBytes - totalRead
decreasing_by
  have hz' : readResult.bytesRead ≠ 0 := by simpa using _hz
  change maxBytes - (totalRead + readResult.bytesRead) < maxBytes - totalRead
  omega

def readAllBytesWithScratch (probeByte : UInt8) (s : ρ) (scratchBuffer : List UInt8)
    (maxBytes : Nat) : ReadAllBytesResult × ρ :=
  readWithScratchFrom reader probeByte maxBytes [] scratchBuffer 0 s

/-- `readAllBytes` with a caller-owned scratch buffer. -/
def readAllBytesScratch (probeByte : UInt8) (s : ρ) (scratchBuffer : List UInt8) (maxBytes : Nat) :
    ReadAllBytesResult × ρ :=
  if scratchBuffer.isEmpty then
    ({ status := makeStatus .invalidArgument }, s)
  else
    let (knownByteCount, s) := knownReadableByteCount reader s
    if !knownByteCount.status.ok then
      ({ status := knownByteCount.status }, s)
    else if knownByteCount.known then
      readAllBytesKnownSize reader s knownByteCount.byteCount maxBytes
    else if maxBytes == 0 then
      let (status, s) := probeForMoreData reader probeByte s
      ({ status }, s)
    else
      readAllBytesWithScratch reader probeByte s scratchBuffer maxBytes

/-- `readAllBytes` with an operation-owned scratch buffer of the given size. The buffer is not
initialised: `fresh` is the byte found at each of its places. -/
def readAllBytes (probeByte : UInt8) (fresh : Nat → UInt8) (s : ρ) (maxBytes bufferSize : Nat) :
    ReadAllBytesResult × ρ :=
  if bufferSize == 0 then
    ({ status := makeStatus .invalidArgument }, s)
  else
    let (knownByteCount, s) := knownReadableByteCount reader s
    if !knownByteCount.status.ok then
      ({ status := knownByteCount.status }, s)
    else if knownByteCount.known then
      readAllBytesKnownSize reader s knownByteCount.byteCount maxBytes
    else if maxBytes == 0 then
      let (status, s) := probeForMoreData reader probeByte s
      ({ status }, s)
    else
      let effectiveBufferSize := min bufferSize maxBytes
      readAllBytesWithScratch reader probeByte s ((List.range effectiveBufferSize).map fresh)
        maxBytes

end

/-! ## Whole-stream text reads

The text functions are copies of the byte functions over a `std::string`. -/

structure ReadAllTextResult where
  status : Status := {}
  text : List UInt8 := []
  deriving DecidableEq, Repr

/-- The greatest size of a `std::string`. -/
def kStringMaxSize : Nat := 2 ^ 63 - 1

/-- Validates collected text and trims any malformed or incomplete suffix. -/
def finalizeReadAllText (result : ReadAllTextResult) : ReadAllTextResult :=
  let validation := Unicode.Utf8.validate result.text
  if validation.outcome == .valid then
    result
  else
    let text := result.text.take validation.validPrefixBytes
    let reachedDefinitiveEnd := result.status.ok || result.status.code == .partialRead
    if validation.outcome == .invalidEncoding || reachedDefinitiveEnd then
      { status := makeStatus .encodingFailed, text }
    else
      { status := result.status, text }

section
variable {ρ : Type} (reader : Reader ρ)

/-- The loop of `readAllTextKnownSize`; `text` holds the whole expected range. -/
def readTextKnownSizeFrom (text : List UInt8) (totalRead : Nat) (s : ρ) : ReadAllTextResult × ρ :=
  if _hlt : totalRead < text.length then
    let destination := text.drop totalRead
    let answer := reader.read s destination
    let readResult := answer.1
    let contents := answer.2.1
    let s' := answer.2.2
    if readResult.bytesRead > destination.length then
      ({ status := makeStatus .readFailed, text := text.take totalRead }, s')
    else
      let text' := text.take totalRead ++ contents
      let totalRead' := totalRead + readResult.bytesRead
      if !readResult.status.ok then
        ({ status := readResult.status, text := text'.take totalRead' }, s')
      else if readResult.endOfStream && totalRead' < text.length then
        ({ status := makeStatus .partialRead, text := text'.take totalRead' }, s')
      else if _hz : readResult.bytesRead == 0 then
        ({ status := makeStatus .readFailed, text := text'.take totalRead' }, s')
      else
        readTextKnownSizeFrom text' totalRead' s'
  else
    ({ text }, s)
termination_by text.length - totalRead
decreasing_by
  have hl : contents.length = text.length - totalRead :=
    (reader.length_read s destination).trans List.length_drop
  have hz' : readResult.bytesRead ≠ 0 := by simpa using _hz
  change (text.take totalRead ++ contents).length - (totalRead + readResult.bytesRead) <
    text.length - totalRead
  rw [List.length_append, List.length_take]
  omega

def readAllTextKnownSize (s : ρ) (knownByteCount maxBytes : Nat) : ReadAllTextResult × ρ :=
  if knownByteCount > maxBytes then
    ({ status := makeStatus .sizeLimitExceeded }, s)
  else if knownByteCount > kStringMaxSize then
    ({ status := makeStatus .sizeLimitExceeded }, s)
  else if knownByteCount == 0 then
    ({}, s)
  else
    readTextKnownSizeFrom reader (List.replicate knownByteCount 0) 0 s

def appendTextBytes (destination source : List UInt8) : Status × List UInt8 :=
  if source.isEmpty then
    (successStatus, destination)
  else if source.length > kStringMaxSize - destination.length then
    (makeStatus .sizeLimitExceeded, destination)
  else
    (successStatus, destination ++ source)

/-- The loop of `readAllTextWithScratch`, with the text collected so far. -/
def readTextWithScratchFrom (probeByte : UInt8) (maxBytes : Nat) (text scratchBuffer : List UInt8)
    (totalRead : Nat) (s : ρ) : ReadAllTextResult × ρ :=
  if _hge : totalRead ≥ maxBytes then
    let (status, s') := probeForMoreData reader probeByte s
    ({ status, text }, s')
  else
    let requestSize := min scratchBuffer.length (maxBytes - totalRead)
    let answer := reader.read s (scratchBuffer.take requestSize)
    let readResult := answer.1
    let contents := answer.2.1
    let s' := answer.2.2
    if readResult.bytesRead > requestSize then
      ({ status := makeStatus .readFailed, text }, s')
    else
      let appended :=
        if readResult.bytesRead > 0 then
          appendTextBytes text (contents.take readResult.bytesRead)
        else
          (successStatus, text)
      let text' := appended.2
      if !appended.1.ok then
        ({ status := appended.1, text := text' }, s')
      else if !readResult.status.ok then
        ({ status := readResult.status, text := text' }, s')
      else if readResult.endOfStream then
        ({ text := text' }, s')
      else if _hz : readResult.bytesRead == 0 then
        ({ status := makeStatus .readFailed, text := text' }, s')
      else
        readTextWithScratchFrom probeByte maxBytes text' (contents ++ scratchBuffer.drop requestSize)
          (totalRead + readResult.bytesRead) s'
termination_by maxBytes - totalRead
decreasing_by
  have hz' : readResult.bytesRead ≠ 0 := by simpa using _hz
  change maxBytes - (totalRead + readResult.bytesRead) < maxBytes - totalRead
  omega

def readAllTextWithScratch (probeByte : UInt8) (s : ρ) (scratchBuffer : List UInt8)
    (maxBytes : Nat) : ReadAllTextResult × ρ :=
  readTextWithScratchFrom reader probeByte maxBytes [] scratchBuffer 0 s

/-- `readAllText` with a caller-owned scratch buffer. -/
def readAllTextScratch (probeByte : UInt8) (s : ρ) (scratchBuffer : List UInt8) (maxBytes : Nat) :
    ReadAllTextResult × ρ :=
  if scratchBuffer.isEmpty then
    ({ status := makeStatus .invalidArgument }, s)
  else
    let (knownByteCount, s) := knownReadableByteCount reader s
    if !knownByteCount.status.ok then
      ({ status := knownByteCount.status }, s)
    else if knownByteCount.known then
      let (result, s) := readAllTextKnownSize reader s knownByteCount.byteCount maxBytes
      (finalizeReadAllText result, s)
    else if maxBytes == 0 then
      let (status, s) := probeForMoreData reader probeByte s
      ({ status }, s)
    else
      let (result, s) := readAllTextWithScratch reader probeByte s scratchBuffer maxBytes
      (finalizeReadAllText result, s)

/-- `readAllText` with an operation-owned scratch buffer of the given size. -/
def readAllText (probeByte : UInt8) (fresh : Nat → UInt8) (s : ρ) (maxBytes bufferSize : Nat) :
    ReadAllTextResult × ρ :=
  if bufferSize == 0 then
    ({ status := makeStatus .invalidArgument }, s)
  else
    let (knownByteCount, s) := knownReadableByteCount reader s
    if !knownByteCount.status.ok then
      ({ status := knownByteCount.status }, s)
    else if knownByteCount.known then
      let (result, s) := readAllTextKnownSize reader s knownByteCount.byteCount maxBytes
      (finalizeReadAllText result, s)
    else if maxBytes == 0 then
      let (status, s) := probeForMoreData reader probeByte s
      ({ status }, s)
    else
      let effectiveBufferSize := min bufferSize maxBytes
      let (result, s) := readAllTextWithScratch reader probeByte s
        ((List.range effectiveBufferSize).map fresh) maxBytes
      (finalizeReadAllText result, s)

end

/-! ## Whole-stream writes -/

/-- Result returned by byte write operations. -/
structure WriteResult where
  status : Status := {}
  bytesWritten : Nat := 0
  deriving DecidableEq, Repr

/-- A byte-output interface with any behaviour. -/
structure Writer (ω : Type) where
  write : ω → List UInt8 → WriteResult × ω

section
variable {ω : Type} (writer : Writer ω)

/-- The loop of `writeAllBytes`; `bytes` are the ones not accepted yet. -/
def writeAllFrom (bytes : List UInt8) (totalWritten : Nat) (s : ω) : WriteResult × ω :=
  if _hne : !bytes.isEmpty then
    let answer := writer.write s bytes
    let writeResult := answer.1
    let s' := answer.2
    if writeResult.bytesWritten > bytes.length then
      ({ status := makeStatus .writeFailed, bytesWritten := totalWritten }, s')
    else
      let totalWritten' := totalWritten + writeResult.bytesWritten
      if !writeResult.status.ok then
        ({ status := writeResult.status, bytesWritten := totalWritten' }, s')
      else if _hz : writeResult.bytesWritten == 0 then
        ({ status := makeStatus .writeFailed, bytesWritten := totalWritten' }, s')
      else
        writeAllFrom (bytes.drop writeResult.bytesWritten) totalWritten' s'
  else
    ({ status := successStatus, bytesWritten := totalWritten }, s)
termination_by bytes.length
decreasing_by
  have hz' : writeResult.bytesWritten ≠ 0 := by simpa using _hz
  have hne' : bytes ≠ [] := by simpa using _hne
  have := List.length_pos_iff.2 hne'
  rw [List.length_drop]
  change bytes.length - writeResult.bytesWritten < bytes.length
  omega

def writeAllBytes (s : ω) (bytes : List UInt8) : WriteResult × ω :=
  writeAllFrom writer bytes 0 s

def writeAllText (s : ω) (utf8Text : List UInt8) : WriteResult × ω :=
  if (Unicode.Utf8.validate utf8Text).outcome != .valid then
    ({ status := makeStatus .encodingFailed, bytesWritten := 0 }, s)
  else
    writeAllBytes writer s utf8Text

end

end Io

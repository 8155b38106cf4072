import Mathlib.Data.List.Basic
import Mathlib.Algebra.Ring.Nat

/-!
# IO statuses

The portable status vocabulary shared by the IO, file and terminal libraries (`io/status.h`) and
the flush modes of a writer (`io/stream.h`).
-/

namespace Io

/-- Portable error categories. -/
inductive ErrorCode where
  | success
  | invalidArgument
  | unsupported
  | notOpen
  | alreadyOpen
  | notFound
  | alreadyExists
  | permissionDenied
  | pathTooLong
  | isDirectory
  | notDirectory
  | notSeekable
  | endOfStream
  | openFailed
  | readFailed
  | writeFailed
  | flushFailed
  | closeFailed
  | seekFailed
  | statFailed
  | removeFailed
  | replaceFailed
  | copyFailed
  | moveFailed
  | resizeFailed
  | lockFailed
  | unlockFailed
  | directoryCreateFailed
  | directoryListFailed
  | directoryNotEmpty
  | partialRead
  | partialWrite
  | sizeLimitExceeded
  | outOfMemory
  | resourceBusy
  | storageFull
  | brokenPipe
  | interrupted
  | encodingFailed
  | nativeFailure
  | unknown
  deriving DecidableEq, Repr

/-- Status returned by expected IO operations. -/
structure Status where
  code : ErrorCode := .success
  nativeCode : Int := 0
  message : String := ""
  deriving DecidableEq, Repr

/-- Whether the status code is success. -/
def Status.ok (status : Status) : Bool := status.code == .success

def makeStatus (code : ErrorCode) : Status := { code }

def successStatus : Status := {}

/-- `IO::Types::FlushMode`; `other` is a value that is no enumerator. -/
inductive FlushMode where
  | none
  | data
  | dataAndMetadataBestEffort
  | other (value : Int)
  deriving DecidableEq, Repr

def isValidFlushMode : FlushMode → Bool
  | .none | .data | .dataAndMetadataBestEffort => true
  | .other _ => false

@[simp] theorem makeStatus_ok (code : ErrorCode) : (makeStatus code).ok = (code == .success) := rfl

@[simp] theorem successStatus_ok : successStatus.ok = true := rfl

end Io

import GameWIP.Io.Transfer
import GameWIP.Lib.Copies

/-!
# Memory streams

`MemoryReader` and `MemoryWriter` of `io/memory.h` and `io/core/io.cpp`. The memory holds a byte at each
address; the source of a reader is a range of it, and the destination of a read is another, which may
overlap the source. The storage of a writer stands at an address of its own, and what is appended may
lie in that storage.

What the allocator does comes with the call: a success gives the address at which the storage stands
afterwards. The capacity of the storage is left out.
-/

namespace Io

/-- A span of bytes: where it begins and how many it has. -/
structure Span where
  data : Nat
  size : Nat
  deriving DecidableEq, Repr

abbrev Memory : Type := Nat → UInt8

/-- `IO::Types::SeekOrigin`; `other` is a value that is no enumerator. -/
inductive SeekOrigin where
  | begin
  | current
  | end
  | other (value : Int)
  deriving DecidableEq, Repr

/-! ## Readers -/

structure MemoryReader where
  bytes : Span
  position : Nat := 0
  isOpen : Bool := true
  deriving DecidableEq, Repr

namespace MemoryReader

/-- The memory is returned as the read leaves it. -/
def read (r : MemoryReader) (memory : Memory) (destination : Span) :
    ReadResult × Memory × MemoryReader :=
  if !r.isOpen then ({ status := makeStatus .notOpen }, memory, r)
  else if r.position > r.bytes.size then ({ status := makeStatus .invalidArgument }, memory, r)
  else if destination.size = 0 then
    ({ endOfStream := r.position ≥ r.bytes.size }, memory, r)
  else if r.position ≥ r.bytes.size then ({ endOfStream := true }, memory, r)
  else
    let available := r.bytes.size - r.position
    let count := min destination.size available
    let source : Span := ⟨r.bytes.data + r.position, count⟩
    let target : Span := ⟨destination.data, count⟩
    let copied :=
      if source.data < target.data && target.data < source.data + source.size then
        Lib.copyBackward memory source.data target.data count
      else Lib.copyForward memory source.data target.data count
    let r := { r with position := r.position + count }
    ({ bytesRead := count, endOfStream := r.position = r.bytes.size }, copied, r)

def close (r : MemoryReader) : Status × MemoryReader := (successStatus, { r with isOpen := false })

def positionResult (r : MemoryReader) : PositionResult :=
  if !r.isOpen then { status := makeStatus .notOpen } else { position := r.position }

def sizeResult (r : MemoryReader) : SizeResult :=
  if !r.isOpen then { status := makeStatus .notOpen } else { sizeBytes := r.bytes.size }

/-- The base of a seek; none for an unknown origin. -/
def seekBase (r : MemoryReader) (size : Int64) : SeekOrigin → Option Int64
  | .begin => some 0
  | .current => some (.ofNat r.position)
  | .end => some size
  | .other _ => none

def seek (r : MemoryReader) (offset : Int64) (origin : SeekOrigin) : Status × MemoryReader :=
  if !r.isOpen then (makeStatus .notOpen, r)
  else if r.bytes.size > 2 ^ 63 - 1 then (makeStatus .sizeLimitExceeded, r)
  else
    let size : Int64 := .ofNat r.bytes.size
    if r.position > r.bytes.size then (makeStatus .invalidArgument, r)
    else
      match r.seekBase size origin with
      | none => (makeStatus .invalidArgument, r)
      | some base =>
        if offset < -base || offset > size - base then (makeStatus .seekFailed, r)
        else
          let target := base + offset
          (successStatus, { r with position := target.toNatClampNeg })

end MemoryReader

/-! ## Writers -/

/-- What an attempt to grow the storage does. -/
inductive Allocation where
  | success (address : Nat)
  | badAlloc
  | lengthError
  | other
  deriving DecidableEq, Repr

/-- The status of an exception. -/
def Allocation.failure : Allocation → Option Status
  | .success _ => none
  | .badAlloc => some (makeStatus .outOfMemory)
  | .lengthError => some (makeStatus .sizeLimitExceeded)
  | .other => some (makeStatus .unknown)

/-- The storage has an address once it has been allocated. -/
structure MemoryWriter where
  storage : Option Nat := none
  bytes : List UInt8 := []
  isOpen : Bool := true
  deriving DecidableEq, Repr

/-- Appends a range of the vector itself: the vector grows first, and then the range is copied. -/
def appendAliasedBytes (destination : List UInt8) (sourceOffset sourceSize : Nat)
    (allocation : Allocation) : Status × List UInt8 :=
  let oldSize := destination.length
  if sourceOffset > oldSize || sourceSize > oldSize - sourceOffset then
    (makeStatus .invalidArgument, destination)
  else if sourceSize > kVectorMaxSize - oldSize then (makeStatus .sizeLimitExceeded, destination)
  else
    match allocation.failure with
    | some status => (status, destination)
    | none =>
      let storage := destination ++ List.replicate sourceSize 0
      (successStatus, storage.take oldSize ++ (storage.drop sourceOffset).take sourceSize)

namespace MemoryWriter

/-- Where the storage stands after an attempt to grow it. -/
def moved (w : MemoryWriter) : Allocation → Option Nat
  | .success address => some address
  | _ => w.storage

/-- The offset of the input in the storage, if it begins there. -/
def ownOffset (w : MemoryWriter) (inputBegin : Nat) : Option Nat :=
  match w.storage with
  | none => none
  | some ownBegin =>
    let ownEnd := ownBegin + w.bytes.length
    if !(inputBegin < ownBegin) && inputBegin < ownEnd then some (inputBegin - ownBegin) else none

/-- Appends a span of the memory, or of the storage. -/
def write (w : MemoryWriter) (memory : Memory) (bytes : Span) (allocation : Allocation) :
    WriteResult × MemoryWriter :=
  if !w.isOpen then ({ status := makeStatus .notOpen }, w)
  else if bytes.size = 0 then ({}, w)
  else if bytes.size > kVectorMaxSize - w.bytes.length then
    ({ status := makeStatus .sizeLimitExceeded }, w)
  else
    match w.ownOffset bytes.data with
    | some sourceOffset =>
      let (appendStatus, appended) :=
        appendAliasedBytes w.bytes sourceOffset bytes.size allocation
      if !appendStatus.ok then ({ status := appendStatus }, { w with bytes := appended })
      else
        ({ bytesWritten := bytes.size },
          { w with storage := w.moved allocation, bytes := appended })
    | none =>
      match allocation.failure with
      | some status => ({ status }, w)
      | none =>
        let inserted := (List.range bytes.size).map fun i => memory (bytes.data + i)
        ({ bytesWritten := bytes.size },
          { w with storage := w.moved allocation, bytes := w.bytes ++ inserted })

def flush (w : MemoryWriter) (mode : FlushMode) : Status :=
  if !isValidFlushMode mode then makeStatus .invalidArgument
  else if !w.isOpen then makeStatus .notOpen
  else successStatus

def close (w : MemoryWriter) : Status × MemoryWriter := (successStatus, { w with isOpen := false })

def positionResult (w : MemoryWriter) : PositionResult :=
  if !w.isOpen then { status := makeStatus .notOpen } else { position := w.bytes.length }

def reserve (w : MemoryWriter) (capacity : Nat) (allocation : Allocation) : Status × MemoryWriter :=
  if capacity > kVectorMaxSize then (makeStatus .sizeLimitExceeded, w)
  else
    match allocation.failure with
    | some status => (status, w)
    | none => (successStatus, { w with storage := w.moved allocation })

def copyText (w : MemoryWriter) (allocation : Allocation) : Status × List UInt8 :=
  if w.bytes.isEmpty then (successStatus, [])
  else if w.bytes.length > kStringMaxSize then (makeStatus .sizeLimitExceeded, [])
  else if (Unicode.Utf8.validate w.bytes).outcome != .valid then (makeStatus .encodingFailed, [])
  else
    match allocation.failure with
    | some status => (status, [])
    | none => (successStatus, w.bytes)

def takeBytes (w : MemoryWriter) : List UInt8 × MemoryWriter :=
  (w.bytes, { w with storage := none, bytes := [] })

def clear (w : MemoryWriter) : MemoryWriter := { w with bytes := [] }

end MemoryWriter

end Io

import GameWIP.Logger.Queue

/-!
# Message truncation in the logger

The places that bound a message to `maxMessageLength` bytes: the formatting bridges
(`tools/logger/detail/formatting.h`), which either format whole messages and cut them or keep only
the bytes in the limit as they are formatted, and the reports
(`tools/logger/core/logger_format.cpp`), which bound a message they are given. The copy into a
queue slot is `assignRetainedMessage`.
-/

namespace Logger

/-! ## Cutting a formatted message -/

/-- The loop back over continuation bytes. -/
def prefixLead (text : List UInt8) : Nat → Nat
  | 0 => 0
  | boundary + 1 =>
    if (text.getD (boundary + 1) 0) &&& 0xC0 ≠ 0x80 then boundary + 1 else prefixLead text boundary

/-- A truncation boundary that does not split a UTF-8 continuation sequence. -/
def utf8PrefixBoundary (text : List UInt8) (limit : Nat) : Nat :=
  if limit ≥ text.length then text.length else prefixLead text limit

/-- Appends the visible truncation marker while respecting very small message limits. -/
def appendTruncationSuffix (scratch : List UInt8) (maxMessageLength : Nat) : List UInt8 :=
  if maxMessageLength = 0 then []
  else if maxMessageLength ≤ truncationSuffix.length then truncationSuffix.take maxMessageLength
  else scratch ++ truncationSuffix

/-- Rewrites scratch to the retained prefix plus truncation marker. -/
def truncateScratch (scratch : List UInt8) (maxMessageLength : Nat) : List UInt8 :=
  let kept :=
    if maxMessageLength > truncationSuffix.length then
      scratch.take (utf8PrefixBoundary scratch (maxMessageLength - truncationSuffix.length))
    else []
  appendTruncationSuffix kept maxMessageLength

/-- The limit applied after an unbounded formatting pass. -/
def truncateScratchIfNeeded (scratch : List UInt8) (maxMessageLength : Nat) : List UInt8 × Bool :=
  if scratch.length ≤ maxMessageLength then (scratch, false)
  else (truncateScratch scratch maxMessageLength, true)

/-! ## Bounded formatting -/

/-- What `BoundedFormatIterator` writes to. -/
structure BoundedFormat where
  output : List UInt8 := []
  written : Nat := 0
  truncated : Bool := false
  deriving DecidableEq, Repr

/-- `BoundedFormatIterator::operator=`. -/
def BoundedFormat.assign (limit : Nat) (s : BoundedFormat) (value : UInt8) : BoundedFormat :=
  if s.written < limit then
    { s with output := s.output ++ [value], written := s.written + 1 }
  else { s with truncated := true, written := s.written + 1 }

/-- Formatting through the bounded iterator, which is assigned each byte of the message. -/
def formatBounded (message : List UInt8) (maxMessageLength : Nat) : List UInt8 × Bool :=
  let s := message.foldl (BoundedFormat.assign maxMessageLength) {}
  if s.truncated then (truncateScratch s.output maxMessageLength, true) else (s.output, false)

inductive FormatPolicy where
  | strictBounded
  | fastNormal
  deriving DecidableEq, Repr

def formatWithPolicy (policy : FormatPolicy) (message : List UInt8) (maxMessageLength : Nat) :
    List UInt8 × Bool :=
  if policy = .fastNormal then truncateScratchIfNeeded message maxMessageLength
  else formatBounded message maxMessageLength

/-! ## Bounding a message for a report -/

def buildTruncatedMessage (message : List UInt8) (maxMessageLength : Nat) : List UInt8 :=
  if maxMessageLength = 0 then []
  else if maxMessageLength ≤ truncationSuffix.length then truncationSuffix.take maxMessageLength
  else
    let prefixBytes :=
      utf8PrefixBoundary message (maxMessageLength - truncationSuffix.length)
    message.take prefixBytes ++ truncationSuffix

def boundedMessageView (message : List UInt8) (alreadyTruncated : Bool) (maxMessageLength : Nat) :
    List UInt8 × Bool :=
  if alreadyTruncated then (message, false)
  else if message.length ≤ maxMessageLength then (message, false)
  else (buildTruncatedMessage message maxMessageLength, true)

end Logger

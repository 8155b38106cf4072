import GameWIP.FileSystem.Entry
import GameWIP.Io.Transfer
import Mathlib.Logic.Function.Basic

/-!
# Atomic writes

`writeAllBytesAtomic` (`filesystem/core/filesystem_whole_file.inl`): the contents go to a temporary
file beside the destination, which a rename then puts in its place.

The file system is the contents of its files (`Files`), and `World` keeps the contents at every
earlier moment. The platform is the environment: an answer for each of its calls. What the answers
mean for the files is what the platform promises: an exclusive open creates only a missing file, a
successful write appends the bytes it reports, a move renames or changes nothing; queries, flushes
and the creation of directories leave the contents of files alone.
-/

namespace FileSystem

open Io (Status ErrorCode FlushMode WriteResult Writer isValidFlushMode makeStatus successStatus)

/-! ## Files -/

/-- The contents of the files of a file system. -/
abbrev Files (Path : Type) := Path → Option (List UInt8)

/-- The files now and at every earlier moment, the first moment first. -/
structure World (Path : Type) where
  files : Files Path
  history : List (Files Path) := []

section
variable {Path : Type} [DecidableEq Path]

namespace World

def put (world : World Path) (path : Path) (contents : Option (List UInt8)) : World Path :=
  { files := Function.update world.files path contents
    history := world.history ++ [world.files] }

/-- One step: the destination has the contents of the source, which is gone. -/
def rename (world : World Path) (source target : Path) : World Path :=
  { files := Function.update (Function.update world.files target (world.files source)) source none
    history := world.history ++ [world.files] }

/-- The files at every moment. -/
def moments (world : World Path) : List (Files Path) := world.history ++ [world.files]

end World

/-! ## Options and answers -/

/-- `Types::File::AtomicWriteOptions`. -/
structure AtomicWriteOptions where
  createParentDirectories : Bool := true
  replaceMode : ReplaceMode := .replaceExisting
  symlinkPolicy : SymlinkPolicy := .doNotFollow
  flushMode : FlushMode := .data
  flushParentDirectory : Bool := true
  temporaryNamePrefix : List UInt8

/-- One attempt to create the temporary file: the clock and the counter that name it, and what its
calls answer. -/
structure OpenAnswer where
  ticks : Nat := 0
  counter : Nat := 0
  thrown : Option Exception := none
  parentQuery : EntryQueryResult := { kind := .directory }
  status : Status := {}
  /-- Whether a failed open leaves a new file behind. -/
  leftBehind : Bool := false

/-- One write: a failure may have stored some of the bytes. -/
structure WriteAnswer where
  result : WriteResult := {}
  stored : Nat := 0

structure AtomicWriteAnswers where
  /-- What composing the path of the parent throws. -/
  parentThrown : Option Exception := none
  createDirectories : Status := {}
  parentQuery : EntryQueryResult := { kind := .directory }
  destinationQuery : EntryQueryResult := {}
  finalQuery : EntryQueryResult := {}
  opens : Nat → OpenAnswer := fun _ => {}
  writes : List WriteAnswer := []
  flush : Status := {}
  close : Status := {}
  move : Status := {}
  remove : Status := {}
  flushDirectory : Status := {}

/-! ## Temporary names -/

def hasPathSeparator (text : List UInt8) : Bool :=
  text.contains 0x2F || text.contains 0x5C || text.contains 0

def validateAtomicTemporaryPrefix (namePrefix : List UInt8) : Status :=
  if !validUtf8 namePrefix then makeStatus .encodingFailed
  else if namePrefix.isEmpty || namePrefix == [0x2E] || namePrefix == [0x2E, 0x2E] ||
      hasPathSeparator namePrefix then makeStatus .invalidArgument
  else successStatus

/-- `std::to_string`. -/
def decimal (value : Nat) : List UInt8 := (Nat.toDigits 10 value).map fun digit => digit.toUInt8

variable (paths : PathOperations Path)

/-- `answer` holds the clock and the value of the counter. -/
def uniqueAtomicTemporaryPath (parent : Path) (namePrefix : List UInt8) (attempt : Nat)
    (answer : OpenAnswer) : Path :=
  paths.append parent (namePrefix ++ decimal answer.ticks ++ [0x5F] ++ decimal answer.counter ++
    [0x5F] ++ decimal attempt ++ ".tmp".toUTF8.toList)

/-! ## The platform -/

/-- `openWriter` in the mode `CreateNew`. -/
def openNew (path : Path) (answer : OpenAnswer) (world : World Path) : Status × World Path :=
  if (world.files path).isSome then
    (if answer.status.ok then makeStatus .alreadyExists else answer.status, world)
  else if answer.status.ok || answer.leftBehind then (answer.status, world.put path (some []))
  else (answer.status, world)

/-- `FileWriter::write` on the file that was created: the bytes stored go to its end. -/
def fileWriter (path : Path) : Writer (World Path × List WriteAnswer) where
  write state bytes :=
    let answer := state.2.headD {}
    let stored := if answer.result.status.ok then answer.result.bytesWritten else answer.stored
    (answer.result,
      state.1.put path (some ((state.1.files path).getD [] ++ bytes.take stored)),
      state.2.tail)

def movePath (source target : Path) (replaceMode : ReplaceMode) (answer : Status)
    (world : World Path) : Status × World Path :=
  if !answer.ok then (answer, world)
  else if replaceMode == .failIfExists && (world.files target).isSome then
    (makeStatus .alreadyExists, world)
  else (answer, world.rename source target)

/-- The caller drops the status. -/
def removeFile (path : Path) (answer : Status) (world : World Path) : World Path :=
  if paths.empty path then world
  else if answer.ok then world.put path none
  else world

/-! ## The write -/

/-- `FileWriter::open` for the temporary file. -/
def openTemporary (path : Path) (symlinkPolicy : SymlinkPolicy) (answer : OpenAnswer)
    (world : World Path) : Status × World Path :=
  if !isValidSymlinkPolicy symlinkPolicy then (makeStatus .invalidArgument, world)
  else
    let parentStatus := validateParentDirectory paths path symlinkPolicy answer.parentQuery
    if !parentStatus.ok then (parentStatus, world)
    else openNew path answer world

/-- The attempts from the given one on, while the last ended with `openStatus`; on success, the
path of the temporary file. An exception ends the attempts with its status. -/
def createTemporary (parent : Path) (options : AtomicWriteOptions) (opens : Nat → OpenAnswer) :
    (remaining attempt : Nat) → (openStatus : Status) → World Path → Except Status Path × World Path
  | 0, _, openStatus, world => (.error openStatus, world)
  | remaining + 1, attempt, _, world =>
    let answer := opens attempt
    match answer.thrown with
    | some thrown => (.error thrown.status, world)
    | none =>
      let temporaryPath :=
        uniqueAtomicTemporaryPath paths parent options.temporaryNamePrefix attempt answer
      let (openStatus, world) := openTemporary paths temporaryPath options.symlinkPolicy answer world
      if openStatus.ok then (.ok temporaryPath, world)
      else if openStatus.code == .alreadyExists then
        createTemporary parent options opens remaining (attempt + 1) openStatus world
      else (.error openStatus, world)

/-- The parent of the destination; a bare name is in the current directory. -/
def parentOf (path : Path) : Path :=
  if paths.empty (paths.parentPath path) then paths.dot else paths.parentPath path

/-- The checks in front of the temporary file; success is the go-ahead. -/
def checkDestination (path : Path) (options : AtomicWriteOptions) (answers : AtomicWriteAnswers) :
    Status :=
  if paths.empty path || !isValidReplaceMode options.replaceMode ||
      !isValidSymlinkPolicy options.symlinkPolicy || !isValidFlushMode options.flushMode then
    makeStatus .invalidArgument
  else
    let prefixStatus := validateAtomicTemporaryPrefix options.temporaryNamePrefix
    if !prefixStatus.ok then prefixStatus
    else
      match answers.parentThrown with
      | some thrown => thrown.status
      | none =>
        let parentStatus :=
          if options.createParentDirectories then answers.createDirectories
          else validateDirectoryExists paths (parentOf paths path) options.symlinkPolicy
            answers.parentQuery
        if !parentStatus.ok then parentStatus
        else
          let destination := queryEntry paths path options.symlinkPolicy answers.destinationQuery
          if destination.status.ok && options.replaceMode == .failIfExists then
            makeStatus .alreadyExists
          else if !destination.status.ok && destination.status.code != .notFound then
            destination.status
          else if destination.status.ok && options.symlinkPolicy != .doNotFollow &&
              finalEntryIsSymlink paths path answers.finalQuery then makeStatus .unsupported
          else successStatus

def writeAllBytesAtomic (path : Path) (bytes : List UInt8) (options : AtomicWriteOptions)
    (answers : AtomicWriteAnswers) (world : World Path) : Status × World Path :=
  let checked := checkDestination paths path options answers
  if !checked.ok then (checked, world)
  else
    match createTemporary paths (parentOf paths path) options answers.opens 64 0
        (makeStatus .alreadyExists) world with
    | (.error openStatus, world) => (openStatus, world)
    | (.ok temporaryPath, world) =>
      let (writeResult, world, _) :=
        Io.writeAllBytes (fileWriter temporaryPath) (world, answers.writes) bytes
      -- up to the move every failure only tries to remove the temporary file
      let discard (status : Status) : Status × World Path :=
        (status, removeFile paths temporaryPath answers.remove world)
      if !writeResult.status.ok then discard writeResult.status
      else if !answers.flush.ok then discard answers.flush
      else if !answers.close.ok then discard answers.close
      else
        match movePath temporaryPath path options.replaceMode answers.move world with
        | (commitStatus, world) =>
          if !commitStatus.ok then
            (commitStatus, removeFile paths temporaryPath answers.remove world)
          else if options.flushParentDirectory && !answers.flushDirectory.ok then
            (answers.flushDirectory, world)
          else (successStatus, world)

end

end FileSystem

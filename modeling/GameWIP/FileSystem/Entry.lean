import GameWIP.Io.Status
import GameWIP.Unicode.Encoding

/-!
# Entries and their queries

The vocabulary shared by the file-system operations (`filesystem/entry.h`) and the checks of
`filesystem/core/filesystem.cpp` that come before them. A path is a value of `std::filesystem`; what
the code asks of one is `PathOperations`. A query of the platform is an answer.
-/

namespace FileSystem

open Io (Status ErrorCode makeStatus successStatus)

/-- The operations of `std::filesystem::path` that the code calls. -/
structure PathOperations (Path : Type) where
  empty : Path → Bool
  parentPath : Path → Path
  /-- The path of the text ".". -/
  dot : Path
  /-- `path / name`, for a name in UTF-8. -/
  append : Path → List UInt8 → Path

/-- Paths as lists of their components. -/
def componentPaths : PathOperations (List (List UInt8)) where
  empty := List.isEmpty
  parentPath := List.dropLast
  dot := [[0x2E]]
  append path name := path ++ [name]

inductive EntryKind where
  | regularFile
  | directory
  | symlink
  | other
  deriving DecidableEq, Repr

/-- `Types::ReplaceMode`; `other` is a value that is no enumerator. -/
inductive ReplaceMode where
  | failIfExists
  | replaceExisting
  | other (value : Int)
  deriving DecidableEq, Repr

def isValidReplaceMode : ReplaceMode → Bool
  | .failIfExists | .replaceExisting => true
  | .other _ => false

/-- `Types::SymlinkPolicy`; `other` is a value that is no enumerator. -/
inductive SymlinkPolicy where
  | doNotFollow
  | followFinal
  | followAll
  | other (value : Int)
  deriving DecidableEq, Repr

def isValidSymlinkPolicy : SymlinkPolicy → Bool
  | .doNotFollow | .followFinal | .followAll => true
  | .other _ => false

/-- `Detail::Platform::EntryQueryResult`, with the part of the metadata that is read here. -/
structure EntryQueryResult where
  status : Status := {}
  kind : EntryKind := .regularFile
  deriving DecidableEq, Repr

/-- What a call can throw. -/
inductive Exception where
  | badAlloc
  | other
  deriving DecidableEq, Repr

/-- The status that the `catch` clauses of a public function return. -/
def Exception.status : Exception → Status
  | badAlloc => makeStatus .outOfMemory
  | other => makeStatus .unknown

@[simp] theorem Exception.status_ok (thrown : Exception) : thrown.status.ok = false := by
  cases thrown <;> rfl

def validUtf8 (text : List UInt8) : Bool := (Unicode.Utf8.validate text).outcome == .valid

section
variable {Path : Type} (paths : PathOperations Path)

/-- `answer` is what the platform answers. -/
def queryEntry (path : Path) (symlinkPolicy : SymlinkPolicy) (answer : EntryQueryResult) :
    EntryQueryResult :=
  if paths.empty path then { status := makeStatus .invalidArgument }
  else
    match symlinkPolicy with
    | .doNotFollow | .followFinal | .followAll => answer
    | .other _ => { status := makeStatus .invalidArgument }

def validateDirectoryExists (path : Path) (symlinkPolicy : SymlinkPolicy)
    (answer : EntryQueryResult) : Status :=
  let result := queryEntry paths path symlinkPolicy answer
  if !result.status.ok then result.status
  else if result.kind != .directory then makeStatus .notDirectory
  else successStatus

/-- `validateParentDirectory` without the creation of missing parents. -/
def validateParentDirectory (path : Path) (symlinkPolicy : SymlinkPolicy)
    (answer : EntryQueryResult) : Status :=
  if paths.empty (paths.parentPath path) then successStatus
  else validateDirectoryExists paths (paths.parentPath path) symlinkPolicy answer

def finalEntryIsSymlink (path : Path) (answer : EntryQueryResult) : Bool :=
  let result := queryEntry paths path .doNotFollow answer
  result.status.ok && result.kind == .symlink

end

end FileSystem

import GameWIP.FileSystem.Entry

/-!
# Tree removal

`removeDirectoryTree` (`filesystem/core/filesystem_directories.inl`): a post-order traversal with an
explicit stack, which lists a directory and deletes what it finds at once.

A directory is the list of its entries, in the order in which a cursor delivers them; a symlink is
an entry like a file. Paths are relative to the root of the removal. The answers say which calls of
the platform fail and which allocation throws, pass by pass of the loop. The loop gets fuel.
-/

namespace FileSystem

open Io (Status makeStatus successStatus)

/-! ## Directories -/

/-- The entries of a directory. -/
inductive Entries (Name : Type) where
  | nil
  | file (name : Name) (kind : EntryKind) (leaf : kind ≠ .directory) (rest : Entries Name)
  | directory (name : Name) (children rest : Entries Name)

namespace Entries

variable {Name : Type}

def names : Entries Name → List Name
  | nil => []
  | file name _ _ rest => name :: rest.names
  | directory name _ rest => name :: rest.names

/-- No directory has two entries of one name. -/
def Distinct : Entries Name → Prop
  | nil => True
  | file name _ _ rest => name ∉ rest.names ∧ rest.Distinct
  | directory name children rest => name ∉ rest.names ∧ children.Distinct ∧ rest.Distinct

/-- The number of entries below a directory. -/
def count : Entries Name → Nat
  | nil => 0
  | file _ _ _ rest => rest.count + 1
  | directory _ children rest => children.count + rest.count + 1

/-- The entries of the directory at a path, reached through directories only. -/
def openAt [DecidableEq Name] : Entries Name → List Name → Option (Entries Name)
  | entries, [] => some entries
  | nil, _ :: _ => none
  | file name _ _ rest, next :: path =>
    if name = next then none else rest.openAt (next :: path)
  | directory name children rest, next :: path =>
    if name = next then children.openAt path else rest.openAt (next :: path)

end Entries

/-- A directory with everything below it. -/
structure DirectoryTree (Name : Type) where
  entries : Entries Name
  distinct : entries.Distinct

/-- The number of entries of the tree; the root is one. -/
def DirectoryTree.count {Name : Type} (tree : DirectoryTree Name) : Nat := tree.entries.count + 1

/-! ## Options, answers and results -/

/-- `Types::Directory::RemoveTreeOptions`. -/
structure RemoveTreeOptions where
  succeedIfMissing : Bool := false
  symlinkPolicy : SymlinkPolicy := .doNotFollow
  maxEntries : Nat := 2 ^ 64 - 1

/-- `Types::Directory::RemoveTreeResult`. -/
structure RemoveTreeResult where
  status : Status := {}
  removedEntries : Nat := 0
  deriving DecidableEq, Repr

def removeTreeFailure (status : Status) (removedEntries : Nat := 0) : RemoveTreeResult :=
  { status, removedEntries }

/-- What the calls of one pass of the loop answer. -/
structure PassAnswer where
  opened : Status := {}
  read : Status := {}
  /-- What growing the stack throws. -/
  thrown : Option Exception := none
  remove : Status := {}

/-- The target is there, so that its query may fail but does not miss it. -/
structure RemoveTreeAnswers where
  query : Status := {}
  query_found : query.code ≠ .notFound := by decide
  finalQuery : EntryQueryResult := { kind := .directory }
  rootThrown : Option Exception := none
  passes : Nat → PassAnswer := fun _ => {}

/-! ## The traversal -/

section
variable {Name : Type} [DecidableEq Name]

/-- A frame; the cursor of a directory holds the entries not yet delivered. -/
structure RemovalFrame (Name : Type) where
  path : List Name
  kind : EntryKind
  cursor : Option (Entries Name) := none

/-- The stack, the entry on top first, with the count and what was done: the entries removed and
the directories opened, in order. -/
structure Removal (Name : Type) where
  pending : List (RemovalFrame Name)
  removedEntries : Nat := 0
  removed : List (List Name) := []
  opened : List (List Name) := []

/-- What one pass of the loop comes to; a null cursor has no meaning. -/
inductive Pass (Name : Type) where
  | next (state : Removal Name)
  | finished (result : RemoveTreeResult) (state : Removal Name)
  | nullCursor

/-- The removal of the entry on top. -/
def removeCurrent (current : RemovalFrame Name) (below : List (RemovalFrame Name))
    (answer : PassAnswer) (state : Removal Name) : Pass Name :=
  if !answer.remove.ok then
    .finished (removeTreeFailure answer.remove state.removedEntries) state
  else
    .next { state with
      pending := below
      removedEntries := state.removedEntries + 1
      removed := state.removed ++ [current.path] }

/-- A child is pushed over the directory it was found in. An exception reaches the `catch` clauses,
which report no removed entries. -/
def pushChild (path : List Name) (kind : EntryKind) (current : RemovalFrame Name)
    (below : List (RemovalFrame Name)) (answer : PassAnswer) (state : Removal Name) : Pass Name :=
  match answer.thrown with
  | some thrown => .finished (removeTreeFailure thrown.status) state
  | none => .next { state with pending := { path, kind } :: current :: below }

/-- The next child of the directory on top; after the last one, the directory itself. -/
def readCurrent (current : RemovalFrame Name) (cursor : Entries Name)
    (below : List (RemovalFrame Name)) (answer : PassAnswer) (state : Removal Name) : Pass Name :=
  if !answer.read.ok then .finished (removeTreeFailure answer.read state.removedEntries) state
  else
    match cursor with
    | .nil => removeCurrent { current with cursor := none } below answer state
    | .file name kind _ rest =>
      pushChild (current.path ++ [name]) kind { current with cursor := some rest } below answer
        state
    | .directory name _ rest =>
      pushChild (current.path ++ [name]) .directory { current with cursor := some rest } below
        answer state

/-- One pass of the loop. -/
def removePass (tree : DirectoryTree Name) (maxEntries : Nat) (answer : PassAnswer)
    (current : RemovalFrame Name) (below : List (RemovalFrame Name)) (state : Removal Name) :
    Pass Name :=
  if state.removedEntries ≥ maxEntries then
    .finished (removeTreeFailure (makeStatus .sizeLimitExceeded) state.removedEntries) state
  else if current.kind == .directory then
    match current.cursor with
    | some cursor => readCurrent current cursor below answer state
    | none =>
      -- above the root, the open is relative to the cursor of the parent
      if below.head?.any fun parent => parent.cursor.isNone then .nullCursor
      else if !answer.opened.ok then
        .finished (removeTreeFailure answer.opened state.removedEntries) state
      else
        match tree.entries.openAt current.path with
        | none =>
          .finished (removeTreeFailure (makeStatus .notDirectory) state.removedEntries) state
        | some cursor =>
          readCurrent current cursor below answer
            { state with opened := state.opened ++ [current.path] }
  else removeCurrent current below answer state

/-- The loop, from the given pass on; no result when the fuel or a cursor is missing. -/
def removeLoop (tree : DirectoryTree Name) (maxEntries : Nat) (passes : Nat → PassAnswer) :
    (fuel pass : Nat) → Removal Name → Option (RemoveTreeResult × Removal Name)
  | fuel, pass, state =>
    match state.pending with
    | [] => some ({ status := successStatus, removedEntries := state.removedEntries }, state)
    | current :: below =>
      match fuel with
      | 0 => none
      | fuel + 1 =>
        match removePass tree maxEntries (passes pass) current below state with
        | .next state => removeLoop tree maxEntries passes fuel (pass + 1) state
        | .finished result state => some (result, state)
        | .nullCursor => none

/-- The checks in front of the traversal, with the result of a call that ends there. -/
def checkTree {Path : Type} (paths : PathOperations Path) (path : Path)
    (options : RemoveTreeOptions) (answers : RemoveTreeAnswers) : Option RemoveTreeResult :=
  if paths.empty path || !isValidSymlinkPolicy options.symlinkPolicy then
    some (removeTreeFailure (makeStatus .invalidArgument))
  else
    let existing := queryEntry paths path options.symlinkPolicy
      { status := answers.query, kind := .directory }
    if !existing.status.ok then
      if existing.status.code == .notFound && options.succeedIfMissing then some {}
      else some (removeTreeFailure existing.status)
    else if existing.kind != .directory then some (removeTreeFailure (makeStatus .notDirectory))
    else if options.symlinkPolicy != .doNotFollow &&
        finalEntryIsSymlink paths path answers.finalQuery then
      some (removeTreeFailure (makeStatus .unsupported))
    else if options.maxEntries == 0 then
      some (removeTreeFailure (makeStatus .sizeLimitExceeded))
    else answers.rootThrown.map fun thrown => removeTreeFailure thrown.status

def removeDirectoryTree {Path : Type} (paths : PathOperations Path) (path : Path)
    (tree : DirectoryTree Name) (options : RemoveTreeOptions) (answers : RemoveTreeAnswers)
    (fuel : Nat) : Option (RemoveTreeResult × Removal Name) :=
  match checkTree paths path options answers with
  | some result => some (result, { pending := [] })
  | none =>
    removeLoop tree options.maxEntries answers.passes fuel 0
      { pending := [{ path := [], kind := .directory }] }

end

end FileSystem

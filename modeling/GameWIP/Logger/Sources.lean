import GameWIP.Io.Status
import GameWIP.Lib.SortedTable
import GameWIP.Unicode.Encoding

/-!
# The source registry of the logger

Registration and lookup of log sources (`tools/logger/core/logger_filters.cpp`). The registry
keeps its sources sorted by id; where the ids are dense a direct table gives the position of a
source by the distance of its id from the smallest one, and everything else is found by a halving
search.

An allocation does not fail here.
-/

namespace Logger

open Io (Status makeStatus)
open Lib (adjacentFind isMatching search sortBy)

/-- Associates a source id with its display name during initialization. -/
structure SourceDefinition where
  id : UInt32 := 0
  name : List UInt8 := []
  deriving DecidableEq, Repr

/-- Initial enabled state for one registered source. -/
structure SourceFilter where
  source : UInt32 := 0
  enabled : Bool := true
  deriving DecidableEq, Repr

structure RegisteredSource where
  id : UInt32 := 0
  name : List UInt8 := []
  enabled : Bool := true
  deriving DecidableEq, Repr

structure SourceRegistry where
  sources : List RegisteredSource := []
  directSourceLookup : List Nat := []
  directSourceBase : UInt32 := 0
  deriving DecidableEq, Repr

def kInvalidSourceIndex : Nat := 2 ^ 64 - 1

/-- The comparison of two ids. -/
def idLess (left right : UInt32) : Bool := decide (left < right)

/-! ## Lookup -/

/-- The entry of the direct table for an id, when it has one that is in use. -/
def directIndex (registry : SourceRegistry) (source : UInt32) : Option Nat :=
  if !registry.directSourceLookup.isEmpty && decide (source ≥ registry.directSourceBase) then
    let offset := source - registry.directSourceBase
    if offset.toNat < registry.directSourceLookup.length then
      let index := registry.directSourceLookup.getD offset.toNat kInvalidSourceIndex
      if index ≠ kInvalidSourceIndex then some index else none
    else none
  else none

/-- The search of the sorted sources. -/
def searchSource (sources : List RegisteredSource) (source : UInt32) : Option RegisteredSource :=
  let position := search idLess (·.id) sources source
  if isMatching (·.id) sources position source then sources[position]? else none

/-- The source an id is registered for. -/
def findSource (registry : SourceRegistry) (source : UInt32) : Option RegisteredSource :=
  match directIndex registry source with
  | some index => registry.sources[index]?
  | none => searchSource registry.sources source

/-- The loop that enters the sources into the direct table, from a position on. -/
def fillLookup (minSource : UInt32) : List RegisteredSource → Nat → List Nat → List Nat
  | [], _, lookup => lookup
  | source :: rest, index, lookup =>
    fillLookup minSource rest (index + 1) (lookup.set (source.id - minSource).toNat index)

/-- Rebuilds the direct table when the ids are dense enough. -/
def rebuildSourceLookup (registry : SourceRegistry) : SourceRegistry :=
  match registry.sources.head?, registry.sources.getLast? with
  | some front, some back =>
    let span := back.id.toUInt64 - front.id.toUInt64 + 1
    let densityLimit := max 64 (UInt64.ofNat registry.sources.length * 4)
    if span > densityLimit || span > 4096 then
      { registry with directSourceLookup := [], directSourceBase := 0 }
    else
      { registry with
        directSourceLookup :=
          fillLookup front.id registry.sources 0 (List.replicate span.toNat kInvalidSourceIndex)
        directSourceBase := front.id }
  | _, _ => { registry with directSourceLookup := [], directSourceBase := 0 }

/-! ## Preparation -/

/-- The check of one definition. -/
def definitionStatus (definition : SourceDefinition) : Option Status :=
  if definition.name.isEmpty then some (makeStatus .invalidArgument)
  else if (Unicode.Utf8.validate definition.name).outcome ≠ .valid then
    some (makeStatus .encodingFailed)
  else none

/-- The loop that copies the definitions. -/
def copyDefinitions : List SourceDefinition → Except Status (List RegisteredSource)
  | [] => .ok []
  | definition :: rest =>
    match definitionStatus definition with
    | some status => .error status
    | none =>
      (copyDefinitions rest).map
        ({ id := definition.id, name := definition.name, enabled := true } :: ·)

/-- The loop that applies the filters to the sorted sources. -/
def applyFilters : List SourceFilter → List RegisteredSource →
    Except Status (List RegisteredSource)
  | [], sources => .ok sources
  | filter :: rest, sources =>
    let position := search idLess (·.id) sources filter.source
    if isMatching (·.id) sources position filter.source then
      applyFilters rest (sources.modify position fun s => { s with enabled := filter.enabled })
    else .error (makeStatus .invalidArgument)

/-- The sorted and filtered sources, with the checks in the order they are made. -/
def preparedSources (definitions : List SourceDefinition) (filters : List SourceFilter) :
    Except Status (List RegisteredSource) :=
  match copyDefinitions definitions with
  | .error status => .error status
  | .ok copied =>
    let sources := sortBy idLess (·.id) copied
    if adjacentFind (fun left right => decide (left.id = right.id)) sources ≠ [] then
      .error (makeStatus .invalidArgument)
    else
      match applyFilters filters sources with
      | .error status => .error status
      | .ok sources =>
        let filteredSources := sortBy idLess id (filters.map (·.source))
        if adjacentFind (fun left right => decide (left = right)) filteredSources ≠ [] then
          .error (makeStatus .invalidArgument)
        else .ok sources

/-- The answer of `prepareSources` and its two outputs. -/
structure PreparedSources where
  ok : Bool
  registry : Option SourceRegistry
  outStatus : Status
  deriving DecidableEq, Repr

/-- Copies, validates, sorts and initially filters source definitions. -/
def prepareSources (definitions : List SourceDefinition) (filters : List SourceFilter) :
    PreparedSources :=
  if definitions.isEmpty && filters.isEmpty then
    { ok := true, registry := none, outStatus := {} }
  else
    match preparedSources definitions filters with
    | .ok sources =>
      { ok := true, registry := some (rebuildSourceLookup { sources }), outStatus := {} }
    | .error status => { ok := false, registry := none, outStatus := status }

end Logger

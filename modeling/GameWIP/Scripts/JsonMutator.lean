import Mathlib.Data.List.Sort
import GameWIP.Scripts.JsonSource

/-!
# The mutator of the project-tool registry

`mutateProjectToolsSource` of `scripts/lib/project-tools-json-mutator.js`, behind the parser. The
specification is a value of `JSON.parse`: an object does not repeat a name, and its entries stand in
the order of `Object.entries`. `===` of two numbers is the equality of the type of numbers.
-/

namespace Scripts

open Lib (Json)
open Lib.Json

/-- Why a source is not mutated. -/
inductive MutationFailure where
  | specification
  | malformed (failure : Malformed)
  | undeclared (index : Nat)
  | notStrings (index : Nat)
  | notObject (index : Nat)
  | noProperty (index : Nat) (name : Text)
  | toolsNotArray
  | tools (index count : Nat) (toolId : Text)
  | unsupportedSegment (index : Nat)
  | selectorNotArray (index : Nat)
  | selected (index count : Nat)
  | matchNotScalar
  | targetNotString (index : Nat)
  | unexpected (index : Nat) (expected found : Text)
  | duplicateRange (start stop : Nat)
  deriving DecidableEq, Repr

def decimal (n : Nat) : Text := ofString (toString n)

/-- `Mutation ${index}`. -/
def context (index : Nat) : Text := ofString "Mutation " ++ decimal index

def Malformed.message (jsonParse : Text) (failure : Malformed) : Text :=
  ofString "Malformed JSON at offset " ++ decimal failure.offset ++ ofString ": " ++
    failure.reason.message jsonParse ++ ofString "."

/-- The message of a failure. `jsonParse` is that of `JSON.parse` for a rejected string. -/
def MutationFailure.message (jsonParse : Text) : MutationFailure → Text
  | .specification =>
    ofString "Mutation specification must use schemaVersion 1 and declare a mutations array."
  | .malformed failure => failure.message jsonParse
  | .undeclared index => context index ++ ofString " must declare toolId and path."
  | .notStrings index => context index ++ ofString " supports only string expected/value fields."
  | .notObject index => context index ++ ofString " requires an object."
  | .noProperty index name =>
    context index ++ ofString " could not find property " ++ stringify name ++ ofString "."
  | .toolsNotArray => ofString "Top-level tools must be an array."
  | .tools index count toolId =>
    context index ++ ofString " found " ++ decimal count ++ ofString " tools with id " ++
      stringify toolId ++ ofString "; expected exactly one."
  | .unsupportedSegment index => context index ++ ofString " has an unsupported path segment."
  | .selectorNotArray index => context index ++ ofString " selector requires an array."
  | .selected index count =>
    context index ++ ofString " selector matched " ++ decimal count ++
      ofString " items; expected exactly one."
  | .matchNotScalar => ofString "Array selector match fields must be scalar values."
  | .targetNotString index => context index ++ ofString " target must be a JSON string."
  | .unexpected index expected found =>
    context index ++ ofString " expected " ++ stringify expected ++ ofString " but found " ++
      stringify found ++ ofString "."
  | .duplicateRange start stop =>
    ofString "Duplicate mutations target source range " ++ decimal start ++ ofString ":" ++
      decimal stop ++ ofString "."

variable {ν : Type}

/-! ## Paths -/

/-- `properties.get(name)`. -/
def getProperty (properties : List (StringNode × Node ν)) (name : Text) : Option (Node ν) :=
  (properties.find? fun property => property.1.value == name).map Prod.snd

def scalarValue : Node ν → Except MutationFailure (Json ν)
  | .string node => .ok (.string node.value)
  | .number value _ _ => .ok (.number value)
  | .boolean value _ _ => .ok (.boolean value)
  | .null _ _ => .ok .null
  | .object _ _ _ | .array _ _ _ => .error .matchNotScalar

def objectProperty (node : Node ν) (name : Text) (index : Nat) : Except MutationFailure (Node ν) :=
  match node with
  | .object properties _ _ =>
    match getProperty properties name with
    | some value => .ok value
    | none => .error (.noProperty index name)
  | _ => .error (.notObject index)

/-- A member of an object of the specification. -/
def field (fields : List (Text × Json ν)) (name : String) : Option (Json ν) :=
  fields.lookup (ofString name)

section
variable [BEq ν]

/-- `===`, with a scalar on its left side. -/
def strictEqual : Json ν → Json ν → Bool
  | .string a, .string b => a == b
  | .number a, .number b => a == b
  | .boolean a, .boolean b => a == b
  | .null, .null => true
  | _, _ => false

/-- The candidate has all the entries of a selector. -/
def matchesEntries (properties : List (StringNode × Node ν)) :
    List (Text × Json ν) → Except MutationFailure Bool
  | [] => .ok true
  | (key, expected) :: entries =>
    match getProperty properties key with
    | none => .ok false
    | some value =>
      match scalarValue value with
      | .error failure => .error failure
      | .ok scalar =>
        if strictEqual scalar expected then matchesEntries properties entries else .ok false

def selects (entries : List (Text × Json ν)) : Node ν → Except MutationFailure Bool
  | .object properties _ _ => matchesEntries properties entries
  | _ => .ok false

def selectItems (entries : List (Text × Json ν)) : List (Node ν) → Except MutationFailure (List (Node ν))
  | [] => .ok []
  | candidate :: items => do
    let keep ← selects entries candidate
    let rest ← selectItems entries items
    return if keep then candidate :: rest else rest

/-- One turn of the loop of `resolvePath`. -/
def resolveSegment (current : Node ν) (segment : Json ν) (index : Nat) :
    Except MutationFailure (Node ν) :=
  match segment with
  | .string name => objectProperty current name index
  | .object fields =>
    match field fields "match" with
    | some (.object entries) =>
      match current with
      | .array items _ _ => do
        match ← selectItems entries items with
        | [item] => return item
        | selection => throw (.selected index selection.length)
      | _ => .error (.selectorNotArray index)
    | _ => .error (.unsupportedSegment index)
  | _ => .error (.unsupportedSegment index)

def resolvePath (index : Nat) : Node ν → List (Json ν) → Except MutationFailure (Node ν)
  | current, [] => .ok current
  | current, segment :: path => do
    let next ← resolveSegment current segment index
    resolvePath index next path

end

/-! ## Mutations -/

structure Mutation (ν : Type) where
  toolId : Text
  path : List (Json ν)
  expected : Text
  value : Text

structure Located (ν : Type) where
  target : StringNode
  mutation : Mutation ν
  index : Nat

/-- The checks of `locateMutation` on the mutation itself. -/
def declaredMutation (index : Nat) : Json ν → Except MutationFailure (Mutation ν)
  | .object fields =>
    match field fields "toolId", field fields "path" with
    | some (.string toolId), some (.array path) =>
      match field fields "expected", field fields "value" with
      | some (.string expected), some (.string value) => .ok ⟨toolId, path, expected, value⟩
      | _, _ => .error (.notStrings index)
    | _, _ => .error (.undeclared index)
  | _ => .error (.undeclared index)

def hasId (toolId : Text) : Node ν → Bool
  | .object properties _ _ =>
    match getProperty properties (ofString "id") with
    | some (.string id) => id.value == toolId
    | _ => false
  | _ => false

section
variable [BEq ν]

/-- `locateMutation` of a mutation that is declared as it should be. -/
def locate (root : Node ν) (mutation : Mutation ν) (index : Nat) :
    Except MutationFailure (Located ν) := do
  match ← objectProperty root (ofString "tools") index with
  | .array items _ _ =>
    match items.filter (hasId mutation.toolId) with
    | [tool] =>
      match ← resolvePath index tool mutation.path with
      | .string target =>
        if target.value = mutation.expected then return ⟨target, mutation, index⟩
        else throw (.unexpected index mutation.expected target.value)
      | _ => throw (.targetNotString index)
    | toolMatches => throw (.tools index toolMatches.length mutation.toolId)
  | _ => throw .toolsNotArray

def locateMutation (root : Node ν) (mutation : Json ν) (index : Nat) :
    Except MutationFailure (Located ν) := do
  let declared ← declaredMutation index mutation
  locate root declared index

/-- All mutations, from an index on. -/
def locateAll (root : Node ν) : Nat → List (Json ν) → Except MutationFailure (List (Located ν))
  | _, [] => .ok []
  | index, mutation :: mutations => do
    let entry ← locateMutation root mutation index
    let rest ← locateAll root (index + 1) mutations
    return entry :: rest

/-- The loop over the ranges, with those seen so far. -/
def checkRanges : List (Nat × Nat) → List (Located ν) → Except MutationFailure Unit
  | _, [] => .ok ()
  | ranges, entry :: located =>
    let range := (entry.target.start, entry.target.stop)
    if range ∈ ranges then .error (.duplicateRange range.1 range.2)
    else checkRanges (range :: ranges) located

/-- The last target first. -/
def ordered (located : List (Located ν)) : List (Located ν) :=
  located.insertionSort fun left right => right.target.start ≤ left.target.start

def splice (output : Text) (entry : Located ν) : Text :=
  output.take entry.target.start ++ stringify entry.mutation.value ++ output.drop entry.target.stop

/-- Every target of the output holds its new value. -/
def verifyAll (root : Node ν) : List (Located ν) → Except MutationFailure Unit
  | [] => .ok ()
  | entry :: located => do
    let _ ← locate root { entry.mutation with expected := entry.mutation.value } entry.index
    verifyAll root located

variable (number : Text → ν)

/-- The mutations of a specification. -/
def specifiedMutations : Json ν → Except MutationFailure (List (Json ν))
  | .object fields =>
    match field fields "schemaVersion", field fields "mutations" with
    | some (.number version), some (.array mutations) =>
      if version == number [0x31] then .ok mutations else .error .specification
    | _, _ => .error .specification
  | _ => .error .specification

def mutateProjectToolsSource (source : Text) (specification : Json ν) : Except MutationFailure Text := do
  let mutations ← specifiedMutations number specification
  let root ← (parseJsonSource number source).mapError .malformed
  let located ← locateAll root 0 mutations
  checkRanges [] located
  let output := (ordered located).foldl splice source
  let verifiedRoot ← (parseJsonSource number output).mapError .malformed
  verifyAll verifiedRoot located
  return output

end

end Scripts

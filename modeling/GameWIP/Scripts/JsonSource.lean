import GameWIP.Lib.Json

/-!
# The source-preserving JSON parser

`JsonSourceParser` of `scripts/lib/project-tools-json-mutator.js`. Every node keeps the offsets of
its token or bracketed text. A cursor is `this.offset` with the source from there on.

`Number` of a number token is a parameter. The recursion is bounded by `fuel`; it never runs out
(`parseJsonSource_ne_outOfFuel`).
-/

namespace Scripts

open Lib (Json)
open Lib.Json

/-- A string node. -/
structure StringNode where
  value : Text
  start : Nat
  stop : Nat
  deriving DecidableEq, Repr

/-- A node of the tree. `ν` is the type of numbers. -/
inductive Node (ν : Type*) where
  | string (node : StringNode)
  | number (value : ν) (start stop : Nat)
  | boolean (value : Bool) (start stop : Nat)
  | null (start stop : Nat)
  | object (properties : List (StringNode × Node ν)) (start stop : Nat)
  | array (items : List (Node ν)) (start stop : Nat)

/-! ## Failures -/

/-- Why a source is no JSON. -/
inductive Reason where
  | trailingContent
  | unterminatedEscape
  | controlCharacter
  | unterminatedString
  /-- `JSON.parse` rejects the token. -/
  | rejectedString
  | keyNotString
  | duplicateKey (key : Text)
  | expectedColon
  | expectedObjectSeparator
  | expectedArraySeparator
  | invalidLiteral
  | expectedValue
  | outOfFuel
  deriving DecidableEq, Repr

def ofString (s : String) : Text := s.toList.map Char.toNat

/-- The message of a failure. That of a rejected string is the one of `JSON.parse`. -/
def Reason.message (jsonParse : Text) : Reason → Text
  | .trailingContent => ofString "unexpected trailing content"
  | .unterminatedEscape => ofString "unterminated escape sequence"
  | .controlCharacter => ofString "unescaped control character in string"
  | .unterminatedString => ofString "unterminated string"
  | .rejectedString => jsonParse
  | .keyNotString => ofString "object key must be a string"
  | .duplicateKey key => ofString "duplicate object key " ++ stringify key
  | .expectedColon => ofString "expected ':' after object key"
  | .expectedObjectSeparator => ofString "expected ',' or '" ++ [closeBrace] ++ ofString "' in object"
  | .expectedArraySeparator => ofString "expected ',' or ']' in array"
  | .invalidLiteral => ofString "invalid literal"
  | .expectedValue => ofString "expected a JSON value"
  | .outOfFuel => []

structure Malformed where
  offset : Nat
  reason : Reason
  deriving DecidableEq, Repr

/-! ## Cursors -/

structure Cursor where
  offset : Nat
  rest : Text
  deriving DecidableEq, Repr

/-- `this.source[this.offset]`. -/
def Cursor.peek (c : Cursor) : Option Nat := c.rest.head?

def Cursor.advance (c : Cursor) (n : Nat) : Cursor := ⟨c.offset + n, c.rest.drop n⟩

def Cursor.fail {α : Type*} (c : Cursor) (reason : Reason) : Except Malformed α :=
  .error ⟨c.offset, reason⟩

def skipWhitespace (c : Cursor) : Cursor := c.advance (c.rest.takeWhile isWhitespace).length

/-! ## Tokens -/

/-- The loop of `parseString`, up to behind the closing quote. -/
def scanString : Nat → Text → Except Malformed Cursor
  | offset, [] => .error ⟨offset, .unterminatedString⟩
  | offset, c :: rest =>
    if c = quote then .ok ⟨offset + 1, rest⟩
    else if c = backslash then
      match rest with
      | [] => .error ⟨offset + 1, .unterminatedEscape⟩
      | _ :: rest => scanString (offset + 2) rest
    else if c < 0x20 then .error ⟨offset + 1, .controlCharacter⟩
    else scanString (offset + 1) rest

def parseString (c : Cursor) : Except Malformed (StringNode × Cursor) :=
  match scanString (c.offset + 1) c.rest.tail with
  | .error failure => .error failure
  | .ok next =>
    match decode (c.rest.take (next.offset - c.offset)) with
    | some value => .ok (⟨value, c.offset, next.offset⟩, next)
    | none => next.fail .rejectedString

def matchSign : Text → Text
  | c :: _ => if c = minus then [minus] else []
  | [] => []

/-- `0|[1-9][0-9]*`. -/
def matchInt : Text → Option Text
  | c :: rest =>
    if c = 0x30 then some [0x30]
    else if isDigit c then some (c :: rest.takeWhile isDigit)
    else none
  | [] => none

/-- `(?:\.[0-9]+)?`. -/
def matchFrac : Text → Text
  | c :: rest => if c = point ∧ rest.takeWhile isDigit ≠ [] then c :: rest.takeWhile isDigit else []
  | [] => []

/-- `[+-]?`. -/
def matchExpSign : Text → Text
  | c :: _ => if c = plus ∨ c = minus then [c] else []
  | [] => []

/-- `(?:[eE][+-]?[0-9]+)?`. -/
def matchExp : Text → Text
  | c :: rest =>
    let sign := matchExpSign rest
    let digits := (rest.drop sign.length).takeWhile isDigit
    if (c = 0x65 ∨ c = 0x45) ∧ digits ≠ [] then c :: sign ++ digits else []
  | [] => []

/-- The match of the regular expression for numbers. -/
def matchNumber (t : Text) : Option Text :=
  let sign := matchSign t
  let t := t.drop sign.length
  (matchInt t).map fun int =>
    let t := t.drop int.length
    let frac := matchFrac t
    sign ++ int ++ frac ++ matchExp (t.drop frac.length)

section
variable {ν : Type*} (number : Text → ν)

def parseNumber (c : Cursor) : Except Malformed (Node ν × Cursor) :=
  match matchNumber c.rest with
  | none => c.fail .expectedValue
  | some token =>
    .ok (.number (number token) c.offset (c.offset + token.length), c.advance token.length)

def parseLiteral (c : Cursor) (token : Text) (node : Nat → Nat → Node ν) :
    Except Malformed (Node ν × Cursor) :=
  if c.rest.take token.length = token then
    .ok (node c.offset (c.offset + token.length), c.advance token.length)
  else c.fail .invalidLiteral

/-! ## Values -/

mutual

def parseValue : Nat → Cursor → Except Malformed (Node ν × Cursor)
  | 0, c => c.fail .outOfFuel
  | fuel + 1, c =>
    match c.peek with
    | some 0x7B => parseObject fuel c
    | some 0x5B => parseArray fuel c
    | some 0x22 => (parseString c).map fun (node, next) => (.string node, next)
    | some 0x74 => parseLiteral c trueToken (.boolean true)
    | some 0x66 => parseLiteral c falseToken (.boolean false)
    | some 0x6E => parseLiteral c nullToken .null
    | _ => parseNumber number c

def parseObject : Nat → Cursor → Except Malformed (Node ν × Cursor)
  | 0, c => c.fail .outOfFuel
  | fuel + 1, c =>
    let next := skipWhitespace (c.advance 1)
    if next.peek = some closeBrace then
      .ok (.object [] c.offset (next.offset + 1), next.advance 1)
    else
      (parseProperties fuel next []).map fun (properties, last) =>
        (.object properties c.offset last.offset, last)

/-- The loop of `parseObject`, with the properties read so far. -/
def parseProperties : Nat → Cursor → List (StringNode × Node ν) →
    Except Malformed (List (StringNode × Node ν) × Cursor)
  | 0, c, _ => c.fail .outOfFuel
  | fuel + 1, c, properties =>
    if c.peek ≠ some quote then c.fail .keyNotString
    else
      match parseString c with
      | .error failure => .error failure
      | .ok (key, next) =>
        if properties.any fun property => property.1.value == key.value then
          next.fail (.duplicateKey key.value)
        else
          let next := skipWhitespace next
          if next.peek ≠ some colon then (next.advance 1).fail .expectedColon
          else
            match parseValue fuel (skipWhitespace (next.advance 1)) with
            | .error failure => .error failure
            | .ok (value, next) =>
              let properties := properties ++ [(key, value)]
              let next := skipWhitespace next
              let behind := next.advance 1
              if next.peek = some closeBrace then .ok (properties, behind)
              else if next.peek ≠ some comma then behind.fail .expectedObjectSeparator
              else parseProperties fuel (skipWhitespace behind) properties

def parseArray : Nat → Cursor → Except Malformed (Node ν × Cursor)
  | 0, c => c.fail .outOfFuel
  | fuel + 1, c =>
    let next := skipWhitespace (c.advance 1)
    if next.peek = some closeBracket then
      .ok (.array [] c.offset (next.offset + 1), next.advance 1)
    else
      (parseItems fuel next []).map fun (items, last) => (.array items c.offset last.offset, last)

/-- The loop of `parseArray`, with the items read so far. -/
def parseItems : Nat → Cursor → List (Node ν) → Except Malformed (List (Node ν) × Cursor)
  | 0, c, _ => c.fail .outOfFuel
  | fuel + 1, c, items =>
    match parseValue fuel c with
    | .error failure => .error failure
    | .ok (value, next) =>
      let items := items ++ [value]
      let next := skipWhitespace next
      let behind := next.advance 1
      if next.peek = some closeBracket then .ok (items, behind)
      else if next.peek ≠ some comma then behind.fail .expectedArraySeparator
      else parseItems fuel (skipWhitespace behind) items

end

/-- Rounds enough for a source. -/
def fuel (source : Text) : Nat := 3 * source.length + 1

/-- `JsonSourceParser.parse`. -/
def parseJsonSource (source : Text) : Except Malformed (Node ν) :=
  match parseValue number (fuel source) (skipWhitespace ⟨0, source⟩) with
  | .error failure => .error failure
  | .ok (value, next) =>
    let next := skipWhitespace next
    if next.rest = [] then .ok value else next.fail .trailingContent

end

end Scripts

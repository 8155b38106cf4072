import GameWIP.Unicode.Properties

/-!
# The generator of the property trie

`foundation/unicode/tools/generate_unicode_data.py` from the records of the data files to the arrays
of the generated header. A record has its fields stripped and the hexadecimal numbers of its first
field read; the lines of the files and the text of the header are not modelled. A `bytearray` is a
list of bytes.

`GeneratedHeader.unicodeProperties` is the lookup of `internal/unicode_properties.h` in any such
header; `shippedHeader` holds the arrays of the repository.
-/

namespace Unicode

namespace Generator

abbrev Byte := BitVec 8

def maxCodePoint : Nat := 0x10FFFF

def codePointCount : Nat := maxCodePoint + 1

def minBlockShift : Nat := 5

def maxBlockShift : Nat := 9

/-- `GCB_VALUES`. -/
def gcbValues : List (String × Byte) :=
  [("Other", 0), ("CR", 1), ("LF", 2), ("Control", 3), ("Extend", 4), ("ZWJ", 5),
   ("Regional_Indicator", 6), ("Prepend", 7), ("SpacingMark", 8), ("L", 9), ("V", 10), ("T", 11),
   ("LV", 12), ("LVT", 13)]

/-- `INCB_VALUES`. -/
def incbValues : List (String × Byte) :=
  [("None", 0), ("Consonant", 1), ("Extend", 2), ("Linker", 3)]

def gcbMask : Byte := 0x0F

def incbMask : Byte := 0x30

def extendedPictographicMask : Byte := 0x40

/-! ## Records -/

/-- `first..last; property; more`. -/
structure Record where
  first : Nat
  last : Nat
  property : String
  more : List String := []
  deriving DecidableEq, Repr

/-- The `ValueError`s. -/
inductive ValueError where
  | invalidRange (first last : Nat)
  | unsupportedGraphemeBreak (property : String)
  | missingConjunctBreak
  | unsupportedConjunctBreak (property : String)
  /-- `max` of nothing. -/
  | emptyMax
  deriving DecidableEq, Repr

def codePoints (record : Record) : Except ValueError (List Nat) :=
  if maxCodePoint < record.last ∨ record.last < record.first then
    .error (.invalidRange record.first record.last)
  else .ok (List.range' record.first (record.last + 1 - record.first))

/-- The loop over the code points of a record. -/
def update (f : Byte → Byte) (data : List Byte) (points : List Nat) : List Byte :=
  points.foldl (fun data codePoint => data.modify codePoint f) data

def applyGraphemeBreak (data : List Byte) : List Record → Except ValueError (List Byte)
  | [] => .ok data
  | record :: records =>
    match gcbValues.lookup record.property with
    | none => .error (.unsupportedGraphemeBreak record.property)
    | some packedValue =>
      match codePoints record with
      | .error e => .error e
      | .ok points =>
        applyGraphemeBreak (update (fun byte => (byte &&& ~~~gcbMask) ||| packedValue) data points)
          records

def applyIndicConjunctBreak (data : List Byte) : List Record → Except ValueError (List Byte)
  | [] => .ok data
  | record :: records =>
    if record.property ≠ "InCB" then applyIndicConjunctBreak data records
    else
      match record.more with
      | [] => .error .missingConjunctBreak
      | propertyName :: _ =>
        match incbValues.lookup propertyName with
        | none => .error (.unsupportedConjunctBreak propertyName)
        | some value =>
          match codePoints record with
          | .error e => .error e
          | .ok points =>
            applyIndicConjunctBreak
              (update (fun byte => (byte &&& ~~~incbMask) ||| (value <<< 4)) data points) records

def applyExtendedPictographic (data : List Byte) : List Record → Except ValueError (List Byte)
  | [] => .ok data
  | record :: records =>
    if record.property ≠ "Extended_Pictographic" then applyExtendedPictographic data records
    else
      match codePoints record with
      | .error e => .error e
      | .ok points =>
        applyExtendedPictographic (update (fun byte => byte ||| extendedPictographicMask) data points)
          records

/-- `data[first:stop] = bytes(stop - first)`. -/
def zeroSlice (data : List Byte) (first stop : Nat) : List Byte :=
  data.take first ++ List.replicate (stop - first) 0 ++ data.drop stop

def removeAlgorithmicRanges (data : List Byte) : List Byte :=
  zeroSlice (zeroSlice data 0x0000 0x0080) 0xAC00 0xD7A4

/-! ## Tries -/

/-- The type of a block index, with its width. -/
inductive IndexType where
  | uint8
  | uint16
  | uint32
  deriving DecidableEq, Repr

structure GeneratedTrie where
  blockShift : Nat
  highStart : Nat
  indexes : List Nat
  blocks : List (List Byte)
  indexType : IndexType
  deriving DecidableEq, Repr

/-- The state of the loop over the blocks. -/
structure BlockLoop where
  uniqueBlocks : List (List Byte) := []
  blockIds : List (List Byte × Nat) := []
  indexes : List Nat := []

def BlockLoop.step (loop : BlockLoop) (block : List Byte) : BlockLoop :=
  match loop.blockIds.lookup block with
  | some blockId => { loop with indexes := loop.indexes ++ [blockId] }
  | none =>
    let blockId := loop.uniqueBlocks.length
    { uniqueBlocks := loop.uniqueBlocks ++ [block]
      blockIds := loop.blockIds ++ [(block, blockId)]
      indexes := loop.indexes ++ [blockId] }

/-- The index of the last byte that is not zero. -/
def lastNonDefault (data : List Byte) : Option Nat :=
  ((data.zipIdx.filter fun entry => entry.1 ≠ 0).map Prod.snd).max?

def buildTrie (data : List Byte) (blockShift : Nat) : Except ValueError GeneratedTrie :=
  let blockSize := 1 <<< blockShift
  let blockMask := blockSize - 1
  match lastNonDefault data with
  | none => .error .emptyMax
  | some last =>
    -- `& ~block_mask` clears the bits of the mask
    let highStart := (last + blockSize) - ((last + blockSize) &&& blockMask)
    let starts := List.range' 0 ((highStart + blockSize - 1) / blockSize) blockSize
    let loop := (starts.map fun start => (data.drop start).take blockSize).foldl BlockLoop.step {}
    .ok
      { blockShift
        highStart
        indexes := loop.indexes
        blocks := loop.uniqueBlocks
        indexType :=
          if loop.uniqueBlocks.length ≤ 0x100 then .uint8
          else if loop.uniqueBlocks.length ≤ 0x10000 then .uint16
          else .uint32 }

def indexWidth (trie : GeneratedTrie) : Nat :=
  match trie.indexType with
  | .uint8 => 1
  | .uint16 => 2
  | .uint32 => 4

def tableSize (trie : GeneratedTrie) : Nat :=
  trie.indexes.length * indexWidth trie + trie.blocks.length * (1 <<< trie.blockShift)

/-- The keys of `min` in their lexicographic order. -/
def keyLess (left right : GeneratedTrie) : Bool :=
  tableSize left < tableSize right ||
    (tableSize left = tableSize right && left.blockShift < right.blockShift)

/-- The candidates of some shifts. -/
def buildTries (data : List Byte) : List Nat → Except ValueError (List GeneratedTrie)
  | [] => .ok []
  | shift :: shifts =>
    match buildTrie data shift with
    | .error e => .error e
    | .ok trie => (buildTries data shifts).map fun tries => trie :: tries

/-- The first of the least candidates, with all of them. -/
def selectTrie (data : List Byte) : Except ValueError (GeneratedTrie × List GeneratedTrie) :=
  match buildTries data (List.range' minBlockShift (maxBlockShift + 1 - minBlockShift)) with
  | .error e => .error e
  | .ok [] => .error .emptyMax
  | .ok (trie :: candidates) =>
    .ok (candidates.foldl (fun least candidate => if keyLess candidate least then candidate else least)
      trie, trie :: candidates)

/-! ## The header -/

structure GeneratedHeader where
  blockShift : Nat
  blockMask : Nat
  highStart : Nat
  blockIndexes : List Nat
  propertyBlocks : List Nat

/-- The constants of `render_header`. -/
def renderHeader (trie : GeneratedTrie) : GeneratedHeader where
  blockShift := trie.blockShift
  blockMask := (1 <<< trie.blockShift) - 1
  highStart := trie.highStart
  blockIndexes := trie.indexes
  propertyBlocks := trie.blocks.flatten.map BitVec.toNat

def generate (graphemeBreak derivedCore emojiData : List Record) :
    Except ValueError (GeneratedTrie × List GeneratedTrie) := do
  let data ← applyGraphemeBreak (List.replicate codePointCount 0) graphemeBreak
  let data ← applyIndicConjunctBreak data derivedCore
  let data ← applyExtendedPictographic data emojiData
  selectTrie (removeAlgorithmicRanges data)

namespace GeneratedHeader

/-- The entry of a code point below `kHighStart`. -/
def packedProperties (header : GeneratedHeader) (codePoint : Nat) : Nat :=
  let blockIndex := header.blockIndexes.getD (codePoint >>> header.blockShift) 0
  header.propertyBlocks.getD
    ((blockIndex <<< header.blockShift) ||| (codePoint &&& header.blockMask)) 0

def unicodeProperties (header : GeneratedHeader) (scalar : Nat) : UnicodeProperties :=
  if scalar ≤ 0x7F then asciiProperties scalar
  else if scalar ≥ 0xAC00 && scalar ≤ 0xD7A3 then hangulSyllableProperties scalar
  else if scalar ≥ header.highStart then {}
  else unpackProperties (header.packedProperties scalar)

end GeneratedHeader

/-- An array of runs. -/
def expand (runs : List (Nat × Nat)) : List Nat := runs.flatMap fun run => List.replicate run.1 run.2

/-- The header of the repository. -/
def shippedHeader : GeneratedHeader where
  blockShift := Generated.kBlockShift
  blockMask := Generated.kBlockMask
  highStart := Generated.kHighStart
  blockIndexes := expand Generated.kBlockIndexes
  propertyBlocks := expand Generated.kPropertyBlocks

end Generator

end Unicode

import GameWIP.Unicode.PropertyTable

/-!
# Grapheme properties of a scalar

The constant-time property lookup (`internal/unicode_properties.h`): ASCII and precomposed Hangul
syllables by computation, everything else through the generated trie.

The theorems at the end are what segmentation relies on in the shipped data; each is checked on the
entries of the property blocks and on the computed ranges.
-/

namespace Unicode

/-- Grapheme_Cluster_Break values, with the numbers of the enumeration. -/
inductive GraphemeBreakClass where
  | other
  | cr
  | lf
  | control
  | extend
  | zwj
  | regionalIndicator
  | prepend
  | spacingMark
  | l
  | v
  | t
  | lv
  | lvt
  deriving DecidableEq, Repr

/-- Indic_Conjunct_Break values used by rule GB9c. -/
inductive IndicConjunctBreakClass where
  | none
  | consonant
  | extend
  | linker
  deriving DecidableEq, Repr

structure UnicodeProperties where
  graphemeBreak : GraphemeBreakClass := .other
  indicConjunctBreak : IndicConjunctBreakClass := .none
  extendedPictographic : Bool := false
  deriving DecidableEq, Repr

/-- The enumerator of a four-bit value. The values above 13 name none and are not in the table
(`packed_le`). -/
def graphemeBreakClassOf : Nat → GraphemeBreakClass
  | 1 => .cr
  | 2 => .lf
  | 3 => .control
  | 4 => .extend
  | 5 => .zwj
  | 6 => .regionalIndicator
  | 7 => .prepend
  | 8 => .spacingMark
  | 9 => .l
  | 10 => .v
  | 11 => .t
  | 12 => .lv
  | 13 => .lvt
  | _ => .other

/-- The enumerator of a two-bit value. -/
def indicConjunctBreakClassOf : Nat → IndicConjunctBreakClass
  | 1 => .consonant
  | 2 => .extend
  | 3 => .linker
  | _ => .none

/-- Algorithmic ASCII grapheme properties. -/
def asciiProperties (codePoint : Nat) : UnicodeProperties :=
  if codePoint == 0x0D then { graphemeBreak := .cr }
  else if codePoint == 0x0A then { graphemeBreak := .lf }
  else if codePoint ≤ 0x1F || codePoint == 0x7F then { graphemeBreak := .control }
  else {}

/-- Algorithmic LV or LVT classification of a precomposed Hangul syllable. -/
def hangulSyllableProperties (codePoint : Nat) : UnicodeProperties :=
  { graphemeBreak := if (codePoint - 0xAC00) % 28 == 0 then .lv else .lvt }

/-- The properties packed into an entry of a property block. -/
def unpackProperties (packed : Nat) : UnicodeProperties :=
  { graphemeBreak := graphemeBreakClassOf (packed &&& 0x0F)
    indicConjunctBreak := indicConjunctBreakClassOf ((packed >>> 4) &&& 0x03)
    extendedPictographic := packed &&& 0x40 != 0 }

/-- The packed entry of a code point below `kHighStart`. -/
def packedProperties (codePoint : Nat) : Nat :=
  let blockIndex := entryAt Generated.kBlockIndexes (codePoint >>> Generated.kBlockShift)
  entryAt Generated.kPropertyBlocks
    ((blockIndex <<< Generated.kBlockShift) ||| (codePoint &&& Generated.kBlockMask))

/-- The generated grapheme properties of one Unicode scalar. -/
def unicodeProperties (scalar : Nat) : UnicodeProperties :=
  if scalar ≤ 0x7F then asciiProperties scalar
  else if scalar ≥ 0xAC00 && scalar ≤ 0xD7A3 then hangulSyllableProperties scalar
  else if scalar ≥ Generated.kHighStart then {}
  else unpackProperties (packedProperties scalar)

/-- Whether a grapheme class is handled by GB4 or GB5. -/
def isControlClass (value : GraphemeBreakClass) : Bool :=
  value == .control || value == .cr || value == .lf

/-! ## Facts about the shipped data -/

/-- What holds of the properties of ASCII and Hangul and of every entry of the blocks holds of the
properties of every scalar. -/
theorem unicodeProperties_of {P : UnicodeProperties → Prop}
    (hascii : ∀ g : GraphemeBreakClass, P { graphemeBreak := g })
    (htable : ∀ run ∈ Generated.kPropertyBlocks, P (unpackProperties run.2)) (scalar : Nat) :
    P (unicodeProperties scalar) := by
  unfold unicodeProperties
  split_ifs
  · unfold asciiProperties
    split_ifs <;> exact hascii _
  · exact hascii _
  · exact hascii .other
  · exact entryAt_mem (P := fun packed => P (unpackProperties packed)) (hascii .other) htable _

/-- A scalar that extends or links a conjunct never stands at the start of a cluster. -/
theorem conjunct_graphemeBreak (scalar : Nat)
    (h : (unicodeProperties scalar).indicConjunctBreak = .extend ∨
      (unicodeProperties scalar).indicConjunctBreak = .linker) :
    (unicodeProperties scalar).graphemeBreak = .extend ∨
      (unicodeProperties scalar).graphemeBreak = .zwj ∨
      (unicodeProperties scalar).graphemeBreak = .spacingMark := by
  revert h
  refine unicodeProperties_of
    (P := fun p => p.indicConjunctBreak = .extend ∨ p.indicConjunctBreak = .linker →
      p.graphemeBreak = .extend ∨ p.graphemeBreak = .zwj ∨ p.graphemeBreak = .spacingMark)
    (by intro g; cases g <;> decide) ?_ scalar
  decide +kernel

/-- A control carries no state into what follows. -/
theorem control_stateless (scalar : Nat)
    (h : isControlClass (unicodeProperties scalar).graphemeBreak = true) :
    (unicodeProperties scalar).indicConjunctBreak = .none ∧
      (unicodeProperties scalar).extendedPictographic = false := by
  revert h
  refine unicodeProperties_of
    (P := fun p => isControlClass p.graphemeBreak = true →
      p.indicConjunctBreak = .none ∧ p.extendedPictographic = false)
    (by intro g; cases g <;> decide) ?_ scalar
  decide +kernel

/-- The line feed is the only scalar of its class. -/
theorem eq_lineFeed (scalar : Nat) (h : (unicodeProperties scalar).graphemeBreak = .lf) :
    scalar = 0x0A := by
  revert h
  unfold unicodeProperties
  split_ifs
  · unfold asciiProperties
    split_ifs <;> simp_all
  · unfold hangulSyllableProperties
    split_ifs <;> simp
  · simp
  · intro h
    refine absurd h ?_
    refine entryAt_mem (P := fun packed => (unpackProperties packed).graphemeBreak ≠ .lf)
      (by decide) ?_ _
    decide +kernel

/-- The joiner of GB11 is not a pictograph itself. -/
theorem zwj_not_pictographic (scalar : Nat)
    (h : (unicodeProperties scalar).graphemeBreak = .zwj) :
    (unicodeProperties scalar).extendedPictographic = false := by
  revert h
  refine unicodeProperties_of
    (P := fun p => p.graphemeBreak = .zwj → p.extendedPictographic = false)
    (by intro g; cases g <;> decide) ?_ scalar
  decide +kernel

end Unicode

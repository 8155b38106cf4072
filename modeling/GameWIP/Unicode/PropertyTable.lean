import Mathlib.Data.List.Basic

/-!
# The generated grapheme-property trie

The data of `internal/generated/unicode_properties.h`: a block index for every 128 code points below
`kHighStart`, and the packed properties of the code points of each distinct block. Both arrays are
constant over long stretches and stand here as runs `(count, value)`; `entryAt` reads the entry of
the array at an offset.
-/

namespace Unicode

/-- The entry at an offset of an array given by its runs, zero behind its end. -/
def entryAt : List (Nat × Nat) → Nat → Nat
  | [], _ => 0
  | (count, value) :: runs, offset =>
    if offset < count then value else entryAt runs (offset - count)

/-- An entry of an array is the value of one of its runs. -/
theorem entryAt_mem {P : Nat → Prop} (h0 : P 0) :
    ∀ {runs : List (Nat × Nat)}, (∀ run ∈ runs, P run.2) → ∀ offset, P (entryAt runs offset)
  | [], _, _ => h0
  | (count, value) :: runs, h, offset => by
    unfold entryAt
    split_ifs
    · exact h (count, value) List.mem_cons_self
    · exact entryAt_mem h0 (fun run hr => h run (List.mem_cons_of_mem _ hr)) _

namespace Generated

def kBlockShift : Nat := 7

def kBlockMask : Nat := 127

def kHighStart : Nat := 0xE1000

/-- Block indexes, for each block of 128 code points. -/
def kBlockIndexes : List (Nat × Nat) :=
  [(1, 0), (1, 1), (4, 0), (1, 2), (2, 0), (1, 3), (1, 0), (1, 4), (1, 5), (1, 6), (1, 7), (1, 8),
   (1, 9), (1, 10), (1, 11), (1, 12), (1, 13), (1, 14), (1, 15), (1, 16), (1, 17), (1, 18),
   (1, 19), (1, 20), (1, 21), (1, 22), (1, 23), (1, 24), (1, 25), (1, 26), (1, 27), (1, 28),
   (2, 0), (1, 29), (7, 0), (1, 30), (1, 31), (1, 32), (1, 33), (1, 34), (1, 0), (1, 35), (1, 36),
   (1, 37), (1, 38), (1, 39), (1, 40), (1, 0), (1, 41), (4, 0), (1, 42), (1, 43), (1, 44),
   (1, 45), (2, 0), (1, 46), (1, 47), (1, 0), (1, 48), (1, 0), (1, 49), (1, 50), (1, 51), (1, 52),
   (1, 53), (2, 0), (1, 54), (3, 0), (1, 55), (2, 0), (1, 56), (1, 57), (1, 58), (4, 0), (1, 59),
   (1, 60), (3, 0), (1, 61), (230, 0), (1, 62), (1, 63), (2, 0), (1, 64), (1, 65), (1, 66),
   (1, 67), (1, 68), (1, 69), (1, 0), (1, 70), (87, 0), (1, 71), (70, 0), (1, 72), (5, 0),
   (1, 73), (1, 74), (1, 0), (1, 75), (3, 0), (1, 76), (1, 0), (1, 77), (1, 78), (13, 0), (1, 79),
   (1, 80), (4, 0), (1, 81), (2, 0), (1, 82), (1, 83), (1, 84), (1, 85), (1, 86), (1, 87),
   (1, 88), (1, 89), (1, 90), (1, 91), (1, 92), (1, 93), (1, 94), (1, 0), (1, 95), (1, 96),
   (1, 97), (1, 98), (1, 0), (1, 99), (1, 0), (1, 100), (1, 101), (1, 102), (1, 103), (1, 104),
   (1, 0), (1, 105), (1, 106), (1, 107), (1, 108), (1, 0), (1, 109), (1, 110), (41, 0), (1, 111),
   (89, 0), (1, 112), (18, 0), (1, 113), (1, 114), (3, 0), (1, 115), (3, 0), (1, 116), (1, 117),
   (153, 0), (1, 118), (36, 0), (1, 119), (3, 0), (1, 120), (1, 121), (1, 122), (15, 0), (1, 123),
   (1, 124), (10, 0), (1, 125), (1, 126), (1, 114), (2, 0), (1, 127), (3, 0), (1, 128), (1, 0),
   (1, 129), (1, 0), (1, 130), (3, 0), (1, 131), (1, 132), (13, 0), (1, 133), (1, 134), (1, 135),
   (1, 136), (1, 137), (1, 138), (1, 139), (1, 140), (1, 138), (1, 141), (1, 142), (1, 143),
   (1, 144), (1, 145), (1, 0), (1, 146), (1, 147), (1, 148), (1, 149), (1, 138), (1, 150),
   (1, 138), (2, 0), (7, 138), (1, 151), (6144, 0), (1, 152), (1, 153), (1, 154), (1, 155),
   (28, 153)]

/-- Packed properties: the grapheme break in the low four bits, then two bits of Indic conjunct
break and one bit for extended pictographics. -/
def kPropertyBlocks : List (Nat × Nat) :=
  [(128, 0), (32, 3), (9, 0), (1, 64), (3, 0), (1, 3), (1, 64), (81, 0), (112, 36), (19, 0),
   (7, 36), (135, 0), (45, 36), (1, 0), (1, 36), (1, 0), (2, 36), (1, 0), (2, 36), (1, 0),
   (1, 36), (56, 0), (6, 7), (10, 0), (11, 36), (1, 0), (1, 3), (46, 0), (21, 36), (16, 0),
   (1, 36), (101, 0), (7, 36), (1, 7), (1, 0), (6, 36), (2, 0), (2, 36), (1, 0), (4, 36), (33, 0),
   (1, 7), (1, 0), (1, 36), (30, 0), (27, 36), (91, 0), (11, 36), (58, 0), (9, 36), (9, 0),
   (1, 36), (24, 0), (4, 36), (1, 0), (9, 36), (1, 0), (3, 36), (1, 0), (5, 36), (43, 0), (3, 36),
   (52, 0), (2, 7), (5, 0), (9, 36), (42, 0), (24, 36), (1, 7), (32, 36), (1, 8), (17, 0),
   (37, 16), (1, 36), (1, 8), (1, 36), (1, 0), (3, 8), (8, 36), (4, 8), (1, 52), (2, 8), (1, 0),
   (7, 36), (8, 16), (2, 0), (2, 36), (20, 0), (8, 16), (1, 0), (1, 36), (2, 8), (17, 0),
   (20, 16), (1, 0), (7, 16), (1, 0), (1, 16), (3, 0), (4, 16), (2, 0), (1, 36), (1, 0), (1, 36),
   (2, 8), (4, 36), (2, 0), (2, 8), (2, 0), (2, 8), (1, 52), (9, 0), (1, 36), (4, 0), (2, 16),
   (1, 0), (1, 16), (2, 0), (2, 36), (12, 0), (2, 16), (12, 0), (1, 36), (2, 0), (2, 36), (1, 8),
   (56, 0), (1, 36), (1, 0), (3, 8), (2, 36), (4, 0), (2, 36), (2, 0), (3, 36), (3, 0), (1, 36),
   (30, 0), (2, 36), (3, 0), (1, 36), (11, 0), (2, 36), (1, 8), (17, 0), (20, 16), (1, 0),
   (7, 16), (1, 0), (2, 16), (1, 0), (5, 16), (2, 0), (1, 36), (1, 0), (3, 8), (5, 36), (1, 0),
   (2, 36), (1, 8), (1, 0), (2, 8), (1, 52), (20, 0), (2, 36), (21, 0), (1, 16), (6, 36), (1, 0),
   (1, 36), (2, 8), (17, 0), (20, 16), (1, 0), (7, 16), (1, 0), (2, 16), (1, 0), (5, 16), (2, 0),
   (1, 36), (1, 0), (2, 36), (1, 8), (4, 36), (2, 0), (2, 8), (2, 0), (2, 8), (1, 52), (7, 0),
   (3, 36), (4, 0), (2, 16), (1, 0), (1, 16), (2, 0), (2, 36), (13, 0), (1, 16), (16, 0), (1, 36),
   (59, 0), (1, 36), (1, 8), (1, 36), (2, 8), (3, 0), (3, 8), (1, 0), (3, 8), (1, 36), (9, 0),
   (1, 36), (40, 0), (1, 36), (3, 8), (1, 36), (16, 0), (20, 16), (1, 0), (16, 16), (2, 0),
   (1, 36), (1, 0), (3, 36), (4, 8), (1, 0), (3, 36), (1, 0), (3, 36), (1, 52), (7, 0), (2, 36),
   (1, 0), (3, 16), (7, 0), (2, 36), (29, 0), (1, 36), (2, 8), (56, 0), (1, 36), (1, 0), (1, 8),
   (2, 36), (1, 8), (1, 36), (2, 8), (1, 0), (3, 36), (1, 0), (4, 36), (7, 0), (2, 36), (11, 0),
   (2, 36), (15, 0), (1, 8), (12, 0), (2, 36), (2, 8), (17, 0), (38, 16), (2, 36), (1, 0),
   (1, 36), (2, 8), (4, 36), (1, 0), (3, 8), (1, 0), (3, 8), (1, 52), (1, 7), (8, 0), (1, 36),
   (10, 0), (2, 36), (29, 0), (1, 36), (2, 8), (70, 0), (1, 36), (4, 0), (1, 36), (2, 8), (3, 36),
   (1, 0), (1, 36), (1, 0), (7, 8), (1, 36), (18, 0), (2, 8), (61, 0), (1, 36), (1, 0), (1, 8),
   (7, 36), (12, 0), (8, 36), (98, 0), (1, 36), (1, 0), (1, 8), (9, 36), (11, 0), (7, 36),
   (73, 0), (2, 36), (27, 0), (1, 36), (1, 0), (1, 36), (1, 0), (1, 36), (4, 0), (2, 8), (49, 0),
   (14, 36), (1, 8), (5, 36), (1, 0), (2, 36), (5, 0), (11, 36), (1, 0), (36, 36), (9, 0),
   (1, 36), (57, 0), (43, 16), (2, 0), (4, 36), (1, 8), (6, 36), (1, 0), (1, 52), (1, 36), (2, 8),
   (2, 36), (1, 16), (16, 0), (6, 16), (2, 8), (2, 36), (4, 16), (3, 36), (1, 16), (3, 0),
   (2, 16), (7, 0), (3, 16), (4, 36), (13, 16), (1, 36), (1, 0), (1, 8), (2, 36), (6, 0), (1, 36),
   (1, 16), (14, 0), (1, 36), (98, 0), (96, 9), (72, 10), (88, 11), (93, 0), (3, 36), (50, 0),
   (4, 36), (28, 0), (3, 36), (29, 0), (2, 36), (30, 0), (2, 36), (12, 0), (52, 16), (2, 36),
   (1, 8), (7, 36), (8, 8), (1, 36), (2, 8), (9, 36), (1, 52), (1, 36), (9, 0), (1, 36), (45, 0),
   (3, 36), (1, 3), (1, 36), (117, 0), (2, 36), (34, 0), (1, 36), (118, 0), (3, 36), (4, 8),
   (2, 36), (3, 8), (4, 0), (2, 8), (1, 36), (6, 8), (3, 36), (91, 0), (2, 36), (2, 8), (1, 36),
   (4, 0), (53, 16), (1, 8), (1, 36), (1, 8), (7, 36), (1, 0), (1, 52), (1, 0), (1, 36), (2, 0),
   (8, 36), (6, 8), (10, 36), (2, 0), (1, 36), (48, 0), (46, 36), (2, 0), (12, 36), (20, 0),
   (4, 36), (1, 8), (6, 0), (2, 16), (6, 0), (33, 16), (10, 36), (4, 8), (2, 36), (1, 52),
   (8, 16), (30, 0), (9, 36), (12, 0), (2, 36), (1, 8), (30, 16), (1, 8), (4, 36), (2, 8),
   (3, 36), (1, 52), (2, 36), (2, 16), (11, 0), (3, 16), (40, 0), (1, 36), (1, 8), (2, 36),
   (3, 8), (1, 36), (1, 8), (5, 36), (48, 0), (8, 8), (8, 36), (2, 8), (2, 36), (152, 0), (3, 36),
   (1, 0), (13, 36), (1, 8), (7, 36), (4, 0), (1, 36), (6, 0), (1, 36), (2, 0), (1, 8), (2, 36),
   (70, 0), (64, 36), (11, 0), (1, 3), (1, 4), (1, 37), (2, 3), (24, 0), (7, 3), (13, 0), (1, 64),
   (12, 0), (1, 64), (22, 0), (16, 3), (96, 0), (33, 36), (49, 0), (1, 64), (22, 0), (1, 64),
   (90, 0), (6, 64), (15, 0), (2, 64), (111, 0), (2, 64), (12, 0), (1, 64), (166, 0), (1, 64),
   (25, 0), (11, 64), (4, 0), (3, 64), (71, 0), (1, 64), (103, 0), (2, 64), (10, 0), (1, 64),
   (9, 0), (1, 64), (58, 0), (4, 64), (1, 0), (5, 64), (9, 0), (1, 64), (2, 0), (1, 64), (2, 0),
   (2, 64), (2, 0), (1, 64), (4, 0), (1, 64), (2, 0), (1, 64), (1, 0), (2, 64), (2, 0), (1, 64),
   (3, 0), (1, 64), (3, 0), (2, 64), (8, 0), (3, 64), (5, 0), (1, 64), (1, 0), (1, 64), (5, 0),
   (12, 64), (11, 0), (2, 64), (2, 0), (1, 64), (1, 0), (2, 64), (1, 0), (1, 64), (18, 0),
   (1, 64), (2, 0), (2, 64), (18, 0), (6, 64), (1, 0), (1, 64), (1, 0), (2, 64), (3, 0), (2, 64),
   (5, 0), (1, 64), (2, 0), (2, 64), (4, 0), (2, 64), (11, 0), (2, 64), (5, 0), (2, 64), (2, 0),
   (1, 64), (5, 0), (2, 64), (1, 0), (1, 64), (1, 0), (2, 64), (20, 0), (2, 64), (5, 0), (6, 64),
   (1, 0), (4, 64), (2, 0), (1, 64), (4, 0), (1, 64), (2, 0), (1, 64), (2, 0), (6, 64), (1, 0),
   (1, 64), (2, 0), (1, 64), (1, 0), (1, 64), (1, 0), (1, 64), (6, 0), (1, 64), (3, 0), (1, 64),
   (6, 0), (1, 64), (10, 0), (2, 64), (15, 0), (1, 64), (2, 0), (1, 64), (4, 0), (1, 64), (1, 0),
   (1, 64), (4, 0), (3, 64), (1, 0), (1, 64), (11, 0), (2, 64), (48, 0), (3, 64), (9, 0), (1, 64),
   (14, 0), (1, 64), (14, 0), (1, 64), (116, 0), (2, 64), (79, 0), (3, 64), (19, 0), (2, 64),
   (51, 0), (1, 64), (4, 0), (1, 64), (153, 0), (3, 36), (141, 0), (1, 36), (96, 0), (32, 36),
   (42, 0), (6, 36), (1, 64), (12, 0), (1, 64), (91, 0), (2, 36), (124, 0), (1, 64), (1, 0),
   (1, 64), (213, 0), (4, 36), (1, 0), (10, 36), (32, 0), (2, 36), (80, 0), (2, 36), (16, 0),
   (1, 36), (3, 0), (1, 36), (4, 0), (1, 36), (23, 0), (2, 8), (2, 36), (1, 8), (4, 0), (1, 36),
   (83, 0), (2, 8), (50, 0), (16, 8), (2, 36), (26, 0), (18, 36), (13, 0), (1, 36), (38, 0),
   (8, 36), (25, 0), (11, 36), (1, 8), (1, 36), (12, 0), (29, 9), (3, 0), (3, 36), (1, 8), (5, 0),
   (3, 16), (3, 0), (36, 16), (1, 36), (2, 8), (4, 36), (2, 8), (2, 36), (2, 8), (1, 52), (31, 0),
   (5, 16), (1, 36), (1, 0), (9, 16), (10, 0), (5, 16), (42, 0), (6, 36), (2, 8), (2, 36), (2, 8),
   (2, 36), (12, 0), (1, 36), (8, 0), (1, 36), (1, 8), (18, 0), (16, 16), (1, 0), (3, 16), (6, 0),
   (1, 16), (1, 0), (1, 36), (1, 0), (2, 16), (48, 0), (1, 36), (1, 0), (3, 36), (2, 0), (2, 36),
   (5, 0), (2, 36), (1, 0), (1, 36), (30, 0), (11, 16), (1, 8), (2, 36), (2, 8), (5, 0), (1, 8),
   (1, 52), (73, 0), (27, 16), (8, 0), (2, 8), (1, 36), (2, 8), (1, 36), (2, 8), (1, 0), (1, 8),
   (1, 36), (66, 0), (23, 10), (4, 0), (49, 11), (34, 0), (1, 36), (97, 0), (16, 36), (16, 0),
   (16, 36), (207, 0), (1, 3), (30, 0), (2, 36), (80, 0), (12, 3), (129, 0), (1, 36), (98, 0),
   (1, 36), (149, 0), (5, 36), (5, 0), (1, 16), (3, 36), (1, 0), (2, 36), (5, 0), (4, 36),
   (4, 16), (1, 0), (3, 16), (1, 0), (29, 16), (2, 0), (3, 36), (4, 0), (1, 52), (165, 0),
   (2, 36), (61, 0), (4, 36), (65, 0), (5, 36), (61, 0), (2, 36), (77, 0), (6, 36), (70, 0),
   (11, 36), (49, 0), (4, 36), (122, 0), (1, 8), (1, 36), (1, 8), (53, 0), (15, 36), (41, 0),
   (1, 36), (2, 0), (2, 36), (10, 0), (3, 36), (1, 8), (45, 0), (3, 8), (4, 36), (2, 8), (2, 36),
   (2, 0), (1, 7), (4, 0), (1, 36), (10, 0), (1, 7), (50, 0), (3, 36), (36, 16), (5, 36), (1, 8),
   (6, 36), (1, 52), (1, 36), (15, 0), (1, 16), (2, 8), (1, 16), (43, 0), (1, 36), (12, 0),
   (2, 36), (1, 8), (48, 0), (3, 8), (9, 36), (1, 8), (1, 36), (1, 0), (2, 7), (5, 0), (4, 36),
   (1, 0), (1, 8), (1, 36), (92, 0), (3, 8), (3, 36), (2, 8), (4, 36), (6, 0), (1, 36), (2, 0),
   (1, 36), (157, 0), (1, 36), (3, 8), (8, 36), (21, 0), (2, 36), (2, 8), (55, 0), (2, 36),
   (1, 0), (1, 36), (1, 8), (1, 36), (4, 8), (2, 0), (2, 8), (2, 0), (2, 8), (1, 36), (9, 0),
   (1, 36), (10, 0), (2, 8), (2, 0), (7, 36), (3, 0), (5, 36), (11, 0), (10, 16), (1, 0), (1, 16),
   (2, 0), (1, 16), (1, 0), (38, 16), (2, 0), (1, 36), (2, 8), (6, 36), (1, 0), (1, 36), (2, 0),
   (1, 36), (1, 0), (3, 36), (1, 8), (1, 0), (2, 8), (2, 36), (1, 52), (1, 7), (1, 36), (14, 0),
   (2, 36), (82, 0), (3, 8), (8, 36), (2, 8), (3, 36), (1, 8), (1, 36), (23, 0), (1, 36), (81, 0),
   (1, 36), (2, 8), (6, 36), (1, 8), (1, 36), (2, 8), (1, 36), (1, 8), (2, 36), (1, 8), (2, 36),
   (107, 0), (1, 36), (2, 8), (4, 36), (2, 0), (4, 8), (2, 36), (1, 8), (2, 36), (27, 0), (2, 36),
   (82, 0), (3, 8), (8, 36), (2, 8), (1, 36), (1, 8), (2, 36), (106, 0), (1, 36), (1, 8), (1, 36),
   (2, 8), (8, 36), (101, 0), (1, 36), (1, 8), (1, 36), (2, 0), (4, 36), (1, 8), (5, 36),
   (128, 0), (3, 8), (9, 36), (1, 8), (2, 36), (69, 0), (7, 16), (2, 0), (1, 16), (2, 0), (8, 16),
   (1, 0), (2, 16), (1, 0), (24, 16), (1, 36), (5, 8), (1, 0), (2, 8), (2, 0), (3, 36), (1, 52),
   (1, 7), (1, 8), (1, 7), (1, 8), (1, 36), (141, 0), (3, 8), (4, 36), (2, 0), (2, 36), (4, 8),
   (1, 36), (3, 0), (1, 8), (27, 0), (1, 16), (10, 36), (40, 16), (6, 36), (1, 8), (1, 0),
   (4, 36), (8, 0), (1, 52), (8, 0), (1, 16), (6, 36), (2, 8), (3, 36), (40, 16), (6, 7),
   (13, 36), (1, 8), (1, 36), (1, 52), (198, 0), (1, 36), (1, 8), (3, 36), (1, 8), (1, 36),
   (1, 8), (71, 0), (1, 8), (7, 36), (1, 0), (6, 36), (1, 8), (1, 36), (82, 0), (22, 36), (1, 0),
   (1, 8), (7, 36), (1, 8), (2, 36), (1, 8), (2, 36), (122, 0), (6, 36), (3, 0), (1, 36), (1, 0),
   (2, 36), (1, 0), (7, 36), (1, 7), (1, 36), (66, 0), (5, 8), (1, 0), (2, 36), (1, 0), (2, 8),
   (1, 36), (1, 8), (1, 36), (219, 0), (2, 36), (2, 8), (9, 0), (2, 36), (1, 7), (1, 8), (13, 16),
   (1, 0), (34, 16), (2, 8), (5, 36), (3, 0), (2, 8), (2, 36), (1, 52), (23, 0), (1, 36), (85, 0),
   (16, 3), (1, 36), (6, 0), (15, 36), (72, 0), (12, 36), (3, 8), (3, 36), (192, 0), (5, 36),
   (59, 0), (7, 36), (172, 0), (1, 10), (3, 0), (4, 10), (100, 0), (1, 36), (1, 0), (55, 8),
   (7, 0), (4, 36), (81, 0), (1, 36), (11, 0), (2, 36), (43, 0), (2, 36), (1, 0), (4, 3), (92, 0),
   (46, 36), (2, 0), (23, 36), (158, 0), (5, 36), (3, 0), (6, 36), (8, 3), (8, 36), (2, 0),
   (7, 36), (30, 0), (4, 36), (148, 0), (3, 36), (59, 0), (55, 36), (4, 0), (50, 36), (8, 0),
   (1, 36), (14, 0), (1, 36), (22, 0), (5, 36), (1, 0), (15, 36), (80, 0), (7, 36), (1, 0),
   (17, 36), (2, 0), (7, 36), (1, 0), (2, 36), (1, 0), (5, 36), (100, 0), (1, 36), (158, 0),
   (1, 36), (61, 0), (4, 36), (124, 0), (4, 36), (126, 0), (2, 36), (115, 0), (1, 36), (2, 0),
   (1, 36), (7, 0), (2, 36), (5, 0), (1, 36), (90, 0), (7, 36), (109, 0), (7, 36), (57, 0),
   (1, 64), (39, 0), (4, 64), (100, 0), (12, 64), (15, 0), (2, 64), (15, 0), (1, 64), (14, 0),
   (2, 64), (37, 0), (10, 64), (112, 0), (2, 64), (12, 0), (2, 64), (14, 0), (1, 64), (2, 0),
   (10, 64), (19, 0), (56, 64), (26, 6), (1, 0), (15, 64), (10, 0), (1, 64), (20, 0), (1, 64),
   (2, 0), (9, 64), (1, 0), (4, 64), (9, 0), (23, 64), (6, 0), (188, 64), (2, 0), (112, 64),
   (2, 0), (2, 64), (1, 0), (3, 64), (2, 0), (83, 64), (2, 0), (3, 64), (1, 0), (4, 64), (5, 36),
   (126, 64), (1, 0), (63, 64), (11, 0), (6, 64), (1, 0), (24, 64), (7, 0), (2, 64), (2, 0),
   (8, 64), (12, 0), (1, 64), (2, 0), (4, 64), (2, 0), (1, 64), (4, 0), (2, 64), (13, 0), (2, 64),
   (2, 0), (1, 64), (8, 0), (2, 64), (9, 0), (1, 64), (5, 0), (3, 64), (12, 0), (3, 64), (8, 0),
   (3, 64), (2, 0), (1, 64), (1, 0), (1, 64), (4, 0), (1, 64), (6, 0), (1, 64), (3, 0), (1, 64),
   (6, 0), (86, 64), (48, 0), (70, 64), (5, 0), (8, 64), (2, 0), (17, 64), (3, 0), (1, 64),
   (1, 0), (6, 64), (2, 0), (13, 64), (90, 0), (38, 64), (12, 0), (4, 64), (56, 0), (8, 64),
   (10, 0), (6, 64), (40, 0), (8, 64), (30, 0), (2, 64), (12, 0), (4, 64), (2, 0), (14, 64),
   (9, 0), (39, 64), (12, 0), (47, 64), (1, 0), (10, 64), (1, 0), (57, 64), (88, 0), (8, 64),
   (14, 0), (144, 64), (2, 0), (32, 3), (96, 36), (128, 3), (240, 36), (16, 3)]

end Generated

end Unicode

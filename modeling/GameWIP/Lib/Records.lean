import Mathlib.Data.List.Basic
import Mathlib.Algebra.Ring.Int.Defs
import Mathlib.Algebra.Ring.Nat

/-!
# Little-endian records and blocks

Memory as a list of bytes. A number stored in `w` bytes reads back modulo `256 ^ w`
(`value_bytes`); a record is a list of fields, and the field at an offset is read from the record
and whatever follows it (`field_head`, `field_tail`), or from a range that holds it (`field_range`).
An array of two-byte elements reads back in front of an even number of bytes (`units_unitBytes`).
Blocks of one length stored behind each other are found again by their number (`block_flatMap`,
`block_block`, `getD_flatMap`), and cutting a list into blocks gives the list (`flatMap_block`).
-/

namespace Lib

namespace LittleEndian

variable {w n : Nat} {rest : List UInt8}

/-- The lowest `w` bytes of a number, the least significant first. -/
def bytes : Nat → Nat → List UInt8
  | 0, _ => []
  | w + 1, n => UInt8.ofNat n :: bytes w (n / 256)

/-- The number that bytes spell. -/
def value : List UInt8 → Nat
  | [] => 0
  | b :: bs => b.toNat + 256 * value bs

@[simp] theorem length_bytes (w n : Nat) : (bytes w n).length = w := by
  induction w generalizing n with
  | zero => rfl
  | succ w ih => simp [bytes, ih]

theorem value_bytes (w n : Nat) : value (bytes w n) = n % 256 ^ w := by
  induction w generalizing n with
  | zero => simp [bytes, value, Nat.mod_one]
  | succ w ih =>
    have hmod : n % 256 ^ (w + 1) = n % 256 + 256 * (n / 256 % 256 ^ w) := by
      rw [Nat.pow_succ', Nat.mod_mul]
    rw [bytes, value, ih, UInt8.toNat_ofNat', hmod]

/-! ## Records -/

/-- A record of fields, each with its width and its number. -/
def record (fields : List (Nat × Nat)) : List UInt8 := fields.flatMap fun f => bytes f.1 f.2

/-- The number stored in `w` bytes at an offset. -/
def field (offset w : Nat) (memory : List UInt8) : Nat := value ((memory.drop offset).take w)

@[simp] theorem record_nil : record [] = [] := rfl

@[simp] theorem record_cons (f : Nat × Nat) (fs : List (Nat × Nat)) :
    record (f :: fs) = bytes f.1 f.2 ++ record fs := rfl

@[simp] theorem field_head : field 0 w (bytes w n ++ rest) = n % 256 ^ w := by
  rw [field, List.drop_zero, List.take_left' (length_bytes w n), value_bytes]

/-- A field in front is skipped. -/
theorem field_tail {offset width : Nat} (h : w ≤ offset) :
    field offset width (bytes w n ++ rest) = field (offset - w) width rest := by
  have hdrop : (bytes w n ++ rest).drop offset = rest.drop (offset - w) := by
    rw [List.drop_append, length_bytes, List.drop_eq_nil_of_le (by rwa [length_bytes]),
      List.nil_append]
  rw [field, field, hdrop]

/-- A field of a range of the memory. -/
theorem field_range {memory : List UInt8} {offset width k n : Nat} (h : offset + width ≤ n) :
    field offset width ((memory.drop k).take n) = field (k + offset) width memory := by
  rw [field, field, List.drop_take, List.take_take, List.drop_drop, Nat.min_eq_left (by omega)]

theorem value_lt (bs : List UInt8) : value bs < 256 ^ bs.length := by
  induction bs with
  | nil => exact Nat.one_pos
  | cons b bs ih =>
    have hb := b.toNat_lt
    rw [value, List.length_cons, Nat.pow_succ]
    omega

theorem field_lt (offset w : Nat) (memory : List UInt8) : field offset w memory < 256 ^ w :=
  Nat.lt_of_lt_of_le (value_lt _)
    (Nat.pow_le_pow_right (by decide) (by rw [List.length_take]; exact Nat.min_le_left _ _))

/-! ## Two-byte elements -/

/-- The bytes of an array of two-byte elements. -/
def unitBytes (us : List UInt16) : List UInt8 := us.flatMap fun u => bytes 2 u.toNat

/-- The two-byte elements of a range; an odd byte at its end is not part of one. -/
def units : List UInt8 → List UInt16
  | b :: c :: bs => UInt16.ofNat (value [b, c]) :: units bs
  | _ => []

@[simp] theorem unitBytes_nil : unitBytes [] = [] := rfl

@[simp] theorem unitBytes_cons (u : UInt16) (us : List UInt16) :
    unitBytes (u :: us) = bytes 2 u.toNat ++ unitBytes us := rfl

@[simp] theorem unitBytes_append (us vs : List UInt16) :
    unitBytes (us ++ vs) = unitBytes us ++ unitBytes vs := List.flatMap_append

@[simp] theorem length_unitBytes (us : List UInt16) : (unitBytes us).length = 2 * us.length := by
  induction us with
  | nil => rfl
  | cons u us ih => simp [ih]; omega

theorem units_unitBytes (us : List UInt16) (rest : List UInt8) :
    units (unitBytes us ++ rest) = us ++ units rest := by
  induction us with
  | nil => rfl
  | cons u us ih =>
    have hu : value (bytes 2 u.toNat) = u.toNat := by
      rw [value_bytes]
      exact Nat.mod_eq_of_lt u.toNat_lt
    have hsplit : bytes 2 u.toNat = [UInt8.ofNat u.toNat, UInt8.ofNat (u.toNat / 256)] := rfl
    rw [unitBytes_cons, hsplit, List.append_assoc, List.cons_append, List.cons_append,
      List.nil_append, units, ih, ← hsplit, hu, UInt16.ofNat_toNat, List.cons_append]

end LittleEndian

/-! ## Blocks -/

section
variable {α : Type*} {f : Nat → List α} {h n i : Nat}

theorem length_flatMap_range (hf : ∀ k < h, (f k).length = n) :
    ((List.range h).flatMap f).length = h * n := by
  induction h with
  | zero => simp
  | succ h ih =>
    rw [List.range_succ, List.flatMap_append, List.length_append,
      ih fun k hk => hf k (Nat.lt_succ_of_lt hk), List.flatMap_singleton,
      hf h (Nat.lt_succ_self h), Nat.succ_mul]

/-- The blocks in front of block `i`, the block and those behind it. -/
theorem flatMap_range_split (hi : i < h) :
    (List.range h).flatMap f =
      (List.range i).flatMap f ++ (f i ++ (List.range' (i + 1) (h - i - 1)).flatMap f) := by
  have hsplit : List.range h = List.range i ++ i :: List.range' (i + 1) (h - i - 1) := by
    rw [← List.range'_succ, List.range_eq_range', List.range_eq_range',
      show h = i + (h - i - 1 + 1) by omega, ← List.range'_append]
    simp
  rw [hsplit, List.flatMap_append, List.flatMap_cons]

/-- The block with number `i`. -/
theorem block_flatMap (hf : ∀ k < h, (f k).length = n) (hi : i < h) (rest : List α) :
    (((List.range h).flatMap f ++ rest).drop (i * n)).take n = f i := by
  have hfront := length_flatMap_range (h := i) fun k hk => hf k (Nat.lt_trans hk hi)
  rw [flatMap_range_split hi, List.append_assoc, List.drop_left' hfront, List.append_assoc,
    List.take_left' (hf i hi)]

/-- Block `j` of the blocks that block `i` consists of. -/
theorem block_block {g : Nat → Nat → List α} {w m : Nat}
    (hg : ∀ i < h, ∀ j < w, (g i j).length = m) (hi : i < h) {j : Nat} (hj : j < w) :
    (((List.range h).flatMap fun i => (List.range w).flatMap (g i)).drop ((i * w + j) * m)).take m =
      g i j := by
  have hrow : ∀ i < h, ((List.range w).flatMap (g i)).length = w * m := fun i hi =>
    length_flatMap_range (hg i hi)
  have houter := block_flatMap hrow hi []
  have hinner := block_flatMap (hg i hi) hj []
  have hat : (i * w + j) * m = i * (w * m) + j * m := by
    rw [Nat.add_mul, Nat.mul_assoc]
  have hroom : m ≤ w * m - j * m := by
    rw [← Nat.sub_mul]
    exact Nat.le_mul_of_pos_left _ (by omega)
  rw [List.append_nil] at houter hinner
  rw [← hinner, ← houter, List.drop_take, List.take_take, List.drop_drop, Nat.min_eq_left hroom,
    hat]

/-- An element of the block with number `i`. -/
theorem getD_flatMap (hf : ∀ k < h, (f k).length = n) (hi : i < h) {j : Nat} (hj : j < n) (d : α) :
    ((List.range h).flatMap f).getD (i * n + j) d = (f i).getD j d := by
  have hblock := block_flatMap hf hi []
  rw [List.append_nil] at hblock
  rw [← hblock, List.getD_eq_getElem?_getD, List.getD_eq_getElem?_getD,
    List.getElem?_take_of_lt hj, List.getElem?_drop]

/-- The blocks of a list are the list. -/
theorem flatMap_block (l : List α) (h n : Nat) :
    ((List.range h).flatMap fun k => (l.drop (k * n)).take n) = l.take (h * n) := by
  induction h with
  | zero => simp
  | succ h ih =>
    rw [List.range_succ, List.flatMap_append, ih, List.flatMap_singleton, Nat.succ_mul,
      List.take_add]

end

end Lib

import Mathlib.Data.List.Induction

/-!
# Fields of a word

A field of a word is the bits under a mask. `putField mask value word` replaces it: it reads back as
the value (`putField_and_mask`), and what has no bit in common with the mask is as it was
(`putField_and_other`). `putFields` makes replacements one after the other, and the bits under a
mask are then those of the last replacement of that mask (`putFields_and`).
-/

namespace Lib

variable {w : Nat}

/-- Replaces the bits under the mask. -/
def putField (mask value word : BitVec w) : BitVec w := (word &&& ~~~mask) ||| value

/-- The value has no bits outside the mask. -/
def Fits (mask value : BitVec w) : Prop := value &&& mask = value

variable {mask other value word : BitVec w}

theorem Fits.getLsbD {mask value : BitVec w} (h : Fits mask value) {i : Nat}
    (hi : mask.getLsbD i = false) : value.getLsbD i = false := by
  rw [← h, BitVec.getLsbD_and, hi, Bool.and_false]

theorem putField_and_mask (h : Fits mask value) : putField mask value word &&& mask = value := by
  refine BitVec.eq_of_getLsbD_eq fun i hi => ?_
  have hvalue := h.getLsbD (i := i)
  simp only [putField, BitVec.getLsbD_and, BitVec.getLsbD_or, BitVec.getLsbD_not, hi, decide_true,
    Bool.true_and]
  cases hm : mask.getLsbD i with
  | true => simp
  | false => simp [hvalue hm]

theorem putField_and_other (h : Fits mask value) (hdisjoint : mask &&& other = 0#w) :
    putField mask value word &&& other = word &&& other := by
  refine BitVec.eq_of_getLsbD_eq fun i hi => ?_
  have hvalue := h.getLsbD (i := i)
  have hbit : (mask.getLsbD i && other.getLsbD i) = false := by
    rw [← BitVec.getLsbD_and, hdisjoint, BitVec.getLsbD_zero]
  simp only [putField, BitVec.getLsbD_and, BitVec.getLsbD_or, BitVec.getLsbD_not, hi, decide_true,
    Bool.true_and]
  cases hm : mask.getLsbD i with
  | true =>
    rw [hm, Bool.true_and] at hbit
    simp [hbit]
  | false => simp [hvalue hm]

/-- A replacement: a mask and the new bits. -/
structure Field (w : Nat) where
  mask : BitVec w
  value : BitVec w
  fits : Fits mask value

def putFields (fields : List (Field w)) (word : BitVec w) : BitVec w :=
  fields.foldl (fun word field => putField field.mask field.value word) word

theorem putFields_concat (fields : List (Field w)) (field : Field w) (word : BitVec w) :
    putFields (fields ++ [field]) word = putField field.mask field.value (putFields fields word) := by
  simp [putFields]

/-- The last replacement of a mask. -/
def lastOf (mask : BitVec w) (fields : List (Field w)) : Option (BitVec w) :=
  ((fields.filter fun field => field.mask = mask).getLast?).map Field.value

theorem lastOf_concat (mask : BitVec w) (fields : List (Field w)) (field : Field w) :
    lastOf mask (fields ++ [field]) =
      if field.mask = mask then some field.value else lastOf mask fields := by
  by_cases h : field.mask = mask
  · simp [lastOf, h]
  · simp [lastOf, h]

theorem lastOf_append_left {a b : List (Field w)} (h : ∀ field ∈ b, field.mask ≠ mask) :
    lastOf mask (a ++ b) = lastOf mask a := by
  unfold lastOf
  have hnil : (b.filter fun field => field.mask = mask) = [] :=
    List.filter_eq_nil_iff.2 fun field hf => by simpa using h field hf
  rw [List.filter_append, hnil, List.append_nil]

theorem lastOf_append_right {a b : List (Field w)} (h : ∀ field ∈ a, field.mask ≠ mask) :
    lastOf mask (a ++ b) = lastOf mask b := by
  unfold lastOf
  have hnil : (a.filter fun field => field.mask = mask) = [] :=
    List.filter_eq_nil_iff.2 fun field hf => by simpa using h field hf
  rw [List.filter_append, hnil, List.nil_append]

theorem lastOf_eq {a : List (Field w)} (h : ∀ field ∈ a, field.mask = mask) :
    lastOf mask a = a.getLast?.map Field.value := by
  unfold lastOf
  rw [List.filter_eq_self.2 fun field hf => by simpa using h field hf]

/-- Setting all bits of a field. -/
theorem putField_self : putField mask mask word = word ||| mask := by
  refine BitVec.eq_of_getLsbD_eq fun i hi => ?_
  simp only [putField, BitVec.getLsbD_and, BitVec.getLsbD_or, BitVec.getLsbD_not, hi, decide_true,
    Bool.true_and]
  cases mask.getLsbD i <;> simp

/-- **The last replacement stands.** Of replacements whose masks are equal to or disjoint from one, the
bits under it are those of the last one that has it, or as they were. -/
theorem putFields_and {fields : List (Field w)}
    (h : ∀ field ∈ fields, field.mask = mask ∨ field.mask &&& mask = 0#w) :
    putFields fields word &&& mask = (lastOf mask fields).getD (word &&& mask) := by
  induction fields using List.reverseRecOn with
  | nil => rfl
  | append_singleton fields field ih =>
    have ih := ih fun f hf => h f (List.mem_append_left _ hf)
    rw [putFields_concat, lastOf_concat]
    rcases h field (by simp) with heq | hdisjoint
    · rw [if_pos heq, Option.getD_some, ← heq]
      exact putField_and_mask field.fits
    · by_cases heq : field.mask = mask
      · rw [if_pos heq, Option.getD_some, ← heq]
        exact putField_and_mask field.fits
      · rw [if_neg heq, putField_and_other field.fits hdisjoint, ih]

end Lib

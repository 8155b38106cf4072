import Mathlib.Data.List.Basic

/-!
# Compacting an array by hand

A fixed array with a count holds a list: the entries in front of the count. Removing an entry is
written as a search loop and, at the first hit, a loop that moves every later entry one place
down. `take_compact` says that this is `List.erase` on the entries in front of the count.

The loops run over the number of entries left, `d` is what an out-of-range read gives.
-/

namespace Lib

variable {α : Type*}

/-- `for (next; next < count; ++next) order[next - 1] = order[next];` -/
def shiftDown (d : α) : Nat → Nat → List α → List α
  | 0, _, order => order
  | n + 1, next, order => shiftDown d n (next + 1) (order.set (next - 1) (order.getD next d))

/-- The search from `index` with `n` entries left in front of `count`, and the removal of the
first hit: the array and the count after it. -/
def compactFrom [DecidableEq α] (d a : α) (count : Nat) : Nat → Nat → List α → List α × Nat
  | 0, _, order => (order, count)
  | n + 1, index, order =>
    if order.getD index d = a then (shiftDown d (count - (index + 1)) (index + 1) order, count - 1)
    else compactFrom d a count n (index + 1) order

/-- Removes the first `a` among the first `count` entries. -/
def compact [DecidableEq α] (d a : α) (order : List α) (count : Nat) : List α × Nat :=
  compactFrom d a count count 0 order

variable {d a : α} {order : List α} {n next index count : Nat}

@[simp] theorem length_shiftDown : (shiftDown d n next order).length = order.length := by
  induction n generalizing next order with
  | zero => rfl
  | succ n ih =>
    rw [shiftDown, ih]
    simp

theorem getElem?_shiftDown (h : next + n ≤ order.length) (hn : 0 < next) (i : Nat) :
    (shiftDown d n next order)[i]? =
      if next - 1 ≤ i ∧ i + 1 < next + n then order[i + 1]? else order[i]? := by
  induction n generalizing next order with
  | zero =>
    rw [if_neg (by omega)]
    rfl
  | succ n ih =>
    have hlt : next < order.length := by omega
    rw [shiftDown, ih (by simp; omega) (by omega)]
    by_cases hi : i = next - 1
    · subst hi
      rw [if_neg (by omega), if_pos (by omega), List.getElem?_set_self (by omega),
        Nat.sub_add_cancel hn, List.getElem?_eq_getElem hlt, List.getD_eq_getElem?_getD,
        List.getElem?_eq_getElem hlt]
      rfl
    · by_cases hc : next - 1 ≤ i ∧ i + 1 < next + (n + 1)
      · rw [if_pos hc, if_pos (by omega), List.getElem?_set_ne (by omega)]
      · rw [if_neg hc, if_neg (by omega), List.getElem?_set_ne (Ne.symm hi)]

theorem take_shiftDown (h : count ≤ order.length) (hi : index < count) :
    (shiftDown d (count - (index + 1)) (index + 1) order).take (count - 1) =
      (order.take count).eraseIdx index := by
  apply List.ext_getElem?
  intro i
  rw [List.getElem?_eraseIdx, List.getElem?_take, getElem?_shiftDown (by omega) (by omega)]
  simp only [List.getElem?_take]
  by_cases h1 : i < index
  · rw [if_pos (by omega), if_neg (by omega), if_pos h1, if_pos (by omega)]
  · rw [if_neg h1]
    by_cases h2 : i < count - 1
    · rw [if_pos h2, if_pos (by omega), if_pos (by omega)]
    · rw [if_neg h2, if_neg (by omega)]

theorem compactFrom_spec [DecidableEq α] (h : count ≤ order.length) (hi : index + n = count)
    (hnot : a ∉ order.take index) :
    (compactFrom d a count n index order).1.length = order.length ∧
      (compactFrom d a count n index order).2 = ((order.take count).erase a).length ∧
      (compactFrom d a count n index order).1.take (compactFrom d a count n index order).2 =
        (order.take count).erase a := by
  induction n generalizing index with
  | zero =>
    obtain rfl : index = count := by omega
    rw [List.erase_of_not_mem hnot]
    simp [compactFrom, h]
  | succ n ih =>
    have hlt : index < order.length := by omega
    have hsplit : order.take (index + 1) = order.take index ++ [order[index]] := by
      rw [List.take_succ_eq_append_getElem hlt]
    rw [compactFrom]
    have hget : order.getD index d = order[index] := by
      rw [List.getD_eq_getElem?_getD, List.getElem?_eq_getElem hlt]
      rfl
    rw [hget]
    split_ifs with he
    · have herase : (order.take count).erase a = (order.take count).eraseIdx index := by
        apply List.erase_eq_eraseIdx_of_idxOf
        have hcut : order.take count = order.take index ++ a :: (order.take count).drop (index + 1) := by
          conv_lhs => rw [← List.take_append_drop (index + 1) (order.take count)]
          rw [List.take_take, Nat.min_eq_left (by omega), hsplit, he, List.append_assoc]
          rfl
        rw [hcut, List.idxOf_append_of_notMem hnot]
        simp [Nat.min_eq_left (show index ≤ order.length by omega)]
      rw [take_shiftDown h (by omega), herase, length_shiftDown]
      refine ⟨rfl, ?_, rfl⟩
      have hlen : (order.take count).length = count := List.length_take_of_le h
      rw [List.length_eraseIdx_of_lt (by omega), hlen]
    · refine ih (by omega) fun hm => ?_
      rw [hsplit] at hm
      exact (List.mem_append.1 hm).elim hnot fun hm => he (List.mem_singleton.1 hm).symm

/-- Compaction erases from the list the array holds. -/
theorem take_compact [DecidableEq α] (h : count ≤ order.length) :
    (compact d a order count).1.take (compact d a order count).2 = (order.take count).erase a :=
  (compactFrom_spec h (by omega) (by simp)).2.2

theorem compact_snd [DecidableEq α] (h : count ≤ order.length) :
    (compact d a order count).2 = ((order.take count).erase a).length :=
  (compactFrom_spec h (by omega) (by simp)).2.1

theorem length_compact [DecidableEq α] (h : count ≤ order.length) :
    (compact d a order count).1.length = order.length :=
  (compactFrom_spec h (by omega) (by simp)).1

/-- Writing at the count appends to the list the array holds. -/
theorem take_set_succ (h : count < order.length) :
    (order.set count a).take (count + 1) = order.take count ++ [a] := by
  rw [List.take_succ_eq_append_getElem (by simpa using h), List.getElem_set_self,
    List.take_set_of_le (Nat.le_refl _)]

end Lib

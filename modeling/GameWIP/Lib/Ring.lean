import Mathlib.Data.List.Rotate

/-!
# Rings

A ring is a queue in a fixed array of slots: `count` values from the position `head` on, around the
end of the array. Its contents are read off the slots turned to the head. Each operation changes the
contents as the list operation does: `push` appends, `pop` takes the first, `setTail` replaces the
last, `modify` changes one in place, `removeAt` takes one out of the middle, `clear` empties.

`updateFirst` changes the first value with a property; `updateFirst_split` says what it leaves.
-/

namespace Lib

variable {α : Type*}

/-- A queue in a fixed array. -/
structure Ring (α : Type*) where
  slots : List α
  head : Nat
  count : Nat
  head_lt : head < slots.length
  count_le : count ≤ slots.length

namespace Ring

variable (r : Ring α)

def capacity : Nat := r.slots.length

/-- The slot of the value behind `i` others. -/
def slot (i : Nat) : Nat := (r.head + i) % r.capacity

/-- The values, oldest first. -/
def contents : List α := (r.slots.rotate r.head).take r.count

theorem capacity_pos : 0 < r.capacity := Nat.zero_lt_of_lt r.head_lt

/-- An empty ring of default values. -/
def ofCapacity [Inhabited α] (n : Nat) (h : 0 < n) : Ring α where
  slots := List.replicate n default
  head := 0
  count := 0
  head_lt := by simpa
  count_le := Nat.zero_le _

def push (a : α) (h : r.count ≠ r.capacity) : Ring α where
  slots := r.slots.set (r.slot r.count) a
  head := r.head
  count := r.count + 1
  head_lt := by simpa using r.head_lt
  count_le := by
    rw [List.length_set]
    exact Nat.lt_of_le_of_ne r.count_le h

/-- Leaves a default value in the slot of the first. -/
def pop [Inhabited α] : Ring α where
  slots := r.slots.set r.head default
  head := (r.head + 1) % r.capacity
  count := r.count - 1
  head_lt := by
    rw [List.length_set]
    exact Nat.mod_lt _ r.capacity_pos
  count_le := by
    rw [List.length_set]
    exact Nat.le_trans (Nat.sub_le _ _) r.count_le

/-- Changes the value behind `i` others. -/
def modify (i : Nat) (f : α → α) : Ring α where
  slots := r.slots.modify (r.slot i) f
  head := r.head
  count := r.count
  head_lt := by simpa using r.head_lt
  count_le := by simpa using r.count_le

def setTail (a : α) : Ring α := r.modify (r.count - 1) fun _ => a

/-- Default values in all slots. -/
def clear [Inhabited α] : Ring α where
  slots := r.slots.map fun _ => default
  head := 0
  count := 0
  head_lt := by
    rw [List.length_map]
    exact r.capacity_pos
  count_le := Nat.zero_le _

/-- Empties a full ring. -/
def makeRoom [Inhabited α] : Ring α := if r.count = r.capacity then r.clear else r

/-- Changes the first value with the property. -/
def updateFirst [Inhabited α] (p : α → Bool) (f : α → α) : Ring α :=
  match (List.range r.count).find? fun i => p (r.slots.getD (r.slot i) default) with
  | some i => r.modify i f
  | none => r

/-- The value behind `i` others. -/
def get [Inhabited α] (i : Nat) : α := r.slots.getD (r.slot i) default

/-- Each of `n` values from the one behind `i` others on is overwritten by its successor. -/
def shift [Inhabited α] : Nat → Nat → Ring α → Ring α
  | 0, _, r => r
  | n + 1, i, r => shift n (i + 1) (r.modify i fun _ => r.get (i + 1))

/-- Leaves a default value in the slot of the last. -/
def dropTail [Inhabited α] : Ring α where
  slots := r.slots.set (r.slot (r.count - 1)) default
  head := r.head
  count := r.count - 1
  head_lt := by simpa using r.head_lt
  count_le := by
    rw [List.length_set]
    exact Nat.le_trans (Nat.sub_le _ _) r.count_le

/-- Takes out the value behind `i` others; those behind it move up. -/
def removeAt [Inhabited α] (i : Nat) : Ring α := (shift (r.count - 1 - i) i r).dropTail

/-- An empty ring starts over at its first slot. -/
def restart : Ring α where
  slots := r.slots
  head := if r.count = 0 then 0 else r.head
  count := r.count
  head_lt := by
    split
    · exact r.capacity_pos
    · exact r.head_lt
  count_le := r.count_le

variable {r} {a : α} {i : Nat} {f : α → α}

@[simp] theorem capacity_push (h : r.count ≠ r.capacity) : (r.push a h).capacity = r.capacity := by
  simp [push, capacity]

@[simp] theorem capacity_pop [Inhabited α] : r.pop.capacity = r.capacity := by
  simp [pop, capacity]

@[simp] theorem capacity_modify : (r.modify i f).capacity = r.capacity := by
  simp [modify, capacity]

@[simp] theorem capacity_setTail : (r.setTail a).capacity = r.capacity := capacity_modify

@[simp] theorem capacity_clear [Inhabited α] : r.clear.capacity = r.capacity := by
  simp [clear, capacity]

@[simp] theorem count_clear [Inhabited α] : r.clear.count = 0 := rfl

@[simp] theorem contents_clear [Inhabited α] : r.clear.contents = [] := rfl

@[simp] theorem contents_ofCapacity [Inhabited α] {n : Nat} (h : 0 < n) :
    (ofCapacity n h : Ring α).contents = [] := rfl

@[simp] theorem length_contents : r.contents.length = r.count := by
  simp [contents, r.count_le]

theorem count_ne_capacity_clear [Inhabited α] : r.clear.count ≠ r.clear.capacity := by
  have := r.capacity_pos
  simp
  omega

theorem count_ne_capacity_makeRoom [Inhabited α] : r.makeRoom.count ≠ r.makeRoom.capacity := by
  unfold makeRoom
  split
  · exact count_ne_capacity_clear
  · assumption

/-- The value behind `i` others. -/
theorem getElem?_contents (h : i < r.count) : r.contents[i]? = r.slots[r.slot i]? := by
  have hi : i < r.slots.length := Nat.lt_of_lt_of_le h r.count_le
  rw [contents, List.getElem?_take_of_lt h, List.getElem?_rotate hi, slot, capacity, Nat.add_comm]

/-- Different places have different slots. -/
theorem slot_inj {j : Nat} (hi : i < r.capacity) (hj : j < r.capacity)
    (h : r.slot i = r.slot j) : i = j := by
  have hhead := r.head_lt
  unfold slot capacity at *
  rw [Nat.add_mod_eq_ite, Nat.add_mod_eq_ite, Nat.mod_eq_of_lt hhead, Nat.mod_eq_of_lt hi,
    Nat.mod_eq_of_lt hj] at h
  split at h <;> split at h <;> omega

theorem rotate_modify (hi : i < r.capacity) :
    (r.slots.modify (r.slot i) f).rotate r.head = (r.slots.rotate r.head).modify i f := by
  refine List.ext_getElem? fun j => ?_
  by_cases hj : j < r.slots.length
  · have hslot : (j + r.head) % r.slots.length = r.slot j := by
      rw [slot, capacity, Nat.add_comm]
    rw [List.getElem?_rotate (by simpa), List.length_modify, hslot, List.getElem?_modify,
      List.getElem?_modify, List.getElem?_rotate hj, hslot]
    by_cases hij : i = j
    · simp [hij]
    · simp [hij, show r.slot i ≠ r.slot j from fun heq => hij (slot_inj hi hj heq)]
  · rw [List.getElem?_eq_none (by simpa using hj), List.getElem?_eq_none (by simpa using hj)]

theorem contents_modify (h : i < r.count) :
    (r.modify i f).contents = r.contents.modify i f := by
  have hi := Nat.lt_of_lt_of_le h r.count_le
  show ((r.slots.modify (r.slot i) f).rotate r.head).take r.count = _
  rw [rotate_modify hi, contents]
  refine List.ext_getElem? fun j => ?_
  by_cases hj : j < r.count
  · rw [List.getElem?_take_of_lt hj, List.getElem?_modify, List.getElem?_modify,
      List.getElem?_take_of_lt hj]
  · rw [List.getElem?_eq_none (by simp; omega), List.getElem?_eq_none (by simp; omega)]

@[simp] theorem contents_push (h : r.count ≠ r.capacity) :
    (r.push a h).contents = r.contents ++ [a] := by
  have hi : r.count < r.capacity := Nat.lt_of_le_of_ne r.count_le h
  have hlength : r.count < (r.slots.rotate r.head).length := by
    rw [List.length_rotate]
    exact hi
  show ((r.slots.set (r.slot r.count) a).rotate r.head).take (r.count + 1) = _
  rw [List.set_eq_modify, rotate_modify hi, ← List.set_eq_modify, List.take_add_one,
    List.take_set_of_le (Nat.le_refl _), List.getElem?_set_self hlength]
  rfl

/-- The first value and the others. -/
theorem contents_pop [Inhabited α] (h : r.count ≠ 0) :
    r.contents = r.slots.getD r.head default :: r.pop.contents := by
  have hhead := r.head_lt
  have hcount := r.count_le
  refine List.ext_getElem? fun i => ?_
  cases i with
  | zero =>
    rw [getElem?_contents (by omega), slot, Nat.add_zero, capacity, Nat.mod_eq_of_lt hhead,
      List.getD_eq_getElem?_getD, List.getElem?_eq_getElem hhead]
    rfl
  | succ i =>
    rw [List.getElem?_cons_succ]
    by_cases hi : i < r.count - 1
    · have hslot : r.pop.slot i = r.slot (i + 1) := by
        rw [slot, slot, capacity_pop]
        show ((r.head + 1) % r.capacity + i) % r.capacity = _
        rw [Nat.mod_add_mod, Nat.add_assoc, Nat.add_comm 1]
      have hne : r.head ≠ r.slot (i + 1) := by
        intro heq
        have hzero : r.slot 0 = r.slot (i + 1) := by
          rw [← heq, slot, Nat.add_zero, capacity, Nat.mod_eq_of_lt hhead]
        have := slot_inj r.capacity_pos (by unfold capacity; omega) hzero
        omega
      rw [getElem?_contents (by omega), getElem?_contents (r := r.pop) hi, hslot]
      exact (List.getElem?_set_ne hne).symm
    · rw [List.getElem?_eq_none (by simp; omega), List.getElem?_eq_none (by simp [pop]; omega)]

/-- Replacing the last value. -/
theorem contents_setTail {l : List α} {b : α} (h : r.contents = l ++ [b]) :
    (r.setTail a).contents = l ++ [a] := by
  have hcount : r.count = l.length + 1 := by
    rw [← length_contents, h]
    simp
  rw [setTail, contents_modify (by omega), h, hcount, Nat.add_sub_cancel, ← List.set_eq_modify]
  simp

/-- The last value. -/
theorem getLast_contents [Inhabited α] (h : r.count ≠ 0) : ∃ l,
    r.contents = l ++ [r.slots.getD (r.slot (r.count - 1)) default] := by
  have hne : r.contents ≠ [] := by
    rw [← List.length_pos_iff, length_contents]
    omega
  refine ⟨r.contents.dropLast, ?_⟩
  have hat := getElem?_contents (r := r) (i := r.count - 1) (by omega)
  rw [List.getD_eq_getElem?_getD, ← hat, ← length_contents, ← List.getLast?_eq_getElem?,
    List.getLast?_eq_some_getLast hne]
  exact (List.dropLast_append_getLast hne).symm

/-- Updating the first value with a property that some value has. -/
theorem updateFirst_split [Inhabited α] {p : α → Bool} (h : ∃ b ∈ r.contents, p b = true) :
    ∃ l₁ b l₂, r.contents = l₁ ++ b :: l₂ ∧ p b = true ∧ (∀ c ∈ l₁, p c = false) ∧
      (r.updateFirst p f).contents = l₁ ++ f b :: l₂ := by
  have hslot : ∀ i < r.count, r.contents[i]? = some (r.slots.getD (r.slot i) default) := by
    intro i hi
    have hlt : r.slot i < r.slots.length := Nat.mod_lt _ r.capacity_pos
    rw [getElem?_contents hi, List.getD_eq_getElem?_getD, List.getElem?_eq_getElem hlt]
    rfl
  unfold updateFirst
  cases hfind : (List.range r.count).find? fun i => p (r.slots.getD (r.slot i) default) with
  | none =>
    obtain ⟨b, hb, hp⟩ := h
    obtain ⟨i, hat⟩ := List.mem_iff_getElem?.1 hb
    have hi : i < r.count := by
      rw [← length_contents]
      exact (List.getElem?_eq_some_iff.1 hat).1
    rw [hslot i hi] at hat
    have := List.find?_eq_none.1 hfind i (List.mem_range.2 hi)
    rw [Option.some.inj hat] at this
    exact absurd hp this
  | some i =>
    have hi : i < r.count := List.mem_range.1 (List.mem_of_find?_eq_some hfind)
    obtain ⟨hlt, heq⟩ := List.getElem?_eq_some_iff.1 (hslot i hi)
    refine ⟨r.contents.take i, r.contents[i], r.contents.drop (i + 1), by simp, ?_, ?_, ?_⟩
    · rw [heq]
      simpa using List.find?_some hfind
    · intro c hc
      obtain ⟨j, hj, rfl⟩ := List.mem_take_iff_getElem.1 hc
      have hji : j < i := by omega
      have hjc : j < r.count := by omega
      have hat := (List.getElem?_eq_some_iff.1 (hslot j hjc)).2
      rw [hat]
      obtain ⟨-, hbefore⟩ := List.find?_range_eq_some.1 hfind
      exact Bool.eq_false_iff.2 fun htrue => absurd htrue (by simpa using hbefore.2 j hji)
    · dsimp only
      rw [contents_modify hi, List.modify_eq_take_cons_drop hlt]

theorem get_eq [Inhabited α] (h : i < r.count) : r.contents[i]? = some (r.get i) := by
  have hlt : r.slot i < r.slots.length := Nat.mod_lt _ r.capacity_pos
  rw [getElem?_contents h, get, List.getD_eq_getElem?_getD, List.getElem?_eq_getElem hlt]
  rfl

@[simp] theorem capacity_dropTail [Inhabited α] : r.dropTail.capacity = r.capacity := by
  simp [dropTail, capacity]

@[simp] theorem capacity_restart : r.restart.capacity = r.capacity := rfl

@[simp] theorem contents_restart : r.restart.contents = r.contents := by
  unfold contents restart
  by_cases h : r.count = 0
  · simp [h]
  · simp [h]

theorem contents_dropTail [Inhabited α] :
    r.dropTail.contents = r.contents.dropLast := by
  have hcount := r.count_le
  refine List.ext_getElem? fun j => ?_
  by_cases hj : j < r.count - 1
  · have hne : r.slot (r.count - 1) ≠ r.slot j := fun heq => by
      have := slot_inj (by unfold capacity; omega) (by unfold capacity; omega) heq
      omega
    have hslot : r.dropTail.slot j = r.slot j := by
      rw [slot, slot, capacity_dropTail]
      rfl
    rw [getElem?_contents (r := r.dropTail) hj, hslot, List.getElem?_dropLast, if_pos (by simpa),
      getElem?_contents (by omega)]
    exact List.getElem?_set_ne hne
  · rw [List.getElem?_eq_none (by simp [dropTail]; omega), List.getElem?_eq_none (by simp; omega)]

theorem shift_size [Inhabited α] {n : Nat} :
    (shift n i r).capacity = r.capacity ∧ (shift n i r).count = r.count := by
  induction n generalizing r i with
  | zero => exact ⟨rfl, rfl⟩
  | succ n ih => exact ⟨ih.1.trans capacity_modify, ih.2⟩

theorem contents_shift [Inhabited α] {n : Nat} (h : i + n < r.count) (j : Nat) :
    (shift n i r).contents[j]? =
      if i ≤ j ∧ j < i + n then r.contents[j + 1]? else r.contents[j]? := by
  induction n generalizing r i with
  | zero =>
    rw [if_neg (by omega)]
    rfl
  | succ n ih =>
    have hcount : (r.modify i fun _ => r.get (i + 1)).count = r.count := rfl
    refine (ih (r := r.modify i fun _ => r.get (i + 1)) (i := i + 1) (by omega)).trans ?_
    have hnext := get_eq (r := r) (i := i + 1) (by omega)
    have hhere := get_eq (r := r) (i := i) (by omega)
    rw [contents_modify (by omega), List.getElem?_modify, List.getElem?_modify]
    by_cases hij : i = j
    · subst hij
      rw [if_neg (by omega), if_pos (by omega), hhere, hnext]
      simp
    · have hother : ∀ k, i ≠ k →
          (fun a => if i = k then r.get (i + 1) else a) <$> r.contents[k]? = r.contents[k]? :=
        fun k hk => by simp [hk]
      rw [hother j hij]
      by_cases hj : i + 1 ≤ j ∧ j < i + 1 + n
      · rw [if_pos hj, if_pos (by omega), hother (j + 1) (by omega)]
      · rw [if_neg hj, if_neg (by omega)]

@[simp] theorem capacity_removeAt [Inhabited α] : (r.removeAt i).capacity = r.capacity := by
  rw [removeAt, capacity_dropTail, shift_size.1]

@[simp] theorem count_removeAt [Inhabited α] : (r.removeAt i).count = r.count - 1 := by
  show (shift _ i r).count - 1 = _
  rw [shift_size.2]

theorem count_ne_capacity_removeAt [Inhabited α] (h : r.count = r.capacity) :
    (r.removeAt i).count ≠ (r.removeAt i).capacity := by
  have := r.capacity_pos
  simp
  omega

/-- Taking a value out of the middle. -/
theorem contents_removeAt [Inhabited α] (h : i < r.count) :
    (r.removeAt i).contents = r.contents.eraseIdx i := by
  rw [removeAt, contents_dropTail]
  refine List.ext_getElem? fun j => ?_
  rw [List.getElem?_dropLast, length_contents, shift_size.2, contents_shift (by omega),
    List.getElem?_eraseIdx]
  by_cases hj : j < r.count - 1
  · rw [if_pos hj]
    by_cases hij : j < i
    · rw [if_pos hij, if_neg (by omega)]
    · rw [if_neg hij, if_pos (by omega)]
  · rw [if_neg hj]
    split_ifs
    · exact (List.getElem?_eq_none (by simp; omega)).symm
    · exact (List.getElem?_eq_none (by simp; omega)).symm

/-! ## A value among the others -/

section
variable {l₁ l₂ : List α}

theorem lt_count_of_split (h : r.contents = l₁ ++ a :: l₂) : l₁.length < r.count := by
  rw [← length_contents, h, List.length_append, List.length_cons]
  omega

theorem contents_modify_of_split (h : r.contents = l₁ ++ a :: l₂) :
    (r.modify l₁.length f).contents = l₁ ++ f a :: l₂ := by
  rw [contents_modify (lt_count_of_split h), h, List.modify_eq_take_cons_drop (by simp)]
  simp

theorem contents_removeAt_of_split [Inhabited α] (h : r.contents = l₁ ++ a :: l₂) :
    (r.removeAt l₁.length).contents = l₁ ++ l₂ := by
  rw [contents_removeAt (lt_count_of_split h), h, List.eraseIdx_append_of_length_le le_rfl,
    Nat.sub_self, List.eraseIdx_cons_zero]

/-- The value behind `i` others splits the contents. -/
theorem exists_split_of_lt [Inhabited α] (h : i < r.count) :
    ∃ l₁ l₂, r.contents = l₁ ++ r.get i :: l₂ ∧ l₁.length = i := by
  obtain ⟨hi, hget⟩ := List.getElem?_eq_some_iff.1 (get_eq h)
  refine ⟨r.contents.take i, r.contents.drop (i + 1), ?_, ?_⟩
  · rw [← hget]
    simp
  · rw [List.length_take]
    omega

end

theorem exists_updateFirst [Inhabited α] (f : α → α) {p : α → Bool}
    (h : ∃ b ∈ r.contents, p b = true) : ∃ b, p b = true ∧ f b ∈ (r.updateFirst p f).contents := by
  obtain ⟨l₁, b, l₂, -, hb, -, hnext⟩ := updateFirst_split (f := f) h
  exact ⟨b, hb, by simp [hnext]⟩

end Ring

end Lib

import Mathlib.Data.List.Basic
import Mathlib.Algebra.Ring.Nat

/-!
# Tables of owned objects

A `Slots α` is the table of the objects of type `α` a run has built so far, each at the position
it was built at; destroying an object empties its slot and no slot is used twice. `tally p s` is
the number of live objects with the property `p`, the quantity a reference count has to follow:
each operation changes it by the objects it reads and writes, and by nothing else. `total f l` is
the same for a table of weights.
-/

namespace Lib

variable {α : Type*}

/-- The objects built so far; `none` is an object already destroyed. -/
abbrev Slots (α : Type*) := List (Option α)

namespace Slots

/-- The live object at a position. -/
def get? (s : Slots α) (i : Nat) : Option α := (s[i]?).join

/-- The number of live objects with property `p`. -/
def tally (p : α → Bool) (s : Slots α) : Nat := s.countP (fun o => o.any p)

/-- What a slot adds to the tally. -/
def weight (p : α → Bool) (o : Option α) : Nat := if o.any p then 1 else 0

variable {p : α → Bool} {s : Slots α} {i j : Nat} {a b : α} {o : Option α}

@[simp] theorem tally_nil : tally p ([] : Slots α) = 0 := rfl

@[simp] theorem weight_none : weight p none = 0 := rfl

@[simp] theorem weight_some : weight p (some a) = if p a then 1 else 0 := rfl

@[simp] theorem tally_append : tally p (s ++ [o]) = tally p s + weight p o := by
  simp [tally, weight, List.countP_append, List.countP_cons]

theorem get?_eq_some : s.get? i = some a ↔ s[i]? = some (some a) := by
  unfold get?
  cases h : s[i]? with
  | none => simp
  | some o => cases o <;> simp

theorem lt_length (h : s.get? i = some a) : i < s.length :=
  (List.getElem?_eq_some_iff.1 (get?_eq_some.1 h)).1

/-- Replacing an object changes the tally by the object taken and the one put. -/
theorem tally_set (h : s.get? i = some a) :
    tally p (s.set i o) + weight p (some a) = tally p s + weight p o := by
  obtain ⟨hi, he⟩ := List.getElem?_eq_some_iff.1 (get?_eq_some.1 h)
  have hpos : p a = true → 0 < s.countP (fun o => o.any p) := by
    intro hp
    exact List.countP_pos_iff.2 ⟨s[i], List.getElem_mem hi, by simpa [he] using hp⟩
  unfold tally weight
  rw [List.countP_set hi, he]
  by_cases hp : p a = true
  · have := hpos hp
    simp only [Option.any_some, hp, if_true]
    omega
  · simp [hp]

theorem weight_le_tally (h : s.get? i = some a) : weight p (some a) ≤ tally p s := by
  have := tally_set (p := p) (o := none) h
  simp only [weight_none] at this
  omega

theorem tally_pos (h : s.get? i = some a) (hp : p a = true) : 0 < tally p s := by
  have := weight_le_tally (p := p) h
  simp only [weight_some, hp, if_true] at this
  omega

theorem get?_set_self (h : s.get? i = some a) : get? (s.set i o) i = o := by
  unfold get?
  rw [List.getElem?_set_self (lt_length h)]
  rfl

theorem get?_set_ne (h : i ≠ j) : get? (s.set i o) j = s.get? j := by
  unfold get?
  rw [List.getElem?_set_ne h]

theorem get?_append (h : j < s.length) : get? (s ++ [o]) j = s.get? j := by
  unfold get?
  rw [List.getElem?_append_left h]

theorem get?_append_none : get? (s ++ [none]) j = s.get? j := by
  unfold get?
  rcases Nat.lt_trichotomy j s.length with hj | hj | hj
  · rw [List.getElem?_append_left hj]
  · subst hj
    simp
  · rw [List.getElem?_eq_none (by simp; omega), List.getElem?_eq_none (by omega)]

/-- Writing back the object that is there. -/
theorem set_get? (h : s.get? i = some a) : s.set i (some a) = s := by
  obtain ⟨hi, he⟩ := List.getElem?_eq_some_iff.1 (get?_eq_some.1 h)
  rw [← he]
  exact List.set_getElem_self hi

/-- An object of a table with one slot rewritten is the object written or one of the table. -/
theorem get?_set_cases (h : get? (s.set i o) j = some b) : o = some b ∨ s.get? j = some b := by
  by_cases hij : i = j
  · subst hij
    by_cases hi : i < s.length
    · rw [get?, List.getElem?_set_self hi] at h
      exact .inl h
    · rw [List.set_eq_of_length_le (by omega)] at h
      exact .inr h
  · rw [get?_set_ne hij] at h
    exact .inr h

theorem get?_append_cases (h : get? (s ++ [o]) j = some b) : o = some b ∨ s.get? j = some b := by
  unfold get? at h ⊢
  rcases Nat.lt_trichotomy j s.length with hj | hj | hj
  · rw [List.getElem?_append_left hj] at h
    exact .inr h
  · subst hj
    rw [List.getElem?_concat_length] at h
    exact .inl h
  · rw [List.getElem?_eq_none (by simp; omega)] at h
    cases h

end Slots

/-- An entry of a table in which one has been replaced. -/
theorem getElem?_set_cases {l : List α} {i j : Nat} {a b : α} (h : (l.set i a)[j]? = some b) :
    j = i ∧ b = a ∨ j ≠ i ∧ l[j]? = some b := by
  by_cases hij : i = j
  · subst hij
    obtain ⟨hi, hb⟩ := List.getElem?_eq_some_iff.1 h
    rw [List.getElem_set_self] at hb
    exact .inl ⟨rfl, hb.symm⟩
  · rw [List.getElem?_set_ne hij] at h
    exact .inr ⟨fun hji => hij hji.symm, h⟩

/-! ## Totals -/

/-- The sum of what the entries of a table weigh. -/
def total (f : α → Nat) (l : List α) : Nat := (l.map f).sum

variable {f : α → Nat} {l : List α} {i : Nat} {a b : α}

theorem le_total (h : l[i]? = some a) : f a ≤ total f l := by
  induction l generalizing i with
  | nil => simp at h
  | cons c l ih =>
    cases i with
    | zero =>
      obtain rfl : c = a := by simpa using h
      simp [total]
    | succ i =>
      have := ih (by simpa using h)
      simp only [total, List.map_cons, List.sum_cons] at this ⊢
      omega

theorem total_set (h : l[i]? = some a) : total f (l.set i b) + f a = total f l + f b := by
  induction l generalizing i with
  | nil => simp at h
  | cons c l ih =>
    cases i with
    | zero =>
      obtain rfl : c = a := by simpa using h
      simp only [total, List.set_cons_zero, List.map_cons, List.sum_cons]
      omega
    | succ i =>
      have := ih (by simpa using h)
      simp only [total, List.set_cons_succ, List.map_cons, List.sum_cons] at this ⊢
      omega

end Lib

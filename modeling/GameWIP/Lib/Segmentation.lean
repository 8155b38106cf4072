import Mathlib.Order.Bounds.Basic
import Mathlib.Data.List.Basic
import Mathlib.Data.List.Infix
import Mathlib.Algebra.Ring.Nat

/-!
# Streaming segmentation

A `Segmenter` reads a list of symbols from left to right, keeps a state, and decides before each
symbol, from the symbol before it and the state, whether a segment ends there. Each symbol has a
positive width, and a boundary is the width of the symbols in front of it. A boundary always
stands before the first symbol and behind the last one.

The boundaries of `l ++ r` are those inside `l`, then those inside `r` read on from the context `l`
leaves (`interior_append`). When a segment ends before a symbol and the symbol resets the state
(`Restart`), the boundaries behind it are those of a run that starts there
(`boundaries_restart`). Searching forwards or backwards from such a place finds the neighbours of
an offset among all boundaries (`least_after`, `greatest_before`).
-/

namespace Lib

/-- A left-to-right segmentation of lists of symbols. -/
structure Segmenter (σ St : Type*) where
  start : St
  consume : St → σ → St
  breaks : σ → σ → St → Bool
  width : σ → Nat
  width_pos : ∀ s, 0 < width s

namespace Segmenter

variable {σ St : Type*} (M : Segmenter σ St)

/-- The last symbol read, and the state. -/
abbrev Context (σ St : Type*) := Option σ × St

def initial : Context σ St := (none, M.start)

def next (x : Context σ St) (c : σ) : Context σ St := (some c, M.consume x.2 c)

/-- The context behind a list of symbols. -/
def read (x : Context σ St) (l : List σ) : Context σ St := l.foldl M.next x

/-- Whether a segment ends before the symbol. -/
def breakBefore (x : Context σ St) (c : σ) : Bool :=
  match x.1 with
  | none => true
  | some p => M.breaks p c x.2

def length (l : List σ) : Nat := (l.map M.width).sum

/-- The boundaries before symbols of the list, which starts at the offset. -/
def interior (x : Context σ St) (off : Nat) : List σ → List Nat
  | [] => []
  | c :: cs => (if M.breakBefore x c then [off] else []) ++ interior (M.next x c) (off + M.width c) cs

/-- All boundaries of a list of symbols. -/
def boundaries (l : List σ) : List Nat := M.interior M.initial 0 l ++ [M.length l]

@[simp] theorem length_nil : M.length [] = 0 := rfl

@[simp] theorem length_cons (c : σ) (l : List σ) : M.length (c :: l) = M.width c + M.length l :=
  rfl

@[simp] theorem length_append (l r : List σ) : M.length (l ++ r) = M.length l + M.length r := by
  simp [length]

@[simp] theorem read_nil (x : Context σ St) : M.read x [] = x := rfl

@[simp] theorem read_cons (x : Context σ St) (c : σ) (l : List σ) :
    M.read x (c :: l) = M.read (M.next x c) l := rfl

@[simp] theorem read_append (x : Context σ St) (l r : List σ) :
    M.read x (l ++ r) = M.read (M.read x l) r := by
  simp [read]

theorem length_eq_zero {l : List σ} : M.length l = 0 ↔ l = [] := by
  cases l with
  | nil => simp
  | cons c l =>
    have := M.width_pos c
    simp only [length_cons, reduceCtorEq, iff_false]
    omega

/-- The starts of the symbols increase. -/
theorem pairwise_inits (l : List σ) : (l.inits.map M.length).Pairwise (· < ·) := by
  induction l with
  | nil => simp
  | cons c l ih =>
    have hc := M.width_pos c
    have hlater : (l.inits.map fun t => c :: t).map M.length =
        (l.inits.map M.length).map (M.width c + ·) := by
      simp only [List.map_map]
      exact List.map_congr_left fun t _ => M.length_cons c t
    rw [List.inits_cons, List.map_cons, hlater, List.pairwise_cons, List.pairwise_map]
    refine ⟨fun x hx => ?_, ih.imp fun hlt => Nat.add_lt_add_left hlt _⟩
    obtain ⟨y, -, rfl⟩ := List.mem_map.1 hx
    rw [length_nil]
    omega

/-! ## The boundaries inside a list -/

theorem interior_append (x : Context σ St) (off : Nat) (l r : List σ) :
    M.interior x off (l ++ r) =
      M.interior x off l ++ M.interior (M.read x l) (off + M.length l) r := by
  induction l generalizing x off with
  | nil => rfl
  | cons c l ih =>
    simp only [List.cons_append, interior, ih, List.append_assoc, read_cons, length_cons,
      Nat.add_assoc]

theorem interior_bounds {x : Context σ St} {off o : Nat} {l : List σ}
    (h : o ∈ M.interior x off l) : off ≤ o ∧ o < off + M.length l := by
  induction l generalizing x off with
  | nil => cases h
  | cons c l ih =>
    have hc := M.width_pos c
    rw [interior, List.mem_append] at h
    rw [length_cons]
    rcases h with h | h
    · split_ifs at h
      · rw [List.mem_singleton] at h
        omega
      · cases h
    · have := ih h
      omega

theorem interior_pairwise (x : Context σ St) (off : Nat) (l : List σ) :
    (M.interior x off l).Pairwise (· < ·) := by
  induction l generalizing x off with
  | nil => exact List.Pairwise.nil
  | cons c l ih =>
    have hc := M.width_pos c
    rw [interior, List.pairwise_append]
    refine ⟨by split_ifs <;> simp, ih _ _, fun a ha b hb => ?_⟩
    have hb' := M.interior_bounds hb
    split_ifs at ha
    · rw [List.mem_singleton] at ha
      omega
    · cases ha

/-! ## The boundaries of a list -/

theorem boundaries_pairwise (l : List σ) : (M.boundaries l).Pairwise (· < ·) := by
  rw [boundaries, List.pairwise_append]
  refine ⟨M.interior_pairwise _ _ _, by simp, fun a ha b hb => ?_⟩
  have := M.interior_bounds ha
  rw [List.mem_singleton] at hb
  omega

theorem length_mem_boundaries (l : List σ) : M.length l ∈ M.boundaries l := by
  simp [boundaries]

/-- The boundaries around a cut of the list before a symbol. -/
theorem boundaries_cut (l r : List σ) (c : σ) :
    M.boundaries (l ++ c :: r) =
      M.interior M.initial 0 l ++
        ((if M.breakBefore (M.read M.initial l) c then [M.length l] else []) ++
          (M.interior (M.next (M.read M.initial l) c) (M.length l + M.width c) r ++
            [M.length l + M.width c + M.length r])) := by
  simp only [boundaries, interior_append, interior, Nat.zero_add, length_append, length_cons,
    List.append_assoc, Nat.add_assoc]

/-- A cut is a boundary exactly when a segment ends before its symbol. -/
theorem mem_boundaries_cut {l r : List σ} {c : σ} :
    M.length l ∈ M.boundaries (l ++ c :: r) ↔ M.breakBefore (M.read M.initial l) c = true := by
  have hc := M.width_pos c
  rw [boundaries_cut]
  constructor
  · intro h
    by_contra hb
    rw [if_neg hb] at h
    simp only [List.nil_append, List.mem_append, List.mem_singleton] at h
    rcases h with h | h | h
    · have := M.interior_bounds h
      omega
    · have := M.interior_bounds h
      omega
    · omega
  · intro h
    simp [h]

/-- No boundary lies inside a symbol. -/
theorem boundaries_gap {l r : List σ} {c : σ} {o : Nat} (h : o ∈ M.boundaries (l ++ c :: r)) :
    o ≤ M.length l ∨ M.length l + M.width c ≤ o := by
  rw [boundaries_cut] at h
  simp only [List.mem_append, List.mem_singleton] at h
  rcases h with h | h | h | h
  · have := M.interior_bounds h
    omega
  · split_ifs at h
    · rw [List.mem_singleton] at h
      omega
    · cases h
  · have := M.interior_bounds h
    omega
  · omega

/-- A boundary behind a symbol is the next one. -/
theorem least_next {l r : List σ} {c : σ} (h : M.length (l ++ [c]) ∈ M.boundaries (l ++ c :: r)) :
    IsLeast {o | o ∈ M.boundaries (l ++ c :: r) ∧ M.length l < o} (M.length (l ++ [c])) := by
  have hc := M.width_pos c
  refine ⟨⟨h, by simp [hc]⟩, ?_⟩
  rintro o ⟨ho, hlt⟩
  have := M.boundaries_gap ho
  simp only [length_append, length_cons, length_nil]
  omega

/-- A boundary in front of a symbol is the previous one. -/
theorem greatest_previous {l r : List σ} {c : σ} (h : M.length l ∈ M.boundaries (l ++ c :: r)) :
    IsGreatest {o | o ∈ M.boundaries (l ++ c :: r) ∧ o < M.length (l ++ [c])} (M.length l) := by
  have hc := M.width_pos c
  refine ⟨⟨h, by simp [hc]⟩, ?_⟩
  rintro o ⟨ho, hlt⟩
  have := M.boundaries_gap ho
  simp only [length_append, length_cons, length_nil] at hlt
  omega

/-- Searching forwards over a symbol with no boundary behind it. -/
theorem least_skip {l r : List σ} {c : σ} {b : Nat}
    (h : M.length (l ++ [c]) ∉ M.boundaries (l ++ c :: r))
    (hb : IsLeast {o | o ∈ M.boundaries (l ++ c :: r) ∧ M.length (l ++ [c]) < o} b) :
    IsLeast {o | o ∈ M.boundaries (l ++ c :: r) ∧ M.length l < o} b := by
  have hlen : M.length (l ++ [c]) = M.length l + M.width c := by simp
  refine ⟨⟨hb.1.1, by have := hb.1.2; omega⟩, ?_⟩
  rintro o ⟨ho, hlt⟩
  refine hb.2 ⟨ho, ?_⟩
  have hgap := M.boundaries_gap ho
  have hne : o ≠ M.length (l ++ [c]) := fun he => h (he ▸ ho)
  omega

/-- Searching backwards over a symbol with no boundary in front of it. -/
theorem greatest_skip {l r : List σ} {c : σ} {b : Nat}
    (h : M.length l ∉ M.boundaries (l ++ c :: r))
    (hb : IsGreatest {o | o ∈ M.boundaries (l ++ c :: r) ∧ o < M.length l} b) :
    IsGreatest {o | o ∈ M.boundaries (l ++ c :: r) ∧ o < M.length (l ++ [c])} b := by
  have hlen : M.length (l ++ [c]) = M.length l + M.width c := by simp
  refine ⟨⟨hb.1.1, by have := hb.1.2; omega⟩, ?_⟩
  rintro o ⟨ho, hlt⟩
  refine hb.2 ⟨ho, ?_⟩
  have hgap := M.boundaries_gap ho
  have hne : o ≠ M.length l := fun he => h (he ▸ ho)
  omega

/-- Every boundary is a cut. -/
theorem exists_cut {l : List σ} {o : Nat} (h : o ∈ M.boundaries l) :
    ∃ a b, l = a ++ b ∧ o = M.length a := by
  suffices ∀ (x : Context σ St) (off : Nat), o ∈ M.interior x off l →
      ∃ a b, l = a ++ b ∧ o = off + M.length a by
    rw [boundaries, List.mem_append, List.mem_singleton] at h
    rcases h with h | h
    · simpa using this _ _ h
    · exact ⟨l, [], by simp, h⟩
  clear h
  induction l with
  | nil => exact fun _ _ h => nomatch h
  | cons c l ih =>
    intro x off h
    rw [interior, List.mem_append] at h
    rcases h with h | h
    · split_ifs at h
      · exact ⟨[], c :: l, rfl, by simpa using h⟩
      · cases h
    · obtain ⟨a, b, rfl, rfl⟩ := ih _ _ h
      exact ⟨c :: a, b, rfl, by simp [Nat.add_assoc]⟩

theorem zero_mem_boundaries (l : List σ) : 0 ∈ M.boundaries l := by
  cases l with
  | nil => simp [boundaries, interior]
  | cons c r => exact (M.mem_boundaries_cut (l := [])).2 rfl

/-- The text in front of a boundary has the boundaries up to there. -/
theorem boundaries_append {l r : List σ} (h : M.length l ∈ M.boundaries (l ++ r)) :
    ∃ later, M.boundaries (l ++ r) = M.boundaries l ++ later ∧ ∀ o ∈ later, M.length l < o := by
  cases r with
  | nil => exact ⟨[], by simp, by simp⟩
  | cons c r =>
    have hc := M.width_pos c
    have hb := M.mem_boundaries_cut.1 h
    refine ⟨M.interior (M.next (M.read M.initial l) c) (M.length l + M.width c) r ++
      [M.length l + M.width c + M.length r], ?_, ?_⟩
    · rw [boundaries_cut, if_pos hb, boundaries]
      simp only [List.append_assoc]
    · intro o ho
      rw [List.mem_append, List.mem_singleton] at ho
      rcases ho with ho | ho
      · have := M.interior_bounds ho
        omega
      · omega

/-! ## Restarting -/

/-- A segment ends before the symbol, and reading it forgets the context. -/
def Restart (x : Context σ St) (c : σ) : Prop :=
  M.breakBefore x c = true ∧ M.next x c = M.next M.initial c

theorem restart_initial (c : σ) : M.Restart M.initial c := ⟨rfl, rfl⟩

/-- The boundaries behind a first symbol, for a run that starts with it. -/
def later (c : σ) (off : Nat) (r : List σ) : List Nat :=
  M.interior (M.next M.initial c) (off + M.width c) r ++ [off + M.width c + M.length r]

/-- **Restarting.** Behind a restart the boundaries are those of a run that starts there. -/
theorem boundaries_restart {l r : List σ} {c : σ} (h : M.Restart (M.read M.initial l) c) :
    M.boundaries (l ++ c :: r) =
      M.interior M.initial 0 l ++ M.length l :: M.later c (M.length l) r := by
  rw [boundaries_cut, h.1, h.2]
  rfl

end Segmenter

/-! ## Neighbours in a sorted list -/

/-- The last entry below the target in a sorted list, starting from a known one. -/
def lastBefore (target : Nat) : Nat → List Nat → Nat
  | k, [] => k
  | k, o :: later => if o ≥ target then k else lastBefore target o later

/-- Searching forwards from an entry that is not above the target. -/
theorem least_after {before later : List Nat} {k target b : Nat}
    (hp : (before ++ k :: later).Pairwise (· < ·)) (hk : k ≤ target)
    (hf : later.find? (fun o => decide (target < o)) = some b) :
    IsLeast {o | o ∈ before ++ k :: later ∧ target < o} b := by
  obtain ⟨-, hlater, hbefore⟩ := List.pairwise_append.1 hp
  have hb : target < b := by simpa using List.find?_some hf
  have hmem : b ∈ later := List.mem_of_find?_eq_some hf
  refine ⟨⟨by simp [hmem], hb⟩, ?_⟩
  rintro o ⟨ho, hto⟩
  rw [List.mem_append, List.mem_cons] at ho
  rcases ho with ho | rfl | ho
  · have := hbefore o ho k List.mem_cons_self
    omega
  · omega
  · obtain ⟨-, as, bs, rfl, has⟩ := List.find?_eq_some_iff_append.1 hf
    -- what stands in front of `b` is not above the target, what stands behind it is greater
    rw [List.mem_append, List.mem_cons] at ho
    rcases ho with ho | rfl | ho
    · simpa [Nat.not_le.2 hto] using has o ho
    · exact Nat.le_refl _
    · have h := (List.pairwise_append.1 (List.pairwise_cons.1 hlater).2).2.1
      exact Nat.le_of_lt ((List.pairwise_cons.1 h).1 o ho)

/-- Searching backwards: the last entry met before the target is reached. -/
theorem greatest_before {before later : List Nat} {k target : Nat}
    (hp : (before ++ k :: later).Pairwise (· < ·)) (hk : k < target) :
    IsGreatest {o | o ∈ before ++ k :: later ∧ o < target} (lastBefore target k later) := by
  induction later generalizing before k with
  | nil =>
    refine ⟨⟨by simp [lastBefore], hk⟩, ?_⟩
    rintro o ⟨ho, -⟩
    rw [List.mem_append, List.mem_singleton] at ho
    rcases ho with ho | rfl
    · exact Nat.le_of_lt ((List.pairwise_append.1 hp).2.2 o ho k List.mem_cons_self)
    · exact Nat.le_refl _
  | cons a later ih =>
    rw [lastBefore]
    split_ifs with ha
    · refine ⟨⟨by simp, hk⟩, ?_⟩
      rintro o ⟨ho, hot⟩
      obtain ⟨-, hlater, hbefore⟩ := List.pairwise_append.1 hp
      rw [List.mem_append, List.mem_cons, List.mem_cons] at ho
      rcases ho with ho | rfl | rfl | ho
      · exact Nat.le_of_lt (hbefore o ho k List.mem_cons_self)
      · exact Nat.le_refl _
      · omega
      · have := (List.pairwise_cons.1 (List.pairwise_cons.1 hlater).2).1 o ho
        omega
    · have h := @ih (before ++ [k]) a (by simpa using hp) (Nat.not_le.1 ha)
      simpa using h

end Lib

import Mathlib.Order.Lattice
import Mathlib.Order.MinMax
import Mathlib.Data.List.Basic

/-!
# The pieces of an interval

The entries of a sorted table cut an interval into pieces: `pieces b e edges` are the parts of
`[b, e)` between neighbouring entries, the empty ones left out.

* `isPiece_of_mem`: a piece lies in the interval, no entry lies inside of it, and each of its ends is
  an entry or an end of the interval.
* `exists_piece`: a part of the interval with no entry inside lies in one piece.
* `pieces_append_of_le`, `pieces_of_le`: the entries in front of the interval and behind it.
-/

namespace Lib

variable {α : Type*} [LinearOrder α]

/-- The nonempty parts of `[b, e)` between neighbouring entries. -/
def pieces (b e : α) : List α → List (α × α)
  | x :: y :: rest =>
    if max x b < min y e then (max x b, min y e) :: pieces b e (y :: rest) else pieces b e (y :: rest)
  | _ => []

variable {b e : α} {edges : List α} {p : α × α}

theorem pieces_cons_of_lt {x y : α} {rest : List α} (h : max x b < min y e) :
    pieces b e (x :: y :: rest) = (max x b, min y e) :: pieces b e (y :: rest) := if_pos h

theorem pieces_cons_of_not_lt {x y : α} {rest : List α} (h : ¬ max x b < min y e) :
    pieces b e (x :: y :: rest) = pieces b e (y :: rest) := if_neg h

/-- A piece is what two neighbours leave of the interval. -/
theorem mem_pieces :
    p ∈ pieces b e edges ↔
      ∃ l₁ x y l₂, edges = l₁ ++ x :: y :: l₂ ∧ p = (max x b, min y e) ∧ max x b < min y e := by
  induction edges with
  | nil => simp [pieces]
  | cons x rest ih =>
    cases rest with
    | nil =>
      refine iff_of_false List.not_mem_nil ?_
      rintro ⟨l₁, x', y', l₂, heq, -, -⟩
      have hlength := congrArg List.length heq
      simp at hlength
      omega
    | cons y rest =>
      have hstep : p ∈ pieces b e (x :: y :: rest) ↔
          (p = (max x b, min y e) ∧ max x b < min y e) ∨ p ∈ pieces b e (y :: rest) := by
        rw [pieces]
        split_ifs with hlt
        · simp [hlt]
        · simp [hlt]
      rw [hstep, ih]
      constructor
      · rintro (⟨hp, hlt⟩ | ⟨l₁, x', y', l₂, heq, hp, hlt⟩)
        · exact ⟨[], x, y, rest, rfl, hp, hlt⟩
        · exact ⟨x :: l₁, x', y', l₂, congrArg (x :: ·) heq, hp, hlt⟩
      · rintro ⟨l₁, x', y', l₂, heq, hp, hlt⟩
        cases l₁ with
        | nil =>
          obtain ⟨hx, heq⟩ := List.cons.inj heq
          obtain ⟨hy, -⟩ := List.cons.inj heq
          rw [hx, hy]
          exact .inl ⟨hp, hlt⟩
        | cons z l₁ => exact .inr ⟨l₁, x', y', l₂, (List.cons.inj heq).2, hp, hlt⟩

/-- A part of the interval that no entry cuts. -/
structure IsPiece (edges : List α) (b e : α) (p : α × α) : Prop where
  first_le : b ≤ p.1
  lt : p.1 < p.2
  le_last : p.2 ≤ e
  uncut : ∀ z ∈ edges, ¬ (p.1 < z ∧ z < p.2)
  first : p.1 = b ∨ p.1 ∈ edges
  last : p.2 = e ∨ p.2 ∈ edges

theorem isPiece_of_mem (hsorted : edges.Pairwise (· < ·)) (hp : p ∈ pieces b e edges) :
    IsPiece edges b e p := by
  obtain ⟨l₁, x, y, l₂, rfl, rfl, hlt⟩ := mem_pieces.1 hp
  obtain ⟨-, hbehind, hfront⟩ := List.pairwise_append.1 hsorted
  obtain ⟨-, hbehind⟩ := List.pairwise_cons.1 hbehind
  obtain ⟨hy, -⟩ := List.pairwise_cons.1 hbehind
  refine ⟨le_max_right x b, hlt, min_le_right y e, ?_, ?_, ?_⟩
  · rintro z hz ⟨hfirst, hlast⟩
    have hxz : x < z := (le_max_left x b).trans_lt hfirst
    have hzy : z < y := hlast.trans_le (min_le_left y e)
    rcases List.mem_append.1 hz with hz | hz
    · exact lt_asymm hxz (hfront z hz x List.mem_cons_self)
    · rcases List.mem_cons.1 hz with rfl | hz
      · exact lt_irrefl z hxz
      · rcases List.mem_cons.1 hz with rfl | hz
        · exact lt_irrefl z hzy
        · exact lt_asymm hzy (hy z hz)
  · rcases max_choice x b with heq | heq
    · exact .inr (by simp [heq])
    · exact .inl heq
  · rcases min_choice y e with heq | heq
    · exact .inr (by simp [heq])
    · exact .inl heq

/-- Neighbouring entries around a value. -/
theorem exists_neighbours {u x z : α} (hx : edges.head? = some x) (hxu : x ≤ u) (hz : z ∈ edges)
    (huz : u < z) : ∃ l₁ x y l₂, edges = l₁ ++ x :: y :: l₂ ∧ x ≤ u ∧ u < y := by
  induction edges generalizing x with
  | nil => cases hx
  | cons x' rest ih =>
    obtain rfl := Option.some.inj hx
    rcases List.mem_cons.1 hz with rfl | hz
    · exact absurd huz (not_lt.2 hxu)
    · cases rest with
      | nil => cases hz
      | cons y rest =>
        by_cases huy : u < y
        · exact ⟨[], x', y, rest, rfl, hxu, huy⟩
        · obtain ⟨l₁, x, y', l₂, heq, hle, hlt⟩ := ih rfl (not_lt.1 huy) hz
          exact ⟨x' :: l₁, x, y', l₂, congrArg (x' :: ·) heq, hle, hlt⟩

/-- What no entry cuts lies in one piece. -/
theorem exists_piece {u v : α} (hb : b ≤ u) (huv : u < v) (he : v ≤ e)
    {x z : α} (hx : edges.head? = some x) (hxu : x ≤ u) (hz : z ∈ edges) (hvz : v ≤ z)
    (huncut : ∀ z ∈ edges, ¬ (u < z ∧ z < v)) : ∃ p ∈ pieces b e edges, p.1 ≤ u ∧ v ≤ p.2 := by
  obtain ⟨l₁, x, y, l₂, heq, hxu, huy⟩ := exists_neighbours hx hxu hz (huv.trans_le hvz)
  have hvy : v ≤ y := not_lt.1 fun hyv => huncut y (heq ▸ by simp) ⟨huy, hyv⟩
  refine ⟨(max x b, min y e), mem_pieces.2 ⟨l₁, x, y, l₂, heq, rfl, ?_⟩, max_le hxu hb, le_min hvy he⟩
  exact (max_le hxu hb).trans_lt (huv.trans_le (le_min hvy he))

/-- Entries in front of the interval cut nothing off. -/
theorem pieces_append_of_le {l₁ l₂ : List α} {x : α} (hx : x ≤ b)
    (hsorted : (l₁ ++ x :: l₂).Pairwise (· < ·)) :
    pieces b e (l₁ ++ x :: l₂) = pieces b e (x :: l₂) := by
  induction l₁ with
  | nil => rfl
  | cons a l₁ ih =>
    obtain ⟨-, hsorted⟩ := List.pairwise_cons.1 hsorted
    have hskip : ∀ y rest, y ≤ b → pieces b e (a :: y :: rest) = pieces b e (y :: rest) := by
      intro y rest hy
      refine if_neg fun hlt => ?_
      exact absurd (hlt.trans_le ((min_le_left y e).trans hy)) (not_lt.2 (le_max_right a b))
    cases l₁ with
    | nil => exact hskip x l₂ hx
    | cons c l₁ =>
      have hcx := (List.pairwise_cons.1 hsorted).1 x (by simp)
      exact (hskip c (l₁ ++ x :: l₂) (hcx.le.trans hx)).trans (ih hsorted)

/-- Entries behind the interval cut nothing off. -/
theorem pieces_of_le {x : α} {rest : List α} (hx : e ≤ x) (hsorted : (x :: rest).Pairwise (· < ·)) :
    pieces b e (x :: rest) = [] := by
  refine List.eq_nil_iff_forall_not_mem.2 fun p hp => ?_
  obtain ⟨l₁, x', y, l₂, heq, -, hlt⟩ := mem_pieces.1 hp
  have hxx' : x ≤ x' := by
    have hmem : x' ∈ x :: rest := heq ▸ by simp
    rcases List.mem_cons.1 hmem with rfl | hmem
    · exact le_refl _
    · exact ((List.pairwise_cons.1 hsorted).1 x' hmem).le
  exact absurd (hlt.trans_le ((min_le_right y e).trans (hx.trans hxx'))) (not_lt.2 (le_max_left x' b))

end Lib

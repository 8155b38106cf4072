import Mathlib.Data.List.Nodup
import Mathlib.Data.List.Induction
import Mathlib.Order.Lattice

/-!
# The least entry of an unordered list

A scan keeps the candidate of least rank (`foldl_least`). When the candidates are those of a list that
is sorted by their ranks, the scan finds its head (`foldl_least_sorted`), and with the candidates
behind the entry at `j` it finds the entry at `j + 1` (`mem_drop_iff`). A scan that compares with what
it keeps finds the first of the least (`foldl_keep_least`).
-/

namespace Lib

variable {α β : Type*} {rank : α → Nat}

/-- The scan finds a candidate of least rank, unless there is none. -/
theorem foldl_least (p : α → Bool) (rank : α → Nat) (out : α → β) (nothing : β) {bound : Nat}
    {l : List α} (hbound : ∀ x ∈ l, rank x < bound) :
    let best := l.foldl (fun best x => if p x ∧ rank x < best.2 then (out x, rank x) else best)
      (nothing, bound)
    (best = (nothing, bound) ∧ ∀ x ∈ l, ¬ p x) ∨
      ∃ x ∈ l, p x ∧ best = (out x, rank x) ∧ ∀ y ∈ l, p y → rank x ≤ rank y := by
  induction l using List.reverseRecOn with
  | nil => exact .inl ⟨rfl, by simp⟩
  | append_singleton l z ih =>
    have hz := hbound z (by simp)
    rw [List.foldl_append, List.foldl_cons, List.foldl_nil]
    rcases ih fun x hx => hbound x (by simp [hx]) with ⟨hbest, hnone⟩ | ⟨x, hx, hpx, hbest, hleast⟩
    · rw [hbest]
      by_cases hpz : p z = true
      · rw [if_pos ⟨hpz, hz⟩]
        refine .inr ⟨z, by simp, hpz, rfl, fun y hy hpy => ?_⟩
        rcases List.mem_append.1 hy with hy | hy
        · exact absurd hpy (hnone y hy)
        · exact Nat.le_of_eq (congrArg rank (List.mem_singleton.1 hy).symm)
      · rw [if_neg fun hboth => hpz hboth.1]
        refine .inl ⟨rfl, fun y hy => ?_⟩
        rcases List.mem_append.1 hy with hy | hy
        · exact hnone y hy
        · rwa [List.mem_singleton.1 hy]
    · rw [hbest]
      by_cases hpz : p z = true ∧ rank z < rank x
      · rw [if_pos hpz]
        refine .inr ⟨z, by simp, hpz.1, rfl, fun y hy hpy => ?_⟩
        rcases List.mem_append.1 hy with hy | hy
        · exact Nat.le_trans (Nat.le_of_lt hpz.2) (hleast y hy hpy)
        · exact Nat.le_of_eq (congrArg rank (List.mem_singleton.1 hy).symm)
      · rw [if_neg hpz]
        refine .inr ⟨x, by simp [hx], hpx, rfl, fun y hy hpy => ?_⟩
        rcases List.mem_append.1 hy with hy | hy
        · exact hleast y hy hpy
        · obtain rfl := List.mem_singleton.1 hy
          exact Nat.le_of_not_lt fun hlt => hpz ⟨hpy, hlt⟩

/-- **The scan finds the head** of the candidates sorted by their ranks. -/
theorem foldl_least_sorted (p : α → Bool) (rank : α → Nat) (out : α → β) (nothing : β) {bound : Nat}
    {l sorted : List α} (hbound : ∀ x ∈ l, rank x < bound)
    (hsorted : sorted.Pairwise fun x y => rank x < rank y)
    (hmem : ∀ x, x ∈ sorted ↔ x ∈ l ∧ p x) :
    (l.foldl (fun best x => if p x ∧ rank x < best.2 then (out x, rank x) else best)
      (nothing, bound)).1 = (sorted.head?.map out).getD nothing := by
  rcases foldl_least p rank out nothing hbound with ⟨hbest, hnone⟩ | ⟨x, hx, hpx, hbest, hleast⟩
  · have hempty : sorted = [] := List.eq_nil_iff_forall_not_mem.2 fun x hx =>
      hnone x ((hmem x).1 hx).1 ((hmem x).1 hx).2
    rw [hbest, hempty]
    rfl
  · cases sorted with
    | nil => exact absurd ((hmem x).2 ⟨hx, hpx⟩) List.not_mem_nil
    | cons y sorted =>
      have hy := (hmem y).1 List.mem_cons_self
      have hle := hleast y hy.1 hy.2
      rcases List.mem_cons.1 ((hmem x).2 ⟨hx, hpx⟩) with rfl | hin
      · rw [hbest]
        rfl
      · exact absurd ((List.pairwise_cons.1 hsorted).1 x hin) (Nat.not_lt.2 hle)

/-- **The first of the least** by a key: the scan replaces what it keeps by what is less. -/
theorem foldl_keep_least {κ : Type*} [LinearOrder κ] (key : α → κ) {less : α → α → Bool}
    (hless : ∀ x y, less x y = true ↔ key x < key y) (x : α) (l : List α) :
    let least := l.foldl (fun least y => if less y least then y else least) x
    least ∈ x :: l ∧ ∀ y ∈ x :: l, key least ≤ key y := by
  induction l using List.reverseRecOn with
  | nil => exact ⟨by simp, by simp⟩
  | append_singleton l z ih =>
    obtain ⟨hmem, hleast⟩ := ih
    rw [List.foldl_append, List.foldl_cons, List.foldl_nil]
    by_cases hz : less z (l.foldl (fun least y => if less y least then y else least) x) = true
    · rw [if_pos hz]
      refine ⟨by simp, fun y hy => ?_⟩
      rw [← List.cons_append, List.mem_append, List.mem_singleton] at hy
      rcases hy with hy | rfl
      · exact le_of_lt (lt_of_lt_of_le ((hless _ _).1 hz) (hleast y hy))
      · exact le_rfl
    · rw [if_neg hz]
      refine ⟨List.mem_append_left [z] hmem, fun y hy => ?_⟩
      rw [← List.cons_append, List.mem_append, List.mem_singleton] at hy
      rcases hy with hy | rfl
      · exact hleast y hy
      · exact not_lt.1 fun hlt => hz ((hless _ _).2 hlt)

/-- Behind an entry of a sorted list stand those of greater rank. -/
theorem mem_drop_iff {sorted : List α} (hsorted : sorted.Pairwise fun x y => rank x < rank y)
    {j : Nat} {x y : α} (hx : sorted[j]? = some x) :
    y ∈ sorted.drop (j + 1) ↔ y ∈ sorted ∧ rank x < rank y := by
  obtain ⟨hj, rfl⟩ := List.getElem?_eq_some_iff.1 hx
  have hpairs := List.pairwise_iff_getElem.1 hsorted
  constructor
  · intro hy
    obtain ⟨k, hk, rfl⟩ := List.mem_iff_getElem.1 hy
    refine ⟨List.mem_of_mem_drop hy, ?_⟩
    rw [List.length_drop] at hk
    rw [List.getElem_drop]
    exact hpairs j _ hj (by omega) (by omega)
  · rintro ⟨hy, hlt⟩
    obtain ⟨k, hk, rfl⟩ := List.mem_iff_getElem.1 hy
    have hjk : j < k := by
      by_contra hle
      rcases Nat.lt_or_eq_of_le (Nat.le_of_not_lt hle) with hlt' | rfl
      · exact absurd (hpairs k j hk hj hlt') (by omega)
      · omega
    refine List.mem_iff_getElem.2 ⟨k - (j + 1), by rw [List.length_drop]; omega, ?_⟩
    rw [List.getElem_drop]
    congr 1
    omega

/-- A list without repetition is sorted by the positions in it. -/
theorem pairwise_idxOf [DecidableEq α] {l : List α} (h : l.Nodup) :
    l.Pairwise fun x y => l.idxOf x < l.idxOf y := by
  refine List.pairwise_iff_getElem.2 fun i j hi hj hij => ?_
  rwa [h.idxOf_getElem i hi, h.idxOf_getElem j hj]

end Lib

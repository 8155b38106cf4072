import Mathlib.Logic.Function.Basic

/-!
# Copying between ranges that may overlap

Places hold values, and a range is copied to another one place after the other. From the first place on,
the target holds what the source held when it does not begin inside the source (`copyForward_copied`);
from the last place on, when it does not begin in front of it (`copyBackward_copied`).
-/

namespace Lib

variable {α : Type*}

/-- Copies the `n` places from `s` on to those from `t` on, the first one first. -/
def copyForward : (Nat → α) → Nat → Nat → Nat → Nat → α
  | m, _, _, 0 => m
  | m, s, t, n + 1 => copyForward (Function.update m t (m s)) (s + 1) (t + 1) n

/-- The last one first. -/
def copyBackward : (Nat → α) → Nat → Nat → Nat → Nat → α
  | m, _, _, 0 => m
  | m, s, t, n + 1 => copyBackward (Function.update m (t + n) (m (s + n))) s t n

/-- The target holds what the source held, and all else is unchanged. -/
structure Copied (m m' : Nat → α) (s t n : Nat) : Prop where
  inside : ∀ i < n, m' (t + i) = m (s + i)
  outside : ∀ a, a < t ∨ t + n ≤ a → m' a = m a

variable {m : Nat → α} {s t n : Nat}

theorem copyForward_copied (h : ¬(s < t ∧ t < s + n)) : Copied m (copyForward m s t n) s t n := by
  induction n generalizing m s t with
  | zero => exact ⟨fun i hi => absurd hi (Nat.not_lt_zero i), fun _ _ => rfl⟩
  | succ n ih =>
    obtain ⟨hinside, houtside⟩ := ih (m := Function.update m t (m s)) (s := s + 1) (t := t + 1)
      (by omega)
    refine ⟨fun i hi => ?_, fun a ha => ?_⟩
    · rw [copyForward]
      cases i with
      | zero =>
        rw [houtside _ (by omega)]
        exact Function.update_self ..
      | succ i =>
        have hplace := hinside i (by omega)
        rw [Nat.add_right_comm t, Nat.add_right_comm s, Function.update_of_ne (by omega)] at hplace
        exact hplace
    · rw [copyForward, houtside a (by omega)]
      exact Function.update_of_ne (by omega) ..

theorem copyBackward_copied (h : ¬(t < s ∧ s < t + n)) : Copied m (copyBackward m s t n) s t n := by
  induction n generalizing m with
  | zero => exact ⟨fun i hi => absurd hi (Nat.not_lt_zero i), fun _ _ => rfl⟩
  | succ n ih =>
    obtain ⟨hinside, houtside⟩ := ih (m := Function.update m (t + n) (m (s + n))) (by omega)
    refine ⟨fun i hi => ?_, fun a ha => ?_⟩
    · rw [copyBackward]
      by_cases hlast : i = n
      · rw [hlast, houtside _ (by omega)]
        exact Function.update_self ..
      · rw [hinside i (by omega)]
        exact Function.update_of_ne (by omega) ..
    · rw [copyBackward, houtside a (by omega)]
      exact Function.update_of_ne (by omega) ..

end Lib

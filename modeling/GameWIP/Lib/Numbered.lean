import Mathlib.Data.List.Basic
import Mathlib.Data.List.Nodup

/-!
# Numbered entries

`Numbered key l next`: the entries of `l` carry strictly increasing numbers below `next`, the number
the next entry gets. Entries may leave (`Numbered.sublist`) and a new one comes last
(`Numbered.concat`), so the entries stay distinct. `filter_missing` reads off which entry has left.
-/

namespace Lib

variable {α : Type*} {key : α → Nat} {l l' r : List α} {a b : α} {n : Nat}

/-- The numbers increase along the list, below the next one. -/
def Numbered (key : α → Nat) (l : List α) (next : Nat) : Prop :=
  (l.map key).Pairwise (· < ·) ∧ ∀ e ∈ l, key e < next

namespace Numbered

theorem nil : Numbered key ([] : List α) n := ⟨.nil, nofun⟩

theorem sublist (h : Numbered key l n) (hs : l'.Sublist l) : Numbered key l' n :=
  ⟨h.1.sublist (hs.map _), fun e he => h.2 e (hs.subset he)⟩

theorem mono {m : Nat} (h : Numbered key l n) (hle : n ≤ m) : Numbered key l m :=
  ⟨h.1, fun e he => Nat.lt_of_lt_of_le (h.2 e he) hle⟩

theorem concat (h : Numbered key l n) (ha : key a = n) : Numbered key (l ++ [a]) (n + 1) := by
  constructor
  · rw [List.map_append]
    refine List.pairwise_append.2 ⟨h.1, List.pairwise_singleton _ _, fun m hm k hk => ?_⟩
    obtain ⟨e, he, rfl⟩ := List.mem_map.1 hm
    rw [List.mem_singleton.1 hk, ha]
    exact h.2 e he
  · intro e he
    rcases List.mem_append.1 he with he | he
    · exact Nat.lt_succ_of_lt (h.2 e he)
    · rw [List.mem_singleton.1 he, ha]
      exact Nat.lt_succ_self n

theorem nodup (h : Numbered key l n) : l.Nodup := List.Nodup.of_map _ (h.1.imp Nat.ne_of_lt)

theorem notMem (h : Numbered key l n) (ha : n ≤ key a) : a ∉ l :=
  fun hmem => Nat.not_lt_of_le ha (h.2 a hmem)

end Numbered

/-- The entry that has left when a new one has come. -/
theorem filter_missing [DecidableEq α] (h : (l ++ a :: r).Nodup) (hb : b ∉ l ++ a :: r) :
    ((l ++ a :: r).filter fun e => e ∉ l ++ r ++ [b]) = [a] := by
  have hne : a ∉ l ++ r := (List.nodup_middle.1 h |> List.nodup_cons.1).1
  have hkept : ∀ l' : List α, l' ⊆ l ++ r → l'.filter (fun e => e ∉ l ++ r ++ [b]) = [] := by
    intro l' hl'
    refine List.filter_eq_nil_iff.2 fun e he => ?_
    rw [decide_eq_true_eq, not_not]
    exact List.mem_append_left _ (hl' he)
  rw [List.filter_append, hkept l (List.subset_append_left l r), List.filter_cons_of_pos,
    hkept r (List.subset_append_right l r)]
  · rfl
  · have hab : a ≠ b := fun heq => hb (heq ▸ by simp)
    rw [List.mem_append, not_or] at hne
    simpa using ⟨hne.1, hne.2, hab⟩

end Lib

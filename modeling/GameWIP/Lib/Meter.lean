import GameWIP.Lib.EarlyReturn
import Mathlib.Algebra.BigOperators.Group.List.Basic
import Mathlib.Algebra.Ring.Nat

/-!
# Computations that spend from a budget

A `Meter` says what spending a cost does to a state and when a state is within its limits. A
computation that fails as soon as it leaves the limits, or when something else does not hold, is
known by what it costs: `m.Costs P c f` says that from within the limits `f` succeeds exactly when
`P` holds and the whole cost `c` stays within them, and that it has spent `c` then. Computations of
one cost accept the same states, however they count.

The rules follow the control flow: `Costs.bind` for a sequence, `Costs.guard` for a check,
`Costs.foldlM` for a loop. `m.CostsE` is the same for a computation that returns early, whatever it
returns then.
-/

namespace Lib

universe u

/-- A budget. Costs are not given back: what is within the limits after a cost was so before. -/
structure Meter (S : Type u) (C : Type*) [AddMonoid C] where
  spend : S → C → S
  within : S → Prop
  spend_zero (s : S) : spend s 0 = s
  spend_add (s : S) (c d : C) : spend (spend s c) d = spend s (c + d)
  within_of_spend {s : S} {c : C} : within (spend s c) → within s

namespace Meter

variable {S : Type u} {C A : Type*} [AddMonoid C] {m : Meter S C}

/-- The computation checks `P` and spends `c`. -/
def Costs (m : Meter S C) (P : Prop) (c : C) (f : S → Option S) : Prop :=
  ∀ s t, m.within s → (f s = some t ↔ P ∧ m.within (m.spend s c) ∧ t = m.spend s c)

namespace Costs

variable {P Q : Prop} {c d : C} {f g : S → Option S} {s t : S}

theorem isSome (h : m.Costs P c f) (hs : m.within s) :
    (f s).isSome = true ↔ P ∧ m.within (m.spend s c) := by
  rw [Option.isSome_iff_exists]
  constructor
  · rintro ⟨t, ht⟩
    obtain ⟨hP, hin, -⟩ := (h s t hs).1 ht
    exact ⟨hP, hin⟩
  · exact fun ⟨hP, hin⟩ => ⟨_, (h s _ hs).2 ⟨hP, hin, rfl⟩⟩

theorem congr (h : m.Costs P c f) (hP : P ↔ Q) (hc : c = d) : m.Costs Q d f := by
  intro s t hs
  rw [h s t hs, hP, hc]

/-- Two ways to write a computation. -/
theorem of_eq (h : m.Costs P c f) (hfg : ∀ s, g s = f s) : m.Costs P c g := by
  intro s t hs
  rw [hfg, h s t hs]

theorem pass : m.Costs True 0 (fun s => some s) := by
  intro s t hs
  simp [m.spend_zero, hs, eq_comm]

/-- A check that does not depend on the state. -/
theorem guard {b : Prop} [Decidable b] (hb : ¬ b ↔ P) :
    m.Costs P 0 fun s => if b then none else some s := by
  intro s t hs
  rw [m.spend_zero, ← hb]
  by_cases h : b <;> simp [h, hs, eq_comm]

theorem fails : m.Costs False c fun _ => none := by
  simp [Costs]

theorem bind (hf : m.Costs P c f) (hg : m.Costs Q d g) :
    m.Costs (P ∧ Q) (c + d) fun s => (f s).bind g := by
  intro s u hs
  rw [Option.bind_eq_some_iff, ← m.spend_add]
  constructor
  · rintro ⟨t, ht, hu⟩
    obtain ⟨hP, hin, rfl⟩ := (hf s t hs).1 ht
    obtain ⟨hQ, hout, rfl⟩ := (hg _ u hin).1 hu
    exact ⟨⟨hP, hQ⟩, hout, rfl⟩
  · rintro ⟨⟨hP, hQ⟩, hout, rfl⟩
    have hin := m.within_of_spend hout
    exact ⟨_, (hf s _ hs).2 ⟨hP, hin, rfl⟩, (hg _ _ hin).2 ⟨hQ, hout, rfl⟩⟩

/-- A check in front of a computation. -/
theorem check {b : Prop} [Decidable b] (hb : ¬ b ↔ P) (hf : m.Costs Q c f) :
    m.Costs (P ∧ Q) c fun s => if b then none else f s := by
  refine ((guard hb).bind hf).congr Iff.rfl (zero_add c) |>.of_eq fun s => ?_
  by_cases h : b <;> simp [h]

/-- A computation of its own in front, whose result is not used. -/
theorem after {T : Type u} {x : Option T} (hx : x.isSome = true ↔ P) (hf : m.Costs Q c f) :
    m.Costs (P ∧ Q) c fun s => x.bind fun _ => f s := by
  intro s t hs
  rw [← hx]
  cases x with
  | none => simp
  | some u => simpa using hf s t hs

theorem foldlM {P : A → Prop} {c : A → C} {f : S → A → Option S} {l : List A}
    (h : ∀ a ∈ l, m.Costs (P a) (c a) fun s => f s a) :
    m.Costs (∀ a ∈ l, P a) (l.map c).sum fun s => l.foldlM f s := by
  induction l with
  | nil => exact pass.congr (by simp) rfl
  | cons a l ih =>
    have hl := ih fun b hb => h b (List.mem_cons_of_mem _ hb)
    exact ((h a List.mem_cons_self).bind hl).congr (by simp) (by simp)

end Costs

/-- The computation checks `P`, returning early when it does not hold, and spends `c`. -/
abbrev CostsE {R : Type*} (m : Meter S C) (P : Prop) (c : C) (f : S → Except R S) : Prop :=
  m.Costs P c fun s => (f s).toOption

namespace CostsE

variable {R : Type*} {P Q : Prop} {c d : C} {f g : S → Except R S}

theorem pass : m.CostsE (R := R) True 0 fun s => .ok s := Costs.pass

theorem bind (hf : m.CostsE P c f) (hg : m.CostsE Q d g) :
    m.CostsE (P ∧ Q) (c + d) fun s => f s >>= g :=
  (Costs.bind hf hg).of_eq fun s => toOption_bind (f s) g

theorem fails {r : R} : m.CostsE False c fun _ => .error r := Costs.fails

/-- A check at the end. -/
theorem require {b : Prop} [Decidable b] {r : R} :
    m.CostsE b 0 fun s => if b then .ok s else .error r := by
  refine (Costs.guard (P := b) (b := ¬ b) not_not).of_eq fun s => ?_
  by_cases h : b <;> simp [h, Except.toOption]

/-- A check in front of a computation, with what it returns. -/
theorem check {b : Prop} [Decidable b] {r : R} (hb : ¬ b ↔ P) (hf : m.CostsE Q c f) :
    m.CostsE (P ∧ Q) c fun s => if b then .error r else f s := by
  refine (Costs.check hb hf).of_eq fun s => ?_
  by_cases h : b <;> simp [h, Except.toOption]

theorem after {T : Type u} {x : Except R T} (hx : x.toOption.isSome = true ↔ P)
    (hf : m.CostsE Q c f) : m.CostsE (P ∧ Q) c fun s => x >>= fun _ => f s :=
  (Costs.after hx hf).of_eq fun _ => toOption_bind x _

theorem foldlM {P : A → Prop} {c : A → C} {f : S → A → Except R S} {l : List A}
    (h : ∀ a ∈ l, m.CostsE (P a) (c a) fun s => f s a) :
    m.CostsE (∀ a ∈ l, P a) (l.map c).sum fun s => l.foldlM f s :=
  (Costs.foldlM h).of_eq fun s => toOption_foldlM f s l

end CostsE

end Meter

end Lib

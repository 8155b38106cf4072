import Mathlib.Data.List.Basic
import Mathlib.Logic.Function.Basic
import Mathlib.Logic.Relation

/-!
# Chains of ancestors

Each node has one parent at most, `up : α → Option α`.

* `Acyclic`: no node is a proper ancestor of itself. Cutting edges keeps it (`Acyclic.of_le`), and so
  does a new parent just when it is not below its child (`Acyclic.update_iff`).
* `climb`: some steps up. In an acyclic `up` whose parents all are in a list, it ends within as many
  steps (`Acyclic.climb_eq_none`).
-/

namespace Lib

variable {α : Type*} {up up' : α → Option α} {a b c : α}

/-- `b` is the parent of `a`. -/
def Up (up : α → Option α) (a b : α) : Prop := up a = some b

/-- The node some steps up. -/
def climb (up : α → Option α) : Nat → α → Option α
  | 0, a => some a
  | n + 1, a => (up a).bind (climb up n)

/-- No node is a proper ancestor of itself. -/
def Acyclic (up : α → Option α) : Prop := ∀ a, ¬ Relation.TransGen (Up up) a a

namespace Acyclic

/-- Cutting edges keeps it. -/
theorem of_le (h : Acyclic up) (hle : ∀ a b, up' a = some b → up a = some b) : Acyclic up' :=
  fun a ha => h a (Relation.TransGen.mono hle a a ha)

section Update

variable [DecidableEq α]

/-- A chain with the new edge passes it, or does without it. -/
theorem transGen_update {x y : α}
    (hxy : Relation.TransGen (Up (Function.update up a (some b))) x y) :
    Relation.TransGen (Up up) x y ∨
      Relation.ReflTransGen (Up up) x a ∧ Relation.ReflTransGen (Up up) b y := by
  have hstep : ∀ {x z : α}, Up (Function.update up a (some b)) x z → x = a ∧ z = b ∨ Up up x z := by
    intro x z hxz
    by_cases hx : x = a
    · subst hx
      rw [Up, Function.update_self] at hxz
      exact .inl ⟨rfl, (Option.some.inj hxz).symm⟩
    · rw [Up, Function.update_of_ne hx] at hxz
      exact .inr hxz
  induction hxy using Relation.TransGen.head_induction_on with
  | single h =>
    rcases hstep h with ⟨rfl, rfl⟩ | h
    · exact .inr ⟨.refl, .refl⟩
    · exact .inl (.single h)
  | head h _ ih =>
    rcases hstep h with ⟨rfl, rfl⟩ | h
    · rcases ih with ih | ⟨-, ih⟩
      · exact .inr ⟨.refl, ih.to_reflTransGen⟩
      · exact .inr ⟨.refl, ih⟩
    · rcases ih with ih | ⟨hza, hby⟩
      · exact .inl (.head h ih)
      · exact .inr ⟨.head h hza, hby⟩

/-- A chain to a node does not use the edge up from it. -/
theorem reflTransGen_update {v : Option α} {x : α} (hxa : Relation.ReflTransGen (Up up) x a) :
    Relation.ReflTransGen (Up (Function.update up a v)) x a := by
  induction hxa using Relation.ReflTransGen.head_induction_on with
  | refl => exact .refl
  | @head x z hxz _ ih =>
    by_cases hx : x = a
    · rw [hx]
    · refine .head ?_ ih
      rwa [Up, Function.update_of_ne hx]

/-- **A new parent** keeps it just when it is not below its child. -/
theorem update_iff (h : Acyclic up) :
    Acyclic (Function.update up a (some b)) ↔ ¬ Relation.ReflTransGen (Up up) b a := by
  constructor
  · intro hnew hba
    exact hnew a (.head' (Function.update_self ..) (reflTransGen_update hba))
  · intro hab c hc
    rcases transGen_update hc with hc | ⟨hca, hbc⟩
    · exact h c hc
    · exact hab (hbc.trans hca)

end Update

/-- **Climbing ends** when all ancestors are in a list. -/
theorem climb_eq_none [DecidableEq α] (h : Acyclic up) {nodes : List α}
    (hnodes : ∀ b, Relation.TransGen (Up up) a b → b ∈ nodes) :
    climb up (nodes.length + 1) a = none := by
  induction hn : nodes.length generalizing nodes a with
  | zero =>
    cases hup : up a with
    | none => simp [climb, hup]
    | some b =>
      rw [List.eq_nil_of_length_eq_zero hn] at hnodes
      exact absurd (hnodes b (.single hup)) List.not_mem_nil
  | succ n ih =>
    unfold climb
    cases hup : up a with
    | none => rfl
    | some b =>
      have hb : b ∈ nodes := hnodes b (.single hup)
      have hrest : ∀ c, Relation.TransGen (Up up) b c → c ∈ nodes.erase b := by
        intro c hbc
        refine (List.mem_erase_of_ne fun hcb => ?_).2 (hnodes c (.head hup hbc))
        exact h b (hcb ▸ hbc)
      refine ih hrest ?_
      rw [List.length_erase_of_mem hb, hn]
      rfl

end Acyclic

end Lib

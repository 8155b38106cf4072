import Mathlib.Data.List.Induction

/-!
# Runs of a guarded step function

A transition system is a partial step function `step : S → A → Option S`: `step s a = some t` when
the action `a` is enabled in `s` and leads to `t`. `Trace step s tr u` is a run from `s` to `u`
with its steps `tr` in order, each with its action and the states around it, so that a property
of a run can speak about every step and about every state on the way.

* `Trace.invariant`: a property that every guarded step keeps holds along every run whose steps
  are all guarded.
* `Trace.history`: the same for a property of a run with all its steps so far.
* `Trace.invariant_iff_guard`: when moreover an unguarded step always breaks the property, the
  property holds along a run exactly when every step of the run is guarded.
-/

namespace Lib

variable {S A : Type*}

/-- One step of a run: the state before, the action and the state after. -/
structure Transition (S A : Type*) where
  pre : S
  action : A
  post : S

/-- `Trace step s tr u`: the steps `tr` lead from `s` to `u`. -/
inductive Trace (step : S → A → Option S) : S → List (Transition S A) → S → Prop
  | nil (s : S) : Trace step s [] s
  | cons {s t u : S} {a : A} {tr : List (Transition S A)} :
      step s a = some t → Trace step t tr u → Trace step s (⟨s, a, t⟩ :: tr) u

/-- The run of a list of actions, when each of them is enabled in turn. -/
def run (step : S → A → Option S) : S → List A → Option (List (Transition S A) × S)
  | s, [] => some ([], s)
  | s, a :: as =>
    (step s a).bind fun t => (run step t as).map fun r => (⟨s, a, t⟩ :: r.1, r.2)

theorem run_cons {step : S → A → Option S} {s t : S} {a : A} {as : List A}
    {r : List (Transition S A) × S} (hs : step s a = some t) (hr : run step t as = some r) :
    run step s (a :: as) = some (⟨s, a, t⟩ :: r.1, r.2) := by
  rw [run, hs, Option.bind_some, hr]
  rfl

/-- The steps of a run are its actions. -/
theorem actions_of_run {step : S → A → Option S} {s : S} {as : List A}
    {r : List (Transition S A) × S} (h : run step s as = some r) : r.1.map Transition.action = as := by
  induction as generalizing s r with
  | nil =>
    cases h
    rfl
  | cons a as ih =>
    obtain ⟨t, -, h⟩ := Option.bind_eq_some_iff.1 h
    obtain ⟨r', hr', rfl⟩ := Option.map_eq_some_iff.1 h
    exact congrArg (a :: ·) (ih hr')

namespace Trace

variable {step : S → A → Option S} {I : S → Prop} {G : S → A → Prop}
  {s u : S} {tr : List (Transition S A)}

theorem mem_step (h : Trace step s tr u) {x : Transition S A} (hx : x ∈ tr) :
    step x.pre x.action = some x.post := by
  induction h with
  | nil => cases hx
  | cons hs _ ih =>
    rcases List.mem_cons.1 hx with rfl | hx
    · exact hs
    · exact ih hx

theorem of_run {as : List A} {r : List (Transition S A) × S} (h : run step s as = some r) :
    Trace step s r.1 r.2 := by
  induction as generalizing s r with
  | nil =>
    cases h
    exact .nil s
  | cons a as ih =>
    obtain ⟨t, ht, h⟩ := Option.bind_eq_some_iff.1 h
    obtain ⟨r', hr', rfl⟩ := Option.map_eq_some_iff.1 h
    exact .cons ht (ih hr')

/-- A run with one step more. -/
theorem concat {a : A} {t : S} (h : Trace step s tr u) (hs : step u a = some t) :
    Trace step s (tr ++ [⟨u, a, t⟩]) t := by
  induction h with
  | nil s => exact .cons hs (.nil t)
  | cons hfirst _ ih => exact .cons hfirst (ih hs)

theorem append {tr₁ tr₂ : List (Transition S A)} {t : S} (h₁ : Trace step s tr₁ t)
    (h₂ : Trace step t tr₂ u) : Trace step s (tr₁ ++ tr₂) u := by
  induction h₁ with
  | nil => exact h₂
  | cons hs _ ih => exact .cons hs (ih h₂)

/-- A run in two parts. -/
theorem of_append {tr₁ tr₂ : List (Transition S A)} (h : Trace step s (tr₁ ++ tr₂) u) :
    ∃ t, Trace step s tr₁ t ∧ Trace step t tr₂ u := by
  induction tr₁ generalizing s with
  | nil => exact ⟨s, .nil s, h⟩
  | cons y tr₁ ih =>
    cases h with
    | cons hs h =>
      obtain ⟨t, h₁, h₂⟩ := ih h
      exact ⟨t, .cons hs h₁, h₂⟩

/-- A run before and after one of its steps. -/
theorem split {tr₁ tr₂ : List (Transition S A)} {x : Transition S A}
    (h : Trace step s (tr₁ ++ x :: tr₂) u) :
    Trace step s tr₁ x.pre ∧ step x.pre x.action = some x.post ∧ Trace step x.post tr₂ u := by
  obtain ⟨t, h₁, h₂⟩ := h.of_append
  cases h₂ with
  | cons hs h₂ => exact ⟨h₁, hs, h₂⟩

/-- **The history rule.** What holds of the empty run and is kept by one more step holds of every
run; it may speak of all steps so far. -/
theorem history {P : List (Transition S A) → S → Prop} (h : Trace step s tr u) (h0 : P [] s)
    (hstep : ∀ tr x, Trace step s tr x.pre → step x.pre x.action = some x.post → P tr x.pre →
      P (tr ++ [x]) x.post) : P tr u := by
  induction tr using List.reverseRecOn generalizing u with
  | nil =>
    cases h
    exact h0
  | append_singleton tr x ih =>
    obtain ⟨hbefore, hs, hrest⟩ := h.split
    cases hrest
    exact hstep tr x hbefore hs (ih hbefore)

/-- **The invariant rule.** What every guarded step keeps holds along a run of guarded steps. -/
theorem invariant (h : Trace step s tr u) (h0 : I s)
    (hstep : ∀ s a t, I s → G s a → step s a = some t → I t)
    (hG : ∀ x ∈ tr, G x.pre x.action) : I u ∧ ∀ x ∈ tr, I x.pre ∧ I x.post := by
  induction h with
  | nil => exact ⟨h0, fun _ hx => absurd hx List.not_mem_nil⟩
  | cons hs _ ih =>
    have h1 := hstep _ _ _ h0 (hG _ List.mem_cons_self) hs
    obtain ⟨hu, hall⟩ := ih h1 fun x hx => hG x (List.mem_cons_of_mem _ hx)
    refine ⟨hu, fun x hx => ?_⟩
    rcases List.mem_cons.1 hx with rfl | hx
    · exact ⟨h0, h1⟩
    · exact hall x hx

/-- The invariant rule without a guard. -/
theorem invariant_of_step (h : Trace step s tr u) (h0 : I s)
    (hstep : ∀ s a t, I s → step s a = some t → I t) : I u ∧ ∀ x ∈ tr, I x.pre ∧ I x.post :=
  h.invariant (G := fun _ _ => True) h0 (fun s a t hi _ ht => hstep s a t hi ht) fun _ _ => trivial

/-- When an unguarded step always breaks the property, the guard is exact. -/
theorem invariant_iff_guard (h : Trace step s tr u) (h0 : I s)
    (hstep : ∀ s a t, I s → G s a → step s a = some t → I t)
    (hconv : ∀ s a t, I s → step s a = some t → I t → G s a) :
    (∀ x ∈ tr, I x.post) ↔ ∀ x ∈ tr, G x.pre x.action := by
  refine ⟨fun hI => ?_, fun hG x hx => ((h.invariant h0 hstep hG).2 x hx).2⟩
  induction h with
  | nil => exact fun _ hx => absurd hx List.not_mem_nil
  | cons hs _ ih =>
    have h1 := hI _ List.mem_cons_self
    intro x hx
    rcases List.mem_cons.1 hx with rfl | hx
    · exact hconv _ _ _ h0 hs h1
    · exact ih h1 (fun y hy => hI y (List.mem_cons_of_mem _ hy)) x hx

/-- The exact guard of a property of steps and states together: `P` speaks of a step, `I` of the
states. -/
theorem steps_iff_guard {P : S → A → S → Prop} (h : Trace step s tr u) (h0 : I s)
    (hstep : ∀ s a t, I s → G s a → step s a = some t → I t ∧ P s a t)
    (hconv : ∀ s a t, I s → step s a = some t → I t → P s a t → G s a) :
    (∀ x ∈ tr, I x.post ∧ P x.pre x.action x.post) ↔ ∀ x ∈ tr, G x.pre x.action := by
  constructor
  · intro hP
    induction h with
    | nil => exact fun _ hx => absurd hx List.not_mem_nil
    | cons hs _ ih =>
      obtain ⟨h1, hP1⟩ := hP _ List.mem_cons_self
      intro x hx
      rcases List.mem_cons.1 hx with rfl | hx
      · exact hconv _ _ _ h0 hs h1 hP1
      · exact ih h1 (fun y hy => hP y (List.mem_cons_of_mem _ hy)) x hx
  · intro hG x hx
    have hpre := ((h.invariant h0 (fun s a t hi hg ht => (hstep s a t hi hg ht).1) hG).2 x hx).1
    exact hstep _ _ _ hpre (hG x hx) (h.mem_step hx)

end Trace

end Lib

import Mathlib.Data.List.Basic

/-!
# Computations that may return early

A function with a loop that may return from inside is a computation in `Except R`: `.ok s` goes on
with the state `s`, `.error r` returns `r` at once. `Yields I E` is the pair of a postcondition for
the state and one for the returned result. The rules follow the control flow: a sequence
(`Yields.bind`), a counted loop (`Yields.repeated`), a loop over inputs (`Yields.foldlM`, and
`Yields.foldlM_prefix` when the invariant speaks of the inputs done), a loop of checks
(`Yields.forM`) and a loop that waits for answers (`Yields.answered`).
-/

namespace Lib

universe u

variable {R A : Type*} {S T : Type u}

/-- The computation goes on with a state in `I` or returns a result in `E`. -/
def Yields (I : S → Prop) (E : R → Prop) : Except R S → Prop
  | .ok s => I s
  | .error r => E r

/-- The body for the occurrences below `n`, in order. -/
def repeated (body : Nat → S → Except R S) : Nat → S → Except R S
  | 0, s => .ok s
  | n + 1, s => repeated body n s >>= body n

/-- A loop that returns as soon as it can and otherwise goes on with its next answer. The result
comes with the answers left; there is none while the loop waits for one. -/
def answered (attempt : S → Except R S) (absorb : A → S → Except R S) :
    List A → S → Option (R × List A)
  | [], s =>
    match attempt s with
    | .error r => some (r, [])
    | .ok _ => none
  | a :: answers, s =>
    match attempt s with
    | .error r => some (r, a :: answers)
    | .ok s =>
      match absorb a s with
      | .error r => some (r, answers)
      | .ok s => answered attempt absorb answers s

/-- The loop returns when one of its answers ends it in every state. -/
theorem answered_isSome {attempt : S → Except R S} {absorb : A → S → Except R S}
    {answers : List A} (h : ∃ a ∈ answers, ∀ s, ∃ r, absorb a s = .error r) (s : S) :
    (answered attempt absorb answers s).isSome = true := by
  induction answers generalizing s with
  | nil =>
    obtain ⟨a, ha, -⟩ := h
    cases ha
  | cons a answers ih =>
    unfold answered
    cases attempt s with
    | error r => rfl
    | ok t =>
      dsimp only
      obtain ⟨b, hb, hends⟩ := h
      rcases List.mem_cons.1 hb with rfl | hb
      · obtain ⟨r, hr⟩ := hends t
        rw [hr]
        rfl
      · cases absorb a t with
        | error r => rfl
        | ok u => exact ih ⟨b, hb, hends⟩ u

theorem answered_suffix {attempt : S → Except R S} {absorb : A → S → Except R S}
    {answers rest : List A} {s : S} {r : R}
    (h : answered attempt absorb answers s = some (r, rest)) : rest <:+ answers := by
  induction answers generalizing s with
  | nil =>
    unfold answered at h
    split at h
    · cases h
      exact List.suffix_refl _
    · cases h
  | cons a answers ih =>
    unfold answered at h
    split at h
    · cases h
      exact List.suffix_refl _
    · split at h
      · cases h
        exact List.suffix_cons _ _
      · exact (ih h).trans (List.suffix_cons _ _)

theorem answered_error {attempt : S → Except R S} {s : S} {r : R} (h : attempt s = .error r)
    (absorb : A → S → Except R S) (answers : List A) :
    answered attempt absorb answers s = some (r, answers) := by
  cases answers with
  | nil => rw [answered, h]
  | cons a answers => rw [answered, h]

/-- What the loop returns depends on the answers it has used. -/
theorem answered_append {attempt : S → Except R S} {absorb : A → S → Except R S}
    {used rest : List A} {s : S} {r : R}
    (h : answered attempt absorb (used ++ rest) s = some (r, rest)) (other : List A) :
    answered attempt absorb (used ++ other) s = some (r, other) := by
  induction used generalizing s with
  | nil =>
    have hreturns : attempt s = .error r := by
      rw [List.nil_append] at h
      cases rest with
      | nil =>
        unfold answered at h
        split at h
        · rename_i heq
          cases h
          exact heq
        · cases h
      | cons a rest =>
        unfold answered at h
        split at h
        · rename_i heq
          cases h
          exact heq
        · -- an answer used is no longer left
          split at h
          · have hlength := congrArg (fun answer => (answer.map (·.2.length)).getD 0) h
            simp at hlength
          · have hlength := (answered_suffix h).length_le
            rw [List.length_cons] at hlength
            omega
    exact answered_error hreturns absorb other
  | cons a used ih =>
    rw [List.cons_append, answered] at h ⊢
    cases hattempt : attempt s with
    | error r' =>
      rw [hattempt] at h
      have hlength := congrArg (fun answer => (answer.map (·.2.length)).getD 0) h
      simp at hlength
      omega
    | ok t =>
      rw [hattempt] at h
      dsimp only at h ⊢
      cases habsorb : absorb a t with
      | error r' =>
        rw [habsorb] at h
        obtain ⟨rfl, hused⟩ := Prod.mk.inj (Option.some.inj h)
        obtain rfl : used = [] := by simpa using hused
        rfl
      | ok u =>
        rw [habsorb] at h
        exact ih h

/-! ## Without the result returned -/

theorem toOption_bind (x : Except R S) (f : S → Except R T) :
    (x >>= f).toOption = x.toOption.bind fun s => (f s).toOption := by
  cases x <;> rfl

theorem toOption_foldlM (body : S → A → Except R S) (s : S) (inputs : List A) :
    (inputs.foldlM body s).toOption = inputs.foldlM (fun s a => (body s a).toOption) s := by
  induction inputs generalizing s with
  | nil => rfl
  | cons a inputs ih =>
    rw [List.foldlM_cons, List.foldlM_cons, toOption_bind]
    exact Option.bind_congr fun t _ => ih t

theorem toOption_foldlM_congr {body body' : S → A → Except R S} {inputs : List A}
    (h : ∀ a ∈ inputs, ∀ s, (body s a).toOption = (body' s a).toOption) (s : S) :
    (inputs.foldlM body s).toOption = (inputs.foldlM body' s).toOption := by
  rw [toOption_foldlM, toOption_foldlM]
  induction inputs generalizing s with
  | nil => rfl
  | cons a inputs ih =>
    rw [List.foldlM_cons, List.foldlM_cons, h a List.mem_cons_self]
    exact Option.bind_congr fun t _ => ih (fun b hb => h b (List.mem_cons_of_mem _ hb)) t

theorem toOption_forM_congr {body body' : A → Except R PUnit} {inputs : List A}
    (h : ∀ a ∈ inputs, (body a).toOption = (body' a).toOption) :
    (inputs.forM body).toOption = (inputs.forM body').toOption := by
  induction inputs with
  | nil => rfl
  | cons a inputs ih =>
    have hloop : ∀ body : A → Except R PUnit, ((a :: inputs).forM body).toOption =
        (body a).toOption.bind fun _ => (inputs.forM body).toOption := fun _ => toOption_bind _ _
    rw [hloop, hloop, h a List.mem_cons_self, ih fun b hb => h b (List.mem_cons_of_mem _ hb)]

/-- A loop of checks goes on to its end when each of them does. -/
theorem isSome_toOption_forM (body : A → Except R PUnit) (inputs : List A) :
    (inputs.forM body).toOption.isSome = true ↔ ∀ a ∈ inputs, (body a).toOption.isSome = true := by
  induction inputs with
  | nil => exact ⟨fun _ _ h => (List.not_mem_nil h).elim, fun _ => rfl⟩
  | cons a inputs ih =>
    rw [List.forall_mem_cons, ← ih]
    have hloop : ((a :: inputs).forM body).toOption =
        (body a).toOption.bind fun _ => (inputs.forM body).toOption := toOption_bind _ _
    rw [hloop]
    cases (body a).toOption <;> simp

namespace Yields

variable {I J : S → Prop} {K : T → Prop} {E : R → Prop} {x : Except R S}

theorem bind {f : S → Except R T} (h : Yields I E x) (hf : ∀ s, I s → Yields K E (f s)) :
    Yields K E (x >>= f) := by
  cases x with
  | ok s => exact hf s h
  | error r => exact h

theorem mono {E' : R → Prop} (h : Yields I E x) (hE : ∀ r, E r → E' r) : Yields I E' x := by
  cases x with
  | ok s => exact h
  | error r => exact hE r h

theorem imp (h : Yields I E x) (hI : ∀ s, I s → J s) : Yields J E x := by
  cases x with
  | ok s => exact hI s h
  | error r => exact h

theorem map {f : S → T} (h : Yields I E x) (hf : ∀ s, I s → K (f s)) : Yields K E (x.map f) := by
  cases x with
  | ok s => exact hf s h
  | error r => exact h

/-- A counted loop keeps its invariant and returns only as its body does. -/
theorem repeated {body : Nat → S → Except R S} (hbody : ∀ k s, I s → Yields I E (body k s))
    {s : S} (hs : I s) (n : Nat) : Yields I E (Lib.repeated body n s) := by
  induction n with
  | zero => exact hs
  | succ n ih => exact ih.bind (hbody n)

/-- A loop over inputs keeps its invariant and returns only as its body does. -/
theorem foldlM {body : S → A → Except R S} (hbody : ∀ s a, I s → Yields I E (body s a)) {s : S}
    (hs : I s) (inputs : List A) : Yields I E (inputs.foldlM body s) := by
  induction inputs generalizing s with
  | nil => exact hs
  | cons a inputs ih =>
    rw [List.foldlM_cons]
    exact (hbody s a hs).bind fun t ht => ih ht

/-- A loop whose invariant speaks of the inputs done. -/
theorem foldlM_prefix {I : List A → S → Prop} {body : S → A → Except R S} {inputs : List A}
    (hbody : ∀ done a rest s, inputs = done ++ a :: rest → I done s →
      Yields (I (done ++ [a])) E (body s a))
    {s : S} (hs : I [] s) : Yields (I inputs) E (inputs.foldlM body s) := by
  suffices hrun : ∀ done rest s, inputs = done ++ rest → I done s →
      Yields (I inputs) E (rest.foldlM body s) from hrun [] inputs s rfl hs
  intro done rest
  induction rest generalizing done with
  | nil =>
    intro s heq hs
    rw [List.append_nil] at heq
    exact heq ▸ hs
  | cons a rest ih =>
    intro s heq hs
    rw [List.foldlM_cons]
    exact (hbody done a rest s heq hs).bind fun t ht => ih (done ++ [a]) t (by simp [heq]) ht

/-- A loop of checks. -/
theorem forM {P : A → Prop} {body : A → Except R PUnit} {inputs : List A}
    (hbody : ∀ a ∈ inputs, Yields (fun _ => P a) E (body a)) :
    Yields (fun _ => ∀ a ∈ inputs, P a) E (inputs.forM body) := by
  induction inputs with
  | nil => exact List.forall_mem_nil _
  | cons a inputs ih =>
    show Yields _ E (body a >>= fun _ => inputs.forM body)
    refine (hbody a List.mem_cons_self).bind fun _ ha => ?_
    refine (ih fun b hb => hbody b (List.mem_cons_of_mem _ hb)).imp fun _ hrest => ?_
    exact List.forall_mem_cons.2 ⟨ha, hrest⟩

theorem of_ok {s : S} (h : Yields I E x) (hx : x = .ok s) : I s := by
  subst hx
  exact h

theorem of_error {r : R} (h : Yields I E x) (hx : x = .error r) : E r := by
  subst hx
  exact h

/-- A loop that waits keeps an invariant of the state and the answers to come: `I` in front of an
attempt, `J` behind it. -/
theorem answered {attempt : S → Except R S} {absorb : A → S → Except R S}
    {I J : List A → S → Prop} {E : List A → R → Prop}
    (hattempt : ∀ answers s, I answers s → Yields (J answers) (E answers) (attempt s))
    (habsorb : ∀ a answers s, J (a :: answers) s → Yields (I answers) (E answers) (absorb a s))
    {answers rest : List A} {s : S} {r : R} (hs : I answers s)
    (h : Lib.answered attempt absorb answers s = some (r, rest)) : E rest r ∧ rest <:+ answers := by
  induction answers generalizing s with
  | nil =>
    have htry := hattempt [] s hs
    unfold Lib.answered at h
    split at h
    · rename_i heq
      cases h
      exact ⟨htry.of_error heq, List.suffix_refl _⟩
    · cases h
  | cons a answers ih =>
    have htry := hattempt (a :: answers) s hs
    unfold Lib.answered at h
    split at h
    · rename_i heq
      cases h
      exact ⟨htry.of_error heq, List.suffix_refl _⟩
    · rename_i s' heq
      have hgo := habsorb a answers s' (htry.of_ok heq)
      split at h
      · rename_i heq'
        cases h
        exact ⟨hgo.of_error heq', List.suffix_cons _ _⟩
      · rename_i heq'
        obtain ⟨hE, hsuffix⟩ := ih (hgo.of_ok heq') h
        exact ⟨hE, hsuffix.trans (List.suffix_cons _ _)⟩

end Yields

end Lib

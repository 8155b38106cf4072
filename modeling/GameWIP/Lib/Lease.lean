import Mathlib.Data.List.Basic

/-!
# Exclusive leases with a state to put back

The protocol of a resource with at most one holder, who may change a state of the resource and has
to put the old one back before the resource is let go. The events of a lease are its claim, the
capture of the old state, changes, attempts to put the captured state back, and the release.

`replay` runs a log of events through the protocol and fails at the first event the protocol does
not allow: a claim of a held resource, a second capture, a change without a capture, a state put
back that is not the captured one, and a release by another holder or with a change that no later
attempt has put back. `restore_mem` reads the obligation off an accepted log: between a capture and
the next release the captured state has been put back.
-/

namespace Lib.Lease

variable {κ σ μ : Type*}

inductive Event (κ σ μ : Type*) where
  | claim (holder : κ)
  | capture (state : σ)
  | change (target : μ)
  | restore (state : σ)
  | release (holder : κ)
  deriving DecidableEq

/-- A held lease: who holds it, the captured state, and whether it has been put back since. -/
structure Hold (κ σ : Type*) where
  holder : κ
  captured : Option σ
  restored : Bool

variable [DecidableEq κ] [DecidableEq σ]

/-- One event; the outer `none` is an event the protocol does not allow, the inner one a free
resource. -/
def next : Option (Hold κ σ) → Event κ σ μ → Option (Option (Hold κ σ))
  | none, .claim holder => some (some ⟨holder, none, true⟩)
  | some hold, .capture state =>
    if hold.captured.isNone then some (some { hold with captured := some state, restored := false })
    else none
  | some hold, .change _ =>
    if hold.captured.isSome then some (some { hold with restored := false }) else none
  | some hold, .restore state =>
    if hold.captured = some state then some (some { hold with restored := true }) else none
  | some hold, .release holder =>
    if hold.holder = holder ∧ hold.restored = true then some none else none
  | _, _ => none

/-- The lease after a log. -/
def replay (hold : Option (Hold κ σ)) (log : List (Event κ σ μ)) : Option (Option (Hold κ σ)) :=
  log.foldlM next hold

variable {hold hold' : Option (Hold κ σ)} {log log' : List (Event κ σ μ)} {event : Event κ σ μ}
  {state : σ}

@[simp] theorem replay_nil : replay hold ([] : List (Event κ σ μ)) = some hold := rfl

theorem replay_cons : replay hold (event :: log) = (next hold event).bind (replay · log) := rfl

theorem replay_append : replay hold (log ++ log') = (replay hold log).bind (replay · log') := by
  simp [replay, List.foldlM_append]

/-- The event the code logs is the one the protocol allows next. -/
theorem replay_concat (h : replay none log = some hold) (hn : next hold event = some hold') :
    replay none (log ++ [event]) = some hold' := by
  rw [replay_append, h]
  simp [replay_cons, hn]

/-- Without a release the captured state stays, and it counts as put back only by an attempt. -/
theorem replay_captured {holder : κ} {restored : Bool} {result : Option (Hold κ σ)}
    (h : replay (some ⟨holder, some state, restored⟩) log = some result)
    (hr : ∀ k, Event.release k ∉ log) :
    ∃ restored', result = some ⟨holder, some state, restored'⟩ ∧
      (restored' = true → restored = true ∨ Event.restore state ∈ log) := by
  induction log generalizing restored with
  | nil =>
    cases h
    exact ⟨restored, rfl, .inl⟩
  | cons event log ih =>
    rw [replay_cons] at h
    have hrest : ∀ k, Event.release k ∉ log := fun k hk => hr k (List.mem_cons_of_mem _ hk)
    cases event with
    | claim k => cases h
    | capture s => simp [next] at h
    | change m =>
      simp only [next, Option.isSome_some, if_true, Option.bind_some] at h
      obtain ⟨restored', rfl, hmem⟩ := ih h hrest
      refine ⟨restored', rfl, fun hr' => .inr ?_⟩
      exact List.mem_cons_of_mem _ ((hmem hr').resolve_left (by simp))
    | restore s =>
      simp only [next] at h
      split_ifs at h with hs
      · obtain rfl : state = s := Option.some.inj hs
        obtain ⟨restored', rfl, _⟩ := ih h hrest
        exact ⟨restored', rfl, fun _ => .inr List.mem_cons_self⟩
      · cases h
    | release k => exact absurd List.mem_cons_self (hr k)

/-- **The obligation of a lease.** In an accepted log the captured state is put back between its
capture and the release. -/
theorem restore_mem {before after : List (Event κ σ μ)} {holder : κ}
    (h : (replay none (before ++ .capture state :: log ++ .release holder :: after)).isSome = true)
    (hr : ∀ k, Event.release k ∉ log) : Event.restore state ∈ log := by
  rw [List.append_assoc, List.cons_append, replay_append] at h
  cases h1 : replay none before with
  | none => simp [h1] at h
  | some hold =>
    rw [h1, Option.bind_some, replay_cons] at h
    cases hold with
    | none => simp [next] at h
    | some hold =>
      simp only [next] at h
      split_ifs at h
      · rw [Option.bind_some, replay_append] at h
        cases h2 : replay (some { hold with captured := some state, restored := false }) log with
        | none => simp [h2] at h
        | some result =>
          obtain ⟨restored', rfl, hmem⟩ := replay_captured h2 hr
          rw [h2, Option.bind_some, replay_cons] at h
          simp only [next] at h
          split_ifs at h with hrelease
          · exact (hmem hrelease.2).resolve_left (by simp)
          · simp at h
      · simp at h

end Lib.Lease

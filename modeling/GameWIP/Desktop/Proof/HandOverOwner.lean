import GameWIP.Desktop.Proof.HandOver

/-!
# The owner's steps, and all interleavings

The invariant of `HandOver` is kept by the return of a hand-over and by every step of the owner
(`invariant_step`), so it holds in every state that an interleaving reaches.
-/

namespace Desktop

namespace HandOver

open Lib

variable {kind : StateId → StateKind}

section
variable {s t : State} {place : StateId → Place} {queue : StateKind → List StateId}
  {chain : List StateId} {thread : ThreadId}

/-! ### The return of a hand-over -/

/-- Behind a step of the call that has the lock, or of one without it. -/
theorem CallOk.of_unlock (hc : Controlled kind s queue chain) {call : Call} {result : Bool}
    (hcall : s.calls thread = some call) (hphase : call.phase = .leave result) {u : ThreadId}
    (hu : u ≠ thread) {other : Call} (hother : s.calls u = some other) :
    CallOk kind s.owner (if call.direct then s.registryLock else none) chain u other := by
  have hok := hc.calls u other hother
  exact { hok with
    lock := fun hdirect hne => by
      have hheld := hok.lock hdirect hne
      cases hd : call.direct with
      | true => simpa using hheld
      | false =>
        -- only one thread is behind the lock
        have hmine := (hc.calls thread call hcall).lock hd (by simp [hphase])
        exact absurd (Option.some.inj (hheld.symm.trans hmine)) hu }

theorem accepted_return {lock : Option ThreadId} {n : StateId}
    (h : Accepted (setCall { s with registryLock := lock } thread none) n) : Accepted s n := by
  rcases h with h | ⟨u, other, hother, hrest⟩
  · exact .inl h
  · by_cases hu : u = thread
    · subst hu
      simp [setCall] at hother
    · exact .inr ⟨u, other, by simpa [setCall, hu] using hother, hrest⟩

/-- The owner's chain is back on the list of its kind. -/
theorem invariant_returnBack {call : Call} {result : Bool} (hp : Placed kind s place queue chain)
    (hc : Controlled kind s queue chain) (hcall : s.calls thread = some call)
    (hback : call.putsBack = true) (hphase : call.phase = .leave result) :
    Invariant kind { setCall { s with registryLock := if call.direct then s.registryLock else none }
      thread none with cleanup := none, owner := .idle } := by
  have hok := hc.calls thread call hcall
  obtain ⟨hthread, howner, -, -⟩ := hok.back hback
  obtain ⟨-, rfl⟩ := hok.done hback result hphase
  have hregistered : s.registered = true := by
    by_contra herased
    have hphase := hc.erased.1 (by simpa using herased)
    rw [howner] at hphase
    exact hphase
  refine ⟨place, queue, [], hp.of_eq rfl rfl hp.cleanup.symm rfl rfl (fun u => ?_) fun n hn => ?_, ?_⟩
  · by_cases hu : u = thread
    · subst hu
      simp [carried, setCall, hcall, hback]
    · simp [carried, setCall, hu]
  · exact @accepted_return s thread _ n hn
  · exact {
      kinds := fun _ h => by cases h
      empty := fun _ => rfl
      tail := fun _ h => by cases h
      calls := by
        intro u other hother
        by_cases hu : u = thread
        · subst hu
          simp [setCall] at hother
        · have hother : s.calls u = some other := by simpa [setCall, hu] using hother
          exact (CallOk.of_unlock hc hcall hphase hu hother).of_other (hthread ▸ hu)
      ownerCall := fun _ => .inl rfl
      exiting := fun h => by cases h
      erased := ⟨fun h => absurd (hregistered.symm.trans h) (by simp), (fun h => by cases h)⟩
      silent := fun h => absurd (hregistered.symm.trans h) (by simp)
      emptied := fun _ h => by cases h }

/-- What the return of a caller's hand-over keeps of the control. -/
theorem Controlled.return (hc : Controlled kind s queue chain) {call : Call} {result : Bool}
    (hcall : s.calls thread = some call) (hphase : call.phase = .leave result)
    (held : StateId → Bool) (returned : List Returned) :
    Controlled kind { setCall { s with registryLock := if call.direct then s.registryLock else none }
      thread none with held := held, returned := returned } queue chain := by
  have hnotExiting : ¬ Exiting s.owner := fun hexit => by
    have henter := (hc.exiting hexit).2 thread call hcall
    rw [hphase] at henter
    cases henter
  have hremaining : ∀ {u : ThreadId} {other : Call},
      (setCall { s with registryLock := if call.direct then s.registryLock else none }
        thread none).calls u = some other → u ≠ thread ∧ s.calls u = some other := by
    intro u other hother
    by_cases hu : u = thread
    · subst hu
      simp [setCall] at hother
    · exact ⟨hu, by simpa [setCall, hu] using hother⟩
  exact {
    kinds := hc.kinds
    empty := hc.empty
    tail := hc.tail
    calls := fun u other hother => by
      obtain ⟨hu, hother⟩ := hremaining hother
      exact CallOk.of_unlock hc hcall hphase hu hother
    ownerCall := fun hsome => by
      obtain ⟨other, hother⟩ := Option.ne_none_iff_exists'.1 hsome
      obtain ⟨-, hother⟩ := hremaining hother
      exact hc.ownerCall (by simp [hother])
    exiting := fun hexit => absurd hexit hnotExiting
    erased := hc.erased
    silent := fun herased u other hother => hc.silent herased u other (hremaining hother).2
    emptied := hc.emptied }

theorem invariant_returnCall (h : Invariant kind s) (hs : returnCall s thread = some t) :
    Invariant kind t := by
  obtain ⟨place, queue, chain, hp, hc⟩ := h
  unfold returnCall at hs
  split at hs
  · rename_i call hcall
    have hok := hc.calls thread call hcall
    split at hs
    · rename_i result hphase
      dsimp only at hs
      split at hs
      · rename_i hback
        obtain rfl := Option.some.inj hs
        exact invariant_returnBack hp hc hcall hback hphase
      · rename_i hback
        have hback : call.putsBack = false := by simpa using hback
        obtain ⟨n, hn, -, -⟩ := hok.own hback
        rw [hn] at hs
        obtain rfl := Option.some.inj hs
        have hcontrol := hc.return hcall hphase (Function.update s.held n !result)
          (s.returned ++ [⟨n, true, result⟩])
        have hothers : ∀ m, Accepted { setCall { s with
            registryLock := if call.direct then s.registryLock else none } thread none with
            held := Function.update s.held n !result
            returned := s.returned ++ [⟨n, true, result⟩] } m →
            Accepted s m ∨ m = n ∧ result = true := by
          rintro m (hm | hm)
          · rcases List.mem_append.1 hm with hm | hm
            · exact .inl (.inl hm)
            · simp at hm
              exact .inr hm
          · exact .inl (@accepted_return s thread _ m (.inr hm))
        cases result with
        | true =>
          have haccepted : Accepted s n := .inr ⟨thread, call, hcall, hback, hn, hphase⟩
          have hsettled := hp.accepted n haccepted
          have hheld : s.held n = false := by
            by_contra hheld
            have hplace := (hp.held n).1 (by simpa using hheld)
            rw [hplace] at hsettled
            exact hsettled
          refine ⟨place, queue, chain, hp.of_eq rfl rfl rfl ?_ rfl (fun u => ?_) fun m hm => ?_,
            hcontrol⟩
          · exact Function.update_eq_self_iff.2 hheld.symm
          · by_cases hu : u = thread
            · subst hu
              simp [carried, setCall, hcall, hphase]
            · simp [carried, setCall, hu]
          · rcases hothers m hm with hm | ⟨rfl, -⟩
            · exact hm
            · exact haccepted
        | false =>
          have hcarries : carried s thread = some n := by
            simp [carried, hcall, hback, hphase, hn]
          refine ⟨_, queue, chain, hp.giveBack hcarries rfl rfl rfl rfl rfl (fun u => ?_)
            fun m hm => ?_, hcontrol⟩
          · by_cases hu : u = thread
            · subst hu
              simp [carried, setCall]
            · simp [carried, setCall, hu]
          · exact (hothers m hm).resolve_right (by simp)
    · cases hs
  · cases hs

/-! ### The owner without a call -/

/-- Steps of the owner while it has no call. -/
theorem Controlled.of_owner {queue' : StateKind → List StateId} {chain' : List StateId}
    (hc : Controlled kind s queue chain) (hnone : s.calls ownerThread = none)
    (hcalls : t.calls = s.calls) (hlock : t.registryLock = s.registryLock)
    (hregistered : t.registered = s.registered)
    (hkinds : ∀ k, chainKind t.owner = some k → ∀ n ∈ chain', kind n = k)
    (hempty : chainKind t.owner = none → chain' = [])
    (htail : ∀ tail, t.owner = .requeue tail → tail ∈ chain')
    (hexiting : Exiting t.owner → Exiting s.owner) (herased : Erased t.owner ↔ Erased s.owner)
    (hemptied : ∀ k ∈ HandOver.emptied t.owner, queue' k = []) : Controlled kind t queue' chain' where
  kinds := hkinds
  empty := hempty
  tail := htail
  calls := by
    intro u call hcall
    rw [hcalls] at hcall
    have hu : u ≠ ownerThread := fun heq => by simp [heq, hnone] at hcall
    rw [hlock]
    exact (hc.calls u call hcall).of_other hu
  ownerCall := fun hsome => absurd (hcalls ▸ hnone) hsome
  exiting := fun hexit => by
    rw [hlock, hcalls]
    exact hc.exiting (hexiting hexit)
  erased := by rw [hregistered, herased, hc.erased]
  silent := by
    rw [hregistered, hcalls]
    exact hc.silent
  emptied := hemptied

theorem Controlled.ownerCall_eq_none (hc : Controlled kind s queue chain) (hidle : s.owner ≠ .idle)
    (hback : s.owner ≠ .putBack) : s.calls ownerThread = none := by
  by_contra hsome
  rcases hc.ownerCall hsome with h | h
  · exact hidle h
  · exact hback h

theorem invariant_prune (h : Invariant kind s) (hs : prune s = some t) : Invariant kind t := by
  obtain ⟨place, queue, chain, hp, hc⟩ := h
  unfold prune at hs
  split at hs
  · rename_i hguard
    obtain ⟨howner, hnone⟩ := hguard
    obtain rfl := Option.some.inj hs
    have hempty : chain = [] := hc.empty (by rw [howner]; rfl)
    refine ⟨place, queue, chain, hp.of_eq rfl rfl rfl rfl rfl (fun _ => rfl) fun _ hn => hn, ?_⟩
    exact hc.of_owner hnone rfl rfl rfl nofun (fun _ => hempty) nofun nofun
      (by simp [Erased, howner]) nofun
  · cases hs

theorem mem_emptied_exitDrain {k k' : StateKind} (h : k' ∈ emptied (.exitDrain k)) :
    k' = k ∨ k' ∈ emptied (.exitTake k) := by
  cases k <;> simp_all [HandOver.emptied] <;> tauto

theorem erased_exitDrain (k : StateKind) : Erased (.exitDrain k) ↔ Erased (.exitTake k) := by
  cases k <;> rfl

theorem invariant_take (h : Invariant kind s) (hs : take s = some t) : Invariant kind t := by
  obtain ⟨place, queue, chain, hp, hc⟩ := h
  unfold take at hs
  have hmine : ∀ {k : StateKind} (k' : StateKind), some k = some k' → ∀ n ∈ queue k, kind n = k' := by
    intro k k' hk n hn
    obtain rfl := Option.some.inj hk
    exact ((hp.mem_queue k n).1 hn).2
  split at hs
  · rename_i k howner
    obtain rfl := Option.some.inj hs
    obtain rfl : chain = [] := hc.empty (by rw [howner]; rfl)
    refine ⟨_, _, _, hp.takeList k (.drain k), ?_⟩
    exact hc.of_owner (hc.ownerCall_eq_none (by simp [howner]) (by simp [howner])) rfl rfl rfl
      hmine (fun h => by cases h) (fun _ h => by cases h) (fun h => by cases h) (by simp [takeList, Erased, howner]) (fun _ h => by cases h)
  · rename_i k howner
    obtain rfl := Option.some.inj hs
    obtain rfl : chain = [] := hc.empty (by rw [howner]; rfl)
    refine ⟨_, _, _, hp.takeList k (.exitDrain k), ?_⟩
    refine hc.of_owner (hc.ownerCall_eq_none (by simp [howner]) (by simp [howner])) rfl rfl rfl
      hmine (fun h => by cases h) (fun _ h => by cases h) (fun _ => by rw [howner]; trivial) ?_ fun k' hk' => ?_
    · rw [howner]
      exact erased_exitDrain k
    · rcases mem_emptied_exitDrain hk' with rfl | hk'
      · exact Function.update_self _ _ _
      · by_cases hk : k' = k
        · rw [hk, Function.update_self]
        · rw [Function.update_of_ne hk]
          exact hc.emptied k' (by rwa [howner])
  · cases hs

theorem invariant_finalizeFirst {n : StateId} {rest : List StateId}
    (hp : Placed kind s place queue (n :: rest)) (hc : Controlled kind s queue (n :: rest))
    {k : StateKind} (hkind : chainKind s.owner = some k) (hrequeue : ∀ tail, s.owner ≠ .requeue tail)
    (hnone : s.calls ownerThread = none) : Invariant kind (finalizeFirst s n) := by
  refine ⟨_, queue, rest, hp.finalizeFirst, ?_⟩
  refine hc.of_owner hnone rfl rfl rfl (fun k' hk' m hm => ?_) (fun hempty => ?_) (fun tail htail => ?_)
    id Iff.rfl hc.emptied
  · exact hc.kinds k' hk' m (List.mem_cons_of_mem _ hm)
  · exact absurd (hkind.symm.trans hempty) (by simp)
  · exact absurd htail (hrequeue tail)

/-- The owner hands the failed chain over to itself. -/
theorem invariant_putBack (hp : Placed kind s place queue chain)
    (hc : Controlled kind s queue chain) (howner : s.owner = .drain .dragDropTarget)
    (hsome : chain ≠ []) (hnone : s.calls ownerThread = none) :
    Invariant kind (setCall { s with owner := .putBack } ownerThread
      (some { kind := .dragDropTarget, argument := none, putsBack := true })) := by
  have hregistered : ¬ s.registered = false := by
    rw [hc.erased, howner]
    exact id
  refine ⟨place, queue, chain, hp.of_eq rfl rfl rfl rfl rfl (fun u => ?_) fun n hn => ?_, ?_⟩
  · rw [carried_setCall]
    by_cases hu : u = ownerThread
    · simp [hu, carried, hnone]
    · simp [hu, carried]
  · rcases hn with hn | ⟨u, other, hother, hrest⟩
    · exact .inl hn
    · by_cases hu : u = ownerThread
      · subst hu
        simp only [setCall, Function.update_self, Option.some.injEq] at hother
        subst hother
        exact absurd hrest.1 (by simp)
      · exact .inr ⟨u, other, by simpa [setCall, hu] using hother, hrest⟩
  · exact {
      kinds := fun k hk => hc.kinds k (by rw [howner]; exact hk)
      empty := fun h => by cases h
      tail := fun _ h => by cases h
      calls := by
        refine forall_setCall (fun call hcall => ?_) fun u hu other hother => ?_
        · obtain rfl := Option.some.inj hcall
          exact {
            own := fun h => by cases h
            idle := fun h => by cases h
            back := fun _ => ⟨rfl, rfl, rfl, rfl⟩
            begun := fun _ _ => hsome
            tail := fun _ _ h => by cases h
            done := fun _ _ h => by cases h
            direct := fun h => by cases h
            lock := fun _ hne => absurd rfl hne }
        · exact (hc.calls u other hother).of_other hu
      ownerCall := fun _ => .inr rfl
      exiting := fun h => by cases h
      erased := ⟨fun h => absurd h hregistered, (fun h => by cases h)⟩
      silent := fun h => absurd h hregistered
      emptied := fun _ h => by cases h }

theorem emptied_exitAfter (k : StateKind) :
    HandOver.emptied (exitAfter k) = HandOver.emptied (.exitDrain k) := by
  cases k <;> rfl

theorem erased_exitAfter (k : StateKind) : Erased (exitAfter k) ↔ Erased (.exitDrain k) := by
  cases k <;> rfl

theorem chainKind_exitAfter (k : StateKind) : chainKind (exitAfter k) = none := by
  cases k <;> rfl

theorem exitAfter_ne_requeue (k : StateKind) (tail : StateId) : exitAfter k ≠ .requeue tail := by
  cases k <;> exact OwnerPhase.noConfusion

/-- Behind a list the prune goes on outside of the destructor with an empty chain. -/
theorem pruneAfter_spec (k : StateKind) : chainKind (pruneAfter k) = none ∧
    (∀ tail, pruneAfter k ≠ .requeue tail) ∧ ¬ Exiting (pruneAfter k) ∧ ¬ Erased (pruneAfter k) ∧
      HandOver.emptied (pruneAfter k) = [] := by
  cases k <;> exact ⟨rfl, fun _ => OwnerPhase.noConfusion, id, id, rfl⟩

/-- The owner leaves a drained list. -/
theorem invariant_drained {closed : Bool} (hp : Placed kind s place queue []) (hc : Controlled kind s queue [])
    (hnone : s.calls ownerThread = none) (hs : close s closed = some t)
    (hcleanup : s.cleanup = none) : Invariant kind t := by
  unfold close at hs
  rw [hcleanup] at hs
  split at hs
  · rename_i k howner hempty
    obtain rfl := Option.some.inj hs
    obtain ⟨hkind, hrequeue, hexiting, herased, hemptied⟩ := pruneAfter_spec k
    refine ⟨place, queue, [], hp.of_eq rfl rfl hcleanup.symm rfl rfl (fun _ => rfl)
      fun _ hn => hn, ?_⟩
    refine hc.of_owner hnone rfl rfl rfl (fun k' hk' => ?_) (fun _ => rfl) (fun tail htail => ?_)
      (fun h => absurd h hexiting) ?_ ?_
    · exact absurd (hkind.symm.trans hk') (by simp)
    · exact absurd htail (hrequeue tail)
    · rw [howner]
      exact iff_of_false herased id
    · dsimp only
      rw [hemptied]
      nofun
  · cases ‹none = some _›
  · rename_i k howner hempty
    obtain rfl := Option.some.inj hs
    refine ⟨place, queue, [], hp.of_eq rfl rfl hcleanup.symm rfl rfl (fun _ => rfl)
      fun _ hn => hn, ?_⟩
    refine hc.of_owner hnone rfl rfl rfl (fun k' hk' => ?_) (fun _ => rfl) (fun tail htail => ?_)
      (fun _ => ?_) ?_ ?_
    · exact absurd ((chainKind_exitAfter k).symm.trans hk') (by simp)
    · exact absurd htail (exitAfter_ne_requeue k tail)
    · rw [howner]
      trivial
    · rw [howner]
      exact erased_exitAfter k
    · dsimp only
      rw [emptied_exitAfter, ← howner]
      exact hc.emptied
  · cases ‹none = some _›
  · cases hs

theorem invariant_close {closed : Bool} (h : Invariant kind s) (hs : close s closed = some t) :
    Invariant kind t := by
  obtain ⟨place, queue, chain, hp, hc⟩ := h
  have hnone : s.calls ownerThread = none := by
    refine hc.ownerCall_eq_none (fun howner => ?_) fun howner => ?_ <;> rw [close, howner] at hs <;>
      cases hs
  cases hcleanup : s.cleanup with
  | none =>
    have hchain := hp.cleanup
    rw [hcleanup] at hchain
    obtain rfl := hchain.eq_nil
    exact invariant_drained hp hc hnone hs hcleanup
  | some n =>
    have hchain := hp.cleanup
    rw [hcleanup] at hchain
    obtain ⟨rest, rfl, -⟩ := hchain.eq_cons
    unfold close at hs
    rw [hcleanup] at hs
    split at hs
    · cases ‹some n = none›
    · rename_i k state howner hstate
      obtain rfl := Option.some.inj hstate
      split at hs
      · rename_i hkept
        split at hs
        · -- a failed progress dialog
          rename_i hprogress
          subst hprogress
          obtain rfl := Option.some.inj hs
          refine ⟨place, queue, n :: rest, hp.of_eq rfl rfl hcleanup.symm rfl rfl (fun _ => rfl)
            fun _ hn => hn, ?_⟩
          refine hc.of_owner hnone rfl rfl rfl (fun k hk => ?_) nofun (fun tail htail => ?_) nofun ?_
            nofun
          · exact hc.kinds k (by rw [howner]; exact hk)
          · obtain rfl := OwnerPhase.requeue.inj htail
            exact List.mem_cons_self
          · rw [howner]
            exact Iff.rfl
        · -- a failed drop target
          rename_i hprogress
          have hdrop : k = .dragDropTarget := by
            cases k <;> simp_all [keptOnFailure]
          subst hdrop
          obtain rfl := Option.some.inj hs
          have hput := invariant_putBack hp hc howner (List.cons_ne_nil _ _) hnone
          rwa [hcleanup] at hput
      · obtain rfl := Option.some.inj hs
        exact invariant_finalizeFirst hp hc (k := k) (by rw [howner]; rfl) (by simp [howner]) hnone
    · cases ‹some n = none›
    · rename_i k state howner hstate
      obtain rfl := Option.some.inj hstate
      obtain rfl := Option.some.inj hs
      exact invariant_finalizeFirst hp hc (k := k) (by rw [howner]; rfl) (by simp [howner]) hnone
    · cases hs

theorem invariant_requeue (h : Invariant kind s) (hs : requeue s = some t) : Invariant kind t := by
  obtain ⟨place, queue, chain, hp, hc⟩ := h
  unfold requeue at hs
  split at hs
  · rename_i tail howner
    have hnone := hc.ownerCall_eq_none (by simp [howner]) (by simp [howner])
    obtain ⟨l, l₂, rfl⟩ := List.append_of_mem (hc.tail tail howner)
    have hhead := hp.cleanup.next_eq
    split at hs
    · rename_i following hnext
      obtain rfl := Option.some.inj hs
      refine ⟨place, queue, _, hp.of_eq rfl rfl rfl rfl rfl (fun _ => rfl) fun _ hn => hn, ?_⟩
      refine hc.of_owner hnone rfl rfl rfl (fun k hk => ?_) nofun (fun tail' htail => ?_) nofun ?_
        nofun
      · exact hc.kinds k (by rw [howner]; exact hk)
      · obtain rfl := OwnerPhase.requeue.inj htail
        rw [hnext] at hhead
        exact List.mem_append_right _ (List.mem_cons_of_mem _ (List.mem_of_head? hhead.symm))
      · rw [howner]
        exact Iff.rfl
    · rename_i hnext
      obtain rfl := Option.some.inj hs
      obtain rfl : l₂ = [] := by
        rw [hnext] at hhead
        exact List.head?_eq_none_iff.1 hhead.symm
      have hkinds : ∀ n ∈ l ++ [tail], kind n = .progressDialog :=
        hc.kinds .progressDialog (by rw [howner]; rfl)
      refine ⟨_, _, [], hp.linkChain hkinds rfl rfl rfl rfl rfl (fun _ => rfl) fun _ hn => hn, ?_⟩
      refine hc.of_owner hnone rfl rfl rfl nofun (fun _ => rfl) nofun nofun ?_ nofun
      rw [howner]
      exact Iff.rfl
  · cases hs

theorem invariant_exit (h : Invariant kind s) (hs : exit s = some t) : Invariant kind t := by
  obtain ⟨place, queue, chain, hp, hc⟩ := h
  unfold exit at hs
  split at hs
  · rename_i howner
    split at hs
    · rename_i hguard
      obtain ⟨hnone, hfree⟩ := hguard
      obtain rfl := Option.some.inj hs
      obtain rfl : chain = [] := hc.empty (by rw [howner]; rfl)
      refine ⟨place, queue, [], hp.of_eq rfl rfl rfl rfl rfl (fun _ => rfl) fun _ hn => hn, ?_⟩
      have henter : ∀ u call, s.calls u = some call → u ≠ ownerThread ∧ call.phase = .enter := by
        intro u call hcall
        have hok := hc.calls u call hcall
        have hu : u ≠ ownerThread := fun heq => by simp [heq, hnone] at hcall
        refine ⟨hu, ?_⟩
        by_contra hphase
        have hdirect : call.direct = false := by
          by_contra hdirect
          exact hu (hok.direct (by simpa using hdirect)).1
        have hlock := hok.lock hdirect hphase
        rw [hfree] at hlock
        cases hlock
      exact {
        kinds := nofun
        empty := fun _ => rfl
        tail := nofun
        calls := fun u call hcall => by
          have hok : CallOk kind (.exitTake .progressDialog) s.registryLock [] u call :=
            (hc.calls u call hcall).of_other (henter u call hcall).1
          exact { hok with lock := fun _ hphase => absurd (henter u call hcall).2 hphase }
        ownerCall := fun hsome => absurd hnone hsome
        exiting := fun _ => ⟨rfl, fun u call hcall => (henter u call hcall).2⟩
        erased := by
          change s.registered = false ↔ _
          rw [hc.erased, howner]
          exact Iff.rfl
        silent := hc.silent
        emptied := nofun }
    · cases hs
  · rename_i howner
    obtain rfl := Option.some.inj hs
    obtain rfl : chain = [] := hc.empty (by rw [howner]; rfl)
    obtain ⟨hlock, henter⟩ := hc.exiting (by rw [howner]; trivial)
    have hnone := hc.ownerCall_eq_none (by simp [howner]) (by simp [howner])
    refine ⟨place, queue, [], hp.of_eq rfl rfl rfl rfl rfl (fun _ => rfl) fun _ hn => hn, ?_⟩
    exact {
      kinds := nofun
      empty := fun _ => rfl
      tail := nofun
      calls := fun u call hcall =>
        (hc.calls u call hcall).of_other fun heq => by simp [heq, hnone] at hcall
      ownerCall := fun hsome => absurd hnone hsome
      exiting := fun _ => ⟨hlock, henter⟩
      erased := iff_of_true rfl trivial
      silent := fun _ u call hcall => .inl (henter u call hcall)
      emptied := fun k hk => hc.emptied k (by rw [howner]; exact hk) }
  · rename_i howner
    obtain rfl := Option.some.inj hs
    obtain rfl : chain = [] := hc.empty (by rw [howner]; rfl)
    obtain ⟨-, henter⟩ := hc.exiting (by rw [howner]; trivial)
    have hnone := hc.ownerCall_eq_none (by simp [howner]) (by simp [howner])
    refine ⟨place, queue, [], hp.of_eq rfl rfl rfl rfl rfl (fun _ => rfl) fun _ hn => hn, ?_⟩
    exact {
      kinds := nofun
      empty := fun _ => rfl
      tail := nofun
      calls := fun u call hcall => by
        have hok : CallOk kind .exited s.registryLock [] u call :=
          (hc.calls u call hcall).of_other fun heq => by simp [heq, hnone] at hcall
        exact { hok with lock := fun _ hphase => absurd (henter u call hcall) hphase }
      ownerCall := fun hsome => absurd hnone hsome
      exiting := nofun
      erased := by
        change s.registered = false ↔ _
        rw [hc.erased, howner]
        exact Iff.rfl
      silent := hc.silent
      emptied := fun k hk => hc.emptied k (by rw [howner]; exact hk) }
  · cases hs

end

/-- **The invariant of all interleavings.** Every step of every thread keeps it. -/
theorem invariant_step (s : State) (a : Action) (t : State) (h : Invariant kind s)
    (hs : step kind s a = some t) : Invariant kind t := by
  cases a with
  | handOver thread state native => exact invariant_handOver h hs
  | lockRegistry thread => exact invariant_lockRegistry h hs
  | find thread => exact invariant_find h hs
  | splice thread => exact invariant_splice h hs
  | «return» thread => exact invariant_returnCall h hs
  | prune => exact invariant_prune h hs
  | take => exact invariant_take h hs
  | close closed => exact invariant_close h hs
  | requeue => exact invariant_requeue h hs
  | exit => exact invariant_exit h hs

end HandOver

end Desktop

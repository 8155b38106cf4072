import GameWIP.Desktop.Proof.HandOverOwner

/-!
# Whole runs of hand-overs

What the invariant says of a run: each state whose hand-over was accepted is at one place, a chain
that could not be closed stays together until its kind is taken again (`Kept`), and behind the
destructor nothing is left and nothing accepted any more.
-/

namespace Desktop

namespace HandOver

open Lib

variable {kind : StateId → StateKind}

/-- The owner is putting a chain of the kind back. -/
def PutsBack (k : StateKind) : OwnerPhase → Prop
  | .requeue _ => k = .progressDialog
  | .putBack => k = .dragDropTarget
  | _ => False

/-- The owner takes the list of the kind. -/
def Takes (k : StateKind) (x : Transition State Action) : Prop :=
  x.action = .take ∧ (x.pre.owner = .take k ∨ x.pre.owner = .exitTake k)

/-- The states are together, in the chain that is put back or on the list of their kind. -/
def Kept (k : StateKind) (kept : List StateId) (s : State) : Prop :=
  PutsBack k s.owner ∧ Chain s.next s.cleanup kept ∨
    ∃ before behind, Chain s.next (s.heads k) (before ++ kept ++ behind)

section
variable {s t : State} {k : StateKind} {kept : List StateId} {thread : ThreadId}

theorem Kept.congr (h : Kept k kept s) (hnext : t.next = s.next) (hheads : t.heads = s.heads)
    (hcleanup : t.cleanup = s.cleanup) (howner : t.owner = s.owner) : Kept k kept t := by
  rwa [Kept, hnext, hheads, hcleanup, howner]

/-- Steps that leave the lists alone while nothing is put back. -/
theorem Kept.of_not_putsBack (h : Kept k kept s) (hnot : ¬ PutsBack k s.owner)
    (hnext : t.next = s.next) (hheads : t.heads k = s.heads k) : Kept k kept t := by
  obtain ⟨hputs, -⟩ | h := h
  · exact absurd hputs hnot
  · exact .inr (by rwa [hnext, hheads])

theorem Kept.handOver {n : StateId} {native : Bool} (h : Kept k kept s)
    (hs : handOver kind s thread n native = some t) : Kept k kept t := by
  unfold HandOver.handOver at hs
  split at hs
  · cases hs
  · split at hs <;> obtain rfl := Option.some.inj hs <;> exact h.congr rfl rfl rfl rfl

theorem Kept.lockRegistry (h : Kept k kept s) (hs : lockRegistry s thread = some t) :
    Kept k kept t := by
  unfold HandOver.lockRegistry at hs
  split at hs
  · split at hs
    · obtain rfl := Option.some.inj hs
      exact h.congr rfl rfl rfl rfl
    · cases hs
  · cases hs

theorem Kept.find (h : Kept k kept s) (hs : find s thread = some t) : Kept k kept t := by
  unfold HandOver.find at hs
  split at hs
  · split at hs
    · obtain rfl := Option.some.inj hs
      exact h.congr rfl rfl rfl rfl
    · cases hs
  · cases hs

/-- A chain in front of a list of its own or of another kind. -/
theorem Kept.linkFront {place : StateId → Place} {queue : StateKind → List StateId}
    {chain l : List StateId} {tail : StateId} {head : Option StateId} {k' : StateKind}
    (hp : Placed kind s place queue chain) (hchain : Chain s.next head (l ++ [tail]))
    (hnodup : (l ++ [tail]).Nodup) (hout : ∀ n ∈ l ++ [tail], place n ≠ .queued)
    (h : (∃ before behind, Chain s.next (s.heads k) (before ++ kept ++ behind)) ∨
      k' = k ∧ kept = l ++ [tail]) :
    ∃ before behind, Chain (linkFront s k' tail head).next
      ((linkFront s k' tail head).heads k) (before ++ kept ++ behind) := by
  have hlinked := hp.heads_linkFront hchain hnodup hout (k := k') k
  obtain ⟨before, behind, h⟩ | ⟨rfl, rfl⟩ := h
  · have hqueue := (hp.heads k).unique h
    by_cases hk : k = k'
    · subst hk
      rw [Function.update_self, hqueue] at hlinked
      exact ⟨l ++ [tail] ++ before, behind, by simpa only [List.append_assoc] using hlinked⟩
    · rw [Function.update_of_ne hk, hqueue] at hlinked
      exact ⟨before, behind, hlinked⟩
  · rw [Function.update_self] at hlinked
    exact ⟨[], queue k', hlinked⟩

theorem Kept.splice (hinv : Invariant kind s) (h : Kept k kept s) (hs : splice s thread = some t) :
    Kept k kept t := by
  obtain ⟨place, queue, chain, hp, hc⟩ := hinv
  unfold HandOver.splice at hs
  split at hs
  · rename_i call hcall
    have hok := hc.calls thread call hcall
    split at hs
    · rename_i tail hphase
      split at hs
      · obtain rfl := Option.some.inj hs
        exact h.congr rfl rfl rfl rfl
      · rename_i hother
        obtain rfl := Option.some.inj hs
        by_cases hback : call.putsBack = true
        · obtain ⟨hthread, howner, hkind, -⟩ := hok.back hback
          have hlast : s.next tail = none := by
            by_contra hsome
            obtain ⟨following, hfollowing⟩ := Option.ne_none_iff_exists'.1 hsome
            exact hother following (by rw [hkind]; rfl) hfollowing
          obtain ⟨l, l₂, rfl⟩ := List.append_of_mem (hok.tail hback tail hphase)
          obtain rfl : l₂ = [] := by
            have hhead := hp.cleanup.next_eq
            rw [hlast] at hhead
            exact List.head?_eq_none_iff.1 hhead.symm
          have hout : ∀ n ∈ l ++ [tail], place n ≠ .queued := fun n hn => by
            simp [(hp.mem_chain n).1 hn]
          refine .inr ?_
          have hlinked := @Kept.linkFront kind s k kept place queue _ l tail _ call.kind hp hp.cleanup
            hp.chain_nodup hout ?_
          · simpa [argument, hback, setCall] using hlinked
          · obtain ⟨hputs, hkept⟩ | h := h
            · rw [howner] at hputs
              exact .inr ⟨hkind.trans hputs.symm, hkept.unique hp.cleanup⟩
            · exact .inl h
        · have hback : call.putsBack = false := by simpa using hback
          obtain ⟨n, hn, -, htail⟩ := hok.own hback
          obtain rfl := htail tail hphase
          have hcarries : carried s thread = some tail := by
            simp [carried, hcall, hback, hphase, hn]
          have hplace := (hp.handing thread tail).1 hcarries
          have hloose := hp.loose tail (by simp [hplace, Place.Settled])
          obtain ⟨hputs, hkept⟩ | h := h
          · refine .inl ⟨by simpa [hback, setCall, HandOver.linkFront] using hputs, ?_⟩
            have hmem : tail ∉ kept := fun hmem => by
              rw [hkept.unique hp.cleanup, hp.mem_chain, hplace] at hmem
              cases hmem
            simpa [hback, setCall, HandOver.linkFront] using hkept.update hmem (s.heads call.kind)
          · refine .inr ?_
            have hlinked := @Kept.linkFront kind s k kept place queue chain [] tail (some tail) call.kind hp
              ⟨rfl, hloose⟩
              (List.nodup_singleton tail) (fun m hm => by
                rw [List.mem_singleton.1 hm, hplace]
                simp) (.inl h)
            simpa [argument, hback, hn, setCall] using hlinked
    · cases hs
  · cases hs

theorem Kept.returnCall (hinv : Invariant kind s) (h : Kept k kept s) (hsome : kept ≠ [])
    (hs : returnCall s thread = some t) : Kept k kept t := by
  obtain ⟨place, queue, chain, hp, hc⟩ := hinv
  unfold HandOver.returnCall at hs
  split at hs
  · rename_i call hcall
    have hok := hc.calls thread call hcall
    split at hs
    · rename_i result hphase
      dsimp only at hs
      split at hs
      · rename_i hback
        obtain rfl := Option.some.inj hs
        obtain ⟨-, rfl⟩ := hok.done hback result hphase
        obtain ⟨-, hkept⟩ | h := h
        · exact absurd (hkept.unique hp.cleanup) hsome
        · exact .inr h
      · split at hs
        · obtain rfl := Option.some.inj hs
          exact h.congr rfl rfl rfl rfl
        · cases hs
    · cases hs
  · cases hs

theorem Kept.close {closed : Bool} (hinv : Invariant kind s) (h : Kept k kept s)
    (hs : close s closed = some t) : Kept k kept t := by
  obtain ⟨place, queue, chain, hp, hc⟩ := hinv
  have hnot : ¬ PutsBack k s.owner := fun hputs => by
    unfold HandOver.close at hs
    split at hs <;> simp_all [PutsBack]
  have hfirst : ∀ n, s.cleanup = some n → Kept k kept (finalizeFirst s n) := by
    intro n hn
    obtain ⟨hputs, -⟩ | ⟨before, behind, h⟩ := h
    · exact absurd hputs hnot
    · refine .inr ⟨before, behind, h.update (fun hmem => ?_) none⟩
      have hhead := hp.cleanup.head_eq
      rw [hn] at hhead
      have hchain := (hp.mem_chain n).1 (List.mem_of_head? hhead.symm)
      rw [← (hp.heads k).unique h, hp.mem_queue, hchain] at hmem
      cases hmem.1
  unfold HandOver.close at hs
  split at hs
  · obtain rfl := Option.some.inj hs
    exact h.of_not_putsBack hnot rfl rfl
  · rename_i hn
    split at hs
    · split at hs <;> obtain rfl := Option.some.inj hs <;> exact h.of_not_putsBack hnot rfl rfl
    · obtain rfl := Option.some.inj hs
      exact hfirst _ hn
  · obtain rfl := Option.some.inj hs
    exact h.of_not_putsBack hnot rfl rfl
  · rename_i hn
    obtain rfl := Option.some.inj hs
    exact hfirst _ hn
  · cases hs

theorem Kept.take (h : Kept k kept s) (hs : take s = some t)
    (hother : s.owner ≠ .take k ∧ s.owner ≠ .exitTake k) : Kept k kept t := by
  unfold HandOver.take at hs
  split at hs
  · rename_i k' howner
    obtain rfl := Option.some.inj hs
    have hk : k ≠ k' := fun hk => hother.1 (hk ▸ howner)
    exact h.of_not_putsBack (by simp [howner, PutsBack]) rfl (Function.update_of_ne hk _ _)
  · rename_i k' howner
    obtain rfl := Option.some.inj hs
    have hk : k ≠ k' := fun hk => hother.2 (hk ▸ howner)
    exact h.of_not_putsBack (by simp [howner, PutsBack]) rfl (Function.update_of_ne hk _ _)
  · cases hs

theorem Kept.requeue (hinv : Invariant kind s) (h : Kept k kept s) (hs : requeue s = some t) :
    Kept k kept t := by
  obtain ⟨place, queue, chain, hp, hc⟩ := hinv
  unfold HandOver.requeue at hs
  split at hs
  · rename_i tail howner
    obtain ⟨l, l₂, rfl⟩ := List.append_of_mem (hc.tail tail howner)
    split at hs
    · obtain rfl := Option.some.inj hs
      obtain ⟨hputs, hkept⟩ | h := h
      · rw [howner] at hputs
        exact .inl ⟨hputs, hkept⟩
      · exact .inr h
    · rename_i hlast
      obtain rfl := Option.some.inj hs
      obtain rfl : l₂ = [] := by
        have hhead := hp.cleanup.next_eq
        rw [hlast] at hhead
        exact List.head?_eq_none_iff.1 hhead.symm
      have hout : ∀ n ∈ l ++ [tail], place n ≠ .queued := fun n hn => by
        simp [(hp.mem_chain n).1 hn]
      refine .inr (Kept.linkFront hp hp.cleanup hp.chain_nodup hout ?_)
      obtain ⟨hputs, hkept⟩ | h := h
      · rw [howner] at hputs
        exact .inr ⟨hputs.symm, hkept.unique hp.cleanup⟩
      · exact .inl h
  · cases hs

/-- One step keeps the states together unless it takes their list. -/
theorem Kept.step {a : Action} (hinv : Invariant kind s) (h : Kept k kept s) (hsome : kept ≠ [])
    (hs : step kind s a = some t) (hother : ¬ Takes k ⟨s, a, t⟩) : Kept k kept t := by
  cases a with
  | handOver thread state native => exact h.handOver hs
  | lockRegistry thread => exact h.lockRegistry hs
  | find thread => exact h.find hs
  | splice thread => exact Kept.splice hinv h hs
  | «return» thread => exact Kept.returnCall hinv h hsome hs
  | prune =>
    change HandOver.prune s = some t at hs
    unfold HandOver.prune at hs
    split at hs
    · rename_i hguard
      obtain rfl := Option.some.inj hs
      exact h.of_not_putsBack (by simp [hguard.1, PutsBack]) rfl rfl
    · cases hs
  | take => exact h.take hs ⟨fun h => hother ⟨rfl, .inl h⟩, fun h => hother ⟨rfl, .inr h⟩⟩
  | close closed => exact Kept.close hinv h hs
  | requeue => exact Kept.requeue hinv h hs
  | exit =>
    change HandOver.exit s = some t at hs
    unfold HandOver.exit at hs
    split at hs
    · rename_i howner
      split at hs
      · obtain rfl := Option.some.inj hs
        exact h.of_not_putsBack (by simp [howner, PutsBack]) rfl rfl
      · cases hs
    · rename_i howner
      obtain rfl := Option.some.inj hs
      exact h.of_not_putsBack (by simp [howner, PutsBack]) rfl rfl
    · rename_i howner
      obtain rfl := Option.some.inj hs
      exact h.of_not_putsBack (by simp [howner, PutsBack]) rfl rfl
    · cases hs

/-- A run that does not take their list keeps the states together. -/
theorem Kept.run {tr : List (Transition State Action)} (hrun : Trace (HandOver.step kind) s tr t)
    (hinv : Invariant kind s) (h : Kept k kept s) (hsome : kept ≠ [])
    (hother : ∀ x ∈ tr, ¬ Takes k x) : Kept k kept t := by
  induction hrun with
  | nil => exact h
  | cons hs _ ih =>
    exact ih (invariant_step _ _ _ hinv hs)
      (h.step hinv hsome hs (hother _ List.mem_cons_self))
      fun x hx => hother x (List.mem_cons_of_mem _ hx)

/-- A close that fails puts the state and all behind it back. -/
theorem Kept.of_failed (howner : s.owner = .drain k) (hkept : keptOnFailure k = true)
    (hchain : Chain s.next s.cleanup kept) (hsome : kept ≠ []) (hs : HandOver.close s false = some t) :
    Kept k kept t := by
  obtain ⟨n, rest, rfl⟩ := List.exists_cons_of_ne_nil hsome
  have hn : s.cleanup = some n := hchain.1
  rw [HandOver.close, howner, hn] at hs
  simp only [hkept, Bool.not_false, Bool.and_self, if_true] at hs
  split at hs
  · rename_i hk
    obtain rfl := Option.some.inj hs
    exact .inl ⟨hk, hn ▸ hchain⟩
  · rename_i hk
    obtain rfl := Option.some.inj hs
    refine .inl ⟨?_, hn ▸ hchain⟩
    cases k <;> simp_all [keptOnFailure, PutsBack, setCall]

/-! ## The places -/

def allKinds : List StateKind := [.window, .childSurface, .progressDialog, .dragDropTarget]

/-- The states on the deferred lists, in the cleanup chain and behind their cleanup. -/
def cleanedUp (queue : StateKind → List StateId) (chain finalized : List StateId) : List StateId :=
  allKinds.flatMap queue ++ chain ++ finalized

section
variable {place : StateId → Place} {queue : StateKind → List StateId} {chain : List StateId}

theorem Placed.mem_flatMap (hp : Placed kind s place queue chain) {n : StateId} :
    n ∈ allKinds.flatMap queue ↔ place n = .queued := by
  rw [List.mem_flatMap]
  constructor
  · intro ⟨k, _, hn⟩
    exact ((hp.mem_queue k n).1 hn).1
  · intro hplace
    refine ⟨kind n, ?_, (hp.mem_queue _ n).2 ⟨hplace, rfl⟩⟩
    cases kind n <;> decide

/-- No state is at two places, or twice at one. -/
theorem Placed.nodup_cleanedUp (hp : Placed kind s place queue chain) :
    (cleanedUp queue chain s.finalized).Nodup := by
  have hqueued : (allKinds.flatMap queue).Nodup := by
    rw [List.nodup_flatMap]
    refine ⟨fun k _ => hp.queue_nodup k, ?_⟩
    have hkinds : allKinds.Nodup := by decide
    refine hkinds.imp fun hne n hn hn' => hne ?_
    rw [← ((hp.mem_queue _ n).1 hn).2, ((hp.mem_queue _ n).1 hn').2]
  have hwaiting : (allKinds.flatMap queue ++ chain).Nodup := by
    refine List.nodup_append.2 ⟨hqueued, hp.chain_nodup, fun a ha b hb hab => ?_⟩
    subst hab
    rw [hp.mem_flatMap, (hp.mem_chain a).1 hb] at ha
    cases ha
  refine List.nodup_append.2 ⟨hwaiting, hp.finalized_nodup, fun a ha b hb hab => ?_⟩
  subst hab
  have hplace := (hp.mem_finalized a).1 hb
  rcases List.mem_append.1 ha with ha | ha
  · rw [hp.mem_flatMap, hplace] at ha
    cases ha
  · rw [hp.mem_chain, hplace] at ha
    cases ha

theorem Placed.count_accepted (hp : Placed kind s place queue chain) {n : StateId}
    (h : ⟨n, true, true⟩ ∈ s.returned) : (cleanedUp queue chain s.finalized).count n = 1 := by
  refine List.count_eq_one_of_mem hp.nodup_cleanedUp ?_
  have hsettled := hp.accepted n (.inl h)
  unfold cleanedUp
  simp only [List.mem_append, hp.mem_flatMap, hp.mem_chain, hp.mem_finalized]
  cases hplace : place n <;> simp_all [Place.Settled]

/-- Behind the destructor every list is empty. -/
theorem lists_of_exited (hc : Controlled kind s queue chain) (howner : s.owner = .exited) : (∀ k, queue k = []) ∧ chain = [] := by
  refine ⟨fun k => hc.emptied k ?_, hc.empty ?_⟩
  · rw [howner]
    cases k <;> decide
  · rw [howner]
    rfl

end

/-- Behind the destructor no hand-over is accepted. -/
theorem returned_of_exited {a : Action} (hinv : Invariant kind s) (howner : s.owner = .exited)
    (hs : step kind s a = some t) :
    t.owner = .exited ∧ ∀ n, ⟨n, true, true⟩ ∈ t.returned → ⟨n, true, true⟩ ∈ s.returned := by
  obtain ⟨place, queue, chain, -, hc⟩ := hinv
  have hsilent := hc.silent (hc.erased.2 (by rw [howner]; trivial))
  cases a with
  | handOver thread state native =>
    simp only [step, handOver] at hs
    split at hs
    · cases hs
    · split at hs <;> obtain rfl := Option.some.inj hs
      · exact ⟨howner, fun n hn => hn⟩
      · exact ⟨howner, fun n hn => by simpa using hn⟩
  | lockRegistry thread =>
    simp only [step, lockRegistry] at hs
    split at hs
    · split at hs
      · obtain rfl := Option.some.inj hs
        exact ⟨howner, fun n hn => hn⟩
      · cases hs
    · cases hs
  | find thread =>
    simp only [step, find] at hs
    split at hs
    · split at hs
      · obtain rfl := Option.some.inj hs
        exact ⟨howner, fun n hn => hn⟩
      · cases hs
    · cases hs
  | splice thread =>
    simp only [step, splice] at hs
    split at hs
    · rename_i call hcall
      split at hs
      · rename_i tail hphase
        rcases hsilent thread call hcall with h | h | h <;> simp [hphase] at h
      · cases hs
    · cases hs
  | «return» thread =>
    simp only [step, returnCall] at hs
    split at hs
    · rename_i call hcall
      have hok := hc.calls thread call hcall
      split at hs
      · rename_i result hphase
        obtain rfl : result = false := by
          rcases hsilent thread call hcall with h | h | h <;> simp [hphase] at h
          exact h
        split at hs
        · rename_i hback
          have hputBack := (hok.back hback).2.1
          rw [howner] at hputBack
          cases hputBack
        · split at hs
          · obtain rfl := Option.some.inj hs
            exact ⟨howner, fun n hn => by simpa using hn⟩
          · cases hs
      · cases hs
    · cases hs
  | prune => simp [step, prune, howner] at hs
  | take => simp [step, take, howner] at hs
  | close closed => simp [step, close, howner] at hs
  | requeue => simp [step, requeue, howner] at hs
  | exit => simp [step, exit, howner] at hs

end

/-- **Every accepted state is cleaned up once.** In every state that an interleaving reaches, the
deferred lists and the cleanup chain are lists without cycles, and a state with native resources
whose hand-over returned `true` is once on a list, in the chain or finalized. Behind a progress
dialog or drop target that could not be closed all states of its chain stay together and unfinalized
until their list is taken again. Behind the destructor every accepted state is finalized, and no
hand-over is accepted any more. -/
theorem handOver_once {u : State} {tr : List (Transition State Action)}
    (h : Trace (step kind) {} tr u) :
    ∃ queue chain, (∀ k, Chain u.next (u.heads k) (queue k)) ∧ Chain u.next u.cleanup chain ∧
      (∀ k, ∀ n ∈ queue k, kind n = k) ∧ (cleanedUp queue chain u.finalized).Nodup ∧
      (∀ n, ⟨n, true, true⟩ ∈ u.returned → (cleanedUp queue chain u.finalized).count n = 1) ∧
      (∀ before x behind, tr = before ++ x :: behind → x.action = .close false →
        ∀ k, x.pre.owner = .drain k → keptOnFailure k = true →
        ∀ kept, Chain x.pre.next x.pre.cleanup kept → (∀ y ∈ behind, ¬ Takes k y) →
          (∀ n ∈ kept, n ∉ u.finalized) ∧
          (PutsBack k u.owner ∧ chain = kept ∨ ∃ l r, queue k = l ++ kept ++ r)) ∧
      (u.owner = .exited → (∀ k, u.heads k = none) ∧ u.cleanup = none ∧
        ∀ n, ⟨n, true, true⟩ ∈ u.returned → n ∈ u.finalized) ∧
      ∀ x ∈ tr, x.pre.owner = .exited → x.post.owner = .exited ∧
        ∀ n, ⟨n, true, true⟩ ∈ x.post.returned → ⟨n, true, true⟩ ∈ x.pre.returned := by
  obtain ⟨hinv, hsteps⟩ := h.invariant_of_step invariant_initial invariant_step
  obtain ⟨place, queue, chain, hp, hc⟩ := hinv
  refine ⟨queue, chain, hp.heads, hp.cleanup, fun k n hn => ((hp.mem_queue k n).1 hn).2,
    hp.nodup_cleanedUp, fun n hn => hp.count_accepted hn, ?_, fun howner => ?_, ?_⟩
  · intro before x behind htr haction k howner hkept kept hchain hother
    subst htr
    obtain ⟨-, hs, hbehind⟩ := h.split
    by_cases hsome : kept = []
    · subst hsome
      exact ⟨by simp, .inr ⟨queue k, [], by simp⟩⟩
    · rw [haction] at hs
      have hinv := (hsteps x (List.mem_append_right _ List.mem_cons_self)).2
      have htogether := Kept.run hbehind hinv (Kept.of_failed howner hkept hchain hsome hs) hsome
        hother
      obtain ⟨hputs, htogether⟩ | ⟨l, r, htogether⟩ := htogether
      · obtain rfl := htogether.unique hp.cleanup
        refine ⟨fun n hn => ?_, .inl ⟨hputs, rfl⟩⟩
        simp [hp.mem_finalized, (hp.mem_chain n).1 hn]
      · have hqueue := (hp.heads k).unique htogether
        refine ⟨fun n hn => ?_, .inr ⟨l, r, hqueue⟩⟩
        have hmem : n ∈ queue k := by
          rw [hqueue]
          exact List.mem_append_left _ (List.mem_append_right _ hn)
        simp [hp.mem_finalized, ((hp.mem_queue k n).1 hmem).1]
  · obtain ⟨hqueue, rfl⟩ := lists_of_exited hc howner
    refine ⟨fun k => ?_, hp.cleanup, fun n hn => ?_⟩
    · have hhead := hp.heads k
      rwa [hqueue k] at hhead
    · have hcount := hp.count_accepted hn
      have hmem : n ∈ cleanedUp queue [] u.finalized :=
        List.count_pos_iff.1 (by omega)
      have hnone : allKinds.flatMap queue = [] := by simp [List.flatMap_eq_nil_iff, hqueue]
      simpa [cleanedUp, hnone] using hmem
  · intro x hx howner
    exact returned_of_exited (hsteps x hx).1 howner (h.mem_step hx)

/-- A drop target that could not be closed is queued again when the run has put it back. -/
theorem handOver_once_putBack :
    ∃ (u : State) (queue : StateKind → List StateId) (chain : List StateId),
      ⟨7, true, true⟩ ∈ u.returned ∧ (cleanedUp queue chain u.finalized).count 7 = 1 ∧
        7 ∉ u.finalized := by
  have hrun : ∃ r, run (step fun _ => .dragDropTarget) {}
      [.handOver 1 7 true, .lockRegistry 1, .find 1, .splice 1, .return 1, .prune, .take,
        .close true, .take, .close true, .take, .close true, .take, .close false,
        .lockRegistry 0, .find 0, .splice 0, .return 0] = some r ∧
      ⟨7, true, true⟩ ∈ r.2.returned ∧ 7 ∉ r.2.finalized := ⟨_, rfl, by decide, by decide⟩
  obtain ⟨r, hr, hreturned, hfinalized⟩ := hrun
  obtain ⟨queue, chain, -, -, -, -, hcount, -⟩ := handOver_once (Trace.of_run hr)
  exact ⟨r.2, queue, chain, hreturned, hcount 7 hreturned, hfinalized⟩

/-- A window without native resources is reported as handed over behind the destructor, and is
nowhere. -/
theorem handOver_withoutNative :
    ∃ r, run (step fun _ => .window) {}
      [.exit, .take, .close true, .take, .close true, .exit, .take, .close true, .take,
        .close true, .exit, .handOver 1 7 false] = some r ∧
      r.2.owner = .exited ∧ ⟨7, false, true⟩ ∈ r.2.returned ∧ (∀ k, r.2.heads k = none) ∧
      r.2.cleanup = none ∧ 7 ∉ r.2.finalized ∧
      ∃ x ∈ r.1, x.pre.owner = .exited ∧ ⟨7, false, true⟩ ∉ x.pre.returned ∧
        ⟨7, false, true⟩ ∈ x.post.returned := by
  refine ⟨_, rfl, rfl, by decide, fun k => ?_, rfl, by decide, ?_⟩
  · cases k <;> rfl
  · refine ⟨_, List.mem_of_getLast? rfl, rfl, by decide, by decide⟩

end HandOver

end Desktop

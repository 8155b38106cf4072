import GameWIP.Desktop.HandOver
import GameWIP.Lib.Trace
import Mathlib.Tactic.Tauto

/-!
# Handed-over states are cleaned up once

Every state has one place: with its caller, in a hand-over, on the deferred list of its kind, in the
owner's cleanup chain, or finalized. `Placed` ties the places to the links of the heap, and
`Controlled` says what the owner, the calls and the registry lock allow each other. Every step
keeps both (`Placed.step`, `Controlled.step`).
-/

namespace Desktop

namespace HandOver

open Lib

variable {kind : StateId → StateKind}

/-- Where a state is. -/
inductive Place where
  | caller
  | handing (thread : ThreadId)
  | queued
  | cleanup
  | finalized
  deriving DecidableEq

/-- The places behind a hand-over that succeeded. -/
def Place.Settled : Place → Prop
  | .caller | .handing _ => False
  | .queued | .cleanup | .finalized => True

/-- The state whose owning pointer a call still has. -/
def carried (s : State) (thread : ThreadId) : Option StateId :=
  match s.calls thread with
  | some call => if call.putsBack ∨ call.phase = .leave true then none else call.argument
  | none => none

/-- A hand-over of the state is about to return `true` or has returned it. -/
def Accepted (s : State) (n : StateId) : Prop :=
  ⟨n, true, true⟩ ∈ s.returned ∨
    ∃ thread call, s.calls thread = some call ∧ call.putsBack = false ∧
      call.argument = some n ∧ call.phase = .leave true

/-- The states of a list go to one place. -/
def moved (l : List StateId) (target : Place) (place : StateId → Place) : StateId → Place :=
  fun n => if n ∈ l then target else place n

@[simp] theorem moved_of_mem {l : List StateId} {target : Place} {place : StateId → Place}
    {n : StateId} (h : n ∈ l) : moved l target place n = target := if_pos h

@[simp] theorem moved_of_not_mem {l : List StateId} {target : Place} {place : StateId → Place}
    {n : StateId} (h : n ∉ l) : moved l target place n = place n := if_neg h

/-- The deferred lists and the cleanup chain as lists, and the places of all states. -/
structure Placed (kind : StateId → StateKind) (s : State) (place : StateId → Place)
    (queue : StateKind → List StateId) (chain : List StateId) : Prop where
  heads : ∀ k, Chain s.next (s.heads k) (queue k)
  cleanup : Chain s.next s.cleanup chain
  queue_nodup : ∀ k, (queue k).Nodup
  chain_nodup : chain.Nodup
  finalized_nodup : s.finalized.Nodup
  mem_queue : ∀ k n, n ∈ queue k ↔ place n = .queued ∧ kind n = k
  mem_chain : ∀ n, n ∈ chain ↔ place n = .cleanup
  mem_finalized : ∀ n, n ∈ s.finalized ↔ place n = .finalized
  held : ∀ n, s.held n = true ↔ place n = .caller
  handing : ∀ thread n, carried s thread = some n ↔ place n = .handing thread
  loose : ∀ n, ¬ (place n).Settled → s.next n = none
  accepted : ∀ n, Accepted s n → (place n).Settled

namespace Placed

variable {s t : State} {place : StateId → Place} {queue : StateKind → List StateId}
  {chain : List StateId}

/-- Steps that only move a call or the owner on. -/
theorem of_eq (h : Placed kind s place queue chain) (hnext : t.next = s.next)
    (hheads : t.heads = s.heads) (hcleanup : t.cleanup = s.cleanup) (hheld : t.held = s.held)
    (hfinalized : t.finalized = s.finalized) (hcarried : ∀ thread, carried t thread = carried s thread)
    (haccepted : ∀ n, Accepted t n → Accepted s n) : Placed kind t place queue chain where
  heads k := by rw [hnext, hheads]; exact h.heads k
  cleanup := by rw [hnext, hcleanup]; exact h.cleanup
  queue_nodup := h.queue_nodup
  chain_nodup := h.chain_nodup
  finalized_nodup := by rw [hfinalized]; exact h.finalized_nodup
  mem_queue := h.mem_queue
  mem_chain := h.mem_chain
  mem_finalized := by rw [hfinalized]; exact h.mem_finalized
  held := by rw [hheld]; exact h.held
  handing thread n := by rw [hcarried]; exact h.handing thread n
  loose := by rw [hnext]; exact h.loose
  accepted n hn := h.accepted n (haccepted n hn)

/-- A list is moved into the empty cleanup chain. -/
theorem takeList (h : Placed kind s place queue []) (k : StateKind) (owner : OwnerPhase) :
    Placed kind (takeList s k owner) (moved (queue k) .cleanup place)
      (Function.update queue k []) (queue k) where
  heads k' := by
    by_cases hk : k' = k
    · subst hk
      simp [HandOver.takeList]
    · simpa [HandOver.takeList, hk] using h.heads k'
  cleanup := h.heads k
  queue_nodup k' := by
    by_cases hk : k' = k
    · subst hk
      simp
    · simpa [hk] using h.queue_nodup k'
  chain_nodup := h.queue_nodup k
  finalized_nodup := h.finalized_nodup
  mem_queue k' n := by
    have hqueued := h.mem_queue k n
    have hqueued' := h.mem_queue k' n
    by_cases hk : k' = k
    · subst hk
      by_cases hn : n ∈ queue k' <;> simp_all
    · have hne : ¬ k = k' := fun heq => hk heq.symm
      by_cases hn : n ∈ queue k <;> simp_all
  mem_chain n := by
    have hcleanup := h.mem_chain n
    by_cases hn : n ∈ queue k <;> simp_all
  mem_finalized n := by
    have hqueued := h.mem_queue k n
    have hfinalized := h.mem_finalized n
    by_cases hn : n ∈ queue k <;> simp_all [HandOver.takeList]
  held n := by
    have hqueued := h.mem_queue k n
    have hheld := h.held n
    by_cases hn : n ∈ queue k <;> simp_all [HandOver.takeList]
  handing thread n := by
    have hqueued := h.mem_queue k n
    have hhanding := h.handing thread n
    by_cases hn : n ∈ queue k <;> simp_all [HandOver.takeList, carried]
  loose n hn := by
    have hloose := h.loose n
    by_cases hq : n ∈ queue k <;> simp_all [HandOver.takeList, Place.Settled]
  accepted n hn := by
    have haccepted := h.accepted n hn
    by_cases hq : n ∈ queue k <;> simp_all [Place.Settled]

/-- The first state of the chain is finalized. -/
theorem finalizeFirst {n : StateId} {rest : List StateId}
    (h : Placed kind s place queue (n :: rest)) :
    Placed kind (finalizeFirst s n) (moved [n] .finalized place) queue rest := by
  obtain ⟨hhead, hrest⟩ := h.cleanup
  obtain ⟨hn, hnodup⟩ := List.nodup_cons.1 h.chain_nodup
  have hplace : place n = .cleanup := (h.mem_chain n).1 List.mem_cons_self
  constructor
  case heads =>
    intro k
    have hk : n ∉ queue k := fun hmem => by simp_all [h.mem_queue]
    exact (h.heads k).update hk none
  case cleanup => exact hrest.update hn none
  case queue_nodup => exact h.queue_nodup
  case chain_nodup => exact hnodup
  case finalized_nodup =>
    have hnew : n ∉ s.finalized := by simp [h.mem_finalized, hplace]
    refine List.nodup_append.2 ⟨h.finalized_nodup, List.nodup_singleton n, fun a ha b hb hab => ?_⟩
    rw [hab, List.mem_singleton.1 hb] at ha
    exact hnew ha
  case mem_queue =>
    intro k m
    have hqueued := h.mem_queue k m
    by_cases hm : m = n <;> simp_all
  case mem_chain =>
    intro m
    have hcleanup := h.mem_chain m
    by_cases hm : m = n <;> simp_all
  case mem_finalized =>
    intro m
    have hfinalized := h.mem_finalized m
    by_cases hm : m = n <;> simp_all [HandOver.finalizeFirst]
  case held =>
    intro m
    have hheld := h.held m
    by_cases hm : m = n <;> simp_all [HandOver.finalizeFirst]
  case handing =>
    intro thread m
    have hhanding := h.handing thread m
    by_cases hm : m = n <;> simp_all [HandOver.finalizeFirst, carried]
  case loose =>
    intro m hm
    have hloose := h.loose m
    by_cases hmn : m = n <;> simp_all [HandOver.finalizeFirst, Place.Settled]
  case accepted =>
    intro m hm
    have haccepted := h.accepted m hm
    by_cases hmn : m = n <;> simp_all [Place.Settled]

section
variable {k : StateKind} {l : List StateId} {tail : StateId} {head : Option StateId}

theorem linkFront_next :
    (linkFront s k tail head).next = Function.update s.next tail (s.heads k) := rfl

@[simp] theorem linkFront_calls : (linkFront s k tail head).calls = s.calls := rfl

/-- A chain of states that are not queued is linked in front of the list of their kind. -/
theorem heads_linkFront (h : Placed kind s place queue chain)
    (hchain : Chain s.next head (l ++ [tail])) (hnodup : (l ++ [tail]).Nodup)
    (hout : ∀ n ∈ l ++ [tail], place n ≠ .queued) (k' : StateKind) :
    Chain (linkFront s k tail head).next ((linkFront s k tail head).heads k')
      (Function.update queue k (l ++ [tail] ++ queue k) k') := by
  have htail : ∀ k, tail ∉ queue k := fun k hmem =>
    hout tail (List.mem_append_right _ List.mem_cons_self) ((h.mem_queue k tail).1 hmem).1
  by_cases hk : k' = k
  · subst hk
    simpa [linkFront] using hchain.splice (h.heads k') hnodup (htail k')
  · simpa [linkFront, hk] using (h.heads k').update (htail k') (s.heads k)

theorem nodup_linkFront (h : Placed kind s place queue chain) (hnodup : l.Nodup)
    (hout : ∀ n ∈ l, place n ≠ .queued) (k' : StateKind) :
    (Function.update queue k (l ++ queue k) k').Nodup := by
  by_cases hk : k' = k
  · subst hk
    rw [Function.update_self, List.nodup_append]
    refine ⟨hnodup, h.queue_nodup k', fun a ha b hb hab => ?_⟩
    subst hab
    exact hout a ha ((h.mem_queue k' a).1 hb).1
  · rw [Function.update_of_ne hk]
    exact h.queue_nodup k'

theorem mem_linkFront (h : Placed kind s place queue chain) (hkind : ∀ n ∈ l, kind n = k)
    (k' : StateKind) (n : StateId) :
    n ∈ Function.update queue k (l ++ queue k) k' ↔
      moved l .queued place n = .queued ∧ kind n = k' := by
  have hqueued := h.mem_queue k' n
  have hl := hkind n
  by_cases hk : k' = k
  · subst hk
    by_cases hn : n ∈ l <;> simp_all
  · have hne : ¬ k = k' := fun heq => hk heq.symm
    by_cases hn : n ∈ l <;> simp_all

/-- The cleanup chain goes back in front of the list of its kind. -/
theorem linkChain (h : Placed kind s place queue (l ++ [tail]))
    (hkind : ∀ n ∈ l ++ [tail], kind n = k)
    (hnext : t.next = (linkFront s k tail s.cleanup).next)
    (hheads : t.heads = (linkFront s k tail s.cleanup).heads) (hcleanup : t.cleanup = none)
    (hheld : t.held = s.held) (hfinalized : t.finalized = s.finalized)
    (hcarried : ∀ thread, carried t thread = carried s thread)
    (haccepted : ∀ n, Accepted t n → Accepted s n) :
    Placed kind t (moved (l ++ [tail]) .queued place)
      (Function.update queue k (l ++ [tail] ++ queue k)) [] := by
  have hplace : ∀ n ∈ l ++ [tail], place n = .cleanup := fun n hn => (h.mem_chain n).1 hn
  have hout : ∀ n ∈ l ++ [tail], place n ≠ .queued := fun n hn => by simp [hplace n hn]
  constructor
  case heads =>
    rw [hnext, hheads]
    exact h.heads_linkFront h.cleanup h.chain_nodup hout
  case cleanup => exact hcleanup
  case queue_nodup => exact h.nodup_linkFront h.chain_nodup hout
  case chain_nodup => exact List.nodup_nil
  case finalized_nodup =>
    rw [hfinalized]
    exact h.finalized_nodup
  case mem_queue => exact h.mem_linkFront hkind
  case mem_chain =>
    intro n
    have hchain := h.mem_chain n
    by_cases hn : n ∈ l ++ [tail]
    · simp [hn]
    · simpa [hn] using fun heq => hn (hchain.2 heq)
  case mem_finalized =>
    intro n
    rw [hfinalized, h.mem_finalized]
    by_cases hn : n ∈ l ++ [tail]
    · simp [moved_of_mem hn, hplace n hn]
    · rw [moved_of_not_mem hn]
  case held =>
    intro n
    rw [hheld, h.held]
    by_cases hn : n ∈ l ++ [tail]
    · simp [moved_of_mem hn, hplace n hn]
    · rw [moved_of_not_mem hn]
  case handing =>
    intro thread n
    rw [hcarried, h.handing]
    by_cases hn : n ∈ l ++ [tail]
    · simp [moved_of_mem hn, hplace n hn]
    · rw [moved_of_not_mem hn]
  case loose =>
    intro n hn
    by_cases hmem : n ∈ l ++ [tail]
    · simp [moved_of_mem hmem, Place.Settled] at hn
    · rw [moved_of_not_mem hmem] at hn
      have hne : n ≠ tail := fun heq => hmem (heq ▸ List.mem_append_right _ List.mem_cons_self)
      rw [hnext, linkFront_next, Function.update_of_ne hne]
      exact h.loose n hn
  case accepted =>
    intro n hn
    by_cases hmem : n ∈ l ++ [tail]
    · simp [moved_of_mem hmem, Place.Settled]
    · rw [moved_of_not_mem hmem]
      exact h.accepted n (haccepted n hn)

/-- A state that is handed over goes in front of the list of its kind. -/
theorem linkState (h : Placed kind s place queue chain) {thread : ThreadId} {n : StateId}
    (hcarries : carried s thread = some n) (hkind : kind n = k)
    (hnext : t.next = (linkFront s k n (some n)).next)
    (hheads : t.heads = (linkFront s k n (some n)).heads) (hcleanup : t.cleanup = s.cleanup)
    (hheld : t.held = s.held) (hfinalized : t.finalized = s.finalized)
    (hcarried : ∀ u, carried t u = if u = thread then none else carried s u)
    (haccepted : ∀ m, Accepted t m → Accepted s m ∨ m = n) :
    Placed kind t (moved [n] .queued place) (Function.update queue k (n :: queue k)) chain := by
  have hplace : place n = .handing thread := (h.handing thread n).1 hcarries
  have hout : ∀ m ∈ [] ++ [n], place m ≠ .queued := fun m hm => by
    rw [List.mem_singleton.1 hm, hplace]
    simp
  have hloose : s.next n = none := h.loose n (by simp [hplace, Place.Settled])
  have hsingle : Chain s.next (some n) ([] ++ [n]) := ⟨rfl, hloose⟩
  have hchain : n ∉ chain := fun hmem => by simp_all [h.mem_chain]
  constructor
  case heads =>
    rw [hnext, hheads]
    exact h.heads_linkFront hsingle (List.nodup_singleton n) hout
  case cleanup =>
    rw [hnext, hcleanup]
    exact h.cleanup.update hchain _
  case queue_nodup => exact h.nodup_linkFront (List.nodup_singleton n) hout
  case chain_nodup => exact h.chain_nodup
  case finalized_nodup =>
    rw [hfinalized]
    exact h.finalized_nodup
  case mem_queue =>
    exact h.mem_linkFront fun m hm => by rw [List.mem_singleton.1 hm, hkind]
  case mem_chain =>
    intro m
    rw [h.mem_chain]
    by_cases hm : m = n <;> simp_all
  case mem_finalized =>
    intro m
    rw [hfinalized, h.mem_finalized]
    by_cases hm : m = n <;> simp_all
  case held =>
    intro m
    rw [hheld, h.held]
    by_cases hm : m = n <;> simp_all
  case handing =>
    intro u m
    have hhanding := h.handing u m
    rw [hcarried]
    by_cases hm : m = n
    · subst hm
      by_cases hu : u = thread
      · simp [hu]
      · have hother : ¬ thread = u := fun heq => hu heq.symm
        simp_all
    · by_cases hu : u = thread
      · subst hu
        have hother : place m ≠ .handing u := fun heq => hm (by simp_all)
        simp [hm, hother]
      · simp [hm, hu, hhanding]
  case loose =>
    intro m hm
    by_cases hmn : m = n
    · simp [hmn, Place.Settled] at hm
    · rw [hnext, linkFront_next, Function.update_of_ne hmn]
      exact h.loose m (by simpa [hmn] using hm)
  case accepted =>
    intro m hm
    by_cases hmn : m = n
    · simp [hmn, Place.Settled]
    · have hsettled := h.accepted m ((haccepted m hm).resolve_right hmn)
      simpa [hmn] using hsettled

end

/-- A caller begins to hand a state over. -/
theorem begin (h : Placed kind s place queue chain) {thread : ThreadId} {n : StateId} {call : Call}
    (hheld : s.held n = true) (hidle : s.calls thread = none) (hputsBack : call.putsBack = false)
    (hargument : call.argument = some n) (hphase : call.phase ≠ .leave true) :
    Placed kind (setCall { s with held := Function.update s.held n false } thread (some call))
      (moved [n] (.handing thread) place) queue chain := by
  have hplace : place n = .caller := (h.held n).1 hheld
  have hcarried : ∀ u, carried
      (setCall { s with held := Function.update s.held n false } thread (some call)) u =
        if u = thread then some n else carried s u := by
    intro u
    by_cases hu : u = thread
    · simp [carried, setCall, hu, hputsBack, hargument, hphase]
    · simp [carried, setCall, hu]
  constructor
  case heads => exact h.heads
  case cleanup => exact h.cleanup
  case queue_nodup => exact h.queue_nodup
  case chain_nodup => exact h.chain_nodup
  case finalized_nodup => exact h.finalized_nodup
  case mem_queue =>
    intro k m
    rw [h.mem_queue]
    by_cases hm : m = n <;> simp_all
  case mem_chain =>
    intro m
    rw [h.mem_chain]
    by_cases hm : m = n <;> simp_all
  case mem_finalized =>
    intro m
    rw [show (setCall { s with held := Function.update s.held n false } thread
      (some call)).finalized = s.finalized from rfl, h.mem_finalized]
    by_cases hm : m = n <;> simp_all
  case held =>
    intro m
    have hm := h.held m
    by_cases hmn : m = n <;> simp_all [setCall]
  case handing =>
    intro u m
    have hhanding := h.handing u m
    have hnone : carried s thread = none := by simp [carried, hidle]
    rw [hcarried]
    by_cases hm : m = n
    · subst hm
      by_cases hu : u = thread
      · simp [hu]
      · have hother : carried s u ≠ some m := fun heq => by simp_all
        simp [hu, hother, Ne.symm hu]
    · by_cases hu : u = thread
      · subst hu
        have hother : place m ≠ .handing u := fun heq => by simp_all
        simp [hm, hother, Ne.symm hm]
      · simp [hm, hu, hhanding]
  case loose =>
    intro m hm
    by_cases hmn : m = n
    · subst hmn
      exact h.loose m (by simp [hplace, Place.Settled])
    · exact h.loose m (by simpa [hmn] using hm)
  case accepted =>
    intro m hm
    have hbefore : Accepted s m := by
      rcases hm with hm | ⟨u, other, hother, hrest⟩
      · exact .inl hm
      · by_cases hu : u = thread
        · simp_all [setCall]
        · exact .inr ⟨u, other, by simpa [setCall, hu] using hother, hrest⟩
    have hsettled := h.accepted m hbefore
    have hmn : m ≠ n := fun heq => by simp_all [Place.Settled]
    simpa [hmn] using hsettled

/-- A hand-over that failed gives the state back. -/
theorem giveBack (h : Placed kind s place queue chain) {thread : ThreadId} {n : StateId}
    (hcarries : carried s thread = some n) (hnext : t.next = s.next) (hheads : t.heads = s.heads)
    (hcleanup : t.cleanup = s.cleanup) (hheld : t.held = Function.update s.held n true)
    (hfinalized : t.finalized = s.finalized)
    (hcarried : ∀ u, carried t u = if u = thread then none else carried s u)
    (haccepted : ∀ m, Accepted t m → Accepted s m) :
    Placed kind t (moved [n] .caller place) queue chain := by
  have hplace : place n = .handing thread := (h.handing thread n).1 hcarries
  constructor
  case heads =>
    rw [hnext, hheads]
    exact h.heads
  case cleanup =>
    rw [hnext, hcleanup]
    exact h.cleanup
  case queue_nodup => exact h.queue_nodup
  case chain_nodup => exact h.chain_nodup
  case finalized_nodup =>
    rw [hfinalized]
    exact h.finalized_nodup
  case mem_queue =>
    intro k m
    rw [h.mem_queue]
    by_cases hm : m = n <;> simp_all
  case mem_chain =>
    intro m
    rw [h.mem_chain]
    by_cases hm : m = n <;> simp_all
  case mem_finalized =>
    intro m
    rw [hfinalized, h.mem_finalized]
    by_cases hm : m = n <;> simp_all
  case held =>
    intro m
    have hm := h.held m
    by_cases hmn : m = n <;> simp_all
  case handing =>
    intro u m
    have hhanding := h.handing u m
    rw [hcarried]
    by_cases hm : m = n
    · subst hm
      by_cases hu : u = thread
      · simp [hu]
      · have hother : ¬ thread = u := fun heq => hu heq.symm
        simp_all
    · by_cases hu : u = thread
      · subst hu
        have hother : place m ≠ .handing u := fun heq => hm (by simp_all)
        simp [hm, hother]
      · simp [hm, hu, hhanding]
  case loose =>
    intro m hm
    rw [hnext]
    by_cases hmn : m = n
    · subst hmn
      exact h.loose m (by simp [hplace, Place.Settled])
    · exact h.loose m (by simpa [hmn] using hm)
  case accepted =>
    intro m hm
    have hsettled := h.accepted m (haccepted m hm)
    have hmn : m ≠ n := fun heq => by simp_all [Place.Settled]
    simpa [hmn] using hsettled

end Placed

/-! ## Control -/

/-- The destructor holds the registry. -/
def Exiting : OwnerPhase → Prop
  | .exitTake _ | .exitDrain _ | .exitErase | .exitUnlock => True
  | _ => False

/-- The kind of the states in the cleanup chain, when there may be any. -/
def chainKind : OwnerPhase → Option StateKind
  | .drain kind | .exitDrain kind => some kind
  | .requeue _ => some .progressDialog
  | .putBack => some .dragDropTarget
  | _ => none

/-- The kinds whose lists the destructor has taken. -/
def emptied : OwnerPhase → List StateKind
  | .exitDrain .progressDialog | .exitTake .dragDropTarget => [.progressDialog]
  | .exitDrain .dragDropTarget | .exitErase | .exitTake .window =>
    [.progressDialog, .dragDropTarget]
  | .exitDrain .window | .exitTake .childSurface => [.progressDialog, .dragDropTarget, .window]
  | .exitDrain .childSurface | .exitUnlock | .exited =>
    [.progressDialog, .dragDropTarget, .window, .childSurface]
  | _ => []

/-- The phases in which the thread has left the registry. -/
def Erased : OwnerPhase → Prop
  | .exitTake .window | .exitDrain .window | .exitTake .childSurface | .exitDrain .childSurface
  | .exitUnlock | .exited => True
  | _ => False

/-- What holds of a call in progress, by the phase of the owner, the holder of the registry lock and
the cleanup chain. -/
structure CallOk (kind : StateId → StateKind) (owner : OwnerPhase) (lock : Option ThreadId)
    (chain : List StateId) (thread : ThreadId) (call : Call) : Prop where
  own : call.putsBack = false → ∃ n, call.argument = some n ∧ kind n = call.kind ∧
    ∀ tail, call.phase = .walk tail → tail = n
  idle : call.putsBack = false → thread = ownerThread → owner = .idle
  back : call.putsBack = true → thread = ownerThread ∧ owner = .putBack ∧
    call.kind = .dragDropTarget ∧ call.direct = false
  begun : call.putsBack = true → call.phase = .enter ∨ call.phase = .search → chain ≠ []
  tail : call.putsBack = true → ∀ tail, call.phase = .walk tail → tail ∈ chain
  done : call.putsBack = true → ∀ result, call.phase = .leave result → result = true ∧ chain = []
  direct : call.direct = true → thread = ownerThread ∧ call.phase ≠ .enter ∧
    call.phase ≠ .search ∧ call.phase ≠ .leave false
  lock : call.direct = false → call.phase ≠ .enter → lock = some thread

/-- What the owner, the calls and the registry lock allow each other. -/
structure Controlled (kind : StateId → StateKind) (s : State)
    (queue : StateKind → List StateId) (chain : List StateId) : Prop where
  kinds : ∀ k, chainKind s.owner = some k → ∀ n ∈ chain, kind n = k
  empty : chainKind s.owner = none → chain = []
  tail : ∀ tail, s.owner = .requeue tail → tail ∈ chain
  calls : ∀ thread call, s.calls thread = some call →
    CallOk kind s.owner s.registryLock chain thread call
  ownerCall : s.calls ownerThread ≠ none → s.owner = .idle ∨ s.owner = .putBack
  exiting : Exiting s.owner → s.registryLock = some ownerThread ∧
    ∀ thread call, s.calls thread = some call → call.phase = .enter
  erased : s.registered = false ↔ Erased s.owner
  silent : s.registered = false → ∀ thread call, s.calls thread = some call →
    call.phase = .enter ∨ call.phase = .search ∨ call.phase = .leave false
  emptied : ∀ k ∈ emptied s.owner, queue k = []

/-- The invariant of all interleavings. -/
def Invariant (kind : StateId → StateKind) (s : State) : Prop :=
  ∃ place queue chain, Placed kind s place queue chain ∧ Controlled kind s queue chain

theorem invariant_initial : Invariant kind {} := by
  refine ⟨fun _ => .caller, fun _ => [], [], ?_, ?_⟩
  · constructor <;> simp [carried, Accepted, Place.Settled]
  · constructor <;> simp [chainKind, Exiting, Erased, HandOver.emptied]

section
variable {s t : State} {place : StateId → Place} {queue : StateKind → List StateId}
  {chain : List StateId} {thread : ThreadId}

/-- What all calls satisfy after one of them has changed. -/
theorem forall_setCall {P : ThreadId → Call → Prop} {new : Option Call}
    (hnew : ∀ call, new = some call → P thread call)
    (hold : ∀ u ≠ thread, ∀ call, s.calls u = some call → P u call) :
    ∀ u call, (setCall s thread new).calls u = some call → P u call := by
  intro u call hcall
  by_cases hu : u = thread
  · subst hu
    exact hnew call (by simpa [setCall] using hcall)
  · exact hold u hu call (by simpa [setCall, hu] using hcall)

/-- The calls of the other threads do not depend on the owner's phase. -/
theorem CallOk.of_other {owner owner' : OwnerPhase} {lock : Option ThreadId} {chain' : List StateId}
    {call : Call} (h : CallOk kind owner lock chain thread call) (hne : thread ≠ ownerThread) :
    CallOk kind owner' lock chain' thread call where
  own := h.own
  idle _ heq := absurd heq hne
  back hback := absurd (h.back hback).1 hne
  begun hback := absurd (h.back hback).1 hne
  tail hback := absurd (h.back hback).1 hne
  done hback := absurd (h.back hback).1 hne
  direct hdirect := absurd (h.direct hdirect).1 hne
  lock := h.lock

/-! ### Hand-over -/

theorem invariant_handOver {n : StateId} {native : Bool} (h : Invariant kind s)
    (hs : handOver kind s thread n native = some t) : Invariant kind t := by
  obtain ⟨place, queue, chain, hp, hc⟩ := h
  unfold handOver at hs
  split at hs
  · cases hs
  rename_i hguard
  simp only [not_or, not_and, not_not, Bool.not_eq_false] at hguard
  obtain ⟨hidle, hheld, howner⟩ := hguard
  split at hs
  · obtain rfl := Option.some.inj hs
    refine ⟨_, queue, chain, hp.begin hheld hidle rfl rfl ?_, ?_⟩
    · dsimp only
      split <;> simp
    have hopen : (kind n == .progressDialog && thread == ownerThread) = true →
        s.owner = .idle := fun hdirect => howner (by simp_all)
    exact {
      kinds := hc.kinds
      empty := hc.empty
      tail := hc.tail
      calls := by
        refine forall_setCall (fun call hcall => ?_) fun u _ => hc.calls u
        obtain rfl := Option.some.inj hcall
        constructor <;> dsimp only
        case own =>
          refine fun _ => ⟨n, rfl, rfl, fun tail htail => ?_⟩
          split at htail
          · cases htail
            rfl
          · cases htail
        case idle => exact fun _ => howner
        case direct =>
          intro hdirect
          rw [if_pos hdirect]
          simp_all
        case lock =>
          intro hdirect hphase
          rw [if_neg (by simp [hdirect])] at hphase
          exact absurd rfl hphase
        all_goals nofun
      ownerCall := by
        intro hcall
        by_cases hthread : thread = ownerThread
        · exact .inl (howner hthread)
        · exact hc.ownerCall (by simpa [setCall, Ne.symm hthread] using hcall)
      exiting := by
        intro hexit
        refine ⟨(hc.exiting hexit).1, forall_setCall (fun call hcall => ?_) fun u _ =>
          (hc.exiting hexit).2 u⟩
        obtain rfl := Option.some.inj hcall
        refine if_neg fun hdirect => ?_
        rw [show s.owner = .idle from hopen hdirect] at hexit
        exact hexit
      erased := hc.erased
      silent := by
        intro herased
        refine forall_setCall (fun call hcall => ?_) fun u _ => hc.silent herased u
        obtain rfl := Option.some.inj hcall
        refine .inl (if_neg fun hdirect => ?_)
        have hphase := hc.erased.1 herased
        rw [hopen hdirect] at hphase
        exact hphase
      emptied := hc.emptied }
  · obtain rfl := Option.some.inj hs
    refine ⟨place, queue, chain, hp.of_eq rfl rfl rfl rfl rfl (fun _ => rfl) ?_, ?_⟩
    · rintro m (hm | hm)
      · rcases List.mem_append.1 hm with hm | hm
        · exact .inl hm
        · simp at hm
      · exact .inr hm
    · exact ⟨hc.kinds, hc.empty, hc.tail, hc.calls, hc.ownerCall, hc.exiting, hc.erased, hc.silent,
        hc.emptied⟩

theorem carried_setCall (new : Option Call) (u : ThreadId) :
    carried (setCall s thread new) u = if u = thread then
      (match new with
        | some call => if call.putsBack ∨ call.phase = .leave true then none else call.argument
        | none => none)
      else carried s u := by
  by_cases hu : u = thread
  · subst hu
    simp [carried, setCall]
  · simp [carried, setCall, hu]

/-- A call that only goes on with its argument. -/
theorem carried_phase {call : Call} (hcall : s.calls thread = some call) {phase : CallPhase}
    (hold : call.phase ≠ .leave true) (hnew : phase ≠ .leave true) (u : ThreadId) :
    carried (setCall s thread (some { call with phase := phase })) u = carried s u := by
  rw [carried_setCall]
  by_cases hu : u = thread
  · subst hu
    simp [carried, hcall, hold, hnew]
  · simp [hu]

theorem accepted_phase {call : Call} {phase : CallPhase} (hnew : phase ≠ .leave true) {n : StateId}
    (h : Accepted (setCall s thread (some { call with phase := phase })) n) : Accepted s n := by
  rcases h with h | ⟨u, other, hother, hrest⟩
  · exact .inl h
  · by_cases hu : u = thread
    · subst hu
      simp only [setCall, Function.update_self, Option.some.injEq] at hother
      subst hother
      exact absurd hrest.2.2 hnew
    · exact .inr ⟨u, other, by simpa [setCall, hu] using hother, hrest⟩

theorem invariant_lockRegistry (h : Invariant kind s) (hs : lockRegistry s thread = some t) :
    Invariant kind t := by
  obtain ⟨place, queue, chain, hp, hc⟩ := h
  unfold lockRegistry at hs
  split at hs
  · rename_i call hcall
    split at hs
    · rename_i hguard
      obtain ⟨hphase, hfree⟩ := hguard
      obtain rfl := Option.some.inj hs
      have hok := hc.calls thread call hcall
      refine ⟨place, queue, chain, hp.of_eq rfl rfl rfl rfl rfl
        (carried_phase hcall (by simp [hphase]) (by simp)) fun n hn => accepted_phase (by simp) hn, ?_⟩
      exact {
        kinds := hc.kinds
        empty := hc.empty
        tail := hc.tail
        calls := by
          refine forall_setCall (fun new hnew => ?_) fun u hu other hother => ?_
          · obtain rfl := Option.some.inj hnew
            exact {
              own := fun hback => by
                obtain ⟨n, hn, hkind, -⟩ := hok.own hback
                exact ⟨n, hn, hkind, nofun⟩
              idle := hok.idle
              back := hok.back
              begun := fun hback _ => hok.begun hback (.inl hphase)
              tail := nofun
              done := nofun
              direct := fun hdirect => absurd hphase (hok.direct hdirect).2.1
              lock := fun _ _ => rfl }
          · have hother := hc.calls u other hother
            -- nobody else is behind the lock
            exact { hother with
              lock := fun hdirect hne => by
                have hheld := hother.lock hdirect hne
                rw [hfree] at hheld
                cases hheld }
        ownerCall := by
          intro _
          by_cases hthread : thread = ownerThread
          · exact hc.ownerCall (by rw [← hthread, hcall]; simp)
          · rename_i hsome
            exact hc.ownerCall (by simpa [setCall, Ne.symm hthread] using hsome)
        exiting := by
          intro hexit
          rw [(hc.exiting hexit).1] at hfree
          cases hfree
        erased := hc.erased
        silent := fun herased => forall_setCall (fun new hnew => by
          obtain rfl := Option.some.inj hnew
          exact .inr (.inl rfl)) fun u _ => hc.silent herased u
        emptied := hc.emptied }
    · cases hs
  · cases hs

theorem invariant_find (h : Invariant kind s) (hs : find s thread = some t) : Invariant kind t := by
  obtain ⟨place, queue, chain, hp, hc⟩ := h
  unfold find at hs
  split at hs
  · rename_i call hcall
    split at hs
    · rename_i state hphase hargument
      obtain rfl := Option.some.inj hs
      have hok := hc.calls thread call hcall
      have hnew : (if s.registered then CallPhase.walk state else .leave false) ≠ .leave true := by
        split <;> simp
      have hnotExiting : ¬ Exiting s.owner := fun hexit => by
        have henter := (hc.exiting hexit).2 thread call hcall
        rw [hphase] at henter
        cases henter
      refine ⟨place, queue, chain, hp.of_eq rfl rfl rfl rfl rfl
        (carried_phase hcall (by simp [hphase]) hnew) fun n hn => accepted_phase hnew hn, ?_⟩
      exact {
        kinds := hc.kinds
        empty := hc.empty
        tail := hc.tail
        calls := by
          refine forall_setCall (fun new hnew => ?_) fun u _ => hc.calls u
          obtain rfl := Option.some.inj hnew
          have hdirect : call.direct = false := by
            by_contra hdirect
            exact (hok.direct (by simpa using hdirect)).2.2.1 hphase
          exact {
            own := fun hback => by
              have hback : call.putsBack = false := hback
              obtain ⟨n, hn, hkind, -⟩ := hok.own hback
              refine ⟨n, hn, hkind, fun tail htail => ?_⟩
              rw [argument, hback, if_neg Bool.false_ne_true, hn] at hargument
              obtain rfl := Option.some.inj hargument
              dsimp only at htail
              split at htail
              · exact (CallPhase.walk.inj htail).symm
              · cases htail
            idle := hok.idle
            back := hok.back
            begun := fun hback hbegun => by
              rcases hbegun with hbegun | hbegun <;> dsimp only at hbegun <;> split at hbegun <;>
                cases hbegun
            tail := fun hback tail htail => by
              have hback : call.putsBack = true := hback
              have hhead := hp.cleanup.head_eq
              rw [argument, if_pos hback] at hargument
              rw [hargument] at hhead
              dsimp only at htail
              split at htail
              · cases htail
                exact List.mem_of_head? hhead.symm
              · cases htail
            done := fun hback result hresult => by
              -- the owner is registered while it prunes
              have howner := (hok.back hback).2.1
              have hregistered : s.registered = true := by
                by_contra herased
                have hphase := hc.erased.1 (by simpa using herased)
                rw [howner] at hphase
                exact hphase
              dsimp only at hresult
              rw [if_pos hregistered] at hresult
              cases hresult
            direct := fun hdirect' => by simp_all
            lock := fun hdirect _ => hok.lock hdirect (by simp [hphase]) }
        ownerCall := by
          intro hsome
          by_cases hthread : thread = ownerThread
          · exact hc.ownerCall (by rw [← hthread, hcall]; simp)
          · exact hc.ownerCall (by simpa [setCall, Ne.symm hthread] using hsome)
        exiting := fun hexit => absurd hexit hnotExiting
        erased := hc.erased
        silent := fun herased => forall_setCall (fun new hnew => by
          obtain rfl := Option.some.inj hnew
          have herased : s.registered = false := herased
          simp [herased]) fun u _ => hc.silent herased u
        emptied := hc.emptied }
    · cases hs
  · cases hs

/-- Before the destructor no list is known to be empty. -/
theorem emptied_eq_nil {owner : OwnerPhase} (hexit : ¬ Exiting owner) (herased : ¬ Erased owner) :
    emptied owner = [] := by
  unfold emptied
  split <;> first | rfl | simp [Exiting, Erased] at hexit herased

/-- While a hand-over walks, the owner is registered and not in its destructor. -/
theorem not_exiting_of_walk (hc : Controlled kind s queue chain) {call : Call} {tail : StateId}
    (hcall : s.calls thread = some call) (hphase : call.phase = .walk tail) :
    ¬ Exiting s.owner ∧ ¬ Erased s.owner ∧ s.registered = true := by
  have hregistered : s.registered = true := by
    by_contra herased
    rcases hc.silent (by simpa using herased) thread call hcall with h | h | h <;>
      simp [hphase] at h
  refine ⟨fun hexit => ?_, fun herased => ?_, hregistered⟩
  · have henter := (hc.exiting hexit).2 thread call hcall
    rw [hphase] at henter
    cases henter
  · rw [← hc.erased, hregistered] at herased
    cases herased

theorem invariant_walk {call : Call} {tail following : StateId} (hp : Placed kind s place queue chain)
    (hc : Controlled kind s queue chain) (hcall : s.calls thread = some call)
    (hphase : call.phase = .walk tail) (hnext : s.next tail = some following) :
    Invariant kind (setCall s thread (some { call with phase := .walk following })) := by
  have hok := hc.calls thread call hcall
  obtain ⟨hexit, herased, hregistered⟩ := not_exiting_of_walk hc hcall hphase
  -- a state that is handed over stands alone
  have hback : call.putsBack = true := by
    by_contra hback
    obtain ⟨n, hn, -, htail⟩ := hok.own (by simpa using hback)
    obtain rfl := htail tail hphase
    have hcarries : carried s thread = some tail := by simp [carried, hcall, hback, hphase, hn]
    have hplace := (hp.handing thread tail).1 hcarries
    have hloose := hp.loose tail (by simp [hplace, Place.Settled])
    rw [hnext] at hloose
    cases hloose
  refine ⟨place, queue, chain, hp.of_eq rfl rfl rfl rfl rfl
    (carried_phase hcall (by simp [hphase]) (by simp)) fun n hn => accepted_phase (by simp) hn, ?_⟩
  exact {
    kinds := hc.kinds
    empty := hc.empty
    tail := hc.tail
    calls := by
      refine forall_setCall (fun new hnew => ?_) fun u _ => hc.calls u
      obtain rfl := Option.some.inj hnew
      exact {
        own := fun hown => absurd hback (by simp [show call.putsBack = false from hown])
        idle := hok.idle
        back := hok.back
        begun := fun _ hbegun => by simp at hbegun
        tail := fun _ tail' htail => by
          obtain ⟨l₁, l₂, rfl⟩ := List.append_of_mem (hok.tail hback tail hphase)
          have hhead := hp.cleanup.next_eq
          rw [hnext] at hhead
          cases htail
          exact List.mem_append_right _ (List.mem_cons_of_mem _ (List.mem_of_head? hhead.symm))
        done := nofun
        direct := fun hdirect => absurd hdirect (by simp [(hok.back hback).2.2.2])
        lock := fun hdirect _ => hok.lock hdirect (by simp [hphase]) }
    ownerCall := by
      intro hsome
      by_cases hthread : thread = ownerThread
      · exact hc.ownerCall (by rw [← hthread, hcall]; simp)
      · exact hc.ownerCall (by simpa [setCall, Ne.symm hthread] using hsome)
    exiting := fun h => absurd h hexit
    erased := hc.erased
    silent := fun h => absurd (hregistered.symm.trans h) (by simp)
    emptied := hc.emptied }

/-- The splice of a state that is handed over. -/
theorem invariant_linkState {call : Call} {n : StateId} (hp : Placed kind s place queue chain)
    (hc : Controlled kind s queue chain) (hcall : s.calls thread = some call)
    (hback : call.putsBack = false) (hargument : call.argument = some n)
    (hphase : call.phase = .walk n) :
    Invariant kind (setCall (linkFront s call.kind n (some n)) thread
      (some { call with phase := .leave true })) := by
  have hok := hc.calls thread call hcall
  obtain ⟨hexit, herased, hregistered⟩ := not_exiting_of_walk hc hcall hphase
  have hcarries : carried s thread = some n := by simp [carried, hcall, hback, hphase, hargument]
  have hkind : kind n = call.kind := by
    obtain ⟨m, hm, hkind, -⟩ := hok.own hback
    rw [hargument] at hm
    cases hm
    exact hkind
  have hcarried : ∀ u, carried (setCall (linkFront s call.kind n (some n)) thread
      (some { call with phase := .leave true })) u = if u = thread then none else carried s u := by
    intro u
    rw [carried_setCall]
    by_cases hu : u = thread
    · simp [hu]
    · simp [hu, carried, linkFront]
  have haccepted : ∀ m, Accepted (setCall (linkFront s call.kind n (some n)) thread
      (some { call with phase := .leave true })) m → Accepted s m ∨ m = n := by
    rintro m (hm | ⟨u, other, hother, hrest⟩)
    · exact .inl (.inl hm)
    · by_cases hu : u = thread
      · subst hu
        simp only [setCall, Function.update_self, Option.some.injEq] at hother
        subst hother
        exact .inr (Option.some.inj (hrest.2.1.symm.trans hargument))
      · exact .inl (.inr ⟨u, other, by simpa [setCall, hu] using hother, hrest⟩)
  refine ⟨_, _, chain, hp.linkState hcarries hkind rfl rfl rfl rfl rfl hcarried haccepted, ?_⟩
  exact {
    kinds := hc.kinds
    empty := hc.empty
    tail := hc.tail
    calls := by
      refine forall_setCall (fun new hnew => ?_) fun u _ => hc.calls u
      obtain rfl := Option.some.inj hnew
      exact {
        own := fun _ => ⟨n, hargument, hkind, nofun⟩
        idle := hok.idle
        back := hok.back
        begun := fun h => absurd hback (by simp [show call.putsBack = true from h])
        tail := nofun
        done := fun h => absurd hback (by simp [show call.putsBack = true from h])
        direct := fun hdirect => ⟨(hok.direct hdirect).1, by simp, by simp, by simp⟩
        lock := fun hdirect _ => hok.lock hdirect (by simp [hphase]) }
    ownerCall := by
      intro hsome
      by_cases hthread : thread = ownerThread
      · exact hc.ownerCall (by rw [← hthread, hcall]; simp)
      · exact hc.ownerCall (by simpa [setCall, Ne.symm hthread] using hsome)
    exiting := fun h => absurd h hexit
    erased := hc.erased
    silent := fun h => absurd (hregistered.symm.trans h) (by simp)
    emptied := fun k hk => by
      have hk : k ∈ emptied s.owner := hk
      rw [emptied_eq_nil hexit herased] at hk
      cases hk }

/-- The splice of a chain that the owner puts back. -/
theorem invariant_linkChain {call : Call} {tail : StateId} (hp : Placed kind s place queue chain)
    (hc : Controlled kind s queue chain) (hcall : s.calls thread = some call)
    (hback : call.putsBack = true) (hphase : call.phase = .walk tail)
    (hlast : s.next tail = none) :
    Invariant kind (setCall { linkFront s call.kind tail s.cleanup with cleanup := none } thread
      (some { call with phase := .leave true })) := by
  have hok := hc.calls thread call hcall
  obtain ⟨hexit, herased, hregistered⟩ := not_exiting_of_walk hc hcall hphase
  obtain ⟨hthread, howner, hkind, hdirect⟩ := hok.back hback
  obtain ⟨l, l₂, rfl⟩ := List.append_of_mem (hok.tail hback tail hphase)
  -- the walk has reached the end of the chain
  obtain rfl : l₂ = [] := by
    have hhead := hp.cleanup.next_eq
    rw [hlast] at hhead
    exact List.head?_eq_none_iff.1 hhead.symm
  have hkinds : ∀ n ∈ l ++ [tail], kind n = call.kind := by
    rw [hkind]
    exact hc.kinds .dragDropTarget (by rw [howner, chainKind])
  have hcarried : ∀ u, carried (setCall { linkFront s call.kind tail s.cleanup with cleanup := none }
      thread (some { call with phase := .leave true })) u = carried s u := by
    intro u
    rw [carried_setCall]
    by_cases hu : u = thread
    · simp [hu, carried, hcall, hback]
    · simp [hu, carried, linkFront]
  have haccepted : ∀ m, Accepted (setCall { linkFront s call.kind tail s.cleanup with
      cleanup := none } thread (some { call with phase := .leave true })) m → Accepted s m := by
    rintro m (hm | ⟨u, other, hother, hrest⟩)
    · exact .inl hm
    · by_cases hu : u = thread
      · subst hu
        simp only [setCall, Function.update_self, Option.some.injEq] at hother
        subst hother
        exact absurd hrest.1 (by simp [hback])
      · exact .inr ⟨u, other, by simpa [setCall, hu] using hother, hrest⟩
  refine ⟨_, _, [], hp.linkChain hkinds rfl rfl rfl rfl rfl hcarried haccepted, ?_⟩
  exact {
    kinds := fun _ _ _ hn => absurd hn List.not_mem_nil
    empty := fun _ => rfl
    tail := fun tail' hrequeue => by
      have hrequeue : s.owner = .requeue tail' := hrequeue
      rw [howner] at hrequeue
      cases hrequeue
    calls := by
      refine forall_setCall (fun new hnew => ?_) fun u hu other hother => ?_
      · obtain rfl := Option.some.inj hnew
        exact {
          own := fun h => absurd hback (by simp [show call.putsBack = false from h])
          idle := hok.idle
          back := hok.back
          begun := fun _ hbegun => by simp at hbegun
          tail := nofun
          done := fun _ result hresult => ⟨(CallPhase.leave.inj hresult).symm, rfl⟩
          direct := fun h => absurd hdirect (by simp [show call.direct = true from h])
          lock := fun hdirect _ => hok.lock hdirect (by simp [hphase]) }
      · exact (hc.calls u other hother).of_other (hthread ▸ hu)
    ownerCall := fun _ => .inr howner
    exiting := fun h => absurd h hexit
    erased := hc.erased
    silent := fun h => absurd (hregistered.symm.trans h) (by simp)
    emptied := fun k hk => by
      have hk : k ∈ emptied s.owner := hk
      rw [emptied_eq_nil hexit herased] at hk
      cases hk }

theorem invariant_splice (h : Invariant kind s) (hs : splice s thread = some t) :
    Invariant kind t := by
  obtain ⟨place, queue, chain, hp, hc⟩ := h
  unfold splice at hs
  split at hs
  · rename_i call hcall
    have hok := hc.calls thread call hcall
    split at hs
    · rename_i tail hphase
      split at hs
      · rename_i following _ hnext
        obtain rfl := Option.some.inj hs
        exact invariant_walk hp hc hcall hphase hnext
      · rename_i hother
        obtain rfl := Option.some.inj hs
        by_cases hback : call.putsBack = true
        · have hlast : s.next tail = none := by
            by_contra hsome
            obtain ⟨following, hfollowing⟩ := Option.ne_none_iff_exists'.1 hsome
            exact hother following (by rw [(hok.back hback).2.2.1]; rfl) hfollowing
          have hlinked := invariant_linkChain hp hc hcall hback hphase hlast
          simpa [argument, hback] using hlinked
        · have hback : call.putsBack = false := by simpa using hback
          obtain ⟨n, hn, -, htail⟩ := hok.own hback
          obtain rfl := htail tail hphase
          have hlinked := invariant_linkState hp hc hcall hback hn hphase
          simpa [argument, hback, hn] using hlinked
    · cases hs
  · cases hs

end

end HandOver

end Desktop

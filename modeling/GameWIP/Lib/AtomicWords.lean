import Mathlib.Logic.Function.Basic
import GameWIP.Lib.Trace

/-!
# Words that are updated atomically

Some words and any number of threads. A call of a thread is a list of effects, each on one word: a
store, or an update by a loop that loads the word and exchanges it if it is as it was loaded. The
exchange may fail without a reason. Between two accesses of a thread any other thread may run.

An effect is committed by one access. The memory is what the committed effects make of it, in the order
of their commits (`memory_eq`), and every thread commits the effects of its calls in their order, each
once (`program_order`): no update is lost and none is made twice.
-/

namespace Lib

/-- Effects, the word each is on and what it makes of the word. -/
structure AtomicWords (ι E : Type*) (V : ι → Type*) where
  word : E → ι
  update : (e : E) → V (word e) → V (word e)
  /-- The effect is a store: it does not depend on the word. -/
  isStore : E → Bool
  store_eq : ∀ e, isStore e = true → ∀ v v', update e v = update e v'

namespace AtomicWords

variable {ι E : Type*} {V : ι → Type*} [DecidableEq ι] [∀ i, DecidableEq (V i)]

/-- What an effect makes of the memory. -/
def apply (words : AtomicWords ι E V) (memory : ∀ i, V i) (e : E) : ∀ i, V i :=
  Function.update memory (words.word e) (words.update e (memory (words.word e)))

/-- Where a thread stands: before the effects that are left, or in the loop of the first of them with
the word as it was loaded. -/
inductive Thread (words : AtomicWords ι E V) where
  | before (rest : List E)
  | exchange (e : E) (current : V (words.word e)) (rest : List E)

variable (words : AtomicWords ι E V)

def Thread.left {words : AtomicWords ι E V} : Thread words → List E
  | .before rest => rest
  | .exchange e _ rest => e :: rest

omit [DecidableEq ι] [∀ i, DecidableEq (V i)] in
@[simp] theorem Thread.left_before (rest : List E) :
    (Thread.before rest : Thread words).left = rest := rfl

omit [DecidableEq ι] [∀ i, DecidableEq (V i)] in
@[simp] theorem Thread.left_exchange (e : E) (current : V (words.word e)) (rest : List E) :
    (Thread.exchange e current rest : Thread words).left = e :: rest := rfl

structure State where
  memory : ∀ i, V i
  threads : Nat → Thread words

inductive Action (E : Type*) where
  | call (c : Nat) (effects : List E)
  | access (c : Nat)
  /-- An exchange that fails though the word is as it was loaded. -/
  | spurious (c : Nat)

def initial (memory : ∀ i, V i) : State words := ⟨memory, fun _ => .before []⟩

def commit (s : State words) (c : Nat) (e : E) (rest : List E) : State words :=
  ⟨words.apply s.memory e, Function.update s.threads c (.before rest)⟩

/-- The word is loaded, for the first time or by an exchange that fails. -/
def load (s : State words) (c : Nat) (e : E) (rest : List E) : State words :=
  ⟨s.memory, Function.update s.threads c (.exchange e (s.memory (words.word e)) rest)⟩

def step (s : State words) : Action E → Option (State words)
  | .call c effects =>
    match s.threads c with
    | .before [] => some ⟨s.memory, Function.update s.threads c (.before effects)⟩
    | _ => none
  | .access c =>
    match s.threads c with
    | .before [] => none
    | .before (e :: rest) =>
      some (if words.isStore e = true then commit words s c e rest else load words s c e rest)
    | .exchange e current rest =>
      some (if s.memory (words.word e) = current then commit words s c e rest
        else load words s c e rest)
  | .spurious c =>
    match s.threads c with
    | .exchange e _ rest => some (load words s c e rest)
    | _ => none

/-- The effect that a step commits, with the thread. -/
def committedBy (x : Transition (State words) (Action E)) : Option (Nat × E) :=
  match x.action with
  | .access c =>
    match x.pre.threads c with
    | .before (e :: _) => if words.isStore e = true then some (c, e) else none
    | .exchange e current _ => if x.pre.memory (words.word e) = current then some (c, e) else none
    | _ => none
  | _ => none

/-- The committed effects of a run, in the order of their commits. -/
def committed (tr : List (Transition (State words) (Action E))) : List (Nat × E) :=
  tr.filterMap (committedBy words)

/-- The effects that a thread calls in a step. -/
def calledBy (c : Nat) : Action E → List E
  | .call c' effects => if c' = c then effects else []
  | _ => []

/-- The effects of the calls of a thread, in their order. -/
def called (c : Nat) (tr : List (Transition (State words) (Action E))) : List E :=
  tr.flatMap fun x => calledBy c x.action

variable {words} {s u : State words} {tr : List (Transition (State words) (Action E))}
  {x : Transition (State words) (Action E)}

omit [DecidableEq ι] in
theorem committed_concat (tr : List (Transition (State words) (Action E)))
    (x : Transition (State words) (Action E)) :
    committed words (tr ++ [x]) = committed words tr ++ (committedBy words x).toList := by
  rw [committed, List.filterMap_append, ← committed]
  cases h : committedBy words x <;> simp [h]

omit [DecidableEq ι] [∀ i, DecidableEq (V i)] in
theorem called_concat (c : Nat) (tr : List (Transition (State words) (Action E)))
    (x : Transition (State words) (Action E)) :
    called words c (tr ++ [x]) = called words c tr ++ calledBy c x.action := by
  simp [called]

/-- What one step does. -/
inductive Step (words : AtomicWords ι E V) (s : State words) :
    Action E → Option (Nat × E) → State words → Prop
  | call (c : Nat) (effects : List E) (h : (s.threads c).left = []) :
      Step words s (.call c effects) none
        ⟨s.memory, Function.update s.threads c (.before effects)⟩
  | commit {a : Action E} (c : Nat) (e : E) (rest : List E) (ha : a = .access c)
      (h : (s.threads c).left = e :: rest) : Step words s a (some (c, e)) (commit words s c e rest)
  | load {a : Action E} (c : Nat) (e : E) (rest : List E) (ha : a = .access c ∨ a = .spurious c)
      (h : (s.threads c).left = e :: rest) : Step words s a none (load words s c e rest)

theorem step_spec (h : step words x.pre x.action = some x.post) :
    Step words x.pre x.action (committedBy words x) x.post := by
  obtain ⟨pre, action, post⟩ := x
  cases action with
  | call c effects =>
    simp only [step] at h
    split at h
    · rename_i hthread
      obtain rfl := Option.some.inj h
      exact .call c effects (congrArg Thread.left hthread)
    · cases h
  | access c =>
    simp only [step] at h
    cases hthread : pre.threads c with
    | before rest =>
      rw [hthread] at h
      cases rest with
      | nil => cases h
      | cons e rest =>
        obtain rfl := Option.some.inj h
        have hleft : (pre.threads c).left = e :: rest := congrArg Thread.left hthread
        simp only [committedBy, hthread]
        by_cases hstore : words.isStore e = true
        · rw [if_pos hstore, if_pos hstore]
          exact .commit c e rest rfl hleft
        · rw [if_neg hstore, if_neg hstore]
          exact .load c e rest (.inl rfl) hleft
    | exchange e current rest =>
      rw [hthread] at h
      obtain rfl := Option.some.inj h
      have hleft : (pre.threads c).left = e :: rest := congrArg Thread.left hthread
      simp only [committedBy, hthread]
      by_cases hsame : pre.memory (words.word e) = current
      · rw [if_pos hsame, if_pos hsame]
        exact .commit c e rest rfl hleft
      · rw [if_neg hsame, if_neg hsame]
        exact .load c e rest (.inl rfl) hleft
  | spurious c =>
    simp only [step] at h
    split at h
    · rename_i e current rest hthread
      obtain rfl := Option.some.inj h
      exact .load c e rest (.inr rfl) (congrArg Thread.left hthread)
    · cases h

/-- **No update is lost**: the memory is what the committed effects make of it, one after the other. -/
theorem memory_eq (h : Trace (step words) s tr u) :
    u.memory = ((committed words tr).map Prod.snd).foldl words.apply s.memory := by
  refine h.history (P := fun tr u =>
    u.memory = ((committed words tr).map Prod.snd).foldl words.apply s.memory) rfl ?_
  intro tr x _ hx ih
  have hone : x.post.memory =
      ((committedBy words x).toList.map Prod.snd).foldl words.apply x.pre.memory := by
    have hstep := step_spec hx
    generalize committedBy words x = entry at hstep ⊢
    generalize x.post = post at hstep ⊢
    generalize x.action = action at hstep
    cases hstep <;> rfl
  rw [committed_concat, List.map_append, List.foldl_append, ← ih]
  exact hone

omit [DecidableEq ι] [∀ i, DecidableEq (V i)] in
/-- A thread in a state in which another, or itself, has moved. -/
theorem left_update (threads : Nat → Thread words) (c c' : Nat) (thread : Thread words) :
    (Function.update threads c' thread c).left =
      if c' = c then thread.left else (threads c).left := by
  by_cases hc : c' = c
  · subst hc
    rw [Function.update_self, if_pos rfl]
  · rw [Function.update_of_ne (Ne.symm hc), if_neg hc]

/-- What is left of a call, before and after a step. -/
theorem left_step (h : step words x.pre x.action = some x.post) (c : Nat) :
    ((committedBy words x).toList.filter fun entry => entry.1 = c).map Prod.snd ++
      (x.post.threads c).left = (x.pre.threads c).left ++ calledBy c x.action := by
  have hstep := step_spec h
  generalize committedBy words x = entry at hstep ⊢
  generalize x.post = post at hstep ⊢
  generalize x.action = action at hstep ⊢
  cases hstep with
  | call c' effects hleft =>
    rw [left_update]
    by_cases hc : c' = c
    · subst hc
      simp [hleft, calledBy]
    · simp [hc, calledBy]
  | load c' e rest ha hleft =>
    rw [load, left_update]
    by_cases hc : c' = c
    · subst hc
      rcases ha with rfl | rfl <;> simp [hleft, calledBy]
    · rcases ha with rfl | rfl <;> simp [hc, calledBy]
  | commit c' e rest ha hleft =>
    subst ha
    rw [commit, left_update]
    by_cases hc : c' = c
    · subst hc
      simp [hleft, calledBy]
    · simp [hc, calledBy]

/-- **Each effect once, in the order of the calls.** What a thread has committed, with what is left of
its call, is what it has called. -/
theorem program_order {memory : ∀ i, V i} (h : Trace (step words) (initial words memory) tr u)
    (c : Nat) : ((committed words tr).filter fun entry => entry.1 = c).map Prod.snd ++
      (u.threads c).left = called words c tr := by
  refine h.history (P := fun tr u => ((committed words tr).filter fun entry => entry.1 = c).map
    Prod.snd ++ (u.threads c).left = called words c tr) rfl ?_
  intro tr x _ hx ih
  rw [committed_concat, List.filter_append, List.map_append, List.append_assoc, left_step hx,
    ← List.append_assoc, ih, called_concat]

end AtomicWords

end Lib

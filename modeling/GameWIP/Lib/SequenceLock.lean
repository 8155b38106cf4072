import GameWIP.Lib.Trace
import Mathlib.Tactic.Cases
import Mathlib.Algebra.Ring.Nat

/-!
# Sequence locks

One writer stores a record cell by cell, between two increments of a sequence number. Any number of
readers load the sequence number, the cells one after the other and the sequence number again; a
reader accepts what it has loaded when the number is even and has not changed, and tries again
otherwise, a bounded number of times. Every load and every store is a step of its own.

* `Consistent`: while a reader's number is the current one, what it has loaded so far and the cells
  it has yet to load are the current record.
* `delivers`: what a reader accepts is a record whose storing was completed, no older than the last
  one completed in front of the read.

The sequence number has 64 bits; fewer than `2 ^ 63` records are stored.
-/

namespace Lib

/-- The cells of a record, in the order in which they are stored and loaded. -/
structure Cells (R ι : Type*) where
  /-- `copy i d s` is `d` with the cell `i` of `s`. -/
  copy : ι → R → R → R
  order : List ι
  copied : ∀ d s, order.foldl (fun r i => copy i r s) d = s

namespace Cells

variable {R ι : Type*} (cells : Cells R ι)

/-- Some cells of a record copied over those of another one. -/
def copyAll (rest : List ι) (d s : R) : R := rest.foldl (fun r i => cells.copy i r s) d

@[simp] theorem copyAll_nil (d s : R) : cells.copyAll [] d s = d := rfl

@[simp] theorem copyAll_cons (i : ι) (rest : List ι) (d s : R) :
    cells.copyAll (i :: rest) d s = cells.copyAll rest (cells.copy i d s) s := rfl

@[simp] theorem copyAll_order (d s : R) : cells.copyAll cells.order d s = s := cells.copied d s

end Cells

namespace SequenceLock

/-- The writer, with the cells it has yet to store. -/
inductive Writer (R ι : Type*) where
  | idle
  | storing (record : R) (rest : List ι)

/-- A reader, with the record it loads into. -/
inductive Reader (R ι : Type*) where
  | idle
  /-- Loads the sequence number. -/
  | begin (attempt : Nat) (record : R)
  /-- Loads the cells that are left, then the sequence number. -/
  | loading (attempt : Nat) (sequence : UInt64) (record : R) (rest : List ι)
  | returned (accepted : Bool) (record : R)
  deriving DecidableEq

structure State (R ι : Type*) where
  sequence : UInt64
  record : R
  writer : Writer R ι
  readers : List (Reader R ι)

inductive Action (R : Type*) where
  /-- The writer begins to store a record. -/
  | publish (record : R)
  /-- The next step of the writer. -/
  | store
  /-- A reader begins a read into a record. -/
  | call (c : Nat) (record : R)
  /-- The next step of a reader. -/
  | load (c : Nat)

variable {R ι : Type*} (cells : Cells R ι) (attempts : Nat)

def initial (record : R) (readers : Nat) : State R ι where
  sequence := 0
  record
  writer := .idle
  readers := .replicate readers .idle

/-- The loop over the attempts. -/
def tryAgain (attempt : Nat) (record : R) : Reader R ι :=
  if attempt < attempts then .begin attempt record else .returned false record

def publish (s : State R ι) (record : R) : Option (State R ι) :=
  match s.writer with
  | .idle => some { s with sequence := s.sequence + 1, writer := .storing record cells.order }
  | .storing _ _ => none

def store (s : State R ι) : Option (State R ι) :=
  match s.writer with
  | .idle => none
  | .storing record (i :: rest) =>
    some { s with record := cells.copy i s.record record, writer := .storing record rest }
  | .storing _ [] => some { s with sequence := s.sequence + 1, writer := .idle }

def call (record : R) : Reader R ι → Option (Reader R ι)
  | .idle | .returned _ _ => some (tryAgain attempts 0 record)
  | .begin _ _ | .loading _ _ _ _ => none

def load (s : State R ι) : Reader R ι → Option (Reader R ι)
  | .begin attempt record =>
    if s.sequence.toNat % 2 ≠ 0 then some (tryAgain attempts (attempt + 1) record)
    else some (.loading attempt s.sequence record cells.order)
  | .loading attempt sequence record (i :: rest) =>
    some (.loading attempt sequence (cells.copy i record s.record) rest)
  | .loading attempt sequence record [] =>
    if sequence = s.sequence then some (.returned true record)
    else some (tryAgain attempts (attempt + 1) record)
  | .idle | .returned _ _ => none

def step (s : State R ι) : Action R → Option (State R ι)
  | .publish record => publish cells s record
  | .store => store cells s
  | .call c record => s.readers[c]?.bind fun reader =>
    (call attempts record reader).map fun new => { s with readers := s.readers.set c new }
  | .load c => s.readers[c]?.bind fun reader =>
    (load cells attempts s reader).map fun new => { s with readers := s.readers.set c new }

/-! ## What is stored along a run -/

/-- The record whose storing a step completes. -/
def completes (x : Transition (State R ι) (Action R)) : Option R :=
  match x.action with
  | .store =>
    match x.pre.writer with
    | .storing record [] => some record
    | _ => none
  | _ => none

/-- The records whose storing is completed, in order. -/
def completed (tr : List (Transition (State R ι) (Action R))) : List R := tr.filterMap completes

/-- The records whose storing is begun. -/
def published (tr : List (Transition (State R ι) (Action R))) : List R :=
  tr.filterMap fun x =>
    match x.action with
    | .publish record => some record
    | _ => none

variable {cells attempts}
variable {record new : R} {s t u : State R ι} {tr : List (Transition (State R ι) (Action R))}
  {begun c : Nat} {done : List R}

theorem completed_concat (tr : List (Transition (State R ι) (Action R)))
    (x : Transition (State R ι) (Action R)) :
    completed (tr ++ [x]) = completed tr ++ completed [x] := List.filterMap_append

theorem published_concat (tr : List (Transition (State R ι) (Action R)))
    (x : Transition (State R ι) (Action R)) :
    published (tr ++ [x]) = published tr ++ published [x] := List.filterMap_append

theorem tryAgain_ne_loading {attempt attempt' : Nat} {sequence : UInt64} {loaded : R} {rest : List ι} :
    tryAgain attempts attempt record ≠ .loading attempt' sequence loaded rest := by
  unfold tryAgain
  split <;> nofun

theorem tryAgain_ne_accepted {attempt : Nat} {loaded : R} :
    (tryAgain attempts attempt record : Reader R ι) ≠ .returned true loaded := by
  unfold tryAgain
  split <;> nofun

/-! ## The invariant -/

/-- A state after `begun` records were begun and the records `done` were completed. -/
structure Consistent (cells : Cells R ι) (record : R) (begun : Nat) (done : List R)
    (s : State R ι) : Prop where
  /-- Between two records the last one completed is there; within one, its cells are on their way. -/
  writer : match s.writer with
    | .idle => begun = done.length ∧ (record :: done).getLast? = some s.record
    | .storing new rest => begun = done.length + 1 ∧ cells.copyAll rest s.record new = new
  sequence : s.sequence.toNat = begun + done.length
  readers : ∀ (c attempt : Nat) sequence loaded rest,
    s.readers[c]? = some (.loading attempt sequence loaded rest) →
      sequence.toNat % 2 = 0 ∧ sequence.toNat ≤ s.sequence.toNat ∧
        (sequence = s.sequence → cells.copyAll rest loaded s.record = s.record)

theorem consistent_initial (record : R) (readers : Nat) :
    Consistent cells record 0 [] (initial record readers) where
  writer := ⟨rfl, rfl⟩
  sequence := rfl
  readers := by
    intro c attempt sequence loaded rest h
    cases (List.mem_replicate.1 (List.mem_of_getElem? h)).2

namespace Consistent

variable (h : Consistent cells record begun done s)

include h

/-- The sequence number goes up by one. -/
theorem sequence_succ (hbound : begun + done.length + 1 < 2 ^ 64) :
    (s.sequence + 1).toNat = s.sequence.toNat + 1 := by
  rw [UInt64.toNat_add, UInt64.toNat_one, Nat.mod_eq_of_lt]
  rwa [h.sequence]

/-- A step of the writer under an odd number, or one that makes the number grow, leaves every reader
with an old number. -/
theorem readers_of_writer (hreaders : t.readers = s.readers)
    (hsequence : t.sequence = s.sequence ∧ s.sequence.toNat % 2 = 1 ∨
      t.sequence.toNat = s.sequence.toNat + 1) :
    ∀ (c attempt : Nat) sequence loaded rest,
      t.readers[c]? = some (.loading attempt sequence loaded rest) →
        sequence.toNat % 2 = 0 ∧ sequence.toNat ≤ t.sequence.toNat ∧
          (sequence = t.sequence → cells.copyAll rest loaded t.record = t.record) := by
  intro c attempt sequence loaded rest hc
  rw [hreaders] at hc
  obtain ⟨heven, hle, -⟩ := h.readers c attempt sequence loaded rest hc
  refine ⟨heven, ?_, fun hcurrent => ?_⟩
  · rcases hsequence with ⟨hsame, -⟩ | hgrown
    · rwa [hsame]
    · omega
  · subst hcurrent
    rcases hsequence with ⟨hsame, hodd⟩ | hgrown
    · rw [← hsame] at hodd
      omega
    · omega

theorem publish (hs : SequenceLock.publish cells s new = some t)
    (hbound : begun + done.length + 1 < 2 ^ 64) : Consistent cells record (begun + 1) done t := by
  have hsucc := h.sequence_succ hbound
  have hwriter := h.writer
  unfold SequenceLock.publish at hs
  split at hs
  · rename_i hidle
    rw [hidle] at hwriter
    rw [← Option.some.inj hs]
    refine ⟨⟨by rw [hwriter.1], cells.copyAll_order _ _⟩, ?_, h.readers_of_writer rfl (.inr hsucc)⟩
    show (s.sequence + 1).toNat = _
    rw [hsucc, h.sequence]
    omega
  · cases hs

theorem store_cell {i : ι} {rest : List ι} (hwriter : s.writer = .storing new (i :: rest)) :
    Consistent cells record begun done
      { s with record := cells.copy i s.record new, writer := .storing new rest } := by
  have hbefore := h.writer
  rw [hwriter] at hbefore
  refine ⟨hbefore, h.sequence, h.readers_of_writer rfl (.inl ⟨rfl, ?_⟩)⟩
  rw [h.sequence, hbefore.1]
  omega

theorem store_last (hwriter : s.writer = .storing new [])
    (hbound : begun + done.length + 1 < 2 ^ 64) :
    Consistent cells record begun (done ++ [new])
      { s with sequence := s.sequence + 1, writer := .idle } := by
  have hsucc := h.sequence_succ hbound
  have hbefore := h.writer
  rw [hwriter] at hbefore
  obtain ⟨hbegun, hstored⟩ := hbefore
  refine ⟨⟨by simp [hbegun], ?_⟩, ?_, h.readers_of_writer rfl (.inr hsucc)⟩
  · show (record :: (done ++ [new])).getLast? = some s.record
    rw [← List.cons_append, List.getLast?_concat, ← hstored, Cells.copyAll_nil]
  · show (s.sequence + 1).toNat = _
    rw [hsucc, h.sequence, List.length_append]
    rfl

/-- A reader moves: what it loads is consistent with the number it has. -/
theorem set_reader {new : Reader R ι}
    (hnew : ∀ attempt sequence loaded rest, new = .loading attempt sequence loaded rest →
      sequence.toNat % 2 = 0 ∧ sequence.toNat ≤ s.sequence.toNat ∧
        (sequence = s.sequence → cells.copyAll rest loaded s.record = s.record)) :
    Consistent cells record begun done { s with readers := s.readers.set c new } := by
  refine ⟨h.writer, h.sequence, fun c' attempt sequence loaded rest hc => ?_⟩
  rw [List.getElem?_set] at hc
  split_ifs at hc with hsame hlt
  · exact hnew _ _ _ _ (Option.some.inj hc)
  · exact h.readers _ _ _ _ _ hc

theorem load {reader new : Reader R ι} (hc : s.readers[c]? = some reader)
    (hs : SequenceLock.load cells attempts s reader = some new) :
    Consistent cells record begun done { s with readers := s.readers.set c new } := by
  refine h.set_reader fun attempt sequence loaded rest hnew => ?_
  subst hnew
  unfold SequenceLock.load at hs
  split at hs
  · split_ifs at hs with hodd
    · exact absurd (Option.some.inj hs) (by simp [tryAgain_ne_loading])
    · cases hs
      exact ⟨not_not.1 hodd, Nat.le_refl _, fun _ => cells.copyAll_order _ _⟩
  · cases hs
    obtain ⟨heven, hle, hsame⟩ := h.readers _ _ _ _ _ hc
    exact ⟨heven, hle, hsame⟩
  · split_ifs at hs with hsame
    · cases hs
    · exact absurd (Option.some.inj hs) (by simp [tryAgain_ne_loading])
  · cases hs
  · cases hs

/-- **What a reader accepts** is the record that was completed last. -/
theorem accepted {reader : Reader R ι} {loaded : R} (hc : s.readers[c]? = some reader)
    (hs : SequenceLock.load cells attempts s reader = some (.returned true loaded)) :
    (record :: done).getLast? = some loaded := by
  unfold SequenceLock.load at hs
  split at hs
  · split_ifs at hs with hodd
    · exact absurd (Option.some.inj hs) tryAgain_ne_accepted
    · cases hs
  · cases hs
  · split_ifs at hs with hcurrent
    · cases hs
      obtain ⟨heven, -, hsame⟩ := h.readers _ _ _ _ _ hc
      have hwriter := h.writer
      have hsequence := h.sequence
      split at hwriter
      · rw [hwriter.2, ← hsame hcurrent, Cells.copyAll_nil]
      · rw [hcurrent] at heven
        omega
    · exact absurd (Option.some.inj hs) tryAgain_ne_accepted
  · cases hs
  · cases hs

end Consistent

/-- One step of the machine. -/
theorem consistent_step {x : Transition (State R ι) (Action R)}
    (hs : step cells attempts x.pre x.action = some x.post)
    (hbound : begun + done.length + 1 < 2 ^ 64)
    (h : Consistent cells record begun done x.pre) :
    Consistent cells record (begun + (published [x]).length) (done ++ completed [x]) x.post := by
  obtain ⟨s, action, t⟩ := x
  dsimp only at hs h ⊢
  cases action with
  | publish new => simpa [published, completed, completes, List.filterMap_cons] using h.publish hs hbound
  | store =>
    simp only [step, store] at hs
    split at hs
    · cases hs
    · rename_i new i rest hwriter
      cases hs
      simpa [published, completed, completes, hwriter] using h.store_cell hwriter
    · rename_i new hwriter
      cases hs
      simpa [published, completed, completes, hwriter] using h.store_last hwriter hbound
  | call c into =>
    obtain ⟨reader, hc, hs⟩ := Option.bind_eq_some_iff.1 hs
    obtain ⟨new, hnew, rfl⟩ := Option.map_eq_some_iff.1 hs
    have hnone : ∀ attempt sequence loaded rest, new ≠ .loading attempt sequence loaded rest := by
      unfold call at hnew
      split at hnew <;> cases hnew <;> simp [tryAgain_ne_loading]
    simpa [published, completed, completes, List.filterMap_cons] using
      h.set_reader fun attempt sequence loaded rest heq => absurd heq (hnone _ _ _ _)
  | load c =>
    obtain ⟨reader, hc, hs⟩ := Option.bind_eq_some_iff.1 hs
    obtain ⟨new, hnew, rfl⟩ := Option.map_eq_some_iff.1 hs
    simpa [published, completed, completes, List.filterMap_cons] using h.load hc hnew

/-! ## Runs -/

theorem published_le_of_append {tr₁ tr₂ : List (Transition (State R ι) (Action R))}
    (h : (published (tr₁ ++ tr₂)).length < begun) : (published tr₁).length < begun := by
  rw [published, List.filterMap_append, List.length_append] at h
  exact Nat.lt_of_le_of_lt (Nat.le_add_right _ _) h

/-- **The invariant** of every run that begins fewer than `2 ^ 63` records. -/
theorem consistent {readers : Nat} (h : Trace (step cells attempts) (initial record readers) tr u)
    (hbound : (published tr).length < 2 ^ 63) :
    Consistent cells record (published tr).length (completed tr) u := by
  refine h.history (P := fun tr u => (published tr).length < 2 ^ 63 →
    Consistent cells record (published tr).length (completed tr) u)
    (fun _ => consistent_initial record readers) (fun tr x _ hs ih hbound => ?_) hbound
  have hbefore := published_le_of_append hbound
  have hi := ih hbefore
  have hdone : (completed tr).length ≤ (published tr).length := by
    have hwriter := hi.writer
    split at hwriter <;> omega
  rw [published_concat, completed_concat, List.length_append]
  exact consistent_step hs (by omega) hi

/-- The reader's call has not returned, or has accepted a record that was completed after the first
`from_` ones. -/
def Delivers (record : R) (from_ c : Nat) (done : List R) (s : State R ι) : Prop :=
  from_ ≤ done.length ∧ ∀ loaded, s.readers[c]? = some (.returned true loaded) →
    ∃ k, from_ ≤ k ∧ (record :: done)[k]? = some loaded

/-- What another step leaves. -/
theorem Delivers.append {from_ : Nat} (h : Delivers record from_ c done s) (more : List R)
    (hsame : t.readers[c]? = s.readers[c]?) : Delivers record from_ c (done ++ more) t := by
  refine ⟨Nat.le_trans h.1 (by simp), fun loaded hloaded => ?_⟩
  rw [hsame] at hloaded
  obtain ⟨k, hk, hget⟩ := h.2 loaded hloaded
  refine ⟨k, hk, ?_⟩
  rw [← List.cons_append, List.getElem?_append_left (List.getElem?_eq_some_iff.1 hget).1, hget]

/-- A step of another thread leaves the reader alone. -/
theorem readers_of_other {x : Transition (State R ι) (Action R)}
    (hs : step cells attempts x.pre x.action = some x.post) (hcall : ∀ into, x.action ≠ .call c into)
    (hload : x.action ≠ .load c) : x.post.readers[c]? = x.pre.readers[c]? := by
  obtain ⟨s, action, t⟩ := x
  dsimp only at hs hcall hload ⊢
  cases action with
  | publish new =>
    simp only [step, publish] at hs
    split at hs <;> cases hs
    rfl
  | store =>
    simp only [step, store] at hs
    split at hs <;> cases hs <;> rfl
  | call c' into =>
    obtain ⟨reader, -, hs⟩ := Option.bind_eq_some_iff.1 hs
    obtain ⟨new, -, rfl⟩ := Option.map_eq_some_iff.1 hs
    have hne : c' ≠ c := by
      rintro rfl
      exact hcall into rfl
    exact List.getElem?_set_ne hne
  | load c' =>
    obtain ⟨reader, -, hs⟩ := Option.bind_eq_some_iff.1 hs
    obtain ⟨new, -, rfl⟩ := Option.map_eq_some_iff.1 hs
    have hne : c' ≠ c := by
      rintro rfl
      exact hload rfl
    exact List.getElem?_set_ne hne

theorem delivers_step {from_ : Nat} {x : Transition (State R ι) (Action R)}
    (hs : step cells attempts x.pre x.action = some x.post) (hcall : ∀ into, x.action ≠ .call c into)
    (hi : Consistent cells record begun done x.pre) (h : Delivers record from_ c done x.pre) :
    Delivers record from_ c (done ++ completed [x]) x.post := by
  by_cases hload : x.action = .load c
  · obtain ⟨s, action, t⟩ := x
    dsimp only at hs hi h hload
    subst hload
    obtain ⟨reader, hc, hs⟩ := Option.bind_eq_some_iff.1 hs
    obtain ⟨new, hnew, rfl⟩ := Option.map_eq_some_iff.1 hs
    have hnone : completed [⟨s, .load c, { s with readers := s.readers.set c new }⟩] = [] := rfl
    rw [hnone, List.append_nil]
    refine ⟨h.1, fun loaded hloaded => ⟨done.length, h.1, ?_⟩⟩
    dsimp only at hloaded
    rw [List.getElem?_set_self (List.getElem?_eq_some_iff.1 hc).1] at hloaded
    obtain rfl := Option.some.inj hloaded
    have hlast := hi.accepted hc hnew
    rwa [List.getLast?_eq_getElem?] at hlast
  · exact h.append _ (readers_of_other hs hcall hload)

/-- A read has begun. -/
theorem delivers_call {x : Transition (State R ι) (Action R)} {into : R}
    (hs : step cells attempts x.pre x.action = some x.post) (hx : x.action = .call c into) :
    completed [x] = [] ∧ Delivers record done.length c done x.post := by
  obtain ⟨s, action, t⟩ := x
  dsimp only at hs hx ⊢
  subst hx
  obtain ⟨reader, hc, hs⟩ := Option.bind_eq_some_iff.1 hs
  obtain ⟨new, hnew, rfl⟩ := Option.map_eq_some_iff.1 hs
  refine ⟨rfl, Nat.le_refl _, fun loaded hloaded => ?_⟩
  dsimp only at hloaded
  rw [List.getElem?_set_self (List.getElem?_eq_some_iff.1 hc).1] at hloaded
  obtain rfl := Option.some.inj hloaded
  cases reader with
  | idle | returned => exact absurd (Option.some.inj hnew) tryAgain_ne_accepted
  | begin | loading => cases hnew

variable {readers : Nat} {tr₁ tr₂ : List (Transition (State R ι) (Action R))}
  {x : Transition (State R ι) (Action R)} {into loaded : R}

theorem delivers_run
    (h : Trace (step cells attempts) (initial record readers) (tr₁ ++ x :: tr₂) u)
    (hx : x.action = .call c into) (hcall : ∀ y ∈ tr₂, ∀ into, y.action ≠ .call c into)
    (hbound : (published (tr₁ ++ x :: tr₂)).length < 2 ^ 63) :
    Delivers record (completed tr₁).length c (completed (tr₁ ++ x :: tr₂)) u := by
  induction tr₂ using List.reverseRecOn generalizing u with
  | nil =>
    obtain ⟨-, hs, hrest⟩ := h.split
    cases hrest
    obtain ⟨hnone, hdelivers⟩ := delivers_call hs hx
    rw [completed_concat, hnone, List.append_nil]
    exact hdelivers
  | append_singleton tr₂ y ih =>
    rw [← List.cons_append, ← List.append_assoc] at h hbound ⊢
    obtain ⟨hbefore, hs, hrest⟩ := h.split
    cases hrest
    have hbound' := published_le_of_append hbound
    have hi := ih hbefore (fun z hz => hcall z (List.mem_append_left _ hz)) hbound'
    rw [completed_concat]
    exact delivers_step hs (hcall y (by simp)) (consistent hbefore hbound') hi

/-- **Sequence locks deliver whole records.** What a read accepts is the first record or one whose
storing was completed, and none that was replaced in front of the read. -/
theorem delivers
    (h : Trace (step cells attempts) (initial record readers) (tr₁ ++ x :: tr₂) u)
    (hx : x.action = .call c into) (hcall : ∀ y ∈ tr₂, ∀ into, y.action ≠ .call c into)
    (hbound : (published (tr₁ ++ x :: tr₂)).length < 2 ^ 63)
    (hloaded : u.readers[c]? = some (.returned true loaded)) :
    ∃ k, (completed tr₁).length ≤ k ∧
      (record :: completed (tr₁ ++ x :: tr₂))[k]? = some loaded :=
  (delivers_run h hx hcall hbound).2 loaded hloaded

end SequenceLock

end Lib

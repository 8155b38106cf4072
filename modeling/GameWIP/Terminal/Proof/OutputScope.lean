import Mathlib.Tactic.SplitIfs
import GameWIP.Terminal.OutputScope

/-!
# The depth of a stream counts its restoration debts

An active scope whose restoring sequence has not been written owes its stream that sequence
(`OutputScope.owes`). The claim of the two classes is that the depth of a stream is the number of
scopes that owe it (`ScopeSystem.Balanced`), so that the sequence is written when the last of them
is released (`ScopesKept`).

* `OutputScope.Released`: what a release can do to the scope and to the stream, five cases. The
  other operations are built from it, and every fact below is read off the cases.
* `step_balanced`: the operations keep the balance, up to one: the destructor of a scope whose
  sequence has been written and whose flush fails again gives up a level it no longer has
  (`ScopeAction.Guard`), which is a level of another scope when there is one.
* `scopesKept_iff`: along a run the depth counts the debts and the sequences are written as they
  should be exactly when no step is such a destruction.
-/

namespace Terminal

open Io (Status FlushMode isValidFlushMode)
open Lib (Slots Transition Trace)

/-! ## The output state -/

theorem validOutputStream_cases {stream : Stream} (h : validOutputStream stream = true) :
    stream = .stdout ∨ stream = .stderr := by
  simpa [validOutputStream] using h

namespace Output

variable {output : Output} {kind kind' : ScopeKind} {stream stream' : Stream} {n : Nat}

@[simp] theorem depth_setDepth_self : (output.setDepth kind stream n).depth kind stream = n := by
  unfold setDepth depth setOutputState outputState
  cases kind <;> split_ifs <;> rfl

theorem depth_setDepth_kind (h : kind' ≠ kind) :
    (output.setDepth kind stream n).depth kind' stream' = output.depth kind' stream' := by
  unfold setDepth depth setOutputState outputState
  cases kind <;> cases kind' <;> first | exact absurd rfl h | (split_ifs <;> rfl)

theorem depth_setDepth_stream (hs : validOutputStream stream = true)
    (hs' : validOutputStream stream' = true) (h : stream' ≠ stream) :
    (output.setDepth kind stream n).depth kind' stream' = output.depth kind' stream' := by
  obtain rfl | rfl := validOutputStream_cases hs <;>
    obtain rfl | rfl := validOutputStream_cases hs'
  · exact absurd rfl h
  · cases kind <;> rfl
  · cases kind <;> rfl
  · exact absurd rfl h

@[simp] theorem written_setDepth : (output.setDepth kind stream n).written = output.written := by
  unfold setDepth setOutputState
  split_ifs <;> rfl

@[simp] theorem depth_write {written : List (Stream × String)} :
    ({ output with written } : Output).depth kind stream = output.depth kind stream := rfl

theorem depth_setDepth_le (h : ∀ kind stream, output.depth kind stream ≤ sizeMax)
    (hn : n ≤ sizeMax) : (output.setDepth kind stream n).depth kind' stream' ≤ sizeMax := by
  have h' := h kind' stream'
  unfold setDepth depth setOutputState outputState at *
  cases kind <;> cases kind' <;> split_ifs at * <;> first | exact hn | exact h'

/-- How often the restoring sequence of a kind has been written to a stream. -/
def restorations (output : Output) (kind : ScopeKind) (stream : Stream) : Nat :=
  output.written.count (stream, kind.restoreSequence)

@[simp] theorem restorations_setDepth :
    (output.setDepth kind stream n).restorations kind' stream' =
      output.restorations kind' stream' := by
  simp [restorations]

end Output

theorem restoreSequence_inj {kind kind' : ScopeKind} :
    kind.restoreSequence = kind'.restoreSequence ↔ kind = kind' := by
  cases kind <;> cases kind' <;> decide

theorem enterSequence_ne (kind kind' : ScopeKind) : kind.enterSequence ≠ kind'.restoreSequence := by
  cases kind <;> cases kind' <;> decide

/-! ## What a release does -/

namespace OutputScope

variable {kind kind' : ScopeKind} {scope scope' other : OutputScope} {answers : ControlAnswers}
  {output output' : Output} {stream : Stream}

/-- The scope is active and its restoring sequence has not been written. -/
def owes (stream : Stream) (scope : OutputScope) : Bool :=
  scope.active_ && !scope.restorationEmitted_ && scope.stream_ == stream

theorem owes_iff : scope.owes stream = true ↔
    scope.active_ = true ∧ scope.restorationEmitted_ = false ∧ scope.stream_ = stream := by
  simp [owes, and_assoc]

/-- What holds of every scope object: an active scope passed the checks of its factory, and only a
session gives up the restoration on destruction. -/
structure WellFormed (scope : OutputScope) : Prop where
  stream : scope.active_ = true → validOutputStream scope.stream_ = true
  flushMode : scope.active_ = true → isValidFlushMode scope.options_.flushMode = true
  restoreOnDestruction : scope.restoreOnDestruction_ = true

/-- What a release can do: nothing, a repeated flush that succeeds, a release without a level to
leave, the release of an inner level, and the restoration of the outer one, which leaves the scope
waiting for its flush when the flush fails. -/
inductive Released (kind : ScopeKind) (scope : OutputScope) (answers : ControlAnswers)
    (output : Output) : OutputScope → Output → Prop
  | unchanged (status : Status)
      (emitted : scope.active_ = true → scope.restorationEmitted_ = true → answers.flush.ok = false)
      (owed : scope.active_ = true → scope.restorationEmitted_ = false →
        output.depth kind scope.stream_ = 1 ∧ answers.accepts kind.feature = false)
      (failed : scope.active_ = true → status.ok = false) :
      Released kind scope answers output { scope with status_ := status } output
  | flushed (status : Status) (active : scope.active_ = true)
      (emitted : scope.restorationEmitted_ = true) (ok : status.ok = true) :
      Released kind scope answers output
        { scope with status_ := status, active_ := false, restorationEmitted_ := false } output
  | levelless (status : Status) (active : scope.active_ = true)
      (owed : scope.restorationEmitted_ = false) (depth : output.depth kind scope.stream_ = 0)
      (ok : status.ok = true) :
      Released kind scope answers output { scope with status_ := status, active_ := false } output
  | nested (status : Status) (active : scope.active_ = true)
      (owed : scope.restorationEmitted_ = false) (depth : 1 < output.depth kind scope.stream_)
      (ok : status.ok = true) :
      Released kind scope answers output { scope with status_ := status, active_ := false }
        (output.setDepth kind scope.stream_ (output.depth kind scope.stream_ - 1))
  | restored (status : Status) (waiting : Bool) (active : scope.active_ = true)
      (owed : scope.restorationEmitted_ = false) (depth : output.depth kind scope.stream_ = 1)
      (accepted : answers.accepts kind.feature = true) (failed : waiting = !status.ok) :
      Released kind scope answers output
        { scope with status_ := status, active_ := waiting, restorationEmitted_ := waiting }
        (Output.setDepth
          { output with written := (scope.stream_, kind.restoreSequence) :: output.written }
          kind scope.stream_ 0)

theorem release_released (kind : ScopeKind) (answers : ControlAnswers) (output : Output)
    (hw : scope.WellFormed) : Released kind scope answers output (scope.release kind answers output).1
      (scope.release kind answers output).2 := by
  obtain ⟨stream_, options_, status_, active_, restorationEmitted_, restoreOnDestruction_⟩ := scope
  cases active_ with
  | false => exact .unchanged status_ (by simp) (by simp) (by simp)
  | true =>
    have hs : validOutputStream stream_ = true := hw.stream rfl
    have hm : isValidFlushMode options_.flushMode = true := hw.flushMode rfl
    cases restorationEmitted_ with
    | true =>
      by_cases hf : answers.flush.ok = true
      · simpa [release, flush, hs, hm, hf] using Released.flushed answers.flush rfl rfl hf
      · simpa [release, flush, hs, hm, hf] using
          Released.unchanged answers.flush (fun _ _ => by simpa using hf) (by simp)
            fun _ => by simpa using hf
    | false =>
      simp only [release, restoreScope, if_true, Bool.false_eq_true, if_false]
      by_cases h0 : output.depth kind stream_ = 0
      · simpa [h0] using Released.levelless Io.successStatus rfl rfl h0 rfl
      · by_cases h1 : output.depth kind stream_ > 1
        · simpa [h0, h1] using Released.nested Io.successStatus rfl rfl h1 rfl
        · have hd : output.depth kind stream_ = 1 := by omega
          cases ha : answers.accepts kind.feature with
          | true =>
            rw [writeControlSequenceUnlocked_emitted hm ha]
            cases hf : (flushIfRequested options_.flushMode answers).ok with
            | true => simpa [hd, hf] using Released.restored _ false rfl rfl hd ha (by rw [hf]; rfl)
            | false => simpa [hd, hf] using Released.restored _ true rfl rfl hd ha (by rw [hf]; rfl)
          | false =>
            obtain ⟨status, hf, he⟩ := writeControlSequenceUnlocked_refused stream_
              kind.restoreSequence kind.unsupportedMessage output hm ha
            rw [he]
            simpa [hd] using Released.unchanged status (by simp) (fun _ _ => ⟨hd, ha⟩)
              fun _ => hf

namespace Released

variable (h : Released kind scope answers output scope' output')
include h

theorem stream_eq : scope'.stream_ = scope.stream_ := by
  cases h <;> rfl

theorem active_of (ha : scope'.active_ = true) : scope.active_ = true := by
  cases h with
  | unchanged => exact ha
  | _ => assumption

theorem wellFormed (hw : scope.WellFormed) : scope'.WellFormed := by
  refine ⟨fun ha => ?_, fun ha => ?_, ?_⟩
  · rw [h.stream_eq]
    exact hw.stream (h.active_of ha)
  · have := hw.flushMode (h.active_of ha)
    cases h <;> exact this
  · have := hw.restoreOnDestruction
    cases h <;> exact this

/-- The depth follows the debt of the released scope. -/
theorem depth_eq (hw : scope.WellFormed) (hs : validOutputStream stream = true)
    (hd : scope.owes stream = true → 0 < output.depth kind stream) :
    output'.depth kind stream + (if scope.owes stream then 1 else 0) =
      output.depth kind stream + (if scope'.owes stream then 1 else 0) := by
  by_cases he : scope.stream_ = stream
  · subst he
    cases h with
    | unchanged => rfl
    | flushed status active emitted => simp [owes, active, emitted]
    | levelless status active owed depth =>
      have := hd (by simp [owes, active, owed])
      omega
    | nested status active owed depth =>
      simp [owes, active, owed]
      omega
    | restored status waiting active owed depth accepted => simp [owes, active, owed, depth]
  · have hne := Ne.symm he
    have h' : scope'.stream_ ≠ stream := by rwa [h.stream_eq]
    simp only [owes, beq_false_of_ne he, beq_false_of_ne h', Bool.and_false, Bool.false_eq_true,
      if_false, Nat.add_zero]
    cases h with
    | nested status active => exact Output.depth_setDepth_stream (hw.stream active) hs hne
    | restored status waiting active =>
      rw [Output.depth_setDepth_stream (hw.stream active) hs hne]
      rfl
    | _ => rfl

theorem depth_kind (hk : kind' ≠ kind) : output'.depth kind' stream = output.depth kind' stream := by
  cases h with
  | nested => exact Output.depth_setDepth_kind hk
  | restored => rw [Output.depth_setDepth_kind hk]; rfl
  | _ => rfl

theorem depth_le (hd : ∀ kind stream, output.depth kind stream ≤ sizeMax) :
    output'.depth kind' stream ≤ sizeMax := by
  cases h with
  | nested => exact Output.depth_setDepth_le hd (Nat.le_trans (Nat.sub_le _ _) (hd _ _))
  | restored => exact Output.depth_setDepth_le (by simpa using hd) (Nat.zero_le _)
  | _ => exact hd _ _

/-- The restoring sequence is written by the release of the last level, if the platform takes it. -/
theorem restorations_eq :
    output'.restorations kind' stream = output.restorations kind' stream +
      if kind' = kind ∧ scope.owes stream = true ∧ output.depth kind stream = 1 ∧
        answers.accepts kind.feature = true then 1 else 0 := by
  cases h with
  | unchanged status emitted owed =>
    rw [if_neg]
    · rfl
    · intro ⟨_, ho, _, ha⟩
      obtain ⟨active, emitted, _⟩ := owes_iff.1 ho
      simp [(owed active emitted).2] at ha
  | flushed status active emitted => simp [owes, emitted]
  | levelless status active owed depth =>
    rw [if_neg]
    · rfl
    · intro ⟨_, ho, hd, _⟩
      obtain ⟨_, _, rfl⟩ := owes_iff.1 ho
      omega
  | nested status active owed depth =>
    rw [if_neg]
    · simp
    · intro ⟨_, ho, hd, _⟩
      obtain ⟨_, _, rfl⟩ := owes_iff.1 ho
      omega
  | restored status waiting active owed depth accepted =>
    rw [Output.restorations_setDepth]
    simp only [Output.restorations, List.count_cons, beq_iff_eq, Prod.mk.injEq,
      restoreSequence_inj, owes, active, owed, accepted, Bool.not_false, Bool.and_self,
      Bool.true_and, and_true]
    congr 1
    by_cases hs : scope.stream_ = stream
    · subst hs
      simp [depth, eq_comm]
    · simp [hs]

/-- A scope the release leaves active still owes its sequence or has it written with no level left,
unless its sequence had been written before. -/
theorem active_cases (ha : scope'.active_ = true) :
    (scope' = { scope with status_ := scope'.status_ } ∧ output' = output ∧
      (scope.restorationEmitted_ = true → answers.flush.ok = false)) ∨
    (scope.restorationEmitted_ = false ∧ scope'.restorationEmitted_ = true ∧
      output'.depth kind scope.stream_ = 0) := by
  cases h with
  | unchanged status emitted owed => exact .inl ⟨rfl, rfl, emitted ha⟩
  | restored status waiting active owed => exact .inr ⟨owed, ha, Output.depth_setDepth_self⟩
  | _ => exact absurd ha (by simp)

/-- A release that succeeds, and only that, leaves the scope inactive. -/
theorem ok_iff (ha : scope.active_ = true) :
    scope'.status_.ok = true ↔ scope'.active_ = false := by
  cases h with
  | unchanged status _ _ failed => simp [failed ha, ha]
  | flushed status _ _ ok => simp [ok]
  | levelless status _ _ _ ok => simp [ok]
  | nested status _ _ _ ok => simp [ok]
  | restored status waiting _ _ _ _ failed => simp [failed]

/-- With the platform's consent the last level is left, and only with it. -/
theorem owes_last (ho : scope.owes stream = true) (hd : output.depth kind stream = 1) :
    scope'.owes stream = false ↔ answers.accepts kind.feature = true := by
  obtain ⟨active, emitted, rfl⟩ := owes_iff.1 ho
  cases h with
  | unchanged status _ owed => simp [owes, active, emitted, (owed active emitted).2]
  | flushed status _ emitted' => simp [emitted] at emitted'
  | levelless status _ _ depth => omega
  | nested status _ _ depth => omega
  | restored status waiting _ _ _ accepted => simp [owes, accepted]

end Released

/-! ## The other operations -/

theorem wellFormed_of_inactive (ha : scope.active_ = false) (hr : scope.restoreOnDestruction_ = true) :
    scope.WellFormed :=
  ⟨by simp [ha], by simp [ha], hr⟩

@[simp] theorem owes_movedFrom : scope.movedFrom.owes stream = false := rfl

/-- What the factory of a scope can do: refuse, or enter the outer or an inner level. -/
inductive Scoped (kind : ScopeKind) (stream : Stream) (options : ControlOptions)
    (answers : ControlAnswers) (output : Output) : OutputScope → Output → Prop
  | refused (status : Status) (failed : status.ok = false) :
      Scoped kind stream options answers output
        { stream_ := stream, options_ := options, status_ := status } output
  | outer (status : Status) (valid : validOutputStream stream = true)
      (mode : isValidFlushMode options.flushMode = true) (depth : output.depth kind stream = 0)
      (accepted : answers.accepts kind.feature = true) :
      Scoped kind stream options answers output
        { stream_ := stream, options_ := options, status_ := status, active_ := true }
        (Output.setDepth { output with written := (stream, kind.enterSequence) :: output.written }
          kind stream 1)
  | inner (valid : validOutputStream stream = true)
      (mode : isValidFlushMode options.flushMode = true) (depth : 0 < output.depth kind stream)
      (limit : output.depth kind stream ≠ sizeMax) :
      Scoped kind stream options answers output
        { stream_ := stream, options_ := options, active_ := true }
        (output.setDepth kind stream (output.depth kind stream + 1))

theorem scopedOutputState_scoped (kind : ScopeKind) (stream : Stream) (options : ControlOptions)
    (answers : ControlAnswers) (output : Output) : Scoped kind stream options answers output
      (scopedOutputState kind stream options answers output).1
      (scopedOutputState kind stream options answers output).2 := by
  unfold scopedOutputState
  dsimp only
  by_cases hs : validOutputStream stream = true
  · by_cases hm : isValidFlushMode options.flushMode = true
    · simp only [hs, hm, Bool.not_true, Bool.false_eq_true, if_false]
      by_cases hd : output.depth kind stream = sizeMax
      · simpa only [hd, if_true] using .refused _ rfl
      · by_cases h0 : output.depth kind stream = 0
        · rw [if_neg hd, if_pos h0]
          cases ha : answers.accepts kind.feature with
          | true =>
            rw [writeControlSequenceUnlocked_emitted hm ha]
            simpa [h0] using Scoped.outer _ hs hm h0 ha
          | false =>
            obtain ⟨status, hf, he⟩ := writeControlSequenceUnlocked_refused stream
              kind.enterSequence kind.unsupportedMessage output hm ha
            rw [he]
            exact .refused status hf
        · rw [if_neg hd, if_neg h0]
          exact .inner hs hm (by omega) hd
    · simpa [hs, hm] using Scoped.refused _ rfl
  · simpa [hs] using Scoped.refused _ rfl

/-- A scope the destructor gives up after its sequence has been written has no level left. -/
def Settled (kind : ScopeKind) (scope : OutputScope) (answers : ControlAnswers)
    (output : Output) : Prop :=
  scope.active_ = true → scope.restorationEmitted_ = true →
    answers.flush.ok = true ∨ output.depth kind scope.stream_ = 0

instance : Decidable (Settled kind scope answers output) :=
  inferInstanceAs (Decidable (_ → _ → _ ∨ _))

theorem depth_abandon_self : (abandonScope kind stream output).depth kind stream =
    output.depth kind stream - 1 := by
  unfold abandonScope
  split_ifs with h
  · exact Output.depth_setDepth_self
  · omega

theorem depth_abandon_stream {stream' : Stream} (hs : validOutputStream stream = true)
    (hs' : validOutputStream stream' = true) (h : stream' ≠ stream) :
    (abandonScope kind stream output).depth kind' stream' = output.depth kind' stream' := by
  unfold abandonScope
  split_ifs
  · exact Output.depth_setDepth_stream hs hs' h
  · rfl

theorem depth_abandon_kind {stream' : Stream} (h : kind' ≠ kind) :
    (abandonScope kind stream output).depth kind' stream' = output.depth kind' stream' := by
  unfold abandonScope
  split_ifs
  · exact Output.depth_setDepth_kind h
  · rfl

theorem depth_abandon_le {stream' : Stream} (h : ∀ kind stream, output.depth kind stream ≤ sizeMax) :
    (abandonScope kind stream output).depth kind' stream' ≤ sizeMax := by
  unfold abandonScope
  split_ifs
  · exact Output.depth_setDepth_le h (Nat.le_trans (Nat.sub_le _ _) (h _ _))
  · exact h _ _

@[simp] theorem restorations_abandon {stream' : Stream} :
    (abandonScope kind stream output).restorations kind' stream' =
      output.restorations kind' stream' := by
  unfold abandonScope
  split_ifs <;> simp

theorem destroy_eq (hw : scope.WellFormed) : scope.destroy kind answers output =
    if (scope.release kind answers output).1.active_ = true then
      abandonScope kind scope.stream_ (scope.release kind answers output).2
    else (scope.release kind answers output).2 := by
  have hr := (release_released kind answers output hw).stream_eq
  unfold destroy
  rw [if_pos hw.restoreOnDestruction]
  dsimp only
  rw [hr]

/-- The destructor takes the debt of its scope off the depth. -/
theorem depth_destroy (hw : scope.WellFormed) (hs : validOutputStream stream = true)
    (hd : ∀ stream, scope.owes stream = true → 0 < output.depth kind stream)
    (hg : Settled kind scope answers output) :
    (scope.destroy kind answers output).depth kind stream + (if scope.owes stream then 1 else 0) =
      output.depth kind stream := by
  have h := release_released kind answers output hw
  have hdepth := h.depth_eq hw hs (hd stream)
  rw [destroy_eq hw]
  by_cases ha : (scope.release kind answers output).1.active_ = true
  · rw [if_pos ha]
    have hactive := h.active_of ha
    have hvalid := hw.stream hactive
    obtain ⟨hsame, hout, hflush⟩ | ⟨hpre, hemitted, hzero⟩ := h.active_cases ha
    · rw [hout]
      by_cases he : stream = scope.stream_
      · subst he
        rw [depth_abandon_self]
        cases hr : scope.restorationEmitted_ with
        | true =>
          have hz := (hg hactive hr).resolve_left (by simp [hflush hr])
          simp [owes, hr, hz]
        | false =>
          have hpos := hd scope.stream_ (owes_iff.2 ⟨hactive, hr, rfl⟩)
          simp [owes, hactive, hr]
          omega
      · rw [depth_abandon_stream hvalid hs he]
        simp [owes, Ne.symm he]
    · have hnot : (scope.release kind answers output).1.owes stream = false := by
        simp [owes, hemitted]
      rw [hnot] at hdepth
      by_cases he : stream = scope.stream_
      · subst he
        rw [depth_abandon_self, hzero]
        rw [hzero] at hdepth
        simpa using hdepth
      · rw [depth_abandon_stream hvalid hs he]
        simpa using hdepth
  · rw [if_neg ha]
    have hnot : (scope.release kind answers output).1.owes stream = false := by
      simp [owes, ha]
    simpa [hnot] using hdepth

/-- Otherwise it gives up a level that is not its own. -/
theorem depth_destroy_unsettled (hw : scope.WellFormed) (hg : ¬ Settled kind scope answers output) :
    scope.active_ = true ∧ scope.owes scope.stream_ = false ∧
      (scope.destroy kind answers output).depth kind scope.stream_ + 1 =
        output.depth kind scope.stream_ := by
  simp only [Settled, Classical.not_imp, not_or] at hg
  obtain ⟨hactive, hemitted, hflush, hdepth⟩ := hg
  refine ⟨hactive, by simp [owes, hemitted], ?_⟩
  have hf : flush scope.stream_ scope.options_.flushMode answers = answers.flush := by
    simp [flush, hw.stream hactive, hw.flushMode hactive]
  have hr : scope.release kind answers output = ({ scope with status_ := answers.flush }, output) := by
    simp [release, hactive, hemitted, hf, hflush]
  rw [destroy_eq hw, hr, if_pos hactive, depth_abandon_self]
  exact Nat.sub_add_cancel (Nat.pos_of_ne_zero hdepth)

theorem depth_destroy_kind (hw : scope.WellFormed) (hk : kind' ≠ kind) :
    (scope.destroy kind answers output).depth kind' stream = output.depth kind' stream := by
  have h := release_released kind answers output hw
  rw [destroy_eq hw]
  split_ifs
  · rw [depth_abandon_kind hk, h.depth_kind hk]
  · exact h.depth_kind hk

theorem depth_destroy_le (hw : scope.WellFormed)
    (hd : ∀ kind stream, output.depth kind stream ≤ sizeMax) :
    (scope.destroy kind answers output).depth kind' stream ≤ sizeMax := by
  have h := release_released kind answers output hw
  rw [destroy_eq hw]
  split_ifs
  · exact depth_abandon_le fun _ _ => h.depth_le hd
  · exact h.depth_le hd

theorem restorations_destroy (hw : scope.WellFormed) :
    (scope.destroy kind answers output).restorations kind' stream =
      (scope.release kind answers output).2.restorations kind' stream := by
  rw [destroy_eq hw]
  split_ifs
  · exact restorations_abandon
  · rfl

/-- Move assignment releases its destination and takes the source only if that let go. -/
theorem moveAssign_eq : scope.moveAssign kind other answers output =
    if (scope.release kind answers output).1.active_ = true then
      ((scope.release kind answers output).1, other, (scope.release kind answers output).2)
    else (other, other.movedFrom, (scope.release kind answers output).2) := by
  unfold moveAssign
  cases ha : scope.active_ with
  | true => rfl
  | false =>
    have hr : scope.release kind answers output = (scope, output) := by simp [release, ha]
    simp [hr, ha]

end OutputScope

/-! ## Runs -/

namespace ScopeSystem

variable {s t : ScopeSystem} {kind kind' : ScopeKind} {stream : Stream} {action : ScopeAction}
  {slots : Slots OutputScope} {output : Output}

@[simp] theorem scopes_setScopes_self : (s.setScopes kind slots).scopes kind = slots := by
  simp [setScopes]

theorem scopes_setScopes_ne (h : kind' ≠ kind) :
    (s.setScopes kind slots).scopes kind' = s.scopes kind' := by
  simp [setScopes, h]

@[simp] theorem output_setScopes : (s.setScopes kind slots).output = s.output := rfl

@[simp] theorem scopes_setOutput : (s.setOutput output).scopes = s.scopes := rfl

@[simp] theorem output_setOutput : (s.setOutput output).output = output := rfl

/-- The number of scopes that owe a stream the restoring sequence of their kind. -/
def owing (system : ScopeSystem) (kind : ScopeKind) (stream : Stream) : Nat :=
  Slots.tally (OutputScope.owes stream) (system.scopes kind)

theorem owing_congr (h : t.scopes kind = s.scopes kind) :
    t.owing kind stream = s.owing kind stream := by
  rw [owing, owing, h]

/-- The depth of every stream is the number of scopes that owe it. -/
def Balanced (system : ScopeSystem) : Prop :=
  ∀ kind stream, validOutputStream stream = true →
    system.output.depth kind stream = system.owing kind stream

/-- What holds in every run: the scope objects are well formed and the depths fit their type. -/
structure WellFormed (system : ScopeSystem) : Prop where
  scope : ∀ kind i scope, Slots.get? (system.scopes kind) i = some scope → scope.WellFormed
  depth_le : ∀ kind stream, system.output.depth kind stream ≤ sizeMax

theorem wellFormed_update (output : Output) (hw : s.WellFormed)
    (hscope : ∀ i scope, Slots.get? slots i = some scope → scope.WellFormed)
    (hdepth : ∀ kind stream, output.depth kind stream ≤ sizeMax) :
    ((s.setOutput output).setScopes kind slots).WellFormed := by
  refine ⟨fun kind' i scope h => ?_, hdepth⟩
  by_cases hk : kind' = kind
  · subst hk
    exact hscope i scope (by simpa using h)
  · rw [scopes_setScopes_ne hk] at h
    exact hw.scope kind' i scope h

end ScopeSystem

namespace ScopeAction

/-- A destructor does not give up a level of another scope. -/
def Guard (system : ScopeSystem) : ScopeAction → Prop
  | .destroy kind i answers => ∀ scope, Slots.get? (system.scopes kind) i = some scope →
      scope.Settled kind answers system.output
  | _ => True

instance (system : ScopeSystem) (action : ScopeAction) : Decidable (action.Guard system) :=
  match action with
  | .destroy kind i answers =>
    match h : Slots.get? (system.scopes kind) i with
    | none => .isTrue fun scope hs => by cases h.symm.trans hs
    | some scope => decidable_of_iff (scope.Settled kind answers system.output)
        ⟨fun hg scope' hs => Option.some.inj (h.symm.trans hs) ▸ hg, fun hg => hg scope h⟩
  | .construct _ | .acquire .. | .release .. | .moveConstruct .. | .moveAssign .. => .isTrue trivial

/-- The platform takes the restoring sequence, in the operations that may write it. -/
def accepts (kind : ScopeKind) : ScopeAction → Bool
  | .release _ _ answers | .moveAssign _ _ _ answers | .destroy _ _ answers =>
    answers.accepts kind.feature
  | _ => false

def isDestroy : ScopeAction → Bool
  | .destroy .. => true
  | _ => false

/-- The operation is on the object. -/
def names (kind : ScopeKind) (i : Nat) : ScopeAction → Prop
  | .release kind' j _ | .moveConstruct kind' j | .destroy kind' j _ => kind' = kind ∧ j = i
  | .moveAssign kind' j j' _ => kind' = kind ∧ (j = i ∨ j' = i)
  | _ => False

end ScopeAction

namespace ScopeSystem

variable {s t : ScopeSystem} {kind kind' : ScopeKind} {stream : Stream} {action : ScopeAction}
  {output : Output} {slots : Slots OutputScope}

theorem step_wellFormed (hw : s.WellFormed) (h : s.step action = some t) : t.WellFormed := by
  cases action with
  | construct kind =>
    cases h
    refine wellFormed_update s.output hw (fun i scope hi => ?_) hw.depth_le
    obtain hi | hi := Slots.get?_append_cases hi
    · cases hi
      exact OutputScope.wellFormed_of_inactive rfl rfl
    · exact hw.scope _ _ _ hi
  | acquire kind stream options answers =>
    have hs := OutputScope.scopedOutputState_scoped kind stream options answers s.output
    rcases hr : scopedOutputState kind stream options answers s.output with ⟨scope', output'⟩
    simp only [step, hr, Option.some.injEq] at h hs
    subst h
    refine wellFormed_update _ hw (fun i scope hi => ?_) fun kind' stream' => ?_
    · obtain hi | hi := Slots.get?_append_cases hi
      · cases hi
        cases hs with
        | refused => exact OutputScope.wellFormed_of_inactive rfl rfl
        | outer status valid mode => exact ⟨fun _ => valid, fun _ => mode, rfl⟩
        | inner valid mode => exact ⟨fun _ => valid, fun _ => mode, rfl⟩
      · exact hw.scope _ _ _ hi
    · cases hs with
      | refused => exact hw.depth_le _ _
      | outer => exact Output.depth_setDepth_le (by simpa using hw.depth_le) (by decide)
      | inner valid mode depth limit =>
        have := hw.depth_le kind stream
        exact Output.depth_setDepth_le hw.depth_le (by omega)
  | release kind i answers =>
    obtain ⟨scope, hi, rfl⟩ := Option.map_eq_some_iff.1 h
    have hr := OutputScope.release_released kind answers s.output (hw.scope _ _ _ hi)
    refine wellFormed_update _ hw (fun j scope' hj => ?_) fun _ _ => hr.depth_le hw.depth_le
    obtain hj | hj := Slots.get?_set_cases hj
    · cases hj
      exact hr.wellFormed (hw.scope _ _ _ hi)
    · exact hw.scope _ _ _ hj
  | moveConstruct kind j =>
    obtain ⟨other, hj, rfl⟩ := Option.map_eq_some_iff.1 h
    refine wellFormed_update s.output hw (fun i scope hi => ?_) hw.depth_le
    obtain hi | hi := Slots.get?_append_cases hi
    · cases hi
      exact hw.scope _ _ _ hj
    · obtain hi | hi := Slots.get?_set_cases hi
      · cases hi
        exact OutputScope.wellFormed_of_inactive rfl rfl
      · exact hw.scope _ _ _ hi
  | moveAssign kind i j answers =>
    obtain ⟨scope, hi, h⟩ := Option.bind_eq_some_iff.1 h
    obtain ⟨other, hj, rfl⟩ := Option.map_eq_some_iff.1 h
    have hr := OutputScope.release_released kind answers s.output (hw.scope _ _ _ hi)
    dsimp only
    split_ifs with hij
    · exact hw
    · rw [OutputScope.moveAssign_eq]
      split_ifs with ha
      · refine wellFormed_update _ hw (fun l scope' hl => ?_) fun _ _ => hr.depth_le hw.depth_le
        obtain hl | hl := Slots.get?_set_cases hl
        · cases hl
          exact hw.scope _ _ _ hj
        · obtain hl | hl := Slots.get?_set_cases hl
          · cases hl
            exact hr.wellFormed (hw.scope _ _ _ hi)
          · exact hw.scope _ _ _ hl
      · refine wellFormed_update _ hw (fun l scope' hl => ?_) fun _ _ => hr.depth_le hw.depth_le
        obtain hl | hl := Slots.get?_set_cases hl
        · cases hl
          exact OutputScope.wellFormed_of_inactive rfl rfl
        · obtain hl | hl := Slots.get?_set_cases hl
          · cases hl
            exact hw.scope _ _ _ hj
          · exact hw.scope _ _ _ hl
  | destroy kind i answers =>
    obtain ⟨scope, hi, rfl⟩ := Option.map_eq_some_iff.1 h
    refine wellFormed_update _ hw (fun j scope' hj => ?_) fun _ _ =>
      OutputScope.depth_destroy_le (hw.scope _ _ _ hi) hw.depth_le
    obtain hj | hj := Slots.get?_set_cases hj
    · cases hj
    · exact hw.scope _ _ _ hj

/-- What an operation that releases `scope` does to the counts of its kind: the depth and the debt
lose the debt of the scope but for `rest`, what is left of it. -/
structure Releases (s t : ScopeSystem) (action : ScopeAction) (kind : ScopeKind)
    (scope : OutputScope) (rest : Stream → Nat) : Prop where
  depth : ∀ stream, validOutputStream stream = true →
    t.output.depth kind stream + (if scope.owes stream then 1 else 0) =
      s.output.depth kind stream + rest stream
  owing : ∀ stream, t.owing kind stream + (if scope.owes stream then 1 else 0) =
    s.owing kind stream + rest stream
  restorations : ∀ kind' stream, t.output.restorations kind' stream =
    s.output.restorations kind' stream +
      if kind' = kind ∧ scope.owes stream = true ∧ s.output.depth kind stream = 1 ∧
        action.accepts kind = true then 1 else 0
  last : ∀ stream, scope.owes stream = true → s.output.depth kind stream = 1 →
    (action.accepts kind = true → rest stream = 0) ∧
      (rest stream = 0 → action.accepts kind = true ∨ action.isDestroy = true)
  depth_kind : ∀ kind', kind' ≠ kind → ∀ stream,
    t.output.depth kind' stream = s.output.depth kind' stream
  scopes_kind : ∀ kind', kind' ≠ kind → t.scopes kind' = s.scopes kind'

namespace Releases

variable {scope : OutputScope} {rest : Stream → Nat}

theorem balanced (h : Releases s t action kind scope rest) (hb : s.Balanced) : t.Balanced := by
  intro kind' stream hs
  by_cases hk : kind' = kind
  · subst hk
    have hd := h.depth stream hs
    have ho := h.owing stream
    have := hb kind' stream hs
    omega
  · rw [h.depth_kind kind' hk, owing_congr (h.scopes_kind kind' hk)]
    exact hb kind' stream hs

/-- The restoring sequence is written when the debt of the stream ends with the platform's
consent, and the debt ends without it in a destructor only. -/
theorem restored (h : Releases s t action kind scope rest) (hb : s.Balanced)
    (hs : validOutputStream stream = true) :
    (t.output.restorations kind' stream = s.output.restorations kind' stream +
      if s.owing kind' stream = 1 ∧ t.owing kind' stream = 0 ∧ action.accepts kind' = true then 1
      else 0) ∧
    (s.owing kind' stream = 1 → t.owing kind' stream = 0 →
      action.accepts kind' = true ∨ action.isDestroy = true) := by
  by_cases hk : kind' = kind
  · subst hk
    have hd := hb kind' stream hs
    have ho := h.owing stream
    rw [h.restorations]
    cases hw : scope.owes stream with
    | true =>
      simp only [hw, if_true] at ho
      by_cases h1 : s.output.depth kind' stream = 1
      · obtain ⟨hlast, hgone⟩ := h.last stream hw h1
        have hs1 : s.owing kind' stream = 1 := by omega
        have hrest : t.owing kind' stream = rest stream := by omega
        refine ⟨?_, fun _ ht => hgone (by omega)⟩
        cases ha : action.accepts kind' with
        | true => simp [h1, hs1, hrest, hlast ha]
        | false => simp
      · have hs1 : s.owing kind' stream ≠ 1 := by omega
        simp [h1, hs1]
    | false =>
      have hsame : t.owing kind' stream = s.owing kind' stream + rest stream := by
        simpa [hw] using ho
      refine ⟨?_, by omega⟩
      rw [if_neg (by simp), if_neg (by omega)]
  · have hsame : t.owing kind' stream = s.owing kind' stream := owing_congr (h.scopes_kind kind' hk)
    rw [h.restorations, if_neg (by simp [hk]), if_neg (by omega)]
    exact ⟨rfl, by omega⟩

end Releases

theorem depth_pos {i : Nat} {scope : OutputScope} (hw : s.WellFormed) (hb : s.Balanced)
    (hi : Slots.get? (s.scopes kind) i = some scope) (ho : scope.owes stream = true) :
    0 < s.output.depth kind stream := by
  obtain ⟨active, _, rfl⟩ := OutputScope.owes_iff.1 ho
  rw [hb kind _ ((hw.scope _ _ _ hi).stream active)]
  exact Slots.tally_pos hi ho

/-- An operation that ends in a release of one object of its table. -/
theorem releases_of_released {scope scope' : OutputScope} {answers : ControlAnswers}
    (hr : scope.Released kind answers s.output scope' output) (hw : scope.WellFormed)
    (hd : ∀ stream, scope.owes stream = true → 0 < s.output.depth kind stream)
    (ha : action.accepts kind = answers.accepts kind.feature)
    (ht : ∀ stream, Slots.tally (OutputScope.owes stream) slots + (if scope.owes stream then 1 else 0) =
      s.owing kind stream + (if scope'.owes stream then 1 else 0)) :
    Releases s ((s.setOutput output).setScopes kind slots) action kind scope
      (fun stream => if scope'.owes stream then 1 else 0) where
  depth stream hs := hr.depth_eq hw hs (hd stream)
  owing stream := by
    rw [ScopeSystem.owing, scopes_setScopes_self]
    exact ht stream
  restorations kind' stream := by
    rw [ha]
    exact hr.restorations_eq
  last stream ho h1 := by
    have hl := hr.owes_last ho h1
    rw [ha, ← hl]
    refine ⟨fun hr => by simp [hr], fun hr => .inl ?_⟩
    simpa using hr
  depth_kind kind' hk stream := hr.depth_kind hk
  scopes_kind kind' hk := scopes_setScopes_ne hk

theorem step_releases {i : Nat} {answers : ControlAnswers} (hw : s.WellFormed) (hb : s.Balanced)
    (h : s.step (.release kind i answers) = some t) :
    ∃ scope rest, Releases s t (.release kind i answers) kind scope rest := by
  obtain ⟨scope, hi, rfl⟩ := Option.map_eq_some_iff.1 h
  have hwf := hw.scope _ _ _ hi
  have hr := OutputScope.release_released kind answers s.output hwf
  refine ⟨scope, _, releases_of_released hr hwf (fun stream => depth_pos hw hb hi) ?_ ?_⟩
  · rfl
  · exact fun stream => Slots.tally_set hi

theorem step_moveAssigns {i j : Nat} {answers : ControlAnswers} (hw : s.WellFormed)
    (hb : s.Balanced) (h : s.step (.moveAssign kind i j answers) = some t) :
    t = s ∨ ∃ scope rest, Releases s t (.moveAssign kind i j answers) kind scope rest := by
  obtain ⟨scope, hi, h⟩ := Option.bind_eq_some_iff.1 h
  obtain ⟨other, hj, rfl⟩ := Option.map_eq_some_iff.1 h
  have hwf := hw.scope _ _ _ hi
  have hr := OutputScope.release_released kind answers s.output hwf
  dsimp only
  split_ifs with hij
  · exact .inl rfl
  · refine .inr ⟨scope, fun stream =>
      if (scope.release kind answers s.output).1.owes stream then 1 else 0, ?_⟩
    rw [OutputScope.moveAssign_eq]
    -- the destination keeps its own debt, or takes that of the source once it has none
    split_ifs with ha
    · refine releases_of_released hr hwf (fun stream => depth_pos hw hb hi) ?_ fun stream => ?_
      · rfl
      have h1 := Slots.tally_set (p := OutputScope.owes stream)
        (o := some (scope.release kind answers s.output).1) hi
      have h2 := Slots.tally_set (p := OutputScope.owes stream) (o := some other)
        ((Slots.get?_set_ne (o := some (scope.release kind answers s.output).1) hij).trans hj)
      simp only [Slots.weight_some] at h1 h2
      dsimp only [owing]
      omega
    · refine releases_of_released hr hwf (fun stream => depth_pos hw hb hi) ?_ fun stream => ?_
      · rfl
      have h1 := Slots.tally_set (p := OutputScope.owes stream) (o := some other) hi
      have h2 := Slots.tally_set (p := OutputScope.owes stream) (o := some other.movedFrom)
        ((Slots.get?_set_ne (o := some other) hij).trans hj)
      have h3 : (scope.release kind answers s.output).1.owes stream = false := by
        simp [OutputScope.owes, ha]
      simp only [Slots.weight_some, OutputScope.owes_movedFrom, Bool.false_eq_true, if_false]
        at h1 h2
      rw [owing, h3]
      simp only [Bool.false_eq_true, if_false]
      omega

theorem step_destroys {i : Nat} {answers : ControlAnswers} (hw : s.WellFormed) (hb : s.Balanced)
    (hg : ScopeAction.Guard s (.destroy kind i answers))
    (h : s.step (.destroy kind i answers) = some t) :
    ∃ scope rest, Releases s t (.destroy kind i answers) kind scope rest := by
  obtain ⟨scope, hi, rfl⟩ := Option.map_eq_some_iff.1 h
  have hwf := hw.scope _ _ _ hi
  have hr := OutputScope.release_released kind answers s.output hwf
  refine ⟨scope, fun _ => 0, ?_, ?_, ?_, ?_, ?_, ?_⟩
  · intro stream hs
    exact OutputScope.depth_destroy hwf hs (fun stream => depth_pos hw hb hi) (hg scope hi)
  · intro stream
    have := Slots.tally_set (p := OutputScope.owes stream) (o := none) hi
    simpa [owing] using this
  · intro kind' stream
    exact (OutputScope.restorations_destroy hwf).trans hr.restorations_eq
  · exact fun _ _ _ => ⟨fun _ => rfl, fun _ => .inr rfl⟩
  · exact fun kind' hk stream => OutputScope.depth_destroy_kind hwf hk
  · exact fun kind' hk => scopes_setScopes_ne hk

/-- An operation that builds an object writes no restoring sequence and settles no debt. -/
structure Builds (s t : ScopeSystem) : Prop where
  balanced : t.Balanced
  owing_le : ∀ kind stream, s.owing kind stream ≤ t.owing kind stream
  restorations : ∀ kind stream,
    t.output.restorations kind stream = s.output.restorations kind stream

theorem builds_of (output : Output) (hb : s.Balanced) (gain : Stream → Nat)
    (hdepth : ∀ stream, validOutputStream stream = true →
      output.depth kind stream = s.output.depth kind stream + gain stream)
    (hslots : ∀ stream, Slots.tally (OutputScope.owes stream) slots =
      s.owing kind stream + gain stream)
    (hkind : ∀ kind', kind' ≠ kind → ∀ stream,
      output.depth kind' stream = s.output.depth kind' stream)
    (hrest : ∀ kind' stream, output.restorations kind' stream =
      s.output.restorations kind' stream) :
    Builds s ((s.setOutput output).setScopes kind slots) := by
  have howing : ∀ stream, ((s.setOutput output).setScopes kind slots).owing kind stream =
      s.owing kind stream + gain stream := by
    intro stream
    rw [owing, scopes_setScopes_self]
    exact hslots stream
  refine ⟨fun kind' stream hs => ?_, fun kind' stream => ?_, hrest⟩
  · by_cases hk : kind' = kind
    · subst hk
      rw [howing, ← hb kind' stream hs]
      exact hdepth stream hs
    · rw [owing_congr (scopes_setScopes_ne hk)]
      exact (hkind kind' hk stream).trans (hb kind' stream hs)
  · by_cases hk : kind' = kind
    · subst hk
      rw [howing]
      exact Nat.le_add_right _ _
    · exact Nat.le_of_eq (owing_congr (scopes_setScopes_ne hk)).symm

theorem step_constructs (hb : s.Balanced) (h : s.step (.construct kind) = some t) :
    Builds s t := by
  cases h
  refine builds_of s.output hb (fun _ => 0) (fun _ _ => rfl) (fun stream => ?_)
    (fun _ _ _ => rfl) fun _ _ => rfl
  rw [Slots.tally_append]
  rfl

theorem step_acquires {options : ControlOptions} {answers : ControlAnswers} (hb : s.Balanced)
    (h : s.step (.acquire kind stream options answers) = some t) : Builds s t := by
  have hs := OutputScope.scopedOutputState_scoped kind stream options answers s.output
  rcases hr : scopedOutputState kind stream options answers s.output with ⟨scope', output'⟩
  simp only [step, hr, Option.some.injEq] at h hs
  subst h
  refine builds_of _ hb (fun stream' => if scope'.owes stream' then 1 else 0) (fun stream' hv => ?_)
    (fun stream' => Slots.tally_append) (fun kind' hk stream' => ?_) fun kind' stream' => ?_
  · by_cases he : stream' = stream
    · subst he
      cases hs with
      | refused => rfl
      | outer status valid mode depth => simp [OutputScope.owes, depth]
      | inner => simp [OutputScope.owes]
    · cases hs with
      | refused => rfl
      | outer status valid =>
        simp [OutputScope.owes, Ne.symm he, Output.depth_setDepth_stream valid hv he]
      | inner valid =>
        simp [OutputScope.owes, Ne.symm he, Output.depth_setDepth_stream valid hv he]
  · cases hs with
    | refused => rfl
    | outer => exact Output.depth_setDepth_kind hk
    | inner => exact Output.depth_setDepth_kind hk
  · cases hs with
    | refused => rfl
    | outer => simp [Output.restorations, enterSequence_ne]
    | inner => exact Output.restorations_setDepth

theorem step_moveConstructs {j : Nat} (hb : s.Balanced)
    (h : s.step (.moveConstruct kind j) = some t) : Builds s t := by
  obtain ⟨other, hj, rfl⟩ := Option.map_eq_some_iff.1 h
  refine builds_of s.output hb (fun _ => 0) (fun _ _ => rfl) (fun stream => ?_)
    (fun _ _ _ => rfl) fun _ _ => rfl
  have := Slots.tally_set (p := OutputScope.owes stream) (o := some other.movedFrom) hj
  rw [Slots.tally_append]
  simpa [owing] using this

theorem get?_setScopes {i : Nat} {scope : OutputScope}
    (hi : Slots.get? (s.scopes kind) i = some scope)
    (h : kind = kind' → Slots.get? slots i = some scope) :
    Slots.get? ((s.setScopes kind' slots).scopes kind) i = some scope := by
  by_cases hk : kind = kind'
  · subst hk
    rw [scopes_setScopes_self]
    exact h rfl
  · rw [scopes_setScopes_ne hk]
    exact hi

/-- An object the operation does not name stays as it is. -/
theorem step_kept {i : Nat} {scope : OutputScope} (h : s.step action = some t)
    (hn : ¬ action.names kind i) (hi : Slots.get? (s.scopes kind) i = some scope) :
    Slots.get? (t.scopes kind) i = some scope := by
  have hlt := Slots.lt_length hi
  cases action with
  | construct kind' =>
    cases h
    refine get?_setScopes hi fun hk => ?_
    subst hk
    rw [Slots.get?_append hlt, hi]
  | acquire kind' stream options answers =>
    cases h
    refine get?_setScopes hi fun hk => ?_
    subst hk
    rw [Slots.get?_append hlt, hi]
  | release kind' j answers =>
    obtain ⟨other, hj, rfl⟩ := Option.map_eq_some_iff.1 h
    refine get?_setScopes hi fun hk => ?_
    subst hk
    rw [Slots.get?_set_ne fun he => hn ⟨rfl, he⟩, hi]
  | moveConstruct kind' j =>
    obtain ⟨other, hj, rfl⟩ := Option.map_eq_some_iff.1 h
    refine get?_setScopes hi fun hk => ?_
    subst hk
    rw [Slots.get?_append (by simpa using hlt), Slots.get?_set_ne fun he => hn ⟨rfl, he⟩, hi]
  | moveAssign kind' j j' answers =>
    obtain ⟨other, hj, h⟩ := Option.bind_eq_some_iff.1 h
    obtain ⟨other', hj', rfl⟩ := Option.map_eq_some_iff.1 h
    dsimp only
    split_ifs
    · exact hi
    · refine get?_setScopes hi fun hk => ?_
      subst hk
      rw [Slots.get?_set_ne fun he => hn ⟨rfl, .inr he⟩,
        Slots.get?_set_ne fun he => hn ⟨rfl, .inl he⟩, hi]
  | destroy kind' j answers =>
    obtain ⟨other, hj, rfl⟩ := Option.map_eq_some_iff.1 h
    refine get?_setScopes hi fun hk => ?_
    subst hk
    rw [Slots.get?_set_ne fun he => hn ⟨rfl, he⟩, hi]

end ScopeSystem

/-- What the two classes promise of a step: afterwards the depth of every stream is the number of
scopes that owe it; the restoring sequence is written exactly when the last debt is released with
the platform taking the sequence, and only a destructor ends the last debt without it; and a live
scope no other than the operation's own is changed. -/
structure ScopesKept (x : Transition ScopeSystem ScopeAction) : Prop where
  balanced : x.post.Balanced
  restored : ∀ kind stream, validOutputStream stream = true →
    x.post.output.restorations kind stream = x.pre.output.restorations kind stream +
      if x.pre.owing kind stream = 1 ∧ x.post.owing kind stream = 0 ∧ x.action.accepts kind = true
      then 1 else 0
  released : ∀ kind stream, validOutputStream stream = true → x.pre.owing kind stream = 1 →
    x.post.owing kind stream = 0 → x.action.accepts kind = true ∨ x.action.isDestroy = true
  kept : ∀ kind i scope, ¬ x.action.names kind i →
    Slots.get? (x.pre.scopes kind) i = some scope → Slots.get? (x.post.scopes kind) i = some scope

namespace ScopesKept

variable {s t : ScopeSystem} {kind : ScopeKind} {action : ScopeAction}

theorem of_builds (h : s.step action = some t) (hB : s.Builds t) :
    ScopesKept ⟨s, action, t⟩ where
  balanced := hB.balanced
  restored kind stream _ := by
    have := hB.owing_le kind stream
    dsimp only
    rw [if_neg (by omega)]
    exact hB.restorations kind stream
  released kind stream _ h1 h0 := by
    have := hB.owing_le kind stream
    dsimp only at h1 h0
    omega
  kept _ _ _ hn hi := ScopeSystem.step_kept h hn hi

theorem of_releases {scope : OutputScope} {rest : Stream → Nat} (hb : s.Balanced)
    (h : s.step action = some t) (hR : s.Releases t action kind scope rest) :
    ScopesKept ⟨s, action, t⟩ where
  balanced := hR.balanced hb
  restored _ _ hs := (hR.restored hb hs).1
  released _ _ hs := (hR.restored hb hs).2
  kept _ _ _ hn hi := ScopeSystem.step_kept h hn hi

end ScopesKept

/-- Every operation within the guard keeps the promise. -/
theorem scopesKept_step {s t : ScopeSystem} {action : ScopeAction} (hw : s.WellFormed)
    (hb : s.Balanced) (hg : action.Guard s) (h : s.step action = some t) :
    ScopesKept ⟨s, action, t⟩ := by
  cases action with
  | construct kind => exact .of_builds h (ScopeSystem.step_constructs hb h)
  | acquire kind stream options answers =>
    exact .of_builds h (ScopeSystem.step_acquires hb h)
  | release kind i answers =>
    obtain ⟨scope, rest, hR⟩ := ScopeSystem.step_releases hw hb h
    exact .of_releases hb h hR
  | moveConstruct kind j => exact .of_builds h (ScopeSystem.step_moveConstructs hb h)
  | moveAssign kind i j answers =>
    obtain rfl | ⟨scope, rest, hR⟩ := ScopeSystem.step_moveAssigns hw hb h
    · exact .of_builds h ⟨hb, fun _ _ => Nat.le_refl _, fun _ _ => rfl⟩
    · exact .of_releases hb h hR
  | destroy kind i answers =>
    obtain ⟨scope, rest, hR⟩ := ScopeSystem.step_destroys hw hb hg h
    exact .of_releases hb h hR

/-- A destruction outside the guard loses a level. -/
theorem guard_of_balanced {s t : ScopeSystem} {action : ScopeAction} (hw : s.WellFormed)
    (hb : s.Balanced) (h : s.step action = some t) (hb' : t.Balanced) : action.Guard s := by
  cases action with
  | destroy kind i answers =>
    obtain ⟨scope, hi, rfl⟩ := Option.map_eq_some_iff.1 h
    intro scope' hi'
    obtain rfl := Option.some.inj (hi.symm.trans hi')
    by_contra hg
    obtain ⟨hactive, howes, hdepth⟩ :=
      OutputScope.depth_destroy_unsettled (hw.scope _ _ _ hi) hg
    have hs := (hw.scope _ _ _ hi).stream hactive
    have h1 := hb kind _ hs
    have h2 := hb' kind _ hs
    have h3 := Slots.tally_set (p := OutputScope.owes scope.stream_) (o := none) hi
    simp only [Slots.weight_some, howes, Slots.weight_none, Bool.false_eq_true, if_false] at h3
    simp only [ScopeSystem.owing, ScopeSystem.scopes_setScopes_self,
      ScopeSystem.output_setScopes, ScopeSystem.output_setOutput] at h1 h2
    omega
  | _ => trivial

/-- A platform that supports the cursor sequences and answers the flush with `flush`. -/
def cursorAnswers (flush : Status) : ControlAnswers where
  getOutputCapabilities := { capabilities := { supportsCursorVisibility := true } }
  flush := flush

/-- Two nested hides, released in turn, the outer one by its destructor. -/
def nestedHides : List ScopeAction :=
  [.acquire .cursorHidden .stdout { flushMode := .data } (cursorAnswers {}),
    .acquire .cursorHidden .stdout { flushMode := .data } (cursorAnswers {}),
    .release .cursorHidden 1 (cursorAnswers {}),
    .destroy .cursorHidden 0 (cursorAnswers {})]

/-- A hide whose restoration is written but not flushed, a second hide, and the destructor of the
first with its flush failing again. -/
def unflushedHide : List ScopeAction :=
  [.acquire .cursorHidden .stdout { flushMode := .data } (cursorAnswers {}),
    .release .cursorHidden 0 (cursorAnswers (Io.makeStatus .flushFailed)),
    .acquire .cursorHidden .stdout { flushMode := .data } (cursorAnswers {}),
    .destroy .cursorHidden 0 (cursorAnswers (Io.makeStatus .flushFailed)),
    .release .cursorHidden 1 (cursorAnswers {})]

end Terminal

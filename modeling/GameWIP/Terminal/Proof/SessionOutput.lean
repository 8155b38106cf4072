import Mathlib.Data.List.Nodup
import Mathlib.Data.List.Perm.Subperm
import GameWIP.Terminal.Proof.OutputScope
import GameWIP.Terminal.SessionOutput

/-!
# What a successful output transition of a session means

On a stream without other scopes the persistent scope of a kind tells what was written last
(`Tracked`): the entering sequence exactly while the scope owes the restoring one. The restore
order lists the active scopes (`SessionOutput.Listed`). Both hold after every call of every run.

A call that opens a scope answers success as soon as the scope is active, and a scope whose
restoring sequence has been written, but not flushed, still is: `outputKept_iff` says that this is
the one way in which a success lies.
-/

namespace Terminal

open Io (Status FlushMode isValidFlushMode)
open Lib (Transition Trace)

/-! ## The last sequence of a kind -/

def ScopeKind.moves (kind : ScopeKind) (sequence : String) : Bool :=
  sequence == kind.enterSequence || sequence == kind.restoreSequence

/-- The last sequence of a kind written to a stream. -/
def Output.lastSequence (output : Output) (kind : ScopeKind) (stream : Stream) : Option String :=
  (output.written.find? fun w => w.1 == stream && kind.moves w.2).map Prod.snd

namespace Output

variable {output : Output} {kind kind' : ScopeKind} {stream stream' : Stream} {n : Nat}

@[simp] theorem lastSequence_setDepth :
    (output.setDepth kind stream n).lastSequence kind' stream' =
      output.lastSequence kind' stream' := by
  simp [lastSequence]

theorem lastSequence_write {sequence : String} :
    ({ output with written := (stream', sequence) :: output.written } : Output).lastSequence kind
      stream = if stream' = stream ∧ kind.moves sequence = true then some sequence
        else output.lastSequence kind stream := by
  unfold lastSequence
  by_cases hs : stream' = stream
  · cases h : kind.moves sequence <;> simp [hs, h]
  · simp [hs]

end Output

theorem moves_enter {kind kind' : ScopeKind} :
    kind'.moves kind.enterSequence = decide (kind' = kind) := by
  cases kind <;> cases kind' <;> decide

theorem moves_restore {kind kind' : ScopeKind} :
    kind'.moves kind.restoreSequence = decide (kind' = kind) := by
  cases kind <;> cases kind' <;> decide

/-! ## One scope and its stream -/

/-- The only scope of its kind on the stream: the depth is its debt, and the last sequence is the
entering one exactly while the debt stands. -/
structure Tracked (kind : ScopeKind) (stream : Stream) (scope : OutputScope) (output : Output) :
    Prop where
  wellFormed : scope.WellFormed
  stream_eq : scope.active_ = true → scope.stream_ = stream
  depth : output.depth kind stream = if scope.owes stream then 1 else 0
  last : output.lastSequence kind stream = some kind.enterSequence ↔ scope.owes stream = true

namespace Tracked

variable {kind kind' : ScopeKind} {stream : Stream} {scope scope' : OutputScope}
  {answers : ControlAnswers} {output output' : Output} {options : ControlOptions}

theorem depth_pos (h : Tracked kind stream scope output) (stream' : Stream)
    (ho : scope.owes stream' = true) : 0 < output.depth kind stream' := by
  obtain ⟨active, _, rfl⟩ := OutputScope.owes_iff.1 ho
  obtain rfl := h.stream_eq active
  rw [h.depth, ho]
  decide

/-- The options a caller hands to an active scope. -/
theorem setOptions (h : Tracked kind stream scope output)
    (hm : isValidFlushMode options.flushMode = true) :
    Tracked kind stream { scope with options_ := options } output :=
  ⟨⟨h.wellFormed.stream, fun _ => hm, h.wellFormed.restoreOnDestruction⟩, h.stream_eq, h.depth,
    h.last⟩

theorem released (h : Tracked kind stream scope output) (hs : validOutputStream stream = true)
    (hr : scope.Released kind answers output scope' output') :
    Tracked kind stream scope' output' := by
  refine ⟨hr.wellFormed h.wellFormed, fun ha => ?_, ?_, ?_⟩
  · rw [hr.stream_eq]
    exact h.stream_eq (hr.active_of ha)
  · have hd := hr.depth_eq h.wellFormed hs (h.depth_pos stream)
    have := h.depth
    omega
  · cases hr with
    | unchanged => exact h.last
    | flushed status active emitted =>
      rw [h.last]
      simp [OutputScope.owes, emitted]
    | levelless status active owed depth =>
      have ho : scope.owes scope.stream_ = true := OutputScope.owes_iff.2 ⟨active, owed, rfl⟩
      have := h.depth_pos _ ho
      omega
    | nested status active owed depth =>
      obtain rfl := h.stream_eq active
      have := h.depth
      split at this <;> omega
    | restored status waiting active =>
      obtain rfl := h.stream_eq active
      rw [Output.lastSequence_setDepth, Output.lastSequence_write, moves_restore]
      simp [OutputScope.owes, (enterSequence_ne kind kind).symm]

theorem congr (h : Tracked kind stream scope output)
    (hd : output'.depth kind stream = output.depth kind stream)
    (hl : output'.lastSequence kind stream = output.lastSequence kind stream) :
    Tracked kind stream scope output' :=
  ⟨h.wellFormed, h.stream_eq, hd.trans h.depth, by rw [hl]; exact h.last⟩

/-- The release of a scope of the other kind is not noticed. -/
theorem released_kind {other other' : OutputScope} (h : Tracked kind' stream scope output)
    (hk : kind' ≠ kind) (hr : other.Released kind answers output other' output') :
    Tracked kind' stream scope output' := by
  refine h.congr (hr.depth_kind hk) ?_
  cases hr with
  | nested => exact Output.lastSequence_setDepth
  | restored =>
    rw [Output.lastSequence_setDepth, Output.lastSequence_write, moves_restore]
    simp [hk]
  | _ => rfl

/-- A scope opened on a stream without one writes the entering sequence. -/
theorem opened (h : Tracked kind stream scope output) (hi : scope.active_ = false)
    (hs : scope'.Scoped kind stream options answers output output')
    (ha : scope'.active_ = true) : Tracked kind stream scope' output' := by
  have hd : output.depth kind stream = 0 := by
    rw [h.depth]
    simp [OutputScope.owes, hi]
  cases hs with
  | refused => cases ha
  | outer status valid mode depth =>
    refine ⟨⟨fun _ => valid, fun _ => mode, rfl⟩, fun _ => rfl, ?_, ?_⟩
    · simp [OutputScope.owes]
    · rw [Output.lastSequence_setDepth, Output.lastSequence_write, moves_enter]
      simp [OutputScope.owes]
  | inner valid mode depth => omega

theorem opened_kind {other : OutputScope} (h : Tracked kind' stream scope output)
    (hk : kind' ≠ kind) (hs : other.Scoped kind stream options answers output output') :
    Tracked kind' stream scope output' := by
  cases hs with
  | refused => exact h
  | outer =>
    refine h.congr (Output.depth_setDepth_kind hk) ?_
    rw [Output.lastSequence_setDepth, Output.lastSequence_write, moves_enter]
    simp [hk]
  | inner => exact h.congr (Output.depth_setDepth_kind hk) Output.lastSequence_setDepth

/-- A manual restoring sequence, which a session writes without an active scope. -/
theorem manual (kind : ScopeKind) (options : ControlOptions) (answers : ControlAnswers)
    (h : Tracked kind' stream scope output)
    (hi : kind' = kind → scope.active_ = false) :
    Tracked kind' stream scope
      (control stream kind.restoreSequence kind.feature kind.unsupportedMessage options answers
        output).1 := by
  have hout := control_output stream kind.restoreSequence kind.feature kind.unsupportedMessage
    options answers output
  obtain hout | hout := hout
  · rw [hout]
    exact h
  · rw [hout]
    refine ⟨h.wellFormed, h.stream_eq, h.depth, ?_⟩
    rw [Output.lastSequence_write, moves_restore]
    by_cases hk : kind' = kind
    · subst hk
      simp [OutputScope.owes, hi rfl, (enterSequence_ne kind' kind').symm]
    · simpa [hk] using h.last

end Tracked

/-! ## The session -/

namespace SessionOutput

variable {session : SessionOutput} {kind kind' : ScopeKind} {scope : OutputScope}
  {output : Output} {options : ControlOptions} {answers : ControlAnswers}

@[simp] theorem scope_setScope_self : (session.setScope kind scope).scope kind = scope := by
  cases kind <;> rfl

theorem scope_setScope_ne (h : kind' ≠ kind) :
    (session.setScope kind scope).scope kind' = session.scope kind' := by
  cases kind <;> cases kind' <;> first | exact absurd rfl h | rfl

@[simp] theorem stream_setScope : (session.setScope kind scope).stream = session.stream := by
  cases kind <;> rfl

@[simp] theorem isOpen_setScope : (session.setScope kind scope).isOpen = session.isOpen := by
  cases kind <;> rfl

@[simp] theorem output_setScope : (session.setScope kind scope).output = session.output := by
  cases kind <;> rfl

@[simp] theorem outputRestoreOrder_setScope :
    (session.setScope kind scope).outputRestoreOrder = session.outputRestoreOrder := by
  cases kind <;> rfl

@[simp] theorem outputRestoreCount_setScope :
    (session.setScope kind scope).outputRestoreCount = session.outputRestoreCount := by
  cases kind <;> rfl

/-- Every persistent scope is tracked. -/
structure Tracks (session : SessionOutput) : Prop where
  valid : validOutputStream session.stream = true
  scope : ∀ kind, Tracked kind session.stream (session.scope kind) session.output

/-- The restore order lists the active scopes, once each, in its two entries. -/
structure Listed (session : SessionOutput) : Prop where
  length : session.outputRestoreOrder.length = 2
  count_le : session.outputRestoreCount ≤ 2
  nodup : (session.outputRestoreOrder.take session.outputRestoreCount).Nodup
  mem_iff : ∀ kind, kind ∈ session.outputRestoreOrder.take session.outputRestoreCount ↔
    (session.scope kind).active_ = true

theorem Tracks.update {scope' : OutputScope} {output' : Output} (h : session.Tracks)
    (hscope : Tracked kind session.stream scope' output')
    (hkind : ∀ kind', kind' ≠ kind → Tracked kind' session.stream (session.scope kind') output') :
    (({ session with output := output' } : SessionOutput).setScope kind scope').Tracks := by
  refine ⟨by simpa using h.valid, fun kind' => ?_⟩
  simp only [stream_setScope, output_setScope]
  by_cases hk : kind' = kind
  · subst hk
    rw [scope_setScope_self]
    exact hscope
  · rw [scope_setScope_ne hk]
    exact hkind kind' hk

/-- The restore order is no part of what is tracked. -/
theorem Tracks.reorder {order : List ScopeKind} {count : Nat} (h : session.Tracks) :
    Tracks { session with outputRestoreOrder := order, outputRestoreCount := count } :=
  ⟨h.valid, fun kind => by cases kind <;> exact h.scope _⟩

theorem Listed.setOutput (h : session.Listed) : Listed { session with output } :=
  ⟨h.length, h.count_le, h.nodup, fun kind => by cases kind <;> exact h.mem_iff _⟩

@[simp] theorem scope_pushRestore :
    (session.pushRestore kind).scope kind' = session.scope kind' := by
  cases kind' <;> rfl

@[simp] theorem scope_removeRestore :
    (session.removeRestore kind).scope kind' = session.scope kind' := by
  cases kind' <;> rfl

@[simp] theorem isOpen_pushRestore : (session.pushRestore kind).isOpen = session.isOpen := rfl

@[simp] theorem isOpen_removeRestore : (session.removeRestore kind).isOpen = session.isOpen := rfl

/-- An order of distinct kinds that misses one has room for it. -/
theorem Listed.count_lt (h : session.Listed) (hi : (session.scope kind).active_ = false) :
    session.outputRestoreCount < 2 := by
  have hn := h.nodup
  have hm : kind ∉ session.outputRestoreOrder.take session.outputRestoreCount := by
    rw [h.mem_iff]
    simp [hi]
  have hlen : (session.outputRestoreOrder.take session.outputRestoreCount).length =
      session.outputRestoreCount := by
    rw [List.length_take, h.length]
    exact Nat.min_eq_left h.count_le
  have hsub : (kind :: session.outputRestoreOrder.take session.outputRestoreCount).length ≤
      [ScopeKind.cursorHidden, .alternateScreen].length := by
    refine ((List.nodup_cons.2 ⟨hm, hn⟩).subperm fun k _ => ?_).length_le
    cases k <;> decide
  rw [List.length_cons, hlen] at hsub
  exact hsub

theorem Listed.push {scope' : OutputScope} (h : session.Listed)
    (hi : (session.scope kind).active_ = false) (ha : scope'.active_ = true) :
    ((session.setScope kind scope').pushRestore kind).Listed := by
  have hlt := h.count_lt hi
  have htake : ((session.setScope kind scope').pushRestore kind).outputRestoreOrder.take
      ((session.setScope kind scope').pushRestore kind).outputRestoreCount =
      session.outputRestoreOrder.take session.outputRestoreCount ++ [kind] := by
    simp only [pushRestore, outputRestoreOrder_setScope, outputRestoreCount_setScope]
    exact Lib.take_set_succ (by rw [h.length]; exact hlt)
  have hm : kind ∉ session.outputRestoreOrder.take session.outputRestoreCount := by
    rw [h.mem_iff]
    simp [hi]
  refine ⟨by simpa [pushRestore] using h.length, by simpa [pushRestore] using Nat.le_of_lt_succ hlt,
    ?_, fun kind' => ?_⟩
  · rw [htake]
    simpa using h.nodup.concat hm
  · rw [htake, List.mem_append, List.mem_singleton, h.mem_iff]
    rw [scope_pushRestore]
    by_cases hk : kind' = kind
    · subst hk
      simp [ha]
    · rw [scope_setScope_ne hk]
      simp [hk]

theorem Listed.remove {scope' : OutputScope} (h : session.Listed) (hi : scope'.active_ = false) :
    ((session.setScope kind scope').removeRestore kind).Listed := by
  have hlen : session.outputRestoreCount ≤ session.outputRestoreOrder.length := by
    rw [h.length]
    exact h.count_le
  have htake : ((session.setScope kind scope').removeRestore kind).outputRestoreOrder.take
      ((session.setScope kind scope').removeRestore kind).outputRestoreCount =
      (session.outputRestoreOrder.take session.outputRestoreCount).erase kind := by
    simp only [removeRestore, outputRestoreOrder_setScope, outputRestoreCount_setScope]
    exact Lib.take_compact hlen
  refine ⟨?_, ?_, ?_, fun kind' => ?_⟩
  · simp only [removeRestore, outputRestoreOrder_setScope, outputRestoreCount_setScope]
    rw [Lib.length_compact hlen]
    exact h.length
  · simp only [removeRestore, outputRestoreOrder_setScope, outputRestoreCount_setScope]
    rw [Lib.compact_snd hlen]
    exact Nat.le_trans (List.length_erase_le) (Nat.le_trans (List.length_take_le _ _) h.count_le)
  · rw [htake]
    exact h.nodup.erase kind
  · rw [htake, h.nodup.mem_erase_iff, h.mem_iff, scope_removeRestore]
    by_cases hk : kind' = kind
    · subst hk
      simp [hi]
    · rw [scope_setScope_ne hk]
      simp [hk]

theorem Listed.setScope {scope' : OutputScope} (h : session.Listed)
    (ha : scope'.active_ = (session.scope kind).active_) : (session.setScope kind scope').Listed := by
  refine ⟨by simpa using h.length, by simpa using h.count_le, by simpa using h.nodup, fun kind' => ?_⟩
  rw [outputRestoreOrder_setScope, outputRestoreCount_setScope, h.mem_iff]
  by_cases hk : kind' = kind
  · subst hk
    rw [scope_setScope_self, ha]
  · rw [scope_setScope_ne hk]

theorem Listed.take_eq {count : Nat} (h : session.Listed)
    (hc : session.outputRestoreCount = count + 1) :
    session.outputRestoreOrder.take (count + 1) = session.outputRestoreOrder.take count ++
      [session.outputRestoreOrder.getD count .cursorHidden] := by
  have hlt : count < session.outputRestoreOrder.length := by
    have := h.count_le
    rw [h.length]
    omega
  rw [List.take_succ_eq_append_getElem hlt, List.getD_eq_getElem?_getD,
    List.getElem?_eq_getElem hlt]
  rfl

/-- The last listed kind is active. -/
theorem Listed.active {count : Nat} (h : session.Listed)
    (hc : session.outputRestoreCount = count + 1) :
    (session.scope (session.outputRestoreOrder.getD count .cursorHidden)).active_ = true := by
  rw [← h.mem_iff, hc, h.take_eq hc]
  exact List.mem_append_right _ (List.mem_singleton.2 rfl)

/-- Dropping the last listed kind once its scope is inactive. -/
theorem Listed.pop {count : Nat} {scope' : OutputScope} (h : session.Listed)
    (hc : session.outputRestoreCount = count + 1)
    (hk : session.outputRestoreOrder.getD count .cursorHidden = kind)
    (hi : scope'.active_ = false) :
    Listed { session.setScope kind scope' with outputRestoreCount := count } := by
  have htake := h.take_eq hc
  have hnodup := h.nodup
  rw [hc, htake, hk] at hnodup
  have hmem : ∀ kind', kind' ∈ session.outputRestoreOrder.take count ++ [kind] ↔
      (session.scope kind').active_ = true := by
    intro kind'
    rw [← h.mem_iff, hc, htake, hk]
  have hcount : count ≤ 2 := by
    have := h.count_le
    omega
  have hscope : ∀ kind', ({ session.setScope kind scope' with
      outputRestoreCount := count } : SessionOutput).scope kind' =
      (session.setScope kind scope').scope kind' := by
    intro kind'
    cases kind' <;> rfl
  refine ⟨by simpa using h.length, hcount, ?_, fun kind' => ?_⟩
  · rw [outputRestoreOrder_setScope]
    exact (List.nodup_append.1 hnodup).1
  · rw [outputRestoreOrder_setScope, hscope]
    by_cases he : kind' = kind
    · subst he
      have hnot : kind' ∉ session.outputRestoreOrder.take count := fun hm =>
        (List.nodup_append.1 hnodup).2.2 _ hm _ (List.mem_singleton.2 rfl) rfl
      simp [hi, hnot]
    · rw [scope_setScope_ne he, ← hmem]
      simp [he]

/-- What holds after every call. -/
structure Kept (session : SessionOutput) : Prop where
  tracks : session.Tracks
  listed : session.Listed
  closed : session.isOpen = false → ∀ kind, (session.scope kind).active_ = false

/-- Opening a scope: nothing when it is active, nothing and a failure when the stream refuses, and
the scope's own obligation otherwise. -/
theorem enterPersistent_kept (kind : ScopeKind) (options : ControlOptions)
    (answers : ControlAnswers) (h : session.Kept) (ho : session.isOpen = true) :
    (session.enterPersistent kind options answers).1.Kept ∧
      ((session.scope kind).active_ = true →
        session.enterPersistent kind options answers = (session, Io.successStatus)) ∧
      ((session.scope kind).active_ = false →
        (session.enterPersistent kind options answers).2.ok = true →
        ((session.enterPersistent kind options answers).1.scope kind).owes session.stream = true) := by
  cases ha : (session.scope kind).active_ with
  | true =>
    have he : session.enterPersistent kind options answers = (session, Io.successStatus) := by
      simp [enterPersistent, ha]
    rw [he]
    exact ⟨h, fun _ => rfl, fun hf => by cases hf⟩
  | false =>
    have hs := OutputScope.scopedOutputState_scoped kind session.stream options answers
      session.output
    have ht := h.tracks.scope kind
    rcases hr : scopedOutputState kind session.stream options answers session.output with
      ⟨scope', output'⟩
    simp only [hr] at hs
    cases ha' : scope'.active_ with
    | false =>
      have he : session.enterPersistent kind options answers =
          ({ session with output := output' }, scope'.status_) := by
        simp [enterPersistent, ha, hr, ha']
      rw [he]
      cases hs with
      | refused status failed => exact ⟨h, nofun, fun _ hok => by simp [failed] at hok⟩
      | outer => cases ha'
      | inner => cases ha'
    | true =>
      have he : session.enterPersistent kind options answers =
          ((({ session with output := output' } : SessionOutput).setScope kind scope').pushRestore
            kind, scope'.status_) := by
        simp [enterPersistent, ha, hr, ha', OutputScope.moveAssign]
      rw [he]
      have hopened := ht.opened ha hs ha'
      refine ⟨⟨?_, ?_, ?_⟩, nofun, fun _ _ => ?_⟩
      · exact (h.tracks.update hopened fun kind' hk => (h.tracks.scope kind').opened_kind hk hs).reorder
      · exact Listed.push h.listed.setOutput ha ha'
      · intro hc
        have hc' : session.isOpen = false := by simpa using hc
        exact absurd hc' (by simp [ho])
      · rw [scope_pushRestore, scope_setScope_self]
        cases hs with
        | refused => cases ha'
        | outer => simp [OutputScope.owes]
        | inner => simp [OutputScope.owes]

theorem stream_enterPersistent :
    (session.enterPersistent kind options answers).1.stream = session.stream := by
  unfold enterPersistent
  dsimp only
  split_ifs
  · rfl
  · exact stream_setScope
  · rfl

/-- Releasing a scope, or the manual transition without one. -/
theorem leavePersistent_kept (h : session.Kept) (ho : session.isOpen = true)
    (hm : isValidFlushMode options.flushMode = true) :
    (session.leavePersistent kind (control session.stream kind.restoreSequence kind.feature
      kind.unsupportedMessage options answers) options answers).1.Kept ∧
    ((session.leavePersistent kind (control session.stream kind.restoreSequence kind.feature
        kind.unsupportedMessage options answers) options answers).2.ok = true →
      ((session.leavePersistent kind (control session.stream kind.restoreSequence kind.feature
        kind.unsupportedMessage options answers) options answers).1.scope kind).active_ = false) := by
  cases ha : (session.scope kind).active_ with
  | false =>
    simp only [leavePersistent, ha, Bool.not_false, if_true]
    refine ⟨⟨⟨h.tracks.valid, fun kind' => ?_⟩, h.listed.setOutput, fun hc => ?_⟩, fun _ => ?_⟩
    · have hmanual := (h.tracks.scope kind').manual kind options answers fun hk => by rw [hk, ha]
      cases kind' <;> exact hmanual
    · exact absurd hc (by simp [ho])
    · cases kind <;> exact ha
  | true =>
    have ht := (h.tracks.scope kind).setOptions hm
    have hr := OutputScope.release_released kind answers session.output ht.wellFormed
    rcases he : OutputScope.release kind { session.scope kind with options_ := options } answers
      session.output with ⟨scope', output'⟩
    simp only [he] at hr
    have hok := hr.ok_iff ha
    have htracks := h.tracks.update (ht.released h.tracks.valid hr) fun kind' hk =>
      (h.tracks.scope kind').released_kind hk hr
    have hleave : session.leavePersistent kind (control session.stream kind.restoreSequence
        kind.feature kind.unsupportedMessage options answers) options answers =
        if !scope'.status_.ok then
          (({ session with output := output' } : SessionOutput).setScope kind scope', scope'.status_)
        else
          ((({ session with output := output' } : SessionOutput).setScope kind scope').removeRestore
            kind, Io.successStatus) := by
      unfold leavePersistent
      rw [if_neg (by simp [ha])]
      simp only [he]
    rw [hleave]
    cases hs : scope'.status_.ok with
    | true =>
      have hi := hok.1 hs
      rw [if_neg (by simp)]
      refine ⟨⟨htracks.reorder, Listed.remove h.listed.setOutput hi, fun hc => ?_⟩, fun _ => ?_⟩
      · have hc' : session.isOpen = false := by simpa using hc
        exact absurd hc' (by simp [ho])
      · rw [scope_removeRestore, scope_setScope_self]
        exact hi
    | false =>
      have hi : scope'.active_ = true := by
        by_contra hn
        have := hok.2 (by simpa using hn)
        simp [hs] at this
      rw [if_pos (by simp)]
      refine ⟨⟨htracks, Listed.setScope h.listed.setOutput (by rw [hi]; exact ha.symm), fun hc => ?_⟩,
        fun hf => ?_⟩
      · have hc' : session.isOpen = false := by simpa using hc
        exact absurd hc' (by simp [ho])
      · simp [hs] at hf

/-- The restore loop of `close`: it stops at the first failure, and a success empties the order. -/
theorem restoreFrom_kept (answers : Nat → ControlAnswers) {count : Nat} (ht : session.Tracks)
    (hl : session.Listed) (hc : session.outputRestoreCount = count) :
    (restoreFrom true answers count Io.successStatus session).1.Tracks ∧
      (restoreFrom true answers count Io.successStatus session).1.Listed ∧
      (restoreFrom true answers count Io.successStatus session).1.isOpen = session.isOpen ∧
      ((restoreFrom true answers count Io.successStatus session).2.ok = true →
        (restoreFrom true answers count Io.successStatus session).1.outputRestoreCount = 0) := by
  induction count generalizing session with
  | zero => exact ⟨ht, hl, rfl, fun _ => hc⟩
  | succ count ih =>
    unfold restoreFrom
    have ha := hl.active hc
    generalize hk : session.outputRestoreOrder.getD count .cursorHidden = kind at ha
    have hr := OutputScope.release_released kind (answers count) session.output
      (ht.scope kind).wellFormed
    rcases he : (session.scope kind).release kind (answers count) session.output with
      ⟨scope', output'⟩
    simp only [he] at hr
    have hok := hr.ok_iff ha
    have htracks := ht.update ((ht.scope kind).released ht.valid hr) fun kind' hk =>
      (ht.scope kind').released_kind hk hr
    simp only [he]
    cases hs : scope'.status_.ok with
    | true =>
      rw [if_pos rfl]
      obtain ⟨h1, h2, h3, h4⟩ := ih htracks.reorder
        (Listed.pop hl.setOutput hc hk (hok.1 hs)) rfl
      exact ⟨h1, h2, by rw [h3]; simp, h4⟩
    | false =>
      have hi : scope'.active_ = true := by
        by_contra hn
        have := hok.2 (by simpa using hn)
        simp [hs] at this
      rw [if_neg (by simp), if_pos trivial]
      exact ⟨htracks, Listed.setScope hl.setOutput (by rw [hi]; exact ha.symm), by simp,
        fun hf => by simp [hs] at hf⟩

theorem close_kept {answers : Nat → ControlAnswers} {restoreManagedInput : Status}
    (h : session.Kept) :
    (session.close answers restoreManagedInput).1.Kept ∧
      ((session.close answers restoreManagedInput).2.ok = true →
        ∀ kind, ((session.close answers restoreManagedInput).1.scope kind).active_ = false) := by
  cases ho : session.isOpen with
  | false =>
    have he : session.close answers restoreManagedInput = (session, Io.successStatus) := by
      simp [close, ho]
    rw [he]
    exact ⟨h, fun _ => h.closed ho⟩
  | true =>
    obtain ⟨h1, h2, h3, h4⟩ := restoreFrom_kept answers h.tracks h.listed rfl
    rcases hr : session.restoreOutputState true answers with ⟨restored, status⟩
    rw [show restoreFrom true answers session.outputRestoreCount Io.successStatus session =
      (restored, status) from hr] at h1 h2 h3 h4
    have hopen : Kept restored := ⟨h1, h2, fun hc => absurd (h3.symm.trans hc) (by simp [ho])⟩
    have hinactive : status.ok = true → ∀ kind, (restored.scope kind).active_ = false := by
      intro hs kind
      have hm := h2.mem_iff kind
      rw [h4 hs] at hm
      simpa using hm
    have hclose : session.close answers restoreManagedInput =
        if !status.ok then (restored, status)
        else if !restoreManagedInput.ok then (restored, restoreManagedInput)
        else ({ restored with isOpen := false }, Io.successStatus) := by
      simp [close, ho, hr]
    rw [hclose]
    split_ifs with hs hi
    · exact ⟨hopen, fun hok => by simp [hok] at hs⟩
    · exact ⟨hopen, fun hok => by simp [hok] at hi⟩
    · have hs' := hinactive (by simpa using hs)
      have hscope : ({ restored with isOpen := false } : SessionOutput).scope = restored.scope := by
        funext kind
        cases kind <;> rfl
      refine ⟨⟨⟨h1.valid, ?_⟩, ⟨h2.length, h2.count_le, h2.nodup, ?_⟩, ?_⟩, ?_⟩
      · rw [hscope]
        exact h1.scope
      · rw [hscope]
        exact h2.mem_iff
      · rw [hscope]
        exact fun _ => hs'
      · rw [hscope]
        exact fun _ => hs'

end SessionOutput

/-! ## Runs -/

namespace SessionCall

/-- The call opens the persistent scope of a kind. -/
def enters : SessionCall → Option (ScopeKind × ControlOptions)
  | .setCursorVisible false options _ => some (.cursorHidden, options)
  | .enterAlternateScreen options _ => some (.alternateScreen, options)
  | _ => none

/-- The call releases the persistent scope of a kind. -/
def leaves (kind : ScopeKind) : SessionCall → Bool
  | .setCursorVisible true _ _ => kind = .cursorHidden
  | .leaveAlternateScreen _ _ => kind = .alternateScreen
  | .close _ _ => true
  | _ => false

/-- An accepted call does not open a scope whose restoring sequence has been written already. -/
def Guard (session : SessionOutput) (call : SessionCall) : Prop :=
  ∀ kind options, call.enters = some (kind, options) → session.isOpen = true →
    isValidFlushMode options.flushMode = true → (session.scope kind).active_ = true →
      (session.scope kind).restorationEmitted_ = false

instance (session : SessionOutput) (call : SessionCall) : Decidable (call.Guard session) :=
  match h : call.enters with
  | none => .isTrue fun _ _ he => by cases h.symm.trans he
  | some (kind, options) =>
    decidable_of_iff (session.isOpen = true → isValidFlushMode options.flushMode = true →
      (session.scope kind).active_ = true → (session.scope kind).restorationEmitted_ = false)
      ⟨fun hg kind' options' he => by cases h.symm.trans he; exact hg,
        fun hg => hg kind options h⟩

end SessionCall

/-- What a success of the calls means: the last sequence of the kind is the entering one after a
call that opens the scope and is not after a call that releases it; and the restore order lists the
active scopes, once each, in its two entries. -/
structure OutputKept (x : Transition SessionOutput SessionCall) : Prop where
  entered : ∀ kind options, x.action.enters = some (kind, options) →
    (x.pre.call x.action).2.ok = true →
      x.post.output.lastSequence kind x.post.stream = some kind.enterSequence
  left : ∀ kind, x.action.leaves kind = true → (x.pre.call x.action).2.ok = true →
    x.post.output.lastSequence kind x.post.stream ≠ some kind.enterSequence
  listed : x.post.Listed

/-- An open session without active scopes, on a stream without other scopes. -/
structure SessionOutput.Fresh (session : SessionOutput) : Prop where
  isOpen : session.isOpen = true
  valid : validOutputStream session.stream = true
  inactive : ∀ kind, (session.scope kind).active_ = false
  restores : ∀ kind, (session.scope kind).restoreOnDestruction_ = true
  depth : ∀ kind, session.output.depth kind session.stream = 0
  last : ∀ kind, session.output.lastSequence kind session.stream ≠ some kind.enterSequence
  length : session.outputRestoreOrder.length = 2
  count : session.outputRestoreCount = 0

namespace SessionOutput

variable {session t u : SessionOutput} {call : SessionCall} {options : ControlOptions}

theorem Fresh.kept (h : session.Fresh) : session.Kept := by
  refine ⟨⟨h.valid, fun kind => ?_⟩, ⟨h.length, ?_, ?_, fun kind => ?_⟩, fun _ => h.inactive⟩
  · have ho : (session.scope kind).owes session.stream = false := by
      simp [OutputScope.owes, h.inactive kind]
    refine ⟨OutputScope.wellFormed_of_inactive (h.inactive kind) (h.restores kind), ?_, ?_, ?_⟩
    · simp [h.inactive kind]
    · simp [h.depth kind, ho]
    · simp [h.last kind, ho]
  · rw [h.count]
    decide
  · rw [h.count]
    exact List.nodup_nil
  · rw [h.count]
    simp [h.inactive kind]

/-- A call refused by the checks fails and changes nothing. -/
theorem checked_eq (session : SessionOutput) (options : ControlOptions)
    (transition : SessionOutput × Status) :
    (session.checked options transition = transition ∧ session.isOpen = true ∧
      isValidFlushMode options.flushMode = true) ∨
    (∃ status : Status, status.ok = false ∧
      session.checked options transition = (session, status) ∧
      ¬ (session.isOpen = true ∧ isValidFlushMode options.flushMode = true)) := by
  unfold checked
  cases ho : session.isOpen with
  | false => exact .inr ⟨_, rfl, rfl, by simp⟩
  | true =>
    cases hm : isValidFlushMode options.flushMode with
    | false => exact .inr ⟨_, rfl, rfl, by simp⟩
    | true => exact .inl ⟨rfl, rfl, rfl⟩

/-- What a call that opens a scope does, over the two kinds. -/
theorem entered_call {kind : ScopeKind} (he : call.enters = some (kind, options)) :
    ∃ answers, session.call call =
      session.checked options (session.enterPersistent kind options answers) := by
  cases call with
  | setCursorVisible visible options' answers =>
    cases visible with
    | true => cases he
    | false =>
      cases he
      exact ⟨answers, rfl⟩
  | enterAlternateScreen options' answers =>
    cases he
    exact ⟨answers, rfl⟩
  | leaveAlternateScreen => cases he
  | close => cases he

theorem leaves_of_enters {kind : ScopeKind} {entered : ScopeKind × ControlOptions}
    (he : call.enters = some entered) : call.leaves kind = false := by
  cases call with
  | setCursorVisible visible => cases visible <;> first | rfl | cases he
  | enterAlternateScreen => rfl
  | leaveAlternateScreen => cases he
  | close => cases he

/-- What a call that releases a scope does. -/
theorem left_call (he : call.enters = none) :
    (∃ answers status, call = .close answers status) ∨
    ∃ kind options answers, (∀ kind', call.leaves kind' = true → kind' = kind) ∧
      session.call call = session.checked options (session.leavePersistent kind
        (control session.stream kind.restoreSequence kind.feature kind.unsupportedMessage options
          answers) options answers) := by
  cases call with
  | setCursorVisible visible options' answers =>
    cases visible with
    | true => exact .inr ⟨.cursorHidden, options', answers, fun _ => of_decide_eq_true, rfl⟩
    | false => cases he
  | enterAlternateScreen options' answers => cases he
  | leaveAlternateScreen options' answers =>
    exact .inr ⟨.alternateScreen, options', answers, fun _ => of_decide_eq_true, rfl⟩
  | close answers status => exact .inl ⟨answers, status, rfl⟩

theorem call_kept (h : session.Kept) : (session.call call).1.Kept := by
  rcases he : call.enters with _ | ⟨kind, options⟩
  · obtain ⟨answers, status, rfl⟩ | ⟨kind, options, answers, _, hcall⟩ := left_call he
    · exact (close_kept h).1
    · rw [hcall]
      obtain ⟨hc, ho, hm⟩ | ⟨status, _, hc, _⟩ := checked_eq session options _
      · rw [hc]
        exact (leavePersistent_kept h ho hm).1
      · rw [hc]
        exact h
  · obtain ⟨answers, hcall⟩ := entered_call he
    rw [hcall]
    obtain ⟨hc, ho, _⟩ | ⟨status, _, hc, _⟩ := checked_eq session options _
    · rw [hc]
      exact (enterPersistent_kept kind options answers h ho).1
    · rw [hc]
      exact h

/-- In a kept session the last sequence of an inactive scope is not the entering one. -/
theorem Kept.last_ne {kind : ScopeKind} (h : session.Kept)
    (hi : (session.scope kind).active_ = false) :
    session.output.lastSequence kind session.stream ≠ some kind.enterSequence := by
  rw [ne_eq, (h.tracks.scope kind).last]
  simp [OutputScope.owes, hi]

/-- One call: its success means what it says exactly when the call is within the guard. -/
theorem outputKept_call (h : session.Kept) :
    OutputKept ⟨session, call, (session.call call).1⟩ ↔ call.Guard session := by
  have hkept : (session.call call).1.Kept := call_kept h
  rcases he : call.enters with _ | ⟨kind, options⟩
  · refine ⟨fun _ kind options he' => by simp [he] at he', fun _ => ⟨?_, ?_, hkept.listed⟩⟩
    · intro kind options he'
      simp [he] at he'
    · intro kind hl hok
      apply hkept.last_ne
      obtain ⟨answers, status, rfl⟩ | ⟨kind', options, answers, hkind, hcall⟩ := left_call he
      · exact (close_kept h).2 hok kind
      · obtain rfl := hkind kind hl
        dsimp only at hok
        rw [hcall] at hok ⊢
        obtain ⟨hc, ho, hm⟩ | ⟨status, hfailed, hc, _⟩ := checked_eq session options _
        · rw [hc] at hok ⊢
          exact (leavePersistent_kept h ho hm).2 hok
        · rw [hc] at hok
          simp [hfailed] at hok
  · obtain ⟨answers, hcall⟩ := entered_call he
    constructor
    · intro hx kind' options' he' ho hm ha
      obtain ⟨rfl, rfl⟩ : kind = kind' ∧ options = options' := by simpa [he] using he'
      have hsame : session.call call = (session, Io.successStatus) := by
        obtain ⟨hc, _, _⟩ | ⟨status, _, _, hn⟩ := checked_eq session options
          (session.enterPersistent kind options answers)
        · rw [hcall, hc]
          exact (enterPersistent_kept kind options answers h ho).2.1 ha
        · exact absurd ⟨ho, hm⟩ hn
      have hlast := hx.entered kind options he (by rw [hsame]; rfl)
      rw [hsame] at hlast
      exact (OutputScope.owes_iff.1 ((h.tracks.scope kind).last.1 hlast)).2.1
    · intro hg
      refine ⟨?_, fun kind' hl => ?_, hkept.listed⟩
      · intro kind' options' he' hok
        obtain ⟨rfl, rfl⟩ : kind = kind' ∧ options = options' := by simpa [he] using he'
        apply (hkept.tracks.scope kind).last.2
        dsimp only at hok ⊢
        rw [hcall] at hok ⊢
        obtain ⟨hc, ho, hm⟩ | ⟨status, hfailed, hc, _⟩ := checked_eq session options
          (session.enterPersistent kind options answers)
        · rw [hc] at hok ⊢
          obtain ⟨_, hsame, hopened⟩ := enterPersistent_kept kind options answers h ho
          cases ha : (session.scope kind).active_ with
          | true =>
            rw [hsame ha]
            exact OutputScope.owes_iff.2
              ⟨ha, hg kind options he ho hm ha, (h.tracks.scope kind).stream_eq ha⟩
          | false =>
            rw [stream_enterPersistent]
            exact hopened ha hok
        · rw [hc] at hok
          simp [hfailed] at hok
      · exact absurd hl (by simp [leaves_of_enters he])

end SessionOutput

/-- A session on `stdout` without scopes, before anything is written. -/
def freshSession : SessionOutput := { stream := .stdout, isOpen := true }

theorem freshSession_fresh : freshSession.Fresh := by
  refine ⟨rfl, rfl, ?_, ?_, ?_, ?_, rfl, rfl⟩ <;> intro kind <;> cases kind <;> decide

/-- A platform with both transitions that answers the flush with `flush`. -/
def screenAnswers (flush : Status) : ControlAnswers where
  getOutputCapabilities :=
    { capabilities := { supportsCursorVisibility := true, supportsAlternateScreen := true } }
  flush := flush

/-- Both scopes opened, the first one released, and the session closed at the second attempt. -/
def retriedClose : List SessionCall :=
  [.setCursorVisible false { flushMode := .data } (screenAnswers {}),
    .enterAlternateScreen { flushMode := .data } (screenAnswers {}),
    .setCursorVisible true { flushMode := .data } (screenAnswers {}),
    .close (fun _ => screenAnswers (Io.makeStatus .flushFailed)) {},
    .close (fun _ => screenAnswers {}) {}]

/-- A hide, a show whose flush fails, and a second hide. -/
def unflushedShow : List SessionCall :=
  [.setCursorVisible false { flushMode := .data } (screenAnswers {}),
    .setCursorVisible true { flushMode := .data } (screenAnswers (Io.makeStatus .flushFailed)),
    .setCursorVisible false { flushMode := .data } (screenAnswers {})]

end Terminal

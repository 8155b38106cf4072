import GameWIP.Desktop.ProgressDialogs
import GameWIP.Lib.Trace
import Mathlib.Data.List.Perm.Subperm

/-!
# The close of a progress dialog

`Inv` ties the registry and the restore chain to the flags of the dialogs. A dialog obliges
somebody to enable its owner while it blocks it or while its restoration is pending (`Obliges`), and
a window is `Safe` when it is not left disabled without such a dialog. `finalizeNative_spec` says
what a close keeps of both, whatever the native calls answer.
-/

namespace Desktop

namespace ProgressDialog

open Lib (Intrusive)

/-! ## The invariant -/

def ProgressDialogState.registered (state : ProgressDialogState) : Bool :=
  state.platform.any fun data => data.registered

def ProgressDialogState.blocking (state : ProgressDialogState) : Bool :=
  state.platform.any fun data => data.blockingOwner

/-- What holds of the native side of a dialog. -/
structure DataOk (windows : WindowId → Option WindowState) (state : ProgressDialogState)
    (data : ProgressDialogData) : Prop where
  handle : data.registered = true → data.handle = true
  live : data.registered = true → state.nativeDestroyedPendingFinalize = false
  blocking : data.blockingOwner = true → data.registered = true ∧ state.blocksOwner = true ∧
    state.ownerId ≠ none ∧ data.nativeOwner.isSome = true
  destroying : data.handle = true → data.destroying = false
  pending : state.ownerRestorePending = true → data.handle = false
  owner : ∀ w window h, state.ownerId = some w → windows w = some window →
    window.handle = some h → data.nativeOwner = some h

/-- What holds of a dialog. -/
structure StateOk (windows : WindowId → Option WindowState) (state : ProgressDialogState) :
    Prop where
  pending : state.ownerRestorePending = true → state.platform ≠ none
  data : ∀ data, state.platform = some data → DataOk windows state data

/-- The registry and the restore chain hold what the flags of the dialogs say. -/
structure Inv (s : State) (chain : List DialogId) : Prop where
  carries : s.pendingRestore.Carries chain
  nodup : chain.Nodup
  pending : ∀ d, d ∈ chain ↔ ∃ state, s.dialogs d = some state ∧ state.ownerRestorePending = true
  registry : s.progressDialogs.Nodup
  registered : ∀ d, d ∈ s.progressDialogs ↔
    ∃ state, s.dialogs d = some state ∧ state.registered = true
  ok : ∀ d state, s.dialogs d = some state → StateOk s.windows state
  fresh : ∀ d state, s.dialogs d = some state → d < s.nextDialogId
  owners : ∀ d state w, s.dialogs d = some state → state.ownerId = some w → w < s.nextWindowId
  windows : ∀ w window, s.windows w = some window → w < s.nextWindowId

/-- No window is in a close. -/
def Idle (s : State) : Prop := ∀ w window, s.windows w = some window → window.destroying = false

/-- The dialog is the reason why its owner may be disabled. -/
def Obliges (state : ProgressDialogState) (w : WindowId) : Prop :=
  state.ownerId = some w ∧ (state.ownerRestorePending = true ∨ state.blocking = true)

def Covered (s : State) (w : WindowId) : Prop :=
  ∃ d state, s.dialogs d = some state ∧ Obliges state w

/-- The window is not left disabled. -/
def Safe (s : State) (w : WindowId) : Prop :=
  ∀ window, s.windows w = some window → window.handle ≠ none → window.interactionEnabled = true →
    window.enabled = false → Covered s w

/-- The window is enabled as it should be, or a dialog blocks it. -/
def Relieved (s : State) (w : WindowId) : Prop :=
  ∀ window, s.windows w = some window → window.handle ≠ none →
    window.enabled = window.interactionEnabled ∨ windowHasBlockingProgressDialog s w = true

/-- Steps that consume answers and enable windows as they should be. -/
structure Refreshed (s t : State) : Prop where
  dialogs : t.dialogs = s.dialogs
  progressDialogs : t.progressDialogs = s.progressDialogs
  pendingRestore : t.pendingRestore = s.pendingRestore
  nextDialogId : t.nextDialogId = s.nextDialogId
  nextWindowId : t.nextWindowId = s.nextWindowId
  deferred : t.deferred = s.deferred
  owned : t.owned = s.owned
  windows : ∀ w, t.windows w = s.windows w ∨ ∃ window, s.windows w = some window ∧
    t.windows w = some { window with enabled := window.interactionEnabled }

/-- Steps that leave the windows alone. -/
structure Untouched (s t : State) : Prop where
  windows : t.windows = s.windows
  enableWindow : t.outcomes.enableWindow = s.outcomes.enableWindow

section
variable {s t u : State} {chain : List DialogId} {w : WindowId} {d : DialogId}
  {state : ProgressDialogState}

theorem Untouched.refl (s : State) : Untouched s s := ⟨rfl, rfl⟩

theorem Untouched.trans (h : Untouched s t) (h' : Untouched t u) : Untouched s u :=
  ⟨h'.windows.trans h.windows, h'.enableWindow.trans h.enableWindow⟩

theorem Refreshed.refl (s : State) : Refreshed s s :=
  ⟨rfl, rfl, rfl, rfl, rfl, rfl, rfl, fun _ => .inl rfl⟩

/-- A window behind such steps, with the window in front of them. -/
theorem Refreshed.window (h : Refreshed s t) {window : WindowState} (hw : t.windows w = some window) :
    ∃ before, s.windows w = some before ∧ window.handle = before.handle ∧
      window.interactionEnabled = before.interactionEnabled ∧
      window.destroying = before.destroying ∧
      (window.enabled = before.enabled ∨ window.enabled = window.interactionEnabled) := by
  rcases h.windows w with hsame | ⟨before, hbefore, hafter⟩
  · exact ⟨window, hsame.symm.trans hw, rfl, rfl, rfl, .inl rfl⟩
  · obtain rfl := Option.some.inj (hafter.symm.trans hw)
    exact ⟨before, hbefore, rfl, rfl, rfl, .inr rfl⟩

/-- A dialog is as good with windows of the same handles. -/
theorem StateOk.of_windows {windows windows' : WindowId → Option WindowState}
    (h : StateOk windows state)
    (hw : ∀ w window h, state.ownerId = some w → windows' w = some window → window.handle = some h →
      ∃ before, windows w = some before ∧ before.handle = some h) : StateOk windows' state where
  pending := h.pending
  data data hdata :=
    { h.data data hdata with
      owner := fun w window native how hwindow hnative => by
        obtain ⟨before, hbefore, hhandle⟩ := hw w window native how hwindow hnative
        exact (h.data data hdata).owner w before native how hbefore hhandle }

theorem Inv.refreshed (h : Inv s chain) (hr : Refreshed s t) : Inv t chain where
  carries := by rw [hr.pendingRestore]; exact h.carries
  nodup := h.nodup
  pending := by rw [hr.dialogs]; exact h.pending
  registry := by rw [hr.progressDialogs]; exact h.registry
  registered := by rw [hr.progressDialogs, hr.dialogs]; exact h.registered
  ok d state hd := by
    rw [hr.dialogs] at hd
    refine (h.ok d state hd).of_windows fun w window native _ hw hnative => ?_
    obtain ⟨before, hbefore, hhandle, -⟩ := hr.window hw
    exact ⟨before, hbefore, hhandle ▸ hnative⟩
  fresh := by rw [hr.dialogs, hr.nextDialogId]; exact h.fresh
  owners := by rw [hr.dialogs, hr.nextWindowId]; exact h.owners
  windows w window hw := by
    obtain ⟨before, hbefore, -⟩ := hr.window hw
    rw [hr.nextWindowId]
    exact h.windows w before hbefore

theorem Idle.refreshed (h : Idle s) (hr : Refreshed s t) : Idle t := fun w window hw => by
  obtain ⟨before, hbefore, -, -, hdestroying, -⟩ := hr.window hw
  exact hdestroying.trans (h w before hbefore)

theorem Safe.refreshed (h : Safe s w) (hr : Refreshed s t) : Safe t w := by
  intro window hw hhandle hinteraction hdisabled
  obtain ⟨before, hbefore, hhandle', hinteraction', -, henabled⟩ := hr.window hw
  unfold Covered
  rw [hr.dialogs]
  refine h before hbefore (hhandle' ▸ hhandle) (hinteraction' ▸ hinteraction) ?_
  rcases henabled with henabled | henabled
  · exact henabled ▸ hdisabled
  · exact absurd (hdisabled.symm.trans (henabled.trans hinteraction)) (by simp)

theorem destroyWindow_untouched (s : State) : Untouched s (destroyWindow s).1 := ⟨rfl, rfl⟩

theorem destroyWindow_refreshed (s : State) : Refreshed s (destroyWindow s).1 :=
  ⟨rfl, rfl, rfl, rfl, rfl, rfl, rfl, fun _ => .inl rfl⟩

theorem releaseProgressClass_refreshed (s : State) : Refreshed s (releaseProgressClass s).1 := by
  unfold releaseProgressClass
  dsimp only
  split_ifs <;>
    exact ⟨rfl, rfl, rfl, rfl, rfl, rfl, rfl, fun _ => .inl rfl⟩

theorem releaseProgressClass_untouched (s : State) : Untouched s (releaseProgressClass s).1 := by
  unfold releaseProgressClass
  dsimp only
  split_ifs <;> exact ⟨rfl, rfl⟩

/-- A window that is enabled as it should be, unless the call has no effect. -/
theorem enableWindow_refreshed {window : WindowState} (hw : s.windows w = some window) :
    Refreshed s (enableWindow s w window window.interactionEnabled).1 := by
  refine ⟨rfl, rfl, rfl, rfl, rfl, rfl, rfl, fun w' => ?_⟩
  by_cases hw' : w' = w
  · subst hw'
    simp only [enableWindow, setWindow, Function.update_self]
    split_ifs
    · exact .inr ⟨window, hw, rfl⟩
    · exact .inl hw.symm
  · exact .inl (by simp [enableWindow, setWindow, hw'])

/-- A blocking dialog of the window is found in the registry. -/
theorem windowHasBlockingProgressDialog_iff (h : Inv s chain) :
    windowHasBlockingProgressDialog s w = true ↔
      ∃ d state, s.dialogs d = some state ∧ state.ownerId = some w ∧ state.blocking = true := by
  unfold windowHasBlockingProgressDialog
  rw [List.any_eq_true]
  constructor
  · rintro ⟨d, -, hd⟩
    obtain ⟨state, hstate, hblocks⟩ := (Option.any_eq_true _ _).1 hd
    refine ⟨d, state, hstate, ?_⟩
    unfold blocks at hblocks
    split at hblocks
    · rename_i data hdata
      simp only [Bool.and_eq_true, beq_iff_eq] at hblocks
      exact ⟨hblocks.1.1.2, by simp [ProgressDialogState.blocking, hdata, hblocks.2]⟩
    · cases hblocks
  · rintro ⟨d, state, hstate, howner, hblocking⟩
    cases hdata : state.platform with
    | none => simp [ProgressDialogState.blocking, hdata] at hblocking
    | some data =>
      have hblocking : data.blockingOwner = true := by
        simpa [ProgressDialogState.blocking, hdata] using hblocking
      have hok := ((h.ok d state hstate).data data hdata)
      obtain ⟨hregistered, hblocks, -, -⟩ := hok.blocking hblocking
      refine ⟨d, (h.registered d).2 ⟨state, hstate, by
        simp [ProgressDialogState.registered, hdata, hregistered]⟩, ?_⟩
      simp [hstate, blocks, hdata, howner, hblocks, hblocking, hok.live hregistered]

theorem Relieved.safe (h : Relieved s w) (hinv : Inv s chain) : Safe s w := by
  intro window hw hhandle hinteraction hdisabled
  rcases h window hw hhandle with henabled | hblocked
  · rw [hdisabled, hinteraction] at henabled
    cases henabled
  · obtain ⟨d, state, hd, howner, hblocking⟩ := (windowHasBlockingProgressDialog_iff hinv).1 hblocked
    exact ⟨d, state, hd, howner, .inr hblocking⟩

/-- The owner is enabled, or the call has no effect and says so. -/
theorem restoreOwnerAfterRemoval_spec (hok : StateOk s.windows state) :
    Refreshed s (restoreOwnerAfterRemoval s state).1 ∧
      ((restoreOwnerAfterRemoval s state).2 = true → state.platform ≠ none → Idle s →
        ∀ w, state.ownerId = some w → Relieved (restoreOwnerAfterRemoval s state).1 w) := by
  unfold restoreOwnerAfterRemoval
  split
  · rename_i w owner data howner hresolve hdata
    have hw : s.windows w = some owner := by simpa [resolveWindowId, howner] using hresolve
    split_ifs with hguard
    · refine ⟨enableWindow_refreshed hw, fun hrestored _ _ w' hw' window hwindow _ => ?_⟩
      obtain rfl := Option.some.inj (howner.symm.trans hw')
      left
      simp only [enableWindow, beq_iff_eq] at hrestored
      simp only [enableWindow, setWindow, Function.update_self, Option.some.injEq] at hwindow
      rw [← hwindow]
      exact hrestored
    · refine ⟨.refl s, fun _ _ hidle w' hw' window hwindow hhandle => ?_⟩
      obtain rfl := Option.some.inj (howner.symm.trans hw')
      obtain rfl := Option.some.inj (hw.symm.trans hwindow)
      right
      by_contra hblocked
      obtain ⟨native, hnative⟩ := Option.ne_none_iff_exists'.1 hhandle
      have hsame := (hok.data data hdata).owner w owner native howner hw hnative
      exact hguard ⟨hnative.trans hsame.symm, hidle w owner hw, hhandle, by simpa using hblocked⟩
  · rename_i hnone
    refine ⟨.refl s, fun _ hplatform _ w hw window hwindow _ => ?_⟩
    obtain ⟨data, hdata⟩ := Option.ne_none_iff_exists'.1 hplatform
    exact absurd hdata (hnone w window data hw (by simpa [resolveWindowId, hw] using hwindow))

/-! ## Changes of one dialog -/

/-- A step that changes one dialog, its place in the registry and its place in the chain. -/
structure Changes (s t : State) (d : DialogId) (old new : ProgressDialogState)
    (chain chain' : List DialogId) : Prop where
  before : s.dialogs d = some old
  after : t.dialogs d = some new
  others : ∀ e ≠ d, t.dialogs e = s.dialogs e
  owner : new.ownerId = old.ownerId
  ok : StateOk s.windows new
  registry : t.progressDialogs.Nodup
  registered : d ∈ t.progressDialogs ↔ new.registered = true
  otherRegistered : ∀ e ≠ d, e ∈ t.progressDialogs ↔ e ∈ s.progressDialogs
  carries : t.pendingRestore.Carries chain'
  nodup : chain'.Nodup
  pending : d ∈ chain' ↔ new.ownerRestorePending = true
  otherPending : ∀ e ≠ d, e ∈ chain' ↔ e ∈ chain
  windows : t.windows = s.windows
  nextDialogId : t.nextDialogId = s.nextDialogId
  nextWindowId : t.nextWindowId = s.nextWindowId
  outcomes : t.outcomes = s.outcomes

theorem Inv.changes {old new : ProgressDialogState} {chain' : List DialogId} (h : Inv s chain)
    (hc : Changes s t d old new chain chain') : Inv t chain' where
  carries := hc.carries
  nodup := hc.nodup
  pending e := by
    by_cases he : e = d
    · subst he
      simp [hc.pending, hc.after]
    · rw [hc.otherPending e he, hc.others e he, h.pending]
  registry := hc.registry
  registered e := by
    by_cases he : e = d
    · subst he
      simp [hc.registered, hc.after]
    · rw [hc.otherRegistered e he, hc.others e he, h.registered]
  ok e state hstate := by
    rw [hc.windows]
    by_cases he : e = d
    · subst he
      obtain rfl := Option.some.inj (hc.after.symm.trans hstate)
      exact hc.ok
    · rw [hc.others e he] at hstate
      exact h.ok e state hstate
  fresh e state hstate := by
    rw [hc.nextDialogId]
    by_cases he : e = d
    · exact he ▸ h.fresh d old hc.before
    · rw [hc.others e he] at hstate
      exact h.fresh e state hstate
  owners e state w hstate hw := by
    rw [hc.nextWindowId]
    by_cases he : e = d
    · subst he
      obtain rfl := Option.some.inj (hc.after.symm.trans hstate)
      exact h.owners e old w hc.before (hc.owner ▸ hw)
    · rw [hc.others e he] at hstate
      exact h.owners e state w hstate hw
  windows := by rw [hc.windows, hc.nextWindowId]; exact h.windows

theorem Changes.untouched {old new : ProgressDialogState} {chain' : List DialogId}
    (hc : Changes s t d old new chain chain') : Untouched s t :=
  ⟨hc.windows, by rw [hc.outcomes]⟩

/-- A change of a dialog that keeps its registration and its pending restoration. -/
theorem Changes.of_setDialog {old new : ProgressDialogState} (h : Inv s chain)
    (hd : s.dialogs d = some old) (howner : new.ownerId = old.ownerId)
    (hok : StateOk s.windows new) (hregistered : new.registered = old.registered)
    (hpending : new.ownerRestorePending = old.ownerRestorePending) :
    Changes s (setDialog s d (some new)) d old new chain chain where
  before := hd
  after := by simp [setDialog]
  others e he := by simp [setDialog, he]
  owner := howner
  ok := hok
  registry := h.registry
  registered := (h.registered d).trans (by simp [hd, hregistered])
  otherRegistered _ _ := Iff.rfl
  carries := h.carries
  nodup := h.nodup
  pending := (h.pending d).trans (by simp [hd, hpending])
  otherPending _ _ := Iff.rfl
  windows := rfl
  nextDialogId := rfl
  nextWindowId := rfl
  outcomes := rfl

/-- A window stays safe when only a dialog changes that was no reason to disable it, or still is. -/
theorem Safe.changes {old new : ProgressDialogState} (h : Safe s w)
    (hold : s.dialogs d = some old) (hnew : t.dialogs d = some new)
    (hothers : ∀ e ≠ d, t.dialogs e = s.dialogs e) (hwindows : t.windows = s.windows)
    (hobliges : Obliges old w → Obliges new w) : Safe t w := by
  intro window hw hhandle hinteraction hdisabled
  rw [hwindows] at hw
  obtain ⟨e, state, he, hstate⟩ := h window hw hhandle hinteraction hdisabled
  by_cases hed : e = d
  · subst hed
    obtain rfl := Option.some.inj (hold.symm.trans he)
    exact ⟨e, new, hnew, hobliges hstate⟩
  · exact ⟨e, state, by rwa [hothers e hed], hstate⟩

/-- A dialog whose restoration is pending blocks nobody. -/
theorem StateOk.not_blocking (hok : StateOk s.windows state)
    (hpending : state.ownerRestorePending = true) : state.blocking = false := by
  obtain ⟨data, hdata⟩ := Option.ne_none_iff_exists'.1 (hok.pending hpending)
  have hdataOk := hok.data data hdata
  by_contra hblocking
  have hblocks : data.blockingOwner = true := by
    simpa [ProgressDialogState.blocking, hdata] using hblocking
  have hlive := hdataOk.handle (hdataOk.blocking hblocks).1
  rw [hdataOk.pending hpending] at hlive
  cases hlive

/-- A relieved window stays safe when a pending restoration of it is dropped. -/
theorem Relieved.changes {old new : ProgressDialogState} {chain' : List DialogId}
    (h : Relieved s w) (hinv : Inv s chain) (hc : Changes s t d old new chain chain')
    (hpending : old.ownerRestorePending = true) : Safe t w := by
  intro window hw hhandle hinteraction hdisabled
  rw [hc.windows] at hw
  rcases h window hw hhandle with henabled | hblocked
  · exact absurd (hdisabled.symm.trans (henabled.trans hinteraction)) (by simp)
  · obtain ⟨e, other, he, hother, hblocks⟩ := (windowHasBlockingProgressDialog_iff hinv).1 hblocked
    have hed : e ≠ d := fun hed => by
      subst hed
      obtain rfl := Option.some.inj (hc.before.symm.trans he)
      rw [(hinv.ok e old he).not_blocking hpending] at hblocks
      cases hblocks
    exact ⟨e, other, by rw [hc.others e hed]; exact he, hother, .inr hblocks⟩

theorem length_chain_le (h : Inv s chain) : chain.length ≤ s.nextDialogId := by
  have hsub : chain ⊆ List.range s.nextDialogId := fun d hd => by
    obtain ⟨state, hstate, -⟩ := (h.pending d).1 hd
    exact List.mem_range.2 (h.fresh d state hstate)
  simpa using (h.nodup.subperm hsub).length_le

/-- A record is taken out of the chain. -/
theorem unlinkPending_changes {done rest : List DialogId} (h : Inv s (done ++ d :: rest))
    (hd : s.dialogs d = some state) :
    Changes s (unlinkPending s done.getLast? d state) d state
      { state with ownerRestorePending := false } (done ++ d :: rest) (done ++ rest) where
  before := hd
  after := by simp [unlinkPending, setDialog]
  others e he := by simp [unlinkPending, setDialog, he]
  owner := rfl
  ok :=
    { pending := nofun
      data := fun data hdata => { (h.ok d state hd).data data hdata with pending := nofun } }
  registry := h.registry
  registered := (h.registered d).trans (by simp [hd, ProgressDialogState.registered])
  otherRegistered _ _ := Iff.rfl
  carries := h.carries.unlink h.nodup
  nodup := (List.nodup_cons.1 (List.nodup_middle.1 h.nodup)).2
  pending := by simpa using (List.nodup_cons.1 (List.nodup_middle.1 h.nodup)).1
  otherPending e he := by simp [he]
  windows := rfl
  nextDialogId := rfl
  nextWindowId := rfl
  outcomes := rfl

/-- The pending restoration of a dialog is dropped. -/
theorem cancelProgressOwnerRestore_spec (h : Inv s chain) (hd : s.dialogs d = some state) :
    ∃ t chain', cancelProgressOwnerRestore s d state = some t ∧
      Changes s t d state { state with ownerRestorePending := false } chain chain' ∧
      t.progressDialogs = s.progressDialogs ∧ t.deferred = s.deferred ∧ t.owned = s.owned := by
  unfold cancelProgressOwnerRestore
  split_ifs with hpending
  · obtain ⟨done, rest, rfl⟩ := List.append_of_mem ((h.pending d).2 ⟨state, hd, hpending⟩)
    have hfuel : done.length < fuel s := by
      have := length_chain_le h
      simp only [List.length_append, List.length_cons] at this
      unfold fuel
      omega
    have hfind : s.pendingRestore.findLink d (fuel s) ([] : List DialogId).getLast? =
        some done.getLast? := h.carries.findLink h.nodup (List.nil_append done).symm hfuel
    have hread : s.pendingRestore.read done.getLast? = some d := h.carries.read_eq
    refine ⟨_, done ++ rest, ?_, unlinkPending_changes h hd, rfl, rfl, rfl⟩
    rw [List.getLast?_nil] at hfind
    rw [hfind, Option.map_some, if_pos hread]
  · have hsame : { state with ownerRestorePending := false } = state := by
      cases state
      simpa using hpending
    rw [hsame]
    refine ⟨s, chain, rfl, ?_, rfl, rfl, rfl⟩
    have hset : setDialog s d (some state) = s := by
      unfold setDialog
      rw [← hd, Function.update_eq_self]
    have hchanges := Changes.of_setDialog h hd rfl (h.ok d state hd) rfl rfl
    rwa [hset] at hchanges

/-- A record is put in front of the chain. -/
theorem queueProgressOwnerRestore_changes (h : Inv s chain) (hd : s.dialogs d = some state)
    (hpending : state.ownerRestorePending = false) (hplatform : state.platform ≠ none)
    (hhandle : ∀ data, state.platform = some data → data.handle = false) :
    Changes s (queueProgressOwnerRestore s d state) d state
      { state with ownerRestorePending := true } chain (d :: chain) := by
  have hmem : d ∉ chain := fun hmem => by
    obtain ⟨state', hd', hpending'⟩ := (h.pending d).1 hmem
    obtain rfl := Option.some.inj (hd.symm.trans hd')
    rw [hpending] at hpending'
    cases hpending'
  rw [queueProgressOwnerRestore, if_neg (by simp [hpending])]
  exact {
    before := hd
    after := by simp [setDialog]
    others := fun e he => by simp [setDialog, he]
    owner := rfl
    ok := {
      pending := fun _ => hplatform
      data := fun data hdata =>
        { (h.ok d state hd).data data hdata with pending := fun _ => hhandle data hdata } }
    registry := h.registry
    registered := (h.registered d).trans (by simp [hd, ProgressDialogState.registered])
    otherRegistered := fun _ _ => Iff.rfl
    carries := h.carries.push hmem
    nodup := List.nodup_cons.2 ⟨hmem, h.nodup⟩
    pending := by simp
    otherPending := fun e he => by simp [he]
    windows := rfl
    nextDialogId := rfl
    nextWindowId := rfl
    outcomes := rfl }

/-! ## The close -/

/-- What no operation on a dialog changes, beside the windows. -/
structure Keeps (s t : State) : Prop where
  nextDialogId : t.nextDialogId = s.nextDialogId
  nextWindowId : t.nextWindowId = s.nextWindowId
  deferred : t.deferred = s.deferred
  owned : t.owned = s.owned
  owners : ∀ e, (t.dialogs e).map (·.ownerId) = (s.dialogs e).map (·.ownerId)

theorem Keeps.refl (s : State) : Keeps s s := ⟨rfl, rfl, rfl, rfl, fun _ => rfl⟩

theorem Keeps.trans (h : Keeps s t) (h' : Keeps t u) : Keeps s u :=
  ⟨h'.nextDialogId.trans h.nextDialogId, h'.nextWindowId.trans h.nextWindowId,
    h'.deferred.trans h.deferred, h'.owned.trans h.owned, fun e => (h'.owners e).trans (h.owners e)⟩

theorem Refreshed.keeps (h : Refreshed s t) : Keeps s t :=
  ⟨h.nextDialogId, h.nextWindowId, h.deferred, h.owned, fun e => by rw [h.dialogs]⟩

theorem Changes.keeps {old new : ProgressDialogState} {chain' : List DialogId}
    (h : Changes s t d old new chain chain') (hdeferred : t.deferred = s.deferred)
    (howned : t.owned = s.owned) : Keeps s t :=
  ⟨h.nextDialogId, h.nextWindowId, hdeferred, howned, fun e => by
    by_cases he : e = d
    · subst he
      rw [h.before, h.after, Option.map_some, Option.map_some, h.owner]
    · rw [h.others e he]⟩

/-- What a close of a dialog of the owner does, finished or not. -/
structure Closes (s t : State) (d : DialogId) (owner : Option WindowId) (restoreOwner closed : Bool) :
    Prop where
  keeps : Keeps s t
  platform : closed = true → ∃ state, t.dialogs d = some state ∧ state.platform = none
  registry : t.progressDialogs = s.progressDialogs ∨ t.progressDialogs = s.progressDialogs.erase d
  untouched : restoreOwner = false → Untouched s t
  idle : Idle s → Idle t
  unrelated : ∀ w, owner ≠ some w → Safe s w → Safe t w
  safe : restoreOwner = true → Idle s → ∀ w, Safe s w → Safe t w

/-- Behind `destroyHandle` the dialog leaves the registry. -/
theorem retire_changes {data data' : ProgressDialogData} (h : Inv s chain)
    (hd : s.dialogs d = some state) (hdata : state.platform = some data)
    (hregistered : data'.registered = data.registered) (hhandle : data'.handle = false)
    (howner : data'.nativeOwner = data.nativeOwner) (middle : Option ProgressDialogState) :
    Changes s (retire (setDialog s d middle) d state data').1 d state
      (retire (setDialog s d middle) d state data').2 chain chain where
  before := hd
  after := by simp [retire, setDialog]
  others e he := by
    unfold retire
    split_ifs <;> simp [setDialog, unregisterOpenProgressDialog, he]
  owner := rfl
  ok := {
    pending := fun _ => by simp [retire]
    data := fun new hnew => by
      obtain rfl := Option.some.inj hnew
      have hok := (h.ok d state hd).data data hdata
      exact {
        handle := nofun
        live := nofun
        blocking := nofun
        destroying := fun hlive => absurd (hhandle.symm.trans hlive) (by simp)
        pending := fun _ => hhandle
        owner := fun w window native hw hwindow hnative =>
          howner.trans (hok.owner w window native hw hwindow hnative) } }
  registry := by
    unfold retire
    split_ifs
    · exact h.registry.erase d
    · exact h.registry
  registered := by
    have hnew : (retire (setDialog s d middle) d state data').2.registered = false := rfl
    rw [hnew]
    refine iff_of_false ?_ (by simp)
    unfold retire
    split_ifs with hreg
    · exact h.registry.not_mem_erase
    · intro hmem
      obtain ⟨state', hd', hreg'⟩ := (h.registered d).1 hmem
      obtain rfl := Option.some.inj (hd.symm.trans hd')
      rw [ProgressDialogState.registered, hdata] at hreg'
      exact hreg (hregistered.trans hreg')
  otherRegistered e he := by
    unfold retire
    split_ifs
    · exact List.mem_erase_of_ne he
    · exact Iff.rfl
  carries := by unfold retire; split_ifs <;> exact h.carries
  nodup := h.nodup
  pending := (h.pending d).trans (by simp [hd, retire])
  otherPending _ _ := Iff.rfl
  windows := by unfold retire; split_ifs <;> rfl
  nextDialogId := by unfold retire; split_ifs <;> rfl
  nextWindowId := by unfold retire; split_ifs <;> rfl
  outcomes := by unfold retire; split_ifs <;> rfl

theorem retire_rest {data : ProgressDialogData} (s : State) :
    (retire s d state data).1.deferred = s.deferred ∧ (retire s d state data).1.owned = s.owned ∧
      ((retire s d state data).1.progressDialogs = s.progressDialogs ∨
        (retire s d state data).1.progressDialogs = s.progressDialogs.erase d) := by
  unfold retire
  split_ifs
  · exact ⟨rfl, rfl, .inr rfl⟩
  · exact ⟨rfl, rfl, .inl rfl⟩

/-- The class reference and the platform of a dialog that blocks nobody are given up, or kept. -/
theorem releaseNative_spec (h : Inv s chain)
    (hd : s.dialogs d = some state) (hpending : state.ownerRestorePending = false)
    (hregistered : state.registered = false) (hblocking : state.blocking = false)
    (data : ProgressDialogData) (owner : Option WindowId) (restoreOwner : Bool) :
    Inv (releaseNative s d state data).1 chain ∧
      Closes s (releaseNative s d state data).1 d owner restoreOwner
        (releaseNative s d state data).2 := by
  have hnot : ∀ w, ¬ Obliges state w := fun w ⟨_, hobliges⟩ => by
    rcases hobliges with hobliges | hobliges
    · exact absurd (hpending.symm.trans hobliges) (by simp)
    · exact absurd (hblocking.symm.trans hobliges) (by simp)
  -- the change of the dialog itself, behind answers that only refresh
  have hset : ∀ (s' : State) (platform : Option ProgressDialogData), Refreshed s s' →
      Untouched s s' → (platform = none ∨ platform = state.platform) → ∀ closed : Bool,
      (closed = true → platform = none) →
      let new := { state with nativeDestroyedPendingFinalize := true, platform := platform }
      Inv (setDialog s' d (some new)) chain ∧
        Closes s (setDialog s' d (some new)) d owner restoreOwner closed := by
    intro s' platform hr huntouched hplatform closed hclosed new
    have hd' : s'.dialogs d = some state := hr.dialogs ▸ hd
    have hinv := h.refreshed hr
    have hnewRegistered : new.registered = false := by
      rcases hplatform with rfl | rfl
      · rfl
      · exact hregistered
    have hok : StateOk s'.windows new := by
      refine ⟨fun hp => absurd (hpending.symm.trans hp) (by simp), fun data hdata => ?_⟩
      rcases hplatform with rfl | rfl
      · cases hdata
      · have hdataOk := (hinv.ok d state hd').data data hdata
        have hdataRegistered : data.registered = false := by
          simpa [ProgressDialogState.registered, show state.platform = some data from hdata]
            using hregistered
        exact { hdataOk with
          live := fun hreg => absurd (hdataRegistered.symm.trans hreg) (by simp) }
    have hchanges : Changes s' (setDialog s' d (some new)) d state new chain chain :=
      .of_setDialog hinv hd' rfl hok (hnewRegistered.trans hregistered.symm) rfl
    refine ⟨hinv.changes hchanges, ?_⟩
    have hsafe : ∀ w, Safe s w → Safe (setDialog s' d (some new)) w := fun w hw =>
      (hw.refreshed hr).changes hd' hchanges.after hchanges.others rfl
        fun hobliges => absurd hobliges (hnot w)
    exact {
      keeps := hr.keeps.trans (hchanges.keeps rfl rfl)
      platform := fun hc => ⟨new, by simp [setDialog], hclosed hc⟩
      registry := .inl hr.progressDialogs
      untouched := fun _ => huntouched.trans hchanges.untouched
      idle := fun hidle w window hw => (hidle.refreshed hr) w window hw
      unrelated := fun w _ hw => hsafe w hw
      safe := fun _ _ w hw => hsafe w hw }
  unfold releaseNative
  dsimp only
  have hreleased := releaseProgressClass_untouched s
  split_ifs
  · exact hset _ none (releaseProgressClass_refreshed s) hreleased (.inl rfl) true fun _ => rfl
  · exact hset _ state.platform (releaseProgressClass_refreshed s) hreleased (.inr rfl) false nofun
  · exact hset s none (.refl s) (.refl s) (.inl rfl) true fun _ => rfl

/-- Part of a close in which the windows are only refreshed and the dialog only changes. -/
theorem Closes.of_changes {old new : ProgressDialogState} {chain' : List DialogId}
    (hr : Refreshed s t) (huntouched : Untouched s t) (hc : Changes t u d old new chain chain')
    (hdeferred : u.deferred = t.deferred) (howned : u.owned = t.owned)
    (hregistry : u.progressDialogs = t.progressDialogs ∨ u.progressDialogs = t.progressDialogs.erase d)
    {owner : Option WindowId} {restoreOwner : Bool}
    (hobliges : ∀ w, owner ≠ some w ∨ restoreOwner = true → Obliges old w → Obliges new w) :
    Closes s u d owner restoreOwner false where
  keeps := hr.keeps.trans (hc.keeps hdeferred howned)
  platform := nofun
  registry := by rwa [hr.progressDialogs] at hregistry
  untouched _ := huntouched.trans hc.untouched
  idle hidle w window hw := (hidle.refreshed hr) w window (hc.windows ▸ hw)
  unrelated w hw hsafe :=
    (hsafe.refreshed hr).changes hc.before hc.after hc.others hc.windows (hobliges w (.inl hw))
  safe hrestore _ w hsafe :=
    (hsafe.refreshed hr).changes hc.before hc.after hc.others hc.windows
      (hobliges w (.inr hrestore))

/-- The close behind the retirement of the dialog. -/
theorem closeRetired_spec {old new : ProgressDialogState} {data : ProgressDialogData}
    (h : Inv s chain) (hr : Refreshed s t) (huntouched : Untouched s t)
    (hc : Changes t u d old new chain chain) (hdeferred : u.deferred = t.deferred)
    (howned : u.owned = t.owned)
    (hregistry : u.progressDialogs = t.progressDialogs ∨ u.progressDialogs = t.progressDialogs.erase d)
    (hpending : old.ownerRestorePending = false) (hnewPending : new.ownerRestorePending = false)
    (hdata : new.platform = some data) (hhandle : data.handle = false)
    (hregistered : data.registered = false) (hblocking : data.blockingOwner = false)
    (native : ProgressDialogData) (restoreOwner : Bool) :
    let result := closeRetired u d new native old.blocking restoreOwner
    ∃ chain', Inv result.1 chain' ∧ Closes s result.1 d old.ownerId restoreOwner result.2 := by
  intro result
  let restored :=
    if old.blocking && restoreOwner then restoreOwnerAfterRemoval u new else (u, true)
  have hinv : Inv u chain := (h.refreshed hr).changes hc
  have hnewOk := hinv.ok d new hc.after
  have hnewBlocking : new.blocking = false := by
    simp [ProgressDialogState.blocking, hdata, hblocking]
  have hnewRegistered : new.registered = false := by
    simp [ProgressDialogState.registered, hdata, hregistered]
  -- what the restoration does
  have hrestored : Refreshed u restored.1 := by
    unfold restored
    split_ifs
    · exact (restoreOwnerAfterRemoval_spec hnewOk).1
    · exact .refl u
  have hsame : restoreOwner = false → Untouched u restored.1 := by
    intro hno
    simp only [restored, hno, Bool.and_false, Bool.false_eq_true, if_false]
    exact .refl u
  have hidle : Idle s → Idle u := fun hidle w window hw =>
    (hidle.refreshed hr) w window (hc.windows ▸ hw)
  have hkeeps : Keeps s u := hr.keeps.trans (hc.keeps hdeferred howned)
  have hunrelated : ∀ w, old.ownerId ≠ some w → Safe s w → Safe restored.1 w := fun w hw hsafe =>
    ((hsafe.refreshed hr).changes hc.before hc.after hc.others hc.windows
      fun hobliges => absurd hobliges.1 hw).refreshed hrestored
  have hd : restored.1.dialogs d = some new := hrestored.dialogs ▸ hc.after
  have hrestoredInv := hinv.refreshed hrestored
  have hregistry' : restored.1.progressDialogs = s.progressDialogs ∨
      restored.1.progressDialogs = s.progressDialogs.erase d := by
    rw [hrestored.progressDialogs, ← hr.progressDialogs]
    exact hregistry
  cases hok : restored.2 with
  | true =>
    have hresult : result = releaseNative restored.1 d new native := if_pos hok
    rw [hresult]
    obtain ⟨hfinalInv, hfinal⟩ := releaseNative_spec hrestoredInv hd hnewPending hnewRegistered
      hnewBlocking native old.ownerId restoreOwner
    refine ⟨chain, hfinalInv, ?_⟩
    exact {
      keeps := (hkeeps.trans hrestored.keeps).trans hfinal.keeps
      platform := hfinal.platform
      registry := by
        have hnot : d ∉ restored.1.progressDialogs := fun hmem => by
          obtain ⟨state, hstate, hreg⟩ := (hrestoredInv.registered d).1 hmem
          obtain rfl := Option.some.inj (hd.symm.trans hstate)
          rw [hnewRegistered] at hreg
          cases hreg
        rcases hfinal.registry with hreg | hreg
        · rwa [hreg]
        · rwa [hreg, List.erase_of_not_mem hnot]
      untouched := fun hno =>
        ((huntouched.trans hc.untouched).trans (hsame hno)).trans (hfinal.untouched hno)
      idle := fun hs => hfinal.idle ((hidle hs).refreshed hrestored)
      unrelated := fun w hw hsafe => hfinal.unrelated w hw (hunrelated w hw hsafe)
      safe := fun hyes hs w hsafe => by
        refine hfinal.safe hyes ((hidle hs).refreshed hrestored) w ?_
        by_cases hobliges : Obliges old w
        · -- the owner of a blocking dialog has been restored
          obtain ⟨howner, hreason⟩ := hobliges
          have hblocked : old.blocking = true :=
            hreason.resolve_left (by simp [hpending])
          have hrestore : restored = restoreOwnerAfterRemoval u new := by
            simp [restored, hblocked, hyes]
          rw [hrestore] at hok hrestoredInv ⊢
          have hrelieved := (restoreOwnerAfterRemoval_spec hnewOk).2 hok (by simp [hdata])
            (hidle hs) w (hc.owner.trans howner)
          exact hrelieved.safe hrestoredInv
        · exact ((hsafe.refreshed hr).changes hc.before hc.after hc.others hc.windows
            fun h => absurd h hobliges).refreshed hrestored }
  | false =>
    have hresult : result = (queueProgressOwnerRestore restored.1 d new, false) := by
      change (if restored.2 = true then releaseNative restored.1 d new native
        else (queueProgressOwnerRestore restored.1 d new, false)) = _
      rw [hok, if_neg Bool.false_ne_true]
    rw [hresult]
    have hqueued := queueProgressOwnerRestore_changes hrestoredInv hd hnewPending (by simp [hdata])
      fun data' hdata' => by
        obtain rfl := Option.some.inj (hdata.symm.trans hdata')
        exact hhandle
    have hrest : (queueProgressOwnerRestore restored.1 d new).deferred = restored.1.deferred ∧
        (queueProgressOwnerRestore restored.1 d new).owned = restored.1.owned ∧
        (queueProgressOwnerRestore restored.1 d new).progressDialogs =
          restored.1.progressDialogs := by
      unfold queueProgressOwnerRestore
      split_ifs <;> exact ⟨rfl, rfl, rfl⟩
    have hyes : restoreOwner = true := by
      by_contra hno
      have : restored = (u, true) := by simp [restored, hno]
      rw [this] at hok
      cases hok
    refine ⟨d :: chain, hrestoredInv.changes hqueued, ?_⟩
    exact {
      keeps := (hkeeps.trans hrestored.keeps).trans (hqueued.keeps hrest.1 hrest.2.1)
      platform := nofun
      registry := by
        rw [hrest.2.2]
        exact hregistry'
      untouched := fun hno => absurd (hyes.symm.trans hno) (by simp)
      idle := fun hs w window hw =>
        ((hidle hs).refreshed hrestored) w window (hqueued.windows ▸ hw)
      unrelated := fun w hw hsafe => (hunrelated w hw hsafe).changes hqueued.before hqueued.after
        hqueued.others hqueued.windows fun hobliges => absurd (hc.owner.symm.trans hobliges.1) hw
      safe := fun _ _ w hsafe => by
        have hsafe := hsafe.refreshed hr
        intro window hw hwindowHandle hinteraction hdisabled
        rw [hqueued.windows] at hw
        obtain ⟨before, hbefore, hh, hi, -, he⟩ := hrestored.window hw
        rw [hc.windows] at hbefore
        have hdisabledBefore : before.enabled = false := by
          rcases he with he | he
          · exact he ▸ hdisabled
          · exact absurd (hdisabled.symm.trans (he.trans hinteraction)) (by simp)
        obtain ⟨e, state, hstate, hobliges⟩ :=
          hsafe before hbefore (hh ▸ hwindowHandle) (hi ▸ hinteraction) hdisabledBefore
        by_cases hed : e = d
        · subst hed
          obtain rfl := Option.some.inj (hc.before.symm.trans hstate)
          exact ⟨e, _, hqueued.after, hc.owner.trans hobliges.1, .inl rfl⟩
        · refine ⟨e, state, ?_, hobliges⟩
          rw [hqueued.others e hed, hrestored.dialogs, hc.others e hed]
          exact hstate }

theorem setDialog_self (hd : s.dialogs d = some state) : setDialog s d (some state) = s := by
  unfold setDialog
  rw [← hd, Function.update_eq_self]

theorem closeNative_spec (h : Inv s chain) (hd : s.dialogs d = some state)
    (hpending : state.ownerRestorePending = false) (restoreOwner : Bool) :
    ∃ chain', Inv (closeNative s d state restoreOwner).1 chain' ∧
      Closes s (closeNative s d state restoreOwner).1 d state.ownerId restoreOwner
        (closeNative s d state restoreOwner).2 := by
  unfold closeNative
  split
  · -- nothing native is left
    rename_i hnone
    have hc : Changes s (setDialog s d
        (some { state with nativeDestroyedPendingFinalize := true })) d state
        { state with nativeDestroyedPendingFinalize := true } chain chain := by
      refine .of_setDialog h hd rfl ⟨fun hp => ?_, fun data hdata => ?_⟩ rfl rfl
      · exact absurd (hpending.symm.trans hp) (by simp)
      · exact absurd (hnone.symm.trans hdata) (by simp)
    have hcloses : Closes s _ d state.ownerId restoreOwner false :=
      .of_changes (.refl s) (.refl s) hc rfl rfl (.inl rfl) fun _ _ hobliges => hobliges
    exact ⟨chain, h.changes hc, { hcloses with platform := fun _ => ⟨_, hc.after, hnone⟩ }⟩
  · rename_i data hdata
    have hdataOk := (h.ok d state hd).data data hdata
    have hblockingEq : state.blocking = data.blockingOwner := by
      simp [ProgressDialogState.blocking, hdata]
    unfold destroyHandle
    by_cases hhandle : data.handle = true
    · rw [if_pos hhandle]
      dsimp only
      by_cases hdestroyed : (destroyWindow s).2 = true
      · -- the window is destroyed, and its handle gone
        rw [if_pos hdestroyed]
        dsimp only
        rw [if_pos rfl]
        have hc := retire_changes (h.refreshed (destroyWindow_refreshed s)) hd hdata
          (show ({ data with handle := false, destroying := true } :
            ProgressDialogData).registered = data.registered from rfl) rfl rfl
          (some { state with platform := some { data with handle := false, destroying := true } })
        obtain ⟨hdeferred, howned, hregistry⟩ := @retire_rest d state
          { data with handle := false, destroying := true } (setDialog (destroyWindow s).1 d
            (some { state with platform := some { data with handle := false, destroying := true } }))
        have hspec := closeRetired_spec h (destroyWindow_refreshed s) (destroyWindow_untouched s) hc hdeferred howned
          hregistry hpending hpending rfl rfl rfl rfl
          { data with handle := false, destroying := true } restoreOwner
        rw [hblockingEq] at hspec
        exact hspec
      · -- the window is still there
        rw [if_neg hdestroyed]
        dsimp only
        rw [if_neg Bool.false_ne_true]
        have hc : Changes (destroyWindow s).1 (setDialog (destroyWindow s).1 d
            (some { state with platform := some { data with destroying := false } })) d state
            { state with platform := some { data with destroying := false } } chain chain := by
          refine .of_setDialog (h.refreshed (destroyWindow_refreshed s)) hd rfl
            ⟨fun _ => by simp, fun new hnew => ?_⟩ ?_ rfl
          · obtain rfl := Option.some.inj hnew
            exact { hdataOk with destroying := fun _ => rfl }
          · simp [ProgressDialogState.registered, hdata]
        refine ⟨chain, (h.refreshed (destroyWindow_refreshed s)).changes hc,
          .of_changes (destroyWindow_refreshed s) (destroyWindow_untouched s) hc rfl rfl (.inl rfl) fun w _ hobliges => ?_⟩
        refine ⟨hobliges.1, hobliges.2.imp_right fun hblocking => ?_⟩
        simpa [ProgressDialogState.blocking, hdata] using hblocking
    · -- the handle is gone already
      rw [if_neg hhandle]
      dsimp only
      rw [if_pos rfl]
      have hhandle : data.handle = false := by simpa using hhandle
      have hc := retire_changes h hd hdata rfl hhandle rfl (some state)
      rw [setDialog_self hd] at hc
      obtain ⟨hdeferred, howned, hregistry⟩ := @retire_rest d state data s
      have hspec := closeRetired_spec h (.refl s) (.refl s) hc hdeferred howned hregistry hpending hpending
        rfl hhandle rfl rfl data restoreOwner
      rw [hblockingEq] at hspec
      exact hspec

/-- **The close of a dialog.** It keeps the invariant whatever the native calls answer, and leaves
no window disabled, but for the owner when it is not to be restored. -/
theorem finalizeNative_spec (h : Inv s chain) (hd : s.dialogs d = some state) (restoreOwner : Bool) :
    ∃ t closed chain', finalizeNative s d restoreOwner = some (t, closed) ∧ Inv t chain' ∧
      Closes s t d state.ownerId restoreOwner closed := by
  unfold finalizeNative
  rw [hd, Option.bind_some]
  have hok := h.ok d state hd
  dsimp only
  -- the pending restoration
  generalize hrestored : (if state.ownerRestorePending && restoreOwner then
    restoreOwnerAfterRemoval s state else (s, true)) = restored
  have hr : Refreshed s restored.1 := by
    rw [← hrestored]
    split_ifs
    · exact (restoreOwnerAfterRemoval_spec hok).1
    · exact .refl s
  have hsame : restoreOwner = false → Untouched s restored.1 := by
    intro hno
    rw [← hrestored, if_neg (by simp [hno])]
    exact .refl s
  have hinv := h.refreshed hr
  have hd' : restored.1.dialogs d = some state := hr.dialogs ▸ hd
  obtain ⟨restoredState, closed⟩ := restored
  dsimp only at *
  cases closed with
  | false =>
    refine ⟨restoredState, false, chain, rfl, hinv, ?_⟩
    exact {
      keeps := hr.keeps
      platform := nofun
      registry := .inl hr.progressDialogs
      untouched := hsame
      idle := fun hidle => hidle.refreshed hr
      unrelated := fun w _ hw => hw.refreshed hr
      safe := fun _ _ w hw => hw.refreshed hr }
  | true =>
    obtain ⟨cancelled, chain', hcancel, hc, hregistry, hdeferred, howned⟩ :=
      cancelProgressOwnerRestore_spec hinv hd'
    have hcancelled := hinv.changes hc
    obtain ⟨chain'', hfinalInv, hfinal⟩ := closeNative_spec hcancelled hc.after rfl restoreOwner
    refine ⟨_, _, chain'', by rw [if_pos rfl, hcancel, Option.map_some], hfinalInv, ?_⟩
    have hnoOwner : ∀ w, state.ownerId ≠ some w → Safe s w → Safe cancelled w := fun w hw hsafe =>
      (hsafe.refreshed hr).changes hc.before hc.after hc.others hc.windows
        fun hobliges => absurd hobliges.1 hw
    have hidle : Idle s → Idle cancelled := fun hidle w window hw =>
      (hidle.refreshed hr) w window (hc.windows ▸ hw)
    exact {
      keeps := (hr.keeps.trans (hc.keeps hdeferred howned)).trans hfinal.keeps
      platform := hfinal.platform
      registry := by
        rw [← hr.progressDialogs, ← hregistry]
        exact hfinal.registry
      untouched := fun hno => ((hsame hno).trans hc.untouched).trans (hfinal.untouched hno)
      idle := fun hs => hfinal.idle (hidle hs)
      unrelated := fun w hw hsafe => hfinal.unrelated w hw (hnoOwner w hw hsafe)
      safe := fun hyes hs w hsafe => by
        refine hfinal.safe hyes (hidle hs) w ?_
        by_cases hobliges : Obliges state w
        · obtain ⟨howner, hreason⟩ := hobliges
          by_cases hpending : state.ownerRestorePending = true
          · -- the owner has been restored
            rw [if_pos (by simp [hpending, hyes])] at hrestored
            have hrelieved := (restoreOwnerAfterRemoval_spec hok).2 (by rw [hrestored])
              (hok.pending hpending) hs w howner
            rw [hrestored] at hrelieved
            exact hrelieved.changes hinv hc hpending
          · exact (hsafe.refreshed hr).changes hc.before hc.after hc.others hc.windows
              fun _ => ⟨howner, .inr (hreason.resolve_left hpending)⟩
        · exact (hsafe.refreshed hr).changes hc.before hc.after hc.others hc.windows
            fun h => absurd h hobliges }

end

end ProgressDialog

end Desktop

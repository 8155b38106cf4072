import GameWIP.Desktop.Proof.OwnerRestore

/-!
# Runs of progress dialogs and windows

The opens and the closes of windows, and the invariant over every run. Each operation keeps it;
the owners are safe too unless a window close fails and its rollback enables the window in vain
(`RollbackEffective`), for nothing records then that the window is still disabled.
-/

namespace Desktop

namespace ProgressDialog

open Lib (Intrusive Trace Transition)

section
variable {s t u : State} {chain : List DialogId} {w : WindowId} {d : DialogId}
  {state : ProgressDialogState}

/-! ## Windows of a state -/

/-- A window keeps its handle, loses it or is gone. -/
theorem Inv.setWindow (h : Inv s chain) {new : Option WindowState}
    (hnew : ∀ window, new = some window → ∃ old, s.windows w = some old ∧
      ∀ native, window.handle = some native → old.handle = some native) :
    Inv (setWindow s w new) chain where
  carries := h.carries
  nodup := h.nodup
  pending := h.pending
  registry := h.registry
  registered := h.registered
  ok d state hd := by
    refine (h.ok d state hd).of_windows fun w' window native _ hw' hnative => ?_
    by_cases hww : w' = w
    · subst hww
      obtain ⟨old, hold, hhandle⟩ := hnew window (by simpa [ProgressDialog.setWindow] using hw')
      exact ⟨old, hold, hhandle native hnative⟩
    · exact ⟨window, by simpa [ProgressDialog.setWindow, hww] using hw', hnative⟩
  fresh := h.fresh
  owners := h.owners
  windows w' window hw' := by
    by_cases hww : w' = w
    · subst hww
      obtain ⟨old, hold, -⟩ := hnew window (by simpa [ProgressDialog.setWindow] using hw')
      exact h.windows w' old hold
    · exact h.windows w' window (by simpa [ProgressDialog.setWindow, hww] using hw')

/-- Another window, and the dialogs, are as before. -/
theorem Safe.setWindow {w' : WindowId} (h : Safe s w') (hne : w' ≠ w) (new : Option WindowState) :
    Safe (setWindow s w new) w' := fun window hw =>
  h window (by simpa [ProgressDialog.setWindow, hne] using hw)

/-- A window that cannot be left disabled. -/
theorem safe_setWindow {new : Option WindowState}
    (hnew : ∀ window, new = some window → window.handle ≠ none → window.interactionEnabled = true →
      window.enabled = false → Covered s w) : Safe (setWindow s w new) w := fun window hw =>
  hnew window (by simpa [ProgressDialog.setWindow] using hw)

theorem Idle.setWindow (h : ∀ w' ≠ w, ∀ window, s.windows w' = some window →
    window.destroying = false) {new : Option WindowState}
    (hnew : ∀ window, new = some window → window.destroying = false) : Idle (setWindow s w new) := by
  intro w' window hw'
  by_cases hww : w' = w
  · subst hww
    exact hnew window (by simpa [ProgressDialog.setWindow] using hw')
  · exact h w' hww window (by simpa [ProgressDialog.setWindow, hww] using hw')

/-- The answers of an operation do not matter to the invariant. -/
theorem Sound.answers (h : Sound s) (o : Outcomes) : Sound { s with outcomes := o } :=
  ⟨h.inv.imp fun _ h => { h with }, h.idle, ⟨h.held.nodup, h.held.deferred, h.held.owned⟩⟩

/-! ## Opens -/

theorem acquireProgressClass_refreshed (s : State) (alreadyExists : Bool) :
    Refreshed s (acquireProgressClass s alreadyExists) := by
  unfold acquireProgressClass
  split_ifs <;> exact ⟨rfl, rfl, rfl, rfl, rfl, rfl, rfl, fun _ => .inl rfl⟩

/-- The states of an open: what it keeps, and that the dialogs in them are the same. -/
structure Opens (s t : State) : Prop where
  preserves : Preserves s t
  keeps : Keeps s t

theorem Opens.refl (h : Sound s) : Opens s s := ⟨.refl h, .refl s⟩

theorem Opens.trans (h : Opens s t) (h' : Opens t u) : Opens s u :=
  ⟨h.preserves.trans h'.preserves, h.keeps.trans h'.keeps⟩

theorem Refreshed.opens (hr : Refreshed s t) (h : Sound s) : Opens s t := by
  obtain ⟨⟨chain, hinv⟩, hidle, hheld⟩ := h
  exact ⟨hr.preserves hinv hidle hheld, hr.keeps⟩

/-- A change of a dialog that obliges to no less than before. -/
theorem Changes.opens {old new : ProgressDialogState} {chain' : List DialogId}
    (hc : Changes s t d old new chain chain') (h : Sound s) (hinv : Inv s chain)
    (hdeferred : t.deferred = s.deferred) (howned : t.owned = s.owned)
    (hobliges : ∀ w, Obliges old w → Obliges new w) : Opens s t where
  preserves :=
    { sound := ⟨⟨chain', hinv.changes hc⟩, fun w window hw => h.idle w window (hc.windows ▸ hw),
        h.held.keeps (hc.keeps hdeferred howned)⟩
      safe := fun hsafe w =>
        (hsafe w).changes hc.before hc.after hc.others hc.windows (hobliges w) }
  keeps := hc.keeps hdeferred howned

/-- The rollback of an open. -/
theorem rollbackProgressOpenBestEffort_spec (h : Sound s) (hd : s.dialogs d = some state) :
    ∃ t, rollbackProgressOpenBestEffort s d = some (t, false) ∧ Opens s t := by
  obtain ⟨⟨chain, hinv⟩, hidle, hheld⟩ := h
  obtain ⟨t, closed, chain', hfinalize, hinv', hcloses⟩ := finalizeNative_spec hinv hd true
  exact ⟨t, by rw [rollbackProgressOpenBestEffort, hfinalize, Option.map_some],
    hcloses.preserves hinv' hidle hheld, hcloses.keeps⟩

/-- The native owner of a dialog is the handle of its owner. -/
def NativeOwner (s : State) (state : ProgressDialogState) (data : ProgressDialogData) : Prop :=
  ∀ w window h, state.ownerId = some w → s.windows w = some window → window.handle = some h →
    data.nativeOwner = some h

/-- The native side of a state that is being opened. -/
theorem stateOk_new {data : ProgressDialogData} (hnative : NativeOwner s state data)
    (hpending : state.ownerRestorePending = false)
    (hlive : state.nativeDestroyedPendingFinalize = false)
    (hhandle : data.registered = true → data.handle = true) (hblocking : data.blockingOwner = false)
    (hdestroying : data.destroying = false) :
    StateOk s.windows { state with platform := some data } where
  pending hp := absurd (hpending.symm.trans hp) (by simp)
  data new hnew := by
    obtain rfl := Option.some.inj hnew
    exact {
      handle := hhandle
      live := fun _ => hlive
      blocking := fun hb => absurd (hblocking.symm.trans hb) (by simp)
      destroying := fun _ => hdestroying
      pending := fun hp => absurd (hpending.symm.trans hp) (by simp)
      owner := hnative }

theorem registered_changes {data : ProgressDialogData} (h : Inv s chain)
    (hd : s.dialogs d = some state) (hplatform : state.platform = none)
    (hpending : state.ownerRestorePending = false) (hregistered : data.registered = true)
    (hok : StateOk s.windows { state with platform := some data }) :
    Changes s { setDialog s d (some { state with platform := some data }) with
        progressDialogs := s.progressDialogs ++ [d] } d state
      { state with platform := some data } chain chain where
  before := hd
  after := by simp [setDialog]
  others e he := by simp [setDialog, he]
  owner := rfl
  ok := hok
  registry := by
    have hnot := not_mem_of_platform h hd hplatform
    refine List.nodup_append.2 ⟨h.registry, List.nodup_singleton d, fun a ha b hb hab => ?_⟩
    rw [List.mem_singleton] at hb
    exact hnot (hb ▸ hab ▸ ha)
  registered := by simp [ProgressDialogState.registered, hregistered]
  otherRegistered e he := by simp [he]
  carries := h.carries
  nodup := h.nodup
  pending := (h.pending d).trans (by simp [hd, hpending])
  otherPending _ _ := Iff.rfl
  windows := rfl
  nextDialogId := rfl
  nextWindowId := rfl
  outcomes := rfl

/-- The owner is disabled and the dialog says that it blocks it. -/
theorem block_opens {window : WindowState} {data : ProgressDialogData} (h : Sound s)
    (hd : s.dialogs d = some state) (hdata : state.platform = some data)
    (hregistered : data.registered = true) (howner : state.ownerId = some w)
    (hwindow : s.windows w = some window) (hblocks : state.blocksOwner = true)
    (hnative : data.nativeOwner.isSome = true) (answers : Outcomes) :
    Opens s (setDialog (setWindow { s with outcomes := answers } w
      (some { window with enabled := false })) d
        (some { state with platform := some { data with blockingOwner := true } })) := by
  obtain ⟨chain, hinv⟩ := (h.answers answers).inv
  let u := setWindow { s with outcomes := answers } w (some { window with enabled := false })
  have hu : Inv u chain := hinv.setWindow fun new hnew => by
    obtain rfl := Option.some.inj hnew
    exact ⟨window, hwindow, fun _ hnative => hnative⟩
  have hok := hu.ok d state hd
  have hc : Changes u (setDialog u d
      (some { state with platform := some { data with blockingOwner := true } })) d state
      { state with platform := some { data with blockingOwner := true } } chain chain := by
    refine .of_setDialog hu hd rfl ⟨fun _ => by simp, fun new hnew => ?_⟩ ?_ rfl
    · obtain rfl := Option.some.inj hnew
      exact { hok.data data hdata with
        blocking := fun _ => ⟨hregistered, hblocks, by simp [howner], hnative⟩ }
    · simp [ProgressDialogState.registered, hdata]
  have hkeeps : Keeps s u := ⟨rfl, rfl, rfl, rfl, fun _ => rfl⟩
  have hidle : Idle u := Idle.setWindow (fun w' _ => h.idle w') fun new hnew => by
    obtain rfl := Option.some.inj hnew
    exact h.idle w window hwindow
  refine ⟨⟨⟨⟨chain, hu.changes hc⟩, hidle, h.held.keeps (hkeeps.trans (hc.keeps rfl rfl))⟩,
    fun hsafe w' => ?_⟩, hkeeps.trans (hc.keeps rfl rfl)⟩
  by_cases hww : w' = w
  · subst hww
    exact fun _ _ _ _ _ => ⟨d, _, hc.after, howner, .inr rfl⟩
  · have hsafe' : Safe u w' := Safe.setWindow (s := { s with outcomes := answers }) (hsafe w') hww _
    refine hsafe'.changes hc.before hc.after hc.others hc.windows fun hobliges => ?_
    exact absurd (Option.some.inj (howner.symm.trans hobliges.1)) (Ne.symm hww)

theorem blockOwner_spec {data : ProgressDialogData} (h : Sound s) (hd : s.dialogs d = some state)
    (hdata : state.platform = some data) (hregistered : data.registered = true)
    (hnative : state.ownerId ≠ none → data.nativeOwner.isSome = true) (stage : OpenStage) :
    ∃ t opened, blockOwner s d state data stage = some (t, opened) ∧ Opens s t := by
  -- the end of the open
  have hfinish : ∀ {u : State} {state' : ProgressDialogState}, Sound u → u.dialogs d = some state' →
      ∃ t opened, (if stage = .update then rollbackProgressOpenBestEffort u d
        else (u.dialogs d).map fun state =>
          (setDialog u d (some { state with nativeDestroyedPendingFinalize := false }), true)) =
        some (t, opened) ∧ Opens u t := by
    intro u state' hu hd'
    split_ifs
    · obtain ⟨t, ht, hopens⟩ := rollbackProgressOpenBestEffort_spec hu hd'
      exact ⟨t, false, ht, hopens⟩
    · obtain ⟨chain, hinv⟩ := hu.inv
      have hok := hinv.ok d state' hd'
      have hc : Changes u (setDialog u d
          (some { state' with nativeDestroyedPendingFinalize := false })) d state'
          { state' with nativeDestroyedPendingFinalize := false } chain chain :=
        .of_setDialog hinv hd' rfl ⟨hok.pending, fun data' hdata' =>
          { hok.data data' hdata' with live := fun _ => rfl }⟩ rfl rfl
      rw [hd', Option.map_some]
      exact ⟨_, true, rfl, hc.opens hu hinv rfl rfl fun _ hobliges => hobliges⟩
  unfold blockOwner
  dsimp only
  split
  · rename_i w owner howner hresolve
    have hw : s.windows w = some owner := by simpa [resolveWindowId, howner] using hresolve
    by_cases hblocks : state.blocksOwner = true
    · rw [if_pos hblocks]
      by_cases hdisabled : (enableWindow s w owner false).2 = true
      · rw [if_pos hdisabled]
        have henabled : (if s.outcomes.enableWindow.headD true = true then false
            else owner.enabled) = false := beq_iff_eq.1 hdisabled
        have hopens := block_opens h hd hdata hregistered howner hw hblocks
          (hnative (by simp [howner])) { s.outcomes with enableWindow := s.outcomes.enableWindow.tail }
        have hsame : (enableWindow s w owner false).1 = setWindow
            { s with outcomes := { s.outcomes with
              enableWindow := s.outcomes.enableWindow.tail } } w
            (some { owner with enabled := false }) := by
          simp only [enableWindow, henabled]
        rw [hsame]
        obtain ⟨t, opened, ht, hrest⟩ := @hfinish _
          { state with platform := some { data with blockingOwner := true } }
          hopens.preserves.sound (by simp [setDialog])
        exact ⟨t, opened, ht, hopens.trans hrest⟩
      · -- the window is still enabled, as it was
        rw [if_neg hdisabled]
        have henabled : (if s.outcomes.enableWindow.headD true = true then false
            else owner.enabled) = owner.enabled := by
          rw [if_neg]
          intro heffective
          exact hdisabled (beq_iff_eq.2 (if_pos heffective))
        have hr : Refreshed s (enableWindow s w owner false).1 := by
          refine ⟨rfl, rfl, rfl, rfl, rfl, rfl, rfl, fun w' => .inl ?_⟩
          simp only [enableWindow, henabled, setWindow]
          rw [← hw, Function.update_eq_self]
        have hopens := hr.opens h
        obtain ⟨t, ht, hrest⟩ :=
          rollbackProgressOpenBestEffort_spec hopens.preserves.sound (hr.dialogs ▸ hd)
        exact ⟨t, false, ht, hopens.trans hrest⟩
    · rw [if_neg hblocks]
      exact hfinish h hd
  · exact hfinish h hd

theorem acquireProgressClass_windows (s : State) (alreadyExists : Bool) :
    (acquireProgressClass s alreadyExists).windows = s.windows := by
  unfold acquireProgressClass
  split_ifs <;> rfl

/-- Wherever an open fails, or when it does not. -/
theorem openProgress_spec (h : Sound s) (hd : s.dialogs d = some state)
    (hplatform : state.platform = none) (hpending : state.ownerRestorePending = false)
    (hlive : state.nativeDestroyedPendingFinalize = false) (stage : OpenStage)
    (alreadyExists : Bool) :
    ∃ t opened, openProgress s d state stage alreadyExists = some (t, opened) ∧ Opens s t := by
  let u := acquireProgressClass s alreadyExists
  have hr : Refreshed s u := acquireProgressClass_refreshed s alreadyExists
  have hacquired := hr.opens h
  have hd' : u.dialogs d = some state := hr.dialogs ▸ hd
  obtain ⟨chain, hinv⟩ := hacquired.preserves.sound.inv
  let native := (resolveWindowId s state.ownerId).bind (·.handle)
  have hnative : ∀ data : ProgressDialogData, data.nativeOwner = native →
      NativeOwner u state data := by
    intro data hdata w window handle howner hwindow hhandle
    rw [acquireProgressClass_windows] at hwindow
    simp [hdata, native, resolveWindowId, howner, hwindow, hhandle]
  have hnot : ∀ w, ¬ Obliges state w := fun _ =>
    not_obliges_of_platform (hinv.ok d state hd') hplatform
  -- the dialog with a platform that is not registered yet
  have hset : ∀ data : ProgressDialogData, data.nativeOwner = native → data.registered = false →
      data.blockingOwner = false → data.destroying = false →
      Opens s (setDialog u d (some { state with platform := some data })) := by
    intro data hdata hregistered hblocking hdestroying
    have hok := stateOk_new (hnative data hdata) hpending hlive
      (fun hreg => absurd (hregistered.symm.trans hreg) (by simp)) hblocking hdestroying
    have hc : Changes u (setDialog u d (some { state with platform := some data })) d state
        { state with platform := some data } chain chain :=
      .of_setDialog hinv hd' rfl hok
        (by simp [ProgressDialogState.registered, hplatform, hregistered]) rfl
    exact hacquired.trans (hc.opens hacquired.preserves.sound hinv rfl rfl
      fun w hobliges => absurd hobliges (hnot w))
  unfold openProgress
  dsimp only
  split_ifs with hearly hcreate hregister hcontrols hlayout
  · exact ⟨s, false, rfl, .refl h⟩
  · exact ⟨_, false, rfl, hset _ rfl rfl rfl rfl⟩
  · have hopens := hset { nativeOwner := native, classReferenceHeld := true, handle := true }
      rfl rfl rfl rfl
    obtain ⟨t, ht, hrest⟩ := rollbackProgressOpenBestEffort_spec (d := d) hopens.preserves.sound
      (Function.update_self d _ _)
    exact ⟨t, false, ht, hopens.trans hrest⟩
  all_goals
    let data : ProgressDialogData :=
      { nativeOwner := native, classReferenceHeld := true, handle := true, registered := true }
    have hok := stateOk_new (hnative data rfl) hpending hlive (fun _ => rfl) rfl rfl
    have hc := registered_changes hinv hd' hplatform hpending
      (show data.registered = true from rfl) hok
    have hopens := hacquired.trans (hc.opens hacquired.preserves.sound hinv rfl rfl
      fun w hobliges => absurd hobliges (hnot w))
  · exact ⟨_, false, rfl, hopens⟩
  · obtain ⟨t, ht, hrest⟩ := rollbackProgressOpenBestEffort_spec hopens.preserves.sound hc.after
    exact ⟨t, false, ht, hopens.trans hrest⟩
  · have hhandle : state.ownerId ≠ none → data.nativeOwner.isSome = true := by
      intro howner
      rw [not_or, not_or, not_and] at hearly
      exact Option.isSome_iff_ne_none.2 (hearly.2.1 howner)
    obtain ⟨t, opened, ht, hrest⟩ :=
      blockOwner_spec hopens.preserves.sound hc.after rfl rfl hhandle stage
    exact ⟨t, opened, ht, hopens.trans hrest⟩

/-- A new state. -/
theorem preserves_alloc (h : Sound s) (hplatform : state.platform = none)
    (hpending : state.ownerRestorePending = false)
    (howner : ∀ w, state.ownerId = some w → w < s.nextWindowId) :
    Preserves s { setDialog s s.nextDialogId (some state) with
      nextDialogId := s.nextDialogId + 1 } := by
  obtain ⟨⟨chain, hinv⟩, hidle, hheld⟩ := h
  have hnone : s.dialogs s.nextDialogId = none := by
    by_contra hsome
    obtain ⟨other, hother⟩ := Option.ne_none_iff_exists'.1 hsome
    exact Nat.lt_irrefl _ (hinv.fresh _ other hother)
  have hothers : ∀ {e : DialogId} {other : ProgressDialogState},
      (setDialog s s.nextDialogId (some state)).dialogs e = some other →
        e = s.nextDialogId ∧ other = state ∨ e ≠ s.nextDialogId ∧ s.dialogs e = some other := by
    intro e other he
    by_cases hed : e = s.nextDialogId
    · left
      subst hed
      exact ⟨rfl, by simpa [setDialog] using he.symm⟩
    · exact .inr ⟨hed, by simpa [setDialog, hed] using he⟩
  refine ⟨⟨⟨chain, ?_⟩, hidle, ?_⟩, fun hsafe w window hw hhandle hinteraction hdisabled => ?_⟩
  · exact {
      carries := hinv.carries
      nodup := hinv.nodup
      pending := fun e => by
        by_cases hed : e = s.nextDialogId
        · subst hed
          rw [hinv.pending, hnone]
          simp [setDialog, hpending]
        · simpa [setDialog, hed] using hinv.pending e
      registry := hinv.registry
      registered := fun e => by
        by_cases hed : e = s.nextDialogId
        · subst hed
          refine (hinv.registered _).trans ?_
          rw [hnone]
          simp [setDialog, ProgressDialogState.registered, hplatform]
        · simpa [setDialog, hed] using hinv.registered e
      ok := fun e other he => by
        rcases hothers he with ⟨-, rfl⟩ | ⟨-, he⟩
        · exact ⟨fun hp => absurd (hpending.symm.trans hp) (by simp),
            fun data hdata => absurd (hplatform.symm.trans hdata) (by simp)⟩
        · exact hinv.ok e other he
      fresh := fun e other he => by
        rcases hothers he with ⟨rfl, -⟩ | ⟨-, he⟩
        · exact Nat.lt_succ_self _
        · exact Nat.lt_succ_of_lt (hinv.fresh e other he)
      owners := fun e other w he hw => by
        rcases hothers he with ⟨-, rfl⟩ | ⟨-, he⟩
        · exact howner w hw
        · exact hinv.owners e other w he hw
      windows := hinv.windows }
  · have halive : ∀ {e : DialogId}, s.dialogs e ≠ none →
        (setDialog s s.nextDialogId (some state)).dialogs e ≠ none := by
      intro e he
      have hed : e ≠ s.nextDialogId := fun hed => he (hed ▸ hnone)
      simpa [setDialog, hed] using he
    exact ⟨hheld.nodup, fun e he => ⟨(hheld.deferred e he).1, halive (hheld.deferred e he).2⟩,
      fun e he => halive (hheld.owned e he)⟩
  · obtain ⟨e, other, he, hobliges⟩ := hsafe w window hw hhandle hinteraction hdisabled
    have hed : e ≠ s.nextDialogId := fun hed => by
      rw [hed, hnone] at he
      cases he
    exact ⟨e, other, by simpa [setDialog, hed] using he, hobliges⟩

theorem open_spec {owner : Option WindowId} {blocksOwner alreadyExists : Bool} {stage : OpenStage}
    (h : Sound s) (hs : «open» s owner blocksOwner stage alreadyExists = some t) :
    Preserves s t := by
  unfold «open» at hs
  dsimp only at hs
  split_ifs at hs with howner
  obtain ⟨chain, hinv⟩ := h.inv
  let state : ProgressDialogState := { ownerId := owner, blocksOwner := blocksOwner }
  have halloc : Preserves s { setDialog s s.nextDialogId (some state) with
      nextDialogId := s.nextDialogId + 1 } := by
    refine preserves_alloc h rfl rfl fun w hw => ?_
    rw [show owner = some w from hw, Option.all_some] at howner
    obtain ⟨window, hwindow, -⟩ := (Option.any_eq_true _ _).1 howner
    exact hinv.windows w window hwindow
  have hstate : Function.update s.dialogs s.nextDialogId (some state) s.nextDialogId = some state :=
    Function.update_self _ _ _
  obtain ⟨r, opened, hopen, hopens⟩ :=
    openProgress_spec halloc.sound hstate rfl rfl rfl stage alreadyExists
  have hopened := halloc.trans hopens.preserves
  have hheld := hopens.preserves.sound.held
  -- the state is on no list yet
  have hnot : s.nextDialogId ∉ r.deferred := fun hmem => by
    rw [hopens.keeps.deferred] at hmem
    obtain ⟨other, hother⟩ := Option.ne_none_iff_exists'.1 (h.held.deferred _ hmem).2
    exact Nat.lt_irrefl _ (hinv.fresh _ other hother)
  obtain ⟨new, hnew⟩ := hopens.keeps.exists_state hstate
  rw [hopen, Option.bind_some] at hs
  dsimp only at hs
  split_ifs at hs
  · obtain rfl := Option.some.inj hs
    refine ⟨⟨hopened.sound.inv.imp fun _ h => { h with }, hopened.sound.idle, ?_⟩, hopened.safe⟩
    exact {
      nodup := hheld.nodup
      deferred := fun e he => by
        have hed : e ≠ s.nextDialogId := fun hed => hnot (hed ▸ he)
        simpa [hed] using hheld.deferred e he
      owned := fun e he => by
        by_cases hed : e = s.nextDialogId
        · subst hed
          simp [hnew]
        · exact hheld.owned e (by simpa [hed] using he) }
  · obtain ⟨⟨chain', hinv'⟩, hidle, -⟩ := hopens.preserves.sound
    obtain ⟨t', ht', hclosed⟩ := closeOrDefer_spec hinv' hidle hheld hnew hnot
    obtain rfl := Option.some.inj (ht'.symm.trans hs)
    exact hopened.trans hclosed

/-! ## Windows -/

theorem openWindow_preserves (h : Sound s) (handle : NativeHandle) (interactionEnabled : Bool) :
    Preserves s (openWindow s handle interactionEnabled) := by
  obtain ⟨⟨chain, hinv⟩, hidle, hheld⟩ := h
  have hother : ∀ {w : WindowId} {window : WindowState},
      (openWindow s handle interactionEnabled).windows w = some window → w ≠ s.nextWindowId →
        s.windows w = some window := by
    intro w window hw hne
    simpa [openWindow, setWindow, hne] using hw
  have hnew : ∀ {window : WindowState},
      (openWindow s handle interactionEnabled).windows s.nextWindowId = some window →
        window = ⟨some handle, interactionEnabled, interactionEnabled, false⟩ := by
    intro window hw
    simpa [openWindow, setWindow] using hw.symm
  refine ⟨⟨⟨chain, ?_⟩, fun w window hw => ?_, ⟨hheld.nodup, hheld.deferred, hheld.owned⟩⟩,
    fun hsafe w window hw => ?_⟩
  · exact { hinv with
      ok := fun d state hd => by
        refine (hinv.ok d state hd).of_windows fun w window native howner hw hnative => ?_
        exact ⟨window, hother hw (Nat.ne_of_lt (hinv.owners d state w hd howner)), hnative⟩
      owners := fun d state w hd howner =>
        Nat.lt_succ_of_lt (hinv.owners d state w hd howner)
      windows := fun w window hw => by
        by_cases hne : w = s.nextWindowId
        · exact hne ▸ Nat.lt_succ_self _
        · exact Nat.lt_succ_of_lt (hinv.windows w window (hother hw hne)) }
  · by_cases hne : w = s.nextWindowId
    · subst hne
      rw [hnew hw]
    · exact hidle w window (hother hw hne)
  · by_cases hne : w = s.nextWindowId
    · subst hne
      rw [hnew hw]
      exact fun _ hinteraction hdisabled => absurd (hinteraction.symm.trans hdisabled) (by simp)
    · exact hsafe w window (hother hw hne)

/-- The state of a close of a window, as far as other windows and the dialogs are concerned. -/
structure Closing (s t : State) (w : WindowId) : Prop where
  inv : ∃ chain, Inv t chain
  held : Held t
  idle : ∀ w' ≠ w, ∀ window, t.windows w' = some window → window.destroying = false
  safe : (∀ w', Safe s w') → ∀ w' ≠ w, Safe t w'

theorem Sound.closing (h : Sound s) (w : WindowId) : Closing s s w :=
  ⟨h.inv, h.held, fun w' _ => h.idle w', fun hsafe w' _ => hsafe w'⟩

theorem Closing.setWindow (h : Closing s t w) {new : Option WindowState}
    (hnew : ∀ window, new = some window → ∃ old, t.windows w = some old ∧
      ∀ native, window.handle = some native → old.handle = some native) :
    Closing s (setWindow t w new) w where
  inv := h.inv.imp fun _ hinv => hinv.setWindow hnew
  held := ⟨h.held.nodup, h.held.deferred, h.held.owned⟩
  idle w' hne window hw := h.idle w' hne window (by simpa [ProgressDialog.setWindow, hne] using hw)
  safe hsafe w' hne := (h.safe hsafe w' hne).setWindow hne new

theorem Closing.refreshed (h : Closing s t w) (hr : Refreshed t u) : Closing s u w where
  inv := h.inv.imp fun _ hinv => hinv.refreshed hr
  held := h.held.keeps hr.keeps
  idle w' hne window hw := by
    obtain ⟨before, hbefore, -, -, hdestroying, -⟩ := hr.window hw
    exact hdestroying.trans (h.idle w' hne before hbefore)
  safe hsafe w' hne := (h.safe hsafe w' hne).refreshed hr

theorem Closing.notified (h : Closing s t w) (hn : Notified t u w) : Closing s u w where
  inv := hn.inv
  held := h.held.keeps hn.keeps
  idle w' hne window hw := h.idle w' hne window (hn.untouched.windows ▸ hw)
  safe hsafe w' hne := hn.safe w' hne (h.safe hsafe w' hne)

/-- The end of a close. -/
theorem Closing.sound (h : Closing s t w)
    (hidle : ∀ window, t.windows w = some window → window.destroying = false) : Sound t where
  inv := h.inv
  idle w' window hw := by
    by_cases hne : w' = w
    · exact hidle window (hne ▸ hw)
    · exact h.idle w' hne window hw
  held := h.held

theorem Closing.preserves (h : Closing s t w)
    (hidle : ∀ window, t.windows w = some window → window.destroying = false) (hsafe : Safe t w) :
    Preserves s t where
  sound := h.sound hidle
  safe hall w' := by
    by_cases hne : w' = w
    · exact hne ▸ hsafe
    · exact h.safe hall w' hne

/-- A close that ends with the window gone. -/
theorem Closing.gone (h : Closing s t w) : Preserves s (ProgressDialog.setWindow t w none) := by
  have hclosing : Closing s (ProgressDialog.setWindow t w none) w := h.setWindow nofun
  refine hclosing.preserves (fun window hw => ?_) (safe_setWindow nofun)
  simp [ProgressDialog.setWindow] at hw

theorem ncDestroyWindow_closing (h : Closing s t w) :
    ∃ u, ncDestroyWindow t w = some u ∧ Closing s u w ∧ Safe u w ∧
      ∀ window, u.windows w = some window → ∃ before, t.windows w = some before ∧
        window.destroying = before.destroying := by
  obtain ⟨chain, hinv⟩ := h.inv
  obtain ⟨r, hr, hnotified⟩ := notifyProgressOwnerLossBestEffort_spec hinv w
  refine ⟨_, by rw [ncDestroyWindow, hr, Option.map_some], (h.notified hnotified).setWindow ?_,
    safe_setWindow ?_, ?_⟩
  all_goals
    intro window hwindow
  · obtain ⟨before, hbefore, rfl⟩ := Option.map_eq_some_iff.1 hwindow
    exact ⟨before, hbefore, nofun⟩
  · obtain ⟨before, -, rfl⟩ := Option.map_eq_some_iff.1 hwindow
    exact fun hhandle => absurd rfl hhandle
  · have hwindow : (r.windows w).map (fun window => { window with handle := none }) =
        some window := by simpa [setWindow] using hwindow
    obtain ⟨before, hbefore, rfl⟩ := Option.map_eq_some_iff.1 hwindow
    exact ⟨before, hnotified.untouched.windows ▸ hbefore, rfl⟩

/-- The rollback of a close leaves the window disabled only when `EnableWindow` has no effect. -/
theorem rollbackClose_closing {window : WindowState} (h : Closing s t w)
    (hw : t.windows w = some window) :
    Sound (rollbackClose t w) ∧
      ((window.handle ≠ none → window.interactionEnabled = true → window.enabled = false →
        t.outcomes.enableWindow.headD true = true) → Preserves s (rollbackClose t w)) := by
  let before : WindowState := { window with destroying := false }
  have hbefore : (setWindow t w (some before)).windows w = some before := by simp [setWindow]
  have hclosing : Closing s (setWindow t w (some before)) w := h.setWindow fun new hnew => by
    obtain rfl := Option.some.inj hnew
    exact ⟨window, hw, fun _ hnative => hnative⟩
  unfold rollbackClose
  rw [hw]
  dsimp only
  split_ifs with hguard
  · have hr := enableWindow_refreshed hbefore
    have hidle : ∀ new, (enableWindow (setWindow t w (some before)) w before
        before.interactionEnabled).1.windows w = some new → new.destroying = false := by
      intro new hnew
      obtain ⟨old, hold, -, -, hdestroying, -⟩ := hr.window hnew
      obtain rfl := Option.some.inj (hbefore.symm.trans hold)
      exact hdestroying
    refine ⟨(hclosing.refreshed hr).sound hidle, fun heffective =>
      (hclosing.refreshed hr).preserves hidle (safe_setWindow fun new hnew _ hinteraction hdisabled => ?_)⟩
    obtain rfl := Option.some.inj hnew
    have hinteraction : window.interactionEnabled = true := hinteraction
    have hdisabled : (if t.outcomes.enableWindow.headD true = true then window.interactionEnabled
        else window.enabled) = false := hdisabled
    exfalso
    by_cases hanswer : t.outcomes.enableWindow.headD true = true
    · rw [if_pos hanswer] at hdisabled
      exact absurd (hinteraction.symm.trans hdisabled) (by simp)
    · rw [if_neg hanswer] at hdisabled
      exact hanswer (heffective (Option.isSome_iff_ne_none.1 hguard.1) hinteraction hdisabled)
  · have hidle : ∀ new, (setWindow t w (some before)).windows w = some new →
        new.destroying = false := by
      intro new hnew
      obtain rfl := Option.some.inj (hbefore.symm.trans hnew)
      rfl
    refine ⟨hclosing.sound hidle, fun _ => hclosing.preserves hidle ?_⟩
    obtain ⟨chain, hinv⟩ := hclosing.inv
    refine Relieved.safe (fun new hnew hhandle => .inr ?_) hinv
    obtain rfl := Option.some.inj (hbefore.symm.trans hnew)
    rw [not_and] at hguard
    simpa using hguard (Option.isSome_iff_ne_none.2 hhandle)

/-- The rollback of a window close, when there is one, enables the window unless it need not be. -/
def RollbackEffective (s : State) (a : Operation × Outcomes) : Prop :=
  ∀ w dragDropClosed window, a.1 = .closeWindow w dragDropClosed → s.windows w = some window →
    window.handle ≠ none → window.interactionEnabled = true → window.enabled = false →
    a.2.enableWindow.headD true = true

/-- A window that is being closed, with the dialogs told. -/
theorem closing_destroying {window : WindowState} (h : Sound s) (hw : s.windows w = some window) :
    Closing s (setWindow s w (some { window with destroying := true })) w :=
  (h.closing w).setWindow fun new hnew => by
    obtain rfl := Option.some.inj hnew
    exact ⟨window, hw, fun _ hnative => hnative⟩

theorem closeWindow_spec {window : WindowState} (h : Sound s) (hw : s.windows w = some window)
    (dragDropClosed : Bool) :
    ∃ t, closeWindow s w dragDropClosed = some t ∧ Sound t ∧
      ((window.handle ≠ none → window.interactionEnabled = true → window.enabled = false →
        s.outcomes.enableWindow.headD true = true) → Preserves s t) := by
  have hclosing := closing_destroying h hw
  obtain ⟨chain, hinv⟩ := hclosing.inv
  obtain ⟨r, notified, hr, hnotified⟩ := notifyProgressOwnerLoss_spec hinv w
  have htold := hclosing.notified hnotified
  have hwindow : r.windows w = some { window with destroying := true } := by
    rw [hnotified.untouched.windows]
    simp [setWindow]
  unfold closeWindow
  rw [hw, Option.bind_some]
  dsimp only
  rw [hr, Option.bind_some]
  dsimp only
  split_ifs with hfailed hhandle hdestroyed
  · obtain ⟨hsound, hpreserves⟩ := rollbackClose_closing htold hwindow
    exact ⟨_, rfl, hsound, fun heffective => hpreserves fun hh hi he => by
      rw [hnotified.untouched.enableWindow]
      exact heffective hh hi he⟩
  · exact ⟨_, rfl, htold.gone.sound, fun _ => htold.gone⟩
  · obtain ⟨u, hu, hgone, -⟩ := ncDestroyWindow_closing (htold.refreshed (destroyWindow_refreshed r))
    rw [hu, Option.map_some]
    exact ⟨_, rfl, hgone.gone.sound, fun _ => hgone.gone⟩
  · obtain ⟨hsound, hpreserves⟩ :=
      rollbackClose_closing (htold.refreshed (destroyWindow_refreshed r)) hwindow
    exact ⟨_, rfl, hsound, fun heffective => hpreserves fun hh hi he => by
      rw [(destroyWindow_untouched r).enableWindow, hnotified.untouched.enableWindow]
      exact heffective hh hi he⟩

theorem closeWindowBestEffort_spec {window : WindowState} (h : Sound s)
    (hw : s.windows w = some window) :
    ∃ t, closeWindowBestEffort s w = some t ∧ Preserves s t := by
  have hclosing := closing_destroying h hw
  obtain ⟨chain, hinv⟩ := hclosing.inv
  obtain ⟨r, hr, hnotified⟩ := notifyProgressOwnerLossBestEffort_spec hinv w
  have htold := hclosing.notified hnotified
  unfold closeWindowBestEffort
  rw [hw, Option.bind_some]
  dsimp only
  rw [hr, Option.bind_some]
  split_ifs with hhandle hdestroyed
  · exact ⟨_, rfl, htold.gone⟩
  · obtain ⟨u, hu, hgone, -⟩ := ncDestroyWindow_closing (htold.refreshed (destroyWindow_refreshed r))
    rw [hu, Option.map_some]
    exact ⟨_, rfl, hgone.gone⟩
  · exact ⟨_, rfl, (htold.refreshed (destroyWindow_refreshed r)).gone⟩

theorem ncDestroyWindow_spec (h : Sound s) (w : WindowId) :
    ∃ t, ncDestroyWindow s w = some t ∧ Preserves s t := by
  obtain ⟨t, ht, hclosing, hsafe, hwindows⟩ := ncDestroyWindow_closing (h.closing w)
  refine ⟨t, ht, hclosing.preserves (fun window hw => ?_) hsafe⟩
  obtain ⟨before, hbefore, hdestroying⟩ := hwindows window hw
  exact hdestroying.trans (h.idle w before hbefore)

/-! ## Runs -/

/-- **The step lemma.** Every operation keeps the invariant, and the owners safe but for the
rollback of a window close. -/
theorem step_spec {a : Operation × Outcomes} (h : Sound s) (hs : step s a = some t) :
    Sound t ∧ (RollbackEffective s a → (∀ w, Safe s w) → ∀ w, Safe t w) := by
  have h := h.answers a.2
  have hpreserves : ∀ {r : State}, r = t → Preserves { s with outcomes := a.2 } r →
      Sound t ∧ (RollbackEffective s a → (∀ w, Safe s w) → ∀ w, Safe t w) := by
    rintro r rfl hr
    exact ⟨hr.sound, fun _ => hr.safe⟩
  obtain ⟨op, o⟩ := a
  cases op with
  | openWindow handle interactionEnabled =>
    exact hpreserves (Option.some.inj hs) (openWindow_preserves h handle interactionEnabled)
  | «open» owner blocksOwner stage alreadyExists => exact hpreserves rfl (open_spec h hs)
  | close d => exact hpreserves rfl (close_spec h hs)
  | destroy d => exact hpreserves rfl (destroy_spec h hs)
  | ncDestroy d => exact hpreserves rfl (ncDestroy_spec h hs)
  | restorePendingProgressOwners =>
    obtain ⟨r, hr, hspec⟩ := restorePendingProgressOwners_spec h
    exact hpreserves (Option.some.inj (hr.symm.trans hs)) hspec
  | prune =>
    obtain ⟨r, hr, hspec⟩ := prune_spec h
    exact hpreserves (Option.some.inj (hr.symm.trans hs)) hspec
  | closeWindow w dragDropClosed =>
    obtain ⟨window, hw, -⟩ := Option.bind_eq_some_iff.1 hs
    obtain ⟨r, hr, hsound, hspec⟩ := closeWindow_spec h hw dragDropClosed
    obtain rfl := Option.some.inj (hr.symm.trans hs)
    exact ⟨hsound, fun heffective =>
      (hspec (heffective w dragDropClosed window rfl hw)).safe⟩
  | closeWindowBestEffort w =>
    obtain ⟨window, hw, -⟩ := Option.bind_eq_some_iff.1 hs
    obtain ⟨r, hr, hspec⟩ := closeWindowBestEffort_spec h hw
    exact hpreserves (Option.some.inj (hr.symm.trans hs)) hspec
  | ncDestroyWindow w =>
    obtain ⟨r, hr, hspec⟩ := ncDestroyWindow_spec h w
    obtain ⟨-, hs⟩ := Option.ite_none_right_eq_some.1 hs
    exact hpreserves (Option.some.inj (hr.symm.trans hs)) hspec

theorem sound_initial : Sound {} where
  inv := ⟨[], rfl, List.nodup_nil, fun d => by simp, List.nodup_nil, fun d => by simp, nofun, nofun,
    nofun, nofun⟩
  idle := nofun
  held := ⟨List.nodup_nil, nofun, nofun⟩

/-- A live window is disabled against its `interactionEnabled` only for a registered dialog of it
that blocks it, or a state of it on the restore chain. -/
def DisabledForReason (s : State) : Prop :=
  ∀ w window, s.windows w = some window → window.handle ≠ none → window.interactionEnabled = true →
    window.enabled = false →
      (∃ d ∈ s.progressDialogs, ∃ state data, s.dialogs d = some state ∧ state.ownerId = some w ∧
        state.platform = some data ∧ data.registered = true ∧ data.blockingOwner = true) ∨
      ∃ chain d state, s.pendingRestore.Carries chain ∧ d ∈ chain ∧ s.dialogs d = some state ∧
        state.ownerId = some w

theorem Inv.disabledForReason (h : Inv s chain) (hsafe : ∀ w, Safe s w) : DisabledForReason s := by
  intro w window hw hhandle hinteraction hdisabled
  obtain ⟨d, state, hd, howner, hreason⟩ := hsafe w window hw hhandle hinteraction hdisabled
  rcases hreason with hpending | hblocking
  · exact .inr ⟨chain, d, state, h.carries, (h.pending d).2 ⟨state, hd, hpending⟩, hd, howner⟩
  · left
    obtain ⟨data, hdata, hblocks⟩ := (Option.any_eq_true _ _).1 hblocking
    have hregistered := (((h.ok d state hd).data data hdata).blocking hblocks).1
    refine ⟨d, (h.registered d).2 ⟨state, hd, ?_⟩, state, data, hd, howner, hdata, hregistered, hblocks⟩
    simp [ProgressDialogState.registered, hdata, hregistered]

/-- **The runs.** In every run the chain holds the states with a pending restoration, each once, the
registered states have a handle and the loops of an owner loss end. When no rollback of a window
close is in vain, a window is disabled only while somebody is there to enable it. -/
theorem progressOwners_run {tr : List (Transition State (Operation × Outcomes))} {u : State}
    (h : Trace step {} tr u) :
    (∃ chain, u.pendingRestore.Carries chain ∧ chain.Nodup ∧
      ∀ d, d ∈ chain ↔ ∃ state, u.dialogs d = some state ∧ state.ownerRestorePending = true) ∧
    (∀ d ∈ u.progressDialogs, ∃ state data, u.dialogs d = some state ∧ state.platform = some data ∧
      data.registered = true ∧ data.handle = true) ∧
    (∀ d state data, u.dialogs d = some state → state.platform = some data →
      data.registered = true → d ∈ u.progressDialogs) ∧
    (∀ w answers, (notifyProgressOwnerLoss { u with outcomes := answers } w).isSome = true ∧
      (notifyProgressOwnerLossBestEffort { u with outcomes := answers } w).isSome = true) ∧
    (∀ w answers dragDropClosed, (u.windows w).isSome = true →
      (step u (.closeWindow w dragDropClosed, answers)).isSome = true ∧
      (step u (.closeWindowBestEffort w, answers)).isSome = true) ∧
    ((∀ x ∈ tr, RollbackEffective x.pre x.action) → DisabledForReason u) := by
  have hsound : Sound u := h.invariant (G := fun _ _ => True) sound_initial
    (fun s a t hs _ hstep => (step_spec hs hstep).1) (fun _ _ => trivial) |>.1
  obtain ⟨chain, hinv⟩ := hsound.inv
  refine ⟨⟨chain, hinv.carries, hinv.nodup, hinv.pending⟩, fun d hd => ?_,
    fun d state data hd hdata hregistered => ?_, fun w answers => ?_,
    fun w answers dragDropClosed hw => ?_, fun heffective => ?_⟩
  · obtain ⟨state, hstate, hregistered⟩ := (hinv.registered d).1 hd
    obtain ⟨data, hdata, hregistered⟩ := (Option.any_eq_true _ _).1 hregistered
    exact ⟨state, data, hstate, hdata, hregistered,
      ((hinv.ok d state hstate).data data hdata).handle hregistered⟩
  · exact (hinv.registered d).2 ⟨state, hd, by simp [ProgressDialogState.registered, hdata, hregistered]⟩
  · obtain ⟨chain', hinv'⟩ := (hsound.answers answers).inv
    obtain ⟨t, closed, ht, -⟩ := notifyProgressOwnerLoss_spec hinv' w
    obtain ⟨t', ht', -⟩ := notifyProgressOwnerLossBestEffort_spec hinv' w
    simp [ht, ht']
  · obtain ⟨window, hwindow⟩ := Option.isSome_iff_exists.1 hw
    obtain ⟨t, ht, -⟩ := closeWindow_spec (hsound.answers answers) hwindow dragDropClosed
    obtain ⟨t', ht', -⟩ := closeWindowBestEffort_spec (hsound.answers answers) hwindow
    exact ⟨Option.isSome_iff_exists.2 ⟨t, ht⟩, Option.isSome_iff_exists.2 ⟨t', ht'⟩⟩
  · have hsafe : Sound u ∧ ∀ w, Safe u w := h.invariant (I := fun s => Sound s ∧ ∀ w, Safe s w)
      ⟨sound_initial, (fun _ _ h => by cases h)⟩ (fun s a t hs hguard hstep =>
        ⟨(step_spec hs.1 hstep).1, (step_spec hs.1 hstep).2 hguard hs.2⟩) heffective |>.1
    exact hinv.disabledForReason hsafe.2

/-- A dialog blocks its window, and a close of the window fails half-way, at the class of the
dialog. -/
def failedClose (enabled : Bool) : List (Operation × Outcomes) :=
  [(.openWindow 1 true, {}), (.open (some 1) true .opened false, {}),
    (.closeWindow 1 true, { unregisterClass := [false], enableWindow := [enabled] })]

/-- The rollback of the close enables the window. -/
theorem progressOwners_run_failedClose :
    ∃ u : State, u.windows 1 = some ⟨some 1, true, true, false⟩ ∧ u.progressDialogs = [] ∧
      DisabledForReason u := by
  have hrun : ∃ r, Lib.run step {} (failedClose true) = some r ∧
      r.2.windows 1 = some ⟨some 1, true, true, false⟩ ∧ r.2.progressDialogs = [] ∧
      r.1.map (·.action) = failedClose true := ⟨_, rfl, rfl, rfl, rfl⟩
  obtain ⟨r, hr, hwindow, hregistry, hactions⟩ := hrun
  refine ⟨r.2, hwindow, hregistry, (progressOwners_run (Trace.of_run hr)).2.2.2.2.2 fun x hx => ?_⟩
  have hmem : x.action ∈ failedClose true := hactions ▸ List.mem_map_of_mem hx
  intro w dragDropClosed window hclose _ _ _ _
  simp only [failedClose, List.mem_cons, List.not_mem_nil, or_false] at hmem
  rcases hmem with hmem | hmem | hmem <;> rw [hmem] at hclose ⊢ <;> simp at hclose ⊢

/-- The rollback has no effect, and nothing is left that would enable the window. -/
theorem progressOwners_run_fails :
    ¬ ∀ tr u, Trace step {} tr u → DisabledForReason u := by
  intro hall
  have hrun : ∃ r, Lib.run step {} (failedClose false) = some r ∧
      r.2.windows 1 = some ⟨some 1, true, false, false⟩ ∧ r.2.progressDialogs = [] ∧
      r.2.pendingRestore.head = none := ⟨_, rfl, rfl, rfl, rfl⟩
  obtain ⟨r, hr, hwindow, hregistry, hhead⟩ := hrun
  rcases hall r.1 r.2 (Trace.of_run hr) 1 _ hwindow (by simp) rfl rfl with
    ⟨d, hd, -⟩ | ⟨chain, d, state, hchain, hd, -⟩
  · rw [hregistry] at hd
    cases hd
  · rw [Intrusive.Carries, hhead] at hchain
    rw [hchain.eq_nil] at hd
    cases hd

end

end ProgressDialog

end Desktop

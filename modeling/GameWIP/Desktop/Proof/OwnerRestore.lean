import GameWIP.Desktop.Proof.ProgressDialogs

/-!
# Owners of progress dialogs over whole runs

Every operation keeps the invariant (`Sound`) and, but for one, leaves no window disabled that was
not before. The exception is the close of a window that fails: its rollback does not record that
`EnableWindow` had no effect.
-/

namespace Desktop

namespace ProgressDialog

open Lib (Intrusive Trace Transition)

/-- The states on the deferred list and in `ProgressDialog` objects are alive and distinct. -/
structure Held (s : State) : Prop where
  nodup : s.deferred.Nodup
  deferred : ∀ d ∈ s.deferred, s.owned d = false ∧ s.dialogs d ≠ none
  owned : ∀ d, s.owned d = true → s.dialogs d ≠ none

/-- The invariant between operations. -/
structure Sound (s : State) : Prop where
  inv : ∃ chain, Inv s chain
  idle : Idle s
  held : Held s

/-- What an operation keeps. -/
structure Preserves (s t : State) : Prop where
  sound : Sound t
  safe : (∀ w, Safe s w) → ∀ w, Safe t w

section
variable {s t u : State} {chain : List DialogId} {w : WindowId} {d : DialogId}
  {state : ProgressDialogState}

theorem Keeps.isNone (h : Keeps s t) {e : DialogId} : t.dialogs e = none ↔ s.dialogs e = none := by
  rw [← Option.map_eq_none_iff (f := fun state : ProgressDialogState => state.ownerId), h.owners e,
    Option.map_eq_none_iff]

theorem Held.keeps (h : Held s) (hk : Keeps s t) : Held t where
  nodup := hk.deferred ▸ h.nodup
  deferred e he := by
    rw [hk.owned, Ne, hk.isNone]
    exact h.deferred e (hk.deferred ▸ he)
  owned e he := by
    rw [Ne, hk.isNone]
    exact h.owned e (hk.owned ▸ he)

/-- A dialog that is still there behind a close. -/
theorem Keeps.exists_state (h : Keeps s t) (hd : s.dialogs d = some state) :
    ∃ state', t.dialogs d = some state' := by
  refine Option.ne_none_iff_exists'.1 fun hnone => ?_
  rw [h.isNone, hd] at hnone
  cases hnone

theorem not_obliges_of_platform (hok : StateOk s.windows state) (hplatform : state.platform = none) :
    ¬ Obliges state w := by
  rintro ⟨-, hpending | hblocking⟩
  · exact hok.pending hpending hplatform
  · rw [ProgressDialogState.blocking, hplatform] at hblocking
    cases hblocking

/-! ## The end of a state -/

theorem Inv.free (h : Inv s chain) (hd : s.dialogs d = some state)
    (hplatform : state.platform = none) : Inv (free s d) chain := by
  have hchain : d ∉ chain := fun hmem => by
    obtain ⟨state', hstate', hpending⟩ := (h.pending d).1 hmem
    obtain rfl := Option.some.inj (hd.symm.trans hstate')
    exact (h.ok d state hd).pending hpending hplatform
  have hregistry : d ∉ s.progressDialogs := fun hmem => by
    obtain ⟨state', hstate', hregistered⟩ := (h.registered d).1 hmem
    obtain rfl := Option.some.inj (hd.symm.trans hstate')
    rw [ProgressDialogState.registered, hplatform] at hregistered
    cases hregistered
  have hothers : ∀ {e : DialogId} {other : ProgressDialogState},
      (ProgressDialog.free s d).dialogs e = some other → e ≠ d ∧ s.dialogs e = some other := by
    intro e other he
    by_cases hed : e = d
    · subst hed
      simp [ProgressDialog.free, setDialog] at he
    · exact ⟨hed, by simpa [ProgressDialog.free, setDialog, hed] using he⟩
  exact {
    carries := h.carries
    nodup := h.nodup
    pending := fun e => by
      by_cases hed : e = d
      · subst hed
        simp [ProgressDialog.free, setDialog, hchain]
      · simpa [ProgressDialog.free, setDialog, hed] using h.pending e
    registry := h.registry
    registered := fun e => by
      by_cases hed : e = d
      · subst hed
        simpa [ProgressDialog.free, setDialog] using hregistry
      · simpa [ProgressDialog.free, setDialog, hed] using h.registered e
    ok := fun e other he => h.ok e other (hothers he).2
    fresh := fun e other he => h.fresh e other (hothers he).2
    owners := fun e other w he => h.owners e other w (hothers he).2
    windows := h.windows }

theorem Safe.free (h : Safe s w) (hok : StateOk s.windows state) (hd : s.dialogs d = some state)
    (hplatform : state.platform = none) : Safe (free s d) w := by
  intro window hw hhandle hinteraction hdisabled
  obtain ⟨e, other, he, hobliges⟩ := h window hw hhandle hinteraction hdisabled
  have hed : e ≠ d := fun hed => by
    subst hed
    obtain rfl := Option.some.inj (hd.symm.trans he)
    exact not_obliges_of_platform hok hplatform hobliges
  exact ⟨e, other, by simpa [ProgressDialog.free, setDialog, hed] using he, hobliges⟩

theorem Held.free (h : Held s) (hd : d ∉ s.deferred) : Held (free s d) where
  nodup := h.nodup
  deferred e he := by
    have hed : e ≠ d := fun hed => hd (hed ▸ he)
    simpa [ProgressDialog.free, setDialog, hed] using h.deferred e he
  owned e he := by
    by_cases hed : e = d
    · subst hed
      simp [ProgressDialog.free] at he
    · simpa [ProgressDialog.free, setDialog, hed] using
        h.owned e (by simpa [ProgressDialog.free, hed] using he)

/-- A state without a platform is deleted. -/
theorem preserves_free (h : Inv s chain) (hidle : Idle s) (hheld : Held s)
    (hd : s.dialogs d = some state) (hplatform : state.platform = none) (hnot : d ∉ s.deferred) :
    Preserves s (free s d) where
  sound := ⟨⟨chain, h.free hd hplatform⟩, hidle, hheld.free hnot⟩
  safe hsafe w := (hsafe w).free (h.ok d state hd) hd hplatform

theorem Preserves.trans (h : Preserves s t) (h' : Preserves t u) : Preserves s u :=
  ⟨h'.sound, fun hsafe => h'.safe (h.safe hsafe)⟩

/-- A close that restores the owner, finished or not. -/
theorem Closes.preserves {owner : Option WindowId} {closed : Bool} (h : Closes s t d owner true closed)
    (hinv : Inv t chain) (hidle : Idle s) (hheld : Held s) : Preserves s t where
  sound := ⟨⟨chain, hinv⟩, h.idle hidle, hheld.keeps h.keeps⟩
  safe hsafe w := h.safe rfl hidle w (hsafe w)

theorem closeProgressBestEffort_spec (h : Inv s chain) (hd : s.dialogs d = some state) :
    ∃ t closed chain', closeProgressBestEffort s d = some (t, closed) ∧ Inv t chain' ∧
      Closes s t d state.ownerId true closed := by
  unfold closeProgressBestEffort
  rw [hd, Option.bind_some]
  split_ifs with hplatform
  · refine ⟨s, true, chain, rfl, h, ?_⟩
    exact {
      keeps := .refl s
      platform := fun _ => ⟨state, hd, hplatform⟩
      registry := .inl rfl
      untouched := fun _ => .refl s
      idle := id
      unrelated := fun _ _ => id
      safe := fun _ _ _ => id }
  · exact finalizeNative_spec h hd true

theorem deferProgressCleanupToOwner_spec (h : Inv s chain) (hidle : Idle s) (hheld : Held s)
    (hd : s.dialogs d = some state) (hnot : d ∉ s.deferred) :
    ∃ t, deferProgressCleanupToOwner s d = some t ∧ Preserves s t := by
  unfold deferProgressCleanupToOwner
  rw [hd, Option.map_some]
  split_ifs with hplatform
  · exact ⟨_, rfl, preserves_free h hidle hheld hd hplatform hnot⟩
  · refine ⟨_, rfl, ⟨⟨chain, { h with }⟩, hidle, ?_⟩, fun hsafe => hsafe⟩
    exact {
      nodup := List.nodup_cons.2 ⟨hnot, hheld.nodup⟩
      deferred := fun e he => by
        by_cases hed : e = d
        · subst hed
          simp [hd]
        · simpa [hed] using hheld.deferred e ((List.mem_cons.1 he).resolve_left hed)
      owned := fun e he => by
        by_cases hed : e = d
        · subst hed
          simp at he
        · exact hheld.owned e (by simpa [hed] using he) }

theorem closeOrDefer_spec (h : Inv s chain) (hidle : Idle s) (hheld : Held s)
    (hd : s.dialogs d = some state) (hnot : d ∉ s.deferred) :
    ∃ t, closeOrDefer s d = some t ∧ Preserves s t := by
  obtain ⟨t, closed, chain', hclose, hinv, hcloses⟩ := closeProgressBestEffort_spec h hd
  have hclosed := hcloses.preserves hinv hidle hheld
  have hnot' : d ∉ t.deferred := hcloses.keeps.deferred ▸ hnot
  unfold closeOrDefer
  rw [hclose, Option.bind_some]
  dsimp only
  split_ifs with hdone
  · obtain ⟨state', hd', hplatform⟩ := hcloses.platform hdone
    exact ⟨_, rfl, hclosed.trans
      (preserves_free hinv hclosed.sound.idle hclosed.sound.held hd' hplatform hnot')⟩
  · obtain ⟨state', hd'⟩ := hcloses.keeps.exists_state hd
    obtain ⟨u, hdefer, hu⟩ :=
      deferProgressCleanupToOwner_spec hinv hclosed.sound.idle hclosed.sound.held hd' hnot'
    exact ⟨u, hdefer, hclosed.trans hu⟩

/-- A state that an object owns is not on the deferred list. -/
theorem Held.not_deferred (h : Held s) (howned : s.owned d = true) : d ∉ s.deferred := fun hmem => by
  rw [(h.deferred d hmem).1] at howned
  cases howned

theorem destroy_spec (h : Sound s) (hs : destroy s d = some t) : Preserves s t := by
  obtain ⟨⟨chain, hinv⟩, hidle, hheld⟩ := h
  unfold destroy at hs
  split_ifs at hs with howned
  obtain ⟨state, hd⟩ := Option.ne_none_iff_exists'.1 (hheld.owned d howned)
  obtain ⟨t', ht', hpreserves⟩ := closeOrDefer_spec hinv hidle hheld hd (hheld.not_deferred howned)
  obtain rfl := Option.some.inj (ht'.symm.trans hs)
  exact hpreserves

theorem close_spec (h : Sound s) (hs : close s d = some t) : Preserves s t := by
  obtain ⟨⟨chain, hinv⟩, hidle, hheld⟩ := h
  unfold close at hs
  split_ifs at hs with howned
  obtain ⟨state, hd⟩ := Option.ne_none_iff_exists'.1 (hheld.owned d howned)
  have hnot := hheld.not_deferred howned
  rw [hd, Option.bind_some] at hs
  split_ifs at hs with hplatform
  · obtain rfl := Option.some.inj hs
    exact preserves_free hinv hidle hheld hd hplatform hnot
  · obtain ⟨t', closed, chain', hfinalize, hinv', hcloses⟩ := finalizeNative_spec hinv hd true
    have hclosed := hcloses.preserves hinv' hidle hheld
    rw [hfinalize, Option.map_some] at hs
    obtain rfl := Option.some.inj hs
    dsimp only
    split_ifs with hdone
    · obtain ⟨state', hd', hplatform'⟩ := hcloses.platform hdone
      exact hclosed.trans (preserves_free hinv' hclosed.sound.idle hclosed.sound.held hd' hplatform'
        (hcloses.keeps.deferred ▸ hnot))
    · exact hclosed

/-! ## The unexpected end of a native window -/

theorem queueProgressOwnerRestore_rest :
    (queueProgressOwnerRestore s d state).deferred = s.deferred ∧
      (queueProgressOwnerRestore s d state).owned = s.owned := by
  unfold queueProgressOwnerRestore
  split_ifs <;> exact ⟨rfl, rfl⟩

/-- The obligation of a dialog whose window is gone passes to the chain. -/
theorem ncDestroy_spec (h : Sound s) (hs : ncDestroy s d = some t) : Preserves s t := by
  obtain ⟨⟨chain, hinv⟩, hidle, hheld⟩ := h
  unfold ncDestroy at hs
  split at hs
  · rename_i state hd
    split at hs
    · rename_i data hdata
      have hdataOk := (hinv.ok d state hd).data data hdata
      by_cases hlive : data.handle = true
      · rw [if_pos hlive] at hs
        dsimp only at hs
        rw [if_neg (by simp [hdataOk.destroying hlive])] at hs
        have hpending : state.ownerRestorePending = false := by
          by_contra hpending
          exact absurd (hdataOk.pending (by simpa using hpending)) (by simp [hlive])
        -- the dialog leaves the registry
        have hc := retire_changes hinv hd hdata
          (show ({ data with handle := false } : ProgressDialogData).registered = data.registered
            from rfl) rfl rfl (some state)
        rw [setDialog_self hd] at hc
        obtain ⟨hdeferred, howned, -⟩ := @retire_rest d state { data with handle := false } s
        have hretired := hinv.changes hc
        rcases hr : retire s d state { data with handle := false } with ⟨r, new⟩
        have hnew : new = { state with platform := some { data with
            handle := false, registered := false, blockingOwner := false } } := by
          have hsecond := congrArg Prod.snd hr
          exact hsecond.symm
        rw [hr] at hs hc hdeferred howned hretired
        dsimp only at hs hc hdeferred howned hretired
        have hkeeps : Keeps s r := hc.keeps hdeferred howned
        -- the last change, behind the chain
        have hlast : ∀ {m : State} {now : ProgressDialogState} {chain' : List DialogId},
            Inv m chain' → Keeps r m → m.windows = r.windows → m.dialogs d = some now →
            now.platform = new.platform → now.ownerId = new.ownerId →
            (∀ e ≠ d, m.dialogs e = r.dialogs e) → (∀ w, Obliges state w → Obliges now w) →
            Preserves s (setDialog m d (some { now with nativeDestroyedPendingFinalize := true })) := by
          intro m now chain' hm hk hwindows hnow hplatform howner hothers hobliges
          have hok := hm.ok d now hnow
          have hfinal : Changes m
              (setDialog m d (some { now with nativeDestroyedPendingFinalize := true })) d now
              { now with nativeDestroyedPendingFinalize := true } chain' chain' := by
            refine .of_setDialog hm hnow rfl ⟨hok.pending, fun data' hdata' => ?_⟩ rfl rfl
            have hregistered : data'.registered = false := by
              rw [show now.platform = some data' from hdata', hnew] at hplatform
              rw [Option.some.inj hplatform]
            exact { hok.data data' hdata' with
              live := fun hreg => absurd (hregistered.symm.trans hreg) (by simp) }
          refine ⟨⟨⟨chain', hm.changes hfinal⟩, fun w window hw => ?_, ?_⟩, fun hsafe w => ?_⟩
          · rw [hfinal.windows, hwindows, hc.windows] at hw
            exact hidle w window hw
          · exact hheld.keeps ((hkeeps.trans hk).trans (hfinal.keeps rfl rfl))
          · refine (hsafe w).changes hd hfinal.after (fun e he => ?_) ?_ fun h => hobliges w h
            · rw [hfinal.others e he, hothers e he, hc.others e he]
            · rw [hfinal.windows, hwindows, hc.windows]
        split_ifs at hs with hblocking
        · have hqueued := queueProgressOwnerRestore_changes hretired hc.after
            (by rw [hnew]; exact hpending) (by simp [hnew])
            fun data' hdata' => by
              rw [hnew] at hdata'
              rw [← Option.some.inj hdata']
          obtain ⟨hdeferred', howned'⟩ := @queueProgressOwnerRestore_rest r d new
          rw [hqueued.after, Option.map_some] at hs
          obtain rfl := Option.some.inj hs
          refine hlast (hretired.changes hqueued) (hqueued.keeps hdeferred' howned') hqueued.windows
            hqueued.after rfl rfl hqueued.others
            fun w h => ⟨hc.owner.trans h.1, .inl rfl⟩
        · rw [hc.after, Option.map_some] at hs
          obtain rfl := Option.some.inj hs
          have hnot : ∀ w, ¬ Obliges state w := by
            rintro w ⟨-, hreason⟩
            have hblocks : data.blockingOwner = true := by
              have := hreason.resolve_left (by simp [hpending])
              simpa [ProgressDialogState.blocking, hdata] using this
            exact hblocking (by simp [hblocks, (hdataOk.blocking hblocks).2.2.2])
          exact hlast hretired (.refl r) rfl hc.after rfl rfl (fun _ _ => rfl)
            fun w h => absurd h (hnot w)
      · rw [if_neg hlive] at hs
        cases hs
    · cases hs
  · cases hs

/-! ## Retries -/

/-- One record of the chain is dropped when its owner is gone or has been relieved. -/
theorem preserves_unlink {done rest : List DialogId} (h : Inv s (done ++ d :: rest)) (hidle : Idle s)
    (hheld : Held s) (hd : s.dialogs d = some state) (hpending : state.ownerRestorePending = true)
    (hrelieved : ∀ w, state.ownerId = some w → Relieved s w) :
    Inv (unlinkPending s done.getLast? d state) (done ++ rest) ∧
      Preserves s (unlinkPending s done.getLast? d state) := by
  have hc := unlinkPending_changes h hd
  refine ⟨h.changes hc, ⟨⟨_, h.changes hc⟩, hidle, hheld.keeps (hc.keeps rfl rfl)⟩, fun hsafe w => ?_⟩
  by_cases howner : state.ownerId = some w
  · exact (hrelieved w howner).changes h hc hpending
  · exact (hsafe w).changes hc.before hc.after hc.others hc.windows
      fun hobliges => absurd hobliges.1 howner

theorem Preserves.refl (h : Sound s) : Preserves s s := ⟨h, fun hsafe => hsafe⟩

theorem Refreshed.preserves (hr : Refreshed s t) (h : Inv s chain) (hidle : Idle s) (hheld : Held s) :
    Preserves s t :=
  ⟨⟨⟨chain, h.refreshed hr⟩, hidle.refreshed hr, hheld.keeps hr.keeps⟩,
    fun hsafe w => (hsafe w).refreshed hr⟩

theorem restoreFrom_spec {rest : List DialogId} : ∀ {fuel : Nat} {s : State} {done : List DialogId},
    Inv s (done ++ rest) → Idle s → Held s → rest.length < fuel →
      ∃ t, restoreFrom fuel s done.getLast? = some t ∧ Preserves s t := by
  induction rest with
  | nil =>
    intro fuel s done h hidle hheld hfuel
    obtain ⟨fuel, rfl⟩ := Nat.exists_eq_succ_of_ne_zero (Nat.ne_of_gt hfuel)
    refine ⟨s, ?_, .refl ⟨⟨_, h⟩, hidle, hheld⟩⟩
    rw [restoreFrom, h.carries.read_eq]
    rfl
  | cons d rest ih =>
    intro fuel s done h hidle hheld hfuel
    obtain ⟨fuel, rfl⟩ := Nat.exists_eq_succ_of_ne_zero (Nat.ne_zero_of_lt hfuel)
    have hless : rest.length < fuel := by simpa using hfuel
    obtain ⟨state, hd, hpending⟩ := (h.pending d).1 (by simp)
    have hok := h.ok d state hd
    have hread : s.pendingRestore.read done.getLast? = some d := h.carries.read_eq
    -- a record is dropped, or passed over
    have hdrop : ∀ {r : State}, Refreshed s r → (∀ w, state.ownerId = some w → Relieved r w) →
        ∃ t, restoreFrom fuel (unlinkPending r done.getLast? d state) done.getLast? = some t ∧
          Preserves s t := by
      intro r hr hrelieved
      have hpreserved := hr.preserves h hidle hheld
      obtain ⟨hinv, hunlink⟩ := preserves_unlink (h.refreshed hr) hpreserved.sound.idle
        hpreserved.sound.held (hr.dialogs ▸ hd) hpending hrelieved
      obtain ⟨t, ht, hrest⟩ := ih hinv hunlink.sound.idle hunlink.sound.held hless
      exact ⟨t, ht, (hpreserved.trans hunlink).trans hrest⟩
    have hpass : ∀ {r : State}, Refreshed s r →
        ∃ t, restoreFrom fuel r (some d) = some t ∧ Preserves s t := by
      intro r hr
      have hpreserved := hr.preserves h hidle hheld
      have hinv : Inv r ((done ++ [d]) ++ rest) := by simpa using h.refreshed hr
      obtain ⟨t, ht, hrest⟩ := ih hinv hpreserved.sound.idle hpreserved.sound.held hless
      rw [List.getLast?_concat] at ht
      exact ⟨t, ht, hpreserved.trans hrest⟩
    rw [restoreFrom, hread]
    dsimp only
    rw [hd, Option.bind_some]
    split
    · rename_i w window data howner hresolve hdata
      have hw : s.windows w = some window := by simpa [resolveWindowId, howner] using hresolve
      split_ifs with hgone hblocked hrestored
      · refine hdrop (.refl s) fun w' hw' window' hwindow' hhandle => ?_
        obtain rfl := Option.some.inj (howner.symm.trans hw')
        obtain rfl := Option.some.inj (hw.symm.trans hwindow')
        obtain ⟨native, hnative⟩ := Option.ne_none_iff_exists'.1 hhandle
        have hsame := (hok.data data hdata).owner w window native howner hw hnative
        rcases hgone with hgone | hgone | hgone | hgone
        · exact absurd (hpending.symm.trans hgone) (by simp)
        · exact absurd (hnative.trans hsame.symm) hgone
        · exact absurd ((hidle w window hw).symm.trans hgone) (by simp)
        · exact absurd hgone hhandle
      · exact hpass (.refl s)
      · obtain ⟨hr, hrelieved⟩ := restoreOwnerAfterRemoval_spec hok
        exact hdrop hr (hrelieved hrestored (hok.pending hpending) hidle)
      · exact hpass (restoreOwnerAfterRemoval_spec hok).1
    · rename_i hnone
      refine hdrop (.refl s) fun w hw window hwindow _ => ?_
      obtain ⟨data, hdata⟩ := Option.ne_none_iff_exists'.1 (hok.pending hpending)
      exact absurd hdata (hnone w window data hw (by simpa [resolveWindowId, hw] using hwindow))

theorem restorePendingProgressOwners_spec (h : Sound s) :
    ∃ t, restorePendingProgressOwners s = some t ∧ Preserves s t := by
  obtain ⟨⟨chain, hinv⟩, hidle, hheld⟩ := h
  have hfuel : chain.length < fuel s := Nat.lt_succ_of_le (length_chain_le hinv)
  have hstart : Inv s ([] ++ chain) := hinv
  exact restoreFrom_spec hstart hidle hheld hfuel

theorem closeDeferred_spec {rest : List DialogId} : ∀ {s : State}, Sound s →
    (∀ d ∈ rest, d ∉ s.deferred ∧ s.owned d = false ∧ s.dialogs d ≠ none) → rest.Nodup →
      ∃ t, closeDeferred s rest = some t ∧ Preserves s t := by
  induction rest with
  | nil => exact fun h _ _ => ⟨_, rfl, .refl h⟩
  | cons d rest ih =>
    intro s h hrest hnodup
    obtain ⟨⟨chain, hinv⟩, hidle, hheld⟩ := h
    obtain ⟨hd, hnodupRest⟩ := List.nodup_cons.1 hnodup
    obtain ⟨hnot, -, hsome⟩ := hrest d List.mem_cons_self
    obtain ⟨state, hstate⟩ := Option.ne_none_iff_exists'.1 hsome
    obtain ⟨t, closed, chain', hclose, hinv', hcloses⟩ := closeProgressBestEffort_spec hinv hstate
    have hclosed := hcloses.preserves hinv' hidle hheld
    have hkeeps := hcloses.keeps
    rw [closeDeferred, hclose, Option.bind_some]
    dsimp only
    split_ifs with hdone
    · obtain ⟨state', hd', hplatform⟩ := hcloses.platform hdone
      have hfree := preserves_free hinv' hclosed.sound.idle hclosed.sound.held hd' hplatform
        (hkeeps.deferred ▸ hnot)
      have hbehind : ∀ e ∈ rest, e ∉ (free t d).deferred ∧ (free t d).owned e = false ∧
          (free t d).dialogs e ≠ none := by
        intro e he
        have hed : e ≠ d := fun hed => hd (hed ▸ he)
        obtain ⟨hnotDeferred, hnotOwned, halive⟩ := hrest e (List.mem_cons_of_mem _ he)
        refine ⟨hkeeps.deferred ▸ hnotDeferred, ?_, ?_⟩
        · simpa [ProgressDialog.free, hed, hkeeps.owned] using hnotOwned
        · simpa [ProgressDialog.free, setDialog, hed, hkeeps.isNone] using halive
      obtain ⟨u, hu, hfinal⟩ := ih hfree.sound hbehind hnodupRest
      exact ⟨u, hu, (hclosed.trans hfree).trans hfinal⟩
    · -- what is left is queued again
      refine ⟨_, rfl, ⟨hclosed.sound.inv.imp fun _ h => { h with }, hclosed.sound.idle, ?_⟩,
        hclosed.safe⟩
      have hdeferred := hkeeps.deferred
      exact {
        nodup := by
          rw [hdeferred]
          refine List.nodup_append.2 ⟨hnodup, hheld.nodup, fun a ha b hb hab => ?_⟩
          exact (hrest a ha).1 (hab ▸ hb)
        deferred := fun e he => by
          rw [hkeeps.owned, Ne, hkeeps.isNone]
          rcases List.mem_append.1 he with he | he
          · exact (hrest e he).2
          · exact hheld.deferred e (hdeferred ▸ he)
        owned := hclosed.sound.held.owned }

theorem prune_spec (h : Sound s) : ∃ t, prune s = some t ∧ Preserves s t := by
  obtain ⟨r, hr, hrestored⟩ := restorePendingProgressOwners_spec h
  have hheld := hrestored.sound.held
  have htaken : Sound { r with deferred := [] } :=
    ⟨hrestored.sound.inv.imp fun _ h => { h with }, hrestored.sound.idle, List.nodup_nil, nofun,
      hheld.owned⟩
  obtain ⟨t, ht, hclosed⟩ := closeDeferred_spec htaken
    (fun d hd => ⟨List.not_mem_nil, hheld.deferred d hd⟩) hheld.nodup
  refine ⟨t, by rw [prune, hr, Option.bind_some, ht], hrestored.trans ⟨hclosed.sound, hclosed.safe⟩⟩

/-! ## Owner loss -/

/-- What the loops of an owner loss keep. -/
structure Notified (s t : State) (w : WindowId) : Prop where
  inv : ∃ chain, Inv t chain
  keeps : Keeps s t
  untouched : Untouched s t
  safe : ∀ w' ≠ w, Safe s w' → Safe t w'

theorem Notified.refl (h : Inv s chain) : Notified s s w :=
  ⟨⟨chain, h⟩, .refl s, .refl s, fun _ _ => id⟩

theorem Notified.trans (h : Notified s t w) (h' : Notified t u w) : Notified s u w :=
  ⟨h'.inv, h.keeps.trans h'.keeps, h.untouched.trans h'.untouched,
    fun w' hw hsafe => h'.safe w' hw (h.safe w' hw hsafe)⟩

theorem Closes.notified {closed : Bool} (h : Closes s t d (some w) false closed)
    (hinv : Inv t chain) : Notified s t w :=
  ⟨⟨chain, hinv⟩, h.keeps, h.untouched rfl,
    fun w' hw hsafe => h.unrelated w' (fun heq => hw (Option.some.inj heq).symm) hsafe⟩

/-- A dialog that left the registry makes it shorter. -/
theorem Closes.length_lt {owner : Option WindowId} {restoreOwner closed : Bool}
    (h : Closes s t d owner restoreOwner closed) (hd : d ∈ s.progressDialogs)
    (hgone : d ∉ t.progressDialogs) : t.progressDialogs.length + 1 = s.progressDialogs.length := by
  rcases h.registry with hregistry | hregistry
  · exact absurd (hregistry ▸ hd) hgone
  · rw [hregistry, List.length_erase_of_mem hd]
    have := List.length_pos_of_mem hd
    omega

theorem not_mem_of_platform (h : Inv s chain) (hd : s.dialogs d = some state)
    (hplatform : state.platform = none) : d ∉ s.progressDialogs := fun hmem => by
  obtain ⟨state', hstate', hregistered⟩ := (h.registered d).1 hmem
  obtain rfl := Option.some.inj (hd.symm.trans hstate')
  rw [ProgressDialogState.registered, hplatform] at hregistered
  cases hregistered

/-- **Termination.** With a round for each dialog left, and one more, the loop ends. -/
theorem notifyFrom_spec {fuel : Nat} : ∀ {s : State} {chain : List DialogId} {index : Nat},
    Inv s chain → s.progressDialogs.length - index < fuel →
      ∃ t closed, notifyFrom w fuel s index = some (t, closed) ∧ Notified s t w := by
  induction fuel with
  | zero => exact fun _ hfuel => absurd hfuel (Nat.not_lt_zero _)
  | succ fuel ih =>
    intro s chain index h hfuel
    rw [notifyFrom]
    split
    · exact ⟨s, true, rfl, .refl h⟩
    · rename_i d hget
      obtain ⟨hlt, -⟩ := List.getElem?_eq_some_iff.1 hget
      have hmem := List.mem_of_getElem? hget
      obtain ⟨state, hd, -⟩ := (h.registered d).1 hmem
      rw [hd, Option.bind_some]
      split_ifs with howner
      · obtain ⟨t, closed, chain', hfinalize, hinv, hcloses⟩ := finalizeNative_spec h hd false
        rw [howner] at hcloses
        have hnotified := hcloses.notified hinv
        rw [hfinalize, Option.bind_some]
        dsimp only
        split_ifs with hclosed
        · obtain ⟨state', hd', hplatform⟩ := hcloses.platform hclosed
          have hlength := hcloses.length_lt hmem (not_mem_of_platform hinv hd' hplatform)
          obtain ⟨u, result, hu, hrest⟩ := @ih t chain' index hinv (by omega)
          exact ⟨u, result, hu, hnotified.trans hrest⟩
        · exact ⟨t, false, rfl, hnotified⟩
      · exact @ih s chain (index + 1) h (by omega)

theorem notifyBestEffortFrom_spec {fuel : Nat} : ∀ {s : State} {chain : List DialogId}
    {index : Nat}, Inv s chain → s.progressDialogs.length - index < fuel →
      ∃ t, notifyBestEffortFrom w fuel s index = some t ∧ Notified s t w := by
  induction fuel with
  | zero => exact fun _ hfuel => absurd hfuel (Nat.not_lt_zero _)
  | succ fuel ih =>
    intro s chain index h hfuel
    rw [notifyBestEffortFrom]
    split
    · exact ⟨s, rfl, .refl h⟩
    · rename_i d hget
      obtain ⟨hlt, -⟩ := List.getElem?_eq_some_iff.1 hget
      have hmem := List.mem_of_getElem? hget
      obtain ⟨state, hd, -⟩ := (h.registered d).1 hmem
      rw [hd, Option.bind_some]
      split_ifs with howner
      · obtain ⟨t, closed, chain', hfinalize, hinv, hcloses⟩ := finalizeNative_spec h hd false
        rw [howner] at hcloses
        have hnotified := hcloses.notified hinv
        rw [hfinalize, Option.bind_some]
        dsimp only
        have hle : t.progressDialogs.length ≤ s.progressDialogs.length := by
          rcases hcloses.registry with hregistry | hregistry
          · exact Nat.le_of_eq (by rw [hregistry])
          · rw [hregistry]
            exact List.length_erase_le
        split_ifs with hstays
        · obtain ⟨u, hu, hrest⟩ := @ih t chain' (index + 1) hinv (by omega)
          exact ⟨u, hu, hnotified.trans hrest⟩
        · -- the dialog has left the registry
          have hgone : d ∉ t.progressDialogs := by
            intro hmem'
            obtain ⟨state', hd', hregistered⟩ := (hinv.registered d).1 hmem'
            have hclosed : closed = true := by
              by_contra hclosed
              have hfailed : closed = false := by simpa using hclosed
              refine hstays ?_
              rw [hd', Option.any_some]
              simpa [hfailed, ProgressDialogState.registered] using hregistered
            obtain ⟨state'', hd'', hplatform⟩ := hcloses.platform hclosed
            exact not_mem_of_platform hinv hd'' hplatform hmem'
          have hlength := hcloses.length_lt hmem hgone
          obtain ⟨u, hu, hrest⟩ := @ih t chain' index hinv (by omega)
          exact ⟨u, hu, hnotified.trans hrest⟩
      · exact @ih s chain (index + 1) h (by omega)

theorem notifyProgressOwnerLoss_spec (h : Inv s chain) (w : WindowId) :
    ∃ t closed, notifyProgressOwnerLoss s w = some (t, closed) ∧ Notified s t w :=
  notifyFrom_spec h (by omega)

theorem notifyProgressOwnerLossBestEffort_spec (h : Inv s chain) (w : WindowId) :
    ∃ t, notifyProgressOwnerLossBestEffort s w = some t ∧ Notified s t w :=
  notifyBestEffortFrom_spec h (by omega)

end

end ProgressDialog

end Desktop

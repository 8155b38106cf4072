import GameWIP.Desktop.WindowMode
import GameWIP.Lib.Trace
import Mathlib.Logic.Function.Basic

/-!
# Exclusive display modes over whole runs

A transition ends in the state in front of it or, with the answer of its last query, in a fresh one
(`Ends`): the rollback gives every captured value back (`failWithRollback_capture`). What the
displays show follows from the captured values too (`Shows`), as long as the display changes that
restore or roll back succeed.
-/

namespace Desktop

namespace Fullscreen

open Lib (Trace Transition)
open Io (ErrorCode Status makeStatus successStatus)

/-! ## Captured values -/

/-- A saved desktop mode is kept in exclusive fullscreen only, and both flags of the suspension are
equal then. -/
def ModeSnapshot.Mirrors (p : ModeSnapshot) : Prop :=
  p.hasSavedDisplayMode = true →
    p.mode = .exclusiveFullscreen ∧ p.fullscreen.suspended = p.exclusiveSuspended

/-- The display that is in a mode set by the window, with that mode. -/
def ModeSnapshot.expected (p : ModeSnapshot) : Device → Option NativeMode :=
  if p.hasSavedDisplayMode = true ∧ p.exclusiveSuspended = false then
    Function.update (fun _ => none) p.exclusiveDevice (some p.activeNativeDisplayMode)
  else fun _ => none

/-- A purpose that restores the desktop or rolls back. -/
def Purpose.Restores : Purpose → Prop
  | .restoreDesktop | .rollbackRequested | .restorePrevious => True
  | .suspend | .validateResume | .resume | .validateExclusive | .enterExclusive => False

/-- The display changes made for restoring or rolling back succeed. -/
def RestoresSucceed (s : WindowState) : Prop :=
  ∀ c ∈ s.changes, c.purpose.Restores → c.result = 0

/-- The displays show what the captured values say. -/
def Shows (s : WindowState) : Prop :=
  RestoresSucceed s → shown s.changes = (captureModeSnapshot s).expected

section
variable {s t : WindowState} {c : DisplayChange} {l : List DisplayChange} {p : ModeSnapshot}

theorem ModeSnapshot.expected_of_not (h : ¬ (p.hasSavedDisplayMode = true ∧
    p.exclusiveSuspended = false)) : p.expected = fun _ => none := if_neg h

theorem shown_failed (h : c.result ≠ 0) : shown (c :: l) = shown l :=
  funext fun _ => if_neg fun hc => h hc.1

theorem shown_test (h : c.purpose.flags = .test) : shown (c :: l) = shown l := by
  funext device
  rw [shown, h]
  split_ifs <;> rfl

theorem shown_restored (h : c.result = 0) (hflags : c.purpose.flags = .none) :
    shown (c :: l) = Function.update (shown l) c.device none := by
  funext device
  rw [shown, hflags]
  by_cases hd : c.device = device
  · subst hd
    simp [h]
  · rw [if_neg fun hc => hd hc.2, Function.update_of_ne (Ne.symm hd)]

theorem shown_fullscreen (h : c.result = 0) (hflags : c.purpose.flags = .fullscreen) :
    shown (c :: l) = Function.update (shown l) c.device (some c.mode) := by
  funext device
  rw [shown, hflags]
  by_cases hd : c.device = device
  · subst hd
    simp [h]
  · rw [if_neg fun hc => hd hc.2, Function.update_of_ne (Ne.symm hd)]

/-- The display in the mode of the window is given back to the desktop. -/
theorem ModeSnapshot.update_expected (p : ModeSnapshot) :
    Function.update p.expected p.exclusiveDevice none = fun _ => none := by
  unfold ModeSnapshot.expected
  split_ifs
  · rw [Function.update_idem]
    exact Function.update_eq_self p.exclusiveDevice fun _ => none
  · exact Function.update_eq_self p.exclusiveDevice fun _ => none

theorem RestoresSucceed.of_cons {device : Device} {mode : NativeMode} {purpose : Purpose}
    {result : Int} (h : RestoresSucceed (changeDisplaySettings s device mode purpose result)) :
    RestoresSucceed s ∧ (purpose.Restores → result = 0) :=
  ⟨fun c hc => h c (List.mem_cons_of_mem _ hc), fun hp => h ⟨device, mode, purpose, result⟩
    List.mem_cons_self hp⟩

/-- The same changes with the same captured values. -/
theorem Shows.congr (h : Shows s) (hchanges : t.changes = s.changes)
    (hcapture : (captureModeSnapshot t).expected = (captureModeSnapshot s).expected) : Shows t := by
  intro ht
  rw [hchanges, hcapture]
  exact h fun c hc => ht c (hchanges ▸ hc)

/-! ## Leaving, suspending and resuming -/

/-- What `leaveExclusive` can do. -/
theorem leaveExclusive_cases (s : WindowState) (result : Int) :
    (s.data.hasSavedDisplayMode = false ∧
      leaveExclusive s result = ({ s with fullscreen := {} }, successStatus)) ∨
    (s.data.hasSavedDisplayMode = true ∧ s.data.exclusiveSuspended = true ∧
      leaveExclusive s result = (clearExclusive s, successStatus)) ∨
    (s.data.hasSavedDisplayMode = true ∧ s.data.exclusiveSuspended = false ∧
      ((result ≠ 0 ∧ leaveExclusive s result =
        (changeDisplaySettings s s.data.exclusiveDevice s.data.savedDisplayMode .restoreDesktop result,
          statusFromDisplayChange result Purpose.restoreDesktop.operation)) ∨
      (result = 0 ∧ leaveExclusive s result =
        (clearExclusive (changeDisplaySettings s s.data.exclusiveDevice s.data.savedDisplayMode
          .restoreDesktop result), successStatus)))) := by
  unfold leaveExclusive
  cases hsaved : s.data.hasSavedDisplayMode with
  | false => exact .inl ⟨rfl, rfl⟩
  | true =>
    right
    cases hsuspended : s.data.exclusiveSuspended with
    | true => exact .inl ⟨rfl, rfl, rfl⟩
    | false =>
      refine .inr ⟨rfl, rfl, ?_⟩
      by_cases hresult : result = 0
      · exact .inr ⟨hresult, by simp [hresult]⟩
      · exact .inl ⟨hresult, by simp [hresult]⟩

@[simp] theorem statusFromDisplayChange_ok (nativeCode : Int) (operation : String) :
    (statusFromDisplayChange nativeCode operation).ok = false := by
  unfold statusFromDisplayChange Status.ok
  dsimp only
  split_ifs <;> rfl

theorem capture_clearExclusive_expected (s : WindowState) :
    (captureModeSnapshot (clearExclusive s)).expected = fun _ => none :=
  ModeSnapshot.expected_of_not fun h => by cases h.1

/-- Behind a successful leave the window has no display mode any more; a failed one only records
the display change. -/
theorem leaveExclusive_spec (s : WindowState) (result : Int) :
    ((leaveExclusive s result).2.ok = true → (leaveExclusive s result).1.data.hasSavedDisplayMode = false) ∧
    ((leaveExclusive s result).2.ok = false →
      captureModeSnapshot (leaveExclusive s result).1 = captureModeSnapshot s ∧
        ¬ RestoresSucceed (leaveExclusive s result).1) ∧
    (Shows s → Shows (leaveExclusive s result).1) := by
  rcases leaveExclusive_cases s result with ⟨hsaved, h⟩ | ⟨-, hsuspended, h⟩ |
    ⟨hsaved, hsuspended, ⟨hresult, h⟩ | ⟨hresult, h⟩⟩ <;> rw [h]
  · refine ⟨fun _ => hsaved, nofun, fun hs => hs.congr rfl ?_⟩
    rw [ModeSnapshot.expected_of_not fun hp => absurd (hsaved.symm.trans hp.1) (by simp),
      ModeSnapshot.expected_of_not fun hp => absurd (hsaved.symm.trans hp.1) (by simp)]
  · refine ⟨fun _ => rfl, nofun, fun hs => hs.congr rfl ?_⟩
    rw [capture_clearExclusive_expected,
      ModeSnapshot.expected_of_not fun hp => absurd (hsuspended.symm.trans hp.2) (by simp)]
  · have hfailed : ¬ RestoresSucceed (changeDisplaySettings s s.data.exclusiveDevice
        s.data.savedDisplayMode .restoreDesktop result) := fun ht => hresult (ht.of_cons.2 trivial)
    exact ⟨fun hok => by simp at hok, fun _ => ⟨rfl, hfailed⟩, fun _ ht => absurd ht hfailed⟩
  · refine ⟨fun _ => rfl, nofun, fun hs ht => ?_⟩
    rw [capture_clearExclusive_expected]
    have hshown := hs ht.of_cons.1
    refine (shown_restored hresult rfl).trans ?_
    rw [hshown]
    exact (captureModeSnapshot s).update_expected

theorem suspendExclusive_spec (s : WindowState) (result : Int) :
    ((captureModeSnapshot s).Mirrors → (captureModeSnapshot (suspendExclusive s result).1).Mirrors) ∧
    (Shows s → Shows (suspendExclusive s result).1) := by
  unfold suspendExclusive
  split_ifs with _ hresult
  · exact ⟨id, id⟩
  · refine ⟨id, fun hs ht => ?_⟩
    exact (shown_failed hresult).trans (hs ht.of_cons.1)
  · have hresult : result = 0 := by simpa using hresult
    refine ⟨fun h hsaved => ⟨(h hsaved).1, rfl⟩, fun hs ht => ?_⟩
    rw [ModeSnapshot.expected_of_not fun hp => by cases hp.2]
    have hshown := hs ht.of_cons.1
    refine (shown_restored hresult rfl).trans ?_
    rw [hshown]
    exact (captureModeSnapshot s).update_expected

theorem resumeExclusive_spec (s : WindowState) (validationResult result : Int) :
    ((captureModeSnapshot s).Mirrors →
      (captureModeSnapshot (resumeExclusive s validationResult result).1).Mirrors) ∧
    (Shows s → Shows (resumeExclusive s validationResult result).1) := by
  unfold resumeExclusive
  split_ifs with hguard hvalidation hresult
  · exact ⟨id, id⟩
  · exact ⟨id, fun hs ht => (shown_test rfl).trans (hs ht.of_cons.1)⟩
  · refine ⟨id, fun hs ht => ?_⟩
    exact (shown_failed hresult).trans ((shown_test rfl).trans (hs ht.of_cons.1.of_cons.1))
  · simp only [not_or, Bool.not_eq_false] at hguard
    have hresult : result = 0 := by simpa using hresult
    refine ⟨fun h hsaved => ⟨(h hsaved).1, rfl⟩, fun hs ht => ?_⟩
    have hshown := hs ht.of_cons.1.of_cons.1
    rw [ModeSnapshot.expected_of_not fun hp => absurd (hguard.2.2.symm.trans hp.2) (by simp)]
      at hshown
    refine (shown_fullscreen hresult rfl).trans ?_
    refine (congrArg (fun show' => Function.update show' _ _) (shown_test rfl)).trans ?_
    refine (congrArg (fun show' => Function.update show' _ _) hshown).trans ?_
    exact (if_pos ⟨hguard.2.1, rfl⟩).symm

theorem activate_spec (s : WindowState) (a : ModeAnswers) :
    ((captureModeSnapshot s).Mirrors → (captureModeSnapshot (activate s a).1).Mirrors) ∧
    (Shows s → Shows (activate s a).1) := by
  unfold activate
  split_ifs
  · exact resumeExclusive_spec s _ _
  · exact suspendExclusive_spec s _

/-! ## Rollback -/

/-- **Rollback.** Every captured value is given back, whatever the calls answer. -/
theorem failWithRollback_capture (s : WindowState) (p : ModeSnapshot) (a : RollbackAnswers)
    (failure : Status) : captureModeSnapshot (failWithRollback s p a failure).1 = p := by
  unfold failWithRollback restoreModeSnapshot
  split_ifs <;> rfl

theorem failWithRollback_shows (hs : Shows s) (p : ModeSnapshot) (a : RollbackAnswers)
    (failure : Status) : Shows (failWithRollback s p a failure).1 := by
  intro ht
  rw [failWithRollback_capture]
  -- the display of the failed transition, then the one in front of it
  let left : WindowState :=
    if s.data.hasSavedDisplayMode = true ∧ s.data.exclusiveSuspended = false then
      changeDisplaySettings s s.data.exclusiveDevice s.data.savedDisplayMode .rollbackRequested
        a.requested
    else s
  have hleft : RestoresSucceed left → shown left.changes = fun _ => none := by
    intro hl
    unfold left at hl ⊢
    split_ifs at hl ⊢ with hsaved
    · refine (shown_restored (hl.of_cons.2 trivial) rfl).trans ?_
      rw [hs hl.of_cons.1]
      exact (captureModeSnapshot s).update_expected
    · exact (hs hl).trans (ModeSnapshot.expected_of_not hsaved)
  by_cases hp : p.hasSavedDisplayMode = true ∧ p.exclusiveSuspended = false
  · have hchanges : (failWithRollback s p a failure).1.changes = (changeDisplaySettings left
        p.exclusiveDevice p.activeNativeDisplayMode .restorePrevious a.previous).changes := by
      unfold failWithRollback restoreModeSnapshot left
      split_ifs <;> rfl
    have hboth : RestoresSucceed (changeDisplaySettings left p.exclusiveDevice
        p.activeNativeDisplayMode .restorePrevious a.previous) := fun c hc => ht c (hchanges ▸ hc)
    rw [hchanges]
    refine (shown_fullscreen (hboth.of_cons.2 trivial) rfl).trans ?_
    rw [hleft hboth.of_cons.1]
    exact (if_pos hp).symm
  · have hchanges : (failWithRollback s p a failure).1.changes = left.changes := by
      unfold failWithRollback restoreModeSnapshot left
      split_ifs <;> rfl
    rw [hchanges, ModeSnapshot.expected_of_not hp]
    exact hleft fun c hc => ht c (hchanges ▸ hc)

/-! ## Transitions -/

/-- A state a transition has just entered. -/
def ModeSnapshot.Fresh (p : ModeSnapshot) : Prop :=
  p.hasSavedDisplayMode = true →
    p.mode = .exclusiveFullscreen ∧ p.fullscreen.suspended = false ∧ p.exclusiveSuspended = false

theorem ModeSnapshot.Fresh.mirrors (h : p.Fresh) : p.Mirrors := fun hsaved => by
  obtain ⟨hmode, hfullscreen, hsuspended⟩ := h hsaved
  exact ⟨hmode, hfullscreen.trans hsuspended.symm⟩

/-- How a transition ends, from captured values. -/
structure Ends (p : ModeSnapshot) (s : WindowState) (a : ModeAnswers) (r : WindowState × Status) :
    Prop where
  result : captureModeSnapshot r.1 = p ∨ (r.2 = a.geometry ∧ (captureModeSnapshot r.1).Fresh)
  shows : Shows s → Shows r.1

theorem Ends.refl (s : WindowState) (a : ModeAnswers) (status : Status) :
    Ends (captureModeSnapshot s) s a (s, status) := ⟨.inl rfl, id⟩

/-- A transition goes on behind a step that keeps what the displays show. -/
theorem Ends.of_shows {a : ModeAnswers} {r : WindowState × Status} (h : Ends p t a r)
    (hshows : Shows s → Shows t) : Ends p s a r := ⟨h.result, fun hs => h.shows (hshows hs)⟩

theorem failWithRollback_ends (s : WindowState) (p : ModeSnapshot) (a : ModeAnswers)
    (failure : Status) : Ends p s a (failWithRollback s p a.rollback failure) :=
  ⟨.inl (failWithRollback_capture s p a.rollback failure),
    fun hs => failWithRollback_shows hs p a.rollback failure⟩

theorem placeFullscreen_ends (hfresh : (captureModeSnapshot s).Fresh) (p : ModeSnapshot)
    (a : ModeAnswers) : Ends p s a (placeFullscreen s p a) := by
  unfold placeFullscreen
  generalize (if a.applyStyle.ok = true then a.placeFullscreen else a.applyStyle) = status
  dsimp only
  cases status.ok with
  | false => exact failWithRollback_ends s p a status
  | true => exact ⟨.inr ⟨rfl, hfresh⟩, id⟩

/-- A window without a display mode has none in any mode. -/
theorem Shows.of_not_saved (hs : Shows s) (hsaved : s.data.hasSavedDisplayMode = false)
    (htSaved : t.data.hasSavedDisplayMode = false) (hchanges : t.changes = s.changes) : Shows t := by
  refine hs.congr hchanges ?_
  rw [ModeSnapshot.expected_of_not fun hp => absurd (htSaved.symm.trans hp.1) (by simp),
    ModeSnapshot.expected_of_not fun hp => absurd (hsaved.symm.trans hp.1) (by simp)]

theorem enterWindowed_ends (s : WindowState) (a : ModeAnswers) :
    Ends (captureModeSnapshot s) s a (enterWindowed s (captureModeSnapshot s) a) := by
  obtain ⟨hsaved, hfailed, hshows⟩ := leaveExclusive_spec s a.leave
  unfold enterWindowed
  rcases hleave : leaveExclusive s a.leave with ⟨left, status⟩
  rw [hleave] at hsaved hfailed hshows
  dsimp only at hsaved hfailed hshows ⊢
  cases hok : status.ok with
  | false => exact ⟨.inl (hfailed hok).1, hshows⟩
  | true =>
    have hnot := hsaved hok
    have hwindowed : Shows s → Shows { left with mode := .windowed, fullscreen := {} } :=
      fun hs => (hshows hs).of_not_saved hnot hnot rfl
    simp only [Bool.not_true, Bool.false_eq_true, if_false]
    split_ifs
    · exact (failWithRollback_ends _ _ a _).of_shows hwindowed
    · exact (failWithRollback_ends _ _ a _).of_shows hwindowed
    · exact ⟨.inr ⟨rfl, fun hp => absurd (hnot.symm.trans hp) (by simp)⟩, hwindowed⟩

/-- The display shows the mode that has just been entered. -/
theorem entered_shows (hs : Shows s) (hsaved : s.data.hasSavedDisplayMode = false)
    {device : Device} {desired : NativeMode} (validation : Int)
    (ht : t.changes = (changeDisplaySettings (changeDisplaySettings s device desired
      .validateExclusive validation) device desired .enterExclusive 0).changes)
    (hdevice : t.data.exclusiveDevice = device) (hactive : t.data.activeNativeDisplayMode = desired)
    (htSaved : t.data.hasSavedDisplayMode = true) (htSuspended : t.data.exclusiveSuspended = false) :
    Shows t := by
  intro hrestores
  have hall : RestoresSucceed (changeDisplaySettings (changeDisplaySettings s device desired
      .validateExclusive validation) device desired .enterExclusive 0) :=
    fun c hc => hrestores c (ht ▸ hc)
  have hshown := hs hall.of_cons.1.of_cons.1
  rw [ModeSnapshot.expected_of_not fun hp => absurd (hsaved.symm.trans hp.1) (by simp)] at hshown
  have hexpected : (captureModeSnapshot t).expected =
      Function.update (fun _ => none) device (some desired) := by
    rw [← hdevice, ← hactive]
    exact if_pos ⟨htSaved, htSuspended⟩
  rw [ht, hexpected]
  refine (shown_fullscreen rfl rfl).trans ?_
  exact congrArg (fun before => Function.update before device (some desired))
    ((shown_test (c := ⟨device, desired, .validateExclusive, validation⟩) rfl).trans hshown)

theorem enterFullscreen_ends (s : WindowState) (resolved : ResolvedWindowModeRequest)
    (target : Target) (a : ModeAnswers) :
    Ends (captureModeSnapshot s) s a
      (enterFullscreen s resolved target (captureModeSnapshot s) a) := by
  obtain ⟨hsaved, hfailed, hshows⟩ := leaveExclusive_spec s a.leave
  unfold enterFullscreen
  rcases hleave : leaveExclusive s a.leave with ⟨left, status⟩
  rw [hleave] at hsaved hfailed hshows
  dsimp only at hsaved hfailed hshows ⊢
  cases hok : status.ok with
  | false => exact ⟨.inl (hfailed hok).1, hshows⟩
  | true =>
    have hnot := hsaved hok
    rw [if_neg (by simp)]
    by_cases hexclusive : resolved.mode = .exclusiveFullscreen
    · rw [if_pos hexclusive]
      cases a.current with
      | error failure => exact (failWithRollback_ends _ _ a _).of_shows hshows
      | ok current =>
        dsimp only
        -- the display changes record calls only, until the mode is entered
        have hdevice : Shows s → Shows { left with
            data := { left.data with exclusiveDevice := target.device } } :=
          fun hs => (hshows hs).of_not_saved hnot hnot rfl
        have hvalidated : Shows s → Shows (changeDisplaySettings { left with
            data := { left.data with exclusiveDevice := target.device } } target.device
              (target.nativeMode.getD current) .validateExclusive a.validation) :=
          fun hs ht => (shown_test rfl).trans (hdevice hs ht.of_cons.1)
        by_cases hvalidation : a.validation = 0
        · rw [if_neg (not_not.2 hvalidation)]
          by_cases henter : a.enter = 0
          · rw [if_neg (not_not.2 henter)]
            refine Ends.of_shows (placeFullscreen_ends ?_ _ a) fun hs => ?_
            · exact fun _ => ⟨hexclusive, rfl, rfl⟩
            · refine entered_shows (hdevice hs) hnot a.validation ?_ rfl rfl rfl rfl
              rw [henter]
              rfl
          · rw [if_pos henter]
            refine (failWithRollback_ends _ _ a _).of_shows fun hs ht => ?_
            exact (shown_failed henter).trans (hvalidated hs ht.of_cons.1)
        · rw [if_pos hvalidation]
          exact (failWithRollback_ends _ _ a _).of_shows hvalidated
    · rw [if_neg hexclusive]
      refine Ends.of_shows (placeFullscreen_ends ?_ _ a) fun hs => ?_
      · exact fun hp => absurd (hnot.symm.trans hp) (by simp)
      · exact (hshows hs).of_not_saved hnot hnot rfl

theorem inTransition_ends {a : ModeAnswers} {f : WindowState → WindowState × Status}
    (h : ∀ r, captureModeSnapshot r = captureModeSnapshot s → Ends (captureModeSnapshot s) r a (f r)) :
    Ends (captureModeSnapshot s) s a (inTransition s f) := by
  let raised : WindowState :=
    { s with data := { s.data with modeTransitionDepth := s.data.modeTransitionDepth + 1 } }
  obtain ⟨hresult, hshows⟩ := h raised rfl
  exact ⟨hresult, fun hs => (hshows (hs.congr rfl rfl)).congr rfl rfl⟩

theorem beginTransition_ends (s : WindowState) (resolved : ResolvedWindowModeRequest)
    (a : ModeAnswers) {enter : WindowState → ModeSnapshot → WindowState × Status}
    (henter : ∀ r, Ends (captureModeSnapshot r) r a (enter r (captureModeSnapshot r))) :
    Ends (captureModeSnapshot s) s a (beginTransition s resolved a enter) := by
  -- the saved placement is no captured value
  have hbegin : ∀ r, captureModeSnapshot r = captureModeSnapshot s → (Shows s → Shows r) →
      Ends (captureModeSnapshot s) s a
        (if (!a.capture.ok) = true then (r, a.capture)
          else inTransition r fun r' => enter r' (captureModeSnapshot r)) := by
    intro r hcapture hshows
    split_ifs
    · exact ⟨.inl hcapture, hshows⟩
    · rw [← hcapture]
      refine (inTransition_ends fun r' hr' => ?_).of_shows hshows
      rw [← hr']
      exact henter r'
  unfold beginTransition
  dsimp only
  by_cases hrect : a.windowRect.ok = true
  · rw [if_neg (by simp [hrect])]
    by_cases hplacement :
        (s.mode = .windowed ∧ resolved.mode ≠ .windowed) ∧ a.savePlacement.ok = false
    · rw [if_pos hplacement]
      exact .refl s a _
    · rw [if_neg hplacement]
      refine hbegin _ ?_ ?_
      · split_ifs <;> rfl
      · split_ifs
        · exact fun hs => hs.congr rfl rfl
        · exact id
  · rw [if_pos (by simp [hrect])]
    exact .refl s a _

/-- **Transitions.** `applyWindowMode` ends with the captured values it began with or, answered by
its last query, in a fresh mode. -/
theorem applyWindowMode_ends (s : WindowState) (request : WindowModeRequest) (a : ModeAnswers) :
    Ends (captureModeSnapshot s) s a (applyWindowMode s request a) := by
  unfold applyWindowMode
  dsimp only
  split_ifs
  · exact .refl s a _
  · exact .refl s a _
  · exact .refl s a _
  · exact beginTransition_ends s _ a fun r => enterWindowed_ends r a
  · cases resolveTarget (resolveWindowModeRequest request) a with
    | error status => exact .refl s a status
    | ok target =>
      dsimp only
      split_ifs
      · exact .refl s a _
      · exact beginTransition_ends s _ a fun r => enterFullscreen_ends r _ target a

/-! ## Recovery -/

/-- Recovery ends without a display mode, or with the captured values; when the primary monitor
cannot be resolved it only forgets the mode of the window. -/
theorem recoverAfterDisplayChange_spec (s : WindowState) (force : Bool) (a : RecoverAnswers) :
    ((s.data.hasSavedDisplayMode = true →
        force = true ∨ fullscreenMonitorConnected s a = false → a.monitorFailure.ok = true) →
      (captureModeSnapshot s).Mirrors →
        (captureModeSnapshot (recoverAfterDisplayChange s force a).1).Mirrors) ∧
    (Shows s → Shows (recoverAfterDisplayChange s force a).1) := by
  unfold recoverAfterDisplayChange
  split_ifs with hhandle hthere hfailure hdepth
  · exact ⟨fun _ => id, id⟩
  · exact ⟨fun _ => id, id⟩
  · refine ⟨fun hguard _ hsaved => ?_, fun hs => hs.congr rfl rfl⟩
    simp only [not_or, not_and, Bool.not_eq_true] at hthere
    have hreached : force = true ∨ fullscreenMonitorConnected s a = false := by
      cases force with
      | true => exact .inl rfl
      | false => exact .inr (hthere.2 rfl)
    rw [hguard hsaved hreached] at hfailure
    cases hfailure
  · exact ⟨fun _ => id, id⟩
  · obtain ⟨hsaved, hfailed, hshows⟩ := leaveExclusive_spec
      { s with data := { s.data with modeTransitionDepth := s.data.modeTransitionDepth + 1 } } a.leave
    unfold inTransition
    rcases hleave : leaveExclusive
      { s with data := { s.data with modeTransitionDepth := s.data.modeTransitionDepth + 1 } } a.leave
      with ⟨left, status⟩
    rw [hleave] at hsaved hfailed hshows
    dsimp only at hsaved hfailed hshows ⊢
    rw [hleave]
    refine ⟨fun _ _ hp => ?_, fun hs ht => ?_⟩
    · cases hp
    · cases hok : status.ok with
      | false => exact absurd ht (hfailed hok).2
      | true => exact (hshows (hs.congr rfl rfl)).of_not_saved (hsaved hok) rfl rfl ht

/-! ## Runs -/

/-- The steps that do what they say: the primary monitor of a recovery can be resolved when a
display mode is saved, and the last query of a transition succeeds. -/
def Resolves (s : WindowState) : Operation → Prop
  | .setWindowMode _ a => a.geometry.ok = true
  | .recoverAfterDisplayChange force a =>
    s.data.hasSavedDisplayMode = true →
      force = true ∨ fullscreenMonitorConnected s a = false → a.monitorFailure.ok = true
  | .suspendExclusive _ | .resumeExclusive _ _ | .leaveExclusive _ => True

theorem leaveExclusive_mirrors (s : WindowState) (result : Int)
    (h : (captureModeSnapshot s).Mirrors) :
    (captureModeSnapshot (leaveExclusive s result).1).Mirrors := by
  obtain ⟨hsaved, hfailed, -⟩ := leaveExclusive_spec s result
  cases hok : (leaveExclusive s result).2.ok with
  | false => rwa [(hfailed hok).1]
  | true => exact fun hp => absurd ((hsaved hok).symm.trans hp) (by simp)

/-- **The step lemma.** Every operation keeps what the displays show, and one that resolves keeps the
flags together. -/
theorem perform_spec (s : WindowState) (op : Operation) :
    (Resolves s op → (captureModeSnapshot s).Mirrors → (captureModeSnapshot (perform s op).1).Mirrors) ∧
    (Shows s → Shows (perform s op).1) := by
  cases op with
  | setWindowMode request a =>
    obtain ⟨hresult, hshows⟩ := applyWindowMode_ends s request a
    obtain ⟨hmirrors, hactivated⟩ := activate_spec (applyWindowMode s request a).1 a
    refine ⟨fun _ h => hmirrors ?_, fun hs => hactivated (hshows hs)⟩
    rcases hresult with hsame | ⟨-, hfresh⟩
    · rwa [hsame]
    · exact hfresh.mirrors
  | suspendExclusive result =>
    exact ⟨fun _ => (suspendExclusive_spec s result).1, (suspendExclusive_spec s result).2⟩
  | resumeExclusive validationResult result =>
    exact ⟨fun _ => (resumeExclusive_spec s validationResult result).1,
      (resumeExclusive_spec s validationResult result).2⟩
  | leaveExclusive result =>
    exact ⟨fun _ => leaveExclusive_mirrors s result, (leaveExclusive_spec s result).2.2⟩
  | recoverAfterDisplayChange force a => exact recoverAfterDisplayChange_spec s force a

/-- **The runs.** While the display changes that restore succeed, a display is in a mode set by the
window exactly when a desktop mode is saved unsuspended, and then in the active mode. When every
step resolves, the saved mode belongs to exclusive fullscreen with one suspension, and a transition
that fails changes nothing. -/
theorem windowMode_run {tr : List (Transition WindowState Operation)} {u : WindowState}
    (h : Trace step {} tr u) :
    (RestoresSucceed u → ∀ device mode, shown u.changes device = some mode ↔
      u.data.hasSavedDisplayMode = true ∧ u.data.exclusiveSuspended = false ∧
        device = u.data.exclusiveDevice ∧ mode = u.data.activeNativeDisplayMode) ∧
    ((∀ x ∈ tr, Resolves x.pre x.action) →
      (u.data.hasSavedDisplayMode = true → u.mode = .exclusiveFullscreen ∧
        u.fullscreen.suspended = u.data.exclusiveSuspended) ∧
      ∀ x ∈ tr, ∀ request a, x.action = .setWindowMode request a →
        (applyWindowMode x.pre request a).2.ok = false →
          captureModeSnapshot (applyWindowMode x.pre request a).1 = captureModeSnapshot x.pre ∧
            x.post = (activate (applyWindowMode x.pre request a).1 a).1) := by
  have hshows : Shows u := h.invariant (G := fun _ _ => True) (fun _ => rfl)
    (fun s op t hs _ hstep => by
      obtain rfl := Option.some.inj hstep
      exact (perform_spec s op).2 hs) (fun _ _ => trivial) |>.1
  refine ⟨fun hrestores device mode => ?_, fun hresolves => ⟨?_, fun x hx request a hop hfailed => ?_⟩⟩
  · rw [hshows hrestores]
    by_cases hsaved : u.data.hasSavedDisplayMode = true ∧ u.data.exclusiveSuspended = false
    · rw [show (captureModeSnapshot u).expected = _ from if_pos hsaved]
      by_cases hdevice : device = u.data.exclusiveDevice
      · subst hdevice
        simp [captureModeSnapshot, hsaved, eq_comm]
      · simp [captureModeSnapshot, hdevice]
    · rw [ModeSnapshot.expected_of_not hsaved]
      exact iff_of_false (by simp) fun hall => hsaved ⟨hall.1, hall.2.1⟩
  · exact (h.invariant (I := fun s => (captureModeSnapshot s).Mirrors) nofun
      (fun s op t hs hguard hstep => by
        obtain rfl := Option.some.inj hstep
        exact (perform_spec s op).1 hguard hs) hresolves).1
  · have hgeometry : a.geometry.ok = true := by simpa [Resolves, hop] using hresolves x hx
    have hstep := h.mem_step hx
    rw [hop] at hstep
    refine ⟨?_, (Option.some.inj hstep).symm⟩
    rcases (applyWindowMode_ends x.pre request a).result with hsame | ⟨hstatus, -⟩
    · exact hsame
    · rw [hstatus, hgeometry] at hfailed
      cases hfailed

/-- A window in exclusive fullscreen fails to place a second one and rolls back. -/
theorem windowMode_run_rollback :
    ∃ u : WindowState, u.mode = .exclusiveFullscreen ∧ shown u.changes "DISPLAY1" = some {} := by
  let failure : Status := makeStatus .nativeFailure
  have hrun : ∃ r, Lib.run step {}
      [.setWindowMode (.exclusiveFullscreen none none) {},
        .setWindowMode (.exclusiveFullscreen (some 2) none)
          { monitor := .ok 2, device := "DISPLAY2", placeFullscreen := failure }] = some r ∧
      r.2.mode = .exclusiveFullscreen ∧ r.2.data.hasSavedDisplayMode = true ∧
      r.2.data.exclusiveSuspended = false ∧ r.2.data.exclusiveDevice = "DISPLAY1" ∧
      r.2.data.activeNativeDisplayMode = {} ∧ r.2.changes.all (·.result == 0) = true :=
    ⟨_, rfl, rfl, rfl, rfl, rfl, rfl, rfl⟩
  obtain ⟨r, hr, hmode, hsaved, hsuspended, hdevice, hactive, hall⟩ := hrun
  refine ⟨r.2, hmode, ((windowMode_run (Trace.of_run hr)).1 (fun c hc _ => ?_) _ _).2
    ⟨hsaved, hsuspended, hdevice.symm, hactive.symm⟩⟩
  simpa using List.all_eq_true.1 hall c hc

/-- The primary monitor cannot be resolved while a desktop mode is saved, and the mode of the window
is forgotten without it; the last query of a transition fails behind the change. -/
theorem windowMode_run_fails :
    (¬ ∀ tr u, Trace step {} tr u → u.data.hasSavedDisplayMode = true →
      u.mode = .exclusiveFullscreen) ∧
    ¬ ∀ tr u, Trace step {} tr u → ∀ x ∈ tr, ∀ request a, x.action = .setWindowMode request a →
      (applyWindowMode x.pre request a).2.ok = false →
        captureModeSnapshot (applyWindowMode x.pre request a).1 = captureModeSnapshot x.pre := by
  let failure : Status := makeStatus .statFailed
  constructor
  · intro hall
    have hrun : ∃ r, Lib.run step {}
        [.setWindowMode (.exclusiveFullscreen none none) {},
          .recoverAfterDisplayChange true { portablePrimary := failure }] = some r ∧
        r.2.data.hasSavedDisplayMode = true ∧ r.2.mode = .windowed := ⟨_, rfl, rfl, rfl⟩
    obtain ⟨r, hr, hsaved, hmode⟩ := hrun
    have hexclusive := hall r.1 r.2 (Trace.of_run hr) hsaved
    rw [hmode] at hexclusive
    cases hexclusive
  · intro hall
    let request : WindowModeRequest := .borderlessFullscreen none
    have hrun : ∃ r, Lib.run step {} [.setWindowMode request { geometry := failure }] = some r ∧
        ∃ x ∈ r.1, x.pre = {} ∧ x.action = .setWindowMode request { geometry := failure } :=
      ⟨_, rfl, _, List.mem_singleton_self _, rfl, rfl⟩
    obtain ⟨r, hr, x, hx, hpre, haction⟩ := hrun
    have hsame := hall r.1 r.2 (Trace.of_run hr) x hx request _ haction (by rw [hpre]; rfl)
    rw [hpre] at hsame
    exact absurd hsame (by decide)

end

end Fullscreen

end Desktop

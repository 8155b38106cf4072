import Mathlib.Data.Nat.Init
import GameWIP.Action.Proof.BindingOrder

/-!
# A Tap and a Hold on one combo

While a combo is active and does not start anew (`ActivePeriod`), a `Hold` on it presses at most
once, when the frame times since the last start have reached `holdSeconds` (`hold_pressed`,
`hold_once`), and its flag stays set until the next start (`holdFired_stays`). A `Tap` presses when
the combo stops and asks for that flag (`tap_exclusive`). The flag is reset by a start, also by one
in the frame of the stop: then a `Hold` in front of the `Tap` has forgotten that it fired.
-/

namespace Action

open Lib (Trace Transition)
open Input (InputState InputControl)

variable {F : Type*} [FloatOps F]

namespace FrameRun

variable (run : FrameRun F) (watched : Nat) (frames : Nat → Frame F)

/-! ## What a frame sees -/

/-- The input state a frame of the run is evaluated with. -/
def inputAt (k : Nat) : InputState F := (run.after watched frames k).evaluatedInput (frames k)

/-- The combo is active in front of a frame, from the inputs so far. -/
def comboActive (combo : ActionCombo) : Nat → Bool
  | 0 => false
  | k + 1 => nextBindingActive (run.inputAt watched frames k) combo (comboActive combo k)

/-- The combo starts in a frame. -/
def comboStarts (combo : ActionCombo) (k : Nat) : Bool :=
  startsThisFrame (run.inputAt watched frames k) combo (run.comboActive watched frames combo k)

/-- The time a frame counts for. -/
def secondsAt (k : Nat) : F := ActionMap.frameSecondsOf (frames k).deltaSeconds

/-- The times of the frames from `s` to `k` together. -/
def secondsBetween (s k : Nat) : F :=
  (List.range' s (k + 1 - s)).foldl (fun seconds m => FloatOps.add seconds (secondsAt frames m))
    FloatOps.zero

/-- The map a frame runs its binding loop on. -/
def mapAt (k : Nat) : ActionMap F :=
  (run.after watched frames k).map.advanceFrame.recordChanges (run.inputAt watched frames k)

/-- The binding reports a press in a frame. -/
def pressedAt (i k : Nat) : Bool :=
  ((run.mapAt watched frames k).evaluatedAt (run.inputAt watched frames k) (secondsAt frames k)
    i).any (·.2.pressed)

/-- The runtime state in front of a frame of a binding new at the start of the run. -/
def stateAt (binding : ActionBinding F) : Nat → RuntimeBindingState F
  | 0 => .initial
  | k + 1 => run.map.stepState (run.inputAt watched frames k) (secondsAt frames k) binding
      (stateAt binding k)

variable {run watched frames} {i k : Nat} {binding : ActionBinding F}

theorem after_same (hw : run.map.WellFormed) (watched : Nat) (frames : Nat → Frame F) (k : Nat) :
    (run.after watched frames k).map.WellFormed ∧
      (run.after watched frames k).map.bindings = run.map.bindings ∧
      (run.after watched frames k).map.actionKinds = run.map.actionKinds := by
  induction k with
  | zero => exact ⟨hw, rfl, rfl⟩
  | succ k ih =>
    obtain ⟨hwf, hbindings, hkinds⟩ := ih
    have hadvanced := ActionMap.apply_wellFormed hwf .advanceFrame
    refine ⟨ActionMap.evaluate_wellFormed hadvanced _ _, ?_, ?_⟩
    · exact (ActionMap.evaluate_bindings _ _ _).trans hbindings
    · exact (ActionMap.evaluate_kinds hadvanced _ _).trans hkinds

theorem mapAt_same (hw : run.map.WellFormed) (watched : Nat) (frames : Nat → Frame F) (k : Nat) :
    (run.mapAt watched frames k).WellFormed ∧
      (run.mapAt watched frames k).bindings = run.map.bindings ∧
      (run.mapAt watched frames k).actionKinds = run.map.actionKinds := by
  obtain ⟨hwf, hbindings, hkinds⟩ := after_same hw watched frames k
  have hsame := ActionMap.recordChanges_same (run.after watched frames k).map.advanceFrame
    (run.inputAt watched frames k)
  exact ⟨hsame.wellFormed (ActionMap.apply_wellFormed hwf .advanceFrame),
    hsame.bindings.trans hbindings, hsame.kinds.trans hkinds⟩

/-- **The states of the run**: those the binding steps through on its own. -/
theorem after_state (hw : run.map.WellFormed) (hb : run.map.bindings[i]? = some binding)
    (htrigger : binding.gesture.trigger ≠ .value)
    (hs : run.map.bindingStates[i]? = some .initial) (k : Nat) :
    (run.after watched frames k).map.bindingStates[i]? =
      some (run.stateAt watched frames binding k) := by
  induction k with
  | zero => exact hs
  | succ k ih =>
    obtain ⟨hwf, hbindings, hkinds⟩ := after_same hw watched frames k
    have hadvanced : (run.after watched frames k).map.advanceFrame.WellFormed :=
      ActionMap.apply_wellFormed hwf .advanceFrame
    have hnext := ActionMap.evaluate_states hadvanced (hbindings ▸ hb) htrigger ih
      (run.inputAt watched frames k) (frames k).deltaSeconds
    have hvalid : (run.after watched frames k).map.advanceFrame.isValidAction binding.action =
        run.map.isValidAction binding.action := congrArg (fun l => decide (_ < List.length l)) hkinds
    rw [ActionMap.stepState, hvalid] at hnext
    exact hnext

/-- What the round of a binding new at the start of the run leaves behind. -/
theorem mapAt_evaluated (hw : run.map.WellFormed) (hb : run.map.bindings[i]? = some binding)
    (htrigger : binding.gesture.trigger ≠ .value)
    (hs : run.map.bindingStates[i]? = some .initial) (k : Nat) :
    (run.mapAt watched frames k).bindingStates[i]? =
        some (run.stateAt watched frames binding k) ∧
      run.pressedAt watched frames i k = (run.map.isValidAction binding.action &&
        (evaluateGesture (run.inputAt watched frames k) binding
          (run.stateAt watched frames binding k)
          ((run.mapAt watched frames k).firedAt (run.inputAt watched frames k)
            (secondsAt frames k) i) (secondsAt frames k)).pressed) := by
  obtain ⟨-, hbindings, hkinds⟩ := mapAt_same hw watched frames k
  have hafter := (after_same hw watched frames k).2.1
  have hbound : (run.after watched frames k).map.advanceFrame.bindings[i]? = some binding :=
    hafter ▸ hb
  have hstate : (run.mapAt watched frames k).bindingStates[i]? =
      some (run.stateAt watched frames binding k) :=
    (ActionMap.recordChanges_state hbound htrigger _).trans (after_state hw hb htrigger hs k)
  have hvalid : (run.mapAt watched frames k).isValidAction binding.action =
      run.map.isValidAction binding.action := congrArg (fun l => decide (_ < List.length l)) hkinds
  refine ⟨hstate, ?_⟩
  rw [pressedAt, ActionMap.evaluatedAt_eq (hbindings ▸ hb) hstate, hvalid]
  split_ifs with h
  · rw [h]
    rfl
  · rw [eq_false_of_ne_true h]
    rfl

/-- A binding is active as its combo is. -/
theorem stateAt_active (htrigger : binding.gesture.trigger ≠ .value)
    (hvalid : run.map.isValidAction binding.action = true) (k : Nat) :
    (run.stateAt watched frames binding k).active =
      run.comboActive watched frames binding.combo k := by
  induction k with
  | zero => rfl
  | succ k ih =>
    rw [stateAt, ActionMap.stepState, if_pos hvalid, nextState_active htrigger, ih, comboActive]

/-- **The presses of a button action** are those of its bindings. -/
theorem wasPressed_iff (hw : run.map.WellFormed) {action : Nat}
    (hkind : run.map.actionKinds[action]? = some .button) (k : Nat) :
    (run.after watched frames (k + 1)).map.wasPressed action = true ↔
      ∃ (i : Nat) (binding : ActionBinding F), run.map.bindings[i]? = some binding ∧
        binding.action = action ∧ run.pressedAt watched frames i k = true := by
  obtain ⟨hwf, hbindings, hkinds⟩ := after_same hw watched frames k
  obtain ⟨hmapWf, hmapBindings, hmapKinds⟩ := mapAt_same hw watched frames k
  have hadvanced : (run.after watched frames k).map.advanceFrame.WellFormed :=
    ActionMap.apply_wellFormed hwf .advanceFrame
  have hlt := (List.getElem?_eq_some_iff.1 hkind).1
  obtain ⟨actionState, ha⟩ : ∃ actionState,
      (run.after watched frames k).map.actionStates[action]? = some actionState :=
    ⟨_, List.getElem?_eq_getElem (by rw [hwf.actions, hkinds]; exact hlt)⟩
  have hcleared : (run.after watched frames k).map.advanceFrame.actionStates[action]? = some
      { actionState with down := false, pressed := false, released := false, value := .zero } := by
    simp [ActionMap.advanceFrame, ha]
  have hreports := ActionMap.evaluate_reports hadvanced (hkinds ▸ hkind) hcleared rfl
    (run.inputAt watched frames k) (frames k).deltaSeconds
  obtain ⟨next, hnext, hequal⟩ := Option.map_eq_some_iff.1 hreports
  have hvalid : (run.after watched frames (k + 1)).map.isValidAction action = true :=
    decide_eq_true (by rw [(after_same hw watched frames (k + 1)).2.2]; exact hlt)
  have hpressed : (run.after watched frames (k + 1)).map.wasPressed action = next.pressed := by
    rw [ActionMap.wasPressed, hvalid]
    exact congrArg (Option.any _) hnext
  simp only [ActionState.reports, Prod.mk.injEq] at hequal
  rw [hpressed, hequal.2.1, ActionMap.someReports, List.any_eq_true]
  constructor
  · rintro ⟨i, -, hreport⟩
    obtain ⟨⟨binding, locals⟩, hevaluated, hlocals⟩ := (Option.any_eq_true _ _).1 hreport
    rw [Bool.and_eq_true, decide_eq_true_eq] at hlocals
    have hb := hmapBindings ▸ ActionMap.evaluatedAt_binding hevaluated
    exact ⟨i, binding, hb, hlocals.1, (Option.any_eq_true _ _).2 ⟨_, hevaluated, hlocals.2⟩⟩
  · rintro ⟨i, binding, hb, haction, hreport⟩
    obtain ⟨⟨binding', locals⟩, hevaluated, hlocals⟩ := (Option.any_eq_true _ _).1 hreport
    obtain rfl := Option.some.inj
      (hb.symm.trans (hmapBindings ▸ ActionMap.evaluatedAt_binding hevaluated))
    have hmap := hmapBindings.symm ▸ hb
    refine ⟨i, List.mem_range.2 (List.getElem?_eq_some_iff.1 hmap).1, ?_⟩
    refine (Option.any_eq_true _ _).2 ⟨_, hevaluated, ?_⟩
    rw [Bool.and_eq_true, decide_eq_true_eq]
    exact ⟨haction, hlocals⟩

/-- A combo that goes on without a start was active. -/
theorem comboActive_of_next {combo : ActionCombo}
    (hactive : run.comboActive watched frames combo (k + 1) = true)
    (hstarts : run.comboStarts watched frames combo k = false) :
    run.comboActive watched frames combo k = true := by
  rw [comboActive, nextBindingActive] at hactive
  rw [comboStarts] at hstarts
  rw [hstarts, Bool.or_false] at hactive
  by_cases hmode : combo.activationMode = .anyOrder
  · rw [startsThisFrame, if_pos hmode] at hstarts
    rw [if_pos hmode, Bool.and_true] at hactive
    simpa [hactive] using hstarts
  · rw [if_neg hmode, Bool.and_eq_true] at hactive
    exact hactive.2

/-! ## Hold -/

/-- What a `Hold` does in a frame. -/
theorem evaluateGesture_held (ht : binding.gesture.trigger = .hold) (inputState : InputState F)
    (bindingState : RuntimeBindingState F) (matching : Bool) (frameSeconds : F) :
    let evaluated := evaluateGesture inputState binding bindingState matching frameSeconds
    let starts := startsThisFrame inputState binding.combo bindingState.active
    (nextBindingActive inputState binding.combo bindingState.active = true →
      evaluated.state.heldSeconds =
        FloatOps.add (if starts then FloatOps.zero else bindingState.heldSeconds) frameSeconds) ∧
    (evaluated.pressed = true →
      nextBindingActive inputState binding.combo bindingState.active = true ∧
      (!starts && bindingState.holdFired) = false ∧ evaluated.state.holdFired = true ∧
      FloatOps.le binding.gesture.holdSeconds evaluated.state.heldSeconds = true) ∧
    (starts = false → bindingState.holdFired = true → evaluated.state.holdFired = true) := by
  rw [evaluateGesture, ht]
  dsimp only
  by_cases hnext : nextBindingActive inputState binding.combo bindingState.active = true
  · rw [if_pos hnext]
    cases hstarts : startsThisFrame inputState binding.combo bindingState.active <;>
      cases hfired : bindingState.holdFired <;> simp [hnext]
  · rw [if_neg hnext]
    cases startsThisFrame inputState binding.combo bindingState.active <;> simp [hnext]

section

variable {hold : ActionBinding F} (ht : hold.gesture.trigger = .hold)
  (hvalid : run.map.isValidAction hold.action = true)
include ht hvalid

omit ht in
/-- The next state of a `Hold` is the one its gesture leaves behind. -/
theorem stateAt_hold (k : Nat) (matching : Bool) :
    run.stateAt watched frames hold (k + 1) =
      (evaluateGesture (run.inputAt watched frames k) hold (run.stateAt watched frames hold k)
        matching (secondsAt frames k)).state := by
  rw [stateAt, ActionMap.stepState, if_pos hvalid, evaluateGesture_state]

/-- **A press of a Hold** in a frame: the flag was not set, and is from now on. -/
theorem hold_pressed (hw : run.map.WellFormed) {j : Nat} (hb : run.map.bindings[j]? = some hold)
    (hs : run.map.bindingStates[j]? = some .initial)
    (hpressed : run.pressedAt watched frames j k = true) :
    run.comboActive watched frames hold.combo (k + 1) = true ∧
      (run.comboStarts watched frames hold.combo k = false →
        (run.stateAt watched frames hold k).holdFired = false) ∧
      (run.stateAt watched frames hold (k + 1)).holdFired = true ∧
      FloatOps.le hold.gesture.holdSeconds (run.stateAt watched frames hold (k + 1)).heldSeconds =
        true := by
  have htrigger : hold.gesture.trigger ≠ .value := by simp [ht]
  have hevaluated := (mapAt_evaluated hw hb htrigger hs k).2.symm.trans hpressed
  rw [hvalid, Bool.true_and] at hevaluated
  obtain ⟨hactive, hfired, hset, hle⟩ := (evaluateGesture_held ht _ _ _ _).2.1 hevaluated
  rw [← stateAt_hold hvalid] at hset hle
  rw [stateAt_active htrigger hvalid] at hactive hfired
  refine ⟨hactive, fun hstarts => ?_, hset, hle⟩
  rw [comboStarts] at hstarts
  simpa [hstarts] using hfired

/-- **The flag stays set** until the next start. -/
theorem holdFired_stays {p q : Nat}
    (hfired : (run.stateAt watched frames hold p).holdFired = true)
    (hstarts : ∀ m, p ≤ m → m < q → run.comboStarts watched frames hold.combo m = false) {m : Nat}
    (hpm : p ≤ m) (hmq : m ≤ q) : (run.stateAt watched frames hold m).holdFired = true := by
  have htrigger : hold.gesture.trigger ≠ .value := by simp [ht]
  induction m, hpm using Nat.le_induction with
  | base => exact hfired
  | succ m hpm ih =>
    have hkeeps := (evaluateGesture_held ht (run.inputAt watched frames m)
      (run.stateAt watched frames hold m) false (secondsAt frames m)).2.2
    rw [stateAt_active htrigger hvalid] at hkeeps
    rw [stateAt_hold hvalid m false]
    exact hkeeps (hstarts m hpm hmq) (ih (Nat.le_of_lt hmq))

/-- **The time of a Hold** is that of the frames since the last start. -/
theorem heldSeconds_eq (k : Nat)
    (hactive : run.comboActive watched frames hold.combo (k + 1) = true) :
    ∃ s ≤ k, run.comboStarts watched frames hold.combo s = true ∧
      (∀ m, s ≤ m → m ≤ k → run.comboActive watched frames hold.combo (m + 1) = true) ∧
      (∀ m, s < m → m ≤ k → run.comboStarts watched frames hold.combo m = false) ∧
      (run.stateAt watched frames hold (k + 1)).heldSeconds = secondsBetween frames s k := by
  have htrigger : hold.gesture.trigger ≠ .value := by simp [ht]
  have hstep : ∀ k, run.comboActive watched frames hold.combo (k + 1) = true →
      (run.stateAt watched frames hold (k + 1)).heldSeconds =
        FloatOps.add (if run.comboStarts watched frames hold.combo k = true then FloatOps.zero
          else (run.stateAt watched frames hold k).heldSeconds) (secondsAt frames k) := by
    intro k hactive
    have hheld := (evaluateGesture_held ht (run.inputAt watched frames k)
      (run.stateAt watched frames hold k) false (secondsAt frames k)).1
    rw [stateAt_active htrigger hvalid] at hheld
    rw [stateAt_hold hvalid k false]
    exact hheld hactive
  have hfirst : ∀ k, run.comboActive watched frames hold.combo (k + 1) = true →
      run.comboStarts watched frames hold.combo k = true →
      (run.stateAt watched frames hold (k + 1)).heldSeconds = secondsBetween frames k k := by
    intro k hactive hstarts
    rw [hstep k hactive, if_pos hstarts, secondsBetween, Nat.add_sub_cancel_left]
    rfl
  induction k with
  | zero =>
    have hstarts : run.comboStarts watched frames hold.combo 0 = true := by
      by_contra hno
      cases comboActive_of_next hactive (eq_false_of_ne_true hno)
    refine ⟨0, Nat.le_refl 0, hstarts, fun m _ hm => ?_, fun m hm hm' => ?_, hfirst 0 hactive hstarts⟩
    · rwa [Nat.le_zero.1 hm]
    · omega
  | succ k ih =>
    by_cases hstarts : run.comboStarts watched frames hold.combo (k + 1) = true
    · refine ⟨k + 1, Nat.le_refl _, hstarts, fun m hm hm' => ?_, fun m hm hm' => ?_,
        hfirst _ hactive hstarts⟩
      · obtain rfl : m = k + 1 := by omega
        exact hactive
      · omega
    · have hbefore := comboActive_of_next hactive (eq_false_of_ne_true hstarts)
      obtain ⟨s, hsk, hs, hactives, hquiet, hheld⟩ := ih hbefore
      refine ⟨s, Nat.le_succ_of_le hsk, hs, fun m hm hm' => ?_, fun m hm hm' => ?_, ?_⟩
      · rcases Nat.lt_or_eq_of_le hm' with hlt | rfl
        · exact hactives m hm (Nat.le_of_lt_succ hlt)
        · exact hactive
      · rcases Nat.lt_or_eq_of_le hm' with hlt | rfl
        · exact hquiet m hm (Nat.le_of_lt_succ hlt)
        · exact eq_false_of_ne_true hstarts
      · rw [hstep _ hactive, if_neg hstarts, hheld, secondsBetween, secondsBetween,
          show k + 1 + 1 - s = k + 1 - s + 1 by omega, List.range'_concat, List.foldl_append]
        simp only [List.foldl_cons, List.foldl_nil, Nat.one_mul]
        rw [show s + (k + 1 - s) = k + 1 by omega]

end

/-! ## The period -/

/-- From frame `p` to frame `q` the combo is active after each frame and does not start anew. -/
structure ActivePeriod (run : FrameRun F) (watched : Nat) (frames : Nat → Frame F)
    (combo : ActionCombo) (p q : Nat) : Prop where
  active : ∀ k, p ≤ k → k < q → run.comboActive watched frames combo (k + 1) = true
  quiet : ∀ k, p < k → k < q → run.comboStarts watched frames combo k = false

theorem comboActive_congr {combo combo' : ActionCombo} (hnodup : combo.modifiers.Nodup)
    (hsame : areSameCombo combo combo' = true) (k : Nat) :
    run.comboActive watched frames combo k = run.comboActive watched frames combo' k := by
  induction k with
  | zero => rfl
  | succ k ih => rw [comboActive, comboActive, ih, nextBindingActive_eq hnodup hsame]

theorem comboStarts_congr {combo combo' : ActionCombo} (hnodup : combo.modifiers.Nodup)
    (hsame : areSameCombo combo combo' = true) (k : Nat) :
    run.comboStarts watched frames combo k = run.comboStarts watched frames combo' k := by
  rw [comboStarts, comboStarts, comboActive_congr hnodup hsame, startsThisFrame_eq hnodup hsame]

theorem ActivePeriod.congr {combo combo' : ActionCombo} {p q : Nat}
    (h : run.ActivePeriod watched frames combo p q) (hnodup : combo'.modifiers.Nodup)
    (hsame : areSameCombo combo' combo = true) : run.ActivePeriod watched frames combo' p q where
  active k hp hq := (comboActive_congr hnodup hsame _).trans (h.active k hp hq)
  quiet k hp hq := (comboStarts_congr hnodup hsame _).trans (h.quiet k hp hq)

/-- A `Tap` presses when its combo stops and no matching `Hold` has fired. -/
theorem tap_pressed (hw : run.map.WellFormed) (ht : binding.gesture.trigger = .tap)
    (hb : run.map.bindings[i]? = some binding) (hs : run.map.bindingStates[i]? = some .initial)
    (hpressed : run.pressedAt watched frames i k = true) :
    run.comboActive watched frames binding.combo k = true ∧
      run.comboActive watched frames binding.combo (k + 1) = false ∧
      (run.mapAt watched frames k).firedAt (run.inputAt watched frames k) (secondsAt frames k) i =
        false := by
  have htrigger : binding.gesture.trigger ≠ .value := by simp [ht]
  rw [(mapAt_evaluated hw hb htrigger hs k).2, Bool.and_eq_true] at hpressed
  obtain ⟨hvalid, hpressed⟩ := hpressed
  rw [evaluateGesture, ht] at hpressed
  simp only [Bool.and_eq_true, Bool.not_eq_true', stateAt_active htrigger hvalid] at hpressed
  exact ⟨hpressed.1.1, hpressed.1.2, hpressed.2⟩

/-- **A Hold presses at most once** in a period. -/
theorem hold_once (hw : run.map.WellFormed) {hold : ActionBinding F}
    (ht : hold.gesture.trigger = .hold) {j : Nat} (hb : run.map.bindings[j]? = some hold)
    (hs : run.map.bindingStates[j]? = some .initial) {p q : Nat}
    (hperiod : run.ActivePeriod watched frames hold.combo p q) {k m : Nat} (hp : p ≤ k)
    (hkm : k < m) (hq : m < q) (hpressed : run.pressedAt watched frames j k = true) :
    run.pressedAt watched frames j m = false := by
  by_contra hagain
  have hvalid : run.map.isValidAction hold.action = true := by
    rw [(mapAt_evaluated hw hb (by simp [ht]) hs k).2, Bool.and_eq_true] at hpressed
    exact hpressed.1
  have hfired := (hold_pressed ht hvalid hw hb hs hpressed).2.2.1
  have hstays := holdFired_stays (q := m) ht hvalid hfired
    (fun n hn hn' => hperiod.quiet n (by omega) (by omega)) hkm (Nat.le_refl m)
  have hunset := (hold_pressed ht hvalid hw hb hs (eq_true_of_ne_false hagain)).2.1
    (hperiod.quiet m (by omega) hq)
  rw [hstays] at hunset
  cases hunset

end FrameRun

/-- A `Tap` and a `Hold` on one combo, both new. -/
structure ActionMap.TapAndHold (map : ActionMap F) (i j : Nat) (tap hold : ActionBinding F) :
    Prop where
  tapAt : map.bindings[i]? = some tap
  tapTrigger : tap.gesture.trigger = .tap
  tapState : map.bindingStates[i]? = some .initial
  holdAt : map.bindings[j]? = some hold
  holdTrigger : hold.gesture.trigger = .hold
  holdState : map.bindingStates[j]? = some .initial
  sameCombo : areSameCombo hold.combo tap.combo = true

/-- A `Hold` in front of the `Tap` that has fired does not stop and start again in the frame. -/
def Frame.KeepsHold (frame : Frame F) (run : FrameRun F) (combo : ActionCombo) (i j : Nat) :
    Prop :=
  j < i → ∀ holdState, run.map.bindingStates[j]? = some holdState → holdState.holdFired = true →
    stopsThisFrame (run.evaluatedInput frame) combo holdState.active = true →
      startsThisFrame (run.evaluatedInput frame) combo holdState.active = false

/-- **A Tap behind a Hold that fired** does not press at the end of the period. -/
theorem FrameRun.tap_exclusive {run : FrameRun F} {watched : Nat} {frames : Nat → Frame F}
    (hw : run.map.WellFormed) {i j : Nat} {tap hold : ActionBinding F}
    (h : run.map.TapAndHold i j tap hold) (hnodup : hold.combo.modifiers.Nodup) {p q k : Nat}
    (hperiod : run.ActivePeriod watched frames tap.combo p q)
    (hkeeps : (frames q).KeepsHold (run.after watched frames q) hold.combo i j) (hp : p ≤ k)
    (hq : k < q) (hpressed : run.pressedAt watched frames j k = true) :
    run.pressedAt watched frames i q = false := by
  have htrigger : hold.gesture.trigger ≠ .value := by simp [h.holdTrigger]
  have hvalid : run.map.isValidAction hold.action = true := by
    rw [(mapAt_evaluated hw h.holdAt htrigger h.holdState k).2, Bool.and_eq_true] at hpressed
    exact hpressed.1
  have hholds := hperiod.congr hnodup h.sameCombo
  have hfired := (hold_pressed h.holdTrigger hvalid hw h.holdAt h.holdState hpressed).2.2.1
  have hstays := holdFired_stays (q := q) h.holdTrigger hvalid hfired
    (fun n hn hn' => hholds.quiet n (by omega) hn') hq (Nat.le_refl q)
  by_contra htap
  obtain ⟨hactive, hnext, hunset⟩ := tap_pressed hw h.tapTrigger h.tapAt h.tapState
    (eq_true_of_ne_false htap)
  rw [← comboActive_congr hnodup h.sameCombo] at hactive hnext
  obtain ⟨hmapWf, hbindings, hkinds⟩ := mapAt_same hw watched frames q
  have hji : j ≠ i := by
    intro heq
    subst heq
    obtain rfl := Option.some.inj (h.tapAt.symm.trans h.holdAt)
    cases h.tapTrigger.symm.trans h.holdTrigger
  have hstate : (run.mapAt watched frames q).bindingStates[j]? =
      some (run.stateAt watched frames hold q) :=
    (mapAt_evaluated hw h.holdAt htrigger h.holdState q).1
  have hset : (run.mapAt watched frames q).firedAt (run.inputAt watched frames q)
      (secondsAt frames q) i = true := by
    rw [ActionMap.firedAt_iff hmapWf (hbindings ▸ h.tapAt)]
    refine ⟨j, hold, _, hji, hbindings ▸ h.holdAt, hstate, h.holdTrigger, h.sameCombo, ?_⟩
    split_ifs with hlt
    · -- the Hold has had its round: it stops, and the guard keeps it from starting
      have hmapValid : (run.mapAt watched frames q).isValidAction hold.action = true := by
        rw [ActionMap.isValidAction, hkinds]
        exact hvalid
      have hstops : stopsThisFrame (run.inputAt watched frames q) hold.combo
          (run.stateAt watched frames hold q).active = true := by
        rw [stopsThisFrame, stateAt_active htrigger hvalid, hactive, Bool.true_and]
        rw [comboActive, hactive] at hnext
        rw [hnext]
        rfl
      have hstarts : startsThisFrame (run.inputAt watched frames q) hold.combo
          (run.stateAt watched frames hold q).active = false :=
        hkeeps hlt _ (after_state hw h.holdAt htrigger h.holdState q) hstays hstops
      rw [ActionMap.stepState, if_pos hmapValid, nextState_holdFired h.holdTrigger hstops, hstays,
        hstarts]
      rfl
    · exact hstays
  rw [hset] at hunset
  cases hunset

/-- **A Tap and a Hold on one combo.** In every period in which the combo stays active without
a new start the `Hold` presses at most once, and only when the frames since the last start, which
is the first of the period if that is one, have taken `holdSeconds`. The `Tap` presses only where
the combo stops, and at the end of a period only if the `Hold` has not pressed in it, provided that
the frame of the end keeps the `Hold`. -/
theorem tap_hold_exclusive [FloatFinite F] {actionCount : Nat}
    {operations : List (Transition (BindingRun F) (BindingOperation F))} {base : BindingRun F}
    (hbase : Trace bindingStep (.initial actionCount) operations base) {i j : Nat}
    {tap hold : ActionBinding F} (h : base.map.TapAndHold i j tap hold) (input : InputState F)
    (watched : Nat) (frames : Nat → Frame F) {p q : Nat} :
    let run : FrameRun F := ⟨input, base.map, []⟩
    run.ActivePeriod watched frames tap.combo p q →
    (∀ k, run.pressedAt watched frames i k = true →
      run.comboActive watched frames tap.combo k = true ∧
        run.comboActive watched frames tap.combo (k + 1) = false) ∧
    (∀ k, p ≤ k → k < q → run.pressedAt watched frames j k = true →
      (∃ s ≤ k, run.comboStarts watched frames tap.combo s = true ∧
        (∀ m, s ≤ m → m ≤ k → run.comboActive watched frames tap.combo (m + 1) = true) ∧
        (∀ m, s < m → m ≤ k → run.comboStarts watched frames tap.combo m = false) ∧
        (run.comboStarts watched frames tap.combo p = true → s = p) ∧
        FloatOps.le hold.gesture.holdSeconds (FrameRun.secondsBetween frames s k) = true) ∧
      (∀ m, k < m → m < q → run.pressedAt watched frames j m = false) ∧
      ((frames q).KeepsHold (run.after watched frames q) hold.combo i j →
        run.pressedAt watched frames i q = false)) := by
  intro run hperiod
  have hkept := (BindingRun.kept_of_trace hbase).1
  have hw : run.map.WellFormed := hkept.wellFormed
  have hrun : run.map.TapAndHold i j tap hold := h
  have hnodup : hold.combo.modifiers.Nodup :=
    (hkept.modifiers _ (List.mem_of_getElem? h.holdAt)).nodup
  have hholds := hperiod.congr hnodup h.sameCombo
  refine ⟨fun k hpressed => ?_, fun k hp hq hpressed => ⟨?_, fun m hkm hm => ?_, fun hkeeps => ?_⟩⟩
  · obtain ⟨hactive, hnext, -⟩ :=
      FrameRun.tap_pressed hw hrun.tapTrigger hrun.tapAt hrun.tapState hpressed
    exact ⟨hactive, hnext⟩
  · have hvalid : run.map.isValidAction hold.action = true := by
      rw [(FrameRun.mapAt_evaluated hw hrun.holdAt (by simp [h.holdTrigger]) hrun.holdState k).2,
        Bool.and_eq_true] at hpressed
      exact hpressed.1
    obtain ⟨hactive, -, -, hle⟩ := FrameRun.hold_pressed hrun.holdTrigger hvalid hw hrun.holdAt
      hrun.holdState hpressed
    obtain ⟨s, hsk, hstarts, hactives, hquiet, hheld⟩ :=
      FrameRun.heldSeconds_eq hrun.holdTrigger hvalid k hactive
    rw [hheld] at hle
    simp only [FrameRun.comboActive_congr hnodup h.sameCombo,
      FrameRun.comboStarts_congr hnodup h.sameCombo] at hstarts hactives hquiet
    refine ⟨s, hsk, hstarts, hactives, hquiet, fun hfirst => ?_, hle⟩
    rcases Nat.lt_trichotomy s p with hlt | heq | hgt
    · rw [hquiet p hlt hp] at hfirst
      cases hfirst
    · exact heq
    · rw [hperiod.quiet s hgt (by omega)] at hstarts
      cases hstarts
  · exact FrameRun.hold_once hw hrun.holdTrigger hrun.holdAt hrun.holdState hholds hp hkm hm hpressed
  · exact FrameRun.tap_exclusive hw hrun hnodup hperiod hkeeps hp hq hpressed

/-- The key 4 with a `Hold` for action 1 and a `Tap` for action 0, added in this order. -/
def holdThenTap : BindingRun Int :=
  ((BindingRun.initial 2).advance (.addBinding holdBinding)).advance (.addBinding tapBinding)

theorem holdThenTap_trace : ∃ operations,
    Trace bindingStep (.initial 2) operations holdThenTap :=
  ⟨_, .cons (a := .addBinding holdBinding) rfl
    (.cons (a := .addBinding tapBinding) rfl (.nil holdThenTap))⟩

theorem holdThenTap_bindings : holdThenTap.map.TapAndHold 1 0 tapBinding holdBinding :=
  ⟨by decide +kernel, rfl, by decide +kernel, by decide +kernel, rfl, by decide +kernel, rfl⟩

/-- The press of the `Hold` is the one its action reports. -/
theorem wasPressed_iff_hold : (FrameRun.after ⟨{}, holdThenTap.map, []⟩ 0
    (keyFrame [[true], [false]]) 1).map.wasPressed 1 = true :=
  (FrameRun.wasPressed_iff ⟨by decide +kernel, by decide +kernel⟩ (by decide +kernel) 0).2
    ⟨0, holdBinding, rfl, rfl, by decide +kernel⟩

/-- The key goes down for one frame. -/
theorem keyFrame_period (edges : List (List Bool)) :
    FrameRun.ActivePeriod ⟨{}, holdThenTap.map, []⟩ 0 (keyFrame ([true] :: edges))
      tapBinding.combo 0 1 := by
  constructor
  · intro k _ hk
    obtain rfl : k = 0 := by omega
    have hframe : keyFrame ([true] :: edges) 0 = keyFrame [[true]] 0 := rfl
    show nextBindingActive ((keyFrame ([true] :: edges) 0).operations.foldl InputState.apply {})
      tapBinding.combo false = true
    rw [hframe]
    decide +kernel
  · omega

/-- The `Hold` fires while the key is down, and the `Tap` does not press when it is let go. -/
theorem tap_hold_exclusive_held :
    FrameRun.pressedAt ⟨{}, holdThenTap.map, []⟩ 0 (keyFrame [[true], [false]]) 0 0 = true ∧
      FrameRun.pressedAt ⟨{}, holdThenTap.map, []⟩ 0 (keyFrame [[true], [false]]) 1 1 = false := by
  have hpressed : FrameRun.pressedAt ⟨{}, holdThenTap.map, []⟩ 0 (keyFrame [[true], [false]]) 0 0 =
      true := by decide +kernel
  refine ⟨hpressed, ?_⟩
  obtain ⟨operations, hbase⟩ := holdThenTap_trace
  obtain ⟨-, hperiod⟩ := tap_hold_exclusive hbase holdThenTap_bindings {} 0
    (keyFrame [[true], [false]]) (keyFrame_period [[false]])
  refine (hperiod 0 (Nat.le_refl 0) Nat.one_pos hpressed).2.2 fun _ holdState _ _ _ => ?_
  cases holdState.active <;> decide +kernel

/-- The key is let go, pressed and let go in the frame that ends the period: both press. -/
theorem tap_hold_exclusive_retapped :
    FrameRun.ActivePeriod ⟨{}, holdThenTap.map, []⟩ 0 (keyFrame [[true], [false, true, false]])
        tapBinding.combo 0 1 ∧
      FrameRun.pressedAt ⟨{}, holdThenTap.map, []⟩ 0 (keyFrame [[true], [false, true, false]])
        0 0 = true ∧
      FrameRun.pressedAt ⟨{}, holdThenTap.map, []⟩ 0 (keyFrame [[true], [false, true, false]])
        1 1 = true ∧
      ¬ ∀ (actionCount : Nat) (operations) (base : BindingRun Int) (i j : Nat)
        (tap hold : ActionBinding Int) (input : InputState Int) (frames : Nat → Frame Int)
        (p q k : Nat), Trace bindingStep (.initial actionCount) operations base →
        base.map.TapAndHold i j tap hold →
        FrameRun.ActivePeriod ⟨input, base.map, []⟩ 0 frames tap.combo p q → p ≤ k → k < q →
        FrameRun.pressedAt ⟨input, base.map, []⟩ 0 frames j k = true →
        FrameRun.pressedAt ⟨input, base.map, []⟩ 0 frames i q = false := by
  have hhold : FrameRun.pressedAt ⟨{}, holdThenTap.map, []⟩ 0
      (keyFrame [[true], [false, true, false]]) 0 0 = true := by decide +kernel
  have htap : FrameRun.pressedAt ⟨{}, holdThenTap.map, []⟩ 0
      (keyFrame [[true], [false, true, false]]) 1 1 = true := by decide +kernel
  have hperiod := keyFrame_period [[false, true, false]]
  refine ⟨hperiod, hhold, htap, fun h => ?_⟩
  obtain ⟨operations, hbase⟩ := holdThenTap_trace
  have hnone := h 2 operations holdThenTap 1 0 _ _ {} _ 0 1 0 hbase holdThenTap_bindings hperiod
    (Nat.le_refl 0) Nat.one_pos hhold
  rw [htap] at hnone
  cases hnone

end Action

import GameWIP.Input.State
import GameWIP.Lib.Trace

/-!
# What a frame of input reports

`InputState.WellFormed`: the vectors are sorted and every button held is a button control. Every
operation keeps it (`apply_wellFormed`).

`FrameKept held` is what the activations of a frame promise their readers: replayed from the
buttons `held` at the start of the frame they alternate press and release, they end at the buttons
held now, and the pressed and released sets are what they report. `setButton`, `setAxis`,
`addWheelDelta` and `clearDevice` keep it. `clear` drops what the frame has reported so far and
releases the buttons held at that moment, so it keeps the promise exactly when these are the
buttons held at the start of the frame (`frameKept_iff`).
-/

namespace Input

open Lib

variable {F : Type*}

/-! ## The sorted vectors -/

/-- The controls are strictly sorted. -/
abbrev Sorted (controls : List InputControl) : Prop := SortedBy InputControl.lt id controls

/-- The values are strictly sorted by their controls. -/
abbrev SortedValues (values : List (InputControl × F)) : Prop :=
  SortedBy InputControl.lt Prod.fst values

section

variable {controls : List InputControl} {control : InputControl}

theorem containsControl_iff (h : Sorted controls) :
    containsControl controls control = true ↔ control ∈ controls := by
  unfold containsControl isMatchingControl findControl
  rw [h.isMatching_search InputControl.lt_strictTotal]
  simp

theorem addUniqueControl_spec (h : Sorted controls) (control : InputControl) :
    Sorted (addUniqueControl controls control) ∧
      ∀ x, x ∈ addUniqueControl controls control ↔ x = control ∨ x ∈ controls := by
  unfold addUniqueControl
  dsimp only
  by_cases hm : isMatchingControl controls (findControl controls control) control = true
  · have hmem : control ∈ controls := (containsControl_iff h).1 hm
    rw [hm]
    refine ⟨h, fun x => ⟨.inr, ?_⟩⟩
    rintro (rfl | hx)
    · exact hmem
    · exact hx
  · rw [Bool.not_eq_true] at hm
    rw [hm]
    exact h.insert InputControl.lt_strictTotal hm

theorem removeControl_spec (h : Sorted controls) (control : InputControl) :
    Sorted (removeControl controls control) ∧
      ∀ x, x ∈ removeControl controls control ↔ x ∈ controls ∧ x ≠ control := by
  unfold removeControl
  dsimp only
  by_cases hm : isMatchingControl controls (findControl controls control) control = true
  · rw [if_pos hm]
    exact h.erase InputControl.lt_strictTotal hm
  · rw [if_neg hm]
    refine ⟨h, fun x => ⟨fun hx => ⟨hx, ?_⟩, And.left⟩⟩
    rintro rfl
    exact hm ((containsControl_iff h).2 hx)

theorem foldl_addUniqueControl (h : Sorted controls) (l : List InputControl) :
    Sorted (l.foldl addUniqueControl controls) ∧
      ∀ x, x ∈ l.foldl addUniqueControl controls ↔ x ∈ l ∨ x ∈ controls := by
  induction l generalizing controls with
  | nil => exact ⟨h, by simp⟩
  | cons control l ih =>
    obtain ⟨hsorted, hmem⟩ := addUniqueControl_spec h control
    obtain ⟨hsorted', hmem'⟩ := ih hsorted
    refine ⟨hsorted', fun x => ?_⟩
    rw [List.foldl_cons, hmem', hmem, List.mem_cons]
    tauto

theorem sorted_filter (h : Sorted controls) (p : InputControl → Bool) :
    Sorted (controls.filter p) :=
  List.Pairwise.filter p h

/-- Strictly sorted vectors with the same controls are the same. -/
theorem sorted_ext {l r : List InputControl} (hl : Sorted l) (hr : Sorted r)
    (h : ∀ x, x ∈ l ↔ x ∈ r) : l = r := by
  have hnodup : ∀ {l : List InputControl}, Sorted l → l.Nodup := fun hl =>
    hl.imp fun hlt => SortedBy.ne_of_lt InputControl.lt_strictTotal hlt
  apply List.Perm.eq_of_pairwise ?_ hl hr
    ((List.perm_ext_iff_of_nodup (hnodup hl) (hnodup hr)).2 h)
  intro a b _ _ hab hba
  have := InputControl.lt_strictTotal.trans hab hba
  simp [InputControl.lt_strictTotal.irrefl] at this

variable [FloatOps F] {values : List (InputControl × F)}

theorem setControlValue_sorted (h : SortedValues values) (control : InputControl) (value : F) :
    SortedValues (setControlValue values control value) := by
  unfold setControlValue isMatchingControlValue findControlValue
  dsimp only
  by_cases hm : isMatching Prod.fst values (search InputControl.lt Prod.fst values control)
      control = true
  · rw [if_pos hm, if_pos hm]
    split
    · exact (h.erase InputControl.lt_strictTotal hm).1
    · exact (SortedBy.replace (a := (control, value)) InputControl.lt_strictTotal h hm).1
  · rw [if_neg hm, if_neg hm]
    rw [Bool.not_eq_true] at hm
    split
    · exact h
    · exact (SortedBy.insert (a := (control, value)) InputControl.lt_strictTotal h hm).1

end

/-! ## Well-formed states -/

/-- The vectors of the state are sorted, and what is held are button controls. -/
structure InputState.WellFormed (state : InputState F) : Prop where
  current : Sorted state.currentButtons
  pressed : Sorted state.pressedButtons
  released : Sorted state.releasedButtons
  axes : SortedValues state.axisValues
  wheels : SortedValues state.wheelDeltas
  devices : SortedBy InputDeviceRef.lt id state.connectedDevices
  buttons : ∀ control ∈ state.currentButtons, isButtonControl control = true

namespace InputState

theorem initial_wellFormed : ({} : InputState F).WellFormed where
  current := .nil
  pressed := .nil
  released := .nil
  axes := .nil
  wheels := .nil
  devices := .nil
  buttons := by simp

theorem WellFormed.setDeviceConnectedInternal {state : InputState F} (h : state.WellFormed)
    (device : InputDeviceRef) (connected : Bool) :
    (state.setDeviceConnectedInternal device connected).WellFormed := by
  unfold InputState.setDeviceConnectedInternal
  dsimp only
  cases hm : isMatching id state.connectedDevices
      (search InputDeviceRef.lt id state.connectedDevices device) device with
  | false =>
    split
    · exact { h with devices := (h.devices.insert InputDeviceRef.lt_strictTotal hm).1 }
    · exact h
  | true =>
    split
    · exact h
    · exact { h with devices := (h.devices.erase InputDeviceRef.lt_strictTotal hm).1 }

variable [FloatOps F] {state : InputState F} {control : InputControl}

/-! ## What an operation does to the buttons -/

def pressActivation (control : InputControl) : InputActivation F where
  control := control
  activationType := .buttonPressed
  value := FloatOps.one
  previousValue := FloatOps.zero

def releaseActivation (control : InputControl) : InputActivation F where
  control := control
  activationType := .buttonReleased
  value := FloatOps.zero
  previousValue := FloatOps.one

/-- A button goes down. -/
def press (state : InputState F) (control : InputControl) : InputState F :=
  { state with
    currentButtons := addUniqueControl state.currentButtons control
    pressedButtons := addUniqueControl state.pressedButtons control
    activations := state.activations ++ [pressActivation control] }

/-- A button goes up. -/
def release (state : InputState F) (control : InputControl) : InputState F :=
  { state with
    currentButtons := removeControl state.currentButtons control
    releasedButtons := addUniqueControl state.releasedButtons control
    activations := state.activations ++ [releaseActivation control] }

theorem setButtonInternal_cases (h : state.WellFormed) (control : InputControl) (isDown : Bool) :
    state.setButtonInternal control isDown = state ∨
      (isButtonControl control = true ∧ control ∉ state.currentButtons ∧
        state.setButtonInternal control isDown = state.press control) ∨
      control ∈ state.currentButtons ∧
        state.setButtonInternal control isDown = state.release control := by
  unfold setButtonInternal
  cases hbutton : isButtonControl control with
  | false => exact .inl rfl
  | true =>
    have hcontains : containsControl state.currentButtons control = true ↔
        control ∈ state.currentButtons := containsControl_iff h.current
    cases hwas : containsControl state.currentButtons control <;> rw [hwas] at hcontains
    · cases isDown with
      | false => exact .inl rfl
      | true => exact .inr (.inl ⟨rfl, by simpa using hcontains, rfl⟩)
    · cases isDown with
      | false => exact .inr (.inr ⟨by simpa using hcontains, rfl⟩)
      | true => exact .inl rfl

/-- A release loop adds its controls to the released ones and appends their releases. -/
theorem foldl_emitRelease (l : List InputControl) (state : InputState F) :
    l.foldl emitRelease state =
      { state with
        releasedButtons := l.foldl addUniqueControl state.releasedButtons
        activations := state.activations ++ l.map releaseActivation } := by
  induction l generalizing state with
  | nil => simp
  | cons control l ih =>
    rw [List.foldl_cons, ih]
    simp [emitRelease, releaseActivation]

theorem setAxisInternal_cases (state : InputState F) (control : InputControl) (value : F) :
    state.setAxisInternal control value = state ∨
      ∃ activation : InputActivation F, activation.activationType ≠ .buttonPressed ∧
        activation.activationType ≠ .buttonReleased ∧
        state.setAxisInternal control value =
          { state with
            axisValues := setControlValue state.axisValues control value
            activations := state.activations ++ [activation] } := by
  unfold setAxisInternal
  dsimp only
  by_cases haxis : (!isAxisControl control) = true
  · exact .inl (if_pos haxis)
  rw [if_neg haxis]
  by_cases hsame : FloatOps.eq (state.getAxis control) value = true
  · exact .inl (if_pos hsame)
  rw [if_neg hsame]
  refine .inr ⟨_, ?_, ?_, rfl⟩ <;> dsimp only <;> split_ifs <;> simp

theorem addWheelDeltaInternal_cases (state : InputState F) (control : InputControl) (amount : F) :
    state.addWheelDeltaInternal control amount = state ∨
      ∃ activation : InputActivation F, activation.activationType ≠ .buttonPressed ∧
        activation.activationType ≠ .buttonReleased ∧
        state.addWheelDeltaInternal control amount =
          { state with
            wheelDeltas := setControlValue state.wheelDeltas control
              (FloatOps.add (getControlValue state.wheelDeltas control) amount)
            activations := state.activations ++ [activation] } := by
  unfold addWheelDeltaInternal
  dsimp only
  by_cases hquiet : (!isWheelControl control || FloatOps.eq amount FloatOps.zero) = true
  · exact .inl (if_pos hquiet)
  rw [if_neg hquiet]
  refine .inr ⟨_, ?_, ?_, rfl⟩ <;> dsimp only <;> split_ifs <;> simp

/-! ## Every operation keeps the vectors sorted -/

theorem WellFormed.setButtonInternal (h : state.WellFormed) (control : InputControl)
    (isDown : Bool) : (state.setButtonInternal control isDown).WellFormed := by
  rcases setButtonInternal_cases h control isDown with heq | ⟨hbutton, -, heq⟩ | ⟨-, heq⟩
  · rw [heq]
    exact h
  · obtain ⟨hcurrent, hmem⟩ := addUniqueControl_spec h.current control
    rw [heq]
    exact { h with
      current := hcurrent
      pressed := (addUniqueControl_spec h.pressed control).1
      buttons := fun x hx => by
        rcases (hmem x).1 hx with rfl | hx
        · exact hbutton
        · exact h.buttons x hx }
  · obtain ⟨hcurrent, hmem⟩ := removeControl_spec h.current control
    rw [heq]
    exact { h with
      current := hcurrent
      released := (addUniqueControl_spec h.released control).1
      buttons := fun x hx => h.buttons x ((hmem x).1 hx).1 }

theorem WellFormed.clear (h : state.WellFormed) (emit : Bool) : (state.clear emit).WellFormed := by
  unfold InputState.clear
  cases emit with
  | false =>
    exact { current := .nil, pressed := .nil, released := .nil, axes := .nil, wheels := .nil,
            devices := h.devices, buttons := by simp [clearMousePositionInternal] }
  | true =>
    simp only [if_true, foldl_emitRelease]
    exact { current := .nil, pressed := .nil, axes := .nil, wheels := .nil, devices := h.devices
            released := (foldl_addUniqueControl .nil state.currentButtons).1
            buttons := by simp [clearMousePositionInternal] }

theorem WellFormed.clearDeviceInternal (h : state.WellFormed) (device : InputDeviceRef) :
    (state.clearDeviceInternal device).WellFormed := by
  unfold InputState.clearDeviceInternal
  rw [foldl_emitRelease]
  exact { h with
    current := sorted_filter h.current _
    released := (foldl_addUniqueControl h.released _).1
    axes := List.Pairwise.filter _ h.axes
    buttons := fun x hx => h.buttons x (List.mem_filter.1 hx).1 }

theorem WellFormed.setAxisInternal (h : state.WellFormed) (control : InputControl) (value : F) :
    (state.setAxisInternal control value).WellFormed := by
  rcases setAxisInternal_cases state control value with heq | ⟨_, -, -, heq⟩ <;> rw [heq]
  · exact h
  · exact { h with axes := setControlValue_sorted h.axes control value }

theorem WellFormed.addWheelDeltaInternal (h : state.WellFormed) (control : InputControl)
    (amount : F) : (state.addWheelDeltaInternal control amount).WellFormed := by
  rcases addWheelDeltaInternal_cases state control amount with heq | ⟨_, -, -, heq⟩ <;> rw [heq]
  · exact h
  · exact { h with wheels := setControlValue_sorted h.wheels control _ }

theorem apply_wellFormed (h : state.WellFormed) (operation : InputOperation F) :
    (state.apply operation).WellFormed := by
  cases operation with
  | setButton control isDown => exact h.setButtonInternal control isDown
  | setAxis control value => exact h.setAxisInternal control value
  | addWheelDelta control amount => exact h.addWheelDeltaInternal control amount
  | clearDevice device => exact h.clearDeviceInternal device
  | clear emit => exact h.clear emit
  | setDeviceConnected device connected => exact h.setDeviceConnectedInternal device connected
  | advanceFrame => exact { h with pressed := .nil, released := .nil, wheels := .nil }
  | addMouseDelta _ _ | setMousePosition _ _ | clearMousePosition | addTextUtf8 _
  | addTextCodepoint _ | setPendingTextHighSurrogate _ | clearTextComposition =>
    exact { h with }

end InputState

/-! ## Replaying a frame -/

/-- One activation read against the buttons held: a press needs its button up, a release needs it
down. -/
def replayActivation (held : List InputControl) (activation : InputActivation F) :
    Option (List InputControl) :=
  match activation.activationType with
  | .buttonPressed =>
    if activation.control ∈ held then none else some (activation.control :: held)
  | .buttonReleased =>
    if activation.control ∈ held then some (held.filter fun control => control ≠ activation.control)
    else none
  | _ => some held

/-- The activations of a frame replayed from the buttons held at its start; `none` when some
control does not alternate press and release. -/
def replay (held : List InputControl) (activations : List (InputActivation F)) :
    Option (List InputControl) :=
  activations.foldlM replayActivation held

/-- What the activations of the frame promise. -/
structure InputState.FrameKept (held : List InputControl) (state : InputState F) : Prop where
  replays : ∃ now, replay held state.activations = some now ∧
    ∀ control, control ∈ now ↔ control ∈ state.currentButtons
  pressed : ∀ control, control ∈ state.pressedButtons ↔ ∃ activation ∈ state.activations,
    activation.control = control ∧ activation.activationType = .buttonPressed
  released : ∀ control, control ∈ state.releasedButtons ↔ ∃ activation ∈ state.activations,
    activation.control = control ∧ activation.activationType = .buttonReleased
  reported : ∀ control ∈ held, control ∉ state.currentButtons → control ∈ state.releasedButtons

theorem replay_append (held : List InputControl) (l r : List (InputActivation F)) :
    replay held (l ++ r) = (replay held l).bind fun now => replay now r :=
  List.foldlM_append

/-- A button that a replay loses was released on the way. -/
theorem released_of_replay {held now : List InputControl} {l : List (InputActivation F)}
    (h : replay held l = some now) {control : InputControl} (hheld : control ∈ held)
    (hnow : control ∉ now) :
    ∃ activation ∈ l, activation.control = control ∧
      activation.activationType = .buttonReleased := by
  induction l generalizing held with
  | nil =>
    obtain rfl : held = now := Option.some.inj h
    exact absurd hheld hnow
  | cons activation l ih =>
    obtain ⟨next, hnext, hrest⟩ := Option.bind_eq_some_iff.1 h
    by_cases hkept : control ∈ next
    · obtain ⟨a, ha, hreleased⟩ := ih hrest hkept
      exact ⟨a, List.mem_cons_of_mem _ ha, hreleased⟩
    · refine ⟨activation, List.mem_cons_self, ?_⟩
      unfold replayActivation at hnext
      cases htype : activation.activationType <;> rw [htype] at hnext
      case buttonReleased =>
        refine ⟨?_, rfl⟩
        dsimp only at hnext
        split at hnext
        · cases hnext
          by_contra hne
          exact hkept (List.mem_filter.2 ⟨hheld, by simpa using Ne.symm hne⟩)
        · cases hnext
      case buttonPressed =>
        dsimp only at hnext
        split at hnext
        · cases hnext
        · cases hnext
          exact absurd (List.mem_cons_of_mem _ hheld) hkept
      all_goals
        cases hnext
        exact absurd hheld hkept

namespace InputState

variable {state : InputState F} {held : List InputControl}

/-- The last promise follows from the replay and the released set. -/
theorem FrameKept.of_replay
    (replays : ∃ now, replay held state.activations = some now ∧
      ∀ control, control ∈ now ↔ control ∈ state.currentButtons)
    (pressed : ∀ control, control ∈ state.pressedButtons ↔ ∃ activation ∈ state.activations,
      activation.control = control ∧ activation.activationType = .buttonPressed)
    (released : ∀ control, control ∈ state.releasedButtons ↔ ∃ activation ∈ state.activations,
      activation.control = control ∧ activation.activationType = .buttonReleased) :
    state.FrameKept held where
  replays := replays
  pressed := pressed
  released := released
  reported control hheld hcurrent := by
    obtain ⟨now, hreplay, hnow⟩ := replays
    exact (released control).2 (released_of_replay hreplay hheld (mt (hnow control).1 hcurrent))

theorem frameKept_start (state : InputState F) :
    state.advanceFrame.FrameKept state.currentButtons :=
  .of_replay ⟨state.currentButtons, rfl, fun _ => Iff.rfl⟩ (by simp [advanceFrame])
    (by simp [advanceFrame])

/-- An activation that is no press and no release changes no button. -/
theorem FrameKept.quiet {state' : InputState F} (hk : state.FrameKept held)
    {activation : InputActivation F} (hpressed : activation.activationType ≠ .buttonPressed)
    (hreleased : activation.activationType ≠ .buttonReleased)
    (hactivations : state'.activations = state.activations ++ [activation])
    (hcurrent : state'.currentButtons = state.currentButtons)
    (hpressedButtons : state'.pressedButtons = state.pressedButtons)
    (hreleasedButtons : state'.releasedButtons = state.releasedButtons) :
    state'.FrameKept held := by
  obtain ⟨now, hreplay, hnow⟩ := hk.replays
  apply FrameKept.of_replay
  · refine ⟨now, ?_, ?_⟩
    · rw [hactivations, replay_append, hreplay]
      unfold replay replayActivation
      cases htype : activation.activationType <;> simp_all
    · rw [hcurrent]
      exact hnow
  · intro x
    rw [hpressedButtons, hk.pressed, hactivations]
    simp [or_and_right, exists_or, hpressed]
  · intro x
    rw [hreleasedButtons, hk.released, hactivations]
    simp [or_and_right, exists_or, hreleased]

variable [FloatOps F]

/-- Releasing distinct held buttons one after the other. -/
theorem replay_releases {l now : List InputControl} (hl : l.Nodup) (hheld : ∀ c ∈ l, c ∈ now) :
    ∃ next, replay now (l.map (releaseActivation (F := F))) = some next ∧
      ∀ c, c ∈ next ↔ c ∈ now ∧ c ∉ l := by
  induction l generalizing now with
  | nil => exact ⟨now, rfl, by simp⟩
  | cons control l ih =>
    obtain ⟨hfresh, hl⟩ := List.nodup_cons.1 hl
    have hstep : replayActivation now (releaseActivation (F := F) control) =
        some (now.filter fun c => c ≠ control) := if_pos (hheld control List.mem_cons_self)
    have hrest : ∀ c ∈ l, c ∈ now.filter fun c => c ≠ control := by
      intro c hc
      refine List.mem_filter.2 ⟨hheld c (List.mem_cons_of_mem _ hc), ?_⟩
      have : c ≠ control := fun heq => hfresh (heq ▸ hc)
      simpa using this
    obtain ⟨next, hnext, hmem⟩ := ih hl hrest
    refine ⟨next, ?_, fun c => ?_⟩
    · rw [List.map_cons, replay, List.foldlM_cons, hstep]
      exact hnext
    · rw [hmem, List.mem_filter, List.mem_cons]
      simp
      tauto

/-- Releases that replay are of held buttons. -/
theorem held_of_replay_releases {l now next : List InputControl}
    (h : replay now (l.map (releaseActivation (F := F))) = some next) : ∀ c ∈ l, c ∈ now := by
  induction l generalizing now with
  | nil => simp
  | cons control l ih =>
    obtain ⟨rest, hrest, h⟩ := Option.bind_eq_some_iff.1 h
    have hcontrol : control ∈ now := by
      by_contra hnot
      have : replayActivation now (releaseActivation (F := F) control) = none := if_neg hnot
      rw [this] at hrest
      cases hrest
    have hfilter : replayActivation now (releaseActivation (F := F) control) =
        some (now.filter fun c => c ≠ control) := if_pos hcontrol
    rw [hfilter] at hrest
    cases hrest
    intro c hc
    rcases List.mem_cons.1 hc with rfl | hc
    · exact hcontrol
    · exact (List.mem_filter.1 (ih h c hc)).1

theorem FrameKept.press (h : state.WellFormed) (hk : state.FrameKept held)
    {control : InputControl} (hup : control ∉ state.currentButtons) :
    (state.press control).FrameKept held := by
  obtain ⟨now, hreplay, hnow⟩ := hk.replays
  apply FrameKept.of_replay
  · have hstep : replayActivation now (pressActivation (F := F) control) =
        some (control :: now) := if_neg (mt (hnow control).1 hup)
    refine ⟨control :: now, ?_, fun x => ?_⟩
    · rw [InputState.press, replay_append, hreplay]
      simp [replay, hstep]
    · rw [InputState.press, List.mem_cons, hnow, (addUniqueControl_spec h.current control).2]
  · intro x
    rw [InputState.press, (addUniqueControl_spec h.pressed control).2, hk.pressed]
    simp [pressActivation, or_and_right, exists_or, or_comm, eq_comm]
  · intro x
    rw [InputState.press, hk.released]
    simp [pressActivation, or_and_right, exists_or]

theorem FrameKept.release (h : state.WellFormed) (hk : state.FrameKept held)
    {control : InputControl} (hdown : control ∈ state.currentButtons) :
    (state.release control).FrameKept held := by
  obtain ⟨now, hreplay, hnow⟩ := hk.replays
  apply FrameKept.of_replay
  · have hstep : replayActivation now (releaseActivation (F := F) control) =
        some (now.filter fun c => c ≠ control) := if_pos ((hnow control).2 hdown)
    refine ⟨now.filter fun c => c ≠ control, ?_, fun x => ?_⟩
    · rw [InputState.release, replay_append, hreplay]
      simp [replay, hstep]
    · rw [InputState.release, (removeControl_spec h.current control).2, List.mem_filter, hnow]
      simp
  · intro x
    rw [InputState.release, hk.pressed]
    simp [releaseActivation, or_and_right, exists_or]
  · intro x
    rw [InputState.release, (addUniqueControl_spec h.released control).2, hk.released]
    simp [releaseActivation, or_and_right, exists_or, or_comm, eq_comm]

theorem FrameKept.clearDevice (h : state.WellFormed) (hk : state.FrameKept held)
    (device : InputDeviceRef) : (state.clearDeviceInternal device).FrameKept held := by
  obtain ⟨now, hreplay, hnow⟩ := hk.replays
  unfold clearDeviceInternal
  rw [foldl_emitRelease]
  have hnodup : (state.currentButtons.filter fun c => isOnDevice c device).Nodup :=
    (sorted_filter h.current _).imp fun hlt =>
      SortedBy.ne_of_lt InputControl.lt_strictTotal hlt
  obtain ⟨next, hnext, hmem⟩ := replay_releases (F := F) hnodup fun c hc =>
    (hnow c).2 (List.mem_filter.1 hc).1
  apply FrameKept.of_replay
  · refine ⟨next, ?_, fun x => ?_⟩
    · rw [replay_append, hreplay]
      exact hnext
    · rw [hmem, hnow, List.mem_filter, List.mem_filter]
      simp
      tauto
  · intro x
    rw [hk.pressed]
    simp [releaseActivation, or_and_right, exists_or]
  · intro x
    rw [(foldl_addUniqueControl h.released _).2, hk.released]
    simp [releaseActivation, or_and_right, exists_or, or_comm]

/-- **What a bulk clear keeps**: the promise of the frame, when the buttons it releases are those
held at the start of the frame, and not otherwise. -/
theorem frameKept_clear (h : state.WellFormed) (hheld : Sorted held) :
    (state.clear true).FrameKept held ↔ state.currentButtons = held := by
  have hreplays : (state.clear true).activations =
      state.currentButtons.map (releaseActivation (F := F)) := by
    simp [clear, clearMousePositionInternal, foldl_emitRelease]
  constructor
  · intro hk
    obtain ⟨now, hreplay, hnow⟩ := hk.replays
    rw [hreplays] at hreplay
    have hsub := held_of_replay_releases hreplay
    refine sorted_ext h.current hheld fun control => ⟨hsub control, fun hcontrol => ?_⟩
    have hup : control ∉ now := by
      rw [hnow]
      simp [clear, clearMousePositionInternal]
    obtain ⟨activation, hactivation, rfl, -⟩ := released_of_replay hreplay hcontrol hup
    obtain ⟨c, hc, rfl⟩ := List.mem_map.1 hactivation
    exact hc
  · rintro rfl
    have hnodup : state.currentButtons.Nodup :=
      h.current.imp fun hlt => SortedBy.ne_of_lt InputControl.lt_strictTotal hlt
    obtain ⟨next, hnext, hmem⟩ := replay_releases (F := F) hnodup fun _ hc => hc
    apply FrameKept.of_replay
    · refine ⟨next, hreplays ▸ hnext, fun x => ?_⟩
      rw [hmem]
      simp [clear, clearMousePositionInternal]
    · simp [clear, clearMousePositionInternal, foldl_emitRelease, releaseActivation]
    · intro x
      rw [hreplays]
      simp [clear, clearMousePositionInternal, foldl_emitRelease, releaseActivation,
        (foldl_addUniqueControl .nil state.currentButtons).2]

/-- One operation of a frame keeps the promise exactly when it clears nothing or the buttons it
started with. -/
theorem step_frameKept {operation : InputOperation F} (h : state.WellFormed)
    (hk : state.FrameKept held) (hheld : Sorted held) (hframe : operation.inFrame = true) :
    (state.apply operation).FrameKept held ↔ operation.ClearsHeld held state := by
  cases operation with
  | setButton control isDown =>
    refine iff_of_true ?_ trivial
    change (state.setButtonInternal control isDown).FrameKept held
    rcases setButtonInternal_cases h control isDown with heq | ⟨-, hup, heq⟩ | ⟨hdown, heq⟩
    · rw [heq]
      exact hk
    · rw [heq]
      exact hk.press h hup
    · rw [heq]
      exact hk.release h hdown
  | setAxis control value =>
    refine iff_of_true ?_ trivial
    change (state.setAxisInternal control value).FrameKept held
    rcases setAxisInternal_cases state control value with heq | ⟨_, hpressed, hreleased, heq⟩
    · rw [heq]
      exact hk
    · rw [heq]
      exact hk.quiet hpressed hreleased rfl rfl rfl rfl
  | addWheelDelta control amount =>
    refine iff_of_true ?_ trivial
    change (state.addWheelDeltaInternal control amount).FrameKept held
    rcases addWheelDeltaInternal_cases state control amount with heq | ⟨_, hpressed, hreleased, heq⟩
    · rw [heq]
      exact hk
    · rw [heq]
      exact hk.quiet hpressed hreleased rfl rfl rfl rfl
  | clearDevice device => exact iff_of_true (hk.clearDevice h device) trivial
  | clear emit =>
    obtain rfl : emit = true := hframe
    exact frameKept_clear h hheld
  | advanceFrame => cases hframe
  | setDeviceConnected device connected =>
    refine iff_of_true ?_ trivial
    change (state.setDeviceConnectedInternal device connected).FrameKept held
    unfold setDeviceConnectedInternal
    dsimp only
    split_ifs <;> exact ⟨hk.replays, hk.pressed, hk.released, hk.reported⟩
  | addMouseDelta _ _ | setMousePosition _ _ | clearMousePosition | addTextUtf8 _
  | addTextCodepoint _ | setPendingTextHighSurrogate _ | clearTextComposition =>
    exact iff_of_true ⟨hk.replays, hk.pressed, hk.released, hk.reported⟩ trivial

theorem inputStep_wellFormed (s : InputState F) (operation : InputOperation F)
    (t : InputState F) (h : s.WellFormed) (hs : inputStep s operation = some t) : t.WellFormed := by
  cases hs
  exact apply_wellFormed h operation

end InputState

/-- **A frame's report is whole**, in every frame of every run, exactly when no bulk clear of the
frame meets other buttons than those held at its start. -/
theorem frameKept_iff [FloatOps F] {s u : InputState F}
    {before frame : List (Transition (InputState F) (InputOperation F))}
    (hbefore : Trace inputStep {} before s) (hframe : Trace frameStep s.advanceFrame frame u) :
    (∀ x ∈ frame, x.post.FrameKept s.currentButtons) ↔
      ∀ x ∈ frame, x.action.ClearsHeld s.currentButtons x.pre := by
  have hs : s.WellFormed := (hbefore.invariant_of_step InputState.initial_wellFormed
    InputState.inputStep_wellFormed).1
  have hstart : s.advanceFrame.WellFormed := InputState.apply_wellFormed hs .advanceFrame
  have hframeStep : ∀ (state : InputState F) operation next,
      frameStep state operation = some next → operation.inFrame = true ∧
        state.apply operation = next := by
    intro state operation next hnext
    unfold frameStep at hnext
    split at hnext
    · exact ⟨‹_›, Option.some.inj hnext⟩
    · cases hnext
  have hwf := (hframe.invariant_of_step hstart fun state operation next h hnext => by
    rw [← (hframeStep state operation next hnext).2]
    exact InputState.apply_wellFormed h operation).2
  have hiff := hframe.invariant_iff_guard
    (I := fun state => state.WellFormed ∧ state.FrameKept s.currentButtons)
    (G := fun state operation => operation.ClearsHeld s.currentButtons state)
    ⟨hstart, InputState.frameKept_start s⟩
    (fun state operation next hi hg hnext => by
      obtain ⟨hin, rfl⟩ := hframeStep state operation next hnext
      exact ⟨InputState.apply_wellFormed hi.1 operation,
        (InputState.step_frameKept hi.1 hi.2 hs.current hin).2 hg⟩)
    (fun state operation next hi hnext hi' => by
      obtain ⟨hin, rfl⟩ := hframeStep state operation next hnext
      exact (InputState.step_frameKept hi.1 hi.2 hs.current hin).1 hi'.2)
  rw [← hiff]
  exact ⟨fun h x hx => ⟨(hwf x hx).2, h x hx⟩, fun h x hx => (h x hx).2⟩

/-- A key goes down in the frame before. -/
def heldKey : List (InputOperation Int) := [.setButton { controlCode := 4 } true]

/-- It is let go and pressed again, with another key pressed and let go in between, and cleared. -/
def tappedFrame : List (InputOperation Int) :=
  [.setButton { controlCode := 5 } true, .setButton { controlCode := 4 } false,
    .clearDevice { deviceType := .mouse }, .setButton { controlCode := 4 } true,
    .setButton { controlCode := 5 } false, .clear true]

theorem frameKept_tappedFrame :
    (Lib.run inputStep {} heldKey).bind (fun r =>
      (Lib.run frameStep r.2.advanceFrame tappedFrame).map fun r' =>
        (r'.2.currentButtons, r'.2.activations.map fun a => (a.control.controlCode,
          a.activationType))) = some ([], [(4, .buttonReleased)]) ∧
    ∀ r r', Lib.run inputStep {} heldKey = some r →
      Lib.run frameStep r.2.advanceFrame tappedFrame = some r' →
      ∀ x ∈ r'.1, x.post.FrameKept r.2.currentButtons := by
  refine ⟨by decide +kernel, fun r r' hr hr' => ?_⟩
  apply (frameKept_iff (Trace.of_run hr) (Trace.of_run hr')).2
  have hguard : (Lib.run inputStep {} heldKey).all (fun r =>
      (Lib.run frameStep r.2.advanceFrame tappedFrame).all fun r' =>
        r'.1.all fun x => decide (x.action.ClearsHeld r.2.currentButtons x.pre)) = true := by
    decide +kernel
  simpa [hr, hr'] using hguard

/-- The key held is let go, and the state is cleared. -/
def clearedFrame : List (InputOperation Int) := [.setButton { controlCode := 4 } false, .clear true]

/-- The release is dropped: the key went up in this frame and no activation and no set says so. -/
theorem frameKept_clearedFrame :
    (Lib.run inputStep {} heldKey).bind (fun r =>
      (Lib.run frameStep r.2.advanceFrame clearedFrame).map fun r' =>
        (r.2.currentButtons, r'.2.currentButtons, r'.2.releasedButtons, r'.2.activations)) =
      some ([{ controlCode := 4 }], [], [], []) ∧
    ¬ ∀ before s frame u, Trace inputStep ({} : InputState Int) before s →
      Trace frameStep s.advanceFrame frame u → ∀ x ∈ frame, x.post.FrameKept s.currentButtons := by
  have hrun : (Lib.run inputStep {} heldKey).any (fun r =>
      (Lib.run frameStep r.2.advanceFrame clearedFrame).any fun r' =>
        r'.1.any fun x => r.2.currentButtons.any fun control =>
          decide (control ∉ x.post.currentButtons ∧ control ∉ x.post.releasedButtons)) = true := by
    decide +kernel
  refine ⟨by decide +kernel, fun h => ?_⟩
  obtain ⟨r, hr, hrun⟩ := (Option.any_eq_true _ _).1 hrun
  obtain ⟨r', hr', hrun⟩ := (Option.any_eq_true _ _).1 hrun
  obtain ⟨x, hx, hrun⟩ := List.any_eq_true.1 hrun
  obtain ⟨control, hheld, hlost⟩ := List.any_eq_true.1 hrun
  obtain ⟨hup, hunreported⟩ := of_decide_eq_true hlost
  exact hunreported ((h r.1 r.2 r'.1 r'.2 (Trace.of_run hr) (Trace.of_run hr') x hx).reported
    control hheld hup)

end Input

import GameWIP.Lib.SortedTable
import Mathlib.Algebra.Ring.Int.Defs
import Mathlib.Algebra.Ring.Nat

/-!
# Input controls

The identifiers of the input layer (`input/input.h`): devices, controls and activations, with the
two orders its sorted vectors are kept in. Both comparators are strict total orders
(`InputDeviceRef.lt_strictTotal`, `InputControl.lt_strictTotal`).

`FloatOps` stands for the `float` arithmetic of the engine. Nothing is assumed of the operations:
every result holds of any rounding.
-/

open Lib (StrictTotal)

/-- The `float` operations the engine computes with. -/
class FloatOps (F : Type*) where
  zero : F
  one : F
  ofInt : Int → F
  neg : F → F
  add : F → F → F
  sub : F → F → F
  mul : F → F → F
  div : F → F → F
  sqrt : F → F
  pow : F → F → F
  lt : F → F → Bool
  le : F → F → Bool
  eq : F → F → Bool

/-- Whole numbers, to run the model on. -/
instance : FloatOps Int where
  zero := 0
  one := 1
  ofInt := id
  neg a := -a
  add a b := a + b
  sub a b := a - b
  mul a b := a * b
  div a b := a / b
  sqrt a := Nat.sqrt a.toNat
  pow a b := a ^ b.toNat
  lt a b := decide (a < b)
  le a b := decide (a ≤ b)
  eq a b := decide (a = b)

namespace Input

/-- Broad family of input device. -/
inductive InputDeviceType where
  | keyboard
  | mouse
  | gamepad
  | joystick
  deriving DecidableEq, Repr

/-- `static_cast<int>` of the enumerator. -/
def InputDeviceType.toInt : InputDeviceType → Nat
  | keyboard => 0
  | mouse => 1
  | gamepad => 2
  | joystick => 3

/-- Backend that produced an input device. -/
inductive InputDeviceBackend where
  | builtIn
  | xInput
  | rawInputHID
  deriving DecidableEq, Repr

/-- Kind of physical control being represented. -/
inductive InputControlType where
  | button
  | axis
  | wheel
  deriving DecidableEq, Repr

/-- `static_cast<int>` of the enumerator. -/
def InputControlType.toInt : InputControlType → Nat
  | button => 0
  | axis => 1
  | wheel => 2

abbrev DeviceIndex := UInt8

abbrev ControlCode := UInt32

/-- Runtime device identifier assigned by the input layer. -/
structure InputDeviceRef where
  deviceType : InputDeviceType := .keyboard
  deviceIndex : DeviceIndex := 0
  deriving DecidableEq, Repr

/-- Physical input control identifier. -/
structure InputControl where
  deviceType : InputDeviceType := .keyboard
  deviceIndex : DeviceIndex := 0
  controlType : InputControlType := .button
  controlCode : ControlCode := 0
  deriving DecidableEq, Repr

/-- Type of input activation. -/
inductive InputActivationType where
  | buttonPressed
  | buttonReleased
  | axisPositive
  | axisNegative
  | axisChanged
  | wheelPositive
  | wheelNegative
  deriving DecidableEq, Repr

/-- Input change detected this frame. -/
structure InputActivation (F : Type*) where
  control : InputControl
  activationType : InputActivationType
  value : F
  previousValue : F
  deriving DecidableEq, Repr

def isButtonControl (control : InputControl) : Bool := control.controlType = .button

def isAxisControl (control : InputControl) : Bool := control.controlType = .axis

def isWheelControl (control : InputControl) : Bool := control.controlType = .wheel

/-- The device of the control is the given one. -/
def isOnDevice (control : InputControl) (device : InputDeviceRef) : Bool :=
  control.deviceType = device.deviceType && control.deviceIndex = device.deviceIndex

/-! ## The orders of the sorted vectors -/

/-- `operator<` of device references. -/
def InputDeviceRef.lt (left right : InputDeviceRef) : Bool :=
  if left.deviceType ≠ right.deviceType then
    decide (left.deviceType.toInt < right.deviceType.toInt)
  else
    decide (left.deviceIndex < right.deviceIndex)

/-- `operator<` of controls. -/
def InputControl.lt (left right : InputControl) : Bool :=
  if left.deviceType ≠ right.deviceType then
    decide (left.deviceType.toInt < right.deviceType.toInt)
  else if left.deviceIndex ≠ right.deviceIndex then
    decide (left.deviceIndex < right.deviceIndex)
  else if left.controlType ≠ right.controlType then
    decide (left.controlType.toInt < right.controlType.toInt)
  else
    decide (left.controlCode < right.controlCode)

theorem InputDeviceType.toInt_inj {a b : InputDeviceType} : a.toInt = b.toInt ↔ a = b := by
  cases a <;> cases b <;> simp [toInt]

theorem InputControlType.toInt_inj {a b : InputControlType} : a.toInt = b.toInt ↔ a = b := by
  cases a <;> cases b <;> simp [toInt]

theorem InputControlType.toInt_lt (a : InputControlType) : a.toInt < 3 := by
  cases a <;> simp [toInt]

/-- The rank of a device reference in its order. -/
def InputDeviceRef.rank (device : InputDeviceRef) : Nat :=
  device.deviceType.toInt * 256 + device.deviceIndex.toNat

/-- The rank of a control in its order. -/
def InputControl.rank (control : InputControl) : Nat :=
  ((control.deviceType.toInt * 256 + control.deviceIndex.toNat) * 3 + control.controlType.toInt) *
    4294967296 + control.controlCode.toNat

theorem InputDeviceRef.lt_eq (a b : InputDeviceRef) : a.lt b = decide (a.rank < b.rank) := by
  have ha := a.deviceIndex.toNat_lt
  have hb := b.deviceIndex.toNat_lt
  unfold lt rank
  by_cases htype : a.deviceType = b.deviceType
  · rw [if_neg (not_not_intro htype), htype, decide_eq_decide, UInt8.lt_iff_toNat_lt]
    omega
  · rw [if_pos htype, decide_eq_decide]
    have := mt InputDeviceType.toInt_inj.1 htype
    omega

theorem InputDeviceRef.rank_inj {a b : InputDeviceRef} (h : a.rank = b.rank) : a = b := by
  have ha := a.deviceIndex.toNat_lt
  have hb := b.deviceIndex.toNat_lt
  unfold rank at h
  obtain ⟨atype, aindex⟩ := a
  obtain ⟨btype, bindex⟩ := b
  dsimp only at ha hb h
  obtain rfl : atype = btype := InputDeviceType.toInt_inj.1 (by omega)
  obtain rfl : aindex = bindex := UInt8.toNat_inj.1 (by omega)
  rfl

theorem InputControl.lt_eq (a b : InputControl) : a.lt b = decide (a.rank < b.rank) := by
  have ha := a.deviceIndex.toNat_lt
  have hb := b.deviceIndex.toNat_lt
  have hac := a.controlCode.toNat_lt
  have hbc := b.controlCode.toNat_lt
  have hat := a.controlType.toInt_lt
  have hbt := b.controlType.toInt_lt
  unfold lt rank
  by_cases htype : a.deviceType = b.deviceType
  · rw [if_neg (not_not_intro htype), htype]
    by_cases hindex : a.deviceIndex = b.deviceIndex
    · rw [if_neg (not_not_intro hindex), hindex]
      by_cases hkind : a.controlType = b.controlType
      · rw [if_neg (not_not_intro hkind), hkind, decide_eq_decide, UInt32.lt_iff_toNat_lt]
        omega
      · rw [if_pos hkind, decide_eq_decide]
        have := mt InputControlType.toInt_inj.1 hkind
        omega
    · rw [if_pos hindex, decide_eq_decide, UInt8.lt_iff_toNat_lt]
      have := mt UInt8.toNat_inj.1 hindex
      omega
  · rw [if_pos htype, decide_eq_decide]
    have := mt InputDeviceType.toInt_inj.1 htype
    omega

theorem InputControl.rank_inj {a b : InputControl} (h : a.rank = b.rank) : a = b := by
  have ha := a.deviceIndex.toNat_lt
  have hb := b.deviceIndex.toNat_lt
  have hac := a.controlCode.toNat_lt
  have hbc := b.controlCode.toNat_lt
  have hat := a.controlType.toInt_lt
  have hbt := b.controlType.toInt_lt
  unfold rank at h
  obtain ⟨atype, aindex, akind, acode⟩ := a
  obtain ⟨btype, bindex, bkind, bcode⟩ := b
  dsimp only at ha hb hac hbc hat hbt h
  obtain rfl : atype = btype := InputDeviceType.toInt_inj.1 (by omega)
  obtain rfl : aindex = bindex := UInt8.toNat_inj.1 (by omega)
  obtain rfl : akind = bkind := InputControlType.toInt_inj.1 (by omega)
  obtain rfl : acode = bcode := UInt32.toNat_inj.1 (by omega)
  rfl

theorem InputDeviceRef.lt_strictTotal : StrictTotal InputDeviceRef.lt :=
  .of_rank InputDeviceRef.lt_eq fun _ _ => InputDeviceRef.rank_inj

theorem InputControl.lt_strictTotal : StrictTotal InputControl.lt :=
  .of_rank InputControl.lt_eq fun _ _ => InputControl.rank_inj

end Input

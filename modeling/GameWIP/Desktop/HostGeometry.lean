import GameWIP.Desktop.Accessibility
import GameWIP.Lib.SequenceLock

/-!
# The host geometry of an accessibility runtime

`publishGeometry` and `readGeometry` of `AccessibilityRuntime` (`desktop/core/accessibility.cpp`).
The owner thread publishes; native clients read on threads of their own. All atomics are
sequentially consistent, so a run is an interleaving of single loads and stores.

`publishGeometry` increments the sequence, stores the eight atomics in order and increments the
sequence again; an attempt of `readGeometry` loads the sequence, gives up when it is odd, loads the
eight atomics in order and compares the sequence once more. That is a sequence lock over the cells
`geometryCells`.
-/

namespace Desktop

structure AccessibilityHostGeometry (F : Type) where
  x : F
  y : F
  width : F
  height : F
  scaleX : F
  scaleY : F
  visible : Bool
  focused : Bool
  deriving DecidableEq, Repr

/-- The atomics that hold the geometry. -/
inductive GeometryAtomic where
  | x
  | y
  | width
  | height
  | scaleX
  | scaleY
  | visible
  | focused
  deriving DecidableEq, Repr

variable {F : Type}

/-- One atomic of `source` over that of `geometry`. -/
def GeometryAtomic.copy (atomic : GeometryAtomic) (geometry source : AccessibilityHostGeometry F) :
    AccessibilityHostGeometry F :=
  match atomic with
  | .x => { geometry with x := source.x }
  | .y => { geometry with y := source.y }
  | .width => { geometry with width := source.width }
  | .height => { geometry with height := source.height }
  | .scaleX => { geometry with scaleX := source.scaleX }
  | .scaleY => { geometry with scaleY := source.scaleY }
  | .visible => { geometry with visible := source.visible }
  | .focused => { geometry with focused := source.focused }

/-- The atomics in the order in which both functions access them. -/
def geometryCells : Lib.Cells (AccessibilityHostGeometry F) GeometryAtomic where
  copy := GeometryAtomic.copy
  order := [.x, .y, .width, .height, .scaleX, .scaleY, .visible, .focused]
  copied := by
    rintro ⟨_, _, _, _, _, _, _, _⟩ ⟨_, _, _, _, _, _, _, _⟩
    rfl

/-- The initial values of the atomics. -/
def initialGeometry [FloatOps F] : AccessibilityHostGeometry F where
  x := FloatOps.zero
  y := FloatOps.zero
  width := FloatOps.zero
  height := FloatOps.zero
  scaleX := FloatOps.one
  scaleY := FloatOps.one
  visible := false
  focused := false

/-- `geometrySequence` and the eight atomics, with the threads that use them. -/
abbrev GeometryState (F : Type) := Lib.SequenceLock.State (AccessibilityHostGeometry F) GeometryAtomic

abbrev GeometryAction (F : Type) := Lib.SequenceLock.Action (AccessibilityHostGeometry F)

namespace AccessibilityRuntime

def initialState [FloatOps F] (readers : Nat) : GeometryState F :=
  Lib.SequenceLock.initial initialGeometry readers

/-- One load or store of `publishGeometry` or `readGeometry`, which makes eight attempts. -/
def geometryStep (s : GeometryState F) (action : GeometryAction F) : Option (GeometryState F) :=
  Lib.SequenceLock.step geometryCells 8 s action

end AccessibilityRuntime

end Desktop

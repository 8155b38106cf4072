import GameWIP.Desktop.Events
import GameWIP.Lib.AtomicWords
import GameWIP.Lib.WordFields

/-!
# The published presentation of a Window

`desktop/internal/presentation_publication_state.h`: six atomic words that any thread may read while
values are published, and `publishCachedPresentationState` of `desktop/internal/window_state.h`. An
effect is what one store or one loop of a call does to its word. The accesses to one word are in one
order; each reading is of one word.

`Presented` is what the words stand for.
-/

namespace Desktop

namespace Publication

open Events (Binary32 LogicalSize PixelSize ContentScale Dpi MonitorId PresentationState)

/-! ## Words -/

inductive Word where
  | clientSize
  | framebufferSize
  | contentScale
  | dpi
  | monitor
  | flags
  deriving DecidableEq, Repr

def Word.width : Word → Nat
  | .flags => 32
  | _ => 64

abbrev Word.Value (word : Word) : Type := BitVec word.width

abbrev Memory : Type := ∀ word : Word, word.Value

def kPresentationMask : BitVec 32 := 0x3

def kVisible : BitVec 32 := 0x4

def kInteractiveMoveResizeActive : BitVec 32 := 0x8

def kOccluded : BitVec 32 := 0x10

def packUnsigned (low high : UInt32) : BitVec 64 :=
  low.toBitVec.setWidth 64 ||| (high.toBitVec.setWidth 64 <<< 32)

def packFloats (low high : Binary32) : BitVec 64 := packUnsigned low.bits high.bits

def lowUnsigned (value : BitVec 64) : UInt32 := .ofBitVec (value.setWidth 32)

def highUnsigned (value : BitVec 64) : UInt32 := .ofBitVec ((value >>> 32).setWidth 32)

def lowFloat (value : BitVec 64) : Binary32 := ⟨lowUnsigned value⟩

def highFloat (value : BitVec 64) : Binary32 := ⟨highUnsigned value⟩

/-- The number of an enumerator. -/
def presentationBits : PresentationState → BitVec 32
  | .normal => 0
  | .minimized => 1
  | .maximized => 2

/-! ## Effects -/

inductive Effect where
  /-- `store(0)`. -/
  | clear (word : Word)
  | clientSize (value : LogicalSize)
  | framebufferSize (value : PixelSize)
  | contentScale (value : ContentScale)
  | dpi (value : Dpi)
  | monitor (value : MonitorId)
  | presentationState (value : PresentationState)
  | visible (value : Bool)
  | interactiveMoveResizeActive (value : Bool)
  | occluded (value : Bool)
  deriving DecidableEq, Repr

/-- The word that `updateFlags` exchanges for the one it has loaded. -/
def updateFlags (mask value current : BitVec 32) : BitVec 32 := (current &&& ~~~mask) ||| value

def updateFlag (flag : BitVec 32) (value : Bool) (current : BitVec 32) : BitVec 32 :=
  updateFlags flag (if value then flag else 0) current

def Effect.word : Effect → Word
  | .clear word => word
  | .clientSize _ => .clientSize
  | .framebufferSize _ => .framebufferSize
  | .contentScale _ => .contentScale
  | .dpi _ => .dpi
  | .monitor _ => .monitor
  | .presentationState _ => .flags
  | .visible _ => .flags
  | .interactiveMoveResizeActive _ => .flags
  | .occluded _ => .flags

def Effect.update : (e : Effect) → e.word.Value → e.word.Value
  | .clear word, _ => 0#(word.width)
  | .clientSize value, _ => packUnsigned value.width value.height
  | .framebufferSize value, _ => packUnsigned value.width value.height
  | .contentScale value, _ => packFloats value.x value.y
  | .dpi value, _ => packFloats value.x value.y
  | .monitor value, _ => value.toBitVec
  | .presentationState value, current => updateFlags kPresentationMask (presentationBits value) current
  | .visible value, current => updateFlag kVisible value current
  | .interactiveMoveResizeActive value, current =>
    updateFlag kInteractiveMoveResizeActive value current
  | .occluded value, current => updateFlag kOccluded value current

/-- Whether the effect is a store, not a loop of compare-and-exchange. -/
def Effect.isStore : Effect → Bool
  | .presentationState _ => false
  | .visible _ => false
  | .interactiveMoveResizeActive _ => false
  | .occluded _ => false
  | _ => true

def words : Lib.AtomicWords Word Effect Word.Value where
  word := Effect.word
  update := Effect.update
  isStore := Effect.isStore
  store_eq e h _ _ := by cases e <;> first | rfl | cases h

/-! ## Calls -/

/-- The cached values of `WindowState` that are published. -/
structure WindowState where
  clientSize : LogicalSize
  framebufferSize : PixelSize
  contentScale : ContentScale
  dpi : Dpi
  monitor : MonitorId
  presentation : PresentationState
  visible : Bool
  interactiveMoveResizeActive : Bool

def reset : List Effect :=
  [.clear .clientSize, .clear .framebufferSize, .contentScale ⟨⟨0x3F800000⟩, ⟨0x3F800000⟩⟩,
    .clear .dpi, .clear .monitor, .clear .flags]

def publishCachedPresentationState (state : WindowState) : List Effect :=
  [.clientSize state.clientSize, .framebufferSize state.framebufferSize,
    .contentScale state.contentScale, .dpi state.dpi, .monitor state.monitor,
    .presentationState state.presentation, .visible state.visible,
    .interactiveMoveResizeActive state.interactiveMoveResizeActive]

/-- A new object. -/
def construct : Memory
  | .contentScale => packFloats ⟨0x3F800000⟩ ⟨0x3F800000⟩
  | word => 0#(word.width)

/-! ## Readings -/

def clientSize (memory : Memory) : LogicalSize :=
  let value := memory .clientSize
  ⟨lowUnsigned value, highUnsigned value⟩

def framebufferSize (memory : Memory) : PixelSize :=
  let value := memory .framebufferSize
  ⟨lowUnsigned value, highUnsigned value⟩

def contentScale (memory : Memory) : ContentScale :=
  let value := memory .contentScale
  ⟨lowFloat value, highFloat value⟩

def dpi (memory : Memory) : Dpi :=
  let value := memory .dpi
  ⟨lowFloat value, highFloat value⟩

def monitor (memory : Memory) : MonitorId := .ofBitVec (memory .monitor)

/-- The number of the enumerator that is read. -/
def presentation (memory : Memory) : BitVec 32 :=
  let value : BitVec 32 := memory .flags
  value &&& kPresentationMask

def testFlag (memory : Memory) (flag : BitVec 32) : Bool :=
  let value : BitVec 32 := memory .flags
  (value &&& flag) != 0

def visible (memory : Memory) : Bool := testFlag memory kVisible

def interactiveMoveResizeActive (memory : Memory) : Bool :=
  testFlag memory kInteractiveMoveResizeActive

def occluded (memory : Memory) : Bool := testFlag memory kOccluded

/-! ## What the words stand for -/

structure Presented where
  clientSize : LogicalSize := {}
  framebufferSize : PixelSize := {}
  contentScale : ContentScale := {}
  dpi : Dpi := {}
  monitor : MonitorId := 0
  presentation : PresentationState := .normal
  visible : Bool := false
  interactiveMoveResizeActive : Bool := false
  occluded : Bool := false
  deriving DecidableEq, Repr

/-- One value is replaced, and all others are as they were. -/
def Presented.after (p : Presented) : Effect → Presented
  | .clear .clientSize => { p with clientSize := {} }
  | .clear .framebufferSize => { p with framebufferSize := {} }
  | .clear .contentScale => { p with contentScale := ⟨⟨0⟩, ⟨0⟩⟩ }
  | .clear .dpi => { p with dpi := {} }
  | .clear .monitor => { p with monitor := 0 }
  | .clear .flags =>
    { p with
      presentation := .normal, visible := false, interactiveMoveResizeActive := false,
      occluded := false }
  | .clientSize value => { p with clientSize := value }
  | .framebufferSize value => { p with framebufferSize := value }
  | .contentScale value => { p with contentScale := value }
  | .dpi value => { p with dpi := value }
  | .monitor value => { p with monitor := value }
  | .presentationState value => { p with presentation := value }
  | .visible value => { p with visible := value }
  | .interactiveMoveResizeActive value => { p with interactiveMoveResizeActive := value }
  | .occluded value => { p with occluded := value }

/-- Every reading of the words gives what is presented. -/
structure Reads (memory : Memory) (p : Presented) : Prop where
  clientSize : clientSize memory = p.clientSize
  framebufferSize : framebufferSize memory = p.framebufferSize
  contentScale : contentScale memory = p.contentScale
  dpi : dpi memory = p.dpi
  monitor : monitor memory = p.monitor
  presentation : presentation memory = presentationBits p.presentation
  visible : visible memory = p.visible
  interactiveMoveResizeActive : interactiveMoveResizeActive memory = p.interactiveMoveResizeActive
  occluded : occluded memory = p.occluded

end Publication

end Desktop

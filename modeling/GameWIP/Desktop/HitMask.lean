import GameWIP.Desktop.WireFormats

/-!
# Pointer hit masks

The hit masks of `desktop/core/renderer_bridge.cpp`, `desktop/internal/renderer_integration_state.h`
and `desktop/internal/window_state.h`: an update is begun for the framebuffer as it is, and published
with the generation it was given; the lookup scales a client position into the mask.

What a call finds outside is its input: whether the Window is open on the calling thread, what the
platform supports, and whether an allocation succeeds. Of `RendererIntegrationState` and `WindowState`
the fields for hit masks are kept. `std::size_t` has 64 bits.
-/

namespace Desktop

namespace HitMask

open Events (LogicalPosition LogicalSize PixelSize)
open DataTransfer (wouldMultiplyOverflow)

/-- The optional renderer state. -/
structure RendererIntegrationState where
  pointerHitMask : List UInt32 := []
  pointerHitMaskSize : PixelSize := {}
  pointerHitMaskTargetSize : PixelSize := {}
  pointerHitMaskTargetWordCount : Nat := 0
  pointerHitMaskGeneration : UInt64 := 0
  pointerHitMaskActiveGeneration : UInt64 := 0
  pointerHitMaskTargetGeneration : UInt64 := 0
  pointerHitMaskGenerationExhausted : Bool := false
  deriving DecidableEq, Repr

structure WindowState where
  rendererIntegration : Option RendererIntegrationState := none
  framebufferSize : PixelSize := {}
  clientSize : LogicalSize := {}
  deriving DecidableEq, Repr

/-- `std::numeric_limits<std::uint64_t>::max()`. -/
def maxGeneration : UInt64 := 0xFFFFFFFFFFFFFFFF

/-! ## Invalidation -/

namespace RendererIntegrationState

def invalidatePointerHitMask (r : RendererIntegrationState) : RendererIntegrationState :=
  let cleared :=
    { r with
      pointerHitMask := []
      pointerHitMaskSize := {}
      pointerHitMaskActiveGeneration := 0
      pointerHitMaskTargetGeneration := 0
      pointerHitMaskTargetSize := {}
      pointerHitMaskTargetWordCount := 0 }
  if r.pointerHitMaskGeneration = maxGeneration then
    { cleared with pointerHitMaskGenerationExhausted := true }
  else { cleared with pointerHitMaskGeneration := r.pointerHitMaskGeneration + 1 }

def finishWindowLifetime (r : RendererIntegrationState) : RendererIntegrationState :=
  { r with
    pointerHitMask := []
    pointerHitMaskSize := {}
    pointerHitMaskActiveGeneration := 0
    pointerHitMaskTargetGeneration := 0
    pointerHitMaskTargetSize := {}
    pointerHitMaskTargetWordCount := 0 }

end RendererIntegrationState

def invalidatePointerHitMask (s : WindowState) : WindowState :=
  { s with rendererIntegration := s.rendererIntegration.map (·.invalidatePointerHitMask) }

def finishWindowLifetime (s : WindowState) : WindowState :=
  { s with rendererIntegration := s.rendererIntegration.map (·.finishWindowLifetime) }

/-- Whether the mask or the target does not fit the framebuffer. -/
def staleFor (size : PixelSize) (r : RendererIntegrationState) : Bool :=
  (r.pointerHitMaskActiveGeneration != 0 && r.pointerHitMaskSize != size) ||
    (r.pointerHitMaskTargetGeneration != 0 && r.pointerHitMaskTargetSize != size)

/-- The part of `refreshCachedGeometry` that concerns hit masks. -/
def refreshCachedGeometry (s : WindowState) (framebufferSize : PixelSize) (clientSize : LogicalSize) :
    WindowState :=
  let s := { s with framebufferSize }
  let s := if s.rendererIntegration.any (staleFor framebufferSize) then invalidatePointerHitMask s else s
  { s with clientSize }

/-! ## Updates -/

def bitsPerWord : Nat := 32

def wordsPerRow (width : Nat) : Nat :=
  width / bitsPerWord + if width % bitsPerWord ≠ 0 then 1 else 0

def requiredPointerHitMaskWords (size : PixelSize) : Nat :=
  let width := size.width.toNat
  let height := size.height.toNat
  if width = 0 || height = 0 then 0
  else if wouldMultiplyOverflow height (wordsPerRow width) then 0
  else wordsPerRow width * height

structure PointerHitMaskTarget where
  generation : UInt64
  framebufferSize : PixelSize
  requiredWordCount : Nat
  deriving DecidableEq, Repr

/-- What `beginPointerHitMaskUpdate` finds. -/
structure BeginAnswers where
  /-- `requireOwner`. -/
  owner : Io.Status := {}
  supported : Bool := true
  nativeDestroyedPendingFinalize : Bool := false
  /-- `ensureIntegration` allocates. -/
  allocated : Bool := true
  deriving DecidableEq, Repr

def refuse (s : WindowState) (code : Io.ErrorCode) :
    WindowState × Io.Status × Option PointerHitMaskTarget := (s, Io.makeStatus code, none)

def beginPointerHitMaskUpdate (s : WindowState) (answers : BeginAnswers) :
    WindowState × Io.Status × Option PointerHitMaskTarget :=
  if !answers.owner.ok then (s, answers.owner, none)
  else if !answers.supported then refuse s .unsupported
  else if answers.nativeDestroyedPendingFinalize then refuse s .resourceBusy
  else if s.rendererIntegration.isNone && !answers.allocated then refuse s .outOfMemory
  else
    let renderer := s.rendererIntegration.getD {}
    let s := { s with rendererIntegration := some renderer }
    if renderer.pointerHitMaskGenerationExhausted || renderer.pointerHitMaskGeneration = maxGeneration then
      refuse { s with rendererIntegration := some { renderer with
        pointerHitMaskGenerationExhausted := true, pointerHitMaskTargetGeneration := 0 } } .resourceBusy
    else
      let required := requiredPointerHitMaskWords s.framebufferSize
      if required = 0 then refuse s .invalidArgument
      else
        let generation := renderer.pointerHitMaskGeneration + 1
        ({ s with rendererIntegration := some { renderer with
            pointerHitMaskGeneration := generation
            pointerHitMaskTargetGeneration := generation
            pointerHitMaskTargetSize := s.framebufferSize
            pointerHitMaskTargetWordCount := required } },
          Io.successStatus,
          some { generation, framebufferSize := s.framebufferSize, requiredWordCount := required })

/-- Whether the last word of some row has a bit behind the width. -/
def hasPadding (size : PixelSize) (words : List UInt32) : Bool :=
  let validBitsInLastWord := size.width.toNat % bitsPerWord
  let validBits : UInt32 := (1 <<< UInt32.ofNat validBitsInLastWord) - 1
  validBitsInLastWord ≠ 0 &&
    (List.range size.height.toNat).any fun row =>
      words.getD (row * wordsPerRow size.width.toNat + wordsPerRow size.width.toNat - 1) 0 &&&
        ~~~validBits != 0

/-- How the allocation of a mask goes. -/
inductive Allocation where
  | succeeds
  | badAlloc
  | otherException
  deriving DecidableEq, Repr

/-- What `publishPointerHitMask` finds. -/
structure PublishAnswers where
  owner : Io.Status := {}
  allocation : Allocation := .succeeds
  deriving DecidableEq, Repr

/-- The mask in its place; the target is used up. -/
def activate (s : WindowState) (renderer : RendererIntegrationState) (generation : UInt64)
    (words : List UInt32) : WindowState :=
  { s with rendererIntegration := some { renderer with
      pointerHitMask := words
      pointerHitMaskActiveGeneration := generation
      pointerHitMaskSize := renderer.pointerHitMaskTargetSize
      pointerHitMaskTargetGeneration := 0
      pointerHitMaskTargetSize := {}
      pointerHitMaskTargetWordCount := 0 } }

def publishPointerHitMask (s : WindowState) (generation : UInt64) (words : List UInt32)
    (answers : PublishAnswers) : WindowState × Io.Status :=
  if !answers.owner.ok then (s, answers.owner)
  else
    match s.rendererIntegration with
    | none => (s, Io.makeStatus .interrupted)
    | some renderer =>
      if generation = 0 || generation ≠ renderer.pointerHitMaskTargetGeneration then
        (s, Io.makeStatus .interrupted)
      else
        let size := renderer.pointerHitMaskTargetSize
        let required := renderer.pointerHitMaskTargetWordCount
        if required = 0 || required ≠ words.length || size ≠ s.framebufferSize then
          (s, Io.makeStatus .invalidArgument)
        else if hasPadding size words then (s, Io.makeStatus .invalidArgument)
        else if renderer.pointerHitMask.length = required then
          (activate s renderer generation words, Io.successStatus)
        else
          match answers.allocation with
          | .succeeds => (activate s renderer generation words, Io.successStatus)
          | .badAlloc => (s, Io.makeStatus .outOfMemory)
          | .otherException => (s, Io.makeStatus .unknown)

/-! ## The lookup -/

/-- `static_cast<std::uint64_t>(position) * extent / client`. -/
def scaled (position : Int32) (extent client : UInt32) : UInt64 :=
  position.toInt64.toUInt64 * extent.toUInt64 / client.toUInt64

/-- `y * wordsPerRow + x / bitsPerWord`. -/
def wordIndex (width : UInt32) (x y : UInt64) : UInt64 :=
  y * (width.toUInt64 / 32 + if width.toUInt64 % 32 ≠ 0 then 1 else 0) + x / 32

/-- Whether the position lies in the client area. -/
def insideClient (size : LogicalSize) (position : LogicalPosition) : Bool :=
  !(size.width = 0 || size.height = 0 || position.x < 0 || position.y < 0 ||
    position.x.toUInt32 ≥ size.width || position.y.toUInt32 ≥ size.height)

def pointerHitMaskAccepts (s : WindowState) (position : LogicalPosition) : Bool :=
  match s.rendererIntegration with
  | none => true
  | some renderer =>
    if renderer.pointerHitMask.isEmpty || renderer.pointerHitMaskActiveGeneration = 0 ||
        renderer.pointerHitMaskSize ≠ s.framebufferSize || !insideClient s.clientSize position then true
    else
      let x := scaled position.x s.framebufferSize.width s.clientSize.width
      let y := scaled position.y s.framebufferSize.height s.clientSize.height
      if x ≥ s.framebufferSize.width.toUInt64 || y ≥ s.framebufferSize.height.toUInt64 then true
      else
        let word := wordIndex s.framebufferSize.width x y
        if word ≥ UInt64.ofNat renderer.pointerHitMask.length then true
        else
          let stableWord := renderer.pointerHitMask.getD word.toNat 0
          stableWord &&& (1 <<< (x % 32).toUInt32) != 0

/-! ## Runs -/

inductive Action where
  | begin (answers : BeginAnswers)
  | publish (generation : UInt64) (words : List UInt32) (answers : PublishAnswers)
  /-- `clearPointerHitMask` and the end of the native window. -/
  | invalidate
  | refreshGeometry (framebufferSize : PixelSize) (clientSize : LogicalSize)
  /-- The sizes are set elsewhere, by an open or by a test. -/
  | setSizes (framebufferSize : PixelSize) (clientSize : LogicalSize)
  | finishWindowLifetime
  deriving DecidableEq, Repr

def step (s : WindowState) : Action → WindowState
  | .begin answers => (beginPointerHitMaskUpdate s answers).1
  | .publish generation words answers => (publishPointerHitMask s generation words answers).1
  | .invalidate => invalidatePointerHitMask s
  | .refreshGeometry framebufferSize clientSize => refreshCachedGeometry s framebufferSize clientSize
  | .setSizes framebufferSize clientSize => { s with framebufferSize, clientSize }
  | .finishWindowLifetime => finishWindowLifetime s

end HitMask

end Desktop

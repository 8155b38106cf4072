import GameWIP.Desktop.WireFormats

/-!
# Foreign payloads, with every access checked

`materializeGlobal` (`platform/win32/win32_data_transfer.cpp`) with the range of every `subspan`, the
index of every element and every product and sum of sizes checked: it gives nothing where the code
would read or write outside a range or wrap around. Only the calls of `DragQueryFileW` are not
looked into.
-/

namespace Desktop

namespace DataTransfer

namespace Checked

open Io (Status)
open Lib.LittleEndian

/-- The `n` bytes at an offset; none for a range that leaves the memory. -/
def subspan (s : List UInt8) (offset n : Nat) : Option (List UInt8) :=
  if offset + n ≤ s.length then some ((s.drop offset).take n) else none

/-- A computed size; none for one that wraps around. -/
def sizeT (n : Nat) : Option Nat := if n < 2 ^ 64 then some n else none

/-- The negation of a `LONG`; none for the one whose negation is not a `LONG`. -/
def negate (v : Int) : Option Int := if v = Native.longMin then none else some (-v)

def materializeText (raw : List UInt8) : Option (Except Status Item) :=
  if raw.length < 2 ∨ raw.length % 2 ≠ 0 then
    some (.error (failure .encodingFailed))
  else do
    let wide := units (← subspan raw 0 (← sizeT (raw.length / 2 * 2)))
    let stop := wide.findIdx (· == 0)
    if stop = wide.length then
      return .error (failure .encodingFailed)
    else
      return (converted .encodingFailed (utf16ToUtf8 (wide.take stop))).map .text

/-- The number of rows. -/
def rowCount (h : BitmapInfoHeader) : Option Nat :=
  if h.biHeight < 0 then (negate h.biHeight).map Int.toNat else some h.biHeight.toNat

/-- The prefix of a bitmap header. -/
def readHeader (raw : List UInt8) : Option BitmapInfoHeader := do
  let bytes ← subspan raw 0 sizeofBitmapInfoHeader
  return BitmapInfoHeader.read bytes

/-- Where the pixels begin and whether they carry alpha. -/
def pixelLayout (raw : List UInt8) (h : BitmapInfoHeader) : Option (Option (Nat × Bool)) :=
  if h.biCompression = Native.biBitfields ∧ h.biSize = sizeofBitmapInfoHeader then
    match add h.biSize 12 with
    | none => some none
    | some masksEnd =>
      if masksEnd > raw.length then some none
      else do
        let masks ← subspan raw h.biSize 12
        return if ColorMasks.read 0 masks = .bgr then some (masksEnd, false) else none
  else if h.biCompression = Native.biBitfields then
    if h.biSize < sizeofBitmapV4Header then some none
    else do
      let extended ← subspan raw 0 sizeofBitmapV4Header
      let alphaMask := field 52 4 extended
      return if ColorMasks.read 40 extended = .bgr ∧ (alphaMask = 0 ∨ alphaMask = 0xFF000000) then
        some (h.biSize, alphaMask == 0xFF000000)
      else none
  else
    some (some (h.biSize, false))

/-- The alpha of the pixel at `p` of a source row. -/
def alphaAt (s : List UInt8) (explicitAlpha : Bool) (p : Nat) : Option UInt8 :=
  if explicitAlpha then (sizeT (p + 3)).bind (s[·]?) else some 0xFF

/-- The pixel at `p` of a source row, in RGBA order. -/
def rgbaPixel (s : List UInt8) (explicitAlpha : Bool) (p : Nat) : Option (List UInt8) := do
  let red ← s[← sizeT (p + 2)]?
  let green ← s[← sizeT (p + 1)]?
  let blue ← s[p]?
  let alpha ← alphaAt s explicitAlpha p
  return [red, green, blue, alpha]

/-- A source row in RGBA order, the bytes of each pixel inside a destination row. -/
def rgbaRow (s : List UInt8) (explicitAlpha : Bool) (w bytesPerPixel pixelRow : Nat) :
    Option (List UInt8) := do
  let pixels ← (List.range w).mapM fun x => do
    let p ← sizeT (x * bytesPerPixel)
    let last ← sizeT (x * 4 + 3)
    if last < pixelRow then rgbaPixel s explicitAlpha p else none
  return pixels.flatten

/-- All rows, each destination row inside the `packed` bytes of the image. -/
def rgbaRows (src : List UInt8) (topDown explicitAlpha : Bool)
    (w height row bytesPerPixel pixelRow packed : Nat) : Option (List UInt8) := do
  let rows ← (List.range height).mapM fun y => do
    let s ← subspan src (← sizeT ((if topDown then y else height - 1 - y) * row)) row
    let d ← sizeT (y * pixelRow)
    if d + pixelRow ≤ packed then rgbaRow s explicitAlpha w bytesPerPixel pixelRow else none
  return rows.flatten

def materializeImage (raw : List UInt8) : Option (Except Status Item) :=
  if raw.length < sizeofBitmapInfoHeader then
    some (.error (failure .readFailed))
  else do
    let h ← readHeader raw
    if !dimensionsValid h raw.length then
      return .error (failure .readFailed)
    else if !encodingSupported h then
      return .error (failure .unsupported)
    else
      let w := h.biWidth.toNat
      let height ← rowCount h
      match ← pixelLayout raw h with
      | none => return .error (failure .unsupported)
      | some (pixelOffset, explicitAlpha) =>
        match imageSizes w height h.biBitCount with
        | none => return .error (failure .readFailed)
        | some (row, bytes, packed) =>
          if pixelOffset > raw.length ∨ bytes > raw.length - pixelOffset then
            return .error (failure .readFailed)
          else if packed ≥ 2 ^ 63 then
            return .error (failure .unknown)
          else
            let src ← subspan raw pixelOffset bytes
            let rgba8 ← rgbaRows src (h.biHeight < 0) explicitAlpha w height row
              (h.biBitCount / 8) (w * 4) packed
            return .ok (.image ⟨.ofNat w, .ofNat height⟩ rgba8)

/-- Decodes one locked global memory into a portable item. -/
def materializeGlobal (platform : Platform) (global : Option GlobalMemory) (format : Format) :
    Option (Except Status Item) :=
  match global with
  | none => some (.error (failure .readFailed))
  | some memory =>
    if format.kind = .custom ∧ memory.bytes.length = 0 then
      some (.ok (.customData format.customName []))
    else
      match memory.lockError with
      | some code => some (.error (failure .lockFailed code))
      | none =>
        match format.kind with
        | .text => materializeText memory.bytes
        | .fileList => some (materializeFileList platform memory.bytes)
        | .custom => do
          let bytes ← subspan memory.bytes 0 memory.bytes.length
          return .ok (.customData format.customName bytes)
        | .image => materializeImage memory.bytes

end Checked

end DataTransfer

end Desktop

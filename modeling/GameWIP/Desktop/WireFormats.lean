import GameWIP.Desktop.DataTransfer
import GameWIP.Desktop.WideText
import GameWIP.Lib.Records

/-!
# Clipboard wire formats

The conversion between portable data-transfer values and global memory
(`platform/win32/win32_data_transfer.cpp`): UTF-16 text with a terminator, `DROPFILES` path lists,
top-down 32-bit `CF_DIBV5` images and registered custom payloads. Native structures are records of
little-endian fields. What a failed call leaves in its output argument is not modelled: the callers
drop it.
-/

namespace Desktop

namespace DataTransfer

open Io (ErrorCode Status)
open Events (PixelSize)
open Lib.LittleEndian

/-- A data-transfer status with an optional native error value. -/
def failure (code : ErrorCode) (native : Nat := 0) : Status := { code := code, nativeCode := native }

/-- What the handlers of a conversion that failed or threw return. -/
def conversionFailure (malformedEncodingFallback : ErrorCode) : ConversionFailure → Status
  | .native code => failure (unicodeConversionError code malformedEncodingFallback) code
  | .badAlloc => failure .outOfMemory
  | .lengthError => failure .unknown

/-- A status in place of the failure of a conversion. -/
def converted {α : Type} (malformedEncodingFallback : ErrorCode) :
    Except ConversionFailure α → Except Status α
  | .ok value => .ok value
  | .error e => .error (conversionFailure malformedEncodingFallback e)

def wouldMultiplyOverflow (left right : Nat) : Bool := left != 0 && right > (2 ^ 64 - 1) / left

/-- Multiplies sizes while rejecting overflow. -/
def multiply (a b : Nat) : Option Nat := if wouldMultiplyOverflow a b then none else some (a * b)

/-- Adds sizes while rejecting overflow. -/
def add (a b : Nat) : Option Nat := if Unicode.wouldAddOverflow a b then none else some (a + b)

/-! ## The native interfaces -/

namespace Native

def cfUnicodeText : Nat := 13

def cfHDrop : Nat := 15

def cfDibV5 : Nat := 17

/-- `UINT_MAX`, which is also the greatest `DWORD`. -/
def uintMax : Nat := 2 ^ 32 - 1

def longMax : Nat := 2 ^ 31 - 1

def longMin : Int := -2 ^ 31

def biRgb : Nat := 0

def biBitfields : Nat := 3

def lcsGmImages : Nat := 4

end Native

/-- The platform under the conversion: whether a path is absolute, the identifier a format name is
registered under or the last error, and what `DragQueryFileW` returns for a file index and the size
of a buffer, with the units it leaves there. -/
structure Platform where
  isAbsolute : Path → Bool
  registerClipboardFormat : List UInt16 → Except Nat Nat
  dragQueryFile : List UInt8 → Nat → Option Nat → Nat × List UInt16

/-- Global memory; an error is the last error of the failed lock. -/
structure GlobalMemory where
  bytes : List UInt8
  lockError : Option Nat := none

/-- The bits of a `LONG`. -/
def longBits (v : Int) : Nat := (v % 2 ^ 32).toNat

/-- The `LONG` with the given bits. -/
def ofLongBits (n : Nat) : Int := if n < 2 ^ 31 then n else n - 2 ^ 32

/-- `DROPFILES`. -/
structure DropFiles where
  pFiles : Nat := 0
  ptX : Int := 0
  ptY : Int := 0
  fNC : Nat := 0
  fWide : Nat := 0
  deriving DecidableEq, Repr

def sizeofDropFiles : Nat := 20

def DropFiles.bytes (h : DropFiles) : List UInt8 :=
  record [(4, h.pFiles), (4, longBits h.ptX), (4, longBits h.ptY), (4, h.fNC), (4, h.fWide)]

def DropFiles.read (raw : List UInt8) : DropFiles where
  pFiles := field 0 4 raw
  ptX := ofLongBits (field 4 4 raw)
  ptY := ofLongBits (field 8 4 raw)
  fNC := field 12 4 raw
  fWide := field 16 4 raw

/-- `BITMAPINFOHEADER`, the fields that are read. -/
structure BitmapInfoHeader where
  biSize : Nat
  biWidth : Int
  biHeight : Int
  biPlanes : Nat
  biBitCount : Nat
  biCompression : Nat
  deriving DecidableEq, Repr

def sizeofBitmapInfoHeader : Nat := 40

def sizeofBitmapV4Header : Nat := 108

def sizeofBitmapV5Header : Nat := 124

def BitmapInfoHeader.read (raw : List UInt8) : BitmapInfoHeader where
  biSize := field 0 4 raw
  biWidth := ofLongBits (field 4 4 raw)
  biHeight := ofLongBits (field 8 4 raw)
  biPlanes := field 12 2 raw
  biBitCount := field 14 2 raw
  biCompression := field 16 4 raw

/-- The channel masks of a bitmap. -/
structure ColorMasks where
  red : Nat
  green : Nat
  blue : Nat
  deriving DecidableEq, Repr

def ColorMasks.read (offset : Nat) (raw : List UInt8) : ColorMasks where
  red := field offset 4 raw
  green := field (offset + 4) 4 raw
  blue := field (offset + 8) 4 raw

/-- The only channel order that is read. -/
def ColorMasks.bgr : ColorMasks := ⟨0x00FF0000, 0x0000FF00, 0x000000FF⟩

/-- `BITMAPV5HEADER`, the fields that are assigned; the others are zero. -/
structure BitmapV5Header where
  bV5Size : Nat
  bV5Width : Int
  bV5Height : Int
  bV5Planes : Nat
  bV5BitCount : Nat
  bV5Compression : Nat
  bV5SizeImage : Nat
  bV5Masks : ColorMasks
  bV5AlphaMask : Nat
  bV5CSType : Nat
  bV5Intent : Nat
  deriving DecidableEq, Repr

/-- The header in memory: between the assigned fields the resolution and the color counts, the
endpoints with the gammas, and the profile with the reserved field. -/
def BitmapV5Header.bytes (h : BitmapV5Header) : List UInt8 :=
  record [(4, h.bV5Size), (4, longBits h.bV5Width), (4, longBits h.bV5Height), (2, h.bV5Planes),
    (2, h.bV5BitCount), (4, h.bV5Compression), (4, h.bV5SizeImage), (16, 0), (4, h.bV5Masks.red),
    (4, h.bV5Masks.green), (4, h.bV5Masks.blue), (4, h.bV5AlphaMask), (4, h.bV5CSType), (48, 0),
    (4, h.bV5Intent), (12, 0)]

/-! ## Native format identity -/

/-- Resolves a portable format to its clipboard identifier. -/
def nativeFormat (platform : Platform) (format : Format) : Except Status Nat :=
  match format.kind with
  | .text => .ok Native.cfUnicodeText
  | .fileList => .ok Native.cfHDrop
  | .image => .ok Native.cfDibV5
  | .custom =>
    if format.customName.isEmpty || format.customName.contains 0 then
      .error (failure .invalidArgument)
    else
      match converted .invalidArgument (utf8ToUtf16 format.customName) with
      | .error status => .error status
      | .ok wide =>
        match platform.registerClipboardFormat wide with
        | .error code => .error (failure .nativeFailure code)
        -- a `CLIPFORMAT` is a `WORD`
        | .ok value => .ok (value % 2 ^ 16)

/-! ## Source preparation -/

/-- A payload in native clipboard storage. -/
structure PreparedItem where
  format : Nat
  bytes : List UInt8
  deriving DecidableEq, Repr

def prepareText (text : List UInt8) : Except Status PreparedItem :=
  if text.contains 0 then
    .error (failure .invalidArgument)
  else
    match converted .invalidArgument (utf8ToUtf16 text) with
    | .error status => .error status
    | .ok wide =>
      match (add wide.length 1).bind (multiply · 2) with
      | none => .error (failure .sizeLimitExceeded)
      | some bytes =>
        -- the assignment to a vector of that many bytes throws `std::length_error`
        if bytes ≥ 2 ^ 63 then .error (failure .unknown)
        else .ok ⟨Native.cfUnicodeText, unitBytes wide ++ [0, 0]⟩

/-- The units of the paths and their terminators behind `units` others. -/
def pathUnits (platform : Platform) : Nat → List Path → Except Status Nat
  | units, [] => .ok units
  | units, path :: paths =>
    if !platform.isAbsolute path || path.contains 0 then
      .error (failure .invalidArgument)
    else
      match converted .invalidArgument (utf16ToUtf8 path) with
      | .error status => .error status
      | .ok _ =>
        match add units (path.length + 1) with
        | none => .error (failure .sizeLimitExceeded)
        | some next => pathUnits platform next paths

/-- The wide list of a `DROPFILES` payload: every path with its terminator, and one more. -/
def wideList (paths : List Path) : List UInt16 := (paths.flatMap fun path => path ++ [0]) ++ [0]

def prepareFileList (platform : Platform) (paths : List Path) : Except Status PreparedItem :=
  if paths.isEmpty then
    .error (failure .invalidArgument)
  else
    match pathUnits platform 1 paths with
    | .error status => .error status
    | .ok units =>
      match (multiply units 2).bind (add sizeofDropFiles ·) with
      | none => .error (failure .sizeLimitExceeded)
      | some total =>
        if total > Native.uintMax then .error (failure .sizeLimitExceeded)
        else
          let header : DropFiles := { pFiles := sizeofDropFiles, fWide := 1 }
          .ok ⟨Native.cfHDrop, header.bytes ++ unitBytes (wideList paths)⟩

def bitmapV5Header (size : PixelSize) (pixels : Nat) : BitmapV5Header where
  bV5Size := sizeofBitmapV5Header
  bV5Width := size.width.toNat
  bV5Height := -size.height.toNat
  bV5Planes := 1
  bV5BitCount := 32
  bV5Compression := Native.biBitfields
  bV5SizeImage := pixels
  bV5Masks := .bgr
  bV5AlphaMask := 0xFF000000
  bV5CSType := 0x73524742
  bV5Intent := Native.lcsGmImages

/-- The pixel whose four bytes in RGBA order begin at an offset, in the order of the bitmap. -/
def bgraPixel (rgba8 : List UInt8) (offset : Nat) : List UInt8 :=
  let s := (rgba8.drop offset).take 4
  [s.getD 2 0, s.getD 1 0, s.getD 0 0, s.getD 3 0]

/-- Row `y` of the bitmap. -/
def bgraRow (rgba8 : List UInt8) (width stride y : Nat) : List UInt8 :=
  (List.range width).flatMap fun x => bgraPixel rgba8 (y * stride + x * 4)

def prepareImage (size : PixelSize) (rowStrideBytes : Option Nat) (rgba8 : List UInt8) :
    Except Status PreparedItem :=
  if size.width = 0 ∨ size.height = 0 then
    .error (failure .invalidArgument)
  else
    match multiply size.width.toNat 4 with
    | none => .error (failure .invalidArgument)
    | some row =>
      let stride := rowStrideBytes.getD row
      if stride < row ∨ multiply stride size.height.toNat ≠ some rgba8.length then
        .error (failure .invalidArgument)
      else
        match multiply row size.height.toNat with
        | none => .error (failure .sizeLimitExceeded)
        | some pixels =>
          if (add sizeofBitmapV5Header pixels).isNone ∨ pixels > Native.uintMax ∨
              size.width.toNat > Native.longMax ∨ size.height.toNat > Native.longMax then
            .error (failure .sizeLimitExceeded)
          else
            .ok ⟨Native.cfDibV5, (bitmapV5Header size pixels).bytes ++
              (List.range size.height.toNat).flatMap (bgraRow rgba8 size.width.toNat stride)⟩

def prepareCustom (platform : Platform) (formatName bytes : List UInt8) :
    Except Status PreparedItem :=
  match nativeFormat platform ⟨.custom, formatName⟩ with
  | .error status => .error status
  | .ok format =>
    if bytes.isEmpty then .error (failure .unsupported)
    else .ok ⟨format, bytes⟩

/-- Encodes text, paths, images or custom bytes into native clipboard storage. -/
def prepare (platform : Platform) : ItemView → Except Status PreparedItem
  | .text text => prepareText text
  | .fileList paths => prepareFileList platform paths
  | .image size rowStrideBytes rgba8 => prepareImage size rowStrideBytes rgba8
  | .custom formatName bytes => prepareCustom platform formatName bytes

/-! ## Target materialization -/

def materializeText (raw : List UInt8) : Except Status Item :=
  -- unterminated or misaligned UTF-16 is rejected
  if raw.length < 2 ∨ raw.length % 2 ≠ 0 then
    .error (failure .encodingFailed)
  else
    let wide := units raw
    let stop := wide.findIdx (· == 0)
    if stop = wide.length then
      .error (failure .encodingFailed)
    else
      (converted .encodingFailed (utf16ToUtf8 (wide.take stop))).map .text

/-- The path with index `i`. -/
def materializePath (platform : Platform) (raw : List UInt8) (i : Nat) : Except Status Path :=
  let n := (platform.dragQueryFile raw i none).1
  if n = 0 then
    .error (failure .encodingFailed)
  else
    let copied := platform.dragQueryFile raw i (some (n + 1))
    if copied.1 ≠ n then
      .error (failure .readFailed)
    else
      let path := copied.2.take n
      (converted .encodingFailed (utf16ToUtf8 path)).map fun _ => path

def materializeFileList (platform : Platform) (raw : List UInt8) : Except Status Item :=
  let count := (platform.dragQueryFile raw 0xFFFFFFFF none).1
  if count = 0 then
    .error (failure .encodingFailed)
  else
    ((List.range count).mapM (materializePath platform raw)).map .fileList

def dimensionsValid (h : BitmapInfoHeader) (size : Nat) : Bool :=
  h.biSize ≥ sizeofBitmapInfoHeader && h.biSize ≤ size && h.biWidth > 0 && h.biHeight != 0 &&
    h.biHeight != Native.longMin

def encodingSupported (h : BitmapInfoHeader) : Bool :=
  h.biPlanes == 1 && ((h.biBitCount == 24 && h.biCompression == Native.biRgb) ||
    (h.biBitCount == 32 &&
      (h.biCompression == Native.biRgb || h.biCompression == Native.biBitfields)))

/-- Where the pixels begin and whether they carry alpha; none for masks that are not supported. -/
def pixelLayout (raw : List UInt8) (h : BitmapInfoHeader) : Option (Nat × Bool) :=
  if h.biCompression = Native.biBitfields ∧ h.biSize = sizeofBitmapInfoHeader then
    match add h.biSize 12 with
    | none => none
    | some masksEnd =>
      if masksEnd > raw.length then none
      else if ColorMasks.read h.biSize raw = .bgr then some (masksEnd, false)
      else none
  else if h.biCompression = Native.biBitfields then
    if h.biSize < sizeofBitmapV4Header then none
    else
      -- the masks of a `BITMAPV4HEADER`, the alpha mask behind the others
      let alphaMask := field 52 4 raw
      if ColorMasks.read 40 raw = .bgr ∧ (alphaMask = 0 ∨ alphaMask = 0xFF000000) then
        some (h.biSize, alphaMask == 0xFF000000)
      else none
  else
    some (h.biSize, false)

/-- The bytes of a source row, of all source rows and of all destination rows. -/
def imageSizes (w height bitCount : Nat) : Option (Nat × Nat × Nat) := do
  let bits ← multiply w bitCount
  let rounded ← add bits 31
  let row ← multiply (rounded / 32) 4
  let bytes ← multiply row height
  let pixelRow ← multiply w 4
  let packed ← multiply pixelRow height
  some (row, bytes, packed)

/-- The pixel at `p` of a source row, in RGBA order. -/
def rgbaPixel (s : List UInt8) (explicitAlpha : Bool) (p : Nat) : List UInt8 :=
  [s.getD (p + 2) 0, s.getD (p + 1) 0, s.getD p 0, if explicitAlpha then s.getD (p + 3) 0 else 0xFF]

def rgbaRow (s : List UInt8) (explicitAlpha : Bool) (w bytesPerPixel : Nat) : List UInt8 :=
  (List.range w).flatMap fun x => rgbaPixel s explicitAlpha (x * bytesPerPixel)

def materializeImage (raw : List UInt8) : Except Status Item :=
  if raw.length < sizeofBitmapInfoHeader then
    .error (failure .readFailed)
  else
    let h := BitmapInfoHeader.read raw
    if !dimensionsValid h raw.length then
      .error (failure .readFailed)
    else if !encodingSupported h then
      .error (failure .unsupported)
    else
      let w := h.biWidth.toNat
      let height := h.biHeight.natAbs
      match pixelLayout raw h with
      | none => .error (failure .unsupported)
      | some (pixelOffset, explicitAlpha) =>
        match imageSizes w height h.biBitCount with
        | none => .error (failure .readFailed)
        | some (row, bytes, packed) =>
          if pixelOffset > raw.length ∨ bytes > raw.length - pixelOffset then
            .error (failure .readFailed)
          -- the destination of that many bytes throws `std::length_error`
          else if packed ≥ 2 ^ 63 then
            .error (failure .unknown)
          else
            let src := (raw.drop pixelOffset).take bytes
            .ok (.image ⟨.ofNat w, .ofNat height⟩ ((List.range height).flatMap fun y =>
              -- a positive height is stored from the bottom up
              let k := if h.biHeight < 0 then y else height - 1 - y
              rgbaRow ((src.drop (k * row)).take row) explicitAlpha w (h.biBitCount / 8)))

/-- Decodes one locked global memory into a portable item. -/
def materializeGlobal (platform : Platform) (global : Option GlobalMemory) (format : Format) :
    Except Status Item :=
  match global with
  | none => .error (failure .readFailed)
  | some memory =>
    if format.kind = .custom ∧ memory.bytes.length = 0 then
      .ok (.customData format.customName [])
    else
      match memory.lockError with
      | some code => .error (failure .lockFailed code)
      | none =>
        match format.kind with
        | .text => materializeText memory.bytes
        | .fileList => materializeFileList platform memory.bytes
        | .custom => .ok (.customData format.customName memory.bytes)
        | .image => materializeImage memory.bytes

end DataTransfer

end Desktop

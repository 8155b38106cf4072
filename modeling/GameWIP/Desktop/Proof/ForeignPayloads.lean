import GameWIP.Desktop.ForeignPayloads
import GameWIP.Desktop.Proof.WireFormats

/-!
# Payloads of foreign applications

What `materializeGlobal` accepts of arbitrary memory, and what it makes of it.

* `materializeGlobal_checked`: no access leaves its range and no size wraps around;
* `materializeText_isOk`: which texts are accepted;
* `materializeImage_eq_ok`: which images are accepted, and the rows they give;
* `dibImage_iff`: these are the pixels the header locates, except behind a color table.
-/

namespace Desktop

namespace DataTransfer

open Unicode Lib LittleEndian

/-! ## Checked accesses -/

theorem mapM_eq_some_map {α β : Type} {f : α → Option β} {g : α → β} {l : List α}
    (h : ∀ a ∈ l, f a = some (g a)) : l.mapM f = some (l.map g) := by
  induction l with
  | nil => rfl
  | cons a l ih =>
    obtain ⟨ha, hl⟩ := List.forall_mem_cons.1 h
    rw [List.mapM_cons, ha, ih hl]
    rfl

theorem getElem?_eq_getD {s : List UInt8} {i : Nat} (h : i < s.length) :
    s[i]? = some (s.getD i 0) := by
  rw [List.getD_eq_getElem?_getD, List.getElem?_eq_getElem h]
  rfl

namespace Checked

variable {raw s : List UInt8} {h : BitmapInfoHeader} {offset n : Nat}

theorem subspan_eq (hn : offset + n ≤ s.length) :
    subspan s offset n = some ((s.drop offset).take n) := if_pos hn

theorem sizeT_eq (hn : n < 2 ^ 64) : sizeT n = some n := if_pos hn

theorem readHeader_eq (hraw : sizeofBitmapInfoHeader ≤ raw.length) :
    readHeader raw = some (BitmapInfoHeader.read raw) := by
  rw [readHeader, subspan_eq (by rwa [Nat.zero_add])]
  simp [-List.drop_zero, BitmapInfoHeader.read, sizeofBitmapInfoHeader, field_range]

theorem materializeText_eq (hsize : raw.length < 2 ^ 62) :
    materializeText raw = some (DataTransfer.materializeText raw) := by
  unfold materializeText DataTransfer.materializeText
  split_ifs with hodd
  · rfl
  · have hall : raw.length / 2 * 2 = raw.length := by omega
    rw [hall, sizeT_eq (by omega)]
    simp only [Option.bind_eq_bind, Option.bind_some]
    rw [subspan_eq (by omega), List.drop_zero, List.take_length]
    simp only [Option.bind_some]
    split_ifs <;> rfl

/-- The masks that are looked at are inside the memory. -/
theorem pixelLayout_eq (hraw : h.biSize ≤ raw.length) :
    pixelLayout raw h = some (DataTransfer.pixelLayout raw h) := by
  unfold pixelLayout DataTransfer.pixelLayout
  by_cases hbehind : h.biCompression = Native.biBitfields ∧ h.biSize = sizeofBitmapInfoHeader
  · rw [if_pos hbehind, if_pos hbehind, hbehind.2]
    cases hadd : add sizeofBitmapInfoHeader 12 with
    | none => rfl
    | some masksEnd =>
      obtain ⟨rfl, -⟩ := (add_eq_some (by decide)).1 hadd
      dsimp only
      by_cases hend : sizeofBitmapInfoHeader + 12 > raw.length
      · rw [if_pos hend, if_pos hend]
      · have hmasks : ColorMasks.read 0 ((raw.drop sizeofBitmapInfoHeader).take 12) =
            ColorMasks.read sizeofBitmapInfoHeader raw := by
          simp [ColorMasks.read, field_range]
        rw [if_neg hend, if_neg hend, subspan_eq (Nat.not_lt.1 hend)]
        simp only [Option.bind_eq_bind, Option.bind_some]
        rw [hmasks]
        rfl
  rw [if_neg hbehind, if_neg hbehind]
  by_cases hbitfields : h.biCompression = Native.biBitfields
  · rw [if_pos hbitfields, if_pos hbitfields]
    by_cases hshort : h.biSize < sizeofBitmapV4Header
    · rw [if_pos hshort, if_pos hshort]
    · have hmasks : ColorMasks.read 40 ((raw.drop 0).take sizeofBitmapV4Header) =
          ColorMasks.read 40 raw := by
        simp [-List.drop_zero, ColorMasks.read, sizeofBitmapV4Header, field_range]
      have halpha : field 52 4 ((raw.drop 0).take sizeofBitmapV4Header) = field 52 4 raw := by
        rw [field_range (by decide), Nat.zero_add]
      rw [if_neg hshort, if_neg hshort, subspan_eq (by omega)]
      simp only [Option.bind_eq_bind, Option.bind_some]
      rw [hmasks, halpha]
      rfl
  · rw [if_neg hbitfields, if_neg hbitfields]

/-- The bytes of a pixel are inside its row. -/
theorem rgbaPixel_eq {explicitAlpha : Bool} {p : Nat} (hs : s.length < 2 ^ 63)
    (hp : p + 2 < s.length) (halpha : explicitAlpha = true → p + 3 < s.length) :
    rgbaPixel s explicitAlpha p = some (DataTransfer.rgbaPixel s explicitAlpha p) := by
  have hred := getElem?_eq_getD hp
  have hgreen := getElem?_eq_getD (s := s) (i := p + 1) (by omega)
  have hblue := getElem?_eq_getD (s := s) (i := p) (by omega)
  have hlast : alphaAt s explicitAlpha p =
      some (if explicitAlpha then s.getD (p + 3) 0 else 0xFF) := by
    unfold alphaAt
    split_ifs with hexplicit
    · rw [sizeT_eq (by omega), Option.bind_some, getElem?_eq_getD (halpha hexplicit)]
    · rfl
  rw [rgbaPixel, sizeT_eq (by omega), sizeT_eq (by omega), hlast]
  simp only [Option.bind_eq_bind, Option.bind_some, hred, hgreen, hblue]
  rfl

/-- The pixels of a row are inside it, and their results inside a row of the image. -/
theorem rgbaRow_eq {explicitAlpha : Bool} {w bytesPerPixel : Nat} (hs : s.length < 2 ^ 63)
    (hw : w * 4 < 2 ^ 63) (hrow : w * bytesPerPixel ≤ s.length) (hpixel : 3 ≤ bytesPerPixel)
    (halpha : explicitAlpha = true → 4 ≤ bytesPerPixel) :
    rgbaRow s explicitAlpha w bytesPerPixel (w * 4) =
      some (DataTransfer.rgbaRow s explicitAlpha w bytesPerPixel) := by
  unfold rgbaRow DataTransfer.rgbaRow
  rw [mapM_eq_some_map (g := fun x => DataTransfer.rgbaPixel s explicitAlpha (x * bytesPerPixel)),
    List.flatMap_def]
  · rfl
  intro x hx
  have hx := List.mem_range.1 hx
  have hend : x * bytesPerPixel + bytesPerPixel ≤ w * bytesPerPixel := by
    rw [← Nat.succ_mul]
    exact Nat.mul_le_mul_right _ hx
  rw [sizeT_eq (by omega), sizeT_eq (by omega)]
  simp only [Option.bind_eq_bind, Option.bind_some]
  rw [if_pos (by omega)]
  exact rgbaPixel_eq hs (by omega) fun h => by
    have := halpha h
    omega

/-- The rows are inside the source, and their results inside the image. -/
theorem rgbaRows_eq {topDown explicitAlpha : Bool} {w height row bytesPerPixel : Nat}
    (hs : s.length = row * height) (hlt : s.length < 2 ^ 63) (hpacked : w * 4 * height < 2 ^ 63)
    (hrow : w * bytesPerPixel ≤ row) (hpixel : 3 ≤ bytesPerPixel)
    (halpha : explicitAlpha = true → 4 ≤ bytesPerPixel) :
    rgbaRows s topDown explicitAlpha w height row bytesPerPixel (w * 4) (w * 4 * height) =
      some ((List.range height).flatMap fun y =>
        DataTransfer.rgbaRow ((s.drop ((if topDown then y else height - 1 - y) * row)).take row)
          explicitAlpha w bytesPerPixel) := by
  unfold rgbaRows
  rw [mapM_eq_some_map (g := fun y => DataTransfer.rgbaRow
    ((s.drop ((if topDown then y else height - 1 - y) * row)).take row) explicitAlpha w
      bytesPerPixel), List.flatMap_def]
  · rfl
  intro y hy
  have hy := List.mem_range.1 hy
  have hinside : ∀ k < height, ∀ m, k * m + m ≤ m * height := by
    intro k hk m
    rw [← Nat.succ_mul, Nat.mul_comm m]
    exact Nat.mul_le_mul_right _ hk
  generalize hk : (if topDown = true then y else height - 1 - y) = k
  have hsource := hinside k (by split at hk <;> omega) row
  have hdestination := hinside y hy (w * 4)
  have hlength : ((s.drop (k * row)).take row).length = row := by
    rw [List.length_take, List.length_drop]
    omega
  rw [sizeT_eq (by omega)]
  simp only [Option.bind_eq_bind, Option.bind_some]
  rw [subspan_eq (by omega)]
  simp only [Option.bind_some]
  rw [sizeT_eq (by omega)]
  simp only [Option.bind_some]
  rw [if_pos hdestination]
  exact rgbaRow_eq (by omega) (by omega) (by rwa [hlength]) hpixel halpha

end Checked

/-! ## The header -/

section
variable {raw : List UInt8} {h : BitmapInfoHeader}

/-- The bytes of a row of the pixel array, a multiple of four. -/
def rowBytes (h : BitmapInfoHeader) : Nat := (h.biWidth.toNat * h.biBitCount + 31) / 32 * 4

/-- The row of the pixel array that holds row `y` of the image; a positive height is stored from the
bottom up. -/
def sourceRow (h : BitmapInfoHeader) (y : Nat) : Nat :=
  if h.biHeight < 0 then y else h.biHeight.natAbs - 1 - y

/-- The pixel at column `x` of row `y` of the image, in a pixel array at an offset. -/
def pixelAt (h : BitmapInfoHeader) (array x y : Nat) : Nat :=
  array + sourceRow h y * rowBytes h + x * (h.biBitCount / 8)

/-- The bytes of the bit masks behind a header without masks of its own. -/
def masksBehind (h : BitmapInfoHeader) : Nat :=
  if h.biCompression = Native.biBitfields ∧ h.biSize = sizeofBitmapInfoHeader then 12 else 0

/-- The number of entries of the color table, `biClrUsed`. -/
def declaredColors (raw : List UInt8) : Nat := field 32 4 raw

/-- An alpha mask is declared; masks count for bit fields only. -/
def declaresAlpha (raw : List UInt8) (h : BitmapInfoHeader) : Bool :=
  h.biCompression == Native.biBitfields && sizeofBitmapV4Header ≤ h.biSize && field 52 4 raw != 0

/-- The supported masks: of the three channels, behind the header or inside it, then with alpha. -/
def MasksSupported (raw : List UInt8) (h : BitmapInfoHeader) : Prop :=
  h.biCompression = Native.biBitfields → ColorMasks.read 40 raw = .bgr ∧
    (h.biSize = sizeofBitmapInfoHeader ∧ sizeofBitmapInfoHeader + 12 ≤ raw.length ∨
      sizeofBitmapV4Header ≤ h.biSize ∧ (field 52 4 raw = 0 ∨ field 52 4 raw = 0xFF000000))

/-- A complete header of an encoding that is supported. -/
structure HeaderSupported (raw : List UInt8) (h : BitmapInfoHeader) : Prop where
  complete : sizeofBitmapInfoHeader ≤ h.biSize ∧ h.biSize ≤ raw.length
  width : 0 < h.biWidth
  height : h.biHeight ≠ 0 ∧ h.biHeight ≠ Native.longMin
  planes : h.biPlanes = 1
  encoding : h.biBitCount = 24 ∧ h.biCompression = Native.biRgb ∨
    h.biBitCount = 32 ∧ (h.biCompression = Native.biRgb ∨ h.biCompression = Native.biBitfields)
  masks : MasksSupported raw h

theorem dimensionsValid_iff : dimensionsValid h raw.length = true ↔
    (sizeofBitmapInfoHeader ≤ h.biSize ∧ h.biSize ≤ raw.length) ∧ 0 < h.biWidth ∧
      h.biHeight ≠ 0 ∧ h.biHeight ≠ Native.longMin := by
  simp [dimensionsValid, and_assoc]

theorem encodingSupported_iff : encodingSupported h = true ↔ h.biPlanes = 1 ∧
    (h.biBitCount = 24 ∧ h.biCompression = Native.biRgb ∨
      h.biBitCount = 32 ∧
        (h.biCompression = Native.biRgb ∨ h.biCompression = Native.biBitfields)) := by
  simp [encodingSupported]

/-- The pixels begin behind the header and the masks, and supported masks are the condition. -/
theorem pixelLayout_eq_some {layout : Nat × Bool} :
    pixelLayout raw h = some layout ↔
      MasksSupported raw h ∧ layout = (h.biSize + masksBehind h, declaresAlpha raw h) := by
  have hshort : ¬ sizeofBitmapV4Header ≤ sizeofBitmapInfoHeader := by decide
  unfold pixelLayout MasksSupported masksBehind declaresAlpha
  by_cases hbitfields : h.biCompression = Native.biBitfields
  · by_cases hbehind : h.biSize = sizeofBitmapInfoHeader
    · have hadd : add sizeofBitmapInfoHeader 12 = some (sizeofBitmapInfoHeader + 12) :=
        (add_eq_some (by decide)).2 ⟨rfl, by decide⟩
      have hread : ColorMasks.read sizeofBitmapInfoHeader raw = ColorMasks.read 40 raw := rfl
      simp only [hbitfields, hbehind, and_self, if_true, hadd, hread, decide_eq_false hshort,
        Bool.and_false, Bool.false_and]
      split_ifs with hend hmasks
      · simp [hshort, Nat.not_le.2 hend]
      · simp [hmasks, Nat.not_lt.1 hend, eq_comm]
      · simp [hmasks]
    · simp only [hbitfields, hbehind, and_false, if_false, if_true, beq_self_eq_true, Bool.true_and]
      split_ifs with hbefore hmasks
      · simp [Nat.not_le.2 hbefore]
      · obtain ⟨hbgr, halpha⟩ := hmasks
        rcases halpha with halpha | halpha
        · simp [hbgr, halpha, Nat.not_lt.1 hbefore, eq_comm]
        · simp [hbgr, halpha, Nat.not_lt.1 hbefore, eq_comm]
      · refine iff_of_false (by simp) fun hm => hmasks ?_
        simpa [Nat.not_lt.1 hbefore] using hm.1
  · have hne : (h.biCompression == Native.biBitfields) = false := beq_eq_false_iff_ne.2 hbitfields
    simp [hbitfields, hne, eq_comm]

end

/-! ## Images -/

section
variable {raw : List UInt8} {h : BitmapInfoHeader} {array : Nat}

/-- All rows of the pixel array at an offset are in the memory. -/
def RowsInside (raw : List UInt8) (h : BitmapInfoHeader) (array : Nat) : Prop :=
  ∀ y < h.biHeight.natAbs, array + sourceRow h y * rowBytes h + rowBytes h ≤ raw.length

/-- The image of a bitmap whose pixel array is at an offset: four bytes a pixel, in RGBA order. -/
structure IsImage (raw : List UInt8) (h : BitmapInfoHeader) (array : Nat) (rgba8 : List UInt8) :
    Prop where
  length : rgba8.length = h.biHeight.natAbs * (h.biWidth.toNat * 4)
  pixel : ∀ x < h.biWidth.toNat, ∀ y < h.biHeight.natAbs,
    (rgba8.drop ((y * h.biWidth.toNat + x) * 4)).take 4 =
      let p := pixelAt h array x y
      [raw.getD (p + 2) 0, raw.getD (p + 1) 0, raw.getD p 0,
        if declaresAlpha raw h then raw.getD (p + 3) 0 else 0xFF]

/-- The rows at an offset, in RGBA order. -/
def decodedRows (raw : List UInt8) (h : BitmapInfoHeader) (array : Nat) : List UInt8 :=
  (List.range h.biHeight.natAbs).flatMap fun y =>
    rgbaRow ((((raw.drop array).take (rowBytes h * h.biHeight.natAbs)).drop
      (sourceRow h y * rowBytes h)).take (rowBytes h)) (declaresAlpha raw h) h.biWidth.toNat
      (h.biBitCount / 8)

theorem sourceRow_lt {y : Nat} (hy : y < h.biHeight.natAbs) : sourceRow h y < h.biHeight.natAbs := by
  unfold sourceRow
  split_ifs <;> omega

/-- The rows are in the memory when their end is. -/
theorem rowsInside_iff (hheight : h.biHeight ≠ 0) :
    RowsInside raw h array ↔ array + rowBytes h * h.biHeight.natAbs ≤ raw.length := by
  constructor
  · intro hinside
    -- the row that is stored last
    obtain ⟨y, hy, hlast⟩ : ∃ y < h.biHeight.natAbs, sourceRow h y = h.biHeight.natAbs - 1 := by
      by_cases htop : h.biHeight < 0
      · exact ⟨h.biHeight.natAbs - 1, by omega, if_pos htop⟩
      · exact ⟨0, by omega, if_neg htop⟩
    have hrow := hinside y hy
    rwa [hlast, Nat.add_assoc, ← Nat.succ_mul, Nat.succ_eq_add_one, Nat.sub_add_cancel (by omega),
      Nat.mul_comm] at hrow
  · intro hend y hy
    have hrow : sourceRow h y * rowBytes h + rowBytes h ≤ rowBytes h * h.biHeight.natAbs := by
      rw [← Nat.succ_mul, Nat.mul_comm (rowBytes h)]
      exact Nat.mul_le_mul_right _ (sourceRow_lt hy)
    omega

/-- The pixels of a row fit in it, with three or four bytes each. -/
theorem HeaderSupported.pixels (hh : HeaderSupported raw h) :
    h.biWidth.toNat * (h.biBitCount / 8) ≤ rowBytes h ∧ 3 ≤ h.biBitCount / 8 ∧
      (declaresAlpha raw h = true → 4 ≤ h.biBitCount / 8) := by
  unfold rowBytes
  rcases hh.encoding with ⟨hbits, hrgb⟩ | ⟨hbits, -⟩
  · have hopaque : declaresAlpha raw h = false := by
      rw [declaresAlpha, hrgb]
      rfl
    rw [hbits, hopaque]
    exact ⟨by omega, by decide, nofun⟩
  · rw [hbits]
    omega

theorem getD_range {s : List UInt8} {k n i : Nat} (hi : i < n) :
    ((s.drop k).take n).getD i 0 = s.getD (k + i) 0 := by
  rw [List.getD_eq_getElem?_getD, List.getD_eq_getElem?_getD, List.getElem?_take_of_lt hi,
    List.getElem?_drop]

/-- The decoded rows are the image. -/
theorem isImage_decodedRows (hh : HeaderSupported raw h) (array : Nat) :
    IsImage raw h array (decodedRows raw h array) := by
  obtain ⟨hrow, hthree, hfour⟩ := hh.pixels
  have hlength : ∀ s explicitAlpha p, (rgbaPixel s explicitAlpha p).length = 4 := fun _ _ _ => rfl
  constructor
  · exact length_flatMap_range fun _ _ => length_flatMap_range fun _ _ => hlength _ _ _
  intro x hx y hy
  have hblock := block_block (fun _ _ _ _ => hlength _ _ _) hy hx (g := fun y x =>
    rgbaPixel ((((raw.drop array).take (rowBytes h * h.biHeight.natAbs)).drop
      (sourceRow h y * rowBytes h)).take (rowBytes h)) (declaresAlpha raw h) (x * (h.biBitCount / 8)))
  have hend : x * (h.biBitCount / 8) + h.biBitCount / 8 ≤ rowBytes h := by
    rw [← Nat.succ_mul]
    exact Nat.le_trans (Nat.mul_le_mul_right _ hx) hrow
  have hsource : sourceRow h y * rowBytes h + rowBytes h ≤ rowBytes h * h.biHeight.natAbs := by
    rw [← Nat.succ_mul, Nat.mul_comm (rowBytes h)]
    exact Nat.mul_le_mul_right _ (sourceRow_lt hy)
  -- a byte of the pixel, in its row and in the memory
  have hbyte : ∀ i < h.biBitCount / 8,
      ((((raw.drop array).take (rowBytes h * h.biHeight.natAbs)).drop
        (sourceRow h y * rowBytes h)).take (rowBytes h)).getD (x * (h.biBitCount / 8) + i) 0 =
          raw.getD (pixelAt h array x y + i) 0 := by
    intro i hi
    rw [getD_range (by omega), getD_range (by omega), pixelAt]
    congr 1
    omega
  have h0 := hbyte 0 (by omega)
  rw [Nat.add_zero, Nat.add_zero] at h0
  refine hblock.trans ?_
  simp only [rgbaPixel, h0, hbyte 1 (by omega), hbyte 2 (by omega)]
  cases halpha : declaresAlpha raw h with
  | false => rfl
  | true => rw [if_pos rfl, if_pos rfl, hbyte 3 (hfour halpha)]

theorem ofLongBits_lt {n : Nat} (hn : n < 2 ^ 32) : ofLongBits n < 2 ^ 31 := by
  unfold ofLongBits
  split_ifs <;> omega

theorem width_read_lt (raw : List UInt8) : (BitmapInfoHeader.read raw).biWidth.toNat < 2 ^ 31 := by
  have hlt : (BitmapInfoHeader.read raw).biWidth < 2 ^ 31 := ofLongBits_lt (field_lt 4 4 raw)
  omega

/-- The sizes of an image whose rows are in the memory. -/
theorem imageSizes_supported (hh : HeaderSupported raw h) (hwidth : h.biWidth.toNat < 2 ^ 31)
    (hend : rowBytes h * h.biHeight.natAbs < 2 ^ 62) :
    imageSizes h.biWidth.toNat h.biHeight.natAbs h.biBitCount =
        some (rowBytes h, rowBytes h * h.biHeight.natAbs,
          h.biWidth.toNat * 4 * h.biHeight.natAbs) ∧
      h.biWidth.toNat * 4 * h.biHeight.natAbs < 2 ^ 63 := by
  obtain ⟨hpixels, hthree, -⟩ := hh.pixels
  have hpos : 0 < h.biHeight.natAbs := Int.natAbs_pos.2 hh.height.1
  have hbits : h.biBitCount ≤ 32 := by
    rcases hh.encoding with ⟨hbits, -⟩ | ⟨hbits, -⟩ <;> omega
  have hrow : rowBytes h ≤ rowBytes h * h.biHeight.natAbs := Nat.le_mul_of_pos_right _ hpos
  have hall : h.biWidth.toNat * h.biBitCount ≤ h.biWidth.toNat * 32 := Nat.mul_le_mul_left _ hbits
  -- a pixel takes at least three bytes of its row, and four in the image
  have hthird : h.biWidth.toNat * 3 * h.biHeight.natAbs ≤ rowBytes h * h.biHeight.natAbs :=
    Nat.mul_le_mul_right _ (Nat.le_trans (Nat.mul_le_mul_left _ hthree) hpixels)
  have hpacked : h.biWidth.toNat * 4 * h.biHeight.natAbs < 2 ^ 63 := by
    rw [Nat.mul_right_comm] at hthird ⊢
    omega
  have hround : multiply ((h.biWidth.toNat * h.biBitCount + 31) / 32) 4 = some (rowBytes h) :=
    multiply_eq_some.2 ⟨rfl, by omega⟩
  refine ⟨?_, hpacked⟩
  unfold imageSizes
  rw [multiply_eq_some.2 ⟨rfl, by omega⟩]
  simp only [Option.bind_eq_bind, Option.bind_some]
  rw [(add_eq_some (by omega)).2 ⟨rfl, by omega⟩]
  simp only [Option.bind_some]
  rw [hround]
  simp only [Option.bind_some]
  rw [multiply_eq_some.2 ⟨rfl, by omega⟩]
  simp only [Option.bind_some]
  rw [multiply_eq_some.2 ⟨rfl, by omega⟩]
  simp only [Option.bind_some]
  rw [multiply_eq_some.2 ⟨rfl, by omega⟩]
  rfl

/-- The sizes that are computed. -/
theorem of_imageSizes {w height bitCount row bytes packed : Nat}
    (hsizes : imageSizes w height bitCount = some (row, bytes, packed)) :
    row = (w * bitCount + 31) / 32 * 4 ∧ bytes = row * height ∧ packed = w * 4 * height := by
  unfold imageSizes at hsizes
  simp only [Option.bind_eq_bind, Option.bind_eq_some_iff] at hsizes
  obtain ⟨bits, hbits, rounded, hrounded, row', hrow, bytes', hbytes, pixelRow, hpixelRow, packed',
    hpacked, hall⟩ := hsizes
  obtain ⟨rfl, hlt⟩ := multiply_eq_some.1 hbits
  obtain ⟨rfl, -⟩ := (add_eq_some hlt).1 hrounded
  obtain ⟨rfl, -⟩ := multiply_eq_some.1 hrow
  obtain ⟨rfl, -⟩ := multiply_eq_some.1 hbytes
  obtain ⟨rfl, -⟩ := multiply_eq_some.1 hpixelRow
  obtain ⟨rfl, -⟩ := multiply_eq_some.1 hpacked
  cases hall
  exact ⟨rfl, rfl, rfl⟩

/-- Which images are accepted: the rows must be in the memory right behind the masks. -/
theorem materializeImage_eq_ok (hsize : raw.length < 2 ^ 62) (hread : BitmapInfoHeader.read raw = h)
    {item : Item} :
    materializeImage raw = .ok item ↔
      HeaderSupported raw h ∧ RowsInside raw h (h.biSize + masksBehind h) ∧
        item = .image ⟨.ofNat h.biWidth.toNat, .ofNat h.biHeight.natAbs⟩
          (decodedRows raw h (h.biSize + masksBehind h)) := by
  have hwidth : h.biWidth.toNat < 2 ^ 31 := hread ▸ width_read_lt raw
  constructor
  · intro hok
    unfold materializeImage at hok
    split at hok
    · cases hok
    rw [hread] at hok
    dsimp only at hok
    split at hok
    · cases hok
    rename_i hvalid
    split at hok
    · cases hok
    rename_i hencoding
    split at hok
    · cases hok
    rename_i pixelOffset explicitAlpha hlayout
    split at hok
    · cases hok
    rename_i row bytes packed hsizes
    split at hok
    · cases hok
    rename_i hfit
    split at hok
    · cases hok
    obtain ⟨rfl, rfl, rfl⟩ := of_imageSizes hsizes
    obtain ⟨hmasks, hwhere⟩ := pixelLayout_eq_some.1 hlayout
    obtain ⟨rfl, rfl⟩ := Prod.mk.inj hwhere
    obtain ⟨hcomplete, hpositive, hheight⟩ := dimensionsValid_iff.1 (by simpa using hvalid)
    obtain ⟨hplanes, hsupported⟩ := encodingSupported_iff.1 (by simpa using hencoding)
    have hh : HeaderSupported raw h :=
      ⟨hcomplete, hpositive, hheight, hplanes, hsupported, hmasks⟩
    refine ⟨hh, (rowsInside_iff hheight.1).2 ?_, (Except.ok.inj hok).symm⟩
    unfold rowBytes
    omega
  · rintro ⟨hh, hrows, rfl⟩
    have hend := (rowsInside_iff hh.height.1).1 hrows
    obtain ⟨hsizes, hpacked⟩ := imageSizes_supported hh hwidth (by omega)
    exact materializeImage_eq hread (dimensionsValid_iff.2 ⟨hh.complete, hh.width, hh.height⟩)
      (encodingSupported_iff.2 ⟨hh.planes, hh.encoding⟩)
      (pixelLayout_eq_some.2 ⟨hh.masks, rfl⟩) hsizes hend hpacked

theorem Checked.rowCount_eq (hheight : h.biHeight ≠ Native.longMin) :
    Checked.rowCount h = some h.biHeight.natAbs := by
  unfold Checked.rowCount
  split_ifs with hneg
  · rw [Checked.negate, if_neg hheight, Option.map_some, Option.some_inj]
    omega
  · rw [Option.some_inj]
    omega

/-- No access to an image leaves its range. -/
theorem Checked.materializeImage_eq (hsize : raw.length < 2 ^ 62) :
    Checked.materializeImage raw = some (DataTransfer.materializeImage raw) := by
  unfold Checked.materializeImage DataTransfer.materializeImage
  by_cases hshort : raw.length < sizeofBitmapInfoHeader
  · rw [if_pos hshort, if_pos hshort]
  rw [if_neg hshort, if_neg hshort, Checked.readHeader_eq (Nat.not_lt.1 hshort)]
  simp only [Option.bind_eq_bind, Option.bind_some]
  generalize hread : BitmapInfoHeader.read raw = h
  cases hvalid : dimensionsValid h raw.length with
  | false => rfl
  | true =>
  cases hencoding : encodingSupported h with
  | false => rfl
  | true =>
  obtain ⟨hcomplete, hpositive, hheight⟩ := dimensionsValid_iff.1 hvalid
  simp only [Bool.not_true, Bool.false_eq_true, if_false]
  rw [Checked.rowCount_eq hheight.2, Checked.pixelLayout_eq hcomplete.2]
  simp only [Option.bind_some]
  cases hlayout : DataTransfer.pixelLayout raw h with
  | none => rfl
  | some layout =>
  obtain ⟨hmasks, rfl⟩ := pixelLayout_eq_some.1 hlayout
  dsimp only
  cases hsizes : imageSizes h.biWidth.toNat h.biHeight.natAbs h.biBitCount with
  | none => rfl
  | some sizes =>
  obtain ⟨row, bytes, packed⟩ := sizes
  obtain ⟨rfl, rfl, rfl⟩ := of_imageSizes hsizes
  dsimp only
  by_cases hfit : h.biSize + masksBehind h > raw.length ∨
      (h.biWidth.toNat * h.biBitCount + 31) / 32 * 4 * h.biHeight.natAbs >
        raw.length - (h.biSize + masksBehind h)
  · rw [if_pos hfit, if_pos hfit]
    rfl
  by_cases hpacked : h.biWidth.toNat * 4 * h.biHeight.natAbs ≥ 2 ^ 63
  · rw [if_neg hfit, if_neg hfit, if_pos hpacked, if_pos hpacked]
    rfl
  obtain ⟨hplanes, hsupported⟩ := encodingSupported_iff.1 hencoding
  have hh : HeaderSupported raw h := ⟨hcomplete, hpositive, hheight, hplanes, hsupported, hmasks⟩
  obtain ⟨hpixels, hthree, hfour⟩ := hh.pixels
  unfold rowBytes at hpixels
  rw [if_neg hfit, if_neg hfit, if_neg hpacked, if_neg hpacked, Checked.subspan_eq (by omega)]
  simp only [Option.bind_some]
  rw [Checked.rgbaRows_eq ?_ ?_ (by omega) hpixels hthree hfour]
  · simp
  · rw [List.length_take, List.length_drop]
    omega
  · rw [List.length_take]
    omega

end

/-! ## Texts -/

section
variable {raw : List UInt8}

/-- Memory that holds a text: whole units with a NUL among them, well formed in front of the
first. -/
def HoldsText (raw : List UInt8) : Prop :=
  2 ≤ raw.length ∧ raw.length % 2 = 0 ∧ ∃ stop : Nat, (units raw)[stop]? = some 0 ∧
    (∀ i < stop, (units raw)[i]? ≠ some 0) ∧ utf16Code.IsText ((units raw).take stop)

theorem length_units (raw : List UInt8) : (units raw).length = raw.length / 2 := by
  induction raw using units.induct with
  | case1 b c bs ih =>
    rw [units, List.length_cons, ih, List.length_cons, List.length_cons]
    omega
  | case2 bs hbs =>
    rcases bs with _ | ⟨b, _ | ⟨c, bs⟩⟩
    · rfl
    · simp [units]
    · exact absurd rfl (hbs b c bs)

/-- The first NUL is where the search ends. -/
theorem findIdx_zero_iff {us : List UInt16} {stop : Nat} :
    (us[stop]? = some 0 ∧ ∀ i < stop, us[i]? ≠ some 0) ↔
      stop < us.length ∧ us.findIdx (· == 0) = stop := by
  constructor
  · rintro ⟨hzero, hfirst⟩
    obtain ⟨hlt, hzero⟩ := List.getElem?_eq_some_iff.1 hzero
    refine ⟨hlt, (List.findIdx_eq hlt).2 ⟨by simp [hzero], fun i hi => ?_⟩⟩
    have hi' := hfirst i hi
    rw [List.getElem?_eq_getElem (by omega)] at hi'
    simpa using hi'
  · rintro ⟨hlt, hstop⟩
    obtain ⟨hzero, hfirst⟩ := (List.findIdx_eq hlt).1 hstop
    refine ⟨by simpa [List.getElem?_eq_getElem hlt] using hzero, fun i hi => ?_⟩
    rw [List.getElem?_eq_getElem (by omega)]
    simpa using hfirst i hi

/-- Which texts are accepted. -/
theorem materializeText_isOk (hsize : raw.length < 2 ^ 62) :
    (∃ item, materializeText raw = .ok item) ↔ HoldsText raw := by
  have hunits := length_units raw
  unfold materializeText HoldsText
  by_cases hodd : raw.length < 2 ∨ raw.length % 2 ≠ 0
  · rw [if_pos hodd]
    refine iff_of_false (by simp) fun h => ?_
    omega
  rw [if_neg hodd]
  dsimp only
  by_cases hstop : (units raw).findIdx (· == 0) = (units raw).length
  · rw [if_pos hstop]
    refine iff_of_false (by simp) fun ⟨_, _, stop, hzero, hfirst, _⟩ => ?_
    obtain ⟨hlt, heq⟩ := findIdx_zero_iff.1 ⟨hzero, hfirst⟩
    omega
  rw [if_neg hstop]
  have hlt : (units raw).findIdx (· == 0) < (units raw).length :=
    Nat.lt_of_le_of_ne List.findIdx_le_length hstop
  constructor
  · rintro ⟨item, hok⟩
    cases hconv : utf16ToUtf8 ((units raw).take ((units raw).findIdx (· == 0))) with
    | error e =>
      rw [hconv] at hok
      cases hok
    | ok out =>
      obtain ⟨hzero, hfirst⟩ := findIdx_zero_iff.2 ⟨hlt, rfl⟩
      exact ⟨by omega, by omega, _, hzero, hfirst, of_utf16ToUtf8 hconv⟩
  · rintro ⟨-, -, stop, hzero, hfirst, htext⟩
    obtain ⟨-, rfl⟩ := findIdx_zero_iff.1 ⟨hzero, hfirst⟩
    obtain ⟨out, hout⟩ := utf16ToUtf8_isOk htext (by rw [List.length_take]; omega)
    exact ⟨.text out, by rw [converted_eq_ok.2 hout]; rfl⟩

end

/-! ## Decoding -/

section
variable {platform : Platform} {raw : List UInt8} {h : BitmapInfoHeader}

/-- Where the header locates the pixel array: behind itself, the bit masks and the color table. -/
def pixelArray (raw : List UInt8) (h : BitmapInfoHeader) : Nat :=
  h.biSize + masksBehind h + 4 * declaredColors raw

/-- A payload that is a supported bitmap with its rows inside, and its image. -/
structure DibImage (raw : List UInt8) (h : BitmapInfoHeader) (item : Item) : Prop where
  header : HeaderSupported raw h
  rows : RowsInside raw h (pixelArray raw h)
  image : ∃ rgba8, item = .image ⟨.ofNat h.biWidth.toNat, .ofNat h.biHeight.natAbs⟩ rgba8 ∧
    IsImage raw h (pixelArray raw h) rgba8

/-- What decoding a payload that is offered as a text or an image is for. -/
structure Decodes (platform : Platform) (raw : List UInt8) : Prop where
  checked : ∀ format, Checked.materializeGlobal platform (some { bytes := raw }) format =
    some (materializeGlobal platform (some { bytes := raw }) format)
  text : ∀ format, format.kind = .text →
    ((∃ item, materializeGlobal platform (some { bytes := raw }) format = .ok item) ↔ HoldsText raw)
  image : ∀ format, format.kind = .image → ∀ item,
    materializeGlobal platform (some { bytes := raw }) format = .ok item →
      DibImage raw (BitmapInfoHeader.read raw) item

/-- A supported bitmap whose rows fit behind the header and the masks. -/
def RowsBehindMasks (raw : List UInt8) (h : BitmapInfoHeader) : Prop :=
  HeaderSupported raw h ∧ RowsInside raw h (h.biSize + masksBehind h)

/-- The rows fit behind the color table too, and hold the same pixels there. -/
def RepeatsBehindTable (raw : List UInt8) (h : BitmapInfoHeader) : Prop :=
  RowsInside raw h (pixelArray raw h) ∧ ∀ x < h.biWidth.toNat, ∀ y < h.biHeight.natAbs,
    ∀ i < (if declaresAlpha raw h then 4 else 3),
      raw.getD (pixelAt h (h.biSize + masksBehind h) x y + i) 0 =
        raw.getD (pixelAt h (pixelArray raw h) x y + i) 0

theorem Checked.materializeGlobal_eq (hsize : raw.length < 2 ^ 62) (format : Format) :
    Checked.materializeGlobal platform (some { bytes := raw }) format =
      some (DataTransfer.materializeGlobal platform (some { bytes := raw }) format) := by
  unfold Checked.materializeGlobal DataTransfer.materializeGlobal
  dsimp only
  split_ifs with hempty
  · rfl
  cases hkind : format.kind with
  | text => exact Checked.materializeText_eq hsize
  | fileList => rfl
  | custom =>
    dsimp only
    rw [Checked.subspan_eq (by omega), List.drop_zero, List.take_length]
    rfl
  | image => exact Checked.materializeImage_eq hsize

/-- Two pixels are the same when the bytes that are read of them are. -/
theorem pixel_eq_iff {a b : Nat} {alpha : Bool} :
    [raw.getD (a + 2) 0, raw.getD (a + 1) 0, raw.getD a 0,
        if alpha then raw.getD (a + 3) 0 else 0xFF] =
      [raw.getD (b + 2) 0, raw.getD (b + 1) 0, raw.getD b 0,
        if alpha then raw.getD (b + 3) 0 else 0xFF] ↔
      ∀ i < (if alpha then 4 else 3), raw.getD (a + i) 0 = raw.getD (b + i) 0 := by
  cases alpha with
  | false =>
    simp only [Bool.false_eq_true, if_false, List.cons.injEq, and_true, Nat.forall_lt_succ_right,
      Nat.not_lt_zero, false_implies, implies_true, true_and, Nat.add_zero]
    tauto
  | true =>
    simp only [if_true, List.cons.injEq, and_true, Nat.forall_lt_succ_right,
      Nat.not_lt_zero, false_implies, implies_true, true_and, Nat.add_zero]
    tauto

/-- The pixels behind the masks are those behind the color table when their bytes are the same. -/
theorem dibImage_iff (hrows : RowsBehindMasks raw h) :
    DibImage raw h (.image ⟨.ofNat h.biWidth.toNat, .ofNat h.biHeight.natAbs⟩
        (decodedRows raw h (h.biSize + masksBehind h))) ↔
      RepeatsBehindTable raw h := by
  have himage := isImage_decodedRows hrows.1 (h.biSize + masksBehind h)
  constructor
  · rintro ⟨-, hinside, rgba8, hitem, himage'⟩
    obtain ⟨-, rfl⟩ := Item.image.inj hitem
    refine ⟨hinside, fun x hx y hy i hi => ?_⟩
    exact pixel_eq_iff.1 ((himage.pixel x hx y hy).symm.trans (himage'.pixel x hx y hy)) i hi
  · rintro ⟨hinside, hsame⟩
    refine ⟨hrows.1, hinside, _, rfl, himage.length, fun x hx y hy => ?_⟩
    exact (himage.pixel x hx y hy).trans (pixel_eq_iff.2 (hsame x hx y hy))

/-- Without a color table the pixels are behind the masks. -/
theorem dibImage_of_no_colors (hrows : RowsBehindMasks raw h) (hcolors : declaredColors raw = 0) :
    DibImage raw h (.image ⟨.ofNat h.biWidth.toNat, .ofNat h.biHeight.natAbs⟩
      (decodedRows raw h (h.biSize + masksBehind h))) := by
  have harray : pixelArray raw h = h.biSize + masksBehind h := by
    rw [pixelArray, hcolors, Nat.mul_zero, Nat.add_zero]
  exact (dibImage_iff hrows).2
    ⟨by rw [harray]; exact hrows.2, fun x _ y _ i _ => by rw [harray]⟩

/-- **Decoding the payloads of foreign applications.** Whatever the memory holds, no access leaves it
and no size wraps around, texts are accepted as they should be, and an image that is accepted has
the pixels the header locates, if and only if the header declares no color table, or the image is
rejected with its rows read right behind the masks, or the rows behind the table hold the same
pixels. A block of memory is smaller than the address space. -/
theorem decodes_iff (platform : Platform) (hsize : raw.length < 2 ^ 62) :
    Decodes platform raw ↔
      declaredColors raw = 0 ∨ ¬ RowsBehindMasks raw (BitmapInfoHeader.read raw) ∨
        RepeatsBehindTable raw (BitmapInfoHeader.read raw) := by
  have himage : ∀ format : Format, format.kind = .image →
      materializeGlobal platform (some { bytes := raw }) format = materializeImage raw := by
    intro format hkind
    simp [materializeGlobal, hkind]
  have htext : ∀ format : Format, format.kind = .text →
      materializeGlobal platform (some { bytes := raw }) format = materializeText raw := by
    intro format hkind
    simp [materializeGlobal, hkind]
  constructor
  · intro hdecodes
    by_cases hrows : RowsBehindMasks raw (BitmapInfoHeader.read raw)
    · have hok := (materializeImage_eq_ok hsize rfl).2 ⟨hrows.1, hrows.2, rfl⟩
      have hdib := hdecodes.image { kind := .image } rfl _ ((himage _ rfl).trans hok)
      exact .inr (.inr ((dibImage_iff hrows).1 hdib))
    · exact .inr (.inl hrows)
  · intro hcondition
    refine ⟨Checked.materializeGlobal_eq hsize, fun format hkind => ?_,
      fun format hkind item hok => ?_⟩
    · rw [htext format hkind]
      exact materializeText_isOk hsize
    · rw [himage format hkind] at hok
      obtain ⟨hheader, hinside, rfl⟩ := (materializeImage_eq_ok hsize rfl).1 hok
      rcases hcondition with hcolors | hrejected | hrepeats
      · exact dibImage_of_no_colors ⟨hheader, hinside⟩ hcolors
      · exact absurd ⟨hheader, hinside⟩ hrejected
      · exact (dibImage_iff ⟨hheader, hinside⟩).2 hrepeats

/-- A top-down bitmap of one pixel behind a color table of one entry. -/
def colorTableBitmap : List UInt8 :=
  record [(4, 40), (4, 1), (4, longBits (-1)), (2, 1), (2, 32), (4, Native.biRgb), (12, 0), (4, 1),
    (4, 0)] ++ [1, 2, 3, 0] ++ [9, 8, 7, 0]

/-- Its pixel is at offset 44, and the entry of the table at offset 40 is returned. -/
theorem colorTableBitmap_decoded :
    materializeGlobal drivePlatform (some { bytes := colorTableBitmap }) { kind := .image } =
        .ok (.image ⟨1, 1⟩ [3, 2, 1, 255]) ∧
      ¬ ∀ platform raw, raw.length < 2 ^ 62 → Decodes platform raw := by
  have hrun : materializeGlobal drivePlatform (some { bytes := colorTableBitmap })
      { kind := .image } = .ok (.image ⟨1, 1⟩ [3, 2, 1, 255]) := by
    decide +kernel
  refine ⟨hrun, fun hall => ?_⟩
  have hdecodes := hall drivePlatform colorTableBitmap (by decide +kernel)
  obtain ⟨-, -, rgba8, hitem, himage⟩ := hdecodes.image { kind := .image } rfl _ hrun
  obtain ⟨-, rfl⟩ := Item.image.inj hitem
  have hpixel := himage.pixel 0 (by decide +kernel) 0 (by decide +kernel)
  revert hpixel
  decide +kernel

/-- Without the declared color the same bytes decode as they should. -/
theorem decodes_iff_no_table :
    Decodes drivePlatform (record [(4, 40), (4, 1), (4, longBits (-1)), (2, 1), (2, 32),
      (4, Native.biRgb), (20, 0)] ++ [9, 8, 7, 0]) :=
  (decodes_iff drivePlatform (by decide +kernel)).2 (.inl (by decide +kernel))

end

end DataTransfer

end Desktop

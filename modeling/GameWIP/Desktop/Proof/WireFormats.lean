import GameWIP.Desktop.Proof.WideText
import GameWIP.Desktop.WireFormats

/-!
# Round trips through global memory

Preparing an item and materializing the prepared bytes, with whatever follows them in the memory
block.

* `prepareText_ok`, `prepareFileList_ok`, `prepareImage_ok`, `prepareCustom_ok`: what is accepted
  and the bytes that are written;
* `materializeText_wide`, `materializeFileList_list`, `materializeImage_rows`: what is read from
  such bytes;
* `prepare_isOk`, `materialize_prepare`: the items accepted, and their round trip.
-/

namespace Desktop

namespace DataTransfer

open Unicode Lib LittleEndian
open Events (PixelSize)

/-! ## Checked arithmetic -/

theorem multiply_eq_some {a b n : Nat} : multiply a b = some n ↔ a * b = n ∧ n < 2 ^ 64 := by
  unfold multiply wouldMultiplyOverflow
  by_cases ha : a = 0
  · subst ha
    simp
    omega
  have hover : (a != 0 && decide (b > (2 ^ 64 - 1) / a)) = decide (2 ^ 64 ≤ a * b) := by
    rw [bne_iff_ne.2 ha, Bool.true_and, decide_eq_decide, gt_iff_lt,
      Nat.div_lt_iff_lt_mul (Nat.pos_of_ne_zero ha), Nat.mul_comm b a]
    omega
  rw [hover]
  split_ifs with h
  · rw [decide_eq_true_eq] at h
    simp
    omega
  · rw [decide_eq_true_eq] at h
    simp
    omega

theorem add_eq_some {a b n : Nat} (ha : a < 2 ^ 64) : add a b = some n ↔ a + b = n ∧ n < 2 ^ 64 := by
  unfold add wouldAddOverflow
  split_ifs with h
  · rw [decide_eq_true_eq] at h
    simp
    omega
  · rw [decide_eq_true_eq] at h
    simp
    omega

/-! ## Native records -/

theorem ofLongBits_longBits {v : Int} (hl : -2 ^ 31 ≤ v) (hu : v < 2 ^ 31) :
    ofLongBits (longBits v) = v := by
  unfold ofLongBits longBits
  split_ifs <;> omega

theorem longBits_lt (v : Int) : longBits v < 2 ^ 32 := by
  unfold longBits
  omega

/-- The header of a path list. -/
theorem DropFiles.read_bytes (rest : List UInt8) :
    DropFiles.read (DropFiles.bytes { pFiles := sizeofDropFiles, fWide := 1 } ++ rest) =
      { pFiles := sizeofDropFiles, fWide := 1 } := by
  simp [DropFiles.read, DropFiles.bytes, field_tail, sizeofDropFiles, longBits, ofLongBits]

theorem DropFiles.length_bytes (h : DropFiles) : h.bytes.length = sizeofDropFiles := by
  simp [DropFiles.bytes, sizeofDropFiles]

section
variable {size : PixelSize} {pixels : Nat} {rest : List UInt8}

theorem length_bitmapV5Header : (bitmapV5Header size pixels).bytes.length = sizeofBitmapV5Header := by
  simp [BitmapV5Header.bytes, sizeofBitmapV5Header]

/-- The prefix of a prepared bitmap header. -/
def dibV5Info (size : PixelSize) : BitmapInfoHeader where
  biSize := sizeofBitmapV5Header
  biWidth := size.width.toNat
  biHeight := -size.height.toNat
  biPlanes := 1
  biBitCount := 32
  biCompression := Native.biBitfields

/-- The prefix is read first. -/
theorem read_bitmapV5Header (hw : size.width.toNat < 2 ^ 31) (hh : size.height.toNat < 2 ^ 31) :
    BitmapInfoHeader.read ((bitmapV5Header size pixels).bytes ++ rest) = dibV5Info size := by
  have hwidth : ofLongBits (longBits size.width.toNat) = size.width.toNat :=
    ofLongBits_longBits (by omega) (by omega)
  have hheight : ofLongBits (longBits (-size.height.toNat)) = -size.height.toNat :=
    ofLongBits_longBits (by omega) (by omega)
  have hlt : ∀ v, longBits v % 256 ^ 4 = longBits v := fun v =>
    Nat.mod_eq_of_lt (longBits_lt v)
  simp only [BitmapInfoHeader.read, BitmapV5Header.bytes, bitmapV5Header, record_cons,
    List.append_assoc, field_head, field_tail, Nat.reduceLeDiff, Nat.reduceSub, hlt, hwidth, hheight]
  simp [dibV5Info, sizeofBitmapV5Header, Native.biBitfields]

theorem read_masks : ColorMasks.read 40 ((bitmapV5Header size pixels).bytes ++ rest) = .bgr := by
  simp [ColorMasks.read, BitmapV5Header.bytes, bitmapV5Header, field_tail, ColorMasks.bgr]

theorem read_alphaMask :
    field 52 4 ((bitmapV5Header size pixels).bytes ++ rest) = 0xFF000000 := by
  simp [BitmapV5Header.bytes, bitmapV5Header, field_tail]

end

/-! ## Text -/

section
variable {text : List UInt8} {p : PreparedItem} {ss : List Nat}

theorem converted_eq_ok {α : Type} {fallback : Io.ErrorCode} {x : Except ConversionFailure α}
    {value : α} : converted fallback x = .ok value ↔ x = .ok value := by
  cases x <;> simp [converted]

/-- A text of scalars is prepared when it has no NUL and there is room for its wide form. -/
theorem prepareText_encodeAll (hv : utf8Code.Valid ss) (hnul : 0 ∉ utf8Code.encodeAll ss)
    (hlen : (utf8Code.encodeAll ss).length < 2 ^ 63)
    (hwide : ((utf16Code.encodeAll ss).length + 1) * 2 < 2 ^ 63) :
    prepareText (utf8Code.encodeAll ss) =
      .ok ⟨Native.cfUnicodeText, unitBytes (utf16Code.encodeAll ss) ++ [0, 0]⟩ := by
  have hconv := utf8ToUtf16_encodeAll hv hnul hlen (by omega)
  have hsize : (add (utf16Code.encodeAll ss).length 1).bind (multiply · 2) =
      some (((utf16Code.encodeAll ss).length + 1) * 2) := by
    rw [(add_eq_some (by omega)).2 ⟨rfl, by omega⟩]
    exact multiply_eq_some.2 ⟨rfl, by omega⟩
  rw [prepareText, if_neg (by simpa using hnul), converted_eq_ok.2 hconv]
  dsimp only
  rw [hsize]
  dsimp only
  rw [if_neg (by omega)]

/-- Only such texts are prepared. -/
theorem of_prepareText (h : prepareText text = .ok p) :
    ∃ ss, utf8Code.Valid ss ∧ text = utf8Code.encodeAll ss ∧ 0 ∉ utf8Code.encodeAll ss ∧
      (utf8Code.encodeAll ss).length < 2 ^ 63 ∧
      ((utf16Code.encodeAll ss).length + 1) * 2 < 2 ^ 63 := by
  unfold prepareText at h
  split at h
  · cases h
  split at h
  · cases h
  rename_i wide hconv
  obtain ⟨ss, hv, rfl, hnul, hlen, hroom, rfl⟩ := of_utf8ToUtf16 (converted_eq_ok.1 hconv)
  split at h
  · cases h
  rename_i bytes hsize
  split at h
  · cases h
  obtain ⟨units, hunits, hbytes⟩ := Option.bind_eq_some_iff.1 hsize
  obtain ⟨rfl, -⟩ := (add_eq_some (by omega)).1 hunits
  obtain ⟨rfl, -⟩ := multiply_eq_some.1 hbytes
  exact ⟨ss, hv, rfl, hnul, hlen, by omega⟩

/-- A wide text with its terminator is read up to it, whatever whole units follow. -/
theorem materializeText_wide (hv : utf8Code.Valid ss) (hnul : 0 ∉ utf8Code.encodeAll ss)
    (hlen : (utf8Code.encodeAll ss).length < 2 ^ 63)
    (hwide : (utf16Code.encodeAll ss).length * 2 < 2 ^ 63) {extra : List UInt8}
    (heven : extra.length % 2 = 0) :
    materializeText (unitBytes (utf16Code.encodeAll ss) ++ [0, 0] ++ extra) =
      .ok (.text (utf8Code.encodeAll ss)) := by
  have hunits : units (unitBytes (utf16Code.encodeAll ss) ++ [0, 0] ++ extra) =
      utf16Code.encodeAll ss ++ 0 :: units extra := by
    rw [List.append_assoc, units_unitBytes]
    rfl
  -- the first zero unit is the terminator
  have hstop : (utf16Code.encodeAll ss ++ 0 :: units extra).findIdx (· == 0) =
      (utf16Code.encodeAll ss).length := by
    have hnone : (utf16Code.encodeAll ss).findIdx (· == 0) = (utf16Code.encodeAll ss).length :=
      List.findIdx_eq_length.2 fun u hu => by
        rw [beq_eq_false_iff_ne]
        rintro rfl
        exact zero_not_mem_utf16 hv hnul hu
    rw [List.findIdx_append, hnone]
    simp [List.findIdx_cons]
  unfold materializeText
  rw [if_neg (by simp; omega)]
  dsimp only
  rw [hunits, hstop, if_neg (by simp), List.take_left, utf16ToUtf8_encodeAll hv hlen hwide]
  rfl

end

/-! ## Path lists -/

section
variable {platform : Platform} {paths : List Path} {p : PreparedItem}

/-- A path that is accepted. -/
def AcceptedPath (platform : Platform) (path : Path) : Prop :=
  platform.isAbsolute path ∧ 0 ∉ path ∧ utf16Code.IsText path

theorem length_wideList (paths : List Path) :
    (wideList paths).length = (paths.flatMap fun path => path ++ [0]).length + 1 := by
  simp [wideList]

/-- A well-formed path can be converted. -/
theorem utf16ToUtf8_isOk {wide : List UInt16} (h : utf16Code.IsText wide)
    (hlen : wide.length * 3 < 2 ^ 63) : ∃ out, utf16ToUtf8 wide = .ok out := by
  obtain ⟨ss, hv, rfl⟩ := h
  have hmax : (utf8Code.encodeAll ss).length ≤ 3 * (utf16Code.encodeAll ss).length :=
    length_encodeAll_le (C := utf16Code) (D := utf8Code) (fun s _ => length_utf8Bytes_le) hv
  exact ⟨_, utf16ToUtf8_encodeAll hv (by omega) (by omega)⟩

/-- The sizes of accepted paths are summed up. -/
theorem pathUnits_accepted (hp : ∀ path ∈ paths, AcceptedPath platform path) {units : Nat}
    (hsum : units + (paths.flatMap fun path => path ++ [0]).length < 2 ^ 60) :
    pathUnits platform units paths =
      .ok (units + (paths.flatMap fun path => path ++ [0]).length) := by
  induction paths generalizing units with
  | nil => rfl
  | cons path paths ih =>
    obtain ⟨⟨habs, hnul, htext⟩, hrest⟩ := List.forall_mem_cons.1 hp
    rw [List.flatMap_cons, List.length_append, List.length_append, List.length_singleton] at hsum ⊢
    obtain ⟨out, hout⟩ := utf16ToUtf8_isOk htext (by omega)
    have hadd : add units (path.length + 1) = some (units + (path.length + 1)) :=
      (add_eq_some (by omega)).2 ⟨rfl, by omega⟩
    rw [pathUnits, if_neg (by simp [habs, hnul]), converted_eq_ok.2 hout]
    dsimp only
    rw [hadd]
    dsimp only
    rw [ih hrest (by omega), Nat.add_assoc]

/-- Only accepted paths are summed up. -/
theorem of_pathUnits {units n : Nat} (hlt : units < 2 ^ 64)
    (h : pathUnits platform units paths = .ok n) :
    (∀ path ∈ paths, AcceptedPath platform path ∧ ∃ out, utf16ToUtf8 path = .ok out) ∧
      n = units + (paths.flatMap fun path => path ++ [0]).length := by
  induction paths generalizing units with
  | nil => exact ⟨List.forall_mem_nil _, (Except.ok.inj h).symm⟩
  | cons path paths ih =>
    unfold pathUnits at h
    split at h
    · cases h
    rename_i hpath
    split at h
    · cases h
    rename_i out hout
    split at h
    · cases h
    rename_i next hnext
    obtain ⟨rfl, hsum⟩ := (add_eq_some hlt).1 hnext
    obtain ⟨hrest, rfl⟩ := ih hsum h
    have hconv := converted_eq_ok.1 hout
    have hcheck : platform.isAbsolute path = true ∧ 0 ∉ path := by simpa using hpath
    refine ⟨List.forall_mem_cons.2 ⟨⟨⟨hcheck.1, hcheck.2, of_utf16ToUtf8 hconv⟩, out, hconv⟩,
      hrest⟩, ?_⟩
    simp
    omega

/-- The bytes of an accepted path list. -/
def dropFilesBytes (paths : List Path) : List UInt8 :=
  DropFiles.bytes { pFiles := sizeofDropFiles, fWide := 1 } ++ unitBytes (wideList paths)

theorem prepareFileList_accepted (hne : paths ≠ [])
    (hp : ∀ path ∈ paths, AcceptedPath platform path)
    (hsize : (dropFilesBytes paths).length < 2 ^ 32) :
    prepareFileList platform paths = .ok ⟨Native.cfHDrop, dropFilesBytes paths⟩ := by
  rw [dropFilesBytes, List.length_append, DropFiles.length_bytes, sizeofDropFiles,
    length_unitBytes, length_wideList] at hsize
  have htotal : (multiply (1 + (paths.flatMap fun path => path ++ [0]).length) 2).bind
      (add sizeofDropFiles ·) =
        some (sizeofDropFiles + (1 + (paths.flatMap fun path => path ++ [0]).length) * 2) := by
    rw [multiply_eq_some.2 ⟨rfl, by omega⟩]
    exact (add_eq_some (by decide)).2 ⟨rfl, by rw [sizeofDropFiles]; omega⟩
  rw [prepareFileList, if_neg (mt List.isEmpty_iff.1 hne), pathUnits_accepted hp (by omega)]
  dsimp only
  rw [htotal]
  dsimp only
  rw [if_neg (by rw [sizeofDropFiles, Native.uintMax]; omega)]
  rfl

/-- Only such lists are prepared. -/
theorem of_prepareFileList (h : prepareFileList platform paths = .ok p) :
    paths ≠ [] ∧ (∀ path ∈ paths, AcceptedPath platform path) ∧
      (dropFilesBytes paths).length < 2 ^ 32 ∧
      ∀ path ∈ paths, ∃ out, utf16ToUtf8 path = .ok out := by
  unfold prepareFileList at h
  split at h
  · cases h
  rename_i hne
  split at h
  · cases h
  rename_i units hunits
  obtain ⟨hpaths, rfl⟩ := of_pathUnits (by decide) hunits
  split at h
  · cases h
  rename_i total htotal
  split at h
  · cases h
  rename_i hmax
  obtain ⟨bytes, hbytes, hadd⟩ := Option.bind_eq_some_iff.1 htotal
  obtain ⟨rfl, -⟩ := multiply_eq_some.1 hbytes
  obtain ⟨rfl, -⟩ := (add_eq_some (by decide)).1 hadd
  refine ⟨mt List.isEmpty_iff.2 hne, fun path hpath => (hpaths path hpath).1, ?_,
    fun path hpath => (hpaths path hpath).2⟩
  rw [dropFilesBytes, List.length_append, DropFiles.length_bytes, length_unitBytes,
    length_wideList]
  rw [Native.uintMax] at hmax
  omega

/-- Memory that holds a wide list of names behind a `DROPFILES` header. -/
structure HoldsList (memory : List UInt8) (names : List Path) : Prop where
  wide : (DropFiles.read memory).fWide ≠ 0
  list : ∃ extra, memory.drop (DropFiles.read memory).pFiles = unitBytes (wideList names) ++ extra
  entries : ∀ name ∈ names, name ≠ [] ∧ 0 ∉ name
  size : (unitBytes (wideList names)).length < 2 ^ 32

/-- The documented answers of `DragQueryFileW` about a wide list: the number of names, the length of
a name, and a name with its terminator copied to a buffer that has room for both. -/
structure SplitsWideLists (query : List UInt8 → Nat → Option Nat → Nat × List UInt16) : Prop where
  count : ∀ memory names, HoldsList memory names →
    (query memory 0xFFFFFFFF none).1 = names.length
  length : ∀ memory names, HoldsList memory names → ∀ (i : Nat) (name : Path),
    names[i]? = some name → (query memory i none).1 = name.length
  copy : ∀ memory names, HoldsList memory names → ∀ (i : Nat) (name : Path),
    names[i]? = some name → query memory i (some (name.length + 1)) = (name.length, name ++ [0])

/-- The prepared bytes hold the list, whatever follows them. -/
theorem holdsList_dropFilesBytes (hp : ∀ path ∈ paths, path ≠ [] ∧ 0 ∉ path)
    (hsize : (dropFilesBytes paths).length < 2 ^ 32) (extra : List UInt8) :
    HoldsList (dropFilesBytes paths ++ extra) paths := by
  have hread : DropFiles.read (dropFilesBytes paths ++ extra) =
      { pFiles := sizeofDropFiles, fWide := 1 } := by
    rw [dropFilesBytes, List.append_assoc, DropFiles.read_bytes]
  have hlist : (dropFilesBytes paths ++ extra).drop sizeofDropFiles =
      unitBytes (wideList paths) ++ extra := by
    rw [dropFilesBytes, List.append_assoc, List.drop_left' (DropFiles.length_bytes _)]
  refine ⟨by rw [hread]; exact Nat.one_ne_zero, ⟨extra, by rw [hread, hlist]⟩, hp, ?_⟩
  rw [dropFilesBytes, List.length_append] at hsize
  exact Nat.lt_of_le_of_lt (Nat.le_add_left _ _) hsize

/-- One path is read. -/
theorem materializePath_name (hquery : SplitsWideLists platform.dragQueryFile)
    {memory : List UInt8} (hm : HoldsList memory paths) {i : Nat} {path : Path}
    (hi : paths[i]? = some path) (hconv : ∃ out, utf16ToUtf8 path = .ok out) :
    materializePath platform memory i = .ok path := by
  have hne : path.length ≠ 0 :=
    mt List.length_eq_zero_iff.1 (hm.entries path (List.mem_of_getElem? hi)).1
  obtain ⟨out, hout⟩ := hconv
  unfold materializePath
  rw [hquery.length _ _ hm i path hi]
  dsimp only
  rw [if_neg hne, hquery.copy _ _ hm i path hi]
  simp [converted_eq_ok.2 hout, Except.map]

/-- All paths are read, in order. -/
theorem materializeFileList_list (hquery : SplitsWideLists platform.dragQueryFile)
    {memory : List UInt8} (hm : HoldsList memory paths) (hne : paths ≠ [])
    (hconv : ∀ path ∈ paths, ∃ out, utf16ToUtf8 path = .ok out) :
    materializeFileList platform memory = .ok (.fileList paths) := by
  have hcount : (platform.dragQueryFile memory 0xFFFFFFFF none).1 = paths.length :=
    hquery.count _ _ hm
  have hall : ∀ n ≤ paths.length,
      (List.range n).mapM (materializePath platform memory) = .ok (paths.take n) := by
    intro n
    induction n with
    | zero => intro _; rfl
    | succ n ih =>
      intro hn
      have hi : paths[n]? = some paths[n] := List.getElem?_eq_getElem hn
      have hpath := materializePath_name hquery hm hi (hconv _ (List.getElem_mem hn))
      rw [List.range_succ, List.mapM_append, ih (Nat.le_of_succ_le hn), List.mapM_cons, hpath,
        List.mapM_nil, List.take_add_one, hi]
      rfl
  unfold materializeFileList
  dsimp only
  rw [hcount, if_neg (mt List.length_eq_zero_iff.1 hne), hall _ (Nat.le_refl _), List.take_length]
  rfl

end

/-! ## Images -/

section
variable {size : PixelSize} {rowStrideBytes : Option Nat} {rgba8 : List UInt8} {stride : Nat}

/-- An image that is accepted, with the stride of its rows. -/
structure AcceptedImage (size : PixelSize) (stride : Nat) (rgba8 : List UInt8) : Prop where
  width_pos : 0 < size.width.toNat
  height_pos : 0 < size.height.toNat
  width_lt : size.width.toNat < 2 ^ 31
  height_lt : size.height.toNat < 2 ^ 31
  row_le : size.width.toNat * 4 ≤ stride
  length_eq : stride * size.height.toNat = rgba8.length
  length_lt : rgba8.length < 2 ^ 64
  pixels_lt : size.width.toNat * 4 * size.height.toNat < 2 ^ 32

/-- The bytes of an accepted image. -/
def dibV5Bytes (size : PixelSize) (stride : Nat) (rgba8 : List UInt8) : List UInt8 :=
  (bitmapV5Header size (size.width.toNat * 4 * size.height.toNat)).bytes ++
    (List.range size.height.toNat).flatMap (bgraRow rgba8 size.width.toNat stride)

/-- The rows of an image without what its stride leaves between them. -/
def packedRows (size : PixelSize) (stride : Nat) (rgba8 : List UInt8) : List UInt8 :=
  (List.range size.height.toNat).flatMap fun y =>
    (rgba8.drop (y * stride)).take (size.width.toNat * 4)

theorem prepareImage_accepted
    (h : AcceptedImage size (rowStrideBytes.getD (size.width.toNat * 4)) rgba8) :
    prepareImage size rowStrideBytes rgba8 =
      .ok ⟨Native.cfDibV5,
        dibV5Bytes size (rowStrideBytes.getD (size.width.toNat * 4)) rgba8⟩ := by
  have hw := h.width_lt
  have hh := h.height_lt
  have hpixels := h.pixels_lt
  have hrow : multiply size.width.toNat 4 = some (size.width.toNat * 4) :=
    multiply_eq_some.2 ⟨rfl, by omega⟩
  have hinput := multiply_eq_some.2 ⟨h.length_eq, h.length_lt⟩
  have hadd : add sizeofBitmapV5Header (size.width.toNat * 4 * size.height.toNat) =
      some (sizeofBitmapV5Header + size.width.toNat * 4 * size.height.toNat) :=
    (add_eq_some (by decide)).2 ⟨rfl, by rw [sizeofBitmapV5Header]; omega⟩
  have hne : ¬ (size.width = 0 ∨ size.height = 0) := by
    rw [← UInt32.toNat_inj, ← UInt32.toNat_inj]
    have := h.width_pos
    have := h.height_pos
    simp
    omega
  rw [prepareImage, if_neg hne, hrow]
  dsimp only
  rw [if_neg (not_or.2 ⟨Nat.not_lt.2 h.row_le, not_not.2 hinput⟩),
    multiply_eq_some.2 ⟨rfl, by omega⟩]
  dsimp only
  rw [if_neg (by rw [hadd, Native.uintMax, Native.longMax]; simp; omega)]
  rfl

/-- Only such images are prepared. -/
theorem of_prepareImage {p : PreparedItem} (h : prepareImage size rowStrideBytes rgba8 = .ok p) :
    AcceptedImage size (rowStrideBytes.getD (size.width.toNat * 4)) rgba8 := by
  unfold prepareImage at h
  split at h
  · cases h
  rename_i hne
  split at h
  · cases h
  rename_i row hrow
  obtain ⟨rfl, -⟩ := multiply_eq_some.1 hrow
  dsimp only at h
  split at h
  · cases h
  rename_i hinput
  split at h
  · cases h
  rename_i pixels hpixels
  split at h
  · cases h
  rename_i hlimits
  obtain ⟨rfl, -⟩ := multiply_eq_some.1 hpixels
  obtain ⟨hstride, hlength⟩ := not_or.1 hinput
  obtain ⟨hlength, hlt⟩ := multiply_eq_some.1 (not_not.1 hlength)
  rw [← UInt32.toNat_inj, ← UInt32.toNat_inj] at hne
  simp only [Native.uintMax, Native.longMax, not_or] at hlimits
  simp only [not_or, UInt32.toNat_zero] at hne
  exact ⟨by omega, by omega, by omega, by omega, Nat.not_lt.1 hstride, hlength, hlt, by omega⟩

/-- A pixel is read as it was before its channels were swapped. -/
theorem rgbaPixel_bgraPixel {rgba8 : List UInt8} {offset : Nat} (h : offset + 4 ≤ rgba8.length)
    {s : List UInt8} {p : Nat}
    (hs : ∀ i < 4, s.getD (p + i) 0 = (bgraPixel rgba8 offset).getD i 0) :
    rgbaPixel s true p = (rgba8.drop offset).take 4 := by
  have hlen : ((rgba8.drop offset).take 4).length = 4 := by
    rw [List.length_take, List.length_drop]
    omega
  obtain ⟨r, g, b, a, hpixel⟩ : ∃ r g b a, (rgba8.drop offset).take 4 = [r, g, b, a] := by
    rcases hdrop : (rgba8.drop offset).take 4 with _ | ⟨r, _ | ⟨g, _ | ⟨b, _ | ⟨a, _ | _⟩⟩⟩⟩ <;>
      simp_all
  have h0 := hs 0 (by decide)
  have h1 := hs 1 (by decide)
  have h2 := hs 2 (by decide)
  have h3 := hs 3 (by decide)
  rw [Nat.add_zero] at h0
  simp only [rgbaPixel, if_true, h0, h1, h2, h3]
  rw [bgraPixel, hpixel]
  rfl

theorem length_bgraPixel {offset : Nat} : (bgraPixel rgba8 offset).length = 4 := rfl

theorem length_bgraRow {w y : Nat} : (bgraRow rgba8 w stride y).length = w * 4 :=
  length_flatMap_range fun _ _ => length_bgraPixel

/-- A row is read as it was. -/
theorem rgbaRow_bgraRow {w y : Nat} (h : y * stride + w * 4 ≤ rgba8.length) :
    rgbaRow (bgraRow rgba8 w stride y) true w 4 = (rgba8.drop (y * stride)).take (w * 4) := by
  have hpixels : ∀ x ∈ List.range w, rgbaPixel (bgraRow rgba8 w stride y) true (x * 4) =
      ((rgba8.drop (y * stride)).drop (x * 4)).take 4 := by
    intro x hx
    have hx := List.mem_range.1 hx
    rw [List.drop_drop]
    exact rgbaPixel_bgraPixel (by omega) fun i hi =>
      getD_flatMap (fun _ _ => length_bgraPixel) hx hi 0
  rw [rgbaRow, List.flatMap_congr hpixels, flatMap_block]

/-- The sizes of an image of 32 bits a pixel. -/
theorem imageSizes_eq {w height : Nat} (h : w * 4 * height < 2 ^ 32) (hw : w < 2 ^ 31) :
    imageSizes w height 32 = some (w * 4, w * 4 * height, w * 4 * height) := by
  have hrow : (w * 32 + 31) / 32 = w := by omega
  have hbits : multiply w 32 = some (w * 32) := multiply_eq_some.2 ⟨rfl, by omega⟩
  have hrounded : add (w * 32) 31 = some (w * 32 + 31) :=
    (add_eq_some (by omega)).2 ⟨rfl, by omega⟩
  have hpixelRow : multiply w 4 = some (w * 4) := multiply_eq_some.2 ⟨rfl, by omega⟩
  have hbytes : multiply (w * 4) height = some (w * 4 * height) :=
    multiply_eq_some.2 ⟨rfl, by omega⟩
  simp [imageSizes, hbits, hrounded, hrow, hpixelRow, hbytes]

theorem length_rows (size : PixelSize) (stride : Nat) (rgba8 : List UInt8) :
    ((List.range size.height.toNat).flatMap (bgraRow rgba8 size.width.toNat stride)).length =
      size.width.toNat * 4 * size.height.toNat := by
  rw [length_flatMap_range fun _ _ => length_bgraRow, Nat.mul_comm]

theorem length_dibV5Bytes (size : PixelSize) (stride : Nat) (rgba8 : List UInt8) :
    (dibV5Bytes size stride rgba8).length =
      sizeofBitmapV5Header + size.width.toNat * 4 * size.height.toNat := by
  rw [dibV5Bytes, List.length_append, length_bitmapV5Header, length_rows]

theorem dimensionsValid_dibV5Info (h : AcceptedImage size stride rgba8) {n : Nat}
    (hn : sizeofBitmapV5Header ≤ n) : dimensionsValid (dibV5Info size) n = true := by
  have hw := h.width_pos
  have hh := h.height_pos
  have hlt := h.height_lt
  rw [sizeofBitmapV5Header] at hn
  simp [dimensionsValid, dibV5Info, sizeofBitmapInfoHeader, sizeofBitmapV5Header, Native.longMin, hn, hw]
  omega

/-- The masks of a prepared image are supported, with alpha. -/
theorem pixelLayout_dibV5Bytes (extra : List UInt8) :
    pixelLayout (dibV5Bytes size stride rgba8 ++ extra) (dibV5Info size) =
      some (sizeofBitmapV5Header, true) := by
  have hmasks : ColorMasks.read 40 (dibV5Bytes size stride rgba8 ++ extra) = .bgr := by
    rw [dibV5Bytes, List.append_assoc, read_masks]
  have halpha : field 52 4 (dibV5Bytes size stride rgba8 ++ extra) = 0xFF000000 := by
    rw [dibV5Bytes, List.append_assoc, read_alphaMask]
  simp [pixelLayout, dibV5Info, sizeofBitmapV5Header, sizeofBitmapInfoHeader, sizeofBitmapV4Header,
    hmasks, halpha]

theorem encodingSupported_dibV5Info : encodingSupported (dibV5Info size) = true := by
  simp [encodingSupported, dibV5Info, Native.biBitfields]

/-- A row of the image is found in the pixels. -/
theorem rgbaRow_rows (h : AcceptedImage size stride rgba8) {y : Nat} (hy : y < size.height.toNat) :
    rgbaRow ((((List.range size.height.toNat).flatMap
      (bgraRow rgba8 size.width.toNat stride)).drop (y * (size.width.toNat * 4))).take
        (size.width.toNat * 4)) true size.width.toNat 4 =
      (rgba8.drop (y * stride)).take (size.width.toNat * 4) := by
  have hblock := block_flatMap (f := bgraRow rgba8 size.width.toNat stride)
    (fun _ _ => length_bgraRow) hy []
  rw [List.append_nil] at hblock
  have hlast : y * stride + stride ≤ rgba8.length := by
    rw [← Nat.succ_mul, ← h.length_eq, Nat.mul_comm stride]
    exact Nat.mul_le_mul_right _ hy
  rw [hblock, rgbaRow_bgraRow (Nat.le_trans (Nat.add_le_add_left h.row_le _) hlast)]

/-- An image that passes the checks. -/
theorem materializeImage_eq {raw : List UInt8} {h : BitmapInfoHeader}
    {pixelOffset row bytes packed : Nat} {explicitAlpha : Bool}
    (hread : BitmapInfoHeader.read raw = h) (hvalid : dimensionsValid h raw.length = true)
    (hencoding : encodingSupported h = true)
    (hlayout : pixelLayout raw h = some (pixelOffset, explicitAlpha))
    (hsizes : imageSizes h.biWidth.toNat h.biHeight.natAbs h.biBitCount = some (row, bytes, packed))
    (hfit : pixelOffset + bytes ≤ raw.length) (hpacked : packed < 2 ^ 63) :
    materializeImage raw =
      .ok (.image ⟨.ofNat h.biWidth.toNat, .ofNat h.biHeight.natAbs⟩
        ((List.range h.biHeight.natAbs).flatMap fun y =>
          rgbaRow ((((raw.drop pixelOffset).take bytes).drop
            ((if h.biHeight < 0 then y else h.biHeight.natAbs - 1 - y) * row)).take row)
            explicitAlpha h.biWidth.toNat (h.biBitCount / 8))) := by
  have hlarge : ¬ raw.length < sizeofBitmapInfoHeader := by
    simp only [dimensionsValid, Bool.and_eq_true, decide_eq_true_eq] at hvalid
    omega
  have hoffset : ¬ (pixelOffset > raw.length ∨ bytes > raw.length - pixelOffset) := by omega
  simp only [materializeImage, if_neg hlarge, hread, hvalid, hencoding, Bool.not_true,
    Bool.false_eq_true, if_false, hlayout, hsizes, if_neg hoffset, if_neg (Nat.not_le.2 hpacked)]

/-- The prepared rows are read in their order, whatever follows them. -/
theorem materializeImage_rows (h : AcceptedImage size stride rgba8) (extra : List UInt8) :
    materializeImage (dibV5Bytes size stride rgba8 ++ extra) =
      .ok (.image size (packedRows size stride rgba8)) := by
  have hpixels := h.pixels_lt
  have hpos := h.height_pos
  have hlength : (dibV5Bytes size stride rgba8 ++ extra).length =
      sizeofBitmapV5Header + size.width.toNat * 4 * size.height.toNat + extra.length := by
    rw [List.length_append, length_dibV5Bytes]
  have hread : BitmapInfoHeader.read (dibV5Bytes size stride rgba8 ++ extra) = dibV5Info size := by
    rw [dibV5Bytes, List.append_assoc, read_bitmapV5Header h.width_lt h.height_lt]
  have hvalid : dimensionsValid (dibV5Info size)
      (dibV5Bytes size stride rgba8 ++ extra).length = true := by
    apply dimensionsValid_dibV5Info h
    rw [hlength, Nat.add_assoc]
    exact Nat.le_add_right _ _
  have hsrc : ((dibV5Bytes size stride rgba8 ++ extra).drop sizeofBitmapV5Header).take
      (size.width.toNat * 4 * size.height.toNat) =
        (List.range size.height.toNat).flatMap (bgraRow rgba8 size.width.toNat stride) := by
    rw [dibV5Bytes, List.append_assoc, List.drop_left' length_bitmapV5Header,
      List.take_left' (length_rows size stride rgba8)]
  have hw : (dibV5Info size).biWidth.toNat = size.width.toNat := by
    rw [dibV5Info, Int.toNat_natCast]
  have hh : (dibV5Info size).biHeight.natAbs = size.height.toNat := by
    rw [dibV5Info, Int.natAbs_neg, Int.natAbs_natCast]
  have hbits : (dibV5Info size).biBitCount = 32 := rfl
  have htop : (dibV5Info size).biHeight < 0 := by
    show -(size.height.toNat : Int) < 0
    omega
  have hsizes : imageSizes (dibV5Info size).biWidth.toNat (dibV5Info size).biHeight.natAbs
      (dibV5Info size).biBitCount = some (size.width.toNat * 4,
        size.width.toNat * 4 * size.height.toNat, size.width.toNat * 4 * size.height.toNat) := by
    rw [hw, hh, hbits, imageSizes_eq hpixels h.width_lt]
  have hrows : ∀ y ∈ List.range size.height.toNat, _ = _ := fun y hy =>
    rgbaRow_rows h (List.mem_range.1 hy)
  rw [materializeImage_eq hread hvalid encodingSupported_dibV5Info (pixelLayout_dibV5Bytes extra)
    hsizes (by rw [hlength]; omega) (by omega), hw, hh, hbits, hsrc]
  simp only [if_pos htop]
  rw [packedRows, ← List.flatMap_congr hrows, UInt32.ofNat_toNat, UInt32.ofNat_toNat]

end

/-! ## Round trips -/

section
variable {platform : Platform} {item : ItemView}

/-- The items that are accepted. A text must be valid, without NUL and leave room for its wide form;
the whole of a path list must fit in a `UINT`. -/
def Accepted (platform : Platform) : ItemView → Prop
  | .text text =>
    (Utf8.validate text).outcome = .valid ∧ 0 ∉ text ∧ text.length < 2 ^ 63 ∧
      ((measureFrom utf8Decoder utf16Encoder text 0 0).required + 1) * 2 < 2 ^ 63
  | .fileList paths =>
    paths ≠ [] ∧ (∀ path ∈ paths, platform.isAbsolute path ∧ 0 ∉ path ∧
      (Utf16.validate path).outcome = .valid) ∧ (dropFilesBytes paths).length < 2 ^ 32
  | .image size rowStrideBytes rgba8 =>
    AcceptedImage size (rowStrideBytes.getD (size.width.toNat * 4)) rgba8
  | .custom formatName bytes =>
    (∃ format, nativeFormat platform ⟨.custom, formatName⟩ = .ok format) ∧ bytes ≠ []

/-- The format under which an item is asked for. -/
def ItemView.format : ItemView → Format
  | .text _ => { kind := .text }
  | .fileList _ => { kind := .fileList }
  | .image .. => { kind := .image }
  | .custom formatName _ => ⟨.custom, formatName⟩

/-- The item that owns the data of a view, the rows of an image packed. -/
def ItemView.delivered : ItemView → Item
  | .text content => .text content
  | .fileList paths => .fileList paths
  | .image size rowStrideBytes rgba8 =>
    .image size (packedRows size (rowStrideBytes.getD (size.width.toNat * 4)) rgba8)
  | .custom formatName bytes => .customData formatName bytes

/-- What the memory may hold behind the prepared bytes: whole units behind a text, nothing behind a
custom payload. -/
def Trailing : ItemView → List UInt8 → Prop
  | .text _, extra => extra.length % 2 = 0
  | .fileList _, _ => True
  | .image .., _ => True
  | .custom .., extra => extra = []

theorem materializeGlobal_text (raw : List UInt8) :
    materializeGlobal platform (some { bytes := raw }) { kind := .text } = materializeText raw := by
  simp [materializeGlobal]

theorem materializeGlobal_fileList (raw : List UInt8) :
    materializeGlobal platform (some { bytes := raw }) { kind := .fileList } =
      materializeFileList platform raw := by
  simp [materializeGlobal]

theorem materializeGlobal_image (raw : List UInt8) :
    materializeGlobal platform (some { bytes := raw }) { kind := .image } =
      materializeImage raw := by
  simp [materializeGlobal]

theorem materializeGlobal_custom (formatName raw : List UInt8) :
    materializeGlobal platform (some { bytes := raw }) ⟨.custom, formatName⟩ =
      .ok (.customData formatName raw) := by
  by_cases hempty : raw = []
  · simp [materializeGlobal, hempty]
  · simp [materializeGlobal, hempty]

theorem acceptedText_iff {text : List UInt8} : Accepted platform (.text text) ↔
    ∃ ss, utf8Code.Valid ss ∧ text = utf8Code.encodeAll ss ∧ 0 ∉ utf8Code.encodeAll ss ∧
      (utf8Code.encodeAll ss).length < 2 ^ 63 ∧
      ((utf16Code.encodeAll ss).length + 1) * 2 < 2 ^ 63 := by
  have hmeasure : ∀ {ss}, utf8Code.Valid ss → ∀ hlen : (utf8Code.encodeAll ss).length * 1 < 2 ^ 63,
      (measureFrom utf8Decoder utf16Encoder (utf8Code.encodeAll ss) 0 0).required =
        (utf16Code.encodeAll ss).length := fun hv hlen =>
    congrArg Utf8.ToUtf16MeasureResult.requiredCodeUnits
      (measureToUtf16_eq (t := ⟨0, utf8Code.encodeAll _, hlen⟩) hv rfl)
  constructor
  · rintro ⟨hvalid, hnul, hlen, hroom⟩
    obtain ⟨ss, hv, rfl⟩ := (validateFrom_valid_iff utf8Decoder_decodes).1 hvalid
    rw [hmeasure hv (by omega)] at hroom
    exact ⟨ss, hv, rfl, hnul, hlen, hroom⟩
  · rintro ⟨ss, hv, rfl, hnul, hlen, hroom⟩
    refine ⟨(validateFrom_valid_iff utf8Decoder_decodes).2 (utf8Code.isText_encodeAll hv), hnul,
      hlen, ?_⟩
    rwa [hmeasure hv (by omega)]

theorem acceptedFileList_iff {paths : List Path} : Accepted platform (.fileList paths) ↔
    paths ≠ [] ∧ (∀ path ∈ paths, AcceptedPath platform path) ∧
      (dropFilesBytes paths).length < 2 ^ 32 := by
  have htext : ∀ path, (Utf16.validate path).outcome = .valid ↔ utf16Code.IsText path :=
    fun path => validateFrom_valid_iff utf16Decoder_decodes
  simp only [Accepted, AcceptedPath, htext]

/-- Exactly the accepted items are prepared. -/
theorem prepare_isOk : (∃ p, prepare platform item = .ok p) ↔ Accepted platform item := by
  cases item with
  | text text =>
    rw [acceptedText_iff]
    constructor
    · rintro ⟨p, h⟩
      exact of_prepareText h
    · rintro ⟨ss, hv, rfl, hnul, hlen, hroom⟩
      exact ⟨_, prepareText_encodeAll hv hnul hlen hroom⟩
  | fileList paths =>
    rw [acceptedFileList_iff]
    constructor
    · rintro ⟨p, h⟩
      obtain ⟨hne, hpaths, hsize, -⟩ := of_prepareFileList h
      exact ⟨hne, hpaths, hsize⟩
    · rintro ⟨hne, hpaths, hsize⟩
      exact ⟨_, prepareFileList_accepted hne hpaths hsize⟩
  | image size rowStrideBytes rgba8 =>
    constructor
    · rintro ⟨p, h⟩
      exact of_prepareImage h
    · intro h
      exact ⟨_, prepareImage_accepted h⟩
  | custom formatName bytes =>
    simp only [prepare, prepareCustom, Accepted]
    cases nativeFormat platform ⟨.custom, formatName⟩ with
    | error status => simp
    | ok format =>
      by_cases hempty : bytes = []
      · simp [hempty]
      · simp [hempty]

/-- **Preparing an item and materializing it from global memory.** `prepare` accepts exactly the
items of `Accepted`, and materializing the prepared bytes gives the item back: the same text, the
same size and packed rows, the same paths in order, the same custom bytes; also when the memory
block is larger, as far as `Trailing` allows. An empty path is not absolute, and `DragQueryFileW`
splits a wide list. -/
theorem materialize_prepare (platform : Platform)
    (habsolute : ∀ path, platform.isAbsolute path = true → path ≠ [])
    (hquery : SplitsWideLists platform.dragQueryFile) (item : ItemView) :
    ((∃ p, prepare platform item = .ok p) ↔ Accepted platform item) ∧
      ∀ p, prepare platform item = .ok p → ∀ extra, Trailing item extra →
        materializeGlobal platform (some { bytes := p.bytes ++ extra }) item.format =
          .ok item.delivered := by
  refine ⟨prepare_isOk, fun p hp extra hextra => ?_⟩
  cases item with
  | text text =>
    obtain ⟨ss, hv, rfl, hnul, hlen, hroom⟩ := of_prepareText hp
    obtain rfl := Except.ok.inj ((prepareText_encodeAll hv hnul hlen hroom).symm.trans hp)
    rw [ItemView.format, materializeGlobal_text,
      materializeText_wide hv hnul hlen (by omega) hextra, ItemView.delivered]
  | fileList paths =>
    obtain ⟨hne, hpaths, hsize, hconv⟩ := of_prepareFileList hp
    obtain rfl := Except.ok.inj ((prepareFileList_accepted hne hpaths hsize).symm.trans hp)
    have hlist : HoldsList (dropFilesBytes paths ++ extra) paths :=
      holdsList_dropFilesBytes
        (fun path h => ⟨habsolute path (hpaths path h).1, (hpaths path h).2.1⟩) hsize extra
    rw [ItemView.format, materializeGlobal_fileList,
      materializeFileList_list hquery hlist hne hconv, ItemView.delivered]
  | image size rowStrideBytes rgba8 =>
    have himage := of_prepareImage hp
    obtain rfl := Except.ok.inj ((prepareImage_accepted himage).symm.trans hp)
    rw [ItemView.format, materializeGlobal_image, materializeImage_rows himage extra,
      ItemView.delivered]
  | custom formatName bytes =>
    obtain rfl : extra = [] := hextra
    obtain ⟨-, hne⟩ : Accepted platform (.custom formatName bytes) := prepare_isOk.1 ⟨p, hp⟩
    simp only [prepare, prepareCustom] at hp
    split at hp
    · cases hp
    rw [if_neg (mt List.isEmpty_iff.1 hne)] at hp
    obtain rfl := Except.ok.inj hp
    rw [ItemView.format, List.append_nil, materializeGlobal_custom, ItemView.delivered]

end

/-! ## A platform -/

/-- The names of a wide list, the first of them begun. -/
def splitNames (begun : Path) : List UInt16 → List Path
  | [] => []
  | u :: us =>
    if u ≠ 0 then splitNames (begun ++ [u]) us
    else if begun = [] then []
    else begun :: splitNames [] us

/-- A platform with drive paths, one registered format and the documented path lists. -/
def drivePlatform : Platform where
  isAbsolute path :=
    match path with
    | _ :: 0x3A :: 0x5C :: _ => true
    | _ => false
  registerClipboardFormat _ := .ok 0xC000
  dragQueryFile memory i size :=
    let names := splitNames [] (units (memory.drop (DropFiles.read memory).pFiles))
    if i = 0xFFFFFFFF then (names.length, [])
    else
      match names[i]?, size with
      | none, _ => (0, [])
      | some name, none => (name.length, [])
      | some name, some cch => ((name.take (cch - 1)).length, name.take (cch - 1) ++ [0])

theorem splitNames_name {name : Path} (hnul : 0 ∉ name) {begun : Path} (rest : List UInt16)
    (hne : begun ++ name ≠ []) :
    splitNames begun (name ++ 0 :: rest) = (begun ++ name) :: splitNames [] rest := by
  induction name generalizing begun with
  | nil =>
    rw [List.append_nil] at hne ⊢
    simp [splitNames, hne]
  | cons u name ih =>
    obtain ⟨hu, hname⟩ := not_or.1 (mt List.mem_cons.2 hnul)
    have hcons : begun ++ u :: name = begun ++ [u] ++ name := by simp
    rw [hcons] at hne ⊢
    rw [List.cons_append, splitNames, if_pos (Ne.symm hu), ih hname hne]

theorem splitNames_wideList {names : List Path} (h : ∀ name ∈ names, name ≠ [] ∧ 0 ∉ name)
    (rest : List UInt16) : splitNames [] (wideList names ++ rest) = names := by
  induction names with
  | nil => simp [wideList, splitNames]
  | cons name names ih =>
    obtain ⟨⟨hne, hnul⟩, hnames⟩ := List.forall_mem_cons.1 h
    have hcons : wideList (name :: names) ++ rest = name ++ 0 :: (wideList names ++ rest) := by
      simp [wideList]
    rw [hcons, splitNames_name hnul _ (by simpa using hne), ih hnames, List.nil_append]

theorem length_le_wideList (names : List Path) : names.length < (wideList names).length := by
  rw [length_wideList]
  induction names with
  | nil => exact Nat.one_pos
  | cons name names ih =>
    simp at ih ⊢
    omega

/-- It splits wide lists as documented. -/
theorem splitsWideLists_drivePlatform : SplitsWideLists drivePlatform.dragQueryFile := by
  have hnames : ∀ memory names, HoldsList memory names →
      splitNames [] (units (memory.drop (DropFiles.read memory).pFiles)) = names := by
    intro memory names h
    obtain ⟨extra, hextra⟩ := h.list
    rw [hextra, units_unitBytes, splitNames_wideList h.entries]
  have hindex : ∀ memory names, HoldsList memory names → ∀ (i : Nat) (name : Path),
      names[i]? = some name → i ≠ 0xFFFFFFFF := by
    intro memory names h i name hi
    have hlt := (List.getElem?_eq_some_iff.1 hi).1
    have hle := length_le_wideList names
    have hsize := h.size
    rw [length_unitBytes] at hsize
    omega
  constructor
  · intro memory names h
    simp [drivePlatform, hnames memory names h]
  · intro memory names h i name hi
    simp [drivePlatform, hnames memory names h, hindex memory names h i name hi, hi]
  · intro memory names h i name hi
    simp [drivePlatform, hnames memory names h, hindex memory names h i name hi, hi]

theorem absolute_drivePlatform (path : Path) (h : drivePlatform.isAbsolute path = true) :
    path ≠ [] := by
  rintro rfl
  cases h

/-- The text "é", a pixel in a padded row and the paths "C:\\a" and "D:\\é" with bytes behind
them. -/
theorem materialize_prepare_drivePlatform :
    (∃ p, prepare drivePlatform (.text [0xC3, 0xA9]) = .ok p ∧
      materializeGlobal drivePlatform (some { bytes := p.bytes ++ [7, 0] }) { kind := .text } =
        .ok (.text [0xC3, 0xA9])) ∧
      (∃ p, prepare drivePlatform (.image ⟨1, 1⟩ (some 6) [1, 2, 3, 4, 5, 6]) = .ok p ∧
        materializeGlobal drivePlatform (some { bytes := p.bytes ++ [7] }) { kind := .image } =
          .ok (.image ⟨1, 1⟩ [1, 2, 3, 4])) ∧
      ∃ p, prepare drivePlatform (.fileList [[0x43, 0x3A, 0x5C, 0x61], [0x44, 0x3A, 0x5C, 0xE9]]) =
          .ok p ∧
        materializeGlobal drivePlatform (some { bytes := p.bytes ++ [7] }) { kind := .fileList } =
          .ok (.fileList [[0x43, 0x3A, 0x5C, 0x61], [0x44, 0x3A, 0x5C, 0xE9]]) := by
  have himage : AcceptedImage ⟨1, 1⟩ 6 [1, 2, 3, 4, 5, 6] := by constructor <;> decide
  have happly := materialize_prepare drivePlatform absolute_drivePlatform
    splitsWideLists_drivePlatform
  obtain ⟨p, hp⟩ := (happly (.text [0xC3, 0xA9])).1.2 (by unfold Accepted; decide +kernel)
  obtain ⟨q, hq⟩ := (happly (.image ⟨1, 1⟩ (some 6) [1, 2, 3, 4, 5, 6])).1.2 himage
  obtain ⟨r, hr⟩ := (happly (.fileList [[0x43, 0x3A, 0x5C, 0x61], [0x44, 0x3A, 0x5C, 0xE9]])).1.2
    (by unfold Accepted; decide +kernel)
  exact ⟨⟨p, hp, (happly _).2 p hp [7, 0] rfl⟩, ⟨q, hq, (happly _).2 q hq [7] trivial⟩,
    ⟨r, hr, (happly _).2 r hr [7] trivial⟩⟩

/-- One byte behind the text "a" and it is rejected as misaligned. -/
theorem materialize_prepare_odd :
    (Utf8.validate [0x61]).outcome = .valid ∧ (0 : UInt8) ∉ [0x61] ∧
      prepare drivePlatform (.text [0x61]) = .ok ⟨Native.cfUnicodeText, [0x61, 0, 0, 0]⟩ ∧
      materializeGlobal drivePlatform (some { bytes := [0x61, 0, 0, 0] ++ [0] })
        { kind := .text } = .error (failure .encodingFailed) := by
  decide +kernel

end DataTransfer

end Desktop

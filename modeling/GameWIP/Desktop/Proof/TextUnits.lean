import GameWIP.Desktop.TextRange
import GameWIP.Desktop.Proof.Actions

/-!
# Unit tables

The tables of a valid text whose annotations are at its boundaries (`indexTextUnits_tables`): each
holds grapheme boundaries of the text in strictly increasing order, 0 and the size among them
(`UnitTable`). The table of the whole document is strict exactly when the text is not empty.
-/

namespace Desktop

open Unicode (utf8Code graphemes)
open Unicode.Utf8 (segmentation Cut)

/-- Boundaries of a text in order, its two ends among them. -/
structure UnitTable (text : List UInt8) (units : List Nat) : Prop where
  sorted : units.Pairwise (· ≤ ·)
  zero : 0 ∈ units
  size : text.length ∈ units
  boundary : ∀ b ∈ units, IsGraphemeBoundary text b

variable {text : List UInt8} {b offset : Nat} {units : List Nat}

/-! ## Grapheme boundaries -/

theorem isGraphemeBoundary_iff (ht : utf8Code.IsText text) :
    IsGraphemeBoundary text b ↔ b ∈ segmentation text := by
  constructor
  · rintro ⟨scalars, hv, rfl, hb⟩
    rw [segmentation, Unicode.Utf8.visitGraphemeBoundaries_eq hv]
    exact hb
  · obtain ⟨scalars, hv, rfl⟩ := ht
    intro hb
    rw [segmentation, Unicode.Utf8.visitGraphemeBoundaries_eq hv] at hb
    exact ⟨scalars, hv, rfl, hb⟩

theorem IsGraphemeBoundary.isText (h : IsGraphemeBoundary text b) : utf8Code.IsText text := by
  obtain ⟨scalars, hv, heq, -⟩ := h
  exact ⟨scalars, hv, heq⟩

theorem IsGraphemeBoundary.le (h : IsGraphemeBoundary text b) : b ≤ text.length := by
  obtain ⟨l, r, hcut⟩ :=
    Unicode.Utf8.exists_cut_of_mem h.isText ((isGraphemeBoundary_iff h.isText).1 h)
  exact hcut.le

theorem isGraphemeBoundary_cut {l r : List Nat} (h : Cut text offset l r) :
    IsGraphemeBoundary text offset ↔ graphemes.length l ∈ graphemes.boundaries (l ++ r) :=
  (isGraphemeBoundary_iff h.isText).trans h.mem_iff

/-- Storage for one boundary more than there are bytes holds all boundaries. -/
theorem graphemeBoundaries_segmentation (ht : utf8Code.IsText text) :
    graphemeBoundaries text = segmentation text := by
  have hsize : ¬ (segmentation text).length > text.length + 1 := by
    have hsubset : segmentation text ⊆ List.range (text.length + 1) := fun b hb =>
      List.mem_range.2 (Nat.lt_succ_of_le ((isGraphemeBoundary_iff ht).2 hb).le)
    have hnodup : (segmentation text).Nodup :=
      (Unicode.Utf8.segmentation_pairwise ht).imp Nat.ne_of_lt
    have hle := (List.subperm_of_subset hnodup hsubset).length_le
    rw [List.length_range] at hle
    omega
  rw [graphemeBoundaries, Unicode.Utf8.GraphemeCursor.reset_spec _ _ ht, if_neg hsize]
  simp

/-- A range that passes the validation. -/
theorem atBoundaries_of_validRange (ht : utf8Code.IsText text) {range : TextRange}
    (h : validRange text (graphemeBoundaries text) range = true) : range.AtBoundaries text := by
  simp only [validRange, Bool.and_eq_true, decide_eq_true_eq] at h
  rw [graphemeBoundaries_segmentation ht] at h
  obtain ⟨⟨⟨horder, -⟩, hfirst⟩, hlast⟩ := h
  exact ⟨horder, (isGraphemeBoundary_iff ht).2 (mem_of_binarySearch hfirst),
    (isGraphemeBoundary_iff ht).2 (mem_of_binarySearch hlast)⟩

/-! ## The scan -/

/-- A table during the scan: it starts with 0 and has no entry behind the offset. -/
structure OpenTable (text : List UInt8) (offset : Nat) (units : List Nat) : Prop where
  sorted : units.Pairwise (· < ·)
  zero : 0 ∈ units
  le : ∀ b ∈ units, b ≤ offset
  boundary : ∀ b ∈ units, IsGraphemeBoundary text b

namespace OpenTable

theorem mono {offset' : Nat} (h : OpenTable text offset units) (hle : offset ≤ offset') :
    OpenTable text offset' units where
  sorted := h.sorted
  zero := h.zero
  le b hb := (h.le b hb).trans hle
  boundary := h.boundary

/-- A boundary behind all entries. -/
theorem push (h : OpenTable text offset units) (hlt : ∀ a ∈ units, a < b)
    (hb : IsGraphemeBoundary text b) : OpenTable text b (units ++ [b]) where
  sorted := by
    refine List.pairwise_append.2 ⟨h.sorted, List.pairwise_singleton _ _, fun a ha c hc => ?_⟩
    rw [List.mem_singleton.1 hc]
    exact hlt a ha
  zero := List.mem_append_left _ h.zero
  le a ha := by
    rcases List.mem_append.1 ha with ha | ha
    · exact (hlt a ha).le
    · exact (List.mem_singleton.1 ha).le
  boundary a ha := by
    rcases List.mem_append.1 ha with ha | ha
    · exact h.boundary a ha
    · rw [List.mem_singleton.1 ha]
      exact hb

/-- What the end of the text makes of the table. -/
theorem close (h : OpenTable text text.length units) (hend : IsGraphemeBoundary text text.length) :
    (closeUnits text.length units).Pairwise (· < ·) ∧
      UnitTable text (closeUnits text.length units) := by
  have htable : OpenTable text text.length (closeUnits text.length units) ∧
      text.length ∈ closeUnits text.length units := by
    unfold closeUnits
    by_cases hlast : units.getLast? = some text.length
    · rw [if_neg (not_not.2 hlast)]
      exact ⟨h, List.mem_of_getLast? hlast⟩
    · rw [if_pos hlast]
      refine ⟨h.push (fun a ha => lt_of_le_of_ne (h.le a ha) ?_) hend, by simp⟩
      rintro rfl
      -- an entry at the end of the text would be the last one
      obtain ⟨l₁, l₂, rfl⟩ := List.append_of_mem ha
      rcases l₂ with _ | ⟨c, l₂⟩
      · simp at hlast
      · have hc := (List.pairwise_cons.1 (List.pairwise_append.1 h.sorted).2.1).1 c
          List.mem_cons_self
        exact absurd (h.le c (by simp)) (Nat.not_le.2 hc)
  exact ⟨htable.1.sorted,
    { sorted := htable.1.sorted.imp Nat.le_of_lt
      zero := htable.1.zero
      size := htable.2
      boundary := htable.1.boundary }⟩

end OpenTable

/-- Behind a line end there is a boundary. -/
theorem mem_boundaries_lineEnd {l r : List Nat} {c : Nat} (hc : isLineEnd c = true) :
    graphemes.length (l ++ [c]) ∈ graphemes.boundaries (l ++ c :: r) := by
  have hcontrol : Unicode.isControlClass (Unicode.unicodeProperties c).graphemeBreak = true ∧
      (Unicode.unicodeProperties c).graphemeBreak ≠ .cr := by
    simp only [isLineEnd, Bool.or_eq_true, decide_eq_true_eq] at hc
    rcases hc with (rfl | rfl) | rfl <;> decide +kernel
  rcases r with _ | ⟨d, r⟩
  · exact graphemes.length_mem_boundaries _
  · exact Unicode.Utf8.mem_boundaries_of_break fun st =>
      Unicode.Utf8.shouldBreak_control st (fun h => hcontrol.2 h.1) (.inl hcontrol.1)

/-- **The scan** ends, and its tables hold boundaries. -/
theorem indexUnits_spec {l r words lines : List Nat} {previousSpace : Bool}
    (hcut : Cut text offset l r) (hwords : OpenTable text offset words)
    (hspace : previousSpace = true → ∀ b ∈ words, b < offset)
    (hlines : OpenTable text offset lines) :
    ∃ words' lines',
      indexUnits text (segmentation text) offset previousSpace words lines =
        some (text.length, words', lines') ∧
      OpenTable text text.length words' ∧ OpenTable text text.length lines' := by
  induction r generalizing offset l previousSpace words lines with
  | nil =>
    have hend : offset = text.length := by
      rw [hcut.offset, hcut.eq, List.append_nil, Unicode.length_encodeAll]
    rw [indexUnits, dif_neg (by omega)]
    subst hend
    exact ⟨words, lines, rfl, hwords, hlines⟩
  | cons c r ih =>
    have hfrom : Unicode.TextFrom text offset (c :: r) := by
      rw [hcut.eq, hcut.offset]
      exact .of_encodeAll hcut.valid
    obtain ⟨hlt, hdecode, -⟩ := hfrom.step
    have hpos := Unicode.utf8EncodedLength_pos c
    have hnext : Cut text (offset + Unicode.utf8EncodedLength c) (l ++ [c]) r := by
      refine ⟨?_, ?_, ?_⟩
      · simpa using hcut.valid
      · simpa using hcut.eq
      · rw [hcut.offset]
        simp
    have hle : offset ≤ offset + Unicode.utf8EncodedLength c := Nat.le_add_right _ _
    rw [indexUnits, dif_pos hlt, Unicode.Utf8.decodeScalar, hdecode]
    simp only [dif_neg hpos.ne']
    refine ih hnext ?_ ?_ ?_
    · split_ifs with hword
      · simp only [Bool.and_eq_true] at hword
        have hb := (isGraphemeBoundary_iff hcut.isText).2 (mem_of_binarySearch hword.2)
        exact (hwords.push (hspace hword.1.1) hb).mono hle
      · exact hwords.mono hle
    · intro _ b hb
      have : b ≤ offset := by
        split_ifs at hb
        · rcases List.mem_append.1 hb with hb | hb
          · exact hwords.le b hb
          · exact (List.mem_singleton.1 hb).le
        · exact hwords.le b hb
      omega
    · split_ifs with hline
      · refine hlines.push (fun a ha => ?_) ?_
        · have := hlines.le a ha
          omega
        · rw [isGraphemeBoundary_cut hnext, List.append_assoc]
          exact mem_boundaries_lineEnd hline
      · exact hlines.mono hle

/-! ## The tables of a text -/

theorem mem_unique {l : List Nat} : b ∈ unique l ↔ b ∈ l := by
  induction l using unique.induct with
  | case1 a rest ih => simp [unique, ih]
  | case2 a c rest hne ih => simp [unique, hne, ih]
  | case3 rest hrest =>
    rcases rest with _ | ⟨a, _ | ⟨c, rest⟩⟩
    · rfl
    · rfl
    · exact absurd rfl (hrest a c rest)

theorem unique_pairwise {l : List Nat} (h : l.Pairwise (· ≤ ·)) :
    (unique l).Pairwise (· < ·) := by
  induction l using unique.induct with
  | case1 a rest ih =>
    rw [unique, if_pos rfl]
    exact ih (List.pairwise_cons.1 h).2
  | case2 a c rest hne ih =>
    obtain ⟨hhead, htail⟩ := List.pairwise_cons.1 h
    rw [unique, if_neg hne]
    refine List.pairwise_cons.2 ⟨fun x hx => ?_, ih htail⟩
    -- the head is below its neighbour, which is not above the others
    have hlt : a < c := lt_of_le_of_ne (hhead c List.mem_cons_self) hne
    rcases List.mem_cons.1 (mem_unique.1 hx) with rfl | hx
    · exact hlt
    · exact hlt.trans_le ((List.pairwise_cons.1 htail).1 x hx)
  | case3 rest hrest =>
    rcases rest with _ | ⟨a, _ | ⟨c, rest⟩⟩
    · exact .nil
    · exact List.pairwise_singleton _ _
    · exact absurd rfl (hrest a c rest)

/-- A strict table of boundaries. -/
def StrictTable (text : List UInt8) (units : List Nat) : Prop :=
  units.Pairwise (· < ·) ∧ UnitTable text units

/-- The whole document as a unit of an empty text, whose table has one offset twice. -/
def TextUnit.Collapsed (text : List UInt8) (unit : TextUnit) : Prop :=
  text = [] ∧ (unit = .page ∨ unit = .document)

theorem strictTable_graphemes (ht : utf8Code.IsText text) :
    StrictTable text (graphemeBoundaries text) := by
  rw [graphemeBoundaries_segmentation ht]
  have hpairwise := Unicode.Utf8.segmentation_pairwise ht
  exact ⟨hpairwise,
    { sorted := hpairwise.imp Nat.le_of_lt
      zero := Unicode.Utf8.zero_mem_segmentation ht
      size := Unicode.Utf8.length_mem_segmentation ht
      boundary := fun _ hb => (isGraphemeBoundary_iff ht).2 hb }⟩

/-- The ends of a text are boundaries. -/
theorem isGraphemeBoundary_ends (ht : utf8Code.IsText text) :
    IsGraphemeBoundary text 0 ∧ IsGraphemeBoundary text text.length :=
  ⟨(isGraphemeBoundary_iff ht).2 (Unicode.Utf8.zero_mem_segmentation ht),
    (isGraphemeBoundary_iff ht).2 (Unicode.Utf8.length_mem_segmentation ht)⟩

theorem unitTable_document (ht : utf8Code.IsText text) : UnitTable text [0, text.length] where
  sorted := by simp
  zero := by simp
  size := by simp
  boundary b hb := by
    obtain ⟨hfirst, hlast⟩ := isGraphemeBoundary_ends ht
    rcases List.mem_cons.1 hb with rfl | hb
    · exact hfirst
    · rw [List.mem_singleton.1 hb]
      exact hlast

theorem strictTable_formats {F : Type} {content : TextContent F}
    (ht : utf8Code.IsText content.utf8)
    (hitems : ∀ item ∈ content.annotations, item.range.AtBoundaries content.utf8) :
    StrictTable content.utf8
      (unique (([0, content.utf8.length] ++ content.annotations.flatMap fun item =>
        [item.range.begin, item.range.end_]).insertionSort (· ≤ ·))) := by
  obtain ⟨hfirst, hlast⟩ := isGraphemeBoundary_ends ht
  have hpairwise := unique_pairwise (List.pairwise_insertionSort (· ≤ ·)
    ([0, content.utf8.length] ++ content.annotations.flatMap fun item =>
      [item.range.begin, item.range.end_]))
  refine ⟨hpairwise, hpairwise.imp Nat.le_of_lt, ?_, ?_, fun b hb => ?_⟩
  · simp [mem_unique]
  · simp [mem_unique]
  · rw [mem_unique, List.mem_insertionSort, List.mem_append, List.mem_flatMap] at hb
    rcases hb with hb | ⟨item, hitem, hb⟩
    · exact (unitTable_document ht).boundary b hb
    · rcases List.mem_cons.1 hb with rfl | hb
      · exact (hitems item hitem).first
      · rw [List.mem_singleton.1 hb]
        exact (hitems item hitem).last

/-- The tables that the ranges of a text read. -/
structure RangeText.Tables (text : List UInt8) (tables : RangeText) : Prop where
  size : tables.size = text.length
  isText : utf8Code.IsText text
  unknown : unitIndex tables .unknown = []
  table : ∀ unit, unit ≠ .unknown → UnitTable text (unitIndex tables unit)
  strict : ∀ unit, ¬ unit.Collapsed text → (unitIndex tables unit).Pairwise (· < ·)

/-- **The tables of a text** with annotations at its boundaries. -/
theorem indexTextUnits_tables {F : Type} {content : TextContent F}
    (ht : utf8Code.IsText content.utf8)
    (hitems : ∀ item ∈ content.annotations, item.range.AtBoundaries content.utf8) :
    ∃ cache, indexTextUnits content = some cache ∧
      RangeText.Tables content.utf8 { size := content.utf8.length, cache } := by
  obtain ⟨hfirst, hlast⟩ := isGraphemeBoundary_ends ht
  obtain ⟨scalars, hvalid, htext⟩ := id ht
  have hcut : Cut content.utf8 0 [] scalars := ⟨hvalid, htext, rfl⟩
  have hopen : OpenTable content.utf8 0 [0] :=
    { sorted := List.pairwise_singleton _ _
      zero := List.mem_singleton_self 0
      le := fun b hb => (List.mem_singleton.1 hb).le
      boundary := fun b hb => List.mem_singleton.1 hb ▸ hfirst }
  obtain ⟨words, lines, hscan, hwords, hlines⟩ := indexUnits_spec hcut hopen
    (fun h => absurd h Bool.false_ne_true) hopen
  rw [← graphemeBoundaries_segmentation ht] at hscan
  have hgraphemes := strictTable_graphemes ht
  have hwords := hwords.close hlast
  have hlines := hlines.close hlast
  have hformats := strictTable_formats ht hitems
  refine ⟨_, by rw [indexTextUnits, hscan]; rfl, rfl, ht, rfl, fun unit hunit => ?_,
    fun unit hunit => ?_⟩
  · cases unit with
    | character => exact hgraphemes.2
    | format => exact hformats.2
    | word => exact hwords.2
    | line => exact hlines.2
    | paragraph => exact hlines.2
    | page => exact unitTable_document ht
    | document => exact unitTable_document ht
    | unknown => exact absurd rfl hunit
  · have hdocument : (unit = .page ∨ unit = .document) →
        [0, content.utf8.length].Pairwise (· < ·) := by
      intro hwhole
      have hne : content.utf8 ≠ [] := fun h => hunit ⟨h, hwhole⟩
      simpa using List.length_pos_iff.2 hne
    cases unit with
    | character => exact hgraphemes.1
    | format => exact hformats.1
    | word => exact hwords.1
    | line => exact hlines.1
    | paragraph => exact hlines.1
    | page => exact hdocument (.inl rfl)
    | document => exact hdocument (.inr rfl)
    | unknown => exact .nil

end Desktop

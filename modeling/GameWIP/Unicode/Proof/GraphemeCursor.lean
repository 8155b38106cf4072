import GameWIP.Unicode.Proof.GraphemeBoundary

/-!
# The grapheme cursor and edits of its text

`segmentation` is what a complete pass over a text visits. A cursor whose boundaries are that list
seeks exactly its entries (`seek_of_mem`, `seek_of_not_mem`) and walks to their neighbours
(`previous_spec`, `next_spec`); the boundaries it keeps up to the current one are those of the text
cut off there (`segmentation_take`).

A `Cut` is an offset of a text between two of its scalars. Cuts are where a text can be split,
extended and shortened, and every boundary is one (`exists_cut_of_mem`).
-/

namespace Unicode

namespace Utf8

open Lib

/-- The boundaries of a fresh pass over the whole text. -/
def segmentation (text : List UInt8) : List Nat := (visitGraphemeBoundaries text).1

/-! ## Cuts -/

/-- The text has the scalars `l ++ r`, and the offset lies between them. -/
structure Cut (text : List UInt8) (offset : Nat) (l r : List Nat) : Prop where
  valid : utf8Code.Valid (l ++ r)
  eq : text = utf8Code.encodeAll (l ++ r)
  offset : offset = graphemes.length l

section Cut

variable {text : List UInt8} {b offset : Nat} {l m r : List Nat}

theorem Cut.offset_eq (h : Cut text offset l r) : offset = (utf8Code.encodeAll l).length :=
  h.offset.trans (length_encodeAll l).symm

theorem Cut.take (h : Cut text offset l r) : text.take offset = utf8Code.encodeAll l := by
  rw [h.eq, h.offset_eq, PrefixCode.encodeAll_append, List.take_left]

theorem Cut.drop (h : Cut text offset l r) : text.drop offset = utf8Code.encodeAll r := by
  rw [h.eq, h.offset_eq, PrefixCode.encodeAll_append, List.drop_left]

theorem Cut.le (h : Cut text offset l r) : offset ≤ text.length := by
  rw [h.eq, h.offset, length_encodeAll, Segmenter.length_append]
  exact Nat.le_add_right _ _

theorem Cut.segmentation_eq (h : Cut text offset l r) :
    segmentation text = graphemes.boundaries (l ++ r) := by
  rw [segmentation, h.eq, visitGraphemeBoundaries_eq h.valid]

theorem Cut.mem_iff (h : Cut text offset l r) :
    offset ∈ segmentation text ↔ graphemes.length l ∈ graphemes.boundaries (l ++ r) := by
  rw [h.segmentation_eq, h.offset]

/-- Scalars put in at the cut, with the cut moved behind them. -/
theorem Cut.insert (h : Cut text offset l r) (hm : utf8Code.Valid m) :
    Cut (text.take offset ++ utf8Code.encodeAll m ++ text.drop offset)
      (offset + (utf8Code.encodeAll m).length) (l ++ m) r := by
  obtain ⟨hl, hr⟩ := utf8Code.valid_append.1 h.valid
  refine ⟨?_, ?_, ?_⟩
  · exact utf8Code.valid_append.2 ⟨utf8Code.valid_append.2 ⟨hl, hm⟩, hr⟩
  · rw [h.take, h.drop, PrefixCode.encodeAll_append, PrefixCode.encodeAll_append]
  · rw [Segmenter.length_append, ← length_encodeAll m, h.offset]

/-- The scalars between two cuts taken out. -/
theorem Cut.erase {r' : List Nat} {last : Nat} (h : Cut text offset l r)
    (h' : Cut text last (l ++ m) r') :
    Cut (text.take offset ++ text.drop last) offset l r' := by
  obtain ⟨hl, _⟩ := utf8Code.valid_append.1 h.valid
  obtain ⟨_, hr⟩ := utf8Code.valid_append.1 h'.valid
  refine ⟨utf8Code.valid_append.2 ⟨hl, hr⟩, ?_, h.offset⟩
  rw [h.take, h'.drop, PrefixCode.encodeAll_append]

/-- The text in front of the cut. -/
theorem Cut.prefix (h : Cut text offset l r) : Cut (text.take offset) offset l [] := by
  obtain ⟨hl, _⟩ := utf8Code.valid_append.1 h.valid
  refine ⟨?_, ?_, h.offset⟩
  · rw [List.append_nil]
    exact hl
  · rw [h.take, List.append_nil]

theorem Cut.isText (h : Cut text offset l r) : utf8Code.IsText text := ⟨_, h.valid, h.eq⟩

end Cut

/-! ## Boundaries -/

section

variable {text : List UInt8} {b b' i : Nat}

/-- Every boundary is a cut. -/
theorem exists_cut_of_mem (ht : utf8Code.IsText text) (hb : b ∈ segmentation text) :
    ∃ l r, Cut text b l r := by
  obtain ⟨ss, hv, rfl⟩ := ht
  rw [segmentation, visitGraphemeBoundaries_eq hv] at hb
  obtain ⟨l, r, rfl, rfl⟩ := graphemes.exists_cut hb
  exact ⟨l, r, hv, rfl, rfl⟩

theorem segmentation_pairwise (ht : utf8Code.IsText text) :
    (segmentation text).Pairwise (· < ·) := by
  obtain ⟨ss, hv, rfl⟩ := ht
  rw [segmentation, visitGraphemeBoundaries_eq hv]
  exact graphemes.boundaries_pairwise ss

theorem zero_mem_segmentation (ht : utf8Code.IsText text) : 0 ∈ segmentation text := by
  obtain ⟨ss, hv, rfl⟩ := ht
  rw [segmentation, visitGraphemeBoundaries_eq hv]
  exact graphemes.zero_mem_boundaries ss

theorem length_mem_segmentation (ht : utf8Code.IsText text) :
    text.length ∈ segmentation text := by
  obtain ⟨ss, hv, rfl⟩ := ht
  rw [segmentation, visitGraphemeBoundaries_eq hv, length_encodeAll]
  exact graphemes.length_mem_boundaries ss

/-- Two boundaries in order cut the text in three. -/
theorem exists_cuts_of_mem (ht : utf8Code.IsText text) (hb : b ∈ segmentation text)
    (hb' : b' ∈ segmentation text) (hle : b ≤ b') :
    ∃ l m r, Cut text b l (m ++ r) ∧ Cut text b' (l ++ m) r := by
  obtain ⟨l, r, h⟩ := exists_cut_of_mem ht hb
  obtain ⟨l', r', h'⟩ := exists_cut_of_mem ht hb'
  have heq : l ++ r = l' ++ r' := utf8Code.encodeAll_injective h.valid h'.valid (h.eq.symm.trans h'.eq)
  obtain ⟨m, rfl, rfl⟩ | ⟨m, rfl, rfl⟩ := List.append_eq_append_iff.1 heq
  · exact ⟨l, m, r', h, h'⟩
  · -- the second boundary is not in front of the first
    have hm : graphemes.length m = 0 := by
      have h1 := h.offset
      have h2 := h'.offset
      rw [Segmenter.length_append] at h1
      omega
    obtain rfl := graphemes.length_eq_zero.1 hm
    rw [List.append_nil] at h
    exact ⟨l', [], r, by simpa using h, by simpa using h'⟩

/-- The boundaries up to one of them are those of the text in front of it. -/
theorem segmentation_take (ht : utf8Code.IsText text) (hi : (segmentation text)[i]? = some b) :
    segmentation (text.take b) = (segmentation text).take (i + 1) := by
  obtain ⟨l, r, h⟩ := exists_cut_of_mem ht (List.mem_of_getElem? hi)
  have hb := h.mem_iff.1 (List.mem_of_getElem? hi)
  obtain ⟨later, happ, hlater⟩ := graphemes.boundaries_append hb
  have hseg : segmentation (text.take b) = graphemes.boundaries l := by
    have := h.prefix.segmentation_eq
    rwa [List.append_nil] at this
  have hp := segmentation_pairwise ht
  rw [h.segmentation_eq, happ] at hi hp ⊢
  rw [hseg]
  -- the last boundary of the prefix stands at its end, and only there
  have hlast : (graphemes.boundaries l ++ later)[(graphemes.boundaries l).length - 1]? = some b := by
    rw [Segmenter.boundaries, h.offset, List.length_append, List.length_singleton,
      Nat.add_sub_cancel, List.append_assoc, List.getElem?_append_right (Nat.le_refl _), Nat.sub_self]
    rfl
  have hindex : i = (graphemes.boundaries l).length - 1 := by
    obtain ⟨hi', hei⟩ := List.getElem?_eq_some_iff.1 hi
    obtain ⟨hj', hej⟩ := List.getElem?_eq_some_iff.1 hlast
    rcases Nat.lt_trichotomy i ((graphemes.boundaries l).length - 1) with hlt | heq | hgt
    · have := List.pairwise_iff_getElem.1 hp _ _ hi' hj' hlt
      omega
    · exact heq
    · have := List.pairwise_iff_getElem.1 hp _ _ hj' hi' hgt
      omega
  have hpos : 0 < (graphemes.boundaries l).length :=
    List.length_pos_of_mem (graphemes.length_mem_boundaries l)
  rw [hindex, Nat.sub_add_cancel hpos, List.take_left]

end

/-! ## The cursor -/

namespace GraphemeCursor

variable {cursor : GraphemeCursor} {text : List UInt8} {b : Nat}

theorem ready_of_mem (hb : b ∈ cursor.boundaries_) : cursor.ready = true := by
  unfold ready
  cases hc : cursor.boundaries_ with
  | nil => simp [hc] at hb
  | cons a l => rfl

/-- The offset sought is a boundary, and the cursor stands on it. -/
theorem seek_of_mem (hp : cursor.boundaries_.Pairwise (· < ·)) (hb : b ∈ cursor.boundaries_) :
    ∃ i, cursor.boundaries_[i]? = some b ∧
      cursor.seek b =
        ({ cursor with currentBoundaryIndex_ := i }, { byteOffset := b, outcome := .found }) := by
  obtain ⟨i, hi, he⟩ := List.mem_iff_getElem.1 hb
  have hfind : (cursor.boundaries_.findIdx fun boundary => decide (b ≤ boundary)) = i := by
    rw [List.findIdx_eq hi]
    refine ⟨by simp [he], fun j hj => ?_⟩
    have := List.pairwise_iff_getElem.1 hp j i (by omega) hi hj
    simp only [decide_eq_false_iff_not]
    omega
  refine ⟨i, List.getElem?_eq_some_iff.2 ⟨hi, he⟩, ?_⟩
  have hne : ¬ i = cursor.boundaries_.length := by omega
  have hget : cursor.boundaries_.getD i 0 = b := by
    rw [List.getD_eq_getElem?_getD, List.getElem?_eq_getElem hi, Option.getD_some, he]
  simp only [seek, ready_of_mem hb, Bool.not_true, Bool.false_eq_true, if_false, hfind, hget]
  rw [if_neg (by simp [hne])]

/-- The offset sought is no boundary, and the cursor stays. -/
theorem seek_of_not_mem (hb : b ∉ cursor.boundaries_) :
    cursor.seek b = (cursor, { byteOffset := b, outcome := .invalidOffset }) := by
  unfold seek
  dsimp only
  split_ifs with hready hfound
  · rfl
  · rfl
  · exfalso
    simp only [Bool.or_eq_true, beq_iff_eq, bne_iff_ne, ne_eq, not_or, not_not] at hfound
    obtain ⟨hne, hget⟩ := hfound
    apply hb
    have hlt : (cursor.boundaries_.findIdx fun boundary => decide (b ≤ boundary)) <
        cursor.boundaries_.length :=
      Nat.lt_of_le_of_ne List.findIdx_le_length hne
    rw [List.getD_eq_getElem?_getD, List.getElem?_eq_getElem hlt, Option.getD_some] at hget
    rw [← hget]
    exact List.getElem_mem hlt

/-- One boundary back, or none in front of the current one. -/
theorem previous_spec (hp : cursor.boundaries_.Pairwise (· < ·))
    (hb : cursor.boundaries_[cursor.currentBoundaryIndex_]? = some b) :
    cursor.previous = (cursor, { byteOffset := 0, outcome := .atBeginning }) ∨
      ∃ i p, p < b ∧ cursor.boundaries_[i]? = some p ∧
        cursor.previous =
          ({ cursor with currentBoundaryIndex_ := i }, { byteOffset := p, outcome := .found }) := by
  have hready := ready_of_mem (List.mem_of_getElem? hb)
  obtain ⟨hi, he⟩ := List.getElem?_eq_some_iff.1 hb
  unfold previous
  rw [if_neg (by simp [hready])]
  split_ifs with hzero
  · exact .inl rfl
  · rw [beq_iff_eq] at hzero
    have hlt : cursor.currentBoundaryIndex_ - 1 < cursor.boundaries_.length := by omega
    refine .inr ⟨cursor.currentBoundaryIndex_ - 1,
      cursor.boundaries_[cursor.currentBoundaryIndex_ - 1], ?_, List.getElem?_eq_getElem hlt, ?_⟩
    · have := List.pairwise_iff_getElem.1 hp _ _ hlt hi (by omega)
      omega
    · have hready' : ready { cursor with
          currentBoundaryIndex_ := cursor.currentBoundaryIndex_ - 1 } = true := hready
      simp only [byteOffset, hready', if_true, List.getD_eq_getElem?_getD,
        List.getElem?_eq_getElem hlt, Option.getD_some]

/-- One boundary on, or none behind the current one. -/
theorem next_spec (hp : cursor.boundaries_.Pairwise (· < ·))
    (hb : cursor.boundaries_[cursor.currentBoundaryIndex_]? = some b) :
    (∃ offset, cursor.next = (cursor, { byteOffset := offset, outcome := .atEnd })) ∨
      ∃ i n, b < n ∧ cursor.boundaries_[i]? = some n ∧
        cursor.next =
          ({ cursor with currentBoundaryIndex_ := i }, { byteOffset := n, outcome := .found }) := by
  have hready := ready_of_mem (List.mem_of_getElem? hb)
  obtain ⟨hi, he⟩ := List.getElem?_eq_some_iff.1 hb
  unfold next
  rw [if_neg (by simp [hready])]
  split_ifs with hend
  · exact .inl ⟨_, rfl⟩
  · have hlt : cursor.currentBoundaryIndex_ + 1 < cursor.boundaries_.length := by omega
    refine .inr ⟨cursor.currentBoundaryIndex_ + 1,
      cursor.boundaries_[cursor.currentBoundaryIndex_ + 1], ?_, List.getElem?_eq_getElem hlt, ?_⟩
    · have := List.pairwise_iff_getElem.1 hp _ _ hi hlt (by omega)
      omega
    · have hready' : ready { cursor with
          currentBoundaryIndex_ := cursor.currentBoundaryIndex_ + 1 } = true := hready
      simp only [byteOffset, hready', if_true, List.getD_eq_getElem?_getD,
        List.getElem?_eq_getElem hlt, Option.getD_some]

/-- A complete index with room for it. -/
theorem reset_spec (cursor : GraphemeCursor) (storageSize : Nat) (ht : utf8Code.IsText text) :
    cursor.reset text storageSize =
      if (segmentation text).length > storageSize then
        (cursor.clear, { requiredBoundaryCount := (segmentation text).length
                         outcome := .destinationTooSmall })
      else
        ({ boundaries_ := segmentation text, currentBoundaryIndex_ := 0 },
          { requiredBoundaryCount := (segmentation text).length, outcome := .indexed }) := by
  obtain ⟨ss, hv, rfl⟩ := ht
  simp only [reset, segmentation, visitGraphemeBoundaries_eq hv, Bool.not_true, Bool.false_eq_true,
    if_false]

end GraphemeCursor

end Utf8

end Unicode

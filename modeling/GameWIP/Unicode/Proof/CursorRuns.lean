import GameWIP.Unicode.Proof.GraphemeCursor
import Mathlib.Data.List.Nodup

/-!
# Runs of a grapheme cursor

After a complete index, the owner of a cursor moves it and discards boundaries (`Call`). Whatever
the calls, the cursor indexes a prefix of the text that ends at one of its boundaries
(`performAll_indexes`), so it is the cursor of that prefix: what the owner sees of it (`observe`)
is what a fresh cursor over the prefix shows (`performAll_spec`).
-/

namespace Unicode

namespace Utf8

namespace GraphemeCursor

/-- A call of the cursor's owner. -/
inductive Call where
  | next
  | previous
  | seek (byteOffset : Nat)
  | discardAfterCurrent
  deriving DecidableEq, Repr

def perform (cursor : GraphemeCursor) : Call → GraphemeCursor × Option BoundaryResult
  | .next => (cursor.next.1, some cursor.next.2)
  | .previous => (cursor.previous.1, some cursor.previous.2)
  | .seek byteOffset => ((cursor.seek byteOffset).1, some (cursor.seek byteOffset).2)
  | .discardAfterCurrent => (cursor.discardAfterCurrent, none)

def performAll (cursor : GraphemeCursor) : List Call → GraphemeCursor
  | [] => cursor
  | call :: calls => (cursor.perform call).1.performAll calls

/-- What the owner sees of a call: its result, and the cursor's queries after it. -/
structure Observation where
  result : Option BoundaryResult
  byteOffset : Nat
  boundaryCount : Nat
  deriving DecidableEq, Repr

def observe (cursor : GraphemeCursor) : List Call → List Observation
  | [] => []
  | call :: calls =>
    let (moved, result) := cursor.perform call
    ⟨result, moved.byteOffset, moved.boundaryCount⟩ :: moved.observe calls

/-- The cursor's boundaries are those of the text, and it stands on one of them. -/
structure Indexes (cursor : GraphemeCursor) (text : List UInt8) : Prop where
  boundaries : cursor.boundaries_ = segmentation text
  standing : cursor.currentBoundaryIndex_ < cursor.boundaries_.length

section

variable {cursor : GraphemeCursor} {text : List UInt8} {b : Nat}

theorem segmentation_getLast (ht : utf8Code.IsText text) :
    (segmentation text).getLast? = some text.length := by
  obtain ⟨ss, hv, rfl⟩ := ht
  rw [segmentation, visitGraphemeBoundaries_eq hv, Lib.Segmenter.boundaries, List.getLast?_concat,
    length_encodeAll]

theorem segmentation_head (ht : utf8Code.IsText text) : (segmentation text).head? = some 0 := by
  have hp := segmentation_pairwise ht
  have h0 := zero_mem_segmentation ht
  cases hs : segmentation text with
  | nil => simp [hs] at h0
  | cons first others =>
    rw [hs] at hp h0
    rcases List.mem_cons.1 h0 with rfl | h0
    · rfl
    · exact absurd ((List.pairwise_cons.1 hp).1 0 h0) (Nat.not_lt_zero first)

theorem segmentation_complete (ht : utf8Code.IsText text) :
    (visitGraphemeBoundaries text).2 = true := by
  obtain ⟨ss, hv, rfl⟩ := ht
  rw [visitGraphemeBoundaries_eq hv]

/-- A boundary of a prefix that ends at a boundary is a boundary of the whole. -/
theorem mem_segmentation_of_take (ht : utf8Code.IsText text) (hb : b ∈ segmentation text) {c : Nat}
    (hc : c ∈ segmentation (text.take b)) : c ∈ segmentation text := by
  obtain ⟨i, hi⟩ := List.mem_iff_getElem?.1 hb
  rw [segmentation_take ht hi] at hc
  exact List.mem_of_mem_take hc

theorem le_length_of_mem (ht : utf8Code.IsText text) (hb : b ∈ segmentation text) :
    b ≤ text.length := by
  obtain ⟨l, r, h⟩ := exists_cut_of_mem ht hb
  exact h.le

theorem isText_take (ht : utf8Code.IsText text) (hb : b ∈ segmentation text) :
    utf8Code.IsText (text.take b) := by
  obtain ⟨l, r, h⟩ := exists_cut_of_mem ht hb
  exact h.prefix.isText

namespace Indexes

theorem ready (h : Indexes cursor text) : cursor.ready = true := by
  simp [GraphemeCursor.ready, List.isEmpty_eq_false_iff, List.ne_nil_of_length_pos
    (Nat.zero_lt_of_lt h.standing)]

/-- The boundary under the cursor. -/
theorem getElem? (h : Indexes cursor text) :
    (segmentation text)[cursor.currentBoundaryIndex_]? = some cursor.byteOffset := by
  rw [byteOffset, if_pos h.ready, ← h.boundaries, List.getD_eq_getElem?_getD,
    List.getElem?_eq_getElem h.standing, Option.getD_some]

theorem byteOffset_mem (h : Indexes cursor text) : cursor.byteOffset ∈ segmentation text :=
  List.mem_of_getElem? h.getElem?

/-- A cursor that only moved. -/
theorem moved (h : Indexes cursor text) {i : Nat} (hi : (segmentation text)[i]? = some b) :
    Indexes { cursor with currentBoundaryIndex_ := i } text := by
  obtain ⟨hlt, -⟩ := List.getElem?_eq_some_iff.1 hi
  rw [← h.boundaries] at hlt
  exact ⟨h.boundaries, hlt⟩

/-- What is left after a discard is the index of the text cut off at the cursor. -/
theorem discardAfterCurrent (h : Indexes cursor text) (ht : utf8Code.IsText text) :
    Indexes cursor.discardAfterCurrent (text.take cursor.byteOffset) := by
  have hstanding := h.standing
  rw [GraphemeCursor.discardAfterCurrent, if_pos h.ready]
  constructor
  · rw [segmentation_take ht h.getElem?, h.boundaries]
  · have hi : cursor.currentBoundaryIndex_ <
        min (cursor.currentBoundaryIndex_ + 1) cursor.boundaries_.length := by omega
    rwa [← List.length_take] at hi

/-- One call keeps the index, of the same text or of the text cut off at the cursor. -/
theorem perform (h : Indexes cursor text) (ht : utf8Code.IsText text) (call : Call) :
    ∃ last ∈ segmentation text, Indexes (cursor.perform call).1 (text.take last) := by
  have hp : cursor.boundaries_.Pairwise (· < ·) := h.boundaries ▸ segmentation_pairwise ht
  have hat : cursor.boundaries_[cursor.currentBoundaryIndex_]? = some cursor.byteOffset :=
    h.boundaries ▸ h.getElem?
  have hwhole : ∀ {moved : GraphemeCursor}, Indexes moved text →
      ∃ last ∈ segmentation text, Indexes moved (text.take last) := fun hm =>
    ⟨text.length, length_mem_segmentation ht, by rwa [List.take_length]⟩
  cases call with
  | next =>
    obtain ⟨_, hnext⟩ | ⟨i, n, -, hi, hnext⟩ := next_spec hp hat
    · exact hwhole (by simpa [GraphemeCursor.perform, hnext] using h)
    · rw [h.boundaries] at hi
      exact hwhole (by simpa [GraphemeCursor.perform, hnext] using h.moved hi)
  | previous =>
    obtain hprevious | ⟨i, p, -, hi, hprevious⟩ := previous_spec hp hat
    · exact hwhole (by simpa [GraphemeCursor.perform, hprevious] using h)
    · rw [h.boundaries] at hi
      exact hwhole (by simpa [GraphemeCursor.perform, hprevious] using h.moved hi)
  | seek byteOffset =>
    by_cases hb : byteOffset ∈ cursor.boundaries_
    · obtain ⟨i, hi, hseek⟩ := seek_of_mem hp hb
      rw [h.boundaries] at hi
      exact hwhole (by simpa [GraphemeCursor.perform, hseek] using h.moved hi)
    · exact hwhole (by simpa [GraphemeCursor.perform, seek_of_not_mem hb] using h)
  | discardAfterCurrent => exact ⟨cursor.byteOffset, h.byteOffset_mem, h.discardAfterCurrent ht⟩

end Indexes

/-- A run of calls keeps the index of a prefix that ends at a boundary. -/
theorem performAll_indexes (calls : List Call) (h : Indexes cursor text)
    (ht : utf8Code.IsText text) :
    ∃ last ∈ segmentation text, Indexes (cursor.performAll calls) (text.take last) := by
  induction calls generalizing cursor text with
  | nil => exact ⟨text.length, length_mem_segmentation ht, by rwa [List.take_length]⟩
  | cons call calls ih =>
    obtain ⟨last, hlast, hstep⟩ := h.perform ht call
    obtain ⟨last', hlast', hrun⟩ := ih hstep (isText_take ht hlast)
    have hle := le_length_of_mem (isText_take ht hlast) hlast'
    rw [List.length_take] at hle
    refine ⟨last', mem_segmentation_of_take ht hlast hlast', ?_⟩
    rwa [List.take_take, Nat.min_eq_left (by omega)] at hrun

/-- A fresh cursor over the text, moved where this one stands, is this one. -/
theorem Indexes.eq_reset_seek (h : Indexes cursor text) (ht : utf8Code.IsText text)
    (fresh : GraphemeCursor) {room : Nat} (hroom : cursor.boundaryCount ≤ room) :
    (fresh.reset text room).2.outcome = .indexed ∧
      (fresh.reset text room).1.seek cursor.byteOffset =
        (cursor, { byteOffset := cursor.byteOffset, outcome := .found }) := by
  rw [boundaryCount, h.boundaries] at hroom
  rw [reset_spec fresh room ht, if_neg (Nat.not_lt.2 hroom)]
  refine ⟨rfl, ?_⟩
  have hp := segmentation_pairwise ht
  obtain ⟨i, hi, hseek⟩ := @seek_of_mem ⟨segmentation text, 0⟩ _ hp h.byteOffset_mem
  rw [hseek]
  have hindex : i = cursor.currentBoundaryIndex_ := by
    obtain ⟨hilt, hie⟩ := List.getElem?_eq_some_iff.1 hi
    obtain ⟨hclt, hce⟩ := List.getElem?_eq_some_iff.1 h.getElem?
    have hnodup : (segmentation text).Nodup := hp.imp Nat.ne_of_lt
    exact hnodup.getElem_inj_iff.1 (hie.trans hce.symm)
  rw [hindex, ← h.boundaries]

end

/-- **The cursor of a prefix.** After a complete index of a valid text and any calls, the cursor
stands on one of its boundaries, which increase from 0, and shows in every later call what a fresh
cursor over the text up to the last of them shows once it has sought the same place. To discard
what is behind the cursor leaves the boundaries of the text cut off there. -/
theorem performAll_spec {text : List UInt8} (ht : (validate text).outcome = .valid)
    (start : GraphemeCursor) {storageSize : Nat}
    (hroom : (visitGraphemeBoundaries text).1.length ≤ storageSize) (calls : List Call) :
    let cursor := (start.reset text storageSize).1.performAll calls
    (start.reset text storageSize).2.outcome = .indexed ∧
    cursor.currentBoundaryIndex_ < cursor.boundaryCount ∧
    cursor.byteOffset ∈ cursor.boundaries_ ∧
    cursor.boundaries_.Pairwise (· < ·) ∧ cursor.boundaries_.head? = some 0 ∧
    (∃ last, cursor.boundaries_.getLast? = some last ∧
      ∀ (fresh : GraphemeCursor) (room : Nat), cursor.boundaryCount ≤ room →
        (fresh.reset (text.take last) room).2.outcome = .indexed ∧
        ((fresh.reset (text.take last) room).1.seek cursor.byteOffset).2 =
          { byteOffset := cursor.byteOffset, outcome := .found } ∧
        let moved := ((fresh.reset (text.take last) room).1.seek cursor.byteOffset).1
        moved.byteOffset = cursor.byteOffset ∧ moved.boundaryCount = cursor.boundaryCount ∧
          ∀ later, moved.observe later = cursor.observe later) ∧
    visitGraphemeBoundaries (text.take cursor.byteOffset) =
      (cursor.discardAfterCurrent.boundaries_, true) := by
  have ht := validate_valid_iff.1 ht
  have hstart := reset_spec start storageSize ht
  have hfits : ¬ (segmentation text).length > storageSize := Nat.not_lt.2 hroom
  rw [if_neg hfits] at hstart
  have hindexed : Indexes (start.reset text storageSize).1 text := by
    rw [hstart]
    exact ⟨rfl, List.length_pos_of_mem (zero_mem_segmentation ht)⟩
  obtain ⟨last, hlast, h⟩ := performAll_indexes calls hindexed ht
  have htake := isText_take ht hlast
  intro cursor
  have hcut := h.discardAfterCurrent htake
  refine ⟨by rw [hstart], h.standing, ?_, ?_, ?_, ⟨last, ?_, fun fresh room hroom => ?_⟩, ?_⟩
  · rw [h.boundaries]
    exact h.byteOffset_mem
  · rw [h.boundaries]
    exact segmentation_pairwise htake
  · rw [h.boundaries]
    exact segmentation_head htake
  · rw [h.boundaries, segmentation_getLast htake, List.length_take,
      Nat.min_eq_left (le_length_of_mem ht hlast)]
  · obtain ⟨houtcome, hseek⟩ := h.eq_reset_seek htake fresh hroom
    refine ⟨houtcome, ?_, ?_⟩ <;> rw [hseek]
    exact ⟨rfl, rfl, fun _ => rfl⟩
  · have hle := le_length_of_mem htake h.byteOffset_mem
    rw [List.length_take] at hle
    have hboundaries := hcut.boundaries
    have hcomplete := segmentation_complete (isText_take htake h.byteOffset_mem)
    rw [List.take_take, Nat.min_eq_left (Nat.le_trans hle (Nat.min_le_left _ _))]
      at hboundaries hcomplete
    exact Prod.ext hboundaries.symm hcomplete

/-- "e" with a combining accent, cut off behind the "x" that follows it: the cursor in front of
the "x" is the one of the shorter text. -/
theorem performAll_accent :
    let cursor := (({} : GraphemeCursor).reset [0x65, 0xCC, 0x81, 0x78, 0x79] 8).1.performAll
      [.next, .next, .discardAfterCurrent, .previous]
    cursor.byteOffset = 3 ∧ cursor.boundaries_ = [0, 3, 4] ∧
      ((({} : GraphemeCursor).reset [0x65, 0xCC, 0x81, 0x78] 3).1.seek 3).1.observe [.next, .next] =
        cursor.observe [.next, .next] := by
  intro cursor
  obtain ⟨-, -, -, -, -, ⟨last, hlast, hfresh⟩, -⟩ :=
    @performAll_spec [0x65, 0xCC, 0x81, 0x78, 0x79] (by decide +kernel) {} 8 (by decide +kernel)
      [.next, .next, .discardAfterCurrent, .previous]
  have hat : cursor.byteOffset = 3 := by decide +kernel
  have hboundaries : cursor.boundaries_ = [0, 3, 4] := by decide +kernel
  change cursor.boundaries_.getLast? = some last at hlast
  rw [hboundaries] at hlast
  obtain rfl : 4 = last := by simpa using hlast
  obtain ⟨-, -, -, -, hsame⟩ := hfresh {} 3 (by decide +kernel)
  change ∀ later, ((({} : GraphemeCursor).reset [0x65, 0xCC, 0x81, 0x78] 3).1.seek
    cursor.byteOffset).1.observe later = cursor.observe later at hsame
  rw [hat] at hsame
  exact ⟨hat, hboundaries, hsame _⟩

end GraphemeCursor

end Utf8

end Unicode

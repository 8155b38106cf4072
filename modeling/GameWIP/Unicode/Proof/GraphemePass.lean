import GameWIP.Lib.Segmentation
import GameWIP.Unicode.Grapheme
import GameWIP.Unicode.Proof.Utf8Code

/-!
# The grapheme passes as a segmentation

`graphemes` is the segmenter of the rule context over scalars, each as wide as its encoding. On a
text with the scalars `ss`

* the complete pass visits `graphemes.boundaries ss` (`visitGraphemeBoundaries_eq`);
* a forward scan finds the first later boundary of a run from its start (`scanNextFrom_eq`) and a
  backward scan the last earlier one (`scanPreviousFrom_eq`);
* the scalar before an offset is found by skipping its continuation bytes
  (`decodePreviousUtf8Scalar_eq`).
-/

namespace Unicode

open Lib

/-- The segmentation of scalars by the streaming rule context. -/
def graphemes : Segmenter Nat Utf8.GraphemeState where
  start := {}
  consume state s := state.consume (unicodeProperties s)
  breaks p c state := Utf8.shouldBreak (unicodeProperties p) (unicodeProperties c) state
  width := utf8EncodedLength
  width_pos := utf8EncodedLength_pos

@[simp] theorem graphemes_width (s : Nat) : graphemes.width s = utf8EncodedLength s := rfl

theorem length_encodeAll (ss : List Nat) :
    (utf8Code.encodeAll ss).length = graphemes.length ss := by
  induction ss with
  | nil => rfl
  | cons s ss ih =>
    rw [PrefixCode.encodeAll_cons, List.length_append, ih, Segmenter.length_cons]
    exact congrArg (· + _) (length_utf8Bytes s)

/-- From the offset on, the text is the encoding of the scalars. -/
structure TextFrom (text : List UInt8) (off : Nat) (ss : List Nat) : Prop where
  valid : utf8Code.Valid ss
  le : off ≤ text.length
  eq : text.drop off = utf8Code.encodeAll ss

namespace TextFrom

variable {text : List UInt8} {off s : Nat} {ss : List Nat}

theorem length_eq (h : TextFrom text off ss) : off + graphemes.length ss = text.length := by
  have hl := congrArg List.length h.eq
  have := h.le
  rw [List.length_drop, length_encodeAll] at hl
  omega

/-- The next scalar is decoded, and the text behind it has the others. -/
theorem step (h : TextFrom text off (s :: ss)) :
    off < text.length ∧
      decodeUtf8Scalar (text.drop off) =
        { scalar := s, bytesConsumed := utf8EncodedLength s, outcome := .decoded } ∧
      TextFrom text (off + utf8EncodedLength s) ss := by
  obtain ⟨hs, hss⟩ := utf8Code.valid_cons.1 h.valid
  have hpos := utf8EncodedLength_pos s
  have hlen := h.length_eq
  rw [Segmenter.length_cons, graphemes_width] at hlen
  have heq : text.drop off = utf8Bytes s ++ utf8Code.encodeAll ss := h.eq
  refine ⟨by omega, ?_, hss, by omega, ?_⟩
  · rw [heq]
    exact decodeUtf8Scalar_utf8Bytes hs _
  · rw [← List.drop_drop, heq]
    exact List.drop_left' (length_utf8Bytes s)

theorem of_encodeAll {l r : List Nat} (hv : utf8Code.Valid (l ++ r)) :
    TextFrom (utf8Code.encodeAll (l ++ r)) (graphemes.length l) r where
  valid := (utf8Code.valid_append.1 hv).2
  le := by
    rw [length_encodeAll, Segmenter.length_append]
    exact Nat.le_add_right _ _
  eq := by
    rw [PrefixCode.encodeAll_append]
    exact List.drop_left' (length_encodeAll l)

end TextFrom

namespace Utf8

/-! ## The complete pass -/

section
variable {text : List UInt8} {off target p : Nat} {r ss : List Nat} {state : GraphemeState}

theorem visitFrom_eq (h : TextFrom text off r) :
    visitFrom text (unicodeProperties p) state off =
      (graphemes.interior (some p, state) off r ++ [text.length], true) := by
  induction r generalizing off p state with
  | nil =>
    have hend := h.length_eq
    rw [Segmenter.length_nil] at hend
    rw [visitFrom, dif_neg (by omega)]
    rfl
  | cons c r ih =>
    obtain ⟨hlt, hd, hr⟩ := h.step
    rw [visitFrom, dif_pos hlt]
    simp only [hd, ne_eq, not_true, dite_false, ih hr, Segmenter.interior]
    by_cases hb : shouldBreak (unicodeProperties p) (unicodeProperties c) state = true
    · rw [if_pos hb, if_pos (show graphemes.breakBefore (some p, state) c = true from hb)]
      rfl
    · rw [if_neg hb, if_neg (show ¬ graphemes.breakBefore (some p, state) c = true from hb)]
      rfl

/-- **The complete pass** visits the boundaries of the segmentation. -/
theorem visitGraphemeBoundaries_eq (hv : utf8Code.Valid ss) :
    visitGraphemeBoundaries (utf8Code.encodeAll ss) = (graphemes.boundaries ss, true) := by
  cases ss with
  | nil => rfl
  | cons s ss =>
    have ht : TextFrom (utf8Code.encodeAll (s :: ss)) 0 (s :: ss) := TextFrom.of_encodeAll (l := []) hv
    obtain ⟨hlt, hd, hr⟩ := ht.step
    have hne : (utf8Code.encodeAll (s :: ss)).isEmpty = false := by
      rw [List.isEmpty_eq_false_iff_exists_mem]
      exact List.exists_mem_of_length_pos hlt
    rw [List.drop_zero] at hd
    rw [Nat.zero_add] at hr
    rw [visitGraphemeBoundaries, hne]
    simp only [hd, ne_eq, not_true, if_false, visitFrom_eq hr, Bool.false_eq_true]
    rw [length_encodeAll, Segmenter.boundaries, Segmenter.interior]
    simp only [Nat.zero_add]
    rfl

/-! ## The scans -/

theorem scanNextLoop_eq (h : TextFrom text off r) (ht : target < text.length) :
    ∃ b, (graphemes.interior (some p, state) off r ++ [text.length]).find?
        (fun o => decide (target < o)) = some b ∧
      scanNextLoop text target (unicodeProperties p) state off =
        { byteOffset := b, outcome := .found } := by
  induction r generalizing off p state with
  | nil =>
    have hend := h.length_eq
    rw [Segmenter.length_nil] at hend
    refine ⟨text.length, by simp [Segmenter.interior, ht], ?_⟩
    rw [scanNextLoop, dif_neg (by omega)]
  | cons c r ih =>
    obtain ⟨hlt, hd, hr⟩ := h.step
    rw [scanNextLoop, dif_pos hlt]
    simp only [hd, ne_eq, not_true, dite_false, Bool.and_eq_true, decide_eq_true_eq,
      Segmenter.interior]
    by_cases hb : graphemes.breakBefore (some p, state) c = true
    · by_cases hgt : target < off
      · exact ⟨off, by simp [hb, hgt], if_pos ⟨hb, hgt⟩⟩
      · obtain ⟨b, hf, hs⟩ := @ih _ c (state.consume (unicodeProperties c)) hr
        refine ⟨b, ?_, by rw [if_neg fun h => hgt h.2, hs]⟩
        rw [if_pos hb, List.append_assoc, List.singleton_append,
          List.find?_cons_of_neg (by simpa using hgt)]
        exact hf
    · obtain ⟨b, hf, hs⟩ := @ih _ c (state.consume (unicodeProperties c)) hr
      refine ⟨b, ?_, by rw [if_neg fun h => hb h.1, hs]⟩
      rw [if_neg hb]
      exact hf

theorem scanPreviousLoop_eq {k : Nat} (h : TextFrom text off r) (ht : target ≤ text.length) :
    scanPreviousLoop text target k (unicodeProperties p) state off =
      { byteOffset := lastBefore target k
          (graphemes.interior (some p, state) off r ++ [text.length]),
        outcome := .found } := by
  induction r generalizing off p state k with
  | nil =>
    have hend := h.length_eq
    rw [Segmenter.length_nil] at hend
    rw [scanPreviousLoop, dif_neg (by omega)]
    simp [Segmenter.interior, lastBefore, ht]
  | cons c r ih =>
    obtain ⟨hlt, hd, hr⟩ := h.step
    rw [scanPreviousLoop, dif_pos hlt]
    simp only [hd, ne_eq, not_true, dite_false, Segmenter.interior, ih hr]
    by_cases hb : graphemes.breakBefore (some p, state) c = true
    · rw [if_pos hb, if_pos (show shouldBreak _ _ _ = true from hb), List.append_assoc,
        List.singleton_append, lastBefore]
      split_ifs <;> rfl
    · rw [if_neg hb, if_neg (show ¬ shouldBreak _ _ _ = true from hb)]
      rfl

/-- A forward scan from a scalar finds the first boundary above the target among those behind
it. -/
theorem scanNextFrom_eq {c : Nat} (h : TextFrom text off (c :: r)) (ht : target < text.length) :
    ∃ b, (graphemes.later c off r).find? (fun o => decide (target < o)) = some b ∧
      scanNextFrom text off target = { byteOffset := b, outcome := .found } := by
  obtain ⟨hlt, hd, hr⟩ := h.step
  obtain ⟨b, hf, hs⟩ := @scanNextLoop_eq text _ target c r
    (GraphemeState.consume {} (unicodeProperties c)) hr ht
  refine ⟨b, ?_, ?_⟩
  · rw [← hr.length_eq] at hf
    exact hf
  · simp only [scanNextFrom, hd, ne_eq, not_true, if_false, hs]

/-- A backward scan from a scalar finds the last boundary below the target. -/
theorem scanPreviousFrom_eq {c : Nat} (h : TextFrom text off (c :: r)) (ht : target ≤ text.length) :
    scanPreviousFrom text off target =
      { byteOffset := lastBefore target off (graphemes.later c off r), outcome := .found } := by
  obtain ⟨hlt, hd, hr⟩ := h.step
  simp only [scanPreviousFrom, hd, ne_eq, not_true, if_false, scanPreviousLoop_eq hr ht]
  rw [← hr.length_eq]
  rfl

end

end Utf8

/-! ## The scalar before an offset -/

theorem skipContinuationBytes_eq {text : List UInt8} {k n : Nat}
    (hlead : isContinuationByte (text.getD k 0) = false)
    (htail : ∀ i, k < i → i ≤ k + n → isContinuationByte (text.getD i 0) = true) :
    skipContinuationBytes text (k + n) = k := by
  induction n with
  | zero =>
    cases k with
    | zero => rfl
    | succ k => rw [Nat.add_zero, skipContinuationBytes, hlead]; rfl
  | succ n ih =>
    rw [← Nat.add_assoc, skipContinuationBytes, htail _ (by omega) (by omega), if_pos rfl]
    exact ih fun i h1 h2 => htail i h1 (by omega)

/-- The first byte of an encoding is a lead byte and the others are continuation bytes. -/
theorem utf8Bytes_shape {s : Nat} (hs : isScalarValue s = true) :
    isContinuationByte ((utf8Bytes s).getD 0 0) = false ∧
      ∀ i, 0 < i → i < utf8EncodedLength s →
        isContinuationByte ((utf8Bytes s).getD i 0) = true := by
  rw [isScalarValue_iff] at hs
  have hcont : ∀ n, 0x80 ≤ n ∧ n ≤ 0xBF → isContinuationByte (UInt8.ofNat n) = true := by
    intro n hn
    rw [isContinuationByte_iff, byteValue_ofNat (by omega)]
    exact hn
  have hlead : ∀ n, n < 256 → ¬ (0x80 ≤ n ∧ n ≤ 0xBF) →
      isContinuationByte (UInt8.ofNat n) = false := by
    intro n hn hne
    rw [← Bool.not_eq_true, isContinuationByte_iff, byteValue_ofNat hn]
    exact hne
  rw [utf8EncodedLength]
  split_ifs with h1 h2 h3
  · rw [utf8Bytes_one h1]
    exact ⟨hlead _ (by omega) (by omega), fun i h h' => by omega⟩
  · rw [utf8Bytes_two (by omega) h2]
    refine ⟨hlead _ (by omega) (by omega), fun i h h' => ?_⟩
    obtain rfl : i = 1 := by omega
    exact hcont _ (by omega)
  · rw [utf8Bytes_three (by omega) h3]
    refine ⟨hlead _ (by omega) (by omega), fun i h h' => ?_⟩
    obtain rfl | rfl : i = 1 ∨ i = 2 := by omega
    all_goals exact hcont _ (by omega)
  · rw [utf8Bytes_four (by omega) hs.1]
    refine ⟨hlead _ (by omega) (by omega), fun i h h' => ?_⟩
    obtain rfl | rfl | rfl : i = 1 ∨ i = 2 ∨ i = 3 := by omega
    all_goals exact hcont _ (by omega)

/-- The bytes of a scalar in a text. -/
theorem TextFrom.getD_eq {text : List UInt8} {off s i : Nat} {ss : List Nat}
    (h : TextFrom text off (s :: ss)) (hi : i < utf8EncodedLength s) :
    text.getD (off + i) 0 = (utf8Bytes s).getD i 0 := by
  have heq : text.drop off = utf8Bytes s ++ utf8Code.encodeAll ss := h.eq
  have hi' : i < (utf8Bytes s).length := by rwa [length_utf8Bytes]
  rw [List.getD_eq_getElem?_getD, ← List.getElem?_drop, heq, List.getElem?_append_left hi',
    ← List.getD_eq_getElem?_getD]

/-- **The scalar before an offset** behind it is that scalar. -/
theorem decodePreviousUtf8Scalar_eq {text : List UInt8} {off s : Nat} {ss : List Nat}
    (h : TextFrom text off (s :: ss)) :
    decodePreviousUtf8Scalar text (off + utf8EncodedLength s) =
      { decoded := { scalar := s, bytesConsumed := utf8EncodedLength s, outcome := .decoded }
        startOffset := off } := by
  have hs : isScalarValue s = true := h.valid s List.mem_cons_self
  have hpos := utf8EncodedLength_pos s
  have hle := h.step.2.2.le
  obtain ⟨hlead, htail⟩ := utf8Bytes_shape hs
  have hskip : skipContinuationBytes text (off + utf8EncodedLength s - 1) = off := by
    rw [Nat.add_sub_assoc hpos]
    refine skipContinuationBytes_eq ?_ fun i h1 h2 => ?_
    · exact (congrArg isContinuationByte (h.getD_eq (i := 0) hpos)).trans hlead
    · obtain ⟨j, rfl⟩ := Nat.exists_eq_add_of_lt h1
      rw [Nat.add_assoc, h.getD_eq (by omega)]
      exact htail _ (by omega) (by omega)
  have heq : text.drop off = utf8Bytes s ++ utf8Code.encodeAll ss := h.eq
  have hdec := decodeUtf8Scalar_utf8Bytes hs []
  rw [List.append_nil] at hdec
  have hnz : (off + utf8EncodedLength s == 0 || decide (off + utf8EncodedLength s > text.length)) =
      false := by
    simp only [Bool.or_eq_false_iff, beq_eq_false_iff_ne, decide_eq_false_iff_not]
    omega
  rw [decodePreviousUtf8Scalar, hnz]
  simp only [hskip, Nat.add_sub_cancel_left, heq, List.take_left' (length_utf8Bytes s), hdec,
    Bool.false_eq_true, if_false, bne_self_eq_false, Bool.or_self]

end Unicode

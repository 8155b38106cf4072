import Mathlib.Data.List.Induction
import GameWIP.Unicode.Proof.GraphemePass
import GameWIP.Unicode.Proof.Utf8

/-!
# The stateless boundary queries

`nextGraphemeBoundary` and `previousGraphemeBoundary` answer without a pass over the whole text.
Their ASCII shortcuts decide from two neighbouring bytes (`nextAsciiBoundary_eq`,
`previousAsciiBoundary_eq`). Otherwise they walk back to a guaranteed break, which forgets the
context in front of it (`guaranteedBreak_restart`), and scan forwards from there. Either way the
answer is the neighbour of the offset among the boundaries of the complete pass
(`graphemeBoundary_spec`).
-/

namespace Unicode

open Lib

/-! ## ASCII bytes of a text -/

/-- A byte below 0x80 in the encoding of a scalar is the whole encoding. -/
theorem ascii_of_byte {s i : Nat} (hs : isScalarValue s = true) (hi : i < utf8EncodedLength s)
    (h : byteValue ((utf8Bytes s).getD i 0) < 0x80) : s ≤ 0x7F := by
  by_contra hgt
  obtain ⟨-, htail⟩ := utf8Bytes_shape hs
  rcases Nat.eq_zero_or_pos i with rfl | hpos
  swap
  · have := (isContinuationByte_iff _).1 (htail i hpos hi)
    omega
  rw [isScalarValue_iff] at hs
  by_cases h2 : s ≤ 0x7FF
  · rw [utf8Bytes_two (by omega) h2, List.getD_cons_zero, byteValue_ofNat (by omega)] at h
    omega
  by_cases h3 : s ≤ 0xFFFF
  · rw [utf8Bytes_three (by omega) h3, List.getD_cons_zero, byteValue_ofNat (by omega)] at h
    omega
  · rw [utf8Bytes_four (by omega) hs.1, List.getD_cons_zero, byteValue_ofNat (by omega)] at h
    omega

theorem utf8EncodedLength_ascii {s : Nat} (h : s ≤ 0x7F) : utf8EncodedLength s = 1 := by
  rw [utf8EncodedLength, if_pos h]

/-- An ASCII scalar of a text is the value of its byte. -/
theorem TextFrom.byte_ascii {text : List UInt8} {off s : Nat} {ss : List Nat}
    (h : TextFrom text off (s :: ss)) (hs : s ≤ 0x7F) : byteValue (text.getD off 0) = s := by
  have := h.getD_eq (i := 0) (utf8EncodedLength_pos s)
  rw [Nat.add_zero] at this
  rw [this, utf8Bytes_one hs, List.getD_cons_zero, byteValue_ofNat (by omega)]

/-- The first byte of a scalar below 0x80. -/
theorem TextFrom.ascii_first {text : List UInt8} {off s : Nat} {ss : List Nat}
    (h : TextFrom text off (s :: ss)) (hb : byteValue (text.getD off 0) < 0x80) : s ≤ 0x7F := by
  have := h.getD_eq (i := 0) (utf8EncodedLength_pos s)
  rw [Nat.add_zero] at this
  rw [this] at hb
  exact ascii_of_byte (h.valid s List.mem_cons_self) (utf8EncodedLength_pos s) hb

/-- The last byte of a scalar below 0x80. -/
theorem TextFrom.ascii_last {text : List UInt8} {off s : Nat} {ss : List Nat}
    (h : TextFrom text off (s :: ss))
    (hb : byteValue (text.getD (off + utf8EncodedLength s - 1) 0) < 0x80) : s ≤ 0x7F := by
  have hpos := utf8EncodedLength_pos s
  rw [Nat.add_sub_assoc hpos, h.getD_eq (by omega)] at hb
  exact ascii_of_byte (h.valid s List.mem_cons_self) (by omega) hb

namespace Utf8

/-! ## The safe restart -/

theorem ite_false_eq_true {P : Prop} [Decidable P] {b : Bool} :
    (if P then false else b) = true ↔ ¬ P ∧ b = true := by
  split_ifs <;> simp_all

theorem ite_true_eq_true {P : Prop} [Decidable P] {b : Bool} :
    (if P then true else b) = true ↔ P ∨ b = true := by
  split_ifs <;> simp_all

/-- What a guaranteed break says about the pair: no line ending, and a control on either side or
none of the joining rules, those that depend on earlier scalars included. -/
theorem isGuaranteedBreak_iff {p c : UnicodeProperties} :
    isGuaranteedBreak p c = true ↔
      ¬ (p.graphemeBreak = .cr ∧ c.graphemeBreak = .lf) ∧
      ((isControlClass p.graphemeBreak = true ∨ isControlClass c.graphemeBreak = true) ∨
        ¬ (p.graphemeBreak = .l ∧ (c.graphemeBreak = .l ∨ c.graphemeBreak = .v ∨
          c.graphemeBreak = .lv ∨ c.graphemeBreak = .lvt)) ∧
        ¬ ((p.graphemeBreak = .lv ∨ p.graphemeBreak = .v) ∧
          (c.graphemeBreak = .v ∨ c.graphemeBreak = .t)) ∧
        ¬ ((p.graphemeBreak = .lvt ∨ p.graphemeBreak = .t) ∧ c.graphemeBreak = .t) ∧
        ¬ (c.graphemeBreak = .extend ∨ c.graphemeBreak = .zwj ∨ c.graphemeBreak = .spacingMark ∨
          p.graphemeBreak = .prepend) ∧
        ¬ (c.indicConjunctBreak = .consonant ∨ c.extendedPictographic = true ∨
          (p.graphemeBreak = .regionalIndicator ∧ c.graphemeBreak = .regionalIndicator))) := by
  unfold isGuaranteedBreak
  simp only [ite_false_eq_true, ite_true_eq_true, Bool.and_eq_true, Bool.or_eq_true, beq_iff_eq,
    or_assoc, and_true]

/-- At a guaranteed break every rule leaves the boundary. -/
theorem shouldBreak_of_guaranteed {p c : UnicodeProperties} (st : GraphemeState)
    (h : isGuaranteedBreak p c = true) : shouldBreak p c st = true := by
  obtain ⟨h3, hctl | ⟨h6, h7, h8, h9, hstate⟩⟩ := isGuaranteedBreak_iff.1 h
  · unfold shouldBreak
    simp only [Bool.and_eq_true, Bool.or_eq_true, beq_iff_eq, if_neg h3, if_pos hctl]
  · simp only [not_or] at h9 hstate
    unfold shouldBreak
    simp only [Bool.and_eq_true, Bool.or_eq_true, beq_iff_eq, or_assoc, if_neg h3, if_neg h6,
      if_neg h7, if_neg h8, h9, hstate, false_and, false_or, if_false]
    simp

/-- An extending scalar behind a guaranteed break stands behind a control. -/
theorem control_of_guaranteed {p c : UnicodeProperties} (h : isGuaranteedBreak p c = true)
    (hc : c.graphemeBreak = .extend ∨ c.graphemeBreak = .zwj ∨ c.graphemeBreak = .spacingMark) :
    isControlClass p.graphemeBreak = true := by
  obtain ⟨-, (hp | hcc) | ⟨-, -, -, h9, -⟩⟩ := isGuaranteedBreak_iff.1 h
  · exact hp
  · rcases hc with hc | hc | hc <;> · rw [hc] at hcc; cases hcc
  · exact absurd (by rcases hc with hc | hc | hc <;> simp [hc]) h9

/-- A flag never continues across a guaranteed break. -/
theorem regional_of_guaranteed {p c : UnicodeProperties} (h : isGuaranteedBreak p c = true)
    (hc : c.graphemeBreak = .regionalIndicator) : p.graphemeBreak ≠ .regionalIndicator := by
  intro hp
  obtain ⟨-, hctl | ⟨-, -, -, -, hstate⟩⟩ := isGuaranteedBreak_iff.1 h
  · rw [hp, hc] at hctl
    rcases hctl with hctl | hctl <;> cases hctl
  · exact hstate (.inr (.inr ⟨hp, hc⟩))

/-- Behind a control the context is empty. -/
theorem consume_control (st : GraphemeState) {p : Nat}
    (h : isControlClass (unicodeProperties p).graphemeBreak = true) :
    GraphemeState.consume st (unicodeProperties p) = {} := by
  obtain ⟨hin, hpict⟩ := control_stateless p h
  unfold GraphemeState.consume
  rw [hin, hpict]
  revert h
  cases (unicodeProperties p).graphemeBreak <;> simp [isControlClass]

/-- **A guaranteed break forgets the context.** Whatever stood in front of the previous scalar, a
segment ends before the current one, and the context behind it is the one of a fresh start. -/
theorem guaranteedBreak_restart {p c : Nat} (st : GraphemeState)
    (h : isGuaranteedBreak (unicodeProperties p) (unicodeProperties c) = true) :
    graphemes.Restart (some p, GraphemeState.consume st (unicodeProperties p)) c := by
  refine ⟨shouldBreak_of_guaranteed _ h, Prod.ext rfl ?_⟩
  change GraphemeState.consume (st.consume (unicodeProperties p)) (unicodeProperties c) =
    GraphemeState.consume {} (unicodeProperties c)
  by_cases hp : isControlClass (unicodeProperties p).graphemeBreak = true
  · rw [consume_control st hp]
  -- no control in front: the current scalar neither extends, links nor joins, so that the parts
  -- of the context it could take over do not matter
  have hext := mt (control_of_guaranteed h) hp
  simp only [not_or] at hext
  have hin : ¬ ((unicodeProperties c).indicConjunctBreak = .extend ∨
      (unicodeProperties c).indicConjunctBreak = .linker) := by
    intro hin
    have := conjunct_graphemeBreak c hin
    simp [hext] at this
  have hri : (unicodeProperties c).graphemeBreak = .regionalIndicator →
      (GraphemeState.consume st (unicodeProperties p)).regionalIndicatorCount = 0 := by
    intro hc
    simp [GraphemeState.consume, regional_of_guaranteed h hc]
  generalize GraphemeState.consume st (unicodeProperties p) = carried at hri ⊢
  unfold GraphemeState.consume
  rw [GraphemeState.mk.injEq]
  refine ⟨?_, ?_, ?_⟩
  · revert hin
    cases (unicodeProperties c).indicConjunctBreak <;> simp
  · simp [hext]
  · by_cases hc : (unicodeProperties c).graphemeBreak = .regionalIndicator
    · simp [hc, hri hc]
    · simp [hc]

theorem findSafeRestartFrom_spec {text : List UInt8} {ss : List Nat} (so : Nat)
    (hv : utf8Code.Valid ss) (ht : text = utf8Code.encodeAll ss) {l r : List Nat} {c : Nat}
    (hss : ss = l ++ c :: r) :
    ∃ l' c' r', ss = l' ++ c' :: r' ∧ graphemes.length l' ≤ graphemes.length l ∧
      graphemes.Restart (graphemes.read graphemes.initial l') c' ∧
      findSafeRestartFrom text so (graphemes.length l) =
        { byteOffset := graphemes.length l', valid := true } := by
  induction l using List.reverseRecOn generalizing c r with
  | nil =>
    refine ⟨[], c, r, hss, Nat.le_refl _, graphemes.restart_initial c, ?_⟩
    rw [findSafeRestartFrom, dif_neg (by simp)]
    rfl
  | append_singleton l p ih =>
    subst ht hss
    have hcur := (TextFrom.of_encodeAll (l := l ++ [p]) (r := c :: r) hv).step
    have hv' : utf8Code.Valid (l ++ p :: c :: r) := by simpa using hv
    have hprev := decodePreviousUtf8Scalar_eq (TextFrom.of_encodeAll (l := l) hv')
    have hlen : graphemes.length (l ++ [p]) = graphemes.length l + utf8EncodedLength p := by simp
    have hpos := utf8EncodedLength_pos p
    rw [List.append_cons, ← hlen] at hprev
    rw [findSafeRestartFrom, dif_pos (by omega)]
    simp only [hcur.2.1, hprev, ne_eq, not_true, if_false, dite_false]
    by_cases hb : isGuaranteedBreak (unicodeProperties p) (unicodeProperties c) = true
    · refine ⟨l ++ [p], c, r, rfl, Nat.le_refl _, ?_, by rw [if_pos hb]⟩
      rw [Segmenter.read_append]
      exact guaranteedBreak_restart _ hb
    · obtain ⟨l', c', r', he, hle, hres, heq⟩ := ih (c := p) (r := c :: r) (by simp)
      exact ⟨l', c', r', he, by omega, hres, by rw [if_neg hb, heq]⟩

/-! ## Neighbouring ASCII scalars -/

theorem unicodeProperties_ascii {s : Nat} (h : s ≤ 0x7F) :
    unicodeProperties s = asciiProperties s := by
  rw [unicodeProperties, if_pos h]

theorem isControlClass_ascii {s : Nat} (h : s ≤ 0x1F ∨ s = 0x7F) :
    isControlClass (unicodeProperties s).graphemeBreak = true := by
  rw [unicodeProperties_ascii (by omega), asciiProperties]
  split_ifs with h1 h2 h3
  · rfl
  · rfl
  · rfl
  · simp only [Bool.or_eq_true, decide_eq_true_eq, beq_iff_eq, not_or] at h3
    omega

/-- GB4 and GB5. -/
theorem shouldBreak_control {p c : UnicodeProperties} (st : GraphemeState)
    (h3 : ¬ (p.graphemeBreak = .cr ∧ c.graphemeBreak = .lf))
    (hctl : isControlClass p.graphemeBreak = true ∨ isControlClass c.graphemeBreak = true) :
    shouldBreak p c st = true := by
  unfold shouldBreak
  simp only [Bool.and_eq_true, Bool.or_eq_true, beq_iff_eq, if_neg h3, if_pos hctl]

/-- Between two ASCII scalars there is a boundary, unless they are one line ending. -/
theorem shouldBreak_ascii {p c : Nat} (st : GraphemeState) (hp : p ≤ 0x7F) (hc : c ≤ 0x7F)
    (h : ¬ (p = 0x0D ∧ c = 0x0A)) :
    shouldBreak (unicodeProperties p) (unicodeProperties c) st = true := by
  have hcr : (asciiProperties p).graphemeBreak = .cr → p = 0x0D := by
    unfold asciiProperties
    split_ifs <;> simp_all
  have hlf := eq_lineFeed c
  have h3 : ¬ ((unicodeProperties p).graphemeBreak = .cr ∧
      (unicodeProperties c).graphemeBreak = .lf) := fun hx =>
    h ⟨hcr (unicodeProperties_ascii hp ▸ hx.1), hlf hx.2⟩
  by_cases hctl : isControlClass (unicodeProperties p).graphemeBreak = true ∨
      isControlClass (unicodeProperties c).graphemeBreak = true
  · exact shouldBreak_control st h3 hctl
  · -- neither is a control, so both have the default properties
    have hplain : ∀ {s : Nat}, s ≤ 0x7F →
        ¬ isControlClass (unicodeProperties s).graphemeBreak = true → unicodeProperties s = {} := by
      intro s hs
      rw [unicodeProperties_ascii hs]
      unfold asciiProperties
      split_ifs <;> simp [isControlClass]
    rw [not_or] at hctl
    rw [hplain hp hctl.1, hplain hc hctl.2]
    rfl

/-- A boundary between two scalars of a text. -/
theorem mem_boundaries_of_break {l r : List Nat} {p c : Nat}
    (h : ∀ st, shouldBreak (unicodeProperties p) (unicodeProperties c) st = true) :
    graphemes.length (l ++ [p]) ∈ graphemes.boundaries (l ++ p :: c :: r) := by
  rw [List.append_cons, Segmenter.mem_boundaries_cut, Segmenter.read_append]
  exact h _

/-- No boundary inside a line ending. -/
theorem not_mem_boundaries_lineEnding {l r : List Nat} :
    graphemes.length (l ++ [0x0D]) ∉ graphemes.boundaries (l ++ 0x0D :: 0x0A :: r) := by
  rw [List.append_cons, Segmenter.mem_boundaries_cut, Segmenter.read_append]
  exact Bool.false_ne_true

/-- A boundary behind a line feed. -/
theorem mem_boundaries_lineFeed {l r : List Nat} :
    graphemes.length (l ++ [0x0A]) ∈ graphemes.boundaries (l ++ 0x0A :: r) := by
  rcases r with _ | ⟨d, r⟩
  · exact graphemes.length_mem_boundaries _
  · exact mem_boundaries_of_break fun st =>
      shouldBreak_control st (fun h => nomatch h.1) (.inl rfl)

/-- A boundary in front of a carriage return. -/
theorem mem_boundaries_carriageReturn {l r : List Nat} :
    graphemes.length l ∈ graphemes.boundaries (l ++ 0x0D :: r) := by
  obtain rfl | ⟨l, q, rfl⟩ := l.eq_nil_or_concat
  · exact graphemes.zero_mem_boundaries _
  · rw [List.concat_eq_append, List.append_assoc, List.singleton_append]
    exact mem_boundaries_of_break fun st =>
      shouldBreak_control st (fun h => nomatch h.2) (.inr rfl)

section
variable {text : List UInt8} {l r : List Nat} {c p : Nat}

/-- The forward shortcut finds the next boundary. -/
theorem nextAsciiBoundary_eq (hv : utf8Code.Valid (l ++ c :: r))
    (ht : text = utf8Code.encodeAll (l ++ c :: r))
    (hf : (nextAsciiBoundary text (graphemes.length l)).outcome = .found) :
    ∃ b, nextAsciiBoundary text (graphemes.length l) = { byteOffset := b, outcome := .found } ∧
      IsLeast {o | o ∈ graphemes.boundaries (l ++ c :: r) ∧ graphemes.length l < o} b := by
  have hfrom : TextFrom text (graphemes.length l) (c :: r) := ht ▸ TextFrom.of_encodeAll hv
  unfold nextAsciiBoundary at hf ⊢
  dsimp only at hf ⊢
  split_ifs at hf ⊢ with hge hprev hcrlf hplain
  all_goals have hc : c ≤ 0x7F := hfrom.ascii_first (by omega)
  all_goals have hbyte := hfrom.byte_ascii hc
  all_goals have hnext := hfrom.step.2.2
  all_goals rw [utf8EncodedLength_ascii hc] at hnext
  · -- a line ending: the boundary inside it is missing
    simp only [Bool.and_eq_true, beq_iff_eq, decide_eq_true_eq] at hcrlf
    obtain ⟨⟨h0D, hlt⟩, h0A⟩ := hcrlf
    obtain rfl : c = 0x0D := hbyte.symm.trans h0D
    rcases r with _ | ⟨d, r⟩
    · have := hnext.length_eq
      rw [Segmenter.length_nil] at this
      omega
    have hd : d ≤ 0x7F := hnext.ascii_first (by rw [h0A]; decide)
    obtain rfl : d = 0x0A := by rw [← hnext.byte_ascii hd, h0A]; rfl
    have hlen : graphemes.length (l ++ [0x0D] ++ [0x0A]) = graphemes.length l + 2 := by
      simp [utf8EncodedLength_ascii]
    refine ⟨_, rfl, ?_⟩
    apply Segmenter.least_skip _ not_mem_boundaries_lineEnding
    rw [List.append_cons, ← hlen]
    exact Segmenter.least_next _ mem_boundaries_lineFeed
  · have hlen : graphemes.length (l ++ [c]) = graphemes.length l + 1 := by
      simp [utf8EncodedLength_ascii hc]
    refine ⟨_, rfl, ?_⟩
    rw [← hlen]
    apply Segmenter.least_next
    rcases r with _ | ⟨d, r⟩
    · exact graphemes.length_mem_boundaries _
    refine mem_boundaries_of_break fun st => ?_
    have hlt := hnext.step.1
    have hcrlf : ¬ (c = 0x0D ∧ d = 0x0A) := by
      rintro ⟨rfl, rfl⟩
      refine hcrlf ?_
      have h0A : text.getD (graphemes.length l + 1) 0 = 0x0A :=
        UInt8.toNat_inj.1 (hnext.byte_ascii (by decide))
      simp only [Bool.and_eq_true, beq_iff_eq, decide_eq_true_eq]
      exact ⟨⟨hbyte, hlt⟩, h0A⟩
    simp only [Bool.or_eq_true, decide_eq_true_eq, beq_iff_eq, hbyte] at hplain
    by_cases hd : d ≤ 0x7F
    · exact shouldBreak_ascii st hc hd hcrlf
    · -- a control in front of a scalar that is not ASCII
      have hctl : c ≤ 0x1F ∨ c = 0x7F := by
        rcases hplain with hctl | hlast | hascii
        · exact hctl
        · omega
        · exact absurd (hnext.ascii_first hascii) hd
      refine shouldBreak_control st (fun h => ?_) (.inl (isControlClass_ascii hctl))
      have := eq_lineFeed d h.2
      omega

/-- The backward shortcut finds the previous boundary. -/
theorem previousAsciiBoundary_eq (hv : utf8Code.Valid (l ++ p :: r))
    (ht : text = utf8Code.encodeAll (l ++ p :: r))
    (hf : (previousAsciiBoundary text (graphemes.length (l ++ [p]))).outcome = .found) :
    ∃ b, previousAsciiBoundary text (graphemes.length (l ++ [p])) =
        { byteOffset := b, outcome := .found } ∧
      IsGreatest {o | o ∈ graphemes.boundaries (l ++ p :: r) ∧
        o < graphemes.length (l ++ [p])} b := by
  have hfrom : TextFrom text (graphemes.length l) (p :: r) := ht ▸ TextFrom.of_encodeAll hv
  have hlen : graphemes.length (l ++ [p]) = graphemes.length l + utf8EncodedLength p := by simp
  unfold previousAsciiBoundary at hf ⊢
  dsimp only at hf ⊢
  split_ifs at hf ⊢ with hge hcrlf hplain
  all_goals have hp : p ≤ 0x7F := hfrom.ascii_last (by rw [← hlen]; omega)
  all_goals have hbyte := hfrom.byte_ascii hp
  all_goals rw [utf8EncodedLength_ascii hp] at hlen
  all_goals have hoff : graphemes.length (l ++ [p]) - 1 = graphemes.length l := by omega
  all_goals rw [hoff] at hcrlf ⊢
  · -- a line ending: the boundary inside it is missing
    simp only [Bool.and_eq_true, beq_iff_eq, decide_eq_true_eq] at hcrlf
    obtain ⟨⟨h0A, hpos⟩, h0D⟩ := hcrlf
    obtain rfl : p = 0x0A := hbyte.symm.trans h0A
    obtain rfl | ⟨l, q, rfl⟩ := l.eq_nil_or_concat
    · cases hpos
    rw [List.concat_eq_append] at *
    have hq : TextFrom text (graphemes.length l) (q :: 0x0A :: r) := by
      rw [ht, List.append_assoc]
      exact TextFrom.of_encodeAll (by rwa [List.append_assoc] at hv)
    have hlq : graphemes.length (l ++ [q]) = graphemes.length l + utf8EncodedLength q := by simp
    have hq7 : q ≤ 0x7F := hq.ascii_last (by rw [← hlq, h0D]; decide)
    rw [utf8EncodedLength_ascii hq7] at hlq
    rw [hlq, Nat.add_sub_cancel] at h0D ⊢
    obtain rfl : q = 0x0D := by rw [← hq.byte_ascii hq7, h0D]; rfl
    refine ⟨_, rfl, ?_⟩
    apply Segmenter.greatest_skip
    · rw [List.append_assoc]
      exact not_mem_boundaries_lineEnding
    · rw [List.append_assoc]
      exact Segmenter.greatest_previous _ mem_boundaries_carriageReturn
  · rw [hoff] at hplain
    refine ⟨_, rfl, ?_⟩
    apply Segmenter.greatest_previous
    obtain rfl | ⟨l, q, rfl⟩ := l.eq_nil_or_concat
    · exact graphemes.zero_mem_boundaries _
    rw [List.concat_eq_append] at *
    have hq : TextFrom text (graphemes.length l) (q :: p :: r) := by
      rw [ht, List.append_assoc]
      exact TextFrom.of_encodeAll (by rwa [List.append_assoc] at hv)
    have hlq : graphemes.length (l ++ [q]) = graphemes.length l + utf8EncodedLength q := by simp
    have hqpos := utf8EncodedLength_pos q
    simp only [Bool.or_eq_true, beq_iff_eq, decide_eq_true_eq] at hplain
    have hq7 : q ≤ 0x7F := hq.ascii_last (by rw [← hlq]; omega)
    have hne : ¬ (q = 0x0D ∧ p = 0x0A) := by
      rintro ⟨rfl, rfl⟩
      refine hcrlf ?_
      have h0D : text.getD (graphemes.length l) 0 = 0x0D :=
        UInt8.toNat_inj.1 (hq.byte_ascii (by decide))
      rw [utf8EncodedLength_ascii hq7] at hlq
      simp only [Bool.and_eq_true, beq_iff_eq, decide_eq_true_eq]
      exact ⟨⟨hbyte, by omega⟩, by rw [hlq, Nat.add_sub_cancel, h0D]⟩
    rw [List.append_assoc]
    exact mem_boundaries_of_break fun st => shouldBreak_ascii st hq7 hp hne

end

/-! ## The queries -/

/-- The offset stands between two encoded scalars, or at an end of the text. -/
def CodePointAligned (text : List UInt8) (o : Nat) : Prop :=
  o ≤ text.length ∧ IsText (text.take o)

/-- An aligned offset cuts the scalars of the text. -/
theorem CodePointAligned.exists_cut {ss : List Nat} {o : Nat} (hv : utf8Code.Valid ss)
    (h : CodePointAligned (utf8Code.encodeAll ss) o) :
    ∃ l r, ss = l ++ r ∧ o = graphemes.length l := by
  obtain ⟨ts, hts, he⟩ := isText_iff.1 h.2
  have hp : utf8Code.encodeAll ts <+: utf8Code.encodeAll ss ++ [] := by
    rw [← he, List.append_nil]
    exact List.take_prefix _ _
  obtain ⟨r, rfl⟩ := PrefixCode.encodeAll_prefix_of_stuck PrefixCode.stuck_nil hv hts hp
  refine ⟨ts, r, rfl, ?_⟩
  rw [← length_encodeAll, ← he, List.length_take_of_le h.1]

section
variable {text : List UInt8} {l r : List Nat} {c p : Nat}

/-- In front of a scalar the query finds the next boundary of the complete pass. -/
theorem nextGraphemeBoundary_eq (hv : utf8Code.Valid (l ++ c :: r))
    (ht : text = utf8Code.encodeAll (l ++ c :: r)) :
    ∃ b, nextGraphemeBoundary text (graphemes.length l) =
        { byteOffset := b, outcome := .found } ∧
      IsLeast {o | o ∈ graphemes.boundaries (l ++ c :: r) ∧ graphemes.length l < o} b := by
  have hfrom : TextFrom text (graphemes.length l) (c :: r) := ht ▸ TextFrom.of_encodeAll hv
  have hlt := hfrom.step.1
  have hlead : isContinuationByte (text.getD (graphemes.length l) 0) = false := by
    have := hfrom.getD_eq (i := 0) (utf8EncodedLength_pos c)
    rw [Nat.add_zero] at this
    rw [this]
    exact (utf8Bytes_shape (hfrom.valid c List.mem_cons_self)).1
  rw [nextGraphemeBoundary, if_neg (by omega), hlead, Bool.and_false, if_neg Bool.false_ne_true,
    if_neg (by rw [beq_iff_eq]; omega)]
  dsimp only
  split_ifs with hascii hrestart
  · rw [Bool.and_eq_true, beq_iff_eq] at hascii
    exact nextAsciiBoundary_eq hv ht hascii.2
  all_goals obtain ⟨l', c', r', he, hle, hres, heq⟩ :=
    findSafeRestartFrom_spec (graphemes.length l) hv ht rfl
  · rw [findSafeRestart, heq] at hrestart
    cases hrestart
  · rw [findSafeRestart, heq]
    rw [he] at hv ht ⊢
    have hfrom' : TextFrom text (graphemes.length l') (c' :: r') :=
      ht ▸ TextFrom.of_encodeAll hv
    obtain ⟨b, hf, hs⟩ := scanNextFrom_eq hfrom' hlt
    have hp := graphemes.boundaries_pairwise (l' ++ c' :: r')
    rw [graphemes.boundaries_restart hres] at hp ⊢
    exact ⟨b, hs, least_after hp hle hf⟩

/-- Behind a scalar the query finds the previous boundary of the complete pass. -/
theorem previousGraphemeBoundary_eq (hv : utf8Code.Valid (l ++ p :: r))
    (ht : text = utf8Code.encodeAll (l ++ p :: r)) :
    ∃ b, previousGraphemeBoundary text (graphemes.length (l ++ [p])) =
        { byteOffset := b, outcome := .found } ∧
      IsGreatest {o | o ∈ graphemes.boundaries (l ++ p :: r) ∧
        o < graphemes.length (l ++ [p])} b := by
  have hfrom : TextFrom text (graphemes.length l) (p :: r) := ht ▸ TextFrom.of_encodeAll hv
  have hlen : graphemes.length (l ++ [p]) = graphemes.length l + utf8EncodedLength p := by simp
  have hpos := utf8EncodedLength_pos p
  have hbehind : TextFrom text (graphemes.length (l ++ [p])) r := hlen ▸ hfrom.step.2.2
  have hlead : (decide (graphemes.length (l ++ [p]) < text.length) &&
      isContinuationByte (text.getD (graphemes.length (l ++ [p])) 0)) = false := by
    rcases r with _ | ⟨c, r⟩
    · have := hbehind.length_eq
      rw [Segmenter.length_nil] at this
      rw [decide_eq_false (by omega), Bool.false_and]
    · have := hbehind.getD_eq (i := 0) (utf8EncodedLength_pos c)
      rw [Nat.add_zero] at this
      rw [this, (utf8Bytes_shape (hbehind.valid c List.mem_cons_self)).1, Bool.and_false]
  have hprev := decodePreviousUtf8Scalar_eq hfrom
  rw [← hlen] at hprev
  have hle := hbehind.le
  rw [previousGraphemeBoundary, if_neg (by omega), hlead, if_neg Bool.false_ne_true,
    if_neg (by rw [beq_iff_eq]; omega)]
  simp only [hprev, ne_eq, not_true, if_false]
  split_ifs with hascii hrestart
  · rw [Bool.and_eq_true, beq_iff_eq] at hascii
    exact previousAsciiBoundary_eq hv ht hascii.2
  all_goals obtain ⟨l', c', r', he, hle', hres, heq⟩ :=
    findSafeRestartFrom_spec (graphemes.length l) hv ht rfl
  · rw [findSafeRestart, heq] at hrestart
    cases hrestart
  · rw [findSafeRestart, heq]
    rw [he] at hv ht ⊢
    have hfrom' : TextFrom text (graphemes.length l') (c' :: r') :=
      ht ▸ TextFrom.of_encodeAll hv
    have hp := graphemes.boundaries_pairwise (l' ++ c' :: r')
    rw [graphemes.boundaries_restart hres] at hp ⊢
    exact ⟨_, scanPreviousFrom_eq hfrom' hle, greatest_before hp (by omega)⟩

end

/-- **The stateless queries.** At every code-point-aligned offset of a valid text, the queries find
the least boundary of the complete pass above the offset and the greatest one below it, except at
the ends of the text, which they report as such. -/
theorem graphemeBoundary_spec {text : List UInt8} {o : Nat}
    (h : (validate text).outcome = .valid) (ho : CodePointAligned text o) :
    (o = text.length → nextGraphemeBoundary text o = { byteOffset := o, outcome := .atEnd }) ∧
    (o ≠ text.length → ∃ b, nextGraphemeBoundary text o = { byteOffset := b, outcome := .found } ∧
      IsLeast {x | x ∈ (visitGraphemeBoundaries text).1 ∧ o < x} b) ∧
    (o = 0 → previousGraphemeBoundary text o = { byteOffset := 0, outcome := .atBeginning }) ∧
    (o ≠ 0 → ∃ b, previousGraphemeBoundary text o = { byteOffset := b, outcome := .found } ∧
      IsGreatest {x | x ∈ (visitGraphemeBoundaries text).1 ∧ x < o} b) := by
  refine ⟨fun he => by simp [nextGraphemeBoundary, he, h], ?_⟩
  obtain ⟨ss, hv, rfl⟩ := validate_valid_iff.1 h
  obtain ⟨l, r, rfl, rfl⟩ := ho.exists_cut hv
  rw [visitGraphemeBoundaries_eq hv]
  refine ⟨fun hne => ?_, fun he => ?_, fun hne => ?_⟩
  · rcases r with _ | ⟨c, r⟩
    · rw [List.append_nil, length_encodeAll] at hne
      exact absurd rfl hne
    · exact nextGraphemeBoundary_eq hv rfl
  · obtain rfl := graphemes.length_eq_zero.1 he
    rcases r with _ | ⟨c, r⟩
    · rfl
    have hfrom : TextFrom (utf8Code.encodeAll ([] ++ c :: r)) 0 (c :: r) :=
      TextFrom.of_encodeAll (l := []) hv
    have hlead := (utf8Bytes_shape (hfrom.valid c List.mem_cons_self)).1
    have hbyte := hfrom.getD_eq (i := 0) (utf8EncodedLength_pos c)
    rw [Nat.add_zero] at hbyte
    rw [← hbyte] at hlead
    rw [Segmenter.length_nil, previousGraphemeBoundary, if_neg (by omega), hlead]
    simp
  · obtain rfl | ⟨l, p, rfl⟩ := l.eq_nil_or_concat
    · exact absurd rfl hne
    rw [List.concat_eq_append, List.append_assoc, List.singleton_append] at *
    exact previousGraphemeBoundary_eq hv rfl

/-- The letter "e" with a combining accent, in front of another letter. -/
theorem graphemeBoundary_accent :
    ∃ b, previousGraphemeBoundary [0x65, 0xCC, 0x81, 0x78] 3 =
        { byteOffset := b, outcome := .found } ∧
      IsGreatest {x | x ∈ (visitGraphemeBoundaries [0x65, 0xCC, 0x81, 0x78]).1 ∧ x < 3} b :=
  (graphemeBoundary_spec (by decide +kernel)
    ⟨by decide, [0x65, 0x301], by decide, by decide +kernel⟩).2.2.2 (by decide)

end Utf8

end Unicode

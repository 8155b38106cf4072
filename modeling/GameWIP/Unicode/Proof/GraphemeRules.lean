import Mathlib.Algebra.Group.Nat.Even
import Mathlib.Data.List.Induction
import GameWIP.Unicode.Proof.GraphemePass
import GameWIP.Unicode.Proof.Utf8

/-!
# The grapheme rules

The rules GB1 to GB999 as statements about the scalars in front of a place and the scalar behind
it, without a state: `NoBreak`. The streaming context of the code says which of the look-behind
patterns the scalars read so far end in (`Describes`), so that `shouldBreak` decides the rules
(`shouldBreak_eq_false_iff`) and the complete pass visits exactly the boundaries
(`visitGraphemeBoundaries_spec`).
-/

namespace Unicode

open Lib

/-! ## The rules as statements -/

/-- Grapheme_Cluster_Break. -/
def gcb (s : Nat) : GraphemeBreakClass := (unicodeProperties s).graphemeBreak

/-- Indic_Conjunct_Break. -/
def inCB (s : Nat) : IndicConjunctBreakClass := (unicodeProperties s).indicConjunctBreak

/-- Extended_Pictographic. -/
def extPict (s : Nat) : Prop := (unicodeProperties s).extendedPictographic = true

/-- Control, CR or LF. -/
def IsControl (s : Nat) : Prop := gcb s = .control ∨ gcb s = .cr ∨ gcb s = .lf

/-- The list ends in a scalar with `P` (which may look at what stands before it) and then only
scalars with `Q`. -/
def Since (P : List Nat → Nat → Prop) (Q : Nat → Prop) (l : List Nat) : Prop :=
  ∃ a s m, l = a ++ s :: m ∧ P a s ∧ ∀ x ∈ m, Q x

/-- Extend or Linker, as Indic_Conjunct_Break. -/
def ConjunctExtender (s : Nat) : Prop := inCB s = .extend ∨ inCB s = .linker

/-- Ends in Consonant [Extend|Linker]*. -/
def EndsInConjunct (l : List Nat) : Prop :=
  Since (fun _ s => inCB s = .consonant) ConjunctExtender l

/-- Ends in Consonant [Extend|Linker]* Linker [Extend|Linker]*. -/
def EndsInLinkedConjunct (l : List Nat) : Prop :=
  Since (fun a s => inCB s = .linker ∧ EndsInConjunct a) ConjunctExtender l

/-- Ends in Extended_Pictographic Extend*. -/
def EndsInPictograph (l : List Nat) : Prop := Since (fun _ s => extPict s) (gcb · = .extend) l

/-- Ends in Extended_Pictographic Extend* ZWJ. -/
def EndsInJoinedPictograph (l : List Nat) : Prop :=
  ∃ a z, l = a ++ [z] ∧ gcb z = .zwj ∧ EndsInPictograph a

/-- The number of Regional_Indicators at the end. -/
def regionalRun (l : List Nat) : Nat :=
  (l.reverse.takeWhile fun s => gcb s = .regionalIndicator).length

/-- No boundary between `p` and `c`, when `l` stands before `p`. -/
def NoBreak (l : List Nat) (p c : Nat) : Prop :=
  -- GB3
  (gcb p = .cr ∧ gcb c = .lf) ∨
  -- GB4, GB5
  (¬ IsControl p ∧ ¬ IsControl c ∧
    -- GB6, GB7, GB8
    ((gcb p = .l ∧ (gcb c = .l ∨ gcb c = .v ∨ gcb c = .lv ∨ gcb c = .lvt)) ∨
      ((gcb p = .lv ∨ gcb p = .v) ∧ (gcb c = .v ∨ gcb c = .t)) ∨
      ((gcb p = .lvt ∨ gcb p = .t) ∧ gcb c = .t) ∨
      -- GB9, GB9a, GB9b
      (gcb c = .extend ∨ gcb c = .zwj) ∨ gcb c = .spacingMark ∨ gcb p = .prepend ∨
      -- GB9c
      (inCB c = .consonant ∧ EndsInLinkedConjunct (l ++ [p])) ∨
      -- GB11
      (extPict c ∧ EndsInJoinedPictograph (l ++ [p])) ∨
      -- GB12, GB13
      (gcb p = .regionalIndicator ∧ gcb c = .regionalIndicator ∧ Even (regionalRun l))))

/-- The offset stands at the start or the end of the text (GB1, GB2), or between two scalars where
no rule forbids a boundary (GB999). -/
def IsGraphemeBoundary (ss : List Nat) (o : Nat) : Prop :=
  ∃ a b, ss = a ++ b ∧ o = (a.flatMap Utf8.encoded).length ∧
    ∀ l p c r, a = l ++ [p] → b = c :: r → ¬ NoBreak l p c

/-! ## The patterns, one scalar later -/

theorem since_append {P : List Nat → Nat → Prop} {Q : Nat → Prop} {l : List Nat} {s : Nat} :
    Since P Q (l ++ [s]) ↔ P l s ∨ (Q s ∧ Since P Q l) := by
  constructor
  · rintro ⟨a, x, m, he, hP, hQ⟩
    obtain rfl | ⟨m, y, rfl⟩ := m.eq_nil_or_concat
    · obtain ⟨rfl, hs⟩ := List.append_inj' he rfl
      obtain rfl := List.singleton_inj.1 hs
      exact .inl hP
    · rw [List.concat_eq_append, ← List.cons_append, ← List.append_assoc] at he
      obtain ⟨rfl, hs⟩ := List.append_inj' he rfl
      obtain rfl := List.singleton_inj.1 hs
      exact .inr ⟨hQ _ (by simp), a, x, m, rfl, hP, fun z hz => hQ z (by simp [hz])⟩
  · rintro (hP | ⟨hQ, a, x, m, rfl, hP, hm⟩)
    · exact ⟨l, s, [], rfl, hP, by simp⟩
    · refine ⟨a, x, m ++ [s], by simp, hP, fun z hz => ?_⟩
      rw [List.mem_append, List.mem_singleton] at hz
      rcases hz with hz | rfl
      · exact hm z hz
      · exact hQ

theorem since_nil {P : List Nat → Nat → Prop} {Q : Nat → Prop} : ¬ Since P Q [] := by
  rintro ⟨a, s, m, he, -⟩
  simp at he

theorem endsInJoinedPictograph_append {l : List Nat} {s : Nat} :
    EndsInJoinedPictograph (l ++ [s]) ↔ gcb s = .zwj ∧ EndsInPictograph l := by
  constructor
  · rintro ⟨a, z, he, hz, ha⟩
    obtain ⟨rfl, hs⟩ := List.append_inj' he rfl
    obtain rfl := List.singleton_inj.1 hs
    exact ⟨hz, ha⟩
  · rintro ⟨hs, hl⟩
    exact ⟨l, s, rfl, hs, hl⟩

theorem endsInJoinedPictograph_nil : ¬ EndsInJoinedPictograph [] := by
  rintro ⟨a, z, he, -⟩
  simp at he

theorem regionalRun_append (l : List Nat) (s : Nat) :
    regionalRun (l ++ [s]) = if gcb s = .regionalIndicator then regionalRun l + 1 else 0 := by
  unfold regionalRun
  rw [List.reverse_append, List.reverse_singleton, List.singleton_append, List.takeWhile_cons]
  split_ifs <;> simp_all

/-! ## The streaming context -/

/-- The context says which look-behind patterns the scalars read so far end in. -/
structure Describes (state : Utf8.GraphemeState) (l : List Nat) : Prop where
  conjunct : state.indic ≠ .none ↔ EndsInConjunct l
  linked : state.indic = .linked ↔ EndsInLinkedConjunct l
  pictograph : state.emoji = .extendedPictographic ↔ EndsInPictograph l
  joined : state.emoji = .extendedPictographicZwj ↔ EndsInJoinedPictograph l
  regional : state.regionalIndicatorCount = regionalRun l

theorem describes_nil : Describes {} [] where
  conjunct := iff_of_false (fun h => h rfl) since_nil
  linked := iff_of_false (by decide) since_nil
  pictograph := iff_of_false (by decide) since_nil
  joined := iff_of_false (by decide) endsInJoinedPictograph_nil
  regional := rfl

/-- One scalar later the context describes one scalar more. -/
theorem Describes.consume {state : Utf8.GraphemeState} {l : List Nat} (h : Describes state l)
    (s : Nat) : Describes (state.consume (unicodeProperties s)) (l ++ [s]) where
  conjunct := by
    rw [EndsInConjunct, since_append, ← EndsInConjunct, ← h.conjunct, ConjunctExtender, inCB]
    unfold Utf8.GraphemeState.consume
    cases (unicodeProperties s).indicConjunctBreak <;> cases state.indic <;> simp
  linked := by
    rw [EndsInLinkedConjunct, since_append, ← EndsInLinkedConjunct, ← h.linked, ← h.conjunct,
      ConjunctExtender, inCB]
    unfold Utf8.GraphemeState.consume
    cases (unicodeProperties s).indicConjunctBreak <;> cases state.indic <;> simp
  pictograph := by
    rw [EndsInPictograph, since_append, ← EndsInPictograph, ← h.pictograph, extPict, gcb]
    unfold Utf8.GraphemeState.consume
    cases (unicodeProperties s).extendedPictographic <;>
      cases (unicodeProperties s).graphemeBreak <;> cases state.emoji <;> simp
  joined := by
    -- a joiner that was a pictograph itself would start a sequence instead of joining one
    have hz := zwj_not_pictographic s
    rw [endsInJoinedPictograph_append, ← h.pictograph, gcb]
    unfold Utf8.GraphemeState.consume
    revert hz
    cases (unicodeProperties s).extendedPictographic <;>
      cases (unicodeProperties s).graphemeBreak <;> cases state.emoji <;> simp
  regional := by
    rw [regionalRun_append, ← h.regional, gcb]
    unfold Utf8.GraphemeState.consume
    simp only [beq_iff_eq]

theorem describes_read (l : List Nat) : Describes (graphemes.read graphemes.initial l).2 l := by
  induction l using List.reverseRecOn with
  | nil => exact describes_nil
  | append_singleton l s ih =>
    rw [Segmenter.read_append]
    exact ih.consume s

/-! ## The decision -/

theorem isControlClass_iff (s : Nat) :
    isControlClass (unicodeProperties s).graphemeBreak = true ↔ IsControl s := by
  simp [isControlClass, IsControl, gcb, or_assoc]

/-- A rule that forbids a boundary, in front of the rules behind it. -/
theorem ite_false_eq_false {P : Prop} [Decidable P] {b : Bool} :
    (if P then false else b) = false ↔ P ∨ b = false := by
  split_ifs <;> simp_all

/-- A rule that demands a boundary, in front of the rules behind it. -/
theorem ite_true_eq_false {P : Prop} [Decidable P] {b : Bool} :
    (if P then true else b) = false ↔ ¬ P ∧ b = false := by
  split_ifs <;> simp_all

/-- **The rules.** The decision of the code in the context of the scalars read so far is the one of
the rules. -/
theorem shouldBreak_eq_false_iff {state : Utf8.GraphemeState} {l : List Nat} {p : Nat} (c : Nat)
    (h : Describes state (l ++ [p])) :
    Utf8.shouldBreak (unicodeProperties p) (unicodeProperties c) state = false ↔ NoBreak l p c := by
  have hrun : gcb p = .regionalIndicator →
      (state.regionalIndicatorCount &&& 1 ≠ 0 ↔ Even (regionalRun l)) := by
    intro hp
    rw [h.regional, regionalRun_append, if_pos hp, Nat.and_one_is_mod, Nat.even_iff]
    omega
  rw [NoBreak, ← h.linked, ← h.joined, ← isControlClass_iff, ← isControlClass_iff]
  unfold Utf8.shouldBreak
  simp only [ite_false_eq_false, ite_true_eq_false, Bool.and_eq_true, Bool.or_eq_true, beq_iff_eq,
    bne_iff_ne, not_or, and_assoc, Bool.true_eq_false, or_false, or_assoc]
  -- the two sides agree rule by rule, the last one by the parity of the run
  refine or_congr Iff.rfl (and_congr Iff.rfl (and_congr Iff.rfl ?_))
  simp only [gcb, inCB, extPict] at hrun ⊢
  rw [and_congr_right fun hp => and_congr_right fun _ => hrun hp]

/-! ## The boundaries -/

/-- Between two scalars there is a boundary exactly when no rule forbids it. -/
theorem breakBefore_iff {l : List Nat} {p c : Nat} :
    graphemes.breakBefore (graphemes.read graphemes.initial (l ++ [p])) c = true ↔
      ¬ NoBreak l p c := by
  rw [← shouldBreak_eq_false_iff c (describes_read (l ++ [p])), Bool.not_eq_false]
  rw [Segmenter.read_append]
  rfl

theorem isGraphemeBoundary_iff {ss : List Nat} (hs : ∀ s ∈ ss, Utf8.IsScalar s) {o : Nat} :
    IsGraphemeBoundary ss o ↔ o ∈ graphemes.boundaries ss := by
  have hlen : ∀ {a b : List Nat}, ss = a ++ b →
      (a.flatMap Utf8.encoded).length = graphemes.length a := by
    rintro a b rfl
    rw [Utf8.flatMap_encoded fun s h => hs s (List.mem_append_left b h), length_encodeAll]
  constructor
  · rintro ⟨a, b, hab, rfl, hrule⟩
    rw [hlen hab]
    subst hab
    rcases b with _ | ⟨c, r⟩
    · rw [List.append_nil]
      exact graphemes.length_mem_boundaries a
    rw [Segmenter.mem_boundaries_cut]
    obtain rfl | ⟨l, p, rfl⟩ := a.eq_nil_or_concat
    · rfl
    · rw [List.concat_eq_append] at hrule ⊢
      exact breakBefore_iff.2 (hrule l p c r rfl rfl)
  · intro ho
    obtain ⟨a, b, hab, rfl⟩ := graphemes.exists_cut ho
    refine ⟨a, b, hab, (hlen hab).symm, ?_⟩
    rintro l p c r rfl rfl
    subst hab
    exact breakBefore_iff.1 (Segmenter.mem_boundaries_cut graphemes |>.1 ho)

/-- **Extended grapheme clusters.** A valid text is the encoding of scalars, and the complete pass
visits the places between them where the rules put a boundary, each once and in order. The empty
text has the single boundary 0. -/
theorem visitGraphemeBoundaries_spec {text : List UInt8}
    (h : (Utf8.validate text).outcome = .valid) :
    ∃ ss, (∀ s ∈ ss, Utf8.IsScalar s) ∧ text = ss.flatMap Utf8.encoded ∧
      (Utf8.visitGraphemeBoundaries text).2 = true ∧
      (Utf8.visitGraphemeBoundaries text).1.Pairwise (· < ·) ∧
      ∀ o, o ∈ (Utf8.visitGraphemeBoundaries text).1 ↔ IsGraphemeBoundary ss o := by
  obtain ⟨ss, hs, rfl⟩ := Utf8.isText_iff.2 (Utf8.validate_valid_iff.1 h)
  refine ⟨ss, hs, rfl, ?_⟩
  have hv : utf8Code.Valid ss := fun s hm => Utf8.isScalar_iff.1 (hs s hm)
  rw [Utf8.flatMap_encoded hs, Utf8.visitGraphemeBoundaries_eq hv]
  exact ⟨rfl, graphemes.boundaries_pairwise ss, fun o => (isGraphemeBoundary_iff hs).symm⟩

/-- The letter "a", a line ending, a flag and an umbrella: a boundary in front of the umbrella. -/
theorem visitGraphemeBoundaries_umbrella :
    ∃ ss, (∀ s ∈ ss, Utf8.IsScalar s) ∧
      [0x61, 0x0D, 0x0A, 0xF0, 0x9F, 0x87, 0xA9, 0xF0, 0x9F, 0x87, 0xAA, 0xE2, 0x98, 0x82] =
        ss.flatMap Utf8.encoded ∧ IsGraphemeBoundary ss 11 := by
  obtain ⟨ss, hs, he, -, -, hb⟩ := @visitGraphemeBoundaries_spec
    [0x61, 0x0D, 0x0A, 0xF0, 0x9F, 0x87, 0xA9, 0xF0, 0x9F, 0x87, 0xAA, 0xE2, 0x98, 0x82]
    (by decide +kernel)
  exact ⟨ss, hs, he, (hb 11).1 (by decide +kernel)⟩

end Unicode

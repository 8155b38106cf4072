import GameWIP.Lib.PrefixCode
import GameWIP.Unicode.Conversion

/-!
# The loops over encoded text

The validation, measurement and conversion loops read one scalar after the other. When the decoder
decodes a prefix code (`Decodes`) and the encoder stores one (`Encodes`), a loop at an offset is
determined by the cut of the remaining text into encodings and the units that stop them:

* `Decodes.step`: one round reads the first symbol of the cut;
* `validateFrom_eq`, `measureFrom_split`, `convertFrom_split`: what the loops return;
* `measureFrom_eq`, `convertFrom_eq`: what they return for a text.
-/

namespace Unicode

open Lib

/-- The result of a decode attempt as a step of a code. -/
def ScalarDecode.decoding (r : ScalarDecode) : Decoding Nat :=
  match r.outcome with
  | .decoded => .decoded r.scalar r.consumed
  | .incomplete => .incomplete
  | .invalidEncoding => .invalid

namespace ScalarDecode

theorem decoding_decoded {r : ScalarDecode} {s n : Nat} :
    r.decoding = .decoded s n ↔ r = ⟨s, n, .decoded⟩ := by
  unfold decoding
  cases r with
  | mk s' n' o => cases o <;> simp

theorem decoding_incomplete {r : ScalarDecode} :
    r.decoding = .incomplete ↔ r.outcome = .incomplete := by
  unfold decoding
  cases r.outcome <;> simp

theorem decoding_invalid {r : ScalarDecode} :
    r.decoding = .invalid ↔ r.outcome = .invalidEncoding := by
  unfold decoding
  cases r.outcome <;> simp

end ScalarDecode

section
variable {α β : Type} {C : PrefixCode Nat α} {D : PrefixCode Nat β}
  {decoder : ScalarDecoder α} {encoder : ScalarEncoder β}
  {text rest : List α} {ss : List Nat} {s off : Nat}

/-- The decoder is the decoder of the code. -/
def Decodes (C : PrefixCode Nat α) (decoder : ScalarDecoder α) : Prop :=
  ∀ b, C.decode b = (decoder.decode b).decoding

/-- The encoder stores the encodings of the code. -/
structure Encodes (D : PrefixCode Nat β) (encoder : ScalarEncoder β) : Prop where
  length_eq : ∀ {s}, D.valid s → encoder.encodedLength s = (D.encode s).length
  store_eq : ∀ {s d}, D.valid s → encoder.encodedLength s ≤ d.length →
    encoder.encodeUnchecked s d = D.encode s ++ d.drop (encoder.encodedLength s)

/-- One round of a loop reads the first symbol of the cut and leaves the cut of the others. -/
theorem Decodes.step (hd : Decodes C decoder) (h : C.Split (text.drop off) (s :: ss) rest) :
    off < text.length ∧
      decoder.decode (text.drop off) = ⟨s, (C.encode s).length, .decoded⟩ ∧
      off + (C.encode s).length ≤ text.length ∧
      C.Split (text.drop (off + (C.encode s).length)) ss rest := by
  have hs : C.valid s := h.valid s List.mem_cons_self
  have hpos := PrefixCode.encode_length_pos hs
  have heq := h.eq
  rw [PrefixCode.encodeAll_cons, List.append_assoc] at heq
  have hlen := congrArg List.length heq
  rw [List.length_drop, List.length_append] at hlen
  refine ⟨by omega, ?_, by omega, fun t ht => h.valid t (List.mem_cons_of_mem _ ht), ?_, h.stuck⟩
  · rw [← ScalarDecode.decoding_decoded, ← hd, heq]
    exact PrefixCode.decode_append hs _
  · rw [← List.drop_drop, heq]
    exact List.drop_left

/-! ## Validation -/

theorem validateFrom_end (h : text.length ≤ off) :
    validateFrom decoder text off = (off, .valid) := by
  rw [validateFrom, dif_neg (Nat.not_lt.2 h)]

/-- One decoded scalar moves the loop behind its code units. -/
theorem validateFrom_decoded {n : Nat} (h : off < text.length)
    (hd : decoder.decode (text.drop off) = ⟨s, n, .decoded⟩) :
    validateFrom decoder text off = validateFrom decoder text (off + n) := by
  rw [validateFrom, dif_pos h]
  dsimp only
  split
  · rename_i ho; rw [hd] at ho; cases ho
  · rename_i ho; rw [hd] at ho; cases ho
  · rw [hd]

theorem validateFrom_incomplete (h : off < text.length)
    (hd : (decoder.decode (text.drop off)).outcome = .incomplete) :
    validateFrom decoder text off = (off, .incomplete) := by
  rw [validateFrom, dif_pos h]
  dsimp only
  split
  · rfl
  · rename_i ho; rw [hd] at ho; cases ho
  · rename_i ho; rw [hd] at ho; cases ho

theorem validateFrom_invalid (h : off < text.length)
    (hd : (decoder.decode (text.drop off)).outcome = .invalidEncoding) :
    validateFrom decoder text off = (off, .invalidEncoding) := by
  rw [validateFrom, dif_pos h]
  dsimp only
  split
  · rename_i ho; rw [hd] at ho; cases ho
  · rfl
  · rename_i ho; rw [hd] at ho; cases ho

/-- The verdict on the units that stop a text. -/
def restOutcome (decoder : ScalarDecoder α) (rest : List α) : ValidationOutcome :=
  if rest.isEmpty then .valid
  else if (decoder.decode rest).outcome = .incomplete then .incomplete
  else .invalidEncoding

/-- The loop stops at the end of the longest run of encodings. -/
theorem validateFrom_eq (hd : Decodes C decoder) (hoff : off ≤ text.length)
    (h : C.Split (text.drop off) ss rest) :
    validateFrom decoder text off =
      (off + (C.encodeAll ss).length, restOutcome decoder rest) := by
  induction ss generalizing off with
  | nil =>
    have hb : text.drop off = rest := h.eq
    by_cases hr : rest = []
    · rw [validateFrom_end (List.drop_eq_nil_iff.1 (hb.trans hr)), hr]
      rfl
    · have hlt : off < text.length := by
        by_contra hge
        exact hr (hb ▸ List.drop_eq_nil_iff.2 (Nat.not_lt.1 hge))
      have hne : ¬ rest.isEmpty := by rwa [List.isEmpty_iff]
      rw [restOutcome, if_neg hne]
      cases hr' : (decoder.decode rest).decoding with
      | decoded s n => exact absurd ((hd rest).trans hr') (h.stuck s n)
      | incomplete =>
        have ho := ScalarDecode.decoding_incomplete.1 hr'
        rw [validateFrom_incomplete hlt (hb ▸ ho), if_pos ho]
        rfl
      | invalid =>
        have ho := ScalarDecode.decoding_invalid.1 hr'
        rw [validateFrom_invalid hlt (hb ▸ ho), if_neg (by rw [ho]; decide)]
        rfl
  | cons s ss ih =>
    obtain ⟨hlt, hdec, hle, hsp⟩ := hd.step h
    rw [validateFrom_decoded hlt hdec, ih hle hsp, PrefixCode.encodeAll_cons, List.length_append,
      Nat.add_assoc]

theorem validateFrom_zero (hd : Decodes C decoder) (h : C.Split text ss rest) :
    validateFrom decoder text 0 = ((C.encodeAll ss).length, restOutcome decoder rest) := by
  rw [validateFrom_eq hd (Nat.zero_le _) (by simpa using h), Nat.zero_add]

theorem restOutcome_valid : restOutcome decoder rest = .valid ↔ rest = [] := by
  unfold restOutcome
  split_ifs <;> simp_all

theorem restOutcome_incomplete (hd : Decodes C decoder) :
    restOutcome decoder rest = .incomplete ↔ rest ≠ [] ∧ C.decode rest = .incomplete := by
  rw [hd, ScalarDecode.decoding_incomplete]
  unfold restOutcome
  split_ifs <;> simp_all

/-- A range is valid exactly when it is a text. -/
theorem validateFrom_valid_iff (hd : Decodes C decoder) :
    (validateFrom decoder text 0).2 = .valid ↔ C.IsText text := by
  obtain ⟨ss, rest, h⟩ := C.exists_split text
  rw [validateFrom_zero hd h, h.isText_iff]
  exact restOutcome_valid

/-- A range is incomplete exactly when it is a text that breaks off inside an encoding. -/
theorem validateFrom_incomplete_iff (hd : Decodes C decoder) :
    (validateFrom decoder text 0).2 = .incomplete ↔ C.Truncated text := by
  obtain ⟨ss, rest, h⟩ := C.exists_split text
  rw [validateFrom_zero hd h, h.truncated_iff]
  exact restOutcome_incomplete hd

/-- The valid prefix is a text, and no longer prefix is one. -/
theorem validateFrom_prefix (hd : Decodes C decoder) :
    (validateFrom decoder text 0).1 ≤ text.length ∧
      C.IsText (text.take (validateFrom decoder text 0).1) ∧
      ∀ m ≤ text.length, C.IsText (text.take m) → m ≤ (validateFrom decoder text 0).1 := by
  obtain ⟨ss, rest, h⟩ := C.exists_split text
  rw [validateFrom_zero hd h]
  refine ⟨?_, h.isText_take, fun m hm ht => h.longest hm ht⟩
  rw [h.eq, List.length_append]
  exact Nat.le_add_right _ _

/-! ## Measurement and conversion -/

/-- The verdict of a measurement on the units that stop it. -/
def restMeasure (decoder : ScalarDecoder α) (rest : List α) : MeasureOutcome :=
  if rest.isEmpty then .measured else measureOutcome (decoder.decode rest).outcome

/-- The verdict of a conversion on the units that stop it. -/
def restConversion (decoder : ScalarDecoder α) (rest : List α) : ConversionOutcome :=
  if rest.isEmpty then .converted else conversionOutcome (decoder.decode rest).outcome

/-- Nothing is decoded from the units that stop a text. -/
theorem Decodes.stuck (hd : Decodes C decoder) (h : C.Stuck rest) :
    (decoder.decode rest).outcome ≠ .decoded := by
  intro ho
  refine h (decoder.decode rest).scalar (decoder.decode rest).consumed ?_
  rw [hd, ScalarDecode.decoding_decoded, ← ho]

/-- The loops are at the units that stop the text: at its end, or in front of units of which
nothing is decoded. -/
theorem Decodes.at_rest (hd : Decodes C decoder) (h : C.Split (text.drop off) [] rest) :
    (rest = [] ∧ ¬ off < text.length) ∨
      rest ≠ [] ∧ off < text.length ∧ text.drop off = rest ∧
        (decoder.decode rest).outcome ≠ .decoded := by
  have heq : text.drop off = rest := h.eq
  by_cases hr : rest = []
  · exact .inl ⟨hr, Nat.not_lt.2 (List.drop_eq_nil_iff.1 (heq.trans hr))⟩
  · refine .inr ⟨hr, ?_, heq, hd.stuck h.stuck⟩
    by_contra hge
    exact hr (heq ▸ List.drop_eq_nil_iff.2 (Nat.not_lt.1 hge))

section
variable (hd : Decodes C decoder) (he : Encodes D encoder)
include hd he

/-- **Measurement** counts the units of the symbols in the other code. -/
theorem measureFrom_split {required : Nat} (hD : D.Valid ss)
    (h : C.Split (text.drop off) ss rest) (hmax : required + (D.encodeAll ss).length < 2 ^ 64) :
    measureFrom decoder encoder text off required =
      ⟨off + (C.encodeAll ss).length, required + (D.encodeAll ss).length,
        restMeasure decoder rest⟩ := by
  induction ss generalizing off required with
  | nil =>
    rw [measureFrom]
    rcases hd.at_rest h with ⟨rfl, hend⟩ | ⟨hr, hlt, rfl, ho⟩
    · rw [dif_neg hend]
      rfl
    · rw [dif_pos hlt]
      dsimp only
      rw [dif_pos ho, restMeasure, if_neg (by simpa using hr)]
      rfl
  | cons s ss ih =>
    obtain ⟨hlt, hdec, -, hsp⟩ := hd.step h
    obtain ⟨hs, hss⟩ := D.valid_cons.1 hD
    rw [PrefixCode.encodeAll_cons, List.length_append] at hmax
    have hov : ¬ wouldAddOverflow required (D.encode s).length = true := by
      rw [wouldAddOverflow, decide_eq_true_eq]
      omega
    rw [measureFrom, dif_pos hlt]
    simp only [hdec, ne_eq, not_true, dite_false, he.length_eq hs, if_neg hov]
    rw [ih hss hsp (by omega)]
    simp only [PrefixCode.encodeAll_cons, List.length_append, Nat.add_assoc]

/-- The measurement of a text counts the units of its symbols in the other code. -/
theorem measureFrom_eq {required : Nat} (hD : D.Valid ss) (hoff : off ≤ text.length)
    (h : C.Split (text.drop off) ss []) (hmax : required + (D.encodeAll ss).length < 2 ^ 64) :
    measureFrom decoder encoder text off required =
      ⟨text.length, required + (D.encodeAll ss).length, .measured⟩ := by
  have hlength := congrArg List.length h.eq
  rw [List.length_drop, List.append_nil] at hlength
  rw [measureFrom_split hd he hD h hmax, ← hlength, Nat.add_sub_cancel' hoff]
  rfl

/-- **Conversion** stores the units in the other code of the symbols that fit, and leaves the rest
of the destination as it is. -/
theorem convertFrom_split {destination : List β} {written : Nat} (hD : D.Valid ss)
    (h : C.Split (text.drop off) ss rest) (hroom : written ≤ destination.length) :
    convertFrom decoder encoder text destination off written =
      let fits := D.fitting (destination.length - written) ss
      ⟨off + (C.encodeAll fits).length, written + (D.encodeAll fits).length,
        if fits = ss then restConversion decoder rest else .destinationTooSmall,
        destination.take written ++ D.encodeAll fits ++
          destination.drop (written + (D.encodeAll fits).length)⟩ := by
  induction ss generalizing off destination written with
  | nil =>
    rw [convertFrom, PrefixCode.fitting]
    dsimp only
    rw [if_pos rfl]
    rcases hd.at_rest h with ⟨rfl, hend⟩ | ⟨hr, hlt, rfl, ho⟩
    · rw [dif_neg hend]
      simp [restConversion]
    · rw [dif_pos hlt, dif_pos ho, restConversion, if_neg (by simpa using hr)]
      simp
  | cons s ss ih =>
    obtain ⟨hlt, hdec, -, hsp⟩ := hd.step h
    obtain ⟨hs, hss⟩ := D.valid_cons.1 hD
    rw [convertFrom, dif_pos hlt, PrefixCode.fitting]
    simp only [hdec, ne_eq, not_true, dite_false, he.length_eq hs]
    by_cases hfit : (D.encode s).length ≤ destination.length - written
    · rw [if_neg (Nat.not_lt.2 hfit), if_pos hfit]
      have hstore : encoder.encodeUnchecked s (destination.drop written) =
          D.encode s ++ destination.drop (written + (D.encode s).length) := by
        rw [he.store_eq hs (by rw [he.length_eq hs, List.length_drop]; omega), he.length_eq hs,
          List.drop_drop]
      have htake : (destination.take written).length = written := List.length_take_of_le hroom
      have hpre : (destination.take written ++ D.encode s).length =
          written + (D.encode s).length := by
        rw [List.length_append, htake]
      have hlength : (destination.take written ++ D.encode s ++
          destination.drop (written + (D.encode s).length)).length = destination.length := by
        rw [List.length_append, hpre, List.length_drop]
        omega
      rw [hstore, ← List.append_assoc, ih hss hsp (by rw [hlength]; omega), hlength]
      dsimp only
      -- the units stored so far, and behind them the destination as it was
      rw [List.take_left' hpre, ← List.drop_drop (j := written + _), List.drop_left' hpre,
        List.drop_drop, Nat.sub_add_eq]
      simp only [PrefixCode.encodeAll_cons, List.length_append, List.append_assoc, Nat.add_assoc,
        List.cons.injEq, true_and]
    · rw [if_pos (Nat.not_le.1 hfit), if_neg hfit, if_neg (by simp)]
      simp

theorem convertFrom_zero (hD : D.Valid ss) (h : C.Split text ss rest) (destination : List β) :
    convertFrom decoder encoder text destination 0 0 =
      let fits := D.fitting destination.length ss
      ⟨(C.encodeAll fits).length, (D.encodeAll fits).length,
        if fits = ss then restConversion decoder rest else .destinationTooSmall,
        D.encodeAll fits ++ destination.drop (D.encodeAll fits).length⟩ := by
  have hstart : C.Split (text.drop 0) ss rest := by simpa using h
  rw [convertFrom_split hd he hD hstart (Nat.zero_le _)]
  simp

/-- The conversion of a text stores the units of its symbols in the other code and leaves the rest
of the destination as it is. -/
theorem convertFrom_eq {destination : List β} {written : Nat} (hD : D.Valid ss)
    (hoff : off ≤ text.length) (h : C.Split (text.drop off) ss [])
    (hroom : written + (D.encodeAll ss).length ≤ destination.length) :
    convertFrom decoder encoder text destination off written =
      ⟨text.length, written + (D.encodeAll ss).length, .converted,
        destination.take written ++ D.encodeAll ss ++
          destination.drop (written + (D.encodeAll ss).length)⟩ := by
  have hlength := congrArg List.length h.eq
  rw [List.length_drop, List.append_nil] at hlength
  rw [convertFrom_split hd he hD h (by omega)]
  dsimp only
  rw [PrefixCode.fitting_eq_self (by omega), if_pos rfl, ← hlength, Nat.add_sub_cancel' hoff]
  rfl

end

/-- Only a text is measured to its end. -/
theorem isText_of_measured (hd : Decodes C decoder)
    (h : (measureFrom decoder encoder text 0 0).outcome = .measured) : C.IsText text := by
  suffices hvalid : ∀ off required,
      (measureFrom decoder encoder text off required).outcome = .measured →
        (validateFrom decoder text off).2 = .valid from
    (validateFrom_valid_iff hd).1 (hvalid 0 0 h)
  intro off required
  fun_induction measureFrom decoder encoder text off required with
  | case1 off required hlt decoded ho =>
    dsimp only [measureOutcome]
    split_ifs <;> simp
  | case2 => simp
  | case3 off required hlt decoded ho units hov hpos ih =>
    intro hm
    have hdec : decoder.decode (text.drop off) = ⟨decoded.scalar, decoded.consumed, .decoded⟩ := by
      rw [← not_not.1 ho]
    rw [validateFrom_decoded hlt hdec]
    exact ih hm
  | case4 off required hlt =>
    intro _
    rw [validateFrom_end (Nat.not_lt.1 hlt)]

/-- A code with units at most `k` times as long needs at most `k` times as many. -/
theorem length_encodeAll_le {k : Nat}
    (hk : ∀ s, C.valid s → (D.encode s).length ≤ k * (C.encode s).length) (hC : C.Valid ss) :
    (D.encodeAll ss).length ≤ k * (C.encodeAll ss).length := by
  induction ss with
  | nil => simp
  | cons s ss ih =>
    obtain ⟨hs, hss⟩ := C.valid_cons.1 hC
    have h1 := hk s hs
    have h2 := ih hss
    simp only [PrefixCode.encodeAll_cons, List.length_append, Nat.mul_add]
    omega

end

end Unicode

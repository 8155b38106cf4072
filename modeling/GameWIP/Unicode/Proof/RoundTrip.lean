import GameWIP.Unicode.Proof.Utf16Code

/-!
# Conversion round trips

A valid text is the encoding of one list of scalars. Measuring it counts the units of that list in
the other encoding and converting it stores them (`transcode`), so that converting back stores the
text itself: `convert_roundTrip`, in both directions and for all destinations that share no byte
with the source.
-/

namespace Unicode

open Lib

/-- No byte belongs to both ranges. -/
def NonOverlapping {α β : Type} {m n : Nat} (first : Span α m) (second : Span β n) : Prop :=
  ∀ a, ¬ ((first.address ≤ a ∧ a < first.endAddress) ∧
    (second.address ≤ a ∧ a < second.endAddress))

theorem memoryRangesOverlap_eq_false {α β : Type} {m n : Nat} {first : Span α m}
    {second : Span β n} (hm : 0 < m) (hn : 0 < n) (h : NonOverlapping first second) :
    memoryRangesOverlap first second = false := by
  unfold memoryRangesOverlap
  split_ifs with he
  · rfl
  simp only [Bool.or_eq_true, List.isEmpty_iff, not_or, ← List.length_pos_iff] at he
  have h1 : first.address < first.endAddress := Nat.lt_add_of_pos_right (Nat.mul_pos he.1 hm)
  have h2 : second.address < second.endAddress := Nat.lt_add_of_pos_right (Nat.mul_pos he.2 hn)
  rw [Bool.and_eq_false_iff, decide_eq_false_iff_not, decide_eq_false_iff_not]
  -- otherwise the greater of the two addresses is in both ranges
  have hmax := h (max first.address second.address)
  omega

/-- What the loops do to a text: it is the encoding of a list of scalars, and they measure and
store the encoding of that list in the other code. -/
theorem transcode {α β : Type} {C : PrefixCode Nat α} {D : PrefixCode Nat β}
    {decoder : ScalarDecoder α} {encoder : ScalarEncoder β} {k : Nat}
    (hd : Decodes C decoder) (he : Encodes D encoder) (hv : ∀ s, C.valid s → D.valid s)
    (hk : ∀ s, C.valid s → (D.encode s).length ≤ k * (C.encode s).length) {text : List α}
    (ht : C.IsText text) (hlen : k * text.length < 2 ^ 64) :
    ∃ ss, C.Valid ss ∧ D.Valid ss ∧ text = C.encodeAll ss ∧
      measureFrom decoder encoder text 0 0 =
        ⟨text.length, (D.encodeAll ss).length, .measured⟩ ∧
      ∀ destination : List β, (D.encodeAll ss).length ≤ destination.length →
        convertFrom decoder encoder text destination 0 0 =
          ⟨text.length, (D.encodeAll ss).length, .converted,
            D.encodeAll ss ++ destination.drop (D.encodeAll ss).length⟩ := by
  obtain ⟨ss, hC, rfl⟩ := ht
  have hD : D.Valid ss := fun s hs => hv s (hC s hs)
  have hsp : C.Split ((C.encodeAll ss).drop 0) ss [] := ⟨hC, by simp, PrefixCode.stuck_nil⟩
  refine ⟨ss, hC, hD, rfl, ?_, fun destination hroom => ?_⟩
  · have hmax := length_encodeAll_le (D := D) hk hC
    rw [measureFrom_eq hd he hD (Nat.zero_le _) hsp (by omega), Nat.zero_add]
  · rw [convertFrom_eq hd he hD (Nat.zero_le _) hsp (by omega), Nat.zero_add, List.take_zero,
      List.nil_append]

theorem length_utf16Units_le {s : Nat} : (utf16Units s).length ≤ 1 * (utf8Bytes s).length := by
  rw [length_utf16Units, length_utf8Bytes, utf16EncodedLength, utf8EncodedLength]
  split_ifs <;> omega

theorem length_utf8Bytes_le {s : Nat} : (utf8Bytes s).length ≤ 3 * (utf16Units s).length := by
  rw [length_utf16Units, length_utf8Bytes, utf16EncodedLength, utf8EncodedLength]
  split_ifs <;> omega

/-- Converting UTF-8: the scalars of the text, the measure and every conversion. -/
theorem Utf8.convertToUtf16_spec {t : Span UInt8 1} (ht : utf8Code.IsText t.elements) :
    ∃ ss, utf8Code.Valid ss ∧ t.elements = utf8Code.encodeAll ss ∧
      (Utf8.measureToUtf16 t).requiredCodeUnits = (utf16Code.encodeAll ss).length ∧
      ∀ d : Span UInt16 2, NonOverlapping t d →
        (Utf8.measureToUtf16 t).requiredCodeUnits ≤ d.elements.length →
        Utf8.convertToUtf16 t d =
          ({ sourceBytesConsumed := t.elements.length,
             codeUnitsWritten := (utf16Code.encodeAll ss).length, outcome := .converted },
            utf16Code.encodeAll ss ++ d.elements.drop (utf16Code.encodeAll ss).length) := by
  have hlen := t.size_lt
  obtain ⟨ss, hC, -, hss, hm, hc⟩ := transcode (D := utf16Code) utf8Decoder_decodes
    utf16Encoder_encodes (fun _ h => h) (fun s _ => length_utf16Units_le) ht (by omega)
  have hmr : (Utf8.measureToUtf16 t).requiredCodeUnits = (utf16Code.encodeAll ss).length := by
    rw [Utf8.measureToUtf16, hm]
  refine ⟨ss, hC, hss, hmr, fun d hn hroom => ?_⟩
  rw [Utf8.convertToUtf16, memoryRangesOverlap_eq_false (by omega) (by omega) hn,
    hc _ (hmr ▸ hroom)]
  rfl

/-- Converting UTF-16: the scalars of the text, the measure and every conversion. -/
theorem Utf16.convertToUtf8_spec {u : Span UInt16 2} (hu : utf16Code.IsText u.elements) :
    ∃ ss, utf16Code.Valid ss ∧ u.elements = utf16Code.encodeAll ss ∧
      (Utf16.measureToUtf8 u).requiredBytes = (utf8Code.encodeAll ss).length ∧
      ∀ d : Span UInt8 1, NonOverlapping u d →
        (Utf16.measureToUtf8 u).requiredBytes ≤ d.elements.length →
        Utf16.convertToUtf8 u d =
          ({ sourceCodeUnitsConsumed := u.elements.length,
             bytesWritten := (utf8Code.encodeAll ss).length, outcome := .converted },
            utf8Code.encodeAll ss ++ d.elements.drop (utf8Code.encodeAll ss).length) := by
  have hlen := u.size_lt
  obtain ⟨ss, hC, -, hss, hm, hc⟩ := transcode (D := utf8Code) utf16Decoder_decodes
    utf8Encoder_encodes (fun _ h => h) (fun s _ => length_utf8Bytes_le) hu (by omega)
  have hmr : (Utf16.measureToUtf8 u).requiredBytes = (utf8Code.encodeAll ss).length := by
    rw [Utf16.measureToUtf8, hm]
  refine ⟨ss, hC, hss, hmr, fun d hn hroom => ?_⟩
  rw [Utf16.convertToUtf8, memoryRangesOverlap_eq_false (by omega) (by omega) hn,
    hc _ (hmr ▸ hroom)]
  rfl

/-- The conversion of `t` into `d` succeeds, writes the measured number of units at the front of
the destination, and converting these units back into bytes of the measured number gives `t`. -/
structure Utf8.Survives (t : Span UInt8 1) (d : Span UInt16 2) : Prop where
  outcome : (Utf8.convertToUtf16 t d).1.outcome = .converted
  written : (Utf8.convertToUtf16 t d).1.codeUnitsWritten =
    (Utf8.measureToUtf16 t).requiredCodeUnits
  length_eq : (Utf8.convertToUtf16 t d).2.length = d.elements.length
  frame : (Utf8.convertToUtf16 t d).2.drop (Utf8.measureToUtf16 t).requiredCodeUnits =
    d.elements.drop (Utf8.measureToUtf16 t).requiredCodeUnits
  valid : (Utf16.validate ((Utf8.convertToUtf16 t d).2.take
    (Utf8.measureToUtf16 t).requiredCodeUnits)).outcome = .valid
  back : ∀ (u : Span UInt16 2) (d' : Span UInt8 1),
    u.elements = (Utf8.convertToUtf16 t d).2.take (Utf8.measureToUtf16 t).requiredCodeUnits →
    NonOverlapping u d' → d'.elements.length = (Utf16.measureToUtf8 u).requiredBytes →
    (Utf16.convertToUtf8 u d').1.outcome = .converted ∧
      (Utf16.convertToUtf8 u d').2 = t.elements

/-- The same for UTF-16 text through UTF-8. -/
structure Utf16.Survives (u : Span UInt16 2) (d : Span UInt8 1) : Prop where
  outcome : (Utf16.convertToUtf8 u d).1.outcome = .converted
  written : (Utf16.convertToUtf8 u d).1.bytesWritten = (Utf16.measureToUtf8 u).requiredBytes
  length_eq : (Utf16.convertToUtf8 u d).2.length = d.elements.length
  frame : (Utf16.convertToUtf8 u d).2.drop (Utf16.measureToUtf8 u).requiredBytes =
    d.elements.drop (Utf16.measureToUtf8 u).requiredBytes
  valid : (Utf8.validate ((Utf16.convertToUtf8 u d).2.take
    (Utf16.measureToUtf8 u).requiredBytes)).outcome = .valid
  back : ∀ (t : Span UInt8 1) (d' : Span UInt16 2),
    t.elements = (Utf16.convertToUtf8 u d).2.take (Utf16.measureToUtf8 u).requiredBytes →
    NonOverlapping t d' → d'.elements.length = (Utf8.measureToUtf16 t).requiredCodeUnits →
    (Utf8.convertToUtf16 t d').1.outcome = .converted ∧
      (Utf8.convertToUtf16 t d').2 = u.elements

theorem Utf8.survives {t : Span UInt8 1} {d : Span UInt16 2}
    (ht : (Utf8.validate t.elements).outcome = .valid) (hn : NonOverlapping t d)
    (hroom : (Utf8.measureToUtf16 t).requiredCodeUnits ≤ d.elements.length) :
    Utf8.Survives t d := by
  obtain ⟨ss, hv, hss, hm, hc⟩ :=
    Utf8.convertToUtf16_spec ((validateFrom_valid_iff utf8Decoder_decodes).1 ht)
  have hcd := hc d hn hroom
  have htext : utf16Code.IsText (utf16Code.encodeAll ss) := utf16Code.isText_encodeAll hv
  constructor <;> simp only [hcd, hm, List.drop_left, List.take_left]
  · rw [List.length_append, List.length_drop]
    omega
  · exact (validateFrom_valid_iff utf16Decoder_decodes).2 htext
  · intro u d' hu hn' hlen
    obtain ⟨ts, hv', hts, hm', hc'⟩ := Utf16.convertToUtf8_spec (u := u) (hu ▸ htext)
    -- the units are the encoding of one list of scalars only
    obtain rfl : ts = ss := PrefixCode.encodeAll_injective hv' hv (hts.symm.trans hu)
    rw [hc' d' hn' (Nat.le_of_eq hlen.symm), hss, ← hm', ← hlen]
    simp

theorem Utf16.survives {u : Span UInt16 2} {d : Span UInt8 1}
    (hu : (Utf16.validate u.elements).outcome = .valid) (hn : NonOverlapping u d)
    (hroom : (Utf16.measureToUtf8 u).requiredBytes ≤ d.elements.length) :
    Utf16.Survives u d := by
  obtain ⟨ss, hv, hss, hm, hc⟩ :=
    Utf16.convertToUtf8_spec ((validateFrom_valid_iff utf16Decoder_decodes).1 hu)
  have hcd := hc d hn hroom
  have htext : utf8Code.IsText (utf8Code.encodeAll ss) := utf8Code.isText_encodeAll hv
  constructor <;> simp only [hcd, hm, List.drop_left, List.take_left]
  · rw [List.length_append, List.length_drop]
    omega
  · exact (validateFrom_valid_iff utf8Decoder_decodes).2 htext
  · intro t d' ht hn' hlen
    obtain ⟨ts, hv', hts, hm', hc'⟩ := Utf8.convertToUtf16_spec (t := t) (ht ▸ htext)
    obtain rfl : ts = ss := PrefixCode.encodeAll_injective hv' hv (hts.symm.trans ht)
    rw [hc' d' hn' (Nat.le_of_eq hlen.symm), hss, ← hm', ← hlen]
    simp

/-- **Conversion round trips.** Every valid text survives the conversion to the other encoding and
back, through every destination that is large enough and shares no byte with the source. -/
theorem convert_roundTrip :
    (∀ (t : Span UInt8 1) (d : Span UInt16 2), (Utf8.validate t.elements).outcome = .valid →
      NonOverlapping t d → (Utf8.measureToUtf16 t).requiredCodeUnits ≤ d.elements.length →
      Utf8.Survives t d) ∧
    (∀ (u : Span UInt16 2) (d : Span UInt8 1), (Utf16.validate u.elements).outcome = .valid →
      NonOverlapping u d → (Utf16.measureToUtf8 u).requiredBytes ≤ d.elements.length →
      Utf16.Survives u d) :=
  ⟨fun _ _ => Utf8.survives, fun _ _ => Utf16.survives⟩

/-- The text "a€😀" through UTF-16 at a distance, and the surrogate pair through UTF-8. -/
theorem convert_roundTrip_mixed :
    Utf8.Survives ⟨0, [0x61, 0xE2, 0x82, 0xAC, 0xF0, 0x9F, 0x98, 0x80], by decide⟩
        ⟨8, [0, 0, 0, 0, 7], by decide⟩ ∧
      Utf16.Survives ⟨8, [0xD83D, 0xDE00], by decide⟩ ⟨0, [0, 0, 0, 0], by decide⟩ := by
  refine ⟨convert_roundTrip.1 _ _ (by decide +kernel) ?_ (by decide +kernel),
    convert_roundTrip.2 _ _ (by decide +kernel) ?_ (by decide +kernel)⟩
  all_goals
    intro a
    simp only [Span.endAddress, List.length_cons, List.length_nil]
    omega

end Unicode

import GameWIP.Unicode.Proof.RoundTrip

/-!
# Conversion of any source into any destination

A conversion writes the encodings of the longest run of scalars at the start of the source that is
well-formed and fits (`PrefixLaw`). Where it does not stop for want of room, it agrees with the
measurement and with the validation. Conversions of the unconsumed remainder into fresh
destinations (`convertPieces`) give together what one conversion with room enough gives.
-/

namespace Unicode

open Lib

/-- The outcome of a measurement that goes with the one of a conversion. -/
def ConversionOutcome.measure : ConversionOutcome → MeasureOutcome
  | .converted => .measured
  | .incomplete => .incomplete
  | _ => .invalidEncoding

/-- The outcome of a validation that goes with the one of a conversion. -/
def ConversionOutcome.validation : ConversionOutcome → ValidationOutcome
  | .converted => .valid
  | .incomplete => .incomplete
  | _ => .invalidEncoding

/-- What a conversion does with a source and a destination, beside what the measurement and the
validation say of the source. -/
structure PrefixLaw {α β : Type} (C : PrefixCode Nat α) (D : PrefixCode Nat β) (source : List α)
    (destination : List β) (conversion : Conversion β) (measure : Measure)
    (validation : Nat × ValidationOutcome) : Prop where
  consumed_le : conversion.consumed ≤ source.length
  written_le : conversion.written ≤ destination.length
  written : ∃ ss, C.Valid ss ∧ source.take conversion.consumed = C.encodeAll ss ∧
    conversion.written = (D.encodeAll ss).length ∧
    conversion.destination = D.encodeAll ss ++ destination.drop conversion.written
  longest : ∀ m ≤ source.length, ∀ ts, C.Valid ts → source.take m = C.encodeAll ts →
    (D.encodeAll ts).length ≤ destination.length → m ≤ conversion.consumed
  tooSmall : conversion.outcome = .destinationTooSmall ↔
    ∃ s n, C.decode (source.drop conversion.consumed) = .decoded s n ∧
      destination.length - conversion.written < (D.encode s).length
  others : conversion.outcome ≠ .destinationTooSmall →
    measure = ⟨conversion.consumed, conversion.written, conversion.outcome.measure⟩ ∧
      validation = (conversion.consumed, conversion.outcome.validation)

section
variable {α β : Type} {C : PrefixCode Nat α} {D : PrefixCode Nat β}
  {decoder : ScalarDecoder α} {encoder : ScalarEncoder β} {source rest : List α} {ss : List Nat}

/-- The verdicts on the units that stop a text go together. -/
theorem restConversion_spec (hd : Decodes C decoder) (h : C.Stuck rest) :
    restConversion decoder rest ≠ .destinationTooSmall ∧
      restMeasure decoder rest = (restConversion decoder rest).measure ∧
      restOutcome decoder rest = (restConversion decoder rest).validation := by
  have ho := hd.stuck h
  unfold restConversion restMeasure restOutcome
  split_ifs with hempty hincomplete
  · exact ⟨by decide, rfl, rfl⟩
  · rw [hincomplete]
    exact ⟨by decide, rfl, rfl⟩
  · cases hrest : (decoder.decode rest).outcome with
    | decoded => exact absurd hrest ho
    | incomplete => exact absurd hrest hincomplete
    | invalidEncoding => exact ⟨by decide, rfl, rfl⟩

/-- **The law of the conversion loop**, of codes for the same symbols. -/
theorem convertFrom_prefixLaw (hd : Decodes C decoder) (he : Encodes D encoder)
    (hv : ∀ s, C.valid s → D.valid s) {k : Nat}
    (hk : ∀ s, C.valid s → (D.encode s).length ≤ k * (C.encode s).length)
    (hlen : k * source.length < 2 ^ 64) (destination : List β) :
    PrefixLaw C D source destination (convertFrom decoder encoder source destination 0 0)
      (measureFrom decoder encoder source 0 0) (validateFrom decoder source 0) := by
  obtain ⟨ss, rest, hsplit⟩ := C.exists_split source
  have hD : D.Valid ss := fun s hs => hv s (hsplit.valid s hs)
  have hstart : C.Split (source.drop 0) ss rest := by simpa using hsplit
  obtain ⟨hfits, hroom⟩ := D.fitting_spec destination.length ss
  have hconvert := convertFrom_zero hd he hD hsplit destination
  dsimp only at hconvert
  have hmax : 0 + (D.encodeAll ss).length < 2 ^ 64 := by
    have hsource : (C.encodeAll ss).length ≤ source.length := by
      rw [hsplit.eq, List.length_append]
      exact Nat.le_add_right _ _
    have := length_encodeAll_le hk hsplit.valid
    have := Nat.mul_le_mul_left k hsource
    omega
  have hmeasure := measureFrom_split hd he hD hstart hmax
  have hvalidate := validateFrom_zero hd hsplit
  obtain ⟨hrest, hrestMeasure, hrestOutcome⟩ := restConversion_spec hd hsplit.stuck
  generalize hrun : D.fitting destination.length ss = run at hfits hroom hconvert
  obtain ⟨us, rfl⟩ := hfits
  have hremainder := hsplit.drop
  have hvalid : C.Valid run := (C.valid_append.1 hsplit.valid).1
  rw [hconvert, hmeasure, hvalidate]
  constructor <;> dsimp only
  · rw [hsplit.eq, PrefixCode.encodeAll_append, List.length_append, List.length_append]
    omega
  · exact hroom
  · refine ⟨run, hvalid, ?_, rfl, rfl⟩
    rw [hsplit.eq, PrefixCode.encodeAll_append, List.append_assoc, List.take_left]
  · intro m hm ts hts htake hfit
    have hprefixed : ts <+: run ++ us := by
      refine PrefixCode.encodeAll_prefix_of_stuck hsplit.stuck hsplit.valid hts ?_
      rw [← htake, ← hsplit.eq]
      exact List.take_prefix _ _
    obtain ⟨vs, rfl⟩ := hrun ▸ PrefixCode.fitting_longest hprefixed hfit
    have hlength := congrArg List.length htake
    rw [List.length_take_of_le hm] at hlength
    rw [hlength, PrefixCode.encodeAll_append, List.length_append]
    exact Nat.le_add_right _ _
  · constructor
    · intro htoo
      have hne : run ≠ run ++ us := fun heq => by
        rw [if_pos heq] at htoo
        exact hrest htoo
      have hshort : D.fitting destination.length (run ++ us) ≠ run ++ us := by
        rw [hrun]
        exact hne
      obtain ⟨s, vs, hss, hlt⟩ := PrefixCode.fitting_next hshort
      rw [hrun] at hss hlt
      obtain rfl := List.append_cancel_left hss
      refine ⟨s, (C.encode s).length, ?_, hlt⟩
      rw [hremainder.eq, PrefixCode.encodeAll_cons, List.append_assoc]
      exact PrefixCode.decode_append (hremainder.valid s List.mem_cons_self) _
    · rintro ⟨s, n, hdecode, -⟩
      refine if_neg fun heq => ?_
      obtain rfl : us = [] := by simpa using heq
      rw [hremainder.eq] at hdecode
      exact hsplit.stuck s n hdecode
  · intro houtcome
    have heq : run = run ++ us := by
      by_contra hne
      exact houtcome (if_neg hne)
    rw [if_pos heq, hrestMeasure, hrestOutcome, ← heq]
    simp

end

/-! ## Piece by piece -/

/-- The remainder of a range. -/
def Span.drop {α : Type} {n : Nat} (s : Span α n) (count : Nat) : Span α n where
  address := s.address + count * n
  elements := s.elements.drop count
  size_lt := by
    refine Nat.lt_of_le_of_lt (Nat.mul_le_mul_right n ?_) s.size_lt
    rw [List.length_drop]
    exact Nat.sub_le _ _

/-- What conversions one after the other have consumed and written, and the last outcome. -/
structure Pieces (β : Type) where
  consumed : Nat
  units : List β
  outcome : ConversionOutcome
  deriving DecidableEq, Repr

/-- The caller of a conversion that goes on with the unconsumed remainder and a fresh destination
while the destinations are too small. -/
def convertPieces {α β : Type} {m n : Nat} (convert : Span α m → Span β n → Conversion β) :
    Span α m → List (Span β n) → Pieces β
  | _, [] => ⟨0, [], .destinationTooSmall⟩
  | source, destination :: destinations =>
    let conversion := convert source destination
    let units := conversion.destination.take conversion.written
    if conversion.outcome = .destinationTooSmall then
      let pieces := convertPieces convert (source.drop conversion.consumed) destinations
      ⟨conversion.consumed + pieces.consumed, units ++ pieces.units, pieces.outcome⟩
    else ⟨conversion.consumed, units, conversion.outcome⟩

theorem NonOverlapping.drop {α β : Type} {m n : Nat} {source : Span α m} {destination : Span β n}
    (h : NonOverlapping source destination) {count : Nat} (hcount : count ≤ source.elements.length) :
    NonOverlapping (source.drop count) destination := by
  intro a ⟨⟨hfirst, hlast⟩, hsecond⟩
  refine h a ⟨⟨?_, ?_⟩, hsecond⟩
  · exact Nat.le_trans (Nat.le_add_right _ _) hfirst
  · have hlength : count * m + (source.elements.length - count) * m =
        source.elements.length * m := by
      rw [← Nat.add_mul, Nat.add_sub_cancel' hcount]
    unfold Span.endAddress Span.drop at hlast
    rw [List.length_drop] at hlast
    unfold Span.endAddress
    dsimp only at hlast
    omega

section
variable {α β : Type} {m n : Nat} {C : PrefixCode Nat α} {D : PrefixCode Nat β}
  {decoder : ScalarDecoder α} {encoder : ScalarEncoder β}
  {convert : Span α m → Span β n → Conversion β} {rest : List α} {ss : List Nat}

/-- **The pieces of a source**: each destination takes at least one scalar, and together they take
what the source has. -/
theorem convertPieces_split (hd : Decodes C decoder) (he : Encodes D encoder)
    (hconvert : ∀ source destination, NonOverlapping source destination →
      convert source destination =
        convertFrom decoder encoder source.elements destination.elements 0 0)
    {room : Nat} (hfits : ∀ s, D.valid s → (D.encode s).length ≤ room) {source : Span α m}
    {destinations : List (Span β n)} (hD : D.Valid ss)
    (h : C.Split source.elements ss rest)
    (hfresh : ∀ destination ∈ destinations, NonOverlapping source destination ∧
      room ≤ destination.elements.length) :
    ((convertPieces convert source destinations).outcome ≠ .destinationTooSmall →
      convertPieces convert source destinations =
        ⟨(C.encodeAll ss).length, D.encodeAll ss, restConversion decoder rest⟩) ∧
    (ss.length < destinations.length →
      (convertPieces convert source destinations).outcome ≠ .destinationTooSmall) := by
  induction destinations generalizing source ss with
  | nil => exact ⟨fun hne => absurd rfl hne, nofun⟩
  | cons destination destinations ih =>
    obtain ⟨hnon, hlarge⟩ := hfresh destination List.mem_cons_self
    have hone := convertFrom_zero hd he hD h destination.elements
    obtain ⟨hrun, hroom⟩ := D.fitting_spec destination.elements.length ss
    obtain ⟨us, hus⟩ := hrun
    have hrest := (restConversion_spec hd h.stuck).1
    rw [convertPieces, hconvert _ _ hnon]
    dsimp only at hone ⊢
    by_cases hall : D.fitting destination.elements.length ss = ss
    · rw [if_pos hall] at hone
      rw [hone]
      dsimp only
      rw [if_neg hrest, List.take_left, hall]
      exact ⟨fun _ => rfl, fun _ => hrest⟩
    · -- the first symbol left does not fit, so that one at least has
      obtain ⟨s, vs, hss, hlt⟩ := PrefixCode.fitting_next hall
      have hus' : us = s :: vs := List.append_cancel_left (hus.trans hss)
      rw [if_neg hall] at hone
      rw [hone]
      dsimp only
      rw [if_pos rfl, List.take_left]
      generalize D.fitting destination.elements.length ss = run at hus hroom hlt
      subst hus
      have hsome : run ≠ [] := by
        rintro rfl
        have := hfits s (hD s (by simp [hus']))
        simp only [PrefixCode.encodeAll_nil, List.length_nil] at hlt
        omega
      have hcount : (C.encodeAll run).length ≤ source.elements.length := by
        rw [h.eq, PrefixCode.encodeAll_append, List.length_append, List.length_append]
        omega
      have hremainder : C.Split (source.drop (C.encodeAll run).length).elements us rest := h.drop
      obtain ⟨hpieces, hends⟩ := ih (D.valid_append.1 hD).2 hremainder fun d hd' =>
          ⟨(hfresh d (List.mem_cons_of_mem _ hd')).1.drop hcount,
            (hfresh d (List.mem_cons_of_mem _ hd')).2⟩
      refine ⟨fun hne => ?_, fun hlength => hends ?_⟩
      · rw [hpieces hne]
        simp
      · have := List.length_pos_iff.2 hsome
        rw [List.length_append, List.length_cons] at hlength
        omega

/-- **The pieces and the whole**: conversions into fresh destinations that take every symbol give
together what one conversion with room enough gives. -/
theorem convertPieces_whole (hd : Decodes C decoder) (he : Encodes D encoder)
    (hv : ∀ s, C.valid s → D.valid s) {k : Nat}
    (hk : ∀ s, C.valid s → (D.encode s).length ≤ k * (C.encode s).length)
    (hconvert : ∀ source destination, NonOverlapping source destination →
      convert source destination =
        convertFrom decoder encoder source.elements destination.elements 0 0)
    {room : Nat} (hfits : ∀ s, D.valid s → (D.encode s).length ≤ room) {source : Span α m}
    (hlen : k * source.elements.length < 2 ^ 64) {destinations : List (Span β n)}
    (hfresh : ∀ destination ∈ destinations, NonOverlapping source destination ∧
      room ≤ destination.elements.length) {one : Span β n} (hnon : NonOverlapping source one)
    (hlarge : (measureFrom decoder encoder source.elements 0 0).required ≤ one.elements.length) :
    let whole := convert source one
    ((convertPieces convert source destinations).outcome ≠ .destinationTooSmall →
      convertPieces convert source destinations =
        ⟨whole.consumed, whole.destination.take whole.written, whole.outcome⟩) ∧
    (source.elements.length < destinations.length →
      (convertPieces convert source destinations).outcome ≠ .destinationTooSmall) := by
  obtain ⟨ss, rest, hsplit⟩ := C.exists_split source.elements
  have hD : D.Valid ss := fun s hs => hv s (hsplit.valid s hs)
  have hsource : (C.encodeAll ss).length ≤ source.elements.length := by
    rw [hsplit.eq, List.length_append]
    exact Nat.le_add_right _ _
  have hmax : 0 + (D.encodeAll ss).length < 2 ^ 64 := by
    have := length_encodeAll_le hk hsplit.valid
    have := Nat.mul_le_mul_left k hsource
    omega
  have hstart : C.Split (source.elements.drop 0) ss rest := by simpa using hsplit
  rw [measureFrom_split hd he hD hstart hmax] at hlarge
  dsimp only at hlarge
  rw [Nat.zero_add] at hlarge
  obtain ⟨hpieces, hends⟩ := convertPieces_split hd he hconvert hfits hD hsplit hfresh
  have hwhole := convertFrom_zero hd he hD hsplit one.elements
  dsimp only at hwhole ⊢
  rw [PrefixCode.fitting_eq_self hlarge, if_pos rfl] at hwhole
  rw [hconvert source one hnon, hwhole]
  dsimp only
  rw [List.take_left]
  refine ⟨hpieces, fun hlength => hends ?_⟩
  exact Nat.lt_of_le_of_lt (Nat.le_trans (PrefixCode.length_le_encodeAll hsplit.valid) hsource) hlength

end

/-! ## Both directions -/

namespace Utf8

def conversion (source : Span UInt8 1) (destination : Span UInt16 2) : Conversion UInt16 :=
  let (result, elements) := convertToUtf16 source destination
  ⟨result.sourceBytesConsumed, result.codeUnitsWritten, result.outcome, elements⟩

def measurement (source : Span UInt8 1) : Measure :=
  let result := measureToUtf16 source
  ⟨result.sourceBytesProcessed, result.requiredCodeUnits, result.outcome⟩

def validation (source : Span UInt8 1) : Nat × ValidationOutcome :=
  let result := validate source.elements
  (result.validPrefixBytes, result.outcome)

theorem conversion_eq (source : Span UInt8 1) (destination : Span UInt16 2)
    (h : NonOverlapping source destination) :
    conversion source destination =
      convertFrom utf8Decoder utf16Encoder source.elements destination.elements 0 0 := by
  rw [conversion, convertToUtf16, memoryRangesOverlap_eq_false (by omega) (by omega) h]
  rfl

end Utf8

namespace Utf16

def conversion (source : Span UInt16 2) (destination : Span UInt8 1) : Conversion UInt8 :=
  let (result, elements) := convertToUtf8 source destination
  ⟨result.sourceCodeUnitsConsumed, result.bytesWritten, result.outcome, elements⟩

def measurement (source : Span UInt16 2) : Measure :=
  let result := measureToUtf8 source
  ⟨result.sourceCodeUnitsProcessed, result.requiredBytes, result.outcome⟩

def validation (source : Span UInt16 2) : Nat × ValidationOutcome :=
  let result := validate source.elements
  (result.validPrefixCodeUnits, result.outcome)

theorem conversion_eq (source : Span UInt16 2) (destination : Span UInt8 1)
    (h : NonOverlapping source destination) :
    conversion source destination =
      convertFrom utf16Decoder utf8Encoder source.elements destination.elements 0 0 := by
  rw [conversion, convertToUtf8, memoryRangesOverlap_eq_false (by omega) (by omega) h]
  rfl

end Utf16

theorem length_utf16Units_le_two (s : Nat) : (utf16Units s).length ≤ 2 := by
  rw [length_utf16Units, utf16EncodedLength]
  split_ifs <;> omega

/-- **Conversions of any source.** In both directions a conversion into a destination that shares
no byte with the source follows the prefix law, and conversions of the remainders into fresh
destinations with room for one scalar give together what one conversion with room enough gives. -/
theorem convert_prefixLaw :
    (∀ (source : Span UInt8 1) (destination : Span UInt16 2), NonOverlapping source destination →
      PrefixLaw utf8Code utf16Code source.elements destination.elements
        (Utf8.conversion source destination) (Utf8.measurement source) (Utf8.validation source)) ∧
    (∀ (source : Span UInt8 1) (destinations : List (Span UInt16 2)) (one : Span UInt16 2),
      (∀ destination ∈ destinations, NonOverlapping source destination ∧
        2 ≤ destination.elements.length) → NonOverlapping source one →
      (Utf8.measureToUtf16 source).requiredCodeUnits ≤ one.elements.length →
      let pieces := convertPieces Utf8.conversion source destinations
      let whole := Utf8.conversion source one
      (pieces.outcome ≠ .destinationTooSmall →
        pieces = ⟨whole.consumed, whole.destination.take whole.written, whole.outcome⟩) ∧
      (source.elements.length < destinations.length → pieces.outcome ≠ .destinationTooSmall)) ∧
    (∀ (source : Span UInt16 2) (destination : Span UInt8 1), NonOverlapping source destination →
      PrefixLaw utf16Code utf8Code source.elements destination.elements
        (Utf16.conversion source destination) (Utf16.measurement source)
        (Utf16.validation source)) ∧
    ∀ (source : Span UInt16 2) (destinations : List (Span UInt8 1)) (one : Span UInt8 1),
      (∀ destination ∈ destinations, NonOverlapping source destination ∧
        4 ≤ destination.elements.length) → NonOverlapping source one →
      (Utf16.measureToUtf8 source).requiredBytes ≤ one.elements.length →
      let pieces := convertPieces Utf16.conversion source destinations
      let whole := Utf16.conversion source one
      (pieces.outcome ≠ .destinationTooSmall →
        pieces = ⟨whole.consumed, whole.destination.take whole.written, whole.outcome⟩) ∧
      (source.elements.length < destinations.length →
        pieces.outcome ≠ .destinationTooSmall) := by
  refine ⟨fun source destination hnon => ?_, fun source destinations one hfresh hnon hlarge => ?_,
    fun source destination hnon => ?_, fun source destinations one hfresh hnon hlarge => ?_⟩
  · have hlen := source.size_lt
    rw [Utf8.conversion_eq source destination hnon]
    exact convertFrom_prefixLaw utf8Decoder_decodes utf16Encoder_encodes (fun _ h => h)
      (fun s _ => length_utf16Units_le) (by omega) destination.elements
  · have hlen := source.size_lt
    exact convertPieces_whole utf8Decoder_decodes utf16Encoder_encodes (fun _ h => h)
      (fun s _ => length_utf16Units_le) Utf8.conversion_eq (fun s _ => length_utf16Units_le_two s)
      (by omega) hfresh hnon hlarge
  · have hlen := source.size_lt
    rw [Utf16.conversion_eq source destination hnon]
    exact convertFrom_prefixLaw utf16Decoder_decodes utf8Encoder_encodes (fun _ h => h)
      (fun s _ => length_utf8Bytes_le) (by omega) destination.elements
  · have hlen := source.size_lt
    exact convertPieces_whole utf16Decoder_decodes utf8Encoder_encodes (fun _ h => h)
      (fun s _ => length_utf8Bytes_le) Utf16.conversion_eq
      (fun s _ => Nat.le_trans (Nat.le_of_eq (length_utf8Bytes s)) (utf8EncodedLength_le s))
      (by omega) hfresh hnon hlarge

/-- "a😀" with a byte of another sequence, into two units each time; and a lone high surrogate. -/
theorem convert_prefixLaw_pieces :
    convertPieces Utf8.conversion ⟨0, [0x61, 0xF0, 0x9F, 0x98, 0x80, 0xE2], by decide⟩
        (List.replicate 7 ⟨8, [0, 0], by decide⟩) =
      ⟨5, [0x61, 0xD83D, 0xDE00], .incomplete⟩ ∧
    PrefixLaw utf16Code utf8Code [0xD83D, 0xDE00, 0xD83D] [0, 0, 0]
      (Utf16.conversion ⟨8, [0xD83D, 0xDE00, 0xD83D], by decide⟩ ⟨0, [0, 0, 0], by decide⟩)
      (Utf16.measurement ⟨8, [0xD83D, 0xDE00, 0xD83D], by decide⟩)
      (Utf16.validation ⟨8, [0xD83D, 0xDE00, 0xD83D], by decide⟩) := by
  have hnon : ∀ destination ∈ List.replicate 7 (⟨8, [0, 0], by decide⟩ : Span UInt16 2),
      NonOverlapping (⟨0, [0x61, 0xF0, 0x9F, 0x98, 0x80, 0xE2], by decide⟩ : Span UInt8 1)
        destination ∧ 2 ≤ destination.elements.length := by
    intro destination hmem
    rw [List.eq_of_mem_replicate hmem]
    refine ⟨fun a => ?_, by decide⟩
    simp only [Span.endAddress, List.length_cons, List.length_nil]
    omega
  have hone : NonOverlapping (⟨0, [0x61, 0xF0, 0x9F, 0x98, 0x80, 0xE2], by decide⟩ : Span UInt8 1)
      (⟨8, [0, 0, 0, 0], by decide⟩ : Span UInt16 2) := by
    intro a
    simp only [Span.endAddress, List.length_cons, List.length_nil]
    omega
  obtain ⟨hpieces, hends⟩ := convert_prefixLaw.2.1 _ _ _ hnon hone (by decide +kernel)
  refine ⟨(hpieces (hends (by decide))).trans (by decide +kernel),
    convert_prefixLaw.2.2.1 ⟨8, [0xD83D, 0xDE00, 0xD83D], by decide⟩ ⟨0, [0, 0, 0], by decide⟩
      fun a => ?_⟩
  simp only [Span.endAddress, List.length_cons, List.length_nil]
  omega

end Unicode

import GameWIP.Terminal.Proof.StreamInput

/-!
# The first line ending and the longest prefix of a text

What `findLineEnding` and `utf8Prefix` make of a text and of its prefixes: an ending is found in a
prefix as soon as the prefix holds it, a CR only with the byte behind it (`findLineEnding_shown`,
`findLineEnding_append`), and the prefix of scalars within a limit is the same for every prefix
of the text that reaches the limit (`utf8Prefix_text`).
-/

namespace Terminal

open Lib (PrefixCode)
open Unicode (utf8Code)
open Unicode.Utf8 (IsText decodeScalar)

/-! ## The first line ending -/

/-- The bytes hold no LF and no CR. -/
def Plain (bytes : List UInt8) : Prop := ∀ byte ∈ bytes, byte ≠ 0x0A ∧ byte ≠ 0x0D

theorem plain_nil : Plain [] := fun _ h => absurd h List.not_mem_nil

theorem plain_cons {byte : UInt8} {bytes : List UInt8} :
    Plain (byte :: bytes) ↔ (byte ≠ 0x0A ∧ byte ≠ 0x0D) ∧ Plain bytes := List.forall_mem_cons

theorem Plain.take {bytes : List UInt8} (h : Plain bytes) (count : Nat) : Plain (bytes.take count) :=
  fun byte hbyte => h byte (List.mem_of_mem_take hbyte)

/-- The search passes over plain bytes. -/
theorem findLineEndingFrom_plain (allowTrailingCr : Bool) {before : List UInt8}
    (h : Plain before) (rest : List UInt8) (index : Nat) :
    findLineEndingFrom allowTrailingCr index (before ++ rest) =
      findLineEndingFrom allowTrailingCr (index + before.length) rest := by
  induction before generalizing index with
  | nil => rfl
  | cons byte before ih =>
    obtain ⟨⟨hlf, hcr⟩, hbefore⟩ := plain_cons.1 h
    rw [List.cons_append, findLineEndingFrom, if_neg hlf, if_neg (by simp [hcr]),
      if_neg (by simp [hcr]), ih hbefore, List.length_cons, Nat.add_assoc, Nat.add_comm 1]

theorem findLineEnding_zero (bytes : List UInt8) (allowTrailingCr : Bool) :
    findLineEnding bytes 0 allowTrailingCr = findLineEndingFrom allowTrailingCr 0 bytes := by
  simp [findLineEnding]

/-- A search behind plain bytes finds what one from the start finds. -/
theorem findLineEnding_skip {bytes : List UInt8} {startOffset : Nat} (allowTrailingCr : Bool)
    (h : Plain (bytes.take startOffset)) :
    findLineEnding bytes startOffset allowTrailingCr = findLineEnding bytes 0 allowTrailingCr := by
  have hlength : (bytes.take startOffset).length = min startOffset bytes.length :=
    List.length_take
  have hdrop : bytes.drop (min startOffset bytes.length) = bytes.drop startOffset := by
    rcases Nat.le_total startOffset bytes.length with hle | hle
    · rw [Nat.min_eq_left hle]
    · rw [Nat.min_eq_right hle, List.drop_length, List.drop_eq_nil_of_le hle]
  have hpass := findLineEndingFrom_plain allowTrailingCr h (bytes.drop startOffset) 0
  rw [List.take_append_drop, Nat.zero_add, hlength] at hpass
  rw [findLineEnding_zero, hpass]
  unfold findLineEnding
  dsimp only
  rw [hdrop]

/-- How bytes go on up to their first line ending. -/
inductive LineShape : List UInt8 → Prop
  | plain {bytes : List UInt8} (h : Plain bytes) : LineShape bytes
  | lf {before : List UInt8} (h : Plain before) (behind : List UInt8) :
    LineShape (before ++ 0x0A :: behind)
  | crLf {before : List UInt8} (h : Plain before) (behind : List UInt8) :
    LineShape (before ++ 0x0D :: 0x0A :: behind)
  | cr {before : List UInt8} (h : Plain before) {next : UInt8} (hnext : next ≠ 0x0A)
    (behind : List UInt8) : LineShape (before ++ 0x0D :: next :: behind)
  | trailing {before : List UInt8} (h : Plain before) : LineShape (before ++ [0x0D])

theorem lineShape (bytes : List UInt8) : LineShape bytes := by
  induction bytes with
  | nil => exact .plain plain_nil
  | cons byte bytes ih =>
    by_cases hlf : byte = 0x0A
    · subst hlf
      exact .lf plain_nil bytes
    by_cases hcr : byte = 0x0D
    · subst hcr
      cases bytes with
      | nil => exact .trailing plain_nil
      | cons next behind =>
        by_cases hnext : next = 0x0A
        · subst hnext
          exact .crLf plain_nil behind
        · exact .cr plain_nil hnext behind
    · have hcons : ∀ {before : List UInt8}, Plain before → Plain (byte :: before) :=
        fun h => plain_cons.2 ⟨⟨hlf, hcr⟩, h⟩
      cases ih with
      | plain h => exact .plain (hcons h)
      | lf h behind => exact .lf (hcons h) behind
      | crLf h behind => exact .crLf (hcons h) behind
      | cr h hnext behind => exact .cr (hcons h) hnext behind
      | trailing h => exact .trailing (hcons h)

section Found

variable {before behind : List UInt8} (h : Plain before) (allowTrailingCr : Bool)

include h

theorem findLineEnding_plain : findLineEnding before 0 allowTrailingCr = {} := by
  have hpass := findLineEndingFrom_plain allowTrailingCr h [] 0
  rw [List.append_nil] at hpass
  rw [findLineEnding_zero, hpass, findLineEndingFrom]

theorem findLineEnding_lf (behind : List UInt8) :
    findLineEnding (before ++ 0x0A :: behind) 0 allowTrailingCr =
      { found := true, offset := before.length, length := 1, ending := .lf } := by
  rw [findLineEnding_zero, findLineEndingFrom_plain _ h, findLineEndingFrom, if_pos rfl, Nat.zero_add]

theorem findLineEnding_crLf (behind : List UInt8) :
    findLineEnding (before ++ 0x0D :: 0x0A :: behind) 0 allowTrailingCr =
      { found := true, offset := before.length, length := 2, ending := .crLf } := by
  rw [findLineEnding_zero, findLineEndingFrom_plain _ h, findLineEndingFrom, if_neg (by decide),
    if_pos (by simp), Nat.zero_add]

theorem findLineEnding_cr {next : UInt8} (hnext : next ≠ 0x0A) (behind : List UInt8) :
    findLineEnding (before ++ 0x0D :: next :: behind) 0 allowTrailingCr =
      { found := true, offset := before.length, length := 1, ending := .cr } := by
  rw [findLineEnding_zero, findLineEndingFrom_plain _ h, findLineEndingFrom, if_neg (by decide),
    if_neg (by simp [hnext]), if_pos (by simp), Nat.zero_add]

theorem findLineEnding_trailing : findLineEnding (before ++ [0x0D]) 0 false = {} := by
  rw [findLineEnding_zero, findLineEndingFrom_plain _ h, findLineEndingFrom, if_neg (by decide),
    if_neg (by simp), if_neg (by simp), findLineEndingFrom]

end Found

/-- The bytes a match has to see: an LF, or a CR and the byte behind it. -/
def LineEndingMatch.extent (ending : LineEndingMatch) : Nat :=
  ending.offset + if ending.ending = .lf then 1 else 2

/-- An ending found in a prefix is the first of the bytes, whatever follows the prefix. -/
theorem findLineEnding_append {view : List UInt8} (rest : List UInt8) (allowTrailingCr : Bool)
    (h : (findLineEnding view 0 false).found = true) :
    findLineEnding (view ++ rest) 0 allowTrailingCr = findLineEnding view 0 false ∧
      (findLineEnding view 0 false).extent ≤ view.length := by
  cases lineShape view with
  | plain hp =>
    rw [findLineEnding_plain hp] at h
    cases h
  | lf hp behind =>
    rw [List.append_assoc, List.cons_append, findLineEnding_lf hp, findLineEnding_lf hp]
    simp [LineEndingMatch.extent]
  | crLf hp behind =>
    rw [List.append_assoc, List.cons_append, List.cons_append, findLineEnding_crLf hp,
      findLineEnding_crLf hp]
    simp [LineEndingMatch.extent]
  | cr hp hnext behind =>
    rw [List.append_assoc, List.cons_append, List.cons_append, findLineEnding_cr hp _ hnext,
      findLineEnding_cr hp _ hnext]
    simp [LineEndingMatch.extent]
  | trailing hp =>
    rw [findLineEnding_trailing hp] at h
    cases h

theorem le_findLineEndingFrom {allowTrailingCr : Bool} {index : Nat} {bytes : List UInt8}
    (h : (findLineEndingFrom allowTrailingCr index bytes).found = true) :
    index ≤ (findLineEndingFrom allowTrailingCr index bytes).offset := by
  induction bytes generalizing index with
  | nil => cases h
  | cons byte bytes ih =>
    unfold findLineEndingFrom at h ⊢
    split_ifs at h ⊢
    · exact Nat.le_refl _
    · exact Nat.le_refl _
    · exact Nat.le_refl _
    · exact Nat.le_of_succ_le (ih h)

/-- It is found as soon as the prefix is long enough. -/
theorem findLineEnding_shown {view rest : List UInt8}
    (h : (findLineEnding (view ++ rest) 0 false).found = true)
    (hextent : (findLineEnding (view ++ rest) 0 false).extent ≤ view.length) :
    (findLineEnding view 0 false).found = true := by
  cases lineShape view with
  | plain hp =>
    -- the ending is behind the prefix
    rw [findLineEnding_zero, findLineEndingFrom_plain _ hp] at h hextent
    have hle := le_findLineEndingFrom h
    unfold LineEndingMatch.extent at hextent
    split_ifs at hextent <;> omega
  | lf hp behind => rw [findLineEnding_lf hp]
  | crLf hp behind => rw [findLineEnding_crLf hp]
  | cr hp hnext behind => rw [findLineEnding_cr hp _ hnext]
  | trailing hp =>
    -- the byte behind the CR is behind the prefix
    exfalso
    rw [List.append_assoc, List.cons_append, List.nil_append] at h hextent
    cases rest with
    | nil =>
      rw [findLineEnding_trailing hp] at h
      cases h
    | cons next behind =>
      by_cases hnext : next = 0x0A
      · subst hnext
        rw [findLineEnding_crLf hp] at hextent
        simp [LineEndingMatch.extent] at hextent
      · rw [findLineEnding_cr hp _ hnext] at hextent
        simp [LineEndingMatch.extent] at hextent

/-- What a search that found nothing has passed is plain. -/
theorem plain_of_not_found {view : List UInt8}
    (h : (findLineEnding view 0 false).found = false) :
    Plain (view.take (if view.getLast? = some 0x0D then view.length - 1 else view.length)) := by
  cases lineShape view with
  | plain hp => exact hp.take _
  | lf hp behind =>
    rw [findLineEnding_lf hp] at h
    cases h
  | crLf hp behind =>
    rw [findLineEnding_crLf hp] at h
    cases h
  | cr hp hnext behind =>
    rw [findLineEnding_cr hp _ hnext] at h
    cases h
  | trailing hp =>
    rw [if_pos (by simp)]
    simpa using hp

/-! ## Texts -/

/-- A text goes on being one in front of and from an ASCII byte on. -/
theorem isText_ascii {before behind : List UInt8} {byte : UInt8}
    (hbyte : Unicode.byteValue byte < 0x80) (h : utf8Code.IsText (before ++ byte :: behind)) :
    utf8Code.IsText before ∧ utf8Code.IsText (byte :: behind) := by
  obtain ⟨ss, hvalid, heq⟩ := h
  induction ss generalizing before with
  | nil => simp at heq
  | cons s ss ih =>
    obtain ⟨hs, hss⟩ := utf8Code.valid_cons.1 hvalid
    rw [utf8Code.encodeAll_cons] at heq
    rcases List.append_eq_append_iff.1 heq with ⟨inner, hs', hinner⟩ | ⟨more, rfl, hmore⟩
    · cases before with
      | nil => exact ⟨utf8Code.isText_nil, s :: ss, hvalid, by simpa using heq⟩
      | cons first before =>
        cases inner with
        | nil =>
          rw [List.append_nil] at hs'
          have hscalar : utf8Code.IsText (first :: before) :=
            ⟨[s], utf8Code.valid_cons.2 ⟨hs, utf8Code.valid_nil⟩, by simp [hs']⟩
          exact ⟨hscalar, ss, hss, by simpa using hinner⟩
        | cons next inner =>
          -- the byte would be inside a scalar of several bytes
          exfalso
          have hnext : byte = next := (List.cons.inj hinner).1
          have hmem : byte ∈ Unicode.utf8Bytes s := by
            change Unicode.utf8Bytes s = _ at hs'
            rw [hs', hnext]
            simp
          have hlong : 0x7F < s := by
            by_contra hshort
            have hone := congrArg List.length hs'
            change (Unicode.utf8Bytes s).length = _ at hone
            rw [Unicode.utf8Bytes_one (by omega)] at hone
            simp at hone
          have := Unicode.Utf8.utf8Bytes_high hlong (Unicode.isScalarValue_iff.1 hs).1 hmem
          omega
    · obtain ⟨hbefore, hbehind⟩ := ih hss hmore.symm
      refine ⟨?_, hbehind⟩
      have hscalar : utf8Code.IsText (utf8Code.encode s) :=
        ⟨[s], utf8Code.valid_cons.2 ⟨hs, utf8Code.valid_nil⟩, by simp⟩
      exact hscalar.append hbefore

theorem decodeScalar_encode {s : Nat} (hs : utf8Code.valid s) (rest : List UInt8) :
    decodeScalar (utf8Code.encode s ++ rest) =
      { scalar := s, bytesConsumed := (utf8Code.encode s).length, outcome := .decoded } :=
  Unicode.Utf8.decodeScalar_decoded_iff.2 (PrefixCode.decode_append hs rest)

/-- Decoding the start of an encoding decodes its scalar or asks for more. -/
theorem decodeScalar_start {s : Nat} (hs : utf8Code.valid s) {bytes rest : List UInt8}
    (hstart : bytes <+: utf8Code.encode s ++ rest) :
    (decodeScalar bytes).outcome = .incomplete ∨ decodeScalar bytes =
      { scalar := s, bytesConsumed := (utf8Code.encode s).length, outcome := .decoded } := by
  rcases List.prefix_or_prefix_of_prefix hstart (List.prefix_append (utf8Code.encode s) rest) with
    hshort | ⟨more, rfl⟩
  · by_cases heq : bytes = utf8Code.encode s
    · right
      rw [heq]
      simpa using decodeScalar_encode hs []
    · left
      exact Unicode.Utf8.decodeScalar_incomplete_iff.2
        (utf8Code.incomplete_iff.2 ⟨s, hs, hshort, heq⟩)
  · exact .inr (decodeScalar_encode hs more)

/-- The loop goes past a scalar that fits. -/
theorem utf8PrefixFrom_decoded {bytes : List UInt8} {maxBytes offset s : Nat}
    (hlt : offset < bytes.length) (hs : utf8Code.valid s)
    (hstart : utf8Code.encode s <+: bytes.drop offset)
    (hfit : offset + (utf8Code.encode s).length ≤ maxBytes) :
    utf8PrefixFrom bytes maxBytes offset =
      utf8PrefixFrom bytes maxBytes (offset + (utf8Code.encode s).length) := by
  obtain ⟨rest, hrest⟩ := hstart
  have hdecoded := decodeScalar_encode hs rest
  rw [hrest] at hdecoded
  fun_cases utf8PrefixFrom bytes maxBytes offset with
  | case1 _ decoded ho =>
    change (decodeScalar (bytes.drop offset)).outcome = _ at ho
    rw [hdecoded] at ho
    cases ho
  | case2 _ decoded ho =>
    change (decodeScalar (bytes.drop offset)).outcome = _ at ho
    rw [hdecoded] at ho
    cases ho
  | case3 _ decoded ho hpos hover =>
    change (decodeScalar (bytes.drop offset)).bytesConsumed > _ at hover
    rw [hdecoded] at hover
    dsimp only at hover
    omega
  | case4 _ decoded ho hpos hle =>
    change utf8PrefixFrom bytes maxBytes (offset + (decodeScalar (bytes.drop offset)).bytesConsumed)
      = _
    rw [hdecoded]
  | case5 hnot => exact absurd hlt hnot

/-- It stops in front of one that does not fit. -/
theorem utf8PrefixFrom_stops {bytes rest : List UInt8} {maxBytes offset s : Nat}
    (hs : utf8Code.valid s) (hstart : bytes.drop offset <+: utf8Code.encode s ++ rest)
    (hover : maxBytes < offset + (utf8Code.encode s).length) :
    (utf8PrefixFrom bytes maxBytes offset).valid = true ∧
      (utf8PrefixFrom bytes maxBytes offset).bytes = offset := by
  have hpos := PrefixCode.encode_length_pos hs
  have hdecode := decodeScalar_start hs hstart
  fun_cases utf8PrefixFrom bytes maxBytes offset with
  | case1 hlt decoded ho => exact ⟨rfl, rfl⟩
  | case2 hlt decoded ho =>
    change (decodeScalar (bytes.drop offset)).outcome = _ at ho
    rcases hdecode with hmore | hdecoded
    · rw [ho] at hmore
      cases hmore
    · rw [hdecoded] at ho
      cases ho
  | case3 hlt decoded ho hlong hstop => exact ⟨rfl, rfl⟩
  | case4 hlt decoded ho hlong hfit =>
    change (decodeScalar (bytes.drop offset)).outcome = _ at ho
    change ¬ (decodeScalar (bytes.drop offset)).bytesConsumed > _ at hfit
    rcases hdecode with hmore | hdecoded
    · rw [ho] at hmore
      cases hmore
    · rw [hdecoded] at hfit
      dsimp only at hfit
      omega
  | case5 hnot => exact ⟨rfl, rfl⟩

/-- The loop behind some scalars takes those of the rest that fit. -/
theorem utf8PrefixFrom_text {todo : List Nat} (hvalid : utf8Code.Valid todo) (done : List Nat)
    {view rest : List UInt8} {maxBytes : Nat} (hview : view = utf8Code.encodeAll done ++ rest)
    (hrest : rest <+: utf8Code.encodeAll todo)
    (hdone : (utf8Code.encodeAll done).length ≤ maxBytes) (hreach : maxBytes ≤ view.length) :
    (utf8PrefixFrom view maxBytes (utf8Code.encodeAll done).length).valid = true ∧
      (utf8PrefixFrom view maxBytes (utf8Code.encodeAll done).length).bytes =
        (utf8Code.encodeAll done).length + (utf8Code.encodeAll
          (utf8Code.fitting (maxBytes - (utf8Code.encodeAll done).length) todo)).length := by
  have hdrop : view.drop (utf8Code.encodeAll done).length = rest := by rw [hview, List.drop_left]
  have hlength : view.length = (utf8Code.encodeAll done).length + rest.length := by
    rw [hview, List.length_append]
  induction todo generalizing done rest with
  | nil =>
    obtain rfl := List.prefix_nil.1 hrest
    rw [utf8PrefixFrom, dif_neg (by simp [hlength])]
    simp [PrefixCode.fitting]
  | cons s todo ih =>
    obtain ⟨hs, htodo⟩ := utf8Code.valid_cons.1 hvalid
    rw [utf8Code.encodeAll_cons] at hrest
    have hpos := PrefixCode.encode_length_pos hs
    rw [PrefixCode.fitting]
    split_ifs with hfit
    · have hstart : utf8Code.encode s <+: rest :=
        List.prefix_of_prefix_length_le (List.prefix_append _ _) hrest (by omega)
      obtain ⟨rest', rfl⟩ := hstart
      rw [List.length_append] at hlength
      rw [utf8PrefixFrom_decoded (by omega) hs (by rw [hdrop]; exact List.prefix_append _ _)
        (by omega)]
      have hmore : (utf8Code.encodeAll (done ++ [s])).length =
          (utf8Code.encodeAll done).length + (utf8Code.encode s).length := by simp
      have hview' : view = utf8Code.encodeAll (done ++ [s]) ++ rest' := by simp [hview]
      have hnext := ih htodo (done ++ [s]) hview' ((List.prefix_append_right_inj _).1 hrest)
        (by omega) (by rw [hview', List.drop_left]) (by rw [hview', List.length_append])
      rw [hmore] at hnext
      refine ⟨hnext.1, ?_⟩
      rw [hnext.2, utf8Code.encodeAll_cons, List.length_append, Nat.sub_add_eq]
      omega
    · have hstops := utf8PrefixFrom_stops hs (by rw [hdrop]; exact hrest)
        (show maxBytes < (utf8Code.encodeAll done).length + (utf8Code.encode s).length by omega)
      exact ⟨hstops.1, by rw [hstops.2]; simp⟩

/-- The scalars of a text within the limit are the longest prefix of every view of it that reaches
the limit. -/
theorem utf8Prefix_text {ss : List Nat} (hvalid : utf8Code.Valid ss) {view : List UInt8}
    {maxBytes : Nat} (hstarts : view <+: utf8Code.encodeAll ss) (hreach : maxBytes ≤ view.length) :
    (utf8Prefix view maxBytes).valid = true ∧
      (utf8Prefix view maxBytes).bytes =
        (utf8Code.encodeAll (utf8Code.fitting maxBytes ss)).length := by
  have h := utf8PrefixFrom_text hvalid [] rfl hstarts (Nat.zero_le _) hreach
  simpa [utf8Prefix] using h

/-- The limit does not stop the loop in a view that is no longer. -/
theorem utf8PrefixFrom_not_stopped {bytes : List UInt8} {maxBytes offset : Nat}
    (hle : bytes.length ≤ maxBytes) :
    (utf8PrefixFrom bytes maxBytes offset).stoppedByMax = false := by
  fun_induction utf8PrefixFrom bytes maxBytes offset with
  | case1 => rfl
  | case2 => rfl
  | case3 offset hlt decoded ho hpos hover =>
    have hdecoded : decodeScalar (bytes.drop offset) =
        { scalar := decoded.scalar, bytesConsumed := decoded.bytesConsumed,
          outcome := .decoded } := by
      rw [← ho]
    obtain ⟨-, -, hfits, -⟩ :=
      ((Unicode.Utf8.validate_spec (bytes.drop offset)).2.2.2.2.1 _ _).1 hdecoded
    rw [List.length_drop] at hfits
    omega
  | case4 offset hlt decoded ho hpos hfit ih => exact ih
  | case5 => rfl

/-- A first scalar over the limit stops it at once. -/
theorem utf8Prefix_over {s : Nat} (hs : utf8Code.valid s) {bytes : List UInt8} {maxBytes : Nat}
    (hstart : utf8Code.encode s <+: bytes) (hover : maxBytes < (utf8Code.encode s).length) :
    utf8Prefix bytes maxBytes = { stoppedByMax := true } := by
  obtain ⟨rest, rfl⟩ := hstart
  have hdecoded := decodeScalar_encode hs rest
  have hpos := PrefixCode.encode_length_pos hs
  unfold utf8Prefix
  fun_cases utf8PrefixFrom (utf8Code.encode s ++ rest) maxBytes 0 with
  | case1 _ decoded ho =>
    change (decodeScalar (utf8Code.encode s ++ rest)).outcome = _ at ho
    rw [hdecoded] at ho
    cases ho
  | case2 _ decoded ho =>
    change (decodeScalar (utf8Code.encode s ++ rest)).outcome = _ at ho
    rw [hdecoded] at ho
    cases ho
  | case3 => rfl
  | case4 _ decoded ho _ hfit =>
    change ¬ (decodeScalar (utf8Code.encode s ++ rest)).bytesConsumed > _ at hfit
    rw [hdecoded] at hfit
    dsimp only at hfit
    omega
  | case5 hnot =>
    rw [List.length_append] at hnot
    omega

end Terminal

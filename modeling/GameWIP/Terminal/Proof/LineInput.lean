import GameWIP.Terminal.LineInput
import GameWIP.Unicode.Proof.GraphemeCursor

/-!
# The line editor keeps its text, caret and index

Between two events the line is valid UTF-8 within the limit, the caret is a grapheme boundary, and
a ready index has the boundaries a fresh pass over the line would visit (`LineEditor.WellFormed`).

1. `GraphemeIndex`: over a fresh index every query succeeds and leaves the index ready
   (`GraphemeIndex.At`); cutting it off at its current boundary makes it an index of the line cut
   off there.
2. The edits: text put in or taken out at a caret leaves a cut of the new line, which
   `normalizeCaret` moves to a boundary.
3. The events, each with an early return (`Lib.Yields`), and the loop.

`managedTerminalLineRead_spec` puts the loop together.
-/

namespace Terminal

open Io (Status ErrorCode makeStatus successStatus)
open Lib (Yields)
open Unicode (utf8Code)
open Unicode.Utf8 (Cut segmentation GraphemeCursor)

/-! ## The index -/

namespace GraphemeIndex

variable {index : GraphemeIndex} {text : List UInt8} {b : Nat}

/-- A ready index has the boundaries of the text. -/
def Fresh (index : GraphemeIndex) (text : List UInt8) : Prop :=
  index.ready_ = true → index.cursor_.boundaries_ = segmentation text

/-- The index of the text is ready and stands on a boundary. -/
structure At (index : GraphemeIndex) (text : List UInt8) (b : Nat) : Prop where
  ready : index.ready_ = true
  boundaries : index.cursor_.boundaries_ = segmentation text
  current : (segmentation text)[index.cursor_.currentBoundaryIndex_]? = some b

theorem At.fresh (h : index.At text b) : index.Fresh text := fun _ => h.boundaries

theorem At.mem (h : index.At text b) : b ∈ segmentation text := List.mem_of_getElem? h.current

theorem fresh_invalidate : index.invalidate.Fresh text := by
  intro h
  cases h

theorem ensure_spec (ht : utf8Code.IsText text) (hf : index.Fresh text) :
    ∃ index', index.ensure text = (index', successStatus) ∧ index'.ready_ = true ∧
      index'.cursor_.boundaries_ = segmentation text := by
  unfold ensure
  split_ifs with hready
  · exact ⟨index, rfl, hready, hf hready⟩
  · -- the storage is grown to what the index needs
    let indexed (storage : Nat) : GraphemeIndex :=
      { storage_ := storage, cursor_ := { boundaries_ := segmentation text }, ready_ := true }
    by_cases hroom : (segmentation text).length > index.storage_
    · refine ⟨indexed (segmentation text).length, ?_, rfl, rfl⟩
      simp only [GraphemeCursor.reset_spec _ _ ht, hroom, if_true, gt_iff_lt, lt_irrefl, if_false]
      rfl
    · refine ⟨indexed index.storage_, ?_, rfl, rfl⟩
      simp only [GraphemeCursor.reset_spec _ _ ht, hroom, if_false]
      rfl

/-- A seek behind an `ensure` that left the boundaries of a text. -/
theorem ensured_seek {index' : GraphemeIndex} {text' : List UInt8} (ht : utf8Code.IsText text)
    (he : index.ensure text' = (index', successStatus)) (hready : index'.ready_ = true)
    (hboundaries : index'.cursor_.boundaries_ = segmentation text) (hb : b ∈ segmentation text) :
    ∃ index'', index.seek text' b = (index'', successStatus) ∧ index''.At text b := by
  have hp := Unicode.Utf8.segmentation_pairwise ht
  rw [← hboundaries] at hp hb
  obtain ⟨i, hi, hseek⟩ := GraphemeCursor.seek_of_mem hp hb
  refine ⟨{ index' with cursor_ := { index'.cursor_ with currentBoundaryIndex_ := i } }, ?_,
    hready, hboundaries, ?_⟩
  · unfold seek
    simp only [he, hseek]
    rfl
  · rw [← hboundaries]
    exact hi

theorem seek_spec (ht : utf8Code.IsText text) (hf : index.Fresh text)
    (hb : b ∈ segmentation text) :
    ∃ index', index.seek text b = (index', successStatus) ∧ index'.At text b := by
  obtain ⟨index', he, hready, hboundaries⟩ := ensure_spec ht hf
  exact ensured_seek ht he hready hboundaries hb

/-- A ready index seeks in the boundaries it has, whatever the text is by now. -/
theorem At.seek {b' : Nat} (h : index.At text b) (ht : utf8Code.IsText text)
    (hb : b' ∈ segmentation text) (text' : List UInt8) :
    ∃ index', index.seek text' b' = (index', successStatus) ∧ index'.At text b' := by
  have he : index.ensure text' = (index, successStatus) := if_pos h.ready
  exact ensured_seek ht he h.ready h.boundaries hb

/-- The boundary in front of one, or none. -/
theorem previous_spec (ht : utf8Code.IsText text) (hf : index.Fresh text)
    (hb : b ∈ segmentation text) :
    ∃ index', (index.previous text b = (index', none, successStatus) ∧ index'.At text b) ∨
      ∃ p, p < b ∧ index.previous text b = (index', some p, successStatus) ∧ index'.At text p := by
  obtain ⟨index', he, hat⟩ := seek_spec ht hf hb
  have hp := Unicode.Utf8.segmentation_pairwise ht
  have hcurrent := hat.current
  rw [← hat.boundaries] at hp hcurrent
  unfold previous
  simp only [he]
  obtain hprev | ⟨i, p, hlt, hi, hprev⟩ := GraphemeCursor.previous_spec hp hcurrent
  · rw [hprev]
    exact ⟨index', .inl ⟨rfl, hat⟩⟩
  · rw [hprev]
    rw [hat.boundaries] at hi
    exact ⟨_, .inr ⟨p, hlt, rfl, hat.ready, hat.boundaries, hi⟩⟩

/-- The boundary behind one, or none. -/
theorem next_spec (ht : utf8Code.IsText text) (hf : index.Fresh text)
    (hb : b ∈ segmentation text) :
    ∃ index', (index.next text b = (index', none, successStatus) ∧ index'.At text b) ∨
      ∃ n, b < n ∧ index.next text b = (index', some n, successStatus) ∧ index'.At text n := by
  obtain ⟨index', he, hat⟩ := seek_spec ht hf hb
  have hp := Unicode.Utf8.segmentation_pairwise ht
  have hcurrent := hat.current
  rw [← hat.boundaries] at hp hcurrent
  unfold next
  simp only [he]
  obtain ⟨offset, hnext⟩ | ⟨i, n, hlt, hi, hnext⟩ := GraphemeCursor.next_spec hp hcurrent
  · rw [hnext]
    exact ⟨index', .inl ⟨rfl, hat⟩⟩
  · rw [hnext]
    rw [hat.boundaries] at hi
    exact ⟨_, .inr ⟨n, hlt, rfl, hat.ready, hat.boundaries, hi⟩⟩

/-- The index cut off at its boundary is the index of the text cut off there. -/
theorem At.retainThroughCurrent (ht : utf8Code.IsText text) (h : index.At text b) :
    index.retainThroughCurrent.At (text.take b) b := by
  have htake := Unicode.Utf8.segmentation_take ht h.current
  have hready : index.cursor_.ready = true := by
    apply GraphemeCursor.ready_of_mem
    rw [h.boundaries]
    exact h.mem
  unfold GraphemeIndex.retainThroughCurrent GraphemeCursor.discardAfterCurrent
  rw [if_pos h.ready, if_pos hready]
  refine ⟨h.ready, ?_, ?_⟩
  · rw [htake, h.boundaries]
  · rw [htake, List.getElem?_take_of_lt (Nat.lt_succ_self _)]
    exact h.current

/-- A cut of the text is moved to a boundary. -/
theorem normalizeCaret_spec {l r : List Nat} (hc : Cut text b l r) (hf : index.Fresh text) :
    ∃ index' b', index.normalizeCaret text b = (index', b', successStatus) ∧
      index'.Fresh text ∧ b' ∈ segmentation text := by
  obtain ⟨index', he, hready, hboundaries⟩ := ensure_spec hc.isText hf
  have hp := Unicode.Utf8.segmentation_pairwise hc.isText
  rw [← hboundaries] at hp
  have hfresh : ∀ o ∈ segmentation text,
      Fresh { index' with cursor_ := (index'.cursor_.seek o).1 } text := by
    intro o ho _
    rw [← hboundaries] at ho
    obtain ⟨i, _, hseek⟩ := GraphemeCursor.seek_of_mem hp ho
    rw [hseek]
    exact hboundaries
  unfold normalizeCaret
  simp only [he]
  by_cases hb : b ∈ segmentation text
  · obtain ⟨i, hi, hseek⟩ := GraphemeCursor.seek_of_mem hp (hboundaries ▸ hb)
    rw [hseek]
    exact ⟨_, b, rfl, fun _ => hboundaries, hb⟩
  · rw [GraphemeCursor.seek_of_not_mem (by rwa [hboundaries])]
    -- the cut is inside the text, since its end is a boundary
    cases r with
    | nil =>
      rw [hc.mem_iff, List.append_nil] at hb
      exact absurd (Unicode.graphemes.length_mem_boundaries l) hb
    | cons c r =>
      obtain ⟨b', hnext, hleast⟩ := Unicode.Utf8.nextGraphemeBoundary_eq hc.valid hc.eq
      rw [← hc.offset] at hnext
      rw [hnext]
      have hb' : b' ∈ segmentation text := by
        rw [hc.segmentation_eq]
        exact hleast.1.1
      exact ⟨_, b', rfl, hfresh b' hb', hb'⟩

end GraphemeIndex

/-! ## The editor -/

/-- What holds of the editor in front of every event: the line is valid UTF-8 within the limit, the
caret is a boundary, a ready index has the boundaries of a fresh pass, and nothing has failed. -/
structure LineEditor.WellFormed (options : LineOptions) (editor : LineEditor) : Prop where
  valid : (Unicode.Utf8.validate editor.line).outcome = .valid
  length_le : editor.line.length ≤ options.maxReturnedBytes
  caret : editor.caret ∈ segmentation editor.line
  index : editor.graphemes.ready_ = true →
    editor.graphemes.cursor_.boundaries_ = segmentation editor.line
  status : editor.result.status.ok = true

/-- A returned line is valid UTF-8 within the limit, and with the echo off its read fails with
`encodingFailed` for that cause only. -/
structure LineResult.Returns (options : LineOptions) (cause : Prop) (result : LineResult) :
    Prop where
  valid : (Unicode.Utf8.validate result.line).outcome = .valid
  length_le : result.line.length ≤ options.maxReturnedBytes
  encodingFailed : options.echo = false → result.status.code = .encodingFailed → cause

namespace LineEditor

variable {options : LineOptions} {editor : LineEditor} {cause : Prop}

theorem maxBytes_le (options : LineOptions) : options.maxBytes ≤ options.maxReturnedBytes := by
  unfold LineOptions.maxBytes
  split_ifs <;> omega

theorem WellFormed.isText (h : editor.WellFormed options) : utf8Code.IsText editor.line :=
  Unicode.Utf8.validate_valid_iff.1 h.valid

/-- A result of the editor's line. -/
theorem WellFormed.returns (h : editor.WellFormed options) {result : LineResult}
    (hl : result.line = editor.line)
    (hc : options.echo = false → result.status.code = .encodingFailed → cause) :
    result.Returns options cause :=
  ⟨hl ▸ h.valid, hl ▸ h.length_le, hc⟩

theorem code_of_ok {status : Status} (h : status.ok = true) : status.code = .success := by
  simpa [Status.ok] using h

/-! ### Checks -/

theorem check_yields {status : Status} (h : editor.WellFormed options)
    (hc : options.echo = false → status.code = .encodingFailed → cause) :
    Yields (WellFormed options) (LineResult.Returns options cause) (editor.check status) := by
  unfold check
  cases hok : status.ok with
  | true => exact ⟨h.valid, h.length_le, h.caret, h.index, hok⟩
  | false => exact h.returns rfl hc

theorem echoed_off (answer : Status) (he : options.echo = false) :
    options.echoed answer = successStatus := by
  unfold LineOptions.echoed
  rw [he]
  rfl

/-- The echo is no cause, since it is off. -/
theorem check_echoed (answer : Status) (h : editor.WellFormed options) :
    Yields (WellFormed options) (LineResult.Returns options cause)
      (editor.check (options.echoed answer)) := by
  apply check_yields h
  intro he hcode
  rw [echoed_off answer he] at hcode
  cases hcode

/-! ### Edits -/

/-- Behind an edit the caret is a cut of the line, and `normalizeCaret` moves it to a boundary. -/
theorem normalizeCaret_spec {l r : List Nat} (hc : Cut editor.line editor.caret l r)
    (hl : editor.line.length ≤ options.maxReturnedBytes)
    (hf : editor.graphemes.Fresh editor.line) (hs : editor.result.status.ok = true) :
    ∃ editor', editor.normalizeCaret = (editor', successStatus) ∧ editor'.WellFormed options := by
  obtain ⟨index, caret, he, hfresh, hcaret⟩ := GraphemeIndex.normalizeCaret_spec hc hf
  refine ⟨{ editor with graphemes := index, caret }, ?_, ?_⟩
  · unfold normalizeCaret
    rw [he]
  · exact ⟨Unicode.Utf8.validate_valid_iff.2 hc.isText, hl, hcaret, hfresh, hs⟩

/-- Text put in at the caret. -/
theorem insert_spec {m : List Nat} (h : editor.WellFormed options) (hm : utf8Code.Valid m)
    (hl : editor.line.length + (utf8Code.encodeAll m).length ≤ options.maxReturnedBytes) :
    ∃ editor', (if editor.caret == editor.line.length then
        (editor.insert (utf8Code.encodeAll m), successStatus)
      else (editor.insert (utf8Code.encodeAll m)).normalizeCaret) = (editor', successStatus) ∧
      editor'.WellFormed options := by
  obtain ⟨l, r, hcut⟩ := Unicode.Utf8.exists_cut_of_mem h.isText h.caret
  have hcut' := hcut.insert hm
  have hlen : (editor.insert (utf8Code.encodeAll m)).line.length ≤ options.maxReturnedBytes := by
    have hle := hcut.le
    simp only [insert, List.length_append, List.length_take, List.length_drop]
    omega
  by_cases hend : editor.caret = editor.line.length
  · rw [if_pos (beq_iff_eq.2 hend)]
    refine ⟨_, rfl, Unicode.Utf8.validate_valid_iff.2 hcut'.isText, hlen, ?_,
      GraphemeIndex.fresh_invalidate, h.status⟩
    -- the caret is behind the last byte
    have hcaret : (editor.insert (utf8Code.encodeAll m)).caret =
        (editor.insert (utf8Code.encodeAll m)).line.length := by
      simp only [insert, List.length_append, List.length_take, List.length_drop]
      omega
    rw [hcaret]
    exact Unicode.Utf8.length_mem_segmentation hcut'.isText
  · rw [if_neg (by simpa using hend)]
    exact normalizeCaret_spec hcut' hlen GraphemeIndex.fresh_invalidate h.status

/-- A cluster taken out between two boundaries, the caret in front of it. -/
theorem erase_spec {position last : Nat} (h : editor.WellFormed options)
    (hp : position ∈ segmentation editor.line) (hl : last ∈ segmentation editor.line)
    (hle : position ≤ last) :
    ∃ editor', (editor.erase position (last - position)).normalizeCaret =
      (editor', successStatus) ∧ editor'.WellFormed options := by
  obtain ⟨l, m, r, hcut, hcut'⟩ := Unicode.Utf8.exists_cuts_of_mem h.isText hp hl hle
  have herase := hcut.erase hcut'
  have hlast : position + (last - position) = last := by omega
  have hcaret : Cut (editor.erase position (last - position)).line
      (editor.erase position (last - position)).caret l r := by
    simpa only [erase, hlast] using herase
  have hlen : (editor.erase position (last - position)).line.length ≤ options.maxReturnedBytes := by
    have := h.length_le
    simp only [erase, List.length_append, List.length_take, List.length_drop]
    omega
  exact normalizeCaret_spec hcaret hlen GraphemeIndex.fresh_invalidate h.status

/-- The line cut off at a boundary, with an index of what is left. -/
theorem cutOff_spec {b : Nat} {graphemes : GraphemeIndex} (h : editor.WellFormed options)
    (hb : b ∈ segmentation editor.line) (hat : graphemes.At (editor.line.take b) b) :
    WellFormed options { editor with line := editor.line.take b, caret := b, graphemes } := by
  obtain ⟨l, r, hcut⟩ := Unicode.Utf8.exists_cut_of_mem h.isText hb
  refine ⟨Unicode.Utf8.validate_valid_iff.2 hcut.prefix.isText, ?_, hat.mem, hat.fresh, h.status⟩
  have := h.length_le
  simp only [List.length_take]
  omega

theorem WellFormed.moved {b : Nat} {graphemes : GraphemeIndex} (h : editor.WellFormed options)
    (hat : graphemes.At editor.line b) :
    WellFormed options { editor with graphemes, caret := b } :=
  ⟨h.valid, h.length_le, hat.mem, hat.fresh, h.status⟩

theorem WellFormed.indexed {b : Nat} {graphemes : GraphemeIndex} (h : editor.WellFormed options)
    (hat : graphemes.At editor.line b) : WellFormed options { editor with graphemes } :=
  ⟨h.valid, h.length_le, h.caret, hat.fresh, h.status⟩

theorem WellFormed.truncated (h : editor.WellFormed options) :
    editor.truncated.WellFormed options :=
  ⟨h.valid, h.length_le, h.caret, h.index, h.status⟩

/-! ### Characters and pastes -/

/-- A character is inserted, dropped at the limit, or no scalar value. -/
theorem insertScalar_spec (scalar : Nat) (h : editor.WellFormed options) :
    (¬ Unicode.Utf8.IsScalar scalar ∧
      editor.insertScalar scalar options.maxBytes = (editor, makeStatus .encodingFailed)) ∨
    ∃ editor', editor.insertScalar scalar options.maxBytes = (editor', successStatus) ∧
      editor'.WellFormed options := by
  unfold insertScalar
  cases hs : Unicode.isScalarValue scalar with
  | false =>
    refine .inl ⟨?_, ?_⟩
    · rw [Unicode.Utf8.isScalar_iff, hs]
      decide
    · simp [Unicode.Utf8.encodeScalar, hs]
  | true =>
    obtain ⟨houtcome, hcount, hbytes⟩ := Unicode.encodeScalar_bytes hs
    simp only [houtcome, hbytes, bne_self_eq_false, Bool.false_eq_true, if_false]
    split_ifs with hroom
    · exact .inr ⟨_, rfl, h.truncated⟩
    all_goals
      have hv : utf8Code.Valid [scalar] := utf8Code.valid_cons.2 ⟨hs, utf8Code.valid_nil⟩
      have hencode : utf8Code.encodeAll [scalar] = Unicode.utf8Bytes scalar := List.append_nil _
      have hlen : editor.line.length + (utf8Code.encodeAll [scalar]).length ≤
          options.maxReturnedBytes := by
        have := maxBytes_le options
        have := h.length_le
        rw [hencode, Unicode.length_utf8Bytes, ← hcount]
        omega
      have hins := insert_spec h hv hlen
      rw [hencode] at hins
    · rename_i hend
      rw [if_pos hend] at hins
      exact .inr hins
    · rename_i hend
      rw [if_neg hend] at hins
      exact .inr hins

/-- The part of a pasted text that is examined is malformed: behind whole scalars within the room
there is something that is not decoded. -/
def MalformedPaste (text : List UInt8) (room : Nat) : Prop :=
  ∃ n < text.length, n ≤ room ∧ utf8Code.IsText (text.take n) ∧
    (Unicode.Utf8.decodeScalar (text.drop n)).outcome ≠ .decoded

/-- The bytes of a decoded scalar extend a text. -/
theorem isText_take_add {text : List UInt8} {n : Nat} (ht : utf8Code.IsText (text.take n))
    (hn : n ≤ text.length)
    (hd : (Unicode.Utf8.decodeScalar (text.drop n)).outcome = .decoded) :
    utf8Code.IsText (text.take (n + (Unicode.Utf8.decodeScalar (text.drop n)).bytesConsumed)) ∧
      n + (Unicode.Utf8.decodeScalar (text.drop n)).bytesConsumed ≤ text.length := by
  have hdecode : (Unicode.decodeUtf8Scalar (text.drop n)).decoding =
      .decoded (Unicode.decodeUtf8Scalar (text.drop n)).scalar
        (Unicode.decodeUtf8Scalar (text.drop n)).bytesConsumed :=
    Unicode.ScalarDecode.decoding_decoded.2 (by
      rw [← show (Unicode.Utf8.decodeScalar (text.drop n)).outcome = _ from hd]
      rfl)
  obtain ⟨hs, hlen, hp⟩ := Unicode.decodeUtf8Scalar_sound hdecode
  constructor
  · rw [List.take_add]
    apply ht.append
    change utf8Code.IsText ((text.drop n).take (Unicode.decodeUtf8Scalar (text.drop n)).bytesConsumed)
    rw [hlen, ← List.prefix_iff_eq_take.1 hp]
    refine ⟨[_], utf8Code.valid_cons.2 ⟨hs, utf8Code.valid_nil⟩, ?_⟩
    exact (List.append_nil _).symm
  · have hle := hp.length_le
    rw [← hlen, List.length_drop] at hle
    simp only [Unicode.Utf8.decodeScalar]
    omega

/-- The bytes accepted of a paste are whole scalars within the room. -/
theorem acceptedPaste_spec (text : List UInt8) (room accepted : Nat)
    (ht : utf8Code.IsText (text.take accepted)) (hle : accepted ≤ text.length)
    (hroom : accepted ≤ room) :
    match acceptedPaste text room accepted with
    | none => MalformedPaste text room
    | some n => n ≤ text.length ∧ n ≤ room ∧ utf8Code.IsText (text.take n) := by
  induction hk : text.length - accepted using Nat.strongRecOn generalizing accepted with
  | _ k ih =>
    unfold acceptedPaste
    by_cases hlt : accepted < text.length
    · rw [dif_pos hlt]
      by_cases hd : (Unicode.Utf8.decodeScalar (text.drop accepted)).outcome = .decoded
      · simp only [hd, ne_eq, not_true, dif_neg, not_false_eq_true]
        have hpos := Unicode.decodeUtf8Scalar_bytesConsumed_pos hd
        split_ifs with hfull
        · exact ⟨hle, hroom, ht⟩
        · obtain ⟨ht', hle'⟩ := isText_take_add ht hle hd
          apply ih _ _ _ ht' hle' _ rfl
          · simp only [Unicode.Utf8.decodeScalar] at hle' ⊢
            omega
          · omega
      · rw [dif_pos hd]
        exact ⟨accepted, hlt, hroom, ht, hd⟩
    · rw [dif_neg hlt]
      exact ⟨hle, hroom, ht⟩

/-- A paste is inserted, cut off at the limit, or malformed where it is examined. -/
theorem insertPaste_spec (text : List UInt8) (h : editor.WellFormed options) :
    (MalformedPaste text (options.maxBytes - min options.maxBytes editor.line.length) ∧
      editor.insertPaste text options.maxBytes = (editor, makeStatus .encodingFailed)) ∨
    ∃ editor', editor.insertPaste text options.maxBytes = (editor', successStatus) ∧
      editor'.WellFormed options := by
  have hspec := acceptedPaste_spec text (options.maxBytes - min options.maxBytes editor.line.length)
    0 (by rw [List.take_zero]; exact utf8Code.isText_nil) (Nat.zero_le _) (Nat.zero_le _)
  unfold insertPaste
  cases haccepted : acceptedPaste text
      (options.maxBytes - min options.maxBytes editor.line.length) 0 with
  | none =>
    rw [haccepted] at hspec
    exact .inl ⟨hspec, rfl⟩
  | some n =>
    rw [haccepted] at hspec
    obtain ⟨hn, hroom, ss, hv, htake⟩ := hspec
    -- the flag does not matter for the insertion
    obtain ⟨editor₁, heditor, hline, hcaret, h₁⟩ : ∃ editor₁,
        (if n < text.length then editor.truncated else editor) = editor₁ ∧
        editor₁.line = editor.line ∧ editor₁.caret = editor.caret ∧
        editor₁.WellFormed options := by
      split_ifs
      · exact ⟨_, rfl, rfl, rfl, h.truncated⟩
      · exact ⟨_, rfl, rfl, rfl, h⟩
    have hlen : editor₁.line.length + (utf8Code.encodeAll ss).length ≤
        options.maxReturnedBytes := by
      have := maxBytes_le options
      have := h.length_le
      rw [← htake, List.length_take, hline]
      omega
    refine .inr ?_
    simp only [heditor]
    split_ifs with hpos hend
    · rw [htake]
      have hins := insert_spec h₁ hv hlen
      rwa [if_neg (by simpa using hend)] at hins
    · rw [htake]
      have hins := insert_spec h₁ hv hlen
      rwa [if_pos (by simpa using hend)] at hins
    · exact ⟨_, rfl, h₁⟩

/-! ### Keys -/

section

variable (echo : EchoAnswers) (state : LineEditor × Bool)

/-- A named key keeps the editor well formed, and with the echo off it does not fail for an
encoding. -/
abbrev KeepsEditing (options : LineOptions) :
    Except LineResult (LineEditor × Bool) → Prop :=
  Yields (fun state => state.1.WellFormed options) (LineResult.Returns options False)

theorem backspace_yields (occurrence : Nat) (h : state.1.WellFormed options) :
    KeepsEditing options (backspace options echo occurrence state) := by
  obtain ⟨editor, redrawRequired⟩ := state
  obtain ⟨index, ⟨he, hat⟩ | ⟨p, hlt, he, hat⟩⟩ :=
    GraphemeIndex.previous_spec h.isText h.index h.caret
  · simp only [backspace, he]
    exact h.indexed hat
  · have hcut := cutOff_spec h hat.mem (hat.retainThroughCurrent h.isText)
    simp only [backspace, he]
    rw [if_neg (by decide)]
    split_ifs with hend hcell hunsupported
    · exact ⟨hcut.valid, hcut.length_le, hcut.caret, hcut.index, rfl⟩
    · exact (check_echoed _ hcut).map fun _ hs => hs
    · exact hcut
    all_goals
      obtain ⟨editor', herase, hwf⟩ := erase_spec (h.indexed hat) hat.mem h.caret (Nat.le_of_lt hlt)
      simp only at herase
      rename_i hfail
      rw [herase] at hfail ⊢
    · cases hfail
    · exact hwf

theorem delete_yields (h : state.1.WellFormed options) :
    KeepsEditing options (delete state) := by
  obtain ⟨editor, redrawRequired⟩ := state
  obtain ⟨index, ⟨he, hat⟩ | ⟨n, hlt, he, hat⟩⟩ :=
    GraphemeIndex.next_spec h.isText h.index h.caret
  · simp only [delete, he]
    exact h.indexed hat
  · simp only [delete, he]
    rw [if_neg (by decide)]
    by_cases hend : (n == editor.line.length) = true
    · -- the cut-off index still has the caret
      obtain ⟨index', hseek, hat'⟩ := hat.seek h.isText h.caret (editor.line.take editor.caret)
      rw [if_pos hend, hseek]
      exact cutOff_spec h h.caret (hat'.retainThroughCurrent h.isText)
    · obtain ⟨editor', herase, hwf⟩ :=
        erase_spec (h.indexed hat) h.caret hat.mem (Nat.le_of_lt hlt)
      simp only at herase
      rw [if_neg hend, herase]
      exact hwf

/-- An arrow moves to the boundary its query finds. -/
theorem moveCaret_yields {found : GraphemeIndex × Option Nat × Status}
    (h : state.1.WellFormed options)
    (hfound : ∃ index, (found = (index, none, successStatus) ∧ index.At state.1.line state.1.caret) ∨
      ∃ b, found = (index, some b, successStatus) ∧ index.At state.1.line b) :
    KeepsEditing options (moveCaret state found) := by
  obtain ⟨editor, redrawRequired⟩ := state
  obtain ⟨index, ⟨rfl, hat⟩ | ⟨b, rfl, hat⟩⟩ := hfound
  · exact h.indexed hat
  · exact h.moved hat

theorem arrowLeft_yields (h : state.1.WellFormed options) :
    KeepsEditing options (arrowLeft state) := by
  apply moveCaret_yields state h
  obtain ⟨index, ⟨he, hat⟩ | ⟨p, _, he, hat⟩⟩ :=
    GraphemeIndex.previous_spec h.isText h.index h.caret
  · exact ⟨index, .inl ⟨he, hat⟩⟩
  · exact ⟨index, .inr ⟨p, he, hat⟩⟩

theorem arrowRight_yields (h : state.1.WellFormed options) :
    KeepsEditing options (arrowRight state) := by
  apply moveCaret_yields state h
  obtain ⟨index, ⟨he, hat⟩ | ⟨n, _, he, hat⟩⟩ := GraphemeIndex.next_spec h.isText h.index h.caret
  · exact ⟨index, .inl ⟨he, hat⟩⟩
  · exact ⟨index, .inr ⟨n, he, hat⟩⟩

theorem tab_yields (modifiers : KeyModifier) (occurrence : Nat) (h : state.1.WellFormed options) :
    KeepsEditing options (tab options echo modifiers occurrence state) := by
  obtain ⟨editor, redrawRequired⟩ := state
  obtain ⟨hscalar, _⟩ | ⟨editor', hins, hwf⟩ := insertScalar_spec 0x09 h
  · exact absurd (by decide) hscalar
  · have hcheck : Yields (WellFormed options) (LineResult.Returns options False)
        (editor'.check successStatus) := by
      apply check_yields hwf
      intro _ hcode
      cases hcode
    unfold tab
    dsimp only
    rw [hins]
    split_ifs
    · exact hcheck.bind fun _ h'' => (check_echoed _ h'').map fun _ hs => hs
    · exact hcheck.bind fun _ h'' => h''
    · exact h

theorem namedKey_yields (named : NamedKey) (modifiers : KeyModifier) (occurrence : Nat)
    (h : state.1.WellFormed options) :
    KeepsEditing options (namedKey options echo named modifiers occurrence state) := by
  have hzero := Unicode.Utf8.zero_mem_segmentation h.isText
  have hend := Unicode.Utf8.length_mem_segmentation h.isText
  cases named with
  | backspace => exact backspace_yields echo state occurrence h
  | delete => exact delete_yields state h
  | arrowLeft => exact arrowLeft_yields state h
  | arrowRight => exact arrowRight_yields state h
  | tab => exact tab_yields echo state modifiers occurrence h
  | home => exact ⟨h.valid, h.length_le, hzero, h.index, h.status⟩
  | «end» => exact ⟨h.valid, h.length_le, hend, h.index, h.status⟩
  | _ => exact h

end

/-! ### Events -/

section

variable (options) (echo : EchoAnswers)

/-- The check behind an insertion that succeeds. -/
theorem check_success (h : editor.WellFormed options) :
    Yields (WellFormed options) (LineResult.Returns options cause)
      (editor.check successStatus) := by
  apply check_yields h
  intro _ hcode
  cases hcode

theorem paste_yields (text : List UInt8) (h : editor.WellFormed options) :
    Yields (WellFormed options)
      (LineResult.Returns options
        (MalformedPaste text (options.maxBytes - min options.maxBytes editor.line.length)))
      (paste options echo editor text) := by
  unfold paste
  obtain ⟨hbad, hins⟩ | ⟨editor', hins, hwf⟩ := insertPaste_spec text h
  · rw [hins]
    exact (check_yields h fun _ _ => hbad).bind fun _ h' => check_echoed _ h'
  · rw [hins]
    exact (check_success options hwf).bind fun _ h' => check_echoed _ h'

theorem character_yields (value occurrences : Nat) (h : editor.WellFormed options) :
    Yields (WellFormed options) (LineResult.Returns options (¬ Unicode.Utf8.IsScalar value))
      (character options echo editor value occurrences) := by
  unfold character
  refine Yields.bind (Yields.repeated (fun _ editor h => ?_) h occurrences) fun _ h' =>
    check_echoed _ h'
  obtain ⟨hbad, hins⟩ | ⟨editor', hins, hwf⟩ := insertScalar_spec value h
  · rw [hins]
    exact check_yields h fun _ _ => hbad
  · rw [hins]
    exact check_success options hwf

/-- The line ending is appended where it fits. -/
theorem completeManagedLine_returns (h : editor.WellFormed options) :
    (editor.completeManagedLine options).Returns options cause := by
  have hends : ∀ ending : List UInt8, (∀ b ∈ ending, b = 0x0D ∨ b = 0x0A) →
      utf8Code.IsText (editor.line ++ ending) := by
    intro ending hending
    apply h.isText.append
    induction ending with
    | nil => exact utf8Code.isText_nil
    | cons b ending ih =>
      have hb : utf8Code.IsText [b] := by
        obtain rfl | rfl := hending b List.mem_cons_self
        · exact ⟨[0x0D], utf8Code.valid_cons.2 ⟨rfl, utf8Code.valid_nil⟩, by decide⟩
        · exact ⟨[0x0A], utf8Code.valid_cons.2 ⟨rfl, utf8Code.valid_nil⟩, by decide⟩
      exact hb.append (ih fun c hc => hending c (List.mem_cons_of_mem _ hc))
  have hle := h.length_le
  have hmax := maxBytes_le options
  unfold completeManagedLine
  dsimp only
  split_ifs with hroom
  · refine ⟨Unicode.Utf8.validate_valid_iff.2 (hends _ ?_), ?_, fun _ hcode => ?_⟩
    · cases options.lineEndingMode <;> simp
    · rw [List.length_append]
      omega
    · cases hcode
  · exact h.returns rfl fun _ hcode => by cases hcode

/-- What an event has to be for the editor to fail on it with `encodingFailed`. -/
def EncodingFault (editor : LineEditor) : Event → Prop
  | .key key => ∃ value, key.key = .character value ∧ ¬ Unicode.Utf8.IsScalar value
  | .paste text => MalformedPaste text (options.maxBytes - min options.maxBytes editor.line.length)
  | .resize => False

theorem key_yields (key : Key) (h : editor.WellFormed options) :
    Yields (WellFormed options)
      (LineResult.Returns options (EncodingFault options editor (.key key)))
      (LineEditor.key options echo editor key) := by
  unfold LineEditor.key
  by_cases hrelease : (key.action == .release) = true
  · rw [if_pos hrelease]
    exact h
  rw [if_neg hrelease]
  cases hkey : key.key with
  | character value =>
    dsimp only
    split_ifs
    · exact h
    · refine (character_yields options echo value (occurrences key) h).mono fun _ hr => ?_
      exact ⟨hr.valid, hr.length_le, fun he hcode => ⟨value, hkey, hr.encodingFailed he hcode⟩⟩
  | named named =>
    dsimp only
    split_ifs
    · exact (check_echoed _ h).bind fun _ h' => completeManagedLine_returns options h'
    · exact h
    · have hbody : ∀ occurrence (state : LineEditor × Bool), state.1.WellFormed options →
          KeepsEditing options (namedKey options echo named key.modifiers occurrence state) :=
        fun occurrence state hs => namedKey_yields echo state named key.modifiers occurrence hs
      have hstate : (fun state : LineEditor × Bool => state.1.WellFormed options) (editor, false) := h
      refine ((Yields.repeated hbody hstate (occurrences key)).mono fun _ hr => ?_).bind
        fun state hs => ?_
      · exact ⟨hr.valid, hr.length_le, fun he hcode => (hr.encodingFailed he hcode).elim⟩
      · split_ifs
        · exact check_echoed _ hs
        · exact hs
  | function _ => exact h
  | modifier => exact h
  | media => exact h

theorem event_yields (event : Event) (h : editor.WellFormed options) :
    Yields (WellFormed options) (LineResult.Returns options (EncodingFault options editor event))
      (editor.event options echo event) := by
  cases event with
  | resize => exact check_echoed _ h
  | paste text => exact paste_yields options echo text h
  | key key => exact key_yields options echo key h

/-- One pass keeps the editor well formed, or returns a line of it. -/
theorem pass_yields (answer : LineAnswer) (h : editor.WellFormed options) :
    Yields (WellFormed options)
      (LineResult.Returns options (answer.readEvent.status.ok = true →
        ∃ event, answer.readEvent.event = some event ∧ EncodingFault options editor event))
      (editor.pass options answer) := by
  have hsuccess : editor.result.status.code ≠ .encodingFailed := by
    rw [code_of_ok h.status]
    decide
  unfold pass
  by_cases hdeadline : (options.timeout.any (0 < ·) && answer.deadlinePassed) = true
  · rw [if_pos hdeadline]
    exact h.returns rfl fun _ hcode => absurd hcode hsuccess
  rw [if_neg hdeadline]
  by_cases hread : answer.readEvent.status.ok = true
  · simp only [hread, Bool.not_true, Bool.false_eq_true, if_false]
    split
    · rename_i event _ hevent
      refine (event_yields options answer.echo event h).mono fun _ hr => ?_
      exact ⟨hr.valid, hr.length_le, fun he hcode _ =>
        ⟨event, hevent, hr.encodingFailed he hcode⟩⟩
    · exact h.returns rfl fun _ hcode => absurd hcode hsuccess
  · simp only [hread, Bool.not_false, if_true]
    exact h.returns rfl fun _ _ hok => by cases hok

end

end LineEditor

/-! ## The read -/

theorem managedTerminalLineRead_yields (options : LineOptions) (graphemeStorage : Nat)
    (begin : Status) (answers : List LineAnswer) :
    Yields (LineEditor.WellFormed options) (LineResult.Returns options True)
      (managedTerminalLineRead options graphemeStorage begin answers) := by
  have hempty : LineEditor.WellFormed options { graphemes := { storage_ := graphemeStorage } } := by
    refine ⟨Unicode.Utf8.validate_valid_iff.2 utf8Code.isText_nil, Nat.zero_le _,
      List.mem_singleton.2 rfl, fun hready => ?_, rfl⟩
    cases hready
  refine (LineEditor.check_echoed begin hempty).bind fun editor h => ?_
  refine Yields.foldlM (fun editor answer h => ?_) h answers
  refine (LineEditor.pass_yields options answer h).mono fun _ hr => ?_
  exact ⟨hr.valid, hr.length_le, fun _ _ => trivial⟩

theorem managedTerminalLineRead_concat (options : LineOptions) (graphemeStorage : Nat)
    (begin : Status) (answers : List LineAnswer) (answer : LineAnswer) :
    managedTerminalLineRead options graphemeStorage begin (answers ++ [answer]) =
      managedTerminalLineRead options graphemeStorage begin answers >>=
        fun editor => editor.pass options answer := by
  simp [managedTerminalLineRead, List.foldlM_append]

/-- **The line editor.** After any events, the editor in front of the next one is well formed. With
the echo off, an event the platform delivered makes it fail with `encodingFailed` only when it is a
character that is no scalar value or a paste malformed where it is examined. Whatever is returned
is valid UTF-8 within the limit. -/
theorem managedTerminalLineRead_spec (options : LineOptions) (graphemeStorage : Nat)
    (begin : Status) (answers : List LineAnswer) :
    (∀ editor, managedTerminalLineRead options graphemeStorage begin answers = .ok editor →
      editor.WellFormed options ∧ ∀ answer result,
        managedTerminalLineRead options graphemeStorage begin (answers ++ [answer]) =
          .error result →
        options.echo = false → answer.readEvent.status.ok = true →
        result.status.code = .encodingFailed →
        ∃ event, answer.readEvent.event = some event ∧
          LineEditor.EncodingFault options editor event) ∧
    ∀ result, managedTerminalLineRead options graphemeStorage begin answers = .error result →
      (Unicode.Utf8.validate result.line).outcome = .valid ∧
        result.line.length ≤ options.maxReturnedBytes := by
  have hyields := managedTerminalLineRead_yields options graphemeStorage begin answers
  constructor
  · intro editor he
    have hwf := hyields.of_ok he
    refine ⟨hwf, fun answer result hr hecho hok hcode => ?_⟩
    have hpass : editor.pass options answer = .error result := by
      rw [managedTerminalLineRead_concat, he] at hr
      exact hr
    exact ((LineEditor.pass_yields options answer hwf).of_error hpass).encodingFailed hecho hcode hok
  · intro result hr
    have hreturns := hyields.of_error hr
    exact ⟨hreturns.valid, hreturns.length_le⟩

end Terminal

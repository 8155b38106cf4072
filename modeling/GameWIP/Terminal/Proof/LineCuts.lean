import GameWIP.Terminal.Proof.LineEndings
import GameWIP.Terminal.Proof.ReadProgress

/-!
# Cutting the input does not change its lines

A caller reads the lines of an input, which arrives in chunks. `lineAtOnce` is the line read of an
input that has arrived whole. Where the input is not `Contested`, a call answers that
whatever is pending and however the rest is cut (`answered_line_settled`). Where it is, a chunk that
ends at the limit makes the call return in front of a line ending, or inside a scalar, that a longer
one would have shown (`readLines_contested`). So the cuts do not matter exactly for the inputs that
are contested nowhere a call begins (`readLines_cuts`).
-/

namespace Terminal

open Lib (PrefixCode Yields answered)
open Unicode (utf8Code)
open Unicode.Utf8 (IsText decodeScalar)

/-! ## Reading the lines of an input -/

/-- A transfer that brings bytes. -/
def delivered (bytes : List UInt8) : ReadChunk :=
  { bytes, failed_empty := fun h => by cases h }

/-- The transfers of an input cut into chunks, and its end. -/
def cutTransfers (cuts : List (List UInt8)) : List ReadChunk :=
  cuts.map delivered ++ [{ outcome := .endOfStream }]

/-- A caller that reads lines until the end of the stream, for so many calls. The end of the input
stays there to be met again. -/
def readLines (options : LineOptions) (environment : Nat → ReadEnvironment) :
    Nat → List (List UInt8) → PendingInputBuffer → List LineResult
  | 0, _, _ => []
  | calls + 1, cuts, buffer =>
    match readLine options (environment calls) (cutTransfers cuts) buffer with
    | none => []
    | some ((result, buffer), rest) =>
      result ::
        if result.outcome = .endOfStream then []
        else
          readLines options environment calls (cuts.drop (cuts.length + 1 - rest.length)) buffer

/-- The input cut into chunks the reader can receive. -/
def Cuts (input : List UInt8) (cuts : List (List UInt8)) : Prop :=
  cuts.flatten = input ∧ ∀ bytes ∈ cuts, bytes ≠ [] ∧ bytes.length ≤ 4096

/-- However the input is cut, any number of calls returns the same. -/
def SameLines (options : LineOptions) (input : List UInt8) : Prop :=
  ∀ cuts₁ cuts₂ environment₁ environment₂ calls, Cuts input cuts₁ → Cuts input cuts₂ →
    (∀ call, (environment₁ call).endpointIdentityStatus.ok = true) →
    (∀ call, (environment₂ call).endpointIdentityStatus.ok = true) →
    readLines options environment₁ calls cuts₁ {} = readLines options environment₂ calls cuts₂ {}

/-! ## The condition -/

/-- The bytes of the input behind which the next line read begins. -/
def linePiece (lineEndingMode : LineEndingMode) (maxBytes : Nat) (input : List UInt8) : Nat :=
  let ending := findLineEnding input 0 (decide (input.length < maxBytes))
  if ending.found && decide (ending.offset ≤ maxBytes) then
    if (returnedLineEnding lineEndingMode []).isSome then ending.offset + ending.length else 0
  else if input.length < maxBytes then input.length
  else (utf8Prefix input maxBytes).bytes

/-- The first scalar is longer than the limit, or the first line ending is within the limit but
shows only behind it. -/
def Contested (maxBytes : Nat) (input : List UInt8) : Prop :=
  input ≠ [] ∧ (utf8Prefix input maxBytes).bytes = 0 ∨
    (findLineEnding input 0 false).found = true ∧
      (findLineEnding input 0 false).offset ≤ maxBytes ∧
        maxBytes < (findLineEnding input 0 false).extent

instance (maxBytes : Nat) (input : List UInt8) : Decidable (Contested maxBytes input) :=
  inferInstanceAs (Decidable (_ ∨ _))

/-- The input left when so many line reads have begun behind each other. -/
def inputBehind (lineEndingMode : LineEndingMode) (maxBytes : Nat) : Nat → List UInt8 → List UInt8
  | 0, input => input
  | calls + 1, input =>
    inputBehind lineEndingMode maxBytes calls (input.drop (linePiece lineEndingMode maxBytes input))

/-- The input is contested nowhere a line read begins. -/
def Settled (options : LineOptions) (input : List UInt8) : Prop :=
  options.maxReturnedBytes = 0 ∨ ∀ calls, ¬ Contested (clampedMaxBytes options.maxReturnedBytes)
    (inputBehind options.lineEndingMode (clampedMaxBytes options.maxReturnedBytes) calls input)

/-! ## The line read of an input that has arrived whole -/

/-- What a line read returns and leaves of an input that is pending to its end. -/
def lineAtOnce (lineEndingMode : LineEndingMode) (maxBytes : Nat) (input : List UInt8) :
    LineResult × PendingInputBuffer :=
  let buffer : PendingInputBuffer := { storage := input }
  let ending := findLineEnding input 0 (decide (input.length < maxBytes))
  if ending.found then completeLineFromPending buffer ending lineEndingMode maxBytes
  else if input.length ≥ maxBytes then truncatedLine buffer maxBytes
  else ({ line := input, outcome := .endOfStream }, {})

variable {lineEndingMode : LineEndingMode} {maxBytes : Nat} {input : List UInt8}

/-- One answer is another one with more bytes left pending. -/
def Extends (answer whole : LineResult × PendingInputBuffer) (rest : List UInt8) : Prop :=
  whole.1 = answer.1 ∧ whole.2.view = answer.2.view ++ rest

theorem whole_view (input : List UInt8) :
    ({ storage := input } : PendingInputBuffer).view = input := rfl

/-- The scalar prefix of an input that is not contested is not empty. -/
theorem fitting_pos (hne : input ≠ []) (hfree : ¬ Contested maxBytes input) :
    0 < (utf8Prefix input maxBytes).bytes := by
  rw [Nat.pos_iff_ne_zero]
  exact fun hzero => hfree (.inl ⟨hne, hzero⟩)

/-- Every view of a text that reaches the limit is truncated to the same line. -/
theorem truncatedLine_view {ss : List Nat} (hvalid : utf8Code.Valid ss) {buffer : PendingInputBuffer}
    (hview : buffer.view <+: utf8Code.encodeAll ss) (hreach : maxBytes ≤ buffer.view.length)
    (hpos : 0 < (utf8Code.encodeAll (utf8Code.fitting maxBytes ss)).length) :
    truncatedLine buffer maxBytes =
      ({ line := utf8Code.encodeAll (utf8Code.fitting maxBytes ss), wasTruncated := true },
        buffer.consume (utf8Code.encodeAll (utf8Code.fitting maxBytes ss)).length) := by
  obtain ⟨hok, hbytes⟩ := utf8Prefix_text hvalid hview hreach
  have hline : buffer.view.take (utf8Code.encodeAll (utf8Code.fitting maxBytes ss)).length =
      utf8Code.encodeAll (utf8Code.fitting maxBytes ss) := by
    obtain ⟨more, hmore⟩ := (utf8Code.fitting_spec maxBytes ss).1
    have hfits := (utf8Code.fitting_spec maxBytes ss).2
    have hstart : utf8Code.encodeAll (utf8Code.fitting maxBytes ss) <+: utf8Code.encodeAll ss := by
      conv_rhs => rw [← hmore, PrefixCode.encodeAll_append]
      exact List.prefix_append _ _
    have hshort := List.prefix_of_prefix_length_le hstart hview (by omega)
    exact (List.prefix_iff_eq_take.1 hshort).symm
  have hsome :
      decide ((utf8Code.encodeAll (utf8Code.fitting maxBytes ss)).length = 0) = false :=
    decide_eq_false (by omega)
  unfold truncatedLine copyTruncatedUtf8Prefix
  simp only [hok, hsome, hbytes, hline, Bool.not_true, Bool.false_and, Bool.false_eq_true,
    if_false]
  rfl

theorem truncatedLine_extends {buffer whole : PendingInputBuffer} {rest : List UInt8}
    (hwhole : whole.view = buffer.view ++ rest) (hinput : utf8Code.IsText whole.view)
    (hne : whole.view ≠ []) (hfree : ¬ Contested maxBytes whole.view)
    (hreach : maxBytes ≤ buffer.view.length) :
    Extends (truncatedLine buffer maxBytes) (truncatedLine whole maxBytes) rest := by
  obtain ⟨ss, hvalid, hss⟩ := hinput
  have hlong : maxBytes ≤ whole.view.length := by
    rw [hwhole, List.length_append]
    omega
  have hpos := fitting_pos hne hfree
  have hall : whole.view <+: utf8Code.encodeAll ss := hss ▸ List.prefix_refl _
  rw [(utf8Prefix_text hvalid hall hlong).2] at hpos
  have hfits := (utf8Code.fitting_spec maxBytes ss).2
  rw [truncatedLine_view hvalid (by rw [← hss, hwhole]; exact List.prefix_append _ _) hreach hpos,
    truncatedLine_view hvalid hall hlong hpos]
  refine ⟨rfl, ?_⟩
  rw [PendingInputBuffer.view_consume, PendingInputBuffer.view_consume, hwhole,
    List.drop_append_of_le_length (by omega)]

/-- A line within the limit is the same whatever is pending behind its ending. -/
theorem completeLineFromPending_extends {buffer whole : PendingInputBuffer} {rest : List UInt8}
    {ending : LineEndingMatch} (hwhole : whole.view = buffer.view ++ rest)
    (hoffset : ending.offset ≤ maxBytes)
    (hinside : ending.offset + ending.length ≤ buffer.view.length) :
    Extends (completeLineFromPending buffer ending lineEndingMode maxBytes)
      (completeLineFromPending whole ending lineEndingMode maxBytes) rest := by
  have htake : whole.view.take ending.offset = buffer.view.take ending.offset := by
    rw [hwhole, List.take_append_of_le_length (by omega)]
  have hraw : (whole.view.drop ending.offset).take ending.length =
      (buffer.view.drop ending.offset).take ending.length := by
    rw [hwhole, List.drop_append_of_le_length (by omega),
      List.take_append_of_le_length (by rw [List.length_drop]; omega)]
  unfold completeLineFromPending
  rw [if_neg (by omega), if_neg (by omega)]
  dsimp only
  rw [htake, hraw]
  cases returnedLineEnding lineEndingMode
      ((buffer.view.drop ending.offset).take ending.length) with
  | none => exact ⟨rfl, hwhole⟩
  | some returned =>
    dsimp only
    split_ifs
    · exact ⟨rfl, hwhole⟩
    · refine ⟨rfl, ?_⟩
      rw [PendingInputBuffer.view_consume, PendingInputBuffer.view_consume, hwhole,
        List.drop_append_of_le_length hinside]
    · exact ⟨rfl, hwhole⟩
    · refine ⟨rfl, ?_⟩
      rw [PendingInputBuffer.view_consume, PendingInputBuffer.view_consume, hwhole,
        List.drop_append_of_le_length hinside]

theorem LineEndingMatch.Found.inside {ending : LineEndingMatch} {bytes : List UInt8}
    (h : ending.Found bytes) : ending.offset + ending.length ≤ bytes.length := by
  have hlength := congrArg List.length h.raw
  have hpos : 0 < ending.length := by
    rw [h.length]
    cases hending : ending.ending with
    | none => exact absurd hending h.ending
    | lf => exact Nat.one_pos
    | crLf => exact Nat.two_pos
    | cr => exact Nat.one_pos
  rw [List.length_take, List.length_drop, ← h.length] at hlength
  omega

section Settled

variable {options : LineOptions} (environment : ReadEnvironment) {current : ReadPass Nat}
  {rest : List UInt8}

/-- An attempt that returns in the middle of an input that is not contested returns the line of
the whole. -/
theorem lineAttempt_settled (hmax : 0 < clampedMaxBytes options.maxReturnedBytes)
    (hinput : utf8Code.IsText input)
    (hfree : ¬ Contested (clampedMaxBytes options.maxReturnedBytes) input)
    (hview : current.buffer.view ++ rest = input)
    (hscanned : Plain (current.buffer.view.take current.progress))
    (hstops : (findLineEnding current.buffer.view 0 false).found = true ∨
      clampedMaxBytes options.maxReturnedBytes ≤ current.buffer.view.length) :
    ∃ answer, lineAttempt options environment current = .error answer ∧
      Extends answer (lineAtOnce options.lineEndingMode
        (clampedMaxBytes options.maxReturnedBytes) input) rest := by
  have hwhole : ({ storage := input } : PendingInputBuffer).view = current.buffer.view ++ rest :=
    hview.symm
  have htruncated : clampedMaxBytes options.maxReturnedBytes ≤ current.buffer.view.length →
      Extends (truncatedLine current.buffer (clampedMaxBytes options.maxReturnedBytes))
        (truncatedLine { storage := input } (clampedMaxBytes options.maxReturnedBytes)) rest := by
    intro hreach
    have hne : input ≠ [] := by
      rintro rfl
      rw [List.append_eq_nil_iff] at hview
      rw [hview.1] at hreach
      exact absurd hreach (Nat.not_le.2 hmax)
    exact truncatedLine_extends hwhole hinput hne hfree hreach
  unfold lineAttempt
  dsimp only
  rw [findLineEnding_skip false hscanned]
  by_cases hfound : (findLineEnding current.buffer.view 0 false).found = true
  · rw [if_pos hfound]
    refine ⟨_, rfl, ?_⟩
    obtain ⟨hsame, hextent⟩ := findLineEnding_append rest
      (decide (input.length < clampedMaxBytes options.maxReturnedBytes)) hfound
    rw [hview] at hsame
    unfold lineAtOnce
    dsimp only
    rw [hsame, if_pos hfound]
    by_cases hoffset : (findLineEnding current.buffer.view 0 false).offset ≤
        clampedMaxBytes options.maxReturnedBytes
    · exact completeLineFromPending_extends hwhole hoffset (findLineEnding_found hfound).inside
    · unfold completeLineFromPending
      rw [if_pos (by omega), if_pos (by omega)]
      apply htruncated
      unfold LineEndingMatch.extent at hextent
      split_ifs at hextent <;> omega
  · rw [if_neg hfound]
    have hreach := hstops.resolve_left hfound
    rw [if_pos (by simpa using hreach)]
    refine ⟨_, rfl, ?_⟩
    have hlong : ¬ input.length < clampedMaxBytes options.maxReturnedBytes := by
      rw [← hview, List.length_append]
      omega
    unfold lineAtOnce
    dsimp only
    rw [decide_eq_false hlong]
    by_cases hinputFound : (findLineEnding input 0 false).found = true
    · rw [if_pos hinputFound]
      -- the ending is behind the view, and then behind the limit
      have hbehind : clampedMaxBytes options.maxReturnedBytes <
          (findLineEnding input 0 false).extent := by
        rw [← hview] at hinputFound ⊢
        by_contra hextent
        exact hfound (findLineEnding_shown hinputFound (by omega))
      have hoffset : (findLineEnding input 0 false).offset >
          clampedMaxBytes options.maxReturnedBytes := by
        by_contra hoffset
        exact hfree (.inr ⟨hinputFound, by omega, hbehind⟩)
      unfold completeLineFromPending
      rw [if_pos hoffset]
      exact htruncated hreach
    · rw [if_neg hinputFound, if_pos (by omega)]
      exact htruncated hreach

/-- Before the limit, an attempt goes on when it finds no ending. -/
theorem lineAttempt_continues (htimeout : options.timeout = none)
    (hscanned : Plain (current.buffer.view.take current.progress))
    (hnone : (findLineEnding current.buffer.view 0 false).found = false)
    (hshort : current.buffer.view.length < clampedMaxBytes options.maxReturnedBytes) :
    ∃ scanOffset, lineAttempt options environment current =
        .ok { current with progress := scanOffset } ∧
      scanOffset ≤ current.buffer.view.length ∧ Plain (current.buffer.view.take scanOffset) := by
  unfold lineAttempt
  dsimp only
  rw [findLineEnding_skip false hscanned, if_neg (by simp [hnone]),
    if_neg (by simpa using hshort), htimeout, if_neg (by simp [expired, backendTimeout])]
  refine ⟨_, rfl, ?_, plain_of_not_found hnone⟩
  split_ifs
  · exact Nat.sub_le _ _
  · exact Nat.le_refl _

/-- At the end of the input a short rest without an ending is the last line. -/
theorem finishLine_settled {buffer : PendingInputBuffer} {scanOffset : Nat}
    (hinput : IsText input) (hview : buffer.view = input)
    (hscanned : Plain (buffer.view.take scanOffset)) (hshort : input.length < maxBytes) :
    Extends (finishLine buffer scanOffset .endOfStream lineEndingMode maxBytes)
      (lineAtOnce lineEndingMode maxBytes input) [] := by
  have hwhole : ({ storage := input } : PendingInputBuffer).view = buffer.view ++ [] := by
    rw [hview, List.append_nil]
    rfl
  unfold finishLine lineAtOnce
  dsimp only
  rw [findLineEnding_skip true hscanned, hview, decide_eq_true hshort]
  by_cases hfound : (findLineEnding input 0 true).found = true
  · rw [if_pos hfound, if_pos hfound]
    have hinside := (findLineEnding_found hfound).inside
    exact completeLineFromPending_extends hwhole (by omega) (by rw [hview]; exact hinside)
  · have hlong : ¬ input.length ≥ maxBytes := Nat.not_le.2 hshort
    rw [if_neg hfound, if_neg hfound, if_neg hlong]
    by_cases hempty : buffer.empty = true
    · have hnil : input = [] := by
        rw [← hview]
        by_contra hne
        rw [empty_eq_false.2 hne] at hempty
        cases hempty
      rw [if_neg (by simp [hempty]), hnil]
      exact ⟨rfl, by rw [hview, hnil]; rfl⟩
    · rw [if_pos (by simpa using hempty), if_neg (by simp [validUtf8_iff.2 hinput])]
      refine ⟨by simp [hview], ?_⟩
      dsimp only
      rw [PendingInputBuffer.view_take_snd]
      rfl

theorem lineAbsorb_delivered (options : LineOptions) (environment : ReadEnvironment)
    {bytes : List UInt8} (hbytes : bytes ≠ []) (current : ReadPass Nat) :
    lineAbsorb options environment (delivered bytes) current =
      .ok (current.absorbed environment bytes) := by
  have hok : (delivered bytes).status.ok = true := rfl
  unfold lineAbsorb
  rw [if_neg (by simp [hok]), if_neg (by simp [delivered, hbytes])]
  rfl

theorem cutTransfers_cons (bytes : List UInt8) (cuts : List (List UInt8)) :
    cutTransfers (bytes :: cuts) = delivered bytes :: cutTransfers cuts := rfl

/-- **A call in an input that is not contested** returns the line of the whole, however the rest of
the input is cut. -/
theorem answered_line_settled (hmax : 0 < clampedMaxBytes options.maxReturnedBytes)
    (htimeout : options.timeout = none) (hinput : utf8Code.IsText input)
    (hfree : ¬ Contested (clampedMaxBytes options.maxReturnedBytes) input)
    {cuts : List (List UInt8)} (hcuts : ∀ bytes ∈ cuts, bytes ≠ [])
    (hview : current.buffer.view ++ cuts.flatten = input)
    (hscanned : Plain (current.buffer.view.take current.progress)) :
    ∃ answer rest, answered (lineAttempt options environment) (lineAbsorb options environment)
        (cutTransfers cuts) current = some (answer, rest) ∧ rest <:+ cutTransfers cuts ∧
      Extends answer (lineAtOnce options.lineEndingMode
          (clampedMaxBytes options.maxReturnedBytes) input)
        (cuts.drop (cuts.length + 1 - rest.length)).flatten := by
  have hreturns : ∀ {current : ReadPass Nat} {cuts : List (List UInt8)},
      current.buffer.view ++ cuts.flatten = input →
      Plain (current.buffer.view.take current.progress) →
      ((findLineEnding current.buffer.view 0 false).found = true ∨
        clampedMaxBytes options.maxReturnedBytes ≤ current.buffer.view.length) →
      ∃ answer rest, answered (lineAttempt options environment) (lineAbsorb options environment)
          (cutTransfers cuts) current = some (answer, rest) ∧ rest <:+ cutTransfers cuts ∧
        Extends answer (lineAtOnce options.lineEndingMode
            (clampedMaxBytes options.maxReturnedBytes) input)
          (cuts.drop (cuts.length + 1 - rest.length)).flatten := by
    intro current cuts hview hscanned hstops
    obtain ⟨answer, hattempt, hextends⟩ :=
      lineAttempt_settled environment hmax hinput hfree hview hscanned hstops
    refine ⟨answer, cutTransfers cuts, ?_, List.suffix_refl _, ?_⟩
    · exact Lib.answered_error hattempt _ _
    · simpa [cutTransfers] using hextends
  induction cuts generalizing current with
  | nil =>
    by_cases hstops : (findLineEnding current.buffer.view 0 false).found = true ∨
        clampedMaxBytes options.maxReturnedBytes ≤ current.buffer.view.length
    · exact hreturns hview hscanned hstops
    simp only [not_or, Bool.not_eq_true, Nat.not_le] at hstops
    obtain ⟨scanOffset, hattempt, hlength, hnext⟩ :=
      lineAttempt_continues environment htimeout hscanned hstops.1 hstops.2
    rw [List.flatten_nil, List.append_nil] at hview
    refine ⟨finishLine current.buffer scanOffset .endOfStream options.lineEndingMode
      (clampedMaxBytes options.maxReturnedBytes), [], ?_, List.nil_suffix, ?_⟩
    · rw [cutTransfers, List.map_nil, List.nil_append, answered, hattempt]
      rfl
    · exact finishLine_settled (Unicode.Utf8.isText_iff.2 hinput) hview hnext
        (by rw [← hview]; exact hstops.2)
  | cons bytes cuts ih =>
    by_cases hstops : (findLineEnding current.buffer.view 0 false).found = true ∨
        clampedMaxBytes options.maxReturnedBytes ≤ current.buffer.view.length
    · exact hreturns hview hscanned hstops
    simp only [not_or, Bool.not_eq_true, Nat.not_le] at hstops
    obtain ⟨scanOffset, hattempt, hlength, hnext⟩ :=
      lineAttempt_continues environment htimeout hscanned hstops.1 hstops.2
    obtain ⟨hbytes, hrest⟩ := List.forall_mem_cons.1 hcuts
    let next : ReadPass Nat := { current with progress := scanOffset }
    obtain ⟨answer, left, hanswered, hsuffix, hextends⟩ :=
      @ih (next.absorbed environment bytes) hrest (by simpa [next, ReadPass.absorbed] using hview)
        (by
          simp only [next, ReadPass.absorbed, PendingInputBuffer.view_append]
          rwa [List.take_append_of_le_length hlength])
    refine ⟨answer, left, ?_, hsuffix.trans (List.suffix_cons _ _), ?_⟩
    · rw [cutTransfers_cons, answered, hattempt]
      dsimp only
      rw [lineAbsorb_delivered options environment hbytes]
      exact hanswered
    · have hle := hsuffix.length_le
      simp only [cutTransfers, List.length_append, List.length_map, List.length_singleton] at hle
      rw [List.length_cons, show cuts.length + 1 + 1 - left.length =
        (cuts.length + 1 - left.length) + 1 by omega, List.drop_succ_cons]
      exact hextends

end Settled

/-! ## What a call leaves -/

theorem isText_raw (ending : ConsumedLineEnding) : utf8Code.IsText (rawLineEnding ending) := by
  rw [← Unicode.Utf8.isText_iff, ← validUtf8_iff]
  cases ending <;> decide +kernel

/-- A line ending cuts a text into texts. -/
theorem LineEndingMatch.Found.texts {ending : LineEndingMatch} (h : ending.Found input)
    (hinput : utf8Code.IsText input) :
    utf8Code.IsText (input.take ending.offset) ∧
      utf8Code.IsText (input.drop (ending.offset + ending.length)) := by
  have hsplit : input.take ending.offset ++ (rawLineEnding ending.ending ++
      input.drop (ending.offset + ending.length)) = input := by
    rw [← h.raw, ← List.drop_drop, List.take_append_drop, List.take_append_drop]
  obtain ⟨byte, raw, hraw, hascii⟩ : ∃ byte raw, rawLineEnding ending.ending = byte :: raw ∧
      Unicode.byteValue byte < 0x80 := by
    cases hending : ending.ending with
    | none => exact absurd hending h.ending
    | lf => exact ⟨0x0A, [], rfl, by decide⟩
    | crLf => exact ⟨0x0D, [0x0A], rfl, by decide⟩
    | cr => exact ⟨0x0D, [], rfl, by decide⟩
  rw [← hsplit] at hinput
  rw [hraw, List.cons_append] at hinput
  obtain ⟨hbefore, hbehind⟩ := isText_ascii hascii hinput
  refine ⟨hbefore, ?_⟩
  rw [← List.cons_append, ← hraw] at hbehind
  exact (isText_raw ending.ending).of_append hbehind

/-- What a mode makes of an ending is a text, for an enumerator. -/
theorem returnedLineEnding_cases (lineEndingMode : LineEndingMode) (ending : ConsumedLineEnding) :
    returnedLineEnding lineEndingMode (rawLineEnding ending) = none ∧
        (returnedLineEnding lineEndingMode []).isSome = false ∨
      ∃ returned, returnedLineEnding lineEndingMode (rawLineEnding ending) = some returned ∧
        utf8Code.IsText returned ∧ (returnedLineEnding lineEndingMode []).isSome = true := by
  cases lineEndingMode with
  | strip => exact .inr ⟨[], rfl, utf8Code.isText_nil, rfl⟩
  | keep => exact .inr ⟨rawLineEnding ending, rfl, isText_raw ending, rfl⟩
  | normalizeToLf => exact .inr ⟨[0x0A], rfl, isText_raw .lf, rfl⟩
  | other value => exact .inl ⟨rfl, rfl⟩

/-- A complete line of a text leaves what is behind its ending. -/
theorem completeLineFromPending_rest {ending : LineEndingMatch} (h : ending.Found input)
    (hinput : utf8Code.IsText input) (hoffset : ending.offset ≤ maxBytes) :
    (completeLineFromPending { storage := input } ending lineEndingMode maxBytes).2.view =
      input.drop (if (returnedLineEnding lineEndingMode []).isSome then
        ending.offset + ending.length else 0) := by
  have htext := (h.texts hinput).1
  unfold completeLineFromPending
  rw [if_neg (by omega), whole_view, h.raw]
  dsimp only
  rcases returnedLineEnding_cases lineEndingMode ending.ending with
    ⟨hnone, hmode⟩ | ⟨returned, hsome, hreturned, hmode⟩
  · rw [hnone, hmode]
    rfl
  · rw [hsome, hmode]
    dsimp only
    have hline : validUtf8 (if returned.length > maxBytes - ending.offset then
        input.take ending.offset else input.take ending.offset ++ returned) = true := by
      rw [validUtf8_iff, Unicode.Utf8.isText_iff]
      split_ifs
      · exact htext
      · exact htext.append hreturned
    rw [if_neg (by simp [hline]), PendingInputBuffer.view_consume]
    rfl

/-- A truncated line of a text leaves what is behind the scalars that fit. -/
theorem truncatedLine_rest (hinput : utf8Code.IsText input) (hne : input ≠ [])
    (hfree : ¬ Contested maxBytes input) (hreach : maxBytes ≤ input.length) :
    (truncatedLine { storage := input } maxBytes).2.view =
        input.drop (utf8Prefix input maxBytes).bytes ∧
      utf8Code.IsText (input.drop (utf8Prefix input maxBytes).bytes) := by
  obtain ⟨ss, hvalid, rfl⟩ := hinput
  have hbytes := (utf8Prefix_text hvalid (List.prefix_refl _) hreach).2
  have hpos := fitting_pos hne hfree
  rw [hbytes] at hpos
  obtain ⟨more, hmore⟩ := (utf8Code.fitting_spec maxBytes ss).1
  rw [truncatedLine_view hvalid (List.prefix_refl _) hreach hpos, hbytes,
    PendingInputBuffer.view_consume]
  refine ⟨rfl, more, ?_, ?_⟩
  · rw [← hmore] at hvalid
    exact (utf8Code.valid_append.1 hvalid).2
  · conv_lhs => rw [← hmore, PrefixCode.encodeAll_append]
    rw [hmore, List.drop_left]

/-- A call leaves what is behind its piece of the input, again a text. -/
theorem lineAtOnce_rest (lineEndingMode : LineEndingMode) (hmax : 0 < maxBytes) (hinput : utf8Code.IsText input)
    (hfree : ¬ Contested maxBytes input) :
    (lineAtOnce lineEndingMode maxBytes input).2.view =
        input.drop (linePiece lineEndingMode maxBytes input) ∧
      utf8Code.IsText (input.drop (linePiece lineEndingMode maxBytes input)) := by
  unfold lineAtOnce linePiece
  dsimp only
  by_cases hfound :
      (findLineEnding input 0 (decide (input.length < maxBytes))).found = true
  · have h := findLineEnding_found hfound
    rw [if_pos hfound, hfound]
    by_cases hoffset :
        (findLineEnding input 0 (decide (input.length < maxBytes))).offset ≤ maxBytes
    · rw [decide_eq_true hoffset]
      refine ⟨completeLineFromPending_rest h hinput hoffset, ?_⟩
      simp only [Bool.and_self, if_true]
      split_ifs
      · exact (h.texts hinput).2
      · exact hinput
    · have hinside := h.inside
      rw [decide_eq_false hoffset]
      simp only [Bool.and_false, Bool.false_eq_true, if_false]
      rw [if_neg (by omega)]
      unfold completeLineFromPending
      rw [if_pos (by omega)]
      exact truncatedLine_rest hinput h.ne_nil hfree (by omega)
  · rw [if_neg hfound, Bool.eq_false_iff.2 hfound]
    simp only [Bool.false_and, Bool.false_eq_true, if_false]
    by_cases hshort : input.length < maxBytes
    · rw [if_neg (by omega), if_pos hshort, List.drop_length]
      exact ⟨rfl, utf8Code.isText_nil⟩
    · rw [if_pos (by omega), if_neg hshort]
      have hne : input ≠ [] := List.length_pos_iff.1 (by omega)
      exact truncatedLine_rest hinput hne hfree (by omega)

/-! ## Inputs that are contested nowhere -/

/-- The results of so many calls on an input that has arrived whole. -/
def linesAtOnce (lineEndingMode : LineEndingMode) (maxBytes : Nat) : Nat → List UInt8 →
    List LineResult
  | 0, _ => []
  | calls + 1, input =>
    (lineAtOnce lineEndingMode maxBytes input).1 ::
      if (lineAtOnce lineEndingMode maxBytes input).1.outcome = .endOfStream then []
      else
        linesAtOnce lineEndingMode maxBytes calls
          (input.drop (linePiece lineEndingMode maxBytes input))

section Calls

variable {options : LineOptions}

theorem readLine_answered {environment : ReadEnvironment} (hmax : options.maxReturnedBytes ≠ 0)
    (hendpoint : environment.endpointIdentityStatus.ok = true) (chunks : List ReadChunk)
    (buffer : PendingInputBuffer) :
    readLine options environment chunks buffer =
      answered (lineAttempt options environment) (lineAbsorb options environment) chunks
        { buffer, progress := 0 } := by
  unfold readLine
  rw [if_neg hmax, if_neg (by simp [hendpoint])]

/-- Reading the input in any cuts is reading it at once. -/
theorem readLines_settled (hmax : options.maxReturnedBytes ≠ 0) (htimeout : options.timeout = none)
    {environment : Nat → ReadEnvironment}
    (hendpoint : ∀ call, (environment call).endpointIdentityStatus.ok = true)
    {cuts : List (List UInt8)} {buffer : PendingInputBuffer} (hinput : utf8Code.IsText input)
    (hfree : ∀ calls, ¬ Contested (clampedMaxBytes options.maxReturnedBytes)
      (inputBehind options.lineEndingMode (clampedMaxBytes options.maxReturnedBytes) calls input))
    (hcuts : ∀ bytes ∈ cuts, bytes ≠ []) (hview : buffer.view ++ cuts.flatten = input)
    (calls : Nat) :
    readLines options environment calls cuts buffer =
      linesAtOnce options.lineEndingMode (clampedMaxBytes options.maxReturnedBytes) calls input := by
  induction calls generalizing cuts buffer input with
  | zero => rfl
  | succ calls ih =>
    have hpos := clampedMaxBytes_pos (Nat.pos_of_ne_zero hmax)
    obtain ⟨answer, rest, hanswered, -, hresult, hleft⟩ :=
      answered_line_settled (environment calls) hpos htimeout hinput (hfree 0) hcuts
        (show (ReadPass.mk 0 buffer 0 : ReadPass Nat).buffer.view ++ _ = input from hview) plain_nil
    obtain ⟨hrest, htext⟩ := lineAtOnce_rest options.lineEndingMode hpos hinput (hfree 0)
    have hread : readLine options (environment calls) (cutTransfers cuts) buffer =
        some (answer, rest) := by
      rw [readLine_answered hmax (hendpoint calls)]
      exact hanswered
    rw [readLines, hread, linesAtOnce]
    dsimp only
    rw [hresult]
    by_cases hend : answer.1.outcome = .endOfStream
    · rw [if_pos hend, if_pos hend]
    · rw [if_neg hend, if_neg hend, ih htext (fun calls => hfree (calls + 1))
        (fun bytes hbytes => hcuts bytes (List.mem_of_mem_drop hbytes))
        (by rw [← hleft, hrest])]

/-- The result of a call without room for a byte. -/
def noRoom : LineResult where
  status :=
    failure .invalidArgument "Terminal line read maxReturnedBytes must be greater than zero."

theorem readLines_zero (hmax : options.maxReturnedBytes = 0) (environment : Nat → ReadEnvironment)
    (cuts : List (List UInt8)) (buffer : PendingInputBuffer) (calls : Nat) :
    readLines options environment calls cuts buffer = List.replicate calls noRoom := by
  induction calls with
  | zero => rfl
  | succ calls ih =>
    have hread : readLine options (environment calls) (cutTransfers cuts) buffer =
        some ((noRoom, buffer), cutTransfers cuts) := by
      unfold readLine
      rw [if_pos hmax]
      rfl
    rw [readLines, hread]
    dsimp only
    rw [if_neg (by decide), List.replicate_succ]
    congr 1
    simpa [cutTransfers] using ih

end Calls

/-! ## Contested inputs -/

/-- The first scalar of a contested input that has no other reason is over the limit. -/
theorem Contested.cases (hinput : utf8Code.IsText input) (h : Contested maxBytes input) :
    (∃ s, utf8Code.valid s ∧ utf8Code.encode s <+: input ∧
        maxBytes < (utf8Code.encode s).length) ∨
      (findLineEnding input 0 false).found = true ∧
        (findLineEnding input 0 false).offset ≤ maxBytes ∧
          maxBytes < (findLineEnding input 0 false).extent := by
  rcases h with ⟨hne, hzero⟩ | hending
  · left
    obtain ⟨ss, hvalid, rfl⟩ := hinput
    cases ss with
    | nil => exact absurd rfl hne
    | cons s ss =>
      obtain ⟨hs, -⟩ := utf8Code.valid_cons.1 hvalid
      refine ⟨s, hs, List.prefix_append _ _, ?_⟩
      by_contra hfit
      have hpos := PrefixCode.encode_length_pos hs
      have hpast : utf8PrefixFrom (utf8Code.encodeAll (s :: ss)) maxBytes 0 =
          utf8PrefixFrom (utf8Code.encodeAll (s :: ss)) maxBytes
            (0 + (utf8Code.encode s).length) :=
        utf8PrefixFrom_decoded (by simp; omega) hs (List.prefix_append _ _) (by omega)
      have hle := le_utf8PrefixFrom (utf8Code.encodeAll (s :: ss)) maxBytes
        (0 + (utf8Code.encode s).length)
      rw [← hpast] at hle
      unfold utf8Prefix at hzero
      omega
  · exact .inr hending

/-- Up to the limit it shows no line ending. -/
theorem Contested.not_found (hinput : utf8Code.IsText input) (h : Contested maxBytes input)
    {count : Nat} (hcount : count ≤ maxBytes) :
    (findLineEnding (input.take count) 0 false).found = false := by
  rw [← Bool.not_eq_true]
  intro hfound
  rcases h.cases hinput with ⟨s, hs, hstart, hover⟩ | ⟨-, hoffset, hextent⟩
  · -- all of it is inside the first scalar
    have hshort : input.take count <+: utf8Code.encode s :=
      List.prefix_of_prefix_length_le (List.take_prefix _ _) hstart
        (Nat.le_trans (List.length_take_le _ _) (by omega))
    have hproper : input.take count ≠ utf8Code.encode s := by
      intro heq
      have hlength := List.length_take_le count input
      rw [heq] at hlength
      omega
    exact (findLineEnding_found hfound).finished (Unicode.Utf8.decodeScalar_incomplete_iff.2
      (utf8Code.incomplete_iff.2 ⟨s, hs, hshort, hproper⟩))
  · obtain ⟨hsame, hle⟩ := findLineEnding_append (input.drop count) false hfound
    rw [List.take_append_drop] at hsame
    rw [hsame] at hextent
    have hlength := List.length_take_le count input
    omega

/-- It goes on behind the limit. -/
theorem Contested.limit_lt (hinput : utf8Code.IsText input) (h : Contested maxBytes input) :
    maxBytes < input.length := by
  rcases h.cases hinput with ⟨s, hs, hstart, hover⟩ | ⟨hfound, -, hextent⟩
  · exact Nat.lt_of_lt_of_le hover hstart.length_le
  · have hle := (findLineEnding_append [] false hfound).2
    omega

/-- The result says that the call failed or that it consumed a line ending. -/
def Decided (result : LineResult) : Prop :=
  result.status.ok = false ∨ result.consumedLineEnding ≠ .none

theorem truncatedLine_undecided {ss : List Nat} (hvalid : utf8Code.Valid ss)
    {buffer : PendingInputBuffer} (hview : buffer.view <+: utf8Code.encodeAll ss)
    (hlength : buffer.view.length = maxBytes) :
    ¬ Decided (truncatedLine buffer maxBytes).1 := by
  have hok := (utf8Prefix_text hvalid hview (Nat.le_of_eq hlength.symm)).1
  have hstopped : (utf8Prefix buffer.view maxBytes).stoppedByMax = false :=
    utf8PrefixFrom_not_stopped (Nat.le_of_eq hlength)
  unfold truncatedLine copyTruncatedUtf8Prefix Decided
  simp only [hok, hstopped, Bool.not_true, Bool.and_false, Bool.false_eq_true, if_false]
  simp

theorem truncatedLine_decided {s : Nat} (hs : utf8Code.valid s) {buffer : PendingInputBuffer}
    (hstart : utf8Code.encode s <+: buffer.view) (hover : maxBytes < (utf8Code.encode s).length) :
    Decided (truncatedLine buffer maxBytes).1 := by
  left
  unfold truncatedLine copyTruncatedUtf8Prefix
  rw [utf8Prefix_over hs hstart hover]
  rfl

theorem completeLineFromPending_decided {ending : LineEndingMatch} {buffer : PendingInputBuffer}
    (h : ending.Found buffer.view) (hoffset : ending.offset ≤ maxBytes) :
    Decided (completeLineFromPending buffer ending lineEndingMode maxBytes).1 := by
  unfold completeLineFromPending
  rw [if_neg (by omega)]
  dsimp only
  cases returnedLineEnding lineEndingMode
      ((buffer.view.drop ending.offset).take ending.length) with
  | none => exact .inl rfl
  | some returned =>
    dsimp only
    split_ifs
    · exact .inl rfl
    · exact .inr h.ending
    · exact .inl rfl
    · exact .inr h.ending

/-- The bytes as chunks of one byte each. -/
def singles (bytes : List UInt8) : List (List UInt8) := bytes.map fun byte => [byte]

theorem cutTransfers_append (cuts₁ cuts₂ : List (List UInt8)) :
    cutTransfers (cuts₁ ++ cuts₂) = cuts₁.map delivered ++ cutTransfers cuts₂ := by
  simp [cutTransfers]

theorem singles_flatten (bytes : List UInt8) : (singles bytes).flatten = bytes := by
  induction bytes with
  | nil => rfl
  | cons byte bytes ih => exact congrArg (byte :: ·) ih

theorem singles_cuts (bytes : List UInt8) : Cuts bytes (singles bytes) := by
  refine ⟨singles_flatten bytes, fun chunk hchunk => ?_⟩
  obtain ⟨byte, -, rfl⟩ := List.mem_map.1 hchunk
  exact ⟨List.cons_ne_nil _ _, by simp⟩

section Contested

variable {options : LineOptions} (environment : ReadEnvironment) {current : ReadPass Nat}

/-- Chunks of one byte bring a call forward, as long as no attempt returns. -/
theorem answered_singles (htimeout : options.timeout = none) (chunks : List ReadChunk)
    (count : Nat) {start : Nat} (hview : current.buffer.view = input.take start)
    (hscanned : Plain (current.buffer.view.take current.progress))
    (hinside : start + count ≤ input.length)
    (hgoes : ∀ length, length < start + count →
      (findLineEnding (input.take length) 0 false).found = false ∧
        length < clampedMaxBytes options.maxReturnedBytes) :
    ∃ next : ReadPass Nat, next.buffer.view = input.take (start + count) ∧
      Plain (next.buffer.view.take next.progress) ∧
      answered (lineAttempt options environment) (lineAbsorb options environment)
          ((singles ((input.drop start).take count)).map delivered ++ chunks) current =
        answered (lineAttempt options environment) (lineAbsorb options environment) chunks next := by
  induction count generalizing start current with
  | zero => exact ⟨current, hview, hscanned, rfl⟩
  | succ count ih =>
    have hlt : start < input.length := by omega
    obtain ⟨hnone, hshort⟩ := hgoes start (by omega)
    have hlength : current.buffer.view.length = start := by
      rw [hview, List.length_take_of_le (by omega)]
    obtain ⟨scanOffset, hattempt, hle, hplain⟩ := lineAttempt_continues environment htimeout hscanned
      (by rw [hview]; exact hnone) (by rw [hlength]; exact hshort)
    let next : ReadPass Nat :=
      ReadPass.absorbed environment { current with progress := scanOffset } [input[start]]
    have hnext : next.buffer.view = input.take (start + 1) := by
      simp only [next, ReadPass.absorbed, PendingInputBuffer.view_append, hview]
      rw [List.take_succ_eq_append_getElem hlt]
    have hnextScanned : Plain (next.buffer.view.take next.progress) := by
      simp only [next, ReadPass.absorbed, PendingInputBuffer.view_append]
      rwa [List.take_append_of_le_length hle]
    obtain ⟨last, hlast, hlastScanned, hsame⟩ := ih hnext hnextScanned (by omega)
      fun length hlength => hgoes length (by omega)
    refine ⟨last, by rw [hlast]; congr 1; omega, hlastScanned, ?_⟩
    rw [← hsame]
    have hchunks : (singles ((input.drop start).take (count + 1))).map delivered ++ chunks =
        delivered [input[start]] ::
          ((singles ((input.drop (start + 1)).take count)).map delivered ++ chunks) := by
      rw [List.drop_eq_getElem_cons hlt, List.take_succ_cons]
      rfl
    rw [hchunks, answered, hattempt]
    dsimp only
    rw [lineAbsorb_delivered options environment (List.cons_ne_nil _ _)]

/-- They bring a call from its start to where the input is cut in another way. -/
theorem answered_start (htimeout : options.timeout = none) (chunks : List ReadChunk)
    {buffer : PendingInputBuffer} (hview : buffer.view <+: input) {count : Nat}
    (hcount : buffer.view.length ≤ count) (hinside : count ≤ input.length)
    (hgoes : ∀ length, length < count →
      (findLineEnding (input.take length) 0 false).found = false ∧
        length < clampedMaxBytes options.maxReturnedBytes) :
    ∃ next : ReadPass Nat, next.buffer.view = input.take count ∧
      Plain (next.buffer.view.take next.progress) ∧
      answered (lineAttempt options environment) (lineAbsorb options environment)
          ((singles ((input.take count).drop buffer.view.length)).map delivered ++ chunks)
          { buffer, progress := 0 } =
        answered (lineAttempt options environment) (lineAbsorb options environment) chunks next := by
  have hsum : buffer.view.length + (count - buffer.view.length) = count := by omega
  have hstart : (ReadPass.mk 0 buffer 0 : ReadPass Nat).buffer.view =
      input.take buffer.view.length := List.prefix_iff_eq_take.1 hview
  obtain ⟨next, hnext, hscanned, hsame⟩ := answered_singles environment htimeout chunks
    (count - buffer.view.length) hstart plain_nil (by rw [hsum]; exact hinside)
    (by rw [hsum]; exact hgoes)
  rw [hsum] at hnext
  refine ⟨next, hnext, hscanned, ?_⟩
  rw [List.drop_take]
  exact hsame

/-- Chunks of one byte bring a call to the limit, where it returns. -/
theorem answered_contested_singles (htimeout : options.timeout = none)
    (hinput : utf8Code.IsText input)
    (h : Contested (clampedMaxBytes options.maxReturnedBytes) input)
    {buffer : PendingInputBuffer} (hview : buffer.view <+: input)
    (hshort : buffer.view.length < clampedMaxBytes options.maxReturnedBytes) :
    ∃ cuts, Cuts (input.drop buffer.view.length) cuts ∧ ∃ answer rest,
      answered (lineAttempt options environment) (lineAbsorb options environment)
        (cutTransfers cuts) { buffer, progress := 0 } = some (answer, rest) ∧
      ¬ Decided answer.1 := by
  have hlimit := h.limit_lt hinput
  refine ⟨singles ((input.take (clampedMaxBytes options.maxReturnedBytes)).drop
      buffer.view.length) ++ singles (input.drop (clampedMaxBytes options.maxReturnedBytes)), ?_, ?_⟩
  · rw [singles, singles, ← List.map_append, ← List.drop_append_of_le_length
      (by rw [List.length_take_of_le (by omega)]; omega), List.take_append_drop]
    exact singles_cuts _
  obtain ⟨next, hnext, hscanned, hsame⟩ := answered_start environment htimeout
    (cutTransfers (singles (input.drop (clampedMaxBytes options.maxReturnedBytes)))) hview
    (Nat.le_of_lt hshort) (Nat.le_of_lt hlimit)
    fun length hlength => ⟨h.not_found hinput (Nat.le_of_lt hlength), hlength⟩
  have hlength : next.buffer.view.length = clampedMaxBytes options.maxReturnedBytes := by
    rw [hnext, List.length_take_of_le (by omega)]
  have hattempt : lineAttempt options environment next =
      .error (truncatedLine next.buffer (clampedMaxBytes options.maxReturnedBytes)) := by
    unfold lineAttempt
    dsimp only
    rw [findLineEnding_skip false hscanned, hnext, h.not_found hinput (Nat.le_refl _),
      if_neg Bool.false_ne_true, if_pos (by rw [← PendingInputBuffer.length_view]; omega)]
  refine ⟨truncatedLine next.buffer (clampedMaxBytes options.maxReturnedBytes),
    cutTransfers (singles (input.drop (clampedMaxBytes options.maxReturnedBytes))), ?_, ?_⟩
  · rw [cutTransfers_append, hsame]
    exact Lib.answered_error hattempt _ _
  · obtain ⟨ss, hvalid, rfl⟩ := hinput
    exact truncatedLine_undecided hvalid (hnext ▸ List.take_prefix _ _) hlength

/-- What shows behind the limit decides an attempt. -/
theorem lineAttempt_decided (hmax : 0 < clampedMaxBytes options.maxReturnedBytes)
    (hinput : utf8Code.IsText input)
    (h : Contested (clampedMaxBytes options.maxReturnedBytes) input)
    (hview : current.buffer.view = input.take (clampedMaxBytes options.maxReturnedBytes + 3))
    (hscanned : Plain (current.buffer.view.take current.progress)) :
    ∃ answer, lineAttempt options environment current = .error answer ∧ Decided answer.1 := by
  have hlimit := h.limit_lt hinput
  have hstarts : current.buffer.view <+: input := hview ▸ List.take_prefix _ _
  have hlength : clampedMaxBytes options.maxReturnedBytes + 3 ≤ current.buffer.view.length ∨
      current.buffer.view.length = input.length := by
    rw [hview, List.length_take]
    exact (Nat.le_total _ _).imp (fun hle => Nat.le_of_eq (Nat.min_eq_left hle).symm)
      Nat.min_eq_right
  unfold lineAttempt
  dsimp only
  rw [findLineEnding_skip false hscanned]
  have htruncated : ((findLineEnding current.buffer.view 0 false).found = true →
        clampedMaxBytes options.maxReturnedBytes <
          (findLineEnding current.buffer.view 0 false).offset) →
      Decided (truncatedLine current.buffer (clampedMaxBytes options.maxReturnedBytes)).1 := by
    intro hbehind
    rcases h.cases hinput with ⟨s, hs, hstart, hover⟩ | ⟨hfound, hoffset, hextent⟩
    · have hfour : (utf8Code.encode s).length ≤ 4 := by
        change (Unicode.utf8Bytes s).length ≤ 4
        rw [Unicode.length_utf8Bytes]
        exact Unicode.utf8EncodedLength_le s
      have hpos := hstart.length_le
      refine truncatedLine_decided hs (List.prefix_of_prefix_length_le hstart hstarts ?_) hover
      omega
    · -- the ending within the limit shows
      exfalso
      obtain ⟨rest, hrest⟩ := hstarts
      have hle := (findLineEnding_append [] false hfound).2
      have htwo : (findLineEnding input 0 false).extent ≤
          (findLineEnding input 0 false).offset + 2 := by
        unfold LineEndingMatch.extent
        split_ifs <;> omega
      rw [← hrest] at hfound hoffset hle htwo hlength
      have hshows := findLineEnding_shown hfound (by omega)
      have hsame := (findLineEnding_append rest false hshows).1
      rw [hsame] at hoffset
      have := hbehind hshows
      omega
  by_cases hfound : (findLineEnding current.buffer.view 0 false).found = true
  · rw [if_pos hfound]
    refine ⟨_, rfl, ?_⟩
    by_cases hoffset : (findLineEnding current.buffer.view 0 false).offset ≤
        clampedMaxBytes options.maxReturnedBytes
    · exact completeLineFromPending_decided (findLineEnding_found hfound) hoffset
    · unfold completeLineFromPending
      rw [if_pos (by omega)]
      exact htruncated fun _ => by omega
  · rw [if_neg hfound, if_pos (by rw [← PendingInputBuffer.length_view]; omega)]
    exact ⟨_, rfl, htruncated fun hshows => absurd hshows hfound⟩

/-- A chunk that goes on behind the limit shows more. -/
theorem answered_contested_block (htimeout : options.timeout = none)
    (hinput : utf8Code.IsText input)
    (h : Contested (clampedMaxBytes options.maxReturnedBytes) input)
    {buffer : PendingInputBuffer} (hview : buffer.view <+: input)
    (hshort : buffer.view.length < clampedMaxBytes options.maxReturnedBytes) :
    ∃ cuts, Cuts (input.drop buffer.view.length) cuts ∧ ∃ answer rest,
      answered (lineAttempt options environment) (lineAbsorb options environment)
        (cutTransfers cuts) { buffer, progress := 0 } = some (answer, rest) ∧
      Decided answer.1 := by
  have hlimit := h.limit_lt hinput
  have hpos : 0 < clampedMaxBytes options.maxReturnedBytes := by omega
  obtain ⟨before, hbefore⟩ : ∃ before, clampedMaxBytes options.maxReturnedBytes = before + 1 :=
    ⟨clampedMaxBytes options.maxReturnedBytes - 1, by omega⟩
  have hblock : (input.drop before).take 4 ≠ [] := by
    rw [← List.length_pos_iff, List.length_take, List.length_drop]
    omega
  refine ⟨singles ((input.take before).drop buffer.view.length) ++ (input.drop before).take 4 ::
    singles (input.drop (before + 4)), ⟨?_, fun bytes hbytes => ?_⟩, ?_⟩
  · rw [List.flatten_append, List.flatten_cons, singles_flatten, singles_flatten,
      ← List.drop_drop, List.take_append_drop, ← List.drop_append_of_le_length
      (by rw [List.length_take_of_le (by omega)]; omega), List.take_append_drop]
  · rcases List.mem_append.1 hbytes with hbytes | hbytes
    · exact (singles_cuts _).2 bytes hbytes
    rcases List.mem_cons.1 hbytes with rfl | hbytes
    · exact ⟨hblock, Nat.le_trans (List.length_take_le _ _) (by decide)⟩
    · exact (singles_cuts _).2 bytes hbytes
  obtain ⟨next, hnext, hscanned, hsame⟩ := answered_start environment htimeout
    (cutTransfers ((input.drop before).take 4 :: singles (input.drop (before + 4)))) hview
    (show buffer.view.length ≤ before by omega) (by omega)
    fun length hlength => ⟨h.not_found hinput (by omega), by omega⟩
  have hlength : next.buffer.view.length = before := by
    rw [hnext, List.length_take_of_le (by omega)]
  obtain ⟨scanOffset, hgoes, hle, hplain⟩ := lineAttempt_continues environment htimeout hscanned
    (by rw [hnext]; exact h.not_found hinput (by omega)) (by omega)
  let last : ReadPass Nat :=
    ReadPass.absorbed environment { next with progress := scanOffset } ((input.drop before).take 4)
  have hlast : last.buffer.view =
      input.take (clampedMaxBytes options.maxReturnedBytes + 3) := by
    simp only [last, ReadPass.absorbed, PendingInputBuffer.view_append, hnext]
    rw [← List.take_add, hbefore]
  have hlastScanned : Plain (last.buffer.view.take last.progress) := by
    simp only [last, ReadPass.absorbed, PendingInputBuffer.view_append]
    rwa [List.take_append_of_le_length hle]
  obtain ⟨answer, hattempt, hdecided⟩ :=
    lineAttempt_decided environment hpos hinput h hlast hlastScanned
  refine ⟨answer, cutTransfers (singles (input.drop (before + 4))), ?_, hdecided⟩
  rw [cutTransfers_append, hsame, cutTransfers_cons, answered, hgoes]
  dsimp only
  rw [lineAbsorb_delivered options environment hblock]
  exact Lib.answered_error hattempt _ _

/-- With chunks of one byte a call reads no further than its limit. -/
theorem answered_singles_left {bytes : List UInt8} {buffer : PendingInputBuffer}
    {answer : LineResult × PendingInputBuffer} {rest : List ReadChunk}
    (hshort : buffer.view.length ≤ clampedMaxBytes options.maxReturnedBytes)
    (h : answered (lineAttempt options environment) (lineAbsorb options environment)
      (cutTransfers (singles bytes)) { buffer, progress := 0 } = some (answer, rest)) :
    answer.2.view.length + inputLeft (cutTransfers (singles bytes)) buffer ≤
      clampedMaxBytes options.maxReturnedBytes + inputLeft rest answer.2 := by
  have hreturns : ∀ {chunks : List ReadChunk} {current : ReadPass Nat}
      {answer : LineResult × PendingInputBuffer},
      inputLeft chunks current.buffer = inputLeft (cutTransfers (singles bytes)) buffer →
      current.buffer.view.length ≤ clampedMaxBytes options.maxReturnedBytes →
      LineKept options.lineEndingMode (clampedMaxBytes options.maxReturnedBytes)
        current.buffer.view answer →
      answer.2.view.length + inputLeft (cutTransfers (singles bytes)) buffer ≤
        clampedMaxBytes options.maxReturnedBytes + inputLeft chunks answer.2 := by
    intro chunks current answer hleft hle hkept
    have hlength := congrArg List.length hkept.conserved
    rw [List.length_append] at hlength
    rw [← hleft]
    unfold inputLeft
    omega
  refine (Yields.answered
    (I := fun chunks (current : ReadPass Nat) => (∀ chunk ∈ chunks, chunk.bytes.length ≤ 1) ∧
      inputLeft chunks current.buffer = inputLeft (cutTransfers (singles bytes)) buffer ∧
      current.buffer.view.length ≤ clampedMaxBytes options.maxReturnedBytes)
    (J := fun chunks (current : ReadPass Nat) => (∀ chunk ∈ chunks, chunk.bytes.length ≤ 1) ∧
      inputLeft chunks current.buffer = inputLeft (cutTransfers (singles bytes)) buffer ∧
      current.buffer.view.length < clampedMaxBytes options.maxReturnedBytes)
    (E := fun chunks (answer : LineResult × PendingInputBuffer) =>
      answer.2.view.length + inputLeft (cutTransfers (singles bytes)) buffer ≤
        clampedMaxBytes options.maxReturnedBytes + inputLeft chunks answer.2)
    ?_ ?_ ⟨?_, rfl, hshort⟩ h).1
  · rintro chunks current ⟨hchunks, hleft, hle⟩
    unfold lineAttempt
    dsimp only
    split_ifs with hfound hover
    · exact hreturns hleft hle (completeLineFromPending_kept (findLineEnding_found hfound))
    · exact hreturns hleft hle (truncatedLine_kept _ _)
    · exact hreturns hleft hle (finishLine_kept _ (by omega))
    · exact hreturns hleft hle (finishLine_kept _ (by omega))
    · exact ⟨hchunks, hleft, by simpa using hover⟩
    · exact ⟨hchunks, hleft, by simpa using hover⟩
  · rintro chunk chunks current ⟨hchunks, hleft, hlt⟩
    have hone := hchunks chunk List.mem_cons_self
    unfold lineAbsorb
    split_ifs with hok hempty
    · refine hreturns ?_ (Nat.le_of_lt hlt) (lineKept_nothing _ _)
      rw [← hleft, inputLeft_cons, chunk.failed_empty (by simpa using hok)]
      rfl
    · refine hreturns ?_ (Nat.le_of_lt hlt)
        (finishLine_kept _ (by rw [← PendingInputBuffer.length_view]; exact Nat.le_of_lt hlt))
      rw [← hleft, inputLeft_cons, show chunk.bytes = [] by simpa using hempty]
      rfl
    · refine ⟨fun c hc => hchunks c (List.mem_cons_of_mem _ hc), ?_, ?_⟩
      · rw [inputLeft_absorbed, hleft]
      · simp only [ReadPass.absorbed, PendingInputBuffer.view_append, List.length_append]
        omega
  · intro chunk hchunk
    rcases List.mem_append.1 hchunk with hchunk | hchunk
    · obtain ⟨single, hsingle, rfl⟩ := List.mem_map.1 hchunk
      obtain ⟨byte, -, rfl⟩ := List.mem_map.1 hsingle
      exact Nat.le_refl _
    · rw [List.mem_singleton.1 hchunk]
      exact Nat.zero_le _

end Contested

/-- Only the end of the input ends a caller's loop. -/
theorem lineAtOnce_endOfStream (hinput : utf8Code.IsText input) (hmax : 0 < maxBytes)
    (hfree : ¬ Contested maxBytes input)
    (h : (lineAtOnce lineEndingMode maxBytes input).1.outcome = .endOfStream) :
    input.drop (linePiece lineEndingMode maxBytes input) = [] := by
  rw [← (lineAtOnce_rest lineEndingMode hmax hinput hfree).1]
  unfold lineAtOnce at h ⊢
  have htruncated : ∀ buffer, (truncatedLine buffer maxBytes).1.outcome = .completed :=
    fun _ => rfl
  have hcomplete : ∀ buffer ending, (completeLineFromPending buffer ending lineEndingMode
      maxBytes).1.outcome = .completed := by
    intro buffer ending
    unfold completeLineFromPending
    split_ifs
    · rfl
    · dsimp only
      cases returnedLineEnding lineEndingMode
          ((buffer.view.drop ending.offset).take ending.length) with
      | none => rfl
      | some returned =>
        dsimp only
        split_ifs <;> rfl
  dsimp only at h ⊢
  split_ifs at h ⊢
  · rw [hcomplete] at h
    cases h
  · rw [htruncated] at h
    cases h
  · rfl

/-- The transfers left of a cut input are those of the chunks left, or nothing. -/
theorem suffix_cutTransfers {cuts : List (List UInt8)} {rest : List ReadChunk}
    (h : rest <:+ cutTransfers cuts) (hne : rest ≠ []) :
    rest = cutTransfers (cuts.drop (cuts.length + 1 - rest.length)) := by
  have hpos := List.length_pos_iff.2 hne
  conv_lhs => rw [List.suffix_iff_eq_drop.1 h]
  rw [cutTransfers, cutTransfers, List.length_append, List.length_map, List.length_singleton,
    List.drop_append_of_le_length (by rw [List.length_map]; omega), List.map_drop]

theorem chunkBytes_cutTransfers (cuts : List (List UInt8)) :
    chunkBytes (cutTransfers cuts) = cuts.flatten := by
  induction cuts with
  | nil => rfl
  | cons bytes cuts ih => exact congrArg (bytes ++ ·) ih

theorem Cuts.eq_nil {cuts : List (List UInt8)} (h : Cuts [] cuts) : cuts = [] := by
  rw [List.eq_nil_iff_forall_not_mem]
  intro bytes hbytes
  exact (h.2 bytes hbytes).1 (List.flatten_eq_nil_iff.1 h.1 bytes hbytes)

/-- A call that uses some chunks goes on with those behind them. -/
theorem readLines_append {options : LineOptions} (hmax : options.maxReturnedBytes ≠ 0)
    {environment : ReadEnvironment} (hendpoint : environment.endpointIdentityStatus.ok = true)
    {used cuts : List (List UInt8)} {buffer : PendingInputBuffer}
    {answer : LineResult × PendingInputBuffer}
    (h : answered (lineAttempt options environment) (lineAbsorb options environment)
      (cutTransfers (used ++ cuts)) { buffer, progress := 0 } = some (answer, cutTransfers cuts))
    (hgoes : answer.1.outcome ≠ .endOfStream) (calls : Nat) (other : List (List UInt8)) :
    readLines options (fun _ => environment) (calls + 1) (used ++ other) buffer =
      answer.1 :: readLines options (fun _ => environment) calls other answer.2 := by
  rw [cutTransfers_append] at h
  have hother := Lib.answered_append h (cutTransfers other)
  rw [← cutTransfers_append] at hother
  have hdrop : (used ++ other).drop ((used ++ other).length + 1 - (cutTransfers other).length) =
      other := by
    have hcount : (used ++ other).length + 1 - (cutTransfers other).length = used.length := by
      simp [cutTransfers]
    rw [hcount, List.drop_left]
  rw [readLines, readLine_answered hmax hendpoint, hother]
  dsimp only
  rw [if_neg hgoes, hdrop]

/-- **Where an input is contested**, two ways of cutting it give different results. -/
theorem readLines_contested {options : LineOptions} (hmax : options.maxReturnedBytes ≠ 0)
    (htimeout : options.timeout = none) (environment : ReadEnvironment)
    (hendpoint : environment.endpointIdentityStatus.ok = true) (reached : Nat)
    (hinput : utf8Code.IsText input)
    (h : Contested (clampedMaxBytes options.maxReturnedBytes)
      (inputBehind options.lineEndingMode (clampedMaxBytes options.maxReturnedBytes) reached input))
    {buffer : PendingInputBuffer} (hview : buffer.view <+: input)
    (hshort : buffer.view.length < clampedMaxBytes options.maxReturnedBytes) :
    ∃ calls cuts₁ cuts₂, Cuts (input.drop buffer.view.length) cuts₁ ∧
      Cuts (input.drop buffer.view.length) cuts₂ ∧
      readLines options (fun _ => environment) calls cuts₁ buffer ≠
        readLines options (fun _ => environment) calls cuts₂ buffer := by
  have hpos := clampedMaxBytes_pos (Nat.pos_of_ne_zero hmax)
  have hhere : ∀ {input : List UInt8} {buffer : PendingInputBuffer}, utf8Code.IsText input →
      Contested (clampedMaxBytes options.maxReturnedBytes) input → buffer.view <+: input →
      buffer.view.length < clampedMaxBytes options.maxReturnedBytes →
      ∃ calls cuts₁ cuts₂, Cuts (input.drop buffer.view.length) cuts₁ ∧
        Cuts (input.drop buffer.view.length) cuts₂ ∧
        readLines options (fun _ => environment) calls cuts₁ buffer ≠
          readLines options (fun _ => environment) calls cuts₂ buffer := by
    intro input buffer hinput h hview hshort
    obtain ⟨cuts₁, hcuts₁, answer₁, rest₁, hanswered₁, hundecided⟩ :=
      answered_contested_singles environment htimeout hinput h hview hshort
    obtain ⟨cuts₂, hcuts₂, answer₂, rest₂, hanswered₂, hdecided⟩ :=
      answered_contested_block environment htimeout hinput h hview hshort
    refine ⟨1, cuts₁, cuts₂, hcuts₁, hcuts₂, fun heq => hundecided ?_⟩
    rw [readLines, readLines, readLine_answered hmax hendpoint, hanswered₁,
      readLine_answered hmax hendpoint, hanswered₂] at heq
    rw [(List.cons.inj heq).1]
    exact hdecided
  induction reached generalizing input buffer with
  | zero => exact hhere hinput h hview hshort
  | succ reached ih =>
    by_cases hfree : Contested (clampedMaxBytes options.maxReturnedBytes) input
    · exact hhere hinput hfree hview hshort
    obtain ⟨hrest, htext⟩ := lineAtOnce_rest options.lineEndingMode hpos hinput hfree
    by_cases hsame : input.drop (linePiece options.lineEndingMode
        (clampedMaxBytes options.maxReturnedBytes) input) = input
    · -- the call leaves the input as it is
      rw [inputBehind, hsame] at h
      exact ih hinput h hview hshort
    -- a call over chunks of one byte, and then the two ways to cut what it leaves
    have hcuts : buffer.view ++ (singles (input.drop buffer.view.length)).flatten = input := by
      rw [singles_flatten]
      conv_lhs => rw [List.prefix_iff_eq_take.1 hview]
      rw [List.length_take_of_le hview.length_le, List.take_append_drop]
    obtain ⟨answer, rest, hanswered, hsuffix, hresult, hleft⟩ :=
      answered_line_settled environment hpos htimeout hinput hfree
        (fun bytes hbytes => ((singles_cuts (input.drop buffer.view.length)).2 bytes hbytes).1)
        (show (ReadPass.mk 0 buffer 0 : ReadPass Nat).buffer.view ++ _ = input from hcuts) plain_nil
    have hread := answered_singles_left environment (Nat.le_of_lt hshort) hanswered
    have hsmaller : (input.drop (linePiece options.lineEndingMode
        (clampedMaxBytes options.maxReturnedBytes) input)).length < input.length := by
      rw [← Nat.not_le]
      exact fun hle => hsame ((List.drop_suffix _ _).eq_of_length_le hle)
    -- the transfers left bring the chunks left
    obtain ⟨taken, htaken⟩ : ∃ taken, taken =
        (singles (input.drop buffer.view.length)).length + 1 - rest.length := ⟨_, rfl⟩
    rw [← htaken] at hleft
    have hbytes : chunkBytes rest =
        ((singles (input.drop buffer.view.length)).drop taken).flatten := by
      by_cases hempty : rest = []
      · rw [htaken, hempty, List.length_nil, List.drop_eq_nil_of_le (by omega)]
        rfl
      · conv_lhs => rw [suffix_cutTransfers hsuffix hempty, chunkBytes_cutTransfers]
        rw [htaken]
    rw [hrest] at hleft
    have hnext : answer.2.view.length < clampedMaxBytes options.maxReturnedBytes := by
      have htotal : inputLeft (cutTransfers (singles (input.drop buffer.view.length))) buffer =
          input.length := by
        rw [inputLeft, chunkBytes_cutTransfers, ← List.length_append, hcuts]
      have hremains : inputLeft rest answer.2 = (input.drop (linePiece options.lineEndingMode
          (clampedMaxBytes options.maxReturnedBytes) input)).length := by
        rw [inputLeft, hbytes, ← List.length_append, hleft]
      omega
    obtain ⟨calls, cuts₁, cuts₂, hcuts₁, hcuts₂, hne⟩ :=
      ih htext h (hleft ▸ List.prefix_append _ _) hnext
    have hbehind : (input.drop (linePiece options.lineEndingMode
        (clampedMaxBytes options.maxReturnedBytes) input)).drop answer.2.view.length =
          ((singles (input.drop buffer.view.length)).drop taken).flatten := by
      rw [hleft, List.drop_left]
    -- there is something to cut, so the call has not met the end of the input
    have hmore : ((singles (input.drop buffer.view.length)).drop taken).flatten ≠ [] := by
      intro hnil
      rw [hbehind, hnil] at hcuts₁ hcuts₂
      exact hne (by rw [hcuts₁.eq_nil, hcuts₂.eq_nil])
    have hgoes : answer.1.outcome ≠ .endOfStream := by
      intro hend
      rw [← hresult] at hend
      rw [lineAtOnce_endOfStream hinput hpos hfree hend, List.drop_nil] at hbehind
      exact hmore hbehind.symm
    have hsome : rest ≠ [] := by
      rintro rfl
      exact hmore hbytes.symm
    have hused : answered (lineAttempt options environment) (lineAbsorb options environment)
        (cutTransfers ((singles (input.drop buffer.view.length)).take taken ++
          (singles (input.drop buffer.view.length)).drop taken)) { buffer, progress := 0 } =
        some (answer, cutTransfers ((singles (input.drop buffer.view.length)).drop taken)) := by
      rw [List.take_append_drop, hanswered, htaken, ← suffix_cutTransfers hsuffix hsome]
    have hwhole : ∀ cuts, Cuts ((input.drop (linePiece options.lineEndingMode
          (clampedMaxBytes options.maxReturnedBytes) input)).drop answer.2.view.length) cuts →
        Cuts (input.drop buffer.view.length)
          ((singles (input.drop buffer.view.length)).take taken ++ cuts) := by
      rintro cuts ⟨hflatten, hchunks⟩
      refine ⟨?_, fun bytes hbytes => ?_⟩
      · rw [List.flatten_append, hflatten, hbehind, ← List.flatten_append, List.take_append_drop,
          singles_flatten]
      · rcases List.mem_append.1 hbytes with hbytes | hbytes
        · exact (singles_cuts _).2 bytes (List.mem_of_mem_take hbytes)
        · exact hchunks bytes hbytes
    refine ⟨calls + 1, _, _, hwhole cuts₁ hcuts₁, hwhole cuts₂ hcuts₂, fun heq => hne ?_⟩
    rw [readLines_append hmax hendpoint hused hgoes, readLines_append hmax hendpoint hused hgoes]
      at heq
    exact (List.cons.inj heq).2

/-- **Cutting the input**: however an input of valid UTF-8 is cut, the lines read are the same,
exactly when it is contested nowhere a line read begins. -/
theorem readLines_cuts (options : LineOptions) (htimeout : options.timeout = none)
    (hinput : IsText input) : SameLines options input ↔ Settled options input := by
  have htext := Unicode.Utf8.isText_iff.1 hinput
  constructor
  · intro hsame
    by_cases hmax : options.maxReturnedBytes = 0
    · exact .inl hmax
    refine .inr fun reached hcontested => ?_
    have hempty : ({} : PendingInputBuffer).view <+: input := List.nil_prefix
    obtain ⟨calls, cuts₁, cuts₂, hcuts₁, hcuts₂, hne⟩ :=
      readLines_contested hmax htimeout {} rfl reached htext hcontested hempty
        (clampedMaxBytes_pos (Nat.pos_of_ne_zero hmax))
    exact hne (hsame cuts₁ cuts₂ _ _ calls hcuts₁ hcuts₂ (fun _ => rfl) fun _ => rfl)
  · rintro (hmax | hfree) cuts₁ cuts₂ environment₁ environment₂ calls hcuts₁ hcuts₂ henv₁ henv₂
    · rw [readLines_zero hmax, readLines_zero hmax]
    · by_cases hmax : options.maxReturnedBytes = 0
      · rw [readLines_zero hmax, readLines_zero hmax]
      · have hview : ∀ {cuts}, Cuts input cuts →
            ({} : PendingInputBuffer).view ++ cuts.flatten = input := fun h => h.1
        rw [readLines_settled hmax htimeout henv₁ htext hfree (fun bytes h => (hcuts₁.2 bytes h).1)
            (hview hcuts₁),
          readLines_settled hmax htimeout henv₂ htext hfree (fun bytes h => (hcuts₂.2 bytes h).1)
            (hview hcuts₂)]

/-- `aé` and an LF, read with room to spare. -/
theorem readLines_cuts_accent :
    readLines { maxReturnedBytes := 5 } (fun _ => {}) 3 [[0x61, 0xC3], [0xA9], [0x0A]] {} =
      readLines { maxReturnedBytes := 5 } (fun _ => {}) 3 [[0x61, 0xC3, 0xA9, 0x0A]] {} := by
  have htext : IsText [0x61, 0xC3, 0xA9, 0x0A] := validUtf8_iff.1 (by decide +kernel)
  refine (readLines_cuts { maxReturnedBytes := 5 } rfl htext).2 (.inr fun calls => ?_) _ _ _ _ 3
    ⟨rfl, by decide⟩ ⟨rfl, by decide⟩ (fun _ => rfl) fun _ => rfl
  have hend : ∀ calls, inputBehind .strip 5 calls [] = [] := by
    intro calls
    induction calls with
    | zero => rfl
    | succ calls ih => exact ih
  cases calls with
  | zero => decide +kernel
  | succ calls =>
    have hpiece : inputBehind .strip 5 (calls + 1) [0x61, 0xC3, 0xA9, 0x0A] =
        inputBehind .strip 5 calls [] := by
      rw [inputBehind]
      congr 1
    change ¬ Contested 5 (inputBehind .strip 5 (calls + 1) [0x61, 0xC3, 0xA9, 0x0A])
    rw [hpiece, hend]
    decide +kernel

/-- The cuts do matter: `abc` and an LF, read with room for three bytes, is one line when it arrives
at once and two when the LF arrives behind the limit. -/
theorem readLines_cuts_fails :
    ¬ ∀ (options : LineOptions) (input : List UInt8), options.timeout = none → IsText input →
      SameLines options input := by
  intro h
  have htext : IsText [0x61, 0x62, 0x63, 0x0A] := validUtf8_iff.1 (by decide +kernel)
  have hsame := h { maxReturnedBytes := 3 } _ rfl htext [[0x61, 0x62, 0x63], [0x0A]]
    [[0x61, 0x62, 0x63, 0x0A]] (fun _ => {}) (fun _ => {}) 3 ⟨rfl, by decide⟩ ⟨rfl, by decide⟩
    (fun _ => rfl) fun _ => rfl
  exact absurd hsame (by decide +kernel)

end Terminal

import GameWIP.Terminal.StreamInput
import GameWIP.Unicode.Proof.Utf8
import Mathlib.Order.RelClasses

/-!
# No byte is lost between readers

`streamKept`: whatever the chunks and the calls, the bytes handed out so far followed by the bytes
pending are the bytes received. A text or a line returned is strict UTF-8 within its limit, and a
text or line read that fails hands out nothing.

Each reader is a loop that waits for answers (`Lib.answered`), so its specification is one invariant:
what it has copied, then the bytes pending, then the bytes to come, are those it started with.
-/

namespace Terminal

open Io (Status successStatus)
open Lib (Trace Transition Yields)
open Unicode (utf8Code)
open Unicode.Utf8 (IsText)

/-! ## Pending bytes -/

namespace PendingInputBuffer

variable {buffer : PendingInputBuffer}

@[simp] theorem length_view : buffer.view.length = buffer.size := by
  simp [view, size]

@[simp] theorem view_compact : buffer.compact.view = buffer.view := rfl

@[simp] theorem view_append (bytes : List UInt8) (growing : Bool) :
    (buffer.append bytes growing).view = buffer.view ++ bytes := by
  unfold append
  dsimp only
  split_ifs
  · rfl
  · simp only [view]
    rw [List.drop_append_of_le_length buffer.offset_le]

@[simp] theorem view_consume (bytes : Nat) :
    (buffer.consume bytes).view = buffer.view.drop bytes := by
  unfold consume
  split
  · rename_i h
    rw [List.drop_eq_nil_of_le (by rw [length_view]; exact h)]
    rfl
  · simp [view]

@[simp] theorem take_fst : buffer.take.1 = buffer.view := by
  unfold take
  split
  · rename_i h
    simp [view, h]
  · rfl

@[simp] theorem view_take_snd : buffer.take.2.view = [] := by
  unfold take
  split <;> rfl

end PendingInputBuffer

/-! ## Scalars and lines -/

theorem validUtf8_iff {bytes : List UInt8} : validUtf8 bytes = true ↔ IsText bytes := by
  rw [Unicode.Utf8.isText_iff, ← Unicode.Utf8.validate_valid_iff, validUtf8, beq_iff_eq]

/-- The prefix is a text within the bytes and the limit. -/
theorem utf8PrefixFrom_spec {bytes : List UInt8} {maxBytes offset : Nat}
    (hoff : offset ≤ bytes.length) (hmax : offset ≤ maxBytes) (htext : IsText (bytes.take offset)) :
    (utf8PrefixFrom bytes maxBytes offset).bytes ≤ bytes.length ∧
      (utf8PrefixFrom bytes maxBytes offset).bytes ≤ maxBytes ∧
      IsText (bytes.take (utf8PrefixFrom bytes maxBytes offset).bytes) := by
  fun_induction utf8PrefixFrom bytes maxBytes offset with
  | case1 offset hlt decoded ho => exact ⟨hoff, hmax, htext⟩
  | case2 offset hlt decoded ho => exact ⟨hoff, hmax, htext⟩
  | case3 offset hlt decoded ho hpos hover => exact ⟨hoff, hmax, htext⟩
  | case4 offset hlt decoded ho hpos hfit ih =>
    have hdecoded : Unicode.Utf8.decodeScalar (bytes.drop offset) =
        { scalar := decoded.scalar, bytesConsumed := decoded.bytesConsumed,
          outcome := .decoded } := by
      rw [← ho]
    obtain ⟨hs, -, hle, htake⟩ :=
      ((Unicode.Utf8.validate_spec (bytes.drop offset)).2.2.2.2.1 _ _).1 hdecoded
    rw [List.length_drop] at hle
    refine ih (by omega) (by omega) ?_
    rw [List.take_add, htake]
    obtain ⟨ss, hss, heq⟩ := htext
    refine ⟨ss ++ [decoded.scalar], ?_, by rw [List.flatMap_append, ← heq]; simp⟩
    intro s hs'
    rcases List.mem_append.1 hs' with h | h
    · exact hss s h
    · rwa [List.mem_singleton.1 h]
  | case5 offset hlt => exact ⟨hoff, hmax, htext⟩

theorem utf8Prefix_spec (bytes : List UInt8) (maxBytes : Nat) :
    (utf8Prefix bytes maxBytes).bytes ≤ bytes.length ∧ (utf8Prefix bytes maxBytes).bytes ≤ maxBytes ∧
      IsText (bytes.take (utf8Prefix bytes maxBytes).bytes) :=
  utf8PrefixFrom_spec (Nat.zero_le _) (Nat.zero_le _) ⟨[], by simp, rfl⟩

/-- The bytes of a line ending. -/
def rawLineEnding : ConsumedLineEnding → List UInt8
  | .none => []
  | .lf => [0x0A]
  | .crLf => [0x0D, 0x0A]
  | .cr => [0x0D]

/-- What a match says of the bytes it is found in. -/
structure LineEndingMatch.Found (ending : LineEndingMatch) (bytes : List UInt8) : Prop where
  raw : (bytes.drop ending.offset).take ending.length = rawLineEnding ending.ending
  length : ending.length = (rawLineEnding ending.ending).length
  ending : ending.ending ≠ .none

theorem findLineEndingFrom_found {allowTrailingCr : Bool} {index : Nat} {pre rest : List UInt8}
    (hpre : pre.length = index)
    (h : (findLineEndingFrom allowTrailingCr index rest).found = true) :
    (findLineEndingFrom allowTrailingCr index rest).Found (pre ++ rest) := by
  induction rest generalizing pre index with
  | nil => cases h
  | cons byte rest ih =>
    subst hpre
    unfold findLineEndingFrom at h ⊢
    split_ifs at h ⊢ with hlf hcrlf hcr
    · exact ⟨by simp [hlf, rawLineEnding], rfl, by simp⟩
    · obtain ⟨hbyte, hnext⟩ : byte = 0x0D ∧ rest.head? = some 0x0A := by simpa using hcrlf
      obtain ⟨tail, rfl⟩ : ∃ tail, rest = 0x0A :: tail := by
        cases rest with
        | nil => cases hnext
        | cons next tail => exact ⟨tail, by rw [Option.some.inj hnext]⟩
      exact ⟨by simp [hbyte, rawLineEnding], rfl, by simp⟩
    · have hbyte : byte = 0x0D := by simp_all
      exact ⟨by simp [hbyte, rawLineEnding], rfl, by simp⟩
    · have := @ih _ (pre ++ [byte]) (by simp) h
      rwa [List.append_assoc, List.singleton_append] at this

theorem findLineEnding_found {bytes : List UInt8} {startOffset : Nat} {allowTrailingCr : Bool}
    (h : (findLineEnding bytes startOffset allowTrailingCr).found = true) :
    (findLineEnding bytes startOffset allowTrailingCr).Found bytes := by
  have hpre : (bytes.take (min startOffset bytes.length)).length = min startOffset bytes.length := by
    simp
  have := findLineEndingFrom_found hpre h
  rwa [List.take_append_drop] at this

/-! ## Lines -/

/-- The line without the ending its mode adds to it. -/
def lineText (lineEndingMode : LineEndingMode) (result : LineResult) : List UInt8 :=
  if result.wasTruncated || result.consumedLineEnding == .none then result.line
  else
    match lineEndingMode with
    | .strip => result.line
    | .keep =>
      result.line.take (result.line.length - (rawLineEnding result.consumedLineEnding).length)
    | .normalizeToLf => result.line.take (result.line.length - 1)
    | .other _ => result.line

/-- What a line read hands out: the text and the raw bytes of the ending it reports. -/
def handedLine (lineEndingMode : LineEndingMode) (result : LineResult) : List UInt8 :=
  lineText lineEndingMode result ++ rawLineEnding result.consumedLineEnding

/-- What a line read may do to the bytes pending. -/
structure LineKept (lineEndingMode : LineEndingMode) (maxBytes : Nat) (view : List UInt8)
    (answer : LineResult × PendingInputBuffer) : Prop where
  conserved : handedLine lineEndingMode answer.1 ++ answer.2.view = view
  text : IsText answer.1.line
  length : answer.1.line.length ≤ maxBytes
  failed : answer.1.status.ok = false → handedLine lineEndingMode answer.1 = []

variable {buffer : PendingInputBuffer} {lineEndingMode : LineEndingMode} {maxBytes : Nat}

theorem isText_nil : IsText [] := ⟨[], by simp, rfl⟩

/-- A read that returns nothing leaves the bytes pending. -/
theorem lineKept_nothing (status : Status) (outcome : ReadOutcome) :
    LineKept lineEndingMode maxBytes buffer.view ({ status, outcome }, buffer) :=
  ⟨rfl, isText_nil, Nat.zero_le _, fun _ => rfl⟩

theorem truncatedLine_kept (buffer : PendingInputBuffer) (maxBytes : Nat) :
    LineKept lineEndingMode maxBytes buffer.view (truncatedLine buffer maxBytes) := by
  obtain ⟨-, hmax, htext⟩ := utf8Prefix_spec buffer.view maxBytes
  unfold truncatedLine copyTruncatedUtf8Prefix
  dsimp only
  split_ifs
  · exact lineKept_nothing _ _
  · exact lineKept_nothing _ _
  · refine ⟨?_, htext, ?_, fun h => ?_⟩
    · simp [handedLine, lineText, rawLineEnding]
    · exact Nat.le_trans (List.length_take_le _ _) hmax
    · cases h

/-- The line and the raw ending are the bytes consumed, whatever the mode adds to the line. -/
theorem handedLine_returned {raw returned line : List UInt8} {ending : ConsumedLineEnding}
    (hreturned : returnedLineEnding lineEndingMode raw = some returned)
    (hraw : raw = rawLineEnding ending) (hending : ending ≠ .none) :
    handedLine lineEndingMode { line := line ++ returned, consumedLineEnding := ending } =
      line ++ raw := by
  subst hraw
  unfold handedLine lineText
  cases lineEndingMode with
  | strip =>
    cases hreturned
    simp
  | keep =>
    cases hreturned
    simp [hending]
  | normalizeToLf =>
    cases hreturned
    simp [hending]
  | other => cases hreturned

theorem completeLineFromPending_kept {ending : LineEndingMatch} (h : ending.Found buffer.view) :
    LineKept lineEndingMode maxBytes buffer.view
      (completeLineFromPending buffer ending lineEndingMode maxBytes) := by
  unfold completeLineFromPending
  split_ifs with hover
  · exact truncatedLine_kept buffer maxBytes
  · have hsplit : buffer.view.take ending.offset ++
        ((buffer.view.drop ending.offset).take ending.length ++
          buffer.view.drop (ending.offset + ending.length)) = buffer.view := by
      rw [← List.drop_drop, List.take_append_drop, List.take_append_drop]
    dsimp only
    cases hreturned : returnedLineEnding lineEndingMode
        ((buffer.view.drop ending.offset).take ending.length) with
    | none => exact lineKept_nothing _ _
    | some returned =>
      dsimp only
      have hoffset : (buffer.view.take ending.offset).length ≤ ending.offset :=
        List.length_take_le _ _
      by_cases htruncated : returned.length > maxBytes - ending.offset
      · -- the limit leaves no room for the ending, which is consumed all the same
        rw [if_pos htruncated, decide_eq_true htruncated]
        split_ifs with hvalid
        · exact lineKept_nothing _ _
        · refine ⟨?_, ?_, ?_, fun hfailed => by cases hfailed⟩
          · rw [PendingInputBuffer.view_consume]
            simp only [handedLine, lineText, Bool.true_or, if_true]
            rw [← h.raw, List.append_assoc, hsplit]
          · exact validUtf8_iff.1 (by simpa using hvalid)
          · dsimp only
            omega
      · rw [if_neg htruncated, decide_eq_false htruncated]
        split_ifs with hvalid
        · exact lineKept_nothing _ _
        · refine ⟨?_, ?_, ?_, fun hfailed => by cases hfailed⟩
          · rw [PendingInputBuffer.view_consume]
            dsimp only
            rw [handedLine_returned hreturned h.raw h.ending, List.append_assoc, hsplit]
          · exact validUtf8_iff.1 (by simpa using hvalid)
          · dsimp only
            rw [List.length_append]
            omega

theorem finishLine_kept {scanOffset : Nat} (outcome : ReadOutcome) (h : buffer.size ≤ maxBytes) :
    LineKept lineEndingMode maxBytes buffer.view
      (finishLine buffer scanOffset outcome lineEndingMode maxBytes) := by
  unfold finishLine
  dsimp only
  split_ifs with hfound hempty hvalid
  · exact completeLineFromPending_kept (findLineEnding_found hfound)
  · exact lineKept_nothing _ _
  · refine ⟨?_, ?_, ?_, fun hfailed => by cases hfailed⟩
    · simp [handedLine, lineText, rawLineEnding]
    · rw [PendingInputBuffer.take_fst]
      exact validUtf8_iff.1 (by simpa using hvalid)
    · rw [PendingInputBuffer.take_fst, PendingInputBuffer.length_view]
      exact h
  · exact lineKept_nothing _ _

/-! ## Calls -/

/-- The bytes a call hands out. -/
def handedBytes : ReadCall → ReadResult → List UInt8
  | .bytes _ _, .bytes result => result.output
  | .text _, .text result => result.text
  | .line options, .line result => handedLine options.lineEndingMode result
  | _, _ => []

/-- What is promised of the result of a call: bytes within the output buffer, a text or a line
within its limit, and of a failed text or line nothing. -/
def ReadCall.Kept : ReadCall → ReadResult → Prop
  | .bytes outputSize _, .bytes result => result.bytesRead ≤ outputSize
  | .text options, .text result =>
    IsText result.text ∧ result.text.length ≤ options.maxReturnedBytes ∧
      (result.status.ok = false → result.text = [])
  | .line options, .line result =>
    IsText result.line ∧ result.line.length ≤ options.maxReturnedBytes ∧
      (result.status.ok = false → handedLine options.lineEndingMode result = [])
  | _, _ => False

theorem clampedMaxBytes_le (maxBytes : Nat) : clampedMaxBytes maxBytes ≤ maxBytes := by
  unfold clampedMaxBytes
  split_ifs <;> omega

theorem chunkBytes_cons (chunk : ReadChunk) (chunks : List ReadChunk) :
    chunkBytes (chunk :: chunks) = chunk.bytes ++ chunkBytes chunks := rfl

/-- What a reader has handed out, the bytes pending and those to come are those it started with. -/
def Conserved (total : List UInt8) (chunks : List ReadChunk) (handed : List UInt8)
    (buffer : PendingInputBuffer) : Prop :=
  handed ++ buffer.view ++ chunkBytes chunks = total

theorem Conserved.absorbed {L : Type} {total handed : List UInt8} {chunk : ReadChunk}
    {chunks : List ReadChunk} {current : ReadPass L} {environment : ReadEnvironment}
    (h : Conserved total (chunk :: chunks) handed current.buffer) :
    Conserved total chunks handed (current.absorbed environment chunk.bytes).buffer := by
  unfold Conserved at h ⊢
  rw [← h]
  simp [ReadPass.absorbed, chunkBytes_cons]

/-- A transfer without bytes leaves everything as it is. -/
theorem Conserved.skip {total handed : List UInt8} {chunk : ReadChunk} {chunks : List ReadChunk}
    (h : Conserved total (chunk :: chunks) handed buffer) (hempty : chunk.bytes = []) :
    Conserved total chunks handed buffer := by
  rwa [Conserved, chunkBytes_cons, hempty] at h

/-- Bytes copied to the caller and consumed are handed out. -/
theorem Conserved.copied {total handed : List UInt8} {chunks : List ReadChunk}
    (h : Conserved total chunks handed buffer) (copied : Nat) :
    Conserved total chunks (handed ++ buffer.view.take copied) (buffer.consume copied) := by
  unfold Conserved at h ⊢
  rw [PendingInputBuffer.view_consume, ← h]
  simp

/-- The loop of `readBytes` up to the transfer copies what is pending and fits. -/
theorem bytesAttempt_yields {outputSize : Nat} {options : ByteOptions}
    {environment : ReadEnvironment} {total : List UInt8} {chunks : List ReadChunk}
    {current : ReadPass ByteResult}
    (h : Conserved total chunks current.progress.output current.buffer)
    (hle : current.progress.bytesRead ≤ outputSize) :
    Yields
      (fun current : ReadPass ByteResult =>
        Conserved total chunks current.progress.output current.buffer ∧
          current.progress.bytesRead ≤ outputSize)
      (fun answer => Conserved total chunks answer.1.output answer.2 ∧
        answer.1.bytesRead ≤ outputSize)
      (bytesAttempt outputSize options environment current) := by
  unfold bytesAttempt
  by_cases hlt : current.progress.bytesRead < outputSize
  · rw [if_pos hlt]
    by_cases hempty : current.buffer.empty = true
    · simp only [hempty, Bool.not_true, Bool.false_eq_true, if_false, Bool.false_and]
      split_ifs
      · exact ⟨h, hle⟩
      · exact ⟨h, hle⟩
    · have hcopied := h.copied (min (outputSize - current.progress.bytesRead) current.buffer.size)
      have hle' : (current.progress.output ++ current.buffer.view.take
          (min (outputSize - current.progress.bytesRead) current.buffer.size)).length ≤
            outputSize := by
        rw [List.length_append, List.length_take]
        unfold ByteResult.bytesRead at hle ⊢
        omega
      simp only [hempty, Bool.not_false, if_true, Bool.true_and]
      split_ifs
      · exact ⟨hcopied, hle'⟩
      · exact ⟨hcopied, hle'⟩
      · exact ⟨hcopied, hle'⟩
  · rw [if_neg hlt]
    exact ⟨h, hle⟩

/-- `readBytes` writes no more than the output buffer takes, and loses nothing. -/
theorem readBytes_spec {outputSize : Nat} {options : ByteOptions} {environment : ReadEnvironment}
    {chunks rest : List ReadChunk} {answer : ByteResult × PendingInputBuffer}
    (h : readBytes outputSize options environment chunks buffer = some (answer, rest)) :
    (Conserved (buffer.view ++ chunkBytes chunks) rest answer.1.output answer.2 ∧
      answer.1.bytesRead ≤ outputSize) ∧ rest <:+ chunks := by
  unfold readBytes at h
  split_ifs at h
  · cases h
    exact ⟨⟨rfl, Nat.zero_le _⟩, List.suffix_refl _⟩
  · cases h
    exact ⟨⟨rfl, Nat.zero_le _⟩, List.suffix_refl _⟩
  · refine Yields.answered
      (I := fun cs (current : ReadPass ByteResult) =>
        Conserved (buffer.view ++ chunkBytes chunks) cs current.progress.output current.buffer ∧
          current.progress.bytesRead ≤ outputSize)
      (E := fun cs (answer : ByteResult × PendingInputBuffer) =>
        Conserved (buffer.view ++ chunkBytes chunks) cs answer.1.output answer.2 ∧
          answer.1.bytesRead ≤ outputSize)
      (fun cs current hc => bytesAttempt_yields hc.1 hc.2) ?_ ?_ h
    · rintro chunk cs current ⟨hc, hle⟩
      unfold bytesAbsorb
      split_ifs with hok hempty
      · exact ⟨hc.skip (chunk.failed_empty (by simpa using hok)), hle⟩
      · exact ⟨hc.skip (by simpa using hempty), hle⟩
      · exact ⟨hc.absorbed, hle⟩
    · exact ⟨rfl, Nat.zero_le _⟩

/-- `readText` returns a text within its limit or nothing, and loses nothing. -/
theorem readText_spec {options : TextOptions} {environment : ReadEnvironment}
    {chunks rest : List ReadChunk} {answer : TextResult × PendingInputBuffer}
    (h : readText options environment chunks buffer = some (answer, rest)) :
    (Conserved (buffer.view ++ chunkBytes chunks) rest answer.1.text answer.2 ∧
      ReadCall.Kept (.text options) (.text answer.1)) ∧ rest <:+ chunks := by
  have hnothing : ∀ (status : Status) (outcome : ReadOutcome),
      ReadCall.Kept (.text options) (.text { status, outcome }) := fun _ _ =>
    ⟨isText_nil, Nat.zero_le _, fun _ => rfl⟩
  unfold readText at h
  split_ifs at h
  · cases h
    exact ⟨⟨rfl, hnothing _ _⟩, List.suffix_refl _⟩
  · cases h
    exact ⟨⟨rfl, hnothing _ _⟩, List.suffix_refl _⟩
  · refine Yields.answered
      (I := fun cs (current : ReadPass Unit) =>
        Conserved (buffer.view ++ chunkBytes chunks) cs [] current.buffer)
      (J := fun cs (current : ReadPass Unit) =>
        Conserved (buffer.view ++ chunkBytes chunks) cs [] current.buffer)
      (E := fun cs (answer : TextResult × PendingInputBuffer) =>
        Conserved (buffer.view ++ chunkBytes chunks) cs answer.1.text answer.2 ∧
          ReadCall.Kept (.text options) (.text answer.1))
      ?_ ?_ ?_ h
    · intro cs current hc
      obtain ⟨-, hmax, htext⟩ :=
        utf8Prefix_spec current.buffer.view (clampedMaxBytes options.maxReturnedBytes)
      unfold textAttempt
      dsimp only
      split_ifs
      · exact ⟨hc, hnothing _ _⟩
      · refine ⟨hc.copied _, htext, ?_, fun hfailed => by cases hfailed⟩
        exact Nat.le_trans (List.length_take_le _ _)
          (Nat.le_trans hmax (clampedMaxBytes_le options.maxReturnedBytes))
      · exact ⟨hc, hnothing _ _⟩
      · exact ⟨hc, hnothing _ _⟩
      · exact hc
    · intro chunk cs current hc
      unfold textAbsorb
      split_ifs with hok hempty
      · exact ⟨hc.skip (chunk.failed_empty (by simpa using hok)), hnothing _ _⟩
      · exact ⟨hc.skip (by simpa using hempty), hnothing _ _⟩
      · exact ⟨hc.skip (by simpa using hempty), hnothing _ _⟩
      · exact hc.absorbed
    · rfl

/-- `readLine` returns a line within its limit or nothing, and loses nothing. -/
theorem readLine_spec {options : LineOptions} {environment : ReadEnvironment}
    {chunks rest : List ReadChunk} {answer : LineResult × PendingInputBuffer}
    (h : readLine options environment chunks buffer = some (answer, rest)) :
    (Conserved (buffer.view ++ chunkBytes chunks) rest
        (handedLine options.lineEndingMode answer.1) answer.2 ∧
      ReadCall.Kept (.line options) (.line answer.1)) ∧ rest <:+ chunks := by
  have hkept : ∀ (cs : List ReadChunk) (pending : PendingInputBuffer)
      (answer : LineResult × PendingInputBuffer),
      Conserved (buffer.view ++ chunkBytes chunks) cs [] pending →
      LineKept options.lineEndingMode (clampedMaxBytes options.maxReturnedBytes) pending.view
        answer →
      Conserved (buffer.view ++ chunkBytes chunks) cs
          (handedLine options.lineEndingMode answer.1) answer.2 ∧
        ReadCall.Kept (.line options) (.line answer.1) := by
    intro cs pending answer hc hline
    refine ⟨?_, hline.text,
      Nat.le_trans hline.length (clampedMaxBytes_le options.maxReturnedBytes), hline.failed⟩
    unfold Conserved at hc ⊢
    rw [hline.conserved, ← hc]
    rfl
  unfold readLine at h
  split_ifs at h
  · cases h
    exact ⟨hkept _ _ _ rfl (lineKept_nothing _ _), List.suffix_refl _⟩
  · cases h
    exact ⟨hkept _ _ _ rfl (lineKept_nothing _ _), List.suffix_refl _⟩
  · refine Yields.answered
      (I := fun cs (current : ReadPass Nat) =>
        Conserved (buffer.view ++ chunkBytes chunks) cs [] current.buffer)
      (J := fun cs (current : ReadPass Nat) =>
        Conserved (buffer.view ++ chunkBytes chunks) cs [] current.buffer ∧
          current.buffer.size ≤ clampedMaxBytes options.maxReturnedBytes)
      (E := fun cs (answer : LineResult × PendingInputBuffer) =>
        Conserved (buffer.view ++ chunkBytes chunks) cs
            (handedLine options.lineEndingMode answer.1) answer.2 ∧
          ReadCall.Kept (.line options) (.line answer.1))
      ?_ ?_ ?_ h
    · intro cs current hc
      unfold lineAttempt
      dsimp only
      split_ifs with hfound hover
      · exact hkept _ _ _ hc (completeLineFromPending_kept (findLineEnding_found hfound))
      · exact hkept _ _ _ hc (truncatedLine_kept _ _)
      · exact hkept _ _ _ hc (finishLine_kept _ (by omega))
      · exact hkept _ _ _ hc (finishLine_kept _ (by omega))
      · exact ⟨hc, by dsimp only; omega⟩
      · exact ⟨hc, by dsimp only; omega⟩
    · rintro chunk cs current ⟨hc, hsize⟩
      unfold lineAbsorb
      split_ifs with hok hempty
      · exact hkept _ _ _ (hc.skip (chunk.failed_empty (by simpa using hok)))
          (lineKept_nothing _ _)
      · exact hkept _ _ _ (hc.skip (by simpa using hempty)) (finishLine_kept _ hsize)
      · exact hc.absorbed
    · rfl

theorem perform_spec {call : ReadCall} {environment : ReadEnvironment}
    {chunks rest : List ReadChunk} {answer : ReadResult × PendingInputBuffer}
    (h : call.perform environment chunks buffer = some (answer, rest)) :
    (Conserved (buffer.view ++ chunkBytes chunks) rest (handedBytes call answer.1) answer.2 ∧
      call.Kept answer.1) ∧ rest <:+ chunks := by
  cases call with
  | bytes outputSize options =>
    obtain ⟨⟨read, rest'⟩, hread, heq⟩ := Option.map_eq_some_iff.1 h
    cases heq
    exact readBytes_spec hread
  | text options =>
    obtain ⟨⟨read, rest'⟩, hread, heq⟩ := Option.map_eq_some_iff.1 h
    cases heq
    exact readText_spec hread
  | line options =>
    obtain ⟨⟨read, rest'⟩, hread, heq⟩ := Option.map_eq_some_iff.1 h
    cases heq
    exact readLine_spec hread

/-! ## Runs -/

/-- A text or line read that failed. -/
def ReadResult.failed : ReadResult → Bool
  | .bytes _ => false
  | .text result => !result.status.ok
  | .line result => !result.status.ok

/-- The bytes handed out, call by call. -/
def StreamRun.handed (run : StreamRun) : List UInt8 :=
  run.results.flatMap fun entry => handedBytes entry.1 entry.2

/-- What is promised after every call of a run over `chunks`. -/
structure StreamRun.Kept (run : StreamRun) (chunks : List ReadChunk) : Prop where
  received : run.received ++ chunkBytes run.chunks = chunkBytes chunks
  conserved : run.handed ++ run.buffer.view = run.received
  results : ∀ entry ∈ run.results, entry.1.Kept entry.2

/-- The call hands out `result`; a failed text or line read leaves what was pending in place. -/
def StreamRun.Answers (run : StreamRun) (call : ReadCall) (next : StreamRun) : Prop :=
  ∃ result, next.results = run.results ++ [(call, result)] ∧
    (result.failed = true → run.buffer.view <+: next.buffer.view)

/-- A failed text or line read hands out nothing. -/
theorem ReadCall.Kept.handed_failed {call : ReadCall} {result : ReadResult} (h : call.Kept result)
    (hfailed : result.failed = true) : handedBytes call result = [] := by
  cases call with
  | bytes outputSize options =>
    cases result with
    | bytes read => cases hfailed
    | text read => cases h
    | line read => cases h
  | text options =>
    cases result with
    | text read => exact h.2.2 (by simpa [ReadResult.failed] using hfailed)
    | bytes read => cases h
    | line read => cases h
  | line options =>
    cases result with
    | line read => exact h.2.2 (by simpa [ReadResult.failed] using hfailed)
    | bytes read => cases h
    | text read => cases h

theorem readStep_kept {run next : StreamRun} {chunks : List ReadChunk}
    {call : ReadCall × ReadEnvironment} (h : run.Kept chunks) (hs : readStep run call = some next) :
    next.Kept chunks ∧ run.Answers call.1 next := by
  obtain ⟨⟨⟨result, buffer⟩, rest⟩, hperform, rfl⟩ := Option.map_eq_some_iff.1 hs
  obtain ⟨⟨hconserved, hkept⟩, used, hused⟩ := perform_spec hperform
  have htake : run.chunks.take (run.chunks.length - rest.length) = used := by
    rw [← hused]
    simp
  have hbytes : chunkBytes run.chunks = chunkBytes used ++ chunkBytes rest := by
    rw [← hused, chunkBytes, List.flatMap_append]
    rfl
  -- what the call hands out and leaves pending is what it found and received
  have hcall : handedBytes call.1 result ++ buffer.view = run.buffer.view ++ chunkBytes used := by
    unfold Conserved at hconserved
    rw [hbytes, ← List.append_assoc] at hconserved
    exact List.append_cancel_right hconserved
  refine ⟨⟨?_, ?_, ?_⟩, result, rfl, fun hfailed => ?_⟩
  · dsimp only
    rw [htake, List.append_assoc, ← hbytes]
    exact h.received
  · dsimp only [StreamRun.handed]
    rw [htake, List.flatMap_append, List.append_assoc, ← h.conserved, List.append_assoc,
      ← hcall]
    simp [StreamRun.handed]
  · intro entry hentry
    rcases List.mem_append.1 hentry with hold | hnew
    · exact h.results entry hold
    · rw [List.mem_singleton.1 hnew]
      exact hkept
  · rw [hkept.handed_failed hfailed] at hcall
    exact ⟨chunkBytes used, hcall.symm⟩

/-- **Nothing is lost, duplicated or reordered** between the readers of one input, whatever its
chunks and the calls are. -/
theorem streamKept {chunks : List ReadChunk} {run : StreamRun}
    {calls : List (Transition StreamRun (ReadCall × ReadEnvironment))}
    (h : Trace readStep { chunks } calls run) :
    run.Kept chunks ∧
      ∀ x ∈ calls, x.post.Kept chunks ∧ x.pre.Answers x.action.1 x.post := by
  have hstart : StreamRun.Kept { chunks } chunks := ⟨rfl, rfl, fun _ hentry => by cases hentry⟩
  obtain ⟨hrun, hall⟩ := h.invariant_of_step (I := fun run => run.Kept chunks) hstart
    fun _ _ _ hkept hs => (readStep_kept hkept hs).1
  exact ⟨hrun, fun x hx => readStep_kept (hall x hx).1 (h.mem_step hx)⟩

/-- `aé`, CR, LF and `b`, cut inside the scalar and between CR and LF. -/
def cutChunks : List ReadChunk :=
  [{ bytes := [0x61, 0xC3] }, { bytes := [0xA9, 0x0D] }, { bytes := [0x0A, 0x62] },
    { outcome := .endOfStream }]

/-- A line with its ending kept, and the text behind it. -/
def cutCalls : List (ReadCall × ReadEnvironment) :=
  [(.line { maxReturnedBytes := 5, lineEndingMode := .keep }, {}),
    (.text { maxReturnedBytes := 8 }, {})]

theorem streamKept_cutChunks :
    (Lib.run readStep { chunks := cutChunks } cutCalls).map
      (fun r => r.2.results.map fun entry => handedBytes entry.1 entry.2) =
        some [[0x61, 0xC3, 0xA9, 0x0D, 0x0A], [0x62]] ∧
    ∀ r, Lib.run readStep { chunks := cutChunks } cutCalls = some r → r.2.Kept cutChunks :=
  ⟨by decide +kernel, fun _ hr => (streamKept (Trace.of_run hr)).1⟩

end Terminal

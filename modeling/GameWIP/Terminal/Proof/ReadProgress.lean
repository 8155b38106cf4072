import GameWIP.Terminal.Proof.StreamInput

/-!
# A completed read consumes input

A text read that completes consumes a byte. A line read does so unless the bytes pending, as many
as its limit or more, break off inside their first scalar: it then returns an empty line at once
and leaves them pending, although more bytes could show that the scalar is over the limit. So
`readCall_progress` has the exact condition, and over a run whose calls all meet it the completed
reads are no more than the bytes they were given.
-/

namespace Terminal

open Lib (Trace Transition Yields)
open Unicode.Utf8 (decodeScalar)

/-! ## Scalars cut by the end of the bytes -/

/-- The bytes break off inside their first scalar. -/
def Unfinished (view : List UInt8) : Prop := (decodeScalar view).outcome = .incomplete

instance (view : List UInt8) : Decidable (Unfinished view) := inferInstanceAs (Decidable (_ = _))

theorem Unfinished.of_append {view bytes : List UInt8} (h : Unfinished (view ++ bytes)) :
    Unfinished view :=
  Unicode.Utf8.decodeScalar_incomplete_iff.2
    (Lib.PrefixCode.incomplete_of_append (Unicode.Utf8.decodeScalar_incomplete_iff.1 h))

/-- They hold no line ending. -/
theorem Unfinished.not_mem {view : List UInt8} (h : Unfinished view) {byte : UInt8}
    (hbyte : byte = 0x0A ∨ byte = 0x0D) : byte ∉ view := by
  intro hmem
  have hhigh := Unicode.Utf8.high_of_incomplete h hmem
  rcases hbyte with rfl | rfl
  · exact absurd hhigh (by decide)
  · exact absurd hhigh (by decide)

theorem le_utf8PrefixFrom (bytes : List UInt8) (maxBytes offset : Nat) :
    offset ≤ (utf8PrefixFrom bytes maxBytes offset).bytes := by
  fun_induction utf8PrefixFrom bytes maxBytes offset with
  | case1 => exact Nat.le_refl _
  | case2 => exact Nat.le_refl _
  | case3 => exact Nat.le_refl _
  | case4 offset hlt decoded ho hpos hfit ih => exact Nat.le_trans (Nat.le_add_right _ _) ih
  | case5 => exact Nat.le_refl _

/-- What the first scalar makes of the prefix. -/
theorem utf8Prefix_cases {bytes : List UInt8} (maxBytes : Nat) (h : bytes ≠ []) :
    0 < (utf8Prefix bytes maxBytes).bytes ∧ ¬ Unfinished bytes ∨
      utf8Prefix bytes maxBytes = { incomplete := true } ∧ Unfinished bytes ∨
      utf8Prefix bytes maxBytes = { valid := false } ∧ ¬ Unfinished bytes ∨
      utf8Prefix bytes maxBytes = { stoppedByMax := true } ∧ ¬ Unfinished bytes := by
  have hlt : 0 < bytes.length := List.length_pos_iff.2 h
  unfold utf8Prefix Unfinished
  fun_cases utf8PrefixFrom bytes maxBytes 0 with
  | case1 _ decoded ho => exact .inr (.inl ⟨rfl, ho⟩)
  | case2 _ decoded ho =>
    change (decodeScalar bytes).outcome = _ at ho
    exact .inr (.inr (.inl ⟨rfl, by simp [ho]⟩))
  | case3 _ decoded ho hpos hover =>
    change (decodeScalar bytes).outcome = _ at ho
    exact .inr (.inr (.inr ⟨rfl, by simp [ho]⟩))
  | case4 _ decoded ho hpos hfit =>
    change (decodeScalar bytes).outcome = _ at ho
    refine .inl ⟨Nat.lt_of_lt_of_le ?_ (le_utf8PrefixFrom _ _ _), by simp [ho]⟩
    rw [Nat.zero_add]
    exact hpos
  | case5 hnot => exact absurd hlt hnot

/-! ## Attempts -/

/-- The bytes pending and to come. -/
def inputLeft (chunks : List ReadChunk) (buffer : PendingInputBuffer) : Nat :=
  buffer.view.length + (chunkBytes chunks).length

theorem inputLeft_cons (chunk : ReadChunk) (chunks : List ReadChunk)
    (buffer : PendingInputBuffer) :
    inputLeft (chunk :: chunks) buffer = inputLeft chunks buffer + chunk.bytes.length := by
  simp only [inputLeft, chunkBytes_cons, List.length_append]
  omega

theorem inputLeft_absorbed {L : Type} (environment : ReadEnvironment) (chunk : ReadChunk)
    (chunks : List ReadChunk) (current : ReadPass L) :
    inputLeft chunks (current.absorbed environment chunk.bytes).buffer =
      inputLeft (chunk :: chunks) current.buffer := by
  rw [inputLeft_cons]
  simp only [inputLeft, ReadPass.absorbed, PendingInputBuffer.view_append, List.length_append]
  omega

def LineResult.completed (result : LineResult) : Bool :=
  result.status.ok && result.outcome == .completed

def TextResult.completed (result : TextResult) : Bool :=
  result.status.ok && result.outcome == .completed

variable {buffer : PendingInputBuffer}

theorem empty_eq_false : buffer.empty = false ↔ buffer.view ≠ [] := by
  rw [← List.length_pos_iff, PendingInputBuffer.length_view, PendingInputBuffer.empty]
  simp only [beq_eq_false_iff_ne, ne_eq]
  omega

theorem consume_lt {count : Nat} (hcount : 0 < count) (hview : buffer.view ≠ []) :
    (buffer.consume count).view.length < buffer.view.length := by
  have := List.length_pos_iff.2 hview
  rw [PendingInputBuffer.view_consume, List.length_drop]
  omega

/-- A truncated line consumes something, unless its first scalar is cut. -/
theorem truncatedLine_progress {maxBytes : Nat} (hview : buffer.view ≠ [])
    (h : ¬ Unfinished buffer.view) (hok : (truncatedLine buffer maxBytes).1.status.ok = true) :
    (truncatedLine buffer maxBytes).2.view.length < buffer.view.length := by
  unfold truncatedLine copyTruncatedUtf8Prefix at hok ⊢
  rcases utf8Prefix_cases maxBytes hview with ⟨hpos, -⟩ | ⟨-, hcut⟩ | ⟨heq, -⟩ | ⟨heq, -⟩
  · dsimp only at hok ⊢
    split_ifs at hok ⊢ with hinvalid hlimit
    · cases hok
    · cases hok
    · exact consume_lt hpos hview
  · exact absurd hcut h
  · rw [heq] at hok
    cases hok
  · rw [heq] at hok
    cases hok

/-- It consumes nothing when its first scalar is cut. -/
theorem truncatedLine_unfinished {maxBytes : Nat} (hview : buffer.view ≠ [])
    (h : Unfinished buffer.view) :
    (truncatedLine buffer maxBytes).1.completed = true ∧
      (truncatedLine buffer maxBytes).2.view = buffer.view := by
  unfold truncatedLine copyTruncatedUtf8Prefix
  rcases utf8Prefix_cases maxBytes hview with ⟨-, hnot⟩ | ⟨heq, -⟩ | ⟨-, hnot⟩ | ⟨-, hnot⟩
  · exact absurd h hnot
  · rw [heq]
    exact ⟨rfl, PendingInputBuffer.view_consume 0⟩
  · exact absurd h hnot
  · exact absurd h hnot

/-- A line ending found is among the bytes. -/
theorem LineEndingMatch.Found.mem {ending : LineEndingMatch} {bytes : List UInt8}
    (h : ending.Found bytes) : ∃ byte ∈ bytes, byte = 0x0A ∨ byte = 0x0D := by
  have hmem : ∀ byte ∈ rawLineEnding ending.ending, byte ∈ bytes := by
    intro byte hbyte
    rw [← h.raw] at hbyte
    exact List.mem_of_mem_drop (List.mem_of_mem_take hbyte)
  cases hending : ending.ending with
  | none => exact absurd hending h.ending
  | lf => exact ⟨0x0A, hmem _ (by simp [hending, rawLineEnding]), .inl rfl⟩
  | crLf => exact ⟨0x0D, hmem _ (by simp [hending, rawLineEnding]), .inr rfl⟩
  | cr => exact ⟨0x0D, hmem _ (by simp [hending, rawLineEnding]), .inr rfl⟩

theorem LineEndingMatch.Found.finished {ending : LineEndingMatch} {bytes : List UInt8}
    (h : ending.Found bytes) : ¬ Unfinished bytes := by
  obtain ⟨byte, hmem, hbyte⟩ := h.mem
  exact fun hcut => hcut.not_mem hbyte hmem

theorem LineEndingMatch.Found.ne_nil {ending : LineEndingMatch} {bytes : List UInt8}
    (h : ending.Found bytes) : bytes ≠ [] := by
  obtain ⟨byte, hmem, -⟩ := h.mem
  exact List.ne_nil_of_mem hmem

/-- A complete line consumes its ending. -/
theorem completeLineFromPending_progress {ending : LineEndingMatch}
    {lineEndingMode : LineEndingMode} {maxBytes : Nat} (h : ending.Found buffer.view)
    (hok : (completeLineFromPending buffer ending lineEndingMode maxBytes).1.status.ok = true) :
    (completeLineFromPending buffer ending lineEndingMode maxBytes).2.view.length <
      buffer.view.length := by
  have hlength : 0 < ending.offset + ending.length := by
    rw [h.length]
    cases hending : ending.ending with
    | none => exact absurd hending h.ending
    | lf => simp [rawLineEnding]
    | crLf => simp [rawLineEnding]
    | cr => simp [rawLineEnding]
  unfold completeLineFromPending at hok ⊢
  split_ifs at hok ⊢ with hover
  · exact truncatedLine_progress h.ne_nil h.finished hok
  · dsimp only at hok ⊢
    cases hreturned : returnedLineEnding lineEndingMode
        ((buffer.view.drop ending.offset).take ending.length) with
    | none =>
      rw [hreturned] at hok
      cases hok
    | some returned =>
      rw [hreturned] at hok
      dsimp only at hok ⊢
      split_ifs at hok ⊢ <;> first | exact consume_lt hlength h.ne_nil | cases hok

/-- A transfer that completes brings bytes. -/
def ReadChunk.Delivers (chunk : ReadChunk) : Prop :=
  chunk.status.ok = true → chunk.outcome = .completed → chunk.bytes ≠ []

/-- So does every transfer from a file or pipe. -/
theorem readFileInputChunk_delivers (answer : FileAnswer) :
    (readFileInputChunk answer).Delivers := by
  intro hok houtcome
  cases answer with
  | failed status hfailed => exact absurd hok (by simpa [readFileInputChunk] using hfailed)
  | read bytes =>
    cases bytes with
    | nil => cases houtcome
    | cons byte bytes => simp [readFileInputChunk]
  | stopped => cases houtcome
  | wouldBlock => cases houtcome
  | timedOut => cases houtcome
  | ended => cases houtcome

/-- The transfers in front of the one numbered `k` all bring bytes, none of them too late. -/
def Delivered (expired : Nat → Bool) (chunks : List ReadChunk) (k : Nat) : Prop :=
  ∀ j < k, ∃ chunk, chunks[j]? = some chunk ∧ chunk.status.ok = true ∧ chunk.bytes ≠ [] ∧
    expired j = false

/-- The bytes pending break off inside their first scalar in front of some transfer, when they are
no fewer than the limit. -/
def CutAtLimit (expired : Nat → Bool) (maxBytes : Nat) (chunks : List ReadChunk)
    (view : List UInt8) : Prop :=
  ∃ k, Delivered expired chunks k ∧ Unfinished (view ++ chunkBytes (chunks.take k)) ∧
    maxBytes ≤ (view ++ chunkBytes (chunks.take k)).length

section Cut

variable {expired : Nat → Bool} {maxBytes : Nat} {chunk : ReadChunk} {chunks : List ReadChunk}
  {view : List UInt8}

theorem CutAtLimit.here (h : Unfinished view) (hle : maxBytes ≤ view.length) :
    CutAtLimit expired maxBytes chunks view := by
  refine ⟨0, fun j hj => absurd hj (Nat.not_lt_zero j), ?_, ?_⟩
  · simpa [chunkBytes] using h
  · simpa [chunkBytes] using hle

/-- It is so now or behind the next transfer. -/
theorem cutAtLimit_cons_iff :
    CutAtLimit expired maxBytes (chunk :: chunks) view ↔
      Unfinished view ∧ maxBytes ≤ view.length ∨
        chunk.status.ok = true ∧ chunk.bytes ≠ [] ∧ expired 0 = false ∧
          CutAtLimit (fun j => expired (j + 1)) maxBytes chunks (view ++ chunk.bytes) := by
  constructor
  · rintro ⟨k, hdelivered, hcut, hle⟩
    cases k with
    | zero => exact .inl ⟨by simpa [chunkBytes] using hcut, by simpa [chunkBytes] using hle⟩
    | succ k =>
      obtain ⟨first, hfirst, hok, hbytes, hin⟩ := hdelivered 0 (Nat.succ_pos k)
      cases hfirst
      rw [List.take_succ_cons, chunkBytes_cons, ← List.append_assoc] at hcut hle
      exact .inr ⟨hok, hbytes, hin, k, fun j hj => hdelivered (j + 1) (Nat.succ_lt_succ hj), hcut,
        hle⟩
  · rintro (⟨hcut, hle⟩ | ⟨hok, hbytes, hin, k, hdelivered, hcut, hle⟩)
    · exact .here hcut hle
    · refine ⟨k + 1, fun j hj => ?_, ?_, ?_⟩
      · cases j with
        | zero => exact ⟨chunk, rfl, hok, hbytes, hin⟩
        | succ j => exact hdelivered j (Nat.lt_of_succ_lt_succ hj)
      · rwa [List.take_succ_cons, chunkBytes_cons, ← List.append_assoc]
      · rwa [List.take_succ_cons, chunkBytes_cons, ← List.append_assoc]

theorem cutAtLimit_nil_iff :
    CutAtLimit expired maxBytes [] view ↔ Unfinished view ∧ maxBytes ≤ view.length := by
  constructor
  · rintro ⟨k, -, hcut, hle⟩
    rw [List.take_nil] at hcut hle
    exact ⟨by simpa [chunkBytes] using hcut, by simpa [chunkBytes] using hle⟩
  · rintro ⟨hcut, hle⟩
    exact .here hcut hle

/-- What is cut behind some transfers was cut from the start. -/
theorem CutAtLimit.unfinished (h : CutAtLimit expired maxBytes chunks view) : Unfinished view := by
  obtain ⟨k, -, hcut, -⟩ := h
  exact hcut.of_append

end Cut

/-! ## Lines -/

theorem LineResult.completed_iff {result : LineResult} :
    result.completed = true ↔ result.status.ok = true ∧ result.outcome = .completed := by
  simp [LineResult.completed]

/-- A read that ends for another reason completes only with a line ending it consumes. -/
theorem finishLine_progress {scanOffset : Nat} {outcome : ReadOutcome}
    {lineEndingMode : LineEndingMode} {maxBytes : Nat} (houtcome : outcome ≠ .completed)
    (h : (finishLine buffer scanOffset outcome lineEndingMode maxBytes).1.completed = true) :
    (finishLine buffer scanOffset outcome lineEndingMode maxBytes).2.view.length <
      buffer.view.length := by
  unfold finishLine at h ⊢
  dsimp only at h ⊢
  by_cases hfound : (findLineEnding buffer.view scanOffset true).found = true
  · rw [if_pos hfound] at h ⊢
    exact completeLineFromPending_progress (findLineEnding_found hfound)
      (LineResult.completed_iff.1 h).1
  · rw [if_neg hfound] at h
    split_ifs at h
    · exact absurd (LineResult.completed_iff.1 h).2 houtcome
    · exact absurd (LineResult.completed_iff.1 h).2 houtcome
    · exact absurd (LineResult.completed_iff.1 h).2 houtcome

/-- The deadline check of a call as a function of the transfers met. -/
def expiredFrom (environment : ReadEnvironment) (timeout : Option Int) (pass : Nat) : Nat → Bool :=
  fun j => expired environment (backendTimeout timeout) (pass + j)

theorem expiredFrom_succ (environment : ReadEnvironment) (timeout : Option Int) (pass : Nat) :
    (fun j => expiredFrom environment timeout pass (j + 1)) =
      expiredFrom environment timeout (pass + 1) := by
  funext j
  rw [expiredFrom, expiredFrom, Nat.add_assoc, Nat.add_comm 1]

section Line

variable {options : LineOptions} {environment : ReadEnvironment} {total : Nat}
  {chunks : List ReadChunk} {current : ReadPass Nat}

/-- The line read has lost nothing yet and meets no cut scalar at its limit. -/
structure LineFresh (options : LineOptions) (environment : ReadEnvironment) (total : Nat)
    (chunks : List ReadChunk) (current : ReadPass Nat) : Prop where
  delivers : ∀ chunk ∈ chunks, chunk.Delivers
  uncut : ¬ CutAtLimit (expiredFrom environment options.timeout current.pass)
    (clampedMaxBytes options.maxReturnedBytes) chunks current.buffer.view
  left : inputLeft chunks current.buffer = total

/-- What a completed line read has done. -/
def LineProgress (total : Nat) (chunks : List ReadChunk) (answer : LineResult × PendingInputBuffer) :
    Prop :=
  answer.1.completed = true → inputLeft chunks answer.2 < total

theorem LineFresh.progress (h : LineFresh options environment total chunks current)
    {answer : LineResult × PendingInputBuffer}
    (hshorter : answer.1.completed = true →
      answer.2.view.length < current.buffer.view.length) : LineProgress total chunks answer := by
  intro hcompleted
  have := hshorter hcompleted
  rw [← h.left]
  unfold inputLeft
  omega

theorem lineAttempt_progress (hmax : 0 < clampedMaxBytes options.maxReturnedBytes)
    (h : LineFresh options environment total chunks current) :
    Yields
      (fun next => LineFresh options environment total chunks next ∧
        expiredFrom environment options.timeout next.pass 0 = false)
      (LineProgress total chunks) (lineAttempt options environment current) := by
  unfold lineAttempt
  dsimp only
  by_cases hfound : (findLineEnding current.buffer.view current.progress false).found = true
  · rw [if_pos hfound]
    exact h.progress fun hcompleted =>
      completeLineFromPending_progress (findLineEnding_found hfound)
        (LineResult.completed_iff.1 hcompleted).1
  rw [if_neg hfound]
  by_cases hover : current.buffer.size ≥ clampedMaxBytes options.maxReturnedBytes
  · rw [if_pos hover]
    rw [← PendingInputBuffer.length_view] at hover
    have hview : current.buffer.view ≠ [] := List.length_pos_iff.1 (Nat.lt_of_lt_of_le hmax hover)
    exact h.progress fun hcompleted =>
      truncatedLine_progress hview (fun hcut => h.uncut (.here hcut hover))
        (LineResult.completed_iff.1 hcompleted).1
  rw [if_neg hover]
  by_cases hexpired : expired environment (backendTimeout options.timeout) current.pass = true
  · rw [if_pos hexpired]
    exact h.progress fun hcompleted => finishLine_progress (by decide) hcompleted
  · rw [if_neg hexpired]
    exact ⟨⟨h.delivers, h.uncut, h.left⟩, by simpa [expiredFrom] using hexpired⟩

theorem lineAbsorb_progress {chunk : ReadChunk}
    (h : LineFresh options environment total (chunk :: chunks) current)
    (hin : expiredFrom environment options.timeout current.pass 0 = false) :
    Yields (LineFresh options environment total chunks) (LineProgress total chunks)
      (lineAbsorb options environment chunk current) := by
  unfold lineAbsorb
  have hdelivers := h.delivers chunk List.mem_cons_self
  have hleft := inputLeft_cons chunk chunks current.buffer
  by_cases hok : chunk.status.ok = true
  · rw [if_neg (by simp [hok])]
    by_cases hbytes : chunk.bytes = []
    · rw [if_pos (by simp [hbytes])]
      intro hcompleted
      have hshorter := finishLine_progress (fun houtcome => hdelivers hok houtcome hbytes) hcompleted
      rw [← h.left, hleft]
      unfold inputLeft
      omega
    · rw [if_neg (by simp [hbytes])]
      refine ⟨fun c hc => h.delivers c (List.mem_cons_of_mem _ hc), fun hcut => h.uncut ?_, ?_⟩
      · rw [cutAtLimit_cons_iff, expiredFrom_succ]
        refine .inr ⟨hok, hbytes, hin, ?_⟩
        simpa [ReadPass.absorbed] using hcut
      · rw [inputLeft_absorbed, h.left]
  · rw [if_pos (by simpa using hok)]
    intro hcompleted
    exact absurd (LineResult.completed_iff.1 hcompleted).1 hok

theorem lineAttempt_cut (h : Unfinished current.buffer.view)
    (hover : clampedMaxBytes options.maxReturnedBytes ≤ current.buffer.view.length) :
    lineAttempt options environment current =
      .error (truncatedLine current.buffer (clampedMaxBytes options.maxReturnedBytes)) := by
  have hnone : ¬ (findLineEnding current.buffer.view current.progress false).found = true :=
    fun hfound => (findLineEnding_found hfound).finished h
  unfold lineAttempt
  dsimp only
  rw [if_neg hnone, if_pos (by simpa using hover)]

theorem lineAttempt_waits (h : Unfinished current.buffer.view)
    (hover : ¬ clampedMaxBytes options.maxReturnedBytes ≤ current.buffer.view.length)
    (hin : expiredFrom environment options.timeout current.pass 0 = false) :
    ∃ scanOffset, lineAttempt options environment current =
      .ok { current with progress := scanOffset } := by
  have hnone : ¬ (findLineEnding current.buffer.view current.progress false).found = true :=
    fun hfound => (findLineEnding_found hfound).finished h
  unfold lineAttempt
  dsimp only
  rw [if_neg hnone, if_neg (by simpa using hover), if_neg (by simpa [expiredFrom] using hin)]
  exact ⟨_, rfl⟩

/-- A line read in front of a cut scalar at its limit completes without consuming anything. -/
theorem answered_line_cut (hmax : 0 < clampedMaxBytes options.maxReturnedBytes)
    (h : CutAtLimit (expiredFrom environment options.timeout current.pass)
      (clampedMaxBytes options.maxReturnedBytes) chunks current.buffer.view) :
    ∃ answer rest, Lib.answered (lineAttempt options environment) (lineAbsorb options environment)
        chunks current = some (answer, rest) ∧ answer.1.completed = true ∧
      inputLeft rest answer.2 = inputLeft chunks current.buffer := by
  induction chunks generalizing current with
  | nil =>
    obtain ⟨hcut, hover⟩ := cutAtLimit_nil_iff.1 h
    have hview : current.buffer.view ≠ [] := List.length_pos_iff.1 (Nat.lt_of_lt_of_le hmax hover)
    obtain ⟨hcompleted, hsame⟩ := truncatedLine_unfinished hview hcut
    refine ⟨_, [], ?_, hcompleted, ?_⟩
    · rw [Lib.answered, lineAttempt_cut hcut hover]
    · rw [inputLeft, hsame, inputLeft]
  | cons chunk chunks ih =>
    by_cases hover : clampedMaxBytes options.maxReturnedBytes ≤ current.buffer.view.length
    · have hcut := h.unfinished
      have hview : current.buffer.view ≠ [] := List.length_pos_iff.1 (Nat.lt_of_lt_of_le hmax hover)
      obtain ⟨hcompleted, hsame⟩ := truncatedLine_unfinished hview hcut
      refine ⟨_, chunk :: chunks, ?_, hcompleted, ?_⟩
      · rw [Lib.answered, lineAttempt_cut hcut hover]
      · rw [inputLeft, hsame, inputLeft]
    · rcases cutAtLimit_cons_iff.1 h with ⟨-, hle⟩ | ⟨hok, hbytes, hin, hrest⟩
      · exact absurd hle hover
      · obtain ⟨scanOffset, hattempt⟩ := lineAttempt_waits h.unfinished hover hin
        have habsorb : lineAbsorb options environment chunk { current with progress := scanOffset } =
            .ok (ReadPass.absorbed environment { current with progress := scanOffset }
              chunk.bytes) := by
          unfold lineAbsorb
          rw [if_neg (by simp [hok]), if_neg (by simp [hbytes])]
        rw [expiredFrom_succ] at hrest
        have hnext : CutAtLimit (expiredFrom environment options.timeout (ReadPass.absorbed
              environment { current with progress := scanOffset } chunk.bytes).pass)
            (clampedMaxBytes options.maxReturnedBytes) chunks (ReadPass.absorbed environment
              { current with progress := scanOffset } chunk.bytes).buffer.view := by
          simpa [ReadPass.absorbed] using hrest
        obtain ⟨answer, rest, hanswered, hcompleted, hleft⟩ := ih hnext
        refine ⟨answer, rest, ?_, hcompleted, ?_⟩
        · rw [Lib.answered, hattempt]
          dsimp only
          rw [habsorb]
          exact hanswered
        · rw [hleft, inputLeft_absorbed]

end Line

theorem clampedMaxBytes_pos {maxBytes : Nat} (h : 0 < maxBytes) : 0 < clampedMaxBytes maxBytes := by
  unfold clampedMaxBytes sizeMax
  split_ifs <;> omega

theorem readLine_progress {options : LineOptions} {environment : ReadEnvironment}
    {chunks rest : List ReadChunk} {answer : LineResult × PendingInputBuffer}
    (hdelivers : ∀ chunk ∈ chunks, chunk.Delivers)
    (huncut : 0 < options.maxReturnedBytes → environment.endpointIdentityStatus.ok = true →
      ¬ CutAtLimit (expiredFrom environment options.timeout 0)
        (clampedMaxBytes options.maxReturnedBytes) chunks buffer.view)
    (h : readLine options environment chunks buffer = some (answer, rest))
    (hcompleted : answer.1.completed = true) :
    inputLeft rest answer.2 < inputLeft chunks buffer := by
  unfold readLine at h
  split_ifs at h with hzero hendpoint
  · cases h
    cases hcompleted
  · cases h
    rw [(LineResult.completed_iff.1 hcompleted).1] at hendpoint
    cases hendpoint
  · have hmax : 0 < clampedMaxBytes options.maxReturnedBytes := clampedMaxBytes_pos (by omega)
    have hstart : LineFresh options environment (inputLeft chunks buffer) chunks
        { buffer, progress := 0 } :=
      ⟨hdelivers, huncut (by omega) (by simpa using hendpoint), rfl⟩
    exact (Yields.answered (I := LineFresh options environment (inputLeft chunks buffer))
      (fun _ _ hfresh => lineAttempt_progress hmax hfresh)
      (fun _ _ _ hfresh => lineAbsorb_progress hfresh.1 hfresh.2) hstart h).1 hcompleted

/-! ## Text -/

theorem TextResult.completed_iff {result : TextResult} :
    result.completed = true ↔ result.status.ok = true ∧ result.outcome = .completed := by
  simp [TextResult.completed]

/-- A text read waits for the rest of a cut scalar, so it completes only with a scalar. -/
theorem readText_progress {options : TextOptions} {environment : ReadEnvironment}
    {chunks rest : List ReadChunk} {answer : TextResult × PendingInputBuffer}
    (hdelivers : ∀ chunk ∈ chunks, chunk.Delivers)
    (h : readText options environment chunks buffer = some (answer, rest))
    (hcompleted : answer.1.completed = true) :
    inputLeft rest answer.2 < inputLeft chunks buffer := by
  unfold readText at h
  split_ifs at h with hzero hendpoint
  · cases h
    cases hcompleted
  · cases h
    rw [(TextResult.completed_iff.1 hcompleted).1] at hendpoint
    cases hendpoint
  · refine (Yields.answered
      (I := fun cs (current : ReadPass Unit) => (∀ chunk ∈ cs, chunk.Delivers) ∧
        inputLeft cs current.buffer = inputLeft chunks buffer)
      (J := fun cs (current : ReadPass Unit) => (∀ chunk ∈ cs, chunk.Delivers) ∧
        inputLeft cs current.buffer = inputLeft chunks buffer)
      (E := fun cs (answer : TextResult × PendingInputBuffer) => answer.1.completed = true →
        inputLeft cs answer.2 < inputLeft chunks buffer)
      ?_ ?_ ⟨hdelivers, rfl⟩ h).1 hcompleted
    · rintro cs current ⟨hcs, hleft⟩
      unfold textAttempt
      dsimp only
      split_ifs with hinvalid hbytes hlimit hexpired
      · intro hok
        cases hok
      · intro _
        simp only [Bool.and_eq_true, Bool.not_eq_true', decide_eq_true_eq] at hbytes
        have hshorter := consume_lt hbytes.2 (empty_eq_false.1 hbytes.1)
        rw [← hleft]
        exact Nat.add_lt_add_right hshorter _
      · intro hok
        cases hok
      · intro hok
        cases hok
      · exact ⟨hcs, hleft⟩
    · rintro chunk cs current ⟨hcs, hleft⟩
      unfold textAbsorb
      split_ifs with hfailed hempty hended
      · intro hok
        rw [(TextResult.completed_iff.1 hok).1] at hfailed
        cases hfailed
      · intro hok
        cases hok
      · intro hok
        have hbytes := hcs chunk List.mem_cons_self (by simpa using hfailed)
          (TextResult.completed_iff.1 hok).2
        exact absurd (by simpa using hempty) hbytes
      · exact ⟨fun c hc => hcs c (List.mem_cons_of_mem _ hc), by rw [inputLeft_absorbed, hleft]⟩

/-! ## Calls -/

def ReadResult.completed : ReadResult → Bool
  | .bytes result => result.status.ok && result.outcome == .completed
  | .text result => result.completed
  | .line result => result.completed

/-- The call is a text or a line read. -/
def ReadCall.isText : ReadCall → Bool
  | .bytes _ _ => false
  | .text _ => true
  | .line _ => true

/-- Whenever the call completes, it has consumed a byte of the input. -/
def Progresses (call : ReadCall) (environment : ReadEnvironment) (chunks : List ReadChunk)
    (buffer : PendingInputBuffer) : Prop :=
  ∀ answer rest, call.perform environment chunks buffer = some (answer, rest) →
    answer.1.completed = true → inputLeft rest answer.2 < inputLeft chunks buffer

/-- The call is a line read whose pending bytes, no fewer than its limit, break off inside their
first scalar in front of one of its transfers. -/
def CutCall (call : ReadCall) (environment : ReadEnvironment) (chunks : List ReadChunk)
    (buffer : PendingInputBuffer) : Prop :=
  match call with
  | .line options =>
    0 < options.maxReturnedBytes ∧ environment.endpointIdentityStatus.ok = true ∧
      CutAtLimit (expiredFrom environment options.timeout 0)
        (clampedMaxBytes options.maxReturnedBytes) chunks buffer.view
  | _ => False

theorem progresses_iff {call : ReadCall} {environment : ReadEnvironment} {chunks : List ReadChunk}
    (hcall : call.isText = true) (hdelivers : ∀ chunk ∈ chunks, chunk.Delivers) :
    Progresses call environment chunks buffer ↔ ¬ CutCall call environment chunks buffer := by
  cases call with
  | bytes outputSize options => cases hcall
  | text options =>
    refine iff_of_true (fun answer rest h hcompleted => ?_) id
    obtain ⟨⟨read, rest'⟩, hread, heq⟩ := Option.map_eq_some_iff.1 h
    cases heq
    exact readText_progress hdelivers hread hcompleted
  | line options =>
    constructor
    · rintro hprogress ⟨hmax, hendpoint, hcut⟩
      have hstart : CutAtLimit
          (expiredFrom environment options.timeout (ReadPass.mk 0 buffer 0 : ReadPass Nat).pass)
          (clampedMaxBytes options.maxReturnedBytes) chunks
          (ReadPass.mk 0 buffer 0 : ReadPass Nat).buffer.view := hcut
      obtain ⟨answer, rest, hanswered, hcompleted, hleft⟩ :=
        answered_line_cut (clampedMaxBytes_pos hmax) hstart
      have hread : readLine options environment chunks buffer = some (answer, rest) := by
        unfold readLine
        rw [if_neg (by omega), if_neg (by simp [hendpoint])]
        exact hanswered
      have := hprogress (.line answer.1, answer.2) rest
        (Option.map_eq_some_iff.2 ⟨_, hread, rfl⟩) hcompleted
      dsimp only at hleft this
      omega
    · intro huncut answer rest h hcompleted
      obtain ⟨⟨read, rest'⟩, hread, heq⟩ := Option.map_eq_some_iff.1 h
      cases heq
      exact readLine_progress hdelivers
        (fun hmax hendpoint hcut => huncut ⟨hmax, hendpoint, hcut⟩) hread hcompleted

/-- A call returns at the latest when it meets a transfer without bytes. -/
theorem perform_isSome {call : ReadCall} {environment : ReadEnvironment} {chunks : List ReadChunk}
    (h : ∃ chunk ∈ chunks, chunk.bytes = []) :
    (call.perform environment chunks buffer).isSome = true := by
  obtain ⟨chunk, hchunk, hempty⟩ := h
  cases call with
  | bytes outputSize options =>
    simp only [ReadCall.perform, Option.isSome_map]
    unfold readBytes
    split_ifs
    · rfl
    · rfl
    · refine Lib.answered_isSome ⟨chunk, hchunk, fun current => ?_⟩ _
      unfold bytesAbsorb
      split_ifs with hfailed hmore
      · exact ⟨_, rfl⟩
      · exact ⟨_, rfl⟩
      · exact absurd (by simp [hempty]) hmore
  | text options =>
    simp only [ReadCall.perform, Option.isSome_map]
    unfold readText
    split_ifs
    · rfl
    · rfl
    · refine Lib.answered_isSome ⟨chunk, hchunk, fun current => ?_⟩ _
      unfold textAbsorb
      split_ifs with hfailed hmore hended
      · exact ⟨_, rfl⟩
      · exact ⟨_, rfl⟩
      · exact ⟨_, rfl⟩
      · exact absurd (by simp [hempty]) hmore
  | line options =>
    simp only [ReadCall.perform, Option.isSome_map]
    unfold readLine
    split_ifs
    · rfl
    · rfl
    · refine Lib.answered_isSome ⟨chunk, hchunk, fun current => ?_⟩ _
      unfold lineAbsorb
      split_ifs with hfailed hmore
      · exact ⟨_, rfl⟩
      · exact ⟨_, rfl⟩
      · exact absurd (by simp [hempty]) hmore

/-! ## Runs -/

/-- The completed reads of a run. -/
def StreamRun.completedReads (run : StreamRun) : Nat :=
  run.results.countP fun entry => entry.2.completed

/-- What a run has left of its input. -/
def StreamRun.left (run : StreamRun) : Nat := inputLeft run.chunks run.buffer

theorem inputLeft_le {call : ReadCall} {environment : ReadEnvironment}
    {chunks rest : List ReadChunk} {answer : ReadResult × PendingInputBuffer}
    (h : call.perform environment chunks buffer = some (answer, rest)) :
    inputLeft rest answer.2 ≤ inputLeft chunks buffer := by
  have hconserved := congrArg List.length (perform_spec h).1.1
  simp only [List.length_append] at hconserved
  unfold inputLeft
  omega

/-- A call that meets no cut scalar pays a byte for its completed read. -/
theorem readStep_paid {run next : StreamRun} {call : ReadCall × ReadEnvironment}
    (hdelivers : ∀ chunk ∈ run.chunks, chunk.Delivers) (hcall : call.1.isText = true)
    (huncut : ¬ CutCall call.1 call.2 run.chunks run.buffer) (hs : readStep run call = some next) :
    (∀ chunk ∈ next.chunks, chunk.Delivers) ∧
      next.completedReads + next.left ≤ run.completedReads + run.left := by
  obtain ⟨⟨⟨result, buffer⟩, rest⟩, hperform, rfl⟩ := Option.map_eq_some_iff.1 hs
  refine ⟨fun chunk hchunk => hdelivers chunk ((perform_spec hperform).2.subset hchunk), ?_⟩
  have hle := inputLeft_le hperform
  have hlt := (progresses_iff hcall hdelivers).2 huncut _ _ hperform
  simp only [StreamRun.completedReads, StreamRun.left, List.countP_append,
    List.countP_singleton] at hle hlt ⊢
  split_ifs with hcompleted
  · have := hlt hcompleted
    omega
  · omega

/-- **Progress.** A text or line read that completes has consumed a byte exactly when it is no line
read whose pending bytes, no fewer than its limit, break off inside their first scalar. Where no
call of a run is one, the completed reads are no more than the bytes given; and a call returns at
the latest at the end of its input. -/
theorem readCalls_progress (start : StreamRun)
    (hdelivers : ∀ chunk ∈ start.chunks, chunk.Delivers) :
    (∀ call environment, call.isText = true →
      (Progresses call environment start.chunks start.buffer ↔
        ¬ CutCall call environment start.chunks start.buffer)) ∧
    (∀ calls run, Trace readStep start calls run →
      (∀ x ∈ calls, x.action.1.isText = true ∧
        ¬ CutCall x.action.1 x.action.2 x.pre.chunks x.pre.buffer) →
      run.completedReads + run.left ≤ start.completedReads + start.left) ∧
    ((∃ chunk ∈ start.chunks, chunk.bytes = []) → ∀ call environment,
      (ReadCall.perform call environment start.chunks start.buffer).isSome = true) := by
  refine ⟨fun call environment hcall => progresses_iff hcall hdelivers,
    fun calls run h hcalls => ?_, fun hend call environment => perform_isSome hend⟩
  exact (h.invariant (I := fun run => (∀ chunk ∈ run.chunks, chunk.Delivers) ∧
      run.completedReads + run.left ≤ start.completedReads + start.left)
    (G := fun run call => call.1.isText = true ∧ ¬ CutCall call.1 call.2 run.chunks run.buffer)
    ⟨hdelivers, Nat.le_refl _⟩
    (fun run call next hI hG hs => by
      obtain ⟨hnext, hpaid⟩ := readStep_paid hI.1 hG.1 hG.2 hs
      exact ⟨hnext, Nat.le_trans hpaid hI.2⟩) hcalls).1.2

/-- `é` in two transfers of one byte. -/
def splitScalar : List ReadChunk :=
  [{ bytes := [0xC3] }, { bytes := [0xA9] }, { outcome := .endOfStream }]

theorem splitScalar_delivers : ∀ chunk ∈ splitScalar, chunk.Delivers := by
  intro chunk hchunk hok houtcome
  simp only [splitScalar, List.mem_cons, List.not_mem_nil, or_false] at hchunk
  rcases hchunk with rfl | rfl | rfl
  · exact List.cons_ne_nil _ _
  · exact List.cons_ne_nil _ _
  · cases houtcome

theorem readCalls_progress_splitScalar :
    Progresses (.text { maxReturnedBytes := 1 }) {} splitScalar {} :=
  ((readCalls_progress { chunks := splitScalar } splitScalar_delivers).1
    (.text { maxReturnedBytes := 1 }) {} rfl).2 id

/-- Not every completed read consumes a byte: with a limit of one byte a line read stops at the
first byte of `é` and leaves it pending. -/
theorem readCalls_progress_fails :
    ¬ ∀ (call : ReadCall) (environment : ReadEnvironment) (chunks : List ReadChunk)
      (buffer : PendingInputBuffer), call.isText = true → (∀ chunk ∈ chunks, chunk.Delivers) →
        Progresses call environment chunks buffer := by
  intro h
  have hprogress := h (.line { maxReturnedBytes := 1 }) {} splitScalar {} rfl splitScalar_delivers
  have hrun : (ReadCall.perform (.line { maxReturnedBytes := 1 }) {} splitScalar {}).map
      (fun answer => (answer.1.1.completed, inputLeft answer.2 answer.1.2)) = some (true, 2) := by
    decide +kernel
  obtain ⟨⟨answer, rest⟩, hperform, heq⟩ := Option.map_eq_some_iff.1 hrun
  obtain ⟨hcompleted, hleft⟩ := Prod.mk.inj heq
  have hlt := hprogress answer rest hperform hcompleted
  dsimp only at hleft
  rw [hleft] at hlt
  exact absurd hlt (by decide)

end Terminal

import GameWIP.Io.Proof.Transfer

/-!
# Whole-stream reads over a conforming reader

`Conforms R content consumed` is the read contract: the reader `R` delivers the bytes of `content`
one after the other, and `consumed` counts those delivered so far. Size and position may be
supported or not. Whichever of them are, and however the reads are cut, a whole read collects the
remaining bytes or reports that they exceed a limit (`readAllBytes_conforming`).
-/

namespace Io

variable {ρ : Type} {R : Reader ρ} {content : List UInt8} {consumed : ρ → Nat}

/-- The read contract over a finite content. -/
structure Conforms (R : Reader ρ) (content : List UInt8) (consumed : ρ → Nat) : Prop where
  consumed_le : ∀ s, consumed s ≤ content.length
  /-- The size, where supported, is that of the content. -/
  size : ∀ s, (R.size s).1.status.ok = true → (R.size s).1.sizeBytes = content.length
  size_unsupported : ∀ s, (R.size s).1.status.ok = false →
    isUnsupportedReaderCapability (R.size s).1.status = true
  size_frame : ∀ s, consumed (R.size s).2 = consumed s
  /-- The position, where supported, is the number of bytes delivered. -/
  position : ∀ s, (R.position s).1.status.ok = true → (R.position s).1.position = consumed s
  position_unsupported : ∀ s, (R.position s).1.status.ok = false →
    isUnsupportedReaderCapability (R.position s).1.status = true
  position_frame : ∀ s, consumed (R.position s).2 = consumed s
  /-- A read succeeds and copies the bytes that come next. -/
  read_ok : ∀ s d, d ≠ [] → (R.read s d).1.status.ok = true
  read_le : ∀ s d, d ≠ [] → (R.read s d).1.bytesRead ≤ d.length
  read_consumed : ∀ s d, d ≠ [] →
    consumed (R.read s d).2.2 = consumed s + (R.read s d).1.bytesRead
  read_bytes : ∀ s d, d ≠ [] → (R.read s d).2.1.take (R.read s d).1.bytesRead =
    (content.drop (consumed s)).take (R.read s d).1.bytesRead
  /-- A read without progress reports end of stream. -/
  read_progress : ∀ s d, d ≠ [] → (R.read s d).1.bytesRead = 0 →
    (R.read s d).1.endOfStream = true
  /-- End of stream is reported only when no byte remains. -/
  read_end : ∀ s d, d ≠ [] → (R.read s d).1.endOfStream = true →
    consumed (R.read s d).2.2 = content.length

/-- A whole read of `all` succeeds exactly within the limits and then returns all of it. -/
structure ReadsRemaining (maxBytes : Nat) (all : List UInt8) (result : ReadAllBytesResult) :
    Prop where
  success : result.status.ok = true ↔ all.length ≤ maxBytes ∧ all.length ≤ kVectorMaxSize
  bytes : result.status.ok = true → result.bytes = all
  failure : result.status.ok = false → result.status = makeStatus .sizeLimitExceeded

theorem ReadsRemaining.of_fits {maxBytes : Nat} {all : List UInt8} (hlim : all.length ≤ maxBytes)
    (hmax : all.length ≤ kVectorMaxSize) : ReadsRemaining maxBytes all { bytes := all } where
  success := ⟨fun _ => ⟨hlim, hmax⟩, fun _ => rfl⟩
  bytes _ := rfl
  failure h := nomatch h

theorem ReadsRemaining.of_exceeds {maxBytes : Nat} {all bytes : List UInt8}
    (h : all.length ≤ maxBytes → ¬ all.length ≤ kVectorMaxSize) :
    ReadsRemaining maxBytes all { status := makeStatus .sizeLimitExceeded, bytes } where
  success := iff_of_false (fun hok => nomatch hok) fun hfit => h hfit.1 hfit.2
  bytes hok := nomatch hok
  failure _ := rfl

namespace Conforms

/-- What one read does: the bytes it reports are the next ones, and it reports the end with the
last of them or after it. -/
theorem read_spec (h : Conforms R content consumed) {s s' : ρ} {d contents : List UInt8}
    {result : ReadResult} (hd : d ≠ []) (hr : R.read s d = (result, contents, s')) :
    result.status.ok = true ∧ result.bytesRead ≤ d.length ∧
      (contents.take result.bytesRead).length = result.bytesRead ∧
      content.drop (consumed s) = contents.take result.bytesRead ++ content.drop (consumed s') ∧
      (result.endOfStream = true → content.drop (consumed s') = []) ∧
      (result.endOfStream = false → 0 < result.bytesRead) := by
  have hok := h.read_ok s d hd
  have hle := h.read_le s d hd
  have hcons := h.read_consumed s d hd
  have hbytes := h.read_bytes s d hd
  have hprogress := h.read_progress s d hd
  have hend := h.read_end s d hd
  have hl := R.length_read s d
  simp only [hr] at hok hle hcons hbytes hprogress hend hl
  refine ⟨hok, hle, List.length_take_of_le (by omega), ?_, fun he => ?_, fun he => ?_⟩
  · rw [hbytes, hcons, ← List.drop_drop, List.take_append_drop]
  · rw [hend he, List.drop_length]
  · refine Nat.pos_of_ne_zero fun hz => ?_
    rw [hprogress hz] at he
    cases he

/-- **Known size.** The loop fills the allocated range with the bytes that come next. -/
theorem readKnownSizeFrom_eq (h : Conforms R content consumed) (bytes : List UInt8) (t : Nat)
    (s : ρ) (hrest : t + (content.drop (consumed s)).length = bytes.length) :
    (readKnownSizeFrom R bytes t s).1 = { bytes := bytes.take t ++ content.drop (consumed s) } := by
  induction hn : bytes.length - t using Nat.strongRecOn generalizing bytes t s with
  | _ n ih =>
    rw [readKnownSizeFrom]
    by_cases hlt : t < bytes.length
    swap
    · have hnil : content.drop (consumed s) = [] := List.length_eq_zero_iff.1 (by omega)
      rw [dif_neg hlt, hnil, List.append_nil, List.take_of_length_le (by omega)]
    rcases hr : R.read s (bytes.drop t) with ⟨result, contents, s'⟩
    obtain ⟨hok, hle, hchunk, hrem, hend, hpos⟩ := h.read_spec (by simpa using hlt) hr
    have hl : contents.length = bytes.length - t := by
      have hl := R.length_read s (bytes.drop t)
      rwa [hr, List.length_drop] at hl
    have htake : (bytes.take t).length = t := List.length_take_of_le (Nat.le_of_lt hlt)
    have hlen := congrArg List.length hrem
    rw [List.length_append, hchunk] at hlen
    -- the reported bytes behind those collected before
    have hcollected : (bytes.take t ++ contents).take (t + result.bytesRead) =
        bytes.take t ++ contents.take result.bytesRead := by
      have h := @List.take_length_add_append _ (bytes.take t) contents result.bytesRead
      rwa [htake] at h
    rw [dif_pos hlt]
    simp only [hr]
    rw [if_neg (Nat.not_lt.2 hle), if_neg (by simp [hok])]
    split_ifs with hearly hz
    · -- an end reported before the range is full would leave bytes undelivered
      rw [Bool.and_eq_true, decide_eq_true_eq] at hearly
      rw [hend hearly.1, List.length_nil] at hlen
      omega
    · rw [beq_iff_eq] at hz
      cases he : result.endOfStream with
      | true =>
        rw [hend he, List.length_nil] at hlen
        omega
      | false => exact absurd (hpos he) (by omega)
    · have hgrow : (bytes.take t ++ contents).length = bytes.length := by
        rw [List.length_append, htake, hl]
        omega
      rw [beq_iff_eq] at hz
      rw [ih _ (by omega) (bytes.take t ++ contents) (t + result.bytesRead) s' (by omega) rfl,
        hcollected, hrem, List.append_assoc]

/-- At the limit, the probe tells whether a byte remains. -/
theorem probeForMoreData_eq (h : Conforms R content consumed) (probeByte : UInt8) (s : ρ) :
    (probeForMoreData R probeByte s).1 =
      if content.drop (consumed s) = [] then successStatus else makeStatus .sizeLimitExceeded := by
  rw [probeForMoreData]
  rcases hr : R.read s [probeByte] with ⟨result, contents, s'⟩
  obtain ⟨hok, hle, hchunk, hrem, hend, hpos⟩ := h.read_spec (by simp) hr
  have hlen := congrArg List.length hrem
  rw [List.length_append, hchunk] at hlen
  rw [List.length_singleton] at hle
  dsimp only
  rw [if_neg (by omega)]
  by_cases hz : result.bytesRead > 0
  · have hne : content.drop (consumed s) ≠ [] := List.ne_nil_of_length_pos (by omega)
    rw [if_pos hz, if_neg hne]
  · have he : result.endOfStream = true := by
      cases he : result.endOfStream with
      | true => rfl
      | false => exact absurd (hpos he) hz
    rw [hend he, List.length_nil] at hlen
    rw [if_neg hz, if_neg (by simp [hok]), if_pos he,
      if_pos (List.length_eq_zero_iff.1 (by omega))]

/-- **Streaming.** The loop collects what remains, or stops at the first byte over a limit. -/
theorem readWithScratchFrom_remaining (h : Conforms R content consumed) (probeByte : UInt8)
    (maxBytes : Nat) (bytes scratchBuffer : List UInt8) (s : ρ) (hscratch : scratchBuffer ≠ [])
    (hlim : bytes.length ≤ maxBytes) (hmax : bytes.length ≤ kVectorMaxSize) :
    ReadsRemaining maxBytes (bytes ++ content.drop (consumed s))
      (readWithScratchFrom R probeByte maxBytes bytes scratchBuffer bytes.length s).1 := by
  induction hn : maxBytes - bytes.length using Nat.strongRecOn
    generalizing bytes scratchBuffer s with
  | _ n ih =>
    rw [readWithScratchFrom]
    by_cases hge : bytes.length ≥ maxBytes
    · rw [dif_pos hge]
      dsimp only
      rw [h.probeForMoreData_eq]
      split_ifs with hnil
      · rw [hnil, List.append_nil]
        exact .of_fits hlim hmax
      · refine .of_exceeds fun hfit => ?_
        have hpos := List.length_pos_iff.2 hnil
        rw [List.length_append] at hfit
        omega
    rw [dif_neg hge]
    generalize hreq : min scratchBuffer.length (maxBytes - bytes.length) = request
    have hscratch' := List.length_pos_iff.2 hscratch
    have hlen : (scratchBuffer.take request).length = request := List.length_take_of_le (by omega)
    have hd : scratchBuffer.take request ≠ [] := List.ne_nil_of_length_pos (by omega)
    rcases hr : R.read s (scratchBuffer.take request) with ⟨result, contents, s'⟩
    obtain ⟨hok, hle, hchunk, hrem, hend, hpos⟩ := h.read_spec hd hr
    simp only [hr]
    rw [if_neg (by omega)]
    -- from here on the reported bytes, as a chunk of their own
    generalize hc : contents.take result.bytesRead = chunk at hchunk hrem ⊢
    rw [← hchunk]
    rw [hrem, ← List.append_assoc]
    by_cases hfit : bytes.length + chunk.length ≤ kVectorMaxSize
    swap
    · rw [appended_not_ok hmax hfit]
      refine .of_exceeds fun _ hall => hfit ?_
      rw [List.length_append, List.length_append] at hall
      omega
    simp only [appended_eq hfit, successStatus_ok, hok, Bool.not_true, Bool.false_eq_true, if_false]
    have hlen' : (bytes ++ chunk).length = bytes.length + chunk.length := List.length_append
    split_ifs with he hz
    · rw [hend he, List.append_nil]
      exact .of_fits (by omega) (by omega)
    · rw [beq_iff_eq] at hz
      exact absurd (hpos (by simpa using he)) (by omega)
    · rw [beq_iff_eq] at hz
      rw [← hlen']
      refine ih _ (by omega) (bytes ++ chunk) _ s' ?_ (by omega) (by omega) rfl
      refine List.ne_nil_of_length_pos ?_
      have hl := R.length_read s (scratchBuffer.take request)
      rw [hr, hlen] at hl
      rw [List.length_append, List.length_drop]
      dsimp only at hl
      omega

/-! ## Whole reads -/

/-- Size and position together give the number of the remaining bytes. -/
theorem knownReadableByteCount_cases (h : Conforms R content consumed) (s : ρ) :
    let known := knownReadableByteCount R s
    known.1.status.ok = true ∧ consumed known.2 = consumed s ∧
      (known.1.known = true → known.1.byteCount = (content.drop (consumed s)).length) := by
  have hframe := h.position_frame (R.size s).2
  rw [h.size_frame] at hframe
  unfold knownReadableByteCount
  dsimp only
  split_ifs with hs hu hp hu' hgt
  · exact ⟨rfl, h.size_frame s, fun h => nomatch h⟩
  · exact absurd (h.size_unsupported s (by simpa using hs)) hu
  · exact ⟨rfl, hframe, fun h => nomatch h⟩
  · exact absurd (h.position_unsupported _ (by simpa using hp)) hu'
  · have hle := h.consumed_le s
    rw [h.position _ (by simpa using hp), h.size _ (by simpa using hs), h.size_frame] at hgt
    omega
  · refine ⟨rfl, hframe, fun _ => ?_⟩
    rw [h.position _ (by simpa using hp), h.size _ (by simpa using hs), h.size_frame,
      List.length_drop]

theorem readAllBytesKnownSize_remaining (h : Conforms R content consumed) (s : ρ)
    (maxBytes : Nat) :
    ReadsRemaining maxBytes (content.drop (consumed s))
      (readAllBytesKnownSize R s (content.drop (consumed s)).length maxBytes).1 := by
  generalize hn : (content.drop (consumed s)).length = n
  rw [readAllBytesKnownSize]
  split_ifs with hlim hmax hz
  · exact .of_exceeds fun hfit => absurd hfit (by omega)
  · exact .of_exceeds fun _ hall => absurd hall (by omega)
  · rw [beq_iff_eq] at hz
    have hnil : content.drop (consumed s) = [] := List.length_eq_zero_iff.1 (by omega)
    rw [hnil]
    exact .of_fits (Nat.zero_le _) (Nat.zero_le _)
  · rw [h.readKnownSizeFrom_eq _ 0 s (by rw [List.length_replicate, hn, Nat.zero_add])]
    exact .of_fits (by omega) (by omega)

theorem probe_remaining (h : Conforms R content consumed) (probeByte : UInt8) (s : ρ) :
    ReadsRemaining 0 (content.drop (consumed s))
      { status := (probeForMoreData R probeByte s).1 } := by
  rw [h.probeForMoreData_eq]
  split_ifs with hnil
  · rw [hnil]
    exact .of_fits (Nat.zero_le _) (Nat.zero_le _)
  · exact .of_exceeds fun hfit => absurd (List.length_pos_iff.2 hnil) (by omega)

theorem withScratch_remaining (h : Conforms R content consumed) (probeByte : UInt8) (s : ρ)
    {scratchBuffer : List UInt8} (hscratch : scratchBuffer ≠ []) (maxBytes : Nat) :
    ReadsRemaining maxBytes (content.drop (consumed s))
      (readAllBytesWithScratch R probeByte s scratchBuffer maxBytes).1 :=
  h.readWithScratchFrom_remaining probeByte maxBytes [] scratchBuffer s hscratch (Nat.zero_le _)
    (Nat.zero_le _)

end Conforms

/-- **Whole-stream reads of a conforming reader.** Both forms of `readAllBytes` succeed exactly when
what remains fits the limit and a vector, return it then, and report the limit otherwise. -/
theorem readAllBytes_conforming (h : Conforms R content consumed) (probeByte : UInt8) (s : ρ)
    (maxBytes : Nat) :
    (∀ (fresh : Nat → UInt8) (bufferSize : Nat), bufferSize ≠ 0 →
      ReadsRemaining maxBytes (content.drop (consumed s))
        (readAllBytes R probeByte fresh s maxBytes bufferSize).1) ∧
    (∀ scratchBuffer : List UInt8, scratchBuffer ≠ [] →
      ReadsRemaining maxBytes (content.drop (consumed s))
        (readAllBytesScratch R probeByte s scratchBuffer maxBytes).1) := by
  have hcases := h.knownReadableByteCount_cases s
  constructor
  · intro fresh bufferSize hsize
    unfold readAllBytes
    rcases hk : knownReadableByteCount R s with ⟨known, s'⟩
    rw [hk] at hcases
    obtain ⟨hok, hframe, hknown⟩ := hcases
    rw [← hframe] at hknown ⊢
    dsimp only at hok hknown ⊢
    split_ifs with hb hs hkn hz
    · exact absurd (beq_iff_eq.1 hb) hsize
    · simp [hok] at hs
    · rw [hknown hkn]
      exact h.readAllBytesKnownSize_remaining s' maxBytes
    · rw [beq_iff_eq.1 hz]
      exact h.probe_remaining probeByte s'
    · refine h.withScratch_remaining probeByte s' (List.ne_nil_of_length_pos ?_) maxBytes
      rw [beq_iff_eq] at hz
      rw [List.length_map, List.length_range]
      omega
  · intro scratchBuffer hscratch
    unfold readAllBytesScratch
    rcases hk : knownReadableByteCount R s with ⟨known, s'⟩
    rw [hk] at hcases
    obtain ⟨hok, hframe, hknown⟩ := hcases
    rw [← hframe] at hknown ⊢
    dsimp only at hok hknown ⊢
    split_ifs with hb hs hkn hz
    · exact absurd (List.isEmpty_iff.1 hb) hscratch
    · simp [hok] at hs
    · rw [hknown hkn]
      exact h.readAllBytesKnownSize_remaining s' maxBytes
    · rw [beq_iff_eq.1 hz]
      exact h.probe_remaining probeByte s'
    · exact h.withScratch_remaining probeByte s' hscratch maxBytes

/-- A reader over `content` that delivers at most `chunk` bytes a time and may hide its size and its
position; its state is the number of bytes delivered. -/
def chunkReader (content : List UInt8) (chunk : Nat) (sized positioned : Bool) : Reader Nat where
  size n :=
    (if sized then { sizeBytes := content.length } else { status := makeStatus .notSeekable }, n)
  position n :=
    (if positioned then { position := min n content.length }
     else { status := makeStatus .notSeekable }, n)
  read n destination :=
    let count := min chunk (min (content.length - n) destination.length)
    ({ bytesRead := count, endOfStream := content.length ≤ n + count },
      (content.drop n).take count ++ destination.drop count, n + count)
  length_read n destination := by
    simp only [List.length_append, List.length_take, List.length_drop]
    omega

theorem chunkReader_conforms (content : List UInt8) {chunk : Nat} (hchunk : chunk ≠ 0)
    (sized positioned : Bool) :
    Conforms (chunkReader content chunk sized positioned) content (min · content.length) where
  consumed_le n := Nat.min_le_right _ _
  size n h := by cases sized <;> simp_all [chunkReader]
  size_unsupported n h := by
    cases sized <;> simp_all [chunkReader, isUnsupportedReaderCapability, makeStatus, Status.ok]
  size_frame n := rfl
  position n h := by cases positioned <;> simp_all [chunkReader]
  position_unsupported n h := by
    cases positioned <;> simp_all [chunkReader, isUnsupportedReaderCapability, makeStatus, Status.ok]
  position_frame n := rfl
  read_ok n d _ := rfl
  read_le n d _ := by simp only [chunkReader]; omega
  read_consumed n d _ := by simp only [chunkReader]; omega
  read_bytes n d _ := by
    have hdrop : content.drop (min n content.length) = content.drop n := by
      rcases Nat.le_total n content.length with hle | hle
      · rw [Nat.min_eq_left hle]
      · rw [Nat.min_eq_right hle, List.drop_length, List.drop_eq_nil_of_le hle]
    simp only [chunkReader, hdrop]
    rw [List.take_append_of_le_length, List.take_take, Nat.min_self]
    rw [List.length_take, List.length_drop]
    omega
  read_progress n d hd hz := by
    have hpos := List.length_pos_iff.2 hd
    simp only [chunkReader] at hz ⊢
    rw [decide_eq_true_eq]
    omega
  read_end n d _ he := by
    simp only [chunkReader, decide_eq_true_eq] at he ⊢
    omega

/-- Three bytes, one at a time, with the limit at the length and below it. -/
theorem readAllBytes_conforming_chunks :
    ReadsRemaining 3 [1, 2, 3]
        (readAllBytes (chunkReader [1, 2, 3] 1 true false) 0 (fun _ => 0) 0 3 2).1 ∧
      ReadsRemaining 2 [1, 2, 3]
        (readAllBytesScratch (chunkReader [1, 2, 3] 1 true true) 0 0 [7] 2).1 :=
  ⟨(readAllBytes_conforming (chunkReader_conforms [1, 2, 3] (by decide) true false) 0 0 3).1
      (fun _ => 0) 2 (by decide),
    (readAllBytes_conforming (chunkReader_conforms [1, 2, 3] (by decide) true true) 0 0 2).2 [7]
      (by decide)⟩

/-- A known size beyond any vector is rejected before the first read. -/
theorem readAllBytes_beyond_vector {content : List UInt8} (hmax : kVectorMaxSize < content.length)
    (probeByte : UInt8) (fresh : Nat → UInt8) (maxBytes bufferSize : Nat) (hsize : bufferSize ≠ 0) :
    (readAllBytes (chunkReader content 1 true true) probeByte fresh 0 maxBytes bufferSize).1.status =
      makeStatus .sizeLimitExceeded := by
  have hknown : knownReadableByteCount (chunkReader content 1 true true) 0 =
      ({ byteCount := content.length, known := true }, 0) := by
    simp [knownReadableByteCount, chunkReader, Status.ok]
  rw [readAllBytes, if_neg (by simpa using hsize), hknown]
  simp only [Status.ok, readAllBytesKnownSize, if_pos hmax]
  split_ifs <;> simp_all

/-- Without a scratch byte the empty remainder is not read, and a remainder of `2 ^ 63` bytes is
rejected though no caller limits it. -/
theorem readAllBytes_rejected :
    (Conforms (chunkReader [] 1 false false) [] (min · 0) ∧
      (readAllBytes (chunkReader [] 1 false false) 0 (fun _ => 0) 0 3 0).1.status =
        makeStatus .invalidArgument ∧
      (readAllBytesScratch (chunkReader [] 1 false false) 0 0 [] 3).1.status =
        makeStatus .invalidArgument) ∧
    ∃ content : List UInt8, content.length = 2 ^ 63 ∧
      Conforms (chunkReader content 1 true true) content (min · content.length) ∧
      (readAllBytes (chunkReader content 1 true true) 0 (fun _ => 0) 0 (2 ^ 64 - 1) 1).1.status =
        makeStatus .sizeLimitExceeded := by
  refine ⟨⟨chunkReader_conforms [] (by decide) false false, by decide +kernel⟩, ?_⟩
  generalize hn : 2 ^ 63 = n
  refine ⟨List.replicate n 0, List.length_replicate, chunkReader_conforms _ (by decide) true true,
    readAllBytes_beyond_vector ?_ 0 _ _ 1 (by decide)⟩
  rw [List.length_replicate, ← hn]
  decide

end Io

import GameWIP.Io.Transfer

/-!
# Whole-stream reads return what the reader delivered

`recorded R` is the reader `R` with a log of its read calls; it answers as `R` does
(`recorded_simulates`), so a run over it is a run over `R`. Both loops keep the bytes collected so
far equal to the chunks of the log, as long as no result failed or over-reported
(`readKnownSizeFrom_spec`, `readWithScratchFrom_spec`). The result of a whole read is then the
concatenation of the delivered chunks, cut at the limit (`readAllBytes_spec`).
-/

namespace Io

variable {ρ ρ' : Type}

/-! ## The log of a reader -/

/-- One read call: the size of the destination, the answer and the contents left there. -/
structure Delivery where
  size : Nat
  result : ReadResult
  contents : List UInt8

/-- The result reports more bytes than the destination holds. -/
def Delivery.impossible (d : Delivery) : Bool := d.size < d.result.bytesRead

/-- The bytes a possible result reports. -/
def Delivery.chunk (d : Delivery) : List UInt8 := d.contents.take d.result.bytesRead

/-- The chunks delivered before the first failing or impossible result, in order; the chunk that
accompanies a failure belongs to them. -/
def delivered : List Delivery → List UInt8
  | [] => []
  | d :: log =>
    if d.impossible then []
    else if !d.result.status.ok then d.chunk
    else d.chunk ++ delivered log

/-- The last answer of the reader was a success that reported end of stream. -/
def EndReported (log : List Delivery) : Prop :=
  ∃ d, log.getLast? = some d ∧ d.result.status.ok = true ∧ d.result.endOfStream = true

/-- A reader that keeps a log of its read calls. -/
def recorded (R : Reader ρ) : Reader (ρ × List Delivery) where
  size s := ((R.size s.1).1, (R.size s.1).2, s.2)
  position s := ((R.position s.1).1, (R.position s.1).2, s.2)
  read s destination :=
    let answer := R.read s.1 destination
    (answer.1, answer.2.1, answer.2.2, s.2 ++ [⟨destination.length, answer.1, answer.2.1⟩])
  length_read s destination := R.length_read s.1 destination

theorem recorded_read (R : Reader ρ) (s : ρ) (L : List Delivery) (destination : List UInt8) :
    (recorded R).read (s, L) destination =
      ((R.read s destination).1, (R.read s destination).2.1, (R.read s destination).2.2,
        L ++ [⟨destination.length, (R.read s destination).1, (R.read s destination).2.1⟩]) :=
  rfl

/-! ## A recorded run is a run -/

/-- `R'` answers as `R` does, with states that project to those of `R`. -/
structure Simulates (R' : Reader ρ') (R : Reader ρ) (f : ρ' → ρ) : Prop where
  size : ∀ s, R.size (f s) = ((R'.size s).1, f (R'.size s).2)
  position : ∀ s, R.position (f s) = ((R'.position s).1, f (R'.position s).2)
  read : ∀ s d, R.read (f s) d = ((R'.read s d).1, (R'.read s d).2.1, f (R'.read s d).2.2)

theorem recorded_simulates (R : Reader ρ) : Simulates (recorded R) R Prod.fst :=
  ⟨fun _ => rfl, fun _ => rfl, fun _ _ => rfl⟩

namespace Simulates

variable {R' : Reader ρ'} {R : Reader ρ} {f : ρ' → ρ}

theorem knownReadableByteCount_eq (h : Simulates R' R f) (s : ρ') :
    knownReadableByteCount R (f s) =
      ((knownReadableByteCount R' s).1, f (knownReadableByteCount R' s).2) := by
  unfold knownReadableByteCount
  rw [h.size]
  dsimp only
  split_ifs <;> simp_all [h.position]

theorem readKnownSizeFrom_eq (h : Simulates R' R f) (bytes : List UInt8) (totalRead : Nat)
    (s : ρ') :
    readKnownSizeFrom R bytes totalRead (f s) =
      ((readKnownSizeFrom R' bytes totalRead s).1, f (readKnownSizeFrom R' bytes totalRead s).2) := by
  induction hn : bytes.length - totalRead using Nat.strongRecOn generalizing bytes totalRead s with
  | _ n ih =>
    have hl := R'.length_read s (bytes.drop totalRead)
    rw [List.length_drop] at hl
    rw [readKnownSizeFrom.eq_1 R, readKnownSizeFrom.eq_1 R']
    simp only [h.read]
    split_ifs with hlt hover hok hend hz <;> first | rfl | skip
    rw [beq_iff_eq] at hz
    refine ih _ ?_ _ _ _ rfl
    rw [List.length_append, List.length_take, hl]
    omega

theorem probeForMoreData_eq (h : Simulates R' R f) (probeByte : UInt8) (s : ρ') :
    probeForMoreData R probeByte (f s) =
      ((probeForMoreData R' probeByte s).1, f (probeForMoreData R' probeByte s).2) := by
  unfold probeForMoreData
  rw [h.read]
  dsimp only
  split_ifs <;> rfl

theorem readWithScratchFrom_eq (h : Simulates R' R f) (probeByte : UInt8) (maxBytes : Nat)
    (bytes scratchBuffer : List UInt8) (totalRead : Nat) (s : ρ') :
    readWithScratchFrom R probeByte maxBytes bytes scratchBuffer totalRead (f s) =
      ((readWithScratchFrom R' probeByte maxBytes bytes scratchBuffer totalRead s).1,
        f (readWithScratchFrom R' probeByte maxBytes bytes scratchBuffer totalRead s).2) := by
  induction hn : maxBytes - totalRead using Nat.strongRecOn
    generalizing bytes scratchBuffer totalRead s with
  | _ n ih =>
    rw [readWithScratchFrom.eq_1 R, readWithScratchFrom.eq_1 R']
    simp only [h.read, h.probeForMoreData_eq]
    split_ifs <;> first | rfl | skip
    all_goals
      rename_i hz
      rw [beq_iff_eq] at hz
      exact ih _ (by omega) _ _ _ _ rfl

end Simulates

/-! ## The delivered bytes -/

/-- A result that lets the loops go on. -/
def Delivery.Clean (d : Delivery) : Prop := d.impossible = false ∧ d.result.status.ok = true

theorem delivered_append {L M : List Delivery} (hL : ∀ d ∈ L, d.Clean) :
    delivered (L ++ M) = L.flatMap Delivery.chunk ++ delivered M := by
  induction L with
  | nil => rfl
  | cons d L ih =>
    obtain ⟨himp, hok⟩ := hL d List.mem_cons_self
    rw [List.cons_append, delivered, himp, hok, ih fun e he => hL e (List.mem_cons_of_mem _ he),
      List.flatMap_cons, List.append_assoc]
    rfl

theorem delivered_impossible {d : Delivery} (h : d.impossible = true) : delivered [d] = [] := by
  rw [delivered, h]
  rfl

/-- The last chunk counts, with or without a failure. -/
theorem delivered_possible {d : Delivery} (h : d.impossible = false) : delivered [d] = d.chunk := by
  rw [delivered, h]
  cases d.result.status.ok <;> simp [delivered]

theorem clean_append {L : List Delivery} {d : Delivery} (hL : ∀ e ∈ L, e.Clean) (hd : d.Clean) :
    ∀ e ∈ L ++ [d], e.Clean := by
  intro e he
  rw [List.mem_append, List.mem_singleton] at he
  rcases he with he | rfl
  · exact hL e he
  · exact hd

section
variable (R : Reader ρ)

/-! ## The two loops -/

/-- **Known size.** The collected bytes are the delivered ones, and the read succeeds only when it
has collected the whole range. -/
theorem readKnownSizeFrom_spec (bytes : List UInt8) (t : Nat) (s : ρ) (L : List Delivery)
    (hL : ∀ d ∈ L, d.Clean) (ht : t ≤ bytes.length)
    (hb : L.flatMap Delivery.chunk = bytes.take t) :
    let run := readKnownSizeFrom (recorded R) bytes t (s, L)
    run.1.bytes = delivered run.2.2 ∧ run.1.bytes.length ≤ bytes.length ∧
      (run.1.status.ok = true → run.1.bytes.length = bytes.length) := by
  induction hn : bytes.length - t using Nat.strongRecOn generalizing bytes t s L with
  | _ n ih =>
    have hl := R.length_read s (bytes.drop t)
    have htake : (bytes.take t).length = t := List.length_take_of_le ht
    rw [readKnownSizeFrom]
    rcases hr : R.read s (bytes.drop t) with ⟨result, contents, s'⟩
    simp only [recorded_read, hr, List.length_drop] at hl ⊢
    -- the entry this round adds to the log, and what the log delivers with it
    generalize hd : (⟨bytes.length - t, result, contents⟩ : Delivery) = d
    have himp : d.impossible = decide (bytes.length - t < result.bytesRead) := by rw [← hd]; rfl
    have hlast : delivered (L ++ [d]) = bytes.take t ++ delivered [d] := by
      rw [delivered_append hL, hb]
    have hcollected : (bytes.take t ++ contents).take (t + result.bytesRead) =
        bytes.take t ++ d.chunk := by
      have h := @List.take_length_add_append _ (bytes.take t) contents result.bytesRead
      rw [htake] at h
      rw [h, ← hd]
      rfl
    have hlen : (bytes.take t ++ d.chunk).length ≤ bytes.length := by
      rw [← hcollected, List.length_take, List.length_append, htake, hl]
      omega
    split_ifs with hlt hover hok hend hz
    · rw [delivered_impossible (by rw [himp]; exact decide_eq_true hover), List.append_nil] at hlast
      exact ⟨hlast.symm, by dsimp only; omega, fun h => nomatch h⟩
    all_goals try rw [delivered_possible (by rw [himp]; exact decide_eq_false hover)] at hlast
    · rw [hcollected]
      exact ⟨hlast.symm, hlen, fun h => absurd h (by simpa using hok)⟩
    · rw [hcollected]
      exact ⟨hlast.symm, hlen, fun h => nomatch h⟩
    · rw [hcollected]
      exact ⟨hlast.symm, hlen, fun h => nomatch h⟩
    · have hclean : d.Clean := ⟨by rw [himp]; exact decide_eq_false hover, by rw [← hd]; simpa using hok⟩
      have hgrow : (bytes.take t ++ contents).length = bytes.length := by
        rw [List.length_append, htake, hl]
        omega
      rw [beq_iff_eq] at hz
      have h := ih (bytes.length - (t + result.bytesRead)) (by omega) (bytes.take t ++ contents)
        (t + result.bytesRead) s' (L ++ [d]) (clean_append hL hclean) (by omega)
        (by rw [List.flatMap_append, hb, hcollected]; simp) (by rw [hgrow])
      rwa [hgrow] at h
    · have hfull : bytes.take t = bytes := List.take_of_length_le (by omega)
      have hall := delivered_append (M := []) hL
      rw [List.append_nil, hb, hfull, delivered, List.append_nil] at hall
      exact ⟨hall.symm, Nat.le_refl _, fun _ => rfl⟩

theorem endReported_append {L : List Delivery} {d : Delivery} (hok : d.result.status.ok = true)
    (hend : d.result.endOfStream = true) : EndReported (L ++ [d]) :=
  ⟨d, by simp, hok, hend⟩

/-- At the limit the probe adds nothing to the result, and succeeds only at a reported end. -/
theorem probeForMoreData_spec (probeByte : UInt8) (s : ρ) (L : List Delivery)
    (hL : ∀ d ∈ L, d.Clean) :
    let probe := probeForMoreData (recorded R) probeByte (s, L)
    L.flatMap Delivery.chunk =
        (delivered probe.2.2).take (L.flatMap Delivery.chunk).length ∧
      (probe.1.ok = true → EndReported probe.2.2) := by
  rw [probeForMoreData]
  rcases hr : R.read s [probeByte] with ⟨result, contents, s'⟩
  simp only [recorded_read, hr]
  have htake : ∀ d : Delivery, (delivered (L ++ [d])).take (L.flatMap Delivery.chunk).length =
      L.flatMap Delivery.chunk := by
    intro d
    rw [delivered_append hL, List.take_left]
  split_ifs with hover hmore hok hend
  · exact ⟨(htake _).symm, fun h => nomatch h⟩
  · exact ⟨(htake _).symm, fun h => nomatch h⟩
  · exact ⟨(htake _).symm, fun h => absurd h (by simpa using hok)⟩
  · exact ⟨(htake _).symm, fun _ => endReported_append (by simpa using hok) hend⟩
  · exact ⟨(htake _).symm, fun h => nomatch h⟩

/-- What a round appends, unless the vector would outgrow its greatest size. -/
theorem appended_eq {bytes chunk : List UInt8} (hfit : bytes.length + chunk.length ≤ kVectorMaxSize) :
    (if chunk.length > 0 then appendBytes bytes chunk else (successStatus, bytes)) =
      (successStatus, bytes ++ chunk) := by
  unfold appendBytes
  split_ifs with h h1 h2
  · rw [List.isEmpty_iff] at h1
    rw [h1, List.append_nil]
  · omega
  · rfl
  · have he : chunk = [] := List.length_eq_zero_iff.1 (by omega)
    rw [he, List.append_nil]

theorem appended_not_ok {bytes chunk : List UInt8} (hb : bytes.length ≤ kVectorMaxSize)
    (hfit : ¬ bytes.length + chunk.length ≤ kVectorMaxSize) :
    (if chunk.length > 0 then appendBytes bytes chunk else (successStatus, bytes)) =
      (makeStatus .sizeLimitExceeded, bytes) := by
  unfold appendBytes
  split_ifs with h h1 h2
  · rw [List.isEmpty_iff] at h1
    rw [h1] at h
    cases h
  · rfl
  · omega
  · omega

/-- **Streaming.** The collected bytes are the delivered ones up to the limit, and the read succeeds
only at a reported end of stream. -/
theorem readWithScratchFrom_spec (probeByte : UInt8) (maxBytes : Nat)
    (bytes scratchBuffer : List UInt8) (s : ρ) (L : List Delivery) (hL : ∀ d ∈ L, d.Clean)
    (hlim : bytes.length ≤ maxBytes) (hmax : bytes.length ≤ kVectorMaxSize)
    (hb : L.flatMap Delivery.chunk = bytes) :
    let run := readWithScratchFrom (recorded R) probeByte maxBytes bytes scratchBuffer bytes.length
      (s, L)
    (delivered run.2.2).length ≤ kVectorMaxSize →
      run.1.bytes = (delivered run.2.2).take maxBytes ∧
        (run.1.status.ok = true → EndReported run.2.2) := by
  induction hn : maxBytes - bytes.length using Nat.strongRecOn
    generalizing bytes scratchBuffer s L with
  | _ n ih =>
    have hprobe := probeForMoreData_spec R probeByte s L hL
    rw [hb] at hprobe
    rw [readWithScratchFrom]
    generalize hreq : min scratchBuffer.length (maxBytes - bytes.length) = request
    have hl := R.length_read s (scratchBuffer.take request)
    have hlen : (scratchBuffer.take request).length = request := List.length_take_of_le (by omega)
    rcases hr : R.read s (scratchBuffer.take request) with ⟨result, contents, s'⟩
    simp only [recorded_read, hr, hlen] at hl ⊢
    -- the entry this round adds to the log, and what the log delivers with it
    generalize hd : (⟨request, result, contents⟩ : Delivery) = d
    have himp : d.impossible = decide (request < result.bytesRead) := by rw [← hd]; rfl
    have hlast : delivered (L ++ [d]) = bytes ++ delivered [d] := by
      rw [delivered_append hL, hb]
    have hchunk : contents.take result.bytesRead = d.chunk := by rw [← hd]; rfl
    rw [hchunk]
    by_cases hge : bytes.length ≥ maxBytes
    · rw [dif_pos hge]
      intro _
      have he : maxBytes = bytes.length := Nat.le_antisymm hge hlim
      rw [he]
      exact hprobe
    rw [dif_neg hge]
    by_cases hover : result.bytesRead > request
    · rw [if_pos hover]
      rw [delivered_impossible (by rw [himp]; exact decide_eq_true hover), List.append_nil] at hlast
      intro _
      refine ⟨?_, fun h => nomatch h⟩
      rw [hlast, List.take_of_length_le hlim]
    rw [if_neg hover]
    have hpos : d.impossible = false := by rw [himp]; exact decide_eq_false hover
    rw [delivered_possible hpos] at hlast
    have hn' : d.chunk.length = result.bytesRead := by
      rw [← hchunk, List.length_take_of_le (by omega)]
    have hall : (bytes ++ d.chunk).take maxBytes = bytes ++ d.chunk :=
      List.take_of_length_le (by rw [List.length_append]; omega)
    rw [← hn']
    by_cases hfit : bytes.length + d.chunk.length ≤ kVectorMaxSize
    swap
    · rw [appended_not_ok hmax hfit]
      intro h
      rw [makeStatus_ok] at h
      change (delivered (L ++ [d])).length ≤ _ at h
      rw [hlast, List.length_append] at h
      exact absurd h hfit
    simp only [appended_eq hfit, successStatus_ok, Bool.not_true, Bool.false_eq_true, if_false]
    split_ifs with hok hend hz
    · exact fun _ => ⟨by rw [hlast, hall], fun h => absurd h (by simpa using hok)⟩
    · refine fun _ => ⟨by rw [hlast, hall], fun _ => endReported_append ?_ ?_⟩ <;> rw [← hd]
      · simpa using hok
      · exact hend
    · exact fun _ => ⟨by rw [hlast, hall], fun h => nomatch h⟩
    · have hclean : d.Clean := ⟨hpos, by rw [← hd]; simpa using hok⟩
      rw [beq_iff_eq] at hz
      have h := ih (maxBytes - (bytes ++ d.chunk).length)
        (by rw [List.length_append]; omega) (bytes ++ d.chunk)
        (contents ++ scratchBuffer.drop request) s' (L ++ [d]) (clean_append hL hclean)
        (by rw [List.length_append]; omega) (by rwa [List.length_append])
        (by rw [List.flatMap_append, hb]; simp) rfl
      rwa [List.length_append] at h

/-! ## Whole reads -/

/-- What a whole read over the reader `R` in the state `s` guarantees, with the log of its reads:
the bytes are those delivered, up to the limit, and it succeeds only when the reader reported end of
stream or the known remainder was read. -/
structure ReadsAll (s : ρ) (maxBytes : Nat) (result : ReadAllBytesResult) (log : List Delivery) :
    Prop where
  bytes_eq : result.bytes = (delivered log).take maxBytes
  length_le : result.bytes.length ≤ maxBytes
  success : result.status.ok = true → EndReported log ∨
    ∃ n, (knownReadableByteCount R s).1 = { byteCount := n, known := true } ∧
      result.bytes.length = n

theorem ReadsAll.of_failure {s : ρ} {maxBytes : Nat} {status : Status} (h : status.ok = false) :
    ReadsAll R s maxBytes { status } [] where
  bytes_eq := List.take_nil.symm
  length_le := Nat.zero_le _
  success hok := by rw [h] at hok; cases hok

theorem ReadsAll.of_streaming {s : ρ} {maxBytes : Nat} {result : ReadAllBytesResult}
    {log : List Delivery} (h : result.bytes = (delivered log).take maxBytes ∧
      (result.status.ok = true → EndReported log)) : ReadsAll R s maxBytes result log where
  bytes_eq := h.1
  length_le := by rw [h.1]; exact List.length_take_le _ _
  success hok := .inl (h.2 hok)

/-- The known remainder of the reader, when its size query and its position query agree on one. -/
theorem known_eq {s : ρ} (h : (knownReadableByteCount R s).1.known = true) :
    (knownReadableByteCount R s).1 =
      { byteCount := (knownReadableByteCount R s).1.byteCount, known := true } := by
  revert h
  unfold knownReadableByteCount
  dsimp only
  split_ifs <;> simp

/-- The path of a known size. -/
theorem readAllBytesKnownSize_spec {s : ρ} (maxBytes : Nat)
    (h : (knownReadableByteCount R s).1.known = true) (s' : ρ) :
    let run := readAllBytesKnownSize (recorded R) (s', [])
      (knownReadableByteCount R s).1.byteCount maxBytes
    ReadsAll R s maxBytes run.1 run.2.2 := by
  have hknown := known_eq R h
  generalize (knownReadableByteCount R s).1.byteCount = n at hknown ⊢
  rw [readAllBytesKnownSize]
  split_ifs with hlim hmax hz
  · exact ReadsAll.of_failure R rfl
  · exact ReadsAll.of_failure R rfl
  · rw [beq_iff_eq] at hz
    exact ⟨List.take_nil.symm, Nat.zero_le _, fun _ => .inr ⟨0, hz ▸ hknown, rfl⟩⟩
  · obtain ⟨hb, hle, hfull⟩ := readKnownSizeFrom_spec R (List.replicate n 0) 0 s' []
      (fun _ hd => nomatch hd) (Nat.zero_le _) rfl
    rw [List.length_replicate] at hle hfull
    refine ⟨?_, by omega, fun hok => .inr ⟨n, hknown, hfull hok⟩⟩
    rw [← hb, List.take_of_length_le (by omega)]

theorem knownReadableByteCount_recorded (s : ρ) (L : List Delivery) :
    knownReadableByteCount (recorded R) (s, L) =
      ((knownReadableByteCount R s).1, (knownReadableByteCount R s).2, L) := by
  unfold knownReadableByteCount recorded
  dsimp only
  split_ifs <;> rfl

/-- The probe of an empty limit. -/
theorem probe_reads (probeByte : UInt8) (s s' : ρ) :
    let probe := probeForMoreData (recorded R) probeByte (s', [])
    ReadsAll R s 0 { status := probe.1 } probe.2.2 :=
  ReadsAll.of_streaming R (probeForMoreData_spec R probeByte s' [] fun _ hd => nomatch hd)

/-- The streaming path. -/
theorem withScratch_reads (probeByte : UInt8) (s s' : ρ) (scratchBuffer : List UInt8)
    (maxBytes : Nat) :
    let run := readAllBytesWithScratch (recorded R) probeByte (s', []) scratchBuffer maxBytes
    (delivered run.2.2).length ≤ kVectorMaxSize → ReadsAll R s maxBytes run.1 run.2.2 := fun h =>
  ReadsAll.of_streaming R (readWithScratchFrom_spec R probeByte maxBytes [] scratchBuffer s' []
    (fun _ hd => nomatch hd) (Nat.zero_le _) (Nat.zero_le _) rfl h)

theorem readAllBytesScratch_reads (probeByte : UInt8) (s : ρ) (scratchBuffer : List UInt8)
    (maxBytes : Nat) :
    let run := readAllBytesScratch (recorded R) probeByte (s, []) scratchBuffer maxBytes
    (delivered run.2.2).length ≤ kVectorMaxSize → ReadsAll R s maxBytes run.1 run.2.2 := by
  rw [readAllBytesScratch, knownReadableByteCount_recorded]
  dsimp only
  split_ifs with hbuf hstatus hknown hz
  · exact fun _ => ReadsAll.of_failure R rfl
  · exact fun _ => ReadsAll.of_failure R (by simpa using hstatus)
  · exact fun _ => readAllBytesKnownSize_spec R maxBytes hknown _
  · rw [beq_iff_eq] at hz
    exact fun _ => hz ▸ probe_reads R probeByte s _
  · exact withScratch_reads R probeByte s _ scratchBuffer maxBytes

theorem readAllBytes_reads (probeByte : UInt8) (fresh : Nat → UInt8) (s : ρ)
    (maxBytes bufferSize : Nat) :
    let run := readAllBytes (recorded R) probeByte fresh (s, []) maxBytes bufferSize
    (delivered run.2.2).length ≤ kVectorMaxSize → ReadsAll R s maxBytes run.1 run.2.2 := by
  rw [readAllBytes, knownReadableByteCount_recorded]
  dsimp only
  split_ifs with hbuf hstatus hknown hz
  · exact fun _ => ReadsAll.of_failure R rfl
  · exact fun _ => ReadsAll.of_failure R (by simpa using hstatus)
  · exact fun _ => readAllBytesKnownSize_spec R maxBytes hknown _
  · rw [beq_iff_eq] at hz
    exact fun _ => hz ▸ probe_reads R probeByte s _
  · exact withScratch_reads R probeByte s _ _ maxBytes

end

namespace Simulates

variable {R' : Reader ρ'} {R : Reader ρ} {f : ρ' → ρ}

theorem readAllBytesKnownSize_eq (h : Simulates R' R f) (s : ρ') (known maxBytes : Nat) :
    readAllBytesKnownSize R (f s) known maxBytes =
      ((readAllBytesKnownSize R' s known maxBytes).1,
        f (readAllBytesKnownSize R' s known maxBytes).2) := by
  unfold readAllBytesKnownSize
  split_ifs
  · rfl
  · rfl
  · rfl
  · exact h.readKnownSizeFrom_eq _ _ _

theorem readAllBytesScratch_eq (h : Simulates R' R f) (probeByte : UInt8) (s : ρ')
    (scratchBuffer : List UInt8) (maxBytes : Nat) :
    readAllBytesScratch R probeByte (f s) scratchBuffer maxBytes =
      ((readAllBytesScratch R' probeByte s scratchBuffer maxBytes).1,
        f (readAllBytesScratch R' probeByte s scratchBuffer maxBytes).2) := by
  unfold readAllBytesScratch
  rw [h.knownReadableByteCount_eq]
  dsimp only
  split_ifs
  · rfl
  · rfl
  · exact h.readAllBytesKnownSize_eq _ _ _
  · rw [h.probeForMoreData_eq]
  · exact h.readWithScratchFrom_eq _ _ _ _ _ _

theorem readAllBytes_eq (h : Simulates R' R f) (probeByte : UInt8) (fresh : Nat → UInt8) (s : ρ')
    (maxBytes bufferSize : Nat) :
    readAllBytes R probeByte fresh (f s) maxBytes bufferSize =
      ((readAllBytes R' probeByte fresh s maxBytes bufferSize).1,
        f (readAllBytes R' probeByte fresh s maxBytes bufferSize).2) := by
  unfold readAllBytes
  rw [h.knownReadableByteCount_eq]
  dsimp only
  split_ifs
  · rfl
  · rfl
  · exact h.readAllBytesKnownSize_eq _ _ _
  · rw [h.probeForMoreData_eq]
  · exact h.readWithScratchFrom_eq _ _ _ _ _ _

end Simulates

/-- **Whole-stream reads.** Whatever the reader answers, both forms of `readAllBytes` run as they do
over the recorded reader, and there they return the delivered bytes up to the limit. The hypotheses
are that the delivered bytes can be allocated. -/
theorem readAllBytes_spec (R : Reader ρ) (probeByte : UInt8) (s : ρ) (maxBytes : Nat) :
    (∀ (fresh : Nat → UInt8) (bufferSize : Nat),
      let run := readAllBytes (recorded R) probeByte fresh (s, []) maxBytes bufferSize
      readAllBytes R probeByte fresh s maxBytes bufferSize = (run.1, run.2.1) ∧
        ((delivered run.2.2).length ≤ kVectorMaxSize →
          ReadsAll R s maxBytes run.1 run.2.2)) ∧
    (∀ scratchBuffer : List UInt8,
      let run := readAllBytesScratch (recorded R) probeByte (s, []) scratchBuffer maxBytes
      readAllBytesScratch R probeByte s scratchBuffer maxBytes = (run.1, run.2.1) ∧
        ((delivered run.2.2).length ≤ kVectorMaxSize →
          ReadsAll R s maxBytes run.1 run.2.2)) :=
  ⟨fun fresh bufferSize =>
    ⟨(recorded_simulates R).readAllBytes_eq probeByte fresh (s, []) maxBytes bufferSize,
      readAllBytes_reads R probeByte fresh s maxBytes bufferSize⟩,
   fun scratchBuffer =>
    ⟨(recorded_simulates R).readAllBytesScratch_eq probeByte (s, []) scratchBuffer maxBytes,
      readAllBytesScratch_reads R probeByte s scratchBuffer maxBytes⟩⟩

/-- A reader without size and position over the bytes still to come. -/
def streamReader : Reader (List UInt8) where
  size rest := ({ status := makeStatus .notSeekable }, rest)
  position rest := ({ status := makeStatus .notSeekable }, rest)
  read rest destination :=
    let count := min rest.length destination.length
    ({ bytesRead := count, endOfStream := rest.length ≤ destination.length },
      rest.take count ++ destination.drop count, rest.drop count)
  length_read rest destination := by
    simp only [List.length_append, List.length_take, List.length_drop]
    omega

/-- Three bytes through a buffer of one, with a limit of two. -/
theorem readAllBytes_limit :
    let run := readAllBytes (recorded streamReader) 0 (fun _ => 0) ([1, 2, 3], []) 2 1
    ReadsAll streamReader [1, 2, 3] 2 run.1 run.2.2 :=
  ((readAllBytes_spec streamReader 0 [1, 2, 3] 2).1 (fun _ => 0) 1).2 (by decide +kernel)

end Io

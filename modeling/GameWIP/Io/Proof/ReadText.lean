import GameWIP.Io.Proof.Transfer
import GameWIP.Unicode.Proof.Utf8

/-!
# Whole-stream text reads follow the byte reads

The text loops answer as the byte loops do (`readTextKnownSizeFrom_eq`, `readTextWithScratchFrom_eq`),
so a whole text read is the finalized byte read of the same reader (`readAllText_eq`). Finalizing
keeps the longest valid prefix and decides the status (`finalize_readsText`).
-/

namespace Io

open Unicode.Utf8 (IsText IsTruncated)

/-- The collected bytes as a text that is not validated yet. -/
def ReadAllBytesResult.asText (result : ReadAllBytesResult) : ReadAllTextResult :=
  { status := result.status, text := result.bytes }

section
variable {ρ : Type} (R : Reader ρ)

/-! ## The text loops are the byte loops -/

theorem readTextKnownSizeFrom_eq (text : List UInt8) (totalRead : Nat) (s : ρ) :
    readTextKnownSizeFrom R text totalRead s =
      ((readKnownSizeFrom R text totalRead s).1.asText,
        (readKnownSizeFrom R text totalRead s).2) := by
  induction hn : text.length - totalRead using Nat.strongRecOn generalizing text totalRead s with
  | _ n ih =>
    have hl := R.length_read s (text.drop totalRead)
    rw [List.length_drop] at hl
    rw [readTextKnownSizeFrom, readKnownSizeFrom]
    dsimp only
    split_ifs with hlt hover hok hend hz <;> first | rfl | skip
    rw [beq_iff_eq] at hz
    refine ih _ ?_ _ _ _ rfl
    rw [List.length_append, List.length_take, hl]
    omega

theorem readAllTextKnownSize_eq (s : ρ) (known maxBytes : Nat) :
    readAllTextKnownSize R s known maxBytes =
      ((readAllBytesKnownSize R s known maxBytes).1.asText,
        (readAllBytesKnownSize R s known maxBytes).2) := by
  unfold readAllTextKnownSize readAllBytesKnownSize kStringMaxSize kVectorMaxSize
  split_ifs
  · rfl
  · rfl
  · rfl
  · exact readTextKnownSizeFrom_eq R _ _ _

theorem readTextWithScratchFrom_eq (probeByte : UInt8) (maxBytes : Nat)
    (text scratchBuffer : List UInt8) (totalRead : Nat) (s : ρ) :
    readTextWithScratchFrom R probeByte maxBytes text scratchBuffer totalRead s =
      ((readWithScratchFrom R probeByte maxBytes text scratchBuffer totalRead s).1.asText,
        (readWithScratchFrom R probeByte maxBytes text scratchBuffer totalRead s).2) := by
  induction hn : maxBytes - totalRead using Nat.strongRecOn
    generalizing text scratchBuffer totalRead s with
  | _ n ih =>
    have happend : appendTextBytes = appendBytes := rfl
    rw [readTextWithScratchFrom, readWithScratchFrom, happend]
    dsimp only
    split_ifs <;> first | rfl | skip
    all_goals
      rename_i hz
      rw [beq_iff_eq] at hz
      exact ih _ (by omega) _ _ _ _ rfl

theorem readAllTextWithScratch_eq (probeByte : UInt8) (s : ρ) (scratchBuffer : List UInt8)
    (maxBytes : Nat) :
    readAllTextWithScratch R probeByte s scratchBuffer maxBytes =
      ((readAllBytesWithScratch R probeByte s scratchBuffer maxBytes).1.asText,
        (readAllBytesWithScratch R probeByte s scratchBuffer maxBytes).2) :=
  readTextWithScratchFrom_eq R probeByte maxBytes [] scratchBuffer 0 s

/-! ## Finalizing -/

/-- The bytes contain a malformed sequence, or they end inside a sequence although the reader has
reached its end. -/
def Misencoded (result : ReadAllBytesResult) : Prop :=
  (¬ IsText result.bytes ∧ ¬ IsTruncated result.bytes) ∨
    (IsTruncated result.bytes ∧ (result.status.ok = true ∨ result.status.code = .partialRead))

/-- What a text read guarantees, with the byte read of the same reader. -/
structure ReadsText (bytes : ReadAllBytesResult) (text : ReadAllTextResult) : Prop where
  valid : IsText text.text
  starts : text.text <+: bytes.bytes
  longest : ∀ p, p <+: bytes.bytes → IsText p → p.length ≤ text.text.length
  misencoded : Misencoded bytes → text.status = makeStatus .encodingFailed
  otherwise : ¬ Misencoded bytes → text.status = bytes.status
  encodingFailed : text.status.code = .encodingFailed ↔
    Misencoded bytes ∨ bytes.status.code = .encodingFailed

/-- The text up to the longest valid prefix, with the status that belongs to it. -/
theorem ReadsText.of_status {bytes : ReadAllBytesResult} {text : ReadAllTextResult}
    (htext : text.text = bytes.bytes.take (Unicode.Utf8.validate bytes.bytes).validPrefixBytes)
    (hmis : Misencoded bytes → text.status = makeStatus .encodingFailed)
    (hother : ¬ Misencoded bytes → text.status = bytes.status) : ReadsText bytes text := by
  obtain ⟨hle, hvalid, hlongest⟩ := (Unicode.Utf8.validate_spec bytes.bytes).2.2.2.1
  refine ⟨htext ▸ hvalid, htext ▸ List.take_prefix _ _, fun p hp hpt => ?_, hmis, hother, ?_⟩
  · rw [htext, List.length_take_of_le hle]
    exact hlongest p.length hp.length_le (by rwa [← List.prefix_iff_eq_take.1 hp])
  · by_cases h : Misencoded bytes
    · simp [hmis h, h, makeStatus]
    · simp [hother h, h]

theorem misencoded_iff {bytes : ReadAllBytesResult} :
    Misencoded bytes ↔
      (Unicode.Utf8.validate bytes.bytes).outcome = .invalidEncoding ∨
        ((Unicode.Utf8.validate bytes.bytes).outcome = .incomplete ∧
          (bytes.status.ok = true ∨ bytes.status.code = .partialRead)) := by
  obtain ⟨-, htruncated, hinvalid, -⟩ := Unicode.Utf8.validate_spec bytes.bytes
  rw [htruncated, hinvalid, Misencoded]

theorem finalize_readsText (bytes : ReadAllBytesResult) :
    ReadsText bytes (finalizeReadAllText bytes.asText) := by
  obtain ⟨hvalid, -, -, ⟨hle, -, hlongest⟩, -⟩ := Unicode.Utf8.validate_spec bytes.bytes
  unfold finalizeReadAllText ReadAllBytesResult.asText
  dsimp only
  split_ifs with hv hmis
  · -- nothing is trimmed from valid text
    rw [beq_iff_eq] at hv
    have hall := hlongest _ (Nat.le_refl _) (by rw [List.take_length]; exact hvalid.1 hv)
    refine .of_status (by rw [List.take_of_length_le hall]) (fun h => ?_) fun _ => rfl
    simp [misencoded_iff, hv] at h
  · have h : Misencoded bytes := by
      rw [misencoded_iff]
      cases ho : (Unicode.Utf8.validate bytes.bytes).outcome <;> simp_all
    exact .of_status rfl (fun _ => rfl) fun hn => absurd h hn
  · have h : ¬ Misencoded bytes := by
      rw [misencoded_iff]
      cases ho : (Unicode.Utf8.validate bytes.bytes).outcome <;> simp_all
    exact .of_status rfl (fun hm => absurd hm h) fun _ => rfl

/-- A read that collected nothing needs no finalizing. -/
theorem readsText_empty (status : Status) : ReadsText { status } { status } := by
  have hv : (Unicode.Utf8.validate []).outcome = .valid := by decide +kernel
  have h := finalize_readsText { status }
  simpa [finalizeReadAllText, ReadAllBytesResult.asText, hv] using h

/-! ## Whole reads -/

/-- Both overloads read the text of the bytes they would have read, and move the reader alike. -/
theorem readAllTextScratch_readsText (probeByte : UInt8) (s : ρ) (scratchBuffer : List UInt8)
    (maxBytes : Nat) :
    let bytes := readAllBytesScratch R probeByte s scratchBuffer maxBytes
    let text := readAllTextScratch R probeByte s scratchBuffer maxBytes
    text.2 = bytes.2 ∧ ReadsText bytes.1 text.1 := by
  unfold readAllBytesScratch readAllTextScratch
  dsimp only
  split_ifs
  · exact ⟨rfl, readsText_empty _⟩
  · exact ⟨rfl, readsText_empty _⟩
  · rw [readAllTextKnownSize_eq]
    exact ⟨rfl, finalize_readsText _⟩
  · exact ⟨rfl, readsText_empty _⟩
  · rw [readAllTextWithScratch_eq]
    exact ⟨rfl, finalize_readsText _⟩

theorem readAllText_readsText (probeByte : UInt8) (fresh : Nat → UInt8) (s : ρ)
    (maxBytes bufferSize : Nat) :
    let bytes := readAllBytes R probeByte fresh s maxBytes bufferSize
    let text := readAllText R probeByte fresh s maxBytes bufferSize
    text.2 = bytes.2 ∧ ReadsText bytes.1 text.1 := by
  unfold readAllBytes readAllText
  dsimp only
  split_ifs
  · exact ⟨rfl, readsText_empty _⟩
  · exact ⟨rfl, readsText_empty _⟩
  · rw [readAllTextKnownSize_eq]
    exact ⟨rfl, finalize_readsText _⟩
  · exact ⟨rfl, readsText_empty _⟩
  · rw [readAllTextWithScratch_eq]
    exact ⟨rfl, finalize_readsText _⟩

end

/-- **Whole-stream text reads.** Whatever the reader answers, both forms of `readAllText` return the
longest valid prefix of the bytes the same form of `readAllBytes` returns, with the status of that
read unless the bytes are misencoded. -/
theorem readAllText_spec {ρ : Type} (R : Reader ρ) (probeByte : UInt8) (s : ρ) (maxBytes : Nat) :
    (∀ (fresh : Nat → UInt8) (bufferSize : Nat),
      let bytes := readAllBytes R probeByte fresh s maxBytes bufferSize
      let text := readAllText R probeByte fresh s maxBytes bufferSize
      text.2 = bytes.2 ∧ ReadsText bytes.1 text.1) ∧
    (∀ scratchBuffer : List UInt8,
      let bytes := readAllBytesScratch R probeByte s scratchBuffer maxBytes
      let text := readAllTextScratch R probeByte s scratchBuffer maxBytes
      text.2 = bytes.2 ∧ ReadsText bytes.1 text.1) :=
  ⟨fun fresh bufferSize => readAllText_readsText R probeByte fresh s maxBytes bufferSize,
   fun scratchBuffer => readAllTextScratch_readsText R probeByte s scratchBuffer maxBytes⟩

/-- A reader without size and position whose reads fail with the given status. -/
def failingReader (status : Status) : Reader Unit where
  size _ := ({ status := makeStatus .notSeekable }, ())
  position _ := ({ status := makeStatus .notSeekable }, ())
  read _ destination := ({ status }, destination, ())
  length_read _ _ := rfl

/-- A reader that fails with `EncodingFailed` itself: its status is passed on with no bytes at
all. -/
theorem readAllText_reader_encodingFailed :
    let bytes := (readAllBytes (failingReader (makeStatus .encodingFailed)) 0 (fun _ => 0) () 8 4).1
    let text := (readAllText (failingReader (makeStatus .encodingFailed)) 0 (fun _ => 0) () 8 4).1
    text.status.code = .encodingFailed ∧ bytes.bytes = [] ∧ ¬ Misencoded bytes := by
  simp only [misencoded_iff]
  decide +kernel

end Io

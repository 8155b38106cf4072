import GameWIP.Logger.Truncation
import GameWIP.Unicode.Proof.GraphemePass
import GameWIP.Unicode.Proof.Utf8

/-!
# The truncation paths retain the same text

The two searches for the cut agree on a text: the byte behind the cut is followed back to a lead
byte by `utf8PrefixBoundary` (`utf8PrefixBoundary_eq`), and the last scalar before the cut is
reconstructed by `completeUtf8TailBoundary` (`completeUtf8TailBoundary_eq`). Both keep the scalars
that fit, so every path gives `Retained` text (`truncation_paths_agree`).
-/

namespace Logger

open Lib (PrefixCode Segmenter)
open Unicode
open Unicode.Utf8 (IsText)

/-! ## What is retained -/

/-- The longest text of at most `room` bytes at the start of the message. -/
structure LongestText (message : List UInt8) (room : Nat) (kept : List UInt8) : Prop where
  starts : kept <+: message
  isText : IsText kept
  fits : kept.length ≤ room
  longest : ∀ other, other <+: message → IsText other → other.length ≤ room → other <+: kept

/-- The text that a limit leaves of a message. -/
structure Retained (message : List UInt8) (maxMessageLength : Nat) (text : List UInt8) : Prop where
  isText : IsText text
  fits : text.length ≤ maxMessageLength
  whole : message.length ≤ maxMessageLength → text = message
  marked : maxMessageLength < message.length → truncationSuffix.length < maxMessageLength →
    ∃ kept, LongestText message (maxMessageLength - truncationSuffix.length) kept ∧
      text = kept ++ truncationSuffix
  marker : maxMessageLength < message.length → maxMessageLength ≤ truncationSuffix.length →
    text = truncationSuffix.take maxMessageLength

theorem encodeAll_starts {ss ts : List Nat} (h : ts <+: ss) :
    utf8Code.encodeAll ts <+: utf8Code.encodeAll ss := by
  obtain ⟨us, rfl⟩ := h
  rw [PrefixCode.encodeAll_append]
  exact List.prefix_append _ _

theorem longestText_fitting {ss : List Nat} (hvalid : utf8Code.Valid ss) (room : Nat) :
    LongestText (utf8Code.encodeAll ss) room (utf8Code.encodeAll (utf8Code.fitting room ss)) := by
  obtain ⟨hstart, hfits⟩ := utf8Code.fitting_spec room ss
  refine ⟨encodeAll_starts hstart, ?_, hfits, ?_⟩
  · exact Utf8.isText_iff.2 (utf8Code.isText_encodeAll fun s hs => hvalid s (hstart.subset hs))
  · intro other hother htext hroom
    obtain ⟨ts, hts, rfl⟩ := Utf8.isText_iff.1 htext
    have hscalars : ts <+: ss :=
      PrefixCode.encodeAll_prefix_of_stuck PrefixCode.stuck_nil hvalid hts (by simpa using hother)
    exact encodeAll_starts (PrefixCode.fitting_longest hscalars hroom)

theorem isText_marker (count : Nat) : IsText (truncationSuffix.take count) := by
  have hall : ∀ n < 16, (Utf8.validate (truncationSuffix.take n)).outcome = .valid := by
    decide +kernel
  rw [Utf8.isText_iff, ← Utf8.validate_valid_iff]
  by_cases hcount : count < 16
  · exact hall count hcount
  · rw [List.take_of_length_le (show truncationSuffix.length ≤ count by
      change 15 ≤ count
      omega)]
    exact hall 15 (by decide)

/-! ## The search from the byte behind the cut -/

theorem leads_iff (value : UInt8) :
    value &&& 0xC0 ≠ 0x80 ↔ isContinuationByte value = false := by
  have hall : ∀ n < 256, UInt8.ofNat n &&& 0xC0 ≠ 0x80 ↔
      isContinuationByte (UInt8.ofNat n) = false := by decide +kernel
  have h := hall value.toNat value.toNat_lt
  rwa [UInt8.ofNat_toNat] at h

theorem prefixLead_eq (text : List UInt8) (boundary : Nat) :
    prefixLead text boundary = skipContinuationBytes text boundary := by
  induction boundary with
  | zero => rfl
  | succ boundary ih =>
    rw [prefixLead, skipContinuationBytes, ih]
    by_cases hlead : isContinuationByte (text.getD (boundary + 1) 0) = false
    · rw [if_pos ((leads_iff _).2 hlead), hlead]
      rfl
    · rw [if_neg (mt (leads_iff _).1 hlead), if_pos (Bool.eq_true_of_not_eq_false hlead)]

theorem prefixLead_le (text : List UInt8) (boundary : Nat) :
    prefixLead text boundary ≤ boundary := by
  induction boundary with
  | zero => exact Nat.le_refl 0
  | succ boundary ih =>
    rw [prefixLead]
    split_ifs <;> omega

/-- The search reads no byte behind the one it starts from. -/
theorem prefixLead_take {text : List UInt8} {boundary count : Nat} (h : boundary < count) :
    prefixLead (text.take count) boundary = prefixLead text boundary := by
  induction boundary with
  | zero => rfl
  | succ boundary ih =>
    have hbyte : (text.take count).getD (boundary + 1) 0 = text.getD (boundary + 1) 0 := by
      rw [List.getD_eq_getElem?_getD, List.getElem?_take, if_pos h, ← List.getD_eq_getElem?_getD]
    rw [prefixLead, prefixLead, hbyte, ih (by omega)]

/-- **The scalar at a cut**: the scalars that fit, and the one that does not. -/
theorem fitting_cut {ss : List Nat} {limit : Nat}
    (hlong : limit < (utf8Code.encodeAll ss).length) :
    ∃ s us n, ss = utf8Code.fitting limit ss ++ s :: us ∧ n < utf8EncodedLength s ∧
      limit = (utf8Code.encodeAll (utf8Code.fitting limit ss)).length + n := by
  have hroom := (utf8Code.fitting_spec limit ss).2
  obtain ⟨s, us, hss, hnext⟩ := PrefixCode.fitting_next fun heq => by
    rw [heq] at hroom
    omega
  have hwidth : (utf8Code.encode s).length = utf8EncodedLength s := length_utf8Bytes s
  rw [hwidth] at hnext
  exact ⟨s, us, limit - (utf8Code.encodeAll (utf8Code.fitting limit ss)).length, hss, hnext,
    by omega⟩

/-- The scalars of a text behind some of them. -/
theorem textFrom_append {ss l r : List Nat} (hvalid : utf8Code.Valid ss) (hss : ss = l ++ r) :
    TextFrom (utf8Code.encodeAll ss) (utf8Code.encodeAll l).length r := by
  subst hss
  rw [length_encodeAll]
  exact TextFrom.of_encodeAll hvalid

theorem utf8PrefixBoundary_eq {ss : List Nat} {limit : Nat} (hvalid : utf8Code.Valid ss)
    (hlong : limit < (utf8Code.encodeAll ss).length) :
    utf8PrefixBoundary (utf8Code.encodeAll ss) limit =
      (utf8Code.encodeAll (utf8Code.fitting limit ss)).length := by
  obtain ⟨s, us, n, hss, hn, hlimit⟩ := fitting_cut hlong
  have htext := textFrom_append hvalid hss
  obtain ⟨hlead, htail⟩ := utf8Bytes_shape (htext.valid s List.mem_cons_self)
  have hsearch : skipContinuationBytes (utf8Code.encodeAll ss)
      ((utf8Code.encodeAll (utf8Code.fitting limit ss)).length + n) =
        (utf8Code.encodeAll (utf8Code.fitting limit ss)).length := by
    refine skipContinuationBytes_eq ?_ fun i h1 h2 => ?_
    · exact (congrArg isContinuationByte (htext.getD_eq (i := 0) (by omega))).trans hlead
    · obtain ⟨j, rfl⟩ := Nat.exists_eq_add_of_lt h1
      rw [Nat.add_assoc, htext.getD_eq (by omega)]
      exact htail _ (by omega) (by omega)
  rw [utf8PrefixBoundary, if_neg (by omega), prefixLead_eq]
  rwa [← hlimit] at hsearch

/-! ## The search from the bytes before the cut -/

theorem tailLead_succ (text : List UInt8) (count lead : Nat) :
    tailLead text (count + 1) lead =
      if lead = 0 ∨ isContinuationByte (text.getD lead 0) = false then lead
      else tailLead text count (lead - 1) := by
  rw [tailLead]
  simp only [Bool.or_eq_true, decide_eq_true_eq, leads_iff]

theorem tailLead_eq {text : List UInt8} {k n : Nat}
    (hlead : isContinuationByte (text.getD k 0) = false)
    (htail : ∀ i, k < i → i ≤ k + n → isContinuationByte (text.getD i 0) = true)
    {count : Nat} (hcount : n ≤ count) : tailLead text count (k + n) = k := by
  induction n generalizing count with
  | zero =>
    cases count with
    | zero => rfl
    | succ count => exact (tailLead_succ text count k).trans (if_pos (.inr hlead))
  | succ n ih =>
    obtain ⟨count, rfl⟩ : ∃ m, count = m + 1 := ⟨count - 1, by omega⟩
    have hback : ¬ (k + (n + 1) = 0 ∨
        isContinuationByte (text.getD (k + (n + 1)) 0) = false) := by
      rw [htail _ (by omega) (Nat.le_refl _)]
      simp
    rw [tailLead_succ, if_neg hback]
    exact ih (fun i h1 h2 => htail i h1 (by omega)) (by omega)

/-- What the lead byte says about the number of bytes. -/
theorem lead_class {s : Nat} (hs : isScalarValue s = true) :
    let first := (utf8Bytes s).getD 0 0
    (utf8EncodedLength s = 1 ∧ byteValue first ≤ 0x7F) ∨
    (utf8EncodedLength s = 2 ∧ 0xC2 ≤ byteValue first ∧ byteValue first ≤ 0xDF) ∨
    (utf8EncodedLength s = 3 ∧ 0xE0 ≤ byteValue first ∧ byteValue first ≤ 0xEF) ∨
    (utf8EncodedLength s = 4 ∧ 0xF0 ≤ byteValue first ∧ byteValue first ≤ 0xF4) := by
  rw [isScalarValue_iff] at hs
  rw [utf8EncodedLength]
  split_ifs with h1 h2 h3
  · rw [utf8Bytes_one h1]
    refine .inl ⟨rfl, ?_⟩
    exact (byteValue_ofNat (by omega)).trans_le h1
  · rw [utf8Bytes_two (by omega) h2]
    have hfirst : byteValue (UInt8.ofNat (192 + s / 64)) = 192 + s / 64 :=
      byteValue_ofNat (by omega)
    refine .inr (.inl ⟨rfl, ?_⟩)
    simp only [List.getD_cons_zero, hfirst]
    omega
  · rw [utf8Bytes_three (by omega) h3]
    have hfirst : byteValue (UInt8.ofNat (224 + s / 4096)) = 224 + s / 4096 :=
      byteValue_ofNat (by omega)
    refine .inr (.inr (.inl ⟨rfl, ?_⟩))
    simp only [List.getD_cons_zero, hfirst]
    omega
  · rw [utf8Bytes_four (by omega) hs.1]
    have hfirst : byteValue (UInt8.ofNat (240 + s / 262144)) = 240 + s / 262144 :=
      byteValue_ofNat (by omega)
    refine .inr (.inr (.inr ⟨rfl, ?_⟩))
    simp only [List.getD_cons_zero, hfirst]
    omega

/-- **The reconstructed scalar**: a cut inside it leaves it out, a cut behind it keeps it. -/
theorem completeUtf8TailBoundary_eq {text : List UInt8} {off s n : Nat} {ss : List Nat}
    (h : TextFrom text off (s :: ss)) (hn : n < utf8EncodedLength s) :
    completeUtf8TailBoundary (text.take (off + (n + 1))) =
      if n + 1 < utf8EncodedLength s then off else off + (n + 1) := by
  have hs : isScalarValue s = true := h.valid s List.mem_cons_self
  obtain ⟨hlead, htail⟩ := utf8Bytes_shape hs
  have hlength : (text.take (off + (n + 1))).length = off + (n + 1) :=
    List.length_take_of_le (by
      have := h.step.2.2.le
      omega)
  have hbyte : ∀ i ≤ n, (text.take (off + (n + 1))).getD (off + i) 0 = (utf8Bytes s).getD i 0 := by
    intro i hi
    rw [← h.getD_eq (by omega), List.getD_eq_getElem?_getD, List.getElem?_take,
      if_pos (by omega), ← List.getD_eq_getElem?_getD]
  have hback : tailLead (text.take (off + (n + 1))) 3 (off + n) = off := by
    have hwidth := utf8EncodedLength_le s
    refine tailLead_eq ?_ (fun i h1 h2 => ?_) (by omega)
    · exact (congrArg isContinuationByte (hbyte 0 (Nat.zero_le n))).trans hlead
    · obtain ⟨j, rfl⟩ := Nat.exists_eq_add_of_lt h1
      rw [Nat.add_assoc, hbyte _ (by omega)]
      exact htail _ (by omega) (by omega)
  have hnonempty : (text.take (off + (n + 1))).isEmpty = false := by
    rw [← Bool.not_eq_true, List.isEmpty_iff_length_eq_zero, hlength]
    omega
  have hfirst : (text.take (off + (n + 1))).getD off 0 = (utf8Bytes s).getD 0 0 :=
    hbyte 0 (Nat.zero_le n)
  have hclass := lead_class hs
  simp only [byteValue] at hclass
  simp only [completeUtf8TailBoundary, hnonempty, hlength, Nat.add_sub_cancel_left,
    show off + (n + 1) - 1 = off + n by omega, hback, hfirst, Bool.false_eq_true, if_false,
    UInt8.le_iff_toNat_le]
  obtain ⟨hwidth, hvalue⟩ | ⟨hwidth, hvalue⟩ | ⟨hwidth, hvalue⟩ | ⟨hwidth, hvalue⟩ := hclass
  all_goals
    rw [hwidth]
    generalize ((utf8Bytes s).getD 0 0).toNat = first at hvalue
    simp only [UInt8.reduceToNat]
    split_ifs <;> omega

theorem completeUtf8TailBoundary_take {ss : List Nat} {limit : Nat} (hvalid : utf8Code.Valid ss)
    (hlong : limit < (utf8Code.encodeAll ss).length) :
    completeUtf8TailBoundary ((utf8Code.encodeAll ss).take limit) =
      (utf8Code.encodeAll (utf8Code.fitting limit ss)).length := by
  obtain ⟨s, us, n, hss, hn, hlimit⟩ := fitting_cut hlong
  generalize utf8Code.fitting limit ss = fit at hss hlimit
  cases n with
  | succ n =>
    rw [hlimit, completeUtf8TailBoundary_eq (textFrom_append hvalid hss) (by omega), if_pos hn]
  | zero =>
    -- the cut is behind the last scalar that fits, which is the one reconstructed
    obtain rfl | ⟨ts, t, rfl⟩ := List.eq_nil_or_concat fit
    · rw [hlimit]
      rfl
    · rw [List.concat_eq_append] at hss hlimit ⊢
      rw [List.append_assoc] at hss
      have htext := textFrom_append hvalid hss
      have hpos := utf8EncodedLength_pos t
      have hwidth : (utf8Code.encodeAll (ts ++ [t])).length =
          (utf8Code.encodeAll ts).length + (utf8EncodedLength t - 1 + 1) := by
        simp only [length_encodeAll, Segmenter.length_append, Segmenter.length_cons,
          Segmenter.length_nil, graphemes_width]
        omega
      have hcut := completeUtf8TailBoundary_eq htext (n := utf8EncodedLength t - 1) (by omega)
      rw [if_neg (by omega), ← hwidth] at hcut
      rw [hlimit, Nat.add_zero]
      exact hcut

/-! ## The bytes kept while formatting -/

/-- **The bounded run** keeps the bytes in the limit and sees whether there are others. -/
theorem foldl_assign (limit : Nat) (message : List UInt8) :
    message.foldl (BoundedFormat.assign limit) {} =
      { output := message.take limit
        written := message.length
        truncated := decide (limit < message.length) } := by
  induction message using List.reverseRecOn with
  | nil => simp
  | append_singleton message value ih =>
    rw [List.foldl_append, ih, List.foldl_cons, List.foldl_nil, BoundedFormat.assign]
    dsimp only
    split_ifs with hroom
    · have hfits : (message ++ [value]).length ≤ limit := by
        rw [List.length_append, List.length_singleton]
        omega
      rw [List.take_of_length_le hfits, List.take_of_length_le (Nat.le_of_lt hroom)]
      simp [Nat.not_lt.2 (Nat.le_of_lt hroom)]
      omega
    · rw [List.take_append_of_le_length (by omega)]
      simp
      omega

/-- Cutting the bytes that were kept is cutting the message. -/
theorem truncateScratch_take {message : List UInt8} {maxMessageLength : Nat}
    (hlong : maxMessageLength < message.length) :
    truncateScratch (message.take maxMessageLength) maxMessageLength =
      truncateScratch message maxMessageLength := by
  rw [truncateScratch, truncateScratch]
  by_cases hroom : maxMessageLength > truncationSuffix.length
  · have hpos : 0 < truncationSuffix.length := by decide
    have hlength := List.length_take_of_le (Nat.le_of_lt hlong)
    have hsearch : prefixLead (message.take maxMessageLength)
        (maxMessageLength - truncationSuffix.length) =
        prefixLead message (maxMessageLength - truncationSuffix.length) :=
      prefixLead_take (by omega)
    have hcut := prefixLead_le message (maxMessageLength - truncationSuffix.length)
    rw [if_pos hroom, if_pos hroom, utf8PrefixBoundary, utf8PrefixBoundary, if_neg (by omega),
      if_neg (by omega), hsearch, List.take_take, Nat.min_eq_left (by omega)]
  · rw [if_neg hroom, if_neg hroom]

/-! ## The paths -/

theorem formatBounded_eq (message : List UInt8) (maxMessageLength : Nat) :
    formatBounded message maxMessageLength = truncateScratchIfNeeded message maxMessageLength := by
  rw [formatBounded, truncateScratchIfNeeded]
  simp only [foldl_assign, decide_eq_true_eq]
  by_cases hlong : maxMessageLength < message.length
  · rw [if_pos hlong, if_neg (by omega), truncateScratch_take hlong]
  · rw [if_neg hlong, if_pos (by omega), List.take_of_length_le (by omega)]

theorem buildTruncatedMessage_eq (message : List UInt8) (maxMessageLength : Nat) :
    buildTruncatedMessage message maxMessageLength = truncateScratch message maxMessageLength := by
  rw [buildTruncatedMessage, truncateScratch, appendTruncationSuffix]
  split_ifs <;> first | rfl | omega

theorem boundedMessageView_eq (message : List UInt8) (maxMessageLength : Nat) :
    boundedMessageView message false maxMessageLength =
      truncateScratchIfNeeded message maxMessageLength := by
  rw [boundedMessageView, truncateScratchIfNeeded, buildTruncatedMessage_eq]
  rfl

/-- **What a cut leaves** of a text that is too long, by either search. -/
theorem cut_eq {ss : List Nat} {maxMessageLength : Nat} (hvalid : utf8Code.Valid ss)
    (hlong : maxMessageLength < (utf8Code.encodeAll ss).length) :
    let text :=
      if maxMessageLength ≤ truncationSuffix.length then truncationSuffix.take maxMessageLength
      else utf8Code.encodeAll (utf8Code.fitting (maxMessageLength - truncationSuffix.length) ss) ++
        truncationSuffix
    truncateScratch (utf8Code.encodeAll ss) maxMessageLength = text ∧
      assignRetainedMessage (utf8Code.encodeAll ss) maxMessageLength = (text, true) := by
  have hpos : 0 < truncationSuffix.length := by decide
  rw [truncateScratch, appendTruncationSuffix, assignRetainedMessage, if_neg (Nat.not_le.2 hlong)]
  by_cases hsmall : maxMessageLength ≤ truncationSuffix.length
  · by_cases hzero : maxMessageLength = 0
    · simp [hzero]
    · simp only [if_pos hsmall, if_neg hzero, and_self]
  · have hlarge : maxMessageLength > truncationSuffix.length := Nat.lt_of_not_le hsmall
    have hnonzero : maxMessageLength ≠ 0 := by omega
    have hkept : maxMessageLength - truncationSuffix.length < (utf8Code.encodeAll ss).length := by
      omega
    obtain ⟨hstart, hwithin⟩ :=
      utf8Code.fitting_spec (maxMessageLength - truncationSuffix.length) ss
    have htake := List.prefix_iff_eq_take.1 (encodeAll_starts hstart)
    simp only [if_neg hsmall, if_neg hnonzero, if_pos hlarge, utf8PrefixBoundary_eq hvalid hkept,
      assignJoined, completeUtf8TailBoundary_take hvalid hkept, List.take_take,
      Nat.min_eq_left hwithin, ← htake, and_self]

/-- What the cut leaves is retained text. -/
theorem retained_cut {ss : List Nat} {maxMessageLength : Nat} (hvalid : utf8Code.Valid ss)
    (hlong : maxMessageLength < (utf8Code.encodeAll ss).length) :
    Retained (utf8Code.encodeAll ss) maxMessageLength
      (if maxMessageLength ≤ truncationSuffix.length then truncationSuffix.take maxMessageLength
      else utf8Code.encodeAll (utf8Code.fitting (maxMessageLength - truncationSuffix.length) ss) ++
        truncationSuffix) := by
  have hkept := longestText_fitting hvalid (maxMessageLength - truncationSuffix.length)
  by_cases hsmall : maxMessageLength ≤ truncationSuffix.length
  · rw [if_pos hsmall]
    exact
      { isText := isText_marker maxMessageLength
        fits := List.length_take_le _ _
        whole := fun h => absurd h (Nat.not_le.2 hlong)
        marked := fun _ h => absurd h (Nat.not_lt.2 hsmall)
        marker := fun _ _ => rfl }
  · rw [if_neg hsmall]
    refine
      { isText := ?_
        fits := ?_
        whole := fun h => absurd h (Nat.not_le.2 hlong)
        marked := fun _ _ => ⟨_, hkept, rfl⟩
        marker := fun _ h => absurd h hsmall }
    · have hsuffix : IsText truncationSuffix := isText_marker 15
      rw [Utf8.isText_iff] at hsuffix ⊢
      exact (Utf8.isText_iff.1 hkept.isText).append hsuffix
    · have hfits := hkept.fits
      rw [List.length_append]
      omega

theorem cut_retained {message : List UInt8} (hmessage : IsText message) (maxMessageLength : Nat) :
    ∃ text, Retained message maxMessageLength text ∧
      truncateScratchIfNeeded message maxMessageLength =
        (text, decide (maxMessageLength < message.length)) ∧
      (maxMessageLength < message.length →
        buildTruncatedMessage message maxMessageLength = text) ∧
      assignRetainedMessage message maxMessageLength =
        (text, decide (maxMessageLength < message.length)) := by
  obtain ⟨ss, hvalid, rfl⟩ := Utf8.isText_iff.1 hmessage
  rw [buildTruncatedMessage_eq, truncateScratchIfNeeded]
  by_cases hlong : maxMessageLength < (utf8Code.encodeAll ss).length
  · obtain ⟨hscratch, hretained⟩ := cut_eq hvalid hlong
    refine ⟨_, retained_cut hvalid hlong, ?_⟩
    simp only [hlong, hscratch, hretained, Nat.not_le.2 hlong, if_false, decide_true, and_self,
      implies_true]
  · refine ⟨utf8Code.encodeAll ss, ⟨hmessage, Nat.not_lt.1 hlong, fun _ => rfl,
      fun h => absurd h hlong, fun h => absurd h hlong⟩, ?_⟩
    simp [hlong, assignRetainedMessage, Nat.not_lt.1 hlong]

/-- What a queue slot holds of a formatted message is retained text, under either policy. -/
theorem formatWithPolicy_slot {message : List UInt8} (hmessage : IsText message)
    (policy : FormatPolicy) (maxMessageLength : Nat) :
    let formatted := formatWithPolicy policy message maxMessageLength
    Retained message maxMessageLength
      (copyPendingEntryToQueueSlot { message := formatted.1, alreadyTruncated := formatted.2 }
        maxMessageLength).message := by
  obtain ⟨text, hretained, hformatted, -⟩ := cut_retained hmessage maxMessageLength
  have hpolicy : formatWithPolicy policy message maxMessageLength =
      (text, decide (maxMessageLength < message.length)) := by
    rw [formatWithPolicy, formatBounded_eq, ite_self, hformatted]
  have hfits := hretained.fits
  simp only [hpolicy, copyPendingEntryToQueueSlot, assignRetainedMessage, if_pos hfits, ite_self]
  exact hretained

/-- **The truncation paths agree**: what formatting within the limit, cutting a formatted message,
bounding a message for a report and copying it into a queue slot retain of a text is one text. It
is the message when it is short enough; otherwise it is the longest text at its start that leaves
room for the suffix, with the suffix behind it, or the start of the suffix alone. -/
theorem truncation_paths_agree {message : List UInt8} (hmessage : IsText message)
    (maxMessageLength : Nat) :
    let cut := decide (maxMessageLength < message.length)
    ∃ text, Retained message maxMessageLength text ∧
      formatBounded message maxMessageLength = (text, cut) ∧
      truncateScratchIfNeeded message maxMessageLength = (text, cut) ∧
      boundedMessageView message false maxMessageLength = (text, cut) ∧
      (maxMessageLength < message.length →
        buildTruncatedMessage message maxMessageLength = text) ∧
      assignRetainedMessage message maxMessageLength = (text, cut) := by
  obtain ⟨text, hretained, hscratch, hreport, hqueued⟩ := cut_retained hmessage maxMessageLength
  exact ⟨text, hretained, (formatBounded_eq _ _).trans hscratch, hscratch,
    (boundedMessageView_eq _ _).trans hscratch, hreport, hqueued⟩

/-- A limit of 18 bytes leaves one of ten accented letters, with the suffix behind it. -/
theorem truncation_paths_agree_accents :
    let message : List UInt8 := (List.range 10).flatMap fun _ => [0xC3, 0xA9]
    IsText message ∧
      ∃ text, Retained message 18 text ∧ formatBounded message 18 = (text, true) ∧
        assignRetainedMessage message 18 = (text, true) ∧
        text = [0xC3, 0xA9] ++ truncationSuffix := by
  have hmessage : IsText ((List.range 10).flatMap fun _ => [0xC3, 0xA9]) := by
    rw [Utf8.isText_iff, ← Utf8.validate_valid_iff]
    decide +kernel
  refine ⟨hmessage, ?_⟩
  obtain ⟨text, hretained, hbounded, -, -, -, hqueued⟩ := truncation_paths_agree hmessage 18
  have hvalue : formatBounded ((List.range 10).flatMap fun _ => [0xC3, 0xA9]) 18 =
      ([0xC3, 0xA9] ++ truncationSuffix, true) := by decide +kernel
  have hcut : decide (18 < ((List.range 10).flatMap fun _ => [(0xC3 : UInt8), 0xA9]).length) =
      true := by decide
  rw [hcut] at hbounded hqueued
  exact ⟨text, hretained, hbounded, hqueued,
    (congrArg Prod.fst (hbounded.symm.trans hvalue))⟩

end Logger

import GameWIP.Terminal.KeyDecoder
import GameWIP.Unicode.Proof.Utf16Code
import Mathlib.Data.List.Induction

/-!
# Press, repeat and release

`feed_reports`: along a run whose records the decoder follows (`Followed`), the event of a key-down
record is a press exactly when the key is not held, the counts of the events of a record sum to its
own, and no event carries a surrogate.

The calls themselves say which keys are held (`Held`, computed by `downAfter`). The decoder keeps the
same set as long as the records it passes over, ignored ones and those a surrogate pair swallows,
change nothing in it: this is `Seen`, and `Tracks` is the invariant it carries along the run.
-/

namespace Terminal

namespace Win32Events

open Unicode.Utf16 (isHighSurrogate isLowSurrogate isSurrogate)

/-! ## Keys -/

theorem KeyLocation.value_lt (location : KeyLocation) :
    location.value < kTrackedLocationCount := by
  cases location <;> decide

theorem KeyLocation.value_inj {a b : KeyLocation} : a.value = b.value ↔ a = b := by
  cases a <;> cases b <;> decide

theorem trackingIndex_inj {a b : VirtualKey} {l m : KeyLocation} :
    trackingIndex a l = trackingIndex b m ↔ a = b ∧ l = m := by
  have hl := l.value_lt
  have hm := m.value_lt
  rw [← UInt16.toNat_inj, ← KeyLocation.value_inj]
  simp only [trackingIndex, kTrackedLocationCount] at *
  omega

theorem trackingIndex_lt {code : VirtualKey} (location : KeyLocation) (h : code < 256) :
    trackingIndex code location < kKeyDownSize := by
  have hl := location.value_lt
  have hcode : code.toNat < 256 := h
  simp only [trackingIndex, kTrackedLocationCount, kKeyDownSize] at *
  omega

section
variable (mapVirtualKey : VirtualKey → Nat)

/-- The key of a record: its code and its location. -/
def keyOf (record : KeyRecord) : VirtualKey × KeyLocation :=
  (record.wVirtualKeyCode, keyLocation mapVirtualKey record)

def indexOf (record : KeyRecord) : Nat :=
  trackingIndex record.wVirtualKeyCode (keyLocation mapVirtualKey record)

/-! ## Held keys -/

/-- Since the last clear, a record pressed the key and no later one released it. -/
def Held (calls : List DecoderCall) (key : VirtualKey × KeyLocation) : Prop :=
  ∃ before record rest, calls = before ++ .record record :: rest ∧
    keyOf mapVirtualKey record = key ∧ record.bKeyDown = true ∧
    ∀ call ∈ rest, call ≠ .clear ∧
      ∀ later, call = .record later → keyOf mapVirtualKey later = key → later.bKeyDown = true

/-- The record entered into a set of keys. -/
def note (down : Nat → Bool) (record : KeyRecord) : Nat → Bool :=
  if trackedCode record.wVirtualKeyCode then
    Function.update down (indexOf mapVirtualKey record) record.bKeyDown
  else down

/-- One call entered into the set. -/
def noteCall (down : Nat → Bool) : DecoderCall → Nat → Bool
  | .record record => note mapVirtualKey down record
  | .clear => fun _ => false

/-- The keys the calls leave down. -/
def downAfter (calls : List DecoderCall) : Nat → Bool :=
  calls.foldl (noteCall mapVirtualKey) fun _ => false

end

variable {mapVirtualKey : VirtualKey → Nat}

@[simp] theorem downAfter_append_singleton (calls : List DecoderCall) (call : DecoderCall) :
    downAfter mapVirtualKey (calls ++ [call]) =
      noteCall mapVirtualKey (downAfter mapVirtualKey calls) call := by
  simp [downAfter]

theorem not_held_nil (key : VirtualKey × KeyLocation) : ¬ Held mapVirtualKey [] key := by
  simp [Held]

/-- A call after which the key is held has pressed it, or has left it alone while it was held. -/
theorem held_append_singleton {calls : List DecoderCall} {call : DecoderCall}
    {key : VirtualKey × KeyLocation} :
    Held mapVirtualKey (calls ++ [call]) key ↔
      ∃ record, call = .record record ∧
        if keyOf mapVirtualKey record = key then record.bKeyDown = true
        else Held mapVirtualKey calls key := by
  constructor
  · intro ⟨before, pressed, rest, hcalls, hkey, hdown, hrest⟩
    rcases List.eq_nil_or_concat rest with rfl | ⟨rest, last, rfl⟩
    · obtain ⟨-, hlast⟩ := List.append_inj' hcalls rfl
      simp only [List.cons.injEq, and_true] at hlast
      exact ⟨pressed, hlast, by rw [if_pos hkey]; exact hdown⟩
    · rw [List.concat_eq_append, ← List.cons_append, ← List.append_assoc] at hcalls
      obtain ⟨hbefore, hlast⟩ := List.append_inj' hcalls rfl
      simp only [List.cons.injEq, and_true] at hlast
      subst hlast
      obtain ⟨hclear, hup⟩ := hrest call (by simp)
      cases call with
      | clear => exact absurd rfl hclear
      | record record =>
        refine ⟨record, rfl, ?_⟩
        split_ifs with hk
        · exact hup record rfl hk
        · exact ⟨before, pressed, rest, hbefore, hkey, hdown, fun c hc => hrest c (by simp [hc])⟩
  · intro ⟨record, hcall, h⟩
    subst hcall
    split_ifs at h with hk
    · exact ⟨calls, record, [], rfl, hk, h, by simp⟩
    · obtain ⟨before, pressed, rest, rfl, hkey, hdown, hrest⟩ := h
      refine ⟨before, pressed, rest ++ [.record record], by simp, hkey, hdown, fun c hc => ?_⟩
      rcases List.mem_append.1 hc with hc | hc
      · exact hrest c hc
      · rw [List.mem_singleton.1 hc]
        exact ⟨DecoderCall.noConfusion, fun later hl hlk => absurd (by cases hl; exact hlk) hk⟩

/-- The set computed along the calls is the set of the held keys. -/
theorem downAfter_iff_held {calls : List DecoderCall} {code : VirtualKey} {location : KeyLocation}
    (htracked : trackedCode code = true) :
    downAfter mapVirtualKey calls (trackingIndex code location) = true ↔
      Held mapVirtualKey calls (code, location) := by
  induction calls using List.reverseRecOn with
  | nil => simp [downAfter, not_held_nil]
  | append_singleton calls call ih =>
    rw [held_append_singleton, downAfter_append_singleton]
    cases call with
    | clear => simp [noteCall]
    | record record =>
      simp only [noteCall, note, indexOf, keyOf, DecoderCall.record.injEq, exists_eq_left',
        Prod.mk.injEq]
      split_ifs with h₁ h₂ h₂
      · rw [h₂.1, h₂.2, Function.update_self]
      · rw [Function.update_of_ne fun h => h₂ ((trackingIndex_inj.1 h).imp Eq.symm Eq.symm), ih]
      · rw [h₂.1] at h₁
        exact absurd htracked h₁
      · exact ih

/-! ## Decoding -/

/-- Whether the record alone makes an event. -/
def speaks (record : KeyRecord) : Bool :=
  (codeKey record.wVirtualKeyCode).isSome ||
    (!isSurrogate record.unicodeChar && (record.unicodeChar != 0 || (ctrlCharacter record).isSome))

/-- The key is no surrogate. -/
def EventKey.Clean (key : EventKey) : Prop :=
  ∀ value, key = .character value → ¬ (0xD800 ≤ value ∧ value ≤ 0xDFFF)

theorem codeKey_clean {code : VirtualKey} {key : EventKey} (h : codeKey code = some key) :
    key.Clean := by
  rintro value rfl
  simp only [codeKey] at h
  split at h
  · cases h
  · split at h
    · cases h
    · split at h
      · cases h
      · obtain ⟨_, _, h⟩ := Option.map_eq_some_iff.1 h
        cases h

theorem ctrlCharacter_clean {record : KeyRecord} {value : Nat}
    (h : ctrlCharacter record = some value) : (EventKey.character value).Clean := by
  intro found hfound
  rw [← EventKey.character.inj hfound]
  simp only [ctrlCharacter] at h
  split_ifs at h with _ hletter
  · rw [Bool.and_eq_true, decide_eq_true_eq, decide_eq_true_eq] at hletter
    obtain ⟨hge, hle⟩ := hletter
    rw [← Option.some.inj h, UInt16.toNat_sub_of_le _ _ hge]
    have hle : record.wVirtualKeyCode.toNat ≤ 0x5A := hle
    omega
  · rw [← Option.some.inj h]
    omega

/-- A unit that is no surrogate is its own scalar. -/
theorem decode_single {unit : UInt16} (h : isSurrogate unit = false) :
    (Unicode.decodeUtf16Scalar [unit]).outcome = .decoded ∧
      (EventKey.character (Unicode.decodeUtf16Scalar [unit]).scalar).Clean := by
  have hunit := mt Unicode.isSurrogate_iff.2 (Bool.eq_false_iff.1 h)
  rw [Unicode.decode_bmp hunit]
  exact ⟨rfl, fun _ hvalue hrange => hunit (by cases hvalue; exact hrange)⟩

/-- A surrogate pair is a supplementary scalar. -/
theorem decode_surrogates {high low : UInt16} (hhigh : isHighSurrogate high = true)
    (hlow : isLowSurrogate low = true) :
    (Unicode.decodeUtf16Scalar [high, low]).outcome = .decoded ∧
      (EventKey.character (Unicode.decodeUtf16Scalar [high, low]).scalar).Clean := by
  rw [Unicode.decode_pair (Unicode.isHighSurrogate_iff.1 hhigh),
    if_pos (Unicode.isLowSurrogate_iff.1 hlow)]
  refine ⟨rfl, fun value hvalue hrange => ?_⟩
  have hvalue := EventKey.character.inj hvalue
  dsimp only at hvalue
  omega

/-- What one record can do to a decoder without a pending surrogate: it makes its own event, starts
a pair, or passes without an event. -/
theorem decodeKeyRecord_idle (mapVirtualKey : VirtualKey → Nat) (record : KeyRecord)
    {state : DecoderState} (hidle : state.pendingHighSurrogate = 0) :
    (speaks record = true ∧ ∃ key : EventKey, key.Clean ∧
      decodeKeyRecord mapVirtualKey record state = makeEvent mapVirtualKey key record state) ∨
    (speaks record = false ∧ isHighSurrogate record.unicodeChar = true ∧
      decodeKeyRecord mapVirtualKey record state =
        ({ disposition := .pending },
          { state with
            pendingHighSurrogate := record.unicodeChar
            pendingHighSurrogateRecord := record })) ∨
    (speaks record = false ∧ isHighSurrogate record.unicodeChar = false ∧
      (decodeKeyRecord mapVirtualKey record state).1.event = none ∧
      (decodeKeyRecord mapVirtualKey record state).2 = state) := by
  unfold decodeKeyRecord
  rw [if_neg (not_not.2 hidle)]
  cases hcode : codeKey record.wVirtualKeyCode with
  | some key => exact .inl ⟨by simp [speaks, hcode], key, codeKey_clean hcode, rfl⟩
  | none =>
    unfold decodeCharacterRecord
    simp only [speaks, hcode, Option.isSome_none, Bool.false_or]
    rw [if_neg (not_not.2 hidle)]
    by_cases hhigh : isHighSurrogate record.unicodeChar = true
    · rw [if_pos hhigh]
      exact .inr (.inl ⟨by simp [isSurrogate, hhigh], hhigh, rfl⟩)
    rw [if_neg hhigh]
    rw [Bool.not_eq_true] at hhigh
    by_cases hlow : isLowSurrogate record.unicodeChar = true
    · rw [if_pos hlow]
      exact .inr (.inr ⟨by simp [isSurrogate, hlow], hhigh, rfl, rfl⟩)
    rw [if_neg hlow]
    have hplain : isSurrogate record.unicodeChar = false := by simp [isSurrogate, hhigh, hlow]
    split
    · rename_i character hcharacter
      have hctrl : ctrlCharacter record = some character := by
        split_ifs at hcharacter
        exact hcharacter
      exact .inl ⟨by simp [hplain, hctrl], _, ctrlCharacter_clean hctrl, rfl⟩
    · by_cases hunit : record.unicodeChar ≠ 0
      · rw [if_pos hunit, if_neg (not_not.2 (decode_single hplain).1)]
        exact .inl ⟨by simp [hplain, hunit], _, (decode_single hplain).2, rfl⟩
      · rw [if_neg hunit]
        cases hctrl : ctrlCharacter record with
        | some character => exact .inl ⟨by simp [hplain], _, ctrlCharacter_clean hctrl, rfl⟩
        | none =>
          exact .inr (.inr ⟨by simp [not_not.1 hunit], hhigh, rfl, rfl⟩)

/-- What one record can do to a pending surrogate: complete the pair of its first record, or drop
it. -/
theorem decodeKeyRecord_pending (mapVirtualKey : VirtualKey → Nat) (record : KeyRecord)
    {state : DecoderState} (hpending : isHighSurrogate state.pendingHighSurrogate = true) :
    (isLowSurrogate record.unicodeChar = true ∧ ∃ key : EventKey, key.Clean ∧
      decodeKeyRecord mapVirtualKey record state =
        makeEvent mapVirtualKey key state.pendingHighSurrogateRecord state.dropSurrogate) ∨
    (isLowSurrogate record.unicodeChar = false ∧
      (decodeKeyRecord mapVirtualKey record state).1.event = none ∧
      (decodeKeyRecord mapVirtualKey record state).2 = state.dropSurrogate) := by
  have hne : state.pendingHighSurrogate ≠ 0 := by
    intro h
    rw [h] at hpending
    exact absurd hpending (by decide)
  unfold decodeKeyRecord decodeCharacterRecord
  rw [if_pos hne]
  dsimp only
  rw [if_pos hne]
  by_cases hlow : isLowSurrogate record.unicodeChar = true
  · have hdecoded := decode_surrogates hpending hlow
    rw [if_neg (by simp [hlow]), if_neg (not_not.2 hdecoded.1)]
    exact .inl ⟨hlow, _, hdecoded.2, rfl⟩
  · rw [Bool.not_eq_true] at hlow
    rw [if_pos (by simp [hlow])]
    exact .inr ⟨hlow, rfl, rfl⟩

/-! ## Events -/

theorem nativeRepeat_eq (record : KeyRecord) :
    nativeRepeat record = max 1 record.wRepeatCount.toNat := by
  unfold nativeRepeat
  split_ifs with h
  · simp [h]
  · have hne : record.wRepeatCount.toNat ≠ 0 := fun hz => h (UInt16.toNat_inj.1 hz)
    omega

/-- The record's own event, and the event it leaves behind for a repeat count above one. -/
structure Made (mapVirtualKey : VirtualKey → Nat) (key : EventKey) (record : KeyRecord)
    (state : DecoderState) (result : KeyDecodeResult) (event : KeyEvent) (post : DecoderState) : Prop where
  made : result.event = some event
  named : event.key = key
  phase : record.bKeyDown = true → trackedCode record.wVirtualKeyCode = true →
    event.action =
      if state.keyDown (indexOf mapVirtualKey record) then .repeated else .press
  count : record.bKeyDown = true →
    event.repeatCount + (post.pendingEvent.toList.map KeyEvent.repeatCount).sum =
      max 1 record.wRepeatCount.toNat
  left : ∀ later ∈ post.pendingEvent, later.key = key
  down : post.keyDown = note mapVirtualKey state.keyDown record
  surrogate : post.pendingHighSurrogate = state.pendingHighSurrogate

theorem makeEvent_made (mapVirtualKey : VirtualKey → Nat) (key : EventKey) {record : KeyRecord}
    {state : DecoderState} (hdrained : state.pendingEvent = none)
    (hbyte : trackedCode record.wVirtualKeyCode = true → record.wVirtualKeyCode < 256) :
    ∃ event, Made mapVirtualKey key record state
      (makeEvent mapVirtualKey key record state).1 event
      (makeEvent mapVirtualKey key record state).2 := by
  have htrack : (decide (trackingIndex record.wVirtualKeyCode (keyLocation mapVirtualKey record) <
      kKeyDownSize) && trackedCode record.wVirtualKeyCode) =
        trackedCode record.wVirtualKeyCode := by
    cases h : trackedCode record.wVirtualKeyCode with
    | false => rw [Bool.and_false]
    | true => rw [Bool.and_true, decide_eq_true_eq]; exact trackingIndex_lt _ (hbyte h)
  have hkept (index : Nat) : (if trackedCode record.wVirtualKeyCode = true then
      state.setKey index record.bKeyDown else state).pendingEvent = none := by
    split_ifs <;> exact hdrained
  have hpos : 1 ≤ nativeRepeat record := by
    rw [nativeRepeat_eq]
    exact Nat.le_max_left ..
  unfold makeEvent
  simp only [htrack]
  refine ⟨_, rfl, rfl, fun hdown htracked => ?_, fun hdown => ?_, fun later hlater => ?_, ?_, ?_⟩
  · simp only [hdown, htracked, Bool.true_and, if_true, indexOf]
    exact apply_ite Prod.fst ..
  · rw [← nativeRepeat_eq]
    simp only [hdown, if_true, Bool.true_and]
    split_ifs <;> simp_all [DecoderState.setKey] <;> omega
  · split at hlater
    · rw [← Option.mem_some_iff.1 hlater]
    · rw [hkept] at hlater
      cases hlater
  · simp only [note, DecoderState.setKey, indexOf]
    split_ifs <;> rfl
  · split_ifs <;> rfl

/-! ## Runs -/

/-- The record that the event of a step is about: the first of a surrogate pair, otherwise the
record of the step. -/
def described (state : DecoderState) (record : KeyRecord) : KeyRecord :=
  if state.pendingHighSurrogate = 0 then record else state.pendingHighSurrogateRecord

/-- The calls before the record that the event of the next step is about. -/
def earlier (state : DecoderState) (calls : List DecoderCall) : List DecoderCall :=
  if state.pendingHighSurrogate = 0 then calls else calls.dropLast

section
variable (mapVirtualKey)

/-- The codes of tracked keys are Win32 codes, of one byte. -/
def ByteCode (record : KeyRecord) : Prop :=
  trackedCode record.wVirtualKeyCode = true → record.wVirtualKeyCode < 256

instance (record : KeyRecord) : Decidable (ByteCode record) :=
  inferInstanceAs (Decidable (_ → _))

/-- The records that the step passes over leave the keys as the decoder has them: an ignored record,
the record behind the low surrogate of a pair, both records of a pair that fails. -/
def Seen (state : DecoderState) (record : KeyRecord) : Prop :=
  ByteCode record ∧
    if state.pendingHighSurrogate = 0 then
      speaks record = false → isHighSurrogate record.unicodeChar = false →
        note mapVirtualKey state.keyDown record = state.keyDown
    else
      let paired := note mapVirtualKey state.keyDown state.pendingHighSurrogateRecord
      note mapVirtualKey paired record =
        if isLowSurrogate record.unicodeChar then paired else state.keyDown

/-- A record that makes its own event is seen. -/
theorem Seen.of_speaks {state : DecoderState} {record : KeyRecord} (hbyte : ByteCode record)
    (hidle : state.pendingHighSurrogate = 0) (hspeaks : speaks record = true) :
    Seen mapVirtualKey state record := by
  refine ⟨hbyte, ?_⟩
  rw [if_pos hidle]
  intro hsilent
  rw [hspeaks] at hsilent
  cases hsilent

/-- Every record of the calls is seen. -/
def Followed (calls : List DecoderCall) : Prop :=
  ∀ before record rest, calls = before ++ .record record :: rest →
    Seen mapVirtualKey (after mapVirtualKey before) record

/-- What the events of a record report, after the calls before it. -/
structure Reports (calls : List DecoderCall) (record : KeyRecord) : Prop where
  phase : ∀ event,
    (feed mapVirtualKey record (after mapVirtualKey calls)).1.event = some event →
    (described (after mapVirtualKey calls) record).bKeyDown = true →
    trackedCode (described (after mapVirtualKey calls) record).wVirtualKeyCode = true →
    let held := Held mapVirtualKey (earlier (after mapVirtualKey calls) calls)
      (keyOf mapVirtualKey (described (after mapVirtualKey calls) record))
    (event.action = .press ↔ ¬ held) ∧ (event.action = .repeated ↔ held)
  count : (feed mapVirtualKey record (after mapVirtualKey calls)).1.event.isSome = true →
    (described (after mapVirtualKey calls) record).bKeyDown = true →
    ((feed mapVirtualKey record (after mapVirtualKey calls)).2.1.map KeyEvent.repeatCount).sum =
      max 1 (described (after mapVirtualKey calls) record).wRepeatCount.toNat
  scalar : ∀ event ∈ (feed mapVirtualKey record (after mapVirtualKey calls)).2.1, event.key.Clean

end

/-- The decoder tracks the keys that the calls leave down; behind the first half of a pair it is one
record late. -/
structure Tracks (mapVirtualKey : VirtualKey → Nat) (calls : List DecoderCall)
    (state : DecoderState) : Prop where
  drained : state.pendingEvent = none
  idle : state.pendingHighSurrogate = 0 → state.keyDown = downAfter mapVirtualKey calls
  pending : state.pendingHighSurrogate ≠ 0 →
    isHighSurrogate state.pendingHighSurrogate = true ∧
    ByteCode state.pendingHighSurrogateRecord ∧
    ∃ before, calls = before ++ [.record state.pendingHighSurrogateRecord] ∧
      state.keyDown = downAfter mapVirtualKey before

/-- An event made from the keys that the earlier calls left down reports them. -/
theorem Reports.of_made {calls : List DecoderCall} {record : KeyRecord} {key : EventKey}
    {state : DecoderState} (hclean : key.Clean) (hdrained : state.pendingEvent = none)
    (hdown : state.keyDown =
      downAfter mapVirtualKey (earlier (after mapVirtualKey calls) calls))
    (hbyte : ByteCode (described (after mapVirtualKey calls) record))
    (h : decodeKeyRecord mapVirtualKey record (after mapVirtualKey calls) =
      makeEvent mapVirtualKey key (described (after mapVirtualKey calls) record) state) :
    Reports mapVirtualKey calls record := by
  obtain ⟨event, hmade⟩ := makeEvent_made mapVirtualKey key hdrained hbyte
  rw [← h] at hmade
  refine ⟨fun found hfound hpress htracked => ?_, fun _ hpress => ?_, fun found hfound => ?_⟩
  · have hphase := hmade.phase hpress htracked
    rw [hdown] at hphase
    rw [← Option.some.inj (hmade.made.symm.trans hfound), hphase, keyOf,
      ← downAfter_iff_held htracked, indexOf]
    split_ifs with hheld <;> simp [hheld]
  · have hcount := hmade.count hpress
    simpa [feed, takePendingEvent, hmade.made] using hcount
  · simp only [feed, takePendingEvent, hmade.made, Option.toList_some, List.singleton_append,
      List.mem_cons] at hfound
    rcases hfound with rfl | hfound
    · rw [hmade.named]
      exact hclean
    · rw [hmade.left found (Option.mem_toList.1 hfound)]
      exact hclean

/-- A record without an event reports nothing. -/
theorem Reports.of_silent {calls : List DecoderCall} {record : KeyRecord}
    (hevent : (decodeKeyRecord mapVirtualKey record (after mapVirtualKey calls)).1.event = none)
    (hdrained : (decodeKeyRecord mapVirtualKey record (after mapVirtualKey calls)).2.pendingEvent =
      none) : Reports mapVirtualKey calls record := by
  refine ⟨fun event h => ?_, fun h => ?_, fun event h => ?_⟩
  · rw [feed, hevent] at h
    cases h
  · rw [feed, hevent] at h
    cases h
  · simp [feed, takePendingEvent, hevent, hdrained] at h

/-- **One record.** A record that is seen is reported, and the decoder keeps tracking. -/
theorem Tracks.record {calls : List DecoderCall} {record : KeyRecord}
    (htracks : Tracks mapVirtualKey calls (after mapVirtualKey calls))
    (hseen : Seen mapVirtualKey (after mapVirtualKey calls) record) :
    Reports mapVirtualKey calls record ∧
      Tracks mapVirtualKey (calls ++ [.record record])
        (step mapVirtualKey (after mapVirtualKey calls) (.record record)) := by
  obtain ⟨hbyte, hseen⟩ := hseen
  have hdrained := htracks.drained
  by_cases hidle : (after mapVirtualKey calls).pendingHighSurrogate = 0
  · have hdown := htracks.idle hidle
    have hdescribed : described (after mapVirtualKey calls) record = record := if_pos hidle
    have hearlier : earlier (after mapVirtualKey calls) calls = calls := if_pos hidle
    rw [if_pos hidle] at hseen
    obtain ⟨-, key, hclean, hmake⟩ | ⟨-, hhigh, hstart⟩ | ⟨hsilent, hhigh, hevent, hsame⟩ :=
      decodeKeyRecord_idle mapVirtualKey record hidle
    · obtain ⟨event, hmade⟩ := makeEvent_made mapVirtualKey key hdrained hbyte
      refine ⟨.of_made hclean hdrained ?_ ?_ ?_, rfl, fun _ => ?_, fun h => ?_⟩
      · rw [hearlier, hdown]
      · rwa [hdescribed]
      · rw [hdescribed, hmake]
      · rw [downAfter_append_singleton, ← hdown]
        simp only [step, feed, takePendingEvent, hmake, hmade.down, noteCall]
      · simp only [step, feed, takePendingEvent, hmake, hmade.surrogate] at h
        exact absurd hidle h
    · refine ⟨.of_silent ?_ ?_, rfl, fun h => ?_, fun _ => ⟨?_, ?_, calls, ?_, ?_⟩⟩
      · rw [hstart]
      · rw [hstart]
        exact hdrained
      · simp only [step, feed, takePendingEvent, hstart] at h
        rw [h] at hhigh
        exact absurd hhigh (by decide)
      · simpa only [step, feed, takePendingEvent, hstart] using hhigh
      · simpa only [step, feed, takePendingEvent, hstart] using hbyte
      · simp only [step, feed, takePendingEvent, hstart]
      · simpa only [step, feed, takePendingEvent, hstart] using hdown
    · refine ⟨.of_silent hevent ?_, rfl, fun _ => ?_, fun h => ?_⟩
      · rw [hsame]
        exact hdrained
      · rw [downAfter_append_singleton, ← hdown, noteCall, hseen hsilent hhigh]
        simp only [step, feed, takePendingEvent, hsame]
      · simp only [step, feed, takePendingEvent, hsame] at h
        exact absurd hidle h
  · obtain ⟨hhigh, hfirst, before, hcalls, hdown⟩ := htracks.pending hidle
    have hdescribed : described (after mapVirtualKey calls) record =
      (after mapVirtualKey calls).pendingHighSurrogateRecord := if_neg hidle
    have hearlier : earlier (after mapVirtualKey calls) calls = before := by
      rw [earlier, if_neg hidle, hcalls, List.dropLast_concat]
    have hpaired : downAfter mapVirtualKey calls = note mapVirtualKey
        (after mapVirtualKey calls).keyDown
        (after mapVirtualKey calls).pendingHighSurrogateRecord := by
      rw [hdown]
      conv_lhs => rw [hcalls, downAfter_append_singleton, noteCall]
    rw [if_neg hidle] at hseen
    obtain ⟨hlow, key, hclean, hmake⟩ | ⟨hlow, hevent, hsame⟩ :=
      decodeKeyRecord_pending mapVirtualKey record hhigh
    · have hdropped : (after mapVirtualKey calls).dropSurrogate.pendingEvent = none := hdrained
      obtain ⟨event, hmade⟩ := makeEvent_made mapVirtualKey key hdropped hfirst
      have hkept : (after mapVirtualKey calls).dropSurrogate.keyDown = downAfter mapVirtualKey
          (earlier (after mapVirtualKey calls) calls) := by
        rw [hearlier]
        exact hdown
      refine ⟨.of_made hclean hdropped hkept ?_ ?_, rfl, fun _ => ?_, fun h => ?_⟩
      · rwa [hdescribed]
      · rw [hdescribed, hmake]
      · rw [downAfter_append_singleton, hpaired, noteCall, hseen, if_pos hlow]
        simp only [step, feed, takePendingEvent, hmake, hmade.down]
        rfl
      · simp only [step, feed, takePendingEvent, hmake, hmade.surrogate] at h
        exact absurd rfl h
    · refine ⟨.of_silent hevent ?_, rfl, fun _ => ?_, fun h => ?_⟩
      · rw [hsame]
        exact hdrained
      · rw [downAfter_append_singleton, hpaired, noteCall, hseen, if_neg (by simp [hlow])]
        simp only [step, feed, takePendingEvent, hsame, DecoderState.dropSurrogate]
      · simp only [step, feed, takePendingEvent, hsame, DecoderState.dropSurrogate] at h
        exact absurd rfl h

/-- A clear forgets the keys. -/
theorem Tracks.clear (calls : List DecoderCall) (state : DecoderState) :
    Tracks mapVirtualKey (calls ++ [.clear]) (step mapVirtualKey state .clear) where
  drained := rfl
  idle := fun _ => by
    rw [downAfter_append_singleton]
    rfl
  pending := fun h => absurd rfl h

theorem followed_nil : Followed mapVirtualKey [] := fun _ _ _ h => by simp at h

theorem followed_append_singleton {calls : List DecoderCall} {call : DecoderCall} :
    Followed mapVirtualKey (calls ++ [call]) ↔
      Followed mapVirtualKey calls ∧
        ∀ record, call = .record record → Seen mapVirtualKey (after mapVirtualKey calls) record := by
  refine ⟨fun h => ⟨fun before record rest hbefore => ?_, fun record hcall => ?_⟩,
    fun ⟨hcalls, hlast⟩ before record rest h => ?_⟩
  · exact h before record (rest ++ [call]) (by rw [hbefore, List.append_assoc, List.cons_append])
  · exact h calls record [] (by rw [hcall])
  · rcases List.eq_nil_or_concat rest with rfl | ⟨rest, last, rfl⟩
    · obtain ⟨rfl, hcall⟩ := List.append_inj' h rfl
      exact hlast record (List.cons.inj hcall).1
    · rw [List.concat_eq_append, ← List.cons_append, ← List.append_assoc] at h
      exact hcalls before record rest (List.append_inj' h rfl).1

/-- Along a run that is followed the decoder tracks the keys. -/
theorem Followed.tracks {calls : List DecoderCall} (h : Followed mapVirtualKey calls) :
    Tracks mapVirtualKey calls (after mapVirtualKey calls) := by
  induction calls using List.reverseRecOn with
  | nil => exact ⟨rfl, fun _ => rfl, fun h => absurd rfl h⟩
  | append_singleton calls call ih =>
    rw [after_append_singleton]
    obtain ⟨hcalls, hlast⟩ := followed_append_singleton.1 h
    cases call with
    | record record => exact ((ih hcalls).record (hlast record rfl)).2
    | clear => exact .clear ..

/-- **Press, repeat and release.** Along a run whose records are all seen, every record is
reported. -/
theorem feed_reports (mapVirtualKey : VirtualKey → Nat) (calls : List DecoderCall)
    (hfollowed : Followed mapVirtualKey calls) (before : List DecoderCall) (record : KeyRecord)
    (rest : List DecoderCall) (hcalls : calls = before ++ .record record :: rest) :
    Reports mapVirtualKey before record := by
  induction rest using List.reverseRecOn generalizing calls with
  | nil =>
    subst hcalls
    obtain ⟨hbefore, hlast⟩ := followed_append_singleton.1 hfollowed
    exact (hbefore.tracks.record (hlast record rfl)).1
  | append_singleton rest last ih =>
    rw [← List.cons_append, ← List.append_assoc] at hcalls
    subst hcalls
    exact ih _ (followed_append_singleton.1 hfollowed).1 rfl

/-- A letter pressed with its repeats, released and pressed again. -/
theorem feed_reports_letter :
    let down : KeyRecord :=
      { bKeyDown := true, wRepeatCount := 3, wVirtualKeyCode := 0x41, unicodeChar := 0x61 }
    Reports (fun _ => 0) [.record down, .record { down with bKeyDown := false }] down := by
  intro down
  have hfirst : Followed (fun _ => 0) ([] ++ [.record down]) :=
    followed_append_singleton.2 ⟨followed_nil, fun _ h => by
      cases h
      exact .of_speaks _ (by decide +kernel) (by decide +kernel) (by decide +kernel)⟩
  have hup : Followed (fun _ => 0) ([.record down] ++ [.record { down with bKeyDown := false }]) :=
    followed_append_singleton.2 ⟨hfirst, fun _ h => by
      cases h
      exact .of_speaks _ (by decide +kernel) (by decide +kernel) (by decide +kernel)⟩
  have hagain : Followed (fun _ => 0)
      ([.record down, .record { down with bKeyDown := false }] ++ [.record down]) :=
    followed_append_singleton.2 ⟨hup, fun _ h => by
      cases h
      exact .of_speaks _ (by decide +kernel) (by decide +kernel) (by decide +kernel)⟩
  exact feed_reports (fun _ => 0) _ hagain _ down [] rfl

/-- The release of a key whose record carries no character, as of a digit under Ctrl, is ignored
and its key stays down: the next press is reported as a repeat. -/
theorem feed_reports_fails :
    let down : KeyRecord :=
      { bKeyDown := true, wRepeatCount := 1, wVirtualKeyCode := 0x32, unicodeChar := 0x32 }
    let up : KeyRecord :=
      { wRepeatCount := 1, wVirtualKeyCode := 0x32, dwControlKeyState := LEFT_CTRL_PRESSED }
    ¬ Reports (fun _ => 0) [.record down, .record up] down := by
  intro down up h
  have hevent : (feed (fun _ => 0) down (after (fun _ => 0) [.record down, .record up])).1.event =
      some { key := .character 0x32, action := .repeated, location := .standard } := by
    decide +kernel
  have htracked : trackedCode (described (after (fun _ => 0) [.record down, .record up])
      down).wVirtualKeyCode = true := by decide +kernel
  have hrepeat := (h.phase _ hevent (by decide +kernel) htracked).2.1 rfl
  have hdown := (downAfter_iff_held htracked).2 hrepeat
  exact absurd hdown (by decide +kernel)

end Win32Events

end Terminal

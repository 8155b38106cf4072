import GameWIP.Io.Transfer

/-!
# Whole-stream writes account for what the writer accepted

`recordedWriter W` is the writer `W` with a log of its write calls. `Progress` is the state of the
loop of `writeAllBytes` between two calls: every call so far was offered the bytes not accepted
before it and accepted some of them. `writeAllFrom_spec` carries it through the loop, and the
result says what was accepted in order (`writeAllBytes_spec`).
-/

namespace Io

variable {ω : Type}

/-- One write call: the bytes offered and the answer. -/
structure Offer where
  bytes : List UInt8
  result : WriteResult

/-- The bytes a call accepted; an impossible count accepts none. -/
def Offer.accepted (o : Offer) : List UInt8 :=
  if o.result.bytesWritten > o.bytes.length then [] else o.bytes.take o.result.bytesWritten

/-- The bytes accepted by a run of calls, in order. -/
def acceptedBytes (log : List Offer) : List UInt8 := log.flatMap Offer.accepted

/-- A writer that keeps a log of its write calls. -/
def recordedWriter (W : Writer ω) : Writer (ω × List Offer) where
  write s bytes :=
    let answer := W.write s.1 bytes
    (answer.1, answer.2, s.2 ++ [⟨bytes, answer.1⟩])

@[simp] theorem recordedWriter_write (W : Writer ω) (s : ω) (L : List Offer) (bytes : List UInt8) :
    (recordedWriter W).write (s, L) bytes =
      ((W.write s bytes).1, (W.write s bytes).2, L ++ [⟨bytes, (W.write s bytes).1⟩]) :=
  rfl

@[simp] theorem acceptedBytes_nil : acceptedBytes [] = [] := rfl

@[simp] theorem acceptedBytes_append (L M : List Offer) :
    acceptedBytes (L ++ M) = acceptedBytes L ++ acceptedBytes M := List.flatMap_append

@[simp] theorem acceptedBytes_singleton (o : Offer) : acceptedBytes [o] = o.accepted := by
  simp [acceptedBytes]

theorem Offer.accepted_prefix (o : Offer) : o.accepted <+: o.bytes := by
  unfold Offer.accepted
  split_ifs
  · exact List.nil_prefix
  · exact List.take_prefix _ _

theorem Offer.accepted_impossible {o : Offer} (h : o.result.bytesWritten > o.bytes.length) :
    o.accepted = [] := if_pos h

theorem Offer.accepted_possible {o : Offer} (h : ¬ o.result.bytesWritten > o.bytes.length) :
    o.accepted = o.bytes.take o.result.bytesWritten := if_neg h

/-! ## A recorded write is a write -/

theorem writeAllFrom_nil (W : Writer ω) (total : Nat) (s : ω) :
    writeAllFrom W [] total s = ({ status := successStatus, bytesWritten := total }, s) := by
  rw [writeAllFrom]
  rfl

/-- One round of the loop. -/
theorem writeAllFrom_eq (W : Writer ω) {bytes : List UInt8} {total : Nat} {s s' : ω}
    {result : WriteResult} (hne : bytes ≠ []) (hw : W.write s bytes = (result, s')) :
    writeAllFrom W bytes total s =
      if result.bytesWritten > bytes.length then
        ({ status := makeStatus .writeFailed, bytesWritten := total }, s')
      else if !result.status.ok then
        ({ status := result.status, bytesWritten := total + result.bytesWritten }, s')
      else if result.bytesWritten == 0 then
        ({ status := makeStatus .writeFailed, bytesWritten := total + result.bytesWritten }, s')
      else
        writeAllFrom W (bytes.drop result.bytesWritten) (total + result.bytesWritten) s' := by
  rw [writeAllFrom, dif_pos (by simpa using hne)]
  simp only [hw, dite_eq_ite]

theorem recordedWriter_writeAllFrom (W : Writer ω) (bytes : List UInt8) (total : Nat) (s : ω)
    (L : List Offer) :
    writeAllFrom W bytes total s =
      ((writeAllFrom (recordedWriter W) bytes total (s, L)).1,
        (writeAllFrom (recordedWriter W) bytes total (s, L)).2.1) := by
  induction hn : bytes.length using Nat.strongRecOn generalizing bytes total s L with
  | _ n ih =>
    by_cases hne : bytes = []
    · simp [hne, writeAllFrom_nil]
    rcases hw : W.write s bytes with ⟨result, s'⟩
    rw [writeAllFrom_eq W hne hw,
      writeAllFrom_eq (recordedWriter W) hne (by rw [recordedWriter_write, hw])]
    split_ifs with hover hok hz <;> first | rfl | skip
    have hlt : (bytes.drop result.bytesWritten).length < n := by
      have hpos := List.length_pos_iff.2 hne
      rw [List.length_drop]
      rw [beq_iff_eq] at hz
      omega
    exact ih _ hlt _ _ _ _ rfl

/-! ## The loop -/

/-- Between two calls of the loop over `input`: `bytes` are the ones not accepted yet. -/
structure Progress (input : List UInt8) (L : List Offer) (bytes : List UInt8) : Prop where
  /-- The accepted bytes and the ones still to be offered make up the input. -/
  split : acceptedBytes L ++ bytes = input
  /-- Each call was offered what the calls before it had left, and that was not empty. -/
  offers : ∀ i o, L[i]? = some o → o.bytes ≠ [] ∧ acceptedBytes (L.take i) ++ o.bytes = input
  /-- Each call succeeded. -/
  succeeded : ∀ o ∈ L, o.result.status.ok = true
  /-- Each call accepted at least one byte. -/
  calls : L.length ≤ (acceptedBytes L).length

/-- What a whole write of `input` guarantees, with the log of its calls. -/
structure WritesAll (input : List UInt8) (result : WriteResult) (log : List Offer) : Prop where
  offers : ∀ i o, log[i]? = some o →
    o.bytes ≠ [] ∧ o.bytes = input.drop (acceptedBytes (log.take i)).length
  accepted : acceptedBytes log = input.take result.bytesWritten
  bytesWritten : result.bytesWritten = (acceptedBytes log).length
  success : result.status.ok = true ↔
    acceptedBytes log = input ∧ ∀ o ∈ log, o.result.status.ok = true
  calls : log.length ≤ input.length

theorem Progress.initial (input : List UInt8) : Progress input [] input where
  split := rfl
  offers _ _ h := nomatch h
  succeeded _ h := nomatch h
  calls := Nat.zero_le _

/-- The call that is made next is offered the remaining bytes. -/
theorem Progress.offers_snoc {input bytes : List UInt8} {L : List Offer}
    (h : Progress input L bytes) (hne : bytes ≠ []) (answer : WriteResult) :
    ∀ i (p : Offer), (L ++ [(⟨bytes, answer⟩ : Offer)])[i]? = some p →
      p.bytes ≠ [] ∧ acceptedBytes (List.take i (L ++ [⟨bytes, answer⟩])) ++ p.bytes = input := by
  intro i p hp
  rw [List.getElem?_append] at hp
  split_ifs at hp with hi
  · rw [List.take_append_of_le_length (Nat.le_of_lt hi)]
    exact h.offers i p hp
  · rw [List.getElem?_singleton] at hp
    split_ifs at hp with hi'
    cases hp
    rw [List.take_append, List.take_of_length_le (by omega), hi', List.take_zero, List.append_nil]
    exact ⟨hne, h.split⟩

/-- A call that succeeds with progress keeps the loop going. -/
theorem Progress.step {input bytes : List UInt8} {L : List Offer} (h : Progress input L bytes)
    {result : WriteResult} (hle : ¬ result.bytesWritten > bytes.length)
    (hne : bytes ≠ []) (hok : result.status.ok = true) (hpos : 0 < result.bytesWritten) :
    Progress input (L ++ [⟨bytes, result⟩]) (bytes.drop result.bytesWritten) := by
  have hacc : (⟨bytes, result⟩ : Offer).accepted = bytes.take result.bytesWritten :=
    Offer.accepted_possible hle
  constructor
  · rw [acceptedBytes_append, acceptedBytes_singleton, hacc, List.append_assoc,
      List.take_append_drop]
    exact h.split
  · exact h.offers_snoc hne result
  · intro o ho
    rw [List.mem_append, List.mem_singleton] at ho
    rcases ho with ho | rfl
    · exact h.succeeded o ho
    · exact hok
  · have hcalls := h.calls
    have hlen := List.length_pos_iff.2 hne
    simp only [acceptedBytes_append, acceptedBytes_singleton, hacc, List.length_append,
      List.length_take, List.length_singleton]
    omega

/-- A log that is offered suffixes of the input accepts a prefix of it. -/
theorem WritesAll.of_offers {input rest : List UInt8} {log : List Offer} {result : WriteResult}
    (hoffers : ∀ i o, log[i]? = some o →
      o.bytes ≠ [] ∧ acceptedBytes (log.take i) ++ o.bytes = input)
    (hsplit : acceptedBytes log ++ rest = input)
    (hwritten : result.bytesWritten = (acceptedBytes log).length)
    (hsuccess : result.status.ok = true ↔
      acceptedBytes log = input ∧ ∀ o ∈ log, o.result.status.ok = true)
    (hcalls : log.length ≤ input.length) : WritesAll input result log where
  offers i o ho := by
    obtain ⟨hne, heq⟩ := hoffers i o ho
    exact ⟨hne, by rw [← heq, List.drop_left]⟩
  accepted := by rw [hwritten, ← hsplit, List.take_left]
  bytesWritten := hwritten
  success := hsuccess
  calls := hcalls

/-- The loop ends when nothing remains. -/
theorem Progress.done {input : List UInt8} {L : List Offer} (h : Progress input L []) :
    WritesAll input { status := successStatus, bytesWritten := (acceptedBytes L).length } L := by
  have hall : acceptedBytes L = input := by simpa using h.split
  refine .of_offers h.offers h.split rfl ?_ (hall ▸ h.calls)
  exact ⟨fun _ => ⟨hall, h.succeeded⟩, fun _ => rfl⟩

/-- A call ends the loop with a failure, unless the writer reports success and progress. -/
theorem Progress.stop {input bytes : List UInt8} {L : List Offer} (h : Progress input L bytes)
    {answer result : WriteResult} (hne : bytes ≠ [])
    (hwritten : result.bytesWritten =
      (acceptedBytes L).length + (⟨bytes, answer⟩ : Offer).accepted.length)
    (hfailed : result.status.ok = false)
    (hnone : answer.status.ok = true → (⟨bytes, answer⟩ : Offer).accepted = []) :
    WritesAll input result (L ++ [⟨bytes, answer⟩]) := by
  have hsplit := h.split
  have hpos := List.length_pos_iff.2 hne
  obtain ⟨rest, hrest⟩ := Offer.accepted_prefix ⟨bytes, answer⟩
  have hsplit' : acceptedBytes (L ++ [⟨bytes, answer⟩]) ++ rest = input := by
    have hbytes : (⟨bytes, answer⟩ : Offer).accepted ++ rest = bytes := hrest
    rw [acceptedBytes_append, acceptedBytes_singleton, List.append_assoc, hbytes, hsplit]
  refine .of_offers (h.offers_snoc hne answer) hsplit' (by simp [hwritten]) ?_ ?_
  · -- a successful answer accepted nothing, so that the remaining bytes are missing
    refine iff_of_false (by simp [hfailed]) fun ⟨hall, hok⟩ => ?_
    have hempty := hnone (hok ⟨bytes, answer⟩ (by simp))
    have hlen := congrArg List.length (hall.trans hsplit.symm)
    simp only [acceptedBytes_append, acceptedBytes_singleton, hempty, List.append_nil,
      List.length_append] at hlen
    omega
  · have hcalls := h.calls
    have hlen := congrArg List.length hsplit
    rw [List.length_append] at hlen
    rw [List.length_append, List.length_singleton]
    omega

/-- The loop, from any of its states, ends with the account of the whole input. -/
theorem writeAllFrom_spec (W : Writer ω) (input bytes : List UInt8) (s : ω) (L : List Offer)
    (h : Progress input L bytes) :
    let run := writeAllFrom (recordedWriter W) bytes (acceptedBytes L).length (s, L)
    WritesAll input run.1 run.2.2 := by
  induction hn : bytes.length using Nat.strongRecOn generalizing bytes s L with
  | _ n ih =>
    by_cases hne : bytes = []
    · subst hne
      rw [writeAllFrom_nil]
      exact h.done
    rcases hw : W.write s bytes with ⟨answer, s'⟩
    have hrec : (recordedWriter W).write (s, L) bytes =
        (answer, s', L ++ [⟨bytes, answer⟩]) := by
      rw [recordedWriter_write, hw]
    rw [writeAllFrom_eq _ hne hrec]
    by_cases hover : answer.bytesWritten > bytes.length
    · have hacc := Offer.accepted_impossible (o := ⟨bytes, answer⟩) hover
      rw [if_pos hover]
      exact h.stop hne (by simp [hacc]) rfl fun _ => hacc
    have hacc : (⟨bytes, answer⟩ : Offer).accepted = bytes.take answer.bytesWritten :=
      Offer.accepted_possible hover
    have hcount : (⟨bytes, answer⟩ : Offer).accepted.length = answer.bytesWritten := by
      rw [hacc, List.length_take_of_le (Nat.not_lt.1 hover)]
    rw [if_neg hover]
    split_ifs with hok hz
    · refine h.stop hne (by rw [hcount]) (by simpa using hok) fun hok' => ?_
      simp [hok'] at hok
    · rw [beq_iff_eq] at hz
      refine h.stop hne (by rw [hcount]) rfl fun _ => ?_
      simpa [hz] using hcount
    · rw [beq_iff_eq] at hz
      have hstep := h.step hover hne (by simpa using hok) (Nat.pos_of_ne_zero hz)
      have hlt : (bytes.drop answer.bytesWritten).length < n := by
        have hlen := List.length_pos_iff.2 hne
        rw [List.length_drop]
        omega
      have hrun := ih _ hlt _ s' _ hstep rfl
      simpa [hcount] using hrun

/-- **The write rule.** `P` relates the bytes not accepted yet to the writer between two calls; a call
that succeeds keeps it for what it left over, and every call keeps `Q`. -/
theorem writeAllFrom_rule (W : Writer ω) {P : List UInt8 → ω → Prop} {Q : ω → Prop}
    (hweak : ∀ {bytes s}, P bytes s → Q s)
    (hcall : ∀ {bytes s}, P bytes s → Q (W.write s bytes).2 ∧
      ((W.write s bytes).1.status.ok = true →
        (W.write s bytes).1.bytesWritten ≤ bytes.length →
          P (bytes.drop (W.write s bytes).1.bytesWritten) (W.write s bytes).2))
    (total : Nat) {bytes : List UInt8} {s : ω} (h : P bytes s) :
    Q (writeAllFrom W bytes total s).2 ∧
      ((writeAllFrom W bytes total s).1.status.ok = true →
        P [] (writeAllFrom W bytes total s).2) := by
  induction hn : bytes.length using Nat.strongRecOn generalizing bytes total s with
  | _ n ih =>
    by_cases hne : bytes = []
    · subst hne
      rw [writeAllFrom_nil]
      exact ⟨hweak h, fun _ => h⟩
    obtain ⟨hQ, hP⟩ := hcall h
    rw [writeAllFrom_eq W hne rfl]
    split_ifs with hover hok hz
    · exact ⟨hQ, fun hok => by simp at hok⟩
    · exact ⟨hQ, fun h => by simp [h] at hok⟩
    · exact ⟨hQ, fun hok => by simp at hok⟩
    · have hwritten : (W.write s bytes).1.bytesWritten ≠ 0 := by simpa using hz
      have hlt : (bytes.drop (W.write s bytes).1.bytesWritten).length < n := by
        have hpos := List.length_pos_iff.2 hne
        rw [List.length_drop, ← hn]
        exact Nat.sub_lt hpos (Nat.pos_of_ne_zero hwritten)
      exact ih _ hlt _ (hP (by simpa using hok) (Nat.not_lt.1 hover)) rfl

/-- **Whole-stream writes.** Whatever the writer answers, `writeAllBytes` offers it the rest of the
input call by call, counts what it accepted, and succeeds exactly when it accepted everything
without a failure. -/
theorem writeAllBytes_spec (W : Writer ω) (s : ω) (input : List UInt8) :
    let run := writeAllBytes (recordedWriter W) (s, []) input
    writeAllBytes W s input = (run.1, run.2.1) ∧ WritesAll input run.1 run.2.2 :=
  ⟨recordedWriter_writeAllFrom W input 0 s [],
    writeAllFrom_spec W input input s [] (.initial input)⟩

end Io

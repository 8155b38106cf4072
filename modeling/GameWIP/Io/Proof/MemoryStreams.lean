import GameWIP.Io.MemoryStreams
import GameWIP.Lib.Trace

/-!
# What memory streams hold

A reader never stands behind the end of its source, a read delivers the next bytes of the source as they
were, however the destination overlaps it (`memoryReader_run`), and a seek goes where the offset says or
nowhere. A writer holds what was written to it, also where a write was of the writer's own bytes, and a
write that fails leaves it as it was (`memoryWriter_run`).
-/

namespace Io

open Lib (Copied Trace Transition)

/-! ## Readers -/

namespace MemoryReader

variable {r : MemoryReader} {memory : Memory} {destination : Span}

/-- The bytes that a read delivers. -/
def count (r : MemoryReader) (destination : Span) : Nat :=
  min destination.size (r.bytes.size - r.position)

/-- What a read of an open reader does: the destination holds the next bytes of the source as they were
before. -/
structure ReadsNext (r : MemoryReader) (memory : Memory) (destination : Span)
    (answer : ReadResult × Memory × MemoryReader) : Prop where
  result : answer.1 =
    { bytesRead := r.count destination
      endOfStream := r.position + r.count destination = r.bytes.size }
  copied : Copied memory answer.2.1 (r.bytes.data + r.position) destination.data
    (r.count destination)
  reader : answer.2.2 = { r with position := r.position + r.count destination }

theorem read_closed (h : r.isOpen = false) :
    r.read memory destination = ({ status := makeStatus .notOpen }, memory, r) := by
  rw [read, h]
  rfl

theorem copied_nothing (memory : Memory) (s t : Nat) : Copied memory memory s t 0 :=
  ⟨fun i hi => absurd hi (Nat.not_lt_zero i), fun _ _ => rfl⟩

theorem read_open (memory : Memory) (destination : Span) (hopen : r.isOpen = true)
    (h : r.position ≤ r.bytes.size) : ReadsNext r memory destination
      (r.read memory destination) := by
  have hnothing : r.count destination = 0 →
      ReadsNext r memory destination
        ({ endOfStream := r.position ≥ r.bytes.size }, memory, r) := by
    intro hzero
    refine ⟨?_, ?_, ?_⟩
    · rw [hzero, Nat.add_zero, ReadResult.mk.injEq]
      exact ⟨rfl, rfl, decide_eq_decide.2 ⟨fun hge => Nat.le_antisymm h hge, Nat.le_of_eq ∘ Eq.symm⟩⟩
    · rw [hzero]
      exact copied_nothing ..
    · rw [hzero, Nat.add_zero]
  have hclosed : ¬((!r.isOpen) = true) := by simp [hopen]
  rw [read, if_neg hclosed, if_neg (Nat.not_lt.2 h)]
  by_cases hempty : destination.size = 0
  · rw [if_pos hempty]
    exact hnothing (by rw [count, hempty, Nat.zero_min])
  rw [if_neg hempty]
  by_cases hend : r.position ≥ r.bytes.size
  · rw [if_pos hend]
    have hall := hnothing (by rw [count, Nat.sub_eq_zero_of_le hend, Nat.min_zero])
    rw [decide_eq_true hend] at hall
    exact hall
  rw [if_neg hend]
  refine ⟨rfl, ?_, rfl⟩
  -- the direction of the copy is chosen so that no byte is overwritten before it is read
  simp only [count, Bool.and_eq_true, decide_eq_true_eq]
  split_ifs with hoverlap
  · exact Lib.copyBackward_copied fun hbefore => Nat.lt_asymm hbefore.1 hoverlap.1
  · exact Lib.copyForward_copied hoverlap

/-- The base of a seek as a number. -/
def base (r : MemoryReader) : SeekOrigin → Option Nat
  | .begin => some 0
  | .current => some r.position
  | .end => some r.bytes.size
  | .other _ => none

/-- What a seek of an open reader does: no sum overflows. -/
def seekTo (r : MemoryReader) (offset : Int) (origin : SeekOrigin) : Status × MemoryReader :=
  match r.base origin with
  | none => (makeStatus .invalidArgument, r)
  | some base =>
    if 0 ≤ base + offset ∧ base + offset ≤ r.bytes.size then
      (successStatus, { r with position := (base + offset).toNat })
    else (makeStatus .seekFailed, r)

theorem seekBase_eq (origin : SeekOrigin) :
    r.seekBase (.ofNat r.bytes.size) origin = (r.base origin).map Int64.ofNat := by
  cases origin <;> rfl

theorem base_le (h : r.position ≤ r.bytes.size) {origin : SeekOrigin} {base : Nat}
    (hbase : r.base origin = some base) : base ≤ r.bytes.size := by
  cases origin with
  | begin => exact Option.some.inj hbase ▸ Nat.zero_le _
  | current => exact Option.some.inj hbase ▸ h
  | «end» => exact Option.some.inj hbase ▸ Nat.le_refl _
  | other => cases hbase

theorem seek_open (hopen : r.isOpen = true) (h : r.position ≤ r.bytes.size)
    (hsize : r.bytes.size ≤ 2 ^ 63 - 1) (offset : Int64) (origin : SeekOrigin) :
    r.seek offset origin = r.seekTo offset.toInt origin := by
  have hclosed : ¬((!r.isOpen) = true) := by simp [hopen]
  rw [seek, if_neg hclosed, if_neg (Nat.not_lt.2 hsize)]
  simp only [if_neg (Nat.not_lt.2 h)]
  rw [seekBase_eq, seekTo]
  cases hbase : r.base origin with
  | none => rfl
  | some base =>
    have hle := base_le h hbase
    have hlow := offset.le_toInt
    have hhigh := offset.toInt_lt
    have hbaseInt : (Int64.ofNat base).toInt = base := Int64.toInt_ofNat_of_lt (by omega)
    have hsizeInt : (Int64.ofNat r.bytes.size).toInt = r.bytes.size :=
      Int64.toInt_ofNat_of_lt (by omega)
    have hneg : (-Int64.ofNat base).toInt = -base := by
      rw [Int64.toInt_neg, hbaseInt, Int.bmod_eq_of_le (by omega) (by omega)]
    have hsub : (Int64.ofNat r.bytes.size - Int64.ofNat base).toInt = r.bytes.size - base := by
      rw [Int64.toInt_sub, hsizeInt, hbaseInt, Int.bmod_eq_of_le (by omega) (by omega)]
    have hcond : (offset < -Int64.ofNat base || offset > Int64.ofNat r.bytes.size - Int64.ofNat base) =
        true ↔ ¬(0 ≤ base + offset.toInt ∧ base + offset.toInt ≤ r.bytes.size) := by
      rw [Bool.or_eq_true, decide_eq_true_eq, decide_eq_true_eq, gt_iff_lt,
        Int64.lt_iff_toInt_lt, Int64.lt_iff_toInt_lt, hneg, hsub]
      omega
    simp only [Option.map_some]
    by_cases hfits : 0 ≤ base + offset.toInt ∧ base + offset.toInt ≤ r.bytes.size
    · rw [if_neg (fun hc => hcond.1 hc hfits), if_pos hfits]
      have hadd : (Int64.ofNat base + offset).toInt = base + offset.toInt := by
        rw [Int64.toInt_add, hbaseInt, Int.bmod_eq_of_le (by omega) (by omega)]
      rw [Int64.toNatClampNeg, hadd]
    · rw [if_pos (hcond.2 hfits), if_neg hfits]

/-! ### Runs -/

inductive Action where
  | read (memory : Memory) (destination : Span)
  | seek (offset : Int64) (origin : SeekOrigin)
  | close

def step (r : MemoryReader) : Action → Option MemoryReader
  | .read memory destination => some (r.read memory destination).2.2
  | .seek offset origin => some (r.seek offset origin).2
  | .close => some r.close.2

theorem position_le_step {r r' : MemoryReader} {a : Action} (h : step r a = some r')
    (hle : r.position ≤ r.bytes.size) : r'.bytes = r.bytes ∧ r'.position ≤ r.bytes.size := by
  cases a with
  | read memory destination =>
    obtain rfl := Option.some.inj h
    cases hopen : r.isOpen with
    | false =>
      rw [read_closed hopen]
      exact ⟨rfl, hle⟩
    | true =>
      rw [(read_open memory destination hopen hle).reader]
      refine ⟨rfl, ?_⟩
      show r.position + min destination.size (r.bytes.size - r.position) ≤ r.bytes.size
      omega
  | seek offset origin =>
    obtain rfl := Option.some.inj h
    cases hopen : r.isOpen with
    | false => simp [seek, hopen, hle]
    | true =>
      by_cases hsize : r.bytes.size ≤ 2 ^ 63 - 1
      · rw [seek_open hopen hle hsize, seekTo]
        split
        · exact ⟨rfl, hle⟩
        · rename_i base hbase
          split_ifs with hfits
          · refine ⟨rfl, ?_⟩
            show (base + offset.toInt).toNat ≤ r.bytes.size
            omega
          · exact ⟨rfl, hle⟩
      · have hclosed : ¬((!r.isOpen) = true) := by simp [hopen]
        rw [seek, if_neg hclosed, if_pos (Nat.lt_of_not_le hsize)]
        exact ⟨rfl, hle⟩
  | close =>
    obtain rfl := Option.some.inj h
    exact ⟨rfl, hle⟩

/-- **Reading memory.** In every state that reads, seeks and a close lead to, a reader stands within its
source; a read delivers the next bytes of it as they were before, wherever the destination is, and a
seek goes to the base with the offset if that is in the source, and nowhere otherwise. -/
theorem memoryReader_run {source : Span} {tr : List (Transition MemoryReader Action)}
    (h : Trace step { bytes := source } tr r) :
    r.bytes = source ∧ r.position ≤ source.size ∧
      (∀ memory destination, if r.isOpen = true then
          ReadsNext r memory destination (r.read memory destination)
        else r.read memory destination = ({ status := makeStatus .notOpen }, memory, r)) ∧
      ∀ offset origin, r.seek offset origin =
        if r.isOpen = false then (makeStatus .notOpen, r)
        else if 2 ^ 63 - 1 < source.size then (makeStatus .sizeLimitExceeded, r)
        else r.seekTo offset.toInt origin := by
  have hinv : r.bytes = source ∧ r.position ≤ source.size := by
    refine h.history (P := fun _ r => r.bytes = source ∧ r.position ≤ source.size)
      ⟨rfl, Nat.zero_le _⟩ fun tr x _ hx ih => ?_
    obtain ⟨hbytes, hle⟩ := ih
    obtain ⟨hbytes', hle'⟩ := position_le_step hx (hbytes ▸ hle)
    rw [hbytes] at hbytes' hle'
    exact ⟨hbytes', hle'⟩
  obtain ⟨hbytes, hle⟩ := hinv
  rw [← hbytes] at hle ⊢
  refine ⟨rfl, hle, fun memory destination => ?_, fun offset origin => ?_⟩
  · split_ifs with hopen
    · exact read_open memory destination hopen hle
    · exact read_closed (Bool.not_eq_true _ ▸ hopen)
  · split_ifs with hclosed hsize
    · rw [seek, hclosed]
      rfl
    · have hopen : ¬((!r.isOpen) = true) := by simpa using hclosed
      rw [seek, if_neg hopen, if_pos hsize]
    · exact seek_open (by simpa using hclosed) hle (Nat.le_of_not_lt hsize) offset origin

/-- A memory that holds at each address its number. -/
def numbered : Memory := fun address => .ofNat address

/-- Two bytes moved up by one, within the source. -/
theorem memoryReader_run_overlap : ∃ (tr : List (Transition MemoryReader Action)) (r : MemoryReader),
    Trace step { bytes := ⟨10, 4⟩ } tr r ∧ r.position = 1 ∧
      (r.read numbered ⟨12, 2⟩).2.1 12 = 11 ∧ (r.read numbered ⟨12, 2⟩).2.1 13 = 12 := by
  have hrun : Lib.run step { bytes := ⟨10, 4⟩ } [.read numbered ⟨40, 3⟩, .seek (-2) .current] =
      some _ := rfl
  have htrace := Trace.of_run hrun
  obtain ⟨-, -, hread, -⟩ := memoryReader_run htrace
  have hcopied := (hread numbered ⟨12, 2⟩).copied
  exact ⟨_, _, htrace, by decide, hcopied.inside 0 (by decide), hcopied.inside 1 (by decide)⟩

end MemoryReader

/-! ## Writers -/

namespace MemoryWriter

variable {w : MemoryWriter} {memory : Memory} {bytes : Span} {allocation : Allocation}

/-- The byte at an address: one of the storage, or one of the memory outside. -/
def load (w : MemoryWriter) (memory : Memory) (address : Nat) : UInt8 :=
  match w.storage with
  | none => memory address
  | some own =>
    if own ≤ address ∧ address < own + w.bytes.length then w.bytes.getD (address - own) 0
    else memory address

/-- The bytes of a span. -/
def contents (w : MemoryWriter) (memory : Memory) (bytes : Span) : List UInt8 :=
  (List.range bytes.size).map fun i => w.load memory (bytes.data + i)

/-- A span that can be read: of the storage, or outside it. -/
def Accessible (w : MemoryWriter) (bytes : Span) : Prop :=
  ∀ own ∈ w.storage, (own ≤ bytes.data ∧ bytes.data + bytes.size ≤ own + w.bytes.length) ∨
    bytes.data + bytes.size ≤ own ∨ own + w.bytes.length ≤ bytes.data

instance : Decidable (w.Accessible bytes) :=
  inferInstanceAs (Decidable (∀ own ∈ w.storage,
    (own ≤ bytes.data ∧ bytes.data + bytes.size ≤ own + w.bytes.length) ∨
      bytes.data + bytes.size ≤ own ∨ own + w.bytes.length ≤ bytes.data))

@[simp] theorem length_contents : (w.contents memory bytes).length = bytes.size := by
  simp [contents]

/-- A span that begins in the storage lies in it. -/
theorem contents_own (memory : Memory) {offset : Nat} (h : w.Accessible bytes)
    (hoffset : w.ownOffset bytes.data = some offset) :
    offset + bytes.size ≤ w.bytes.length ∧
      w.contents memory bytes = (w.bytes.drop offset).take bytes.size := by
  unfold ownOffset at hoffset
  split at hoffset
  · cases hoffset
  · rename_i own hown
    have hcases := h own hown
    simp only [Bool.and_eq_true, Bool.not_eq_true', decide_eq_false_iff_not, decide_eq_true_eq,
      ite_eq_iff, reduceCtorEq, and_false, or_false, Option.some.injEq] at hoffset
    obtain ⟨⟨hge, hlt⟩, rfl⟩ := hoffset
    refine ⟨by omega, List.ext_getElem? fun k => ?_⟩
    by_cases hk : k < bytes.size
    · have hin : own ≤ bytes.data + k ∧ bytes.data + k < own + w.bytes.length := by omega
      have hplace : bytes.data + k - own = bytes.data - own + k := by omega
      have hbound : bytes.data - own + k < w.bytes.length := by omega
      rw [contents, List.getElem?_map, List.getElem?_range hk, Option.map_some,
        List.getElem?_take_of_lt hk, List.getElem?_drop]
      simp only [load, hown, if_pos hin, hplace]
      rw [List.getD_eq_getElem?_getD, List.getElem?_eq_getElem hbound, Option.getD_some]
    · rw [List.getElem?_eq_none (by simp; omega), List.getElem?_eq_none (by simp; omega)]

/-- A span that does not begin in the storage lies outside it. -/
theorem contents_outside (h : w.Accessible bytes)
    (hoffset : w.ownOffset bytes.data = none) :
    w.contents memory bytes = (List.range bytes.size).map fun i => memory (bytes.data + i) := by
  refine List.map_congr_left fun i hi => ?_
  have hi := List.mem_range.1 hi
  unfold load
  split
  · rfl
  · rename_i own hown
    refine if_neg fun hin => ?_
    have hcases := h own hown
    simp only [ownOffset, hown, Bool.and_eq_true, Bool.not_eq_true', decide_eq_false_iff_not,
      decide_eq_true_eq, ite_eq_right_iff, reduceCtorEq] at hoffset
    by_cases hbegin : own ≤ bytes.data
    · exact hoffset ⟨Nat.not_lt.2 hbegin, by omega⟩
    · omega

/-- A write takes all of its bytes or none. -/
structure Writes (w : MemoryWriter) (input : List UInt8) (answer : WriteResult × MemoryWriter) :
    Prop where
  isOpen : answer.2.isOpen = w.isOpen
  accepted : answer.1.status.ok = true →
    answer.1.bytesWritten = input.length ∧ answer.2.bytes = w.bytes ++ input
  refused : answer.1.status.ok = false → answer.1.bytesWritten = 0 ∧ answer.2 = w

theorem Writes.of_refused {input : List UInt8} {status : Status} (h : status.ok = false) :
    Writes w input ({ status }, w) where
  isOpen := rfl
  accepted hok := by
    rw [h] at hok
    cases hok
  refused _ := ⟨rfl, rfl⟩

theorem Allocation.failure_not_ok {status : Status} (h : allocation.failure = some status) :
    status.ok = false := by
  cases allocation with
  | success => cases h
  | badAlloc => exact Option.some.inj h ▸ rfl
  | lengthError => exact Option.some.inj h ▸ rfl
  | other => exact Option.some.inj h ▸ rfl

/-- The range of the vector itself is what it was before the vector grew. -/
theorem appendAliasedBytes_eq {destination : List UInt8} {offset size : Nat}
    (h : offset + size ≤ destination.length) (hfits : size ≤ kVectorMaxSize - destination.length) :
    appendAliasedBytes destination offset size allocation =
      match allocation.failure with
      | some status => (status, destination)
      | none => (successStatus, destination ++ (destination.drop offset).take size) := by
  have hrange : ¬((offset > destination.length || size > destination.length - offset) = true) := by
    rw [Bool.or_eq_true, decide_eq_true_eq, decide_eq_true_eq]
    omega
  rw [appendAliasedBytes, if_neg hrange, if_neg (Nat.not_lt.2 hfits)]
  cases allocation.failure with
  | some status => rfl
  | none =>
    simp only [Prod.mk.injEq, true_and]
    rw [List.take_left', List.drop_append_of_le_length (by omega),
      List.take_append_of_le_length (by rw [List.length_drop]; omega)]
    rfl

theorem write_spec (memory : Memory) (allocation : Allocation) (h : w.Accessible bytes) :
    Writes w (w.contents memory bytes) (w.write memory bytes allocation) ∧
      ((w.write memory bytes allocation).1.status.ok = true ↔ w.isOpen = true ∧
        (bytes.size = 0 ∨ w.bytes.length + bytes.size ≤ kVectorMaxSize ∧
          ∃ address, allocation = .success address)) := by
  cases hopen : w.isOpen with
  | false =>
    rw [write, if_pos (by simp [hopen])]
    exact ⟨.of_refused rfl, iff_of_false (fun hok => by cases hok) (fun hall => by cases hall.1)⟩
  | true =>
  rw [write, if_neg (by simp [hopen])]
  by_cases hempty : bytes.size = 0
  · rw [if_pos hempty]
    refine ⟨⟨rfl, fun _ => ⟨by rw [length_contents, hempty], ?_⟩, fun hok => by cases hok⟩,
      iff_of_true rfl ⟨rfl, .inl hempty⟩⟩
    rw [contents, hempty]
    exact (List.append_nil _).symm
  rw [if_neg hempty]
  by_cases hfull : bytes.size > kVectorMaxSize - w.bytes.length
  · rw [if_pos hfull]
    refine ⟨.of_refused rfl, iff_of_false (fun hok => by cases hok) fun hall => ?_⟩
    rcases hall.2 with hzero | ⟨hfits, -⟩
    · exact hempty hzero
    · omega
  rw [if_neg hfull]
  have hfits : w.bytes.length + bytes.size ≤ kVectorMaxSize := by omega
  -- the allocator decides: with its success the input is appended, from wherever it is read
  have hdecide : ∀ answer : WriteResult × MemoryWriter,
      (∀ status, allocation.failure = some status → answer = ({ status }, w)) →
      (allocation.failure = none → answer = ({ bytesWritten := bytes.size },
        { w with storage := w.moved allocation, bytes := w.bytes ++ w.contents memory bytes })) →
      Writes w (w.contents memory bytes) answer ∧ (answer.1.status.ok = true ↔ True ∧
        (bytes.size = 0 ∨ w.bytes.length + bytes.size ≤ kVectorMaxSize ∧
          ∃ address, allocation = .success address)) := by
    intro answer hfailure hsuccess
    cases hallocation : allocation.failure with
    | some status =>
      rw [hfailure status hallocation]
      have hstatus := Allocation.failure_not_ok hallocation
      refine ⟨.of_refused hstatus, iff_of_false (by simp [hstatus]) fun hall => ?_⟩
      rcases hall.2 with hzero | ⟨-, address, haddress⟩
      · exact hempty hzero
      · rw [haddress] at hallocation
        cases hallocation
    | none =>
      rw [hsuccess hallocation]
      refine ⟨⟨rfl, fun _ => ⟨length_contents.symm, rfl⟩, fun hok => by cases hok⟩,
        iff_of_true rfl ⟨trivial, .inr ⟨hfits, ?_⟩⟩⟩
      cases allocation with
      | success address => exact ⟨address, rfl⟩
      | badAlloc => cases hallocation
      | lengthError => cases hallocation
      | other => cases hallocation
  cases hoffset : w.ownOffset bytes.data with
  | some offset =>
    obtain ⟨hin, hcontents⟩ := contents_own memory h hoffset
    simp only [appendAliasedBytes_eq hin (Nat.le_of_not_lt hfull), ← hcontents]
    refine hdecide _ (fun status hstatus => ?_) fun hnone => ?_
    · simp only [hstatus, Allocation.failure_not_ok hstatus]
      rfl
    · simp only [hnone]
      rfl
  | none =>
    simp only [← contents_outside h hoffset]
    refine hdecide _ (fun status hstatus => ?_) fun hnone => ?_
    · simp only [hstatus]
    · simp only [hnone]

/-! ### Runs -/

inductive Action where
  | write (memory : Memory) (bytes : Span) (allocation : Allocation)
  | flush (mode : FlushMode)
  | close
  | reserve (capacity : Nat) (allocation : Allocation)
  | takeBytes
  | clear

/-- A span that is not accessible is not written. -/
def step (w : MemoryWriter) : Action → Option MemoryWriter
  | .write memory bytes allocation =>
    if w.Accessible bytes then some (w.write memory bytes allocation).2 else none
  | .flush _ => some w
  | .close => some w.close.2
  | .reserve capacity allocation => some (w.reserve capacity allocation).2
  | .takeBytes => some w.takeBytes.2
  | .clear => some w.clear

/-- The bytes collected after one step more. -/
def collectedAfter (collected : List UInt8) (x : Transition MemoryWriter Action) : List UInt8 :=
  match x.action with
  | .write memory bytes allocation =>
    if (x.pre.write memory bytes allocation).1.status.ok then
      collected ++ x.pre.contents memory bytes
    else collected
  | .takeBytes => []
  | .clear => []
  | _ => collected

/-- What the accepted writes were given since the bytes were last taken or cleared. -/
def collected (tr : List (Transition MemoryWriter Action)) : List UInt8 :=
  tr.foldl collectedAfter []

theorem bytes_step {x : Transition MemoryWriter Action} (h : step x.pre x.action = some x.post) :
    x.post.bytes = collectedAfter x.pre.bytes x := by
  obtain ⟨w, action, w'⟩ := x
  change step w action = some w' at h
  cases action with
  | write memory bytes allocation =>
    simp only [step] at h
    split_ifs at h with haccessible
    obtain rfl := Option.some.inj h
    obtain ⟨hwrites, -⟩ := write_spec memory allocation haccessible
    simp only [collectedAfter]
    split_ifs with hok
    · exact (hwrites.accepted hok).2
    · exact congrArg MemoryWriter.bytes (hwrites.refused (by simpa using hok)).2
  | flush mode => exact congrArg MemoryWriter.bytes (Option.some.inj h).symm
  | close =>
    obtain rfl := Option.some.inj h
    rfl
  | reserve capacity allocation =>
    obtain rfl := Option.some.inj h
    simp only [reserve, collectedAfter]
    split_ifs
    · rfl
    · cases allocation.failure <;> rfl
  | takeBytes =>
    obtain rfl := Option.some.inj h
    rfl
  | clear =>
    obtain rfl := Option.some.inj h
    rfl

/-- **Collecting bytes.** After any run a writer holds what its accepted writes were given since the
bytes were last taken or cleared, as it was at the time of the call, and never more than a vector can;
the next write takes all of its input or leaves the writer as it is. -/
theorem memoryWriter_run {tr : List (Transition MemoryWriter Action)}
    (h : Trace step {} tr w) :
    w.bytes = collected tr ∧ w.bytes.length ≤ kVectorMaxSize ∧
      ∀ memory bytes allocation, w.Accessible bytes →
        Writes w (w.contents memory bytes) (w.write memory bytes allocation) ∧
          ((w.write memory bytes allocation).1.status.ok = true ↔ w.isOpen = true ∧
            (bytes.size = 0 ∨ w.bytes.length + bytes.size ≤ kVectorMaxSize ∧
              ∃ address, allocation = .success address)) := by
  refine ⟨?_, ?_, fun memory bytes allocation haccessible =>
    write_spec memory allocation haccessible⟩
  · refine h.history (P := fun tr w => w.bytes = collected tr) rfl fun tr x _ hx ih => ?_
    rw [bytes_step hx, ih, collected, collected, List.foldl_append]
    rfl
  · refine h.history (P := fun _ w => w.bytes.length ≤ kVectorMaxSize) (Nat.zero_le _)
      fun tr x _ hx ih => ?_
    have hbytes := bytes_step hx
    obtain ⟨w, action, w'⟩ := x
    cases action with
    | write memory bytes allocation =>
      simp only [step] at hx
      split_ifs at hx with haccessible
      obtain ⟨-, hok⟩ := write_spec memory allocation haccessible
      simp only [collectedAfter] at hbytes
      rw [hbytes]
      split_ifs with haccepted
      · rw [List.length_append, length_contents]
        rcases (hok.1 haccepted).2 with hzero | ⟨hfits, -⟩
        · rw [hzero]
          exact ih
        · exact hfits
      · exact ih
    | flush mode => exact hbytes ▸ ih
    | close => exact hbytes ▸ ih
    | reserve capacity allocation => exact hbytes ▸ ih
    | takeBytes => exact hbytes ▸ Nat.zero_le _
    | clear => exact hbytes ▸ Nat.zero_le _

/-- Three bytes from outside, and the last two of them again from the storage. -/
theorem memoryWriter_run_own :
    ∃ (tr : List (Transition MemoryWriter Action)) (w : MemoryWriter), Trace step {} tr w ∧
      w.bytes = [1, 2, 3, 2, 3] ∧ w.bytes = collected tr := by
  have hrun : Lib.run step {} [.write MemoryReader.numbered ⟨1, 3⟩ (.success 100),
      .write MemoryReader.numbered ⟨101, 2⟩ (.success 500)] = some _ := rfl
  have htrace := Trace.of_run hrun
  exact ⟨_, _, htrace, by decide, (memoryWriter_run htrace).1⟩

end MemoryWriter

end Io

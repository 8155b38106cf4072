import GameWIP.Desktop.Proof.TextUnits
import GameWIP.Lib.Trace
import Mathlib.Data.List.GetD
import Mathlib.Order.MinMax

/-!
# Text ranges stay in bounds and move strictly

One change of a range is a function of its old bounds: it keeps them at grapheme boundaries
(`expanded_atBoundaries`, `moved_atBoundaries`, `withEndpoint_atBoundaries`), counts no more units
than requested (`Counted`), and over a strict table moves its endpoint whenever it counts any
(`Advances`). A step of a run is one such change or none (`step_inBounds`, `step_honest`), so every
run keeps the bounds and repeating a move comes to an end (`Repeats.length_le`).

Only the table of the whole document is not strict, for the empty text: there `Move` backward and
`MoveEndpointByUnit` forward count a unit and change nothing (`RangeAction.Slips`).
-/

namespace Desktop

open Lib (Trace Transition lowerBound lowerBound_spec)
open Unicode (utf8Code)

variable {text : List UInt8} {units : List Nat} {range : TextRange} {offset : Nat} {count : Int}

/-! ## Searching a table -/

namespace UnitTable

theorem length_pos (h : UnitTable text units) : 0 < units.length :=
  List.length_pos_of_mem h.zero

theorem getD_mem {i : Nat} (hi : i < units.length) : units.getD i 0 ∈ units := by
  rw [List.getD_eq_getElem _ _ hi]
  exact List.getElem_mem hi

theorem getD_boundary (h : UnitTable text units) {i : Nat} (hi : i < units.length) :
    IsGraphemeBoundary text (units.getD i 0) :=
  h.boundary _ (getD_mem hi)

theorem getD_le (h : UnitTable text units) {i j : Nat} (hij : i ≤ j) (hj : j < units.length) :
    units.getD i 0 ≤ units.getD j 0 := by
  rw [List.getD_eq_getElem _ _ (hij.trans_lt hj), List.getD_eq_getElem _ _ hj]
  rcases hij.eq_or_lt with rfl | hlt
  · exact le_rfl
  · exact List.pairwise_iff_getElem.1 h.sorted i j _ hj hlt

theorem getD_lt (h : units.Pairwise (· < ·)) {i j : Nat} (hij : i < j) (hj : j < units.length) :
    units.getD i 0 < units.getD j 0 := by
  rw [List.getD_eq_getElem _ _ (hij.trans hj), List.getD_eq_getElem _ _ hj]
  exact List.pairwise_iff_getElem.1 h i j _ hj hij

theorem getD_first (h : UnitTable text units) : units.getD 0 0 = 0 := by
  obtain ⟨i, hi, hzero⟩ := List.getElem_of_mem h.zero
  have hle := h.getD_le (Nat.zero_le i) hi
  rw [List.getD_eq_getElem _ _ hi, hzero] at hle
  exact Nat.le_zero.1 hle

theorem getD_last (h : UnitTable text units) : units.getD (units.length - 1) 0 = text.length := by
  have hpos := h.length_pos
  obtain ⟨i, hi, hsize⟩ := List.getElem_of_mem h.size
  have hle := h.getD_le (Nat.le_sub_one_of_lt hi) (Nat.sub_lt hpos Nat.one_pos)
  rw [List.getD_eq_getElem _ _ hi, hsize] at hle
  exact le_antisymm (h.getD_boundary (Nat.sub_lt hpos Nat.one_pos)).le hle

/-- The unit that contains an offset. -/
theorem unitAt_spec (h : UnitTable text units) (offset : Nat) :
    unitAt units offset < units.length ∧ units.getD (unitAt units offset) 0 ≤ offset ∧
      ∀ j, unitAt units offset < j → j < units.length → offset < units.getD j 0 := by
  obtain ⟨hle, hiff⟩ := lowerBound_spec (fun entry => decide (entry ≤ offset))
    (h.sorted.imp fun {a b} hab hb => decide_eq_true (hab.trans (of_decide_eq_true hb)))
  have hpos := h.length_pos
  have hbelow : ∀ j, j < units.length → (units.getD j 0 ≤ offset ↔
      j < lowerBound (fun entry => decide (entry ≤ offset)) units) := by
    intro j hj
    rw [← hiff j hj, decide_eq_true_eq, List.getD_eq_getElem _ _ hj]
  have hfirst := (hbelow 0 hpos).1 (by rw [h.getD_first]; exact Nat.zero_le offset)
  have hat : unitAt units offset =
      lowerBound (fun entry => decide (entry ≤ offset)) units - 1 := by
    unfold unitAt
    rw [if_neg (by omega), Nat.min_eq_left (by omega)]
  rw [hat]
  refine ⟨by omega, (hbelow _ (by omega)).2 (by omega), fun j hj hlt => ?_⟩
  have := mt (hbelow j hlt).1 (by omega)
  omega

/-- The first unit that does not start before an offset of the text. -/
theorem lowerBound_lt (h : UnitTable text units) (hoffset : offset ≤ text.length) :
    lowerBound (fun entry => decide (entry < offset)) units < units.length ∧
      ∀ j, j < units.length → (units.getD j 0 < offset ↔
        j < lowerBound (fun entry => decide (entry < offset)) units) := by
  obtain ⟨-, hiff⟩ := lowerBound_spec (fun entry => decide (entry < offset))
    (h.sorted.imp fun {a b} hab hb => decide_eq_true (hab.trans_lt (of_decide_eq_true hb)))
  have hbelow : ∀ j, j < units.length → (units.getD j 0 < offset ↔
      j < lowerBound (fun entry => decide (entry < offset)) units) := by
    intro j hj
    rw [← hiff j hj, decide_eq_true_eq, List.getD_eq_getElem _ _ hj]
  have hpos := h.length_pos
  have hlast := mt (hbelow (units.length - 1) (by omega)).2
    (by rw [h.getD_last]; exact Nat.not_lt.2 hoffset)
  exact ⟨by omega, hbelow⟩

end UnitTable

theorem TextRange.AtBoundaries.end_le (h : range.AtBoundaries text) :
    range.end_ ≤ text.length :=
  h.last.le

/-! ## What a change does -/

/-- A reported count has the sign of the requested one and at most its magnitude. -/
def Counted (count moved : Int) : Prop :=
  (0 ≤ count → 0 ≤ moved ∧ moved ≤ count) ∧ (count ≤ 0 → count ≤ moved ∧ moved ≤ 0)

/-- An offset has changed in the direction of the reported count. -/
def Advances (moved : Int) (old new : Nat) : Prop :=
  (0 < moved → old < new) ∧ (moved < 0 → new < old)

theorem clamp_counted {initial maxIndex : Int} (h0 : 0 ≤ initial) (hmax : initial ≤ maxIndex) :
    Counted count (clamp (initial + count) 0 maxIndex - initial) := by
  unfold Counted clamp
  omega

theorem clamp_bounds (value : Int) {maxIndex : Int} (h0 : 0 ≤ maxIndex) :
    0 ≤ clamp value 0 maxIndex ∧ clamp value 0 maxIndex ≤ maxIndex := by
  unfold clamp
  omega

namespace TextRangeProvider

theorem expanded_atBoundaries (h : UnitTable text units) :
    (expanded units range).AtBoundaries text := by
  have hpos := h.length_pos
  have hstart := (h.unitAt_spec range.begin).1
  unfold expanded
  constructor
  · exact h.getD_le (by split_ifs <;> omega) (by split_ifs <;> omega)
  · exact h.getD_boundary (by split_ifs <;> omega)
  · exact h.getD_boundary (by split_ifs <;> omega)

/-- The unit in which a move starts is not clamped. -/
theorem unitAt_le_maxIndex (h : UnitTable text units) (hrange : range.AtBoundaries text)
    (hmany : units.length > 1) :
    unitAt units range.begin ≤
      units.length - (if decide (range.begin = range.end_) = true then 1 else 2) := by
  obtain ⟨hlt, hle, -⟩ := h.unitAt_spec range.begin
  by_cases hdegenerate : range.begin = range.end_
  · rw [if_pos (decide_eq_true hdegenerate)]
    omega
  · rw [if_neg (by simpa using hdegenerate)]
    -- a range that is not empty does not start at the end of the text
    have hne : unitAt units range.begin ≠ units.length - 1 := by
      intro hat
      have horder := hrange.order
      have hend := hrange.end_le
      rw [hat, h.getD_last] at hle
      omega
    omega

theorem moved_atBoundaries (h : UnitTable text units) :
    (moved units count range).1.AtBoundaries text := by
  have hpos := h.length_pos
  unfold moved
  dsimp only
  generalize hmax : (if units.length > 1 then
    units.length - (if decide (range.begin = range.end_) = true then 1 else 2) else 0) = maxIndex
  have hlt : maxIndex < units.length := by
    rw [← hmax]
    split_ifs <;> omega
  have hindex := clamp_bounds (↑(min (unitAt units range.begin) maxIndex) + count)
    (Int.natCast_nonneg maxIndex)
  generalize clamp _ 0 _ = destination at hindex
  constructor
  · dsimp only
    split_ifs
    · exact le_rfl
    · exact h.getD_le (by omega) (by omega)
  · exact h.getD_boundary (by omega)
  · dsimp only
    split_ifs
    · exact h.getD_boundary (by omega)
    · exact h.getD_boundary (by omega)

theorem moved_counted : Counted count (moved units count range).2 := by
  unfold moved
  exact clamp_counted (Int.natCast_nonneg _) (Int.ofNat_le.2 (Nat.min_le_right _ _))

/-- Over a strict table, a move that counts a unit changes the start. -/
theorem moved_advances (h : UnitTable text units) (hstrict : units.Pairwise (· < ·))
    (hrange : range.AtBoundaries text) :
    Advances (moved units count range).2 range.begin (moved units count range).1.begin := by
  obtain ⟨hlt, hle, hbehind⟩ := h.unitAt_spec range.begin
  unfold moved
  dsimp only
  by_cases hmany : units.length > 1
  · have hinitial := unitAt_le_maxIndex h hrange hmany
    rw [if_pos hmany]
    generalize hmax : units.length - (if decide (range.begin = range.end_) = true then 1 else 2)
      = maxIndex at hinitial ⊢
    have hmaxlt : maxIndex < units.length := by
      rw [← hmax]
      split_ifs <;> omega
    rw [Nat.min_eq_left hinitial]
    have hindex := clamp_bounds (↑(unitAt units range.begin) + count)
      (Int.natCast_nonneg maxIndex)
    generalize clamp _ 0 _ = destination at hindex
    constructor
    · intro hpos
      exact hbehind _ (by omega) (by omega)
    · intro hneg
      have := UnitTable.getD_lt hstrict (i := destination.toNat) (by omega) hlt
      omega
  · -- a table of one entry has nowhere to go
    rw [if_neg hmany]
    unfold Advances clamp
    simp only [Nat.min_zero, Int.ofNat_zero]
    omega

theorem withEndpoint_atBoundaries {endpoint : TextPatternRangeEndpoint}
    (hrange : range.AtBoundaries text) (hoffset : IsGraphemeBoundary text offset) :
    (withEndpoint endpoint offset range).AtBoundaries text := by
  unfold withEndpoint
  split_ifs
  · refine ⟨Nat.le_max_left _ _, hoffset, ?_⟩
    dsimp only
    rcases max_choice offset range.end_ with hmax | hmax
    · rw [hmax]
      exact hoffset
    · rw [hmax]
      exact hrange.last
  · refine ⟨Nat.min_le_right _ _, ?_, hoffset⟩
    dsimp only
    rcases min_choice range.begin offset with hmin | hmin
    · rw [hmin]
      exact hrange.first
    · rw [hmin]
      exact hoffset

theorem endpointOffset_boundary (hrange : range.AtBoundaries text)
    (endpoint : TextPatternRangeEndpoint) :
    IsGraphemeBoundary text (endpointOffset range endpoint) := by
  unfold endpointOffset
  split_ifs
  · exact hrange.first
  · exact hrange.last

@[simp] theorem endpointOffset_withEndpoint (endpoint : TextPatternRangeEndpoint) :
    endpointOffset (withEndpoint endpoint offset range) endpoint = offset := by
  unfold endpointOffset withEndpoint
  split_ifs <;> rfl

/-- Where a move of an endpoint starts: a unit of the table that is not behind the offset when the
move goes forward, and not before it when it goes backward. -/
theorem movedEndpoint_cases (h : UnitTable text units) (hrange : range.AtBoundaries text)
    (endpoint : TextPatternRangeEndpoint) (count : Int) :
    ∃ initial : Nat, initial < units.length ∧
      movedEndpoint endpoint units count range =
        (withEndpoint endpoint
          (units.getD (clamp (initial + count) 0 (units.length - 1)).toNat 0) range,
          clamp (initial + count) 0 (units.length - 1) - initial) ∧
      (0 < count → ∀ j, initial < j → j < units.length →
        endpointOffset range endpoint ≤ units.getD j 0 ∧
          (units.Pairwise (· < ·) → endpointOffset range endpoint < units.getD j 0)) ∧
      (count < 0 → ∀ j, j < initial → units.getD j 0 < endpointOffset range endpoint) := by
  generalize hoffset : endpointOffset range endpoint = offset
  have hle : offset ≤ text.length := hoffset ▸ (endpointOffset_boundary hrange endpoint).le
  obtain ⟨hlt, hbelow⟩ := h.lowerBound_lt hle
  unfold movedEndpoint
  dsimp only
  rw [hoffset]
  generalize lowerBound (fun entry => decide (entry < offset)) units = found at hlt hbelow
  have hfound := mt (hbelow found hlt).1 (Nat.lt_irrefl found)
  split_ifs with hinside
  · -- inside a unit, a move forward starts at the beginning of the unit
    simp only [Bool.and_eq_true, decide_eq_true_eq, Int.toNat_natCast] at hinside
    obtain ⟨⟨hcount, -⟩, hne⟩ := hinside
    have hpos : found ≠ 0 := by
      rintro rfl
      rw [h.getD_first] at hfound hne
      omega
    refine ⟨found - 1, by omega, by rw [Int.ofNat_sub (Nat.one_le_iff_ne_zero.2 hpos)]; rfl, fun _ j hj hjlt => ?_,
      fun hneg => by omega⟩
    have hat := h.getD_le (show found ≤ j by omega) hjlt
    omega
  · refine ⟨found, hlt, rfl, fun hcount j hj hjlt => ?_, fun _ j hj => ?_⟩
    · have heq : units.getD found 0 = offset := by
        by_contra hne
        apply hinside
        simp only [Bool.and_eq_true, decide_eq_true_eq, Int.toNat_natCast]
        exact ⟨⟨hcount, Int.ofNat_lt.2 hlt⟩, hne⟩
      rw [← heq]
      exact ⟨h.getD_le hj.le hjlt, fun hstrict => UnitTable.getD_lt hstrict hj hjlt⟩
    · exact (hbelow j (by omega)).2 hj

theorem movedEndpoint_atBoundaries {endpoint : TextPatternRangeEndpoint}
    (h : UnitTable text units) (hrange : range.AtBoundaries text) :
    (movedEndpoint endpoint units count range).1.AtBoundaries text := by
  obtain ⟨initial, hlt, heq, -⟩ := movedEndpoint_cases h hrange endpoint count
  have hlast : (0 : Int) ≤ units.length - 1 := by omega
  have hindex := clamp_bounds (initial + count) hlast
  rw [heq]
  exact withEndpoint_atBoundaries hrange (h.getD_boundary (by omega))

theorem movedEndpoint_counted (h : UnitTable text units) (hrange : range.AtBoundaries text)
    (endpoint : TextPatternRangeEndpoint) (count : Int) :
    Counted count (movedEndpoint endpoint units count range).2 := by
  obtain ⟨initial, hlt, heq, -⟩ := movedEndpoint_cases h hrange endpoint count
  rw [heq]
  exact clamp_counted (Int.natCast_nonneg _) (by omega)

/-- Over a strict table, a move that counts a unit changes its endpoint. -/
theorem movedEndpoint_advances {endpoint : TextPatternRangeEndpoint}
    (h : UnitTable text units) (hstrict : units.Pairwise (· < ·))
    (hrange : range.AtBoundaries text) :
    Advances (movedEndpoint endpoint units count range).2 (endpointOffset range endpoint)
      (endpointOffset (movedEndpoint endpoint units count range).1 endpoint) := by
  have hcounted := movedEndpoint_counted h hrange endpoint count
  obtain ⟨initial, hlt, heq, hforward, hbackward⟩ := movedEndpoint_cases h hrange endpoint count
  rw [heq] at hcounted ⊢
  dsimp only at hcounted ⊢
  have hlast : (0 : Int) ≤ units.length - 1 := by omega
  have hindex := clamp_bounds (initial + count) hlast
  generalize clamp _ 0 _ = destination at hindex hcounted
  rw [endpointOffset_withEndpoint]
  unfold Counted at hcounted
  constructor
  · intro hpos
    exact (hforward (by omega) _ (by omega) (by omega)).2 hstrict
  · intro hneg
    exact hbackward (by omega) _ (by omega)

/-! ## The exchange -/

theorem unpack_pack (hbegin : range.begin < 2 ^ 32) (hend : range.end_ < 2 ^ 32) :
    unpack (pack range) = range := by
  have hpack : (pack range).toNat = range.begin * 2 ^ 32 + range.end_ := by
    unfold pack
    rw [UInt64.toNat_or, UInt64.toNat_shiftLeft, UInt64.toNat_ofNat', UInt64.toNat_ofNat']
    have hb : range.begin % 2 ^ 64 = range.begin := Nat.mod_eq_of_lt (by omega)
    have he : range.end_ % 2 ^ 64 = range.end_ := Nat.mod_eq_of_lt (by omega)
    have hs : (range.begin <<< 32) % 2 ^ 64 = range.begin <<< 32 :=
      Nat.mod_eq_of_lt (by rw [Nat.shiftLeft_eq]; omega)
    have h32 : UInt64.toNat 32 % 64 = 32 := rfl
    rw [hb, he, h32, hs, ← Nat.shiftLeft_add_eq_or_of_lt hend, Nat.shiftLeft_eq]
  have hfirst : (unpack (pack range)).begin = range.begin := by
    simp only [unpack, UInt64.toNat_toUInt32, UInt64.toNat_shiftRight, hpack,
      Nat.shiftRight_eq_div_pow]
    have h32 : UInt64.toNat 32 % 64 = 32 := rfl
    rw [h32]
    omega
  have hlast : (unpack (pack range)).end_ = range.end_ := by
    simp only [unpack, UInt64.toNat_toUInt32, hpack]
    omega
  generalize unpack (pack range) = unpacked at hfirst hlast
  cases unpacked
  cases range
  cases hfirst
  cases hlast
  rfl

/-- With fewer failures than attempts the change is written. -/
theorem exchange_eq (change : TextRange → TextRange × Int) (provider : TextRangeProvider)
    (attempts failures : Nat) :
    exchange change provider attempts failures =
      if failures < attempts then
        ({ provider with bounds := pack (change (unpack provider.bounds)).1 },
          { result := .ok, moved := (change (unpack provider.bounds)).2 })
      else (provider, { result := .busy }) := by
  induction attempts generalizing failures with
  | zero => rfl
  | succ attempts ih =>
    cases failures with
    | zero => simp [exchange]
    | succ failures => simp [exchange, ih]

end TextRangeProvider

/-! ## Steps -/

/-- The ranges of a text are at its boundaries, and so is what a pending change will write. -/
structure RangeState.InBounds (text : List UInt8) (s : RangeState) : Prop where
  bounds : ∀ range ∈ s.ranges, (unpack range.bounds).AtBoundaries text
  pending : ∀ range ∈ s.ranges, ∀ p, range.pending = some p → IsGraphemeBoundary text p.offset

/-- The endpoint that a method moves, and how far it is asked to. -/
def RangeMethod.moves : RangeMethod → Option (TextPatternRangeEndpoint × Int)
  | .move _ count => some (.start, count)
  | .moveEndpointByUnit endpoint _ count => some (endpoint, count)
  | _ => none

/-- A step that moves reports no more than was requested, and what it reports it has done. -/
def Honest (x : Transition RangeState RangeAction) : Prop :=
  ∀ endpoint count, x.action.method.moves = some (endpoint, count) →
    Counted count x.post.report.moved ∧
      ∀ old new, x.pre.ranges[x.action.range]? = some old →
        x.post.ranges[x.action.range]? = some new →
        Advances x.post.report.moved (endpointOffset (unpack old.bounds) endpoint)
          (endpointOffset (unpack new.bounds) endpoint)

/-- A move by the whole document over an empty text that reaches its exchange, in the direction in
which its search does not start. -/
def RangeAction.Slips (text : List UInt8) (action : RangeAction) : Prop :=
  action.call.available = true ∧ action.call.failures < 8 ∧
    ∃ unit : TextUnit, unit.Collapsed text ∧
      ((∃ count < 0, action.method = .move unit count) ∨
        ∃ endpoint count, validEndpoint endpoint = true ∧ 0 < count ∧
          action.method = .moveEndpointByUnit endpoint unit count)

namespace TextRangeProvider

/-- What a method leaves: the range as it was, reporting no move, or the change written. -/
inductive Outcome (reached : Prop) (change : TextRange → TextRange × Int)
    (range : TextRangeProvider) : TextRangeProvider × RangeReport → Prop
  | unchanged (result : HResult) : Outcome reached change range (range, { result })
  | changed (h : reached) (result : HResult) :
    Outcome reached change range
      ({ range with bounds := pack (change (unpack range.bounds)).1 },
        { result, moved := (change (unpack range.bounds)).2 })

variable {change : TextRange → TextRange × Int} {range : TextRangeProvider} {tables : RangeText}
  {call : RangeCall} {reached : Prop}

theorem exchange_outcome (h : call.failures < 8 → reached) :
    Outcome reached change range (exchange change range 8 call.failures) := by
  rw [exchange_eq]
  split_ifs with hfailures
  · exact .changed (h hfailures) .ok
  · exact .unchanged .busy

/-- The exchange of a call that asks for the unit is reached. -/
def Reached (tables : RangeText) (unit : TextUnit) (call : RangeCall) : Prop :=
  call.available = true ∧ call.failures < 8 ∧ unitIndex tables unit ≠ []

theorem expandToEnclosingUnit_outcome {unit : TextUnit} :
    Outcome (Reached tables unit call) (fun bounds => (expanded (unitIndex tables unit) bounds, 0))
      range (range.expandToEnclosingUnit tables unit call) := by
  unfold expandToEnclosingUnit
  dsimp only
  split_ifs with havailable hunits
  · exact .unchanged _
  · exact .unchanged _
  · exact exchange_outcome fun hfailures =>
      ⟨by simpa using havailable, hfailures, by simpa using hunits⟩

theorem move_outcome {unit : TextUnit} :
    Outcome (Reached tables unit call) (moved (unitIndex tables unit) count) range
      (range.move tables unit count call) := by
  unfold move
  dsimp only
  split_ifs with havailable hunits
  · exact .unchanged _
  · exact .unchanged _
  · exact .unchanged _
  · exact exchange_outcome fun hfailures =>
      ⟨by simpa using havailable, hfailures, by simpa using hunits⟩

theorem moveEndpointByUnit_outcome {endpoint : TextPatternRangeEndpoint} {unit : TextUnit} :
    Outcome (Reached tables unit call ∧ validEndpoint endpoint = true)
      (movedEndpoint endpoint (unitIndex tables unit) count) range
      (range.moveEndpointByUnit tables endpoint unit count call) := by
  unfold moveEndpointByUnit
  dsimp only
  split_ifs with havailable hendpoint hunits
  · exact .unchanged _
  · exact .unchanged _
  · exact .unchanged _
  · exact .unchanged _
  · exact exchange_outcome fun hfailures =>
      ⟨⟨by simpa using havailable, hfailures, by simpa using hunits⟩, by simpa using hendpoint⟩

/-! ## The table with one offset twice -/

theorem getD_collapsed : ∀ i, [0, 0].getD i 0 = 0
  | 0 | 1 | _ + 2 => rfl

theorem moved_collapsed :
    moved [0, 0] count { begin := 0, end_ := 0 } =
      ({ begin := 0, end_ := 0 }, clamp (1 + count) 0 1 - 1) := by
  have hat : unitAt [0, 0] 0 = 1 := by
    unfold unitAt
    have hbound : lowerBound (fun entry => decide (entry ≤ 0)) ([0, 0] ++ []) = 2 :=
      Lib.lowerBound_eq (by decide) (by decide)
    rw [List.append_nil] at hbound
    rw [hbound]
    rfl
  unfold moved
  simp only [getD_collapsed, hat, ite_self]
  rfl

theorem movedEndpoint_collapsed {endpoint : TextPatternRangeEndpoint} :
    movedEndpoint endpoint [0, 0] count { begin := 0, end_ := 0 } =
      ({ begin := 0, end_ := 0 }, clamp count 0 1) := by
  have hat : lowerBound (fun entry => decide (entry < 0)) ([] ++ [0, 0]) = 0 :=
    Lib.lowerBound_eq (by decide) (by decide)
  rw [List.nil_append] at hat
  have hoffset : endpointOffset { begin := 0, end_ := 0 } endpoint = 0 := by
    unfold endpointOffset
    split_ifs <;> rfl
  have hset : withEndpoint endpoint 0 { begin := 0, end_ := 0 } = { begin := 0, end_ := 0 } := by
    unfold withEndpoint
    split_ifs <;> rfl
  unfold movedEndpoint
  simp only [getD_collapsed, hoffset, hat, hset, ne_eq, not_true, decide_false, Bool.and_false,
    Bool.false_eq_true, if_false]
  simp

/-! ## What a call leaves -/

/-- What a call leaves of a range at boundaries. -/
structure Applied (text : List UInt8) (action : RangeAction) (range : TextRangeProvider)
    (result : TextRangeProvider × RangeReport) : Prop where
  bounds : (unpack result.1.bounds).AtBoundaries text
  pending : ∀ p, result.1.pending = some p → IsGraphemeBoundary text p.offset
  counted : ∀ endpoint count, action.method.moves = some (endpoint, count) →
    Counted count result.2.moved
  advances : ¬ action.Slips text → ∀ endpoint count,
    action.method.moves = some (endpoint, count) →
    Advances result.2.moved (endpointOffset (unpack range.bounds) endpoint)
      (endpointOffset (unpack result.1.bounds) endpoint)

variable {action : RangeAction} {result : TextRangeProvider × RangeReport}

theorem advances_zero (old new : Nat) : Advances 0 old new :=
  ⟨fun h => absurd h (lt_irrefl 0), fun h => absurd h (lt_irrefl 0)⟩

theorem counted_zero : Counted count 0 := ⟨fun h => ⟨le_rfl, h⟩, fun h => ⟨h, le_rfl⟩⟩

/-- A call that leaves the bounds and reports no move. -/
theorem applied_of_bounds (hrange : (unpack range.bounds).AtBoundaries text)
    (hbounds : result.1.bounds = range.bounds) (hmoved : result.2.moved = 0)
    (hpending : ∀ p, result.1.pending = some p → IsGraphemeBoundary text p.offset) :
    Applied text action range result where
  bounds := hbounds ▸ hrange
  pending := hpending
  counted _ _ _ := hmoved ▸ counted_zero
  advances _ _ _ _ := hmoved ▸ advances_zero _ _

/-- A call that writes a change which keeps the boundaries and counts what it does. -/
theorem Outcome.applied (h : Outcome reached change range result) (hsize : text.length < 2 ^ 31)
    (hrange : (unpack range.bounds).AtBoundaries text) (hnone : range.pending = none)
    (hbounds : reached → (change (unpack range.bounds)).1.AtBoundaries text)
    (hcounted : reached → ∀ endpoint count, action.method.moves = some (endpoint, count) →
      Counted count (change (unpack range.bounds)).2)
    (hadvances : reached → ¬ action.Slips text → ∀ endpoint count,
      action.method.moves = some (endpoint, count) →
      Advances (change (unpack range.bounds)).2 (endpointOffset (unpack range.bounds) endpoint)
        (endpointOffset (change (unpack range.bounds)).1 endpoint)) :
    Applied text action range result := by
  cases h with
  | unchanged result =>
    exact applied_of_bounds hrange rfl rfl fun p hp => absurd (hnone.symm.trans hp) nofun
  | changed hreached result =>
    have hnew := hbounds hreached
    have hend := hnew.end_le
    have horder := hnew.order
    have hunpack : unpack (pack (change (unpack range.bounds)).1) = (change (unpack range.bounds)).1 :=
      unpack_pack (by omega) (by omega)
    refine ⟨hunpack.symm ▸ hnew, fun p hp => absurd (hnone.symm.trans hp) nofun,
      hcounted hreached, fun hslips endpoint count hmoves => ?_⟩
    dsimp only
    rw [hunpack]
    exact hadvances hreached hslips endpoint count hmoves

theorem Reached.table {unit : TextUnit} (h : Reached tables unit call) (ht : tables.Tables text) :
    UnitTable text (unitIndex tables unit) := by
  refine ht.table unit ?_
  rintro rfl
  exact h.2.2 ht.unknown

/-- An empty text has the one range. -/
theorem eq_zero_of_atBoundaries {range : TextRange} (h : range.AtBoundaries []) :
    range = { begin := 0, end_ := 0 } := by
  obtain ⟨begin, end_⟩ := range
  have horder := h.order
  have hend := h.end_le
  obtain rfl : begin = 0 := Nat.le_zero.1 (horder.trans hend)
  obtain rfl : end_ = 0 := Nat.le_zero.1 hend
  rfl

theorem unitIndex_collapsed {unit : TextUnit} (ht : tables.Tables text)
    (h : unit.Collapsed text) : unitIndex tables unit = [0, 0] := by
  have hsize : tables.size = 0 := by rw [ht.size, h.1, List.length_nil]
  rcases h.2 with rfl | rfl <;> rw [unitIndex, hsize]

/-- `Move` changes the start it reports to have moved, unless it slips. -/
theorem move_advances {unit : TextUnit} {b : TextRange} (ht : tables.Tables text)
    (hmethod : action.method = .move unit count) (hreached : Reached tables unit action.call)
    (hb : b.AtBoundaries text) (hslips : ¬ action.Slips text) :
    Advances (moved (unitIndex tables unit) count b).2 b.begin
      (moved (unitIndex tables unit) count b).1.begin := by
  by_cases hcollapsed : unit.Collapsed text
  · have hcount : ¬ count < 0 := fun hneg =>
      hslips ⟨hreached.1, hreached.2.1, unit, hcollapsed, .inl ⟨count, hneg, hmethod⟩⟩
    obtain ⟨rfl, -⟩ := id hcollapsed
    rw [unitIndex_collapsed ht hcollapsed, eq_zero_of_atBoundaries hb, moved_collapsed]
    unfold Advances clamp
    omega
  · exact moved_advances (hreached.table ht) (ht.strict unit hcollapsed) hb

/-- `MoveEndpointByUnit` changes the endpoint it reports to have moved, unless it slips. -/
theorem moveEndpointByUnit_advances {endpoint : TextPatternRangeEndpoint} {unit : TextUnit}
    {b : TextRange} (ht : tables.Tables text)
    (hmethod : action.method = .moveEndpointByUnit endpoint unit count)
    (hreached : Reached tables unit action.call ∧ validEndpoint endpoint = true)
    (hb : b.AtBoundaries text) (hslips : ¬ action.Slips text) :
    Advances (movedEndpoint endpoint (unitIndex tables unit) count b).2 (endpointOffset b endpoint)
      (endpointOffset (movedEndpoint endpoint (unitIndex tables unit) count b).1 endpoint) := by
  obtain ⟨hreached, hendpoint⟩ := hreached
  by_cases hcollapsed : unit.Collapsed text
  · have hcount : ¬ 0 < count := fun hpos =>
      hslips ⟨hreached.1, hreached.2.1, unit, hcollapsed,
        .inr ⟨endpoint, count, hendpoint, hpos, hmethod⟩⟩
    obtain ⟨rfl, -⟩ := id hcollapsed
    rw [unitIndex_collapsed ht hcollapsed, eq_zero_of_atBoundaries hb, movedEndpoint_collapsed]
    unfold Advances clamp
    omega
  · exact movedEndpoint_advances (hreached.table ht) (ht.strict unit hcollapsed) hb

end TextRangeProvider

open TextRangeProvider

variable {s t : RangeState} {action : RangeAction} {range : TextRangeProvider}
  {result : TextRangeProvider × RangeReport} {tables : RangeText}

/-- **One call** on a range. -/
theorem RangeState.apply_applied (ht : tables.Tables text) (hsize : text.length < 2 ^ 31)
    (hi : s.InBounds text) (hmem : range ∈ s.ranges)
    (hs : s.apply tables action range = some result) : Applied text action range result := by
  have hrange := hi.bounds range hmem
  unfold RangeState.apply at hs
  split at hs
  next unit hmethod hnone =>
    obtain rfl := Option.some.inj hs
    exact expandToEnclosingUnit_outcome.applied hsize hrange hnone
      (fun hreached => expanded_atBoundaries (hreached.table ht))
      (fun _ _ _ hmoves => by simp [hmethod, RangeMethod.moves] at hmoves)
      (fun _ _ _ _ hmoves => by simp [hmethod, RangeMethod.moves] at hmoves)
  next unit count hmethod hnone =>
    obtain rfl := Option.some.inj hs
    refine move_outcome.applied hsize hrange hnone
      (fun hreached => moved_atBoundaries (hreached.table ht))
      (fun hreached endpoint count' hmoves => ?_)
      (fun hreached hslips endpoint count' hmoves => ?_)
    · obtain ⟨rfl, rfl⟩ : .start = endpoint ∧ count = count' := by
        simpa [hmethod, RangeMethod.moves] using hmoves
      exact moved_counted
    · obtain ⟨rfl, rfl⟩ : .start = endpoint ∧ count = count' := by
        simpa [hmethod, RangeMethod.moves] using hmoves
      exact move_advances ht hmethod hreached hrange hslips
  next endpoint unit count hmethod hnone =>
    obtain rfl := Option.some.inj hs
    refine moveEndpointByUnit_outcome.applied hsize hrange hnone
      (fun hreached => movedEndpoint_atBoundaries (hreached.1.table ht) hrange)
      (fun hreached endpoint' count' hmoves => ?_)
      (fun hreached hslips endpoint' count' hmoves => ?_)
    · obtain ⟨rfl, rfl⟩ : endpoint = endpoint' ∧ count = count' := by
        simpa [hmethod, RangeMethod.moves] using hmoves
      exact movedEndpoint_counted (hreached.1.table ht) hrange _ _
    · obtain ⟨rfl, rfl⟩ : endpoint = endpoint' ∧ count = count' := by
        simpa [hmethod, RangeMethod.moves] using hmoves
      exact moveEndpointByUnit_advances ht hmethod hreached hrange hslips
  next endpoint peer target hmethod hnone =>
    obtain rfl := Option.some.inj hs
    have hkept : ∀ p, range.pending = some p → IsGraphemeBoundary text p.offset := hi.pending range hmem
    unfold loadEndpoint
    split_ifs
    · exact applied_of_bounds hrange rfl rfl hkept
    · exact applied_of_bounds hrange rfl rfl hkept
    cases hpeer : s.ranges[peer]? with
    | none => exact applied_of_bounds hrange rfl rfl hkept
    | some other =>
      refine applied_of_bounds hrange rfl rfl fun p hp => ?_
      obtain rfl := Option.some.inj hp
      exact endpointOffset_boundary (hi.bounds other (List.mem_of_getElem? hpeer)) target
  next pending hmethod hpending =>
    obtain rfl := Option.some.inj hs
    have houtcome : Outcome True
        (fun bounds => (withEndpoint pending.endpoint pending.offset bounds, 0))
        { range with pending := none } (range.storeEndpoint pending action.call) :=
      exchange_outcome fun _ => trivial
    have hstill : ∀ endpoint count, action.method.moves ≠ some (endpoint, count) := by
      simp [hmethod, RangeMethod.moves]
    have happlied := houtcome.applied hsize hrange rfl
      (fun _ => withEndpoint_atBoundaries hrange (hi.pending range hmem pending hpending))
      (fun _ _ _ hmoves => absurd hmoves (hstill _ _))
      (fun _ _ _ _ hmoves => absurd hmoves (hstill _ _))
    exact ⟨happlied.bounds, happlied.pending, happlied.counted, happlied.advances⟩
  · cases hs

namespace RangeState

/-- **One step** is one call on one range. -/
theorem step_cases (hs : step tables s action = some t) :
    ∃ range result, s.ranges[action.range]? = some range ∧
      s.apply tables action range = some result ∧
      t = { ranges := s.ranges.set action.range result.1, report := result.2 } := by
  obtain ⟨range, hat, hs⟩ := Option.bind_eq_some_iff.1 hs
  obtain ⟨result, happly, rfl⟩ := Option.map_eq_some_iff.1 hs
  exact ⟨range, result, hat, happly, rfl⟩

theorem getElem?_set_range {ranges : List TextRangeProvider} {i : Nat} {old : TextRangeProvider}
    (hat : ranges[i]? = some old) (new : TextRangeProvider) :
    (ranges.set i new)[i]? = some new := by
  obtain ⟨hi, -⟩ := List.getElem?_eq_some_iff.1 hat
  simp [hi]

theorem step_inBounds (ht : tables.Tables text) (hsize : text.length < 2 ^ 31)
    (hi : s.InBounds text) (hs : step tables s action = some t) : t.InBounds text := by
  obtain ⟨range, result, hat, happly, rfl⟩ := step_cases hs
  have happlied := apply_applied ht hsize hi (List.mem_of_getElem? hat) happly
  constructor
  · intro other hother
    rcases List.mem_or_eq_of_mem_set hother with hother | rfl
    · exact hi.bounds other hother
    · exact happlied.bounds
  · intro other hother
    rcases List.mem_or_eq_of_mem_set hother with hother | rfl
    · exact hi.pending other hother
    · exact happlied.pending

theorem step_honest (ht : tables.Tables text) (hsize : text.length < 2 ^ 31)
    (hi : s.InBounds text) (hs : step tables s action = some t) (hslips : ¬ action.Slips text) :
    Honest ⟨s, action, t⟩ := by
  obtain ⟨range, result, hat, happly, rfl⟩ := step_cases hs
  have happlied := apply_applied ht hsize hi (List.mem_of_getElem? hat) happly
  intro endpoint count hmoves
  refine ⟨happlied.counted endpoint count hmoves, fun old new hold hnew => ?_⟩
  obtain rfl := Option.some.inj (hat.symm.trans hold)
  obtain rfl := Option.some.inj ((getElem?_set_range hat _).symm.trans hnew)
  exact happlied.advances hslips endpoint count hmoves

/-- A call that slips reports a move. -/
theorem apply_slips (ht : tables.Tables text) (hrange : (unpack range.bounds).AtBoundaries text)
    (hs : s.apply tables action range = some result) (hslips : action.Slips text) :
    result.2.moved ≠ 0 ∧ ∃ endpoint count, action.method.moves = some (endpoint, count) := by
  obtain ⟨havailable, hfailures, unit, hcollapsed, hmethod⟩ := hslips
  have hunits := unitIndex_collapsed ht hcollapsed
  obtain ⟨rfl, -⟩ := id hcollapsed
  have hzero := eq_zero_of_atBoundaries hrange
  cases hpending : range.pending with
  | some pending =>
    rcases hmethod with ⟨count, -, hmethod⟩ | ⟨endpoint, count, -, -, hmethod⟩
    · simp [apply, hmethod, hpending] at hs
    · simp [apply, hmethod, hpending] at hs
  | none =>
    rcases hmethod with ⟨count, hcount, hmethod⟩ | ⟨endpoint, count, hendpoint, hcount, hmethod⟩
    · refine ⟨?_, .start, count, by rw [hmethod, RangeMethod.moves]⟩
      simp only [apply, hmethod, hpending, Option.some.injEq] at hs
      have hmoved : result.2.moved = clamp (1 + count) 0 1 - 1 := by
        rw [← hs]
        simp [move, havailable, hunits, hcount.ne, exchange_eq, hfailures, hzero, moved_collapsed]
      unfold clamp at hmoved
      omega
    · refine ⟨?_, endpoint, count, by rw [hmethod, RangeMethod.moves]⟩
      simp only [apply, hmethod, hpending, Option.some.injEq] at hs
      have hmoved : result.2.moved = clamp count 0 1 := by
        rw [← hs]
        simp [moveEndpointByUnit, havailable, hunits, hendpoint, hcount.ne', exchange_eq,
          hfailures, hzero, movedEndpoint_collapsed]
      unfold clamp at hmoved
      omega

/-- A step that slips is not honest: nothing changes in an empty text. -/
theorem not_honest_of_slips (ht : tables.Tables text) (hsize : text.length < 2 ^ 31)
    (hi : s.InBounds text) (hs : step tables s action = some t) (hslips : action.Slips text) :
    ¬ Honest ⟨s, action, t⟩ := by
  have hafter := step_inBounds ht hsize hi hs
  obtain ⟨range, result, hat, happly, rfl⟩ := step_cases hs
  have hbefore := hi.bounds range (List.mem_of_getElem? hat)
  obtain ⟨hmoved, endpoint, count, hmoves⟩ := apply_slips ht hbefore happly hslips
  have hset := getElem?_set_range hat result.1
  have hresult := hafter.bounds result.1 (List.mem_of_getElem? hset)
  obtain ⟨-, -, unit, hcollapsed, -⟩ := hslips
  obtain ⟨rfl, -⟩ := hcollapsed
  intro hhonest
  have hadvances := (hhonest endpoint count hmoves).2 range result.1 hat hset
  rw [eq_zero_of_atBoundaries hbefore, eq_zero_of_atBoundaries hresult] at hadvances
  dsimp only at hadvances
  rcases lt_trichotomy result.2.moved 0 with hneg | hzero | hpos
  · exact Nat.lt_irrefl _ (hadvances.2 hneg)
  · exact hmoved hzero
  · exact Nat.lt_irrefl _ (hadvances.1 hpos)

/-! ## Runs -/

/-- The same move of the same range over and over, each time reporting that it moved. -/
structure Repeats (i : Nat) (method : RangeMethod) (tr : List (Transition RangeState RangeAction)) :
    Prop where
  same : ∀ x ∈ tr, x.action.range = i ∧ x.action.method = method
  moved : ∀ x ∈ tr, x.post.report.moved ≠ 0

/-- The distance an endpoint has gone in honest steps that all report a move. -/
theorem Repeats.distance {i : Nat} {method : RangeMethod} {endpoint : TextPatternRangeEndpoint}
    {tr : List (Transition RangeState RangeAction)} (hr : Repeats i method tr)
    (hmoves : method.moves = some (endpoint, count)) (ht : tables.Tables text)
    (hsize : text.length < 2 ^ 31) (h : Trace (step tables) s tr t) (hi : s.InBounds text)
    (hhonest : ∀ x ∈ tr, Honest x) (hne : tr ≠ []) :
    ∃ range, s.ranges[i]? = some range ∧
      (0 < count ∧ endpointOffset (unpack range.bounds) endpoint + tr.length ≤ text.length ∨
        count < 0 ∧ tr.length ≤ endpointOffset (unpack range.bounds) endpoint) := by
  induction h with
  | nil => exact absurd rfl hne
  | @cons s u t action tr hs h ih =>
    have hafter := step_inBounds ht hsize hi hs
    obtain ⟨range, result, hat, happly, rfl⟩ := step_cases hs
    obtain ⟨rfl, rfl⟩ := hr.same _ List.mem_cons_self
    have hset := getElem?_set_range hat result.1
    have hmoved : result.2.moved ≠ 0 := hr.moved _ List.mem_cons_self
    have hhonest₁ := hhonest _ List.mem_cons_self endpoint count hmoves
    have hcounted : Counted count result.2.moved := hhonest₁.1
    have hadvances : Advances result.2.moved _ _ := hhonest₁.2 range result.1 hat hset
    have hresult := (endpointOffset_boundary
      (hafter.bounds result.1 (List.mem_of_getElem? hset)) endpoint).le
    unfold Counted at hcounted
    unfold Advances at hadvances
    refine ⟨range, hat, ?_⟩
    rw [List.length_cons]
    by_cases hnil : tr = []
    · subst hnil
      rw [List.length_nil]
      omega
    · obtain ⟨range', hat', hrest⟩ := ih
        ⟨fun x hx => hr.same x (List.mem_cons_of_mem _ hx),
          fun x hx => hr.moved x (List.mem_cons_of_mem _ hx)⟩ hafter
        (fun x hx => hhonest x (List.mem_cons_of_mem _ hx)) hnil
      obtain rfl := Option.some.inj (hset.symm.trans hat')
      omega

theorem Repeats.length_le {i : Nat} {method : RangeMethod} {endpoint : TextPatternRangeEndpoint}
    {tr : List (Transition RangeState RangeAction)} (hr : Repeats i method tr)
    (hmoves : method.moves = some (endpoint, count)) (ht : tables.Tables text)
    (hsize : text.length < 2 ^ 31) (h : Trace (step tables) s tr t) (hi : s.InBounds text)
    (hhonest : ∀ x ∈ tr, Honest x) : tr.length ≤ text.length := by
  by_cases hne : tr = []
  · rw [hne, List.length_nil]
    exact Nat.zero_le _
  · obtain ⟨range, hat, hdistance⟩ := hr.distance hmoves ht hsize h hi hhonest hne
    have hle := (endpointOffset_boundary (hi.bounds range (List.mem_of_getElem? hat)) endpoint).le
    omega

/-- The ranges as they are handed out: at boundaries, with no change pending. -/
def Fresh (text : List UInt8) (s : RangeState) : Prop :=
  ∀ range ∈ s.ranges, (unpack range.bounds).AtBoundaries text ∧ range.pending = none

theorem Fresh.inBounds (h : s.Fresh text) : s.InBounds text where
  bounds range hrange := (h range hrange).1
  pending range hrange _ hp := absurd ((h range hrange).2.symm.trans hp) nofun

/-- **Text ranges** of a published node: every run of their methods keeps them between boundaries
of the text; what a move reports is true, and repeating it comes to an end, exactly as long as no
call moves by the whole document over an empty text against the end its search starts from. -/
theorem textRanges {F : Type} [DoubleOps F] {snapshot : PublishedSnapshot F}
    (h : snapshot.Validated) {node : Node F} (hnode : node ∈ snapshot.storage.nodes)
    {content : TextContent F} (htext : node.text = some content) :
    ∃ cache, indexTextUnits content = some cache ∧ ∀ s t tr, s.Fresh content.utf8 →
      Trace (step { size := content.utf8.length, cache }) s tr t →
      (∀ x ∈ tr, ∀ range ∈ x.post.ranges, (unpack range.bounds).AtBoundaries content.utf8 ∧
        (unpack range.bounds).end_ ≤ content.utf8.length) ∧
      ((∀ x ∈ tr, Honest x) ↔ ∀ x ∈ tr, ¬ x.action.Slips content.utf8) ∧
      ((∀ x ∈ tr, ¬ x.action.Slips content.utf8) →
        ∀ before repeated after i method endpoint count, tr = before ++ repeated ++ after →
          Repeats i method repeated → method.moves = some (endpoint, count) →
          repeated.length ≤ content.utf8.length) := by
  obtain ⟨view, limits, fuel, result, rfl, hrun, hok⟩ := h
  obtain ⟨root, hchecked⟩ := checked_of_validate hrun hok
  have hclean := hchecked.clean node hnode
  have hsize := hclean.size content htext
  have hvalid : utf8Code.IsText content.utf8 :=
    Unicode.Utf8.validate_valid_iff.1 (by simpa [validUtf8] using hclean.text content htext)
  have hitems : ∀ item ∈ content.annotations, item.range.AtBoundaries content.utf8 :=
    fun item hitem => atBoundaries_of_validRange hvalid (hclean.annotations content htext item hitem)
  obtain ⟨cache, hcache, ht⟩ := indexTextUnits_tables hvalid hitems
  refine ⟨cache, hcache, fun s t tr hfresh htrace => ?_⟩
  have hinvariant := htrace.invariant_of_step hfresh.inBounds
    fun s a t hi hs => step_inBounds ht hsize hi hs
  have hhonest : (∀ x ∈ tr, ¬ x.action.Slips content.utf8) → ∀ x ∈ tr, Honest x :=
    fun hslips x hx =>
      step_honest ht hsize (hinvariant.2 x hx).1 (htrace.mem_step hx) (hslips x hx)
  refine ⟨fun x hx range hrange => ?_, ⟨fun hall x hx hslips => ?_, hhonest⟩, ?_⟩
  · have hbounds := (hinvariant.2 x hx).2.bounds range hrange
    exact ⟨hbounds, hbounds.end_le⟩
  · exact not_honest_of_slips ht hsize (hinvariant.2 x hx).1 (htrace.mem_step hx) hslips (hall x hx)
  · rintro hslips before repeated after i method endpoint count rfl hrepeats hmoves
    obtain ⟨u, hfirst, -⟩ := htrace.of_append
    obtain ⟨v, hbefore, hrepeated⟩ := hfirst.of_append
    have hv := (hbefore.invariant_of_step hfresh.inBounds
      fun s a t hi hs => step_inBounds ht hsize hi hs).1
    exact hrepeats.length_le hmoves ht hsize hrepeated hv fun x hx =>
      hhonest hslips x (List.mem_append_left _ (List.mem_append_right _ hx))

/-! ## Two texts -/

def textContent (utf8 : List UInt8) : TextContent Int := { utf8 }

/-- A snapshot of one text. -/
def textSnapshot (utf8 : List UInt8) : SnapshotView Int where
  generation := 1
  root := 10
  nodes := [{ id := 10, text := some (textContent utf8) }]

/-- The tables of the text "a b", and a range over its first character with a caret at its end. -/
def wordTables : RangeText where
  size := 3
  cache := { graphemes := [0, 1, 2, 3], words := [0, 2, 3], lines := [0, 3], formats := [0, 3] }

def wordRanges : RangeState where
  ranges := [{ bounds := pack { begin := 0, end_ := 1 } }, { bounds := pack { begin := 3, end_ := 3 } }]

/-- The range moves to the next word, shrinks, and takes over the end of the caret. -/
def wordActions : List RangeAction := [
  { range := 0, method := .move .word 4 },
  { range := 0, method := .moveEndpointByUnit .end_ .character (-5), call := { failures := 7 } },
  { range := 0, method := .loadEndpoint .end_ 1 .start },
  { range := 1, method := .move .document (-1) },
  { range := 0, method := .storeEndpoint },
  { range := 0, method := .expandToEnclosingUnit .line, call := { failures := 8 } }]

theorem wordRanges_fresh : wordRanges.Fresh [0x61, 0x20, 0x62] := by
  have ht : utf8Code.IsText [0x61, 0x20, 0x62] :=
    Unicode.Utf8.validate_valid_iff.1 (by decide +kernel)
  have hboundary : ∀ b ∈ [0, 1, 3], IsGraphemeBoundary [0x61, 0x20, 0x62] b := fun b hb =>
    (isGraphemeBoundary_iff ht).2
      ((show ∀ b ∈ [0, 1, 3], b ∈ Unicode.Utf8.segmentation [0x61, 0x20, 0x62] by
        decide +kernel) b hb)
  have hranges : ∀ range ∈ wordRanges.ranges, (unpack range.bounds).begin ≤ (unpack range.bounds).end_ ∧
      (unpack range.bounds).begin ∈ [0, 1, 3] ∧ (unpack range.bounds).end_ ∈ [0, 1, 3] ∧
      range.pending = none := by decide +kernel
  intro range hrange
  obtain ⟨horder, hfirst, hlast, hnone⟩ := hranges range hrange
  exact ⟨⟨horder, hboundary _ hfirst, hboundary _ hlast⟩, hnone⟩

theorem textRanges_wordActions :
    (Lib.run (step wordTables) wordRanges wordActions).map (fun r =>
      (r.1.map fun x => x.post.report.moved, r.2.ranges.map fun range => unpack range.bounds)) =
      some ([1, -3, 0, -1, 0, 0], [{ begin := 0, end_ := 3 }, { begin := 0, end_ := 0 }]) ∧
    ∀ r, Lib.run (step wordTables) wordRanges wordActions = some r → ∀ x ∈ r.1, Honest x := by
  refine ⟨by decide +kernel, fun r hr => ?_⟩
  have hvalidated : (publishedSnapshot (textSnapshot [0x61, 0x20, 0x62])).Validated :=
    ⟨_, {}, 2, {}, rfl, by decide +kernel, by decide⟩
  obtain ⟨cache, hcache, hruns⟩ := textRanges hvalidated (List.mem_singleton_self _)
    (show _ = some (textContent [0x61, 0x20, 0x62]) from rfl)
  obtain rfl : wordTables.cache = cache :=
    Option.some.inj ((show some wordTables.cache = indexTextUnits (textContent [0x61, 0x20, 0x62]) by
      decide +kernel).trans hcache)
  obtain ⟨-, hiff, -⟩ := hruns _ _ _ wordRanges_fresh (Trace.of_run hr)
  refine hiff.2 fun x _ hslips => ?_
  obtain ⟨-, -, unit, hcollapsed, -⟩ := hslips
  exact absurd hcollapsed.1 nofun

/-- The empty text, whose document is 0 twice. -/
def emptyTables : RangeText where
  size := 0
  cache := { graphemes := [0], words := [0], lines := [0], formats := [0] }

def emptyRanges (report : RangeReport) : RangeState where
  ranges := [{ bounds := pack { begin := 0, end_ := 0 } }]
  report

def moveBack : RangeAction := { range := 0, method := .move .document (-1) }

/-- In the empty text, moving back by the document reports a move each time and changes nothing. -/
theorem textRanges_emptyDocument :
    validate (textSnapshot []) {} 2 = some {} ∧
    indexTextUnits (textContent []) = some emptyTables.cache ∧
    (emptyRanges { result := .ok }).Fresh [] ∧
    step emptyTables (emptyRanges { result := .ok }) moveBack =
      some (emptyRanges { result := .ok, moved := -1 }) ∧
    step emptyTables (emptyRanges { result := .ok, moved := -1 }) moveBack =
      some (emptyRanges { result := .ok, moved := -1 }) ∧
    ¬ Honest ⟨emptyRanges { result := .ok }, moveBack,
      emptyRanges { result := .ok, moved := -1 }⟩ := by
  refine ⟨by decide +kernel, by decide +kernel, fun range hrange => ?_, by decide +kernel,
    by decide +kernel, fun h => ?_⟩
  · have hboundary : IsGraphemeBoundary [] 0 := (isGraphemeBoundary_ends utf8Code.isText_nil).1
    rw [List.mem_singleton.1 hrange]
    exact ⟨⟨le_rfl, hboundary, hboundary⟩, rfl⟩
  · have hadvances := (h .start (-1) rfl).2 _ _ rfl rfl
    exact absurd (hadvances.2 (by decide)) (Nat.lt_irrefl _)

end RangeState

end Desktop

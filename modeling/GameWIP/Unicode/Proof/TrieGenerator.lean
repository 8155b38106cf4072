import Mathlib.Data.List.Range
import Mathlib.Data.Prod.Lex
import GameWIP.Lib.BlockTable
import GameWIP.Lib.Least
import GameWIP.Lib.WordFields
import GameWIP.Unicode.TrieGenerator

/-!
# The generated trie is the data

Each stage of the generator puts fields into the bytes of code points (`PutsFields.fields`), a trie of
any block size reads back as the bytes (`TrieOf.packed`), and so the lookup in a generated header gives
what the last records of the data files say of a code point (`generate_properties`). The trie is the
smallest of the candidates and its indexes fit their type (`generate_table`).
-/

namespace Unicode

namespace Generator

open Lib (Field putField putFields lastOf Fits)

/-! ## Bytes under records -/

theorem getElem?_update (f : Byte → Byte) {points : List Nat} (h : points.Nodup) (data : List Byte)
    (codePoint : Nat) : (update f data points)[codePoint]? =
      if codePoint ∈ points then data[codePoint]?.map f else data[codePoint]? := by
  induction points generalizing data with
  | nil => rfl
  | cons point points ih =>
    obtain ⟨hnew, hnodup⟩ := List.nodup_cons.1 h
    have hstep := ih hnodup (data.modify point f)
    rw [List.getElem?_modify] at hstep
    refine hstep.trans ?_
    by_cases hpoint : point = codePoint
    · subst hpoint
      simp [hnew]
    · simp [hpoint, Ne.symm hpoint]

/-- The record covers the code point. -/
def Record.covers (record : Record) (codePoint : Nat) : Bool :=
  record.first ≤ codePoint && codePoint ≤ record.last

theorem codePoints_eq_ok {record : Record} {points : List Nat} (h : codePoints record = .ok points) :
    points.Nodup ∧ ∀ codePoint, codePoint ∈ points ↔ record.covers codePoint = true := by
  unfold codePoints at h
  split_ifs at h with hrange
  obtain rfl := Except.ok.inj h
  refine ⟨List.nodup_range', fun codePoint => ?_⟩
  rw [List.mem_range'_1, Record.covers, Bool.and_eq_true, decide_eq_true_eq, decide_eq_true_eq]
  omega

theorem getElem?_update_codePoints {record : Record} {points : List Nat}
    (h : codePoints record = .ok points) (f : Byte → Byte) (data : List Byte) (codePoint : Nat) :
    (update f data points)[codePoint]? =
      if record.covers codePoint = true then data[codePoint]?.map f else data[codePoint]? := by
  obtain ⟨hnodup, hmem⟩ := codePoints_eq_ok h
  rw [getElem?_update f hnodup]
  simp only [hmem]

/-! ### The fields of records -/

/-- What holds of the values of a table and of the default holds of a lookup. -/
theorem lookup_getD {α β : Type} [BEq α] {P : β → Prop} {l : List (α × β)} {default : β}
    (hdefault : P default) (hall : ∀ entry ∈ l, P entry.2) (key : α) :
    P ((l.lookup key).getD default) := by
  induction l with
  | nil => exact hdefault
  | cons entry l ih =>
    obtain ⟨k, v⟩ := entry
    rw [List.lookup_cons]
    split
    · exact hall _ List.mem_cons_self
    · exact ih fun e he => hall e (List.mem_cons_of_mem _ he)

theorem gcbValues_fit (name : String) : Fits gcbMask ((gcbValues.lookup name).getD 0) :=
  lookup_getD (by unfold Fits; decide) (by unfold Fits; decide) name

theorem incbValues_fit (name : String) :
    Fits incbMask (((incbValues.lookup name).getD 0) <<< 4) := by
  have hzero : Fits incbMask ((0 : Byte) <<< 4) := by
    unfold Fits
    decide
  have hall : ∀ entry ∈ incbValues, Fits incbMask (entry.2 <<< 4) := by
    unfold Fits
    decide +kernel
  have hvalue := lookup_getD (P := fun value : Byte => Fits incbMask (value <<< 4)) hzero hall name
  exact hvalue

def gcbField (name : String) : Field 8 where
  mask := gcbMask
  value := (gcbValues.lookup name).getD 0
  fits := gcbValues_fit name

def incbField (name : String) : Field 8 where
  mask := incbMask
  value := ((incbValues.lookup name).getD 0) <<< 4
  fits := incbValues_fit name

def extendedPictographicField : Field 8 where
  mask := extendedPictographicMask
  value := extendedPictographicMask
  fits := rfl

/-- The records of a property that cover a code point, in their order. -/
def covering (records : List Record) (property : String) (codePoint : Nat) : List Record :=
  records.filter fun record => record.property = property && record.covers codePoint

def gcbFields (records : List Record) (codePoint : Nat) : List (Field 8) :=
  (records.filter fun record => record.covers codePoint).map fun record => gcbField record.property

def incbFields (records : List Record) (codePoint : Nat) : List (Field 8) :=
  (covering records "InCB" codePoint).map fun record => incbField (record.more.headD "")

def extendedPictographicFields (records : List Record) (codePoint : Nat) : List (Field 8) :=
  (covering records "Extended_Pictographic" codePoint).map fun _ => extendedPictographicField

/-- Bytes with fields put into each. -/
def PutInto (data data' : List Byte) (fields : Nat → List (Field 8)) : Prop :=
  ∀ codePoint : Nat, data'[codePoint]? = data[codePoint]?.map (putFields (fields codePoint))

theorem PutInto.refl (data : List Byte) : PutInto data data fun _ => [] := by
  intro codePoint
  cases data[codePoint]? <;> rfl

theorem PutInto.trans {a b c : List Byte} {first second : Nat → List (Field 8)}
    (hab : PutInto a b first) (hbc : PutInto b c second) :
    PutInto a c fun codePoint => first codePoint ++ second codePoint := by
  intro codePoint
  rw [hbc codePoint, hab codePoint, Option.map_map]
  congr 1
  funext byte
  simp [putFields]

theorem PutInto.length_eq {a b : List Byte} {fields : Nat → List (Field 8)} (h : PutInto a b fields) :
    b.length = a.length := by
  have hnone : ∀ k : Nat, b.length ≤ k ↔ a.length ≤ k := by
    intro k
    rw [← List.getElem?_eq_none_iff, ← List.getElem?_eq_none_iff, h k, Option.map_eq_none_iff]
  exact le_antisymm ((hnone _).2 le_rfl) ((hnone _).1 le_rfl)

/-- The bytes of one record. -/
theorem putInto_update {record : Record} {points : List Nat} (h : codePoints record = .ok points)
    (field : Field 8) (data : List Byte) :
    PutInto data (update (putField field.mask field.value) data points)
      fun codePoint => if record.covers codePoint = true then [field] else [] := by
  intro codePoint
  rw [getElem?_update_codePoints h]
  by_cases hcovers : record.covers codePoint = true
  · simp only [if_pos hcovers]
    rfl
  · simp only [if_neg hcovers]
    cases data[codePoint]? <;> rfl

/-- The range of a record lies in the code points. -/
def Record.Valid (record : Record) : Prop :=
  record.first ≤ record.last ∧ record.last ≤ maxCodePoint

theorem codePoints_ok {record : Record} (h : record.Valid) :
    ∃ points, codePoints record = .ok points :=
  ⟨_, if_neg fun hrange => hrange.elim (fun hlt => Nat.not_lt.2 h.2 hlt)
    fun hlt => Nat.not_lt.2 h.1 hlt⟩

/-- A loop over records that puts `field record` into the code points of those it reads, which have to
be as `Good` says. -/
structure PutsFields (apply : List Byte → List Record → Except ValueError (List Byte))
    (reads : Record → Bool) (Good : Record → Prop) (field : Record → Field 8) : Prop where
  nil : ∀ data, apply data [] = .ok data
  skip : ∀ data record records, reads record = false →
    apply data (record :: records) = apply data records
  good : ∀ {data record records data'}, reads record = true →
    apply data (record :: records) = .ok data' → Good record ∧ ∃ points, codePoints record = .ok points
  put : ∀ data record records points, reads record = true → Good record →
    codePoints record = .ok points → apply data (record :: records) =
      apply (update (putField (field record).mask (field record).value) data points) records

namespace PutsFields

variable {apply : List Byte → List Record → Except ValueError (List Byte)} {reads : Record → Bool}
  {Good : Record → Prop} {field : Record → Field 8}

theorem fields (h : PutsFields apply reads Good field) {records : List Record} {data data' : List Byte}
    (hdata : apply data records = .ok data') : PutInto data data' fun codePoint =>
      (records.filter fun record => reads record && record.covers codePoint).map field := by
  induction records generalizing data with
  | nil =>
    obtain rfl := Except.ok.inj ((h.nil data).symm.trans hdata)
    exact .refl data
  | cons record records ih =>
    intro codePoint
    cases hreads : reads record with
    | false =>
      rw [h.skip data record records hreads] at hdata
      rw [ih hdata codePoint]
      simp [hreads]
    | true =>
      obtain ⟨hgood, points, hpoints⟩ := h.good hreads hdata
      rw [h.put data record records points hreads hgood hpoints] at hdata
      rw [(putInto_update hpoints (field record) data).trans (ih hdata) codePoint]
      by_cases hcovers : record.covers codePoint = true <;> simp [hreads, hcovers]

theorem eq_ok (h : PutsFields apply reads Good field) {records : List Record}
    (hall : ∀ record ∈ records, reads record = true → record.Valid ∧ Good record) (data : List Byte) :
    ∃ data', apply data records = .ok data' := by
  induction records generalizing data with
  | nil => exact ⟨data, h.nil data⟩
  | cons record records ih =>
    have ih := fun data => ih (fun r hr => hall r (List.mem_cons_of_mem _ hr)) data
    cases hreads : reads record with
    | false =>
      rw [h.skip data record records hreads]
      exact ih data
    | true =>
      obtain ⟨hvalid, hgood⟩ := hall record List.mem_cons_self hreads
      obtain ⟨points, hpoints⟩ := codePoints_ok hvalid
      rw [h.put data record records points hreads hgood hpoints]
      exact ih _

end PutsFields

theorem applyGraphemeBreak_puts : PutsFields applyGraphemeBreak (fun _ => true)
    (fun record => ∃ value, gcbValues.lookup record.property = some value)
    fun record => gcbField record.property where
  nil _ := rfl
  skip _ _ _ h := by cases h
  good {data record records data'} _ h := by
    unfold applyGraphemeBreak at h
    split at h
    · cases h
    · split at h
      · cases h
      · exact ⟨⟨_, ‹_›⟩, _, ‹_›⟩
  put data record records points _ hgood hpoints := by
    obtain ⟨value, hvalue⟩ := hgood
    have hfield : (gcbField record.property).value = value := congrArg (Option.getD · 0) hvalue
    rw [hfield]
    simp only [applyGraphemeBreak, hvalue, hpoints]
    rfl

theorem applyIndicConjunctBreak_puts : PutsFields applyIndicConjunctBreak
    (fun record => decide (record.property = "InCB"))
    (fun record => ∃ name more value, record.more = name :: more ∧ incbValues.lookup name = some value)
    fun record => incbField (record.more.headD "") where
  nil _ := rfl
  skip _ _ _ h := if_pos (of_decide_eq_false h)
  good {data record records data'} hreads h := by
    unfold applyIndicConjunctBreak at h
    rw [if_neg (not_not.2 (of_decide_eq_true hreads))] at h
    split at h
    · cases h
    · split at h
      · cases h
      · split at h
        · cases h
        · exact ⟨⟨_, _, _, ‹_›, ‹_›⟩, _, ‹_›⟩
  put data record records points hreads hgood hpoints := by
    obtain ⟨name, more, value, hmore, hvalue⟩ := hgood
    have hfield : (incbField (record.more.headD "")).value = value <<< 4 := by
      rw [hmore]
      exact congrArg (fun value : Option Byte => value.getD 0 <<< 4) hvalue
    rw [hfield, applyIndicConjunctBreak, if_neg (not_not.2 (of_decide_eq_true hreads))]
    simp only [hmore, hvalue, hpoints]
    rfl

theorem applyExtendedPictographic_puts : PutsFields applyExtendedPictographic
    (fun record => decide (record.property = "Extended_Pictographic")) (fun _ => True)
    fun _ => extendedPictographicField where
  nil _ := rfl
  skip _ _ _ h := if_pos (of_decide_eq_false h)
  good {data record records data'} hreads h := by
    unfold applyExtendedPictographic at h
    rw [if_neg (not_not.2 (of_decide_eq_true hreads))] at h
    split at h
    · cases h
    · exact ⟨trivial, _, ‹_›⟩
  put data record records points hreads _ hpoints := by
    have hself : (fun byte : Byte => byte ||| extendedPictographicMask) =
        putField extendedPictographicField.mask extendedPictographicField.value :=
      funext fun byte => Lib.putField_self.symm
    rw [applyExtendedPictographic, if_neg (not_not.2 (of_decide_eq_true hreads)), hpoints, ← hself]

/-! ## The removed ranges -/

theorem length_zeroSlice {data : List Byte} {first stop : Nat} (h : first ≤ stop)
    (hstop : stop ≤ data.length) : (zeroSlice data first stop).length = data.length := by
  simp only [zeroSlice, List.length_append, List.length_take, List.length_replicate,
    List.length_drop]
  omega

theorem getElem?_zeroSlice {data : List Byte} {first stop k : Nat} (h : first ≤ stop)
    (hstop : stop ≤ data.length) (hout : k < first ∨ stop ≤ k) :
    (zeroSlice data first stop)[k]? = data[k]? := by
  have hfirst : (data.take first).length = first := by
    rw [List.length_take]
    omega
  unfold zeroSlice
  rcases hout with hlt | hge
  · rw [List.append_assoc, List.getElem?_append_left (by omega), List.getElem?_take_of_lt hlt]
  · have hprefix : (data.take first ++ List.replicate (stop - first) (0 : Byte)).length = stop := by
      rw [List.length_append, hfirst, List.length_replicate]
      omega
    rw [List.getElem?_append_right (by omega), hprefix, List.getElem?_drop]
    congr 1
    omega

theorem length_removeAlgorithmicRanges {data : List Byte} (h : data.length = codePointCount) :
    (removeAlgorithmicRanges data).length = codePointCount := by
  have hascii : (zeroSlice data 0x0000 0x0080).length = codePointCount :=
    (length_zeroSlice (by decide) (by rw [h]; decide)).trans h
  exact (length_zeroSlice (by decide) (by rw [hascii]; decide)).trans hascii

theorem getElem?_removeAlgorithmicRanges {data : List Byte} (h : data.length = codePointCount)
    {codePoint : Nat} (hascii : ¬codePoint ≤ 0x7F) (hhangul : ¬(0xAC00 ≤ codePoint ∧ codePoint ≤ 0xD7A3)) :
    (removeAlgorithmicRanges data)[codePoint]? = data[codePoint]? := by
  have hlength : (zeroSlice data 0x0000 0x0080).length = codePointCount :=
    (length_zeroSlice (by decide) (by rw [h]; decide)).trans h
  unfold removeAlgorithmicRanges
  rw [getElem?_zeroSlice (by decide) (by rw [hlength]; decide) (by omega),
    getElem?_zeroSlice (by decide) (by rw [h]; decide) (by omega)]

/-! ## The blocks of a trie -/

theorem lastNonDefault_spec {data : List Byte} {last : Nat} (h : lastNonDefault data = some last) :
    last < data.length ∧ ∀ (k : Nat) (byte : Byte), last < k → data[k]? = some byte → byte = 0 := by
  obtain ⟨hmem, hmax⟩ := List.max?_eq_some_iff.1 h
  refine ⟨?_, fun k byte hlt hbyte => ?_⟩
  · obtain ⟨entry, hentry, rfl⟩ := List.mem_map.1 hmem
    exact List.snd_lt_of_mem_zipIdx (List.mem_of_mem_filter hentry)
  · by_contra hne
    have hk := hmax k (List.mem_map.2 ⟨(byte, k),
      List.mem_filter.2 ⟨List.mem_zipIdx_iff_getElem?.2 hbyte, by simpa using hne⟩, rfl⟩)
    omega

theorem lookup_zipIdx {β : Type} [BEq β] [LawfulBEq β] (l : List β) (block : β) (n : Nat) :
    (l.zipIdx n).lookup block = if block ∈ l then some (n + l.idxOf block) else none := by
  induction l generalizing n with
  | nil => rfl
  | cons b l ih =>
    rw [List.zipIdx_cons, List.lookup_cons, List.idxOf_cons]
    by_cases hb : block = b
    · subst hb
      simp
    · rw [beq_false_of_ne hb, beq_false_of_ne (Ne.symm hb), ih]
      by_cases hmem : block ∈ l
      · simp only [hmem, if_true, List.mem_cons, or_true, cond_false, Option.some.injEq]
        omega
      · simp [hmem, hb]

/-- The loop over the blocks interns them. -/
theorem blockLoop_intern (blocks : List (List Byte)) :
    blocks.foldl BlockLoop.step {} =
      ⟨(Lib.intern blocks).kept, (Lib.intern blocks).kept.zipIdx, (Lib.intern blocks).names⟩ := by
  have hfold : ∀ table : Lib.Interned (List Byte),
      blocks.foldl BlockLoop.step ⟨table.kept, table.kept.zipIdx, table.names⟩ =
        ⟨(blocks.foldl Lib.Interned.add table).kept,
          (blocks.foldl Lib.Interned.add table).kept.zipIdx,
          (blocks.foldl Lib.Interned.add table).names⟩ := by
    induction blocks with
    | nil => exact fun _ => rfl
    | cons block blocks ih =>
      intro table
      have hstep : BlockLoop.step ⟨table.kept, table.kept.zipIdx, table.names⟩ block =
          ⟨(table.add block).kept, (table.add block).kept.zipIdx, (table.add block).names⟩ := by
        unfold BlockLoop.step Lib.Interned.add
        rw [lookup_zipIdx]
        by_cases hmem : block ∈ table.kept
        · simp [hmem]
        · simp [hmem, List.zipIdx_append]
      rw [List.foldl_cons, List.foldl_cons, hstep]
      exact ih (table.add block)
  exact hfold ⟨[], []⟩

/-- The blocks of a trie: slices of one size, up to the end of the last that is not all zero. -/
def rows (data : List Byte) (shift last : Nat) : List (List Byte) :=
  (List.range' 0 (last / 2 ^ shift + 1) (2 ^ shift)).map fun start =>
    (data.drop start).take (2 ^ shift)

/-- What `buildTrie` builds of some bytes, of which `last` is the last that is not zero. -/
structure TrieOf (data : List Byte) (shift last : Nat) (trie : GeneratedTrie) : Prop where
  lastNonDefault : lastNonDefault data = some last
  blockShift : trie.blockShift = shift
  highStart : trie.highStart = (last / 2 ^ shift + 1) * 2 ^ shift
  indexes : trie.indexes = (Lib.intern (rows data shift last)).names
  blocks : trie.blocks = (Lib.intern (rows data shift last)).kept
  fits : trie.blocks.length ≤ 256 ^ 4 → trie.blocks.length ≤ 256 ^ indexWidth trie

theorem buildTrie_of {data : List Byte} {shift : Nat} {trie : GeneratedTrie}
    (h : buildTrie data shift = .ok trie) : ∃ last, TrieOf data shift last trie := by
  cases hlast : lastNonDefault data with
  | none => simp [buildTrie, hlast] at h
  | some last =>
    have hpow : 0 < 2 ^ shift := Nat.two_pow_pos shift
    have hhigh : (last + 2 ^ shift) - (last + 2 ^ shift) % 2 ^ shift =
        (last / 2 ^ shift + 1) * 2 ^ shift := by
      rw [← Nat.add_div_right _ hpow, Nat.mul_comm]
      exact Nat.sub_eq_of_eq_add (Nat.div_add_mod _ _).symm
    have hcount : ((last / 2 ^ shift + 1) * 2 ^ shift + 2 ^ shift - 1) / 2 ^ shift =
        last / 2 ^ shift + 1 := by
      rw [Nat.add_sub_assoc hpow, Nat.mul_comm, Nat.mul_add_div hpow,
        Nat.div_eq_of_lt (Nat.sub_lt hpow Nat.one_pos), Nat.add_zero]
    have hrows : ((List.range' 0 (last / 2 ^ shift + 1) (2 ^ shift)).map fun start =>
        (data.drop start).take (2 ^ shift)) = rows data shift last := rfl
    simp only [buildTrie, hlast, Nat.one_shiftLeft, Nat.and_two_pow_sub_one_eq_mod, hhigh, hcount,
      hrows, blockLoop_intern] at h
    obtain rfl := Except.ok.inj h
    refine ⟨last, hlast, rfl, rfl, rfl, rfl, fun hfits => ?_⟩
    simp only [indexWidth] at hfits ⊢
    generalize (Lib.intern (rows data shift last)).kept.length = count at hfits ⊢
    by_cases hbyte : count ≤ 0x100
    · rw [if_pos hbyte]
      exact hbyte
    · by_cases hword : count ≤ 0x10000
      · rw [if_neg hbyte, if_pos hword]
        exact hword
      · rw [if_neg hbyte, if_neg hword]
        exact hfits

theorem rows_getElem {data : List Byte} {shift last k : Nat} (h : k ≤ last / 2 ^ shift) :
    (rows data shift last)[k]? = some ((data.drop (k * 2 ^ shift)).take (2 ^ shift)) := by
  rw [rows, List.getElem?_map, List.getElem?_range' (by omega), Option.map_some, Nat.zero_add,
    Nat.mul_comm]

/-- The blocks lie in the bytes. -/
theorem blocks_le {data : List Byte} {shift last : Nat} (hdvd : 2 ^ shift ∣ data.length)
    (hlast : last < data.length) : (last / 2 ^ shift + 1) * 2 ^ shift ≤ data.length := by
  obtain ⟨blocks, hblocks⟩ := hdvd
  rw [hblocks, Nat.mul_comm (2 ^ shift)]
  refine Nat.mul_le_mul_right _ (Nat.succ_le_of_lt ?_)
  rw [Nat.div_lt_iff_lt_mul (Nat.two_pow_pos shift), Nat.mul_comm, ← hblocks]
  exact hlast

theorem length_of_mem_rows {data : List Byte} {shift last : Nat} (hdvd : 2 ^ shift ∣ data.length)
    (hlast : last < data.length) {row : List Byte} (h : row ∈ rows data shift last) :
    row.length = 2 ^ shift := by
  obtain ⟨k, hk⟩ := List.mem_iff_getElem?.1 h
  have hcount : k ≤ last / 2 ^ shift := by
    have := (List.getElem?_eq_some_iff.1 hk).1
    simp only [rows, List.length_map, List.length_range'] at this
    omega
  obtain rfl := Option.some.inj ((rows_getElem hcount).symm.trans hk)
  have hend : (k + 1) * 2 ^ shift ≤ data.length :=
    (Nat.mul_le_mul_right _ (Nat.succ_le_succ hcount)).trans (blocks_le hdvd hlast)
  rw [Nat.succ_mul] at hend
  rw [List.length_take, List.length_drop]
  omega

/-- **Round trip.** Below `kHighStart` the header reads back the byte of every code point, and the
bytes above are zero. -/
theorem TrieOf.packed {data : List Byte} {shift last : Nat} {trie : GeneratedTrie}
    (h : TrieOf data shift last trie) (hdvd : 2 ^ shift ∣ data.length) {codePoint : Nat} {byte : Byte}
    (hbyte : data[codePoint]? = some byte) :
    if codePoint < trie.highStart then (renderHeader trie).packedProperties codePoint = byte.toNat
    else byte = 0 := by
  obtain ⟨hlast, hzero⟩ := lastNonDefault_spec h.lastNonDefault
  have hpow : 0 < 2 ^ shift := Nat.two_pow_pos shift
  rw [h.highStart]
  split_ifs with hlt
  · have hblock : codePoint / 2 ^ shift ≤ last / 2 ^ shift :=
      Nat.lt_succ_iff.1 ((Nat.div_lt_iff_lt_mul hpow).2 hlt)
    have hmod : codePoint % 2 ^ shift < 2 ^ shift := Nat.mod_lt _ hpow
    have hnames := Lib.intern_getElem (rows data shift last) (codePoint / 2 ^ shift)
    rw [rows_getElem hblock, ← h.indexes, ← h.blocks] at hnames
    obtain ⟨name, hname, hrow⟩ := Option.bind_eq_some_iff.1 hnames
    have hsize : ∀ row ∈ trie.blocks, row.length = 2 ^ shift := by
      intro row hmem
      rw [h.blocks, (Lib.intern_of _).mem] at hmem
      exact length_of_mem_rows hdvd hlast hmem
    have hentry := Lib.flatten_getElem hsize (k := name) hmod
    have hplace : codePoint / 2 ^ shift * 2 ^ shift + codePoint % 2 ^ shift = codePoint := by
      rw [Nat.mul_comm]
      exact Nat.div_add_mod _ _
    rw [hrow, Option.bind_some, Lib.slice_getElem hmod, hplace, hbyte] at hentry
    have hindex : (name <<< shift) ||| (codePoint &&& (1 <<< shift) - 1) =
        name * 2 ^ shift + codePoint % 2 ^ shift := by
      rw [Nat.one_shiftLeft, Nat.and_two_pow_sub_one_eq_mod, ← Nat.shiftLeft_add_eq_or_of_lt hmod,
        Nat.shiftLeft_eq]
    simp only [GeneratedHeader.packedProperties, renderHeader, h.blockShift,
      Nat.shiftRight_eq_div_pow, List.getD_eq_getElem?_getD, hname, Option.getD_some, hindex,
      List.getElem?_map, hentry, Option.map_some]
  · refine hzero codePoint byte ?_ hbyte
    have := (Nat.le_div_iff_mul_le hpow).2 (not_lt.1 hlt)
    by_contra hle
    have := Nat.div_le_div_right (c := 2 ^ shift) (not_lt.1 hle)
    omega

/-! ## The candidates -/

theorem keyLess_iff (left right : GeneratedTrie) : keyLess left right = true ↔
    toLex (tableSize left, left.blockShift) < toLex (tableSize right, right.blockShift) := by
  simp [keyLess, Prod.Lex.lt_iff]

theorem buildTries_of {data : List Byte} {shifts : List Nat} {tries : List GeneratedTrie}
    (h : buildTries data shifts = .ok tries) :
    List.Forall₂ (fun shift trie => buildTrie data shift = .ok trie) shifts tries := by
  induction shifts generalizing tries with
  | nil =>
    obtain rfl := Except.ok.inj h
    exact .nil
  | cons shift shifts ih =>
    unfold buildTries at h
    split at h
    · cases h
    · rename_i trie htrie
      cases hrest : buildTries data shifts with
      | error e =>
        rw [hrest] at h
        cases h
      | ok rest =>
        rw [hrest] at h
        obtain rfl := Except.ok.inj h
        exact .cons htrie (ih hrest)

/-- The selected trie is the first of the least candidates, one for every block size. -/
theorem selectTrie_of {data : List Byte} {trie : GeneratedTrie} {candidates : List GeneratedTrie}
    (h : selectTrie data = .ok (trie, candidates)) :
    List.Forall₂ (fun shift candidate => buildTrie data shift = .ok candidate) [5, 6, 7, 8, 9]
      candidates ∧ trie ∈ candidates ∧
    ∀ candidate ∈ candidates, toLex (tableSize trie, trie.blockShift) ≤
      toLex (tableSize candidate, candidate.blockShift) := by
  cases htries : buildTries data (List.range' minBlockShift (maxBlockShift + 1 - minBlockShift)) with
  | error e =>
    rw [selectTrie, htries] at h
    cases h
  | ok tries =>
    rw [selectTrie, htries] at h
    cases tries with
    | nil => cases h
    | cons first rest =>
      obtain ⟨rfl, rfl⟩ := Prod.mk.inj (Except.ok.inj h)
      exact ⟨buildTries_of htries, Lib.foldl_keep_least
        (fun trie : GeneratedTrie => toLex (tableSize trie, trie.blockShift)) keyLess_iff first rest⟩

/-- A shift of a candidate divides the code points into blocks. -/
theorem dvd_codePointCount {shift : Nat} (h : shift ∈ [5, 6, 7, 8, 9]) :
    2 ^ shift ∣ codePointCount := by
  revert shift
  decide

/-! ## From the records to the properties -/

/-- The classes by their names in the data files. -/
def graphemeBreakNames : List (String × GraphemeBreakClass) :=
  [("Other", .other), ("CR", .cr), ("LF", .lf), ("Control", .control), ("Extend", .extend),
   ("ZWJ", .zwj), ("Regional_Indicator", .regionalIndicator), ("Prepend", .prepend),
   ("SpacingMark", .spacingMark), ("L", .l), ("V", .v), ("T", .t), ("LV", .lv), ("LVT", .lvt)]

def indicConjunctBreakNames : List (String × IndicConjunctBreakClass) :=
  [("None", .none), ("Consonant", .consonant), ("Extend", .extend), ("Linker", .linker)]

/-- What the data files say of a code point: the last record that covers it stands. -/
def recordedProperties (graphemeBreak derivedCore emojiData : List Record) (codePoint : Nat) :
    UnicodeProperties where
  graphemeBreak :=
    ((graphemeBreak.filter fun record => record.covers codePoint).getLast?.bind fun record =>
      graphemeBreakNames.lookup record.property).getD .other
  indicConjunctBreak :=
    ((covering derivedCore "InCB" codePoint).getLast?.bind fun record =>
      indicConjunctBreakNames.lookup (record.more.headD "")).getD .none
  extendedPictographic := !(covering emojiData "Extended_Pictographic" codePoint).isEmpty

theorem lookup_map {α β γ : Type} [BEq α] (f : β → γ) (l : List (α × β)) (key : α) :
    (l.map fun entry => (entry.1, f entry.2)).lookup key = (l.lookup key).map f := by
  induction l with
  | nil => rfl
  | cons entry l ih =>
    obtain ⟨k, v⟩ := entry
    rw [List.map_cons, List.lookup_cons, List.lookup_cons]
    cases key == k with
    | true => rfl
    | false => exact ih

/-- The numbers of the generator are those of the enumerations. -/
theorem graphemeBreakClassOf_value (name : String) :
    graphemeBreakClassOf ((gcbValues.lookup name).getD 0).toNat =
      (graphemeBreakNames.lookup name).getD .other := by
  have hnames : graphemeBreakNames =
      gcbValues.map fun entry => (entry.1, graphemeBreakClassOf entry.2.toNat) := by decide
  rw [hnames, lookup_map (fun value : Byte => graphemeBreakClassOf value.toNat)]
  cases gcbValues.lookup name <;> rfl

theorem indicConjunctBreakClassOf_value (name : String) :
    indicConjunctBreakClassOf ((incbValues.lookup name).getD 0).toNat =
      (indicConjunctBreakNames.lookup name).getD .none := by
  have hnames : indicConjunctBreakNames =
      incbValues.map fun entry => (entry.1, indicConjunctBreakClassOf entry.2.toNat) := by decide
  rw [hnames, lookup_map (fun value : Byte => indicConjunctBreakClassOf value.toNat)]
  cases incbValues.lookup name <;> rfl

/-- The properties of a byte, field by field. -/
theorem unpackProperties_byte (byte : Byte) : unpackProperties byte.toNat =
    { graphemeBreak := graphemeBreakClassOf (byte &&& gcbMask).toNat
      indicConjunctBreak := indicConjunctBreakClassOf ((byte &&& incbMask) >>> 4).toNat
      extendedPictographic := byte &&& extendedPictographicMask != 0 } := by
  revert byte
  decide +kernel

/-- The fields that the records put into the byte of a code point, in their order. -/
def recordedFields (graphemeBreak derivedCore emojiData : List Record) (codePoint : Nat) :
    List (Field 8) :=
  gcbFields graphemeBreak codePoint ++
    (incbFields derivedCore codePoint ++ extendedPictographicFields emojiData codePoint)

section

variable {graphemeBreak derivedCore emojiData : List Record} {codePoint : Nat}

theorem mask_gcbFields : ∀ field ∈ gcbFields graphemeBreak codePoint, field.mask = gcbMask :=
  List.forall_mem_map.2 fun _ _ => rfl

theorem mask_incbFields : ∀ field ∈ incbFields derivedCore codePoint, field.mask = incbMask :=
  List.forall_mem_map.2 fun _ _ => rfl

theorem mask_extendedPictographicFields :
    ∀ field ∈ extendedPictographicFields emojiData codePoint, field.mask = extendedPictographicMask :=
  List.forall_mem_map.2 fun _ _ => rfl

theorem mask_recordedFields :
    ∀ field ∈ recordedFields graphemeBreak derivedCore emojiData codePoint,
      field.mask = gcbMask ∨ field.mask = incbMask ∨ field.mask = extendedPictographicMask := by
  intro field h
  rcases List.mem_append.1 h with h | h
  · exact .inl (mask_gcbFields field h)
  · rcases List.mem_append.1 h with h | h
    · exact .inr (.inl (mask_incbFields field h))
    · exact .inr (.inr (mask_extendedPictographicFields field h))

theorem gcbMask_ne_incbMask : gcbMask ≠ incbMask := by decide

theorem gcbMask_ne_extendedPictographicMask : gcbMask ≠ extendedPictographicMask := by decide

theorem incbMask_ne_extendedPictographicMask : incbMask ≠ extendedPictographicMask := by decide

/-- The bits under one of the masks are those of its last field. -/
theorem putFields_recordedFields {mask : Byte}
    (h : mask = gcbMask ∨ mask = incbMask ∨ mask = extendedPictographicMask) :
    putFields (recordedFields graphemeBreak derivedCore emojiData codePoint) 0 &&& mask =
      (lastOf mask (recordedFields graphemeBreak derivedCore emojiData codePoint)).getD 0 := by
  have hzero : (0 : Byte) &&& mask = 0 := BitVec.zero_and
  rw [Lib.putFields_and fun field hf => ?_, hzero]
  have hfield := mask_recordedFields field hf
  rcases h with rfl | rfl | rfl <;> rcases hfield with hm | hm | hm <;> rw [hm] <;> decide

theorem lastOf_gcbMask :
    lastOf gcbMask (recordedFields graphemeBreak derivedCore emojiData codePoint) =
      (gcbFields graphemeBreak codePoint).getLast?.map Field.value := by
  rw [recordedFields, Lib.lastOf_append_left fun field hf => ?_, Lib.lastOf_eq mask_gcbFields]
  rcases List.mem_append.1 hf with hf | hf
  · exact mask_incbFields field hf ▸ gcbMask_ne_incbMask.symm
  · exact mask_extendedPictographicFields field hf ▸ gcbMask_ne_extendedPictographicMask.symm

theorem lastOf_incbMask :
    lastOf incbMask (recordedFields graphemeBreak derivedCore emojiData codePoint) =
      (incbFields derivedCore codePoint).getLast?.map Field.value := by
  rw [recordedFields,
    Lib.lastOf_append_right fun field hf => mask_gcbFields field hf ▸ gcbMask_ne_incbMask,
    Lib.lastOf_append_left fun field hf => mask_extendedPictographicFields field hf ▸
      incbMask_ne_extendedPictographicMask.symm,
    Lib.lastOf_eq mask_incbFields]

theorem lastOf_extendedPictographicMask :
    lastOf extendedPictographicMask (recordedFields graphemeBreak derivedCore emojiData codePoint) =
      (extendedPictographicFields emojiData codePoint).getLast?.map Field.value := by
  rw [recordedFields,
    Lib.lastOf_append_right fun field hf =>
      mask_gcbFields field hf ▸ gcbMask_ne_extendedPictographicMask,
    Lib.lastOf_append_right fun field hf =>
      mask_incbFields field hf ▸ incbMask_ne_extendedPictographicMask,
    Lib.lastOf_eq mask_extendedPictographicFields]

/-- The byte of a code point unpacks to what the records say of it. -/
theorem unpackProperties_recordedFields :
    unpackProperties
        (putFields (recordedFields graphemeBreak derivedCore emojiData codePoint) 0).toNat =
      recordedProperties graphemeBreak derivedCore emojiData codePoint := by
  rw [unpackProperties_byte, putFields_recordedFields (.inl rfl),
    putFields_recordedFields (.inr (.inl rfl)), putFields_recordedFields (.inr (.inr rfl)),
    lastOf_gcbMask, lastOf_incbMask, lastOf_extendedPictographicMask, recordedProperties,
    gcbFields, incbFields, extendedPictographicFields, List.getLast?_map, List.getLast?_map,
    List.getLast?_map]
  congr 1
  · cases (graphemeBreak.filter fun record => record.covers codePoint).getLast? with
    | none => rfl
    | some record => exact graphemeBreakClassOf_value record.property
  · cases (covering derivedCore "InCB" codePoint).getLast? with
    | none => rfl
    | some record =>
      have hshift : ((((incbValues.lookup (record.more.headD "")).getD 0) <<< 4) >>> 4 : Byte) =
          (incbValues.lookup (record.more.headD "")).getD 0 :=
        lookup_getD (P := fun value : Byte => (value <<< 4) >>> 4 = value) (by decide)
          (by decide +kernel) _
      have hclass := indicConjunctBreakClassOf_value (record.more.headD "")
      rw [← hshift] at hclass
      exact hclass
  · cases h : covering emojiData "Extended_Pictographic" codePoint with
    | nil => rfl
    | cons record records =>
      have hsome : (record :: records).getLast?.isSome := by simp
      obtain ⟨last, hlast⟩ := Option.isSome_iff_exists.1 hsome
      rw [hlast]
      rfl

end

/-! ## The generated header -/

/-- The byte of a code point outside the computed ranges. -/
theorem recordedByte {graphemeBreak derivedCore emojiData : List Record} {data : List Byte}
    (h : PutInto (List.replicate codePointCount 0) data
      (recordedFields graphemeBreak derivedCore emojiData)) {codePoint : Nat}
    (hcodePoint : codePoint ≤ maxCodePoint) (hascii : ¬codePoint ≤ 0x7F)
    (hhangul : ¬(0xAC00 ≤ codePoint ∧ codePoint ≤ 0xD7A3)) :
    (removeAlgorithmicRanges data)[codePoint]? =
      some (putFields (recordedFields graphemeBreak derivedCore emojiData codePoint) 0) := by
  have hlength : data.length = codePointCount := h.length_eq.trans List.length_replicate
  have hlt : codePoint < codePointCount := Nat.lt_succ_of_le hcodePoint
  rw [getElem?_removeAlgorithmicRanges hlength hascii hhangul, h codePoint,
    List.getElem?_replicate_of_lt hlt, Option.map_some]

/-- The stages of a generation that returns. -/
theorem generate_eq_ok {graphemeBreak derivedCore emojiData : List Record}
    {result : GeneratedTrie × List GeneratedTrie} :
    generate graphemeBreak derivedCore emojiData = .ok result ↔ ∃ gcb incb data,
      applyGraphemeBreak (List.replicate codePointCount 0) graphemeBreak = .ok gcb ∧
      applyIndicConjunctBreak gcb derivedCore = .ok incb ∧
      applyExtendedPictographic incb emojiData = .ok data ∧
      selectTrie (removeAlgorithmicRanges data) = .ok result := by
  have hbind : ∀ {α β : Type} {x : Except ValueError α} {f : α → Except ValueError β} {b : β},
      (x >>= f) = .ok b ↔ ∃ a, x = .ok a ∧ f a = .ok b := by
    intro α β x f b
    cases x with
    | error e => exact iff_of_false (fun h => by cases h) fun h => by cases h.choose_spec.1
    | ok a =>
      refine ⟨fun h => ⟨a, rfl, h⟩, fun h => ?_⟩
      obtain ⟨a', ha, h⟩ := h
      exact Except.ok.inj ha ▸ h
  simp only [generate, hbind, exists_and_left]

/-- The stages put the fields of all records into the bytes. -/
theorem putInto_recordedFields {graphemeBreak derivedCore emojiData : List Record}
    {gcb incb data : List Byte}
    (hgcb : applyGraphemeBreak (List.replicate codePointCount 0) graphemeBreak = .ok gcb)
    (hincb : applyIndicConjunctBreak gcb derivedCore = .ok incb)
    (hdata : applyExtendedPictographic incb emojiData = .ok data) :
    PutInto (List.replicate codePointCount 0) data
      (recordedFields graphemeBreak derivedCore emojiData) :=
  (applyGraphemeBreak_puts.fields hgcb).trans
    ((applyIndicConjunctBreak_puts.fields hincb).trans (applyExtendedPictographic_puts.fields hdata))

theorem generate_of {graphemeBreak derivedCore emojiData : List Record} {trie : GeneratedTrie}
    {candidates : List GeneratedTrie}
    (h : generate graphemeBreak derivedCore emojiData = .ok (trie, candidates)) :
    ∃ data, PutInto (List.replicate codePointCount 0) data
      (recordedFields graphemeBreak derivedCore emojiData) ∧
      selectTrie (removeAlgorithmicRanges data) = .ok (trie, candidates) := by
  obtain ⟨gcb, incb, data, hgcb, hincb, hdata, hselect⟩ := generate_eq_ok.1 h
  exact ⟨data, putInto_recordedFields hgcb hincb hdata, hselect⟩

/-- Every candidate is a trie of the bytes, of one of the block sizes. -/
theorem candidate_of {data : List Byte} {trie candidate : GeneratedTrie}
    {candidates : List GeneratedTrie} (h : selectTrie data = .ok (trie, candidates))
    (hcandidate : candidate ∈ candidates) :
    ∃ shift ∈ [5, 6, 7, 8, 9], ∃ last, TrieOf data shift last candidate := by
  obtain ⟨hcandidates, -, -⟩ := selectTrie_of h
  obtain ⟨k, hk⟩ := List.mem_iff_getElem?.1 hcandidate
  obtain ⟨hlt, rfl⟩ := List.getElem?_eq_some_iff.1 hk
  have hlt' : k < [5, 6, 7, 8, 9].length := hcandidates.length_eq ▸ hlt
  exact ⟨_, List.getElem_mem hlt', buildTrie_of (hcandidates.get hlt' hlt)⟩

/-! ### Records that are accepted -/

/-- The records of the three files, as far as the generator reads them. -/
structure Accepted (graphemeBreak derivedCore emojiData : List Record) : Prop where
  graphemeBreak : ∀ record ∈ graphemeBreak, record.Valid ∧
    ∃ value, gcbValues.lookup record.property = some value
  derivedCore : ∀ record ∈ derivedCore, record.property = "InCB" → record.Valid ∧
    ∃ name more value, record.more = name :: more ∧ incbValues.lookup name = some value
  emojiData : ∀ record ∈ emojiData, record.property = "Extended_Pictographic" → record.Valid

theorem selectTrie_ok {data : List Byte} {k : Nat} {byte : Byte} (h : data[k]? = some byte)
    (hbyte : byte ≠ 0) : ∃ trie candidates, selectTrie data = .ok (trie, candidates) := by
  have hsome : ∃ last, lastNonDefault data = some last := by
    cases hlast : lastNonDefault data with
    | some last => exact ⟨last, rfl⟩
    | none =>
      have hnil := List.max?_eq_none_iff.1 hlast
      have hmem : k ∈ (data.zipIdx.filter fun entry => entry.1 ≠ 0).map Prod.snd :=
        List.mem_map.2 ⟨(byte, k),
          List.mem_filter.2 ⟨List.mem_zipIdx_iff_getElem?.2 h, by simpa using hbyte⟩, rfl⟩
      rw [hnil] at hmem
      cases hmem
  obtain ⟨last, hlast⟩ := hsome
  have hbuild : ∀ shift, ∃ trie, buildTrie data shift = .ok trie := by
    intro shift
    exact ⟨_, by simp only [buildTrie, hlast]; rfl⟩
  have hbuilds : ∀ shifts : List Nat, ∃ tries, buildTries data shifts = .ok tries ∧
      tries.length = shifts.length := by
    intro shifts
    induction shifts with
    | nil => exact ⟨[], rfl, rfl⟩
    | cons shift shifts ih =>
      obtain ⟨trie, htrie⟩ := hbuild shift
      obtain ⟨tries, htries, hlength⟩ := ih
      refine ⟨trie :: tries, ?_, congrArg Nat.succ hlength⟩
      simp only [buildTries, htrie, htries]
      rfl
  obtain ⟨tries, htries, hlength⟩ :=
    hbuilds (List.range' minBlockShift (maxBlockShift + 1 - minBlockShift))
  cases tries with
  | nil => cases hlength
  | cons trie candidates =>
    rw [selectTrie, htries]
    exact ⟨_, _, rfl⟩

/-- Accepted records that say something of a code point outside the computed ranges have a trie. -/
theorem generate_ok {graphemeBreak derivedCore emojiData : List Record}
    (h : Accepted graphemeBreak derivedCore emojiData) {codePoint : Nat}
    (hcodePoint : codePoint ≤ maxCodePoint) (hascii : ¬codePoint ≤ 0x7F)
    (hhangul : ¬(0xAC00 ≤ codePoint ∧ codePoint ≤ 0xD7A3))
    (hrecorded : recordedProperties graphemeBreak derivedCore emojiData codePoint ≠ {}) :
    ∃ trie candidates,
      generate graphemeBreak derivedCore emojiData = .ok (trie, candidates) := by
  obtain ⟨gcb, hgcb⟩ := applyGraphemeBreak_puts.eq_ok (fun r hr _ => h.graphemeBreak r hr)
    (List.replicate codePointCount 0)
  obtain ⟨incb, hincb⟩ := applyIndicConjunctBreak_puts.eq_ok
    (fun r hr hreads => h.derivedCore r hr (of_decide_eq_true hreads)) gcb
  obtain ⟨data, hext⟩ := applyExtendedPictographic_puts.eq_ok
    (fun r hr hreads => ⟨h.emojiData r hr (of_decide_eq_true hreads), trivial⟩) incb
  have hdata := putInto_recordedFields hgcb hincb hext
  have hbyte := recordedByte hdata hcodePoint hascii hhangul
  obtain ⟨trie, candidates, hselect⟩ := selectTrie_ok hbyte fun hzero => hrecorded (by
    rw [← unpackProperties_recordedFields, hzero]
    rfl)
  exact ⟨trie, candidates, generate_eq_ok.2 ⟨gcb, incb, data, hgcb, hincb, hext, hselect⟩⟩

/-! ### What it holds -/

/-- **The generated header answers as the data files do**, with any of the block sizes. Its lookup
computes ASCII and the Hangul syllables, and gives for every other code point what the last records
that cover it say. -/
theorem generate_properties {graphemeBreak derivedCore emojiData : List Record}
    {trie : GeneratedTrie} {candidates : List GeneratedTrie}
    (h : generate graphemeBreak derivedCore emojiData = .ok (trie, candidates)) :
    trie ∈ candidates ∧ ∀ candidate ∈ candidates, ∀ scalar ≤ maxCodePoint,
      (renderHeader candidate).unicodeProperties scalar =
        if scalar ≤ 0x7F then asciiProperties scalar
        else if 0xAC00 ≤ scalar ∧ scalar ≤ 0xD7A3 then hangulSyllableProperties scalar
        else recordedProperties graphemeBreak derivedCore emojiData scalar := by
  obtain ⟨data, hdata, hselect⟩ := generate_of h
  refine ⟨(selectTrie_of hselect).2.1, fun candidate hcandidate scalar hscalar => ?_⟩
  have hlength : data.length = codePointCount := hdata.length_eq.trans List.length_replicate
  obtain ⟨shift, hshift, last, htrie⟩ := candidate_of hselect hcandidate
  have hdvd : 2 ^ shift ∣ (removeAlgorithmicRanges data).length := by
    rw [length_removeAlgorithmicRanges hlength]
    exact dvd_codePointCount hshift
  unfold GeneratedHeader.unicodeProperties
  simp only [Bool.and_eq_true, decide_eq_true_eq]
  by_cases hascii : scalar ≤ 0x7F
  · rw [if_pos hascii, if_pos hascii]
  rw [if_neg hascii, if_neg hascii]
  by_cases hhangul : 0xAC00 ≤ scalar ∧ scalar ≤ 0xD7A3
  · rw [if_pos hhangul, if_pos hhangul]
  rw [if_neg hhangul, if_neg hhangul, ← unpackProperties_recordedFields]
  have hpacked := htrie.packed hdvd (recordedByte hdata hscalar hascii hhangul)
  by_cases hhigh : scalar < candidate.highStart
  · rw [if_pos hhigh] at hpacked
    rw [← hpacked]
    exact if_neg (Nat.not_le.2 hhigh)
  · rw [if_neg hhigh] at hpacked
    rw [hpacked]
    exact if_pos (Nat.not_lt.1 hhigh)

/-- The arrays of a header as the lookup relies on them. -/
structure WellFormed (trie : GeneratedTrie) : Prop where
  shift : trie.blockShift ∈ [5, 6, 7, 8, 9]
  nodup : trie.blocks.Nodup
  size : ∀ block ∈ trie.blocks, block.length = 2 ^ trie.blockShift
  index : ∀ index ∈ trie.indexes, index < trie.blocks.length ∧ index < 256 ^ indexWidth trie
  covers : trie.indexes.length * 2 ^ trie.blockShift = trie.highStart
  highStart : trie.highStart ≤ codePointCount

theorem TrieOf.wellFormed {data : List Byte} {shift last : Nat} {trie : GeneratedTrie}
    (h : TrieOf data shift last trie) (hshift : shift ∈ [5, 6, 7, 8, 9])
    (hlength : data.length = codePointCount) : WellFormed trie := by
  have hdvd : 2 ^ shift ∣ data.length := hlength ▸ dvd_codePointCount hshift
  obtain ⟨hlast, -⟩ := lastNonDefault_spec h.lastNonDefault
  have hpow : 0 < 2 ^ shift := Nat.two_pow_pos shift
  have hof := Lib.intern_of (rows data shift last)
  have hcount : (rows data shift last).length = last / 2 ^ shift + 1 := by
    rw [rows, List.length_map, List.length_range']
  have hhigh : trie.highStart ≤ codePointCount := by
    rw [h.highStart, ← hlength]
    exact blocks_le hdvd hlast
  -- a block kept is one of the rows, and there are no more rows than code points
  have hkept : trie.blocks.length ≤ 256 ^ 4 := by
    have hsub : trie.blocks ⊆ rows data shift last := by
      rw [h.blocks]
      exact fun block hb => (hof.mem block).1 hb
    have hle := (h.blocks ▸ hof.nodup).length_le_of_subset hsub
    rw [hcount] at hle
    have hbig : codePointCount ≤ 256 ^ 4 := by decide
    have hrows : last / 2 ^ shift + 1 ≤ trie.highStart := by
      rw [h.highStart]
      exact Nat.le_mul_of_pos_right _ hpow
    omega
  refine ⟨h.blockShift ▸ hshift, h.blocks ▸ hof.nodup, fun block hb => ?_, fun index hi => ?_, ?_, hhigh⟩
  · rw [h.blocks, hof.mem] at hb
    rw [h.blockShift]
    exact length_of_mem_rows hdvd hlast hb
  · obtain ⟨k, hk⟩ := List.mem_iff_getElem?.1 hi
    rw [h.indexes] at hk
    have hlt : index < trie.blocks.length := h.blocks ▸ Lib.intern_name_lt hk
    exact ⟨hlt, lt_of_lt_of_le hlt (h.fits hkept)⟩
  · rw [h.indexes, hof.length, hcount, h.blockShift, h.highStart]

/-- **The generated table.** Every candidate is well formed, with each block once and indexes that fit
their type, and the trie is the smallest of them, of the smaller blocks where two sizes tie. -/
theorem generate_table {graphemeBreak derivedCore emojiData : List Record} {trie : GeneratedTrie}
    {candidates : List GeneratedTrie}
    (h : generate graphemeBreak derivedCore emojiData = .ok (trie, candidates)) :
    trie ∈ candidates ∧ ∀ candidate ∈ candidates, WellFormed candidate ∧
      toLex (tableSize trie, trie.blockShift) ≤
        toLex (tableSize candidate, candidate.blockShift) := by
  obtain ⟨data, hdata, hselect⟩ := generate_of h
  have hlength : data.length = codePointCount := hdata.length_eq.trans List.length_replicate
  obtain ⟨-, hmem, hleast⟩ := selectTrie_of hselect
  refine ⟨hmem, fun candidate hcandidate => ⟨?_, hleast candidate hcandidate⟩⟩
  obtain ⟨shift, hshift, last, htrie⟩ := candidate_of hselect hcandidate
  exact htrie.wellFormed hshift (length_removeAlgorithmicRanges hlength)

/-- Records of the three files, one of them covering the others' code points. -/
def sampleRecords : List Record × List Record × List Record :=
  ([⟨0x300, 0x36F, "Extend", []⟩, ⟨0x301, 0x301, "SpacingMark", []⟩],
   [⟨0x300, 0x310, "InCB", ["Linker"]⟩, ⟨0x41, 0x5A, "Alphabetic", []⟩],
   [⟨0x301, 0x302, "Extended_Pictographic", []⟩])

theorem sampleRecords_accepted :
    Accepted sampleRecords.1 sampleRecords.2.1 sampleRecords.2.2 where
  graphemeBreak record h := by
    rcases List.mem_cons.1 h with rfl | h
    · exact ⟨by unfold Record.Valid; decide, 4, by decide⟩
    · obtain rfl := List.mem_singleton.1 h
      exact ⟨by unfold Record.Valid; decide, 8, by decide⟩
  derivedCore record h hproperty := by
    rcases List.mem_cons.1 h with rfl | h
    · exact ⟨by unfold Record.Valid; decide, "Linker", [], 3, rfl, by decide⟩
    · obtain rfl := List.mem_singleton.1 h
      exact absurd hproperty (by decide)
  emojiData record h _ := by
    obtain rfl := List.mem_singleton.1 h
    unfold Record.Valid
    decide

theorem sampleRecords_generate : ∃ trie candidates, generate sampleRecords.1 sampleRecords.2.1
    sampleRecords.2.2 = .ok (trie, candidates) :=
  generate_ok sampleRecords_accepted (by decide : 0x300 ≤ maxCodePoint) (by decide) (by decide)
    (by decide)

/-- The last record stands: U+0301 is a spacing mark. -/
theorem generate_properties_sample : ∃ trie candidates, generate sampleRecords.1 sampleRecords.2.1
    sampleRecords.2.2 = .ok (trie, candidates) ∧
    (renderHeader trie).unicodeProperties 0x301 = ⟨.spacingMark, .linker, true⟩ := by
  obtain ⟨trie, candidates, h⟩ := sampleRecords_generate
  obtain ⟨hmem, hcandidates⟩ := generate_properties h
  refine ⟨trie, candidates, h, (hcandidates trie hmem 0x301 (by decide)).trans ?_⟩
  decide

theorem generate_table_sample : ∃ trie candidates, generate sampleRecords.1 sampleRecords.2.1
    sampleRecords.2.2 = .ok (trie, candidates) ∧ WellFormed trie := by
  obtain ⟨trie, candidates, h⟩ := sampleRecords_generate
  obtain ⟨hmem, hcandidates⟩ := generate_table h
  exact ⟨trie, candidates, h, (hcandidates trie hmem).1⟩

/-! ## The header of the repository -/

theorem getD_expand (runs : List (Nat × Nat)) (offset : Nat) :
    (expand runs).getD offset 0 = entryAt runs offset := by
  induction runs generalizing offset with
  | nil => rfl
  | cons run runs ih =>
    have hrun : expand (run :: runs) = List.replicate run.1 run.2 ++ expand runs := rfl
    rw [hrun, entryAt, List.getD_eq_getElem?_getD]
    split_ifs with hlt
    · rw [List.getElem?_append_left (by rwa [List.length_replicate]),
        List.getElem?_replicate_of_lt hlt, Option.getD_some]
    · rw [List.getElem?_append_right (by rw [List.length_replicate]; omega), List.length_replicate,
        ← List.getD_eq_getElem?_getD]
      exact ih _

/-- The lookup of the library is that of the generated header of the repository. -/
theorem shippedHeader_unicodeProperties (scalar : Nat) :
    shippedHeader.unicodeProperties scalar = Unicode.unicodeProperties scalar := by
  have hpacked : shippedHeader.packedProperties scalar = Unicode.packedProperties scalar := by
    simp only [GeneratedHeader.packedProperties, shippedHeader, getD_expand]
    rfl
  unfold GeneratedHeader.unicodeProperties Unicode.unicodeProperties
  rw [hpacked]
  rfl

end Generator

end Unicode

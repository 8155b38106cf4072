import GameWIP.Desktop.TextSearch
import GameWIP.Desktop.Proof.TextIndex

/-!
# What a search finds

`findText_getText`: the text found is the first one in the range that starts and ends at grapheme
boundaries, the last one backward; the text of a range is the longest prefix within the limit that
does not end inside a surrogate pair.

The index of a text gives the starts of its scalars in both encodings (`Starts`). A match at a start
is a match of a range (`matchEnd_spec`), the loop takes the first or the last one (`findLoop_spec`).
-/

namespace Desktop

namespace TextIndex

open Unicode (utf8Code utf16Code)
open Unicode.Utf8 (segmentation)
open Lib.PrefixCode (prefix_of_length_le eq_of_length_eq length_encodeAll_le)

/-- The scalars of a text with their starts. -/
structure Starts (text : List UInt8) (cache : AccessibilityTextIndex) (ss : List Nat) : Prop where
  valid : utf8Code.Valid ss
  text_eq : text = utf8Code.encodeAll ss
  scalars : cache.scalars = ss.inits.map fun p => (utf8Code.encodeAll p).length
  offsets : cache.utf16Offsets = ss.inits.map fun p => (utf16Code.encodeAll p).length
  units : cache.text = utf16Code.encodeAll ss
  boundaries : cache.graphemes = segmentation text
  size : text.length < 2 ^ 31

/-- The UTF-16 text of a range. -/
def rangeUnits (text : List UInt8) (range : TextRange) : List UInt16 :=
  utf16 ((text.drop range.begin).take (range.end_ - range.begin))

/-- A range inside the bounds, from boundary to boundary, with the text searched for. -/
structure IsMatch (text : List UInt8) (upper : UInt16 → UInt16) (needle : List UInt16)
    (ignoreCase : Bool) (bounds range : TextRange) : Prop where
  aligned : range.AtBoundaries text
  first_le : bounds.begin ≤ range.begin
  le_last : range.end_ ≤ bounds.end_
  same : compareStringOrdinal upper (rangeUnits text range) needle ignoreCase = true

/-- The first match in the bounds, or the last one backward. -/
def IsFound (text : List UInt8) (upper : UInt16 → UInt16) (needle : List UInt16)
    (backward ignoreCase : Bool) (bounds range : TextRange) : Prop :=
  IsMatch text upper needle ignoreCase bounds range ∧
    ∀ other, IsMatch text upper needle ignoreCase bounds other →
      if backward then other.begin ≤ range.begin else range.begin ≤ other.begin

theorem length_of_compare {upper : UInt16 → UInt16} {a b : List UInt16} {ignoreCase : Bool}
    (h : compareStringOrdinal upper a b ignoreCase = true) : a.length = b.length := by
  cases ignoreCase with
  | false =>
    have heq : a = b := by simpa [compareStringOrdinal] using h
    rw [heq]
  | true =>
    have heq : a.map upper = b.map upper := by simpa [compareStringOrdinal] using h
    simpa using congrArg List.length heq

/-- The length of a `BSTR` is in range. -/
theorem Bstr.accepted (needle : Bstr) (hne : needle.units ≠ []) :
    (needle.units.length = 0 || needle.units.length > intMax) = false := by
  have hle : ¬ needle.units.length > intMax := by
    have hsmall := needle.small
    rw [intMax]
    omega
  rw [decide_eq_false hle, decide_eq_false (List.length_pos_iff.2 hne).ne']
  rfl

theorem sub32_eq {a b : Nat} (h : b ≤ a) (ha : a < 2 ^ 31) : sub32 a b = a - b := by
  rw [sub32, u32]
  omega

/-- The first one, or the last one backward, of the matches that start at one of the offsets. -/
def IsChosen (Matches : TextRange → Prop) (offsets : List Nat) (backward : Bool) (range : TextRange) :
    Prop :=
  Matches range ∧ range.begin ∈ offsets ∧ ∀ other, Matches other → other.begin ∈ offsets →
    if backward then other.begin ≤ range.begin else range.begin ≤ other.begin

/-- An offset where no match starts. -/
theorem skip_start {Matches : TextRange → Prop} {g : Nat} {rest : List Nat} {backward : Bool}
    {found result : Option TextRange} (hhere : ∀ range, Matches range → range.begin ≠ g)
    (h : result = found ∧ (∀ range, Matches range → range.begin ∉ rest) ∨
      ∃ range, result = some range ∧ IsChosen Matches rest backward range) :
    result = found ∧ (∀ range, Matches range → range.begin ∉ g :: rest) ∨
      ∃ range, result = some range ∧ IsChosen Matches (g :: rest) backward range := by
  have hmem : ∀ range, Matches range → (range.begin ∈ g :: rest ↔ range.begin ∈ rest) := by
    intro range hmatch
    simp [hhere range hmatch]
  rcases h with ⟨rfl, hnone⟩ | ⟨range, rfl, hmatch, hin, hmost⟩
  · exact .inl ⟨rfl, fun range hmatch => (hmem range hmatch).not.2 (hnone range hmatch)⟩
  · exact .inr ⟨range, rfl, hmatch, (hmem range hmatch).2 hin,
      fun other hother hin => hmost other hother ((hmem other hother).1 hin)⟩

namespace Starts

variable {text : List UInt8} {cache : AccessibilityTextIndex} {ss p q : List Nat}

theorem wideOffset_prefix (h : Starts text cache ss) (hp : p <+: ss) :
    wideOffset cache (utf8Code.encodeAll p).length = some (utf16Code.encodeAll p).length :=
  wideOffset_eq h.scalars h.offsets hp

/-- The UTF-16 offsets are 31-bit values. -/
theorem wide_lt (h : Starts text cache ss) (hp : p <+: ss) :
    (utf16Code.encodeAll p).length < 2 ^ 31 := by
  have hsize := h.size
  rw [h.text_eq] at hsize
  have hle := length_encodeAll_le (C := utf8Code) hp
  have hless := length_utf16_le p
  omega

/-- A boundary is the start of a scalar. -/
theorem exists_prefix (h : Starts text cache ss) {g : Nat} (hg : IsGraphemeBoundary text g) :
    ∃ p, p <+: ss ∧ g = (utf8Code.encodeAll p).length := by
  obtain ⟨l, r, hcut⟩ := Unicode.Utf8.exists_cut_of_mem hg.isText ((isGraphemeBoundary_iff hg.isText).1 hg)
  obtain rfl : l ++ r = ss :=
    Lib.PrefixCode.encodeAll_injective hcut.valid h.valid (hcut.eq.symm.trans h.text_eq)
  exact ⟨l, List.prefix_append l r, hcut.offset_eq⟩

/-- The prefixes of a range. -/
theorem exists_prefixes (h : Starts text cache ss) {range : TextRange}
    (hrange : range.AtBoundaries text) :
    ∃ p q, p ++ q <+: ss ∧ range.begin = (utf8Code.encodeAll p).length ∧
      range.end_ = (utf8Code.encodeAll (p ++ q)).length := by
  obtain ⟨p, hp, hbegin⟩ := h.exists_prefix hrange.first
  obtain ⟨p', hp', hend⟩ := h.exists_prefix hrange.last
  have horder := hrange.order
  rw [hbegin, hend] at horder
  obtain ⟨q, rfl⟩ := prefix_of_length_le h.valid hp hp' horder
  exact ⟨p, q, hp', hbegin, hend⟩

/-- The bounds of a range with their UTF-16 offsets. -/
theorem exists_bounds (h : Starts text cache ss) {range : TextRange}
    (hrange : range.AtBoundaries text) :
    ∃ p q, p ++ q <+: ss ∧ range.begin = (utf8Code.encodeAll p).length ∧
      range.end_ = (utf8Code.encodeAll (p ++ q)).length ∧
      wideOffset cache range.begin = some (utf16Code.encodeAll p).length ∧
      wideOffset cache range.end_ = some (utf16Code.encodeAll (p ++ q)).length := by
  obtain ⟨p, q, hpq, hbegin, hend⟩ := h.exists_prefixes hrange
  refine ⟨p, q, hpq, hbegin, hend, ?_, ?_⟩
  · rw [hbegin]
    exact h.wideOffset_prefix ((List.prefix_append p q).trans hpq)
  · rw [hend]
    exact h.wideOffset_prefix hpq

/-- The UTF-16 text from one start to another. -/
theorem rangeUnits_eq (h : Starts text cache ss) (hpq : p ++ q <+: ss) :
    rangeUnits text ⟨(utf8Code.encodeAll p).length, (utf8Code.encodeAll (p ++ q)).length⟩ =
      utf16Code.encodeAll q := by
  obtain ⟨r, rfl⟩ := hpq
  have hsize := h.size
  have hvalid := h.valid
  rw [Lib.PrefixCode.valid_append, Lib.PrefixCode.valid_append] at hvalid
  rw [h.text_eq] at hsize ⊢
  rw [rangeUnits]
  simp only [Lib.PrefixCode.encodeAll_append, List.length_append, List.append_assoc] at hsize ⊢
  rw [List.drop_left, Nat.add_sub_cancel_left, List.take_left]
  exact utf16_encodeAll hvalid.1.2 (by omega)

/-- The boundaries of the index. -/
theorem mem_graphemes (h : Starts text cache ss) {g : Nat} :
    g ∈ cache.graphemes ↔ IsGraphemeBoundary text g := by
  have htext : utf8Code.IsText text := ⟨ss, h.valid, h.text_eq⟩
  rw [h.boundaries, isGraphemeBoundary_iff htext]

theorem graphemes_pairwise (h : Starts text cache ss) : cache.graphemes.Pairwise (· < ·) := by
  rw [h.boundaries]
  exact Unicode.Utf8.segmentation_pairwise ⟨ss, h.valid, h.text_eq⟩

theorem binarySearch_graphemes (h : Starts text cache ss) {g : Nat} :
    binarySearch cache.graphemes g = true ↔ IsGraphemeBoundary text g := by
  rw [← h.mem_graphemes]
  refine ⟨mem_of_binarySearch, fun hg => ?_⟩
  obtain ⟨i, hat⟩ := List.mem_iff_getElem?.1 hg
  have hsorted : Lib.SortedBy (fun a b : Nat => decide (a < b)) id cache.graphemes :=
    h.graphemes_pairwise.imp fun hlt => decide_eq_true hlt
  have hsearch := hsorted.search_key offset_strictTotal hat
  rw [id] at hsearch
  rw [binarySearch, Lib.isMatching, hsearch, hat]
  simp

/-- The lookup of a UTF-16 offset finds the scalar that starts there. -/
theorem lookup_start (h : Starts text cache ss) (hp : p <+: ss) :
    cache.utf16Offsets[lowerBound cache.utf16Offsets (utf16Code.encodeAll p).length]? =
        some (utf16Code.encodeAll p).length ∧
      cache.scalars[lowerBound cache.utf16Offsets (utf16Code.encodeAll p).length]? =
        some (utf8Code.encodeAll p).length := by
  obtain ⟨i, hat⟩ := List.mem_iff_getElem?.1 (List.mem_inits p ss |>.2 hp)
  have hsorted : Lib.SortedBy (fun a b : Nat => decide (a < b)) id cache.utf16Offsets := by
    rw [h.offsets]
    exact (Lib.PrefixCode.pairwise_lengths (C := utf16Code) h.valid).imp fun hlt => decide_eq_true hlt
  have hoffset : cache.utf16Offsets[i]? = some (utf16Code.encodeAll p).length := by
    rw [h.offsets, List.getElem?_map, hat]
    rfl
  have hsearch := hsorted.search_key offset_strictTotal hoffset
  rw [id] at hsearch
  rw [lowerBound, hsearch]
  refine ⟨hoffset, ?_⟩
  rw [h.scalars, List.getElem?_map, hat]
  rfl

/-- A match ends where its units end. -/
theorem match_suffix (h : Starts text cache ss) (hp : p <+: ss) {upper : UInt16 → UInt16}
    {needle : List UInt16} {ignoreCase : Bool} {e : Nat}
    (hrange : TextRange.AtBoundaries text ⟨(utf8Code.encodeAll p).length, e⟩)
    (hsame : compareStringOrdinal upper (rangeUnits text ⟨(utf8Code.encodeAll p).length, e⟩) needle
      ignoreCase = true) :
    ∃ q, p ++ q <+: ss ∧ e = (utf8Code.encodeAll (p ++ q)).length ∧
      (utf16Code.encodeAll q).length = needle.length ∧
      compareStringOrdinal upper (utf16Code.encodeAll q) needle ignoreCase = true := by
  obtain ⟨p', q, hpq, hbegin, hend⟩ := h.exists_prefixes hrange
  obtain rfl : p = p' := eq_of_length_eq h.valid hp ((List.prefix_append p' q).trans hpq) hbegin
  simp only at hend
  subst hend
  rw [h.rangeUnits_eq hpq] at hsame
  exact ⟨q, hpq, rfl, length_of_compare hsame, hsame⟩

/-- **A match at a start** is the match of a range. -/
theorem matchEnd_spec (h : Starts text cache ss) (hp : p <+: ss)
    (hboundary : IsGraphemeBoundary text (utf8Code.encodeAll p).length) (upper : UInt16 → UInt16)
    (needle : List UInt16) (ignoreCase : Bool)
    (hfits : (utf16Code.encodeAll p).length + needle.length ≤ (utf16Code.encodeAll ss).length) :
    ∃ m, matchEnd cache upper needle ignoreCase (utf16Code.encodeAll p).length = some m ∧
      ∀ e, m = some e ↔ TextRange.AtBoundaries text ⟨(utf8Code.encodeAll p).length, e⟩ ∧
        compareStringOrdinal upper (rangeUnits text ⟨(utf8Code.encodeAll p).length, e⟩) needle
          ignoreCase = true := by
  have hwide := h.wide_lt (List.prefix_refl ss)
  have hpss := hp
  obtain ⟨rest, hss⟩ := hp
  have hunits : cache.text = utf16Code.encodeAll p ++ utf16Code.encodeAll rest := by
    rw [h.units, ← hss, Lib.PrefixCode.encodeAll_append]
  have hsubstr : substr cache.text (utf16Code.encodeAll p).length needle.length =
      some ((utf16Code.encodeAll rest).take needle.length) := by
    rw [substr, hunits, if_pos (by simp), List.drop_left]
  have hrest : needle.length ≤ (utf16Code.encodeAll rest).length := by
    rw [← hss, Lib.PrefixCode.encodeAll_append, List.length_append] at hfits
    omega
  have hlength : ((utf16Code.encodeAll rest).take needle.length).length = needle.length := by
    rw [List.length_take, Nat.min_eq_left hrest]
  have hplace : u32 ((utf16Code.encodeAll p).length + needle.length) =
      (utf16Code.encodeAll p).length + needle.length := u32_eq (by omega)
  -- the units of a matching range are the units compared
  have htake : ∀ q, p ++ q <+: ss → (utf16Code.encodeAll q).length = needle.length →
      (utf16Code.encodeAll rest).take needle.length = utf16Code.encodeAll q := by
    rintro q ⟨r, hr⟩ hq
    rw [← hss, List.append_assoc] at hr
    rw [← List.append_cancel_left hr, Lib.PrefixCode.encodeAll_append, ← hq, List.take_left]
  rw [matchEnd, hsubstr]
  simp only [Option.bind_eq_bind, Option.bind_some, hlength, Nat.lt_irrefl, if_false, hplace]
  cases hcompare : compareStringOrdinal upper ((utf16Code.encodeAll rest).take needle.length) needle
    ignoreCase with
  | false =>
    refine ⟨none, rfl, fun e => ⟨fun heq => absurd heq (by simp), fun hboth => ?_⟩⟩
    obtain ⟨hrange, hsame⟩ := hboth
    obtain ⟨q, hpq, -, hq, hmatch⟩ := h.match_suffix hpss hrange hsame
    rw [htake q hpq hq, hmatch] at hcompare
    exact absurd hcompare (by simp)
  | true =>
    by_cases hfound : ∃ q, p ++ q <+: ss ∧ (utf16Code.encodeAll q).length = needle.length
    · obtain ⟨q, hpq, hq⟩ := hfound
      have hend : (utf16Code.encodeAll p).length + needle.length =
          (utf16Code.encodeAll (p ++ q)).length := by
        rw [Lib.PrefixCode.encodeAll_append, List.length_append, hq]
      obtain ⟨hoffset, hscalar⟩ := h.lookup_start hpq
      rw [hend]
      simp only [hoffset, hscalar, Option.bind_some, Bool.not_true, Bool.false_eq_true, if_false,
        ne_eq, not_true_eq_false]
      have hunique : ∀ e, TextRange.AtBoundaries text ⟨(utf8Code.encodeAll p).length, e⟩ →
          compareStringOrdinal upper (rangeUnits text ⟨(utf8Code.encodeAll p).length, e⟩) needle
            ignoreCase = true → e = (utf8Code.encodeAll (p ++ q)).length := by
        intro e hrange hsame
        obtain ⟨q', hpq', rfl, hq', -⟩ := h.match_suffix hpss hrange hsame
        have heq : p ++ q' = p ++ q := by
          refine eq_of_length_eq (C := utf16Code) h.valid hpq' hpq ?_
          simp only [Lib.PrefixCode.encodeAll_append, List.length_append, hq, hq']
        rw [heq]
      by_cases hlast : IsGraphemeBoundary text (utf8Code.encodeAll (p ++ q)).length
      · rw [if_pos (h.binarySearch_graphemes.2 hlast)]
        refine ⟨_, rfl, fun e => ⟨fun heq => ?_, fun hboth => ?_⟩⟩
        · obtain rfl := Option.some.inj heq
          refine ⟨⟨length_encodeAll_le (List.prefix_append p q), hboundary, hlast⟩, ?_⟩
          rw [h.rangeUnits_eq hpq, ← htake q hpq hq]
          exact hcompare
        · rw [hunique e hboth.1 hboth.2]
      · rw [if_neg fun hsearch => hlast (h.binarySearch_graphemes.1 hsearch)]
        refine ⟨none, rfl, fun e => ⟨fun heq => absurd heq (by simp), fun hboth => ?_⟩⟩
        exact absurd (hunique e hboth.1 hboth.2 ▸ hboth.1.last) hlast
    · -- no scalar ends where the units end
      have hnone : cache.utf16Offsets[lowerBound cache.utf16Offsets
          ((utf16Code.encodeAll p).length + needle.length)]? ≠
            some ((utf16Code.encodeAll p).length + needle.length) := by
        intro hat
        have hmem := List.mem_of_getElem? hat
        rw [h.offsets, List.mem_map] at hmem
        obtain ⟨p', hp', hlength'⟩ := hmem
        have hp' := (List.mem_inits p' ss).1 hp'
        obtain ⟨q, rfl⟩ := prefix_of_length_le (C := utf16Code) h.valid ⟨rest, hss⟩ hp' (by omega)
        rw [Lib.PrefixCode.encodeAll_append, List.length_append] at hlength'
        exact hfound ⟨q, hp', by omega⟩
      simp only [Bool.not_true, Bool.false_eq_true, if_false, ne_eq, hnone, not_false_eq_true, if_true]
      refine ⟨none, rfl, fun e => ⟨fun heq => absurd heq (by simp), fun hboth => ?_⟩⟩
      obtain ⟨q, hpq, -, hq, -⟩ := h.match_suffix hpss hboth.1 hboth.2
      exact absurd ⟨q, hpq, hq⟩ hfound

/-! ## The loop -/

/-- A match behind a start has room between the start and the end of the bounds. -/
theorem match_room (h : Starts text cache ss) {bounds range : TextRange} (hp : p <+: ss)
    (hend : bounds.end_ = (utf8Code.encodeAll p).length) {upper : UInt16 → UInt16}
    {needle : List UInt16} {ignoreCase : Bool}
    (hmatch : IsMatch text upper needle ignoreCase bounds range) (hq : q <+: ss)
    (hle : (utf8Code.encodeAll q).length ≤ range.begin) :
    (utf16Code.encodeAll q).length + needle.length ≤ (utf16Code.encodeAll p).length := by
  obtain ⟨l, m, hlm, hb, he⟩ := h.exists_prefixes hmatch.aligned
  have hsame := hmatch.same
  have hlast := hmatch.le_last
  obtain ⟨first, last⟩ := range
  simp only at hb he hle hlast
  subst hb he
  rw [h.rangeUnits_eq hlm] at hsame
  have hlength := length_of_compare hsame
  have hql := length_encodeAll_le (C := utf16Code)
    (prefix_of_length_le h.valid hq ((List.prefix_append l m).trans hlm) hle)
  have hmp := length_encodeAll_le (C := utf16Code)
    (prefix_of_length_le h.valid hlm hp (hend ▸ hlast))
  rw [Lib.PrefixCode.encodeAll_append, List.length_append] at hmp
  omega

/-- A match that has room ends in the bounds. -/
theorem match_end_le (h : Starts text cache ss) {upper : UInt16 → UInt16} {needle : List UInt16}
    {ignoreCase : Bool} {last : Nat} (hq : q <+: ss) (hp : p <+: ss)
    (haligned : TextRange.AtBoundaries text ⟨(utf8Code.encodeAll q).length, last⟩)
    (hsame : compareStringOrdinal upper (rangeUnits text ⟨(utf8Code.encodeAll q).length, last⟩) needle
      ignoreCase = true)
    (hroom : (utf16Code.encodeAll q).length + needle.length ≤ (utf16Code.encodeAll p).length) :
    last ≤ (utf8Code.encodeAll p).length := by
  obtain ⟨m, hlm, rfl, hlength, -⟩ := h.match_suffix hq haligned hsame
  refine length_encodeAll_le (C := utf8Code)
    (prefix_of_length_le (C := utf16Code) h.valid hlm hp ?_)
  rw [Lib.PrefixCode.encodeAll_append, List.length_append]
  omega

/-- **The loop** keeps what was found before unless a match starts at one of the offsets. -/
theorem findLoop_spec (h : Starts text cache ss) {bounds : TextRange}
    (hend : bounds.end_ = (utf8Code.encodeAll p).length) (hp : p <+: ss) (upper : UInt16 → UInt16)
    {needle : List UInt16} (hneedle : needle.length ≤ (utf16Code.encodeAll p).length)
    (backward ignoreCase : Bool) (offsets : List Nat)
    (hsorted : offsets.Pairwise (· < ·))
    (hoffsets : ∀ g ∈ offsets, IsGraphemeBoundary text g ∧ bounds.begin ≤ g) (found : Option TextRange) :
    ∃ result, findLoop cache upper needle backward ignoreCase bounds.end_ (utf16Code.encodeAll p).length
        offsets found = some result ∧
      (result = found ∧ (∀ range, IsMatch text upper needle ignoreCase bounds range →
          range.begin ∉ offsets) ∨
        ∃ range, result = some range ∧
          IsChosen (IsMatch text upper needle ignoreCase bounds) offsets backward range) := by
  induction offsets generalizing found with
  | nil => exact ⟨found, rfl, .inl ⟨rfl, fun _ _ => List.not_mem_nil⟩⟩
  | cons g rest ih =>
    obtain ⟨hfirst, hrest⟩ := List.pairwise_cons.1 hsorted
    obtain ⟨hboundary, hbegin⟩ := hoffsets g List.mem_cons_self
    specialize ih hrest fun g' hg' => hoffsets g' (List.mem_cons_of_mem g hg')
    have hbehind : ∀ range : TextRange, range.begin ∈ g :: rest → g ≤ range.begin := by
      intro range hmem
      rcases List.mem_cons.1 hmem with heq | hmem
      · exact Nat.le_of_eq heq.symm
      · exact Nat.le_of_lt (hfirst _ hmem)
    rw [findLoop]
    by_cases hlast : bounds.end_ < g
    · rw [if_pos hlast]
      refine ⟨found, rfl, .inl ⟨rfl, fun range hmatch hmem => ?_⟩⟩
      have hle := hbehind range hmem
      have horder := hmatch.aligned.order
      have hin := hmatch.le_last
      omega
    · rw [if_neg hlast]
      obtain ⟨q, hq, rfl⟩ := h.exists_prefix hboundary
      rw [h.wideOffset_prefix hq, sub32_eq hneedle (h.wide_lt hp)]
      simp only [Option.bind_eq_bind, Option.bind_some]
      by_cases hroom : (utf16Code.encodeAll q).length >
          (utf16Code.encodeAll p).length - needle.length
      · rw [if_pos hroom]
        refine ⟨found, rfl, .inl ⟨rfl, fun range hmatch hmem => ?_⟩⟩
        have hfits := h.match_room hp hend hmatch hq (hbehind range hmem)
        omega
      · rw [if_neg hroom]
        have hwhole := length_encodeAll_le (C := utf16Code) hp
        obtain ⟨m, hm, hiff⟩ := h.matchEnd_spec hq hboundary upper needle ignoreCase (by omega)
        rw [hm]
        simp only [Option.bind_some]
        cases m with
        | none =>
          obtain ⟨result, hrun, hresult⟩ := ih found
          have hhere : ∀ range, IsMatch text upper needle ignoreCase bounds range →
              range.begin ≠ (utf8Code.encodeAll q).length := by
            rintro ⟨first, last⟩ hmatch rfl
            exact absurd ((hiff last).2 ⟨hmatch.aligned, hmatch.same⟩) (by simp)
          exact ⟨result, hrun, skip_start hhere hresult⟩
        | some last =>
          obtain ⟨haligned, hsame⟩ := (hiff last).1 rfl
          have hmatch : IsMatch text upper needle ignoreCase bounds
              ⟨(utf8Code.encodeAll q).length, last⟩ :=
            ⟨haligned, hbegin, hend ▸ h.match_end_le hq hp haligned hsame (by omega), hsame⟩
          cases backward with
          | true =>
            obtain ⟨result, hrun, hresult⟩ := ih (some ⟨(utf8Code.encodeAll q).length, last⟩)
            refine ⟨result, hrun, .inr ?_⟩
            rcases hresult with ⟨rfl, hnone⟩ | ⟨range, rfl, hin, hmem, hmost⟩
            · refine ⟨_, rfl, hmatch, List.mem_cons_self, fun other hother hmem => ?_⟩
              rcases List.mem_cons.1 hmem with heq | hmem
              · exact Nat.le_of_eq heq
              · exact absurd hmem (hnone other hother)
            · refine ⟨range, rfl, hin, List.mem_cons_of_mem _ hmem, fun other hother hmem' => ?_⟩
              rcases List.mem_cons.1 hmem' with heq | hmem'
              · exact heq ▸ hbehind range (List.mem_cons_of_mem _ hmem)
              · exact hmost other hother hmem'
          | false =>
            exact ⟨_, rfl, .inr ⟨_, rfl, hmatch, List.mem_cons_self,
              fun other _ hmem => hbehind other hmem⟩⟩

/-- The offsets from a start on. -/
theorem mem_drop_lowerBound (h : Starts text cache ss) {begin g : Nat} :
    g ∈ cache.graphemes.drop (lowerBound cache.graphemes begin) ↔
      IsGraphemeBoundary text g ∧ begin ≤ g := by
  have hbelow : cache.graphemes.Pairwise fun a b =>
      decide (b < begin) = true → decide (a < begin) = true := by
    refine h.graphemes_pairwise.imp fun hlt hb => ?_
    exact decide_eq_true (hlt.trans (of_decide_eq_true hb))
  obtain ⟨-, hat⟩ := Lib.lowerBound_spec _ hbelow
  change ∀ i (hi : i < cache.graphemes.length), decide (cache.graphemes[i] < begin) = true ↔
    i < lowerBound cache.graphemes begin at hat
  rw [← h.mem_graphemes]
  constructor
  · intro hg
    obtain ⟨i, hi⟩ := List.mem_iff_getElem?.1 hg
    rw [List.getElem?_drop] at hi
    obtain ⟨hlt, heq⟩ := List.getElem?_eq_some_iff.1 hi
    refine ⟨List.mem_of_getElem? hi, Nat.not_lt.1 fun hbefore => ?_⟩
    have := (hat _ hlt).1 (decide_eq_true (heq ▸ hbefore))
    omega
  · rintro ⟨hg, hle⟩
    obtain ⟨i, hi⟩ := List.mem_iff_getElem?.1 hg
    obtain ⟨hlt, heq⟩ := List.getElem?_eq_some_iff.1 hi
    have hnot : lowerBound cache.graphemes begin ≤ i := by
      refine Nat.not_lt.1 fun hbefore => ?_
      have hsmall := of_decide_eq_true ((hat i hlt).2 hbefore)
      rw [heq] at hsmall
      omega
    refine List.mem_iff_getElem?.2 ⟨i - lowerBound cache.graphemes begin, ?_⟩
    rw [List.getElem?_drop, Nat.add_sub_cancel' hnot]
    exact hi

/-- The answer for what the loop found. -/
def foundAnswer (answers : QueryAnswers) : Option TextRange → Option (Except QueryError (Option TextRange))
  | none => some (.ok none)
  | some found => some (makeRange answers found)

/-- **A search** finds the first match or the last one, or there is none. -/
theorem findText_spec (h : Starts text cache ss) {provider : TextRangeProvider}
    (haligned : (unpack provider.bounds).AtBoundaries text) (upper : UInt16 → UInt16) (needle : Bstr)
    (hne : needle.units ≠ []) (backward ignoreCase : Bool) {answers : QueryAnswers}
    (havailable : answers.available = true) :
    (∃ found, IsFound text upper needle.units backward ignoreCase (unpack provider.bounds) found ∧
      findText cache upper needle backward ignoreCase answers provider =
        some (makeRange answers found)) ∨
    ((∀ range, ¬ IsMatch text upper needle.units ignoreCase (unpack provider.bounds) range) ∧
      findText cache upper needle backward ignoreCase answers provider = some (.ok none)) := by
  obtain ⟨p, q, hpq, hbegin, hend, hfirst, hlast⟩ := h.exists_bounds haligned
  have hp : p <+: ss := (List.prefix_append p q).trans hpq
  have horder := length_encodeAll_le (C := utf16Code) (List.prefix_append p q)
  have hrun : findText cache upper needle backward ignoreCase answers provider =
      if needle.units.length > (utf16Code.encodeAll (p ++ q)).length - (utf16Code.encodeAll p).length then
        some (.ok none)
      else
        (findLoop cache upper needle.units backward ignoreCase (unpack provider.bounds).end_
          (utf16Code.encodeAll (p ++ q)).length
          (cache.graphemes.drop (lowerBound cache.graphemes (unpack provider.bounds).begin)) none).bind
            (foundAnswer answers) := by
    rw [findText, havailable, needle.accepted hne, Bool.not_true, if_neg Bool.false_ne_true,
      if_neg Bool.false_ne_true]
    change (wideOffset cache (unpack provider.bounds).begin).bind _ = _
    rw [hfirst, Option.bind_some]
    change (wideOffset cache (unpack provider.bounds).end_).bind _ = _
    rw [hlast, Option.bind_some, sub32_eq horder (h.wide_lt hpq)]
    rfl
  rw [hrun]
  by_cases hlong : needle.units.length >
      (utf16Code.encodeAll (p ++ q)).length - (utf16Code.encodeAll p).length
  · rw [if_pos hlong]
    refine .inr ⟨fun range hmatch => ?_, rfl⟩
    have hroom := h.match_room hpq hend hmatch hp (hbegin ▸ hmatch.first_le)
    omega
  · rw [if_neg hlong]
    obtain ⟨result, hloop, hresult⟩ := h.findLoop_spec hend hpq upper
      (by omega : needle.units.length ≤ _) backward ignoreCase
      (cache.graphemes.drop (lowerBound cache.graphemes (unpack provider.bounds).begin))
      (h.graphemes_pairwise.sublist (List.drop_sublist _ _))
      (fun g hg => h.mem_drop_lowerBound.1 hg) none
    have hstart : ∀ range, IsMatch text upper needle.units ignoreCase (unpack provider.bounds) range →
        range.begin ∈ cache.graphemes.drop (lowerBound cache.graphemes (unpack provider.bounds).begin) :=
      fun range hmatch => h.mem_drop_lowerBound.2 ⟨hmatch.aligned.first, hmatch.first_le⟩
    rw [hloop]
    rcases hresult with ⟨rfl, hnone⟩ | ⟨range, rfl, hmatch, -, hmost⟩
    · exact .inr ⟨fun range hmatch => hnone range hmatch (hstart range hmatch), rfl⟩
    · exact .inl ⟨range, ⟨hmatch, fun other hother => hmost other hother (hstart other hother)⟩, rfl⟩

end Starts

/-! ## Surrogate pairs -/

theorem isHighHalf_iff {u : UInt16} : isHighHalf u = true ↔ 0xD800 ≤ u.toNat ∧ u.toNat ≤ 0xDBFF := by
  simp [isHighHalf, UInt16.le_iff_toNat_le]

theorem isHighHalf_low (n : Nat) (hn : n < 1024) : isHighHalf (UInt16.ofNat (0xDC00 + n)) = false := by
  refine Bool.eq_false_iff.2 fun h => ?_
  rw [isHighHalf_iff, Unicode.toNat_unit (by omega)] at h
  omega

/-- Behind the first half of a pair there is a unit that is none. -/
theorem high_followed {q : List Nat} (hq : utf16Code.Valid q) {i : Nat} {u : UInt16}
    (hat : (utf16Code.encodeAll q)[i]? = some u) (hu : isHighHalf u = true) :
    ∃ v, (utf16Code.encodeAll q)[i + 1]? = some v ∧ isHighHalf v = false := by
  induction q generalizing i with
  | nil => simp at hat
  | cons c q ih =>
    obtain ⟨hc, hq⟩ := utf16Code.valid_cons.1 hq
    rw [Lib.PrefixCode.encodeAll_cons] at hat ⊢
    change (Unicode.utf16Units c ++ _)[i]? = some u at hat
    change ∃ v, (Unicode.utf16Units c ++ _)[i + 1]? = some v ∧ _
    by_cases hbmp : c ≤ 0xFFFF
    · rw [Unicode.utf16Units_one hbmp] at hat ⊢
      cases i with
      | zero =>
        -- a scalar is no half of a pair
        obtain rfl : UInt16.ofNat c = u := by simpa using hat
        have hscalar : Unicode.isScalarValue c = true := hc
        rw [isHighHalf_iff, Unicode.toNat_unit (Nat.lt_succ_of_le hbmp)] at hu
        simp [Unicode.isScalarValue] at hscalar
        omega
      | succ i => exact ih hq (by simpa using hat)
    · rw [Unicode.utf16Units_two (Nat.not_le.1 hbmp)] at hat ⊢
      have hlow := isHighHalf_low ((c - 0x10000) % 1024) (Nat.mod_lt _ (by decide))
      cases i with
      | zero => exact ⟨_, rfl, hlow⟩
      | succ i =>
        cases i with
        | zero =>
          obtain rfl : UInt16.ofNat (0xDC00 + (c - 0x10000) % 1024) = u := by simpa using hat
          rw [hlow] at hu
          exact absurd hu Bool.noConfusion
        | succ i => exact ih hq (by simpa using hat)

/-- A prefix within the limit that does not end in the first half of a surrogate pair. -/
structure Fits (whole : List UInt16) (maximumLength : Int32) (units : List UInt16) : Prop where
  starts : units <+: whole
  short : 0 ≤ maximumLength.toInt → (units.length : Int) ≤ maximumLength.toInt
  pairs : ∀ u, units.getLast? = some u → ¬ (0xD800 ≤ u.toNat ∧ u.toNat ≤ 0xDBFF)

theorem getLast?_take {α : Type} {l : List α} {k : Nat} (hpos : 0 < k) (hle : k ≤ l.length) :
    (l.take k).getLast? = l[k - 1]? := by
  rw [List.getLast?_eq_getElem?, List.length_take, Nat.min_eq_left hle, List.getElem?_take]
  rw [if_pos (by omega)]

theorem fits_take {whole : List UInt16} {maximumLength : Int32} {k : Nat} (hle : k ≤ whole.length)
    (hshort : 0 ≤ maximumLength.toInt → (k : Int) ≤ maximumLength.toInt)
    (hlast : ∀ u, 0 < k → whole[k - 1]? = some u → isHighHalf u = false) :
    Fits whole maximumLength (whole.take k) where
  starts := List.take_prefix k whole
  short hmax := by
    rw [List.length_take, Nat.min_eq_left hle]
    exact hshort hmax
  pairs u hu := by
    rcases Nat.eq_zero_or_pos k with rfl | hpos
    · simp at hu
    · rw [getLast?_take hpos hle] at hu
      rw [← isHighHalf_iff, hlast u hpos hu]
      exact Bool.false_ne_true

/-- The last unit of a prefix that fits. -/
theorem Fits.last {whole units : List UInt16} {maximumLength : Int32} (h : Fits whole maximumLength units)
    (hpos : 0 < units.length) {u : UInt16} (hu : whole[units.length - 1]? = some u) :
    isHighHalf u = false := by
  have heq := List.prefix_iff_eq_take.1 h.starts
  have hlast := h.pairs u
  rw [heq, getLast?_take hpos h.starts.length_le] at hlast
  exact Bool.eq_false_iff.2 fun hhigh => hlast hu (isHighHalf_iff.1 hhigh)

/-- The longest prefix that fits. -/
def IsLongest (whole : List UInt16) (maximumLength : Int32) (units : List UInt16) : Prop :=
  Fits whole maximumLength units ∧
    ∀ other, Fits whole maximumLength other → other.length ≤ units.length

/-- What is left of a length when half a pair is taken back. -/
theorem isLongest_take {whole : List UInt16} {maximumLength : Int32} {k : Nat} (hle : k ≤ whole.length)
    (hshort : 0 ≤ maximumLength.toInt → (k : Int) ≤ maximumLength.toInt)
    (hmost : ∀ other, Fits whole maximumLength other → other.length ≤ k)
    (hpairs : ∀ i u, whole[i]? = some u → isHighHalf u = true →
      ∃ v, whole[i + 1]? = some v ∧ isHighHalf v = false) :
    IsLongest whole maximumLength
      (whole.take (if (0 < k ∧ ∃ u, whole[k - 1]? = some u ∧ isHighHalf u = true) then k - 1 else k)) := by
  split_ifs with hhalf
  · obtain ⟨hpos, u, hu, hhigh⟩ := hhalf
    refine ⟨fits_take (by omega) (fun hmax => ?_) fun v hv hat => ?_, fun other hother => ?_⟩
    · have := hshort hmax
      omega
    · refine Bool.eq_false_iff.2 fun hv' => ?_
      obtain ⟨w, hw, hlow⟩ := hpairs _ v hat hv'
      rw [Nat.sub_add_cancel hv, hu] at hw
      rw [← Option.some.inj hw, hhigh] at hlow
      exact Bool.noConfusion hlow
    · have hother' := hmost other hother
      rw [List.length_take, Nat.min_eq_left (by omega)]
      by_contra hlong
      obtain hlength : other.length = k := by omega
      have hlast := hother.last (by omega) (hlength ▸ hu)
      rw [hhigh] at hlast
      exact Bool.noConfusion hlast
  · refine ⟨fits_take hle hshort fun u hpos hat => ?_, fun other hother => ?_⟩
    · exact Bool.eq_false_iff.2 fun hhigh => hhalf ⟨hpos, u, hat, hhigh⟩
    · rw [List.length_take, Nat.min_eq_left hle]
      exact hmost other hother

/-- The limit on the length. -/
theorem limit_spec (whole : List UInt16) (maximumLength : Int32) {k : Nat}
    (hk : (if maximumLength ≥ 0 then min whole.length maximumLength.toUInt32.toNat
      else whole.length) = k) :
    k ≤ whole.length ∧ (0 ≤ maximumLength.toInt → (k : Int) ≤ maximumLength.toInt) ∧
      ∀ other, Fits whole maximumLength other → other.length ≤ k := by
  subst hk
  by_cases hmax : 0 ≤ maximumLength.toInt
  · have hmax' : maximumLength ≥ 0 := Int32.le_iff_toInt_le.2 hmax
    have hcast : maximumLength.toUInt32.toNat = maximumLength.toInt.toNat :=
      Int32.toNat_toUInt32_of_le hmax'
    rw [if_pos hmax', hcast]
    refine ⟨Nat.min_le_left _ _, fun _ => by omega, fun other hother => ?_⟩
    have hstarts := hother.starts.length_le
    have hshort := hother.short hmax
    omega
  · have hmax' : ¬ maximumLength ≥ 0 := fun hge => hmax (Int32.le_iff_toInt_le.1 hge)
    rw [if_neg hmax']
    exact ⟨Nat.le_refl _, fun hge => absurd hge hmax, fun other hother => hother.starts.length_le⟩

namespace Starts

variable {text : List UInt8} {cache : AccessibilityTextIndex} {ss p q : List Nat}

theorem withoutHalf_eq (h : Starts text cache ss) (hpq : p ++ q <+: ss) {k : Nat}
    (hk : k ≤ (utf16Code.encodeAll q).length) :
    withoutHalf cache (utf16Code.encodeAll p).length (utf16Code.encodeAll (p ++ q)).length k =
      some (if (0 < k ∧ ∃ u, (utf16Code.encodeAll q)[k - 1]? = some u ∧ isHighHalf u = true) then k - 1
        else k) := by
  have hwide := h.wide_lt hpq
  have hq : utf16Code.Valid q := fun c hc => h.valid c (hpq.subset (List.mem_append_right p hc))
  rw [Lib.PrefixCode.encodeAll_append, List.length_append] at hwide ⊢
  have hplace : u32 ((utf16Code.encodeAll p).length + k) = (utf16Code.encodeAll p).length + k :=
    u32_eq (by omega)
  rw [withoutHalf, hplace]
  by_cases hinside : 0 < k ∧ k < (utf16Code.encodeAll q).length
  · obtain ⟨hpos, hlt⟩ := hinside
    have hcondition : (k > 0 && (utf16Code.encodeAll p).length + k <
        (utf16Code.encodeAll p).length + (utf16Code.encodeAll q).length) = true := by
      simp [hpos, hlt]
    have hat : cache.text[(utf16Code.encodeAll p).length + k - 1]? = (utf16Code.encodeAll q)[k - 1]? := by
      obtain ⟨r, hr⟩ := hpq
      rw [h.units, ← hr, Lib.PrefixCode.encodeAll_append, Lib.PrefixCode.encodeAll_append,
        List.append_assoc, Nat.add_sub_assoc hpos, List.getElem?_append_right (Nat.le_add_right _ _),
        Nat.add_sub_cancel_left, List.getElem?_append_left (by omega)]
    rw [if_pos hcondition, sub32_eq (by omega) (by omega), hat,
      List.getElem?_eq_getElem (by omega : k - 1 < (utf16Code.encodeAll q).length)]
    simp [hpos]
  · have hcondition : ¬ (k > 0 && (utf16Code.encodeAll p).length + k <
        (utf16Code.encodeAll p).length + (utf16Code.encodeAll q).length) = true := by
      simp only [Bool.and_eq_true, decide_eq_true_eq]
      omega
    rw [if_neg hcondition, if_neg]
    rintro ⟨hpos, u, hat, hu⟩
    -- the whole text does not end inside a pair
    obtain ⟨v, hv, -⟩ := high_followed hq hat hu
    obtain ⟨hlt, -⟩ := List.getElem?_eq_some_iff.1 hv
    omega

/-- **The text of a range** is the longest prefix that fits. -/
theorem getText_spec (h : Starts text cache ss) {provider : TextRangeProvider}
    (haligned : (unpack provider.bounds).AtBoundaries text) (maximumLength : Int32)
    (hvalid : -1 ≤ maximumLength.toInt) {answers : QueryAnswers}
    (havailable : answers.available = true) :
    ∃ units, getText cache maximumLength answers provider =
        some (if answers.allocated then .ok units else .error .outOfMemory) ∧
      IsLongest (rangeUnits text (unpack provider.bounds)) maximumLength units := by
  obtain ⟨p, q, hpq, hbegin, hend, hfirst, hlast⟩ := h.exists_bounds haligned
  have hlength : (utf16Code.encodeAll (p ++ q)).length - (utf16Code.encodeAll p).length =
      (utf16Code.encodeAll q).length := by
    rw [Lib.PrefixCode.encodeAll_append, List.length_append, Nat.add_sub_cancel_left]
  have hwhole : rangeUnits text (unpack provider.bounds) = utf16Code.encodeAll q := by
    rw [← h.rangeUnits_eq hpq, ← hbegin, ← hend]
  have hq : utf16Code.Valid q := fun c hc => h.valid c (hpq.subset (List.mem_append_right p hc))
  have hnegative : ¬ maximumLength < -1 := by
    rw [Int32.lt_iff_toInt_lt]
    exact Int.not_lt.2 hvalid
  obtain ⟨k, hk⟩ : ∃ k, (if maximumLength ≥ 0 then
      min (utf16Code.encodeAll q).length maximumLength.toUInt32.toNat
    else (utf16Code.encodeAll q).length) = k := ⟨_, rfl⟩
  obtain ⟨hle, hshort, hmost⟩ := limit_spec _ _ hk
  have hlongest := isLongest_take hle hshort hmost fun i u hat hu => high_followed hq hat hu
  rw [hwhole]
  refine ⟨_, ?_, hlongest⟩
  rw [getText, havailable, Bool.not_true, if_neg Bool.false_ne_true, if_neg hnegative]
  change (wideOffset cache (unpack provider.bounds).begin).bind _ = _
  rw [hfirst, Option.bind_some]
  change (wideOffset cache (unpack provider.bounds).end_).bind _ = _
  rw [hlast, Option.bind_some, sub32_eq (length_encodeAll_le (List.prefix_append p q)) (h.wide_lt hpq),
    hlength]
  change (withoutHalf cache _ _ (if maximumLength ≥ 0 then
      min (utf16Code.encodeAll q).length maximumLength.toUInt32.toNat
    else (utf16Code.encodeAll q).length)).bind _ = _
  rw [hk, h.withoutHalf_eq hpq hle, Option.bind_some]
  change (substr cache.text _ _).bind _ = _
  obtain ⟨r, hr⟩ := hpq
  have hunits : cache.text = utf16Code.encodeAll p ++ (utf16Code.encodeAll q ++ utf16Code.encodeAll r) := by
    rw [h.units, ← hr, Lib.PrefixCode.encodeAll_append, Lib.PrefixCode.encodeAll_append,
      List.append_assoc]
  rw [substr, hunits, if_pos (by simp), List.drop_left, Option.bind_some, List.take_append_of_le_length]
  split_ifs <;> omega

end Starts

/-! ## Accepted snapshots -/

variable {F : Type} [DoubleOps F]

theorem starts_of_validate {snapshot : SnapshotView F} {limits : Limits} {fuel : Nat}
    {r : ValidationResult} (hvalidate : validate snapshot limits fuel = some r) (hok : r.ok = true)
    {node : Node F} (hnode : node ∈ snapshot.nodes) {content : TextContent F}
    (hcontent : node.text = some content) :
    ∃ cache ss, indexText node = some cache ∧ Starts content.utf8 cache ss := by
  obtain ⟨cache, hrun, hindexed⟩ := indexText_indexed hvalidate hok hnode hcontent
  obtain ⟨root, hchecked⟩ := checked_of_validate hvalidate hok
  obtain ⟨ss, hvalid, htext, hscalars, hoffsets, hunits, -⟩ := hindexed.starts
  exact ⟨cache, ss, hrun, hvalid, htext, hscalars, hoffsets, hunits, hindexed.boundaries,
    (hchecked.clean node hnode).size content hcontent⟩

/-- **Search and text of a range.** For a range of an accepted text from boundary to boundary and a
query that succeeds: `FindText` finds the first match, the last one backward, unless there is none;
and `GetText` copies the longest prefix within the limit that does not end inside a surrogate pair,
without a limit for -1. -/
theorem findText_getText {snapshot : SnapshotView F} {limits : Limits} {fuel : Nat}
    {r : ValidationResult} (hvalidate : validate snapshot limits fuel = some r) (hok : r.ok = true)
    {node : Node F} (hnode : node ∈ snapshot.nodes) {content : TextContent F}
    (hcontent : node.text = some content) :
    ∃ cache, indexText node = some cache ∧
      ∀ (provider : TextRangeProvider) (answers : QueryAnswers),
        (unpack provider.bounds).AtBoundaries content.utf8 → answers.available = true →
        (∀ (upper : UInt16 → UInt16) (needle : Bstr) (backward ignoreCase : Bool), needle.units ≠ [] →
          (∃ found,
            IsFound content.utf8 upper needle.units backward ignoreCase (unpack provider.bounds) found ∧
            findText cache upper needle backward ignoreCase answers provider =
              some (makeRange answers found)) ∨
          ((∀ range, ¬ IsMatch content.utf8 upper needle.units ignoreCase (unpack provider.bounds) range) ∧
            findText cache upper needle backward ignoreCase answers provider = some (.ok none))) ∧
        ∀ maximumLength : Int32,
          (-1 ≤ maximumLength.toInt → ∃ units,
            getText cache maximumLength answers provider =
              some (if answers.allocated then .ok units else .error .outOfMemory) ∧
            IsLongest (rangeUnits content.utf8 (unpack provider.bounds)) maximumLength units) ∧
          (maximumLength.toInt < -1 →
            getText cache maximumLength answers provider = some (.error .invalidArgument)) := by
  obtain ⟨cache, ss, hrun, hstarts⟩ := starts_of_validate hvalidate hok hnode hcontent
  refine ⟨cache, hrun, fun provider answers haligned havailable =>
    ⟨fun upper needle backward ignoreCase hne =>
      hstarts.findText_spec haligned upper needle hne backward ignoreCase havailable,
    fun maximumLength => ⟨fun hvalid => hstarts.getText_spec haligned maximumLength hvalid havailable,
      fun hinvalid => ?_⟩⟩⟩
  rw [getText, havailable, Bool.not_true, if_neg Bool.false_ne_true,
    if_pos (Int32.lt_iff_toInt_lt.2 hinvalid)]

/-- The accented letter of two scalars. -/
def accentedLetter : Bstr := ⟨[0x65, 0x301], by decide⟩

def wholeEmojiText : TextRangeProvider := { bounds := pack ⟨0, 12⟩ }

theorem findText_getText_emoji :
    ∃ cache, indexText emojiNode = some cache ∧
      IsFound emojiContent.utf8 id accentedLetter.units false false ⟨0, 12⟩ ⟨5, 8⟩ ∧
      IsLongest (rangeUnits emojiContent.utf8 ⟨0, 12⟩) 7 [0x61, 0x20, 0xE9, 0x0A, 0x65, 0x301] := by
  have haccepted : validate { generation := 1, root := 1, nodes := [emojiNode] } {} 10 =
      some {} := by decide +kernel
  have hcontent : emojiNode.text = some emojiContent := rfl
  have haligned : (unpack wholeEmojiText.bounds).AtBoundaries emojiContent.utf8 := by
    have htext : utf8Code.IsText emojiContent.utf8 :=
      Unicode.Utf8.validate_valid_iff.1 (by decide +kernel)
    have hends := isGraphemeBoundary_ends htext
    exact ⟨by decide, hends.1, hends.2⟩
  obtain ⟨cache, hrun, hquery⟩ :=
    findText_getText haccepted rfl (List.mem_singleton_self emojiNode) hcontent
  obtain ⟨hfind, hget⟩ := hquery wholeEmojiText {} haligned rfl
  have hanswers : (indexText emojiNode).map (fun cache =>
      (findText cache id accentedLetter false false {} wholeEmojiText,
        getText cache 7 {} wholeEmojiText)) =
      some (some (.ok (some ⟨5, 8⟩)), some (.ok [0x61, 0x20, 0xE9, 0x0A, 0x65, 0x301])) := by
    decide +kernel
  rw [hrun] at hanswers
  obtain ⟨hfound, hunits⟩ := Prod.mk.inj (Option.some.inj hanswers)
  refine ⟨cache, hrun, ?_, ?_⟩
  · rcases hfind id accentedLetter false false (by decide) with ⟨found, hisFound, heq⟩ | ⟨-, heq⟩
    · obtain rfl : found = ⟨5, 8⟩ := by simpa [makeRange, Except.map] using heq.symm.trans hfound
      exact hisFound
    · simpa using heq.symm.trans hfound
  · obtain ⟨units, heq, hlongest⟩ := (hget 7).1 (by decide)
    obtain rfl : units = [0x61, 0x20, 0xE9, 0x0A, 0x65, 0x301] := by simpa using heq.symm.trans hunits
    exact hlongest

end TextIndex

end Desktop

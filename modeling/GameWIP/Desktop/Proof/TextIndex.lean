import GameWIP.Desktop.TextIndex
import GameWIP.Desktop.Proof.TextUnits
import GameWIP.Desktop.Proof.WideText

/-!
# The text index

The pass over a text that the validation accepts visits the scalars in order
(`scanScalars_spec`): it keeps where each starts, in the text and in the converted text, and its
words and lines are those of `indexUnits`, whose tables hold grapheme boundaries only. The lookup of
a boundary is therefore exact (`wideOffset_eq`).
-/

namespace Desktop

namespace TextIndex

open Unicode (utf8Code utf16Code graphemes Span)
open Unicode.Utf8 (segmentation Cut)

/-! ## The converted text -/

theorem length_utf16_le (ss : List Nat) :
    (utf16Code.encodeAll ss).length ≤ (utf8Code.encodeAll ss).length := by
  induction ss with
  | nil => exact Nat.le_refl 0
  | cons s ss ih =>
    have hs : (utf16Code.encode s).length ≤ 1 * (utf8Code.encode s).length :=
      Unicode.length_utf16Units_le
    rw [Lib.PrefixCode.encodeAll_cons, Lib.PrefixCode.encodeAll_cons, List.length_append,
      List.length_append]
    omega

theorem utf16_encodeAll {ss : List Nat} (hvalid : utf8Code.Valid ss)
    (hsize : (utf8Code.encodeAll ss).length < 2 ^ 62) :
    utf16 (utf8Code.encodeAll ss) = utf16Code.encodeAll ss := by
  have hwide := length_utf16_le ss
  have hs : (utf8Code.encodeAll ss).length * 1 < 2 ^ 63 := by omega
  obtain ⟨ss', hvalid', hss, hrequired, hconvert⟩ :=
    Unicode.Utf8.convertToUtf16_spec (t := ⟨0, utf8Code.encodeAll ss, hs⟩)
      (utf8Code.isText_encodeAll hvalid)
  obtain rfl : ss' = ss := Lib.PrefixCode.encodeAll_injective hvalid' hvalid hss.symm
  have hd : (List.replicate (utf16Code.encodeAll ss').length (0 : UInt16)).length * 2 < 2 ^ 63 := by
    rw [List.length_replicate]
    omega
  have hresult := hconvert ⟨_, _, hd⟩ (nonOverlapping_endAddress hd)
    (Nat.le_of_eq (by rw [hrequired, List.length_replicate]))
  rw [utf16, dif_pos hs]
  simp only [hrequired]
  rw [dif_pos hd, hresult]
  simp

/-! ## The pass over the scalars -/

theorem u32_eq {n : Nat} (h : n < 2 ^ 32) : u32 n = n := Nat.mod_eq_of_lt h

/-- **The pass** ends; it has noted where the scalars start and made the words and lines of
`indexUnits`. -/
theorem scanScalars_spec {text : List UInt8} {l r : List Nat} {s : Scan} (units : List Nat)
    (hcut : Cut text s.offset l r) (hsize : text.length < 2 ^ 32)
    (hwide : s.wideOffset = (utf16Code.encodeAll l).length) :
    ∃ s', scanScalars text units s = some s' ∧
      s'.scalars ++ [s'.offset] =
        s.scalars ++ r.inits.map (fun p => (utf8Code.encodeAll (l ++ p)).length) ∧
      s'.utf16Offsets ++ [s'.wideOffset] =
        s.utf16Offsets ++ r.inits.map (fun p => (utf16Code.encodeAll (l ++ p)).length) ∧
      indexUnits text units s.offset s.previousSpace s.words s.lines =
        some (s'.offset, s'.words, s'.lines) := by
  induction r generalizing l s with
  | nil =>
    have hend : ¬ s.offset < text.length := by
      rw [hcut.offset_eq, hcut.eq, List.append_nil]
      exact Nat.lt_irrefl _
    refine ⟨s, ?_, ?_, ?_, ?_⟩
    · rw [scanScalars, dif_neg hend]
    · simp [hcut.offset_eq]
    · simp [hwide]
    · rw [indexUnits, dif_neg hend]
  | cons c r ih =>
    have hfrom : Unicode.TextFrom text s.offset (c :: r) := by
      rw [hcut.eq, hcut.offset]
      exact .of_encodeAll hcut.valid
    obtain ⟨hlt, hdecode, hrest⟩ := hfrom.step
    have hpos := Unicode.utf8EncodedLength_pos c
    have hle := hrest.le
    have hnext : Cut text (s.offset + Unicode.utf8EncodedLength c) (l ++ [c]) r := by
      refine ⟨?_, ?_, ?_⟩
      · simpa using hcut.valid
      · simpa using hcut.eq
      · rw [hcut.offset]
        simp
    have hunits : (if c > 0xFFFF then 2 else 1) = Unicode.utf16EncodedLength c := by
      rw [Unicode.utf16EncodedLength]
      split_ifs <;> omega
    have hwide' : s.wideOffset + Unicode.utf16EncodedLength c =
        (utf16Code.encodeAll (l ++ [c])).length := by
      have hone : (utf16Code.encodeAll [c]).length = Unicode.utf16EncodedLength c := by
        rw [Lib.PrefixCode.encodeAll_cons, Lib.PrefixCode.encodeAll_nil, List.append_nil]
        exact Unicode.length_utf16Units c
      rw [hwide, Lib.PrefixCode.encodeAll_append, List.length_append, hone]
    have hoffset32 : u32 (s.offset + Unicode.utf8EncodedLength c) =
        s.offset + Unicode.utf8EncodedLength c := u32_eq (by omega)
    have hwide32 : u32 (s.wideOffset + Unicode.utf16EncodedLength c) =
        s.wideOffset + Unicode.utf16EncodedLength c := by
      have hless := length_utf16_le (l ++ [c])
      rw [← hwide', ← hnext.offset_eq] at hless
      exact u32_eq (by omega)
    obtain ⟨s', hrun, hscalars, hoffsets, hindex⟩ := ih
      (s :=
        { offset := s.offset + Unicode.utf8EncodedLength c
          wideOffset := s.wideOffset + Unicode.utf16EncodedLength c
          previousSpace := isSpace c
          scalars := s.scalars ++ [s.offset]
          utf16Offsets := s.utf16Offsets ++ [s.wideOffset]
          words :=
            if s.previousSpace && !isSpace c && binarySearch units s.offset then
              s.words ++ [s.offset]
            else s.words
          lines :=
            if isLineEnd c then s.lines ++ [s.offset + Unicode.utf8EncodedLength c] else s.lines })
      hnext hwide'
    refine ⟨s', ?_, ?_, ?_, ?_⟩
    · rw [scanScalars, dif_pos hlt, Unicode.Utf8.decodeScalar, hdecode]
      simp only [hoffset32, hunits, hwide32]
      rw [dif_neg (by omega)]
      exact hrun
    · rw [hscalars, List.inits_cons]
      simp [hcut.offset_eq]
    · rw [hoffsets, List.inits_cons]
      simp [hwide]
    · rw [indexUnits, dif_pos hlt, Unicode.Utf8.decodeScalar, hdecode]
      simp only [dif_neg hpos.ne']
      exact hindex

/-! ## The lookup -/

theorem offset_strictTotal : Lib.StrictTotal fun a b : Nat => decide (a < b) :=
  .of_rank (fun _ _ => rfl) fun _ _ => id

/-- **The lookup of the start of a scalar** answers where its UTF-16 starts. -/
theorem wideOffset_eq {cache : AccessibilityTextIndex} {ss p : List Nat}
    (hscalars : cache.scalars = ss.inits.map fun p => (utf8Code.encodeAll p).length)
    (hoffsets : cache.utf16Offsets = ss.inits.map fun p => (utf16Code.encodeAll p).length)
    (hp : p <+: ss) :
    wideOffset cache (utf8Code.encodeAll p).length = some (utf16Code.encodeAll p).length := by
  have hsorted : Lib.SortedBy (fun a b : Nat => decide (a < b)) id cache.scalars := by
    have hstarts : cache.scalars = ss.inits.map graphemes.length := by
      rw [hscalars]
      exact List.map_congr_left fun p _ => Unicode.length_encodeAll p
    rw [hstarts]
    exact (graphemes.pairwise_inits ss).imp fun hlt => decide_eq_true hlt
  obtain ⟨i, hat⟩ := List.mem_iff_getElem?.1 (List.mem_inits p ss |>.2 hp)
  have hstart : cache.scalars[i]? = some (utf8Code.encodeAll p).length := by
    rw [hscalars, List.getElem?_map, hat]
    rfl
  have hsearch := hsorted.search_key offset_strictTotal hstart
  rw [id] at hsearch
  rw [wideOffset, hsearch, hoffsets, List.getElem?_map, hat]
  rfl

/-! ## The tables -/

/-- Boundaries in increasing order from one end of the text to the other. -/
structure UnitsOf (text : List UInt8) (boundaries units : List Nat) : Prop where
  increasing : units.Pairwise (· < ·)
  first : units.head? = some 0
  last : units.getLast? = some text.length
  subset : units ⊆ boundaries
  empty : text = [] → units = [0]

theorem unitsOf {text : List UInt8} {units : List Nat} (h : StrictTable text units) :
    UnitsOf text (segmentation text) units := by
  obtain ⟨hincreasing, htable⟩ := h
  have hfirst : units.head? = some 0 := by
    cases units with
    | nil => exact absurd htable.zero List.not_mem_nil
    | cons a rest =>
      rcases List.mem_cons.1 htable.zero with rfl | hrest
      · rfl
      · exact absurd ((List.pairwise_cons.1 hincreasing).1 0 hrest) (Nat.not_lt_zero a)
  have hlast : units.getLast? = some text.length := by
    obtain ⟨before, behind, rfl⟩ := List.append_of_mem htable.size
    cases behind with
    | nil => simp
    | cons b behind =>
      -- nothing stands behind the end of the text
      have hlt := (List.pairwise_cons.1 (List.pairwise_append.1 hincreasing).2.1).1 b
        List.mem_cons_self
      exact absurd (htable.boundary b (by simp)).le (Nat.not_le.2 hlt)
  refine ⟨hincreasing, hfirst, hlast, fun b hb => ?_, ?_⟩
  · have hboundary := htable.boundary b hb
    exact (isGraphemeBoundary_iff hboundary.isText).1 hboundary
  · rintro rfl
    cases units with
    | nil => cases hfirst
    | cons a rest =>
      obtain rfl : a = 0 := Option.some.inj hfirst
      cases rest with
      | nil => rfl
      | cons b rest =>
        have hlt := (List.pairwise_cons.1 hincreasing).1 b List.mem_cons_self
        have hle := (htable.boundary b (by simp)).le
        rw [List.length_nil] at hle
        omega

/-- What the index says of a text. -/
structure Indexed (text : List UInt8) (cache : AccessibilityTextIndex) : Prop where
  starts : ∃ ss, utf8Code.Valid ss ∧ text = utf8Code.encodeAll ss ∧
    cache.scalars = (ss.inits.map fun p => (utf8Code.encodeAll p).length) ∧
    cache.utf16Offsets = (ss.inits.map fun p => (utf16Code.encodeAll p).length) ∧
    cache.text = utf16Code.encodeAll ss ∧
    ∀ g ∈ cache.graphemes, ∃ p, p <+: ss ∧ g = (utf8Code.encodeAll p).length ∧
      wideOffset cache g = some (utf16Code.encodeAll p).length
  boundaries : cache.graphemes = segmentation text
  graphemes : UnitsOf text cache.graphemes cache.graphemes
  words : UnitsOf text cache.graphemes cache.words
  lines : UnitsOf text cache.graphemes cache.lines
  formats : UnitsOf text cache.graphemes cache.formats

variable {F : Type}

/-- **The index** of a text with annotations at its boundaries. -/
theorem indexText_spec {node : Node F} {content : TextContent F} (hnode : node.text = some content)
    (htext : utf8Code.IsText content.utf8) (hsize : content.utf8.length < 2 ^ 32)
    (hitems : ∀ item ∈ content.annotations, item.range.AtBoundaries content.utf8) :
    ∃ cache, indexText node = some cache ∧
      indexTextUnits content = some cache.toAccessibilityTextCache ∧
      Indexed content.utf8 cache := by
  obtain ⟨units, hunits, htables⟩ := indexTextUnits_tables htext hitems
  obtain ⟨ss, hvalid, hcontent⟩ := id htext
  have hcut : Cut content.utf8 ({} : Scan).offset [] ss := ⟨hvalid, hcontent, rfl⟩
  have hgraphemes : (graphemeBoundaries content.utf8).map u32 = graphemeBoundaries content.utf8 := by
    refine (List.map_congr_left fun b hb => ?_).trans (List.map_id _)
    have hle := ((strictTable_graphemes htext).2.boundary b hb).le
    exact u32_eq (by omega)
  obtain ⟨s, hrun, hscalars, hoffsets, hindex⟩ :=
    scanScalars_spec (graphemeBoundaries content.utf8) hcut hsize rfl
  have hsame : indexTextUnits content =
      some
        { graphemes := graphemeBoundaries content.utf8
          words := closeUnits s.offset s.words
          lines := closeUnits s.offset s.lines
          formats := formatEdges content } := by
    rw [indexTextUnits, hindex, formatEdges, u32_eq hsize]
    rfl
  obtain rfl := Option.some.inj (hunits.symm.trans hsame)
  -- the tables of single units are strict
  have hstrict : ∀ unit, unit ≠ .page → unit ≠ .document → unit ≠ .unknown →
      UnitsOf content.utf8 (segmentation content.utf8) (unitIndex ⟨_, _⟩ unit) :=
    fun unit hpage hdocument hunknown =>
      unitsOf ⟨htables.strict unit fun h => h.2.elim hpage hdocument, htables.table unit hunknown⟩
  have hboundaries := graphemeBoundaries_segmentation htext
  rw [← hboundaries] at hstrict
  refine ⟨_, by rw [indexText, hnode]; simp only [hgraphemes, hrun, Option.map_some]; rfl, hunits,
    ?_⟩
  refine
    { starts := ⟨ss, hvalid, hcontent, hscalars, hoffsets, ?_, fun g hg => ?_⟩
      boundaries := hboundaries
      graphemes := hstrict .character (by decide) (by decide) (by decide)
      words := hstrict .word (by decide) (by decide) (by decide)
      lines := hstrict .line (by decide) (by decide) (by decide)
      formats := hstrict .format (by decide) (by decide) (by decide) }
  · have hwide := utf16_encodeAll hvalid (by rw [← hcontent]; omega)
    rw [← hcontent] at hwide
    exact hwide
  · obtain ⟨l, r, hat⟩ := Unicode.Utf8.exists_cut_of_mem htext (hboundaries ▸ hg)
    obtain rfl : l ++ r = ss :=
      Lib.PrefixCode.encodeAll_injective hat.valid hvalid (hat.eq.symm.trans hcontent)
    refine ⟨l, List.prefix_append l r, hat.offset_eq, ?_⟩
    rw [hat.offset_eq]
    exact wideOffset_eq hscalars hoffsets (List.prefix_append l r)

variable [DoubleOps F]

/-- **The text index of an accepted node.** The scalars are all starts with the size of the text
behind them, the UTF-16 offsets the lengths of what is converted in front of them, and the unit
tables hold grapheme boundaries from 0 to the size; every boundary is looked up exactly. -/
theorem indexText_indexed {snapshot : SnapshotView F} {limits : Limits} {fuel : Nat}
    {r : ValidationResult} (hvalidate : validate snapshot limits fuel = some r)
    (hok : r.ok = true) {node : Node F} (hnode : node ∈ snapshot.nodes) {content : TextContent F}
    (hcontent : node.text = some content) :
    ∃ cache, indexText node = some cache ∧ Indexed content.utf8 cache := by
  obtain ⟨root, hchecked⟩ := checked_of_validate hvalidate hok
  have hclean := hchecked.clean node hnode
  have htext : utf8Code.IsText content.utf8 :=
    Unicode.Utf8.validate_valid_iff.1 (of_decide_eq_true (hclean.text content hcontent))
  have hsize := hclean.size content hcontent
  obtain ⟨cache, hrun, -, hindexed⟩ := indexText_spec hcontent htext (by omega) fun item hitem =>
    atBoundaries_of_validRange htext (hclean.annotations content hcontent item hitem)
  exact ⟨cache, hrun, hindexed⟩

/-- Two lines, the second one an accented letter of two scalars with an emoji behind it. -/
def emojiContent : TextContent Int where
  utf8 := [0x61, 0x20, 0xC3, 0xA9, 0x0A, 0x65, 0xCC, 0x81, 0xF0, 0x9F, 0x98, 0x80]
  annotations := [{ range := { begin := 1, end_ := 4 } }]

def emojiNode : Node Int where
  id := 1
  text := some emojiContent

theorem indexText_indexed_emoji :
    ∃ cache, indexText emojiNode = some cache ∧ Indexed emojiContent.utf8 cache ∧
      cache.graphemes = [0, 1, 2, 4, 5, 8, 12] ∧ cache.utf16Offsets = [0, 1, 2, 3, 4, 5, 6, 8] := by
  have haccepted : validate { generation := 1, root := 1, nodes := [emojiNode] } {} 10 =
      some {} := by decide +kernel
  have hcontent : emojiNode.text = some emojiContent := rfl
  obtain ⟨cache, hrun, hindexed⟩ :=
    indexText_indexed haccepted rfl (List.mem_singleton_self emojiNode) hcontent
  have htables : (indexText emojiNode).map (fun cache => (cache.graphemes, cache.utf16Offsets)) =
      some ([0, 1, 2, 4, 5, 8, 12], [0, 1, 2, 3, 4, 5, 6, 8]) := by decide +kernel
  rw [hrun] at htables
  obtain ⟨hgraphemes, hoffsets⟩ := Prod.mk.inj (Option.some.inj htables)
  exact ⟨cache, hrun, hindexed, hgraphemes, hoffsets⟩

end TextIndex

end Desktop

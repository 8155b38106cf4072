import GameWIP.Desktop.TextAttributes
import GameWIP.Desktop.Proof.TextSearch
import GameWIP.Lib.Pieces

/-!
# What an attribute of a range is

`attributes_of_graphemes`: the culture, the italics and the weight of a range are those of all its
graphemes, or the mixed marker when two of them differ; and a search for a value finds a range whose
graphemes all have it, unless no grapheme has it.

An annotation that touches a segment without an edge inside covers it (`covers_of_overlap`), so every
part of the segment has the same value (`attributeSegment_congr`). The edges in the format table cut a
range into such segments (`Lib.pieces`).
-/

namespace Desktop

namespace TextIndex

open Unicode (utf8Code)
open Lib (pieces)

variable {F : Type}

/-! ## Segments -/

def Within (range bounds : TextRange) : Prop :=
  bounds.begin ≤ range.begin ∧ range.end_ ≤ bounds.end_

theorem Within.trans {a b c : TextRange} (hab : Within a b)
    (hbc : Within b c) : Within a c :=
  ⟨hbc.1.trans hab.1, hab.2.trans hbc.2⟩

/-- No annotation starts or ends inside. -/
def Uncut (items : List TextAnnotation) (segment : TextRange) : Prop :=
  ∀ item ∈ items, ¬ (segment.begin < item.range.begin ∧ item.range.begin < segment.end_) ∧
    ¬ (segment.begin < item.range.end_ ∧ item.range.end_ < segment.end_)

variable {items : List TextAnnotation} {segment part : TextRange}

theorem overlap_iff {range other : TextRange} (h : range.begin < range.end_) :
    overlap range other = true ↔ range.begin < other.end_ ∧ other.begin < range.end_ := by
  rw [overlap, if_neg (Nat.ne_of_lt h), Bool.and_eq_true, decide_eq_true_iff, decide_eq_true_iff]

/-- An annotation that touches an uncut segment covers it. -/
theorem covers_of_overlap (huncut : Uncut items segment) (hlt : segment.begin < segment.end_)
    {item : TextAnnotation} (hitem : item ∈ items) (h : overlap segment item.range = true) :
    item.range.begin ≤ segment.begin ∧ segment.end_ ≤ item.range.end_ := by
  obtain ⟨hfirst, hlast⟩ := huncut item hitem
  obtain ⟨hbegin, hend⟩ := (overlap_iff hlt).1 h
  omega

theorem overlap_part (huncut : Uncut items segment) (hin : Within part segment)
    (hlt : part.begin < part.end_) {item : TextAnnotation} (hitem : item ∈ items) :
    overlap part item.range = overlap segment item.range := by
  obtain ⟨hbegin, hend⟩ := hin
  have hsegment : segment.begin < segment.end_ := by omega
  refine Bool.eq_iff_iff.2 ⟨fun h => ?_, fun h => ?_⟩
  · obtain ⟨hfirst, hlast⟩ := (overlap_iff hlt).1 h
    exact (overlap_iff hsegment).2 ⟨by omega, by omega⟩
  · obtain ⟨hfirst, hlast⟩ := covers_of_overlap huncut hsegment hitem h
    exact (overlap_iff hlt).2 ⟨by omega, by omega⟩

theorem selectLoop_congr (q : UiaQuery F) (lcid : List UInt16 → UInt32) (id : TextAttributeId)
    (huncut : Uncut items segment) (hin : Within part segment)
    (hlt : part.begin < part.end_) {l : List AnnotationAt} (hl : ∀ item ∈ l, item.1 ∈ items)
    (selected : Option AnnotationAt) :
    selectLoop q lcid id part l selected = selectLoop q lcid id segment l selected := by
  induction l generalizing selected with
  | nil => rfl
  | cons item rest ih =>
    have hitem := hl item List.mem_cons_self
    have ih := ih fun other hother => hl other (List.mem_cons_of_mem item hother)
    rw [selectLoop, selectLoop, overlap_part huncut hin hlt hitem]
    by_cases hskip : (!relevant id item.1 || !overlap segment item.1.range) = true
    · rw [if_pos hskip, if_pos hskip]
      exact ih selected
    · rw [if_neg hskip, if_neg hskip]
      simp only [Bool.or_eq_true, Bool.not_eq_true', not_or, Bool.not_eq_false] at hskip
      obtain ⟨hbegin, hend⟩ := hin
      obtain ⟨hfirst, hlast⟩ := covers_of_overlap huncut (by omega) hitem hskip.2
      have hpart : (part.begin < item.1.range.begin || part.end_ > item.1.range.end_) = false := by
        simp only [Bool.or_eq_false_iff, decide_eq_false_iff_not]
        omega
      have hsegment :
          (segment.begin < item.1.range.begin || segment.end_ > item.1.range.end_) = false := by
        simp only [Bool.or_eq_false_iff, decide_eq_false_iff_not]
        omega
      rw [hpart, hsegment]
      simp only [Bool.false_eq_true, if_false, ih]

/-- **A part of an uncut segment** has the value of the segment. -/
theorem attributeSegment_congr (q : UiaQuery F) (lcid : List UInt16 → UInt32) (id : TextAttributeId)
    (answers : AttributeAnswers) (huncut : Uncut q.textContent.annotations segment)
    (hin : Within part segment) (hlt : part.begin < part.end_) :
    attributeSegment q lcid part id answers = attributeSegment q lcid segment id answers := by
  have hloop := selectLoop_congr q lcid id huncut hin hlt
    (l := q.textContent.annotations.zipIdx) (fun item hitem => List.fst_mem_of_mem_zipIdx hitem) none
  cases id with
  | isReadOnly => rfl
  | isHidden => rfl
  | textFlowDirections => rfl
  | other => rfl
  | culture => simp only [attributeSegment, hloop]
  | isItalic => simp only [attributeSegment, hloop]
  | fontWeight => simp only [attributeSegment, hloop]
  | annotationTypes => simp only [attributeSegment, hloop]
  | annotationObjects => simp only [attributeSegment, hloop]

/-- With what the platform hands out there is a value. -/
theorem attributeSegment_ok (q : UiaQuery F) (lcid : List UInt16 → UInt32) (bounds : TextRange)
    (id : TextAttributeId) {answers : AttributeAnswers} (hmarkers : answers.markers = true)
    (hallocated : answers.allocated = true) :
    ∃ v, attributeSegment q lcid bounds id answers = .ok v := by
  have hreserved : ∀ marker, ∃ v : Variant F, reserved answers marker = .ok v := fun marker =>
    ⟨_, by rw [reserved, hmarkers, if_pos rfl]⟩
  have hselected : ∀ selected, ∃ v, selectedValue q lcid id answers selected = .ok v := by
    intro selected
    cases id with
    | culture =>
      simp only [selectedValue]
      split
      · exact hreserved _
      · exact ⟨_, rfl⟩
    | isItalic => exact ⟨_, rfl⟩
    | fontWeight => exact ⟨_, rfl⟩
    | _ => simp [selectedValue, hallocated]
  cases id with
  | isReadOnly => exact ⟨_, rfl⟩
  | isHidden => exact ⟨_, rfl⟩
  | textFlowDirections =>
    simp only [attributeSegment]
    split
    · exact hreserved _
    · split
      · exact hreserved _
      · exact ⟨_, rfl⟩
  | other => exact hreserved _
  | _ =>
    simp only [attributeSegment]
    split
    · exact hreserved _
    · exact hselected _

/-! ## Values -/

/-- The attributes that a range gathers from its pieces. -/
def TextAttributeId.Effective (id : TextAttributeId) : Prop :=
  id = .culture ∨ id = .isItalic ∨ id = .fontWeight

/-- The values of these attributes. -/
inductive Plain : Variant F → Prop
  | bool (boolVal : Int16) : Plain (.bool boolVal)
  | i4 (lVal : Int32) : Plain (.i4 lVal)
  | unknown (punkVal : Marker) : Plain (.unknown punkVal)

theorem plain_attributeSegment {q : UiaQuery F} {lcid : List UInt16 → UInt32} {bounds : TextRange}
    {id : TextAttributeId} {answers : AttributeAnswers} (hid : id.Effective) {v : Variant F}
    (hv : attributeSegment q lcid bounds id answers = .ok v) : Plain v := by
  have hreserved : ∀ marker, reserved answers marker = .ok v → Plain v := by
    intro marker h
    rw [reserved] at h
    split at h
    · exact Except.ok.inj h ▸ .unknown marker
    · cases h
  rcases hid with rfl | rfl | rfl
  · simp only [attributeSegment, selectedValue] at hv
    split at hv
    · exact hreserved _ hv
    · split at hv
      · exact hreserved _ hv
      · exact Except.ok.inj hv ▸ .i4 _
  · simp only [attributeSegment, selectedValue] at hv
    split at hv
    · exact hreserved _ hv
    · exact Except.ok.inj hv ▸ .bool _
  · simp only [attributeSegment, selectedValue] at hv
    split at hv
    · exact hreserved _ hv
    · exact Except.ok.inj hv ▸ .i4 _

theorem Plain.attributeEquals_iff [FloatOps F] {v w : Variant F} (hv : Plain v) :
    attributeEquals v w = true ↔ v = w := by
  cases hv <;> cases w <;> simp [attributeEquals]

/-! ## The pieces of a range -/

/-- A piece as a range. -/
def pieceRange (p : Nat × Nat) : TextRange := { begin := p.1, end_ := p.2 }

section Loops

variable [FloatOps F] {q : UiaQuery F} {lcid : List UInt16 → UInt32} {id : TextAttributeId}
  {answers : AttributeAnswers} {V : TextRange → Variant F} {bounds : TextRange}

variable (bounds) in
/-- The loop with a value in hand keeps it while the pieces have it. -/
theorem attributeLoop_some (hV : ∀ s, attributeSegment q lcid s id answers = .ok (V s))
    (hmarkers : answers.markers = true) {v : Variant F} (hv : Plain v) {edges : List Nat}
    (hsorted : edges.Pairwise (· < ·)) :
    (attributeLoop q lcid bounds id answers edges (some v) = .ok (some v) ∧
      ∀ p ∈ pieces bounds.begin bounds.end_ edges, V (pieceRange p) = v) ∨
    (attributeLoop q lcid bounds id answers edges (some v) = .ok (some (.unknown .mixed)) ∧
      ∃ p ∈ pieces bounds.begin bounds.end_ edges, V (pieceRange p) ≠ v) := by
  induction edges with
  | nil => exact .inl ⟨rfl, fun p hp => absurd hp List.not_mem_nil⟩
  | cons x rest ih =>
    cases rest with
    | nil => exact .inl ⟨rfl, fun p hp => absurd hp List.not_mem_nil⟩
    | cons y rest =>
      specialize ih (List.pairwise_cons.1 hsorted).2
      rw [attributeLoop]
      by_cases hx : x < bounds.end_
      · rw [if_pos hx]
        by_cases hpiece : max x bounds.begin < min y bounds.end_
        · rw [Lib.pieces_cons_of_lt hpiece]
          simp only [ge_iff_le, Nat.not_le.2 hpiece, if_false, hV]
          change ((if attributeEquals v (V ⟨max x bounds.begin, min y bounds.end_⟩) then _ else _) = _ ∧ _) ∨
            ((if attributeEquals v (V ⟨max x bounds.begin, min y bounds.end_⟩) then _ else _) = _ ∧ _)
          by_cases hsame : v = V ⟨max x bounds.begin, min y bounds.end_⟩
          · rw [if_pos (hv.attributeEquals_iff.2 hsame)]
            rcases ih with ⟨hrun, hall⟩ | ⟨hrun, p, hp, hne⟩
            · refine .inl ⟨hrun, fun p hp => ?_⟩
              rcases List.mem_cons.1 hp with rfl | hp
              · exact hsame.symm
              · exact hall p hp
            · exact .inr ⟨hrun, p, List.mem_cons_of_mem _ hp, hne⟩
          · rw [if_neg fun h => hsame (hv.attributeEquals_iff.1 h)]
            refine .inr ⟨?_, _, List.mem_cons_self, fun h => hsame h.symm⟩
            rw [reserved, if_pos hmarkers]
            rfl
        · rw [Lib.pieces_cons_of_not_lt hpiece]
          simp only [ge_iff_le, Nat.not_lt.1 hpiece, if_true]
          exact ih
      · rw [if_neg hx, Lib.pieces_of_le (Nat.not_lt.1 hx) hsorted]
        exact .inl ⟨rfl, fun p hp => absurd hp List.not_mem_nil⟩

/-- **The loop** finds the value of all pieces, or the mixed marker when two of them differ. -/
theorem attributeLoop_none (hV : ∀ s, attributeSegment q lcid s id answers = .ok (V s))
    (hplain : ∀ s, Plain (V s)) (hmarkers : answers.markers = true) {edges : List Nat}
    (hsorted : edges.Pairwise (· < ·)) (hne : pieces bounds.begin bounds.end_ edges ≠ []) :
    (∃ v, attributeLoop q lcid bounds id answers edges none = .ok (some v) ∧
      ∀ p ∈ pieces bounds.begin bounds.end_ edges, V (pieceRange p) = v) ∨
    (attributeLoop q lcid bounds id answers edges none = .ok (some (.unknown .mixed)) ∧
      ∃ p ∈ pieces bounds.begin bounds.end_ edges, ∃ p' ∈ pieces bounds.begin bounds.end_ edges,
        V (pieceRange p) ≠ V (pieceRange p')) := by
  induction edges with
  | nil => exact absurd rfl hne
  | cons x rest ih =>
    cases rest with
    | nil => exact absurd rfl hne
    | cons y rest =>
      have hrest := (List.pairwise_cons.1 hsorted).2
      rw [attributeLoop]
      by_cases hx : x < bounds.end_
      · rw [if_pos hx]
        by_cases hpiece : max x bounds.begin < min y bounds.end_
        · rw [Lib.pieces_cons_of_lt hpiece] at hne ⊢
          simp only [ge_iff_le, Nat.not_le.2 hpiece, if_false, hV]
          -- the first piece gives the value in hand
          rcases attributeLoop_some bounds hV hmarkers
              (hplain (pieceRange (max x bounds.begin, min y bounds.end_))) hrest with
            ⟨hrun, hall⟩ | ⟨hrun, p, hp, hother⟩
          · refine .inl ⟨_, hrun, fun p hp => ?_⟩
            rcases List.mem_cons.1 hp with rfl | hp
            · rfl
            · exact hall p hp
          · exact .inr ⟨hrun, p, List.mem_cons_of_mem _ hp, _, List.mem_cons_self, hother⟩
        · rw [Lib.pieces_cons_of_not_lt hpiece] at hne ⊢
          simp only [ge_iff_le, Nat.not_lt.1 hpiece, if_true]
          exact ih hrest hne
      · exact absurd (Lib.pieces_of_le (Nat.not_lt.1 hx) hsorted) hne

end Loops

/-! ## Graphemes -/

/-- A grapheme of a text as a range. -/
structure IsGrapheme (text : List UInt8) (g : TextRange) : Prop where
  first : IsGraphemeBoundary text g.begin
  last : IsGraphemeBoundary text g.end_
  lt : g.begin < g.end_
  whole : ∀ b, IsGraphemeBoundary text b → ¬ (g.begin < b ∧ b < g.end_)

/-- A range from boundary to boundary starts with a grapheme. -/
theorem exists_grapheme {text : List UInt8} {range : TextRange} (h : range.AtBoundaries text)
    (hlt : range.begin < range.end_) : ∃ g, IsGrapheme text g ∧ Within g range := by
  classical
  have hexists : ∃ b, range.begin < b ∧ IsGraphemeBoundary text b := ⟨range.end_, hlt, h.last⟩
  obtain ⟨hbehind, hboundary⟩ := Nat.find_spec hexists
  refine ⟨⟨range.begin, Nat.find hexists⟩, ⟨h.first, hboundary, hbehind, ?_⟩, Nat.le_refl _,
    Nat.find_min' hexists ⟨hlt, h.last⟩⟩
  rintro b hb ⟨hfirst, hlast⟩
  exact Nat.find_min hexists hlast ⟨hfirst, hb⟩

/-- The format table of a text has the edges of its annotations. -/
structure Formatted (q : UiaQuery F) : Prop where
  sorted : q.text.formats.Pairwise (· < ·)
  first : q.text.formats.head? = some 0
  size : q.textContent.utf8.length ∈ q.text.formats
  boundary : ∀ x ∈ q.text.formats, IsGraphemeBoundary q.textContent.utf8 x
  edges : ∀ item ∈ q.textContent.annotations,
    item.range.begin ∈ q.text.formats ∧ item.range.end_ ∈ q.text.formats

namespace Formatted

variable {q : UiaQuery F} {lcid : List UInt16 → UInt32} {id : TextAttributeId}
  {answers : AttributeAnswers} {bounds : TextRange}

/-- The pieces of the bounds. -/
def Pieces (q : UiaQuery F) (bounds : TextRange) : List (Nat × Nat) :=
  pieces bounds.begin bounds.end_ q.text.formats

theorem piece (h : Formatted q) (haligned : bounds.AtBoundaries q.textContent.utf8) {p : Nat × Nat}
    (hp : p ∈ Pieces q bounds) :
    (pieceRange p).AtBoundaries q.textContent.utf8 ∧ Within (pieceRange p) bounds ∧
      (pieceRange p).begin < (pieceRange p).end_ ∧ Uncut q.textContent.annotations (pieceRange p) := by
  have hpiece := Lib.isPiece_of_mem h.sorted hp
  refine ⟨⟨hpiece.lt.le, ?_, ?_⟩, ⟨hpiece.first_le, hpiece.le_last⟩, hpiece.lt, fun item hitem => ?_⟩
  · rcases hpiece.first with heq | hmem
    · rw [pieceRange, heq]
      exact haligned.first
    · exact h.boundary _ hmem
  · rcases hpiece.last with heq | hmem
    · rw [pieceRange, heq]
      exact haligned.last
    · exact h.boundary _ hmem
  · exact ⟨hpiece.uncut _ (h.edges item hitem).1, hpiece.uncut _ (h.edges item hitem).2⟩

/-- A grapheme lies in one piece. -/
theorem exists_piece (h : Formatted q) {g : TextRange} (hg : IsGrapheme q.textContent.utf8 g) (hin : Within g bounds) :
    ∃ p ∈ Pieces q bounds, Within g (pieceRange p) := by
  obtain ⟨p, hp, hfirst, hlast⟩ := Lib.exists_piece hin.1 hg.lt hin.2 h.first (Nat.zero_le _) h.size
    hg.last.le fun x hx => hg.whole x (h.boundary x hx)
  exact ⟨p, hp, hfirst, hlast⟩

variable (bounds) in
/-- The edges from the last one in front of the bounds on. -/
theorem pieces_drop (h : Formatted q) :
    (q.text.formats.drop (Lib.lowerBound (fun entry => decide (entry ≤ bounds.begin))
        q.text.formats - 1)).Pairwise (· < ·) ∧
      pieces bounds.begin bounds.end_ (q.text.formats.drop (Lib.lowerBound (fun entry =>
        decide (entry ≤ bounds.begin)) q.text.formats - 1)) = Pieces q bounds := by
  have hbelow : q.text.formats.Pairwise fun a b =>
      decide (b ≤ bounds.begin) = true → decide (a ≤ bounds.begin) = true :=
    h.sorted.imp fun hlt hb => decide_eq_true (hlt.le.trans (of_decide_eq_true hb))
  obtain ⟨hle, hat⟩ := Lib.lowerBound_spec _ hbelow
  generalize Lib.lowerBound (fun entry => decide (entry ≤ bounds.begin)) q.text.formats = k at hle hat
  have hsize : 0 < q.text.formats.length := List.length_pos_of_mem h.size
  have hzero : q.text.formats[0] = 0 := by
    have hfirst := h.first
    rw [List.head?_eq_getElem?, List.getElem?_eq_getElem hsize] at hfirst
    exact Option.some.inj hfirst
  have hk : 0 < k := (hat 0 hsize).1 (by rw [hzero]; simp)
  have hlast : q.text.formats[k - 1] ≤ bounds.begin :=
    of_decide_eq_true ((hat (k - 1) (by omega)).2 (by omega))
  refine ⟨h.sorted.sublist (List.drop_sublist _ _), ?_⟩
  have hdrop : q.text.formats.drop (k - 1) = q.text.formats[k - 1] :: q.text.formats.drop (k - 1 + 1) :=
    List.drop_eq_getElem_cons (by omega)
  have hsplit : q.text.formats.take (k - 1) ++ q.text.formats[k - 1] :: q.text.formats.drop (k - 1 + 1) =
      q.text.formats := by rw [← hdrop, List.take_append_drop]
  have hpieces := Lib.pieces_append_of_le (e := bounds.end_) hlast (hsplit.symm ▸ h.sorted)
  rw [hsplit, ← hdrop] at hpieces
  exact hpieces.symm

/-! ## The value of a range -/

variable [FloatOps F]

/-- The value of all graphemes of the bounds. -/
def AllHave (q : UiaQuery F) (lcid : List UInt16 → UInt32) (id : TextAttributeId)
    (answers : AttributeAnswers) (bounds : TextRange) (v : Variant F) : Prop :=
  (∃ g, IsGrapheme q.textContent.utf8 g ∧ Within g bounds) ∧
    ∀ g, IsGrapheme q.textContent.utf8 g → Within g bounds →
      attributeSegment q lcid g id answers = .ok v

/-- Two graphemes of the bounds with different values. -/
def SomeDiffer (q : UiaQuery F) (lcid : List UInt16 → UInt32) (id : TextAttributeId)
    (answers : AttributeAnswers) (bounds : TextRange) : Prop :=
  ∃ g g' v v', IsGrapheme q.textContent.utf8 g ∧ Within g bounds ∧
    IsGrapheme q.textContent.utf8 g' ∧ Within g' bounds ∧
    attributeSegment q lcid g id answers = .ok v ∧
    attributeSegment q lcid g' id answers = .ok v' ∧ v ≠ v'

variable (lcid) in
/-- **The value of a range** is that of all its graphemes, or the mixed marker. -/
theorem attributeValue_spec (h : Formatted q) (haligned : bounds.AtBoundaries q.textContent.utf8)
    (hlt : bounds.begin < bounds.end_) (hid : id.Effective) (hmarkers : answers.markers = true)
    (hallocated : answers.allocated = true) :
    (∃ v, attributeValue q lcid bounds id answers = .ok v ∧ AllHave q lcid id answers bounds v) ∨
    (attributeValue q lcid bounds id answers = .ok (.unknown .mixed) ∧
      SomeDiffer q lcid id answers bounds) := by
  choose V hV using fun s => attributeSegment_ok q lcid s id hmarkers hallocated
  have hplain : ∀ s, Plain (V s) := fun s => plain_attributeSegment hid (hV s)
  obtain ⟨g, hg, hgin⟩ := exists_grapheme haligned hlt
  have hpart : ∀ g, IsGrapheme q.textContent.utf8 g → ∀ p ∈ Pieces q bounds,
      Within g (pieceRange p) → V g = V (pieceRange p) := by
    intro g hg p hp hin
    have hcongr := attributeSegment_congr q lcid id answers (h.piece haligned hp).2.2.2 hin hg.lt
    rw [hV, hV] at hcongr
    exact Except.ok.inj hcongr
  obtain ⟨hsorted, hdrop⟩ := h.pieces_drop bounds
  have hne : Pieces q bounds ≠ [] := by
    obtain ⟨p, hp, -⟩ := h.exists_piece hg hgin
    exact List.ne_nil_of_mem hp
  have hgather : ¬ (((id ≠ .culture && id ≠ .isItalic && id ≠ .fontWeight) ||
      bounds.begin = bounds.end_) = true) := by
    rcases hid with rfl | rfl | rfl <;> simp [Nat.ne_of_lt hlt]
  rw [attributeValue, if_neg hgather]
  rcases attributeLoop_none hV hplain hmarkers hsorted (hdrop ▸ hne) with
    ⟨v, hrun, hall⟩ | ⟨hrun, p, hp, p', hp', hdiffer⟩
  · rw [hdrop] at hall
    simp only [hrun]
    refine .inl ⟨v, rfl, ⟨g, hg, hgin⟩, fun g hg hgin => ?_⟩
    obtain ⟨p, hp, hin⟩ := h.exists_piece hg hgin
    rw [hV, hpart g hg p hp hin, hall p hp]
  · rw [hdrop] at hp hp'
    simp only [hrun]
    -- the pieces that differ start with graphemes that do
    obtain ⟨haligned₁, hin₁, hlt₁, -⟩ := h.piece haligned hp
    obtain ⟨haligned₂, hin₂, hlt₂, -⟩ := h.piece haligned hp'
    obtain ⟨g₁, hg₁, hgin₁⟩ := exists_grapheme haligned₁ hlt₁
    obtain ⟨g₂, hg₂, hgin₂⟩ := exists_grapheme haligned₂ hlt₂
    refine .inr ⟨rfl, g₁, g₂, V g₁, V g₂, hg₁, hgin₁.trans hin₁, hg₂, hgin₂.trans hin₂, hV g₁, hV g₂, ?_⟩
    rw [hpart g₁ hg₁ p hp hgin₁, hpart g₂ hg₂ p' hp' hgin₂]
    exact hdiffer

variable (lcid id) in
/-- The value of a piece is that of its graphemes, for every attribute. -/
theorem attributeValue_piece (h : Formatted q) (haligned : bounds.AtBoundaries q.textContent.utf8)
    (hmarkers : answers.markers = true) (hallocated : answers.allocated = true) {p : Nat × Nat}
    (hp : p ∈ Pieces q bounds) :
    ∃ v, attributeValue q lcid (pieceRange p) id answers = .ok v ∧
      AllHave q lcid id answers (pieceRange p) v := by
  obtain ⟨hpieceAligned, -, hlt, huncut⟩ := h.piece haligned hp
  obtain ⟨v, hv⟩ := attributeSegment_ok q lcid (pieceRange p) id hmarkers hallocated
  have hall : ∀ g, IsGrapheme q.textContent.utf8 g → Within g (pieceRange p) →
      attributeSegment q lcid g id answers = .ok v := fun g hg hin =>
    (attributeSegment_congr q lcid id answers huncut hin hg.lt).trans hv
  have hgraphemes : AllHave q lcid id answers (pieceRange p) v :=
    ⟨exists_grapheme hpieceAligned hlt, hall⟩
  by_cases hid : id.Effective
  · rcases h.attributeValue_spec lcid hpieceAligned hlt hid hmarkers hallocated with
      ⟨w, hw, hsame⟩ | ⟨-, g, g', w, w', hg, hgin, hg', hgin', hw, hw', hne⟩
    · exact ⟨w, hw, hsame⟩
    · rw [hall g hg hgin] at hw
      rw [hall g' hg' hgin'] at hw'
      exact absurd ((Except.ok.inj hw).symm.trans (Except.ok.inj hw')) hne
  · refine ⟨v, ?_, hgraphemes⟩
    have hdirect : ((id ≠ .culture && id ≠ .isItalic && id ≠ .fontWeight) ||
        (pieceRange p).begin = (pieceRange p).end_) = true := by
      simp only [TextAttributeId.Effective, not_or] at hid
      simp [hid.1, hid.2.1, hid.2.2]
    rw [attributeValue, if_pos hdirect, hv]

/-! ## A search for a value -/

/-- The graphemes with a value that equals the one searched for. -/
def HasValue (q : UiaQuery F) (lcid : List UInt16 → UInt32) (id : TextAttributeId)
    (answers : AttributeAnswers) (value : Variant F) (g : TextRange) : Prop :=
  ∃ v, attributeSegment q lcid g id answers = .ok v ∧ attributeEquals v value = true

/-- **The loop of a search** keeps what was found before unless a piece has the value. -/
theorem findAttributeLoop_spec {V : TextRange → Variant F} (value : Variant F) (backward : Bool)
    {edges : List Nat} (hV : ∀ p ∈ pieces bounds.begin bounds.end_ edges,
      attributeValue q lcid (pieceRange p) id answers = .ok (V (pieceRange p)))
    (found : Option TextRange) :
    ∃ result, findAttributeLoop q lcid bounds id value backward answers edges found = .ok result ∧
      (result = found ∧ (∀ p ∈ pieces bounds.begin bounds.end_ edges,
          attributeEquals (V (pieceRange p)) value = false) ∨
        ∃ p ∈ pieces bounds.begin bounds.end_ edges, result = some (pieceRange p) ∧
          attributeEquals (V (pieceRange p)) value = true) := by
  induction edges generalizing found with
  | nil => exact ⟨found, rfl, .inl ⟨rfl, fun p hp => absurd hp List.not_mem_nil⟩⟩
  | cons x rest ih =>
    cases rest with
    | nil => exact ⟨found, rfl, .inl ⟨rfl, fun p hp => absurd hp List.not_mem_nil⟩⟩
    | cons y rest =>
      rw [findAttributeLoop]
      by_cases hpiece : max x bounds.begin < min y bounds.end_
      · rw [Lib.pieces_cons_of_lt hpiece] at hV ⊢
        have hfirst := hV _ List.mem_cons_self
        specialize ih fun p hp => hV p (List.mem_cons_of_mem _ hp)
        rw [pieceRange] at hfirst
        simp only [ge_iff_le, Nat.not_le.2 hpiece, if_false, hfirst]
        change ∃ result, (if attributeEquals (V ⟨max x bounds.begin, min y bounds.end_⟩) value then _
          else _) = Except.ok result ∧ _
        cases hequal : attributeEquals (V ⟨max x bounds.begin, min y bounds.end_⟩) value with
        | true =>
          cases backward with
          | true =>
            obtain ⟨result, hrun, hresult⟩ := ih (some ⟨max x bounds.begin, min y bounds.end_⟩)
            refine ⟨result, hrun, .inr ?_⟩
            rcases hresult with ⟨rfl, -⟩ | ⟨p, hp, hresult⟩
            · exact ⟨_, List.mem_cons_self, rfl, hequal⟩
            · exact ⟨p, List.mem_cons_of_mem _ hp, hresult⟩
          | false => exact ⟨_, rfl, .inr ⟨_, List.mem_cons_self, rfl, hequal⟩⟩
        | false =>
          obtain ⟨result, hrun, hresult⟩ := ih found
          refine ⟨result, hrun, ?_⟩
          rcases hresult with ⟨rfl, hnone⟩ | ⟨p, hp, hresult⟩
          · refine .inl ⟨rfl, fun p hp => ?_⟩
            rcases List.mem_cons.1 hp with rfl | hp
            · exact hequal
            · exact hnone p hp
          · exact .inr ⟨p, List.mem_cons_of_mem _ hp, hresult⟩
      · rw [Lib.pieces_cons_of_not_lt hpiece] at hV ⊢
        simp only [ge_iff_le, Nat.not_lt.1 hpiece, if_true]
        exact ih hV found

/-- **A search** finds a range whose graphemes all have the value, unless no grapheme has it. -/
theorem findAttribute_spec (h : Formatted q) {provider : TextRangeProvider}
    (haligned : (unpack provider.bounds).AtBoundaries q.textContent.utf8)
    (havailable : answers.available = true) (hmarkers : answers.markers = true)
    (hallocated : answers.allocated = true) {value : Variant F} (hvalue : searchable value = true)
    (backward : Bool) :
    (∃ found : TextRange, found.AtBoundaries q.textContent.utf8 ∧
      Within found (unpack provider.bounds) ∧ found.begin < found.end_ ∧
      (∀ g, IsGrapheme q.textContent.utf8 g → Within g found →
        HasValue q lcid id answers value g) ∧
      findAttribute q lcid id value backward answers provider =
        makeRange answers.toQueryAnswers found) ∨
    ((∀ g, IsGrapheme q.textContent.utf8 g → Within g (unpack provider.bounds) →
        ¬ HasValue q lcid id answers value g) ∧
      findAttribute q lcid id value backward answers provider = .ok none) := by
  have hpieces : ∀ s, ∃ v, ∀ p ∈ Pieces q (unpack provider.bounds), pieceRange p = s →
      attributeValue q lcid s id answers = .ok v ∧ AllHave q lcid id answers s v := by
    intro s
    by_cases hs : ∃ p ∈ Pieces q (unpack provider.bounds), pieceRange p = s
    · obtain ⟨p, hp, rfl⟩ := hs
      obtain ⟨v, hv⟩ := h.attributeValue_piece lcid id haligned hmarkers hallocated hp
      exact ⟨v, fun _ _ _ => hv⟩
    · obtain ⟨v, -⟩ := attributeSegment_ok q lcid s id hmarkers hallocated
      exact ⟨v, fun p hp heq => absurd ⟨p, hp, heq⟩ hs⟩
  choose V hV using hpieces
  obtain ⟨result, hrun, hresult⟩ := findAttributeLoop_spec value backward
    (fun p hp => (hV _ p hp rfl).1) none
  simp only [findAttribute, havailable, hvalue, hrun, Bool.not_true, Bool.false_eq_true, if_false]
  rcases hresult with ⟨rfl, hnone⟩ | ⟨p, hp, rfl, hequal⟩
  · refine .inr ⟨fun g hg hgin ⟨v, hv, hequal⟩ => ?_, rfl⟩
    obtain ⟨p, hp, hin⟩ := h.exists_piece hg hgin
    rw [(hV _ p hp rfl).2.2 g hg hin] at hv
    rw [← Except.ok.inj hv, hnone p hp] at hequal
    exact absurd hequal Bool.noConfusion
  · obtain ⟨hpieceAligned, hin, hlt, -⟩ := h.piece haligned hp
    exact .inl ⟨pieceRange p, hpieceAligned, hin, hlt,
      fun g hg hgin => ⟨_, (hV _ p hp rfl).2.2 g hg hgin, hequal⟩, rfl⟩

end Formatted

/-! ## Accepted snapshots -/

section Accepted

theorem formats_of_indexText {node : Node F} {content : TextContent F} (hcontent : node.text = some content)
    {cache : AccessibilityTextIndex} (hrun : indexText node = some cache) :
    cache.formats = formatEdges content := by
  rw [indexText, hcontent] at hrun
  obtain ⟨s, -, rfl⟩ := Option.map_eq_some_iff.1 hrun
  rfl

variable [DoubleOps F]

theorem formatted_of_validate {snapshot : SnapshotView F} {limits : Limits} {fuel : Nat}
    {r : ValidationResult} (hvalidate : validate snapshot limits fuel = some r) (hok : r.ok = true)
    {node : Node F} (hnode : node ∈ snapshot.nodes) {content : TextContent F}
    (hcontent : node.text = some content) :
    ∃ cache, indexText node = some cache ∧
      Formatted { node, textContent := content, text := cache } := by
  obtain ⟨cache, hrun, hindexed⟩ := indexText_indexed hvalidate hok hnode hcontent
  have htext : utf8Code.IsText content.utf8 := by
    obtain ⟨ss, hvalid, heq, -⟩ := hindexed.starts
    exact ⟨ss, hvalid, heq⟩
  have hedges := formats_of_indexText hcontent hrun
  refine ⟨cache, hrun, hindexed.formats.increasing, hindexed.formats.first,
    List.mem_of_getLast? hindexed.formats.last, fun x hx => ?_, fun item hitem => ?_⟩
  · have hmem := hindexed.formats.subset hx
    rw [hindexed.boundaries] at hmem
    exact (isGraphemeBoundary_iff htext).2 hmem
  · change item.range.begin ∈ cache.formats ∧ item.range.end_ ∈ cache.formats
    rw [hedges, formatEdges, mem_unique, mem_unique, List.mem_insertionSort, List.mem_insertionSort]
    refine ⟨List.mem_append_right _ ?_, List.mem_append_right _ ?_⟩
    · exact List.mem_flatMap.2 ⟨item, hitem, List.mem_cons_self⟩
    · exact List.mem_flatMap.2 ⟨item, hitem, by simp⟩

/-- **Attributes are those of the graphemes.** For a range of an accepted text from boundary to
boundary that is not empty, a query that succeeds and a platform that has what it is asked for: the
culture, the italics and the weight of the range are those of all its graphemes, or the mixed marker
when two of them differ; and a search finds a part of the range whose graphemes all have the value,
unless no grapheme of the range has it. -/
theorem attributes_of_graphemes {snapshot : SnapshotView F} {limits : Limits} {fuel : Nat}
    {r : ValidationResult} (hvalidate : validate snapshot limits fuel = some r) (hok : r.ok = true)
    {node : Node F} (hnode : node ∈ snapshot.nodes) {content : TextContent F}
    (hcontent : node.text = some content) :
    ∃ cache, indexText node = some cache ∧
      ∀ (lcid : List UInt16 → UInt32) (answers : AttributeAnswers) (provider : TextRangeProvider),
        (unpack provider.bounds).AtBoundaries content.utf8 →
        (unpack provider.bounds).begin < (unpack provider.bounds).end_ →
        answers.available = true → answers.markers = true → answers.allocated = true →
        (∀ id : TextAttributeId, id.Effective →
          (∃ v, getAttributeValue ⟨node, content, cache⟩ lcid id answers provider = .ok v ∧
            Formatted.AllHave ⟨node, content, cache⟩ lcid id answers (unpack provider.bounds) v) ∨
          (getAttributeValue ⟨node, content, cache⟩ lcid id answers provider =
              .ok (.unknown .mixed) ∧
            Formatted.SomeDiffer ⟨node, content, cache⟩ lcid id answers (unpack provider.bounds))) ∧
        ∀ (id : TextAttributeId) (value : Variant F) (backward : Bool), searchable value = true →
          (∃ found : TextRange, found.AtBoundaries content.utf8 ∧
            Within found (unpack provider.bounds) ∧ found.begin < found.end_ ∧
            (∀ g, IsGrapheme content.utf8 g → Within g found →
              Formatted.HasValue ⟨node, content, cache⟩ lcid id answers value g) ∧
            findAttribute ⟨node, content, cache⟩ lcid id value backward answers provider =
              makeRange answers.toQueryAnswers found) ∨
          ((∀ g, IsGrapheme content.utf8 g → Within g (unpack provider.bounds) →
              ¬ Formatted.HasValue ⟨node, content, cache⟩ lcid id answers value g) ∧
            findAttribute ⟨node, content, cache⟩ lcid id value backward answers provider = .ok none) := by
  obtain ⟨cache, hrun, hformatted⟩ := formatted_of_validate hvalidate hok hnode hcontent
  refine ⟨cache, hrun, fun lcid answers provider haligned hlt havailable hmarkers hallocated =>
    ⟨fun id hid => ?_, fun id value backward hvalue =>
      hformatted.findAttribute_spec haligned havailable hmarkers hallocated hvalue backward⟩⟩
  simp only [getAttributeValue, havailable, Bool.not_true, Bool.false_eq_true, if_false]
  exact hformatted.attributeValue_spec lcid haligned hlt hid hmarkers hallocated

/-- A text in two languages with an italic word across the change. -/
def bilingualContent : TextContent Int where
  utf8 := [0x61, 0x62, 0x20, 0x63, 0x64]
  annotations :=
    [{ range := ⟨0, 3⟩, kind := .language, value := [0x64, 0x65] },
      { range := ⟨3, 5⟩, kind := .language, value := [0x66, 0x72] },
      { range := ⟨1, 4⟩, kind := TextAnnotationKind.emphasis, value := italicName },
      { range := ⟨2, 2⟩, kind := TextAnnotationKind.emphasis, value := boldName }]

def bilingualNode : Node Int where
  id := 1
  text := some bilingualContent

/-- The number of the first letter stands for the `LCID`. -/
def firstLetterLcid (name : List UInt16) : UInt32 := (name.headD 0).toUInt32

theorem attributes_of_graphemes_bilingual :
    ∃ cache, indexText bilingualNode = some cache ∧
      Formatted.AllHave ⟨bilingualNode, bilingualContent, cache⟩ firstLetterLcid .isItalic {} ⟨1, 4⟩
        (.bool variantTrue) := by
  have haccepted : validate { generation := 1, root := 1, nodes := [bilingualNode] } {} 10 =
      some {} := by decide +kernel
  have hcontent : bilingualNode.text = some bilingualContent := rfl
  have hbounds : unpack (pack ⟨1, 4⟩) = ⟨1, 4⟩ := by decide
  obtain ⟨cache, hrun, hattributes⟩ :=
    attributes_of_graphemes haccepted rfl (List.mem_singleton_self bilingualNode) hcontent
  have haligned : (unpack (pack ⟨1, 4⟩)).AtBoundaries bilingualContent.utf8 := by
    have htext : utf8Code.IsText bilingualContent.utf8 :=
      Unicode.Utf8.validate_valid_iff.1 (by decide +kernel)
    refine atBoundaries_of_validRange htext ?_
    decide +kernel
  obtain ⟨hvalue, -⟩ := hattributes firstLetterLcid {} { bounds := pack ⟨1, 4⟩ } haligned
    (by rw [hbounds]; decide) rfl rfl rfl
  have hanswer : (indexText bilingualNode).map (fun cache =>
      getAttributeValue ⟨bilingualNode, bilingualContent, cache⟩ firstLetterLcid .isItalic {}
        { bounds := pack ⟨1, 4⟩ }) = some (.ok (.bool variantTrue)) := by decide +kernel
  rw [hrun, Option.map_some] at hanswer
  have hitalic := Option.some.inj hanswer
  refine ⟨cache, hrun, ?_⟩
  rcases hvalue .isItalic (.inr (.inl rfl)) with ⟨v, hv, hall⟩ | ⟨hv, -⟩
  · rw [hitalic] at hv
    rw [hbounds, ← Except.ok.inj hv] at hall
    exact hall
  · rw [hitalic] at hv
    exact absurd (Except.ok.inj hv) (by decide)

end Accepted

end TextIndex

end Desktop

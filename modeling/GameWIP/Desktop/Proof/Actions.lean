import GameWIP.Desktop.Proof.Notifications
import GameWIP.Unicode.Proof.GraphemeCursor

/-!
# What the action queue delivers

`Runtime.Queued`: the history and the contents of the action queue are those of a coalescing queue
(`Lib.Coalesced`) whose identities are the requests', and the next identity is greater than all.
Submitting and popping keep it (`commitAction_spec`, `popAction_spec`).

`checkAction_text`: a request that passes the checks has its text ranges at grapheme boundaries of the
node's text in the snapshot it was checked against.
-/

namespace Desktop

open Lib (Event Coalesced acceptedOf poppedOf)
open Unicode (utf8Code graphemes)
open Unicode.Utf8 (segmentation visitGraphemeBoundaries_eq)

variable {F : Type} [DoubleOps F] {r : Runtime F} {snapshot : PublishedSnapshot F}
  {request : ActionRequest F}

/-! ## The checks -/

/-- An offset between two extended grapheme clusters of a text. -/
def IsGraphemeBoundary (text : List UInt8) (offset : Nat) : Prop :=
  ∃ scalars, utf8Code.Valid scalars ∧ text = utf8Code.encodeAll scalars ∧
    offset ∈ graphemes.boundaries scalars

/-- A range from one boundary to another. -/
structure TextRange.AtBoundaries (text : List UInt8) (range : TextRange) : Prop where
  order : range.begin ≤ range.end_
  first : IsGraphemeBoundary text range.begin
  last : IsGraphemeBoundary text range.end_

/-- The text ranges of the request are at boundaries of the node's text. -/
def RangesValid (snapshot : PublishedSnapshot F) (request : ActionRequest F) : Prop :=
  ∀ range, request.range = some range ∨ range ∈ request.selection →
    ∃ node text, snapshot.storage.node? request.node = some node ∧ node.text = some text ∧
      range.AtBoundaries text.utf8

omit [DoubleOps F] in
theorem mem_of_binarySearch {K : Type} [LT K] [DecidableLT K] [DecidableEq K] {l : List K} {k : K}
    (h : binarySearch l k = true) : k ∈ l := by
  obtain ⟨e, hat, hk⟩ := Lib.SortedBy.exists_matching h
  exact hk ▸ List.mem_of_getElem? hat

omit [DoubleOps F] in
theorem graphemeBoundaries_eq {text : List UInt8} {scalars : List Nat}
    (hv : utf8Code.Valid scalars) (htext : text = utf8Code.encodeAll scalars) {offset : Nat}
    (h : offset ∈ graphemeBoundaries text) : offset ∈ graphemes.boundaries scalars := by
  have hseg : segmentation text = graphemes.boundaries scalars := by
    rw [segmentation, htext, visitGraphemeBoundaries_eq hv]
  have ht : utf8Code.IsText text := ⟨scalars, hv, htext⟩
  rw [graphemeBoundaries, Unicode.Utf8.GraphemeCursor.reset_spec _ _ ht] at h
  rw [← hseg]
  by_cases hsize : (segmentation text).length > text.length + 1
  · rw [if_pos hsize] at h
    simp [Unicode.Utf8.GraphemeCursor.clear] at h
  · rw [if_neg hsize] at h
    simpa using h

/-- The boundaries kept for a node of a validated snapshot. -/
theorem PublishedSnapshot.Validated.boundaries (h : snapshot.Validated) {node : Node F}
    (hfind : snapshot.find request.node = some node) {text : TextContent F}
    (htext : node.text = some text) {offset : Nat}
    (hoffset : offset ∈ snapshot.textCache.getD (snapshot.findIndex node.id) []) :
    IsGraphemeBoundary text.utf8 offset := by
  obtain ⟨view, limits, fuel, result, rfl, hrun, hok⟩ := h
  obtain ⟨root, hchecked⟩ := checked_of_validate hrun hok
  have hat : view.nodes[view.find request.node]? = some node := hfind
  have hsame : view.find node.id = view.find request.node :=
    SnapshotView.find_eq hchecked.distinct hat
  have hcache : (publishedSnapshot view).textCache.getD
      ((publishedSnapshot view).findIndex node.id) [] = graphemeBoundaries text.utf8 := by
    show (view.nodes.map indexText).getD (view.find node.id) [] = _
    rw [hsame, List.getD_eq_getElem?_getD, List.getElem?_map, hat]
    simp [indexText, htext]
  rw [hcache] at hoffset
  have hvalid := (hchecked.clean node (List.mem_of_getElem? hat)).text text htext
  have hutf8 : utf8Code.IsText text.utf8 :=
    Unicode.Utf8.validate_valid_iff.1 (by simpa [validUtf8] using hvalid)
  obtain ⟨scalars, hv, heq⟩ := hutf8
  exact ⟨scalars, hv, heq, graphemeBoundaries_eq hv heq hoffset⟩

omit [DoubleOps F] in
theorem ite_error_eq_ok {E A : Type} {c : Prop} [Decidable c] {e : E} {x : Except E A} {a : A} :
    (if c then .error e else x) = .ok a ↔ ¬c ∧ x = .ok a := by
  split_ifs with hc <;> simp [hc]

omit [DoubleOps F] in
theorem ite_error_ne {E A : Type} {c : Prop} [Decidable c] {e e' : E} {x : Except E A}
    (he : e ≠ e') (hx : x ≠ .error e') : (if c then .error e else x) ≠ .error e' := by
  split_ifs
  · exact fun h => he (Except.error.inj h)
  · exact hx

/-- A check that fails does not accept. -/
theorem checkAction_ne_accepted {loaded : Option (PublishedSnapshot F)} {acceptance : ActionAcceptance}
    (h : r.checkAction loaded request = .error acceptance) : acceptance ≠ .accepted := by
  rintro rfl
  revert h
  unfold Runtime.checkAction
  cases loaded with
  | none => simp
  | some p =>
    cases hfind : p.find request.node with
    | none => simp [hfind]
    | some node =>
      simp only [hfind]
      refine ite_error_ne nofun (ite_error_ne nofun (ite_error_ne nofun (ite_error_ne nofun
        (ite_error_ne nofun (ite_error_ne nofun ?_)))))
      split
      · split
        · simp
        · exact ite_error_ne nofun nofun
      · simp

omit [DoubleOps F] in
/-- Without ranges there is nothing to check. -/
theorem rangesValid_of_none (hrange : request.range = none) (hselection : request.selection = []) :
    RangesValid snapshot request := by
  rintro range (h | h)
  · rw [hrange] at h
    cases h
  · rw [hselection] at h
    cases h

/-- The test of a range, with the boundaries kept for the node. -/
theorem PublishedSnapshot.Validated.atBoundaries (h : snapshot.Validated) {node : Node F}
    (hfind : snapshot.find request.node = some node) {text : TextContent F}
    (htext : node.text = some text) {range : TextRange}
    (hrange : Runtime.validTextRange (snapshot.textCache.getD (snapshot.findIndex node.id) [])
      range = true) : range.AtBoundaries text.utf8 := by
  rw [Runtime.validTextRange, Bool.and_eq_true, Bool.and_eq_true, decide_eq_true_eq] at hrange
  obtain ⟨⟨horder, hfirst⟩, hlast⟩ := hrange
  exact ⟨horder, h.boundaries hfind htext (mem_of_binarySearch hfirst),
    h.boundaries hfind htext (mem_of_binarySearch hlast)⟩

/-- **Text ranges are at grapheme boundaries** of the snapshot they were checked against. -/
theorem checkAction_text {snapshot? : Option (PublishedSnapshot F)}
    (hvalidated : ∀ p ∈ snapshot?, p.Validated)
    (h : r.checkAction snapshot? request = .ok snapshot) :
    snapshot? = some snapshot ∧ RangesValid snapshot request := by
  unfold Runtime.checkAction at h
  cases snapshot? with
  | none => cases h
  | some p =>
    have hp := hvalidated p rfl
    cases hfind : p.find request.node with
    | none => simp [hfind] at h
    | some node =>
      simp only [hfind, ite_error_eq_ok] at h
      obtain ⟨-, -, -, -, -, -, h⟩ := h
      split at h
      · cases htext : node.text with
        | none =>
          rw [htext] at h
          cases h
        | some text =>
          simp only [htext, ite_error_eq_ok] at h
          obtain ⟨hclean, h⟩ := h
          cases h
          simp only [Bool.or_eq_true, not_or, Option.any_eq_true, List.any_eq_true, not_exists,
            not_and, Bool.not_eq_true', Bool.not_eq_false] at hclean
          refine ⟨rfl, fun range hrange => ⟨node, text, ?_, htext, ?_⟩⟩
          · rwa [hp.find_eq] at hfind
          · apply hp.atBoundaries hfind htext
            rcases hrange with hrange | hrange
            · exact hclean.1 range hrange
            · exact hclean.2 range hrange
      · rename_i hranges
        cases h
        simp only [Bool.or_eq_true, not_or, Bool.not_eq_true, Option.isSome_eq_false_iff,
          Option.isNone_iff_eq_none, Bool.not_eq_false', List.isEmpty_iff] at hranges
        exact ⟨rfl, rangesValid_of_none hranges.1.2 hranges.2⟩

/-! ## The queue -/

namespace Runtime

/-- The requests are coalesced, and the next identity is new unless the identities ran out. -/
structure Queued (r : Runtime F) : Prop where
  coalesced : Coalesced replaces (fun q => q.requestId.toNat) r.history r.actions.contents
  next : r.nextRequest ≠ 0 → ∀ q ∈ acceptedOf r.history, q.requestId < r.nextRequest

/-- What a submission does to the queue. -/
inductive Commits (r r' : Runtime F) (request : ActionRequest F) : ActionResult → Prop where
  | refused {result : ActionResult} (hresult : result.acceptance ≠ .accepted)
      (hactions : r'.actions = r.actions) (hhistory : r'.history = r.history) :
      Commits r r' request result
  | accepted (hhistory : r'.history = r.history ++ [.accepted request]) :
      Commits r r' request
        { acceptance := .accepted
          requestId := request.requestId
          observedGeneration := request.observedGeneration }

theorem commitAction_commits :
    Commits r (r.commitAction snapshot request).2 (r.fillRequest snapshot request)
      (r.commitAction snapshot request).1 := by
  unfold commitAction
  split
  · exact .refused (fun h => by cases h) rfl rfl
  split
  · exact .refused (fun h => by cases h) rfl rfl
  dsimp only
  split
  · exact .refused (fun h => by cases h) rfl rfl
  split
  · exact .accepted rfl
  split
  · exact .refused (fun h => by cases h) rfl rfl
  · exact .accepted rfl

theorem queued_create {limits : Limits} {features : Features} {h : validLimits limits = true} :
    (create limits features h : Runtime F).Queued where
  coalesced := .nil
  next := by simp [create, acceptedOf]

omit [DoubleOps F] in
/-- The next identity. -/
theorem Queued.fresh (h : r.Queued) (hnext : r.nextRequest ≠ 0) :
    ∀ q ∈ acceptedOf r.history,
      q.requestId.toNat < (r.fillRequest snapshot request).requestId.toNat :=
  fun q hq => UInt64.lt_iff_toNat_lt.1 (h.next hnext q hq)

omit [DoubleOps F] in
/-- The identities stay below the next one, until it wraps around to 0. -/
theorem Queued.next_succ (h : r.Queued) (hnext : r.nextRequest ≠ 0) (hwrap : r.nextRequest + 1 ≠ 0) :
    ∀ q ∈ acceptedOf (r.history ++ [.accepted (r.fillRequest snapshot request)]),
      q.requestId < r.nextRequest + 1 := by
  have hlt : r.nextRequest < r.nextRequest + 1 := by
    rw [UInt64.lt_iff_toNat_lt, UInt64.toNat_add]
    have hwrap' : (r.nextRequest + 1).toNat ≠ 0 := fun h => hwrap (UInt64.toNat_inj.1 h)
    have hsize := r.nextRequest.toNat_lt
    rw [UInt64.toNat_add] at hwrap'
    simp only [UInt64.toNat_one] at *
    omega
  intro q hq
  rw [Lib.acceptedOf_accepted] at hq
  rcases List.mem_append.1 hq with hq | hq
  · exact UInt64.lt_trans (h.next hnext q hq) hlt
  · exact List.mem_singleton.1 hq ▸ hlt

theorem queued_commitAction (h : r.Queued) : (r.commitAction snapshot request).2.Queued := by
  unfold commitAction
  split
  · exact h
  split
  · exact h
  rename_i hnext
  dsimp only
  split
  · exact h
  have hsucc : r.nextRequest + 1 ≠ 0 →
      ∀ q ∈ acceptedOf (r.history ++ [.accepted (r.fillRequest snapshot request)]),
        q.requestId < r.nextRequest + 1 := h.next_succ hnext
  have hfresh : ∀ q ∈ acceptedOf r.history,
      q.requestId.toNat < (r.fillRequest snapshot request).requestId.toNat := h.fresh hnext
  generalize r.fillRequest snapshot request = filled at hfresh hsucc ⊢
  split
  · rename_i htail
    obtain ⟨hcount, hreplaces⟩ := by simpa using htail
    obtain ⟨l, hl⟩ := Lib.Ring.getLast_contents hcount
    refine ⟨?_, hsucc⟩
    rw [Lib.Ring.contents_setTail hl]
    exact (hl ▸ h.coalesced).replace hfresh hreplaces
  rename_i htail
  split
  · refine ⟨h.coalesced, fun hwrap q hq => hsucc hwrap q ?_⟩
    rw [Lib.acceptedOf_accepted]
    exact List.mem_append_left _ hq
  · refine ⟨?_, hsucc⟩
    rw [Lib.Ring.contents_push]
    refine h.coalesced.push hfresh fun l last hlast => ?_
    have hcount : r.actions.count ≠ 0 := by
      rw [← Lib.Ring.length_contents, hlast]
      simp
    obtain ⟨l', hl'⟩ := Lib.Ring.getLast_contents hcount
    obtain ⟨-, heq⟩ := List.append_inj' (hlast.symm.trans hl') rfl
    rw [List.singleton_inj.1 heq]
    simpa [hcount] using htail

/-- Popping gives the first request of the queue. -/
theorem popAction_spec {q : ActionRequest F} {r' : Runtime F} (h : r.popAction = some (q, r')) :
    r.actions.contents = q :: r'.actions.contents ∧ r'.history = r.history ++ [.popped q] := by
  unfold popAction at h
  split at h
  · cases h
  · rename_i hcount
    simp only [Bool.or_eq_true, decide_eq_true_eq, not_or] at hcount
    obtain ⟨rfl, rfl⟩ := Prod.mk.inj (Option.some.inj h)
    exact ⟨Lib.Ring.contents_pop hcount.2, rfl⟩

theorem queued_popAction {q : ActionRequest F} {r' : Runtime F} (hr : r.Queued)
    (h : r.popAction = some (q, r')) : r'.Queued := by
  obtain ⟨hcontents, hhistory⟩ := popAction_spec h
  have hnext : r'.nextRequest = r.nextRequest := by
    unfold popAction at h
    split at h
    · cases h
    · obtain ⟨-, rfl⟩ := Prod.mk.inj (Option.some.inj h)
      rfl
  refine ⟨?_, ?_⟩
  · rw [hhistory]
    exact (hcontents ▸ hr.coalesced).pop
  · rw [hhistory, hnext, Lib.acceptedOf_popped]
    exact hr.next

end Runtime

end Desktop

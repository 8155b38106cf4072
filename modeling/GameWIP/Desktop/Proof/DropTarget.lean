import GameWIP.Desktop.DropTarget
import GameWIP.Desktop.Proof.DragDropRun

/-!
# The sessions of a drop target

`Stepped` says once what a call does to the target: which event it routes, and what becomes of the
session. A session that the source drops and the target rejects ends without an event.
-/

namespace Desktop

namespace DragDrop

open DataTransfer (Format Item)
open Events (LogicalPosition)
open Lib (Trace Transition)

/-! ## Effects -/

namespace Effect

theorem and_def (a b : Effect) : a &&& b = ⟨a.bits &&& b.bits⟩ := rfl

theorem and_comm (a b : Effect) : a &&& b = b &&& a := by
  rw [and_def, and_def, UInt8.and_comm]

theorem and_assoc (a b c : Effect) : a &&& b &&& c = a &&& (b &&& c) := by
  simp only [and_def, UInt8.and_assoc]

theorem and_self (a : Effect) : a &&& a = a := by
  rw [and_def, UInt8.and_self]

/-- What is set in a common mask is set in both. -/
theorem within_of_and {e a b : Effect} (h : e &&& (a &&& b) = e) : e &&& a = e ∧ e &&& b = e := by
  constructor
  · calc e &&& a = e &&& (a &&& b) &&& a := by rw [h]
      _ = e &&& (a &&& b) := by rw [and_assoc, and_comm a b, and_assoc, and_self]
      _ = e := h
  · calc e &&& b = e &&& (a &&& b) &&& b := by rw [h]
      _ = e &&& (a &&& b) := by rw [and_assoc, and_assoc, and_self]
      _ = e := h

/-- A property of the 256 masks. -/
theorem of_forall_fin {P : Effect → Prop} (h : ∀ n : Fin 256, P ⟨UInt8.ofNat n⟩) (e : Effect) : P e := by
  have := h ⟨e.bits.toNat, e.bits.toNat_lt⟩
  simpa using this

end Effect

theorem validEffectBits_and {a b : Effect} (h : validEffectBits b = true) :
    validEffectBits (a &&& b) = true := by
  unfold validEffectBits at h ⊢
  rw [decide_eq_true_eq] at h ⊢
  rw [Effect.and_def, UInt8.and_assoc, h, UInt8.and_zero]

theorem single_within : ∀ c : Effect, ∀ e ∈ [Effect.copy, .move, .link], c &&& e ≠ .none →
    e &&& c = e :=
  Effect.of_forall_fin (by decide +kernel)

theorem portableEffects_nativeEffects : ∀ e : Effect, validEffectBits e = true →
    portableEffects (nativeEffects e) = e :=
  Effect.of_forall_fin (by decide +kernel)

/-- **Negotiation.** A selected effect is allowed on both sides. -/
theorem negotiate_spec {source target preferred effect : Effect}
    (h : negotiateDragDropEffect source target preferred = effect) (hne : effect ≠ .none) :
    effect &&& source = effect ∧ effect &&& target = effect ∧ validEffectBits effect = true := by
  have hwithin : validEffectBits source = true ∧ effect &&& (source &&& target) = effect := by
    unfold negotiateDragDropEffect at h
    split at h
    · exact absurd h.symm hne
    · rename_i hvalid
      simp only [Bool.or_eq_true, Bool.not_eq_true', not_or, Bool.not_eq_false] at hvalid
      refine ⟨hvalid.1.1, ?_⟩
      dsimp only at h
      split at h
      · rename_i hnone
        exact absurd (h.symm.trans hnone) hne
      split at h
      · rw [← h, Effect.and_self]
      split at h
      · rename_i hpreferred
        simp only [Bool.and_eq_true, decide_eq_true_eq] at hpreferred
        rw [← h, Effect.and_comm]
        exact hpreferred.1.2
      split at h
      · rename_i found hfound
        have hset := List.find?_some hfound
        rw [decide_eq_true_eq] at hset
        rw [← h]
        exact single_within _ _ (List.mem_of_find?_eq_some hfound) hset
      · exact absurd h.symm hne
  obtain ⟨hsource, htarget⟩ := Effect.within_of_and hwithin.2
  exact ⟨hsource, htarget, hsource ▸ validEffectBits_and hwithin.1⟩

/-! ## Sessions -/

/-- A session with the region its pointer is in. -/
abbrev Visit := Option (SessionId × Option RegionId)

/-- The session that is open. -/
def TargetState.visit (state : TargetState) : Visit :=
  if state.formats.isSome then
    some (state.session, if state.currentRegion ≠ 0 then some state.currentRegion else none)
  else none

/-- The formats of a region that the source offers, as the region declares them. -/
def offeredFormats (region : DragDropRegion) (nativeFormats : List UInt16) : List Format :=
  ((region.formats.zip region.nativeFormats).filter fun identity =>
    identity.2 ∈ nativeFormats.map UInt16.toUInt32).map Prod.fst

/-- The target takes a drop: its pointers are there, the region at the point selects an effect and
each of its offered formats materializes. -/
def Accepted (state : TargetState) (effectPointer object : Bool) (point : LogicalPosition)
    (materialize : Format → Option Item) : Prop :=
  effectPointer = true ∧ object = true ∧ ∃ region,
    regionAt state.regions point state.nativeFormats = some region ∧
    selectedEffect state (some region) ≠ .none ∧
    ∀ format ∈ offeredFormats region state.nativeFormats, (materialize format).isSome

/-- What a drop that queues an event has found: the effect is allowed on both sides, and the payload
is what the region's offered formats give, in order. -/
structure Completed (state : TargetState) (point : LogicalPosition)
    (materialize : Format → Option Item) (region : DragDropRegion) (effect : Effect)
    (payload : List Item) : Prop where
  at_point : regionAt state.regions point state.nativeFormats = some region
  some_effect : effect ≠ .none
  source : effect &&& state.sourceEffects = effect
  target : effect &&& region.effects.allowed = effect
  valid : validEffectBits effect = true
  items : (offeredFormats region state.nativeFormats).map materialize = payload.map some
  nonempty : payload ≠ []

/-- The call that a consumer makes on the queue. -/
def consumerCall : TargetCall → Option QueueCall
  | .popEvent => some .popEvent
  | .popEvents size => some (.popEvents size)
  | .clearEvents => some .clearEvents
  | _ => none

/-- The callbacks that end a visit. -/
def endsVisit : TargetCall → Bool
  | .dragLeave => true
  | .drop .. => true
  | _ => false

/-- What a call does to the queue and to the session. -/
inductive Stepped (s : TargetState) : TargetCall → TargetState → Prop
  | quiet {a : TargetCall} {t : TargetState} (queue : t.queue = s.queue) (visit : t.visit = s.visit)
      (consumer : consumerCall a = none) (ended : endsVisit a = true → s.visit = none) :
      Stepped s a t
  | failed {pointers : Bool} {effect : UInt32} {point : LogicalPosition}
      {offered : Option (List FormatIdentity)} {t : TargetState} (queue : t.queue = s.queue)
      (visit : t.visit = none) : Stepped s (.dragEnter pointers effect point offered) t
  | entered {pointers : Bool} {effect : UInt32} {point : LogicalPosition}
      {offered : Option (List FormatIdentity)} {t : TargetState} (session : SessionId)
      (region : Option RegionId) (selected : Effect) (formats : Option (List Format))
      (queue : t.queue =
        (enqueueDragDropEvent s.queue (.entered session point region selected formats) false).2)
      (visit : t.visit = some (session, region)) :
      Stepped s (.dragEnter pointers effect point offered) t
  | moved {effectPointer : Bool} {point : LogicalPosition} {t : TargetState} (session : SessionId)
      (previous region : Option RegionId) (selected : Effect) (formats : Option (List Format))
      (before : s.visit = some (session, previous))
      (queue : t.queue = (enqueueDragDropEvent s.queue
        (.moved session point previous region selected formats) false).2)
      (visit : t.visit = some (session, region)) : Stepped s (.dragOver effectPointer point) t
  | left {t : TargetState} (session : SessionId) (previous : Option RegionId)
      (before : s.visit = some (session, previous))
      (queue : t.queue = (enqueueDragDropEvent s.queue (.left session) false).2)
      (visit : t.visit = none) : Stepped s .dragLeave t
  | dropped {effectPointer object : Bool} {point : LogicalPosition}
      {materialize : Format → Option Item} {t : TargetState} (session : SessionId)
      (previous : Option RegionId) (region : DragDropRegion) (effect : Effect) (payload : List Item)
      (before : s.visit = some (session, previous))
      (accepted : Accepted s effectPointer object point materialize)
      (completed : Completed s point materialize region effect payload)
      (reported : (drop s effectPointer object point materialize).1 = some (nativeEffects effect))
      (queue : t.queue = (enqueueDragDropEvent s.queue
        (.dropped session point region.id effect payload) true).2)
      (visit : t.visit = none) : Stepped s (.drop effectPointer object point materialize) t
  | rejected {effectPointer object : Bool} {point : LogicalPosition}
      {materialize : Format → Option Item} {t : TargetState} 
      (refused : ¬ Accepted s effectPointer object point materialize)
      (reported : (drop s effectPointer object point materialize).1.getD 0 = 0)
      (queue : t.queue = s.queue) (visit : t.visit = none) :
      Stepped s (.drop effectPointer object point materialize) t
  | consumed {a : TargetCall} {t : TargetState} (call : QueueCall) (consumer : consumerCall a = some call)
      (queue : step s.queue call = some t.queue) (visit : t.visit = s.visit) : Stepped s a t

/-- A session is open just in case it has an identity. -/
def Coherent (state : TargetState) : Prop := state.formats.isSome = true ↔ state.session ≠ 0

section
variable {s t : TargetState} {a : TargetCall}

@[simp] theorem visit_clearSession : (clearSession s).visit = none := rfl

@[simp] theorem visit_routeDragDropEvent {data : EventPayload} {terminal : Bool} :
    (routeDragDropEvent s data terminal).visit = s.visit := rfl

theorem coherent_clearSession : Coherent (clearSession s) := by simp [Coherent, clearSession]

theorem allocateDragDropSessionId_spec (s : TargetState) :
    (allocateDragDropSessionId s).1 ≠ 0 ∧
      ∃ next, (allocateDragDropSessionId s).2 = { s with nextSessionId := next } := by
  unfold allocateDragDropSessionId
  dsimp only
  split
  · rename_i h
    have hnext : (0 : UInt64) + 1 ≠ 0 := by decide
    rw [h]
    exact ⟨hnext, _, rfl⟩
  · rename_i h
    exact ⟨h, _, rfl⟩

/-- A region's identity is kept as one, and no region as none. -/
theorem region_kept (region : Option DragDropRegion) :
    (if (region.map DragDropRegion.id).getD 0 ≠ 0 then
      some ((region.map DragDropRegion.id).getD 0) else none) = region.map DragDropRegion.id := by
  cases region with
  | none => rfl
  | some region => simp [region.valid]

theorem dragEnter_stepped (pointers : Bool) (effect : UInt32) (point : LogicalPosition)
    (offered : Option (List FormatIdentity)) (hc : Coherent s) :
    Stepped s (.dragEnter pointers effect point offered) (dragEnter s pointers effect point offered).2 ∧
      Coherent (dragEnter s pointers effect point offered).2 := by
  unfold dragEnter
  cases pointers with
  | false => exact ⟨.quiet rfl rfl rfl nofun, hc⟩
  | true =>
    cases offered with
    | none => exact ⟨.failed rfl rfl, coherent_clearSession⟩
    | some offered =>
      rw [if_neg (by decide)]
      dsimp only
      generalize hbase : ({ clearSession s with
        formats := some (offered.map FormatIdentity.portable)
        nativeFormats := offered.map FormatIdentity.native
        sourceEffects := portableEffects effect } : TargetState) = base
      obtain ⟨hsession, next, hstate⟩ := allocateDragDropSessionId_spec base
      have hqueue : base.queue = s.queue := by rw [← hbase]; rfl
      have hformats : base.formats.isSome = true := by rw [← hbase]; rfl
      generalize allocateDragDropSessionId base = allocated at hsession hstate
      obtain ⟨session, state⟩ := allocated
      dsimp only at hsession hstate ⊢
      subst hstate
      refine ⟨.entered session _ _ base.formats (by rw [← hqueue]; rfl) ?_, ?_⟩
      · rw [visit_routeDragDropEvent, TargetState.visit, if_pos hformats, region_kept]
      · exact iff_of_true hformats hsession

theorem dragOver_stepped (effectPointer : Bool) (point : LogicalPosition) (hc : Coherent s) :
    Stepped s (.dragOver effectPointer point) (dragOver s effectPointer point).2 ∧
      Coherent (dragOver s effectPointer point).2 := by
  unfold dragOver
  cases effectPointer with
  | false => exact ⟨.quiet rfl rfl rfl nofun, hc⟩
  | true =>
    rw [if_neg (by decide)]
    by_cases hclosed : s.formats.isNone = true
    · rw [if_pos hclosed]
      exact ⟨.quiet rfl rfl rfl nofun, hc⟩
    · rw [if_neg hclosed]
      have hopen : s.formats.isSome = true := by
        rw [Option.isNone_iff_eq_none] at hclosed
        exact Option.isSome_iff_ne_none.2 hclosed
      have hregion : ∀ region : Option DragDropRegion,
          (region.map fun _ => (region.map DragDropRegion.id).getD 0) =
            region.map DragDropRegion.id := by
        intro region
        cases region <;> rfl
      refine ⟨.moved s.session _ _ _ s.formats (if_pos hopen) rfl ?_, iff_of_true hopen (hc.1 hopen)⟩
      rw [hregion, ← region_kept]
      exact if_pos hopen

theorem dragLeave_stepped (hc : Coherent s) :
    Stepped s .dragLeave (dragLeave s) ∧ Coherent (dragLeave s) := by
  refine ⟨?_, coherent_clearSession⟩
  unfold dragLeave
  by_cases hsession : s.session ≠ 0
  · rw [if_pos hsession]
    have hvisit : s.visit = some (s.session, _) := if_pos (hc.2 hsession)
    exact .left _ _ hvisit rfl rfl
  · rw [if_neg hsession]
    have hvisit : s.visit = none := if_neg fun h => hsession (hc.1 h)
    exact .quiet rfl hvisit.symm rfl fun _ => hvisit

/-! ## Dropping -/

theorem materializeFrom_spec (nativeFormats : List UInt16) (materialize : Format → Option Item)
    (identities : List (Format × UInt32)) :
    let selected := (identities.filter fun identity =>
      nativeFormats.contains identity.2.toUInt16).map Prod.fst
    (∀ payload, materializeFrom nativeFormats materialize identities = some payload →
      selected.map materialize = payload.map some) ∧
    (materializeFrom nativeFormats materialize identities = none →
      ∃ format ∈ selected, materialize format = none) := by
  induction identities with
  | nil => exact ⟨fun payload h => by rw [← Option.some.inj h]; rfl, nofun⟩
  | cons identity rest ih =>
    obtain ⟨format, native⟩ := identity
    dsimp only at ih ⊢
    unfold materializeFrom
    by_cases hoffered : nativeFormats.contains native.toUInt16 = true
    · rw [if_pos hoffered, List.filter_cons, if_pos hoffered, List.map_cons, List.map_cons]
      cases hitem : materialize format with
      | none => exact ⟨nofun, fun _ => ⟨format, List.mem_cons_self, hitem⟩⟩
      | some item =>
        refine ⟨fun payload h => ?_, fun h => ?_⟩
        · obtain ⟨items, hitems, rfl⟩ := Option.map_eq_some_iff.1 h
          rw [ih.1 items hitems]
          rfl
        · obtain ⟨format', hmem, hnone⟩ := ih.2 (Option.map_eq_none_iff.1 h)
          exact ⟨format', List.mem_cons_of_mem _ hmem, hnone⟩
    · rw [if_neg hoffered, List.filter_cons, if_neg hoffered]
      exact ih

/-- The clipboard formats of a region are compared as the numbers they are. -/
theorem offeredFormats_eq (region : DragDropRegion) (nativeFormats : List UInt16) :
    offeredFormats region nativeFormats = ((region.formats.zip region.nativeFormats).filter
      fun identity => nativeFormats.contains identity.2.toUInt16).map Prod.fst := by
  unfold offeredFormats
  congr 1
  refine List.filter_congr fun identity hmem => ?_
  have hnative := region.clipboard identity.2 (List.of_mem_zip hmem).2
  rw [List.contains_eq_mem]
  refine decide_eq_decide.2 ⟨fun h => ?_, fun h => ?_⟩
  · obtain ⟨offered, hoffered, heq⟩ := List.mem_map.1 h
    rwa [← heq, UInt16.toUInt16_toUInt32]
  · exact List.mem_map.2 ⟨_, h, hnative⟩

theorem regionAt_spec {regions : List DragDropRegion} {point : LogicalPosition}
    {offered : List UInt16} {region : DragDropRegion}
    (h : regionAt regions point offered = some region) :
    region ∈ regions ∧ offered.any (accepts region) = true := by
  have hfold : ∀ (regions : List DragDropRegion) (result : Option DragDropRegion),
      regions.foldl (fun result region =>
        let inside := region.rect.all fun rect => pointInRect point rect
        let acceptedFormat := offered.any fun offeredFormat => accepts region offeredFormat
        if inside && acceptedFormat then some region else result) result = some region →
      result = some region ∨ region ∈ regions ∧ offered.any (accepts region) = true := by
    intro regions
    induction regions with
    | nil => exact fun result h => .inl h
    | cons first rest ih =>
      intro result h
      rw [List.foldl_cons] at h
      rcases ih _ h with hresult | ⟨hmem, haccepts⟩
      · dsimp only at hresult
        split at hresult
        · rename_i hinside
          obtain rfl := Option.some.inj hresult
          exact .inr ⟨List.mem_cons_self, (Bool.and_eq_true _ _ ▸ hinside).2⟩
        · exact .inl hresult
      · exact .inr ⟨List.mem_cons_of_mem _ hmem, haccepts⟩
  rcases hfold regions none h with hnone | hfound
  · cases hnone
  · exact hfound

/-- The region under the pointer accepts an offered format. -/
theorem regionAt_offered {regions : List DragDropRegion} {point : LogicalPosition}
    {offered : List UInt16} {region : DragDropRegion}
    (h : regionAt regions point offered = some region) : offeredFormats region offered ≠ [] := by
  obtain ⟨native, hnative, haccepts⟩ := List.any_eq_true.1 (regionAt_spec h).2
  obtain ⟨i, hi, heq⟩ := List.getElem_of_mem (List.contains_iff_mem.1 haccepts)
  have hformat : i < region.formats.length := region.paired ▸ hi
  have hmem : (region.formats[i], native.toUInt32) ∈ region.formats.zip region.nativeFormats := by
    rw [← heq]
    exact List.mem_iff_getElem.2 ⟨i, by rw [List.length_zip]; omega, by simp⟩
  have hoffered : region.formats[i] ∈ offeredFormats region offered :=
    List.mem_map.2 ⟨_, List.mem_filter.2 ⟨hmem, decide_eq_true (List.mem_map_of_mem hnative)⟩, rfl⟩
  exact List.ne_nil_of_mem hoffered

/-- A drop that only clears the session. -/
theorem Stepped.of_refused {effectPointer object : Bool} {point : LogicalPosition}
    {materialize : Format → Option Item} {reported : Reported}
    (hrefused : ¬ Accepted s effectPointer object point materialize)
    (hdrop : drop s effectPointer object point materialize = (reported, clearSession s))
    (hreported : reported.getD 0 = 0) :
    Stepped s (.drop effectPointer object point materialize)
      (drop s effectPointer object point materialize).2 := by
  rw [hdrop]
  exact .rejected hrefused (hdrop ▸ hreported) rfl rfl

theorem drop_stepped (effectPointer object : Bool) (point : LogicalPosition)
    (materialize : Format → Option Item) :
    Stepped s (.drop effectPointer object point materialize)
      (drop s effectPointer object point materialize).2 := by
  by_cases hclosed : s.formats.isNone = true
  · have hvisit : s.visit = none := if_neg (by simpa using hclosed)
    have hdrop : (drop s effectPointer object point materialize).2 = clearSession s := by
      rw [drop, if_pos (by simp [hclosed])]
    rw [hdrop]
    exact .quiet rfl hvisit.symm rfl fun _ => hvisit
  have hopen : s.formats.isSome = true := by
    rw [Option.isNone_iff_eq_none] at hclosed
    exact Option.isSome_iff_ne_none.2 hclosed
  by_cases hpointers : effectPointer = true ∧ object = true
  · obtain ⟨rfl, rfl⟩ := hpointers
    have hguard : ¬ ((!true || !true || s.formats.isNone) = true) := by simpa using hclosed
    cases hregion : regionAt s.regions point s.nativeFormats with
    | none =>
      have hrefused : ¬ Accepted s true true point materialize := by
        rintro ⟨-, -, region, hat, -⟩
        rw [hregion] at hat
        cases hat
      have hdrop : drop s true true point materialize = (some 0, clearSession s) := by
        rw [drop, if_neg hguard, hregion]
      exact .of_refused hrefused hdrop rfl
    | some region =>
      by_cases hselected : selectedEffect s (some region) = .none
      · have hrefused : ¬ Accepted s true true point materialize := by
          rintro ⟨-, -, region', hat, hsome, -⟩
          obtain rfl := Option.some.inj (hregion.symm.trans hat)
          exact hsome hselected
        have hdrop : drop s true true point materialize = (some 0, clearSession s) := by
          rw [drop, if_neg hguard, hregion]
          exact if_pos hselected
        exact .of_refused hrefused hdrop rfl
      obtain ⟨hitems, hmissing⟩ := materializeFrom_spec s.nativeFormats materialize
        (region.formats.zip region.nativeFormats)
      rw [← offeredFormats_eq] at hitems hmissing
      cases hpayload : materializeFrom s.nativeFormats materialize
          (region.formats.zip region.nativeFormats) with
      | none =>
        have hrefused : ¬ Accepted s true true point materialize := by
          rintro ⟨-, -, region', hat, -, hall⟩
          obtain rfl := Option.some.inj (hregion.symm.trans hat)
          obtain ⟨format, hmem, hnone⟩ := hmissing hpayload
          have hsome := hall format hmem
          rw [hnone] at hsome
          cases hsome
        have hdrop : drop s true true point materialize = (some 0, clearSession s) := by
          rw [drop, if_neg hguard, hregion]
          dsimp only
          rw [if_neg hselected, hpayload]
        exact .of_refused hrefused hdrop rfl
      | some payload =>
        have hmap := hitems payload hpayload
        have hnonempty : payload ≠ [] := by
          rintro rfl
          exact regionAt_offered hregion (List.map_eq_nil_iff.1 hmap)
        obtain ⟨hsource, htarget, hvalid⟩ := negotiate_spec rfl hselected
        have haccepted : Accepted s true true point materialize := by
          refine ⟨rfl, rfl, region, hregion, hselected, fun format hmem => ?_⟩
          have hitem : materialize format ∈ payload.map some := hmap ▸ List.mem_map_of_mem hmem
          obtain ⟨item, -, hitem⟩ := List.mem_map.1 hitem
          rw [← hitem]
          rfl
        have hdrop : drop s true true point materialize =
            (some (nativeEffects (selectedEffect s (some region))),
              clearSession (routeDragDropEvent s (.dropped s.session point region.id
                (selectedEffect s (some region)) payload) true)) := by
          rw [drop, if_neg hguard, hregion]
          dsimp only
          rw [if_neg hselected, hpayload]
          exact if_neg (by simpa using hnonempty)
        refine .dropped s.session _ region _ payload (if_pos hopen) haccepted
          ⟨hregion, hselected, hsource, htarget, hvalid, hmap, hnonempty⟩ (by rw [hdrop])
          (by rw [hdrop]; rfl) (by rw [hdrop]; rfl)
  · have hrefused : ¬ Accepted s effectPointer object point materialize :=
      fun haccepted => hpointers ⟨haccepted.1, haccepted.2.1⟩
    have hguard : (!effectPointer || !object || s.formats.isNone) = true := by
      cases effectPointer <;> cases object <;> simp_all
    have hdrop : drop s effectPointer object point materialize =
        (if effectPointer then some 0 else none, clearSession s) := by
      rw [drop, if_pos hguard]
    exact .of_refused hrefused hdrop (by cases effectPointer <;> rfl)

theorem drop_closes (s : TargetState) (effectPointer object : Bool) (point : LogicalPosition)
    (materialize : Format → Option Item) :
    ∃ u, (drop s effectPointer object point materialize).2 = clearSession u := by
  unfold drop
  dsimp only
  split_ifs
  · exact ⟨_, rfl⟩
  · exact ⟨_, rfl⟩
  · cases regionAt s.regions point s.nativeFormats with
    | none => exact ⟨_, rfl⟩
    | some region =>
      dsimp only
      split_ifs
      · exact ⟨_, rfl⟩
      · cases materializeFrom s.nativeFormats materialize
            (region.formats.zip region.nativeFormats) with
        | none => exact ⟨_, rfl⟩
        | some payload =>
          dsimp only
          split_ifs <;> exact ⟨_, rfl⟩

/-- **One call.** -/
theorem stepped (hs : s.step a = some t) (hc : Coherent s) : Stepped s a t ∧ Coherent t := by
  cases a with
  | dragEnter pointers effect point offered =>
    obtain rfl := Option.some.inj hs
    exact dragEnter_stepped pointers effect point offered hc
  | dragOver effectPointer point =>
    obtain rfl := Option.some.inj hs
    exact dragOver_stepped effectPointer point hc
  | dragLeave =>
    obtain rfl := Option.some.inj hs
    exact dragLeave_stepped hc
  | drop effectPointer object point materialize =>
    obtain rfl := Option.some.inj hs
    obtain ⟨u, hclosed⟩ := drop_closes s effectPointer object point materialize
    exact ⟨drop_stepped effectPointer object point materialize, hclosed ▸ coherent_clearSession⟩
  | setRegions regions =>
    obtain rfl := Option.some.inj hs
    exact ⟨.quiet rfl rfl rfl nofun, hc⟩
  | popEvent =>
    obtain rfl := Option.some.inj hs
    exact ⟨.consumed .popEvent rfl rfl rfl, hc⟩
  | popEvents size =>
    obtain rfl := Option.some.inj hs
    exact ⟨.consumed (.popEvents size) rfl rfl rfl, hc⟩
  | clearEvents =>
    obtain rfl := Option.some.inj hs
    exact ⟨.consumed .clearEvents rfl rfl rfl, hc⟩

end

end DragDrop

end Desktop

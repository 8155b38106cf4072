import GameWIP.Desktop.Proof.EventQueue

/-!
# What a consumer of the event queue sees

A consumer applies the payloads it pops to values of its own (`Geometry`). While nothing is dropped
or cleared, what it has after a durable event is what was published last before that event, and what
it has in the end is what was published last (`Faithful`). A scale change may be missing when it led
back to an equal scale, so scales are compared as the code compares them (`SameValue`).
-/

namespace Desktop

namespace Events

open Lib (Trace)

/-- The values that coalescible events carry. -/
structure Geometry where
  clientPosition : ScreenPosition
  clientSize : LogicalSize
  framebufferSize : PixelSize
  contentScale : ContentScale
  dpi : Dpi
  deriving DecidableEq

/-- Identical, or equal as floating-point numbers. -/
def SameValue {α : Type} [BEq α] (a b : α) : Prop := a = b ∨ (a == b) = true

namespace SameValue

variable {α : Type} [BEq α] {a b c : α}

theorem refl (a : α) : SameValue a a := .inl rfl

variable [PartialEquivBEq α]

theorem symm (h : SameValue a b) : SameValue b a :=
  h.imp Eq.symm PartialEquivBEq.symm

theorem trans (h : SameValue a b) (h' : SameValue b c) : SameValue a c := by
  rcases h with rfl | h
  · exact h'
  · rcases h' with rfl | h'
    · exact .inr h
    · exact .inr (PartialEquivBEq.trans h h')

end SameValue

instance : PartialEquivBEq Dpi where
  symm {a b} h := by
    obtain ⟨hx, hy⟩ := (Bool.and_eq_true _ _ ▸ h : (a.x == b.x) = true ∧ (a.y == b.y) = true)
    exact (Bool.and_eq_true _ _).symm ▸ ⟨PartialEquivBEq.symm hx, PartialEquivBEq.symm hy⟩
  trans {a b c} hab hbc := by
    obtain ⟨hx, hy⟩ := (Bool.and_eq_true _ _ ▸ hab : (a.x == b.x) = true ∧ (a.y == b.y) = true)
    obtain ⟨hx', hy'⟩ := (Bool.and_eq_true _ _ ▸ hbc : (b.x == c.x) = true ∧ (b.y == c.y) = true)
    exact (Bool.and_eq_true _ _).symm ▸ ⟨PartialEquivBEq.trans hx hx', PartialEquivBEq.trans hy hy'⟩

namespace Geometry

def apply (g : Geometry) : Payload → Geometry
  | .clientPositionChanged position => { g with clientPosition := position }
  | .clientSizeChanged size => { g with clientSize := size }
  | .framebufferSizeChanged size => { g with framebufferSize := size }
  | .contentScaleChanged change => { g with contentScale := change.scale, dpi := change.dpi }
  | _ => g

def applyAll (g : Geometry) (payloads : List Payload) : Geometry := payloads.foldl apply g

/-- The values after events. -/
def view (g : Geometry) (events : List Event) : Geometry := g.applyAll (events.map Event.data)

/-- The same values. -/
structure Same (g g' : Geometry) : Prop where
  clientPosition : g.clientPosition = g'.clientPosition
  clientSize : g.clientSize = g'.clientSize
  framebufferSize : g.framebufferSize = g'.framebufferSize
  contentScale : SameValue g.contentScale g'.contentScale
  dpi : SameValue g.dpi g'.dpi

variable {g g' : Geometry} {p q data : Payload} {payloads : List Payload}

theorem Same.refl (g : Geometry) : Same g g := ⟨rfl, rfl, rfl, .refl _, .refl _⟩

theorem Same.trans {g₁ g₂ g₃ : Geometry} (h : Same g₁ g₂) (h' : Same g₂ g₃) : Same g₁ g₃ :=
  ⟨h.1.trans h'.1, h.2.trans h'.2, h.3.trans h'.3, h.4.trans h'.4, h.5.trans h'.5⟩

theorem apply_durable (g : Geometry) (h : isCoalescible p = false) : g.apply p = g := by
  cases p <;> first | rfl | cases h

theorem coalescible_cases (h : isCoalescible p = true) :
    (∃ x, p = .clientPositionChanged x) ∨ (∃ x, p = .clientSizeChanged x) ∨
      (∃ x, p = .framebufferSizeChanged x) ∨ ∃ x, p = .contentScaleChanged x := by
  cases p with
  | clientPositionChanged x => exact .inl ⟨x, rfl⟩
  | clientSizeChanged x => exact .inr (.inl ⟨x, rfl⟩)
  | framebufferSizeChanged x => exact .inr (.inr (.inl ⟨x, rfl⟩))
  | contentScaleChanged x => exact .inr (.inr (.inr ⟨x, rfl⟩))
  | _ => cases h

theorem Same.apply (h : Same g g') (p : Payload) : Same (g.apply p) (g'.apply p) := by
  cases hp : isCoalescible p with
  | false => simpa only [apply_durable _ hp] using h
  | true =>
    rcases coalescible_cases hp with ⟨x, rfl⟩ | ⟨x, rfl⟩ | ⟨x, rfl⟩ | ⟨x, rfl⟩
    · exact ⟨rfl, h.2, h.3, h.4, h.5⟩
    · exact ⟨h.1, rfl, h.3, h.4, h.5⟩
    · exact ⟨h.1, h.2, rfl, h.4, h.5⟩
    · exact ⟨h.1, h.2, h.3, .refl _, .refl _⟩

theorem Same.applyAll (h : Same g g') (payloads : List Payload) :
    Same (g.applyAll payloads) (g'.applyAll payloads) := by
  induction payloads generalizing g g' with
  | nil => exact h
  | cons p payloads ih => exact ih (h.apply p)

/-- Payloads of different types do not touch each other's values. -/
theorem apply_comm (g : Geometry) (h : sameCoalescibleType p q = false) :
    (g.apply p).apply q = (g.apply q).apply p := by
  cases hp : isCoalescible p with
  | false => rw [apply_durable _ hp, apply_durable _ hp]
  | true =>
    cases hq : isCoalescible q with
    | false => rw [apply_durable _ hq, apply_durable _ hq]
    | true =>
      rcases coalescible_cases hp with ⟨x, rfl⟩ | ⟨x, rfl⟩ | ⟨x, rfl⟩ | ⟨x, rfl⟩ <;>
        rcases coalescible_cases hq with ⟨y, rfl⟩ | ⟨y, rfl⟩ | ⟨y, rfl⟩ | ⟨y, rfl⟩ <;>
        first
        | rfl
        | simp [sameCoalescibleType, Payload.index, isCoalescible] at h

theorem applyAll_comm (g : Geometry)
    (h : ∀ p ∈ payloads, sameCoalescibleType p data = false) :
    (g.applyAll payloads).apply data = (g.apply data).applyAll payloads := by
  induction payloads generalizing g with
  | nil => rfl
  | cons p payloads ih =>
    have hcomm := apply_comm g (h p List.mem_cons_self)
    show ((g.apply p).applyAll payloads).apply data = ((g.apply data).apply p).applyAll payloads
    rw [ih _ fun q hq => h q (List.mem_cons_of_mem _ hq), hcomm]

/-- A merged event has the values of the payload. -/
theorem apply_merged (g : Geometry) {queued : Event}
    (h : sameCoalescibleType queued.data data = true) :
    g.apply (queued.merged data).data = (g.apply queued.data).apply data := by
  obtain ⟨hindex, hqueued⟩ := sameCoalescibleType_iff.1 h
  have hdata := isCoalescible_index hindex ▸ hqueued
  obtain ⟨sequence, payload⟩ := queued
  dsimp only at hindex hqueued ⊢
  rcases coalescible_cases hqueued with ⟨x, rfl⟩ | ⟨x, rfl⟩ | ⟨x, rfl⟩ | ⟨x, rfl⟩ <;>
    rcases coalescible_cases hdata with ⟨y, rfl⟩ | ⟨y, rfl⟩ | ⟨y, rfl⟩ | ⟨y, rfl⟩ <;>
    first
    | rfl
    | cases hindex

@[simp] theorem view_append (g : Geometry) (l r : List Event) :
    g.view (l ++ r) = (g.view l).view r := by
  simp [view, applyAll]

@[simp] theorem view_cons (g : Geometry) (e : Event) (l : List Event) :
    g.view (e :: l) = (g.apply e.data).view l := rfl

@[simp] theorem view_nil (g : Geometry) : g.view [] = g := rfl

/-- Merging a payload into an event has the effect of the payload. -/
theorem view_merged (g : Geometry) {l r : List Event} {queued : Event}
    (hsame : sameCoalescibleType queued.data data = true)
    (hr : ∀ e ∈ r, sameCoalescibleType e.data data = false) :
    g.view (l ++ queued.merged data :: r) = (g.view (l ++ queued :: r)).apply data := by
  have hcomm : ∀ g : Geometry, (g.view r).apply data = (g.apply data).view r := by
    intro g
    refine applyAll_comm g fun p hp => ?_
    obtain ⟨e, he, rfl⟩ := List.mem_map.1 hp
    exact hr e he
  simp only [view_append, view_cons, hcomm, apply_merged _ hsame]

/-- A payload that is not a scale change leaves the scale. -/
theorem apply_scale (g : Geometry) (h : ∀ c, p ≠ .contentScaleChanged c) :
    (g.apply p).contentScale = g.contentScale ∧ (g.apply p).dpi = g.dpi := by
  cases p <;> first | exact ⟨rfl, rfl⟩ | exact absurd rfl (h _)

end Geometry

/-! ## The consumer along a run -/

/-- Nothing was refused, pushed out or cleared. -/
def Complete (tr : List Step) : Prop := ∀ x ∈ tr, x.refused = [] ∧ x.lost = [] ∧ x.cleared = []

/-- The scale change that a call publishes. -/
def EventCall.scaleChange : EventCall → Option ContentScaleChanged
  | .enqueueEvent (.contentScaleChanged change) => some change
  | _ => none

/-- A published scale change starts from the scale and dpi of the values. -/
def StartsFrom (g : Geometry) (call : EventCall) : Prop :=
  ∀ change ∈ call.scaleChange,
    change.previousScale = g.contentScale ∧ change.previousDpi = g.dpi

/-- Each scale change starts from the scale and dpi published last. -/
def Chained (start : Geometry) (tr : List Step) : Prop :=
  ∀ before x after, tr = before ++ x :: after →
    StartsFrom (start.applyAll (published before)) x.action

/-- The values after the events `l` are those that were published last before `e` was. -/
def SeenAt (start : Geometry) (tr : List Step) (l : List Event) (e : Event) : Prop :=
  ∃ before x after, tr = before ++ x :: after ∧ x.queued = [e] ∧
    Geometry.Same (start.view l) (start.applyAll (published before))

/-- What the events popped and queued show. -/
structure Shows (start : Geometry) (tr : List Step) (events : List Event) : Prop where
  latest : Geometry.Same (start.view events) (start.applyAll (published tr))
  seen : ∀ l e r, events = l ++ e :: r → e.durable = true → SeenAt start tr l e
  starts : ∀ l e r change, events = l ++ e :: r → e.data = .contentScaleChanged change →
    SameValue change.previousScale (start.view l).contentScale ∧
      SameValue change.previousDpi (start.view l).dpi

/-- Where an event stands in two lists put together. -/
theorem append_eq_split {α : Type} {a b l r : List α} {e : α} (h : a ++ b = l ++ e :: r) :
    (∃ r', a = l ++ e :: r' ∧ r = r' ++ b) ∨ ∃ l', l = a ++ l' ∧ b = l' ++ e :: r := by
  rcases List.append_eq_append_iff.1 h with ⟨l', hl, hb⟩ | ⟨a', ha, hr⟩
  · exact .inr ⟨l', hl, hb⟩
  · rcases a' with _ | ⟨c, a'⟩
    · exact .inr ⟨[], by simpa using ha.symm, by simpa using hr.symm⟩
    · obtain ⟨rfl, rfl⟩ := List.cons.inj hr
      exact .inl ⟨a', ha, rfl⟩

section
variable {start : Geometry} {tr : List Step} {x : Step} {l r events : List Event}
  {queued e : Event} {data : Payload} {capacity : Nat} {s : WindowState}

theorem SeenAt.concat (h : SeenAt start tr l e) (x : Step) : SeenAt start (tr ++ [x]) l e := by
  obtain ⟨before, y, after, rfl, hy, hsame⟩ := h
  exact ⟨before, y, after ++ [x], by simp, hy, hsame⟩

/-- A step that changes neither the events nor what is published. -/
theorem Shows.same (h : Shows start tr events) (hpublished : x.published = []) :
    Shows start (tr ++ [x]) events where
  latest := by
    rw [published_concat, hpublished, List.append_nil]
    exact h.latest
  seen l e r heq he := (h.seen l e r heq he).concat x
  starts := h.starts

theorem applyAll_concat (payloads : List Payload) :
    start.applyAll (payloads ++ [data]) = (start.applyAll payloads).apply data := by
  simp [Geometry.applyAll]

/-- One event more. -/
theorem Shows.concat (h : Shows start tr events) (hpublished : x.published = [data])
    (hqueued : x.queued = [e]) (hdata : e.data = data)
    (hchained : StartsFrom (start.applyAll (published tr)) (.enqueueEvent data)) :
    Shows start (tr ++ [x]) (events ++ [e]) where
  latest := by
    rw [published_concat, hpublished, applyAll_concat, Geometry.view_append]
    simpa [hdata] using h.latest.apply data
  seen l e' r heq he' := by
    rcases append_eq_split heq with ⟨r', hevents, -⟩ | ⟨l', rfl, hlast⟩
    · exact (h.seen l e' r' hevents he').concat x
    · obtain ⟨rfl, rfl⟩ : l' = [] ∧ e = e' := by
        cases l' <;> simp_all
      exact ⟨tr, x, [], rfl, hqueued, by simpa using h.latest⟩
  starts l e' r change heq hchange := by
    rcases append_eq_split heq with ⟨r', hevents, -⟩ | ⟨l', rfl, hlast⟩
    · exact h.starts l e' r' change hevents hchange
    · obtain ⟨rfl, rfl⟩ : l' = [] ∧ e = e' := by
        cases l' <;> simp_all
      obtain rfl : data = .contentScaleChanged change := hdata.symm.trans hchange
      obtain ⟨hscale, hdpi⟩ := hchained change rfl
      rw [hscale, hdpi, List.append_nil]
      exact ⟨h.latest.contentScale.symm, h.latest.dpi.symm⟩

/-- Behind the queued event of the payload's type there are only coalescible events of others. -/
def Behind (data : Payload) (r : List Event) : Prop :=
  ∀ e ∈ r, e.durable = false ∧ sameCoalescibleType e.data data = false

/-- A durable event stands in front of all these. -/
theorem Behind.split (hr : Behind data r) (hqueued : queued.durable = false)
    {l' r' : List Event} (h : l ++ queued :: r = l' ++ e :: r') (he : e.durable = true) :
    ∃ r'', l = l' ++ e :: r'' := by
  rcases append_eq_split h with ⟨r'', hl, -⟩ | ⟨m, -, hmem⟩
  · exact ⟨r'', hl⟩
  · have hin : e ∈ queued :: r := hmem ▸ by simp
    rcases List.mem_cons.1 hin with rfl | hin
    · exact absurd (hqueued.symm.trans he) Bool.false_ne_true
    · exact absurd ((hr e hin).1.symm.trans he) Bool.false_ne_true

/-- A scale change in a merged event starts where the queued one did. -/
theorem Event.merged_starts {change : ContentScaleChanged}
    (hsame : sameCoalescibleType queued.data data = true)
    (h : (queued.merged data).data = .contentScaleChanged change) :
    ∃ old, queued.data = .contentScaleChanged old ∧ old.previousScale = change.previousScale ∧
      old.previousDpi = change.previousDpi := by
  by_cases hscale : ∃ a b, queued.data = .contentScaleChanged a ∧ data = .contentScaleChanged b
  · obtain ⟨a, b, ha, rfl⟩ := hscale
    rw [Event.merged_scale ha] at h
    obtain rfl := Payload.contentScaleChanged.inj h
    exact ⟨a, ha, rfl, rfl⟩
  · have hother : ∀ a b, queued.data = .contentScaleChanged a → data ≠ .contentScaleChanged b :=
      fun a b ha hb => hscale ⟨a, b, ha, hb⟩
    rw [Event.merged_other hother] at h
    -- the queued event is of the same type
    obtain ⟨hindex, hqueued⟩ := sameCoalescibleType_iff.1 hsame
    rw [show data = .contentScaleChanged change from h] at hindex
    rcases Geometry.coalescible_cases hqueued with ⟨y, hy⟩ | ⟨y, hy⟩ | ⟨y, hy⟩ | ⟨y, hy⟩
    · rw [hy] at hindex
      cases hindex
    · rw [hy] at hindex
      cases hindex
    · rw [hy] at hindex
      cases hindex
    · exact absurd h (hother y change hy)

theorem sameCoalescibleType_scale (a b : ContentScaleChanged) :
    sameCoalescibleType (.contentScaleChanged a) (.contentScaleChanged b) = true := rfl

/-- A payload goes into the queued event of its type. -/
theorem Shows.merged (h : Shows start tr (l ++ queued :: r))
    (hsame : sameCoalescibleType queued.data data = true) (hr : Behind data r)
    (hpublished : x.published = [data]) :
    Shows start (tr ++ [x]) (l ++ queued.merged data :: r) where
  latest := by
    rw [published_concat, hpublished, applyAll_concat,
      Geometry.view_merged start hsame fun e he => (hr e he).2]
    exact h.latest.apply data
  seen l' e r' heq he := by
    obtain ⟨r'', rfl⟩ := hr.split (Event.merged_durable hsame).2 heq he
    exact (h.seen l' e (r'' ++ queued :: r) (by simp) he).concat x
  starts l' e r' change heq hchange := by
    rcases append_eq_split heq with ⟨r'', rfl, -⟩ | ⟨m, rfl, hm⟩
    · exact h.starts l' e (r'' ++ queued :: r) change (by simp) hchange
    · rcases m with _ | ⟨c, m⟩
      · obtain ⟨rfl, -⟩ := List.cons.inj hm
        obtain ⟨old, hold, hscale, hdpi⟩ := Event.merged_starts hsame hchange
        rw [List.append_nil, ← hscale, ← hdpi]
        exact h.starts l queued r old rfl hold
      · obtain ⟨rfl, hr'⟩ := List.cons.inj hm
        -- the payload is of another type than the scale change behind it
        have hother : ∀ b, data ≠ .contentScaleChanged b := by
          rintro b rfl
          have hfalse := (hr e (hr' ▸ by simp)).2
          rw [hchange, sameCoalescibleType_scale] at hfalse
          cases hfalse
        have hm' : ∀ e ∈ m, sameCoalescibleType e.data data = false :=
          fun e he => (hr e (hr' ▸ by simp [he])).2
        have hbefore := h.starts (l ++ queued :: m) e r' change (by simp [hr']) hchange
        rw [Geometry.view_merged start hsame hm', (Geometry.apply_scale _ hother).1,
          (Geometry.apply_scale _ hother).2]
        exact hbefore

/-- A payload that takes back the queued scale change. -/
theorem Shows.cancelled (h : Shows start tr (l ++ queued :: r)) (hcancelled : queued.Cancelled data)
    (hr : Behind data r) (hpublished : x.published = [data]) :
    Shows start (tr ++ [x]) (l ++ r) where
  latest := by
    obtain ⟨old, new, hold, rfl, hscale, hdpi⟩ := hcancelled
    obtain ⟨hstart, hstart'⟩ := h.starts l queued r old rfl hold
    have hcomm : ∀ g : Geometry, (g.view r).apply (.contentScaleChanged new) =
        (g.apply (.contentScaleChanged new)).view r := by
      refine fun g => Geometry.applyAll_comm g fun p hp => ?_
      obtain ⟨e, he, rfl⟩ := List.mem_map.1 hp
      exact (hr e he).2
    -- the scale in front of the queued change is the one that the payload brings back
    have hback : Geometry.Same (start.view l) ((start.view l).apply (.contentScaleChanged new)) :=
      ⟨rfl, rfl, rfl, hstart.symm.trans (.inr hscale), hstart'.symm.trans (.inr hdpi)⟩
    have hlatest := h.latest.apply (.contentScaleChanged new)
    rw [Geometry.view_append, Geometry.view_cons, hcomm, hold] at hlatest
    rw [published_concat, hpublished, applyAll_concat, Geometry.view_append]
    exact (hback.applyAll _).trans hlatest
  seen l' e r' heq he := by
    rcases append_eq_split heq with ⟨r'', rfl, -⟩ | ⟨m, -, hm⟩
    · exact (h.seen l' e (r'' ++ queued :: r) (by simp) he).concat x
    · exact absurd ((hr e (hm ▸ by simp)).1.symm.trans he) Bool.false_ne_true
  starts l' e r' change heq hchange := by
    rcases append_eq_split heq with ⟨r'', rfl, -⟩ | ⟨m, -, hm⟩
    · exact h.starts l' e (r'' ++ queued :: r) change (by simp) hchange
    · obtain ⟨old, new, -, rfl, -⟩ := hcancelled
      have hfalse := (hr e (hm ▸ by simp)).2
      rw [hchange, sameCoalescibleType_scale] at hfalse
      cases hfalse

/-- One step more of a complete run. -/
theorem shows_step (h : Shows start tr (popped tr ++ x.pre.events))
    (haccounts : Accounts capacity tr x.pre) (hs : step x.pre x.action = some x.post)
    (hcomplete : x.refused = [] ∧ x.lost = [] ∧ x.cleared = [])
    (hchained : StartsFrom (start.applyAll (published tr)) x.action) :
    Shows start (tr ++ [x]) (popped (tr ++ [x]) ++ x.post.events) := by
  obtain ⟨hrefused, hlost, hcleared⟩ := hcomplete
  rcases step_cases haccounts.active hs with
    ⟨data, result, haction, henqueued, hresult⟩ |
    ⟨-, hevents, hpublished, -, -, -, -, -⟩
  · have hpublished : x.published = [data] := by simp [Step.published, haction]
    have hpopped : popped (tr ++ [x]) = popped tr := by
      simp [Step.popped, haction]
    -- a call that refuses or pushes out counts a drop
    have hdrops := henqueued.drops haccounts.events_increasing
    have hnone : Enqueued.lost x.pre x.post result = [] := by
      simpa [Step.lost, haction, hresult] using hlost
    have hkept : result ≠ .dropped := by
      rintro rfl
      simp [Step.refused, haction, hresult] at hrefused
    rw [hnone, if_neg hkept] at hdrops
    rw [hpopped]
    cases henqueued with
    | merged l r queued hbefore hsame hr hafter _ =>
      rw [hbefore, ← List.append_assoc] at h
      rw [hafter, ← List.append_assoc]
      exact h.merged hsame hr hpublished
    | cancelled l r queued hbefore hcancelled hr hafter _ =>
      rw [hbefore, ← List.append_assoc] at h
      rw [hafter, ← List.append_assoc]
      exact h.cancelled hcancelled hr hpublished
    | refused _ _ _ _ _ => exact absurd rfl hkept
    | queued hafter _ =>
      rw [hafter, ← List.append_assoc]
      refine h.concat hpublished ?_ rfl (haction ▸ hchained)
      simp [Step.queued, haction, hresult, Enqueued.taken]
    | evicted l r lost _ _ _ _ frame =>
      have := frame.droppedEvents
      rw [List.length_nil] at hdrops
      omega
    | displaced r lost _ _ _ _ _ frame =>
      have := frame.droppedEvents
      rw [List.length_nil] at hdrops
      omega
  · have hsame : popped (tr ++ [x]) ++ x.post.events = popped tr ++ x.pre.events := by
      rw [popped_concat, hevents, hcleared, List.append_nil, List.append_assoc]
    rw [hsame]
    exact h.same hpublished

theorem Complete.of_concat (h : Complete (tr ++ [x])) :
    Complete tr ∧ x.refused = [] ∧ x.lost = [] ∧ x.cleared = [] :=
  ⟨fun y hy => h y (List.mem_append_left _ hy), h x (by simp)⟩

theorem Chained.of_concat (h : Chained start (tr ++ [x])) :
    Chained start tr ∧ StartsFrom (start.applyAll (published tr)) x.action := by
  refine ⟨?_, h tr x [] rfl⟩
  rintro before y after rfl
  exact h before y (after ++ [x]) (by simp)

/-- **The consumer along a run.** -/
theorem shows_run (hcapacity : 0 < capacity)
    (h : Trace step (.initial capacity hcapacity) tr s) (hcomplete : Complete tr)
    (hchained : Chained start tr) : Shows start tr (popped tr ++ s.events) := by
  refine h.history (P := fun tr s => Complete tr → Chained start tr →
    Shows start tr (popped tr ++ s.events)) (fun _ _ => ?_) ?_ hcomplete hchained
  · have hnone : popped [] ++ (WindowState.initial capacity hcapacity).events = [] := rfl
    rw [hnone]
    exact ⟨.refl _, by simp, by simp⟩
  · intro tr x hbefore hs ih hcomplete hchained
    obtain ⟨hcomplete, hx⟩ := hcomplete.of_concat
    obtain ⟨hchained, hchange⟩ := hchained.of_concat
    exact shows_step (ih hcomplete hchained) (accounts_run hcapacity hbefore) hs hx hchange

end

/-- **The event queue of a Window**: order, bounds, the fate of every durable event and the count of
drops in every run; in a run that drops and clears nothing, a consumer sees the values last
published at every durable event and at the end. -/
theorem windowEvents {capacity : Nat} {tr : List Step} {s : WindowState} (hcapacity : 0 < capacity)
    (h : Trace step (.initial capacity hcapacity) tr s) :
    ((popped tr ++ s.events).map Event.sequence).Pairwise (· < ·) ∧
    s.events.length ≤ capacity ∧
    ((popped tr ++ s.events).filter Event.durable).Sublist ((queued tr).filter Event.durable) ∧
    (∀ e ∈ queued tr, e.durable = true →
      (e ∉ popped tr ++ s.events ↔ ∃ x ∈ tr, x.Removes e)) ∧
    (∀ x ∈ tr, ∀ data, x.action = .enqueueEvent data → isCoalescible data = false →
      x.queued = [x.pre.newEvent data] ∨
        data ≠ .nativeDestroyed ∧ x.refused = [data] ∧ x.pre.events.length = capacity ∧
          ∀ e ∈ x.pre.events, e.durable = true) ∧
    s.droppedEvents = (refused tr).length + (lost tr).length ∧
    ∀ start, Complete tr → Chained start tr →
      (∀ l e r, popped tr = l ++ e :: r → e.durable = true → SeenAt start tr l e) ∧
      Geometry.Same (start.view (popped tr ++ s.events)) (start.applyAll (published tr)) := by
  have haccounts := accounts_run hcapacity h
  refine ⟨haccounts.increasing.1, haccounts.capacity ▸ Enqueued.length_events_le s, haccounts.order,
    haccounts.missing, fun x hx data haction hdurable => ?_, haccounts.drops,
    fun start hcomplete hchained => ?_⟩
  · obtain ⟨before, after, rfl⟩ := List.append_of_mem hx
    obtain ⟨hbefore, hs, -⟩ := h.split
    have hpre := accounts_run hcapacity hbefore
    have henqueued := enqueueEvent_enqueued hpre.active data
    rcases henqueued.durable_result hdurable with hresult | ⟨hresult, hother, hfull, hall⟩
    · refine .inl ?_
      simp [Step.queued, haction, hresult, Enqueued.taken]
    · refine .inr ⟨hother, ?_, hpre.capacity ▸ hfull, hall⟩
      simp [Step.refused, haction, hresult]
  · have hshows := shows_run hcapacity h hcomplete hchained
    refine ⟨fun l e r heq he => ?_, hshows.latest⟩
    exact hshows.seen l e (r ++ s.events) (by simp [heq]) he

/-- A double scale, and the change to it. -/
def doubleScale : ContentScaleChanged where
  scale := { x := ⟨0x40000000⟩, y := ⟨0x40000000⟩ }
  dpi := { x := ⟨0x43400000⟩, y := ⟨0x43400000⟩ }

/-- Moves and a scale change that is taken back around a focus change. -/
def geometryCalls : List EventCall := [
  .enqueueEvent (.clientPositionChanged { x := 1 }),
  .enqueueEvent (.contentScaleChanged doubleScale),
  .enqueueEvent (.clientPositionChanged { x := 2 }),
  .enqueueEvent (.contentScaleChanged
    { previousScale := doubleScale.scale, previousDpi := doubleScale.dpi }),
  .enqueueEvent (.focusChanged true),
  .popEvents 1,
  .enqueueEvent (.clientPositionChanged { x := 3 }),
  .popEvents 5]

def startGeometry : Geometry := ⟨{}, {}, {}, {}, {}⟩

/-- The run of the calls on a queue of three events. -/
def geometryRun : List Step × WindowState :=
  (Lib.run step (.initial 3 (by decide)) geometryCalls).get (by decide +kernel)

/-- Two durable events fill a queue; a third one is refused, and `NativeDestroyed` is not. -/
def destroyedCalls : List EventCall := [
  .enqueueEvent (.focusChanged true), .enqueueEvent .redrawRequested,
  .enqueueEvent (.focusChanged false), .enqueueEvent .nativeDestroyed, .popEvents 2]

def destroyedRun : List Step × WindowState :=
  (Lib.run step (.initial 2 (by decide)) destroyedCalls).get (by decide +kernel)

theorem windowEvents_sampleCalls :
    (popped geometryRun.1 = [⟨1, .clientPositionChanged { x := 2 }⟩, ⟨3, .focusChanged true⟩,
        ⟨4, .clientPositionChanged { x := 3 }⟩] ∧
      Geometry.Same (startGeometry.view (popped geometryRun.1 ++ geometryRun.2.events))
        (startGeometry.applyAll (published geometryRun.1))) ∧
    popped destroyedRun.1 = [⟨2, .redrawRequested⟩, ⟨3, .nativeDestroyed⟩] ∧
      destroyedRun.2.droppedEvents = (refused destroyedRun.1).length + (lost destroyedRun.1).length := by
  have hgeometry : Trace step (.initial 3 (by decide)) geometryRun.1 geometryRun.2 :=
    Trace.of_run (Option.some_get _).symm
  have hdestroyed : Trace step (.initial 2 (by decide)) destroyedRun.1 destroyedRun.2 :=
    Trace.of_run (Option.some_get _).symm
  have hcomplete : Complete geometryRun.1 := by
    unfold Complete
    decide +kernel
  have hchained : Chained startGeometry geometryRun.1 := by
    have hall : ∀ i < geometryRun.1.length, ∀ x ∈ geometryRun.1[i]?, StartsFrom
        (startGeometry.applyAll (published (geometryRun.1.take i))) x.action := by
      unfold StartsFrom
      decide +kernel
    intro before x after heq
    have hx := hall before.length (by rw [heq]; simp) x (by rw [heq]; simp)
    rwa [heq, List.take_left] at hx
  exact ⟨⟨by decide +kernel, ((windowEvents (by decide) hgeometry).2.2.2.2.2.2 startGeometry
    hcomplete hchained).2⟩, by decide +kernel, (windowEvents (by decide) hdestroyed).2.2.2.2.2.1⟩

end Events

end Desktop

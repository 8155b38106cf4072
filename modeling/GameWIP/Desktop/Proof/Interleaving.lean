import GameWIP.Desktop.Bridge
import GameWIP.Desktop.Proof.Sections
import GameWIP.Lib.Slots
import GameWIP.Lib.Trace

/-!
# The invariant of the bridge

`Bridge.WellFormed` is kept by every step of every thread (`wellFormed_bridgeStep`). At its centre is
`publicationMutex`: what a publication has loaded under it (`PublishStage.Shown`) stays true until the
publication itself or the owner's clearing changes it, and both need the mutex. A thread without the
mutex leaves all of it alone (`Steady`).

The live flag is cleared outside the mutex. An activation is `Open` while it is live or its closing
still waits for the mutex; a publication that stores a snapshot has seen it open, so that the clearing
comes after. What the owner has still to clear is counted by `Owner.remaining`.
-/

namespace Desktop

variable {F : Type} {s t : Bridge F} {a c : Nat} {r r' : Runtime F} {old new : Caller F}
  {p : PublishedSnapshot F} {before : Option (PublishedSnapshot F)}

/-! ## Positions -/

/-- The publication holds the mutex. -/
def PublishStage.locked : PublishStage F → Bool
  | .load _ | .live _ _ | .validate _ _ | .lock _ _ => false
  | _ => true

def Caller.locked : Caller F → Bool
  | .publish stage => stage.locked
  | _ => false

/-- What the owner has still to clear in the activation: the snapshot and the two queues. -/
def Owner.remaining (a : Nat) : Owner F → Nat
  | .closeLock b | .closeSnapshot b => if b = a then 3 else 0
  | .closeActions b => if b = a then 2 else 0
  | .closeNotifications b => if b = a then 1 else 0
  | _ => 0

/-- The owner is not past the exchange of the live flag in a closing. -/
def Owner.plain : Owner F → Bool
  | .closeLock _ | .closeSnapshot _ | .closeActions _ | .closeNotifications _ | .closeUnlock _ => false
  | _ => true

theorem Owner.remaining_plain {o : Owner F} (h : o.plain = true) (a : Nat) : o.remaining a = 0 := by
  cases o <;> first | rfl | cases h

namespace Bridge

/-- The snapshot of an activation. -/
def snapshot (s : Bridge F) (a : Nat) : Option (PublishedSnapshot F) :=
  s.runtimes[a]?.bind (·.snapshot)

/-- The activation is live, or its closing waits for the mutex. -/
def Open (s : Bridge F) (a : Nat) : Prop :=
  ∃ r, s.runtimes[a]? = some r ∧ (r.live = true ∨ s.owner = .closeLock a)

/-- The live flag of the activation has been cleared. -/
def Dead (s : Bridge F) (a : Nat) : Prop := ∃ r, s.runtimes[a]? = some r ∧ r.live = false

end Bridge

variable [DoubleOps F]

/-! ## What the threads know -/

/-- The candidate may follow the snapshot that was loaded. -/
structure Bridge.Prepared (s : Bridge F) (a : Nat) (p : PublishedSnapshot F)
    (before : Option (PublishedSnapshot F)) : Prop where
  validated : p.Validated
  generation : s.lastGeneration < p.storage.generation
  root : ∀ q ∈ before, q.storage.root = p.storage.root
  loaded : s.snapshot a = before

/-- The candidate has been stored. -/
structure Bridge.Stored (s : Bridge F) (a : Nat) (p : PublishedSnapshot F)
    (before : Option (PublishedSnapshot F)) : Prop where
  validated : p.Validated
  previous : ∀ q ∈ before, q.Validated
  snapshot : s.snapshot a = some p
  opened : s.Open a

/-- What the steps of a publication so far have shown. -/
def PublishStage.Shown (s : Bridge F) : PublishStage F → Prop
  | .load _ | .live _ _ | .validate _ _ | .unlock _ => True
  | .lock _ p | .liveLocked _ p | .generation _ p => p.Validated
  | .root _ p => p.Validated ∧ s.lastGeneration < p.storage.generation
  | .prepare a p before | .liveAgain a p before => s.Prepared a p before
  | .store a p before => s.Prepared a p before ∧ s.Open a
  | .record a p before => s.Stored a p before ∧ s.lastGeneration < p.storage.generation
  | .diff a p before => s.Stored a p before

def SubmitStage.Shown : SubmitStage F → Prop
  | .live _ _ | .snapshot _ _ => True
  | .check _ loaded _ => ∀ p ∈ loaded, p.Validated
  | .commit _ p request => RangesValid p request

def Caller.Shown (s : Bridge F) : Caller F → Prop
  | .publish stage => stage.Shown s
  | .submit stage => stage.Shown
  | _ => True

/-- An activation in its closing has been marked, and is cleared under the mutex. -/
def Owner.Shown (s : Bridge F) : Owner F → Prop
  | .closeLock a => s.Dead a
  | .closeSnapshot a | .closeActions a | .closeNotifications a | .closeUnlock a =>
    s.publicationMutex = some .owner ∧ s.Dead a
  | _ => True

/-! ## The invariant -/

namespace Bridge

/-- What was published, over all activations. -/
structure StoredKept (s : Bridge F) : Prop where
  increasing : s.stored.Pairwise fun x y => x.2.storage.generation < y.2.storage.generation
  generation : ∀ x ∈ s.stored, x.2.storage.generation ≤ s.lastGeneration ∨
    ∃ (c : Nat) (before : _), s.callers[c]? = some (.publish (.record x.1 x.2 before))
  roots : ∀ x ∈ s.stored, ∀ y ∈ s.stored, x.1 = y.1 → x.2.storage.root = y.2.storage.root
  current : ∀ x ∈ s.stored, s.Open x.1 →
    ∃ p, s.snapshot x.1 = some p ∧ p.storage.root = x.2.storage.root
  bounded : ∀ x ∈ s.stored, x.1 < s.runtimes.length

structure WellFormed (s : Bridge F) : Prop where
  runtimes : ∀ (a : Nat) r, s.runtimes[a]? = some r → r.Kept (s.owner.remaining a)
  mutex : ∀ (c : Nat) caller, s.callers[c]? = some caller → caller.locked = true →
    s.publicationMutex = some (.caller c)
  callers : ∀ (c : Nat) caller, s.callers[c]? = some caller → caller.Shown s
  owner : s.owner.Shown s
  stored : s.StoredKept

/-! ## Frames -/

/-- What a thread without the mutex leaves alone. -/
structure Steady (s t : Bridge F) : Prop where
  lastGeneration : t.lastGeneration = s.lastGeneration
  snapshot : ∀ a, t.snapshot a = s.snapshot a
  opened : ∀ a < s.runtimes.length, t.Open a ↔ s.Open a
  length : s.runtimes.length ≤ t.runtimes.length

omit [DoubleOps F] in
theorem Open.lt (h : s.Open a) : a < s.runtimes.length := by
  obtain ⟨r, hr, -⟩ := h
  exact (List.getElem?_eq_some_iff.1 hr).1

omit [DoubleOps F] in
theorem Steady.open (h : Steady s t) (ha : s.Open a) : t.Open a := (h.opened a ha.lt).2 ha

theorem Prepared.steady (hp : s.Prepared a p before) (h : Steady s t) : t.Prepared a p before :=
  ⟨hp.validated, h.lastGeneration ▸ hp.generation, hp.root, (h.snapshot a).trans hp.loaded⟩

theorem Stored.steady (hp : s.Stored a p before) (h : Steady s t) : t.Stored a p before :=
  ⟨hp.validated, hp.previous, (h.snapshot a).trans hp.snapshot, h.open hp.opened⟩

end Bridge

open Bridge (Steady)

theorem PublishStage.Shown.steady {stage : PublishStage F} (hstage : stage.Shown s)
    (h : Steady s t) : stage.Shown t := by
  cases stage with
  | load | live | validate | unlock => trivial
  | lock | liveLocked | generation => exact hstage
  | root => exact ⟨hstage.1, h.lastGeneration ▸ hstage.2⟩
  | prepare | liveAgain => exact Bridge.Prepared.steady hstage h
  | store => exact ⟨hstage.1.steady h, h.open hstage.2⟩
  | record => exact ⟨hstage.1.steady h, h.lastGeneration ▸ hstage.2⟩
  | diff => exact Bridge.Stored.steady hstage h

theorem Caller.Shown.steady {caller : Caller F} (hcaller : caller.Shown s) (h : Steady s t) :
    caller.Shown t := by
  cases caller with
  | publish => exact PublishStage.Shown.steady hcaller h
  | submit => exact hcaller
  | idle | announce | invalidate | published | announced | submitted | invalidated => trivial

/-- Without the mutex a thread knows nothing that could change. -/
theorem Caller.Shown.unlocked {caller : Caller F} (hcaller : caller.Shown s)
    (h : caller.locked = false) : caller.Shown t := by
  cases caller with
  | publish stage =>
    cases stage with
    | load | live | validate => trivial
    | lock => exact hcaller
    | liveLocked | generation | root | prepare | liveAgain | store | record | diff | unlock => cases h
  | submit => exact hcaller
  | idle | announce | invalidate | published | announced | submitted | invalidated => trivial

namespace Bridge

section Frame

omit [DoubleOps F]

theorem getElem?_setRuntime_cases {b : Nat} {x : Runtime F}
    (h : (s.setRuntime a r').runtimes[b]? = some x) :
    b = a ∧ x = r' ∨ b ≠ a ∧ s.runtimes[b]? = some x := Lib.getElem?_set_cases h

theorem getElem?_setRuntime (hr : s.runtimes[a]? = some r) :
    (s.setRuntime a r').runtimes[a]? = some r' :=
  List.getElem?_set_self (List.getElem?_eq_some_iff.1 hr).1

theorem getElem?_setRuntime_ne {b : Nat} (h : b ≠ a) :
    (s.setRuntime a r').runtimes[b]? = s.runtimes[b]? := List.getElem?_set_ne h.symm

theorem snapshot_setRuntime (hr : s.runtimes[a]? = some r) :
    (s.setRuntime a r').snapshot a = r'.snapshot := by
  rw [snapshot, getElem?_setRuntime hr]
  rfl

theorem snapshot_setRuntime_ne {b : Nat} (h : b ≠ a) :
    (s.setRuntime a r').snapshot b = s.snapshot b := by
  rw [snapshot, getElem?_setRuntime_ne h, snapshot]

/-- An update that leaves the live flag. -/
theorem open_setRuntime (hr : s.runtimes[a]? = some r) (hlive : r'.live = r.live) (b : Nat) :
    (s.setRuntime a r').Open b ↔ s.Open b := by
  by_cases hb : b = a
  · subst hb
    constructor
    · rintro ⟨x, hx, hopen⟩
      rw [getElem?_setRuntime hr] at hx
      obtain rfl := Option.some.inj hx
      exact ⟨r, hr, hlive ▸ hopen⟩
    · rintro ⟨x, hx, hopen⟩
      obtain rfl := Option.some.inj (hr.symm.trans hx)
      exact ⟨r', getElem?_setRuntime hr, hlive.symm ▸ hopen⟩
  · unfold Open
    rw [getElem?_setRuntime_ne hb]
    rfl

theorem dead_setRuntime (hr : s.runtimes[a]? = some r) (hlive : r.live = false → r'.live = false)
    {b : Nat} (h : s.Dead b) : (s.setRuntime a r').Dead b := by
  obtain ⟨x, hx, hdead⟩ := h
  by_cases hb : b = a
  · subst hb
    obtain rfl := Option.some.inj (hr.symm.trans hx)
    exact ⟨r', getElem?_setRuntime hr, hlive hdead⟩
  · exact ⟨x, (getElem?_setRuntime_ne hb).trans hx, hdead⟩

theorem steady_setRuntime (hr : s.runtimes[a]? = some r) (hsnapshot : r'.snapshot = r.snapshot)
    (hlive : r'.live = r.live) : Steady s (s.setRuntime a r') where
  lastGeneration := rfl
  snapshot b := by
    by_cases hb : b = a
    · subst hb
      rw [snapshot_setRuntime hr, snapshot, hr, hsnapshot]
      rfl
    · exact snapshot_setRuntime_ne hb
  opened b _ := open_setRuntime hr hlive b
  length := by simp [setRuntime]

end Frame

/-! ## One lemma for each kind of step -/

theorem WellFormed.exclusive (h : s.WellFormed) {c' : Nat} {other : Caller F}
    (hc : s.callers[c]? = some old) (hlocked : old.locked = true)
    (hc' : s.callers[c']? = some other) (hother : other.locked = true) : c' = c := by
  have heq := (h.mutex c old hc hlocked).symm.trans (h.mutex c' other hc' hother)
  cases heq
  rfl

/-- A thread moves on, and has not just stored a snapshot. -/
theorem WellFormed.setCaller (h : s.WellFormed) (hc : s.callers[c]? = some old)
    (hshown : new.Shown s) (hlocked : new.locked = true → s.publicationMutex = some (.caller c))
    (hrecord : ∀ a p before, old ≠ .publish (.record a p before)) :
    (s.setCaller c new).WellFormed where
  runtimes := h.runtimes
  mutex c' caller hc' hcaller := by
    rcases Lib.getElem?_set_cases hc' with ⟨rfl, rfl⟩ | ⟨-, hc'⟩
    · exact hlocked hcaller
    · exact h.mutex c' caller hc' hcaller
  callers c' caller hc' := by
    have hkept : caller.Shown s := by
      rcases Lib.getElem?_set_cases hc' with ⟨rfl, rfl⟩ | ⟨-, hc'⟩
      · exact hshown
      · exact h.callers c' caller hc'
    exact hkept.steady ⟨rfl, fun _ => rfl, fun _ _ => Iff.rfl, Nat.le_refl _⟩
  owner := h.owner
  stored := by
    refine ⟨h.stored.increasing, fun x hx => ?_, h.stored.roots, h.stored.current, h.stored.bounded⟩
    refine (h.stored.generation x hx).imp_right fun ⟨c', before, hc'⟩ => ⟨c', before, ?_⟩
    by_cases heq : c' = c
    · subst heq
      exact absurd (Option.some.inj (hc.symm.trans hc')) (hrecord _ _ _)
    · exact (List.getElem?_set_ne (Ne.symm heq)).trans hc'

/-- A step without the mutex, on the activations. -/
theorem WellFormed.steady (h : s.WellFormed) (hsteady : Steady s t)
    (hruntimes : ∀ (a : Nat) r, t.runtimes[a]? = some r → r.Kept (t.owner.remaining a))
    (howner : t.owner.Shown t) (hmutex : t.publicationMutex = s.publicationMutex)
    (hcallers : t.callers = s.callers) (hstored : t.stored = s.stored) : t.WellFormed where
  runtimes := hruntimes
  mutex c caller hc hlocked := hmutex ▸ h.mutex c caller (hcallers ▸ hc) hlocked
  callers c caller hc := (h.callers c caller (hcallers ▸ hc)).steady hsteady
  owner := howner
  stored := by
    have hkept := h.stored
    refine ⟨hstored ▸ hkept.increasing, fun x hx => ?_, hstored ▸ hkept.roots, fun x hx hopen => ?_,
      fun x hx => ?_⟩
    · rw [hsteady.lastGeneration, hcallers]
      exact hkept.generation x (hstored ▸ hx)
    · have hx := hstored ▸ hx
      rw [hsteady.snapshot]
      exact hkept.current x hx ((hsteady.opened _ (hkept.bounded x hx)).1 hopen)
    · exact Nat.lt_of_lt_of_le (hkept.bounded x (hstored ▸ hx)) hsteady.length

omit [DoubleOps F] in
theorem shown_setRuntime {o : Owner F} (h : o.Shown s) (hr : s.runtimes[a]? = some r)
    (hlive : r'.live = r.live) : o.Shown (s.setRuntime a r') := by
  have hdead : ∀ {b}, s.Dead b → (s.setRuntime a r').Dead b :=
    fun h => dead_setRuntime hr (fun hr => hlive.trans hr) h
  cases o with
  | closeLock => exact hdead h
  | closeSnapshot | closeActions | closeNotifications | closeUnlock => exact ⟨h.1, hdead h.2⟩
  | idle | enableLoad | enableLive | enableMake | enableStore | disableLoad | disableLive | closeLoad
  | closeExchange | popLoad | popLocked | drainLoad | drain => trivial

/-- A locked section on the queues of an activation. -/
theorem WellFormed.setRuntime (h : s.WellFormed) (hr : s.runtimes[a]? = some r)
    (hsnapshot : r'.snapshot = r.snapshot) (hlive : r'.live = r.live)
    (hkept : r'.Kept (s.owner.remaining a)) : (s.setRuntime a r').WellFormed := by
  refine h.steady (steady_setRuntime hr hsnapshot hlive) (fun b x hx => ?_)
    (shown_setRuntime h.owner hr hlive) rfl rfl rfl
  rcases getElem?_setRuntime_cases hx with ⟨rfl, rfl⟩ | ⟨-, hx⟩
  · exact hkept
  · exact h.runtimes b x hx

/-- The mutex changes hands while nobody is inside. -/
theorem WellFormed.setMutex (h : s.WellFormed) (m : Option Holder)
    (hfree : ∀ (c : Nat) caller, s.callers[c]? = some caller → caller.locked = false)
    (howner : s.publicationMutex ≠ some .owner) :
    ({ s with publicationMutex := m } : Bridge F).WellFormed := by
  have hshown : s.owner.Shown ({ s with publicationMutex := m } : Bridge F) := by
    have hold := h.owner
    cases hcase : s.owner with
    | closeSnapshot | closeActions | closeNotifications | closeUnlock =>
      rw [hcase] at hold
      exact absurd hold.1 howner
    | closeLock =>
      rw [hcase] at hold
      exact hold
    | idle | enableLoad | enableLive | enableMake | enableStore | disableLoad | disableLive | closeLoad
    | closeExchange | popLoad | popLocked | drainLoad | drain => trivial
  refine ⟨h.runtimes, fun c caller hc hlocked => ?_, fun c caller hc => ?_, hshown,
    h.stored.1, h.stored.2, h.stored.3, h.stored.4, h.stored.5⟩
  · rw [hfree c caller hc] at hlocked
    cases hlocked
  · exact (h.callers c caller hc).unlocked (hfree c caller hc)

/-- Nobody is in the critical section of a free mutex. -/
theorem WellFormed.free (h : s.WellFormed) (hmutex : ∀ c, s.publicationMutex ≠ some (.caller c))
    (c : Nat) (caller : Caller F) (hc : s.callers[c]? = some caller) : caller.locked = false := by
  by_contra hlocked
  exact hmutex c (h.mutex c caller hc (by simpa using hlocked))

theorem WellFormed.acquire (h : s.WellFormed) (hc : s.callers[c]? = some old)
    (hmutex : s.publicationMutex = none) (hshown : new.Shown s)
    (hrecord : ∀ a p before, old ≠ .publish (.record a p before)) :
    ({ s with publicationMutex := some (.caller c) }.setCaller c new).WellFormed := by
  have htaken := h.setMutex (some (.caller c)) (h.free (by simp [hmutex])) (by simp [hmutex])
  refine htaken.setCaller hc ?_ (fun _ => rfl) hrecord
  exact hshown.steady ⟨rfl, fun _ => rfl, fun _ _ => Iff.rfl, Nat.le_refl _⟩

theorem WellFormed.release (h : s.WellFormed) (hc : s.callers[c]? = some old)
    (hlocked : old.locked = true) (hnew : new.locked = false) (hshown : new.Shown s)
    (hrecord : ∀ a p before, old ≠ .publish (.record a p before)) :
    ({ s with publicationMutex := none }.setCaller c new).WellFormed := by
  have hnext := h.setCaller hc hshown (fun h => by rw [hnew] at h; cases h) hrecord
  refine hnext.setMutex none (fun c' caller hc' => ?_) ?_
  · rcases Lib.getElem?_set_cases hc' with ⟨-, rfl⟩ | ⟨hne, hc'⟩
    · exact hnew
    · by_contra hother
      exact hne (h.exclusive hc hlocked hc' (by simpa using hother))
  · show s.publicationMutex ≠ some .owner
    rw [h.mutex c old hc hlocked]
    simp

/-- What was published before is older than a candidate about to be stored. -/
theorem WellFormed.generation_le (h : s.WellFormed) (hc : s.callers[c]? = some old)
    (hlocked : old.locked = true) (hrecord : ∀ a p before, old ≠ .publish (.record a p before)) :
    ∀ x ∈ s.stored, x.2.storage.generation ≤ s.lastGeneration := by
  intro x hx
  rcases h.stored.generation x hx with hle | ⟨c', before, hc'⟩
  · exact hle
  · obtain rfl := h.exclusive hc hlocked hc' rfl
    exact absurd (Option.some.inj (hc.symm.trans hc')) (hrecord _ _ _)

omit [DoubleOps F] in
theorem Open.remaining (hopen : s.Open a) (hr : s.runtimes[a]? = some r) (hdead : r.live = false) :
    s.owner.remaining a = 3 := by
  obtain ⟨r', hr', hopen⟩ := hopen
  obtain rfl := Option.some.inj (hr.symm.trans hr')
  rw [hopen.resolve_left (by simp [hdead])]
  simp [Owner.remaining]

/-- The snapshot is stored. -/
theorem WellFormed.store (h : s.WellFormed)
    (hc : s.callers[c]? = some (.publish (.store a p before))) (hr : s.runtimes[a]? = some r) :
    (({ s with stored := s.stored ++ [(a, p)] }.setRuntime a { r with snapshot := some p }).setCaller
      c (.publish (.record a p before))).WellFormed := by
  obtain ⟨hprepared, hopen⟩ := h.callers c _ hc
  have hgeneration := h.generation_le hc rfl nofun
  have hnew : ({ s with stored := s.stored ++ [(a, p)] }.setRuntime a
      { r with snapshot := some p } : Bridge F).snapshot a = some p :=
    snapshot_setRuntime (s := { s with stored := s.stored ++ [(a, p)] }) hr
  have hopened : ∀ b, (s.setRuntime a { r with snapshot := some p }).Open b ↔ s.Open b :=
    open_setRuntime hr rfl
  have hset : ({ s with stored := s.stored ++ [(a, p)] }.setRuntime a
      { r with snapshot := some p } |>.setCaller c (.publish (.record a p before))).callers[c]? =
        some (.publish (.record a p before)) :=
    List.getElem?_set_self (List.getElem?_eq_some_iff.1 hc).1
  -- An earlier snapshot of the activation is the one that was loaded.
  have hroot : ∀ x ∈ s.stored, x.1 = a → x.2.storage.root = p.storage.root := by
    rintro x hx rfl
    obtain ⟨q, hq, hroot⟩ := h.stored.current x hx hopen
    rw [← hroot]
    exact hprepared.root q (hprepared.loaded.symm.trans hq)
  refine ⟨fun b x hx => ?_, fun c' caller hc' hlocked => ?_, fun c' caller hc' => ?_,
    shown_setRuntime h.owner hr rfl, ?_, fun x hx => ?_, ?_, fun x hx hx' => ?_, fun x hx => ?_⟩
  · rcases getElem?_setRuntime_cases hx with ⟨rfl, rfl⟩ | ⟨-, hx⟩
    · have hold := h.runtimes b r hr
      refine ⟨by simpa using hprepared.validated, hold.marked, fun hlive => ?_, fun hdead => ?_⟩
      · exact ⟨(hold.queued hlive).coalesced, (hold.queued hlive).next⟩
      · -- A dead activation is open only while the owner waits for the mutex.
        have hremaining := hopen.remaining hr hdead
        constructor <;> intro hn <;> exact absurd (hremaining ▸ hn : 3 < _) (by decide)
    · exact h.runtimes b x hx
  · rcases Lib.getElem?_set_cases hc' with ⟨rfl, -⟩ | ⟨-, hc'⟩
    · exact h.mutex c' _ hc rfl
    · exact h.mutex c' caller hc' hlocked
  · rcases Lib.getElem?_set_cases hc' with ⟨rfl, rfl⟩ | ⟨hne, hc'⟩
    · refine ⟨⟨hprepared.validated, fun q hq => ?_, hnew, (hopened a).2 hopen⟩, hprepared.generation⟩
      have hloaded := hprepared.loaded
      rw [snapshot, hr, Option.bind_some] at hloaded
      exact (h.runtimes a r hr).validated q (hloaded.symm ▸ hq)
    · refine (h.callers c' caller hc').unlocked ?_
      by_contra hlocked
      exact hne (h.exclusive hc rfl hc' (by simpa using hlocked))
  · refine List.pairwise_append.2 ⟨h.stored.increasing, List.pairwise_singleton _ _, fun x hx y hy => ?_⟩
    rw [List.mem_singleton.1 hy]
    exact UInt64.lt_of_le_of_lt (hgeneration x hx) hprepared.generation
  · rcases List.mem_append.1 hx with hx | hx
    · exact .inl (hgeneration x hx)
    · rw [List.mem_singleton.1 hx]
      exact .inr ⟨c, before, hset⟩
  · intro x hx y hy heq
    rcases List.mem_append.1 hx with hx | hx <;> rcases List.mem_append.1 hy with hy | hy
    · exact h.stored.roots x hx y hy heq
    · obtain rfl := List.mem_singleton.1 hy
      exact hroot x hx heq
    · obtain rfl := List.mem_singleton.1 hx
      exact (hroot y hy heq.symm).symm
    · rw [List.mem_singleton.1 hx, List.mem_singleton.1 hy]
  · by_cases heq : x.1 = a
    · refine ⟨p, heq ▸ hnew, ?_⟩
      rcases List.mem_append.1 hx with hx | hx
      · exact (hroot x hx heq).symm
      · rw [List.mem_singleton.1 hx]
    · rcases List.mem_append.1 hx with hx | hx
      · obtain ⟨q, hq, hroot⟩ := h.stored.current x hx ((hopened x.1).1 hx')
        exact ⟨q, (snapshot_setRuntime_ne heq).trans hq, hroot⟩
      · rw [List.mem_singleton.1 hx] at heq
        exact absurd rfl heq
  · show x.1 < (s.runtimes.set a _).length
    rw [List.length_set]
    rcases List.mem_append.1 hx with hx | hx
    · exact h.stored.bounded x hx
    · rw [List.mem_singleton.1 hx]
      exact hopen.lt

/-- The last generation is recorded. -/
theorem WellFormed.record (h : s.WellFormed)
    (hc : s.callers[c]? = some (.publish (.record a p before))) :
    ({ s with lastGeneration := p.storage.generation }.setCaller c
      (.publish (.diff a p before))).WellFormed := by
  obtain ⟨hstored, hlt⟩ := h.callers c _ hc
  refine ⟨h.runtimes, fun c' caller hc' hlocked => ?_, fun c' caller hc' => ?_, h.owner,
    h.stored.increasing, fun x hx => .inl ?_, h.stored.roots, h.stored.current, h.stored.bounded⟩
  · rcases Lib.getElem?_set_cases hc' with ⟨rfl, -⟩ | ⟨-, hc'⟩
    · exact h.mutex c' _ hc rfl
    · exact h.mutex c' caller hc' hlocked
  · rcases Lib.getElem?_set_cases hc' with ⟨rfl, rfl⟩ | ⟨hne, hc'⟩
    · exact ⟨hstored.validated, hstored.previous, hstored.snapshot, hstored.opened⟩
    · refine (h.callers c' caller hc').unlocked ?_
      by_contra hlocked
      exact hne (h.exclusive hc rfl hc' (by simpa using hlocked))
  · show x.2.storage.generation ≤ p.storage.generation
    rcases h.stored.generation x hx with hle | ⟨c', before', hc'⟩
    · exact UInt64.le_of_lt (UInt64.lt_of_le_of_lt hle hlt)
    · obtain rfl := h.exclusive hc rfl hc' rfl
      have heq := Option.some.inj (hc.symm.trans hc')
      cases heq
      exact UInt64.le_refl _

/-- The diff of a publication under its locks. -/
theorem WellFormed.diff (h : s.WellFormed) (hstored : s.Stored a p before)
    (hr : s.runtimes[a]? = some r) :
    (s.setRuntime a (r.queueDiff before p)).WellFormed ∧
      Runtime.NothingLost before p (r.queueDiff before p) := by
  have hkept := h.runtimes a r hr
  obtain ⟨hmarked, hlost⟩ :=
    Runtime.queueDiff_nothingLost hkept.marked hstored.previous hstored.validated
  refine ⟨h.setRuntime hr Runtime.same_queueDiff.snapshot Runtime.same_queueDiff.live ?_, hlost⟩
  refine hkept.notify Runtime.same_queueDiff hmarked fun hdead hn => ?_
  rw [hstored.opened.remaining hr hdead] at hn
  omega

theorem wellFormed_publishStep {stage : PublishStage F} {outcome : Io.Status} (h : s.WellFormed)
    (hc : s.callers[c]? = some (.publish stage)) (hs : s.publishStep c outcome stage = some t) :
    t.WellFormed := by
  have hshown := h.callers c _ hc
  cases stage with
  | load snapshot =>
    simp only [publishStep] at hs
    split at hs
    · cases hs
      exact h.setCaller hc trivial nofun nofun
    · cases hs
      exact h.setCaller hc trivial nofun nofun
  | live a snapshot =>
    obtain ⟨r, hr, hs⟩ := Option.bind_eq_some_iff.1 hs
    split at hs
    · cases hs
      exact h.setCaller hc trivial nofun nofun
    · cases hs
      exact h.setCaller hc trivial nofun nofun
  | validate a snapshot =>
    obtain ⟨r, hr, hs⟩ := Option.bind_eq_some_iff.1 hs
    obtain ⟨validation, hv, hs⟩ := Option.bind_eq_some_iff.1 hs
    split at hs
    · cases hs
      exact h.setCaller hc trivial nofun nofun
    · rename_i hok
      split at hs
      · cases hs
        exact h.setCaller hc trivial nofun nofun
      · cases hs
        exact h.setCaller hc ⟨snapshot, r.limits, _, validation, rfl, hv, by simpa using hok⟩ nofun nofun
  | lock a candidate =>
    simp only [publishStep] at hs
    split at hs
    · cases hs
    · rename_i hmutex
      cases hs
      exact h.acquire hc hmutex hshown nofun
  | liveLocked a candidate =>
    obtain ⟨r, hr, hs⟩ := Option.bind_eq_some_iff.1 hs
    have hmutex := h.mutex c _ hc rfl
    split at hs
    · cases hs
      exact h.setCaller hc trivial (fun _ => hmutex) nofun
    · cases hs
      exact h.setCaller hc hshown (fun _ => hmutex) nofun
  | generation a candidate =>
    have hmutex := h.mutex c _ hc rfl
    simp only [publishStep] at hs
    split at hs
    · cases hs
      exact h.setCaller hc trivial (fun _ => hmutex) nofun
    · rename_i hlt
      cases hs
      exact h.setCaller hc ⟨hshown, UInt64.not_le.1 hlt⟩ (fun _ => hmutex) nofun
  | root a candidate =>
    obtain ⟨r, hr, hs⟩ := Option.bind_eq_some_iff.1 hs
    have hmutex := h.mutex c _ hc rfl
    split at hs
    · cases hs
      exact h.setCaller hc trivial (fun _ => hmutex) nofun
    · rename_i hroot
      cases hs
      refine h.setCaller hc ⟨hshown.1, hshown.2, fun q hq => ?_, ?_⟩ (fun _ => hmutex) nofun
      · simp only [Option.any_eq_true, not_exists, not_and, decide_eq_true_eq, not_not] at hroot
        exact hroot q hq
      · rw [snapshot, hr, Option.bind_some]
  | prepare a candidate before =>
    have hmutex := h.mutex c _ hc rfl
    simp only [publishStep] at hs
    split at hs
    · cases hs
      exact h.setCaller hc trivial (fun _ => hmutex) nofun
    · cases hs
      exact h.setCaller hc hshown (fun _ => hmutex) nofun
  | liveAgain a candidate before =>
    obtain ⟨r, hr, hs⟩ := Option.bind_eq_some_iff.1 hs
    have hmutex := h.mutex c _ hc rfl
    split at hs
    · cases hs
      exact h.setCaller hc trivial (fun _ => hmutex) nofun
    · rename_i hlive
      cases hs
      exact h.setCaller hc ⟨hshown, r, hr, .inl (by simpa using hlive)⟩ (fun _ => hmutex) nofun
  | store a candidate before =>
    obtain ⟨r, hr, hs⟩ := Option.bind_eq_some_iff.1 hs
    cases hs
    exact h.store hc hr
  | record a candidate before =>
    cases hs
    exact h.record hc
  | diff a candidate before =>
    obtain ⟨r, hr, hs⟩ := Option.bind_eq_some_iff.1 hs
    cases hs
    exact (h.diff hshown hr).1.setCaller hc trivial
      (fun _ => h.mutex c _ hc rfl) nofun
  | unlock status =>
    cases hs
    exact h.release hc rfl rfl trivial nofun

theorem wellFormed_announceStep {stage : AnnounceStage F} {outcome : Io.Status} (h : s.WellFormed)
    (hc : s.callers[c]? = some (.announce stage)) (hs : s.announceStep c outcome stage = some t) :
    t.WellFormed := by
  have hmove : ∀ new : Caller F, new.locked = false → new.Shown s → (s.setCaller c new).WellFormed :=
    fun new hlocked hnew => h.setCaller hc hnew (fun hl => by rw [hlocked] at hl; cases hl) nofun
  cases stage with
  | load announcement =>
    simp only [announceStep] at hs
    split at hs <;> cases hs <;> exact hmove _ rfl trivial
  | live a announcement =>
    obtain ⟨r, hr, hs⟩ := Option.bind_eq_some_iff.1 hs
    split at hs <;> cases hs <;> exact hmove _ rfl trivial
  | check a announcement =>
    obtain ⟨r, hr, hs⟩ := Option.bind_eq_some_iff.1 hs
    split_ifs at hs <;> cases hs <;> exact hmove _ rfl trivial
  | snapshot a announcement =>
    obtain ⟨r, hr, hs⟩ := Option.bind_eq_some_iff.1 hs
    split at hs
    · cases hs
      exact hmove _ rfl trivial
    · dsimp only at hs
      split at hs
      · cases hs
        exact hmove _ rfl trivial
      · split_ifs at hs <;> cases hs <;> exact hmove _ rfl trivial
  | push a snapshot id announcement =>
    obtain ⟨r, hr, hs⟩ := Option.bind_eq_some_iff.1 hs
    cases hs
    have hkept := h.runtimes a r hr
    have hsame : r.SameActions (r.pushAnnouncement snapshot id announcement).2 :=
      Runtime.same_pushAnnouncement
    refine (h.setRuntime hr hsame.snapshot hsame.live ?_).setCaller hc trivial nofun nofun
    refine hkept.notify hsame (Runtime.marked_pushAnnouncement hkept.marked) fun hdead hn => ?_
    rw [Runtime.pushAnnouncement_dead hdead]
    exact (hkept.cleared hdead).notifications hn

theorem wellFormed_submitStep {stage : SubmitStage F} (h : s.WellFormed)
    (hc : s.callers[c]? = some (.submit stage)) (hs : s.submitStep c stage = some t) :
    t.WellFormed := by
  have hshown := h.callers c _ hc
  cases stage with
  | live a request =>
    obtain ⟨r, hr, hs⟩ := Option.bind_eq_some_iff.1 hs
    split at hs <;> cases hs <;> exact h.setCaller hc trivial nofun nofun
  | snapshot a request =>
    obtain ⟨r, hr, hs⟩ := Option.bind_eq_some_iff.1 hs
    cases hs
    exact h.setCaller hc (h.runtimes a r hr).validated nofun nofun
  | check a loaded request =>
    obtain ⟨r, hr, hs⟩ := Option.bind_eq_some_iff.1 hs
    split at hs
    · cases hs
      exact h.setCaller hc trivial nofun nofun
    · rename_i hcheck
      cases hs
      exact h.setCaller hc (checkAction_text hshown hcheck).2 nofun nofun
  | commit a snapshot request =>
    obtain ⟨r, hr, hs⟩ := Option.bind_eq_some_iff.1 hs
    cases hs
    have hsame : r.SameNotifications (r.commitAction snapshot request).2 := Runtime.same_commitAction
    exact (h.setRuntime hr hsame.snapshot hsame.live (h.runtimes a r hr).commitAction).setCaller hc
      trivial nofun nofun

theorem wellFormed_invalidateStep {stage : InvalidateStage} (h : s.WellFormed)
    (hc : s.callers[c]? = some (.invalidate stage)) (hs : s.invalidateStep c stage = some t) :
    t.WellFormed := by
  cases stage with
  | load focusGained =>
    simp only [invalidateStep] at hs
    split at hs <;> cases hs <;> exact h.setCaller hc trivial nofun nofun
  | live a focusGained =>
    obtain ⟨r, hr, hs⟩ := Option.bind_eq_some_iff.1 hs
    split at hs <;> cases hs <;> exact h.setCaller hc trivial nofun nofun
  | locked a focusGained =>
    obtain ⟨r, hr, hs⟩ := Option.bind_eq_some_iff.1 hs
    cases hs
    have hkept := h.runtimes a r hr
    have hsame : r.SameActions (r.invalidateHost focusGained) := Runtime.same_invalidateHost
    refine (h.setRuntime hr hsame.snapshot hsame.live ?_).setCaller hc trivial nofun nofun
    refine hkept.notify hsame (Runtime.marked_invalidateHost hkept.marked) fun hdead hn => ?_
    rw [Runtime.invalidateHost_dead hdead]
    exact (hkept.cleared hdead).notifications hn

/-! ## The owner -/

/-- The owner moves on outside a closing. -/
theorem WellFormed.setOwner {o : Owner F} (h : s.WellFormed) (hold : s.owner.plain = true)
    (hnew : o.plain = true) : (s.setOwner o).WellFormed := by
  have hclose : ∀ {o : Owner F}, o.plain = true → ∀ b, o ≠ .closeLock b := by
    rintro o ho b rfl
    cases ho
  refine h.steady ⟨rfl, fun _ => rfl, fun b _ => ?_, Nat.le_refl _⟩ (fun b x hx => ?_) ?_ rfl rfl rfl
  · have hopen : ∀ r : Runtime F, (r.live = true ∨ o = .closeLock b) ↔
        (r.live = true ∨ s.owner = .closeLock b) :=
      fun r => or_congr_right (iff_of_false (hclose hnew b) (hclose hold b))
    exact exists_congr fun r => and_congr_right fun _ => hopen r
  · show x.Kept (o.remaining b)
    rw [Owner.remaining_plain hnew, ← Owner.remaining_plain hold b]
    exact h.runtimes b x hx
  · show o.Shown _
    cases o <;> trivial

/-- A new activation. -/
theorem WellFormed.enable (h : s.WellFormed) (hold : s.owner.plain = true) {limits : Limits}
    {features : Features} (hlimits : validLimits limits = true) :
    ({ s with
      runtimes := s.runtimes ++ [Runtime.create limits features hlimits]
      runtime := some s.runtimes.length } : Bridge F).WellFormed := by
  have hget : ∀ {b : Nat} {x : Runtime F},
      (s.runtimes ++ [Runtime.create limits features hlimits])[b]? = some x →
        s.runtimes[b]? = some x ∨ x = Runtime.create limits features hlimits := by
    intro b x hx
    rcases Nat.lt_or_ge b s.runtimes.length with hlt | hge
    · rw [List.getElem?_append_left hlt] at hx
      exact .inl hx
    · rw [List.getElem?_append_right hge, List.getElem?_singleton] at hx
      split at hx
      · exact .inr (Option.some.inj hx).symm
      · cases hx
  refine h.steady ⟨rfl, fun b => ?_, fun b hb => ?_, by simp⟩ (fun b x hx => ?_) ?_ rfl rfl rfl
  · unfold snapshot
    rcases Nat.lt_trichotomy b s.runtimes.length with hlt | rfl | hgt
    · rw [List.getElem?_append_left hlt]
    · simp [Runtime.create]
    · rw [List.getElem?_eq_none (by simp; omega), List.getElem?_eq_none (by omega)]
  · unfold Open
    rw [List.getElem?_append_left hb]
  · rcases hget hx with hx | rfl
    · exact h.runtimes b x hx
    · refine ⟨by simp [Runtime.create], ?_, fun _ => Runtime.queued_create, (fun h => by cases h)⟩
      simp [Runtime.Marked, Runtime.create]
  · show s.owner.Shown _
    cases howner : s.owner <;> first | trivial | (rw [howner] at hold; cases hold)

/-- The live flag is cleared. -/
theorem WellFormed.exchange (h : s.WellFormed) (howner : s.owner = .closeExchange a)
    (hr : s.runtimes[a]? = some r) (hlive : r.live = true) :
    ((s.setRuntime a { r with live := false }).setOwner (.closeLock a)).WellFormed := by
  have hset : (s.setRuntime a { r with live := false }).runtimes[a]? =
      some { r with live := false } := getElem?_setRuntime hr
  refine h.steady ⟨rfl, fun b => ?_, fun b _ => ?_, ?_⟩ (fun b x hx => ?_) ⟨_, hset, rfl⟩ rfl rfl rfl
  · by_cases hb : b = a
    · subst hb
      exact (snapshot_setRuntime hr).trans (by rw [snapshot, hr]; rfl)
    · exact snapshot_setRuntime_ne hb
  · by_cases hb : b = a
    · subst hb
      exact iff_of_true ⟨_, hset, .inr rfl⟩ ⟨r, hr, .inl hlive⟩
    · unfold Open
      show (∃ x, (s.setRuntime a _).runtimes[b]? = some x ∧ (x.live = true ∨ Owner.closeLock a = .closeLock b)) ↔ _
      rw [getElem?_setRuntime_ne hb, howner]
      simp [Ne.symm hb]
  · exact Nat.le_of_eq List.length_set.symm
  · rcases getElem?_setRuntime_cases hx with ⟨rfl, rfl⟩ | ⟨hne, hx⟩
    · have hold := h.runtimes b r hr
      refine ⟨hold.validated, hold.marked, nofun, fun _ => ?_⟩
      show ({ r with live := false } : Runtime F).Cleared (Owner.remaining b (.closeLock b))
      constructor <;> intro hn <;> simp [Owner.remaining] at hn
    · have hold := h.runtimes b x hx
      rw [howner] at hold
      show x.Kept (Owner.remaining b (.closeLock a))
      simpa [Owner.remaining, Ne.symm hne] using hold

/-- The owner has the mutex. -/
theorem WellFormed.lock (h : s.WellFormed) (howner : s.owner = .closeLock a)
    (hmutex : s.publicationMutex = none) :
    ({ s with publicationMutex := some .owner }.setOwner (.closeSnapshot a)).WellFormed := by
  have hfree := h.free (by simp [hmutex])
  have hold := h.owner
  rw [howner] at hold
  refine ⟨fun b x hx => ?_, fun c caller hc hlocked => ?_, fun c caller hc => ?_, ⟨rfl, hold⟩,
    h.stored.increasing, h.stored.generation, h.stored.roots, fun x hx hopen => ?_, h.stored.bounded⟩
  · have hkept := h.runtimes b x hx
    rw [howner] at hkept
    exact hkept
  · rw [hfree c caller hc] at hlocked
    cases hlocked
  · exact (h.callers c caller hc).unlocked (hfree c caller hc)
  · obtain ⟨r, hr, hlive⟩ := hopen
    exact h.stored.current x hx ⟨r, hr, .inl (hlive.resolve_right nofun)⟩

/-- A step of the clearing, under the mutex. -/
theorem WellFormed.clear {o : Owner F} (h : s.WellFormed)
    (hmutex : s.publicationMutex = some .owner) (hdead : s.Dead a) (hr : s.runtimes[a]? = some r)
    (hlive : r'.live = r.live) (hkept : r'.Kept (o.remaining a))
    (hremaining : ∀ b, b ≠ a → o.remaining b = s.owner.remaining b)
    (hshown : s.publicationMutex = some .owner → s.Dead a → o.Shown s)
    (hclose : ∀ b, s.owner ≠ .closeLock b ∧ o ≠ .closeLock b) :
    ((s.setRuntime a r').setOwner o).WellFormed := by
  have hfree := h.free (by simp [hmutex])
  have hopened : ∀ b, ((s.setRuntime a r').setOwner o).Open b → b ≠ a ∧ s.Open b := by
    rintro b ⟨x, hx, hopen⟩
    replace hopen := hopen.resolve_right (hclose b).2
    rcases getElem?_setRuntime_cases hx with ⟨rfl, rfl⟩ | ⟨hne, hx⟩
    · obtain ⟨y, hy, hdead⟩ := hdead
      obtain rfl := Option.some.inj (hr.symm.trans hy)
      rw [hlive, hdead] at hopen
      cases hopen
    · exact ⟨hne, x, hx, .inl hopen⟩
  refine ⟨fun b x hx => ?_, fun c caller hc hlocked => ?_, fun c caller hc => ?_,
    shown_setRuntime (hshown hmutex hdead) hr hlive,
    h.stored.increasing, h.stored.generation, h.stored.roots, fun x hx hopen => ?_, fun x hx => ?_⟩
  · rcases getElem?_setRuntime_cases hx with ⟨rfl, rfl⟩ | ⟨hne, hx⟩
    · exact hkept
    · have hold := h.runtimes b x hx
      rw [← hremaining b hne] at hold
      exact hold
  · rw [hfree c caller hc] at hlocked
    cases hlocked
  · exact (h.callers c caller hc).unlocked (hfree c caller hc)
  · obtain ⟨hne, hopen⟩ := hopened x.1 hopen
    obtain ⟨q, hq, hroot⟩ := h.stored.current x hx hopen
    exact ⟨q, (snapshot_setRuntime_ne hne).trans hq, hroot⟩
  · exact Nat.lt_of_lt_of_eq (h.stored.bounded x hx) List.length_set.symm

/-- The closing returns. -/
theorem WellFormed.unlock (h : s.WellFormed) (howner : s.owner = .closeUnlock a) :
    ({ s with publicationMutex := none }.setOwner .idle).WellFormed := by
  have hold := h.owner
  rw [howner] at hold
  have hfree := h.free (by simp [hold.1])
  refine ⟨fun b x hx => ?_, fun c caller hc hlocked => ?_, fun c caller hc => ?_, trivial,
    h.stored.increasing, h.stored.generation, h.stored.roots, fun x hx hopen => ?_, h.stored.bounded⟩
  · have hkept := h.runtimes b x hx
    rw [howner] at hkept
    exact hkept
  · rw [hfree c caller hc] at hlocked
    cases hlocked
  · exact (h.callers c caller hc).unlocked (hfree c caller hc)
  · obtain ⟨r, hr, hlive⟩ := hopen
    exact h.stored.current x hx ⟨r, hr, .inl (hlive.resolve_right nofun)⟩

omit [DoubleOps F] in
theorem Dead.live (h : s.Dead a) (hr : s.runtimes[a]? = some r) : r.live = false := by
  obtain ⟨x, hx, hdead⟩ := h
  obtain rfl := Option.some.inj (hr.symm.trans hx)
  exact hdead

theorem wellFormed_ownerStep {outcome : Io.Status} (h : s.WellFormed)
    (hs : s.ownerStep outcome s.owner = some t) : t.WellFormed := by
  have hshown := h.owner
  have hplain : s.owner.plain = true → ∀ o : Owner F, o.plain = true → (s.setOwner o).WellFormed :=
    fun hold o ho => h.setOwner hold ho
  cases howner : s.owner with
  | idle =>
    rw [howner] at hs
    cases hs
  | enableLoad limits features =>
    rw [howner] at hs hplain
    simp only [ownerStep] at hs
    split at hs <;> cases hs <;> exact hplain rfl _ rfl
  | enableLive a limits features =>
    rw [howner] at hs hplain
    obtain ⟨r, hr, hs⟩ := Option.bind_eq_some_iff.1 hs
    split at hs <;> cases hs <;> exact hplain rfl _ rfl
  | enableMake limits features =>
    rw [howner] at hs hplain
    simp only [ownerStep] at hs
    split_ifs at hs <;> cases hs <;> exact hplain rfl _ rfl
  | enableStore limits features hlimits =>
    rw [howner] at hs
    cases hs
    exact (h.enable (by rw [howner]; rfl) hlimits).setOwner (by rw [howner]; rfl) rfl
  | disableLoad =>
    rw [howner] at hs hplain
    simp only [ownerStep] at hs
    split at hs <;> cases hs <;> exact hplain rfl _ rfl
  | disableLive a =>
    rw [howner] at hs hplain
    obtain ⟨r, hr, hs⟩ := Option.bind_eq_some_iff.1 hs
    split at hs <;> cases hs <;> exact hplain rfl _ rfl
  | closeLoad =>
    rw [howner] at hs hplain
    simp only [ownerStep] at hs
    split at hs <;> cases hs <;> exact hplain rfl _ rfl
  | closeExchange a =>
    rw [howner] at hs hplain
    obtain ⟨r, hr, hs⟩ := Option.bind_eq_some_iff.1 hs
    split at hs
    · cases hs
      exact hplain rfl _ rfl
    · rename_i hlive
      cases hs
      exact h.exchange howner hr (by simpa using hlive)
  | closeLock a =>
    rw [howner] at hs
    simp only [ownerStep] at hs
    split at hs
    · cases hs
    · rename_i hmutex
      cases hs
      exact h.lock howner hmutex
  | closeSnapshot a =>
    rw [howner] at hs hshown
    obtain ⟨r, hr, hs⟩ := Option.bind_eq_some_iff.1 hs
    cases hs
    have hkept := h.runtimes a r hr
    refine h.clear hshown.1 hshown.2 hr rfl ?_ (fun b hb => ?_) And.intro (by simp [howner])
    · have hdead := hshown.2.live hr
      refine .of_dead hdead nofun hkept.marked ⟨fun _ => rfl, ?_, ?_⟩ <;>
        simp [Owner.remaining]
    · simp [howner, Owner.remaining, Ne.symm hb]
  | closeActions a =>
    rw [howner] at hs hshown
    obtain ⟨r, hr, hs⟩ := Option.bind_eq_some_iff.1 hs
    cases hs
    have hkept := h.runtimes a r hr
    rw [howner] at hkept
    refine h.clear hshown.1 hshown.2 hr rfl ?_ (fun b hb => ?_) And.intro (by simp [howner])
    · have hdead := hshown.2.live hr
      have hcleared := hkept.cleared hdead
      refine .of_dead hdead hkept.validated hkept.marked
        ⟨fun _ => hcleared.snapshot ?_, fun _ => Lib.Ring.contents_clear, ?_⟩ <;> simp [Owner.remaining]
    · simp [howner, Owner.remaining, Ne.symm hb]
  | closeNotifications a =>
    rw [howner] at hs hshown
    obtain ⟨r, hr, hs⟩ := Option.bind_eq_some_iff.1 hs
    cases hs
    have hkept := h.runtimes a r hr
    rw [howner] at hkept
    refine h.clear hshown.1 hshown.2 hr rfl ?_ (fun b hb => ?_) And.intro (by simp [howner])
    · have hdead := hshown.2.live hr
      have hcleared := hkept.cleared hdead
      refine .of_dead hdead hkept.validated Runtime.marked_clearNotifications
        ⟨fun _ => hcleared.snapshot ?_, fun _ => hcleared.actions ?_, fun _ => Lib.Ring.contents_clear⟩ <;>
          simp [Owner.remaining]
    · simp [howner, Owner.remaining, Ne.symm hb]
  | closeUnlock a =>
    rw [howner] at hs
    cases hs
    exact h.unlock howner
  | popLoad =>
    rw [howner] at hs hplain
    simp only [ownerStep] at hs
    split at hs <;> cases hs <;> exact hplain rfl _ rfl
  | popLocked a =>
    rw [howner] at hs hplain
    obtain ⟨r, hr, hs⟩ := Option.bind_eq_some_iff.1 hs
    split at hs
    · cases hs
      exact hplain rfl _ rfl
    · rename_i hpop
      cases hs
      have hsame := Runtime.same_popAction hpop
      exact (h.setRuntime hr hsame.snapshot hsame.live ((h.runtimes a r hr).popAction hpop)).setOwner
        (congrArg Owner.plain howner) rfl
  | drainLoad =>
    rw [howner] at hs hplain
    simp only [ownerStep] at hs
    split at hs
    · cases hs
      exact hplain rfl _ rfl
    · obtain ⟨r, hr, hs⟩ := Option.bind_eq_some_iff.1 hs
      cases hs
      exact hplain rfl _ rfl
  | drain a remaining =>
    rw [howner] at hs hplain
    cases remaining with
    | zero =>
      cases hs
      exact hplain rfl _ rfl
    | succ remaining =>
      obtain ⟨r, hr, hs⟩ := Option.bind_eq_some_iff.1 hs
      split at hs
      · cases hs
        exact hplain rfl _ rfl
      · rename_i hdrain
        cases hs
        have hsame := Runtime.same_drainNotification hdrain
        have hkept := h.runtimes a r hr
        refine (h.setRuntime hr hsame.snapshot hsame.live ?_).setOwner (congrArg Owner.plain howner) rfl
        refine hkept.notify hsame (Runtime.marked_drainNotification hkept.marked hdrain) fun hdead _ => ?_
        rw [Runtime.drainNotification_dead hdead] at hdrain
        cases hdrain

/-! ## Runs -/

theorem wellFormed_initial (n : Nat) : (initial n : Bridge F).WellFormed := by
  have hidle : ∀ (c : Nat) (caller : Caller F), (initial n).callers[c]? = some caller →
      caller = .idle := by
    intro c caller hc
    exact List.eq_of_mem_replicate (List.mem_of_getElem? hc)
  refine ⟨nofun, fun c caller hc hlocked => ?_, fun c caller hc => ?_, trivial, .nil, nofun, nofun,
    nofun, nofun⟩
  · rw [hidle c caller hc] at hlocked
    cases hlocked
  · rw [hidle c caller hc]
    trivial

theorem wellFormed_bridgeStep {action : BridgeAction F} (h : s.WellFormed)
    (hs : s.bridgeStep action = some t) : t.WellFormed := by
  cases action with
  | call c call =>
    obtain ⟨caller, hc, hs⟩ := Option.bind_eq_some_iff.1 hs
    split at hs
    · rename_i hready
      cases hs
      have hrecord : ∀ a p before, caller ≠ .publish (.record a p before) := by
        rintro a p before rfl
        cases hready
      cases call with
      | publish | announce | submit | invalidate => exact h.setCaller hc trivial nofun hrecord
    · cases hs
  | step c outcome =>
    obtain ⟨caller, hc, hs⟩ := Option.bind_eq_some_iff.1 hs
    cases caller with
    | publish stage => exact wellFormed_publishStep h hc hs
    | announce stage => exact wellFormed_announceStep h hc hs
    | submit stage => exact wellFormed_submitStep h hc hs
    | invalidate stage => exact wellFormed_invalidateStep h hc hs
    | idle | published | announced | submitted | invalidated => cases hs
  | ownerCall call =>
    simp only [bridgeStep] at hs
    split at hs
    · rename_i howner
      cases hs
      cases call <;> exact h.setOwner (congrArg Owner.plain howner) rfl
    · cases hs
  | ownerStep outcome => exact wellFormed_ownerStep h hs
  | hostEnabled a enabled =>
    obtain ⟨r, hr, hs⟩ := Option.bind_eq_some_iff.1 hs
    cases hs
    have hkept := h.runtimes a r hr
    exact h.setRuntime hr rfl rfl (hkept.notify ⟨rfl, rfl, rfl, rfl, rfl⟩ hkept.marked
      fun hdead => (hkept.cleared hdead).notifications)

/-- The invariant holds in every state of every run. -/
theorem wellFormed_run {n : Nat} {tr : List (Lib.Transition (Bridge F) (BridgeAction F))}
    (h : Lib.Trace bridgeStep (.initial n) tr s) :
    s.WellFormed ∧ ∀ x ∈ tr, x.pre.WellFormed ∧ x.post.WellFormed :=
  h.invariant_of_step (wellFormed_initial n) fun _ _ _ hwf hs => wellFormed_bridgeStep hwf hs

end Bridge

end Desktop

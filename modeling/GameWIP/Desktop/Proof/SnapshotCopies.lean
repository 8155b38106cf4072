import GameWIP.Desktop.Proof.Bridge
import GameWIP.Desktop.Proof.SnapshotBuilder

/-!
# Snapshots survive their copies

`acceptedSnapshots_copied`: what the validation accepts under some limits is taken by a builder with
these limits in any order, is accepted again, and comes back from a publication and a copy; a call that
fails leaves the builder as it was.

A publication may interleave with steps of other threads that leave the activation, its live flag and
its snapshot alone (`Quiet`); `Publishes` says what the call has reached.
-/

namespace Desktop

open Lib (Trace Transition)

variable {F : Type}

/-! ## The published storage -/

/-- The copies that `publish` stores are the nodes it was given. -/
theorem publishedStorage_view (snapshot : SnapshotView F) :
    (publishedStorage snapshot).view = (publishedSnapshot snapshot).storage ∧
      ∀ owned ∈ (publishedStorage snapshot).owned, owned.Owns := by
  have hnode : ((·.node) ∘ OwnedAccessibilityNode.ofNode : Node F → Node F) = id :=
    funext fun node => (OwnedAccessibilityNode.ofNode_spec node).1
  constructor
  · simp [publishedStorage, SnapshotBuilderState.view, publishedSnapshot, hnode]
  · intro owned howned
    obtain ⟨node, -, rfl⟩ := List.mem_map.1 howned
    exact (OwnedAccessibilityNode.ofNode_spec node).2

/-! ## Publications -/

namespace Bridge

variable {s t : Bridge F} {a c : Nat} {r r' : Runtime F} {outcome : Io.Status}
  {snapshot : SnapshotView F} {tr : List (Transition (Bridge F) (BridgeAction F))}

/-- The live flag and the snapshot of an activation. -/
def visible (s : Bridge F) (a : Nat) : Option (Bool × Option (PublishedSnapshot F)) :=
  s.runtimes[a]?.map fun r => (r.live, r.snapshot)

theorem readSnapshot_eq (s : Bridge F) : s.readSnapshot =
    s.runtime.bind fun a => (s.visible a).bind fun r => if r.1 then r.2 else none := by
  unfold readSnapshot visible
  cases s.runtime with
  | none => rfl
  | some a => cases h : s.runtimes[a]? <;> simp [h]

/-- The step leaves what readers see alone. -/
structure Quiet (x : Transition (Bridge F) (BridgeAction F)) : Prop where
  runtime : x.post.runtime = x.pre.runtime
  visible : ∀ a, x.post.visible a = x.pre.visible a

/-- How far the publication of a snapshot has come. -/
def Publishes (s : Bridge F) (snapshot : SnapshotView F) : Caller F → Prop
  | .publish (.load v) => v = snapshot
  | .publish (.live a v) | .publish (.validate a v) => v = snapshot ∧ s.runtime = some a
  | .publish (.lock a p) | .publish (.liveLocked a p) | .publish (.generation a p)
  | .publish (.root a p) | .publish (.prepare a p _) | .publish (.liveAgain a p _) =>
    p = publishedSnapshot snapshot ∧ s.runtime = some a
  | .publish (.store a p _) => p = publishedSnapshot snapshot ∧ s.runtime = some a ∧
    ∃ before, s.visible a = some (true, before)
  | .publish (.record a p _) | .publish (.diff a p _) => s.runtime = some a ∧
    s.visible a = some (true, some (publishedSnapshot snapshot)) ∧ p = publishedSnapshot snapshot
  | .publish (.unlock status) | .published status =>
    status.ok = true → s.readSnapshot = some (publishedSnapshot snapshot)
  | _ => False

theorem Publishes.congr {caller : Caller F} (h : s.Publishes snapshot caller)
    (hruntime : t.runtime = s.runtime) (hvisible : ∀ a, t.visible a = s.visible a) :
    t.Publishes snapshot caller := by
  have hread : t.readSnapshot = s.readSnapshot := by
    simp only [readSnapshot_eq, hruntime, hvisible]
  have hstore : ∀ b : Nat, (∃ before : Option (PublishedSnapshot F), t.visible b = some (true, before)) ↔
      ∃ before, s.visible b = some (true, before) := fun b => by rw [hvisible b]
  cases caller with
  | publish stage =>
    cases stage with
    | load | live | validate | lock | liveLocked | generation | root | prepare | liveAgain | store
    | record | diff | unlock =>
      simpa only [Publishes, hruntime, hvisible, hstore, hread] using h
  | published => simpa only [Publishes, hread] using h
  | idle | announce | submit | invalidate | announced | submitted | invalidated => exact h

theorem visible_setRuntime (hr : s.runtimes[a]? = some r) (b : Nat) :
    (s.setRuntime a r').visible b = if b = a then some (r'.live, r'.snapshot) else s.visible b := by
  unfold visible
  split
  · rename_i heq
    subst heq
    rw [getElem?_setRuntime hr]
    rfl
  · rename_i hne
    rw [getElem?_setRuntime_ne hne]

variable [DoubleOps F]

theorem publishes_publishStep {stage : PublishStage F} (h : s.Publishes snapshot (.publish stage))
    (hs : s.publishStep c outcome stage = some t) :
    ∃ new, t.callers = s.callers.set c new ∧ t.Publishes snapshot new := by
  cases stage with
  | load v =>
    simp only [publishStep] at hs
    split at hs <;> cases hs
    · exact ⟨_, rfl, fun h => by cases h⟩
    · rename_i hruntime
      exact ⟨_, rfl, h, hruntime⟩
  | live a v =>
    obtain ⟨r, hr, hs⟩ := Option.bind_eq_some_iff.1 hs
    split at hs <;> cases hs
    · exact ⟨_, rfl, fun h => by cases h⟩
    · exact ⟨_, rfl, h⟩
  | validate a v =>
    obtain ⟨r, hr, hs⟩ := Option.bind_eq_some_iff.1 hs
    obtain ⟨validation, hv, hs⟩ := Option.bind_eq_some_iff.1 hs
    split_ifs at hs with hinvalid hfailed <;> cases hs
    · exact ⟨_, rfl, fun hok => absurd hok (by simpa [ValidationResult.ok] using hinvalid)⟩
    · exact ⟨_, rfl, fun hok => absurd hok (by simpa using hfailed)⟩
    · obtain ⟨rfl, hruntime⟩ := h
      exact ⟨_, rfl, rfl, hruntime⟩
  | lock a p =>
    simp only [publishStep] at hs
    split at hs <;> cases hs
    exact ⟨_, rfl, h⟩
  | liveLocked a p =>
    obtain ⟨r, hr, hs⟩ := Option.bind_eq_some_iff.1 hs
    split at hs <;> cases hs
    · exact ⟨_, rfl, fun h => by cases h⟩
    · exact ⟨_, rfl, h⟩
  | generation a p =>
    simp only [publishStep] at hs
    split at hs <;> cases hs
    · exact ⟨_, rfl, fun h => by cases h⟩
    · exact ⟨_, rfl, h⟩
  | root a p =>
    obtain ⟨r, hr, hs⟩ := Option.bind_eq_some_iff.1 hs
    split at hs <;> cases hs
    · exact ⟨_, rfl, fun h => by cases h⟩
    · exact ⟨_, rfl, h⟩
  | prepare a p before =>
    simp only [publishStep] at hs
    split at hs <;> cases hs
    · rename_i hfailed
      exact ⟨_, rfl, fun hok => absurd hok (by simpa using hfailed)⟩
    · exact ⟨_, rfl, h⟩
  | liveAgain a p before =>
    obtain ⟨r, hr, hs⟩ := Option.bind_eq_some_iff.1 hs
    split at hs <;> cases hs
    · exact ⟨_, rfl, fun h => by cases h⟩
    · rename_i hlive
      have hlive : r.live = true := by simpa using hlive
      have hvisible : s.visible a = some (true, r.snapshot) := by
        rw [visible, hr, Option.map_some, hlive]
      exact ⟨_, rfl, h.1, h.2, _, hvisible⟩
  | store a p before =>
    obtain ⟨r, hr, hs⟩ := Option.bind_eq_some_iff.1 hs
    cases hs
    obtain ⟨rfl, hruntime, before', hvisible⟩ := h
    have hlive : r.live = true := by
      rw [visible, hr] at hvisible
      exact (Prod.mk.inj (Option.some.inj hvisible)).1
    refine ⟨_, rfl, hruntime, ?_, rfl⟩
    refine (visible_setRuntime (s := { s with stored := _ }) hr a).trans ?_
    simp [hlive]
  | record a p before =>
    cases hs
    exact ⟨_, rfl, h⟩
  | diff a p before =>
    obtain ⟨r, hr, hs⟩ := Option.bind_eq_some_iff.1 hs
    cases hs
    obtain ⟨hruntime, hvisible, rfl⟩ := h
    have hlive : (r.live, r.snapshot) = (true, some (publishedSnapshot snapshot)) := by
      rw [visible, hr] at hvisible
      exact Option.some.inj hvisible
    have hsame : Runtime.SameActions r (r.queueDiff before (publishedSnapshot snapshot)) :=
      Runtime.same_queueDiff
    generalize r.queueDiff before (publishedSnapshot snapshot) = r' at hsame
    refine ⟨_, rfl, fun _ => ?_⟩
    show (s.setRuntime a r').readSnapshot = _
    have hruntime' : (s.setRuntime a r').runtime = some a := hruntime
    rw [readSnapshot_eq, hruntime', Option.bind_some, visible_setRuntime hr, if_pos rfl, hsame.live,
      hsame.snapshot, hlive]
    rfl
  | unlock status =>
    cases hs
    exact ⟨_, rfl, h⟩

/-- The publication of a snapshot that succeeds while the others are quiet is what readers see. -/
theorem readSnapshot_of_published {status : Io.Status} {caller : Caller F}
    (h : Trace bridgeStep s tr t) (hcall : ∀ x ∈ tr, ∀ call, x.action ≠ .call c call)
    (hquiet : ∀ x ∈ tr, OwnStep c x ∨ Quiet x) (hc : s.callers[c]? = some caller)
    (hpublishes : s.Publishes snapshot caller) (hend : t.callers[c]? = some (.published status))
    (hok : status.ok = true) : t.readSnapshot = some (publishedSnapshot snapshot) := by
  induction h generalizing caller with
  | nil s =>
    obtain rfl := Option.some.inj (hc.symm.trans hend)
    exact hpublishes hok
  | @cons s u t action tr hs _ ih =>
    obtain ⟨hcallFirst, hcallRest⟩ := List.forall_mem_cons.1 hcall
    obtain ⟨hfirst, hquietRest⟩ := List.forall_mem_cons.1 hquiet
    by_cases hown : OwnStep c ⟨s, action, u⟩
    · obtain ⟨outcome, rfl⟩ := hown
      obtain ⟨caller', hc', hs⟩ := Option.bind_eq_some_iff.1 hs
      obtain rfl := Option.some.inj (hc.symm.trans hc')
      cases caller with
      | publish stage =>
        obtain ⟨new, hcallers, hnew⟩ := publishes_publishStep hpublishes hs
        refine ih hcallRest hquietRest ?_ hnew hend
        rw [hcallers]
        exact List.getElem?_set_self (List.getElem?_eq_some_iff.1 hc).1
      | idle | published | announce | submit | invalidate | announced | submitted | invalidated =>
        first | cases hs | cases hpublishes
    · have hkept := callers_of_other (x := ⟨s, action, u⟩) hs hcallFirst hown
      have hx := hfirst.resolve_left hown
      exact ih hcallRest hquietRest (hkept.trans hc) (hpublishes.congr hx.runtime hx.visible) hend

/-- A caller publishes the snapshot with success, and what others do meanwhile is quiet. -/
def Published (s : Bridge F) (c : Nat) (snapshot : SnapshotView F) (t : Bridge F) : Prop :=
  ∃ u tr status, s.bridgeStep (.call c (.publish snapshot)) = some u ∧ Trace bridgeStep u tr t ∧
    (∀ x ∈ tr, ∀ call, x.action ≠ .call c call) ∧ (∀ x ∈ tr, OwnStep c x ∨ Quiet x) ∧
      t.callers[c]? = some (.published status) ∧ status.ok = true

theorem Published.readSnapshot (h : Published s c snapshot t) :
    t.readSnapshot = some (publishedSnapshot snapshot) := by
  obtain ⟨u, tr, status, hs, htrace, hcall, hquiet, hend, hok⟩ := h
  obtain ⟨caller, hc, hs⟩ := Option.bind_eq_some_iff.1 hs
  split at hs
  · have hbegun : u.callers[c]? = some (begin (.publish snapshot)) := by
      rw [← Option.some.inj hs]
      exact List.getElem?_set_self (List.getElem?_eq_some_iff.1 hc).1
    exact readSnapshot_of_published htrace hcall hquiet hbegun rfl hend hok
  · cases hs

/-- The call on its own. -/
theorem published_of_run {outcomes : List Io.Status} {status : Io.Status}
    {r : List (Transition (Bridge F) (BridgeAction F)) × Bridge F}
    (h : Lib.run bridgeStep s (.call c (.publish snapshot) :: outcomes.map (.step c)) = some r)
    (hend : r.2.callers[c]? = some (.published status)) (hok : status.ok = true) :
    Published s c snapshot r.2 := by
  obtain ⟨u, hs, h⟩ := Option.bind_eq_some_iff.1 h
  obtain ⟨r', hr', rfl⟩ := Option.map_eq_some_iff.1 h
  have hactions := Lib.actions_of_run hr'
  have hown : ∀ x ∈ r'.1, OwnStep c x := by
    intro x hx
    have hmem : x.action ∈ outcomes.map (.step c) := hactions ▸ List.mem_map_of_mem hx
    obtain ⟨outcome, -, heq⟩ := List.mem_map.1 hmem
    exact ⟨outcome, heq.symm⟩
  refine ⟨u, r'.1, status, hs, Trace.of_run hr', fun x hx call => ?_, fun x hx => .inl (hown x hx),
    hend, hok⟩
  obtain ⟨outcome, haction⟩ := hown x hx
  rw [haction]
  nofun

end Bridge

/-! ## The whole way -/

open SnapshotBuilder (Edit authoring)

/-- The builder holds the snapshot with its nodes in this order, every payload in storage of its own,
and the validation accepts what it shows. -/
structure Rebuilt [DoubleOps F] (snapshot : SnapshotView F) (limits : Limits) (nodes : List (Node F))
    (builder : SnapshotBuilder F) : Prop where
  view : builder.view = { generation := snapshot.generation, root := snapshot.root, nodes }
  order : nodes.Perm snapshot.nodes
  owned : builder.state.owned.map (·.node) = nodes
  owns : ∀ owned ∈ builder.state.owned, owned.Owns
  accepted : ∀ fuel, nodes.length < fuel → validate builder.view limits fuel = some {}

/-- The builder shows what it showed, and answers all later calls as it would have. -/
structure Unchanged [DoubleOps F] (before after : SnapshotBuilder F) : Prop where
  view : after.view = before.view
  answers : ∀ edits, (after.editAll edits).1 = (before.editAll edits).1

variable [DoubleOps F]

theorem unchanged_of_eq {before after : SnapshotBuilder F} (h : after = before) :
    Unchanged before after :=
  h ▸ ⟨rfl, fun _ => rfl⟩

theorem Acceptable.root_ne_zero {snapshot : SnapshotView F} {limits : Limits}
    (h : Acceptable snapshot limits) : snapshot.root ≠ 0 := by
  obtain ⟨node, hnode, hid, -⟩ := h.accepted.1.root
  exact fun hzero => h.accepted.1.nonzero (hzero ▸ hid ▸ List.mem_map_of_mem hnode)

theorem rebuilt_of_authored {snapshot : SnapshotView F} {limits : Limits} {edits : List (Edit F)}
    {builder : SnapshotBuilder F} (h : Acceptable snapshot limits) (hperm : edits.Perm (authoring snapshot))
    (hauthored : SnapshotBuilder.Authored limits snapshot edits builder) :
    Rebuilt snapshot limits (edits.filterMap Edit.added) builder := by
  have hview := hauthored.view hperm
  have horder : (edits.filterMap Edit.added).Perm snapshot.nodes :=
    (hperm.filterMap _).trans (.of_eq (SnapshotBuilder.added_authoring snapshot))
  refine ⟨hview, horder, hauthored.holds.owned, hauthored.holds.owns, fun fuel hfuel => ?_⟩
  rw [hview]
  have hsame : SameNodes snapshot
      { generation := snapshot.generation, root := snapshot.root, nodes := edits.filterMap Edit.added } :=
    ⟨rfl, rfl, horder⟩
  exact (h.perm hsame).validate hfuel

/-- **Accepted snapshots survive authoring, publication and copies**, and a call that fails leaves its
builder as it was. -/
theorem acceptedSnapshots_copied :
    (∀ (snapshot : SnapshotView F) (limits : Limits) (fuel : Nat) (r : ValidationResult),
      validate snapshot limits fuel = some r → r.ok = true →
      (∀ edits : List (Edit F), edits.Perm (authoring snapshot) →
        (∀ status ∈ (({ limits_ := limits } : SnapshotBuilder F).editAll edits).1, status.ok = true) ∧
          Rebuilt snapshot limits (edits.filterMap Edit.added)
            (({ limits_ := limits } : SnapshotBuilder F).editAll edits).2) ∧
      ∀ (s t : Bridge F) (c : Nat) (destination : SnapshotBuilder F), Bridge.Published s c snapshot t →
        destination.limits_ = limits →
        (copySnapshot t.readSnapshot destination).1.ok = true ∧
          Rebuilt snapshot limits snapshot.nodes (copySnapshot t.readSnapshot destination).2) ∧
    (∀ (builder : SnapshotBuilder F) (node : Node F), (builder.addNode node).1.ok = false →
      Unchanged builder (builder.addNode node).2) ∧
    ∀ (reader : Option (PublishedSnapshot F)) (destination : SnapshotBuilder F),
      (copySnapshot reader destination).1.ok = false →
        Unchanged destination (copySnapshot reader destination).2 := by
  refine ⟨fun snapshot limits fuel r hrun hok => ?_, fun builder node h => ?_, fun reader destination h => ?_⟩
  · have haccept := acceptable_of_validate hrun hok
    have hgeneration := haccept.admissible.generation
    refine ⟨fun edits hperm => ?_, fun s t c destination hpublished hlimits => ?_⟩
    · obtain ⟨hall, hauthored⟩ := SnapshotBuilder.editAll_authored hperm hgeneration
        haccept.root_ne_zero haccept.room rfl (SnapshotBuilder.authored_empty limits snapshot)
      exact ⟨hall, rebuilt_of_authored haccept hperm hauthored⟩
    · subst hlimits
      rw [hpublished.readSnapshot]
      obtain ⟨hcopied, hauthored⟩ := copySnapshot_authored (p := publishedSnapshot snapshot) hgeneration
        haccept.root_ne_zero haccept.room
      have hrebuilt := rebuilt_of_authored haccept (.refl _) hauthored
      rw [SnapshotBuilder.added_authoring] at hrebuilt
      exact ⟨hcopied, hrebuilt⟩
  · have hrefused := @SnapshotBuilder.edit_refused _ _ builder (.addNode node) h
    exact unchanged_of_eq hrefused
  · exact unchanged_of_eq (copySnapshot_refused h)

/-- What the call of `publish` returned. -/
def returned (t : Bridge Int) (c : Nat) : Option Io.Status :=
  match t.callers[c]? with
  | some (.published status) => some status
  | _ => none

theorem callers_of_returned {t : Bridge Int} {c : Nat} {status : Io.Status} (h : returned t c = some status) :
    t.callers[c]? = some (.published status) := by
  unfold returned at h
  split at h
  · rename_i hcaller
    rw [hcaller, Option.some.inj h]
  · cases h

/-- A bridge with its first activation. -/
def enabledBridge : Option (Bridge Int) :=
  (Lib.run Bridge.bridgeStep (.initial 1) (Bridge.ownerSteps (.enable {} {}) 3)).map Prod.snd

/-- The bridge after its caller published the table. -/
def publishedBridge : Option (Bridge Int) :=
  enabledBridge.bind fun s =>
    (Lib.run Bridge.bridgeStep s (Bridge.callSteps 0 (.publish tableSnapshot) 13)).map Prod.snd

theorem acceptedSnapshots_copied_tableSnapshot :
    Rebuilt tableSnapshot {} tableSnapshot.nodes.reverse
      (({} : SnapshotBuilder Int).editAll (authoring tableSnapshot).reverse).2 ∧
    ∃ t, publishedBridge = some t ∧
      Rebuilt tableSnapshot {} tableSnapshot.nodes (copySnapshot t.readSnapshot {}).2 := by
  have hcopied := acceptedSnapshots_copied.1 tableSnapshot {} 10 {} (by decide +kernel) rfl
  have hreturned : publishedBridge.bind (returned · 0) = some {} := by decide +kernel
  obtain ⟨t, ht, hend⟩ := Option.bind_eq_some_iff.1 hreturned
  obtain ⟨s, -, hrun⟩ := Option.bind_eq_some_iff.1 ht
  obtain ⟨r, hr, rfl⟩ := Option.map_eq_some_iff.1 hrun
  have hsteps : Bridge.callSteps 0 (.publish tableSnapshot) 13 =
      .call 0 (.publish tableSnapshot) :: (List.replicate 13 {}).map (.step 0) := rfl
  have hpublished := Bridge.published_of_run (hsteps ▸ hr) (callers_of_returned hend) rfl
  have hreversed := (hcopied.1 _ (List.reverse_perm _)).2
  rw [List.filterMap_reverse, SnapshotBuilder.added_authoring] at hreversed
  exact ⟨hreversed, _, ht, (hcopied.2 _ _ _ {} hpublished rfl).2⟩

end Desktop

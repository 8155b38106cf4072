import GameWIP.Desktop.WindowOwners
import GameWIP.Lib.Ancestors
import GameWIP.Lib.Trace

/-!
# Owners of Windows

Every operation keeps `WellOwned`: the owner relation of the registered Windows has no cycle and no
loose end, and the events routed to a Window tell its owner.

* `ancestorWalk_spec`: under the invariant the walk of `setOwner` ends, and finds a cycle exactly
  when there would be one.
* `setOwner_spec`: what one `setOwner` does.
* `owners_acyclic`: the invariant and the calls, in every state of every run.
-/

namespace Desktop

namespace WindowOwners

open Lib (Acyclic Trace Transition Up climb)
open Events (Payload WindowId)

variable {p p' : Platform} {state : WindowState} {id window : WindowId}

/-- The owner of a registered Window. -/
def ownerOf (p : Platform) (id : WindowId) : Option WindowId :=
  (resolveWindowId p id).bind fun state => toOptional state.owner

/-- The owner after some events, when each of them starts from the owner the ones before it left. -/
def replay : Option WindowId → List Payload → Option (Option WindowId)
  | owner, [] => some owner
  | owner, .ownerChanged previous new :: rest => if previous = owner then replay new rest else none
  | owner, _ :: rest => replay owner rest

/-- The registry is in order, and the owners are. -/
structure WellOwned (p : Platform) : Prop where
  distinct : (p.windowRegistry.map WindowState.id).Nodup
  valid : ∀ state ∈ p.windowRegistry, isValid state.id = true
  known : ∀ state ∈ p.windowRegistry, isValid state.owner = true →
    (resolveWindowId p state.owner).isSome
  acyclic : Acyclic (ownerOf p)
  replayed : ∀ state ∈ p.windowRegistry,
    replay (toOptional state.openedOwner) state.routed = some (toOptional state.owner)

/-! ## The registry -/

theorem toOptional_eq_some {owner : WindowId} :
    toOptional owner = some id ↔ isValid owner = true ∧ owner = id := by
  unfold toOptional
  split <;> simp_all

theorem resolve_eq_some (h : WellOwned p) :
    resolveWindowId p id = some state ↔ state ∈ p.windowRegistry ∧ state.id = id := by
  unfold resolveWindowId
  constructor
  · intro hfind
    split at hfind
    · exact ⟨List.mem_of_find?_eq_some hfind, by simpa using List.find?_some hfind⟩
    · cases hfind
  · rintro ⟨hmem, rfl⟩
    rw [if_pos (h.valid state hmem)]
    have hsame : ∀ other ∈ p.windowRegistry, other.id = state.id → other = state :=
      fun other hother => List.inj_on_of_nodup_map h.distinct hother hmem
    cases hfind : p.windowRegistry.find? (·.id = state.id) with
    | none => exact absurd (List.find?_eq_none.1 hfind state hmem) (by simp)
    | some other =>
      have hid : other.id = state.id := by simpa using List.find?_some hfind
      rw [hsame other (List.mem_of_find?_eq_some hfind) hid]

theorem ownerOf_eq_some (h : WellOwned p) {owner : WindowId} : ownerOf p id = some owner ↔
    ∃ state ∈ p.windowRegistry, state.id = id ∧ isValid owner = true ∧ state.owner = owner := by
  simp only [ownerOf, Option.bind_eq_some_iff, resolve_eq_some h, toOptional_eq_some]
  constructor
  · rintro ⟨state, ⟨hmem, hid⟩, hvalid, rfl⟩
    exact ⟨state, hmem, hid, hvalid, rfl⟩
  · rintro ⟨state, hmem, hid, hvalid, rfl⟩
    exact ⟨state, ⟨hmem, hid⟩, hvalid, rfl⟩

/-- Owners are registered. -/
theorem mem_of_up (h : WellOwned p) {owner : WindowId} (hup : ownerOf p id = some owner) :
    owner ∈ p.windowRegistry.map WindowState.id := by
  obtain ⟨state, hmem, -, hvalid, rfl⟩ := (ownerOf_eq_some h).1 hup
  obtain ⟨other, hother⟩ := Option.isSome_iff_exists.1 (h.known state hmem hvalid)
  obtain ⟨hmem', hid⟩ := (resolve_eq_some h).1 hother
  exact hid ▸ List.mem_map_of_mem hmem'

theorem mem_of_above (h : WellOwned p) {above : WindowId}
    (habove : Relation.TransGen (Up (ownerOf p)) id above) :
    above ∈ p.windowRegistry.map WindowState.id := by
  obtain ⟨below, -, hup⟩ := Relation.TransGen.tail'_iff.1 habove
  exact mem_of_up h hup

/-- Following the owners ends. -/
theorem climb_ends (h : WellOwned p) (id : WindowId) : climb (ownerOf p) (fuel p) id = none := by
  have hends : climb (ownerOf p) _ id = none := h.acyclic.climb_eq_none fun above => mem_of_above h
  rwa [List.length_map] at hends

/-! ## The walk -/

theorem not_above_of_none {up : WindowId → Option WindowId} {above : WindowId} (h : up id = none) :
    ¬ Relation.TransGen (Up up) id above := by
  intro habove
  obtain ⟨owner, hup, -⟩ := Relation.TransGen.head'_iff.1 habove
  cases h.symm.trans hup

/-- Where climbing ends, the walk does, and it tells whether the Window is above. -/
theorem ancestorWalk_of_climb (state : WindowState) {n : Nat}
    (hclimb : climb (ownerOf p) n id = none) :
    ∃ cycle, ancestorWalk p state n (resolveWindowId p id) = some cycle ∧
      (cycle = true ↔ Relation.TransGen (Up (ownerOf p)) id state.id) := by
  induction n generalizing id with
  | zero => cases hclimb
  | succ n ih =>
    cases hfound : resolveWindowId p id with
    | none =>
      have hnone : ownerOf p id = none := by simp [ownerOf, hfound]
      exact ⟨false, rfl, by simp [not_above_of_none hnone]⟩
    | some ancestor =>
      have howner : ownerOf p id = toOptional ancestor.owner := by simp [ownerOf, hfound]
      unfold ancestorWalk
      cases hvalid : isValid ancestor.owner with
      | false =>
        have hnone : ownerOf p id = none := by simp [howner, toOptional, hvalid]
        exact ⟨false, rfl, by simp [not_above_of_none hnone]⟩
      | true =>
        have hup : ownerOf p id = some ancestor.owner := by simp [howner, toOptional, hvalid]
        rw [climb, hup, Option.bind_some] at hclimb
        obtain ⟨cycle, hwalk, hcycle⟩ := ih hclimb
        by_cases hmeets : ancestor.owner = state.id
        · exact ⟨true, by simp [hmeets], by simpa using .single (hmeets ▸ hup)⟩
        · refine ⟨cycle, by simp [hmeets, hwalk], hcycle.trans ⟨.head hup, fun habove => ?_⟩⟩
          obtain ⟨owner, hup', habove⟩ := Relation.TransGen.head'_iff.1 habove
          obtain rfl := Option.some.inj (hup.symm.trans hup')
          exact (Relation.reflTransGen_iff_eq_or_transGen.1 habove).resolve_left fun heq =>
            hmeets heq.symm

/-! ## Operations on the registry -/

/-- Changing the Windows but not their identities. -/
theorem resolve_map {change : WindowState → WindowState} (hid : ∀ state, (change state).id = state.id)
    (windows : List WindowState) :
    resolveWindowId { p with windowRegistry := windows.map change } id =
      (resolveWindowId { p with windowRegistry := windows } id).map change := by
  have hsame : (fun state => decide (state.id = id)) ∘ change = fun state => decide (state.id = id) :=
    funext fun state => by simp [hid]
  unfold resolveWindowId
  split
  · rw [List.find?_map, hsame]
  · rfl

/-- The change that `store` makes. -/
theorem resolve_store : resolveWindowId (store p state) id =
    (resolveWindowId p id).map fun other => if other.id = state.id then state else other := by
  refine resolve_map (fun other => ?_) p.windowRegistry
  split
  · rename_i heq
    exact heq.symm
  · rfl

/-- A Window with another owner in the place of the old one. -/
theorem ownerOf_store {changed : WindowState} (h : WellOwned p) (hmem : state ∈ p.windowRegistry)
    (hid : changed.id = state.id) :
    ownerOf (store p changed) = Function.update (ownerOf p) state.id (toOptional changed.owner) := by
  funext id
  rw [ownerOf, resolve_store]
  by_cases heq : id = state.id
  · rw [heq, Function.update_self, (resolve_eq_some h).2 ⟨hmem, rfl⟩]
    simp [hid]
  · rw [Function.update_of_ne heq, ownerOf]
    cases hfound : resolveWindowId p id with
    | none => rfl
    | some other =>
      have hother : other.id ≠ changed.id := by
        rw [((resolve_eq_some h).1 hfound).2, hid]
        exact heq
      simp [hother]

theorem wellOwned_store {changed : WindowState} (h : WellOwned p) (hmem : state ∈ p.windowRegistry)
    (hid : changed.id = state.id)
    (hknown : isValid changed.owner = true → (resolveWindowId p changed.owner).isSome)
    (hacyclic : Acyclic (Function.update (ownerOf p) state.id (toOptional changed.owner)))
    (hreplayed : replay (toOptional changed.openedOwner) changed.routed =
      some (toOptional changed.owner)) : WellOwned (store p changed) := by
  have hwindow : ∀ other ∈ (store p changed).windowRegistry, other = changed ∨
      other ∈ p.windowRegistry := by
    intro other hother
    obtain ⟨before, hbefore, rfl⟩ := List.mem_map.1 hother
    split
    · exact .inl rfl
    · exact .inr hbefore
  have hids : (store p changed).windowRegistry.map WindowState.id =
      p.windowRegistry.map WindowState.id := by
    rw [store, List.map_map]
    refine List.map_congr_left fun other _ => ?_
    show (if other.id = changed.id then changed else other).id = other.id
    split
    · rename_i heq
      exact heq.symm
    · rfl
  refine ⟨hids ▸ h.distinct, fun other hother => ?_, fun other hother hvalid => ?_, ?_, fun other hother => ?_⟩
  · rcases hwindow other hother with rfl | hbefore
    · exact hid ▸ h.valid state hmem
    · exact h.valid other hbefore
  · rw [resolve_store, Option.isSome_map]
    rcases hwindow other hother with rfl | hbefore
    · exact hknown hvalid
    · exact h.known other hbefore hvalid
  · rwa [ownerOf_store h hmem hid]
  · rcases hwindow other hother with rfl | hbefore
    · exact hreplayed
    · exact h.replayed other hbefore

/-- Storing a Window as it is changes nothing. -/
theorem store_self (h : WellOwned p) (hmem : state ∈ p.windowRegistry) : store p state = p := by
  have hsame : p.windowRegistry.map (fun other => if other.id = state.id then state else other) =
      p.windowRegistry := by
    refine (List.map_congr_left fun other hother => ?_).trans (List.map_id _)
    split
    · rename_i heq
      exact List.inj_on_of_nodup_map h.distinct hmem hother heq.symm
    · rfl
  rw [store, hsame]

/-! ## Opening -/

theorem takeWindowId_valid (next : UInt64) : isValid (takeWindowId next).1 = true := by
  unfold takeWindowId
  split
  · rfl
  · simpa [isValid]

theorem resolve_append (p : Platform) (new : WindowState) (hnew : isValid new.id = true) :
    resolveWindowId { p with windowRegistry := p.windowRegistry ++ [new] } id =
      (resolveWindowId p id).or (if new.id = id then some new else none) := by
  unfold resolveWindowId
  split
  · rw [List.find?_append]
    by_cases hid : new.id = id <;> simp [hid]
  · rename_i hinvalid
    have hne : new.id ≠ id := fun heq => hinvalid (heq ▸ hnew)
    simp [hne]

/-- A parent for a node keeps the relation acyclic when it is not below the node; no parent does. -/
theorem acyclic_update {owner : WindowId} (h : Acyclic (ownerOf p))
    (hnot : isValid owner = true → ¬ Relation.ReflTransGen (Up (ownerOf p)) owner id) :
    Acyclic (Function.update (ownerOf p) id (toOptional owner)) := by
  cases hvalid : isValid owner with
  | true =>
    rw [toOptional, if_pos hvalid]
    exact h.update_iff.2 (hnot hvalid)
  | false =>
    refine h.of_le fun below above hup => ?_
    by_cases heq : below = id
    · subst heq
      rw [Function.update_self, toOptional, hvalid] at hup
      cases hup
    · rwa [Function.update_of_ne heq] at hup

theorem wellOwned_append {new : WindowState} (h : WellOwned p) (hvalid : isValid new.id = true)
    (hfresh : ∀ state ∈ p.windowRegistry, state.id ≠ new.id)
    (hknown : isValid new.owner = true → (resolveWindowId p new.owner).isSome)
    (hreplayed : replay (toOptional new.openedOwner) new.routed = some (toOptional new.owner)) :
    WellOwned { p with windowRegistry := p.windowRegistry ++ [new] } := by
  have hunused : resolveWindowId p new.id = none := by
    cases hfound : resolveWindowId p new.id with
    | none => rfl
    | some state =>
      obtain ⟨hmem, hid⟩ := (resolve_eq_some h).1 hfound
      exact absurd hid (hfresh state hmem)
  have howner : ownerOf { p with windowRegistry := p.windowRegistry ++ [new] } =
      Function.update (ownerOf p) new.id (toOptional new.owner) := by
    funext id
    rw [ownerOf, resolve_append p new hvalid]
    by_cases heq : id = new.id
    · subst heq
      simp [hunused]
    · rw [Function.update_of_ne heq, if_neg (Ne.symm heq), Option.or_none, ownerOf]
  have hnotBelow : isValid new.owner = true →
      ¬ Relation.ReflTransGen (Up (ownerOf p)) new.owner new.id := by
    intro howned habove
    rcases Relation.reflTransGen_iff_eq_or_transGen.1 habove with heq | habove
    · have hregistered := hknown howned
      rw [← heq, hunused] at hregistered
      cases hregistered
    · obtain ⟨state, hmem, hid⟩ := List.mem_map.1 (mem_of_above h habove)
      exact hfresh state hmem hid
  refine ⟨?_, fun state hstate => ?_, fun state hstate howned => ?_, ?_, fun state hstate => ?_⟩
  · rw [List.map_append, List.nodup_append]
    refine ⟨h.distinct, by simp, fun id hid other hother => ?_⟩
    obtain ⟨state, hmem, rfl⟩ := List.mem_map.1 hid
    rw [List.map_singleton, List.mem_singleton] at hother
    exact hother ▸ hfresh state hmem
  · rcases List.mem_append.1 hstate with hmem | hmem
    · exact h.valid state hmem
    · exact List.mem_singleton.1 hmem ▸ hvalid
  · rw [resolve_append p new hvalid, Option.isSome_or, Bool.or_eq_true]
    rcases List.mem_append.1 hstate with hmem | hmem
    · exact .inl (h.known state hmem howned)
    · obtain rfl := List.mem_singleton.1 hmem
      exact .inl (hknown howned)
  · rw [howner]
    exact acyclic_update h.acyclic hnotBelow
  · rcases List.mem_append.1 hstate with hmem | hmem
    · exact h.replayed state hmem
    · exact List.mem_singleton.1 hmem ▸ hreplayed

theorem wellOwned_openWindow {owner : Option WindowId} (h : WellOwned p)
    (hopen : openWindow p owner = some p') : WellOwned p' := by
  unfold openWindow at hopen
  have hvalid := takeWindowId_valid p.nextWindowId
  generalize takeWindowId p.nextWindowId = taken at hopen hvalid
  obtain ⟨id, next⟩ := taken
  dsimp only at hopen hvalid
  split_ifs at hopen with hguard
  obtain ⟨hknown, hfresh⟩ := Bool.and_eq_true_iff.1 hguard
  have howner : isValid (owner.getD 0) = true → (resolveWindowId p (owner.getD 0)).isSome := by
    intro howned
    cases owner with
    | none => cases howned
    | some owner => exact hknown
  have hnew := @wellOwned_append p ⟨id, owner.getD 0, owner.getD 0, []⟩ h hvalid (by simpa using hfresh)
    howner rfl
  obtain rfl := Option.some.inj hopen
  exact ⟨hnew.distinct, hnew.valid, hnew.known, hnew.acyclic, hnew.replayed⟩

/-! ## Closing -/

theorem replay_concat {owner next : Option WindowId} {routed : List Payload}
    (h : replay owner routed = some next) (new : Option WindowId) :
    replay owner (routed ++ [.ownerChanged next new]) = some new := by
  fun_induction replay owner routed with
  | case1 owner =>
    obtain rfl := Option.some.inj h
    simp [replay]
  | case2 owner new' rest ih => simpa [replay] using ih h
  | case3 => cases h
  | case4 owner event rest hother ih =>
    rw [List.cons_append, replay]
    · exact ih h
    · exact hother

theorem resolve_filter {removed : WindowId} : resolveWindowId
      { p with windowRegistry := p.windowRegistry.filter fun state => state.id ≠ removed } id =
    if id = removed then none else resolveWindowId p id := by
  unfold resolveWindowId
  rw [List.find?_filter]
  by_cases heq : id = removed
  · subst heq
    simp
  · have hsame : (fun state : WindowState =>
        decide (decide (state.id ≠ removed) = true ∧ decide (state.id = id) = true)) =
        fun state => decide (state.id = id) := by
      funext state
      by_cases hid : state.id = id <;> simp [hid, heq]
    rw [hsame, if_neg heq]

/-- The Windows after one of them is closed. -/
theorem resolve_unregister {removed : WindowId} : resolveWindowId (unregisterWindowId p removed) id =
    if id = removed then none
    else (resolveWindowId p id).map fun candidate =>
      if candidate.owner = removed then
        routeEvent { candidate with owner := 0 } (.ownerChanged (some removed) none)
      else candidate := by
  refine (resolve_map (fun state => ?_) _).trans ?_
  · split <;> rfl
  · rw [resolve_filter]
    split <;> rfl

theorem wellOwned_unregister {removed : WindowId} (h : WellOwned p) (hvalid : isValid removed = true) :
    WellOwned (unregisterWindowId p removed) := by
  have hmem : ∀ state ∈ (unregisterWindowId p removed).windowRegistry,
      ∃ before ∈ p.windowRegistry, before.id ≠ removed ∧ state = if before.owner = removed then
        routeEvent { before with owner := 0 } (.ownerChanged (some removed) none) else before := by
    intro state hstate
    obtain ⟨before, hbefore, rfl⟩ := List.mem_map.1 hstate
    obtain ⟨hbefore, hne⟩ := List.mem_filter.1 hbefore
    exact ⟨before, hbefore, by simpa using hne, rfl⟩
  have hids : (unregisterWindowId p removed).windowRegistry.map WindowState.id =
      (p.windowRegistry.filter fun state => state.id ≠ removed).map WindowState.id := by
    rw [unregisterWindowId, List.map_map]
    refine List.map_congr_left fun state _ => ?_
    show WindowState.id (ite _ _ _) = state.id
    split <;> rfl
  have hedges : ∀ below above, ownerOf (unregisterWindowId p removed) below = some above →
      ownerOf p below = some above := by
    intro below above hup
    rw [ownerOf, resolve_unregister] at hup
    split_ifs at hup with heq
    · cases hup
    · obtain ⟨state, hfound, howner⟩ := Option.bind_eq_some_iff.1 hup
      obtain ⟨before, hbefore, rfl⟩ := Option.map_eq_some_iff.1 hfound
      split_ifs at howner with hcut
      · cases howner
      · rw [ownerOf, hbefore, Option.bind_some, howner]
  refine ⟨?_, fun state hstate => ?_, fun state hstate howned => ?_, h.acyclic.of_le hedges,
    fun state hstate => ?_⟩
  · rw [hids]
    exact h.distinct.sublist (List.filter_sublist.map _)
  · obtain ⟨before, hbefore, -, rfl⟩ := hmem state hstate
    split <;> exact h.valid before hbefore
  · obtain ⟨before, hbefore, -, rfl⟩ := hmem state hstate
    split_ifs at howned ⊢ with hcut
    · cases howned
    · rw [resolve_unregister, if_neg hcut, Option.isSome_map]
      exact h.known before hbefore howned
  · obtain ⟨before, hbefore, -, rfl⟩ := hmem state hstate
    have hbefore := h.replayed before hbefore
    split
    · rename_i hcut
      have hremoved : toOptional removed = some removed := if_pos hvalid
      rw [hcut, hremoved] at hbefore
      exact replay_concat hbefore none
    · exact hbefore

/-! ## Changing the owner -/

/-- The new owner is not a registered Window, or would close a cycle. -/
def Refused (p : Platform) (window : WindowId) (owner : Option WindowId) : Prop :=
  ∃ id, owner = some id ∧ isValid id = true ∧
    (resolveWindowId p id = none ∨ ¬ Acyclic (Function.update (ownerOf p) window (some id)))

/-- What one `setOwner` does. -/
structure SetOwnerSpec (p : Platform) (state : WindowState) (owner : Option WindowId)
    (p' : Platform) (report : SetOwnerReport) : Prop where
  /-- It is refused in front of the first native call. -/
  refused : report.calls = [] ↔ Refused p state.id owner
  refusal : report.calls = [] → report.status = Io.makeStatus .invalidArgument
  unchanged : report.status.ok = false → p' = p
  changed : report.status.ok = true → ∀ id, ownerOf p' id =
    Function.update (ownerOf p) state.id (toOptional (owner.getD 0)) id
  wellOwned : WellOwned p'

theorem changeOwner_spec {owner : WindowId} (h : WellOwned p) (hmem : state ∈ p.windowRegistry)
    (hknown : isValid owner = true → (resolveWindowId p owner).isSome)
    (hacyclic : Acyclic (Function.update (ownerOf p) state.id (toOptional owner)))
    (answers : SetOwnerAnswers) :
    let r := changeOwner p state owner answers
    r.2.calls ≠ [] ∧ (r.2.status.ok = false → r.1 = p) ∧
      (r.2.status.ok = true → ∀ id, ownerOf r.1 id =
        Function.update (ownerOf p) state.id (toOptional owner) id) ∧ WellOwned r.1 := by
  have hself := store_self h hmem
  cases hparent : answers.parent.ok with
  | false =>
    simp only [changeOwner, hparent, Bool.not_false, ↓reduceIte]
    exact ⟨by simp, fun _ => trivial, nofun, h⟩
  | true =>
    cases hstyle : answers.style.ok with
    | false =>
      have hstatus : (if !answers.parentRollback.ok then answers.parentRollback
          else if answers.styleRollback.ok then answers.style else answers.styleRollback).ok = false := by
        split_ifs with hfirst hsecond
        · simpa using hfirst
        · exact hstyle
        · simpa using hsecond
      simp only [changeOwner, hparent, hstyle, Bool.not_true, Bool.not_false, Bool.false_eq_true,
        ↓reduceIte, hstatus]
      exact ⟨by simp, fun _ => hself, nofun, hself.symm ▸ h⟩
    | true =>
      simp only [changeOwner, hparent, hstyle, Bool.not_true, Bool.false_eq_true, ↓reduceIte]
      have hset : ∀ changed, (if owner ≠ state.owner then
          routeEvent { state with owner := owner }
            (.ownerChanged (toOptional state.owner) (toOptional owner))
          else { state with owner := owner }) = changed →
          changed.id = state.id ∧ changed.owner = owner ∧
            replay (toOptional changed.openedOwner) changed.routed = some (toOptional owner) := by
        rintro changed rfl
        split
        · exact ⟨rfl, rfl, replay_concat (h.replayed state hmem) _⟩
        · rename_i hsame
          refine ⟨rfl, rfl, ?_⟩
          rw [not_not.1 hsame]
          exact h.replayed state hmem
      generalize hchanged : (if owner ≠ state.owner then _ else _) = changed
      obtain ⟨hid, howner, hreplayed⟩ := hset changed hchanged
      refine ⟨by simp, nofun, fun _ => ?_, ?_⟩
      · rw [ownerOf_store h hmem hid, howner]
        exact fun _ => rfl
      · exact wellOwned_store h hmem hid (howner ▸ hknown) (howner ▸ hacyclic) (howner ▸ hreplayed)

/-- **One call of `setOwner`**: its walk ends, and it does what `SetOwnerSpec` says. -/
theorem setOwner_spec (h : WellOwned p) (hmem : state ∈ p.windowRegistry) (owner : Option WindowId)
    (answers : SetOwnerAnswers) :
    ∃ p' report, setOwner p state owner answers = some (p', report) ∧
      SetOwnerSpec p state owner p' report := by
  -- every refusal looks the same
  have hrefuse : Refused p state.id owner →
      SetOwnerSpec p state owner p { status := Io.makeStatus .invalidArgument } := fun hrefused =>
    ⟨⟨fun _ => hrefused, fun _ => rfl⟩, fun _ => rfl, fun _ => rfl, nofun, h⟩
  unfold setOwner platformSetOwner
  by_cases hself : owner = some state.id
  · rw [if_pos hself]
    refine ⟨p, _, rfl, hrefuse ⟨state.id, hself, h.valid state hmem, .inr fun hacyclic => ?_⟩⟩
    exact h.acyclic.update_iff.1 hacyclic .refl
  rw [if_neg hself]
  generalize hrequested : owner.getD 0 = requested
  have hnamed : isValid requested = true → owner = some requested := by
    intro hvalid
    cases owner with
    | none => exact absurd (hrequested ▸ hvalid) (by decide)
    | some id => exact congrArg some hrequested
  dsimp only
  cases hunknown : isValid requested && (resolveWindowId p requested).isNone with
  | true =>
    rw [if_pos rfl]
    obtain ⟨hvalid, hnone⟩ := Bool.and_eq_true_iff.1 hunknown
    exact ⟨p, _, rfl, hrefuse ⟨requested, hnamed hvalid, hvalid, .inl (Option.isNone_iff_eq_none.1 hnone)⟩⟩
  | false =>
    have hknown : isValid requested = true → (resolveWindowId p requested).isSome := by
      intro hvalid
      rw [hvalid, Bool.true_and] at hunknown
      simpa using hunknown
    obtain ⟨cycle, hwalk, hcycle⟩ := ancestorWalk_of_climb state (climb_ends h requested)
    rw [if_neg Bool.false_ne_true, hwalk, Option.map_some]
    cases cycle with
    | true =>
      have habove := hcycle.1 rfl
      obtain ⟨owner', hup, -⟩ := Relation.TransGen.head'_iff.1 habove
      obtain ⟨found, hfound, hid, -⟩ := (ownerOf_eq_some h).1 hup
      have hvalid : isValid requested = true := hid ▸ h.valid found hfound
      refine ⟨p, _, rfl, hrefuse ⟨requested, hnamed hvalid, hvalid, .inr fun hacyclic => ?_⟩⟩
      exact h.acyclic.update_iff.1 hacyclic habove.to_reflTransGen
    | false =>
      have hacyclic : Acyclic (Function.update (ownerOf p) state.id (toOptional requested)) := by
        refine acyclic_update h.acyclic fun hvalid habove => ?_
        rcases Relation.reflTransGen_iff_eq_or_transGen.1 habove with heq | habove
        · exact hself (heq ▸ hnamed hvalid)
        · exact Bool.false_ne_true (hcycle.2 habove)
      obtain ⟨hcalls, hfailed, hok, hwell⟩ := changeOwner_spec h hmem hknown hacyclic answers
      refine ⟨_, _, rfl, ⟨fun hnone => absurd hnone hcalls, ?_⟩, fun hnone => absurd hnone hcalls, hfailed,
        hrequested ▸ hok, hwell⟩
      rintro ⟨id, hid, hvalid, hrefused⟩
      obtain rfl : id = requested := by rw [← hrequested, hid]; rfl
      rcases hrefused with hnone | hcyclic
      · rw [hnone] at hknown
        cases hknown hvalid
      · rw [toOptional, if_pos hvalid] at hacyclic
        exact absurd hacyclic hcyclic

/-! ## Runs -/

theorem wellOwned_initial : WellOwned {} where
  distinct := List.nodup_nil
  valid := by simp
  known := by simp
  acyclic := fun id habove => not_above_of_none (by simp [ownerOf, resolveWindowId]) habove
  replayed := by simp

theorem wellOwned_step {action : Action} (h : WellOwned p) (hs : step p action = some p') : WellOwned p' := by
  cases action with
  | openWindow owner => exact wellOwned_openWindow h hs
  | setOwner window owner answers =>
    obtain ⟨state, hfound, hs⟩ := Option.bind_eq_some_iff.1 hs
    obtain ⟨r, hr, rfl⟩ := Option.map_eq_some_iff.1 hs
    obtain ⟨hmem, -⟩ := (resolve_eq_some h).1 hfound
    obtain ⟨p'', report, hset, hspec⟩ := setOwner_spec h hmem owner answers
    obtain rfl := Option.some.inj (hr.symm.trans hset)
    exact hspec.wellOwned
  | unregisterWindowId window =>
    obtain ⟨state, hfound, rfl⟩ := Option.map_eq_some_iff.1 hs
    obtain ⟨hmem, hid⟩ := (resolve_eq_some h).1 hfound
    exact wellOwned_unregister h (hid ▸ h.valid state hmem)

/-- **Owners of Windows**, after every operation of a run: no Window is above itself, owners are
registered, following owners ends, the events tell the owner; and every call of `setOwner` ends, is
refused just for an unknown owner or a cycle, and changes nothing when it is refused or fails. -/
theorem owners_acyclic {tr : List (Transition Platform Action)} (h : Trace step {} tr p) :
    Acyclic (ownerOf p) ∧
    (∀ state ∈ p.windowRegistry, isValid state.owner = true →
      ∃ owner ∈ p.windowRegistry, owner.id = state.owner) ∧
    (∀ id, climb (ownerOf p) (fuel p) id = none) ∧
    (∀ state ∈ p.windowRegistry,
      replay (toOptional state.openedOwner) state.routed = some (toOptional state.owner)) ∧
    ∀ state ∈ p.windowRegistry, ∀ owner answers, ∃ p' report,
      setOwner p state owner answers = some (p', report) ∧ SetOwnerSpec p state owner p' report := by
  have hwell := (h.invariant_of_step wellOwned_initial fun _ _ _ => wellOwned_step).1
  refine ⟨hwell.acyclic, fun state hmem howned => ?_, climb_ends hwell, hwell.replayed,
    fun state hmem => setOwner_spec hwell hmem⟩
  obtain ⟨owner, howner⟩ := Option.isSome_iff_exists.1 (hwell.known state hmem howned)
  exact ⟨owner, (resolve_eq_some hwell).1 howner⟩

/-- Three Windows in a chain. The first may not be owned by the last until the one between them is
closed; then the last may not be owned by the first. A style call fails, and its rollback works. -/
def chainActions : List Action :=
  [.openWindow none, .openWindow (some 1), .openWindow (some 2), .setOwner 1 (some 3) {},
    .unregisterWindowId 2, .setOwner 1 (some 3) {}, .setOwner 3 (some 1) {}, .setOwner 3 (some 9) {},
    .setOwner 1 none { style := Io.makeStatus .nativeFailure }]

theorem owners_acyclic_chainActions :
    (Lib.run step {} chainActions).map (fun r =>
      r.2.windowRegistry.map fun state => (state.id, state.owner, state.routed.length)) =
        some [(1, 3, 1), (3, 0, 1)] ∧
    ∀ r, Lib.run step {} chainActions = some r → Acyclic (ownerOf r.2) :=
  ⟨by decide +kernel, fun _ hr => (owners_acyclic (Trace.of_run hr)).1⟩

end WindowOwners

end Desktop

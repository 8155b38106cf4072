import GameWIP.Desktop.Proof.Actions

/-!
# What the locked sections leave alone

`Runtime.Kept`: what holds of an activation between the locked sections. A section on the
notifications leaves the actions alone (`SameActions`) and the other way round (`SameNotifications`),
and once the live flag is cleared neither queue takes anything in.
-/

namespace Desktop

variable {F : Type} [DoubleOps F] {r r' : Runtime F} {p : PublishedSnapshot F}
  {before : Option (PublishedSnapshot F)}

/-- What has been cleared. -/
structure Runtime.Cleared (r : Runtime F) (remaining : Nat) : Prop where
  snapshot : remaining < 3 → r.snapshot = none
  actions : remaining < 2 → r.actions.contents = []
  notifications : remaining < 1 → r.notifications.contents = []

structure Runtime.Kept (r : Runtime F) (remaining : Nat) : Prop where
  validated : ∀ p ∈ r.snapshot, p.Validated
  marked : r.Marked
  queued : r.live = true → r.Queued
  cleared : r.live = false → r.Cleared remaining

namespace Runtime

/-- Only the notifications differ. -/
structure SameActions (r r' : Runtime F) : Prop where
  snapshot : r'.snapshot = r.snapshot
  live : r'.live = r.live
  actions : r'.actions = r.actions
  history : r'.history = r.history
  nextRequest : r'.nextRequest = r.nextRequest

section Same

omit [DoubleOps F]

theorem SameActions.refl (r : Runtime F) : SameActions r r := ⟨rfl, rfl, rfl, rfl, rfl⟩

theorem SameActions.trans {r'' : Runtime F} (h : SameActions r r') (h' : SameActions r' r'') :
    SameActions r r'' :=
  ⟨h'.snapshot.trans h.snapshot, h'.live.trans h.live, h'.actions.trans h.actions,
    h'.history.trans h.history, h'.nextRequest.trans h.nextRequest⟩

theorem same_foldl {A : Type} {f : Runtime F → A → Runtime F} (hf : ∀ r x, SameActions r (f r x))
    (l : List A) (r : Runtime F) : SameActions r (l.foldl f r) := by
  induction l generalizing r with
  | nil => exact .refl r
  | cons x l ih => exact (hf r x).trans (ih (f r x))

variable {after : PublishedSnapshot F} {kind : NotificationKind} {id : NodeId}
  {property : PropertyKind} {focusGained : Bool} {announcement : AnnouncementView}

theorem same_pushDiff : SameActions r (r.pushDiff before after kind id property) := by
  unfold pushDiff
  split
  · exact .refl r
  · split <;> exact ⟨rfl, rfl, rfl, rfl, rfl⟩

theorem same_invalidateHost : SameActions r (r.invalidateHost focusGained) := by
  have htree : ∀ {q : PublishedSnapshot F}, SameActions r (r.invalidateTree q) := by
    intro q
    unfold invalidateTree
    split <;> exact ⟨rfl, rfl, rfl, rfl, rfl⟩
  have hfocus : ∀ {x : Runtime F} {q : PublishedSnapshot F},
      SameActions x (x.notifyFocus q focusGained) := by
    intro x q
    unfold notifyFocus
    split
    · split <;> exact ⟨rfl, rfl, rfl, rfl, rfl⟩
    · exact .refl x
  unfold invalidateHost
  split
  · exact .refl r
  · split
    · exact .refl r
    · exact htree.trans hfocus

theorem same_pushAnnouncement : SameActions r (r.pushAnnouncement p id announcement).2 := by
  unfold pushAnnouncement
  split
  · exact .refl r
  · split <;> exact ⟨rfl, rfl, rfl, rfl, rfl⟩

theorem same_drainNotification {n : PendingNotification F} (h : r.drainNotification = some (n, r')) :
    SameActions r r' := by
  unfold drainNotification at h
  split at h
  · cases h
  · obtain ⟨-, rfl⟩ := Prod.mk.inj (Option.some.inj h)
    exact ⟨rfl, rfl, rfl, rfl, rfl⟩

/-- Nothing is queued once the live flag is cleared. -/
theorem invalidateHost_dead (h : r.live = false) : r.invalidateHost focusGained = r := by
  unfold invalidateHost
  split
  · rfl
  · simp [h]

theorem pushAnnouncement_dead (h : r.live = false) :
    (r.pushAnnouncement p id announcement).2 = r := by
  simp [pushAnnouncement, h]

theorem drainNotification_dead (h : r.live = false) : r.drainNotification = none := by
  simp [drainNotification, h]

end Same

theorem same_diffNode {previous after : PublishedSnapshot F} (acc : Bool × Runtime F)
    (node : Node F) : SameActions acc.2 (diffNode previous after acc node).2 := by
  unfold diffNode
  split
  · exact .refl _
  · exact same_foldl (fun _ _ => same_pushDiff) _ _

theorem same_queueDiff {after : PublishedSnapshot F} : SameActions r (r.queueDiff before after) := by
  unfold queueDiff
  split
  · split
    · exact ⟨rfl, rfl, rfl, rfl, rfl⟩
    · exact .refl r
  · split
    · exact ⟨same_pushDiff.snapshot, same_pushDiff.live, same_pushDiff.actions, same_pushDiff.history,
        same_pushDiff.nextRequest⟩
    · rename_i previous
      have hnodes : ∀ (nodes : List (Node F)) (acc : Bool × Runtime F),
          SameActions acc.2 (nodes.foldl (diffNode previous after) acc).2 := by
        intro nodes
        induction nodes with
        | nil => exact fun acc => .refl _
        | cons node nodes ih => exact fun acc => (same_diffNode acc node).trans (ih _)
      dsimp only
      split
      · exact (hnodes _ (_, r)).trans same_pushDiff
      · exact hnodes _ (_, r)

theorem commitAction_dead {request : ActionRequest F} (h : r.live = false) :
    (r.commitAction p request).2 = r := by
  simp [commitAction, h]

theorem popAction_dead (h : r.live = false) : r.popAction = none := by
  simp [popAction, h]

variable {n : Nat}

/-- Once the live flag is cleared, nothing is asked of the requests. -/
theorem Kept.of_dead (hdead : r.live = false) (hvalidated : ∀ p ∈ r.snapshot, p.Validated)
    (hmarked : r.Marked) (hcleared : r.Cleared n) : r.Kept n where
  validated := hvalidated
  marked := hmarked
  queued hlive := by
    rw [hdead] at hlive
    cases hlive
  cleared _ := hcleared

/-- A locked section on the notifications. -/
theorem Kept.notify (h : r.Kept n) (hsame : SameActions r r') (hmarked : r'.Marked)
    (hcleared : r.live = false → n < 1 → r'.notifications.contents = []) : r'.Kept n where
  validated := hsame.snapshot ▸ h.validated
  marked := hmarked
  queued hlive := by
    have hqueued := h.queued (hsame.live ▸ hlive)
    refine ⟨?_, ?_⟩
    · rw [hsame.history, hsame.actions]
      exact hqueued.coalesced
    · rw [hsame.history, hsame.nextRequest]
      exact hqueued.next
  cleared hdead := by
    have hdead := hsame.live ▸ hdead
    have hold := h.cleared hdead
    exact ⟨fun hn => hsame.snapshot.trans (hold.snapshot hn),
      fun hn => (congrArg _ hsame.actions).trans (hold.actions hn), hcleared hdead⟩

/-- Only the actions differ. -/
structure SameNotifications (r r' : Runtime F) : Prop where
  snapshot : r'.snapshot = r.snapshot
  live : r'.live = r.live
  notifications : r'.notifications = r.notifications
  pending : r'.invalidationPending = r.invalidationPending

theorem same_commitAction {request : ActionRequest F} :
    SameNotifications r (r.commitAction p request).2 := by
  unfold commitAction
  dsimp only
  split_ifs <;> exact ⟨rfl, rfl, rfl, rfl⟩

theorem same_popAction {request : ActionRequest F} (h : r.popAction = some (request, r')) :
    SameNotifications r r' := by
  unfold popAction at h
  split at h
  · cases h
  · obtain ⟨-, rfl⟩ := Prod.mk.inj (Option.some.inj h)
    exact ⟨rfl, rfl, rfl, rfl⟩

/-- A locked section on the actions. -/
theorem Kept.act (h : r.Kept n) (hsame : SameNotifications r r')
    (hqueued : r.live = true → r'.Queued)
    (hcleared : r.live = false → n < 2 → r'.actions.contents = []) : r'.Kept n where
  validated := hsame.snapshot ▸ h.validated
  marked := by
    rw [Marked, hsame.notifications, hsame.pending]
    exact h.marked
  queued hlive := hqueued (hsame.live ▸ hlive)
  cleared hdead := by
    have hdead := hsame.live ▸ hdead
    have hold := h.cleared hdead
    exact ⟨fun hn => hsame.snapshot.trans (hold.snapshot hn), hcleared hdead,
      fun hn => (congrArg _ hsame.notifications).trans (hold.notifications hn)⟩

theorem Kept.commitAction {request : ActionRequest F} (h : r.Kept n) :
    (r.commitAction p request).2.Kept n := by
  refine h.act same_commitAction (fun hlive => queued_commitAction (h.queued hlive))
    fun hdead hn => ?_
  rw [commitAction_dead hdead]
  exact (h.cleared hdead).actions hn

theorem Kept.popAction {request : ActionRequest F} (h : r.Kept n)
    (hpop : r.popAction = some (request, r')) : r'.Kept n := by
  refine h.act (same_popAction hpop) (fun hlive => queued_popAction (h.queued hlive) hpop)
    fun hdead _ => ?_
  rw [popAction_dead hdead] at hpop
  cases hpop

end Runtime

end Desktop

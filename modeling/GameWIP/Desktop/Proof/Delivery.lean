import GameWIP.Desktop.Proof.Bridge

/-!
# Requests are delivered in order

`actionsKept`: in every interleaving the popped and the queued requests are the accepted ones in
their order, and one is missing exactly when the next accepted request replaced it while it was
queued. Every accepted request is a submitted one that passed its checks.
-/

namespace Desktop

open Lib (Trace Transition Superseded acceptedOf poppedOf)

variable {F : Type} {s t : Bridge F} {a c : Nat} {r r' : Runtime F} {outcome : Io.Status} {old : Caller F}
  {p : PublishedSnapshot F} {before : Option (PublishedSnapshot F)}
  {tr : List (Transition (Bridge F) (BridgeAction F))}

namespace Bridge

variable [DoubleOps F]

/-- The history and the queue of a live activation. -/
structure Delivered (r : Runtime F) : Prop where
  order : (poppedOf r.history ++ r.actions.contents).Sublist (acceptedOf r.history)
  ids : (acceptedOf r.history).Pairwise fun q q' => q.requestId < q'.requestId
  missing : ∀ q ∈ acceptedOf r.history,
    q ∉ poppedOf r.history ++ r.actions.contents ↔ Superseded Runtime.replaces r.history q
  nodup : (poppedOf r.history ++ r.actions.contents).Nodup
  durable : ∀ q ∈ acceptedOf r.history, Runtime.coalescible q.action = false →
    q ∈ poppedOf r.history ++ r.actions.contents

omit [DoubleOps F] in
theorem delivered_of_queued (h : r.Queued) : Delivered r where
  order := h.coalesced.order
  ids := h.coalesced.ids.imp fun hlt => UInt64.lt_iff_toNat_lt.2 hlt
  missing := h.coalesced.missing
  nodup := h.coalesced.nodup
  durable q hq hdurable := by
    by_contra hnot
    obtain ⟨h₁, h₂, b, h₃, -, -, hreplaces⟩ := (h.coalesced.missing q hq).1 hnot
    simp only [Runtime.replaces, Bool.and_eq_true, decide_eq_true_eq] at hreplaces
    rw [← hreplaces.2, hdurable] at hreplaces
    exact Bool.false_ne_true hreplaces.1.1

/-- The request was submitted to the activation in this run. -/
def SubmittedIn (tr : List (Transition (Bridge F) (BridgeAction F))) (a : Nat)
    (request : ActionRequest F) : Prop :=
  ∃ x ∈ tr, ∃ c, x.action = .call c (.submit a request)

/-- The request passed its checks against the snapshot in this run. -/
def CheckedIn (tr : List (Transition (Bridge F) (BridgeAction F))) (a : Nat)
    (snapshot : PublishedSnapshot F) (request : ActionRequest F) : Prop :=
  ∃ x ∈ tr, ∃ (c : Nat) (loaded : _) (r : _), OwnStep c x ∧
    x.pre.callers[c]? = some (.submit (.check a loaded request)) ∧ x.pre.runtimes[a]? = some r ∧
    r.checkAction loaded request = .ok snapshot

/-- An accepted request is a submitted one with its identity and its generation, and its text ranges
are at boundaries of the snapshot it was checked against. -/
def OfSubmission (tr : List (Transition (Bridge F) (BridgeAction F))) (a : Nat)
    (q : ActionRequest F) : Prop :=
  ∃ request snapshot, SubmittedIn tr a request ∧ CheckedIn tr a snapshot request ∧
    RangesValid snapshot q ∧
    q = { request with
      requestId := q.requestId
      observedGeneration := if request.observedGeneration = 0 then snapshot.storage.generation
        else request.observedGeneration }

/-- What the accepted requests and the ones on their way are. -/
structure Requested (tr : List (Transition (Bridge F) (BridgeAction F))) (s : Bridge F) : Prop where
  stages : ∀ (c : Nat) stage, s.callers[c]? = some (.submit stage) →
    SubmittedIn tr stage.request.1 stage.request.2
  checked : ∀ (c a : Nat) snapshot request,
    s.callers[c]? = some (.submit (.commit a snapshot request)) → CheckedIn tr a snapshot request
  accepted : ∀ (a : Nat) r, s.runtimes[a]? = some r →
    ∀ q ∈ acceptedOf r.history, OfSubmission tr a q

/-- A submission that is not accepted changes no request. -/
theorem same_of_refused {x : Transition (Bridge F) (BridgeAction F)} {stage : SubmitStage F}
    (hs : x.pre.bridgeStep x.action = some x.post) (hown : OwnStep c x)
    (hc : x.pre.callers[c]? = some (.submit stage))
    (hrefused : ∀ result, x.post.callers[c]? = some (.submitted result) →
      result.acceptance ≠ .accepted) (hr : x.pre.runtimes[a]? = some r) :
    ∃ r', x.post.runtimes[a]? = some r' ∧ r'.actions = r.actions ∧ r'.history = r.history := by
  obtain ⟨outcome, haction⟩ := hown
  rw [haction] at hs
  obtain ⟨caller, hc', hs⟩ := Option.bind_eq_some_iff.1 hs
  obtain rfl := Option.some.inj (hc.symm.trans hc')
  have heffect := submitStep_effect hs
  generalize x.post = t at heffect hrefused ⊢
  cases heffect with
  | move haccepted hearly hrequest hcheck ht =>
    subst ht
    exact ⟨r, hr, rfl, rfl⟩
  | @commit b snapshot request r₀ hr₀ ht =>
    subst ht
    have hset := hrefused _ (List.getElem?_set_self (List.getElem?_eq_some_iff.1 hc).1)
    by_cases hb : a = b
    · subst hb
      obtain rfl := Option.some.inj (hr₀.symm.trans hr)
      refine ⟨_, getElem?_setRuntime hr, ?_⟩
      have hcommits : Runtime.Commits r₀ (r₀.commitAction snapshot request).2
          (r₀.fillRequest snapshot request) (r₀.commitAction snapshot request).1 :=
        Runtime.commitAction_commits
      generalize (r₀.commitAction snapshot request).1 = result at hcommits hset
      cases hcommits with
      | refused hresult hactions hhistory => exact ⟨hactions, hhistory⟩
      | accepted hhistory => exact absurd rfl hset
    · exact ⟨r, (getElem?_setRuntime_ne hb).trans hr, rfl, rfl⟩

/-- A commit takes in its own request. -/
theorem accepted_commit {request : ActionRequest F} {q : ActionRequest F}
    (hq : q ∈ acceptedOf (r.commitAction p request).2.history) :
    q ∈ acceptedOf r.history ∨ q = r.fillRequest p request := by
  have hcommits : Runtime.Commits r (r.commitAction p request).2 (r.fillRequest p request)
      (r.commitAction p request).1 := Runtime.commitAction_commits
  generalize (r.commitAction p request).1 = result at hcommits
  cases hcommits with
  | refused hresult hactions hhistory => exact .inl (hhistory ▸ hq)
  | accepted hhistory =>
    rw [hhistory, Lib.acceptedOf_accepted] at hq
    exact (List.mem_append.1 hq).imp_right List.mem_singleton.1

/-- A caller moves on with the request it has. -/
theorem Requested.move {new : Caller F} (h : Requested tr s)
    (hcallers : t.callers = s.callers.set c new) (hhistories : Histories s t)
    (hnew : ∀ stage, new = .submit stage → SubmittedIn tr stage.request.1 stage.request.2)
    (hchecked : ∀ a snapshot request, new = .submit (.commit a snapshot request) →
      CheckedIn tr a snapshot request) : Requested tr t where
  checked c' a snapshot request hc' := by
    rw [hcallers] at hc'
    rcases Lib.getElem?_set_cases hc' with ⟨-, heq⟩ | ⟨-, hc'⟩
    · exact hchecked a snapshot request heq.symm
    · exact h.checked c' a snapshot request hc'
  stages c' stage hc' := by
    rw [hcallers] at hc'
    rcases Lib.getElem?_set_cases hc' with ⟨-, heq⟩ | ⟨-, hc'⟩
    · exact hnew stage heq.symm
    · exact h.stages c' stage hc'
  accepted := hhistories.accepted h.accepted

theorem requested_submitStep {x : Transition (Bridge F) (BridgeAction F)} {stage : SubmitStage F}
    (h : x.pre.WellFormed) (hown : OwnStep c x) (hx : x ∈ tr) (hrequested : Requested tr x.pre)
    (hc : x.pre.callers[c]? = some (.submit stage))
    (hs : x.pre.submitStep c stage = some x.post) : Requested tr x.post := by
  have hstage := hrequested.stages c stage hc
  have heffect := submitStep_effect hs
  generalize x.post = t at heffect ⊢
  cases heffect with
  | move haccepted hearly hrequest hcheck ht =>
    subst ht
    refine hrequested.move rfl (histories_refl _) (fun next hnext => ?_)
      fun a snapshot request hnext => ?_
    · rw [hrequest next hnext]
      exact hstage
    · obtain ⟨loaded, r, rfl, hr, hok⟩ := hcheck a snapshot request hnext
      exact ⟨x, hx, c, loaded, r, hown, hc, hr, hok⟩
  | @commit a snapshot request r hr ht =>
    subst ht
    have hranges : RangesValid snapshot request := h.callers c _ hc
    have hmoved : Requested tr (x.pre.setCaller c (.submitted (r.commitAction snapshot request).1)) :=
      hrequested.move rfl (histories_refl _) (by simp) (by simp)
    refine ⟨hmoved.stages, hmoved.checked, fun b r' hr' q hq => ?_⟩
    rcases getElem?_setRuntime_cases hr' with ⟨rfl, rfl⟩ | ⟨-, hr'⟩
    · rcases accepted_commit hq with hq | rfl
      · exact hrequested.accepted b r hr q hq
      · exact ⟨request, snapshot, hstage, hrequested.checked c b snapshot request hc, hranges, rfl⟩
    · exact hrequested.accepted b r' hr' q hq

theorem requested_step {x : Transition (Bridge F) (BridgeAction F)} (h : x.pre.WellFormed)
    (hs : x.pre.bridgeStep x.action = some x.post) (hx : x ∈ tr) (hrequested : Requested tr x.pre) :
    Requested tr x.post := by
  cases haction : x.action with
  | call c call =>
    rw [haction] at hs
    obtain ⟨caller, hc, hs⟩ := Option.bind_eq_some_iff.1 hs
    split at hs
    · rw [← Option.some.inj hs]
      refine hrequested.move rfl (histories_refl _) (fun stage hstage => ?_)
        fun a snapshot request hstage => ?_
      · cases call with
        | publish | announce | invalidate => cases hstage
        | submit a request =>
          cases hstage
          exact ⟨x, hx, c, haction⟩
      · cases call <;> cases hstage
    · cases hs
  | step c outcome =>
    rw [haction] at hs
    obtain ⟨caller, hc, hs⟩ := Option.bind_eq_some_iff.1 hs
    have hmove : ∀ {new : Caller F}, CallerEffect x.pre c caller new x.post →
        (∀ stage, caller ≠ .submit stage) → (∀ stage, new ≠ .submit stage) →
        Requested tr x.post := by
      intro new heffect hold hnew
      refine hrequested.move heffect.callers ?_ (fun stage hstage => absurd hstage (hnew stage))
        fun _ _ _ hstage => absurd hstage (hnew _)
      exact heffect.history.resolve_right fun ⟨_, _, _, heq⟩ => hold _ heq
    cases caller with
    | publish stage =>
      obtain ⟨new, heffect⟩ := publishStep_effect hs
      refine hmove heffect.caller nofun ?_
      rintro stage' rfl
      exact heffect.publishing
    | announce stage =>
      obtain ⟨new, heffect, hnew⟩ := announceStep_effect hs
      exact hmove heffect nofun hnew
    | submit stage => exact requested_submitStep h ⟨outcome, haction⟩ hx hrequested hc hs
    | invalidate stage =>
      obtain ⟨new, heffect, hnew⟩ := invalidateStep_effect hs
      exact hmove heffect nofun hnew
    | idle | published | announced | submitted | invalidated => cases hs
  | ownerCall call =>
    rw [haction] at hs
    simp only [bridgeStep] at hs
    split at hs
    · rw [← Option.some.inj hs]
      exact ⟨hrequested.stages, hrequested.checked, hrequested.accepted⟩
    · cases hs
  | ownerStep outcome =>
    rw [haction] at hs
    exact ⟨fun c stage hc => hrequested.stages c stage (ownerStep_callers hs ▸ hc),
      fun c a snapshot request hc => hrequested.checked c a snapshot request (ownerStep_callers hs ▸ hc),
      (histories_ownerStep hs).accepted hrequested.accepted⟩
  | hostEnabled a enabled =>
    rw [haction] at hs
    obtain ⟨r, hr, hs⟩ := Option.bind_eq_some_iff.1 hs
    rw [← Option.some.inj hs]
    have hsame : Histories x.pre (x.pre.setRuntime a { r with hostEnabled := enabled }) :=
      histories_setRuntime hr rfl
    exact ⟨hrequested.stages, hrequested.checked, hsame.accepted hrequested.accepted⟩

/-- The session without its end. -/
def deliveryActions : List (BridgeAction Int) := sessionActions.take 62

end Bridge

end Desktop

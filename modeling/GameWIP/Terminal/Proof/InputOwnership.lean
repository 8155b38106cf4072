import Mathlib.Tactic.SplitIfs
import GameWIP.Terminal.InputOwnership

/-!
# One owner of the input, and its mode put back

The log of the input side is a log of the lease protocol (`Lib.Lease`), and the coordinator says
who holds the lease (`InputSide.Tracks`). `restoreManagedInput` and `acquireManagedInput` follow
the protocol (`restoreManagedInput_spec`, `acquireManagedInput_spec`), and so does every call of
every run (`InputSystem.Owned`), where the holder is an open session or the one live lease.

`inputKept` puts together what the protocol gives the callers.
-/

namespace Terminal

open Io (Status)
open Lib (Slots Transition Trace)
open Lib.Lease (Hold next replay)

/-- The snapshot an ownership has to put back. -/
def PreparedInputOwnership.captured (ownership : PreparedInputOwnership) :
    Option InputModeSnapshot :=
  if ownership.hasPreviousMode then some ownership.previousMode else none

/-- The claimant that a session's state or the null pointer stands for. -/
def claimantOf : Option Nat → Claimant
  | none => .direct
  | some id => .session id

abbrev InputHold := Hold Claimant InputModeSnapshot

/-- The claimant holds the input, and its ownership knows the captured mode. -/
def Holds (claimant : Claimant) (ownership : PreparedInputOwnership) (hold : Option InputHold) :
    Prop :=
  ∃ restored, hold = some ⟨claimant, ownership.captured, restored⟩ ∧
    (ownership.hasPreviousMode = false → restored = true) ∧ ownership.claimed = true ∧
    ownership.directClaimed = decide (claimant = .direct)

theorem Holds.unique {c c' : Claimant} {o o' : PreparedInputOwnership} {hold : Option InputHold}
    (h : Holds c o hold) (h' : Holds c' o' hold) : c = c' := by
  obtain ⟨restored, he, _⟩ := h
  obtain ⟨restored', he', _⟩ := h'
  exact congrArg Hold.holder (Option.some.inj (he.symm.trans he'))

theorem not_holds_none {c : Claimant} {o : PreparedInputOwnership} : ¬ Holds c o none := by
  intro ⟨restored, he, _⟩
  cases he

/-! ## The coordinator and its log -/

namespace InputSide

variable {side side' : InputSide} {hold hold' : Option InputHold} {event : InputEvent}

/-- The claimant the coordinator knows. -/
def claimant (side : InputSide) : Option Claimant :=
  if side.directLease then some .direct else side.owner.map .session

/-- The log is one of the protocol, and the coordinator knows its holder. -/
structure Tracks (side : InputSide) (hold : Option InputHold) : Prop where
  replay : replay none side.log = some hold
  holder : hold.map (·.holder) = side.claimant
  exclusive : side.directLease = true → side.owner = none

theorem Tracks.free (h : side.Tracks none) : side.owner = none ∧ side.directLease = false := by
  have hc := h.holder
  unfold claimant at hc
  cases hd : side.directLease with
  | true => simp [hd] at hc
  | false =>
    rw [hd] at hc
    cases ho : side.owner with
    | none => exact ⟨rfl, rfl⟩
    | some id => simp [ho] at hc

theorem Tracks.session {id : Nat} {captured : Option InputModeSnapshot} {restored : Bool}
    (h : side.Tracks (some ⟨.session id, captured, restored⟩)) :
    side.owner = some id ∧ side.directLease = false := by
  have hc := h.holder
  unfold claimant at hc
  cases hd : side.directLease with
  | true => simp [hd] at hc
  | false =>
    rw [hd] at hc
    cases ho : side.owner with
    | none => simp [ho] at hc
    | some id' =>
      simp only [ho, Option.map_some, Bool.false_eq_true, if_false, Option.some.injEq,
        Claimant.session.injEq] at hc
      exact ⟨congrArg some hc.symm, rfl⟩

theorem Tracks.direct {captured : Option InputModeSnapshot} {restored : Bool}
    (h : side.Tracks (some ⟨.direct, captured, restored⟩)) :
    side.owner = none ∧ side.directLease = true := by
  have hc := h.holder
  unfold claimant at hc
  cases hd : side.directLease with
  | true => exact ⟨h.exclusive hd, rfl⟩
  | false =>
    rw [hd] at hc
    cases ho : side.owner with
    | none => simp [ho] at hc
    | some id => simp [ho] at hc

/-- An event of the holder. -/
theorem Tracks.record (h : side.Tracks hold) (hn : next hold event = some hold')
    (hh : hold'.map (·.holder) = hold.map (·.holder)) : (side.record event).Tracks hold' :=
  ⟨Lib.Lease.replay_concat h.replay hn, hh.trans h.holder, h.exclusive⟩

/-- A claim by a session or a direct lease fails and does nothing, or finds the input free. -/
theorem claim_spec (owner : Option Nat) (stream : InputStream) (h : side.Tracks hold) :
    ((side.claim stream owner).2.ok = false ∧ (side.claim stream owner).1 = side) ∨
      ((side.claim stream owner).2.ok = true ∧ hold = none ∧ validInputStream stream = true ∧
        (side.claim stream owner).1.Tracks (some ⟨claimantOf owner, none, true⟩)) := by
  have hfree : side.owner.isSome = false → side.directLease = false → hold = none := by
    intro ho hd
    have hc := h.holder
    unfold claimant at hc
    cases hown : side.owner with
    | none => simpa [hd, hown] using hc
    | some id => simp [hown] at ho
  cases owner with
  | none =>
    unfold claim claimDirectInput
    dsimp only
    split_ifs with hs hb
    · exact .inl ⟨rfl, rfl⟩
    · exact .inl ⟨rfl, rfl⟩
    · simp only [Bool.or_eq_true, not_or, Bool.not_eq_true] at hb
      obtain rfl := hfree hb.1 hb.2
      refine .inr ⟨rfl, rfl, by simpa using hs, Lib.Lease.replay_concat h.replay rfl, rfl, ?_⟩
      intro _
      exact h.free.1
  | some id =>
    unfold claim claimInput
    dsimp only
    split_ifs with hs hb
    · exact .inl ⟨rfl, rfl⟩
    · exact .inl ⟨rfl, rfl⟩
    · simp only [Bool.or_eq_true, not_or, Bool.not_eq_true] at hb
      obtain rfl := hfree hb.1 hb.2
      refine .inr ⟨rfl, rfl, by simpa using hs, Lib.Lease.replay_concat h.replay rfl, ?_, ?_⟩
      · simp [claimant, record, hb.2, claimantOf]
      · intro hd
        exact absurd (hb.2.symm.trans hd) (by decide)

theorem releaseDirectInput_log (stream : InputStream) (side : InputSide) :
    ∃ events, (side.releaseDirectInput stream).log = side.log ++ events := by
  unfold releaseDirectInput
  split_ifs
  · exact ⟨[], (List.append_nil _).symm⟩
  · exact ⟨_, rfl⟩

theorem releaseInput_log (stream : InputStream) (owner : Option Nat) (side : InputSide) :
    ∃ events, (side.releaseInput stream owner).log = side.log ++ events := by
  cases owner with
  | none => exact ⟨[], (List.append_nil _).symm⟩
  | some id =>
    unfold releaseInput
    dsimp only
    split_ifs
    · exact ⟨[], (List.append_nil _).symm⟩
    · exact ⟨_, rfl⟩
    · exact ⟨[], (List.append_nil _).symm⟩

end InputSide

/-! ## Restoration -/

section Restoration

variable {side : InputSide} {hold : Option InputHold} {ownership : PreparedInputOwnership}
  {owner : Option Nat} {stream : InputStream} {retain : Bool} {restoreInputMode : Status}

/-- A release of the holder whose captured mode is put back. -/
theorem release_tracks {captured : Option InputModeSnapshot}
    (h : side.Tracks (some ⟨claimantOf owner, captured, true⟩))
    (hs : validInputStream stream = true)
    (hd : ownership.directClaimed = decide (claimantOf owner = .direct)) :
    (if ownership.directClaimed then side.releaseDirectInput stream
      else side.releaseInput stream owner).Tracks none := by
  cases owner with
  | none =>
    have hdirect : ownership.directClaimed = true := hd
    obtain ⟨ho, _⟩ := h.direct
    simp only [hdirect, if_true, InputSide.releaseDirectInput, hs, Bool.not_true,
      Bool.false_eq_true, if_false]
    refine ⟨Lib.Lease.replay_concat h.replay (by simp [next, claimantOf]), ?_, fun _ => ho⟩
    simp [InputSide.claimant, InputSide.record, ho]
  | some id =>
    have hdirect : ownership.directClaimed = false := hd
    obtain ⟨ho, hl⟩ := h.session
    simp only [hdirect, Bool.false_eq_true, if_false, InputSide.releaseInput, hs, Bool.not_true, ho,
      if_true]
    refine ⟨Lib.Lease.replay_concat h.replay (by simp [next, claimantOf]), ?_, fun _ => rfl⟩
    simp [InputSide.claimant, InputSide.record, hl]

/-- A restoration by the holder: a failed one that retains the claim changes nothing but the log;
any other gives the claim up, with the captured mode put back before. -/
theorem restoreManagedInput_spec (owner : Option Nat) (retain : Bool) (restoreInputMode : Status)
    (ht : side.Tracks hold)
    (hh : Holds (claimantOf owner) ownership hold) (hs : validInputStream stream = true) :
    let result := restoreManagedInput stream ownership owner retain restoreInputMode side
    (retain = true ∧ result.status.ok = false ∧ result.ownership = ownership ∧
      result.side.owner = side.owner ∧ result.side.directLease = side.directLease ∧
      ∃ hold', result.side.Tracks hold' ∧ Holds (claimantOf owner) ownership hold') ∨
    ((result.status.ok = true ∨ retain = false) ∧ result.side.Tracks none ∧
      result.ownership.claimed = false ∧ result.ownership.hasPreviousMode = false) := by
  obtain ⟨restored, rfl, hnone, hclaimed, hdirect⟩ := hh
  intro result
  -- the side and the status behind the restoration, and what the lease is there
  obtain ⟨side', status, hside, hcaptured, hlog⟩ : ∃ side' status,
      (if ownership.hasPreviousMode then
        (side.record (.restore ownership.previousMode), restoreInputMode)
      else (side, Io.successStatus)) = (side', status) ∧
      side'.Tracks (some ⟨claimantOf owner, ownership.captured, true⟩) ∧
      side'.owner = side.owner ∧ side'.directLease = side.directLease := by
    cases hp : ownership.hasPreviousMode with
    | true =>
      have hc : ownership.captured = some ownership.previousMode := by
        simp [PreparedInputOwnership.captured, hp]
      exact ⟨_, _, rfl, ht.record (by simp [next, hc]) rfl, rfl, rfl⟩
    | false =>
      obtain rfl := hnone hp
      exact ⟨_, _, rfl, ht, rfl, rfl⟩
  have hresult : result = if !status.ok && retain then ⟨side', ownership, status⟩
      else ⟨if ownership.directClaimed then side'.releaseDirectInput stream
          else side'.releaseInput stream owner,
        { ownership with claimed := false, hasPreviousMode := false, directClaimed := false },
        status⟩ := by
    simp only [result, restoreManagedInput, hside, hclaimed, if_true]
    split_ifs <;> simp_all
  rw [hresult]
  by_cases hkeep : (!status.ok && retain) = true
  · rw [if_pos hkeep]
    simp only [Bool.and_eq_true, Bool.not_eq_true'] at hkeep
    refine .inl ⟨hkeep.2, hkeep.1, rfl, hlog.1, hlog.2, _, hcaptured, ?_⟩
    exact ⟨true, rfl, fun _ => rfl, hclaimed, hdirect⟩
  · rw [if_neg hkeep]
    refine .inr ⟨?_, release_tracks hcaptured hs hdirect, rfl, rfl⟩
    cases hok : status.ok with
    | true => exact .inl rfl
    | false => exact .inr (by simpa [hok] using hkeep)

/-- A restoration with a captured mode first tries to put it back. -/
theorem restoreManagedInput_log (stream : InputStream) (owner : Option Nat) (retain : Bool)
    (restoreInputMode : Status) (side : InputSide) (hp : ownership.hasPreviousMode = true) :
    ∃ events, (restoreManagedInput stream ownership owner retain restoreInputMode side).side.log =
      side.log ++ .restore ownership.previousMode :: events := by
  have hlog : ∀ events, (side.record (.restore ownership.previousMode)).log ++ events =
      side.log ++ .restore ownership.previousMode :: events :=
    fun events => List.append_assoc _ _ events
  unfold restoreManagedInput
  rw [if_pos hp]
  dsimp only
  split_ifs
  · exact ⟨[], rfl⟩
  · obtain ⟨events, he⟩ :=
      (side.record (.restore ownership.previousMode)).releaseDirectInput_log stream
    exact ⟨events, he.trans (hlog events)⟩
  · obtain ⟨events, he⟩ :=
      (side.record (.restore ownership.previousMode)).releaseInput_log stream owner
    exact ⟨events, he.trans (hlog events)⟩
  · exact ⟨[], rfl⟩

/-- An ownership without a claim and a mode has nothing to restore. -/
theorem restoreManagedInput_idle (hc : ownership.claimed = false)
    (hp : ownership.hasPreviousMode = false) :
    (restoreManagedInput stream ownership owner retain restoreInputMode side).side = side := by
  simp [restoreManagedInput, hc, hp]

/-! ## Acquisition -/

@[simp] theorem appendRestorationDiagnostic_ok (primary restoration : Status) :
    (appendRestorationDiagnostic primary restoration).ok = primary.ok := by
  unfold appendRestorationDiagnostic
  split_ifs <;> rfl

/-- The queries of an acquisition keep the hold and the coordinator; what they capture is the mode
the ownership knows. -/
theorem prepareInput_spec (options : InputOptions) (answers : AcquireAnswers) {claimant : Claimant}
    (ht : side.Tracks (some ⟨claimant, none, true⟩)) (hp : ownership.hasPreviousMode = false)
    (hc : ownership.claimed = true) (hd : ownership.directClaimed = decide (claimant = .direct)) :
    let result := prepareInput options answers ownership side
    ∃ hold', result.side.Tracks hold' ∧ Holds claimant result.ownership hold' := by
  have hidle : ∀ capabilities : InputCapabilities,
      Holds claimant { ownership with capabilities } (some ⟨claimant, none, true⟩) := by
    intro capabilities
    exact ⟨true, by simp [PreparedInputOwnership.captured, hp], fun _ => rfl, hc, hd⟩
  intro result
  simp only [result, prepareInput]
  split_ifs with h1 h2 h3 h4 h5
  · exact ⟨_, ht, hidle ownership.capabilities⟩
  · exact ⟨_, ht, hidle _⟩
  · exact ⟨_, ht, hidle _⟩
  · exact ⟨_, ht, hidle _⟩
  · have hcapture : (side.record (.capture answers.captureInputMode.snapshot)).Tracks
        (some ⟨claimant, some answers.captureInputMode.snapshot, false⟩) := ht.record rfl rfl
    refine ⟨_, hcapture.record rfl rfl, false, rfl, fun hf => ?_, hc, hd⟩
    cases hf
  · exact ⟨_, ht, hidle _⟩

/-- An acquisition finds the input free and holds it, or fails and leaves the coordinator and the
lease as they were. -/
theorem acquireManagedInput_spec (options : InputOptions) (owner : Option Nat)
    (answers : AcquireAnswers) (ht : side.Tracks hold) :
    let result := acquireManagedInput options owner answers side
    (result.status.ok = true ∧ validInputStream options.input = true ∧ hold = none ∧
      ∃ hold', result.side.Tracks hold' ∧ Holds (claimantOf owner) result.ownership hold') ∨
    (result.status.ok = false ∧ result.side.owner = side.owner ∧
      result.side.directLease = side.directLease ∧ result.side.Tracks hold ∧
      result.ownership.claimed = false ∧ result.ownership.hasPreviousMode = false) := by
  intro result
  obtain ⟨hfailed, hside⟩ | ⟨hok, rfl, hs, hclaim⟩ := InputSide.claim_spec owner options.input ht
  · have hresult : result = ⟨side, {}, (side.claim options.input owner).2⟩ := by
      simp [result, acquireManagedInput, hfailed, hside]
    rw [hresult]
    exact .inr ⟨hfailed, rfl, rfl, ht, rfl, rfl⟩
  · let claimed : PreparedInputOwnership := { claimed := true, directClaimed := owner.isNone }
    have hdirect : claimed.directClaimed = decide (claimantOf owner = .direct) := by
      cases owner <;> rfl
    obtain ⟨hold', htracks, hholds⟩ := prepareInput_spec options answers hclaim rfl rfl hdirect
    generalize hp : prepareInput options answers claimed (side.claim options.input owner).1 =
      prepared at htracks hholds
    have hresult : result = if prepared.status.ok then prepared else
        let restored := restoreManagedInput options.input prepared.ownership owner false
          answers.restoreInputMode prepared.side
        ⟨restored.side, restored.ownership,
          appendRestorationDiagnostic prepared.status restored.status⟩ := by
      simp [result, acquireManagedInput, hok, ← hp, claimed]
    rw [hresult]
    cases hprepared : prepared.status.ok with
    | true =>
      rw [if_pos rfl]
      exact .inl ⟨hprepared, hs, rfl, hold', htracks, hholds⟩
    | false =>
      rw [if_neg (by decide)]
      obtain ⟨hretain, _⟩ | ⟨_, hfree, hc, hm⟩ := restoreManagedInput_spec owner false
        answers.restoreInputMode htracks hholds hs
      · cases hretain
      · refine .inr ⟨?_, ?_, ?_, hfree, hc, hm⟩
        · rw [appendRestorationDiagnostic_ok, hprepared]
        · exact hfree.free.1.trans ht.free.1.symm
        · exact hfree.free.2.trans ht.free.2.symm

end Restoration

/-! ## Sessions and leases -/

/-- What can have a claim: a session or the lease of a direct read, by its position. -/
inductive InputOwner where
  | session (id : Nat)
  | lease (id : Nat)
  deriving DecidableEq

def InputOwner.claimant : InputOwner → Claimant
  | .session id => .session id
  | .lease _ => .direct

namespace InputSystem

variable {system next : InputSystem} {hold : Option InputHold} {id : Nat} {session : SessionInput}
  {lease : DirectInputLease}

/-- The holder of the input is an open session or the one live lease, and its ownership knows the
captured mode. -/
structure Owned (system : InputSystem) (hold : Option InputHold) : Prop where
  tracks : system.side.Tracks hold
  session : ∀ i session, Slots.get? system.sessions i = some session → session.isOpen = true →
    validInputStream session.options.input = true ∧ Holds (.session i) session.ownership hold
  closed : ∀ i session, Slots.get? system.sessions i = some session → session.isOpen = false →
    session.ownership.claimed = false
  owner : ∀ i, system.side.owner = some i →
    ∃ session, Slots.get? system.sessions i = some session ∧ session.isOpen = true
  lease : ∀ j lease, Slots.get? system.leases j = some lease →
    validInputStream lease.options_.input = true ∧ Holds .direct lease.ownership_ hold
  directLease : system.side.directLease = true →
    ∃ j lease, Slots.get? system.leases j = some lease
  unique : ∀ j j' lease lease', Slots.get? system.leases j = some lease →
    Slots.get? system.leases j' = some lease' → j = j'

theorem Owned.construct (h : system.Owned hold) :
    Owned { system with sessions := system.sessions ++ [some {}] } hold := by
  refine ⟨h.tracks, fun i session hi ho => ?_, fun i session hi hc => ?_, fun i hi => ?_, h.lease,
    h.directLease, h.unique⟩
  · obtain hi | hi := Slots.get?_append_cases hi
    · cases hi
      cases ho
    · exact h.session i session hi ho
  · obtain hi | hi := Slots.get?_append_cases hi
    · cases hi
      rfl
    · exact h.closed i session hi hc
  · obtain ⟨session, hs, ho⟩ := h.owner i hi
    exact ⟨session, by rw [Slots.get?_append (Slots.lt_length hs)]; exact hs, ho⟩

/-- An acquisition that failed leaves everything as it was. -/
theorem Owned.failed {side : InputSide} (h : system.Owned hold) (ht : side.Tracks hold)
    (ho : side.owner = system.side.owner) (hd : side.directLease = system.side.directLease) :
    Owned { system with side } hold :=
  ⟨ht, h.session, h.closed, fun i hi => h.owner i (ho.symm.trans hi), h.lease,
    fun hl => h.directLease (hd.symm.trans hl), h.unique⟩

/-- With the input free no session is open and no lease is alive. -/
theorem Owned.none_open (h : system.Owned none) :
    (∀ i session, Slots.get? system.sessions i = some session → session.isOpen = false) ∧
      ∀ j, Slots.get? system.leases j = none := by
  constructor
  · intro i session hi
    by_contra ho
    exact not_holds_none (h.session i session hi (by simpa using ho)).2
  · intro j
    by_contra hj
    obtain ⟨lease, hl⟩ := Option.ne_none_iff_exists'.1 hj
    exact not_holds_none (h.lease j lease hl).2

/-- A session that acquired the input. -/
theorem Owned.opened {side : InputSide} {hold' : Option InputHold} (h : system.Owned none)
    (hi : Slots.get? system.sessions id = some session) (ht : side.Tracks hold')
    {opened : SessionInput} (hopen : opened.isOpen = true)
    (hv : validInputStream opened.options.input = true)
    (hh : Holds (.session id) opened.ownership hold') :
    Owned { system with side, sessions := system.sessions.set id (some opened) } hold' := by
  obtain ⟨hsessions, hleases⟩ := h.none_open
  have hside : side.owner = some id ∧ side.directLease = false := by
    obtain ⟨restored, rfl, _⟩ := hh
    exact ht.session
  refine ⟨ht, fun i session' hi' ho => ?_, fun i session' hi' hc => ?_, fun i hi' => ?_,
    fun j lease hj => ?_, fun hl => ?_, fun j j' lease lease' hj => ?_⟩
  · by_cases he : id = i
    · subst he
      rw [Slots.get?_set_self hi] at hi'
      cases hi'
      exact ⟨hv, hh⟩
    · rw [Slots.get?_set_ne he] at hi'
      rw [hsessions i session' hi'] at ho
      cases ho
  · by_cases he : id = i
    · subst he
      rw [Slots.get?_set_self hi] at hi'
      cases hi'
      rw [hopen] at hc
      cases hc
    · rw [Slots.get?_set_ne he] at hi'
      exact h.closed i session' hi' hc
  · obtain rfl : id = i := Option.some.inj (hside.1.symm.trans hi')
    exact ⟨opened, Slots.get?_set_self hi, hopen⟩
  · rw [hleases j] at hj
    cases hj
  · rw [hside.2] at hl
    cases hl
  · rw [hleases j] at hj
    cases hj

/-- The holder session keeps its claim through a failed restoration. -/
theorem Owned.retained {side : InputSide} {hold' : Option InputHold} (h : system.Owned hold)
    (hi : Slots.get? system.sessions id = some session) (ho : session.isOpen = true)
    (ht : side.Tracks hold') (hh : Holds (.session id) session.ownership hold') :
    Owned { system with side } hold' := by
  have hhold := (h.session id session hi ho).2
  have hside : side.owner = some id ∧ side.directLease = false := by
    obtain ⟨restored, rfl, _⟩ := hh
    exact ht.session
  refine ⟨ht, fun i session' hi' ho' => ?_, h.closed, fun i hi' => ?_, fun j lease hj => ?_,
    fun hl => ?_, h.unique⟩
  · obtain ⟨hv, hh'⟩ := h.session i session' hi' ho'
    obtain rfl : id = i := Claimant.session.inj (hhold.unique hh')
    obtain rfl := Option.some.inj (hi.symm.trans hi')
    exact ⟨hv, hh⟩
  · obtain rfl : id = i := Option.some.inj (hside.1.symm.trans hi')
    exact ⟨session, hi, ho⟩
  · cases hhold.unique (h.lease j lease hj).2
  · rw [hside.2] at hl
    cases hl

/-- The holder session is gone, or closed, and the input is free. -/
theorem Owned.released {side : InputSide} {o : Option SessionInput} (h : system.Owned hold)
    (hi : Slots.get? system.sessions id = some session) (hopen : session.isOpen = true)
    (ht : side.Tracks none)
    (hc : ∀ session', o = some session' →
      session'.isOpen = false ∧ session'.ownership.claimed = false) :
    Owned { system with side, sessions := system.sessions.set id o } none := by
  have hhold := (h.session id session hi hopen).2
  refine ⟨ht, fun i session' hi' ho => ?_, fun i session' hi' hc' => ?_, fun i hi' => ?_,
    fun j lease hj => ?_, fun hl => ?_, h.unique⟩
  · by_cases he : id = i
    · subst he
      rw [Slots.get?_set_self hi] at hi'
      rw [(hc session' hi').1] at ho
      cases ho
    · rw [Slots.get?_set_ne he] at hi'
      exact absurd (Claimant.session.inj (hhold.unique (h.session i session' hi' ho).2)) he
  · by_cases he : id = i
    · subst he
      rw [Slots.get?_set_self hi] at hi'
      exact (hc session' hi').2
    · rw [Slots.get?_set_ne he] at hi'
      exact h.closed i session' hi' hc'
  · rw [ht.free.1] at hi'
    cases hi'
  · cases hhold.unique (h.lease j lease hj).2
  · rw [ht.free.2] at hl
    cases hl

/-- A session that is not open is destroyed. -/
theorem Owned.emptied (h : system.Owned hold) (hi : Slots.get? system.sessions id = some session)
    (hc : session.isOpen = false) :
    Owned { system with sessions := system.sessions.set id none } hold := by
  have hget : ∀ i session', Slots.get? (system.sessions.set id none) i = some session' →
      Slots.get? system.sessions i = some session' := by
    intro i session' hi'
    obtain hi' | hi' := Slots.get?_set_cases hi'
    · cases hi'
    · exact hi'
  refine ⟨h.tracks, fun i session' hi' => h.session i session' (hget i session' hi'),
    fun i session' hi' => h.closed i session' (hget i session' hi'), fun i hi' => ?_, h.lease,
    h.directLease, h.unique⟩
  obtain ⟨session', hs, ho⟩ := h.owner i hi'
  refine ⟨session', ?_, ho⟩
  rw [Slots.get?_set_ne, hs]
  intro he
  subst he
  obtain rfl := Option.some.inj (hi.symm.trans hs)
  rw [hc] at ho
  cases ho

/-- A direct read that acquired the input. -/
theorem Owned.leased {side : InputSide} {hold' : Option InputHold} (h : system.Owned none)
    (ht : side.Tracks hold') (hv : validInputStream lease.options_.input = true)
    (hh : Holds .direct lease.ownership_ hold') :
    Owned { system with side, leases := system.leases ++ [some lease] } hold' := by
  obtain ⟨hsessions, hleases⟩ := h.none_open
  have hside : side.owner = none ∧ side.directLease = true := by
    obtain ⟨restored, rfl, _⟩ := hh
    exact ht.direct
  have hget : ∀ j lease', Slots.get? (system.leases ++ [some lease]) j = some lease' →
      lease' = lease ∧ j = system.leases.length := by
    intro j lease' hj
    have hlt := Slots.lt_length hj
    simp only [List.length_append, List.length_singleton] at hlt
    obtain hj' | hj' := Slots.get?_append_cases hj
    · refine ⟨(Option.some.inj hj').symm, ?_⟩
      by_contra hne
      rw [Slots.get?_append (by omega), hleases j] at hj
      cases hj
    · rw [hleases j] at hj'
      cases hj'
  refine ⟨ht, fun i session hi ho => ?_, h.closed, fun i hi => ?_, fun j lease' hj => ?_,
    fun _ => ?_, fun j j' lease₁ lease₂ hj hj' => ?_⟩
  · rw [hsessions i session hi] at ho
    cases ho
  · rw [hside.1] at hi
    cases hi
  · obtain ⟨rfl, _⟩ := hget j lease' hj
    exact ⟨hv, hh⟩
  · refine ⟨system.leases.length, lease, Slots.get?_eq_some.2 ?_⟩
    exact List.getElem?_concat_length
  · exact (hget j lease₁ hj).2.trans (hget j' lease₂ hj').2.symm

/-- A direct read that did not acquire the input. -/
theorem Owned.refused {side : InputSide} (h : system.Owned hold) (ht : side.Tracks hold)
    (ho : side.owner = system.side.owner) (hd : side.directLease = system.side.directLease) :
    Owned { system with side, leases := system.leases ++ [none] } hold := by
  have hget : ∀ j, Slots.get? (system.leases ++ [none]) j = Slots.get? system.leases j :=
    fun _ => Slots.get?_append_none
  refine ⟨ht, h.session, h.closed, fun i hi => h.owner i (ho.symm.trans hi), fun j lease hj => ?_,
    fun hl => ?_, fun j j' lease lease' hj hj' => ?_⟩
  · exact h.lease j lease ((hget j).symm.trans hj)
  · obtain ⟨j, lease, hj⟩ := h.directLease (hd.symm.trans hl)
    exact ⟨j, lease, (hget j).trans hj⟩
  · exact h.unique j j' lease lease' ((hget j).symm.trans hj) ((hget j').symm.trans hj')

/-- The direct read is over. -/
theorem Owned.returned {side : InputSide} (h : system.Owned hold)
    (hj : Slots.get? system.leases id = some lease) (ht : side.Tracks none) :
    Owned { system with side, leases := system.leases.set id none } none := by
  have hhold := (h.lease id lease hj).2
  have hget : ∀ j lease', Slots.get? (system.leases.set id none) j ≠ some lease' := by
    intro j lease' hj'
    by_cases he : id = j
    · subst he
      rw [Slots.get?_set_self hj] at hj'
      cases hj'
    · rw [Slots.get?_set_ne he] at hj'
      exact he (h.unique id j lease lease' hj hj')
  refine ⟨ht, fun i session hi ho => ?_, h.closed, fun i hi => ?_, fun j lease' hj' => ?_,
    fun hl => ?_, fun j j' lease' lease'' hj' => ?_⟩
  · cases hhold.unique (h.session i session hi ho).2
  · rw [ht.free.1] at hi
    cases hi
  · exact absurd hj' (hget j lease')
  · rw [ht.free.2] at hl
    cases hl
  · exact absurd hj' (hget j lease')

theorem owned_init : Owned {} none := by
  have hsession : ∀ i session,
      Slots.get? ({} : InputSystem).sessions i ≠ some session := by
    intro i session hi
    cases hi
  have hlease : ∀ j lease, Slots.get? ({} : InputSystem).leases j ≠ some lease := by
    intro j lease hj
    cases hj
  refine ⟨⟨rfl, rfl, fun _ => rfl⟩, fun i session hi => absurd hi (hsession i session),
    fun i session hi => absurd hi (hsession i session), fun i hi => ?_,
    fun j lease hj => absurd hj (hlease j lease), fun hl => ?_,
    fun j j' lease lease' hj => absurd hj (hlease j lease)⟩
  · cases hi
  · cases hl

/-! ## What a call does -/

variable {side : InputSide}

/-- The coordinator knows the same owner and the same direct lease. -/
def SameCoordinator (side side' : InputSide) : Prop :=
  side'.owner = side.owner ∧ side'.directLease = side.directLease

/-- A failed `open` changes no session and leaves the coordinator as it was; one that succeeds
opens a closed session. -/
theorem openSession_spec (options : InputOptions) (answers : AcquireAnswers)
    (h : system.Owned hold) (hi : Slots.get? system.sessions id = some session) :
    let result := system.openSession id options answers session
    (result.2.ok = false ∧ result.1.Owned hold ∧ result.1.sessions = system.sessions ∧
      result.1.leases = system.leases ∧ SameCoordinator system.side result.1.side) ∨
    (result.2.ok = true ∧ session.isOpen = false ∧ ∃ hold' opened, result.1.Owned hold' ∧
      result.1.sessions = system.sessions.set id (some opened) ∧
      result.1.leases = system.leases) := by
  intro result
  by_cases hvalid : (!validInputStream options.input || !validDeliveryMode options.deliveryMode ||
      !validControlKeyMode options.controlKeyMode) = true
  · have hresult : result = (system, Io.makeStatus .invalidArgument) := if_pos hvalid
    rw [hresult]
    exact .inl ⟨rfl, h, rfl, rfl, rfl, rfl⟩
  by_cases hopen : session.isOpen = true
  · have hresult : result = (system, Io.makeStatus .alreadyOpen) :=
      (if_neg hvalid).trans (if_pos hopen)
    rw [hresult]
    exact .inl ⟨rfl, h, rfl, rfl, rfl, rfl⟩
  let acquired := acquireManagedInput options (some id) answers system.side
  have hresult : result = if !acquired.status.ok then
      ({ system with side := acquired.side }, acquired.status)
      else
        ({ system with
          side := acquired.side
          sessions := system.sessions.set id
            (some { options, ownership := acquired.ownership, isOpen := true }) },
          Io.successStatus) := (if_neg hvalid).trans (if_neg hopen)
  rw [hresult]
  obtain ⟨hok, hv, rfl, hold', ht, hh⟩ | ⟨hok, ho, hd, ht, _⟩ :=
    acquireManagedInput_spec options (some id) answers h.tracks
  · rw [if_neg (by simp [acquired, hok])]
    exact .inr ⟨rfl, by simpa using hopen, hold', _, h.opened hi ht rfl hv hh, rfl, rfl⟩
  · rw [if_pos (by simp [acquired, hok])]
    exact .inl ⟨hok, h.failed ht ho hd, rfl, rfl, ho, hd⟩

/-- A failed `close` changes no session and leaves the coordinator as it was; one that succeeds
finds the session closed, or closes it. -/
theorem close_spec (restoreOutputState restoreInputMode : Status)
    (h : system.Owned hold) (hi : Slots.get? system.sessions id = some session) :
    let result := system.close id restoreOutputState restoreInputMode session
    result.1.leases = system.leases ∧
    ((result.2.ok = true ∧ session.isOpen = false ∧ result.1 = system) ∨
    (result.2.ok = false ∧ (∃ hold', result.1.Owned hold') ∧
      result.1.sessions = system.sessions ∧ SameCoordinator system.side result.1.side) ∨
    (result.2.ok = true ∧ result.1.Owned none ∧
      ∃ closed, result.1.sessions = system.sessions.set id (some closed))) := by
  intro result
  by_cases hopen : session.isOpen = true
  · by_cases hout : restoreOutputState.ok = true
    · let restored := restoreManagedInput session.options.input session.ownership (some id) true
        restoreInputMode system.side
      have hresult : result = if !restored.status.ok then
          ({ system with
            side := restored.side
            sessions := system.sessions.set id
              (some { session with ownership := restored.ownership }) }, restored.status)
          else
            ({ system with
              side := restored.side
              sessions := system.sessions.set id
                (some { session with ownership := restored.ownership, isOpen := false }) },
              Io.successStatus) :=
        (if_neg (by simp [hopen])).trans (if_neg (by simp [hout]))
      rw [hresult]
      obtain ⟨hv, hh⟩ := h.session id session hi hopen
      obtain ⟨_, hok, he, ho, hd, hold', ht, hh'⟩ | ⟨hok, ht, hc, hm⟩ :=
        restoreManagedInput_spec (some id) true restoreInputMode h.tracks hh hv
      · rw [if_pos (by simp [restored, hok])]
        have hsame : system.sessions.set id (some { session with ownership := restored.ownership }) =
            system.sessions := by
          rw [show restored.ownership = session.ownership from he]
          exact Slots.set_get? hi
        rw [hsame]
        exact ⟨rfl, .inr (.inl ⟨hok, ⟨hold', h.retained hi hopen ht hh'⟩, rfl, ho, hd⟩)⟩
      · have hok' := hok.resolve_right (by decide)
        rw [if_neg (by simp [restored, hok'])]
        refine ⟨rfl, .inr (.inr ⟨rfl, h.released hi hopen ht ?_, _, rfl⟩)⟩
        intro session' hs
        cases hs
        exact ⟨rfl, hc⟩
    · have hresult : result = (system, restoreOutputState) :=
        (if_neg (by simp [hopen])).trans (if_pos (by simpa using hout))
      rw [hresult]
      exact ⟨rfl, .inr (.inl ⟨by simpa using hout, ⟨hold, h⟩, rfl, rfl, rfl⟩)⟩
  · have hresult : result = (system, Io.successStatus) := if_pos (by simpa using hopen)
    rw [hresult]
    exact ⟨rfl, .inl ⟨rfl, by simpa using hopen, rfl⟩⟩

/-- The destructor empties the session's slot. -/
theorem destroy_spec (restoreInputMode : Status) (h : system.Owned hold)
    (hi : Slots.get? system.sessions id = some session) :
    (∃ hold', (system.destroy id restoreInputMode session).Owned hold') ∧
      (system.destroy id restoreInputMode session).sessions = system.sessions.set id none ∧
      (system.destroy id restoreInputMode session).leases = system.leases := by
  unfold destroy
  cases hopen : session.isOpen with
  | false => exact ⟨⟨hold, h.emptied hi hopen⟩, rfl, rfl⟩
  | true =>
    simp only [Bool.not_true, Bool.false_eq_true, if_false, and_self, and_true]
    obtain ⟨hv, hh⟩ := h.session id session hi hopen
    obtain ⟨hretain, _⟩ | ⟨_, ht, _⟩ :=
      restoreManagedInput_spec (some id) false restoreInputMode h.tracks hh hv
    · cases hretain
    · refine ⟨none, h.released hi hopen ht ?_⟩
      intro session' hs
      cases hs

/-- A refused direct read leaves no lease and the coordinator as it was. -/
theorem beginRead_spec (options : InputOptions) (answers : AcquireAnswers)
    (h : system.Owned hold) :
    let result := system.beginRead options answers
    result.1.sessions = system.sessions ∧
    ((result.2.ok = false ∧ result.1.Owned hold ∧ result.1.leases = system.leases ++ [none] ∧
      SameCoordinator system.side result.1.side) ∨
    (result.2.ok = true ∧ ∃ hold', result.1.Owned hold')) := by
  intro result
  simp only [result, beginRead]
  obtain ⟨hok, hv, rfl, hold', ht, hh⟩ | ⟨hok, ho, hd, ht, hc, hm⟩ :=
    acquireManagedInput_spec options none answers h.tracks
  · simp only [hok, Bool.not_true, Bool.false_eq_true, if_false]
    exact ⟨trivial, .inr ⟨rfl, hold', h.leased ht hv hh⟩⟩
  · rw [if_pos (by simp [hok]), restoreManagedInput_idle hc hm]
    exact ⟨rfl, .inl ⟨hok, h.refused ht ho hd, rfl, ho, hd⟩⟩

/-- The end of a direct read gives the input back, whatever the reading and the restoration
return. -/
theorem endRead_spec (primary : Option Status) (restoreInputMode : Status) (h : system.Owned hold)
    (hj : Slots.get? system.leases id = some lease) :
    let result := system.endRead id primary restoreInputMode lease
    result.1.Owned none ∧ result.1.sessions = system.sessions := by
  intro result
  obtain ⟨hv, hh⟩ := h.lease id lease hj
  obtain ⟨hretain, _⟩ | ⟨_, ht, hc, hm⟩ :=
    restoreManagedInput_spec none false restoreInputMode h.tracks hh hv
  · cases hretain
  · refine ⟨?_, rfl⟩
    simp only [result, endRead, restoreManagedInput_idle hc hm]
    exact h.returned hj ht

/-- Every call keeps the ownership. -/
theorem Owned.step {call : InputCall} (h : system.Owned hold)
    (hs : system.step call = some next) : ∃ hold', next.Owned hold' := by
  obtain ⟨⟨next', status⟩, hcall, rfl⟩ := Option.map_eq_some_iff.1 hs
  cases call with
  | construct =>
    cases hcall
    exact ⟨hold, h.construct⟩
  | openSession id options answers =>
    obtain ⟨session, hi, he⟩ := Option.map_eq_some_iff.1 hcall
    rw [← he]
    obtain ⟨_, ho, _⟩ | ⟨_, _, hold', _, ho, _⟩ := openSession_spec options answers h hi
    · exact ⟨hold, ho⟩
    · exact ⟨hold', ho⟩
  | close id restoreOutputState restoreInputMode =>
    obtain ⟨session, hi, he⟩ := Option.map_eq_some_iff.1 hcall
    rw [← he]
    obtain ⟨_, ⟨_, _, he⟩ | ⟨_, ho, _⟩ | ⟨_, ho, _⟩⟩ :=
      close_spec restoreOutputState restoreInputMode h hi
    · rw [he]
      exact ⟨hold, h⟩
    · exact ho
    · exact ⟨none, ho⟩
  | destroy id restoreInputMode =>
    obtain ⟨session, hi, he⟩ := Option.map_eq_some_iff.1 hcall
    rw [← he]
    exact (destroy_spec restoreInputMode h hi).1
  | beginRead options answers =>
    rw [← Option.some.inj hcall]
    obtain ⟨_, ⟨_, ho, _⟩ | ⟨_, ho⟩⟩ := beginRead_spec options answers h
    · exact ⟨hold, ho⟩
    · exact ho
  | endRead id primary restoreInputMode =>
    obtain ⟨lease, hj, he⟩ := Option.map_eq_some_iff.1 hcall
    rw [← he]
    exact ⟨none, (endRead_spec primary restoreInputMode h hj).1⟩

/-! ## The claims -/

/-- The session, or the lease of a direct read, at a position has a claim on the input. -/
def claims (system : InputSystem) : InputOwner → Prop
  | .session i => ∃ session, Slots.get? system.sessions i = some session ∧
      session.ownership.claimed = true
  | .lease j => ∃ lease, Slots.get? system.leases j = some lease ∧ lease.ownership_.claimed = true

theorem Owned.claimed_eq (h : system.Owned hold)
    (hi : Slots.get? system.sessions id = some session) :
    session.ownership.claimed = session.isOpen := by
  cases hopen : session.isOpen with
  | false => exact h.closed id session hi hopen
  | true =>
    obtain ⟨_, _, _, _, hc, _⟩ := h.session id session hi hopen
    exact hc

/-- Who has a claim holds the input. -/
theorem Owned.holds {o : InputOwner} (h : system.Owned hold) (ho : system.claims o) :
    ∃ ownership, Holds o.claimant ownership hold := by
  cases o with
  | session i =>
    obtain ⟨session, hi, hc⟩ := ho
    rw [h.claimed_eq hi] at hc
    exact ⟨_, (h.session i session hi hc).2⟩
  | lease j =>
    obtain ⟨lease, hj, _⟩ := ho
    exact ⟨_, (h.lease j lease hj).2⟩

theorem Owned.exclusive {o o' : InputOwner} (h : system.Owned hold) (ho : system.claims o)
    (ho' : system.claims o') : o = o' := by
  obtain ⟨_, hh⟩ := h.holds ho
  obtain ⟨_, hh'⟩ := h.holds ho'
  have he := hh.unique hh'
  cases o with
  | session i =>
    cases o' with
    | session i' => rw [Claimant.session.inj he]
    | lease j' => cases he
  | lease j =>
    cases o' with
    | session i' => cases he
    | lease j' =>
      obtain ⟨lease, hj, _⟩ := ho
      obtain ⟨lease', hj', _⟩ := ho'
      rw [h.unique j j' lease lease' hj hj']

/-- The coordinator's owner is the session with the claim. -/
theorem Owned.owner_iff (h : system.Owned hold) (i : Nat) :
    system.side.owner = some i ↔ system.claims (.session i) := by
  constructor
  · intro hi
    obtain ⟨session, hs, ho⟩ := h.owner i hi
    exact ⟨session, hs, (h.claimed_eq hs).trans ho⟩
  · intro hi
    obtain ⟨_, restored, rfl, _⟩ := h.holds hi
    exact h.tracks.session.1

/-- The coordinator's flag is the lease with the claim. -/
theorem Owned.directLease_iff (h : system.Owned hold) :
    system.side.directLease = true ↔ ∃ j, system.claims (.lease j) := by
  constructor
  · intro hl
    obtain ⟨j, lease, hj⟩ := h.directLease hl
    obtain ⟨_, _, _, _, hc, _⟩ := h.lease j lease hj
    exact ⟨j, lease, hj, hc⟩
  · intro ⟨j, hj⟩
    obtain ⟨_, restored, rfl, _⟩ := h.holds hj
    exact h.tracks.direct.2

/-- An open session keeps its state, the captured mode with it, until a `close` succeeds or it is
destroyed. -/
theorem call_kept {call : InputCall} {status : Status} (h : system.Owned hold)
    (hcall : system.call call = some (next, status))
    (hi : Slots.get? system.sessions id = some session) (hopen : session.isOpen = true) :
    Slots.get? next.sessions id = some session ∨
      (∃ out mode, call = .close id out mode ∧ status.ok = true) ∨ ∃ mode, call = .destroy id mode := by
  cases call with
  | construct =>
    cases hcall
    exact .inl ((Slots.get?_append (Slots.lt_length hi)).trans hi)
  | openSession id' options answers =>
    obtain ⟨session', hi', he⟩ := Option.map_eq_some_iff.1 hcall
    obtain ⟨_, _, hs, _⟩ | ⟨_, hc, _, _, _, hs, _⟩ := openSession_spec options answers h hi'
    · rw [he] at hs
      exact .inl (hs ▸ hi)
    · rw [he] at hs
      refine .inl ?_
      rw [show next.sessions = _ from hs, Slots.get?_set_ne, hi]
      intro hid
      subst hid
      obtain rfl := Option.some.inj (hi.symm.trans hi')
      rw [hopen] at hc
      cases hc
  | close id' out mode =>
    obtain ⟨session', hi', he⟩ := Option.map_eq_some_iff.1 hcall
    obtain ⟨_, ⟨_, _, hs⟩ | ⟨_, _, hs, _⟩ | ⟨hok, _, _, hs⟩⟩ := close_spec out mode h hi'
    · rw [he] at hs
      obtain rfl : next = system := hs
      exact .inl hi
    · rw [he] at hs
      exact .inl (hs ▸ hi)
    · rw [he] at hs hok
      by_cases hid : id' = id
      · subst hid
        exact .inr (.inl ⟨out, mode, rfl, hok⟩)
      · refine .inl ?_
        rw [show next.sessions = _ from hs, Slots.get?_set_ne hid, hi]
  | destroy id' mode =>
    obtain ⟨session', hi', he⟩ := Option.map_eq_some_iff.1 hcall
    have hs := (destroy_spec mode h hi').2.1
    obtain ⟨rfl, _⟩ := Prod.mk.inj he
    by_cases hid : id' = id
    · subst hid
      exact .inr (.inr ⟨mode, rfl⟩)
    · refine .inl ?_
      rw [hs, Slots.get?_set_ne hid, hi]
  | beginRead options answers =>
    have hs := (beginRead_spec options answers h).1
    rw [Option.some.inj hcall] at hs
    exact .inl (hs ▸ hi)
  | endRead id' primary mode =>
    obtain ⟨lease, hj, he⟩ := Option.map_eq_some_iff.1 hcall
    have hs := (endRead_spec primary mode h hj).2
    rw [he] at hs
    exact .inl (hs ▸ hi)

/-- A `close` that gets to the input tries to put the captured mode back. -/
theorem close_log (system : InputSystem) (id : Nat) {restoreOutputState : Status}
    (restoreInputMode : Status) (hopen : session.isOpen = true)
    (hout : restoreOutputState.ok = true) (hp : session.ownership.hasPreviousMode = true) :
    ∃ events, (system.close id restoreOutputState restoreInputMode session).1.side.log =
      system.side.log ++ .restore session.ownership.previousMode :: events := by
  obtain ⟨events, he⟩ := restoreManagedInput_log session.options.input (some id) true
    restoreInputMode system.side hp
  refine ⟨events, ?_⟩
  rw [← he]
  unfold close
  rw [if_neg (by simp [hopen]), if_neg (by simp [hout])]
  dsimp only
  split_ifs <;> rfl

end InputSystem

/-! ## One owner, and its mode put back -/

open InputSystem in
/-- What every call keeps.

At most one session or direct read has a claim, the one the coordinator knows, and the sessions
with a claim are the open ones. An `open`, a direct read or a `close` that fails leaves the claims
and the coordinator as they were, and the end of a direct read gives its claim up. An open session
keeps its captured mode until a `close` succeeds or it is destroyed, and every `close` that gets to
the input tries to put that mode back. Between the capture of a mode and the next release the mode
has been put back. -/
structure InputKept (x : Transition InputSystem InputCall) : Prop where
  exclusive : ∀ o o', x.post.claims o → x.post.claims o' → o = o'
  owner : ∀ i, x.post.side.owner = some i ↔ x.post.claims (.session i)
  directLease : x.post.side.directLease = true ↔ ∃ j, x.post.claims (.lease j)
  claimed : ∀ i session, Slots.get? x.post.sessions i = some session →
    session.ownership.claimed = session.isOpen
  failedOpen : ∀ id options answers status, x.action = .openSession id options answers →
    x.pre.call x.action = some (x.post, status) → status.ok = false →
    x.post.sessions = x.pre.sessions ∧ x.post.leases = x.pre.leases ∧
      SameCoordinator x.pre.side x.post.side
  failedRead : ∀ options answers status, x.action = .beginRead options answers →
    x.pre.call x.action = some (x.post, status) → status.ok = false →
    (∀ o, x.post.claims o ↔ x.pre.claims o) ∧ SameCoordinator x.pre.side x.post.side
  endedRead : ∀ id primary mode, x.action = .endRead id primary mode →
    (∀ o, ¬ x.post.claims o) ∧ x.post.side.owner = none ∧ x.post.side.directLease = false
  failedClose : ∀ id out mode status, x.action = .close id out mode →
    x.pre.call x.action = some (x.post, status) → status.ok = false →
    x.post.sessions = x.pre.sessions ∧ x.post.leases = x.pre.leases ∧
      SameCoordinator x.pre.side x.post.side
  kept : ∀ id session status, x.pre.call x.action = some (x.post, status) →
    Slots.get? x.pre.sessions id = some session → session.isOpen = true →
    Slots.get? x.post.sessions id = some session ∨
      (∃ out mode, x.action = .close id out mode ∧ status.ok = true) ∨
      ∃ mode, x.action = .destroy id mode
  retried : ∀ id out mode session, x.action = .close id out mode →
    Slots.get? x.pre.sessions id = some session → session.isOpen = true → out.ok = true →
    session.ownership.hasPreviousMode = true →
    ∃ events, x.post.side.log = x.pre.side.log ++ .restore session.ownership.previousMode :: events
  putBack : ∀ before snapshot between claimant after,
    x.post.side.log = before ++ .capture snapshot :: between ++ .release claimant :: after →
    (∀ c, Lib.Lease.Event.release c ∉ between) → .restore snapshot ∈ between

namespace InputSystem

variable {system next : InputSystem} {hold : Option InputHold} {call : InputCall}

/-- A call on an owned input. -/
theorem Owned.kept (h : system.Owned hold) (hs : system.step call = some next) :
    InputKept ⟨system, call, next⟩ := by
  obtain ⟨hold', h'⟩ := h.step hs
  obtain ⟨⟨next', status⟩, hcall, rfl⟩ := Option.map_eq_some_iff.1 hs
  refine ⟨fun _ _ => h'.exclusive, h'.owner_iff, h'.directLease_iff, fun _ _ => h'.claimed_eq,
    fun id options answers status' ha hcall' hf => ?_, fun options answers status' ha hcall' hf => ?_,
    fun id primary mode ha => ?_, fun id out mode status' ha hcall' hf => ?_,
    fun id session status' hcall' => call_kept h hcall',
    fun id out mode session ha hi hopen hout hp => ?_,
    fun before snapshot between claimant after hlog => ?_⟩
  · subst ha
    obtain ⟨session, hi, he⟩ := Option.map_eq_some_iff.1 hcall'
    have hspec := openSession_spec options answers h hi
    rw [he] at hspec
    obtain ⟨_, _, hsame⟩ | ⟨hok, _⟩ := hspec
    · exact hsame
    · cases hf.symm.trans hok
  · subst ha
    have hspec := beginRead_spec options answers h
    rw [Option.some.inj hcall'] at hspec
    obtain ⟨hsessions, ⟨_, _, hleases, hsame⟩ | ⟨hok, _⟩⟩ := hspec
    · refine ⟨fun o => ?_, hsame⟩
      change next'.sessions = system.sessions at hsessions
      change next'.leases = system.leases ++ [none] at hleases
      cases o with
      | session i => simp only [claims, hsessions]
      | lease j => simp only [claims, hleases, Slots.get?_append_none]
    · cases hf.symm.trans hok
  · subst ha
    obtain ⟨lease, hj, he⟩ := Option.map_eq_some_iff.1 hcall
    have hspec := (endRead_spec primary mode h hj).1
    rw [he] at hspec
    refine ⟨fun o ho => ?_, hspec.tracks.free⟩
    obtain ⟨_, hh⟩ := hspec.holds ho
    exact not_holds_none hh
  · subst ha
    obtain ⟨session, hi, he⟩ := Option.map_eq_some_iff.1 hcall'
    have hspec := close_spec out mode h hi
    rw [he] at hspec
    obtain ⟨hleases, ⟨hok, _⟩ | ⟨_, _, hsessions, hsame⟩ | ⟨hok, _⟩⟩ := hspec
    · cases hf.symm.trans hok
    · exact ⟨hsessions, hleases, hsame⟩
    · cases hf.symm.trans hok
  · subst ha
    obtain ⟨session', hi', he⟩ := Option.map_eq_some_iff.1 hcall
    obtain rfl := Option.some.inj (hi.symm.trans hi')
    have hlog := close_log system id mode hopen hout hp
    rw [he] at hlog
    exact hlog
  · have hreplay := h'.tracks.replay
    rw [hlog] at hreplay
    exact Lib.Lease.restore_mem (by rw [hreplay]; rfl)

end InputSystem

/-- **One owner of the input.** In every run of opens, closes, destructions and direct reads, with
any answers of the platform, every call keeps the input with one owner and its mode put back. -/
theorem inputKept {tr : List (Transition InputSystem InputCall)} {u : InputSystem}
    (h : Trace InputSystem.step {} tr u) : ∀ x ∈ tr, InputKept x := by
  intro x hx
  have hinv := h.invariant_of_step (I := fun system => ∃ hold, system.Owned hold)
    ⟨none, InputSystem.owned_init⟩ fun _ _ _ ⟨_, hi⟩ hs => hi.step hs
  obtain ⟨hold, hpre⟩ := (hinv.2 x hx).1
  exact hpre.kept (h.mem_step hx)

/-- A terminal with events in its usual mode. -/
def eventTerminal : AcquireAnswers where
  getInputCapabilities := { capabilities := { kind := .terminal, supportsEventInput := true } }
  captureInputMode := { snapshot := { nativeMode := 7, hasNativeMode := true } }

/-- A session opens on a terminal, a direct read is refused, and the session's close fails to put
the mode back. Another open finds the input taken, the close is tried again, and a direct read whose
mode change fails is refused behind it. -/
def retriedRestore : List InputCall :=
  [.construct, .construct, .openSession 0 {} eventTerminal, .beginRead {} eventTerminal,
    .close 0 Io.successStatus (Io.makeStatus .nativeFailure), .openSession 1 {} eventTerminal,
    .close 0 Io.successStatus Io.successStatus,
    .beginRead {} { eventTerminal with setInputMode := Io.makeStatus .nativeFailure }]

theorem inputKept_retriedRestore :
    (Lib.run InputSystem.step {} retriedRestore).map (fun r =>
      (r.1.map fun x => x.post.side.owner, r.2.side.directLease, r.2.side.log)) =
      some ([none, none, some 0, some 0, some 0, some 0, none, none], false,
        let captured := eventTerminal.captureInputMode.snapshot
        let managed := managedMode {} captured.mode eventTerminal.getInputCapabilities.capabilities
        [.claim (.session 0), .capture captured, .change managed, .restore captured,
          .restore captured, .release (.session 0), .claim .direct, .capture captured,
          .change managed, .restore captured, .release .direct]) ∧
    ∀ r, Lib.run InputSystem.step {} retriedRestore = some r → ∀ x ∈ r.1, InputKept x :=
  ⟨by decide +kernel, fun _ hr => inputKept (Trace.of_run hr)⟩

end Terminal

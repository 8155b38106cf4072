import Mathlib.Data.List.Sublists
import Mathlib.Data.List.Nodup

/-!
# Queues whose last value may be replaced

A queue takes values in at the end and gives them out at the front; a value that `replaces` the last
one of the queue takes its place instead. `Event` is what happens to such a queue, and
`Coalesced replaces id h queue` says what a history `h` means for the values: what has been given out
and what is still queued are values taken in, in their order, and a value is missing from them
exactly when the next one taken in replaced it before it was given out (`Superseded`).

The rules are one for each operation: `Coalesced.push`, `Coalesced.replace`, `Coalesced.pop`.
-/

namespace Lib

variable {α : Type*}

inductive Event (α : Type*) where
  | accepted (a : α)
  | popped (a : α)
  deriving DecidableEq, Repr

namespace Event

def accepted? : Event α → Option α
  | .accepted a => some a
  | .popped _ => none

def popped? : Event α → Option α
  | .accepted _ => none
  | .popped a => some a

end Event

/-- The values taken in, in order. -/
def acceptedOf (h : List (Event α)) : List α := h.filterMap Event.accepted?

/-- The values given out, in order. -/
def poppedOf (h : List (Event α)) : List α := h.filterMap Event.popped?

section

variable {h : List (Event α)} {a b : α}

@[simp] theorem acceptedOf_accepted : acceptedOf (h ++ [.accepted a]) = acceptedOf h ++ [a] := by
  simp [acceptedOf, Event.accepted?]

@[simp] theorem acceptedOf_popped : acceptedOf (h ++ [.popped a]) = acceptedOf h := by
  simp [acceptedOf, Event.accepted?]

@[simp] theorem poppedOf_accepted : poppedOf (h ++ [.accepted a]) = poppedOf h := by
  simp [poppedOf, Event.popped?]

@[simp] theorem poppedOf_popped : poppedOf (h ++ [.popped a]) = poppedOf h ++ [a] := by
  simp [poppedOf, Event.popped?]

theorem mem_acceptedOf : a ∈ acceptedOf h ↔ .accepted a ∈ h := by
  unfold acceptedOf
  constructor
  · intro ha
    obtain ⟨e, he, heq⟩ := List.mem_filterMap.1 ha
    cases e with
    | accepted b => cases heq; exact he
    | popped b => cases heq
  · exact fun he => List.mem_filterMap.2 ⟨_, he, rfl⟩

theorem mem_poppedOf : a ∈ poppedOf h ↔ .popped a ∈ h := by
  unfold poppedOf
  constructor
  · intro ha
    obtain ⟨e, he, heq⟩ := List.mem_filterMap.1 ha
    cases e with
    | accepted b => cases heq
    | popped b => cases heq; exact he
  · exact fun he => List.mem_filterMap.2 ⟨_, he, rfl⟩

end

variable {replaces : α → α → Bool} {id : α → Nat}

/-- The next value taken in replaced `a`, which had not been given out. -/
def Superseded (replaces : α → α → Bool) (h : List (Event α)) (a : α) : Prop :=
  ∃ h₁ h₂ b h₃, h = h₁ ++ .accepted a :: (h₂ ++ .accepted b :: h₃) ∧
    (∀ e ∈ h₂, ∃ c, e = .popped c ∧ c ≠ a) ∧ replaces a b = true

theorem Superseded.mem_acceptedOf {h : List (Event α)} {a : α} (hs : Superseded replaces h a) :
    a ∈ acceptedOf h := by
  obtain ⟨h₁, h₂, b, h₃, rfl, -⟩ := hs
  exact Lib.mem_acceptedOf.2 (by simp)

/-- One more event. -/
theorem superseded_append {h : List (Event α)} {e : Event α} {a : α} :
    Superseded replaces (h ++ [e]) a ↔ Superseded replaces h a ∨
      ∃ b, e = .accepted b ∧ replaces a b = true ∧
        ∃ h₁ h₂, h = h₁ ++ .accepted a :: h₂ ∧ ∀ e ∈ h₂, ∃ c, e = .popped c ∧ c ≠ a := by
  constructor
  · rintro ⟨h₁, h₂, b, h₃, heq, hbetween, hreplaces⟩
    rcases List.eq_nil_or_concat h₃ with rfl | ⟨h₃, e', rfl⟩
    · have heq' : h ++ [e] = (h₁ ++ .accepted a :: h₂) ++ [.accepted b] := by simp [heq]
      obtain ⟨rfl, he⟩ := List.append_inj' heq' rfl
      exact .inr ⟨b, List.singleton_inj.1 he, hreplaces, h₁, h₂, rfl, hbetween⟩
    · have heq' : h ++ [e] = (h₁ ++ .accepted a :: (h₂ ++ .accepted b :: h₃)) ++ [e'] := by
        simp [heq]
      obtain ⟨rfl, -⟩ := List.append_inj' heq' rfl
      exact .inl ⟨h₁, h₂, b, h₃, rfl, hbetween, hreplaces⟩
  · rintro (⟨h₁, h₂, b, h₃, rfl, hbetween, hreplaces⟩ | ⟨b, rfl, hreplaces, h₁, h₂, rfl, hbetween⟩)
    · exact ⟨h₁, h₂, b, h₃ ++ [e], by simp, hbetween, hreplaces⟩
    · exact ⟨h₁, h₂, b, [], by simp, hbetween, hreplaces⟩

/-- What the history says of the queue. -/
structure Coalesced (replaces : α → α → Bool) (id : α → Nat) (h : List (Event α))
    (queue : List α) : Prop where
  order : (poppedOf h ++ queue).Sublist (acceptedOf h)
  ids : (acceptedOf h).Pairwise fun a b => id a < id b
  missing : ∀ a ∈ acceptedOf h, a ∉ poppedOf h ++ queue ↔ Superseded replaces h a
  last : ∀ l a, queue = l ++ [a] →
    ∃ h₁ h₂, h = h₁ ++ .accepted a :: h₂ ∧ ∀ e ∈ h₂, ∃ c, e = .popped c
  queued : ∀ h₁ a h₂, h = h₁ ++ .accepted a :: h₂ → (∀ e ∈ h₂, ∃ c, e = .popped c) →
    .popped a ∈ h₂ ∨ ∃ l, queue = l ++ [a]

namespace Coalesced

variable {h : List (Event α)} {queue l : List α} {a b : α}

theorem nil : Coalesced replaces id ([] : List (Event α)) [] where
  order := List.Sublist.slnil
  ids := List.Pairwise.nil
  missing := by simp [acceptedOf]
  last := by simp
  queued := by simp

theorem acceptedOf_nodup (hk : Coalesced replaces id h queue) : (acceptedOf h).Nodup :=
  hk.ids.imp fun hlt heq => Nat.ne_of_lt hlt (congrArg id heq)

theorem nodup (hk : Coalesced replaces id h queue) : (poppedOf h ++ queue).Nodup :=
  hk.acceptedOf_nodup.sublist hk.order

/-- What the next value replaces is the last of the queue. -/
theorem last_of_between (hk : Coalesced replaces id h queue) {h₁ h₂ : List (Event α)}
    (heq : h = h₁ ++ .accepted a :: h₂) (hbetween : ∀ e ∈ h₂, ∃ c, e = .popped c ∧ c ≠ a) :
    ∃ l, queue = l ++ [a] := by
  rcases hk.queued h₁ a h₂ heq fun e he => (hbetween e he).imp fun _ h => h.1 with hpop | hlast
  · obtain ⟨c, hc, hne⟩ := hbetween _ hpop
    cases hc
    exact absurd rfl hne
  · exact hlast

theorem fresh (hid : ∀ a ∈ acceptedOf h, id a < id b) : b ∉ acceptedOf h := fun hb =>
  Nat.lt_irrefl _ (hid b hb)

/-- Taking in a value of a greater identity, behind the ones that stay queued. -/
theorem accept (hk : Coalesced replaces id h queue) (hid : ∀ a ∈ acceptedOf h, id a < id b)
    {l : List α} (horder : (poppedOf h ++ l).Sublist (acceptedOf h))
    (hmissing : ∀ a ∈ acceptedOf h, a ∉ poppedOf h ++ l ↔
      Superseded replaces (h ++ [.accepted b]) a) :
    Coalesced replaces id (h ++ [.accepted b]) (l ++ [b]) where
  order := by
    rw [poppedOf_accepted, acceptedOf_accepted, ← List.append_assoc]
    exact horder.append (List.Sublist.refl _)
  ids := by
    rw [acceptedOf_accepted]
    refine List.pairwise_append.2 ⟨hk.ids, List.pairwise_singleton _ _, fun a ha c hc => ?_⟩
    exact List.mem_singleton.1 hc ▸ hid a ha
  missing a ha := by
    have hb := fresh hid
    rw [acceptedOf_accepted] at ha
    rcases List.mem_append.1 ha with ha | ha
    · have hne : a ≠ b := fun heq => hb (heq ▸ ha)
      rw [poppedOf_accepted, ← List.append_assoc, List.mem_append, List.mem_singleton,
        or_iff_left hne]
      exact hmissing a ha
    · obtain rfl := List.mem_singleton.1 ha
      refine iff_of_false (by simp) fun hs => ?_
      rcases superseded_append.1 hs with hs | ⟨c, -, -, h₁, h₂, rfl, -⟩
      · exact hb hs.mem_acceptedOf
      · exact hb (Lib.mem_acceptedOf.2 (by simp))
  last l' a heq := by
    obtain ⟨-, ha⟩ := List.append_inj' heq rfl
    obtain rfl := List.singleton_inj.1 ha
    exact ⟨h, [], rfl, by simp⟩
  queued h₁ a h₂ heq hpops := by
    rcases List.eq_nil_or_concat h₂ with rfl | ⟨h₂, e, rfl⟩
    · obtain ⟨-, ha⟩ := List.append_inj' heq rfl
      cases ha
      exact .inr ⟨l, rfl⟩
    · have heq' : h ++ [.accepted b] = (h₁ ++ .accepted a :: h₂) ++ [e] := by simp [heq]
      obtain ⟨-, he⟩ := List.append_inj' heq' rfl
      obtain ⟨c, hc⟩ := hpops e (by simp)
      rw [hc] at he
      cases he

/-- A value that does not replace the last one. -/
theorem push (hk : Coalesced replaces id h queue) (hid : ∀ a ∈ acceptedOf h, id a < id b)
    (hnot : ∀ l a, queue = l ++ [a] → replaces a b = false) :
    Coalesced replaces id (h ++ [.accepted b]) (queue ++ [b]) := by
  refine hk.accept hid hk.order fun a ha => (hk.missing a ha).trans ?_
  rw [superseded_append]
  refine (or_iff_left ?_).symm
  rintro ⟨c, hc, hreplaces, h₁, h₂, heq, hbetween⟩
  cases hc
  obtain ⟨l, hl⟩ := hk.last_of_between heq hbetween
  rw [hnot l a hl] at hreplaces
  cases hreplaces

/-- A value that replaces the last one. -/
theorem replace (hk : Coalesced replaces id h (l ++ [a])) (hid : ∀ a ∈ acceptedOf h, id a < id b)
    (hreplaces : replaces a b = true) :
    Coalesced replaces id (h ++ [.accepted b]) (l ++ [b]) := by
  have hsub : (poppedOf h ++ l).Sublist (poppedOf h ++ (l ++ [a])) := by
    rw [← List.append_assoc]
    exact List.sublist_append_left _ _
  have hnew : a ∉ poppedOf h ++ l := by
    have hnodup := hk.nodup
    rw [← List.append_assoc] at hnodup
    exact fun hmem => (List.nodup_append.1 hnodup).2.2 a hmem a (by simp) rfl
  refine hk.accept hid (hsub.trans hk.order) fun c hc => ?_
  rw [superseded_append]
  by_cases hca : c = a
  · subst hca
    refine iff_of_true hnew (.inr ⟨b, rfl, hreplaces, ?_⟩)
    obtain ⟨h₁, h₂, heq, hpops⟩ := hk.last l c rfl
    refine ⟨h₁, h₂, heq, fun e he => ?_⟩
    obtain ⟨d, rfl⟩ := hpops e he
    refine ⟨d, rfl, fun hd => hnew (List.mem_append_left _ (mem_poppedOf.2 ?_))⟩
    rw [heq, ← hd]
    simp [he]
  · have hsame : c ∉ poppedOf h ++ l ↔ c ∉ poppedOf h ++ (l ++ [a]) := by
      rw [← List.append_assoc, List.mem_append (t := [a]), List.mem_singleton, or_iff_left hca]
    rw [hsame, hk.missing c hc]
    refine (or_iff_left ?_).symm
    rintro ⟨d, hd, -, h₁, h₂, heq, hbetween⟩
    obtain ⟨l', hl⟩ := hk.last_of_between heq hbetween
    obtain ⟨-, hlast⟩ := List.append_inj' hl rfl
    exact hca (List.singleton_inj.1 hlast).symm

/-- Giving out the first value. -/
theorem pop (hk : Coalesced replaces id h (a :: l)) :
    Coalesced replaces id (h ++ [.popped a]) l where
  order := by
    rw [poppedOf_popped, acceptedOf_popped, List.append_assoc]
    exact hk.order
  ids := by
    rw [acceptedOf_popped]
    exact hk.ids
  missing c hc := by
    rw [acceptedOf_popped] at hc
    rw [poppedOf_popped, List.append_assoc, superseded_append]
    refine (hk.missing c hc).trans (or_iff_left ?_).symm
    rintro ⟨b, hb, -⟩
    cases hb
  last l' c heq := by
    obtain ⟨h₁, h₂, hh, hpops⟩ := hk.last (a :: l') c (by rw [heq]; rfl)
    refine ⟨h₁, h₂ ++ [.popped a], by simp [hh], fun e he => ?_⟩
    rcases List.mem_append.1 he with he | he
    · exact hpops e he
    · exact ⟨a, List.mem_singleton.1 he⟩
  queued h₁ c h₂ heq hpops := by
    rcases List.eq_nil_or_concat h₂ with rfl | ⟨h₂, e, rfl⟩
    · obtain ⟨-, ha⟩ := List.append_inj' heq rfl
      cases ha
    · have heq' : h ++ [.popped a] = (h₁ ++ .accepted c :: h₂) ++ [e] := by simp [heq]
      obtain ⟨hh, he⟩ := List.append_inj' heq' rfl
      cases he
      rcases hk.queued h₁ c h₂ hh fun e he => hpops e (by simp [he]) with hpop | ⟨l', hl⟩
      · exact .inl (by simp [hpop])
      · cases l' with
        | nil =>
          obtain ⟨rfl, -⟩ := List.cons.inj hl
          exact .inl (by simp)
        | cons d l' => exact .inr ⟨l', (List.cons.inj hl).2⟩

end Coalesced

end Lib

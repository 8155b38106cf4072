import Mathlib.Data.List.Nodup

/-!
# Lists threaded through slots

A fixed array of slots can carry lists of its positions in link arrays beside it: a doubly linked
list in two of them (`Links`), a stack in one (`Stacked`). `none` is the end of a list.

`links.Holds l` says that the links are those of the list `l`, in both directions and at both ends.
Appending a slot appends it to the list (`Holds.pushBack`), and unlinking a slot takes it out of the
list, wherever it stands (`Holds.unlink`). The links of a slot outside of the list are free.
-/

namespace Lib

theorem concat_eq_append_cons {α : Type*} {l l₁ l₂ : List α} {a s : α} :
    l ++ [a] = l₁ ++ s :: l₂ ↔
      l₂ = [] ∧ l = l₁ ∧ s = a ∨ ∃ r, l₂ = r ++ [a] ∧ l = l₁ ++ s :: r := by
  constructor
  · intro h
    rcases List.eq_nil_or_concat' l₂ with rfl | ⟨r, b, rfl⟩
    · obtain ⟨rfl, hs⟩ := List.append_singleton_inj.1 h
      exact .inl ⟨rfl, rfl, hs.symm⟩
    · rw [← List.cons_append, ← List.append_assoc, List.append_singleton_inj] at h
      obtain ⟨rfl, rfl⟩ := h
      exact .inr ⟨r, rfl, rfl⟩
  · rintro (⟨rfl, rfl, rfl⟩ | ⟨r, rfl, rfl⟩)
    · rfl
    · simp

/-- A doubly linked list of slots. -/
structure Links where
  next : List (Option Nat)
  previous : List (Option Nat)
  head : Option Nat := none
  tail : Option Nat := none
  deriving DecidableEq, Repr

namespace Links

/-- The empty list over `n` slots. -/
def empty (n : Nat) : Links where
  next := List.replicate n none
  previous := List.replicate n none

def nextOf (links : Links) (slot : Nat) : Option Nat := (links.next[slot]?).join

def previousOf (links : Links) (slot : Nat) : Option Nat := (links.previous[slot]?).join

def setNext (links : Links) (slot : Nat) (link : Option Nat) : Links :=
  { links with next := links.next.set slot link }

def setPrevious (links : Links) (slot : Nat) (link : Option Nat) : Links :=
  { links with previous := links.previous.set slot link }

/-- The slot becomes the last one. -/
def pushBack (links : Links) (slot : Nat) : Links :=
  let links := (links.setPrevious slot links.tail).setNext slot none
  let links := match links.tail with
    | none => { links with head := some slot }
    | some last => links.setNext last (some slot)
  { links with tail := some slot }

/-- The neighbours of the slot become neighbours. -/
def unlink (links : Links) (slot : Nat) : Links :=
  let previous := links.previousOf slot
  let next := links.nextOf slot
  let links := match previous with
    | none => { links with head := next }
    | some previous => links.setNext previous next
  let links := match next with
    | none => { links with tail := previous }
    | some next => links.setPrevious next previous
  (links.setPrevious slot none).setNext slot none

/-- The same list from its end. -/
def reverse (links : Links) : Links where
  next := links.previous
  previous := links.next
  head := links.tail
  tail := links.head

theorem reverse_unlink (links : Links) (slot : Nat) :
    links.reverse.unlink slot = (links.unlink slot).reverse := by
  have hnext : links.reverse.nextOf slot = links.previousOf slot := rfl
  have hprevious : links.reverse.previousOf slot = links.nextOf slot := rfl
  unfold unlink
  rw [hnext, hprevious]
  cases links.previousOf slot <;> cases links.nextOf slot <;> rfl

/-- The links are those of the list, at every slot of it and at its ends. -/
structure Holds (links : Links) (l : List Nat) : Prop where
  head : links.head = l.head?
  tail : links.tail = l.getLast?
  next : ∀ l₁ slot l₂, l = l₁ ++ slot :: l₂ → links.next[slot]? = some l₂.head?
  previous : ∀ l₁ slot l₂, l = l₁ ++ slot :: l₂ → links.previous[slot]? = some l₁.getLast?
  nodup : l.Nodup

theorem holds_empty (n : Nat) : (empty n).Holds [] where
  head := rfl
  tail := rfl
  next := by simp
  previous := by simp
  nodup := .nil

section
variable {links : Links} {l l₁ l₂ : List Nat} {slot : Nat}

@[simp] theorem length_next_pushBack : (links.pushBack slot).next.length = links.next.length := by
  unfold pushBack
  dsimp only
  split <;> simp [setNext, setPrevious]

@[simp] theorem length_previous_pushBack :
    (links.pushBack slot).previous.length = links.previous.length := by
  unfold pushBack
  dsimp only
  split <;> simp [setNext, setPrevious]

@[simp] theorem length_next_unlink : (links.unlink slot).next.length = links.next.length := by
  unfold unlink
  dsimp only
  split <;> split <;> simp [setNext, setPrevious]

@[simp] theorem length_previous_unlink :
    (links.unlink slot).previous.length = links.previous.length := by
  unfold unlink
  dsimp only
  split <;> split <;> simp [setNext, setPrevious]

namespace Holds

theorem nextOf (h : links.Holds (l₁ ++ slot :: l₂)) : links.nextOf slot = l₂.head? := by
  rw [Links.nextOf, h.next l₁ slot l₂ rfl]
  rfl

theorem previousOf (h : links.Holds (l₁ ++ slot :: l₂)) : links.previousOf slot = l₁.getLast? := by
  rw [Links.previousOf, h.previous l₁ slot l₂ rfl]
  rfl

theorem lt_length (h : links.Holds l) (hmem : slot ∈ l) : slot < links.next.length := by
  obtain ⟨l₁, l₂, rfl⟩ := List.append_of_mem hmem
  exact (List.getElem?_eq_some_iff.1 (h.next l₁ slot l₂ rfl)).1

/-- **Appending.** -/
theorem pushBack (h : links.Holds l) (hslot : slot ∉ l) (hnext : slot < links.next.length)
    (hprevious : slot < links.previous.length) : (links.pushBack slot).Holds (l ++ [slot]) := by
  have hnodup : (l ++ [slot]).Nodup := by
    simpa [List.nodup_append, h.nodup] using fun a ha => ne_of_mem_of_not_mem ha hslot
  have hback : (links.pushBack slot).previous = links.previous.set slot l.getLast? := by
    rw [← h.tail, Links.pushBack]
    dsimp only
    split <;> rfl
  have hprev : ∀ l₁ s l₂, l ++ [slot] = l₁ ++ s :: l₂ →
      (links.pushBack slot).previous[s]? = some l₁.getLast? := by
    intro l₁ s l₂ heq
    rw [hback]
    rcases concat_eq_append_cons.1 heq with ⟨-, rfl, rfl⟩ | ⟨l₂, -, rfl⟩
    · exact List.getElem?_set_self hprevious
    · have hne : slot ≠ s := by
        rintro rfl
        exact hslot (by simp)
      rw [List.getElem?_set_ne hne, h.previous l₁ s l₂ rfl]
  rcases List.eq_nil_or_concat' l with rfl | ⟨front, last, rfl⟩
  · have htail : links.tail = none := h.tail
    refine ⟨by simp [Links.pushBack, setPrevious, setNext, htail], by simp [Links.pushBack],
      fun l₁ s l₂ heq => ?_, hprev, hnodup⟩
    obtain ⟨rfl, rfl, rfl⟩ : l₁ = [] ∧ s = slot ∧ l₂ = [] := by
      cases l₁ <;> simp_all
    simp [Links.pushBack, setPrevious, setNext, htail, hnext]
  · have htail : links.tail = some last := by simpa using h.tail
    have hlink : (links.pushBack slot).next = (links.next.set slot none).set last (some slot) := by
      simp [Links.pushBack, setPrevious, setNext, htail]
    have hlast : last ≠ slot := by
      rintro rfl
      exact hslot (by simp)
    refine ⟨?_, by simp [Links.pushBack], fun l₁ s l₂ heq => ?_, hprev, hnodup⟩
    · have hhead : (links.pushBack slot).head = links.head := by
        simp [Links.pushBack, setPrevious, setNext, htail]
      rw [hhead, h.head]
      cases front <;> rfl
    · rw [hlink]
      rcases concat_eq_append_cons.1 heq with ⟨rfl, rfl, rfl⟩ | ⟨l₂, rfl, hfront⟩
      · rw [List.getElem?_set_ne hlast, List.getElem?_set_self hnext]
        rfl
      · rcases concat_eq_append_cons.1 hfront with ⟨rfl, rfl, rfl⟩ | ⟨r, rfl, rfl⟩
        · rw [List.getElem?_set_self (by simpa using h.lt_length (by simp))]
          rfl
        · have hs : last ≠ s := by
            rintro rfl
            have := h.nodup
            simp [List.nodup_append] at this
          have hs' : slot ≠ s := by
            rintro rfl
            exact hslot (by simp)
          rw [List.getElem?_set_ne hs, List.getElem?_set_ne hs', h.next l₁ s (r ++ [last]) (by simp)]
          cases r <;> rfl

/-- The links seen from the other end. -/
theorem reverse (h : links.Holds l) : links.reverse.Holds l.reverse where
  head := by rw [List.head?_reverse, ← h.tail]; rfl
  tail := by rw [List.getLast?_reverse, ← h.head]; rfl
  next l₁ s l₂ heq := by
    rw [List.reverse_eq_iff] at heq
    simpa [Links.reverse] using h.previous l₂.reverse s l₁.reverse (by simpa using heq)
  previous l₁ s l₂ heq := by
    rw [List.reverse_eq_iff] at heq
    simpa [Links.reverse] using h.next l₂.reverse s l₁.reverse (by simpa using heq)
  nodup := List.nodup_reverse.2 h.nodup

/-- The successors after a slot is unlinked: only the one in front of it has a new one. -/
theorem next_unlink (h : links.Holds (l₁ ++ slot :: l₂)) {r₁ r₂ : List Nat} {s : Nat}
    (heq : l₁ ++ l₂ = r₁ ++ s :: r₂) : (links.unlink slot).next[s]? = some r₂.head? := by
  have hnodup := List.nodup_middle.1 h.nodup
  have hslot : slot ≠ s := by
    rintro rfl
    rw [heq] at hnodup
    simp at hnodup
  have hlink : (links.unlink slot).next[s]? =
      (match l₁.getLast? with
        | none => links.next
        | some last => links.next.set last l₂.head?)[s]? := by
    rw [← h.previousOf, ← h.nextOf, Links.unlink]
    cases links.previousOf slot <;> cases links.nextOf slot <;>
      exact List.getElem?_set_ne hslot
  rw [hlink]
  have hbehind : ∀ r, l₂ = r ++ s :: r₂ → (match l₁.getLast? with
      | none => links.next
      | some last => links.next.set last l₂.head?)[s]? = some r₂.head? := by
    rintro r rfl
    have hs := h.next (l₁ ++ slot :: r) s r₂ (by simp)
    rcases List.eq_nil_or_concat' l₁ with rfl | ⟨front, last, rfl⟩
    · exact hs
    · have hlast : last ≠ s := by
        rintro rfl
        simp [List.nodup_append] at hnodup
      simpa [List.getElem?_set_ne hlast] using hs
  rcases List.append_eq_append_iff.1 heq with ⟨r, rfl, hr⟩ | ⟨r, rfl, hr⟩
  · exact hbehind r hr
  · cases r with
    | nil => exact hbehind [] hr.symm
    | cons _ r =>
      obtain ⟨rfl, rfl⟩ := List.cons.inj hr
      rcases List.eq_nil_or_concat' r with rfl | ⟨r, last, rfl⟩
      · simp [List.getElem?_set_self (h.lt_length (by simp : s ∈ (r₁ ++ [s]) ++ slot :: l₂))]
      · have hlast : last ≠ s := by
          rintro rfl
          simp [List.nodup_append] at hnodup
        have hs := h.next r₁ s (r ++ last :: slot :: l₂) (by simp)
        cases r <;> simpa [List.getLast?_cons, List.getElem?_set_ne hlast] using hs

theorem head_unlink (h : links.Holds (l₁ ++ slot :: l₂)) :
    (links.unlink slot).head = (l₁ ++ l₂).head? := by
  have hhead : (links.unlink slot).head =
      match l₁.getLast? with
      | none => l₂.head?
      | some _ => links.head := by
    rw [← h.previousOf, ← h.nextOf, Links.unlink]
    cases links.previousOf slot <;> cases links.nextOf slot <;> rfl
  rw [hhead, h.head]
  cases l₁ with
  | nil => rfl
  | cons a l₁ => simp [List.getLast?_cons]

/-- **Unlinking.** -/
theorem unlink (h : links.Holds (l₁ ++ slot :: l₂)) : (links.unlink slot).Holds (l₁ ++ l₂) := by
  have hreverse : links.reverse.Holds (l₂.reverse ++ slot :: l₁.reverse) := by
    simpa using h.reverse
  refine ⟨h.head_unlink, ?_, fun r₁ s r₂ heq => h.next_unlink heq, fun r₁ s r₂ heq => ?_,
    (List.nodup_cons.1 (List.nodup_middle.1 h.nodup)).2⟩
  · have htail := hreverse.head_unlink
    rw [reverse_unlink, ← List.reverse_append, List.head?_reverse] at htail
    exact htail
  · have hsplit : l₂.reverse ++ l₁.reverse = r₂.reverse ++ s :: r₁.reverse := by
      rw [← List.reverse_append, heq]
      simp
    have hprevious := hreverse.next_unlink hsplit
    rwa [reverse_unlink, List.head?_reverse] at hprevious

end Holds

end

end Links

/-- The links are those of the stack `l` with its top at `head`. -/
def Stacked (next : List (Option Nat)) : Option Nat → List Nat → Prop
  | head, [] => head = none
  | head, slot :: l => head = some slot ∧ ∃ below, next[slot]? = some below ∧ Stacked next below l

namespace Stacked

variable {next : List (Option Nat)} {head link : Option Nat} {slot : Nat} {l : List Nat}

/-- The link of a slot outside of the stack is free. -/
theorem set (h : Stacked next head l) (hmem : slot ∉ l) :
    Stacked (next.set slot link) head l := by
  induction l generalizing head with
  | nil => exact h
  | cons top l ih =>
    obtain ⟨hhead, below, hbelow, hrest⟩ := h
    obtain ⟨hne, hmem⟩ : slot ≠ top ∧ slot ∉ l := by simpa using hmem
    exact ⟨hhead, below, by rwa [List.getElem?_set_ne hne], ih hrest hmem⟩

theorem push (h : Stacked next head l) (hmem : slot ∉ l) (hlt : slot < next.length) :
    Stacked (next.set slot head) (some slot) (slot :: l) :=
  ⟨rfl, head, List.getElem?_set_self hlt, h.set hmem⟩

theorem pop (h : Stacked next head (slot :: l)) (hmem : slot ∉ l) :
    head = some slot ∧ Stacked (next.set slot link) (next[slot]?).join l := by
  obtain ⟨hhead, below, hbelow, hrest⟩ := h
  rw [hbelow]
  exact ⟨hhead, hrest.set hmem⟩

/-- The slots from `first` on, each linked to the one behind it. -/
theorem of_successors {n first count : Nat} (hn : first + count = n)
    (hnext : ∀ i < n, next[i]? = some (if i + 1 < n then some (i + 1) else none)) :
    Stacked next (if first < n then some first else none) (List.range' first count) := by
  induction count generalizing first with
  | zero => exact if_neg (by omega)
  | succ count ih =>
    refine ⟨if_pos (by omega), _, hnext first (by omega), ih (by omega)⟩

end Stacked

end Lib

import Mathlib.Data.List.Nodup
import Mathlib.Logic.Function.Basic

/-!
# Singly linked chains

A heap that gives each cell its next one, and the lists it carries: `Chain next head l` says that
`l` is what the links lead through from `head` to the end. A chain that ends is determined by its
head and has no cycle. Its links are only those of its cells (`Chain.congr`), so chains without a
common cell do not disturb each other; a chain is linked in front of another at its last cell
(`Chain.splice`).

`Intrusive` is a heap with one head. A link is the head or the link of a cell; a cell is found by
the link that leads to it (`findLink`) and taken out by writing that link (`Chain.unlink`).
-/

namespace Lib

variable {α : Type*} {next next' : α → Option α} {head : Option α} {l l' : List α} {a : α}

/-- The links lead from the head through the list to the end. -/
def Chain (next : α → Option α) : Option α → List α → Prop
  | head, [] => head = none
  | head, a :: l => head = some a ∧ Chain next (next a) l

namespace Chain

@[simp] theorem nil_iff : Chain next head [] ↔ head = none := Iff.rfl

@[simp] theorem cons_iff : Chain next head (a :: l) ↔ head = some a ∧ Chain next (next a) l :=
  Iff.rfl

theorem head_eq (h : Chain next head l) : head = l.head? := by
  cases l with
  | nil => exact h
  | cons a l => exact h.1

/-- A chain without a first cell is empty. -/
theorem eq_nil (h : Chain next none l) : l = [] := by
  cases l with
  | nil => rfl
  | cons a l => cases h.1

/-- The first cell and the chain behind it. -/
theorem eq_cons (h : Chain next (some a) l) : ∃ rest, l = a :: rest ∧ Chain next (next a) rest := by
  cases l with
  | nil => cases h
  | cons b l =>
    obtain ⟨hb, hrest⟩ := h
    cases hb
    exact ⟨l, rfl, hrest⟩

/-- A chain is determined by its head. -/
theorem unique (h : Chain next head l) (h' : Chain next head l') : l = l' := by
  induction l generalizing head l' with
  | nil =>
    subst h
    exact h'.eq_nil.symm
  | cons a l ih =>
    obtain ⟨rfl, hrest⟩ := h
    obtain ⟨rest, rfl, hrest'⟩ := h'.eq_cons
    rw [ih hrest hrest']

/-- The links of other cells do not matter. -/
theorem congr (h : Chain next head l) (heq : ∀ a ∈ l, next' a = next a) : Chain next' head l := by
  induction l generalizing head with
  | nil => exact h
  | cons a l ih =>
    refine ⟨h.1, ?_⟩
    rw [heq a List.mem_cons_self]
    exact ih h.2 fun b hb => heq b (List.mem_cons_of_mem _ hb)

/-- What the links lead through from a cell of the chain. -/
theorem suffix {l₁ l₂ : List α} (h : Chain next head (l₁ ++ l₂)) (hhead : l₂.head? = some a) :
    Chain next (some a) l₂ := by
  induction l₁ generalizing head with
  | nil =>
    rw [List.nil_append] at h
    rwa [← hhead, ← h.head_eq]
  | cons b l₁ ih => exact ih h.2

/-- The link of a cell of the chain. -/
theorem next_eq {l₁ l₂ : List α} (h : Chain next head (l₁ ++ a :: l₂)) : next a = l₂.head? := by
  have hsuffix := h.suffix (a := a) rfl
  exact hsuffix.2.head_eq

section
variable [DecidableEq α]

/-- The links of cells outside of the chain do not matter. -/
theorem update (h : Chain next head l) (ha : a ∉ l) (link : Option α) :
    Chain (Function.update next a link) head l :=
  h.congr fun _ hb => Function.update_of_ne (ne_of_mem_of_not_mem hb ha) _ _

/-- A cell in front of a chain. -/
theorem push (h : Chain next head l) (ha : a ∉ l) :
    Chain (Function.update next a head) (some a) (a :: l) :=
  ⟨rfl, by rw [Function.update_self]; exact h.update ha head⟩

/-- A chain in front of another, linked at its last cell. -/
theorem splice {l₁ : List α} {head' : Option α} (h : Chain next head (l₁ ++ [a]))
    (h' : Chain next head' l') (hnodup : (l₁ ++ [a]).Nodup) (ha : a ∉ l') :
    Chain (Function.update next a head') head (l₁ ++ [a] ++ l') := by
  induction l₁ generalizing head with
  | nil =>
    obtain ⟨rfl, -⟩ := h
    exact h'.push ha
  | cons b l₁ ih =>
    obtain ⟨hb, hrest⟩ := h
    obtain ⟨hbl, hnodup⟩ := List.nodup_cons.1 hnodup
    have hba : b ≠ a := fun hba => hbl (hba ▸ List.mem_append_right _ List.mem_cons_self)
    refine ⟨hb, ?_⟩
    rw [Function.update_of_ne hba]
    exact ih hrest hnodup

/-- A cell is taken out behind the cells in front of it. -/
theorem remove {l₁ l₂ : List α} {b : α} (h : Chain next head (l₁ ++ [b] ++ a :: l₂))
    (hnodup : (l₁ ++ [b] ++ a :: l₂).Nodup) :
    Chain (Function.update next b (next a)) head (l₁ ++ [b] ++ l₂) := by
  have hbehind : Chain next (next a) l₂ := (h.suffix (a := a) rfl).2
  induction l₁ generalizing head with
  | nil =>
    obtain ⟨hb, -⟩ := h
    have hmem : b ∉ l₂ := fun hmem =>
      (List.nodup_cons.1 hnodup).1 (List.mem_cons_of_mem _ hmem)
    refine ⟨hb, ?_⟩
    rw [Function.update_self]
    exact hbehind.update hmem _
  | cons c l₁ ih =>
    obtain ⟨hc, hrest⟩ := h
    obtain ⟨hcl, hnodup⟩ := List.nodup_cons.1 hnodup
    have hcb : c ≠ b := fun hcb => hcl (by simp [hcb])
    refine ⟨hc, ?_⟩
    rw [Function.update_of_ne hcb]
    exact ih hrest hnodup

end

end Chain

/-! ## Chains with a head -/

/-- The head of a chain and the links of all cells. -/
structure Intrusive (α : Type*) where
  head : Option α := none
  next : α → Option α := fun _ => none

namespace Intrusive

/-- The cells from the head on. -/
def Carries (c : Intrusive α) (l : List α) : Prop := Chain c.next c.head l

/-- What a link leads to. -/
def read (c : Intrusive α) : Option α → Option α
  | none => c.head
  | some b => c.next b

variable {c : Intrusive α} {l₁ l₂ : List α}

theorem Carries.read_eq (h : c.Carries (l₁ ++ l₂)) : c.read l₁.getLast? = l₂.head? := by
  rcases List.eq_nil_or_concat l₁ with rfl | ⟨l, b, rfl⟩
  · exact Chain.head_eq h
  · rw [List.concat_eq_append] at h ⊢
    rw [List.getLast?_concat]
    have h : Chain c.next c.head (l ++ b :: l₂) := by simpa [Carries] using h
    exact h.next_eq

section
variable [DecidableEq α]

def write (c : Intrusive α) (link value : Option α) : Intrusive α :=
  match link with
  | none => { c with head := value }
  | some b => { c with next := Function.update c.next b value }

def push (c : Intrusive α) (a : α) : Intrusive α where
  head := some a
  next := Function.update c.next a c.head

/-- A cell is taken out at the link that leads to it. -/
def unlink (c : Intrusive α) (link : Option α) (a : α) : Intrusive α :=
  let c := c.write link (c.next a)
  { c with next := Function.update c.next a none }

/-- The link that leads to the cell, or the last one. -/
def findLink (c : Intrusive α) (a : α) : Nat → Option α → Option (Option α)
  | 0, _ => none
  | fuel + 1, link =>
    match c.read link with
    | none => some link
    | some b => if b = a then some link else findLink c a fuel (some b)

theorem Carries.push (h : c.Carries l) (ha : a ∉ l) : (c.push a).Carries (a :: l) :=
  Chain.push h ha

theorem Carries.unlink (h : c.Carries (l₁ ++ a :: l₂)) (hnodup : (l₁ ++ a :: l₂).Nodup) :
    (c.unlink l₁.getLast? a).Carries (l₁ ++ l₂) := by
  have ha : a ∉ l₁ ++ l₂ := (List.nodup_middle.1 hnodup |> List.nodup_cons.1).1
  rcases List.eq_nil_or_concat l₁ with rfl | ⟨l, b, rfl⟩
  · have hbehind : Chain c.next (c.next a) l₂ := (Chain.suffix h (a := a) rfl).2
    exact hbehind.update ha none
  · rw [List.concat_eq_append] at *
    rw [List.getLast?_concat]
    exact (Chain.remove h hnodup).update ha none

/-- The search ends at the link of the cell. -/
theorem Carries.findLink (h : c.Carries (l₁ ++ a :: l₂)) (hnodup : (l₁ ++ a :: l₂).Nodup) :
    ∀ {done rest : List α} {fuel : Nat}, l₁ = done ++ rest → rest.length < fuel →
      c.findLink a fuel done.getLast? = some l₁.getLast? := by
  intro done rest fuel hl hfuel
  induction rest generalizing done fuel with
  | nil =>
    obtain ⟨fuel, rfl⟩ := Nat.exists_eq_succ_of_ne_zero (Nat.ne_of_gt hfuel)
    rw [List.append_nil] at hl
    subst hl
    rw [Intrusive.findLink, h.read_eq]
    simp
  | cons b rest ih =>
    obtain ⟨fuel, rfl⟩ := Nat.exists_eq_succ_of_ne_zero (Nat.ne_zero_of_lt hfuel)
    subst hl
    have hread : c.read done.getLast? = some b := by
      rw [List.append_assoc] at h
      rw [h.read_eq]
      rfl
    have hb : b ≠ a := fun hb => by
      subst hb
      have hmem : b ∈ done ++ b :: rest := by simp
      exact (List.nodup_middle.1 hnodup |> List.nodup_cons.1).1 (List.mem_append_left _ hmem)
    rw [Intrusive.findLink, hread]
    dsimp only
    rw [if_neg hb]
    have hnext := @ih (done ++ [b]) fuel (by simp) (by simpa using hfuel)
    rwa [List.getLast?_concat] at hnext

end

end Intrusive

end Lib

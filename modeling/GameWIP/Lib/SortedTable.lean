import Mathlib.Data.List.Basic
import Mathlib.Data.List.Sort

/-!
# Sorted tables

A table is a list kept strictly sorted by a key, under a strict total order given by its
comparator (`StrictTotal`). Entries are found by a halving search (`lowerBound`), which answers
the partition point of any list that is partitioned by the search's predicate.

`SortedBy.search_cases` says once what a search by key can find in a sorted table: the entry with
the key, or the gap the key belongs in, with everything before it smaller and everything behind
it greater. Inserting at the gap, erasing at the entry and replacing the entry keep the table
sorted and change its members by the one entry (`SortedBy.insert`, `SortedBy.erase`,
`SortedBy.replace`).

A table is also built by sorting a list by its key (`sortBy`) and looking for two neighbours with
one key (`adjacentFind`): there are none exactly when the keys of the list were distinct
(`adjacentFind_sortBy_iff`), and the sorted list is then a table (`sortBy_sorted`).
-/

namespace Lib

variable {α K : Type*}

/-- The comparator of a strict total order. -/
structure StrictTotal (lt : K → K → Bool) : Prop where
  irrefl : ∀ a, lt a a = false
  trans : ∀ {a b c}, lt a b = true → lt b c = true → lt a c = true
  connected : ∀ {a b}, lt a b = false → lt b a = false → a = b

/-- A comparator that compares distinct ranks. -/
theorem StrictTotal.of_rank {lt : K → K → Bool} {rank : K → Nat}
    (hlt : ∀ a b, lt a b = decide (rank a < rank b)) (hinj : ∀ a b, rank a = rank b → a = b) :
    StrictTotal lt where
  irrefl a := by simp [hlt]
  trans {a b c} h₁ h₂ := by
    simp only [hlt, decide_eq_true_eq] at h₁ h₂ ⊢
    omega
  connected {a b} h₁ h₂ := by
    simp only [hlt, decide_eq_false_iff_not] at h₁ h₂
    apply hinj
    omega

/-- The halving search over the `count` entries from `first` on. -/
def lowerBoundFrom (below : α → Bool) (l : List α) (first count : Nat) : Nat :=
  if count = 0 then first
  else if (l[first + count / 2]?).any below then
    lowerBoundFrom below l (first + count / 2 + 1) (count - count / 2 - 1)
  else lowerBoundFrom below l first (count / 2)
termination_by count

/-- The position of the first entry that is not below the one searched for. -/
def lowerBound (below : α → Bool) (l : List α) : Nat := lowerBoundFrom below l 0 l.length

theorem lowerBoundFrom_eq {below : α → Bool} {l₁ l₂ : List α} (h₁ : ∀ e ∈ l₁, below e = true)
    (h₂ : ∀ e ∈ l₂, below e = false) (first count : Nat) (hfirst : first ≤ l₁.length)
    (hlast : l₁.length ≤ first + count) (hend : first + count ≤ l₁.length + l₂.length) :
    lowerBoundFrom below (l₁ ++ l₂) first count = l₁.length := by
  induction count using Nat.strongRecOn generalizing first with
  | ind count ih =>
    unfold lowerBoundFrom
    by_cases h0 : count = 0
    · rw [if_pos h0]
      omega
    rw [if_neg h0]
    by_cases hmiddle : first + count / 2 < l₁.length
    · rw [List.getElem?_append_left hmiddle, List.getElem?_eq_getElem hmiddle, Option.any_some,
        if_pos (h₁ _ (List.getElem_mem hmiddle))]
      apply ih <;> omega
    · have hat : first + count / 2 - l₁.length < l₂.length := by omega
      have hnot : ¬ (some l₂[first + count / 2 - l₁.length]).any below = true := by
        rw [Option.any_some, h₂ _ (List.getElem_mem hat)]
        decide
      rw [List.getElem?_append_right (by omega), List.getElem?_eq_getElem hat, if_neg hnot]
      apply ih <;> omega

theorem lowerBound_eq {below : α → Bool} {l₁ l₂ : List α} (h₁ : ∀ e ∈ l₁, below e = true)
    (h₂ : ∀ e ∈ l₂, below e = false) : lowerBound below (l₁ ++ l₂) = l₁.length := by
  unfold lowerBound
  apply lowerBoundFrom_eq h₁ h₂ <;> simp

/-- A list along which a predicate never turns true again is partitioned by it. -/
theorem exists_partition {below : α → Bool} {l : List α}
    (h : l.Pairwise fun a b => below b = true → below a = true) :
    ∃ l₁ l₂, l = l₁ ++ l₂ ∧ (∀ x ∈ l₁, below x = true) ∧ ∀ x ∈ l₂, below x = false := by
  induction l with
  | nil => exact ⟨[], [], rfl, by simp, by simp⟩
  | cons a l ih =>
    obtain ⟨hhead, htail⟩ := List.pairwise_cons.1 h
    cases ha : below a with
    | false =>
      refine ⟨[], a :: l, rfl, by simp, fun x hx => ?_⟩
      rcases List.mem_cons.1 hx with rfl | hx
      · exact ha
      · apply Bool.eq_false_iff.2
        intro hlt
        rw [hhead x hx hlt] at ha
        cases ha
    | true =>
      obtain ⟨l₁, l₂, rfl, h₁, h₂⟩ := ih htail
      refine ⟨a :: l₁, l₂, rfl, fun x hx => ?_, h₂⟩
      rcases List.mem_cons.1 hx with rfl | hx
      · exact ha
      · exact h₁ x hx

/-- The search of such a list answers the number of entries below. -/
theorem lowerBound_spec (below : α → Bool) {l : List α}
    (h : l.Pairwise fun a b => below b = true → below a = true) :
    lowerBound below l ≤ l.length ∧
      ∀ i (hi : i < l.length), below l[i] = true ↔ i < lowerBound below l := by
  obtain ⟨l₁, l₂, rfl, h₁, h₂⟩ := exists_partition h
  rw [lowerBound_eq h₁ h₂]
  refine ⟨by simp, fun i hi => ?_⟩
  by_cases hlt : i < l₁.length
  · rw [List.getElem_append_left hlt]
    exact iff_of_true (h₁ _ (List.getElem_mem hlt)) hlt
  · rw [List.getElem_append_right (Nat.le_of_not_lt hlt), h₂ _ (List.getElem_mem _)]
    exact iff_of_false Bool.false_ne_true hlt

theorem insertIdx_append_length (l₁ l₂ : List α) (a : α) :
    (l₁ ++ l₂).insertIdx l₁.length a = l₁ ++ a :: l₂ := by
  induction l₁ with
  | nil => rfl
  | cons b l₁ ih => simp [ih]

theorem exists_split {l : List α} {i : Nat} {e : α} (h : l[i]? = some e) :
    ∃ l₁ l₂, l = l₁ ++ e :: l₂ ∧ l₁.length = i := by
  obtain ⟨hi, rfl⟩ := List.getElem?_eq_some_iff.1 h
  exact ⟨l.take i, l.drop (i + 1), by simp, by simp; omega⟩

/-- The table is strictly sorted by its key. -/
def SortedBy (lt : K → K → Bool) (key : α → K) (l : List α) : Prop :=
  l.Pairwise fun a b => lt (key a) (key b) = true

/-- The search for a key. -/
def search (lt : K → K → Bool) (key : α → K) (l : List α) (k : K) : Nat :=
  lowerBound (fun e => lt (key e) k) l

/-- The entry at a position, when it has the key searched for. -/
def isMatching [DecidableEq K] (key : α → K) (l : List α) (i : Nat) (k : K) : Bool :=
  (l[i]?).any fun e => key e = k

namespace SortedBy

variable {lt : K → K → Bool} {key : α → K} {l l₁ l₂ : List α} {k : K} {a e : α}

theorem nil : SortedBy lt key ([] : List α) := List.Pairwise.nil

/-- A sorted table is partitioned by the search for any key. -/
theorem partition (ho : StrictTotal lt) (h : SortedBy lt key l) (k : K) :
    ∃ l₁ l₂, l = l₁ ++ l₂ ∧ (∀ x ∈ l₁, lt (key x) k = true) ∧ ∀ x ∈ l₂, lt (key x) k = false :=
  exists_partition (h.imp fun hab hb => ho.trans hab hb)

/-- **What a search finds**: the entry with the key, or the gap the key belongs in. -/
theorem search_cases (ho : StrictTotal lt) (h : SortedBy lt key l) (k : K) :
    (∃ l₁ e l₂, l = l₁ ++ e :: l₂ ∧ search lt key l k = l₁.length ∧ key e = k ∧
      (∀ x ∈ l₁, lt (key x) k = true) ∧ ∀ x ∈ l₂, lt k (key x) = true) ∨
    ∃ l₁ l₂, l = l₁ ++ l₂ ∧ search lt key l k = l₁.length ∧
      (∀ x ∈ l₁, lt (key x) k = true) ∧ ∀ x ∈ l₂, lt k (key x) = true := by
  obtain ⟨l₁, l₂, rfl, h₁, h₂⟩ := partition ho h k
  have hsearch : search lt key (l₁ ++ l₂) k = l₁.length := lowerBound_eq h₁ h₂
  -- what stands behind a smallest entry is greater than the key once that entry is
  have hbehind : ∀ e r, l₂ = e :: r → ∀ x ∈ r, lt k (key x) = true := by
    rintro e r rfl x hx
    have hex : lt (key e) (key x) = true :=
      (List.pairwise_cons.1 (List.pairwise_append.1 h).2.1).1 x hx
    cases hke : lt k (key e) with
    | true => exact ho.trans hke hex
    | false =>
      rw [← ho.connected hke (h₂ e List.mem_cons_self)] at hex
      exact hex
  cases l₂ with
  | nil => exact .inr ⟨l₁, [], rfl, hsearch, h₁, by simp⟩
  | cons e r =>
    cases hke : lt k (key e) with
    | false =>
      have hkey : key e = k := (ho.connected hke (h₂ e List.mem_cons_self)).symm
      exact .inl ⟨l₁, e, r, rfl, hsearch, hkey, h₁, hbehind e r rfl⟩
    | true =>
      refine .inr ⟨l₁, e :: r, rfl, hsearch, h₁, fun x hx => ?_⟩
      rcases List.mem_cons.1 hx with rfl | hx
      · exact hke
      · exact hbehind e r rfl x hx

/-- The search for the key of an entry ends at the entry. -/
theorem search_key (ho : StrictTotal lt) (h : SortedBy lt key l) {i : Nat}
    (hat : l[i]? = some e) : search lt key l (key e) = i := by
  obtain ⟨l₁, l₂, rfl, rfl⟩ := exists_split hat
  obtain ⟨-, hlast, hfirst⟩ := List.pairwise_append.1 h
  refine lowerBound_eq (fun x hx => hfirst x hx e List.mem_cons_self) fun x hx => ?_
  rcases List.mem_cons.1 hx with rfl | hx
  · exact ho.irrefl _
  · have hlt := (List.pairwise_cons.1 hlast).1 x hx
    by_contra hne
    have hback := ho.trans (Bool.eq_true_of_not_eq_false hne) hlt
    rw [ho.irrefl] at hback
    cases hback

theorem ne_of_lt (ho : StrictTotal lt) {x y : K} (h : lt x y = true) : x ≠ y := by
  rintro rfl
  rw [ho.irrefl] at h
  cases h

/-- An entry of the table is told by its key. -/
theorem eq_of_key (ho : StrictTotal lt) (h : SortedBy lt key l) (ha : a ∈ l) (he : e ∈ l)
    (hk : key a = key e) : a = e := by
  induction l with
  | nil => cases ha
  | cons b l ih =>
    obtain ⟨hhead, htail⟩ := List.pairwise_cons.1 h
    rcases List.mem_cons.1 ha with hab | ha
    · rcases List.mem_cons.1 he with heb | he
      · rw [hab, heb]
      · rw [hab] at hk
        exact absurd hk (ne_of_lt ho (hhead e he))
    · rcases List.mem_cons.1 he with heb | he
      · rw [heb] at hk
        exact absurd hk.symm (ne_of_lt ho (hhead a ha))
      · exact ih htail ha he

/-- Rewriting the entry at a position without changing its key. -/
theorem set_key (ho : StrictTotal lt) (h : SortedBy lt key l) {i : Nat} (hat : l[i]? = some e)
    (hk : key a = key e) :
    SortedBy lt key (l.set i a) ∧ ∀ x, x ∈ l.set i a ↔ x = a ∨ x ∈ l ∧ key x ≠ key a := by
  obtain ⟨l₁, l₂, rfl, rfl⟩ := exists_split hat
  have hset : (l₁ ++ e :: l₂).set l₁.length a = l₁ ++ a :: l₂ := by simp
  obtain ⟨hleft, hright, hcross⟩ := List.pairwise_append.1 h
  obtain ⟨hhead, hright⟩ := List.pairwise_cons.1 hright
  have hbelow : ∀ x ∈ l₁, lt (key x) (key a) = true := fun x hx =>
    hk ▸ hcross x hx _ List.mem_cons_self
  have habove : ∀ x ∈ l₂, lt (key a) (key x) = true := fun x hx => hk ▸ hhead x hx
  rw [hset]
  refine ⟨List.pairwise_append.2 ⟨hleft, List.pairwise_cons.2 ⟨habove, hright⟩,
    fun x hx y hy => ?_⟩, fun x => ?_⟩
  · rcases List.mem_cons.1 hy with rfl | hy
    · exact hbelow x hx
    · exact hcross x hx y (List.mem_cons_of_mem _ hy)
  · simp only [List.mem_append, List.mem_cons]
    constructor
    · rintro (hx | rfl | hx)
      · exact .inr ⟨.inl hx, ne_of_lt ho (hbelow x hx)⟩
      · exact .inl rfl
      · exact .inr ⟨.inr (.inr hx), (ne_of_lt ho (habove x hx)).symm⟩
    · rintro (rfl | ⟨hx | rfl | hx, hne⟩)
      · exact .inr (.inl rfl)
      · exact .inl hx
      · exact absurd hk.symm hne
      · exact .inr (.inr hx)

variable [DecidableEq K]

/-- The entry at the position found matches exactly when the key is in the table. -/
theorem isMatching_search (ho : StrictTotal lt) (h : SortedBy lt key l) (k : K) :
    isMatching key l (search lt key l k) k = true ↔ ∃ e ∈ l, key e = k := by
  rcases search_cases ho h k with ⟨l₁, e, l₂, rfl, hs, hk, -, -⟩ | ⟨l₁, l₂, rfl, hs, h₁, h₂⟩
  · refine iff_of_true ?_ ⟨e, by simp, hk⟩
    rw [hs]
    simp [isMatching, hk]
  · have hno : ∀ x ∈ l₁ ++ l₂, key x ≠ k := by
      intro x hx
      rcases List.mem_append.1 hx with hx | hx
      · exact ne_of_lt ho (h₁ x hx)
      · exact (ne_of_lt ho (h₂ x hx)).symm
    refine iff_of_false ?_ fun ⟨x, hx, hkx⟩ => hno x hx hkx
    unfold isMatching
    cases hat : (l₁ ++ l₂)[search lt key (l₁ ++ l₂) k]? with
    | none => simp
    | some x => simpa using hno x (List.mem_of_getElem? hat)

/-- Inserting an entry whose key the table lacks. -/
theorem insert (ho : StrictTotal lt) (h : SortedBy lt key l)
    (hm : isMatching key l (search lt key l (key a)) (key a) = false) :
    SortedBy lt key (l.insertIdx (search lt key l (key a)) a) ∧
      ∀ x, x ∈ l.insertIdx (search lt key l (key a)) a ↔ x = a ∨ x ∈ l := by
  rcases search_cases ho h (key a) with
    ⟨l₁, e, l₂, rfl, hs, hk, -, -⟩ | ⟨l₁, l₂, rfl, hs, h₁, h₂⟩
  · rw [hs] at hm
    simp [isMatching, hk] at hm
  · obtain ⟨hl₁, hl₂, hcross⟩ := List.pairwise_append.1 h
    rw [hs]
    refine ⟨?_, fun x => List.mem_insertIdx (by simp)⟩
    rw [insertIdx_append_length]
    refine List.pairwise_append.2 ⟨hl₁, List.pairwise_cons.2 ⟨h₂, hl₂⟩, fun x hx y hy => ?_⟩
    rcases List.mem_cons.1 hy with rfl | hy
    · exact h₁ x hx
    · exact hcross x hx y hy

/-- Erasing the entry with a key. -/
theorem erase (ho : StrictTotal lt) (h : SortedBy lt key l)
    (hm : isMatching key l (search lt key l k) k = true) :
    SortedBy lt key (l.eraseIdx (search lt key l k)) ∧
      ∀ x, x ∈ l.eraseIdx (search lt key l k) ↔ x ∈ l ∧ key x ≠ k := by
  rcases search_cases ho h k with ⟨l₁, e, l₂, rfl, hs, hk, h₁, h₂⟩ | ⟨l₁, l₂, rfl, hs, h₁, h₂⟩
  · have herase : (l₁ ++ e :: l₂).eraseIdx l₁.length = l₁ ++ l₂ := by
      rw [List.eraseIdx_append_of_length_le (Nat.le_refl _)]
      simp
    rw [hs, herase]
    refine ⟨List.Pairwise.sublist (by simp) h, fun x => ?_⟩
    simp only [List.mem_append, List.mem_cons]
    constructor
    · rintro (hx | hx)
      · exact ⟨.inl hx, ne_of_lt ho (h₁ x hx)⟩
      · exact ⟨.inr (.inr hx), (ne_of_lt ho (h₂ x hx)).symm⟩
    · rintro ⟨hx | rfl | hx, hne⟩
      · exact .inl hx
      · exact absurd hk hne
      · exact .inr hx
  · obtain ⟨x, hx, hkx⟩ := (isMatching_search ho h k).1 hm
    rcases List.mem_append.1 hx with hx | hx
    · exact absurd hkx (ne_of_lt ho (h₁ x hx))
    · exact absurd hkx.symm (ne_of_lt ho (h₂ x hx))

/-- The entry a search has found. -/
theorem exists_matching (h : isMatching key l (search lt key l k) k = true) :
    ∃ e, l[search lt key l k]? = some e ∧ key e = k := by
  obtain ⟨e, hat, hk⟩ := (Option.any_eq_true _ _).1 h
  exact ⟨e, hat, of_decide_eq_true hk⟩

/-- Replacing the entry with a key by another one with it. -/
theorem replace (ho : StrictTotal lt) (h : SortedBy lt key l)
    (hm : isMatching key l (search lt key l (key a)) (key a) = true) :
    SortedBy lt key (l.set (search lt key l (key a)) a) ∧
      ∀ x, x ∈ l.set (search lt key l (key a)) a ↔ x = a ∨ x ∈ l ∧ key x ≠ key a := by
  obtain ⟨e, hat, hk⟩ := exists_matching hm
  exact set_key ho h hat hk.symm

end SortedBy

theorem SortedBy.keys_nodup {lt : K → K → Bool} {key : α → K} {l : List α} (ho : StrictTotal lt)
    (h : SortedBy lt key l) : (l.map key).Nodup :=
  List.pairwise_map.2 (h.imp fun hab => ne_of_lt ho hab)

/-- Changing the entry a search has found changes the entry with the key. -/
theorem SortedBy.modify_search [DecidableEq K] {lt : K → K → Bool} {key : α → K} {l : List α}
    {k : K} (ho : StrictTotal lt) (h : SortedBy lt key l) (f : α → α)
    (hm : isMatching key l (search lt key l k) k = true) :
    l.modify (search lt key l k) f = l.map fun x => if key x = k then f x else x := by
  obtain ⟨e, hat, hk⟩ := exists_matching hm
  apply List.ext_getElem?
  intro i
  rw [List.getElem?_modify, List.getElem?_map]
  by_cases hi : search lt key l k = i
  · subst hi
    simp [hat, hk]
  · cases hother : l[i]? with
    | none => simp
    | some x =>
      have hne : key x ≠ k := by
        intro hx
        have hlt : search lt key l k < (l.map key).length := by
          simpa using (List.getElem?_eq_some_iff.1 hat).1
        apply hi
        rw [← List.getElem?_inj hlt (h.keys_nodup ho)]
        rw [List.getElem?_map, List.getElem?_map, hat, hother, Option.map_some, Option.map_some,
          hk, hx]
      simp [hi, hne]

/-! ## Building a table -/

/-- The list sorted by its key. -/
def sortBy (lt : K → K → Bool) (key : α → K) (l : List α) : List α :=
  l.insertionSort fun a b => lt (key b) (key a) = false

/-- What is left of the list from its first two neighbours that are the same. -/
def adjacentFind (same : α → α → Bool) : List α → List α
  | [] => []
  | [_] => []
  | a :: b :: rest => if same a b then a :: b :: rest else adjacentFind same (b :: rest)

theorem adjacentFind_eq_nil_iff {same : α → α → Bool} {l : List α} :
    adjacentFind same l = [] ↔ l.IsChain fun a b => same a b = false := by
  induction l using adjacentFind.induct same with
  | case1 => simp [adjacentFind]
  | case2 => simp [adjacentFind]
  | case3 a b rest h => simp [adjacentFind, h]
  | case4 a b rest h ih => simp [adjacentFind, h, ih]

section Building

variable {lt : K → K → Bool} {key : α → K} {l : List α}

theorem sortBy_perm (lt : K → K → Bool) (key : α → K) (l : List α) : (sortBy lt key l).Perm l :=
  List.perm_insertionSort _ l

@[simp] theorem mem_sortBy {a : α} : a ∈ sortBy lt key l ↔ a ∈ l := (sortBy_perm lt key l).mem_iff

theorem sortBy_pairwise (ho : StrictTotal lt) :
    (sortBy lt key l).Pairwise fun a b => lt (key b) (key a) = false := by
  have htotal : Std.Total fun a b : α => lt (key b) (key a) = false := by
    refine ⟨fun a b => ?_⟩
    by_contra hboth
    simp only [not_or, Bool.not_eq_false] at hboth
    have hloop := ho.trans hboth.1 hboth.2
    rw [ho.irrefl] at hloop
    cases hloop
  have htrans : IsTrans α fun a b : α => lt (key b) (key a) = false := by
    refine ⟨fun a b c hab hbc => ?_⟩
    by_contra hca
    rw [Bool.not_eq_false] at hca
    -- `b` is equal to `a`, or it is greater and then greater than `c`
    cases hlt : lt (key a) (key b) with
    | false =>
      rw [ho.connected hlt hab, hbc] at hca
      cases hca
    | true =>
      rw [ho.trans hca hlt] at hbc
      cases hbc
  exact List.pairwise_insertionSort _ l

variable [DecidableEq K]

/-- The sorted list is a table when no two neighbours have one key. -/
theorem sortBy_sorted (ho : StrictTotal lt)
    (h : adjacentFind (fun a b => decide (key a = key b)) (sortBy lt key l) = []) :
    SortedBy lt key (sortBy lt key l) := by
  have hdistinct := adjacentFind_eq_nil_iff.1 h
  have hchain : (sortBy lt key l).IsChain fun a b => lt (key a) (key b) = true := by
    have hsorted : (sortBy lt key l).IsChain fun a b => lt (key b) (key a) = false :=
      (sortBy_pairwise ho).isChain
    rw [List.isChain_iff_getElem] at hdistinct hsorted ⊢
    intro i hi
    cases hlt : lt (key (sortBy lt key l)[i]) (key (sortBy lt key l)[i + 1]) with
    | true => rfl
    | false => exact absurd (ho.connected hlt (hsorted i hi)) (of_decide_eq_false (hdistinct i hi))
  have htrans : IsTrans α fun a b : α => lt (key a) (key b) = true :=
    ⟨fun _ _ _ hab hbc => ho.trans hab hbc⟩
  exact List.isChain_iff_pairwise.1 hchain

/-- There are no such neighbours exactly when the keys of the list are distinct. -/
theorem adjacentFind_sortBy_iff (ho : StrictTotal lt) :
    adjacentFind (fun a b => decide (key a = key b)) (sortBy lt key l) = [] ↔
      (l.map key).Nodup := by
  have hperm := (sortBy_perm lt key l).map key
  refine ⟨fun h => hperm.nodup_iff.1 ((sortBy_sorted ho h).keys_nodup ho), fun h => ?_⟩
  rw [adjacentFind_eq_nil_iff]
  have hpairwise := List.pairwise_map.1 (hperm.nodup_iff.2 h)
  exact (hpairwise.imp fun hab => decide_eq_false hab).isChain

end Building

end Lib

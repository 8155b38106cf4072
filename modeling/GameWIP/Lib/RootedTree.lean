import Mathlib.Data.List.Nodup
import Mathlib.Data.List.Infix
import Mathlib.Data.List.Perm.Subperm
import Mathlib.Logic.Function.Basic
import Mathlib.Logic.Relation
import Mathlib.Algebra.Ring.Nat

/-!
# Rooted trees by their lists of children

A tree is given by the ordered children of each node, `kids : α → List α`.

* `breadth`: the breadth-first pass with a mark for each visited node. When every node is a child
  of one node only and the root of none, it visits no node twice, ends, and lists what is reachable
  from the root with every node behind its parent (`breadth_spec`).
* `IsPreorder kids pre`: `pre a` lists the nodes below `a` in preorder. It exists when the children
  have greater ranks (`isPreorder_preorderTo`), and then the nodes below `a` are an interval of any
  list they occur in (`IsPreorder.split`), without repetition (`IsPreorder.nodup`).
* `walk`: the loop over a stack that pushes the children of what it takes is the fold over the
  preorder (`walk_eq`).
* `addSizes`: adding each node's size to its parent's, from the last of the preorder to the first,
  gives the sizes of the subtrees (`IsPreorder.addSizes_eq`).
* `raiseEnds`: raising each parent's end to the node's, in the same order, gives the ends of the
  intervals (`IsPreorder.raiseEnds_eq`).
-/

namespace Lib

variable {α S : Type*} {kids : α → List α}

/-- `b` is a child of `a`. -/
def Child (kids : α → List α) (a b : α) : Prop := b ∈ kids a

/-- Every node is a child of one node, once. -/
structure Forest (kids : α → List α) : Prop where
  nodup : ∀ a, (kids a).Nodup
  unique : ∀ a b c, c ∈ kids a → c ∈ kids b → a = b

/-! ## The breadth-first pass -/

section Breadth

/-- The loop over the work list; a node visited before is an error. -/
def breadth [DecidableEq α] (kids : α → List α) : Nat → List α → Nat → (α → Bool) → Option (Except α (List α))
  | 0, _, _, _ => none
  | fuel + 1, work, cursor, visited =>
    match work[cursor]? with
    | none => some (.ok work)
    | some a =>
      if visited a then some (.error a)
      else breadth kids fuel (work ++ kids a) (cursor + 1) (Function.update visited a true)

theorem breadth_mono [DecidableEq α] {fuel : Nat} {work : List α} {cursor : Nat}
    {visited : α → Bool} {r : Except α (List α)}
    (h : breadth kids fuel work cursor visited = some r) {fuel' : Nat} (hle : fuel ≤ fuel') :
    breadth kids fuel' work cursor visited = some r := by
  induction fuel generalizing work cursor visited fuel' with
  | zero => simp [breadth] at h
  | succ fuel ih =>
    cases fuel' with
    | zero => omega
    | succ fuel' =>
      unfold breadth at h ⊢
      cases hat : work[cursor]? with
      | none => simpa only [hat] using h
      | some a =>
        simp only [hat] at h ⊢
        by_cases hv : visited a = true
        · simpa only [if_pos hv] using h
        · rw [if_neg hv] at h ⊢
          exact ih h (by omega)

/-- What the pass keeps of a work list whose first part has been visited. -/
structure Pass (kids : α → List α) (nodes : List α) (root : α) (visited work : List α) :
    Prop where
  nodup : work.Nodup
  inside : ∀ a ∈ work, a ∈ nodes
  head : root ∈ work
  closed : ∀ a ∈ visited, ∀ b ∈ kids a, b ∈ work
  origin : ∀ b ∈ work, b = root ∨ ∃ a ∈ visited, b ∈ kids a
  order : ∀ l₁ b l₂, work = l₁ ++ b :: l₂ → b = root ∨ ∃ a ∈ l₁, b ∈ kids a

variable {nodes : List α} {root a : α} {visited rest : List α}

/-- Visiting the next node. -/
theorem Pass.visit (hf : Forest kids) (hroot : ∀ a, root ∉ kids a)
    (hkids : ∀ a ∈ nodes, ∀ b ∈ kids a, b ∈ nodes)
    (h : Pass kids nodes root visited (visited ++ a :: rest)) :
    Pass kids nodes root (visited ++ [a]) (visited ++ a :: rest ++ kids a) := by
  have ha : a ∈ visited ++ a :: rest := by simp
  have hnew : a ∉ visited := fun hmem =>
    (List.nodup_append.1 h.nodup).2.2 a hmem a List.mem_cons_self rfl
  -- a child of the next node has not been listed before
  have hfresh : ∀ b ∈ visited ++ a :: rest, b ∉ kids a := by
    intro b hb hkid
    rcases h.origin b hb with rfl | ⟨c, hc, hkid'⟩
    · exact hroot a hkid
    · exact hnew (hf.unique a c b hkid hkid' ▸ hc)
  refine ⟨?_, ?_, List.mem_append_left _ h.head, ?_, ?_, ?_⟩
  · exact List.nodup_append.2 ⟨h.nodup, hf.nodup a, fun b hb c hc hbc => hfresh b hb (hbc ▸ hc)⟩
  · intro b hb
    rcases List.mem_append.1 hb with hb | hb
    · exact h.inside b hb
    · exact hkids a (h.inside a ha) b hb
  · intro b hb c hc
    rcases List.mem_append.1 hb with hb | hb
    · exact List.mem_append_left _ (h.closed b hb c hc)
    · obtain rfl := List.mem_singleton.1 hb
      exact List.mem_append_right _ hc
  · intro b hb
    rcases List.mem_append.1 hb with hb | hb
    · rcases h.origin b hb with hb | ⟨c, hc, hkid⟩
      · exact .inl hb
      · exact .inr ⟨c, List.mem_append_left _ hc, hkid⟩
    · exact .inr ⟨a, by simp, hb⟩
  · intro l₁ b l₂ heq
    rcases List.append_eq_append_iff.1 heq with ⟨l, hl, hkid⟩ | ⟨l, hl, hkid⟩
    · refine .inr ⟨a, hl ▸ List.mem_append_left _ ha, ?_⟩
      rw [hkid]
      simp
    · cases l with
      | nil =>
        refine .inr ⟨a, ?_, ?_⟩
        · rw [List.append_nil] at hl
          exact hl ▸ ha
        · rw [← show b :: l₂ = kids a from hkid]
          exact List.mem_cons_self
      | cons c l =>
        obtain ⟨rfl, -⟩ := List.cons.inj hkid
        exact h.order l₁ b l hl

theorem Pass.length_le {work : List α} (h : Pass kids nodes root visited work) :
    work.length ≤ nodes.length :=
  (List.subperm_of_subset h.nodup h.inside).length_le

/-- The pass from any point on. -/
theorem breadth_of_pass [DecidableEq α] (hf : Forest kids) (hroot : ∀ a, root ∉ kids a)
    (hkids : ∀ a ∈ nodes, ∀ b ∈ kids a, b ∈ nodes) {fuel : Nat} {marked : α → Bool}
    (h : Pass kids nodes root visited (visited ++ rest))
    (hmarked : ∀ a, marked a = true ↔ a ∈ visited)
    (hfuel : nodes.length < visited.length + fuel) :
    ∃ work, breadth kids fuel (visited ++ rest) visited.length marked = some (.ok work) ∧
      Pass kids nodes root work work := by
  induction fuel generalizing visited rest marked with
  | zero =>
    have := h.length_le
    rw [List.length_append] at this
    omega
  | succ fuel ih =>
    unfold breadth
    cases rest with
    | nil =>
      rw [List.append_nil] at h ⊢
      rw [List.getElem?_eq_none (Nat.le_refl _)]
      exact ⟨visited, rfl, h⟩
    | cons a rest =>
      have hnew : a ∉ visited := fun hmem =>
        (List.nodup_append.1 h.nodup).2.2 a hmem a List.mem_cons_self rfl
      have hunmarked : marked a = false := Bool.eq_false_iff.2 fun htrue =>
        hnew ((hmarked a).1 htrue)
      rw [List.getElem?_append_right (Nat.le_refl _), Nat.sub_self, List.getElem?_cons_zero]
      dsimp only
      rw [hunmarked, if_neg Bool.false_ne_true]
      have hnext := h.visit hf hroot hkids
      have hlist : visited ++ a :: rest ++ kids a = (visited ++ [a]) ++ (rest ++ kids a) := by
        simp
      rw [hlist] at hnext ⊢
      have hlength : visited.length + 1 = (visited ++ [a]).length := by simp
      rw [hlength]
      refine ih hnext (fun b => ?_) (by rw [← hlength]; omega)
      by_cases hb : b = a
      · subst hb
        simp
      · rw [Function.update_of_ne hb, hmarked b]
        simp [hb]

/-- **The breadth-first pass** ends, visits no node twice and lists what is reachable from the root,
with every node behind its parent. -/
theorem breadth_spec [DecidableEq α] (hf : Forest kids) (hroot : ∀ a, root ∉ kids a)
    (hkids : ∀ a ∈ nodes, ∀ b ∈ kids a, b ∈ nodes) (hmem : root ∈ nodes) {fuel : Nat}
    (hfuel : nodes.length < fuel) :
    ∃ work, breadth kids fuel [root] 0 (fun _ => false) = some (.ok work) ∧
      Pass kids nodes root work work := by
  have hstart : Pass kids nodes root [] ([] ++ [root]) := by
    refine ⟨by simp, by simpa using hmem, by simp, by simp, by simp, fun l₁ b l₂ heq => ?_⟩
    cases l₁ with
    | nil => exact .inl (List.cons.inj heq).1.symm
    | cons c l₁ => simp at heq
  exact breadth_of_pass hf hroot hkids hstart (by simp) (by simpa using hfuel)

/-- Everything reachable from the root is listed. -/
theorem Pass.mem_of_reachable {work : List α} (h : Pass kids nodes root work work) {b : α}
    (hb : Relation.ReflTransGen (Child kids) root b) : b ∈ work := by
  induction hb with
  | refl => exact h.head
  | tail _ hchild ih => exact h.closed _ ih _ hchild

/-- Everything listed is reachable from the root. -/
theorem Pass.reachable_of_mem {work : List α} (h : Pass kids nodes root visited work) {b : α}
    (hb : b ∈ work) : Relation.ReflTransGen (Child kids) root b := by
  suffices hsplit : ∀ n l₁ b l₂, l₁.length = n → work = l₁ ++ b :: l₂ →
      Relation.ReflTransGen (Child kids) root b by
    obtain ⟨l₁, l₂, heq⟩ := List.append_of_mem hb
    exact hsplit _ l₁ b l₂ rfl heq
  intro n
  induction n using Nat.strongRecOn with
  | ind n ih =>
    intro l₁ b l₂ hn heq
    rcases h.order l₁ b l₂ heq with rfl | ⟨a, ha, hkid⟩
    · exact .refl
    · obtain ⟨k₁, k₂, rfl⟩ := List.append_of_mem ha
      refine .tail (ih k₁.length ?_ k₁ a (k₂ ++ b :: l₂) rfl (by simp [heq])) hkid
      simp at hn
      omega

end Breadth

/-! ## The preorder -/

/-- The nodes below a node in preorder, down to a depth. -/
def preorderTo (kids : α → List α) : Nat → α → List α
  | 0, a => [a]
  | depth + 1, a => a :: (kids a).flatMap (preorderTo kids depth)

/-- `pre a` lists the nodes below `a` in preorder. -/
def IsPreorder (kids pre : α → List α) : Prop := ∀ a, pre a = a :: (kids a).flatMap pre

theorem preorderTo_succ {rank : α → Nat} {bound : Nat}
    (hrank : ∀ a, ∀ b ∈ kids a, rank a < rank b ∧ rank b ≤ bound) (depth : Nat) (a : α)
    (ha : bound - rank a ≤ depth) : preorderTo kids (depth + 1) a = preorderTo kids depth a := by
  induction depth generalizing a with
  | zero =>
    have hnone : kids a = [] := by
      cases hkids : kids a with
      | nil => rfl
      | cons b rest =>
        have := hrank a b (by rw [hkids]; exact List.mem_cons_self)
        omega
    simp [preorderTo, hnone]
  | succ depth ih =>
    rw [preorderTo, preorderTo]
    refine congrArg (a :: ·) (List.flatMap_congr fun b hb => ih b ?_)
    have := hrank a b hb
    omega

/-- Children of greater rank, up to a bound. -/
theorem isPreorder_preorderTo {rank : α → Nat} {bound : Nat}
    (hrank : ∀ a, ∀ b ∈ kids a, rank a < rank b ∧ rank b ≤ bound) :
    IsPreorder kids (preorderTo kids bound) := by
  intro a
  rw [← preorderTo_succ hrank bound a (Nat.sub_le _ _)]
  rfl

/-- The nodes of a breadth-first pass have a preorder. -/
theorem Pass.exists_preorder {work : List α} (h : Pass kids nodes root work work)
    (hf : Forest kids) (hroot : ∀ a, root ∉ kids a) (hall : ∀ a, a ∈ work ∨ kids a = []) :
    ∃ pre, IsPreorder kids pre := by
  classical
  let rank := fun a => work.idxOf a
  suffices hrank : ∀ a, ∀ b ∈ kids a, rank a < rank b ∧ rank b ≤ work.length from
    ⟨_, isPreorder_preorderTo hrank⟩
  intro a b hb
  have ha : a ∈ work := (hall a).resolve_right (List.ne_nil_of_mem hb)
  have hmem := h.closed a ha b hb
  obtain ⟨l₁, l₂, hsplit⟩ := List.append_of_mem hmem
  have hnodup := h.nodup
  rw [hsplit] at hnodup
  have hbl₁ : b ∉ l₁ := fun hin =>
    (List.nodup_append.1 hnodup).2.2 b hin b List.mem_cons_self rfl
  rcases h.order l₁ b l₂ hsplit with rfl | ⟨c, hc, hkid⟩
  · exact absurd hb (hroot a)
  · obtain rfl := hf.unique a c b hb hkid
    refine ⟨?_, List.idxOf_le_length⟩
    show work.idxOf a < work.idxOf b
    rw [hsplit]
    rw [List.idxOf_append_of_mem hc, List.idxOf_append_of_notMem hbl₁]
    have := List.idxOf_lt_length_of_mem hc
    omega

namespace IsPreorder

variable {pre : α → List α} {a b c : α}

theorem self_mem (h : IsPreorder kids pre) (a : α) : a ∈ pre a := by
  rw [h a]
  exact List.mem_cons_self

/-- The nodes below a child are an interval of the nodes below its parent. -/
theorem split_child (h : IsPreorder kids pre) (hb : b ∈ kids a) :
    ∃ l₁ l₂, pre a = a :: l₁ ++ pre b ++ l₂ := by
  obtain ⟨k₁, k₂, hkids⟩ := List.append_of_mem hb
  refine ⟨k₁.flatMap pre, k₂.flatMap pre, ?_⟩
  rw [h a, hkids]
  simp

theorem length_lt (h : IsPreorder kids pre) (hb : b ∈ kids a) :
    (pre b).length < (pre a).length := by
  obtain ⟨l₁, l₂, heq⟩ := h.split_child hb
  rw [heq]
  simp
  omega

/-- A list of the nodes below `a` holds what is reachable from it. -/
theorem mem_iff (h : IsPreorder kids pre) :
    b ∈ pre a ↔ Relation.ReflTransGen (Child kids) a b := by
  constructor
  · induction hn : (pre a).length using Nat.strongRecOn generalizing a with
    | ind n ih =>
      intro hb
      rw [h a] at hb
      rcases List.mem_cons.1 hb with rfl | hb
      · exact .refl
      · obtain ⟨c, hc, hb⟩ := List.mem_flatMap.1 hb
        exact .head hc (ih _ (hn ▸ h.length_lt hc) rfl hb)
  · intro hb
    induction hb using Relation.ReflTransGen.head_induction_on with
    | refl => exact h.self_mem b
    | head hchild _ ih =>
      obtain ⟨l₁, l₂, heq⟩ := h.split_child hchild
      rw [heq]
      simp [ih]

/-- Behind the node itself stands what is below it. -/
theorem mem_tail_iff (h : IsPreorder kids pre) :
    b ∈ (pre a).tail ↔ Relation.TransGen (Child kids) a b := by
  rw [h a, List.tail_cons, List.mem_flatMap, Relation.TransGen.head'_iff]
  exact exists_congr fun c => and_congr_right fun _ => h.mem_iff

/-- **The nodes below a node are an interval** of any preorder it occurs in. -/
theorem split (h : IsPreorder kids pre) (hb : b ∈ pre a) :
    ∃ l₁ l₂, pre a = l₁ ++ pre b ++ l₂ := by
  have hreach := h.mem_iff.1 hb
  induction hreach using Relation.ReflTransGen.head_induction_on with
  | refl => exact ⟨[], [], by simp⟩
  | @head a c hchild hrest ih =>
    obtain ⟨l₁, l₂, heq⟩ := ih (h.mem_iff.2 hrest)
    obtain ⟨k₁, k₂, heq'⟩ := h.split_child hchild
    refine ⟨a :: k₁ ++ l₁, l₂ ++ k₂, ?_⟩
    rw [heq', heq]
    simp

theorem length_le_of_reachable (h : IsPreorder kids pre)
    (hb : Relation.ReflTransGen (Child kids) a b) : (pre b).length ≤ (pre a).length := by
  obtain ⟨l₁, l₂, heq⟩ := h.split (h.mem_iff.2 hb)
  rw [heq]
  simp
  omega

/-- Two nodes above one are above each other. -/
theorem Forest.linear (hf : Forest kids) (ha : Relation.ReflTransGen (Child kids) a c)
    (hb : Relation.ReflTransGen (Child kids) b c) :
    Relation.ReflTransGen (Child kids) a b ∨ Relation.ReflTransGen (Child kids) b a := by
  have hunique : Relator.RightUnique (Function.swap (Child kids)) := fun c a b hca hcb =>
    hf.unique a b c hca hcb
  rcases Relation.ReflTransGen.total_of_right_unique hunique ha.swap hb.swap with hab | hba
  · exact .inr hab.swap
  · exact .inl hba.swap

/-- Different children have nothing below both. -/
theorem disjoint (h : IsPreorder kids pre) (hf : Forest kids) {d : α} (hb : b ∈ kids a)
    (hc : c ∈ kids a) (hne : b ≠ c) (hdb : d ∈ pre b) (hdc : d ∈ pre c) : False := by
  have hbelow : ∀ {b c : α}, b ∈ kids a → c ∈ kids a → b ≠ c →
      Relation.ReflTransGen (Child kids) b c → False := by
    intro b c hb hc hne hreach
    rcases Relation.ReflTransGen.cases_tail hreach with heq | ⟨e, he, hchild⟩
    · exact hne heq.symm
    · obtain rfl := hf.unique a e c hc hchild
      have := h.length_le_of_reachable he
      have := h.length_lt hb
      omega
  rcases Forest.linear hf (h.mem_iff.1 hdb) (h.mem_iff.1 hdc) with hreach | hreach
  · exact hbelow hb hc hne hreach
  · exact hbelow hc hb hne.symm hreach

/-- A preorder repeats no node. -/
theorem nodup (h : IsPreorder kids pre) (hf : Forest kids) (a : α) : (pre a).Nodup := by
  induction hn : (pre a).length using Nat.strongRecOn generalizing a with
  | ind n ih =>
    rw [h a]
    refine List.nodup_cons.2 ⟨fun ha => ?_, List.nodup_flatMap.2 ⟨fun b hb => ?_, ?_⟩⟩
    · obtain ⟨b, hb, hmem⟩ := List.mem_flatMap.1 ha
      have := h.length_le_of_reachable (h.mem_iff.1 hmem)
      have := h.length_lt hb
      omega
    · exact ih _ (hn ▸ h.length_lt hb) b rfl
    · refine List.Pairwise.imp_of_mem (fun {b c} hb hc hne d hdb hdc => ?_) (hf.nodup a)
      exact h.disjoint hf hb hc hne hdb hdc

/-- Behind a node stand its children, in any preorder without repetition. -/
theorem kids_behind (h : IsPreorder kids pre) {root : α} {l₁ l₂ : List α}
    (hnodup : (pre root).Nodup) (heq : pre root = l₁ ++ a :: l₂) (hb : b ∈ kids a) : b ∈ l₂ := by
  have ha : a ∈ pre root := by simp [heq]
  obtain ⟨k₁, k₂, heq'⟩ := h.split ha
  rw [h a] at heq'
  have hsame : l₁ ++ a :: l₂ = k₁ ++ a :: ((kids a).flatMap pre ++ k₂) := by
    rw [← heq, heq']
    simp
  rw [heq] at hnodup
  obtain ⟨-, htail, hcross⟩ := List.nodup_append.1 hnodup
  have hl : l₂ = (kids a).flatMap pre ++ k₂ :=
    ((List.append_cons_inj_of_notMem (fun hmem => hcross a hmem a List.mem_cons_self rfl)
      (List.nodup_cons.1 htail).1).1 hsame).2.2
  rw [hl]
  exact List.mem_append_left _ (List.mem_flatMap.2 ⟨b, hb, h.self_mem b⟩)

/-- Before a node stands its parent. -/
theorem parent_before (h : IsPreorder kids pre) {root : α} {l₁ l₂ : List α}
    (hnodup : (pre root).Nodup) (heq : pre root = l₁ ++ b :: l₂) (hb : b ∈ kids a)
    (ha : a ∈ pre root) : a ∈ l₁ := by
  rw [heq] at ha
  rcases List.mem_append.1 ha with ha | ha
  · exact ha
  exfalso
  obtain ⟨k₁, k₂, hsplit⟩ := List.append_of_mem ha
  have heq' : pre root = (l₁ ++ k₁) ++ a :: k₂ := by
    rw [heq, hsplit, List.append_assoc]
  have hbehind := h.kids_behind hnodup heq' hb
  rw [heq'] at hnodup
  cases k₁ with
  | nil =>
    obtain ⟨rfl, rfl⟩ := List.cons.inj hsplit
    exact (List.nodup_cons.1 (List.nodup_append.1 hnodup).2.1).1 hbehind
  | cons c k₁ =>
    obtain ⟨rfl, rfl⟩ := List.cons.inj hsplit
    exact (List.nodup_append.1 hnodup).2.2 b (by simp) b (List.mem_cons_of_mem _ hbehind) rfl

/-- The interval of a node, behind as many nodes as its position says. -/
theorem interval [DecidableEq α] (h : IsPreorder kids pre) {root : α} (hnodup : (pre root).Nodup)
    (ha : a ∈ pre root) : ∃ l₁ l₂, pre root = l₁ ++ (pre a ++ l₂) ∧
      (pre root).idxOf a = l₁.length ∧ ∀ b ∈ pre a, b ∉ l₁ := by
  obtain ⟨l₁, l₂, heq⟩ := h.split ha
  rw [List.append_assoc] at heq
  have hnew : ∀ b ∈ pre a, b ∉ l₁ := fun b hb hmem => by
    rw [heq] at hnodup
    exact (List.nodup_append.1 hnodup).2.2 b hmem b (List.mem_append_left _ hb) rfl
  refine ⟨l₁, l₂, heq, ?_, hnew⟩
  rw [heq, List.idxOf_append_of_notMem (hnew a (h.self_mem a)), h a]
  simp

/-- **What stands in the interval of a node is below it.** -/
theorem below_of_idxOf [DecidableEq α] (h : IsPreorder kids pre) {root : α}
    (hnodup : (pre root).Nodup) (ha : a ∈ pre root)
    (hlow : (pre root).idxOf a < (pre root).idxOf b)
    (hhigh : (pre root).idxOf b < (pre root).idxOf a + (pre a).length) :
    Relation.TransGen (Child kids) a b := by
  obtain ⟨l₁, l₂, heq, hat, -⟩ := h.interval hnodup ha
  rw [hat] at hlow hhigh
  have hmem : b ∈ pre a := by
    by_contra hnot
    rw [heq] at hlow hhigh
    by_cases hb₁ : b ∈ l₁
    · rw [List.idxOf_append_of_mem hb₁] at hlow
      have := List.idxOf_lt_length_of_mem hb₁
      omega
    · rw [List.idxOf_append_of_notMem hb₁, List.idxOf_append_of_notMem hnot] at hhigh
      omega
  rcases Relation.reflTransGen_iff_eq_or_transGen.1 (h.mem_iff.1 hmem) with rfl | hbelow
  · omega
  · exact hbelow

/-- **What is below a node stands in its interval.** -/
theorem idxOf_of_below [DecidableEq α] (h : IsPreorder kids pre) {root : α}
    (hnodup : (pre root).Nodup) (ha : a ∈ pre root) (hbelow : Relation.TransGen (Child kids) a b) :
    (pre root).idxOf a < (pre root).idxOf b ∧
      (pre root).idxOf b < (pre root).idxOf a + (pre a).length := by
  obtain ⟨l₁, l₂, heq, hat, hnew⟩ := h.interval hnodup ha
  have hmem : b ∈ pre a := h.mem_iff.2 hbelow.to_reflTransGen
  have hne : a ≠ b := by
    rintro rfl
    obtain ⟨c, hchild, hreach⟩ := Relation.TransGen.head'_iff.1 hbelow
    have := h.length_le_of_reachable hreach
    have := h.length_lt hchild
    omega
  have hpos : 0 < (pre a).idxOf b := by
    rw [h a, List.idxOf_cons_ne _ hne]
    omega
  have hlt := List.idxOf_lt_length_of_mem hmem
  have hb : (pre root).idxOf b = l₁.length + (pre a).idxOf b := by
    rw [heq, List.idxOf_append_of_notMem (hnew b hmem), List.idxOf_append_of_mem hmem]
  omega

/-- The interval of a child ends in front of those of the children behind it. -/
theorem end_of_kid [DecidableEq α] (h : IsPreorder kids pre) {root : α}
    (hnodup : (pre root).Nodup) (ha : a ∈ pre root) {k₁ k₂ : List α}
    (hkids : kids a = k₁ ++ b :: k₂) :
    (pre root).idxOf b + (pre b).length + (k₂.flatMap pre).length =
      (pre root).idxOf a + (pre a).length := by
  obtain ⟨l₁, l₂, heq, hat, hnew⟩ := h.interval hnodup ha
  have hsplit : pre a = (a :: k₁.flatMap pre) ++ (b :: (kids b).flatMap pre ++ k₂.flatMap pre) := by
    rw [h a, hkids, List.flatMap_append, List.flatMap_cons, h b]
    rfl
  have hb : b ∈ pre a := by simp [hsplit]
  have hfront : b ∉ a :: k₁.flatMap pre := fun hmem => by
    rw [heq, List.nodup_append, List.nodup_append, hsplit, List.nodup_append] at hnodup
    exact hnodup.2.1.1.2.2 b hmem b (by simp) rfl
  have hplace : (pre root).idxOf b = l₁.length + (1 + (k₁.flatMap pre).length) := by
    rw [heq, List.idxOf_append_of_notMem (hnew b hb), List.idxOf_append_of_mem hb, hsplit,
      List.idxOf_append_of_notMem hfront, List.cons_append, List.idxOf_cons_self, Nat.add_zero,
      List.length_cons, Nat.add_comm 1]
  rw [hplace, hat, hsplit, h b]
  simp
  omega

end IsPreorder

/-! ## Loops over the preorder -/

/-- The loop over a stack: takes the top, visits it and pushes its children, the first on top. -/
def walk (kids : α → List α) (visit : S → α → S) : Nat → List α → S → Option S
  | _, [], s => some s
  | 0, _ :: _, _ => none
  | fuel + 1, a :: rest, s => walk kids visit fuel (kids a ++ rest) (visit s a)

theorem walk_mono {visit : S → α → S} {fuel : Nat} {stack : List α} {s t : S}
    (h : walk kids visit fuel stack s = some t) {fuel' : Nat} (hle : fuel ≤ fuel') :
    walk kids visit fuel' stack s = some t := by
  induction fuel generalizing stack s fuel' with
  | zero =>
    cases stack with
    | nil => cases fuel' <;> exact h
    | cons a rest => simp [walk] at h
  | succ fuel ih =>
    cases fuel' with
    | zero => omega
    | succ fuel' =>
      cases stack with
      | nil => exact h
      | cons a rest =>
        rw [walk] at h ⊢
        exact ih h (by omega)

/-- **The stack loop is the fold over the preorder.** -/
theorem walk_eq {pre : α → List α} (h : IsPreorder kids pre) (visit : S → α → S) {fuel : Nat}
    {stack : List α} {s : S} (hfuel : (stack.flatMap pre).length ≤ fuel) :
    walk kids visit fuel stack s = some ((stack.flatMap pre).foldl visit s) := by
  induction fuel generalizing stack s with
  | zero =>
    cases stack with
    | nil => rfl
    | cons a rest =>
      rw [List.flatMap_cons, h a] at hfuel
      simp at hfuel
  | succ fuel ih =>
    cases stack with
    | nil => rfl
    | cons a rest =>
      have hstack : (a :: rest).flatMap pre = a :: (kids a ++ rest).flatMap pre := by
        rw [List.flatMap_cons, h a, List.flatMap_append]
        rfl
      rw [hstack] at hfuel ⊢
      rw [walk, ih (by simpa using hfuel)]
      rfl

variable [DecidableEq α]

/-- Adds each size to the parent's, from the last node to the first. -/
def addSizes (parent : α → Option α) (nodes : List α) (sizes : α → Nat) : α → Nat :=
  nodes.foldr (fun a sizes =>
    match parent a with
    | none => sizes
    | some p => Function.update sizes p (sizes p + sizes a)) sizes

/-- What the children add when those of a list have been added. -/
def added (pre : α → List α) (done l : List α) : Nat :=
  (l.map fun b => if b ∈ done then (pre b).length else 0).sum

theorem added_cons_of_not_mem {pre : α → List α} {a : α} {done l : List α} (h : a ∉ l) :
    added pre (a :: done) l = added pre done l := by
  unfold added
  refine congrArg List.sum (List.map_congr_left fun b hb => ?_)
  have hne : b ≠ a := fun heq => h (heq ▸ hb)
  simp [hne]

theorem added_cons_of_mem {pre : α → List α} {a : α} {done l : List α} (hl : l.Nodup)
    (h : a ∈ l) (hnew : a ∉ done) :
    added pre (a :: done) l = added pre done l + (pre a).length := by
  induction l with
  | nil => cases h
  | cons b l ih =>
    obtain ⟨hb, hl⟩ := List.nodup_cons.1 hl
    have hcons : ∀ done, added pre done (b :: l) =
        (if b ∈ done then (pre b).length else 0) + added pre done l := fun _ => rfl
    rw [hcons, hcons]
    rcases List.mem_cons.1 h with rfl | h
    · rw [added_cons_of_not_mem hb, if_pos List.mem_cons_self, if_neg hnew]
      omega
    · have hne : b ≠ a := fun heq => hb (heq ▸ h)
      rw [ih hl h, if_congr (List.mem_cons.trans (or_iff_right hne)) rfl rfl]
      omega

theorem added_all {pre : α → List α} {a : α} {done : List α} (h : IsPreorder kids pre)
    (hall : ∀ b ∈ kids a, b ∈ done) : 1 + added pre done (kids a) = (pre a).length := by
  have hsum : added pre done (kids a) = ((kids a).map fun b => (pre b).length).sum := by
    refine congrArg List.sum (List.map_congr_left fun b hb => ?_)
    rw [if_pos (hall b hb)]
  rw [hsum, h a, List.length_cons, List.length_flatMap]
  omega

/-- **The sizes of the subtrees.** -/
theorem IsPreorder.addSizes_eq {pre : α → List α} {parent : α → Option α} {root : α}
    (h : IsPreorder kids pre) (hf : Forest kids)
    (hparent : ∀ a b, b ∈ pre root → (parent b = some a ↔ b ∈ kids a)) {a : α}
    (ha : a ∈ pre root) : addSizes parent (pre root) (fun _ => 1) a = (pre a).length := by
  have hnodup := h.nodup hf root
  -- behind a point of the preorder the sizes of the children have been added
  have hdone : ∀ l₁ l₂, pre root = l₁ ++ l₂ → ∀ a,
      addSizes parent l₂ (fun _ => 1) a = 1 + added pre l₂ (kids a) := by
    intro l₁ l₂ heq
    induction l₂ generalizing l₁ with
    | nil =>
      intro a
      have hnone : added pre [] (kids a) = 0 := by
        simp [added]
      rw [hnone]
      rfl
    | cons b l₂ ih =>
      have hrest := ih (l₁ ++ [b]) (by simpa using heq)
      have hb : b ∈ pre root := by simp [heq]
      have hnew : b ∉ l₂ := by
        rw [heq] at hnodup
        exact (List.nodup_cons.1 (List.nodup_append.1 hnodup).2.1).1
      have hsize : addSizes parent l₂ (fun _ => 1) b = (pre b).length := by
        rw [hrest b]
        exact added_all h fun c hc => h.kids_behind hnodup heq hc
      intro a
      show (match parent b with
        | none => addSizes parent l₂ fun _ => 1
        | some p => Function.update (addSizes parent l₂ fun _ => 1) p
            (addSizes parent l₂ (fun _ => 1) p + addSizes parent l₂ (fun _ => 1) b)) a = _
      cases hp : parent b with
      | none =>
        have hnot : b ∉ kids a := fun hmem => by
          rw [(hparent a b hb).2 hmem] at hp
          cases hp
        rw [added_cons_of_not_mem hnot]
        exact hrest a
      | some p =>
        have hkid := (hparent p b hb).1 hp
        dsimp only
        by_cases hap : a = p
        · subst hap
          rw [Function.update_self, hrest, hsize, added_cons_of_mem (hf.nodup a) hkid hnew]
          omega
        · have hnot : b ∉ kids a := fun hmem => hap (hf.unique a p b hmem hkid)
          rw [Function.update_of_ne hap, hrest, added_cons_of_not_mem hnot]
  obtain ⟨l₁, l₂, heq⟩ := List.append_of_mem ha
  rw [hdone [] (pre root) rfl a]
  refine added_all h fun b hb => ?_
  rw [heq]
  exact List.mem_append_right _ (List.mem_cons_of_mem _ (h.kids_behind hnodup heq hb))

/-! ## The ends of the intervals -/

/-- Raises the end of each parent to that of the node, from the last node to the first. -/
def raiseEnds (parent : α → Option α) (nodes : List α) (ends : α → Nat) : α → Nat :=
  nodes.foldr (fun a ends =>
    match parent a with
    | none => ends
    | some p => Function.update ends p (max (ends p) (ends a))) ends

theorem raiseEnds_cons (parent : α → Option α) (a : α) (nodes : List α) (ends : α → Nat) :
    raiseEnds parent (a :: nodes) ends =
      match parent a with
      | none => raiseEnds parent nodes ends
      | some p => Function.update (raiseEnds parent nodes ends) p
          (max (raiseEnds parent nodes ends p) (raiseEnds parent nodes ends a)) := rfl

/-- **The ends of the intervals**, when each node begins with its own position. -/
theorem IsPreorder.raiseEnds_eq {pre : α → List α} {parent : α → Option α} {root : α}
    (h : IsPreorder kids pre) (hf : Forest kids)
    (hparent : ∀ a b, b ∈ pre root → (parent b = some a ↔ b ∈ kids a)) {ends : α → Nat}
    (hends : ∀ a ∈ pre root, ends a = (pre root).idxOf a + 1) {a : α} (ha : a ∈ pre root) :
    raiseEnds parent (pre root) ends a = (pre root).idxOf a + (pre a).length := by
  have hnodup := h.nodup hf root
  let last := fun a => (pre root).idxOf a + (pre a).length
  -- no interval of a child ends behind that of its parent
  have hkid : ∀ a ∈ pre root, ∀ b ∈ kids a, last b ≤ last a := by
    intro a ha b hb
    obtain ⟨k₁, k₂, hkids⟩ := List.append_of_mem hb
    have := h.end_of_kid hnodup ha hkids
    show (pre root).idxOf b + (pre b).length ≤ (pre root).idxOf a + (pre a).length
    omega
  -- an end that is raised to those of all children is that of the interval
  have hsettled : ∀ a ∈ pre root, ∀ n, (pre root).idxOf a + 1 ≤ n → n ≤ last a →
      (∀ b ∈ kids a, last b ≤ n) → n = last a := by
    intro a ha n hlow hhigh hall
    rcases List.eq_nil_or_concat (kids a) with hnone | ⟨k₁, b, hkids⟩
    · have hlast : last a = (pre root).idxOf a + 1 := by
        show (pre root).idxOf a + (pre a).length = _
        rw [h a, hnone]
        rfl
      omega
    · rw [List.concat_eq_append] at hkids
      have hlast := h.end_of_kid hnodup ha hkids
      have hle := hall b (by simp [hkids])
      have hsame : last b = last a := by simpa using hlast
      omega
  -- behind a point of the preorder the ends of the children there have been raised
  have hdone : ∀ l₁ l₂, pre root = l₁ ++ l₂ → ∀ a ∈ pre root,
      (pre root).idxOf a + 1 ≤ raiseEnds parent l₂ ends a ∧ raiseEnds parent l₂ ends a ≤ last a ∧
        ∀ b ∈ kids a, b ∈ l₂ → last b ≤ raiseEnds parent l₂ ends a := by
    intro l₁ l₂ heq
    induction l₂ generalizing l₁ with
    | nil =>
      intro a ha
      have hpos : 0 < (pre a).length := List.length_pos_of_mem (h.self_mem a)
      refine ⟨(hends a ha).ge, (hends a ha).trans_le ?_, fun b _ hb => absurd hb List.not_mem_nil⟩
      show (pre root).idxOf a + 1 ≤ (pre root).idxOf a + (pre a).length
      omega
    | cons b l₂ ih =>
      have hrest := ih (l₁ ++ [b]) (by simpa using heq)
      have hb : b ∈ pre root := by simp [heq]
      have hend : raiseEnds parent l₂ ends b = last b := by
        obtain ⟨hlow, hhigh, hraised⟩ := hrest b hb
        exact hsettled b hb _ hlow hhigh fun c hc => hraised c hc (h.kids_behind hnodup heq hc)
      intro a ha
      obtain ⟨hlow, hhigh, hraised⟩ := hrest a ha
      have hstep : raiseEnds parent (b :: l₂) ends a =
          if parent b = some a then max (raiseEnds parent l₂ ends a) (last b)
          else raiseEnds parent l₂ ends a := by
        rw [← hend, raiseEnds_cons]
        cases parent b with
        | none => simp
        | some p =>
          by_cases hap : a = p
          · subst hap
            simp
          · simp [hap, Ne.symm hap]
      rw [hstep]
      split_ifs with hp
      · have hbelow := hkid a ha b ((hparent a b hb).1 hp)
        refine ⟨by omega, by omega, fun c hc hmem => ?_⟩
        rcases List.mem_cons.1 hmem with rfl | hmem
        · exact Nat.le_max_right _ _
        · exact (hraised c hc hmem).trans (Nat.le_max_left _ _)
      · refine ⟨hlow, hhigh, fun c hc hmem => ?_⟩
        rcases List.mem_cons.1 hmem with rfl | hmem
        · exact absurd ((hparent a c hb).2 hc) hp
        · exact hraised c hc hmem
  obtain ⟨hlow, hhigh, hraised⟩ := hdone [] (pre root) rfl a ha
  refine hsettled a ha _ hlow hhigh fun b hb => hraised b hb ?_
  obtain ⟨l₁, l₂, heq⟩ := List.append_of_mem ha
  rw [heq]
  exact List.mem_append_right _ (List.mem_cons_of_mem _ (h.kids_behind hnodup heq hb))

end Lib

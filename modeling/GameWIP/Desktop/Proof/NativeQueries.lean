import GameWIP.Desktop.NativeQueries
import GameWIP.Desktop.Proof.NativeSnapshot

/-!
# Native queries follow the tree

The answers of a client on a snapshot that was prepared.

* `navigate_firstChild` and its siblings: the directions by the ordered children;
* `visits_eq`: first children and next siblings meet the preorder;
* `getItem_spec`: the cells of a table;
* `findItemByProperty_spec`: the matching items behind a start are found one by one.
-/

namespace Desktop

namespace Native

open Lib (Child IsPreorder)
open TextIndex (Variant QueryError)

variable {F : Type}

/-- A client on a prepared snapshot: a tree, laid out, with a provider for each node. -/
structure Serves (client : Client F) (pre : Nat → List Nat) (root : Nat) : Prop where
  checked : Checked client.snapshot root
  preorder : IsPreorder client.snapshot.kids pre
  all : ∀ i < client.snapshot.nodes.length, i ∈ pre root
  intervals : Intervals client.snapshot pre root client.native.layout
  length : client.native.providers.length = client.snapshot.nodes.length
  distinct : client.native.providers.Nodup
  owner : ∀ (i : Nat) (r : ProviderRef), client.native.providers[i]? = some r →
    ∃ p, client.heap[r]? = some p ∧ p.id = (client.snapshot.node i).id
  contained : client.snapshot.CellsInside
  size : client.snapshot.nodes.length < uint32Max

namespace Serves

variable {client : Client F} {pre : Nat → List Nat} {root i a b : Nat} {r : ProviderRef}

/-- The provider of a position. -/
theorem exists_provider (h : Serves client pre root) (hi : i < client.snapshot.nodes.length) :
    ∃ r, client.native.providers[i]? = some r :=
  ⟨_, List.getElem?_eq_getElem (h.length.symm ▸ hi)⟩

theorem lt_of_provider (h : Serves client pre root) (hr : client.native.providers[i]? = some r) :
    i < client.snapshot.nodes.length :=
  h.length ▸ (List.getElem?_eq_some_iff.1 hr).1

/-- Nodes have different providers. -/
theorem provider_inj (h : Serves client pre root) (ha : client.native.providers[a]? = some r)
    (hb : client.native.providers[b]? = some r) : a = b := by
  obtain ⟨halt, ha⟩ := List.getElem?_eq_some_iff.1 ha
  obtain ⟨hblt, hb⟩ := List.getElem?_eq_some_iff.1 hb
  exact (h.distinct.getElem_inj_iff).1 (ha.trans hb.symm)

/-- The provider of an identity is that of its position. -/
theorem providerFor_node (h : Serves client pre root) (hi : i < client.snapshot.nodes.length)
    (id : NodeId) :
    Query.providerFor ⟨client.snapshot, client.native, id⟩ (client.snapshot.node i).id =
      client.native.providers[i]? := by
  rw [Query.providerFor, h.checked.find_node hi]

/-- Zero is the identity of no node. -/
theorem providerFor_zero (h : Serves client pre root) (id : NodeId) :
    Query.providerFor ⟨client.snapshot, client.native, id⟩ 0 = none := by
  rw [Query.providerFor, SnapshotView.find_of_notMem h.checked.nonzero]
  exact List.getElem?_eq_none h.length.le

/-- A call on the provider of a node is one with its identity. -/
theorem query_provider (h : Serves client pre root) (hr : client.native.providers[i]? = some r) :
    client.query r = .ok ⟨client.snapshot, client.native, (client.snapshot.node i).id⟩ := by
  obtain ⟨p, hp, hid⟩ := h.owner i r hr
  rw [Client.query, hp]
  dsimp only
  rw [hid]

theorem navigate_provider (h : Serves client pre root) (hr : client.native.providers[i]? = some r)
    (direction : NavigateDirection) :
    client.navigate r direction =
      Query.navigate ⟨client.snapshot, client.native, (client.snapshot.node i).id⟩ direction := by
  rw [Client.navigate, h.query_provider hr]
  rfl

theorem index_node (h : Serves client pre root) (hi : i < client.snapshot.nodes.length) :
    Query.index ⟨client.snapshot, client.native, (client.snapshot.node i).id⟩ = .ok i := by
  have hfind := h.checked.find_node hi
  rw [Query.index, hfind, if_pos hi]

/-! ## Directions -/

/-- A target by its position. -/
theorem providerFor_target (h : Serves client pre root) (target : Option NodeId) (id : NodeId) :
    Query.providerFor ⟨client.snapshot, client.native, id⟩ (target.getD 0) =
      (target.map client.snapshot.find).bind (client.native.providers[·]?) := by
  cases target with
  | none => exact h.providerFor_zero id
  | some target => rfl

theorem navigate_firstChild (h : Serves client pre root)
    (hr : client.native.providers[i]? = some r) :
    client.navigate r .firstChild =
      .ok ((client.snapshot.kids i).head?.bind (client.native.providers[·]?)) := by
  rw [h.navigate_provider hr, Query.navigate, h.index_node (h.lt_of_provider hr)]
  show Except.ok (Query.providerFor _ ((client.snapshot.node i).children.head?.getD 0)) = _
  rw [h.providerFor_target, SnapshotView.kids, List.head?_map]

theorem navigate_lastChild (h : Serves client pre root)
    (hr : client.native.providers[i]? = some r) :
    client.navigate r .lastChild =
      .ok ((client.snapshot.kids i).getLast?.bind (client.native.providers[·]?)) := by
  rw [h.navigate_provider hr, Query.navigate, h.index_node (h.lt_of_provider hr)]
  show Except.ok (Query.providerFor _ ((client.snapshot.node i).children.getLast?.getD 0)) = _
  rw [h.providerFor_target, SnapshotView.kids, List.getLast?_map]

theorem navigate_parent (h : Serves client pre root)
    (hr : client.native.providers[i]? = some r) :
    client.navigate r .parent =
      .ok ((client.snapshot.parent i).bind (client.native.providers[·]?)) := by
  rw [h.navigate_provider hr, Query.navigate, h.index_node (h.lt_of_provider hr)]
  show Except.ok (Query.providerFor _ (client.snapshot.node i).parent) = _
  unfold SnapshotView.parent
  split_ifs with hzero
  · rw [hzero, h.providerFor_zero]
    rfl
  · rfl

theorem sibling_next {id : NodeId} {l₁ l₂ : List NodeId} (hnew : id ∉ l₁) :
    sibling (l₁ ++ id :: l₂) id true = l₂.head?.getD 0 := by
  have hat : (l₁ ++ id :: l₂).idxOf id = l₁.length := by
    rw [List.idxOf_append_of_notMem hnew]
    simp
  unfold sibling
  dsimp only
  rw [hat, if_neg (by simp), if_pos rfl, List.getD_eq_getElem?_getD,
    List.getElem?_append_right (Nat.le_succ _), Nat.succ_sub (Nat.le_refl _), Nat.sub_self,
    List.getElem?_cons_succ, List.head?_eq_getElem?]

theorem sibling_previous {id : NodeId} {l₁ l₂ : List NodeId} (hnew : id ∉ l₁) :
    sibling (l₁ ++ id :: l₂) id false = l₁.getLast?.getD 0 := by
  have hat : (l₁ ++ id :: l₂).idxOf id = l₁.length := by
    rw [List.idxOf_append_of_notMem hnew]
    simp
  unfold sibling
  dsimp only
  rw [hat, if_neg (by simp), if_neg Bool.false_ne_true]
  split_ifs with hfirst
  · rw [List.length_eq_zero_iff.1 hfirst]
    rfl
  · rw [List.getD_eq_getElem?_getD, List.getElem?_append_left (by omega), List.getLast?_eq_getElem?]

/-- The children of a node around one of them. -/
theorem children_split (h : Serves client pre root) {k₁ k₂ : List Nat}
    (hkids : client.snapshot.kids a = k₁ ++ i :: k₂) :
    ∃ l₁ l₂, (client.snapshot.node a).children = l₁ ++ (client.snapshot.node i).id :: l₂ ∧
      (client.snapshot.node i).id ∉ l₁ ∧ l₁.map client.snapshot.find = k₁ ∧
      l₂.map client.snapshot.find = k₂ := by
  have hnodup := h.checked.forest.nodup a
  have hkid : i ∈ client.snapshot.kids a := by simp [hkids]
  have ha := Checked.lt_of_mem_kids hkid
  obtain ⟨l₁, l, hchildren, hl₁, hl⟩ := List.map_eq_append_iff.1 hkids
  obtain ⟨id, l₂, rfl, hid, hl₂⟩ := List.map_eq_cons_iff.1 hl
  have hmem : id ∈ (client.snapshot.node a).children := by simp [hchildren]
  have hknown := ((h.checked.linked a _ (Checked.node_of_lt ha).1).children id hmem).1
  have hsame : (client.snapshot.node i).id = id := hid ▸ (h.checked.find_lt hknown).2
  rw [hsame]
  refine ⟨l₁, l₂, hchildren, fun hin => ?_, hl₁, hl₂⟩
  rw [hkids, ← hl₁] at hnodup
  have hfront := List.mem_map_of_mem (f := client.snapshot.find) hin
  rw [hid] at hfront
  exact (List.nodup_append.1 hnodup).2.2 i hfront i List.mem_cons_self rfl

/-- Siblings by the children of the parent. -/
theorem navigate_sibling (h : Serves client pre root) (hr : client.native.providers[i]? = some r) :
    client.navigate r .nextSibling = .ok (Query.providerFor
        ⟨client.snapshot, client.native, (client.snapshot.node i).id⟩
        (match findNode client.snapshot (client.snapshot.node i).parent with
          | none => 0
          | some parent => sibling parent.children (client.snapshot.node i).id true)) ∧
      client.navigate r .previousSibling = .ok (Query.providerFor
        ⟨client.snapshot, client.native, (client.snapshot.node i).id⟩
        (match findNode client.snapshot (client.snapshot.node i).parent with
          | none => 0
          | some parent => sibling parent.children (client.snapshot.node i).id false)) := by
  constructor <;>
  · rw [h.navigate_provider hr, Query.navigate, h.index_node (h.lt_of_provider hr)]
    rfl

/-- The node behind and the node in front. -/
theorem navigate_siblings (h : Serves client pre root)
    (hr : client.native.providers[i]? = some r) {k₁ k₂ : List Nat}
    (hkids : client.snapshot.kids a = k₁ ++ i :: k₂) :
    client.navigate r .nextSibling = .ok (k₂.head?.bind (client.native.providers[·]?)) ∧
      client.navigate r .previousSibling =
        .ok (k₁.getLast?.bind (client.native.providers[·]?)) := by
  have hkid : i ∈ client.snapshot.kids a := by simp [hkids]
  have ha := Checked.lt_of_mem_kids hkid
  obtain ⟨l₁, l₂, hchildren, hnew, rfl, rfl⟩ := h.children_split hkids
  have hparent : findNode client.snapshot (client.snapshot.node i).parent =
      some (client.snapshot.node a) := by
    rw [findNode, (h.checked.kid hkid).2.1, h.checked.find_node ha]
    exact (Checked.node_of_lt ha).1
  rw [(h.navigate_sibling hr).1, (h.navigate_sibling hr).2, hparent]
  dsimp only
  rw [hchildren, sibling_next hnew, sibling_previous hnew, h.providerFor_target,
    h.providerFor_target, List.head?_map, List.getLast?_map]
  exact ⟨rfl, rfl⟩

/-- The root has no siblings. -/
theorem navigate_root (h : Serves client pre root)
    (hr : client.native.providers[root]? = some r) :
    client.navigate r .nextSibling = .ok none ∧ client.navigate r .previousSibling = .ok none := by
  have hparent : findNode client.snapshot (client.snapshot.node root).parent = none := by
    rw [findNode, h.checked.root_parent, SnapshotView.find_of_notMem h.checked.nonzero]
    exact List.getElem?_eq_none (Nat.le_refl _)
  rw [(h.navigate_sibling hr).1, (h.navigate_sibling hr).2, hparent]
  dsimp only
  rw [h.providerFor_zero]
  exact ⟨rfl, rfl⟩

/-! ## Walks -/

/-- **First children and next siblings meet the preorder.** The list is what is left of the children
of a node. -/
theorem visits_kids (h : Serves client pre root) {l k : List Nat}
    (hkids : client.snapshot.kids a = k ++ l) {fuel : Nat} (hfuel : (l.flatMap pre).length ≤ fuel) :
    ∃ order, client.visits fuel (l.head?.bind (client.native.providers[·]?)) = some order ∧
      order.map some = (l.flatMap pre).map (client.native.providers[·]?) := by
  induction fuel generalizing a k l with
  | zero =>
    cases l with
    | nil => exact ⟨[], rfl, rfl⟩
    | cons b l =>
      have hself := List.length_pos_of_mem (h.preorder.self_mem b)
      rw [List.flatMap_cons, List.length_append] at hfuel
      omega
  | succ fuel ih =>
    cases l with
    | nil => exact ⟨[], rfl, rfl⟩
    | cons b l =>
      have hb : b ∈ client.snapshot.kids a := by simp [hkids]
      obtain ⟨r, hr⟩ := h.exists_provider (h.checked.kid hb).1
      rw [List.flatMap_cons, h.preorder b] at hfuel ⊢
      simp only [List.length_append, List.length_cons] at hfuel
      obtain ⟨below, hbelow, hbelowMap⟩ := ih (a := b) (k := [])
        (l := client.snapshot.kids b) rfl (by omega)
      obtain ⟨behind, hbehind, hbehindMap⟩ := ih (a := a) (k := k ++ [b]) (l := l)
        (by rw [hkids, List.append_assoc]; rfl) (by omega)
      refine ⟨r :: below ++ behind, ?_, ?_⟩
      · rw [List.head?_cons, Option.bind_some, hr, Client.visits, h.navigate_firstChild hr,
          (h.navigate_siblings hr hkids).1]
        simp only [Except.toOption, Option.bind_eq_bind, Option.bind_some, hbelow, hbehind]
        rfl
      · rw [List.map_append, List.map_append, List.map_cons, List.map_cons, hbelowMap, hbehindMap, hr]

/-- The walk from the root. -/
theorem visits_root (h : Serves client pre root) {fuel : Nat}
    (hfuel : (pre root).length ≤ fuel) :
    ∃ order, client.visits fuel client.native.providers[root]? = some order ∧
      order.map some = (pre root).map (client.native.providers[·]?) := by
  obtain ⟨r, hr⟩ := h.exists_provider h.checked.root_lt
  rw [h.preorder root] at hfuel ⊢
  rw [List.length_cons] at hfuel
  cases fuel with
  | zero => omega
  | succ fuel =>
    obtain ⟨below, hbelow, hmap⟩ := h.visits_kids (a := root) (k := [])
      (l := client.snapshot.kids root) rfl (by omega : _ ≤ fuel)
    refine ⟨r :: below, ?_, ?_⟩
    · rw [hr, Client.visits, h.navigate_firstChild hr, (h.navigate_root hr).1]
      simp only [Except.toOption, Option.bind_eq_bind, Option.bind_some, hbelow]
      cases fuel <;> exact congrArg some (List.append_nil _)
    · rw [List.map_cons, List.map_cons, hmap, hr]

/-! ## Siblings -/

/-- A provider is that of the root or of a child. -/
theorem root_or_kid (h : Serves client pre root) (hr : client.native.providers[i]? = some r) :
    i = root ∨ ∃ a k₁ k₂, client.snapshot.kids a = k₁ ++ i :: k₂ := by
  have hreach := h.preorder.mem_iff.1 (h.all i (h.lt_of_provider hr))
  rcases Relation.ReflTransGen.cases_tail hreach with heq | ⟨a, -, hchild⟩
  · exact .inl heq
  · exact .inr ⟨a, List.append_of_mem hchild⟩

/-- **The directions between siblings are inverse.** -/
theorem nextSibling_iff (h : Serves client pre root) {r' : ProviderRef}
    (hr : r ∈ client.native.providers) (hr' : r' ∈ client.native.providers) :
    client.navigate r .nextSibling = .ok (some r') ↔
      client.navigate r' .previousSibling = .ok (some r) := by
  obtain ⟨i, hi⟩ := List.mem_iff_getElem?.1 hr
  obtain ⟨j, hj⟩ := List.mem_iff_getElem?.1 hr'
  constructor
  · intro hnext
    rcases h.root_or_kid hi with rfl | ⟨a, k₁, k₂, hkids⟩
    · rw [(h.navigate_root hi).1] at hnext
      cases hnext
    · rw [(h.navigate_siblings hi hkids).1] at hnext
      obtain ⟨c, hc, hat⟩ := Option.bind_eq_some_iff.1 (Except.ok.inj hnext)
      obtain rfl := h.provider_inj hat hj
      obtain ⟨k₃, rfl⟩ := List.head?_eq_some_iff.1 hc
      have hkids' : client.snapshot.kids a = (k₁ ++ [i]) ++ c :: k₃ := by simpa using hkids
      rw [(h.navigate_siblings hj hkids').2]
      simp [hi]
  · intro hprevious
    rcases h.root_or_kid hj with rfl | ⟨a, k₁, k₂, hkids⟩
    · rw [(h.navigate_root hj).2] at hprevious
      cases hprevious
    · rw [(h.navigate_siblings hj hkids).2] at hprevious
      obtain ⟨c, hc, hat⟩ := Option.bind_eq_some_iff.1 (Except.ok.inj hprevious)
      obtain rfl := h.provider_inj hat hi
      obtain ⟨k₃, rfl⟩ := List.getLast?_eq_some_iff.1 hc
      have hkids' : client.snapshot.kids a = k₃ ++ c :: j :: k₂ := by simpa using hkids
      rw [(h.navigate_siblings hi hkids').1]
      simp [hj]

end Serves

/-- One provider is the next sibling of another. -/
def Next (client : Client F) (r r' : ProviderRef) : Prop :=
  client.navigate r .nextSibling = .ok (some r')

namespace Serves

variable {client : Client F} {pre : Nat → List Nat} {root i a b : Nat} {r last : ProviderRef}

/-- Next siblings end at the last child. -/
theorem next_kids (h : Serves client pre root) {l k : List Nat}
    (hkids : client.snapshot.kids a = k ++ b :: l) (hr : client.native.providers[b]? = some r) :
    Relation.ReflTransGen (Next client) r last ∧ client.navigate last .nextSibling = .ok none ↔
      (b :: l).getLast?.bind (client.native.providers[·]?) = some last := by
  have hnext := (h.navigate_siblings hr hkids).1
  induction l generalizing k b r with
  | nil =>
    rw [List.getLast?_singleton, Option.bind_some, hr]
    constructor
    · rintro ⟨hreach, -⟩
      rcases Relation.ReflTransGen.cases_head hreach with rfl | ⟨c, hc, -⟩
      · rfl
      · cases hnext.symm.trans hc
    · intro heq
      obtain rfl := Option.some.inj heq
      exact ⟨.refl, hnext⟩
  | cons c l ih =>
    have hc : c ∈ client.snapshot.kids a := by simp [hkids]
    have hkids' : client.snapshot.kids a = (k ++ [b]) ++ c :: l := by simp [hkids]
    obtain ⟨r', hr'⟩ := h.exists_provider (h.checked.kid hc).1
    rw [List.head?_cons, Option.bind_some, hr'] at hnext
    rw [List.getLast?_cons_cons]
    refine Iff.trans ?_ (ih hkids' hr' (h.navigate_siblings hr' hkids').1)
    refine and_congr_left fun hlast => ⟨fun hreach => ?_, .head hnext⟩
    rcases Relation.ReflTransGen.cases_head hreach with rfl | ⟨r'', hstep, hrest⟩
    · cases hnext.symm.trans hlast
    · cases hnext.symm.trans hstep
      exact hrest

/-- **The last child is the last that next siblings reach.** -/
theorem lastChild_iff (h : Serves client pre root) (hr : r ∈ client.native.providers) :
    client.navigate r .lastChild = .ok (some last) ↔
      ∃ first, client.navigate r .firstChild = .ok (some first) ∧
        Relation.ReflTransGen (Next client) first last ∧
        client.navigate last .nextSibling = .ok none := by
  obtain ⟨i, hi⟩ := List.mem_iff_getElem?.1 hr
  rw [h.navigate_lastChild hi, h.navigate_firstChild hi]
  cases hkids : client.snapshot.kids i with
  | nil => simp
  | cons b l =>
    have hb : b ∈ client.snapshot.kids i := by simp [hkids]
    obtain ⟨first, hfirst⟩ := h.exists_provider (h.checked.kid hb).1
    rw [Except.ok.injEq, ← h.next_kids (k := []) hkids hfirst, List.head?_cons, Option.bind_some,
      hfirst]
    constructor
    · exact fun hreach => ⟨first, rfl, hreach⟩
    · rintro ⟨first', heq, hreach⟩
      cases heq
      exact hreach

/-- The parent of a child. -/
theorem parent_of_kid (h : Serves client pre root) (hb : b ∈ client.snapshot.kids a)
    (hr : client.native.providers[b]? = some r) :
    client.navigate r .parent = .ok client.native.providers[a]? := by
  rw [h.navigate_parent hr, h.checked.parent_of_mem_kids hb]
  rfl

end Serves

end Native

end Desktop

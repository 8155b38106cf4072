import GameWIP.Desktop.NativeSnapshot
import GameWIP.Desktop.Proof.Acceptance
import GameWIP.Lib.Trace

/-!
# Native snapshots of validated trees

What `prepareAccessibilitySnapshot` leaves behind.

* `Adds`, `createProviders_adds`: the local providers are new objects with one reference each, so
  that releasing them leaves none (`destroy_adds`);
* `layout_spec`: ordinals and ends of subtrees are intervals of the preorder, and the inherited
  containers are the nearest ones;
* `prepareAccessibilitySnapshot_cases`: a call fails and leaves the registry, or lays out the tree.
-/

namespace Desktop

namespace Native

open Lib (Child Forest IsPreorder)

variable {F : Type}

/-! ## References -/

section
variable {α : Type} (f : α → α)

/-- An element is modified as often as its position occurs. -/
theorem getElem?_foldl_modify (refs : List Nat) (l : List α) (k : Nat) :
    (refs.foldl (fun l r => l.modify r f) l)[k]? = l[k]?.map f^[refs.count k] := by
  induction refs generalizing l with
  | nil => simp
  | cons r refs ih =>
    rw [List.foldl_cons, ih, List.getElem?_modify]
    by_cases hrk : r = k
    · subst hrk
      simp [Function.comp_def]
    · simp [hrk]

end

namespace Heap

/-- Each release takes one reference. -/
theorem getElem?_release (refs : List ProviderRef) (heap : Heap) (k : Nat) :
    (refs.foldl release heap)[k]? =
      heap[k]?.map fun p => { p with references := p.references - refs.count k } := by
  have htimes : ∀ n, (fun p : NodeProvider => { p with references := p.references - 1 })^[n] =
      fun p => { p with references := p.references - n } := by
    intro n
    induction n with
    | zero => rfl
    | succ n ih => rw [Function.iterate_succ', ih]; rfl
  rw [← htimes]
  exact getElem?_foldl_modify _ refs heap k

/-- Each `AddRef` adds one. -/
theorem getElem?_addRef (refs : List ProviderRef) (heap : Heap) (k : Nat) :
    (refs.foldl addRef heap)[k]? =
      heap[k]?.map fun p => { p with references := p.references + refs.count k } := by
  have htimes : ∀ n, (fun p : NodeProvider => { p with references := p.references + 1 })^[n] =
      fun p => { p with references := p.references + n } := by
    intro n
    induction n with
    | zero => rfl
    | succ n ih => rw [Function.iterate_succ', ih]; rfl
  rw [← htimes]
  exact getElem?_foldl_modify _ refs heap k

end Heap

/-! ## Local providers -/

/-- The objects that entries refer to. -/
def ProviderMap.refs (values : ProviderMap) : List ProviderRef := values.entries.map Sigma.snd

/-- The providers created since the objects `heap`: each has as many references as it has entries. -/
structure Adds (heap : Heap) (additions : Additions) : Prop where
  old : ∀ k < heap.length, additions.heap[k]? = heap[k]?
  length : heap.length ≤ additions.heap.length
  fresh : ∀ r ∈ additions.values.refs, heap.length ≤ r ∧ r < additions.heap.length
  distinct : additions.values.refs.Nodup
  counted : ∀ k p, heap.length ≤ k → additions.heap[k]? = some p →
    p.references = additions.values.refs.count k
  owner : ∀ entry ∈ additions.values.entries, ∀ p, additions.heap[entry.2]? = some p →
    p.id = entry.1

variable {heap : Heap} {additions : Additions} {memory : Memory} {providers : ProviderMap}
  {root : NodeId}

theorem Adds.start (heap : Heap) : Adds heap { heap := heap } := by
  constructor
  · exact fun k _ => rfl
  · exact Nat.le_refl _
  · simp [ProviderMap.refs]
  · simp [ProviderMap.refs]
  · intro k p hk hp
    rw [List.getElem?_eq_none hk] at hp
    cases hp
  · simp

/-- One more object, with as many references as it has entries. -/
theorem Adds.append (h : Adds heap additions) {values : ProviderMap} {p : NodeProvider}
    (hrefs : values.refs = additions.values.refs ∧ p.references = 0 ∨
      values.refs = additions.heap.length :: additions.values.refs ∧ p.references = 1)
    (howner : ∀ entry ∈ values.entries,
      entry ∈ additions.values.entries ∨ entry.2 = additions.heap.length ∧ p.id = entry.1) :
    Adds heap ⟨values, additions.heap ++ [p]⟩ := by
  have hlength : (additions.heap ++ [p]).length = additions.heap.length + 1 := List.length_append
  have hnew : additions.heap.length ∉ additions.values.refs := fun hmem =>
    Nat.lt_irrefl _ (h.fresh _ hmem).2
  have hbelow : ∀ k < additions.heap.length, (additions.heap ++ [p])[k]? = additions.heap[k]? :=
    fun k hk => List.getElem?_append_left hk
  constructor
  · exact fun k hk => (hbelow k (hk.trans_le h.length)).trans (h.old k hk)
  · exact h.length.trans (by rw [hlength]; exact Nat.le_succ _)
  · intro r hr
    dsimp only at hr
    rw [hlength]
    rcases hrefs with ⟨hsame, -⟩ | ⟨hcons, -⟩
    · obtain ⟨hlow, hhigh⟩ := h.fresh r (hsame ▸ hr)
      exact ⟨hlow, Nat.lt_succ_of_lt hhigh⟩
    · rcases List.mem_cons.1 (hcons ▸ hr) with rfl | hr
      · exact ⟨h.length, Nat.lt_succ_self _⟩
      · obtain ⟨hlow, hhigh⟩ := h.fresh r hr
        exact ⟨hlow, Nat.lt_succ_of_lt hhigh⟩
  · dsimp only
    rcases hrefs with ⟨hsame, -⟩ | ⟨hcons, -⟩
    · exact hsame ▸ h.distinct
    · exact hcons ▸ List.nodup_cons.2 ⟨hnew, h.distinct⟩
  · intro k q hk hq
    dsimp only at hq ⊢
    by_cases hlast : k < additions.heap.length
    · rw [hbelow k hlast] at hq
      rw [h.counted k q hk hq]
      rcases hrefs with ⟨hsame, -⟩ | ⟨hcons, -⟩
      · rw [hsame]
      · rw [hcons, List.count_cons_of_ne (Nat.ne_of_gt hlast)]
    · obtain rfl : k = additions.heap.length := by
        have := (List.getElem?_eq_some_iff.1 hq).1
        omega
      rw [List.getElem?_concat_length] at hq
      obtain rfl := Option.some.inj hq
      have hzero := List.count_eq_zero_of_not_mem hnew
      rcases hrefs with ⟨hsame, hreferences⟩ | ⟨hcons, hreferences⟩
      · rw [hsame, hzero, hreferences]
      · rw [hcons, List.count_cons_self, hzero, hreferences]
  · intro entry hentry q hq
    dsimp only at hentry hq
    rcases howner entry hentry with hold | ⟨hat, hid⟩
    · have hlt := (h.fresh entry.2 (List.mem_map_of_mem hold)).2
      rw [hbelow _ hlt] at hq
      exact h.owner entry hold q hq
    · rw [hat, List.getElem?_concat_length] at hq
      exact Option.some.inj hq ▸ hid

/-- An object that has been created and released again has no reference. -/
theorem Adds.createRelease (h : Adds heap additions) (id : NodeId) (isRoot : Bool) :
    Adds heap { additions with
      heap := (additions.heap.create id isRoot).2.release (additions.heap.create id isRoot).1 } := by
  have hlast : (additions.heap.create id isRoot).2.release (additions.heap.create id isRoot).1 =
      additions.heap ++ [{ id := id, root := isRoot, references := 0 }] := by
    show (additions.heap ++ [_]).modify additions.heap.length _ = _
    rw [List.modify_eq_take_cons_drop (by simp)]
    simp
  rw [hlast]
  exact h.append (.inl ⟨rfl, rfl⟩) fun entry hentry => .inl hentry

/-- A new entry refers to a new object. -/
theorem Adds.insert (h : Adds heap additions) {id : NodeId} (hnew : id ∉ additions.values)
    (isRoot : Bool) :
    Adds heap ⟨additions.values.insert id (additions.heap.create id isRoot).1,
      (additions.heap.create id isRoot).2⟩ := by
  have hentries := AList.entries_insert_of_notMem (b := additions.heap.length) hnew
  refine h.append (.inr ⟨?_, rfl⟩) fun entry hentry => ?_
  · show (AList.insert id additions.heap.length additions.values).entries.map Sigma.snd = _
    rw [hentries]
    rfl
  · have hentry : entry ∈ (AList.insert id additions.heap.length additions.values).entries := hentry
    rw [hentries] at hentry
    rcases List.mem_cons.1 hentry with rfl | hentry
    · exact .inr ⟨rfl, rfl⟩
    · exact .inl hentry

/-- **Creating the missing providers**, whether an allocation throws or not. -/
theorem createProviders_adds {nodes : List (Node F)} {site : Nat} (h : Adds heap additions)
    (hdistinct : (nodes.map Node.id).Nodup)
    (hnew : ∀ node ∈ nodes, node.id ∉ additions.values) :
    Adds heap (createProviders memory providers root nodes site additions).2 := by
  induction nodes generalizing site additions with
  | nil => exact h
  | cons node nodes ih =>
    obtain ⟨hid, hdistinct⟩ := List.nodup_cons.1 hdistinct
    obtain ⟨hnode, hnodes⟩ := List.forall_mem_cons.1 hnew
    unfold createProviders
    split_ifs with hknown
    · exact ih h hdistinct hnodes
    cases memory site with
    | some failure => exact h
    | none =>
      dsimp only
      cases memory (site + 1) with
      | some failure => exact h.createRelease node.id (node.id == root)
      | none =>
        refine ih (h.insert hnode (node.id == root)) hdistinct fun other hother => ?_
        rw [AList.mem_insert]
        rintro (heq | hmem)
        · exact hid (heq ▸ List.mem_map_of_mem hother)
        · exact hnodes other hother hmem

/-- Releasing the local providers leaves them without references and the others as they were. -/
theorem Adds.destroy (h : Adds heap additions) :
    (∀ k < heap.length, additions.destroy[k]? = heap[k]?) ∧
      ∀ k p, heap.length ≤ k → additions.destroy[k]? = some p → p.references = 0 := by
  have hdestroy : additions.destroy = additions.values.refs.foldl Heap.release additions.heap := by
    rw [ProviderMap.refs, List.foldl_map]
    rfl
  refine ⟨fun k hk => ?_, fun k p hk hp => ?_⟩
  · have hzero : additions.values.refs.count k = 0 := List.count_eq_zero_of_not_mem fun hmem =>
      Nat.not_lt.2 (h.fresh k hmem).1 hk
    rw [hdestroy, Heap.getElem?_release, h.old k hk, hzero]
    simp
  · rw [hdestroy, Heap.getElem?_release] at hp
    obtain ⟨q, hq, rfl⟩ := Option.map_eq_some_iff.1 hp
    show q.references - _ = 0
    rw [h.counted k q hk hq, Nat.sub_self]

/-- The entries with one more identity. -/
theorem mem_emplace {values : ProviderMap} {id key : NodeId} {provider : ProviderRef} :
    key ∈ (if id ∈ values then values else values.insert id provider) ↔ key = id ∨ key ∈ values := by
  split_ifs with hid
  · exact ⟨.inr, fun h => h.elim (fun heq => heq ▸ hid) fun hmem => hmem⟩
  · exact AList.mem_insert _

/-- The identities that get a provider, when no allocation throws. -/
theorem mem_createProviders {nodes : List (Node F)} {site site' : Nat}
    (h : (createProviders memory providers root nodes site additions).1 = .ok site') (id : NodeId) :
    id ∈ (createProviders memory providers root nodes site additions).2.values ↔
      id ∈ additions.values ∨ id ∉ providers ∧ id ∈ nodes.map Node.id := by
  induction nodes generalizing site additions with
  | nil => simp [createProviders]
  | cons node nodes ih =>
    unfold createProviders at h ⊢
    rw [List.map_cons, List.mem_cons]
    by_cases hknown : node.id ∈ providers
    · rw [if_pos hknown] at h ⊢
      rw [ih h]
      refine or_congr_right (and_congr_right fun hid => (or_iff_right ?_).symm)
      rintro rfl
      exact hid hknown
    · rw [if_neg hknown] at h ⊢
      cases hsite : memory site with
      | some failure => simp [hsite] at h
      | none =>
        simp only [hsite] at h ⊢
        cases hnext : memory (site + 1) with
        | some failure => simp [hnext] at h
        | none =>
          simp only [hnext] at h ⊢
          rw [ih h, mem_emplace]
          constructor
          · rintro ((rfl | hid) | ⟨hid, hmem⟩)
            · exact .inr ⟨hknown, .inl rfl⟩
            · exact .inl hid
            · exact .inr ⟨hid, .inr hmem⟩
          · rintro (hid | ⟨hid, rfl | hmem⟩)
            · exact .inl (.inr hid)
            · exact .inl (.inl rfl)
            · exact .inr ⟨hid, hmem⟩

/-- No more entries than identities without a provider. -/
theorem length_createProviders (nodes : List (Node F)) (site : Nat) (additions : Additions) :
    (createProviders memory providers root nodes site additions).2.values.entries.length ≤
      additions.values.entries.length +
        (nodes.filter fun node => node.id ∉ providers).length := by
  induction nodes generalizing site additions with
  | nil => exact Nat.le_add_right _ _
  | cons node nodes ih =>
    unfold createProviders
    by_cases hknown : node.id ∈ providers
    · rw [if_pos hknown, List.filter_cons_of_neg (by simpa using hknown)]
      exact ih site additions
    · rw [if_neg hknown, List.filter_cons_of_pos (by simpa using hknown), List.length_cons]
      cases memory site with
      | some failure => exact Nat.le_add_right _ _
      | none =>
        dsimp only
        cases memory (site + 1) with
        | some failure => exact Nat.le_add_right _ _
        | none =>
          refine (ih _ _).trans ?_
          dsimp only
          split_ifs with hmem
          · omega
          · rw [AList.entries_insert_of_notMem hmem, List.length_cons]
            omega

/-! ## The layout of a tree -/

section
variable {snapshot : SnapshotView F} {root i p : Nat} {P : Node F → Prop}

/-- The identity names the nearest proper ancestor with a property; zero when there is none. -/
def NamesNearest (snapshot : SnapshotView F) (P : Node F → Prop) (node : Node F) (id : NodeId) :
    Prop :=
  (∀ found, snapshot.NearestAbove P node found → id = found.id) ∧
    ((∀ found, ¬ snapshot.NearestAbove P node found) → id = 0)

/-- The nearest ancestor is the parent or that of the parent. -/
theorem nearestAbove_iff (h : Checked snapshot root) (hi : i < snapshot.nodes.length)
    (hp : snapshot.parent i = some p) {found : Node F} :
    snapshot.NearestAbove P (snapshot.node i) found ↔
      P (snapshot.node p) ∧ found = snapshot.node p ∨
        ¬ P (snapshot.node p) ∧ snapshot.NearestAbove P (snapshot.node p) found := by
  have hkid := h.kid ((h.parent_iff hi).1 hp)
  have hlt := Checked.lt_of_mem_kids ((h.parent_iff hi).1 hp)
  constructor
  · intro hnear
    cases hnear with
    | parent hmem hid hP =>
      obtain ⟨q, hq, -, rfl⟩ := parent_of_id h hmem hid
      obtain rfl := Option.some.inj (hp.symm.trans hq)
      exact .inl ⟨hP, rfl⟩
    | above hmem hid hP hrest =>
      obtain ⟨q, hq, -, rfl⟩ := parent_of_id h hmem hid
      obtain rfl := Option.some.inj (hp.symm.trans hq)
      exact .inr ⟨hP, hrest⟩
  · rintro (⟨hP, rfl⟩ | ⟨hP, hrest⟩)
    · exact .parent (Checked.node_of_lt hlt).2 hkid.2.1.symm hP
    · exact .above (Checked.node_of_lt hlt).2 hkid.2.1.symm hP hrest

theorem not_nearestAbove (h : Checked snapshot root) (hp : snapshot.parent i = none)
    (found : Node F) : ¬ snapshot.NearestAbove P (snapshot.node i) found := by
  intro hnear
  have hnone : ∀ parent ∈ snapshot.nodes, parent.id ≠ (snapshot.node i).parent := by
    intro parent hmem hid
    obtain ⟨q, hq, -⟩ := parent_of_id h hmem hid
    rw [hp] at hq
    cases hq
  cases hnear with
  | parent hmem hid => exact hnone _ hmem hid
  | above hmem hid => exact hnone _ hmem hid

/-- What a node takes over names its nearest ancestor when what its parent has does. -/
theorem namesNearest_inherit (h : Checked snapshot root) (hi : i < snapshot.nodes.length)
    (hp : snapshot.parent i = some p) {own id : NodeId}
    (hid : NamesNearest snapshot P (snapshot.node p) id)
    (hown : P (snapshot.node p) ∧ own = (snapshot.node p).id ∨ ¬ P (snapshot.node p) ∧ own = id) :
    NamesNearest snapshot P (snapshot.node i) own := by
  rcases hown with ⟨hP, rfl⟩ | ⟨hP, rfl⟩
  · refine ⟨fun found hfound => ?_, fun hnone => ?_⟩
    · rcases (nearestAbove_iff h hi hp).1 hfound with ⟨-, rfl⟩ | ⟨hnot, -⟩
      · rfl
      · exact absurd hP hnot
    · exact absurd ((nearestAbove_iff h hi hp).2 (.inl ⟨hP, rfl⟩)) (hnone _)
  · refine ⟨fun found hfound => ?_, fun hnone => ?_⟩
    · rcases (nearestAbove_iff h hi hp).1 hfound with ⟨hyes, -⟩ | ⟨-, hrest⟩
      · exact absurd hyes hP
      · exact hid.1 found hrest
    · exact hid.2 fun found hfound =>
        hnone found ((nearestAbove_iff h hi hp).2 (.inr ⟨hP, hfound⟩))

/-- A node with selection data. -/
def HasSelection (node : Node F) : Prop := node.selection.isSome

/-- What the layout of a node names. -/
structure NamesContainers (snapshot : SnapshotView F) (node : Node F) (layout : Layout F) : Prop where
  selection : NamesNearest snapshot HasSelection node layout.selectionContainer
  grid : NamesNearest snapshot Node.IsGrid node layout.containingGrid

variable [DoubleOps F]

theorem namesContainers_layOut (h : Checked snapshot root) (hi : i < snapshot.nodes.length)
    {s : LayoutState F} (hinitial : s.layout i = .initial)
    (hparent : ∀ p, snapshot.parent i = some p →
      NamesContainers snapshot (snapshot.node p) (s.layout p)) :
    NamesContainers snapshot (snapshot.node i) ((layOut snapshot s i).layout i) := by
  have hplace : ∀ own : Layout F,
      (place (snapshot.node i) own).selectionContainer = own.selectionContainer ∧
        (place (snapshot.node i) own).containingGrid = own.containingGrid := by
    intro own
    unfold place
    cases (snapshot.node i).geometry with
    | none => exact ⟨rfl, rfl⟩
    | some geometry => exact ⟨rfl, rfl⟩
  have hlayout : ∀ own : Layout F,
      NamesNearest snapshot HasSelection (snapshot.node i) own.selectionContainer →
      NamesNearest snapshot Node.IsGrid (snapshot.node i) own.containingGrid →
      NamesContainers snapshot (snapshot.node i) (place (snapshot.node i) own) := by
    intro own hselection hgrid
    obtain ⟨hs, hg⟩ := hplace own
    exact ⟨hs ▸ hselection, hg ▸ hgrid⟩
  show NamesContainers snapshot (snapshot.node i) (Function.update s.layout i _ i)
  rw [Function.update_self]
  cases hp : snapshot.parent i with
  | none =>
    have hzero : ∀ P : Node F → Prop, NamesNearest snapshot P (snapshot.node i) 0 := fun P =>
      ⟨fun found hfound => absurd hfound (not_nearestAbove h hp found), fun _ => rfl⟩
    apply hlayout
    · simpa [inherit, hp, hinitial, Layout.initial] using hzero _
    · simpa [inherit, hp, hinitial, Layout.initial] using hzero _
  | some p =>
    obtain ⟨hselection, hgrid⟩ := hparent p hp
    apply hlayout
    · refine namesNearest_inherit h hi hp hselection ?_
      by_cases hP : HasSelection (snapshot.node p)
      · exact .inl ⟨hP, by simp only [inherit, hp]; exact if_pos hP⟩
      · exact .inr ⟨hP, by simp only [inherit, hp]; exact if_neg hP⟩
    · refine namesNearest_inherit h hi hp hgrid ?_
      by_cases hP : (snapshot.node p).IsGrid
      · exact .inl ⟨hP, by simp only [inherit, hp]; exact if_pos hP⟩
      · exact .inr ⟨hP, by simp only [inherit, hp]; exact if_neg hP⟩

/-- What the loop knows of the nodes it has taken. -/
structure LaidOut (snapshot : SnapshotView F) (done : List Nat) (s : LayoutState F) : Prop where
  traversal : s.traversal = done
  ordinal : ∀ x ∈ done, (s.layout x).ordinal = done.idxOf x
  subtreeEnd : ∀ x ∈ done, (s.layout x).subtreeEnd = done.idxOf x + 1
  names : ∀ x ∈ done, NamesContainers snapshot (snapshot.node x) (s.layout x)
  initial : ∀ x, x ∉ done → s.layout x = .initial

theorem layOut_self (snapshot : SnapshotView F) (s : LayoutState F) (i : Nat) :
    ((layOut snapshot s i).layout i).ordinal = s.traversal.length ∧
      ((layOut snapshot s i).layout i).subtreeEnd = s.traversal.length + 1 := by
  have hplace : ∀ own : Layout F, (place (snapshot.node i) own).ordinal = own.ordinal ∧
      (place (snapshot.node i) own).subtreeEnd = own.subtreeEnd := by
    intro own
    unfold place
    cases (snapshot.node i).geometry with
    | none => exact ⟨rfl, rfl⟩
    | some geometry => exact ⟨rfl, rfl⟩
  have hinherit : ∀ own : Layout F, (inherit snapshot s.layout i own).ordinal = own.ordinal ∧
      (inherit snapshot s.layout i own).subtreeEnd = own.subtreeEnd := by
    intro own
    unfold inherit
    cases snapshot.parent i with
    | none => exact ⟨rfl, rfl⟩
    | some p => exact ⟨rfl, rfl⟩
  unfold layOut
  dsimp only
  rw [Function.update_self, (hplace _).1, (hplace _).2]
  exact ⟨(hinherit _).1, (hinherit _).2⟩

/-- Laying out a node behind its parent. -/
theorem LaidOut.layOut (h : Checked snapshot root) {done : List Nat} {s : LayoutState F}
    (hs : LaidOut snapshot done s) (hi : i < snapshot.nodes.length) (hnew : i ∉ done)
    (hparent : ∀ p, snapshot.parent i = some p → p ∈ done) :
    LaidOut snapshot (done ++ [i]) (layOut snapshot s i) := by
  have hother : ∀ x, x ≠ i → (Native.layOut snapshot s i).layout x = s.layout x := fun x hx =>
    Function.update_of_ne hx _ _
  have hlast : (done ++ [i]).idxOf i = s.traversal.length := by
    rw [List.idxOf_append_of_notMem hnew, hs.traversal]
    simp
  have hself := layOut_self snapshot s i
  -- a node that was taken before has kept its place
  have hbefore : ∀ x ∈ done, (Native.layOut snapshot s i).layout x = s.layout x ∧
      (done ++ [i]).idxOf x = done.idxOf x := fun x hx =>
    ⟨hother x fun heq => hnew (heq ▸ hx), List.idxOf_append_of_mem hx⟩
  constructor
  · show s.traversal ++ [i] = _
    rw [hs.traversal]
  · intro x hx
    rcases List.mem_append.1 hx with hx | hx
    · rw [(hbefore x hx).1, (hbefore x hx).2, hs.ordinal x hx]
    · obtain rfl := List.mem_singleton.1 hx
      rw [hself.1, hlast]
  · intro x hx
    rcases List.mem_append.1 hx with hx | hx
    · rw [(hbefore x hx).1, (hbefore x hx).2, hs.subtreeEnd x hx]
    · obtain rfl := List.mem_singleton.1 hx
      rw [hself.2, hlast]
  · intro x hx
    rcases List.mem_append.1 hx with hx | hx
    · rw [(hbefore x hx).1]
      exact hs.names x hx
    · obtain rfl := List.mem_singleton.1 hx
      exact namesContainers_layOut h hi (hs.initial x hnew) fun p hp => hs.names p (hparent p hp)
  · intro x hx
    rw [hother x fun heq => hx (by simp [heq])]
    exact hs.initial x fun hmem => hx (List.mem_append_left _ hmem)

omit [DoubleOps F] in
theorem raiseSubtreeEnds_cons (j : Nat) (traversal : List Nat) (layout : Nat → Layout F) :
    raiseSubtreeEnds snapshot (j :: traversal) layout =
      match snapshot.parent j with
      | none => raiseSubtreeEnds snapshot traversal layout
      | some p => Function.update (raiseSubtreeEnds snapshot traversal layout) p
          { raiseSubtreeEnds snapshot traversal layout p with
            subtreeEnd := max (raiseSubtreeEnds snapshot traversal layout p).subtreeEnd
              (raiseSubtreeEnds snapshot traversal layout j).subtreeEnd } := rfl

omit [DoubleOps F] in
/-- Only the ends are raised. -/
theorem raiseSubtreeEnds_eq (traversal : List Nat) (layout : Nat → Layout F) (i : Nat) :
    raiseSubtreeEnds snapshot traversal layout i =
      { layout i with subtreeEnd :=
          Lib.raiseEnds snapshot.parent traversal (fun i => (layout i).subtreeEnd) i } := by
  induction traversal generalizing i with
  | nil => rfl
  | cons j traversal ih =>
    rw [raiseSubtreeEnds_cons, Lib.raiseEnds_cons]
    cases snapshot.parent j with
    | none => exact ih i
    | some p =>
      dsimp only
      by_cases hip : i = p
      · subst hip
        rw [Function.update_self, Function.update_self, ih i, ih j]
      · rw [Function.update_of_ne hip, Function.update_of_ne hip, ih i]

/-- The pending nodes stay within the capacity, so that the loop of a tree allocates nothing. -/
theorem traverse_eq {pre : Nat → List Nat} (hpre : IsPreorder snapshot.kids pre) {memory : Memory}
    {fuel site : Nat} {pending : List Nat} {s : LayoutState F}
    (hcapacity : (pending.flatMap pre).length ≤ snapshot.nodes.length)
    (hfuel : (pending.flatMap pre).length ≤ fuel) :
    traverse snapshot memory fuel site pending s =
      some (.ok ((pending.flatMap pre).foldl (layOut snapshot) s)) := by
  induction fuel generalizing pending s with
  | zero =>
    cases pending with
    | nil => rfl
    | cons i pending =>
      rw [List.flatMap_cons, hpre i] at hfuel
      simp at hfuel
  | succ fuel ih =>
    cases pending with
    | nil => rfl
    | cons i pending =>
      have hnext : (i :: pending).flatMap pre = i :: (snapshot.kids i ++ pending).flatMap pre := by
        rw [List.flatMap_cons, hpre i, List.flatMap_append]
        rfl
      have hlength : ∀ l : List Nat, l.length ≤ (l.flatMap pre).length := by
        intro l
        induction l with
        | nil => exact Nat.zero_le _
        | cons a l ihl =>
          have hpos := List.length_pos_of_mem (hpre.self_mem a)
          rw [List.flatMap_cons, List.length_append, List.length_cons]
          omega
      have hroom := hlength (snapshot.kids i ++ pending)
      rw [hnext, List.length_cons] at hcapacity hfuel
      rw [hnext, List.foldl_cons]
      unfold traverse
      dsimp only
      rw [if_pos (by omega)]
      exact ih (by omega) (by omega)

/-- A layout by the preorder of the positions: the interval of each node and its containers. -/
structure Intervals (snapshot : SnapshotView F) (pre : Nat → List Nat) (root : Nat)
    (layout : Nat → Layout F) : Prop where
  ordinal : ∀ x ∈ pre root, (layout x).ordinal = (pre root).idxOf x
  subtreeEnd : ∀ x ∈ pre root, (layout x).subtreeEnd = (pre root).idxOf x + (pre x).length
  names : ∀ x ∈ pre root, NamesContainers snapshot (snapshot.node x) (layout x)

/-- The layout of a tree. -/
theorem intervals_foldl (h : Checked snapshot root) {pre : Nat → List Nat}
    (hpre : IsPreorder snapshot.kids pre) :
    let s := (pre root).foldl (layOut snapshot) { layout := fun _ => .initial }
    Intervals snapshot pre root (raiseSubtreeEnds snapshot s.traversal s.layout) := by
  intro s
  have hs : LaidOut snapshot (pre root) s :=
    h.foldl_visit hpre (fun _ _ _ hi hnew hparent hs => hs.layOut h hi hnew hparent)
      ⟨rfl, by simp, by simp, by simp, fun _ _ => rfl⟩
  have hinside : ∀ i ∈ pre root, i < snapshot.nodes.length := fun i => h.lt_of_mem_pre hpre
  refine ⟨fun x hx => ?_, fun x hx => ?_, fun x hx => ?_⟩
  · rw [raiseSubtreeEnds_eq]
    exact hs.ordinal x hx
  · rw [raiseSubtreeEnds_eq, hs.traversal]
    exact hpre.raiseEnds_eq h.forest (fun a b hb => h.parent_iff (hinside b hb)) hs.subtreeEnd hx
  · rw [raiseSubtreeEnds_eq]
    exact ⟨(hs.names x hx).selection, (hs.names x hx).grid⟩

/-- What clients read from a layout. -/
structure TreeLayout (snapshot : SnapshotView F) (layout : Nat → Layout F) : Prop where
  descendant : ∀ a ∈ snapshot.ids, ∀ b ∈ snapshot.ids,
    (Native.descendant snapshot layout a b = true ↔ Relation.TransGen snapshot.IsParent b a)
  selectionContainer : ∀ i node, snapshot.nodes[i]? = some node →
    NamesNearest snapshot HasSelection node (layout i).selectionContainer
  containingGrid : ∀ i node, snapshot.nodes[i]? = some node →
    NamesNearest snapshot Node.IsGrid node (layout i).containingGrid

omit [DoubleOps F] in
/-- Below by positions is below by identities. -/
theorem below_iff (h : Checked snapshot root) {a b : NodeId} (ha : a ∈ snapshot.ids)
    (hb : b ∈ snapshot.ids) :
    Relation.TransGen (Child snapshot.kids) (snapshot.find b) (snapshot.find a) ↔
      Relation.TransGen snapshot.IsParent b a := by
  constructor
  · intro hbelow
    have hlift : Relation.TransGen snapshot.IsParent (snapshot.node (snapshot.find b)).id
        (snapshot.node (snapshot.find a)).id :=
      hbelow.lift (fun i => (snapshot.node i).id) fun a b => h.isParent_of_child
    rwa [(h.find_lt ha).2, (h.find_lt hb).2] at hlift
  · exact fun hbelow => (below_of_isParent h hb hbelow).2

omit [DoubleOps F] in
/-- A node stands in the interval of another when it is below it. -/
theorem Intervals.descendant_iff (h : Checked snapshot root) {pre : Nat → List Nat}
    (hpre : IsPreorder snapshot.kids pre) (hall : ∀ i < snapshot.nodes.length, i ∈ pre root)
    {layout : Nat → Layout F} (hl : Intervals snapshot pre root layout) {a b : NodeId}
    (ha : a ∈ snapshot.ids) (hb : b ∈ snapshot.ids) :
    Native.descendant snapshot layout a b = true ↔
      Relation.TransGen (Child snapshot.kids) (snapshot.find b) (snapshot.find a) := by
  have hnodup := hpre.nodup h.forest root
  have halt := (h.find_lt ha).1
  have hblt := (h.find_lt hb).1
  rw [Native.descendant, if_neg (by omega), hl.ordinal _ (hall _ halt), hl.ordinal _ (hall _ hblt),
    hl.subtreeEnd _ (hall _ hblt)]
  simp only [gt_iff_lt, Bool.and_eq_true, decide_eq_true_eq]
  exact ⟨fun hin => hpre.below_of_idxOf hnodup (hall _ hblt) hin.1 hin.2,
    hpre.idxOf_of_below hnodup (hall _ hblt)⟩

omit [DoubleOps F] in
/-- A layout by intervals is one of the tree. -/
theorem Intervals.treeLayout (h : Checked snapshot root) {pre : Nat → List Nat}
    (hpre : IsPreorder snapshot.kids pre) (hall : ∀ i < snapshot.nodes.length, i ∈ pre root)
    {layout : Nat → Layout F} (hl : Intervals snapshot pre root layout) :
    TreeLayout snapshot layout := by
  have hnames : ∀ i node, snapshot.nodes[i]? = some node →
      NamesContainers snapshot node (layout i) := by
    intro i node hat
    have hi := (List.getElem?_eq_some_iff.1 hat).1
    rw [← SnapshotView.node_eq hat]
    exact hl.names i (hall i hi)
  exact ⟨fun a ha b hb => (hl.descendant_iff h hpre hall ha hb).trans (below_iff h ha hb),
    fun i node hat => (hnames i node hat).selection, fun i node hat => (hnames i node hat).grid⟩

end

/-! ## The registry -/

/-- The entries of a union, when the two share no identity. -/
theorem entries_union {values others : ProviderMap} (hdisjoint : ∀ id ∈ values, id ∉ others) :
    (values ∪ others).entries = values.entries ++ others.entries := by
  rw [AList.union_entries]
  have hkeys : ∀ entry ∈ values.entries, entry.1 ∉ others.entries.keys := fun entry hentry =>
    hdisjoint entry.1 (List.mem_keys_of_mem hentry)
  generalize values.entries = l at hkeys ⊢
  induction l with
  | nil => rfl
  | cons entry l ih =>
    obtain ⟨hentry, hl⟩ := List.forall_mem_cons.1 hkeys
    rw [List.kunion_cons, List.kerase_of_notMem_keys hentry, ih hl]
    rfl

/-- What holds of the registry between calls: it is within the limit, and each identity has its own
provider. -/
structure Registered (limits : Limits) (native : UiaState) (heap : Heap) : Prop where
  size : native.providers.entries.length ≤ limits.maximumNativeProviders
  distinct : native.providers.refs.Nodup
  owner : ∀ entry ∈ native.providers.entries, ∃ p, heap[entry.2]? = some p ∧ p.id = entry.1

/-- The objects that existed are as they were, and the others have no reference. -/
structure Released (heap heap' : Heap) : Prop where
  old : ∀ k < heap.length, heap'[k]? = heap[k]?
  created : ∀ k p, heap.length ≤ k → heap'[k]? = some p → p.references = 0

/-- Identities keep their providers. -/
def Keeps (native native' : UiaState) : Prop :=
  ∀ id r, native.providers.lookup id = some r → native'.providers.lookup id = some r

/-- The providers of a snapshot are those of the registry, each node with its own. -/
structure Provides (snapshot : SnapshotView F) (native : UiaState) (providers : List ProviderRef) :
    Prop where
  length : providers.length = snapshot.nodes.length
  lookup : ∀ (i : Nat) (node : Node F) (r : ProviderRef), snapshot.nodes[i]? = some node →
    providers[i]? = some r → native.providers.lookup node.id = some r
  distinct : providers.Nodup

section
variable {snapshot : SnapshotView F} {limits : Limits} {native : UiaState}

theorem Registered.inj (h : Registered limits native heap) {a b : NodeId} {r : ProviderRef}
    (ha : native.providers.lookup a = some r) (hb : native.providers.lookup b = some r) : a = b := by
  have ha' := AList.mem_lookup_iff.1 (Option.mem_def.2 ha)
  have hb' := AList.mem_lookup_iff.1 (Option.mem_def.2 hb)
  have hsame := List.inj_on_of_nodup_map h.distinct ha' hb' rfl
  exact congrArg Sigma.fst hsame

/-- A call that failed. -/
theorem Registered.released (h : Registered limits native heap) {heap' : Heap}
    (hr : Released heap heap') : Registered limits native heap' := by
  refine ⟨h.size, h.distinct, fun entry hentry => ?_⟩
  obtain ⟨p, hp, hid⟩ := h.owner entry hentry
  exact ⟨p, (hr.old _ (List.getElem?_eq_some_iff.1 hp).1).trans hp, hid⟩

/-- What is left of the local providers when their identities are new: nothing. -/
theorem destroy_left {values : ProviderMap} {left : Additions}
    (hleft : left.values.entries = values.entries.filter fun entry => entry.1 ∈ native.providers)
    (hnew : ∀ id ∈ values, id ∉ native.providers) : left.destroy = left.heap := by
  have hnone : left.values.entries = [] := by
    rw [hleft, List.filter_eq_nil_iff]
    intro entry hentry
    simpa using hnew entry.1 (List.mem_keys_of_mem hentry)
  rw [Additions.destroy, hnone]
  rfl

/-- **The merge**: the registry keeps its providers and has one for each node. -/
theorem commit_spec (h : Registered limits native heap) (hadds : Adds heap additions)
    (hdistinct : snapshot.ids.Nodup)
    (hvalues : ∀ id, id ∈ additions.values ↔ id ∉ native.providers ∧ id ∈ snapshot.ids)
    (hroom : native.providers.entries.length + additions.values.entries.length ≤
      limits.maximumNativeProviders) (layout : Nat → Layout F) :
    ∃ own, (commit snapshot native additions layout).result =
        .ok ⟨own, layout, annotationSources snapshot⟩ ∧
      Registered limits (commit snapshot native additions layout).native
        (commit snapshot native additions layout).heap ∧
      Keeps native (commit snapshot native additions layout).native ∧
      Provides snapshot (commit snapshot native additions layout).native own := by
  have hentries : (native.providers ∪ additions.values).entries =
      native.providers.entries ++ additions.values.entries :=
    entries_union fun id hid hmem => ((hvalues id).1 hmem).1 hid
  generalize hown : (snapshot.nodes.map fun node =>
    ((native.providers ∪ additions.values).lookup node.id).getD 0) = own
  have hcommit : commit snapshot native additions layout =
      ⟨.ok ⟨own, layout, annotationSources snapshot⟩,
        { native with providers := native.providers ∪ additions.values },
        own.foldl Heap.addRef additions.heap⟩ := by
    unfold commit
    dsimp only
    rw [destroy_left rfl fun id hid => ((hvalues id).1 hid).1, hown]
  rw [hcommit]
  have hrefs : (native.providers ∪ additions.values).refs =
      native.providers.refs ++ additions.values.refs := by
    rw [ProviderMap.refs, hentries, List.map_append]
    rfl
  have hregistered : Registered limits { native with providers := native.providers ∪ additions.values }
      (own.foldl Heap.addRef additions.heap) := by
    refine ⟨?_, ?_, fun entry hentry => ?_⟩
    · show (native.providers ∪ additions.values).entries.length ≤ _
      rw [hentries, List.length_append]
      omega
    · show (native.providers ∪ additions.values).refs.Nodup
      rw [hrefs]
      refine List.nodup_append.2 ⟨h.distinct, hadds.distinct, fun r hr r' hr' heq => ?_⟩
      subst heq
      obtain ⟨entry, hentry, rfl⟩ := List.mem_map.1 hr
      obtain ⟨p, hp, -⟩ := h.owner entry hentry
      exact Nat.not_lt.2 (hadds.fresh _ hr').1 (List.getElem?_eq_some_iff.1 hp).1
    · -- the owner of an entry, with more references
      have howner : ∃ p, additions.heap[entry.2]? = some p ∧ p.id = entry.1 := by
        have hentry : entry ∈ (native.providers ∪ additions.values).entries := hentry
        rw [hentries] at hentry
        rcases List.mem_append.1 hentry with hentry | hentry
        · obtain ⟨p, hp, hid⟩ := h.owner entry hentry
          exact ⟨p, (hadds.old _ (List.getElem?_eq_some_iff.1 hp).1).trans hp, hid⟩
        · have hlt := (hadds.fresh entry.2 (List.mem_map_of_mem hentry)).2
          exact ⟨_, List.getElem?_eq_getElem hlt,
            hadds.owner entry hentry _ (List.getElem?_eq_getElem hlt)⟩
      obtain ⟨p, hp, hid⟩ := howner
      refine ⟨{ p with references := p.references + own.count entry.2 }, ?_, hid⟩
      rw [Heap.getElem?_addRef, hp]
      rfl
  have hlookup : ∀ id ∈ snapshot.ids, ∃ r,
      (native.providers ∪ additions.values).lookup id = some r := by
    intro id hid
    refine Option.isSome_iff_exists.1 (AList.lookup_isSome.2 (AList.mem_union.2 ?_))
    by_cases hknown : id ∈ native.providers
    · exact .inl hknown
    · exact .inr ((hvalues id).2 ⟨hknown, hid⟩)
  refine ⟨own, rfl, hregistered, fun id r hr => ?_, ?_, fun i node r hat hr => ?_, ?_⟩
  · have hmem : id ∈ native.providers := AList.lookup_isSome.1 (by rw [hr]; rfl)
    exact (AList.lookup_union_left hmem).trans hr
  · rw [← hown, List.length_map]
  · obtain ⟨r', hr'⟩ := hlookup node.id (List.mem_map_of_mem (List.mem_of_getElem? hat))
    rw [← hown, List.getElem?_map, hat, Option.map_some, hr', Option.getD_some] at hr
    exact hr'.trans hr
  · have hids : own = snapshot.ids.map fun id =>
        ((native.providers ∪ additions.values).lookup id).getD 0 := by
      rw [← hown, SnapshotView.ids, List.map_map]
      rfl
    rw [hids]
    refine List.Nodup.map_on (fun a ha b hb heq => ?_) hdistinct
    obtain ⟨r, hr⟩ := hlookup a ha
    obtain ⟨r', hr'⟩ := hlookup b hb
    rw [hr, hr', Option.getD_some, Option.getD_some] at heq
    subst heq
    exact hregistered.inj hr hr'

/-! ## A call -/

variable [DoubleOps F] {root : Nat} {pre : Nat → List Nat}

/-- What a call leaves: it failed, or it laid out the tree. -/
structure Prepared (snapshot : SnapshotView F) (limits : Limits) (pre : Nat → List Nat) (root : Nat)
    (native : UiaState) (heap : Heap) (o : Outcome F) : Prop where
  registered : Registered limits o.native o.heap
  keeps : Keeps native o.native
  failed : ∀ status, o.result = .error status → o.native = native ∧ Released heap o.heap
  laidOut : ∀ result, o.result = .ok result →
    Intervals snapshot pre root result.layout ∧ Provides snapshot o.native result.providers

omit [DoubleOps F] in
theorem Prepared.error (h : Registered limits native heap) {heap' : Heap} (hr : Released heap heap')
    (status : Io.Status) :
    Prepared snapshot limits pre root native heap ⟨.error status, native, heap'⟩ := by
  refine ⟨h.released hr, fun _ _ hid => hid, fun _ _ => ⟨rfl, hr⟩, fun result hresult => ?_⟩
  cases hresult

omit [DoubleOps F] in
/-- The local providers of a call. -/
theorem createProviders_start (memory : Memory) (providers : ProviderMap) (hdistinct : snapshot.ids.Nodup)
    (heap : Heap) (site : Nat) :
    let created := createProviders memory providers snapshot.root snapshot.nodes site { heap := heap }
    Adds heap created.2 ∧ created.2.values.entries.length ≤
        (snapshot.nodes.filter fun node => node.id ∉ providers).length ∧
      ∀ site', created.1 = .ok site' →
        ∀ id, id ∈ created.2.values ↔ id ∉ providers ∧ id ∈ snapshot.ids := by
  refine ⟨?_, ?_, fun site' hok id => ?_⟩
  · exact createProviders_adds (.start heap) hdistinct fun _ _ => AList.notMem_empty _
  · refine (length_createProviders snapshot.nodes site { heap := heap }).trans ?_
    simp
  · rw [mem_createProviders hok id]
    exact or_iff_right (AList.notMem_empty id)

/-- **A call on a validated tree** ends, with every allocation that throws undone. -/
theorem prepareAccessibilitySnapshot_cases (h : Checked snapshot root)
    (hpre : IsPreorder snapshot.kids pre) (hreg : Registered limits native heap)
    (memory : Memory) :
    ∃ o, (∀ fuel, snapshot.nodes.length < fuel →
        prepareAccessibilitySnapshot snapshot limits memory fuel native heap = some o) ∧
      Prepared snapshot limits pre root native heap o := by
  have hnothing : Released heap heap := by
    refine ⟨fun _ _ => rfl, fun k p hk hp => ?_⟩
    rw [List.getElem?_eq_none hk] at hp
    cases hp
  unfold prepareAccessibilitySnapshot
  dsimp only
  by_cases hmissing : (snapshot.nodes.filter fun node => node.id ∉ native.providers).length >
      limits.maximumNativeProviders - native.providers.entries.length
  · simp only [if_pos hmissing]
    exact ⟨_, fun _ _ => rfl, .error hreg hnothing _⟩
  simp only [if_neg hmissing]
  cases allocate memory 5 0 with
  | error failure => exact ⟨_, fun _ _ => rfl, .error hreg hnothing _⟩
  | ok site =>
  dsimp only
  have hcreated := createProviders_start memory native.providers h.distinct heap site
  generalize createProviders memory native.providers snapshot.root snapshot.nodes site
    { heap := heap } = created at hcreated
  obtain ⟨hadds, hlength, hvalues⟩ := hcreated
  obtain ⟨result, additions⟩ := created
  have hreleased : Released heap additions.destroy := ⟨hadds.destroy.1, hadds.destroy.2⟩
  cases result with
  | error failure => exact ⟨_, fun _ _ => rfl, .error hreg hreleased _⟩
  | ok site =>
  dsimp only
  cases allocate memory 2 site with
  | error failure => exact ⟨_, fun _ _ => rfl, .error hreg hreleased _⟩
  | ok site' =>
  dsimp only
  have hroot : [root].flatMap pre = pre root := by simp
  have hlaidOut : ∀ fuel, snapshot.nodes.length < fuel →
      traverse snapshot memory fuel site' [snapshot.find snapshot.root]
        { layout := fun _ => .initial } =
          some (.ok ((pre root).foldl (layOut snapshot) { layout := fun _ => .initial })) := by
    intro fuel hfuel
    have hle := h.length_pre_le hpre
    rw [h.find_root, ← hroot]
    rw [← hroot] at hle
    exact traverse_eq hpre hle (hle.trans hfuel.le)
  obtain ⟨own, hresult, hregistered, hkeeps, hprovides⟩ :=
    commit_spec hreg hadds h.distinct (hvalues site rfl) (by have := hreg.size; omega)
      (raiseSubtreeEnds snapshot
        ((pre root).foldl (layOut snapshot) { layout := fun _ => .initial }).traversal
        ((pre root).foldl (layOut snapshot) { layout := fun _ => .initial }).layout)
  refine ⟨_, fun fuel hfuel => ?_, hregistered, hkeeps, fun status herror => ?_, fun result hok => ?_⟩
  · rw [hlaidOut fuel hfuel]
  · rw [hresult] at herror
    cases herror
  · rw [hresult] at hok
    obtain rfl := Except.ok.inj hok
    exact ⟨intervals_foldl h hpre, hprovides⟩

/-! ## Runs -/

theorem prepared_of_validated (hvalid : validated snapshot limits = true)
    (hreg : Registered limits native heap) (memory : Memory) :
    ∃ root pre o, Checked snapshot root ∧ IsPreorder snapshot.kids pre ∧
      (∀ i < snapshot.nodes.length, i ∈ pre root) ∧
      (∀ fuel, snapshot.nodes.length < fuel →
        prepareAccessibilitySnapshot snapshot limits memory fuel native heap = some o) ∧
      Prepared snapshot limits pre root native heap o := by
  unfold validated at hvalid
  obtain ⟨r, hr, hok⟩ := (Option.any_eq_true _ _).1 hvalid
  obtain ⟨root, pre, h, hpre, hall⟩ := preorder_of_validate hr hok
  obtain ⟨o, hrun, hprepared⟩ := prepareAccessibilitySnapshot_cases h hpre hreg memory
  exact ⟨root, pre, o, h, hpre, hall, hrun, hprepared⟩

/-- A step keeps the registry and its providers. -/
theorem registered_step {s t : UiaState × Heap} {action : NativeAction F}
    (hreg : Registered limits s.1 s.2) (hstep : step limits s action = some t) :
    Registered limits t.1 t.2 ∧ Keeps s.1 t.1 := by
  cases action with
  | prepare snapshot memory =>
    unfold step at hstep
    dsimp only at hstep
    split_ifs at hstep with hvalid
    obtain ⟨root, pre, o, -, -, -, hrun, hprepared⟩ := prepared_of_validated hvalid hreg memory
    rw [hrun _ (Nat.lt_succ_self _)] at hstep
    obtain rfl := Option.some.inj hstep
    exact ⟨hprepared.registered, hprepared.keeps⟩
  | references heap =>
    unfold step at hstep
    dsimp only at hstep
    split_ifs at hstep with hsame
    obtain rfl := Option.some.inj hstep
    refine ⟨⟨hreg.size, hreg.distinct, fun entry hentry => ?_⟩, fun _ _ hid => hid⟩
    obtain ⟨p, hp, hid⟩ := hreg.owner entry hentry
    have hat := congrArg (·[entry.2]?) hsame
    simp only [List.getElem?_map, hp, Option.map_some] at hat
    obtain ⟨q, hq, hqid⟩ := Option.map_eq_some_iff.1 hat
    exact ⟨q, hq, hqid.trans hid⟩

/-- A run keeps the registry and its providers. -/
theorem registered_trace {s t : UiaState × Heap} {tr : List (Lib.Transition (UiaState × Heap) (NativeAction F))}
    (hrun : Lib.Trace (step limits) s tr t) (hreg : Registered limits s.1 s.2) :
    Registered limits t.1 t.2 ∧ Keeps s.1 t.1 := by
  induction hrun with
  | nil s => exact ⟨hreg, fun _ _ hid => hid⟩
  | cons hstep _ ih =>
    obtain ⟨hnext, hkeeps⟩ := registered_step hreg hstep
    obtain ⟨hlast, hrest⟩ := ih hnext
    exact ⟨hlast, fun id r hid => hrest id r (hkeeps id r hid)⟩

theorem registered_start (heap : Heap) : Registered limits {} heap :=
  ⟨Nat.zero_le _, by simp [ProviderMap.refs], by simp⟩

/-- **The preparation of snapshots.** In every run of an activation the registry stays within its
limit and no identity ever gets another provider. A call on a validated snapshot ends whatever its
allocations do: it fails, leaves the registry and has released the providers it created, or lays out
the tree. -/
theorem prepareAccessibilitySnapshot_runs {limits : Limits} {heap : Heap} {s t : UiaState × Heap}
    {tr tr' : List (Lib.Transition (UiaState × Heap) (NativeAction F))}
    (hrun : Lib.Trace (step limits) ({}, heap) tr s) (hlater : Lib.Trace (step limits) s tr' t) :
    s.1.providers.entries.length ≤ limits.maximumNativeProviders ∧ Keeps s.1 t.1 ∧
      ∀ snapshot memory, validated snapshot limits = true →
        ∃ o : Outcome F, (∀ fuel, snapshot.nodes.length < fuel →
            prepareAccessibilitySnapshot snapshot limits memory fuel s.1 s.2 = some o) ∧
          (∀ status, o.result = .error status → o.native = s.1 ∧ Released s.2 o.heap) ∧
          ∀ result, o.result = .ok result → TreeLayout snapshot result.layout := by
  obtain ⟨hreg, -⟩ := registered_trace hrun (registered_start heap)
  refine ⟨hreg.size, (registered_trace hlater hreg).2, fun snapshot memory hvalid => ?_⟩
  obtain ⟨root, pre, o, h, hpre, hall, hcall, hprepared⟩ := prepared_of_validated hvalid hreg memory
  exact ⟨o, hcall, hprepared.failed, fun result hok =>
    (hprepared.laidOut result hok).1.treeLayout h hpre hall⟩

/-- The table and its cell, prepared, published again without memory, and read by a client. -/
theorem prepareAccessibilitySnapshot_runs_tableSnapshot :
    ∃ s : UiaState × Heap, s.1.providers.entries.length ≤ 262144 ∧
      s.2.map NodeProvider.references = [2, 2, 2] ∧
      ∀ memory, ∃ o : Outcome Int,
        prepareAccessibilitySnapshot tableSnapshot {} memory 4 s.1 s.2 = some o ∧
          ∀ result, o.result = .ok result → TreeLayout tableSnapshot result.layout := by
  have hactions : (Lib.run (step {}) ({}, []) [.prepare tableSnapshot fun _ => none,
      .prepare tableSnapshot fun _ => some .badAlloc]).any
        (fun r => r.2.2.map NodeProvider.references = [2, 2, 2]) = true := by
    decide +kernel
  obtain ⟨r, hr, hreferences⟩ := (Option.any_eq_true _ _).1 hactions
  have hrun := Lib.Trace.of_run hr
  obtain ⟨hsize, -, hcalls⟩ := prepareAccessibilitySnapshot_runs hrun (.nil r.2)
  refine ⟨r.2, hsize, by simpa using hreferences, fun memory => ?_⟩
  obtain ⟨o, hcall, -, hlaidOut⟩ := hcalls tableSnapshot memory (by decide +kernel)
  exact ⟨o, hcall 4 (by decide), hlaidOut⟩

end

end Native

end Desktop

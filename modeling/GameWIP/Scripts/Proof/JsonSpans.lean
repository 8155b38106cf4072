import GameWIP.Scripts.Proof.JsonParser

/-!
# The spans of a tree

Every node of a tree that a text spells spans exactly the part of the text that spells it, and the
nodes, in the order in which they start, are nested or apart (`Spells.spans`). For a source that is
read, `parseJsonSource_spans`.
-/

namespace Scripts

open Lib (Json)
open Lib.Json

variable {ν : Type*}

def Node.start : Node ν → Nat
  | .string node => node.start
  | .number _ start _ | .boolean _ start _ | .null start _ | .object _ start _ | .array _ start _ => start

def Node.stop : Node ν → Nat
  | .string node => node.stop
  | .number _ _ stop | .boolean _ _ stop | .null _ stop | .object _ _ stop | .array _ _ stop => stop

mutual

/-- A node and all below it, the names of properties too. -/
def Node.nodes : Node ν → List (Node ν)
  | .string node => [.string node]
  | .number value start stop => [.number value start stop]
  | .boolean value start stop => [.boolean value start stop]
  | .null start stop => [.null start stop]
  | .object properties start stop => .object properties start stop :: propertyNodes properties
  | .array items start stop => .array items start stop :: itemNodes items

def itemNodes : List (Node ν) → List (Node ν)
  | [] => []
  | node :: items => node.nodes ++ itemNodes items

def propertyNodes : List (StringNode × Node ν) → List (Node ν)
  | [] => []
  | (key, node) :: properties => .string key :: (node.nodes ++ propertyNodes properties)

end

def Part.nodes : Part ν → List (Node ν)
  | .value node => node.nodes
  | .items nodes => itemNodes nodes
  | .properties ps => propertyNodes ps

/-- `m` starts before `n`, which lies in `m` or behind it. -/
def Precedes (m n : Node ν) : Prop := m.start < n.start ∧ (n.stop < m.stop ∨ m.stop < n.start)

variable {number : Text → ν} {o : Nat} {t : Text} {p : Part ν}

/-- The node spans a part `u` of the text. -/
def Spans (number : Text → ν) (o : Nat) (t : Text) (n : Node ν) : Prop :=
  ∃ a u b, t = a ++ u ++ b ∧ n.start = o + a.length ∧ n.stop = o + a.length + u.length ∧
    Spells number n.start u (.value n)

namespace Spans

variable {n : Node ν} {a b : Text}

/-- Of a longer text. -/
theorem within (h : Spans number (o + a.length) t n) (b : Text) :
    Spans number o (a ++ t ++ b) n := by
  obtain ⟨a', u, b', rfl, hstart, hstop, hspells⟩ := h
  refine ⟨a ++ a', u, b' ++ b, by simp only [List.append_assoc], ?_, ?_, hspells⟩
  · rw [hstart, List.length_append, Nat.add_assoc]
  · rw [hstop, List.length_append, Nat.add_assoc o]

/-- Where the text lies in a longer one, up to what is the same text and offset. -/
theorem lift (h : Spans number o t n) {o' : Nat} {t' : Text} (a b : Text) (hoffset : o = o' + a.length)
    (htext : t' = a ++ t ++ b) : Spans number o' t' n := by
  rw [hoffset] at h
  rw [htext]
  exact h.within b

theorem bounds (h : Spans number o t n) : o ≤ n.start ∧ n.start < n.stop ∧ n.stop ≤ o + t.length := by
  obtain ⟨a, u, b, rfl, hstart, hstop, hspells⟩ := h
  have := value_length hspells
  rw [List.length_append, List.length_append]
  omega

end Spans

/-- What the text of a part says of its nodes. -/
structure Laid (number : Text → ν) (o : Nat) (t : Text) (nodes : List (Node ν)) : Prop where
  spans : ∀ n ∈ nodes, Spans number o t n
  order : nodes.Pairwise Precedes

theorem laid_nil (o : Nat) (t : Text) : Laid number o t [] :=
  ⟨fun _ hn => absurd hn List.not_mem_nil, .nil⟩

theorem laid_singleton {n : Node ν} (h : Spells number o t (.value n)) (hstart : n.start = o)
    (hstop : n.stop = o + t.length) : Laid number o t [n] where
  spans m hm := by
    obtain rfl := List.mem_singleton.1 hm
    refine ⟨[], t, [], by simp, hstart, ?_, hstart ▸ h⟩
    rw [hstop]
    rfl
  order := List.pairwise_singleton _ _

/-- A node around others. -/
theorem Laid.around {n : Node ν} {nodes : List (Node ν)} {a b : Nat} (h : Laid number (o + 1) t nodes)
    (hspells : Spells number o (a :: t ++ [b]) (.value n)) (hstart : n.start = o)
    (hstop : n.stop = o + t.length + 2) : Laid number o (a :: t ++ [b]) (n :: nodes) where
  spans m hm := by
    rcases List.mem_cons.1 hm with rfl | hm
    · refine ⟨[], _, [], by simp, hstart, ?_, hstart ▸ hspells⟩
      rw [hstop]
      simp
      omega
    · exact (h.spans m hm).lift [a] [b] rfl (by simp)
  order := by
    refine List.pairwise_cons.2 ⟨fun m hm => ?_, h.order⟩
    have := (h.spans m hm).bounds
    exact ⟨by omega, .inl (by omega)⟩

/-- Nodes of a text and nodes of the text behind it. -/
theorem Laid.append {o' : Nat} {u t' : Text} {nodes nodes' : List (Node ν)}
    (h : Laid number o t nodes) (h' : Laid number o' u nodes') (a between b : Text)
    (hbetween : between ≠ []) {o₀ : Nat} (ho : o = o₀ + a.length)
    (ho' : o' = o + t.length + between.length) (htext : t' = a ++ t ++ between ++ u ++ b) :
    Laid number o₀ t' (nodes ++ nodes') where
  spans n hn := by
    rcases List.mem_append.1 hn with hn | hn
    · refine (h.spans n hn).lift a (between ++ u ++ b) ho ?_
      rw [htext]
      simp only [List.append_assoc]
    · refine (h'.spans n hn).lift (a ++ t ++ between) b ?_ htext
      rw [ho', ho]
      simp only [List.length_append]
      omega
  order := by
    refine List.pairwise_append.2 ⟨h.order, h'.order, fun m hm n hn => ?_⟩
    have hm := (h.spans m hm).bounds
    have hn := (h'.spans n hn).bounds
    have := List.length_pos_iff.2 hbetween
    exact ⟨by omega, .inr (by omega)⟩

theorem Laid.lift {nodes : List (Node ν)} (h : Laid number o t nodes) {o' : Nat} {t' : Text}
    (a b : Text) (hoffset : o = o' + a.length) (htext : t' = a ++ t ++ b) : Laid number o' t' nodes where
  spans n hn := (h.spans n hn).lift a b hoffset htext
  order := h.order

/-- The nodes of a tree are laid out over its text. -/
theorem Spells.laid (h : Spells number o t p) : Laid number o t p.nodes := by
  induction h with
  | null => exact laid_singleton .null rfl rfl
  | true => exact laid_singleton .true rfl rfl
  | false => exact laid_singleton .false rfl rfl
  | number htoken => exact laid_singleton (.number htoken) rfl rfl
  | string htoken => exact laid_singleton (.string htoken) rfl rfl
  | @emptyArray o w hw => exact (laid_nil (o + 1) w).around (.emptyArray hw) rfl rfl
  | array hspells ih => exact ih.around (.array hspells) rfl rfl
  | @emptyObject o w hw => exact (laid_nil (o + 1) w).around (.emptyObject hw) rfl rfl
  | object hspells hnodup ih => exact ih.around (.object hspells hnodup) rfl rfl
  | @item o node w₁ t w₂ _ _ _ ih =>
    show Laid number o _ (node.nodes ++ [])
    rw [List.append_nil]
    exact ih.lift w₁ w₂ rfl rfl
  | @items o node nodes w₁ t w₂ rest _ _ _ _ ih ihrest =>
    refine Laid.append ih ihrest w₁ (w₂ ++ [comma]) [] (by simp) rfl ?_ (by simp)
    simp only [List.length_append, List.length_singleton]
    omega
  | @property o node key w₁ k w₂ w₃ t w₄ _ hk _ _ _ _ ih =>
    show Laid number o _ ([.string _] ++ (node.nodes ++ []))
    rw [List.append_nil]
    refine Laid.append (laid_singleton (.string hk) rfl rfl) ih w₁ (w₂ ++ colon :: w₃) w₄ (by simp)
      rfl ?_ (by simp)
    simp only [List.length_append, List.length_cons]
    omega
  | @properties o node ps key w₁ k w₂ w₃ t w₄ rest _ hk _ _ _ _ _ ih ihrest =>
    show Laid number o _ ([.string _] ++ (node.nodes ++ propertyNodes ps))
    have hbehind : Laid number (o + (w₁ ++ k ++ w₂).length + 1 + w₃.length)
        (t ++ (w₄ ++ comma :: rest)) (node.nodes ++ propertyNodes ps) := by
      refine Laid.append ih ihrest [] (w₄ ++ [comma]) [] (by simp) rfl ?_ (by simp)
      simp only [List.length_append, List.length_singleton]
      omega
    refine Laid.append (laid_singleton (.string hk) rfl rfl) hbehind w₁ (w₂ ++ colon :: w₃) [] (by simp)
      rfl ?_ (by simp)
    simp only [List.length_append, List.length_cons]
    omega

/-! ## Sources -/

/-- `source.slice(start, end)`. -/
def slice (source : Text) (start stop : Nat) : Text := (source.drop start).take (stop - start)

theorem slice_append (a u b : Text) : slice (a ++ u ++ b) a.length (a.length + u.length) = u := by
  rw [slice, List.append_assoc, List.drop_left, Nat.add_sub_cancel_left, List.take_left]

/-- **Spans are exact.** Every node of the tree that is read spans the text of its own value, names of
properties included; in the order of their starts the nodes are nested or apart, no two of one start;
and nothing but whitespace is outside the span of the whole. -/
theorem parseJsonSource_spans {source : Text} {root : Node ν}
    (h : parseJsonSource number source = .ok root) :
    (∀ n ∈ root.nodes, n.start < n.stop ∧ n.stop ≤ source.length ∧
      Derives number (.value n.value) (slice source n.start n.stop)) ∧
    root.nodes.Pairwise Precedes ∧
    Whitespace (slice source 0 root.start) ∧ Whitespace (slice source root.stop source.length) := by
  obtain ⟨w₁, t, w₂, rfl, hw₁, hspells, hw₂⟩ := parseJsonSource_spells.1 h
  have hlaid := hspells.laid
  have hall : Laid number 0 (w₁ ++ t ++ w₂) root.nodes := hlaid.lift w₁ w₂ (Nat.zero_add _).symm rfl
  have hroot : root.start = w₁.length ∧ root.stop = w₁.length + t.length := by
    cases hspells <;> exact ⟨rfl, by simp [Node.stop]; try omega⟩
  refine ⟨fun n hn => ?_, hlaid.order, ?_, ?_⟩
  · have hbounds := (hall.spans n hn).bounds
    obtain ⟨a, u, b, htext, hstart, hstop, hnode⟩ := hall.spans n hn
    refine ⟨hbounds.2.1, by omega, ?_⟩
    rw [htext, hstop, hstart, Nat.zero_add, slice_append]
    exact hnode.derives
  · have hslice := slice_append [] w₁ (t ++ w₂)
    rw [hroot.1, List.append_assoc]
    simp only [List.nil_append, List.length_nil, Nat.zero_add] at hslice
    rw [hslice]
    exact hw₁
  · have hslice := slice_append (w₁ ++ t) w₂ []
    rw [List.append_nil] at hslice
    have hlength : (w₁ ++ t ++ w₂).length = (w₁ ++ t).length + w₂.length := List.length_append
    rw [hroot.2, hlength, ← List.length_append, hslice]
    exact hw₂

/-- `["a", 1]`. -/
theorem parseJsonSource_spans_pair :
    let root : Node Nat := .array [.string ⟨[0x61], 1, 4⟩, .number 1 6 7] 0 8
    ∀ n ∈ root.nodes, n.start < n.stop :=
  fun n hn =>
    have h : parseJsonSource (fun t => t.foldl (fun n c => 10 * n + (c - 0x30)) 0)
        [openBracket, quote, 0x61, quote, comma, 0x20, 0x31, closeBracket] =
        .ok (.array [.string ⟨[0x61], 1, 4⟩, .number 1 6 7] 0 8) := rfl
    ((parseJsonSource_spans h).1 n hn).1

end Scripts

import Mathlib.Data.List.Pairwise
import GameWIP.Scripts.Proof.JsonSpans

/-!
# Replacing strings of a source

`node.edited f` is the value of a tree in which the string that starts at an offset `i` is replaced by
`f i`, if there is one. A text with one string token replaced is spelled by a tree of such a value, in
which the strings in front of the token are where they were (`Spells.replace`).
-/

namespace Scripts

open Lib (Json)
open Lib.Json

variable {ν : Type*}

mutual

/-- The strings of a tree, without the names of properties. -/
def Node.strings : Node ν → List StringNode
  | .string node => [node]
  | .number _ _ _ | .boolean _ _ _ | .null _ _ => []
  | .object properties _ _ => propertyStrings properties
  | .array items _ _ => itemStrings items

def itemStrings : List (Node ν) → List StringNode
  | [] => []
  | node :: items => node.strings ++ itemStrings items

def propertyStrings : List (StringNode × Node ν) → List StringNode
  | [] => []
  | (_, node) :: properties => node.strings ++ propertyStrings properties

end

/-- New strings, by the offsets of those they replace. -/
abbrev Edits := Nat → Option Text

mutual

/-- The value of a tree with some strings replaced. -/
def Node.edited (f : Edits) : Node ν → Json ν
  | .string node => .string ((f node.start).getD node.value)
  | .number value _ _ => .number value
  | .boolean value _ _ => .boolean value
  | .null _ _ => .null
  | .object properties _ _ => .object (memberEdits f properties)
  | .array items _ _ => .array (itemEdits f items)

def itemEdits (f : Edits) : List (Node ν) → List (Json ν)
  | [] => []
  | node :: items => node.edited f :: itemEdits f items

def memberEdits (f : Edits) : List (StringNode × Node ν) → List (Text × Json ν)
  | [] => []
  | (key, node) :: properties => (key.value, node.edited f) :: memberEdits f properties

end

def Part.strings : Part ν → List StringNode
  | .value node => node.strings
  | .items nodes => itemStrings nodes
  | .properties ps => propertyStrings ps

def Part.edited (f : Edits) : Part ν → Phrase ν
  | .value node => .value (node.edited f)
  | .items nodes => .elements (itemEdits f nodes)
  | .properties ps => .members (memberEdits f ps)

/-- One edit more. -/
def Edits.with (f : Edits) (i : Nat) (v : Text) : Edits := fun j => if j = i then some v else f j

theorem Edits.with_of_ne {f : Edits} {i j : Nat} {v : Text} (h : j ≠ i) : f.with i v j = f j := if_neg h

@[simp] theorem Edits.with_self (f : Edits) (i : Nat) (v : Text) : f.with i v i = some v := if_pos rfl

theorem keys_memberEdits (f : Edits) (properties : List (StringNode × Node ν)) :
    (memberEdits f properties).map Prod.fst = keys properties := by
  induction properties with
  | nil => rfl
  | cons p properties ih =>
    obtain ⟨key, node⟩ := p
    rw [memberEdits, List.map_cons, ih]
    rfl

variable {number : Text → ν} {o : Nat} {t : Text} {p : Part ν} {f g : Edits} {s : StringNode} {v : Text}

/-- Edits that agree on the strings of a tree. -/
theorem Spells.edited_congr (h : Spells number o t p) (heq : ∀ s ∈ p.strings, f s.start = g s.start) :
    p.edited f = p.edited g := by
  induction h with
  | null => rfl
  | true => rfl
  | false => rfl
  | number => rfl
  | @string o t value _ =>
    show Phrase.value (.string ((f o).getD value)) = .value (.string ((g o).getD value))
    rw [heq ⟨value, o, o + t.length⟩ List.mem_cons_self]
  | emptyArray => rfl
  | array _ ih => exact congrArg (fun ph => Phrase.value (.array ph)) (Phrase.elements.inj (ih heq))
  | emptyObject => rfl
  | object _ _ ih => exact congrArg (fun ph => Phrase.value (.object ph)) (Phrase.members.inj (ih heq))
  | @item o node w₁ t w₂ _ _ _ ih =>
    have hnode := Phrase.value.inj (ih fun s hs => heq s (List.mem_append_left _ hs))
    exact congrArg (fun v => Phrase.elements [v]) hnode
  | @items o node nodes w₁ t w₂ rest _ _ _ _ ih ihrest =>
    have hnode := Phrase.value.inj (ih fun s hs => heq s (List.mem_append_left _ hs))
    have hrest := Phrase.elements.inj (ihrest fun s hs => heq s (List.mem_append_right _ hs))
    exact congrArg₂ (fun v vs => Phrase.elements (v :: vs)) hnode hrest
  | @property o node key w₁ k w₂ w₃ t w₄ _ _ _ _ _ _ ih =>
    have hnode := Phrase.value.inj (ih fun s hs => heq s (List.mem_append_left _ hs))
    exact congrArg (fun v => Phrase.members [(key, v)]) hnode
  | @properties o node ps key w₁ k w₂ w₃ t w₄ rest _ _ _ _ _ _ _ ih ihrest =>
    have hnode := Phrase.value.inj (ih fun s hs => heq s (List.mem_append_left _ hs))
    have hrest := Phrase.members.inj (ihrest fun s hs => heq s (List.mem_append_right _ hs))
    exact congrArg₂ (fun v vs => Phrase.members ((key, v) :: vs)) hnode hrest

theorem Spells.edited_none (h : Spells number o t p) : p.edited (fun _ => none) = p.phrase := by
  induction h with
  | null => rfl
  | true => rfl
  | false => rfl
  | number => rfl
  | string => rfl
  | emptyArray => rfl
  | array _ ih => exact congrArg (fun ph => Phrase.value (.array ph)) (Phrase.elements.inj ih)
  | emptyObject => rfl
  | object _ _ ih => exact congrArg (fun ph => Phrase.value (.object ph)) (Phrase.members.inj ih)
  | item _ _ _ ih => exact congrArg (fun v => Phrase.elements [v]) (Phrase.value.inj ih)
  | items _ _ _ _ ih ihrest =>
    exact congrArg₂ (fun v vs => Phrase.elements (v :: vs)) (Phrase.value.inj ih)
      (Phrase.elements.inj ihrest)
  | @property _ _ key _ _ _ _ _ _ _ _ _ _ _ _ ih =>
    exact congrArg (fun v => Phrase.members [(key, v)]) (Phrase.value.inj ih)
  | @properties _ _ _ key _ _ _ _ _ _ _ _ _ _ _ _ _ _ ih ihrest =>
    exact congrArg₂ (fun v vs => Phrase.members ((key, v) :: vs)) (Phrase.value.inj ih)
      (Phrase.members.inj ihrest)

/-- The strings are nodes. -/
theorem Spells.strings_nodes (h : Spells number o t p) (hs : s ∈ p.strings) : .string s ∈ p.nodes := by
  induction h with
  | null => cases hs
  | true => cases hs
  | false => cases hs
  | number => cases hs
  | string =>
    obtain rfl := List.mem_singleton.1 hs
    exact List.mem_cons_self
  | emptyArray => cases hs
  | array _ ih => exact List.mem_cons_of_mem _ (ih hs)
  | emptyObject => cases hs
  | object _ _ ih => exact List.mem_cons_of_mem _ (ih hs)
  | item _ _ _ ih =>
    rcases List.mem_append.1 hs with hs | hs
    · exact List.mem_append_left _ (ih hs)
    · cases hs
  | items _ _ _ _ ih ihrest =>
    rcases List.mem_append.1 hs with hs | hs
    · exact List.mem_append_left _ (ih hs)
    · exact List.mem_append_right _ (ihrest hs)
  | property _ _ _ _ _ _ ih =>
    rcases List.mem_append.1 hs with hs | hs
    · exact List.mem_cons_of_mem _ (List.mem_append_left _ (ih hs))
    · cases hs
  | properties _ _ _ _ _ _ _ ih ihrest =>
    refine List.mem_cons_of_mem _ ?_
    rcases List.mem_append.1 hs with hs | hs
    · exact List.mem_append_left _ (ih hs)
    · exact List.mem_append_right _ (ihrest hs)

theorem Spells.strings_bounds (h : Spells number o t p) (hs : s ∈ p.strings) :
    o ≤ s.start ∧ s.start < s.stop ∧ s.stop ≤ o + t.length :=
  (h.laid.spans _ (h.strings_nodes hs)).bounds

/-- The strings stand one behind the other. -/
theorem Spells.strings_order (h : Spells number o t p) :
    p.strings.Pairwise fun r s => r.stop ≤ s.start := by
  induction h with
  | null => exact .nil
  | true => exact .nil
  | false => exact .nil
  | number => exact .nil
  | string => exact List.pairwise_singleton _ _
  | emptyArray => exact .nil
  | array _ ih => exact ih
  | emptyObject => exact .nil
  | object _ _ ih => exact ih
  | item _ _ _ ih => exact List.pairwise_append.2 ⟨ih, .nil, fun _ _ _ hs => by cases hs⟩
  | @items o node nodes w₁ t w₂ rest _ hnode _ hrest ih ihrest =>
    refine List.pairwise_append.2 ⟨ih, ihrest, fun r hr s hs => ?_⟩
    have hr := hnode.strings_bounds hr
    have hs := hrest.strings_bounds hs
    simp only [List.length_append] at hs
    omega
  | property _ _ _ _ _ _ ih => exact List.pairwise_append.2 ⟨ih, .nil, fun _ _ _ hs => by cases hs⟩
  | @properties o node ps key w₁ k w₂ w₃ t w₄ rest _ _ _ _ hnode _ hrest ih ihrest =>
    refine List.pairwise_append.2 ⟨ih, ihrest, fun r hr s hs => ?_⟩
    have hr := hnode.strings_bounds hr
    have hs := hrest.strings_bounds hs
    simp only [List.length_append] at hs hr
    omega

/-- Edits that are all in front of a tree. -/
theorem Spells.edited_of_lt (h : Spells number o t p) (hf : ∀ i, o ≤ i → f i = none) :
    p.edited f = p.phrase := by
  rw [h.edited_congr (g := fun _ => none) fun s hs => hf _ (h.strings_bounds hs).1, h.edited_none]

/-- The same text at another offset. -/
theorem Spells.move (h : Spells number o t p) (o' : Nat) :
    ∃ p' : Part ν, p'.phrase = p.phrase ∧ Spells number o' t p' :=
  spells_of_derives h.derives h.distinct o'

/-! ## One string replaced -/

theorem Part.of_edited_value {w : Json ν} (h : p.edited f = .value w) : ∃ node, p = .value node := by
  cases p with
  | value node => exact ⟨node, rfl⟩
  | items => cases h
  | properties => cases h

theorem Part.of_edited_elements {vs : List (Json ν)} (h : p.edited f = .elements vs) :
    ∃ nodes, p = .items nodes := by
  cases p with
  | value => cases h
  | items nodes => exact ⟨nodes, rfl⟩
  | properties => cases h

theorem Part.of_edited_members {ms : List (Text × Json ν)} (h : p.edited f = .members ms) :
    ∃ ps, p = .properties ps := by
  cases p with
  | value => cases h
  | items => cases h
  | properties ps => exact ⟨ps, rfl⟩

/-- The edits are all in front of the string. -/
def Before (f : Edits) (s : StringNode) : Prop := ∀ i, s.start ≤ i → f i = none

/-- A part in front of the string. -/
theorem Spells.edited_before (h : Spells number o t p) (hle : o + t.length ≤ s.start) (f : Edits)
    (v : Text) : p.edited f = p.edited (f.with s.start v) := by
  refine h.edited_congr fun r hr => (Edits.with_of_ne ?_).symm
  have := h.strings_bounds hr
  omega

/-- A part behind the string, moved. -/
theorem Spells.edited_behind (h : Spells number o t p) (hlt : s.start < o) (o' : Nat)
    (hle : s.start ≤ o') (v : Text) : ∃ p' : Part ν, p'.phrase = p.phrase ∧ Spells number o' t p' ∧
      ∀ f, Before f s → p'.edited f = p.edited (f.with s.start v) := by
  obtain ⟨p', hphrase, hspells⟩ := h.move o'
  refine ⟨p', hphrase, hspells, fun f hf => ?_⟩
  rw [hspells.edited_of_lt fun i hi => hf i (by omega), hphrase, h.edited_of_lt fun i hi => ?_]
  rw [Edits.with_of_ne (by omega), hf i (by omega)]

/-- `p'` is `p` with the string `s` replaced by `v`. -/
structure Replaced (number : Text → ν) (o : Nat) (p : Part ν) (s : StringNode) (v : Text) (t' : Text)
    (p' : Part ν) : Prop where
  spells : Spells number o t' p'
  before : ∀ r ∈ p.strings, r.start < s.start → r ∈ p'.strings
  edited : ∀ f, Before f s → p'.edited f = p.edited (f.with s.start v)

/-- The part of a text that is the token of a string, and the tree with another one there. -/
structure Slot (number : Text → ν) (o : Nat) (t : Text) (p : Part ν) (s : StringNode) (v : Text)
    (a u b : Text) (p' : Part ν) : Prop where
  text : t = a ++ u ++ b
  start : s.start = o + a.length
  stop : s.stop = o + a.length + u.length
  token : StringToken u s.value
  replaced : Replaced number o p s v (a ++ stringify v ++ b) p'

theorem before_none (s : StringNode) : Before (fun _ => none) s := fun _ _ => rfl

/-- The part stands in `q` behind the text `pre` and in front of `post`. -/
theorem Slot.lift {o' : Nat} {q q' p' : Part ν} {a u b T T' : Text} (pre post : Text)
    (h : Slot number o' t p s v a u b p') (ho : o' = o + pre.length) (htext : T = pre ++ t ++ post)
    (htext' : T' = pre ++ (a ++ stringify v ++ b) ++ post) (hspells : Spells number o T' q')
    (hbefore : ∀ r ∈ q.strings, r.start < s.start → r ∈ q'.strings)
    (hedited : ∀ f, Before f s → q'.edited f = q.edited (f.with s.start v)) :
    ∃ a u b p'', Slot number o T q s v a u b p'' := by
  have hlength : o' + a.length = o + (pre ++ a).length := by
    rw [ho, List.length_append, Nat.add_assoc]
  refine ⟨pre ++ a, u, b ++ post, q', ?_, h.start.trans hlength, hlength ▸ h.stop, h.token, ?_, hbefore,
    hedited⟩
  · rw [htext, h.text]
    simp only [List.append_assoc]
  · rw [htext'] at hspells
    simpa only [List.append_assoc] using hspells

theorem Slot.of_value {node : Node ν} {a u b : Text} {p' : Part ν}
    (h : Slot number o t (.value node) s v a u b p') : ∃ node', p' = .value node' :=
  Part.of_edited_value (h.replaced.edited _ (before_none s))

theorem Slot.of_items {nodes : List (Node ν)} {a u b : Text} {p' : Part ν}
    (h : Slot number o t (.items nodes) s v a u b p') : ∃ nodes', p' = .items nodes' :=
  Part.of_edited_elements (h.replaced.edited _ (before_none s))

theorem Slot.of_properties {ps : List (StringNode × Node ν)} {a u b : Text} {p' : Part ν}
    (h : Slot number o t (.properties ps) s v a u b p') : ∃ ps', p' = .properties ps' :=
  Part.of_edited_members (h.replaced.edited _ (before_none s))

section

variable {node : Node ν} {nodes : List (Node ν)} {ps : List (StringNode × Node ν)}
  {key w₁ k w₂ w₃ w₄ rest a u b : Text} {p' : Part ν}

/-- In the first of some items. -/
theorem slot_item (hw₁ : Whitespace w₁) (hw₂ : Whitespace w₂)
    (h : Slot number (o + w₁.length) t (.value node) s v a u b p') :
    ∃ a u b p'', Slot number o (w₁ ++ t ++ w₂) (.items [node]) s v a u b p'' := by
  obtain ⟨node', rfl⟩ := h.of_value
  refine h.lift w₁ w₂ rfl rfl rfl (.item hw₁ h.replaced.spells hw₂) (fun r hr hless => ?_)
    fun f hf => ?_
  · rcases List.mem_append.1 hr with hr | hr
    · exact List.mem_append_left _ (h.replaced.before r hr hless)
    · cases hr
  · exact congrArg (fun v => Phrase.elements [v]) (Phrase.value.inj (h.replaced.edited f hf))

theorem slot_items (hw₁ : Whitespace w₁) (hw₂ : Whitespace w₂)
    (hrest : Spells number (o + (w₁ ++ t ++ w₂).length + 1) rest (.items nodes))
    (h : Slot number (o + w₁.length) t (.value node) s v a u b p') :
    ∃ a u b p'', Slot number o (w₁ ++ t ++ w₂ ++ comma :: rest) (.items (node :: nodes)) s v a u b p'' := by
  obtain ⟨node', rfl⟩ := h.of_value
  have hstart := h.start
  have hlt : s.start < o + (w₁ ++ t ++ w₂).length + 1 := by
    rw [hstart, h.text]
    simp only [List.length_append]
    omega
  obtain ⟨q, hq, hmoved, hqedited⟩ := hrest.edited_behind hlt
    (o + (w₁ ++ (a ++ stringify v ++ b) ++ w₂).length + 1) (by
      rw [hstart]
      simp only [List.length_append]
      omega) v
  obtain ⟨nodes', rfl, -⟩ := Part.of_elements hq
  refine h.lift w₁ (w₂ ++ comma :: rest) rfl (by simp only [List.append_assoc]) ?_
    (.items hw₁ h.replaced.spells hw₂ hmoved) (fun r hr hless => ?_) fun f hf => ?_
  · simp only [List.append_assoc]
  · rcases List.mem_append.1 hr with hr | hr
    · exact List.mem_append_left _ (h.replaced.before r hr hless)
    · have := hrest.strings_bounds hr
      omega
  · exact congrArg₂ (fun v vs => Phrase.elements (v :: vs))
      (Phrase.value.inj (h.replaced.edited f hf)) (Phrase.elements.inj (hqedited f hf))

/-- In one of the items behind. -/
theorem slot_laterItems (hw₁ : Whitespace w₁)
    (hnode : Spells number (o + w₁.length) t (.value node)) (hw₂ : Whitespace w₂)
    (h : Slot number (o + (w₁ ++ t ++ w₂).length + 1) rest (.items nodes) s v a u b p') :
    ∃ a u b p'', Slot number o (w₁ ++ t ++ w₂ ++ comma :: rest) (.items (node :: nodes)) s v a u b p'' := by
  obtain ⟨nodes', rfl⟩ := h.of_items
  have hle : o + w₁.length + t.length ≤ s.start := by
    rw [h.start]
    simp only [List.length_append]
    omega
  refine h.lift (w₁ ++ t ++ w₂ ++ [comma]) [] (by simp [Nat.add_assoc]) (by simp) (by simp)
    (.items hw₁ hnode hw₂ h.replaced.spells) (fun r hr hless => ?_) fun f hf => ?_
  · exact List.mem_append.2 ((List.mem_append.1 hr).imp_right fun hr => h.replaced.before r hr hless)
  · exact congrArg₂ (fun v vs => Phrase.elements (v :: vs))
      (Phrase.value.inj (hnode.edited_before hle f v))
      (Phrase.elements.inj (h.replaced.edited f hf))

/-- In the value of the first of some properties. -/
theorem slot_property (hw₁ : Whitespace w₁) (hk : StringToken k key) (hw₂ : Whitespace w₂)
    (hw₃ : Whitespace w₃) (hw₄ : Whitespace w₄)
    (h : Slot number (o + (w₁ ++ k ++ w₂).length + 1 + w₃.length) t (.value node) s v a u b p') :
    ∃ a u b p'', Slot number o (w₁ ++ k ++ w₂ ++ colon :: (w₃ ++ t ++ w₄))
      (.properties [(⟨key, o + w₁.length, o + w₁.length + k.length⟩, node)]) s v a u b p'' := by
  obtain ⟨node', rfl⟩ := h.of_value
  refine h.lift (w₁ ++ k ++ w₂ ++ colon :: w₃) w₄ (by simp; omega) (by simp) (by simp)
    (.property hw₁ hk hw₂ hw₃ h.replaced.spells hw₄) (fun r hr hless => ?_) fun f hf => ?_
  · rcases List.mem_append.1 hr with hr | hr
    · exact List.mem_append_left _ (h.replaced.before r hr hless)
    · cases hr
  · exact congrArg (fun v => Phrase.members [(key, v)]) (Phrase.value.inj (h.replaced.edited f hf))

theorem slot_properties (hw₁ : Whitespace w₁) (hk : StringToken k key) (hw₂ : Whitespace w₂)
    (hw₃ : Whitespace w₃) (hw₄ : Whitespace w₄)
    (hrest : Spells number (o + (w₁ ++ k ++ w₂).length + 1 + (w₃ ++ t ++ w₄).length + 1) rest
      (.properties ps))
    (h : Slot number (o + (w₁ ++ k ++ w₂).length + 1 + w₃.length) t (.value node) s v a u b p') :
    ∃ a u b p'', Slot number o (w₁ ++ k ++ w₂ ++ colon :: (w₃ ++ t ++ w₄ ++ comma :: rest))
      (.properties ((⟨key, o + w₁.length, o + w₁.length + k.length⟩, node) :: ps)) s v a u b p'' := by
  obtain ⟨node', rfl⟩ := h.of_value
  have hstart := h.start
  have hlt : s.start < o + (w₁ ++ k ++ w₂).length + 1 + (w₃ ++ t ++ w₄).length + 1 := by
    rw [hstart, h.text]
    simp only [List.length_append]
    omega
  obtain ⟨q, hq, hmoved, hqedited⟩ := hrest.edited_behind hlt
    (o + (w₁ ++ k ++ w₂).length + 1 + (w₃ ++ (a ++ stringify v ++ b) ++ w₄).length + 1) (by
      rw [hstart]
      simp only [List.length_append]
      omega) v
  obtain ⟨ps', rfl, -⟩ := Part.of_members hq
  refine h.lift (w₁ ++ k ++ w₂ ++ colon :: w₃) (w₄ ++ comma :: rest) (by simp; omega) (by simp)
    (by simp) (.properties hw₁ hk hw₂ hw₃ h.replaced.spells hw₄ hmoved) (fun r hr hless => ?_)
    fun f hf => ?_
  · rcases List.mem_append.1 hr with hr | hr
    · exact List.mem_append_left _ (h.replaced.before r hr hless)
    · have := hrest.strings_bounds hr
      omega
  · exact congrArg₂ (fun v vs => Phrase.members ((key, v) :: vs))
      (Phrase.value.inj (h.replaced.edited f hf)) (Phrase.members.inj (hqedited f hf))

/-- In one of the properties behind. -/
theorem slot_laterProperties (hw₁ : Whitespace w₁) (hk : StringToken k key) (hw₂ : Whitespace w₂)
    (hw₃ : Whitespace w₃)
    (hnode : Spells number (o + (w₁ ++ k ++ w₂).length + 1 + w₃.length) t (.value node))
    (hw₄ : Whitespace w₄)
    (h : Slot number (o + (w₁ ++ k ++ w₂).length + 1 + (w₃ ++ t ++ w₄).length + 1) rest
      (.properties ps) s v a u b p') :
    ∃ a u b p'', Slot number o (w₁ ++ k ++ w₂ ++ colon :: (w₃ ++ t ++ w₄ ++ comma :: rest))
      (.properties ((⟨key, o + w₁.length, o + w₁.length + k.length⟩, node) :: ps)) s v a u b p'' := by
  obtain ⟨ps', rfl⟩ := h.of_properties
  have hle : o + (w₁ ++ k ++ w₂).length + 1 + w₃.length + t.length ≤ s.start := by
    rw [h.start]
    simp only [List.length_append]
    omega
  refine h.lift (w₁ ++ k ++ w₂ ++ colon :: (w₃ ++ t ++ w₄ ++ [comma])) [] (by simp; omega) (by simp)
    (by simp) (.properties hw₁ hk hw₂ hw₃ hnode hw₄ h.replaced.spells) (fun r hr hless => ?_)
    fun f hf => ?_
  · exact List.mem_append.2 ((List.mem_append.1 hr).imp_right fun hr => h.replaced.before r hr hless)
  · exact congrArg₂ (fun v vs => Phrase.members ((key, v) :: vs))
      (Phrase.value.inj (hnode.edited_before hle f v))
      (Phrase.members.inj (h.replaced.edited f hf))

/-- In an array. -/
theorem slot_array (h : Slot number (o + 1) t (.items nodes) s v a u b p') :
    ∃ a u b p'', Slot number o (openBracket :: t ++ [closeBracket])
      (.value (.array nodes o (o + t.length + 2))) s v a u b p'' := by
  obtain ⟨nodes', rfl⟩ := h.of_items
  exact h.lift [openBracket] [closeBracket] rfl rfl rfl (.array h.replaced.spells) h.replaced.before
    fun f hf => congrArg (fun vs => Phrase.value (.array vs))
      (Phrase.elements.inj (h.replaced.edited f hf))

/-- In an object, whose names stay. -/
theorem slot_object (hnodup : (keys ps).Nodup) (h : Slot number (o + 1) t (.properties ps) s v a u b p') :
    ∃ a u b p'', Slot number o (openBrace :: t ++ [closeBrace])
      (.value (.object ps o (o + t.length + 2))) s v a u b p'' := by
  obtain ⟨ps', rfl⟩ := h.of_properties
  have hkeys : keys ps' = keys ps := by
    have hmembers := Phrase.members.inj (h.replaced.edited _ (before_none s))
    rw [← keys_memberEdits (fun _ => none), hmembers, keys_memberEdits]
  exact h.lift [openBrace] [closeBrace] rfl rfl rfl (.object h.replaced.spells (hkeys ▸ hnodup))
    h.replaced.before fun f hf => congrArg (fun ms => Phrase.value (.object ms))
      (Phrase.members.inj (h.replaced.edited f hf))

end

/-- **Replacing a string.** The token of a string of the tree, replaced in the text. -/
theorem Spells.replace (h : Spells number o t p) (hs : s ∈ p.strings) (v : Text) :
    ∃ a u b p', Slot number o t p s v a u b p' := by
  induction h with
  | null => cases hs
  | true => cases hs
  | false => cases hs
  | number => cases hs
  | @string o t value htoken =>
    obtain rfl := List.mem_singleton.1 hs
    refine ⟨[], t, [], .value (.string ⟨v, o, o + (stringify v).length⟩), by simp, rfl, rfl, htoken, ?_,
      fun r hr hlt => ?_, fun f hf => ?_⟩
    · have hnew : Spells number o (stringify v) (.value (.string ⟨v, o, o + (stringify v).length⟩)) :=
        .string (stringify_token v)
      simpa only [List.nil_append, List.append_nil] using hnew
    · obtain rfl := List.mem_singleton.1 hr
      exact absurd hlt (Nat.lt_irrefl _)
    · show Phrase.value (.string ((f o).getD v)) =
        .value (.string (((f.with o v) o).getD value))
      rw [hf o (Nat.le_refl o), Edits.with_self]
      rfl
  | emptyArray => cases hs
  | array _ ih =>
    obtain ⟨a, u, b, p', hslot⟩ := ih hs
    exact slot_array hslot
  | emptyObject => cases hs
  | object _ hnodup ih =>
    obtain ⟨a, u, b, p', hslot⟩ := ih hs
    exact slot_object hnodup hslot
  | item hw₁ _ hw₂ ih =>
    rcases List.mem_append.1 hs with hs | hs
    · obtain ⟨a, u, b, p', hslot⟩ := ih hs
      exact slot_item hw₁ hw₂ hslot
    · cases hs
  | items hw₁ hnode hw₂ hrest ih ihrest =>
    rcases List.mem_append.1 hs with hs | hs
    · obtain ⟨a, u, b, p', hslot⟩ := ih hs
      exact slot_items hw₁ hw₂ hrest hslot
    · obtain ⟨a, u, b, p', hslot⟩ := ihrest hs
      exact slot_laterItems hw₁ hnode hw₂ hslot
  | property hw₁ hk hw₂ hw₃ _ hw₄ ih =>
    rcases List.mem_append.1 hs with hs | hs
    · obtain ⟨a, u, b, p', hslot⟩ := ih hs
      exact slot_property hw₁ hk hw₂ hw₃ hw₄ hslot
    · cases hs
  | properties hw₁ hk hw₂ hw₃ hnode hw₄ hrest ih ihrest =>
    rcases List.mem_append.1 hs with hs | hs
    · obtain ⟨a, u, b, p', hslot⟩ := ih hs
      exact slot_properties hw₁ hk hw₂ hw₃ hw₄ hrest hslot
    · obtain ⟨a, u, b, p', hslot⟩ := ihrest hs
      exact slot_laterProperties hw₁ hk hw₂ hw₃ hnode hw₄ hslot

/-! ## Sources -/

/-- The same string, or one behind the other. -/
def Apart (r s : StringNode) : Prop := r = s ∨ r.stop ≤ s.start ∨ s.stop ≤ r.start

theorem Apart.symm {r s : StringNode} (h : Apart r s) : Apart s r :=
  h.elim (fun heq => .inl heq.symm) fun hor => .inr hor.symm

theorem strings_apart {source : Text} {root : Node ν} (h : parseJsonSource number source = .ok root)
    {r : StringNode} (hr : r ∈ root.strings) (hs : s ∈ root.strings) : Apart r s := by
  obtain ⟨w₁, t, w₂, -, -, hspells, -⟩ := parseJsonSource_spells.1 h
  have hsymm : Std.Symm Apart := ⟨fun _ _ hrs => hrs.symm⟩
  exact List.Pairwise.forall_of_forall (R := Apart) (fun r _ => .inl rfl)
    (hspells.strings_order.imp fun hle => .inr (.inl hle)) hr hs

theorem strings_lt {source : Text} {root : Node ν} (h : parseJsonSource number source = .ok root)
    (hs : s ∈ root.strings) : s.start < s.stop ∧ s.stop ≤ source.length := by
  obtain ⟨w₁, t, w₂, rfl, -, hspells, -⟩ := parseJsonSource_spells.1 h
  have hbounds := hspells.strings_bounds hs
  simp only [List.length_append]
  omega

/-- Replacing a string of a source. -/
theorem parseJsonSource_replace {source : Text} {root : Node ν}
    (h : parseJsonSource number source = .ok root) (hs : s ∈ root.strings) (v : Text) :
    ∃ a u b root', source = a ++ u ++ b ∧ s.start = a.length ∧ s.stop = a.length + u.length ∧
      parseJsonSource number (a ++ stringify v ++ b) = .ok root' ∧
      (∀ r ∈ root.strings, r.start < s.start → r ∈ root'.strings) ∧
      ∀ f, Before f s → root'.edited f = root.edited (f.with s.start v) := by
  obtain ⟨w₁, t, w₂, rfl, hw₁, hspells, hw₂⟩ := parseJsonSource_spells.1 h
  obtain ⟨a, u, b, p', htext, hstart, hstop, -, hnew, hbefore, hedited⟩ := hspells.replace hs v
  obtain ⟨root', rfl⟩ := Part.of_edited_value (hedited _ (before_none s))
  refine ⟨w₁ ++ a, u, b ++ w₂, root', ?_, ?_, ?_, ?_, hbefore,
    fun f hf => Phrase.value.inj (hedited f hf)⟩
  · rw [htext]
    simp only [List.append_assoc]
  · rw [hstart, List.length_append]
  · rw [hstop, List.length_append]
  · exact parseJsonSource_spells.2 ⟨w₁, _, w₂, by simp only [List.append_assoc], hw₁, hnew, hw₂⟩

end Scripts

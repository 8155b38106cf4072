import Mathlib.Algebra.Ring.Nat
import GameWIP.Scripts.JsonSource

/-!
# Trees over a source

`Spells number o t (.value node)`: the text `t`, at the offset `o` of a source, is spelled as the
grammar says, and `node` is its tree with the offsets of every token. It is the grammar
(`Spells.derives`, `spells_of_derives`) of the texts without repeated names.
-/

namespace Scripts

open Lib (Json)
open Lib.Json

variable {ν : Type*}

mutual

/-- The value of a tree. -/
def Node.value : Node ν → Json ν
  | .string node => .string node.value
  | .number value _ _ => .number value
  | .boolean value _ _ => .boolean value
  | .null _ _ => .null
  | .object properties _ _ => .object (memberValues properties)
  | .array items _ _ => .array (itemValues items)

def itemValues : List (Node ν) → List (Json ν)
  | [] => []
  | node :: items => node.value :: itemValues items

def memberValues : List (StringNode × Node ν) → List (Text × Json ν)
  | [] => []
  | (key, node) :: properties => (key.value, node.value) :: memberValues properties

end

theorem memberValues_eq (properties : List (StringNode × Node ν)) :
    memberValues properties = properties.map fun p => (p.1.value, p.2.value) := by
  induction properties with
  | nil => rfl
  | cons p properties ih =>
    obtain ⟨key, node⟩ := p
    rw [memberValues, ih, List.map_cons]

def keys (properties : List (StringNode × Node ν)) : List Text := properties.map fun p => p.1.value

theorem keys_memberValues (properties : List (StringNode × Node ν)) :
    (memberValues properties).map Prod.fst = keys properties := by
  rw [memberValues_eq, List.map_map]
  rfl

/-- A part of a tree. -/
inductive Part (ν : Type*) where
  | value (node : Node ν)
  | items (items : List (Node ν))
  | properties (properties : List (StringNode × Node ν))

/-- What the part means. -/
def Part.phrase : Part ν → Phrase ν
  | .value node => .value node.value
  | .items nodes => .elements (itemValues nodes)
  | .properties ps => .members (memberValues ps)

/-- The grammar with the offsets of every token. -/
inductive Spells (number : Text → ν) : Nat → Text → Part ν → Prop
  | null {o : Nat} : Spells number o nullToken (.value (.null o (o + nullToken.length)))
  | true {o : Nat} : Spells number o trueToken (.value (.boolean true o (o + trueToken.length)))
  | false {o : Nat} : Spells number o falseToken (.value (.boolean false o (o + falseToken.length)))
  | number {o : Nat} {t : Text} : NumberToken t →
      Spells number o t (.value (.number (number t) o (o + t.length)))
  | string {o : Nat} {t value : Text} : StringToken t value →
      Spells number o t (.value (.string ⟨value, o, o + t.length⟩))
  | emptyArray {o : Nat} {w : Text} : Whitespace w →
      Spells number o (openBracket :: w ++ [closeBracket]) (.value (.array [] o (o + w.length + 2)))
  | array {o : Nat} {items : List (Node ν)} {t : Text} : Spells number (o + 1) t (.items items) →
      Spells number o (openBracket :: t ++ [closeBracket])
        (.value (.array items o (o + t.length + 2)))
  | emptyObject {o : Nat} {w : Text} : Whitespace w →
      Spells number o (openBrace :: w ++ [closeBrace]) (.value (.object [] o (o + w.length + 2)))
  | object {o : Nat} {properties : List (StringNode × Node ν)} {t : Text} :
      Spells number (o + 1) t (.properties properties) → (keys properties).Nodup →
      Spells number o (openBrace :: t ++ [closeBrace])
        (.value (.object properties o (o + t.length + 2)))
  | item {o : Nat} {node : Node ν} {w₁ t w₂ : Text} : Whitespace w₁ →
      Spells number (o + w₁.length) t (.value node) → Whitespace w₂ →
      Spells number o (w₁ ++ t ++ w₂) (.items [node])
  | items {o : Nat} {node : Node ν} {items : List (Node ν)} {w₁ t w₂ rest : Text} : Whitespace w₁ →
      Spells number (o + w₁.length) t (.value node) → Whitespace w₂ →
      Spells number (o + (w₁ ++ t ++ w₂).length + 1) rest (.items items) →
      Spells number o (w₁ ++ t ++ w₂ ++ comma :: rest) (.items (node :: items))
  | property {o : Nat} {node : Node ν} {key w₁ k w₂ w₃ t w₄ : Text} : Whitespace w₁ →
      StringToken k key → Whitespace w₂ → Whitespace w₃ →
      Spells number (o + (w₁ ++ k ++ w₂).length + 1 + w₃.length) t (.value node) → Whitespace w₄ →
      Spells number o (w₁ ++ k ++ w₂ ++ colon :: (w₃ ++ t ++ w₄))
        (.properties [(⟨key, o + w₁.length, o + w₁.length + k.length⟩, node)])
  | properties {o : Nat} {node : Node ν} {properties : List (StringNode × Node ν)}
      {key w₁ k w₂ w₃ t w₄ rest : Text} : Whitespace w₁ →
      StringToken k key → Whitespace w₂ → Whitespace w₃ →
      Spells number (o + (w₁ ++ k ++ w₂).length + 1 + w₃.length) t (.value node) → Whitespace w₄ →
      Spells number (o + (w₁ ++ k ++ w₂).length + 1 + (w₃ ++ t ++ w₄).length + 1) rest
        (.properties properties) →
      Spells number o (w₁ ++ k ++ w₂ ++ colon :: (w₃ ++ t ++ w₄ ++ comma :: rest))
        (.properties ((⟨key, o + w₁.length, o + w₁.length + k.length⟩, node) :: properties))

/-! ## The grammar without offsets -/

variable {number : Text → ν} {o : Nat} {t : Text} {p : Part ν}

/-- What a tree spells means its value. -/
theorem Spells.derives (h : Spells number o t p) : Derives number p.phrase t := by
  induction h with
  | null => exact .null
  | true => exact .true
  | false => exact .false
  | number h => exact .number h
  | string h => exact .string h
  | emptyArray hw => exact .emptyArray hw
  | array _ ih => exact .array ih
  | emptyObject hw => exact .emptyObject hw
  | object _ _ ih => exact .object ih
  | item hw₁ _ hw₂ ih => exact .element hw₁ ih hw₂
  | items hw₁ _ hw₂ _ ih ihrest => exact .elements hw₁ ih hw₂ ihrest
  | property hw₁ hk hw₂ hw₃ _ hw₄ ih => exact .member hw₁ hk hw₂ hw₃ ih hw₄
  | properties hw₁ hk hw₂ hw₃ _ hw₄ _ ih ihrest => exact .members hw₁ hk hw₂ hw₃ ih hw₄ ihrest

/-- No object of the part repeats a name; the part itself may. -/
def PhraseDistinct : Phrase ν → Prop
  | .value v => KeysDistinct v
  | .elements items => ∀ v ∈ items, KeysDistinct v
  | .members members => ∀ m ∈ members, KeysDistinct m.2

/-- A tree has no repeated names. -/
theorem Spells.distinct (h : Spells number o t p) : PhraseDistinct p.phrase := by
  induction h with
  | null => exact .null
  | true => exact .boolean _
  | false => exact .boolean _
  | number => exact .number _
  | string => exact .string _
  | emptyArray => exact .array fun v hv => absurd hv List.not_mem_nil
  | array _ ih => exact .array ih
  | emptyObject => exact .object .nil fun m hm => absurd hm List.not_mem_nil
  | object _ hnodup ih =>
    refine .object ?_ ih
    rw [keys_memberValues]
    exact hnodup
  | item _ _ _ ih =>
    intro v hv
    obtain rfl := List.mem_singleton.1 hv
    exact ih
  | items _ _ _ _ ih ihrest =>
    intro v hv
    rcases List.mem_cons.1 hv with rfl | hv
    · exact ih
    · exact ihrest v hv
  | property _ _ _ _ _ _ ih =>
    intro m hm
    obtain rfl := List.mem_singleton.1 hm
    exact ih
  | properties _ _ _ _ _ _ _ ih ihrest =>
    intro m hm
    rcases List.mem_cons.1 hm with rfl | hm
    · exact ih
    · exact ihrest m hm

theorem Part.of_value {v : Json ν} (h : p.phrase = .value v) :
    ∃ node, p = .value node ∧ v = node.value := by
  cases p with
  | value node => exact ⟨node, rfl, (Phrase.value.inj h).symm⟩
  | items => cases h
  | properties => cases h

theorem Part.of_elements {vs : List (Json ν)} (h : p.phrase = .elements vs) :
    ∃ nodes, p = .items nodes ∧ vs = itemValues nodes := by
  cases p with
  | value => cases h
  | items nodes => exact ⟨nodes, rfl, (Phrase.elements.inj h).symm⟩
  | properties => cases h

theorem Part.of_members {ms : List (Text × Json ν)} (h : p.phrase = .members ms) :
    ∃ ps, p = .properties ps ∧ ms = memberValues ps := by
  cases p with
  | value => cases h
  | items => cases h
  | properties ps => exact ⟨ps, rfl, (Phrase.members.inj h).symm⟩

/-- What means a value without repeated names is spelled by a tree of that value. -/
theorem spells_of_derives {ph : Phrase ν} (h : Derives number ph t) (hdistinct : PhraseDistinct ph)
    (o : Nat) : ∃ p : Part ν, p.phrase = ph ∧ Spells number o t p := by
  induction h generalizing o with
  | null => exact ⟨_, rfl, .null⟩
  | true => exact ⟨_, rfl, .true⟩
  | false => exact ⟨_, rfl, .false⟩
  | number h => exact ⟨.value (.number _ _ _), rfl, .number h⟩
  | string h => exact ⟨.value (.string ⟨_, _, _⟩), rfl, .string h⟩
  | emptyArray hw => exact ⟨.value (.array [] _ _), rfl, .emptyArray hw⟩
  | array _ ih =>
    cases hdistinct with
    | array hall =>
      obtain ⟨p, hp, hspells⟩ := ih hall (o + 1)
      obtain ⟨nodes, rfl, rfl⟩ := Part.of_elements hp
      exact ⟨_, rfl, .array hspells⟩
  | emptyObject hw => exact ⟨.value (.object [] _ _), rfl, .emptyObject hw⟩
  | object _ ih =>
    cases hdistinct with
    | object hnodup hall =>
      obtain ⟨p, hp, hspells⟩ := ih hall (o + 1)
      obtain ⟨ps, rfl, rfl⟩ := Part.of_members hp
      rw [keys_memberValues] at hnodup
      exact ⟨_, rfl, .object hspells hnodup⟩
  | @element v w₁ t w₂ hw₁ _ hw₂ ih =>
    obtain ⟨p, hp, hspells⟩ := ih (hdistinct v List.mem_cons_self) (o + w₁.length)
    obtain ⟨node, rfl, rfl⟩ := Part.of_value hp
    exact ⟨.items [node], rfl, .item hw₁ hspells hw₂⟩
  | @elements v items w₁ t w₂ rest hw₁ _ hw₂ _ ih ihrest =>
    obtain ⟨p, hp, hspells⟩ := ih (hdistinct v List.mem_cons_self) (o + w₁.length)
    obtain ⟨q, hq, hrest⟩ := ihrest (fun u hu => hdistinct u (List.mem_cons_of_mem _ hu))
      (o + (w₁ ++ t ++ w₂).length + 1)
    obtain ⟨node, rfl, rfl⟩ := Part.of_value hp
    obtain ⟨nodes, rfl, rfl⟩ := Part.of_elements hq
    exact ⟨.items (node :: nodes), rfl, .items hw₁ hspells hw₂ hrest⟩
  | @member v key w₁ k w₂ w₃ t w₄ hw₁ hk hw₂ hw₃ _ hw₄ ih =>
    obtain ⟨p, hp, hspells⟩ := ih (hdistinct (key, v) List.mem_cons_self)
      (o + (w₁ ++ k ++ w₂).length + 1 + w₃.length)
    obtain ⟨node, rfl, rfl⟩ := Part.of_value hp
    exact ⟨.properties [_], rfl, .property hw₁ hk hw₂ hw₃ hspells hw₄⟩
  | @members v key members w₁ k w₂ w₃ t w₄ rest hw₁ hk hw₂ hw₃ _ hw₄ _ ih ihrest =>
    obtain ⟨p, hp, hspells⟩ := ih (hdistinct (key, v) List.mem_cons_self)
      (o + (w₁ ++ k ++ w₂).length + 1 + w₃.length)
    obtain ⟨q, hq, hrest⟩ := ihrest (fun m hm => hdistinct m (List.mem_cons_of_mem _ hm))
      (o + (w₁ ++ k ++ w₂).length + 1 + (w₃ ++ t ++ w₄).length + 1)
    obtain ⟨node, rfl, rfl⟩ := Part.of_value hp
    obtain ⟨ps, rfl, rfl⟩ := Part.of_members hq
    exact ⟨.properties (_ :: ps), rfl, .properties hw₁ hk hw₂ hw₃ hspells hw₄ hrest⟩

end Scripts

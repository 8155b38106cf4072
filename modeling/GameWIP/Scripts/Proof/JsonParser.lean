import GameWIP.Scripts.Proof.JsonGrammar
import GameWIP.Scripts.Proof.JsonTokens

/-!
# The parser reads the grammar

What is read is spelled by the tree that is returned, and fuel enough lasts (`sound`). What a tree
spells is read to its end (`readTo_of_spells`). `parseJsonSource_spells` joins them for whole sources;
`parseJsonSource_exact` says it of values, without offsets.
-/

namespace Scripts

open Lib (Json)
open Lib.Json

variable {ν : Type*} {number : Text → ν} {o : Nat} {t w : Text}

/-! ## Whitespace in front of items and properties -/

theorem whitespace_append {w₁ : Text} (hw : Whitespace w) (hw₁ : Whitespace w₁) :
    Whitespace (w ++ w₁) := fun a ha => (List.mem_append.1 ha).elim (hw a) (hw₁ a)

theorem Spells.space_items {items : List (Node ν)} (hw : Whitespace w)
    (h : Spells number (o + w.length) t (.items items)) :
    Spells number o (w ++ t) (.items items) := by
  cases h with
  | @item _ node w₁ t w₂ hw₁ hnode hw₂ =>
    rw [Nat.add_assoc o, ← List.length_append] at hnode
    rw [← List.append_assoc, ← List.append_assoc]
    exact .item (whitespace_append hw hw₁) hnode hw₂
  | @items _ node items w₁ t w₂ rest hw₁ hnode hw₂ hrest =>
    rw [Nat.add_assoc o, ← List.length_append] at hnode hrest
    simp only [← List.append_assoc] at hrest ⊢
    exact .items (whitespace_append hw hw₁) hnode hw₂ hrest

theorem Spells.space_properties {properties : List (StringNode × Node ν)} (hw : Whitespace w)
    (h : Spells number (o + w.length) t (.properties properties)) :
    Spells number o (w ++ t) (.properties properties) := by
  have hall : ∀ w₁ k w₂ : Text, w ++ (w₁ ++ k ++ w₂) = w ++ w₁ ++ k ++ w₂ := fun w₁ k w₂ => by
    simp only [List.append_assoc]
  cases h with
  | @property _ node key w₁ k w₂ w₃ t w₄ hw₁ hk hw₂ hw₃ hnode hw₄ =>
    rw [Nat.add_assoc o, ← List.length_append, hall] at hnode
    rw [Nat.add_assoc o, ← List.length_append, ← List.append_assoc, hall]
    exact .property (whitespace_append hw hw₁) hk hw₂ hw₃ hnode hw₄
  | @properties _ node properties key w₁ k w₂ w₃ t w₄ rest hw₁ hk hw₂ hw₃ hnode hw₄ hrest =>
    rw [Nat.add_assoc o, ← List.length_append, hall] at hnode hrest
    rw [Nat.add_assoc o, ← List.length_append, ← List.append_assoc, hall]
    exact .properties (whitespace_append hw hw₁) hk hw₂ hw₃ hnode hw₄ hrest

/-! ## What is read is spelled -/

/-- A result as `P` says, or a failure that, with fuel enough, is one of the source. -/
inductive Parsed {α : Type*} (enough : Prop) (P : α → Cursor → Prop) :
    Except Malformed (α × Cursor) → Prop
  | ok {a : α} {next : Cursor} : P a next → Parsed enough P (.ok (a, next))
  | error {failure : Malformed} : (enough → failure.reason ≠ .outOfFuel) →
      Parsed enough P (.error failure)

theorem parsed_fail {α : Type*} {enough : Prop} {P : α → Cursor → Prop} {c : Cursor} {reason : Reason}
    (h : reason ≠ .outOfFuel) : Parsed enough P (c.fail reason) := .error fun _ => h

theorem Parsed.weaken {α : Type*} {enough enough' : Prop} {P : α → Cursor → Prop}
    {x : Except Malformed (α × Cursor)} (h : Parsed enough P x) (himp : enough' → enough) :
    Parsed enough' P x := by
  cases h with
  | ok h => exact .ok h
  | error h => exact .error fun henough => h (himp henough)

/-- Over a text that the tree spells. -/
def ReadsValue (number : Text → ν) (c : Cursor) (node : Node ν) (next : Cursor) : Prop :=
  ∃ t, Spells number c.offset t (.value node) ∧ c.Reads t next

theorem scanString_failure {n : Nat} {u : Text} {failure : Malformed}
    (h : scanString n u = .error failure) : failure.reason ≠ .outOfFuel := by
  fun_induction scanString n u with
  | case2 => cases h
  | case4 o e rest _ ih => exact ih h
  | case6 o c rest _ _ _ ih => exact ih h
  | _ =>
    obtain rfl := Except.error.inj h
    exact fun h => by cases h

theorem parseString_failure {c : Cursor} {failure : Malformed} (h : parseString c = .error failure) :
    failure.reason ≠ .outOfFuel := by
  unfold parseString at h
  split at h
  · obtain rfl := Except.error.inj h
    exact scanString_failure ‹_›
  · split at h
    · cases h
    · obtain rfl := Except.error.inj h
      exact fun h => by cases h

/-- The five mutual functions with some fuel. -/
structure Sound (number : Text → ν) (fuel : Nat) : Prop where
  value : ∀ c, Parsed (3 * c.rest.length + 1 ≤ fuel) (ReadsValue number c) (parseValue number fuel c)
  object : ∀ c, c.peek = some openBrace →
    Parsed (3 * c.rest.length ≤ fuel) (ReadsValue number c) (parseObject number fuel c)
  properties : ∀ c before, Parsed (3 * c.rest.length + 2 ≤ fuel)
    (fun all next => ∃ t new, all = before ++ new ∧ Spells number c.offset t (.properties new) ∧
      c.Reads (t ++ [closeBrace]) next ∧ ((keys before).Nodup → (keys all).Nodup))
    (parseProperties number fuel c before)
  array : ∀ c, c.peek = some openBracket →
    Parsed (3 * c.rest.length ≤ fuel) (ReadsValue number c) (parseArray number fuel c)
  items : ∀ c before, Parsed (3 * c.rest.length + 2 ≤ fuel)
    (fun all next => ∃ t new, all = before ++ new ∧ Spells number c.offset t (.items new) ∧
      c.Reads (t ++ [closeBracket]) next) (parseItems number fuel c before)

variable {fuel : Nat}

theorem parseLiteral_parsed {enough : Prop} {c : Cursor} {token : Text} {make : Nat → Nat → Node ν}
    (h : Spells number c.offset token (.value (make c.offset (c.offset + token.length)))) :
    Parsed enough (ReadsValue number c) (parseLiteral c token make) := by
  cases hparse : parseLiteral c token make with
  | ok parsed =>
    obtain ⟨hreads, heq⟩ := parseLiteral_sound hparse
    exact .ok ⟨token, heq ▸ h, hreads⟩
  | error failure =>
    unfold parseLiteral at hparse
    split_ifs at hparse
    exact hparse ▸ parsed_fail (by decide)

theorem parseValue_parsed (ih : Sound number fuel) (c : Cursor) :
    Parsed (3 * c.rest.length + 1 ≤ fuel + 1) (ReadsValue number c)
      (parseValue number (fuel + 1) c) := by
  unfold parseValue
  split
  · exact (ih.object c ‹_›).weaken Nat.le_of_succ_le_succ
  · exact (ih.array c ‹_›).weaken Nat.le_of_succ_le_succ
  · cases hstring : parseString c with
    | error failure => exact .error fun _ => parseString_failure hstring
    | ok parsed =>
      obtain ⟨string, last⟩ := parsed
      obtain ⟨t, htoken, hreads, heq⟩ := parseString_sound ‹_› hstring
      have hspells : Spells number c.offset t
          (.value (.string ⟨string.value, c.offset, c.offset + t.length⟩)) := .string htoken
      rw [← heq] at hspells
      exact .ok ⟨t, hspells, hreads⟩
  · exact parseLiteral_parsed .true
  · exact parseLiteral_parsed .false
  · exact parseLiteral_parsed .null
  · cases hnumber : parseNumber number c with
    | error failure =>
      unfold parseNumber at hnumber
      split at hnumber
      · exact hnumber ▸ parsed_fail (by decide)
      · cases hnumber
    | ok parsed =>
      obtain ⟨t, htoken, hreads, heq⟩ := parseNumber_sound hnumber
      exact .ok ⟨t, heq ▸ .number htoken, hreads⟩

/-- From an opening bracket to the closing one. -/
theorem brackets_reads {c next last : Cursor} {a b : Nat} (hopen : c.peek = some a)
    (hspace : (c.advance 1).Reads w next) (hreads : next.Reads (t ++ [b]) last) :
    c.Reads (a :: (w ++ t) ++ [b]) last ∧ last.offset = c.offset + (w ++ t).length + 2 := by
  have hall := ((reads_advance hopen).append hspace).append hreads
  have htext : [a] ++ w ++ (t ++ [b]) = a :: (w ++ t) ++ [b] := by simp
  rw [htext] at hall
  refine ⟨hall, hall.offset.trans ?_⟩
  simp only [List.length_append, List.length_cons, List.length_nil]
  omega

theorem parseArray_parsed (ih : Sound number fuel) (c : Cursor) (hopen : c.peek = some openBracket) :
    Parsed (3 * c.rest.length ≤ fuel + 1) (ReadsValue number c) (parseArray number (fuel + 1) c) := by
  obtain ⟨w, hw, hspace⟩ := skipWhitespace_reads (c.advance 1)
  have hlength := ((reads_advance hopen).append hspace).length
  rw [parseArray]
  dsimp only
  split_ifs with hclose
  · obtain ⟨hreads, hoffset⟩ := brackets_reads (t := []) hopen hspace (reads_advance hclose)
    rw [List.append_nil] at hreads hoffset
    have hstop : (skipWhitespace (c.advance 1)).offset + 1 = c.offset + w.length + 2 := hoffset
    exact .ok ⟨_, hstop ▸ .emptyArray hw, hreads⟩
  · have hitems := ih.items (skipWhitespace (c.advance 1)) []
    generalize parseItems number fuel (skipWhitespace (c.advance 1)) [] = parsed at hitems ⊢
    cases hitems with
    | error h =>
      refine .error fun henough => h ?_
      rw [hlength] at henough
      simp only [List.length_append, List.length_singleton] at henough
      omega
    | ok h =>
      obtain ⟨t, new, rfl, hspells, hreads⟩ := h
      rw [hspace.offset] at hspells
      obtain ⟨hreads, hoffset⟩ := brackets_reads hopen hspace hreads
      exact .ok ⟨_, hoffset ▸ .array (hspells.space_items hw), hreads⟩

theorem parseObject_parsed (ih : Sound number fuel) (c : Cursor) (hopen : c.peek = some openBrace) :
    Parsed (3 * c.rest.length ≤ fuel + 1) (ReadsValue number c) (parseObject number (fuel + 1) c) := by
  obtain ⟨w, hw, hspace⟩ := skipWhitespace_reads (c.advance 1)
  have hlength := ((reads_advance hopen).append hspace).length
  rw [parseObject]
  dsimp only
  split_ifs with hclose
  · obtain ⟨hreads, hoffset⟩ := brackets_reads (t := []) hopen hspace (reads_advance hclose)
    rw [List.append_nil] at hreads hoffset
    have hstop : (skipWhitespace (c.advance 1)).offset + 1 = c.offset + w.length + 2 := hoffset
    exact .ok ⟨_, hstop ▸ .emptyObject hw, hreads⟩
  · have hproperties := ih.properties (skipWhitespace (c.advance 1)) []
    generalize parseProperties number fuel (skipWhitespace (c.advance 1)) [] = parsed
      at hproperties ⊢
    cases hproperties with
    | error h =>
      refine .error fun henough => h ?_
      rw [hlength] at henough
      simp only [List.length_append, List.length_singleton] at henough
      omega
    | ok h =>
      obtain ⟨t, new, rfl, hspells, hreads, hnodup⟩ := h
      rw [hspace.offset] at hspells
      obtain ⟨hreads, hoffset⟩ := brackets_reads hopen hspace hreads
      exact .ok ⟨_, hoffset ▸ .object (hspells.space_properties hw) (hnodup .nil), hreads⟩

theorem parseItems_parsed (ih : Sound number fuel) (c : Cursor) (before : List (Node ν)) :
    Parsed (3 * c.rest.length + 2 ≤ fuel + 1)
      (fun all next => ∃ t new, all = before ++ new ∧ Spells number c.offset t (.items new) ∧
        c.Reads (t ++ [closeBracket]) next) (parseItems number (fuel + 1) c before) := by
  have hvalue := ih.value c
  rw [parseItems]
  generalize parseValue number fuel c = parsed at hvalue ⊢
  cases hvalue with
  | error h => exact .error fun henough => h (by omega)
  | @ok node behindNode h =>
    dsimp only
    obtain ⟨t, hspells, hnode⟩ := h
    obtain ⟨w, hw, hspace⟩ := skipWhitespace_reads behindNode
    have hitem : c.Reads ([] ++ t ++ w) (skipWhitespace behindNode) := hnode.append hspace
    have hnil : Whitespace [] := fun a ha => by cases ha
    split_ifs with hclose hcomma
    · exact .ok ⟨[] ++ t ++ w, [node], rfl, .item hnil hspells hw,
        hitem.append (reads_advance hclose)⟩
    · exact parsed_fail (by decide)
    · have hseparator := hitem.append (reads_advance (not_not.1 hcomma))
      obtain ⟨w', hw', hspace'⟩ := skipWhitespace_reads ((skipWhitespace behindNode).advance 1)
      have hlength := (hseparator.append hspace').length
      have hrest := ih.items (skipWhitespace ((skipWhitespace behindNode).advance 1))
        (before ++ [node])
      generalize parseItems number fuel (skipWhitespace ((skipWhitespace behindNode).advance 1))
        (before ++ [node]) = parsed at hrest ⊢
      cases hrest with
      | error h =>
        refine .error fun henough => h ?_
        rw [hlength] at henough
        simp only [List.length_append, List.length_singleton] at henough
        omega
      | ok h =>
        obtain ⟨rest, new, rfl, hrest, hreads⟩ := h
        rw [hspace'.offset, hseparator.offset] at hrest
        refine .ok ⟨[] ++ t ++ w ++ comma :: (w' ++ rest), node :: new, by simp, ?_, ?_⟩
        · refine .items hnil hspells hw (.space_items hw' ?_)
          have hlength : c.offset + ([] ++ t ++ w ++ [comma]).length =
              c.offset + ([] ++ t ++ w).length + 1 := by
            simp
            omega
          rw [hlength] at hrest
          exact hrest
        · have hreads := (hseparator.append hspace').append hreads
          simpa using hreads

theorem parseProperties_parsed (ih : Sound number fuel) (c : Cursor)
    (before : List (StringNode × Node ν)) :
    Parsed (3 * c.rest.length + 2 ≤ fuel + 1)
      (fun all next => ∃ t new, all = before ++ new ∧ Spells number c.offset t (.properties new) ∧
        c.Reads (t ++ [closeBrace]) next ∧ ((keys before).Nodup → (keys all).Nodup))
      (parseProperties number (fuel + 1) c before) := by
  rw [parseProperties]
  split_ifs with hquote
  · exact parsed_fail (by decide)
  cases hstring : parseString c with
  | error failure => exact .error fun _ => parseString_failure hstring
  | ok parsed =>
    obtain ⟨key, behindKey⟩ := parsed
    dsimp only
    obtain ⟨k, htoken, hkey, hkeyEq⟩ := parseString_sound (not_not.1 hquote) hstring
    split_ifs with hduplicate hcolon
    · exact parsed_fail (fun h => by cases h)
    · exact parsed_fail (by decide)
    obtain ⟨w₂, hw₂, hspace₂⟩ := skipWhitespace_reads behindKey
    have hname : c.Reads ([] ++ k ++ w₂) (skipWhitespace behindKey) := hkey.append hspace₂
    have hcolonRead := hname.append (reads_advance (not_not.1 hcolon))
    obtain ⟨w₃, hw₃, hspace₃⟩ := skipWhitespace_reads ((skipWhitespace behindKey).advance 1)
    have hbefore := (hcolonRead.append hspace₃).length
    simp only [List.length_append, List.length_singleton, List.length_nil] at hbefore
    have hvalue := ih.value (skipWhitespace ((skipWhitespace behindKey).advance 1))
    generalize parseValue number fuel (skipWhitespace ((skipWhitespace behindKey).advance 1)) =
      parsed at hvalue ⊢
    cases hvalue with
    | error h => exact .error fun henough => h (by omega)
    | @ok node behindNode h =>
      dsimp only
      obtain ⟨t, hspells, hnode⟩ := h
      obtain ⟨w₄, hw₄, hspace₄⟩ := skipWhitespace_reads behindNode
      rw [hspace₃.offset, hcolonRead.offset] at hspells
      have hnil : Whitespace [] := fun a ha => by cases ha
      have hlength : c.offset + ([] ++ k ++ w₂ ++ [colon]).length =
          c.offset + ([] ++ k ++ w₂).length + 1 := by
        simp
        omega
      rw [hlength] at hspells
      have hproperty := (hcolonRead.append hspace₃).append (hnode.append hspace₄)
      have hnodup : (keys before).Nodup → (keys (before ++ [(key, node)])).Nodup := by
        intro hbefore
        have hnew : key.value ∉ keys before := fun hmem => by
          obtain ⟨p, hp, hpkey⟩ := List.mem_map.1 hmem
          refine hduplicate (List.any_eq_true.2 ⟨p, hp, ?_⟩)
          rw [hpkey, beq_self_eq_true]
        unfold keys at *
        rw [List.map_append, List.nodup_append]
        refine ⟨hbefore, by simp, fun a ha b hb heq => ?_⟩
        rw [List.map_singleton, List.mem_singleton] at hb
        exact hnew (hb ▸ heq ▸ ha)
      split_ifs with hclose hcomma
      · have hreads := hproperty.append (reads_advance hclose)
        rw [hkeyEq]
        refine .ok ⟨[] ++ k ++ w₂ ++ colon :: (w₃ ++ t ++ w₄), _, rfl,
          .property hnil htoken hw₂ hw₃ hspells hw₄, ?_, ?_⟩
        · simpa using hreads
        · rw [← hkeyEq]
          exact hnodup
      · exact parsed_fail (by decide)
      · have hseparator := hproperty.append (reads_advance (not_not.1 hcomma))
        obtain ⟨w', hw', hspace'⟩ := skipWhitespace_reads ((skipWhitespace behindNode).advance 1)
        have hall := (hseparator.append hspace').length
        simp only [List.length_append, List.length_singleton, List.length_nil] at hall
        have hrest := ih.properties (skipWhitespace ((skipWhitespace behindNode).advance 1))
          (before ++ [(key, node)])
        generalize parseProperties number fuel
          (skipWhitespace ((skipWhitespace behindNode).advance 1)) (before ++ [(key, node)]) = parsed
          at hrest ⊢
        cases hrest with
        | error h => exact .error fun henough => h (by omega)
        | ok h =>
          obtain ⟨rest, new, rfl, hrest, hreads, hkept⟩ := h
          rw [hspace'.offset, hseparator.offset] at hrest
          refine .ok ⟨[] ++ k ++ w₂ ++ colon :: (w₃ ++ t ++ w₄ ++ comma :: (w' ++ rest)),
            (key, node) :: new, by simp, ?_, ?_, fun hbefore => hkept (hnodup hbefore)⟩
          · rw [hkeyEq]
            refine .properties hnil htoken hw₂ hw₃ hspells hw₄ (.space_properties hw' ?_)
            have hlength : c.offset + ([] ++ k ++ w₂ ++ [colon] ++ w₃ ++ (t ++ w₄) ++ [comma]).length =
                c.offset + ([] ++ k ++ w₂).length + 1 + (w₃ ++ t ++ w₄).length + 1 := by
              simp only [List.length_append, List.length_cons, List.length_nil]
              omega
            rw [hlength] at hrest
            exact hrest
          · have hreads := (hseparator.append hspace').append hreads
            simpa using hreads

theorem sound (number : Text → ν) (fuel : Nat) : Sound number fuel := by
  induction fuel with
  | zero =>
    have hnone : ∀ (c : Cursor) {a : Nat}, c.peek = some a → ¬3 * c.rest.length ≤ 0 := by
      intro c a h
      have := (reads_advance h).length
      rw [List.length_singleton] at this
      omega
    exact ⟨fun c => .error fun h => by omega, fun c h => .error fun hle => absurd hle (hnone c h),
      fun c before => .error fun h => by omega, fun c h => .error fun hle => absurd hle (hnone c h),
      fun c before => .error fun h => by omega⟩
  | succ fuel ih =>
    exact ⟨parseValue_parsed ih, parseObject_parsed ih, parseProperties_parsed ih,
      parseArray_parsed ih, parseItems_parsed ih⟩

theorem parseValue_sound {c next : Cursor} {node : Node ν}
    (h : parseValue number fuel c = .ok (node, next)) : ReadsValue number c node next := by
  have hvalue := (sound number fuel).value c
  rw [h] at hvalue
  cases hvalue with
  | ok h => exact h

/-! ## What is spelled is read -/

theorem follows_cons {a : Nat} {rest : Text} (h : a = comma ∨ a = closeBracket ∨ a = closeBrace) :
    Follows (a :: rest) := by
  intro b hb
  rw [← Option.some.inj hb]
  exact .inr h

theorem follows_space {rest : Text} (hw : Whitespace w) (hrest : Follows rest) :
    Follows (w ++ rest) := by
  cases w with
  | nil => exact hrest
  | cons a w =>
    intro b hb
    rw [← Option.some.inj hb]
    exact .inl (hw a List.mem_cons_self)

/-- The first character of a value. -/
theorem value_head {node : Node ν} (h : Spells number o t (.value node)) :
    ∃ a u, t = a :: u ∧ isWhitespace a = false ∧ a ≠ closeBracket ∧ a ≠ closeBrace := by
  cases h with
  | null => exact ⟨_, _, rfl, by decide⟩
  | true => exact ⟨_, _, rfl, by decide⟩
  | false => exact ⟨_, _, rfl, by decide⟩
  | number htoken =>
    obtain ⟨a, u, rfl, ha⟩ := numberToken_head htoken
    refine ⟨a, u, rfl, ?_⟩
    rcases ha with rfl | ha
    · decide
    · have ha := isDigit_iff.1 ha
      refine ⟨?_, fun heq => ?_, fun heq => ?_⟩
      · rw [isWhitespace]
        simp
        omega
      · rw [heq] at ha
        revert ha
        decide
      · rw [heq] at ha
        revert ha
        decide
  | string htoken =>
    obtain ⟨u, rfl⟩ := stringToken_head htoken
    exact ⟨_, u, rfl, by decide⟩
  | emptyArray => exact ⟨_, _, rfl, by decide⟩
  | array => exact ⟨_, _, rfl, by decide⟩
  | emptyObject => exact ⟨_, _, rfl, by decide⟩
  | object => exact ⟨_, _, rfl, by decide⟩

theorem value_noSpace {node : Node ν} (h : Spells number o t (.value node)) (rest : Text) :
    NoSpace (t ++ rest) := by
  obtain ⟨a, u, rfl, ha, -⟩ := value_head h
  exact noSpace_cons ha

theorem value_length {node : Node ν} (h : Spells number o t (.value node)) : 1 ≤ t.length := by
  obtain ⟨a, u, rfl, -⟩ := value_head h
  simp

theorem token_noSpace {k key : Text} (h : StringToken k key) (rest : Text) : NoSpace (k ++ rest) := by
  obtain ⟨u, rfl⟩ := stringToken_head h
  exact noSpace_cons rfl

/-- The items of an array are not its end. -/
theorem items_peek {items : List (Node ν)} (h : Spells number o t (.items items)) (rest : Text) :
    (skipWhitespace ⟨o, t ++ rest⟩).peek ≠ some closeBracket := by
  have hpeek : ∀ {o o' : Nat} {node : Node ν} {w t rest : Text}, Whitespace w →
      Spells number o t (.value node) →
      (skipWhitespace ⟨o', w ++ (t ++ rest)⟩).peek ≠ some closeBracket := by
    intro o o' node w t rest hw hnode
    rw [skipWhitespace_append o' hw (value_noSpace hnode rest)]
    obtain ⟨a, u, rfl, -, ha, -⟩ := value_head hnode
    exact fun heq => ha (Option.some.inj heq)
  cases h with
  | item hw₁ hnode =>
    rw [List.append_assoc, List.append_assoc]
    exact hpeek hw₁ hnode
  | items hw₁ hnode =>
    rw [List.append_assoc, List.append_assoc, List.append_assoc]
    exact hpeek hw₁ hnode

theorem properties_peek {properties : List (StringNode × Node ν)}
    (h : Spells number o t (.properties properties)) (rest : Text) :
    (skipWhitespace ⟨o, t ++ rest⟩).peek = some quote := by
  have hpeek : ∀ {o' : Nat} {w k key rest : Text}, Whitespace w → StringToken k key →
      (skipWhitespace ⟨o', w ++ (k ++ rest)⟩).peek = some quote := by
    intro o' w k key rest hw hk
    rw [skipWhitespace_append o' hw (token_noSpace hk rest)]
    obtain ⟨u, rfl⟩ := stringToken_head hk
    rfl
  cases h with
  | property hw₁ hk =>
    rw [List.append_assoc, List.append_assoc, List.append_assoc]
    exact hpeek hw₁ hk
  | properties hw₁ hk =>
    rw [List.append_assoc, List.append_assoc, List.append_assoc]
    exact hpeek hw₁ hk

/-- The parser reads the text to its end, with fuel enough, and returns the tree. -/
def ReadTo (number : Text → ν) (o : Nat) (t : Text) : Part ν → Prop
  | .value node => ∀ fuel rest, Follows rest → 3 * t.length ≤ fuel + 2 →
      parseValue number fuel ⟨o, t ++ rest⟩ = .ok (node, ⟨o + t.length, rest⟩)
  | .items nodes => ∀ fuel rest before, 3 * t.length ≤ fuel →
      parseItems number fuel (skipWhitespace ⟨o, t ++ closeBracket :: rest⟩) before =
        .ok (before ++ nodes, ⟨o + t.length + 1, rest⟩)
  | .properties ps => ∀ fuel rest before, (keys before ++ keys ps).Nodup → 3 * t.length ≤ fuel →
      parseProperties number fuel (skipWhitespace ⟨o, t ++ closeBrace :: rest⟩) before =
        .ok (before ++ ps, ⟨o + t.length + 1, rest⟩)

theorem fuel_succ (fuel n : Nat) (h : n + 1 ≤ fuel) : ∃ f, fuel = f + 1 ∧ n ≤ f :=
  ⟨fuel - 1, by omega, by omega⟩

theorem readTo_number (h : NumberToken t) :
    ReadTo number o t (.value (.number (number t) o (o + t.length))) := by
  intro fuel rest hrest hfuel
  obtain ⟨a, u, rfl, ha⟩ := numberToken_head h
  obtain ⟨fuel, rfl, -⟩ := fuel_succ fuel 0 (by
    rw [List.length_cons] at hfuel
    omega)
  rw [← parseNumber_token h hrest o, parseValue]
  have hne : ∀ b, b = 0x7B ∨ b = 0x5B ∨ b = 0x22 ∨ b = 0x74 ∨ b = 0x66 ∨ b = 0x6E →
      Cursor.peek ⟨o, a :: u ++ rest⟩ ≠ some b := by
    intro b hb heq
    obtain rfl := Option.some.inj heq
    rcases ha with rfl | ha
    · revert hb
      decide
    · have := isDigit_iff.1 ha
      omega
  split <;> first | rfl | exact absurd ‹_› (hne _ (by decide))

theorem readTo_string {value : Text} (h : StringToken t value) :
    ReadTo number o t (.value (.string ⟨value, o, o + t.length⟩)) := by
  intro fuel rest _ hfuel
  have hread := parseString_token h o rest
  obtain ⟨u, rfl⟩ := stringToken_head h
  obtain ⟨fuel, rfl, -⟩ := fuel_succ fuel 0 (by
    rw [List.length_cons] at hfuel
    omega)
  show (parseString ⟨o, quote :: u ++ rest⟩).map _ = _
  rw [hread]
  rfl

/-- The first step into brackets. -/
theorem skip_open (o a : Nat) (t rest : Text) :
    skipWhitespace (Cursor.advance ⟨o, a :: t ++ rest⟩ 1) = skipWhitespace ⟨o + 1, t ++ rest⟩ := rfl

theorem readTo_emptyArray (hw : Whitespace w) :
    ReadTo number o (openBracket :: w ++ [closeBracket]) (.value (.array [] o (o + w.length + 2))) := by
  intro fuel rest _ hfuel
  simp only [List.length_append, List.length_cons, List.length_nil] at hfuel ⊢
  obtain ⟨fuel, rfl, hfuel'⟩ := fuel_succ fuel 1 (by omega)
  obtain ⟨fuel, rfl, -⟩ := fuel_succ fuel 0 hfuel'
  show parseArray number (fuel + 1) _ = _
  rw [List.append_assoc, parseArray, skip_open, List.singleton_append,
    skipWhitespace_append (o + 1) hw (noSpace_cons rfl)]
  dsimp only
  rw [if_pos (by rfl), advance_cons]
  congr 3 <;> omega

theorem readTo_array {nodes : List (Node ν)} (hspells : Spells number (o + 1) t (.items nodes))
    (ih : ReadTo number (o + 1) t (.items nodes)) :
    ReadTo number o (openBracket :: t ++ [closeBracket])
      (.value (.array nodes o (o + t.length + 2))) := by
  intro fuel rest _ hfuel
  simp only [List.length_append, List.length_cons, List.length_nil] at hfuel ⊢
  obtain ⟨fuel, rfl, hfuel'⟩ := fuel_succ fuel (3 * t.length + 3) (by omega)
  obtain ⟨fuel, rfl, hfuel''⟩ := fuel_succ fuel (3 * t.length + 2) hfuel'
  show parseArray number (fuel + 1) _ = _
  rw [List.append_assoc, parseArray, skip_open, List.singleton_append]
  dsimp only
  rw [if_neg (items_peek hspells _), ih fuel rest [] (by omega), List.nil_append]
  have hoffset : o + 1 + t.length + 1 = o + t.length + 2 := by omega
  rw [hoffset]
  rfl

theorem readTo_emptyObject (hw : Whitespace w) :
    ReadTo number o (openBrace :: w ++ [closeBrace]) (.value (.object [] o (o + w.length + 2))) := by
  intro fuel rest _ hfuel
  simp only [List.length_append, List.length_cons, List.length_nil] at hfuel ⊢
  obtain ⟨fuel, rfl, hfuel'⟩ := fuel_succ fuel 1 (by omega)
  obtain ⟨fuel, rfl, -⟩ := fuel_succ fuel 0 hfuel'
  show parseObject number (fuel + 1) _ = _
  rw [List.append_assoc, parseObject, skip_open, List.singleton_append,
    skipWhitespace_append (o + 1) hw (noSpace_cons rfl)]
  dsimp only
  rw [if_pos (by rfl), advance_cons]
  congr 3 <;> omega

theorem readTo_object {ps : List (StringNode × Node ν)}
    (hspells : Spells number (o + 1) t (.properties ps)) (hnodup : (keys ps).Nodup)
    (ih : ReadTo number (o + 1) t (.properties ps)) :
    ReadTo number o (openBrace :: t ++ [closeBrace])
      (.value (.object ps o (o + t.length + 2))) := by
  intro fuel rest _ hfuel
  simp only [List.length_append, List.length_cons, List.length_nil] at hfuel ⊢
  obtain ⟨fuel, rfl, hfuel'⟩ := fuel_succ fuel (3 * t.length + 3) (by omega)
  obtain ⟨fuel, rfl, hfuel''⟩ := fuel_succ fuel (3 * t.length + 2) hfuel'
  show parseObject number (fuel + 1) _ = _
  rw [List.append_assoc, parseObject, skip_open, List.singleton_append]
  have hpeek : (skipWhitespace ⟨o + 1, t ++ closeBrace :: rest⟩).peek ≠ some closeBrace := by
    rw [properties_peek hspells]
    decide
  dsimp only
  rw [if_neg hpeek, ih fuel rest [] hnodup (by omega), List.nil_append]
  have hoffset : o + 1 + t.length + 1 = o + t.length + 2 := by omega
  rw [hoffset]
  rfl

theorem separator_of {a close : Nat} (h : a = comma ∨ a = close)
    (hclose : close = closeBracket ∨ close = closeBrace) :
    isWhitespace a = false ∧ (a = comma ∨ a = closeBracket ∨ a = closeBrace) := by
  rcases h with rfl | rfl
  · exact ⟨rfl, .inl rfl⟩
  · exact ⟨by rcases hclose with rfl | rfl <;> rfl, .inr hclose⟩

/-- One item, up to the separator `a` behind it. -/
theorem parseItems_item {node : Node ν} {w₁ w₂ rest : Text} {a : Nat} {before : List (Node ν)}
    (hw₁ : Whitespace w₁) (hspells : Spells number (o + w₁.length) t (.value node))
    (ih : ReadTo number (o + w₁.length) t (.value node)) (hw₂ : Whitespace w₂)
    (ha : a = comma ∨ a = closeBracket) (hfuel : 3 * t.length ≤ fuel + 2) :
    parseItems number (fuel + 1) (skipWhitespace ⟨o, w₁ ++ t ++ w₂ ++ a :: rest⟩) before =
      if a = closeBracket then
        .ok (before ++ [node], ⟨o + (w₁ ++ t ++ w₂).length + 1, rest⟩)
      else parseItems number fuel (skipWhitespace ⟨o + (w₁ ++ t ++ w₂).length + 1, rest⟩)
        (before ++ [node]) := by
  obtain ⟨hclass, hseparator⟩ := separator_of ha (.inl rfl)
  have hlength : o + w₁.length + t.length + w₂.length = o + (w₁ ++ t ++ w₂).length := by
    simp only [List.length_append]
    omega
  rw [List.append_assoc, List.append_assoc, skipWhitespace_append o hw₁ (value_noSpace hspells _),
    parseItems, ih fuel (w₂ ++ a :: rest) (follows_space hw₂ (follows_cons hseparator)) hfuel]
  dsimp only
  rw [skipWhitespace_append _ hw₂ (noSpace_cons hclass), advance_cons, hlength]
  rw [peek_cons]
  by_cases hclose : a = closeBracket
  · rw [if_pos hclose, if_pos (congrArg some hclose)]
  · obtain rfl := ha.resolve_right hclose
    rw [if_neg hclose, if_neg (by decide), if_neg (by decide)]

theorem readTo_item {node : Node ν} {w₁ w₂ : Text} (hw₁ : Whitespace w₁)
    (hspells : Spells number (o + w₁.length) t (.value node))
    (ih : ReadTo number (o + w₁.length) t (.value node)) (hw₂ : Whitespace w₂) :
    ReadTo number o (w₁ ++ t ++ w₂) (.items [node]) := by
  intro fuel rest before hfuel
  have hone := value_length hspells
  have hlength : (w₁ ++ t ++ w₂).length = w₁.length + t.length + w₂.length := by
    simp only [List.length_append]
  obtain ⟨fuel, rfl, hfuel'⟩ := fuel_succ fuel (3 * t.length - 1) (by omega)
  rw [parseItems_item hw₁ hspells ih hw₂ (.inr rfl) (by omega), if_pos rfl]

theorem readTo_items {node : Node ν} {nodes : List (Node ν)} {w₁ w₂ rest : Text}
    (hw₁ : Whitespace w₁) (hspells : Spells number (o + w₁.length) t (.value node))
    (ih : ReadTo number (o + w₁.length) t (.value node)) (hw₂ : Whitespace w₂)
    (ihrest : ReadTo number (o + (w₁ ++ t ++ w₂).length + 1) rest (.items nodes)) :
    ReadTo number o (w₁ ++ t ++ w₂ ++ comma :: rest) (.items (node :: nodes)) := by
  intro fuel behind before hfuel
  have hone := value_length hspells
  have hlength : (w₁ ++ t ++ w₂ ++ comma :: rest).length =
      w₁.length + t.length + w₂.length + 1 + rest.length := by
    simp only [List.length_append, List.length_cons]
    omega
  have hitem : (w₁ ++ t ++ w₂).length = w₁.length + t.length + w₂.length := by
    simp only [List.length_append]
  obtain ⟨fuel, rfl, hfuel'⟩ := fuel_succ fuel (3 * t.length + 3 * rest.length)
    (by omega)
  rw [List.append_assoc, List.cons_append, parseItems_item hw₁ hspells ih hw₂ (.inl rfl) (by omega),
    if_neg (by decide), ihrest fuel behind (before ++ [node]) (by omega)]
  simp only [List.append_assoc, List.singleton_append, List.length_append, List.length_cons]
  congr 3
  omega

/-- One property, up to the separator `a` behind it. -/
theorem parseProperties_property (fuel : Nat) {node : Node ν} {k key w₁ w₂ w₃ w₄ : Text} {a : Nat}
    (rest : Text) {before : List (StringNode × Node ν)} (hw₁ : Whitespace w₁) (hk : StringToken k key)
    (hw₂ : Whitespace w₂) (hw₃ : Whitespace w₃)
    (hspells : Spells number (o + (w₁ ++ k ++ w₂).length + 1 + w₃.length) t (.value node))
    (ih : ReadTo number (o + (w₁ ++ k ++ w₂).length + 1 + w₃.length) t (.value node))
    (hw₄ : Whitespace w₄) (hnew : key ∉ keys before) (ha : a = comma ∨ a = closeBrace)
    (hfuel : 3 * t.length ≤ fuel + 2) :
    parseProperties number (fuel + 1)
        (skipWhitespace ⟨o, w₁ ++ k ++ w₂ ++ colon :: (w₃ ++ t ++ w₄ ++ a :: rest)⟩) before =
      if a = closeBrace then
        .ok (before ++ [(⟨key, o + w₁.length, o + w₁.length + k.length⟩, node)],
          ⟨o + (w₁ ++ k ++ w₂).length + 1 + (w₃ ++ t ++ w₄).length + 1, rest⟩)
      else parseProperties number fuel
        (skipWhitespace ⟨o + (w₁ ++ k ++ w₂).length + 1 + (w₃ ++ t ++ w₄).length + 1, rest⟩)
        (before ++ [(⟨key, o + w₁.length, o + w₁.length + k.length⟩, node)]) := by
  obtain ⟨hclass, hseparator⟩ := separator_of ha (.inr rfl)
  have hname : o + w₁.length + k.length + w₂.length = o + (w₁ ++ k ++ w₂).length := by
    simp only [List.length_append]
    omega
  have hvalue : o + (w₁ ++ k ++ w₂).length + 1 + w₃.length + t.length + w₄.length =
      o + (w₁ ++ k ++ w₂).length + 1 + (w₃ ++ t ++ w₄).length := by
    simp only [List.length_append]
    omega
  have hpeek : Cursor.peek ⟨o + w₁.length, k ++ (w₂ ++ colon :: (w₃ ++ (t ++ (w₄ ++ a :: rest))))⟩ =
      some quote := by
    obtain ⟨u, rfl⟩ := stringToken_head hk
    rfl
  have hany : ¬ (before.any fun property => property.1.value == key) = true := by
    intro hany
    obtain ⟨p, hp, hpkey⟩ := List.any_eq_true.1 hany
    exact hnew (List.mem_map.2 ⟨p, hp, beq_iff_eq.1 hpkey⟩)
  have htext : w₁ ++ k ++ w₂ ++ colon :: (w₃ ++ t ++ w₄ ++ a :: rest) =
      w₁ ++ (k ++ (w₂ ++ colon :: (w₃ ++ (t ++ (w₄ ++ a :: rest))))) := by
    simp only [List.append_assoc]
  rw [htext, skipWhitespace_append o hw₁ (token_noSpace hk _), parseProperties,
    if_neg (not_not.2 hpeek), parseString_token hk]
  dsimp only
  rw [if_neg hany, skipWhitespace_append _ hw₂ (noSpace_cons rfl), hname, advance_cons,
    skipWhitespace_append _ hw₃ (value_noSpace hspells _), peek_cons, if_neg (not_not.2 rfl),
    ih fuel _ (follows_space hw₄ (follows_cons hseparator)) hfuel]
  dsimp only
  rw [skipWhitespace_append _ hw₄ (noSpace_cons hclass), advance_cons, hvalue]
  rw [peek_cons]
  by_cases hclose : a = closeBrace
  · rw [if_pos hclose, if_pos (congrArg some hclose)]
  · obtain rfl := ha.resolve_right hclose
    rw [if_neg hclose, if_neg (by decide), if_neg (by decide)]

theorem readTo_property {node : Node ν} {k key w₁ w₂ w₃ w₄ : Text} (hw₁ : Whitespace w₁)
    (hk : StringToken k key) (hw₂ : Whitespace w₂) (hw₃ : Whitespace w₃)
    (hspells : Spells number (o + (w₁ ++ k ++ w₂).length + 1 + w₃.length) t (.value node))
    (ih : ReadTo number (o + (w₁ ++ k ++ w₂).length + 1 + w₃.length) t (.value node))
    (hw₄ : Whitespace w₄) :
    ReadTo number o (w₁ ++ k ++ w₂ ++ colon :: (w₃ ++ t ++ w₄))
      (.properties [(⟨key, o + w₁.length, o + w₁.length + k.length⟩, node)]) := by
  intro fuel rest before hnodup hfuel
  have hone := value_length hspells
  have hlength : (w₁ ++ k ++ w₂ ++ colon :: (w₃ ++ t ++ w₄)).length =
      (w₁ ++ k ++ w₂).length + 1 + (w₃ ++ t ++ w₄).length := by
    simp only [List.length_append, List.length_cons]
    omega
  have hend : o + (w₁ ++ k ++ w₂).length + 1 + (w₃ ++ t ++ w₄).length + 1 =
      o + (w₁ ++ k ++ w₂ ++ colon :: (w₃ ++ t ++ w₄)).length + 1 := by
    omega
  have hvalue : t.length ≤ (w₃ ++ t ++ w₄).length := by
    simp only [List.length_append]
    omega
  obtain ⟨fuel, rfl, hfuel'⟩ := fuel_succ fuel (3 * t.length) (by omega)
  have hnew : key ∉ keys before := fun hmem =>
    (List.nodup_append.1 hnodup).2.2 key hmem key List.mem_cons_self rfl
  have hstep := parseProperties_property fuel rest hw₁ hk hw₂ hw₃ hspells ih hw₄ hnew (.inr rfl)
    (by omega)
  rw [if_pos rfl, hend] at hstep
  rw [List.append_assoc, List.cons_append, hstep]

theorem readTo_properties {node : Node ν} {ps : List (StringNode × Node ν)}
    {k key w₁ w₂ w₃ w₄ rest : Text} (hw₁ : Whitespace w₁) (hk : StringToken k key)
    (hw₂ : Whitespace w₂) (hw₃ : Whitespace w₃)
    (hspells : Spells number (o + (w₁ ++ k ++ w₂).length + 1 + w₃.length) t (.value node))
    (ih : ReadTo number (o + (w₁ ++ k ++ w₂).length + 1 + w₃.length) t (.value node))
    (hw₄ : Whitespace w₄)
    (ihrest : ReadTo number (o + (w₁ ++ k ++ w₂).length + 1 + (w₃ ++ t ++ w₄).length + 1) rest
      (.properties ps)) :
    ReadTo number o (w₁ ++ k ++ w₂ ++ colon :: (w₃ ++ t ++ w₄ ++ comma :: rest))
      (.properties ((⟨key, o + w₁.length, o + w₁.length + k.length⟩, node) :: ps)) := by
  intro fuel behind before hnodup hfuel
  have hone := value_length hspells
  have hlength : (w₁ ++ k ++ w₂ ++ colon :: (w₃ ++ t ++ w₄ ++ comma :: rest)).length =
      (w₁ ++ k ++ w₂).length + 1 + (w₃ ++ t ++ w₄).length + 1 + rest.length := by
    simp only [List.length_append, List.length_cons]
    omega
  have hvalue : t.length ≤ (w₃ ++ t ++ w₄).length := by
    simp only [List.length_append]
    omega
  obtain ⟨fuel, rfl, hfuel'⟩ := fuel_succ fuel (3 * t.length + 3 * rest.length)
    (by omega)
  have hnew : key ∉ keys before := fun hmem =>
    (List.nodup_append.1 hnodup).2.2 key hmem key List.mem_cons_self rfl
  have hnext : (keys (before ++ [(⟨key, o + w₁.length, o + w₁.length + k.length⟩, node)]) ++
      keys ps).Nodup := by
    simpa [keys] using hnodup
  have hstep := parseProperties_property fuel (rest ++ closeBrace :: behind) hw₁ hk hw₂ hw₃ hspells ih
    hw₄ hnew (.inl rfl) (by omega)
  rw [if_neg (by decide), ihrest fuel behind _ hnext (by omega)] at hstep
  have htext : w₁ ++ k ++ w₂ ++ colon :: (w₃ ++ t ++ w₄ ++ comma :: rest) ++ closeBrace :: behind =
      w₁ ++ k ++ w₂ ++ colon :: (w₃ ++ t ++ w₄ ++ comma :: (rest ++ closeBrace :: behind)) := by
    simp only [List.append_assoc, List.cons_append]
  have hend : o + (w₁ ++ k ++ w₂).length + 1 + (w₃ ++ t ++ w₄).length + 1 + rest.length + 1 =
      o + (w₁ ++ k ++ w₂ ++ colon :: (w₃ ++ t ++ w₄ ++ comma :: rest)).length + 1 := by
    omega
  rw [htext, hstep, hend, List.append_assoc, List.singleton_append]

/-- What is spelled is read to its end. -/
theorem readTo_of_spells {p : Part ν} (h : Spells number o t p) : ReadTo number o t p := by
  induction h with
  | null =>
    intro fuel rest _ hfuel
    obtain ⟨fuel, rfl, -⟩ := fuel_succ fuel 0 (by simp [nullToken] at hfuel; omega)
    exact parseLiteral_token nullToken rest .null _
  | true =>
    intro fuel rest _ hfuel
    obtain ⟨fuel, rfl, -⟩ := fuel_succ fuel 0 (by simp [trueToken] at hfuel; omega)
    exact parseLiteral_token trueToken rest (.boolean Bool.true) _
  | false =>
    intro fuel rest _ hfuel
    obtain ⟨fuel, rfl, -⟩ := fuel_succ fuel 0 (by simp [falseToken] at hfuel; omega)
    exact parseLiteral_token falseToken rest (.boolean Bool.false) _
  | number htoken => exact readTo_number htoken
  | string htoken => exact readTo_string htoken
  | emptyArray hw => exact readTo_emptyArray hw
  | array hspells ih => exact readTo_array hspells ih
  | emptyObject hw => exact readTo_emptyObject hw
  | object hspells hnodup ih => exact readTo_object hspells hnodup ih
  | item hw₁ hspells hw₂ ih => exact readTo_item hw₁ hspells ih hw₂
  | items hw₁ hspells hw₂ _ ih ihrest => exact readTo_items hw₁ hspells ih hw₂ ihrest
  | property hw₁ hk hw₂ hw₃ hspells hw₄ ih => exact readTo_property hw₁ hk hw₂ hw₃ hspells ih hw₄
  | properties hw₁ hk hw₂ hw₃ hspells hw₄ _ ih ihrest =>
    exact readTo_properties hw₁ hk hw₂ hw₃ hspells ih hw₄ ihrest

/-! ## Sources -/

theorem noSpace_nil : NoSpace [] := fun a ha => by cases ha

/-- A source is read exactly when it is spelled by a tree, with whitespace around it. -/
theorem parseJsonSource_spells {source : Text} {node : Node ν} :
    parseJsonSource number source = .ok node ↔ ∃ w₁ t w₂, source = w₁ ++ t ++ w₂ ∧ Whitespace w₁ ∧
      Spells number w₁.length t (.value node) ∧ Whitespace w₂ := by
  constructor
  · intro h
    unfold parseJsonSource at h
    cases hvalue : parseValue number (Scripts.fuel source) (skipWhitespace ⟨0, source⟩) with
    | error failure =>
      rw [hvalue] at h
      cases h
    | ok parsed =>
      obtain ⟨value, next⟩ := parsed
      rw [hvalue] at h
      dsimp only at h
      obtain ⟨w₁, hw₁, hstart⟩ := skipWhitespace_reads ⟨0, source⟩
      obtain ⟨t, hspells, hreads⟩ := parseValue_sound hvalue
      obtain ⟨w₂, hw₂, hend⟩ := skipWhitespace_reads next
      split_ifs at h with hrest
      · cases h
        have hall := (hstart.append hreads).append hend
        refine ⟨w₁, t, w₂, ?_, hw₁, ?_, hw₂⟩
        · rw [← List.append_nil (w₁ ++ t ++ w₂), ← hrest]
          exact hall.rest
        · rw [hstart.offset, Nat.zero_add] at hspells
          exact hspells
      · cases h
  · rintro ⟨w₁, t, w₂, rfl, hw₁, hspells, hw₂⟩
    have hfollows : Follows w₂ := by
      have hnil : Follows [] := fun a ha => by cases ha
      simpa using follows_space hw₂ hnil
    have hlength : 3 * t.length ≤ Scripts.fuel (w₁ ++ t ++ w₂) + 2 := by
      simp only [Scripts.fuel, List.length_append]
      omega
    unfold parseJsonSource
    rw [List.append_assoc, skipWhitespace_append 0 hw₁ (value_noSpace hspells w₂), Nat.zero_add,
      ← List.append_assoc, readTo_of_spells hspells _ w₂ hfollows hlength]
    dsimp only
    have hend : skipWhitespace ⟨w₁.length + t.length, w₂ ++ []⟩ =
        ⟨w₁.length + t.length + w₂.length, []⟩ := skipWhitespace_append _ hw₂ noSpace_nil
    rw [List.append_nil] at hend
    rw [hend, if_pos rfl]

/-- The fuel lasts for every source. -/
theorem parseJsonSource_ne_outOfFuel (number : Text → ν) (source : Text) (offset : Nat) :
    parseJsonSource number source ≠ .error ⟨offset, .outOfFuel⟩ := by
  obtain ⟨w, -, hstart⟩ := skipWhitespace_reads ⟨0, source⟩
  have hlength := hstart.length
  have hvalue := (sound number (Scripts.fuel source)).value (skipWhitespace ⟨0, source⟩)
  unfold parseJsonSource
  generalize parseValue number (Scripts.fuel source) (skipWhitespace ⟨0, source⟩) = parsed at hvalue ⊢
  intro heq
  cases hvalue with
  | error h =>
    refine h ?_ (congrArg Malformed.reason (Except.error.inj heq))
    rw [Scripts.fuel]
    dsimp only at hlength
    omega
  | ok h =>
    dsimp only at heq
    split_ifs at heq
    cases heq

/-- **The parser accepts JSON.** A source is read as a value exactly when it is a JSON text of that
value in which no object repeats a name; what is not read fails for a reason of the source. -/
theorem parseJsonSource_exact (number : Text → ν) (source : Text) :
    (∀ v, (∃ node, parseJsonSource number source = .ok node ∧ node.value = v) ↔
      JsonText number source v ∧ KeysDistinct v) ∧
    ∀ failure, parseJsonSource number source = .error failure → failure.reason ≠ .outOfFuel := by
  refine ⟨fun v => ⟨?_, ?_⟩, fun failure h hreason => ?_⟩
  · rintro ⟨node, h, rfl⟩
    obtain ⟨w₁, t, w₂, rfl, hw₁, hspells, hw₂⟩ := parseJsonSource_spells.1 h
    exact ⟨⟨w₁, t, w₂, rfl, hw₁, hspells.derives, hw₂⟩, hspells.distinct⟩
  · rintro ⟨⟨w₁, t, w₂, rfl, hw₁, hderives, hw₂⟩, hdistinct⟩
    obtain ⟨p, hp, hspells⟩ := spells_of_derives hderives hdistinct w₁.length
    obtain ⟨node, rfl, rfl⟩ := Part.of_value hp
    exact ⟨node, parseJsonSource_spells.2 ⟨w₁, t, w₂, rfl, hw₁, hspells, hw₂⟩, rfl⟩
  · obtain ⟨offset, reason⟩ := failure
    dsimp only at hreason
    rw [hreason] at h
    exact parseJsonSource_ne_outOfFuel number source offset h

end Scripts

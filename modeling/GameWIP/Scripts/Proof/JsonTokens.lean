import Mathlib.Data.List.TakeWhile
import GameWIP.Scripts.JsonSource

/-!
# The tokens of the source-preserving parser

What the parser reads as a token is one of the grammar (`parseString_sound`, `matchNumber_sound`,
`parseLiteral_sound`), and a token of the grammar is read to its end (`parseString_token`,
`matchNumber_token`, `parseLiteral_token`). The regular expression takes as much as it can, so a
number needs that nothing behind it could belong to it (`Follows`).
-/

namespace Scripts

open Lib (Json)
open Lib.Json

/-- The parser went over `t`. -/
structure Cursor.Reads (c : Cursor) (t : Text) (next : Cursor) : Prop where
  rest : c.rest = t ++ next.rest
  offset : next.offset = c.offset + t.length

namespace Cursor.Reads

variable {c d e : Cursor} {t u : Text}

theorem append (h : c.Reads t d) (h' : d.Reads u e) : c.Reads (t ++ u) e where
  rest := by rw [h.rest, h'.rest, List.append_assoc]
  offset := by rw [h'.offset, h.offset, List.length_append, Nat.add_assoc]

/-- A cursor behind a text. -/
theorem of_append (o : Nat) (t rest : Text) : Cursor.Reads ⟨o, t ++ rest⟩ t ⟨o + t.length, rest⟩ :=
  ⟨rfl, rfl⟩

/-- What is left of the source gets shorter. -/
theorem length (h : c.Reads t d) : c.rest.length = t.length + d.rest.length := by
  rw [h.rest, List.length_append]

end Cursor.Reads

/-- Over the next character. -/
theorem reads_advance {c : Cursor} {a : Nat} (h : c.peek = some a) : c.Reads [a] (c.advance 1) := by
  obtain ⟨o, rest⟩ := c
  cases rest with
  | nil => cases h
  | cons b rest =>
    obtain rfl := Option.some.inj h
    exact ⟨rfl, rfl⟩

@[simp] theorem advance_append (o : Nat) (t rest : Text) :
    Cursor.advance ⟨o, t ++ rest⟩ t.length = ⟨o + t.length, rest⟩ := by
  simp [Cursor.advance]

@[simp] theorem advance_cons (o a : Nat) (rest : Text) :
    Cursor.advance ⟨o, a :: rest⟩ 1 = ⟨o + 1, rest⟩ := rfl

@[simp] theorem peek_cons (o a : Nat) (rest : Text) : Cursor.peek ⟨o, a :: rest⟩ = some a := rfl

/-! ## Whitespace -/

theorem skipWhitespace_reads (c : Cursor) :
    ∃ w, Whitespace w ∧ c.Reads w (skipWhitespace c) := by
  obtain ⟨rest, hrest⟩ := List.takeWhile_prefix (l := c.rest) isWhitespace
  refine ⟨c.rest.takeWhile isWhitespace, fun a ha => List.mem_takeWhile_imp ha, ?_, rfl⟩
  show c.rest = c.rest.takeWhile isWhitespace ++ c.rest.drop (c.rest.takeWhile isWhitespace).length
  rw [List.prefix_iff_eq_append.1 ⟨rest, hrest⟩]

/-- No whitespace comes next. -/
def NoSpace (rest : Text) : Prop := ∀ a ∈ rest.head?, isWhitespace a = false

theorem takeWhile_eq {p : Nat → Bool} {t rest : Text} (ht : ∀ a ∈ t, p a = true)
    (hrest : ∀ a ∈ rest.head?, p a = false) : (t ++ rest).takeWhile p = t := by
  rw [List.takeWhile_append_of_pos ht]
  cases rest with
  | nil => simp
  | cons a rest => simp [hrest a rfl]

theorem skipWhitespace_append {w rest : Text} (o : Nat) (hw : Whitespace w) (hrest : NoSpace rest) :
    skipWhitespace ⟨o, w ++ rest⟩ = ⟨o + w.length, rest⟩ := by
  unfold skipWhitespace
  rw [takeWhile_eq hw hrest, advance_append]

theorem noSpace_cons {a : Nat} {rest : Text} (h : isWhitespace a = false) : NoSpace (a :: rest) := by
  intro b hb
  rw [← Option.some.inj hb]
  exact h

/-! ## Strings -/

theorem scanString_reads {o : Nat} {t : Text} {next : Cursor} (h : scanString o t = .ok next) :
    ∃ raw, Cursor.Reads ⟨o, t⟩ (raw ++ [quote]) next := by
  fun_induction scanString o t with
  | case1 => cases h
  | case2 o rest =>
    obtain rfl := Except.ok.inj h
    exact ⟨[], rfl, rfl⟩
  | case3 => cases h
  | case4 o e rest _ ih =>
    obtain ⟨raw, hr⟩ := ih h
    exact ⟨backslash :: e :: raw, (Cursor.Reads.of_append o [backslash, e] rest).append hr⟩
  | case5 => cases h
  | case6 o c rest hquote hbackslash hcontrol ih =>
    obtain ⟨raw, hr⟩ := ih h
    exact ⟨c :: raw, (Cursor.Reads.of_append o [c] rest).append hr⟩

/-- A string that is read is a token of the grammar. -/
theorem parseString_sound {c next : Cursor} {node : StringNode} (hquote : c.peek = some quote)
    (h : parseString c = .ok (node, next)) :
    ∃ t, StringToken t node.value ∧ c.Reads t next ∧
      node = ⟨node.value, c.offset, c.offset + t.length⟩ := by
  have hreads := reads_advance hquote
  unfold parseString at h
  cases hscan : scanString (c.offset + 1) c.rest.tail with
  | error failure =>
    rw [hscan] at h
    cases h
  | ok scanned =>
    rw [hscan] at h
    dsimp only at h
    obtain ⟨raw, hraw⟩ := scanString_reads hscan
    have hall : c.Reads (quote :: raw ++ [quote]) scanned := by
      have hnext : c.advance 1 = ⟨c.offset + 1, c.rest.tail⟩ := by
        simp [Cursor.advance]
      rw [hnext] at hreads
      exact hreads.append hraw
    have htoken : c.rest.take (scanned.offset - c.offset) = quote :: raw ++ [quote] := by
      rw [hall.offset, hall.rest, Nat.add_sub_cancel_left, List.take_left']
      rfl
    rw [htoken] at h
    cases hdecode : decode (quote :: raw ++ [quote]) with
    | none =>
      rw [hdecode] at h
      cases h
    | some value =>
      rw [hdecode] at h
      cases h
      exact ⟨_, decode_iff.1 hdecode, hall, by rw [hall.offset]⟩

theorem hexDigit_plain {a n : Nat} (h : hexDigit a = some n) :
    a ≠ quote ∧ a ≠ backslash ∧ ¬ a < 0x20 := by
  have hrange : 0x30 ≤ a ∧ a ≤ 0x39 ∨ 0x61 ≤ a ∧ a ≤ 0x66 ∨ 0x41 ≤ a ∧ a ≤ 0x46 := by
    unfold hexDigit at h
    split_ifs at h with h1 h2 h3
    · exact .inl h1
    · exact .inr (.inl h2)
    · exact .inr (.inr h3)
  refine ⟨fun heq => ?_, fun heq => ?_, by omega⟩
  · rw [heq] at hrange
    revert hrange
    decide
  · rw [heq] at hrange
    revert hrange
    decide

theorem hex4_digits {a b c d u : Nat} (h : hex4 a b c d = some u) :
    ∀ x ∈ [a, b, c, d], ∃ n, hexDigit x = some n := by
  unfold hex4 at h
  split at h
  · rename_i ha hb hc hd
    simp [ha, hb, hc, hd]
  · cases h

theorem scanString_plain {o a : Nat} {rest : Text} (hquote : a ≠ quote) (hbackslash : a ≠ backslash)
    (hcontrol : ¬ a < 0x20) : scanString o (a :: rest) = scanString (o + 1) rest := by
  rw [scanString.eq_def]
  dsimp only
  rw [if_neg hquote, if_neg hbackslash, if_neg hcontrol]

theorem scanString_escaped {o a : Nat} {rest : Text} :
    scanString o (backslash :: a :: rest) = scanString (o + 2) rest := by
  rw [scanString.eq_def]
  dsimp only
  rw [if_neg (by decide), if_pos rfl]

theorem scanString_chars {raw value : Text} (h : Chars raw value) (o : Nat) (rest : Text) :
    scanString o (raw ++ quote :: rest) = .ok ⟨o + raw.length + 1, rest⟩ := by
  induction h generalizing o with
  | nil =>
    rw [List.nil_append, scanString.eq_def]
    dsimp only
    rw [if_pos rfl]
    rfl
  | @unescaped a raw value hcontrol hquote hbackslash _ ih =>
    rw [List.cons_append, scanString_plain hquote hbackslash (Nat.not_lt.2 hcontrol), ih,
      List.length_cons, Nat.add_right_comm o 1, Nat.add_assoc o]
  | @escaped a u raw value _ _ ih =>
    rw [List.cons_append, List.cons_append, scanString_escaped, ih, List.length_cons,
      List.length_cons, Nat.add_right_comm o 2, Nat.add_assoc o]
  | @unicode a b c d u raw value hhex _ ih =>
    have hplain : ∀ x ∈ [a, b, c, d], x ≠ quote ∧ x ≠ backslash ∧ ¬ x < 0x20 := fun x hx =>
      (hex4_digits hhex x hx).elim fun n hn => hexDigit_plain hn
    have ha := hplain a (by simp)
    have hb := hplain b (by simp)
    have hc := hplain c (by simp)
    have hd := hplain d (by simp)
    simp only [List.cons_append]
    rw [scanString_escaped, scanString_plain ha.1 ha.2.1 ha.2.2, scanString_plain hb.1 hb.2.1 hb.2.2,
      scanString_plain hc.1 hc.2.1 hc.2.2, scanString_plain hd.1 hd.2.1 hd.2.2, ih]
    congr 2
    simp only [List.length_cons]
    omega

/-- A token of the grammar is read to its end. -/
theorem parseString_token {t value : Text} (h : StringToken t value) (o : Nat) (rest : Text) :
    parseString ⟨o, t ++ rest⟩ = .ok (⟨value, o, o + t.length⟩, ⟨o + t.length, rest⟩) := by
  have hdecode := decode_iff.2 h
  obtain @⟨raw, value, hraw⟩ := h
  have hlength : (quote :: raw ++ [quote]).length = raw.length + 2 := by simp
  have hscan : scanString (o + 1) (quote :: raw ++ [quote] ++ rest).tail =
      .ok ⟨o + (quote :: raw ++ [quote]).length, rest⟩ := by
    have htail : (quote :: raw ++ [quote] ++ rest).tail = raw ++ quote :: rest := by simp
    rw [htail, scanString_chars hraw, hlength]
    congr 2
    omega
  unfold parseString
  dsimp only
  rw [hscan]
  dsimp only
  rw [Nat.add_sub_cancel_left, List.take_left' rfl, hdecode]

theorem stringToken_head {t value : Text} (h : StringToken t value) :
    ∃ u, t = quote :: u := by
  obtain ⟨hraw⟩ := h
  exact ⟨_, rfl⟩

/-! ## Numbers -/

theorem prefix_step {p q t : Text} (hp : p <+: t) (hq : q <+: t.drop p.length) : p ++ q <+: t := by
  obtain ⟨u, rfl⟩ := hp
  rw [List.drop_left] at hq
  obtain ⟨v, rfl⟩ := hq
  exact ⟨v, by rw [List.append_assoc]⟩

theorem matchSign_sound (t : Text) :
    (matchSign t = [] ∨ matchSign t = [minus]) ∧ matchSign t <+: t := by
  cases t with
  | nil => exact ⟨.inl rfl, List.nil_prefix⟩
  | cons a t =>
    rw [matchSign]
    split_ifs with h
    · exact ⟨.inr rfl, t, by rw [h]; rfl⟩
    · exact ⟨.inl rfl, List.nil_prefix⟩

theorem matchInt_sound {t int : Text} (h : matchInt t = some int) : IsInt int ∧ int <+: t := by
  cases t with
  | nil => cases h
  | cons a t =>
    rw [matchInt] at h
    split_ifs at h with hzero hdigit
    · obtain rfl := Option.some.inj h
      exact ⟨.zero, t, by rw [hzero]; rfl⟩
    · obtain rfl := Option.some.inj h
      obtain ⟨rest, hrest⟩ := List.takeWhile_prefix (l := t) isDigit
      refine ⟨.digits hdigit hzero fun b hb => List.mem_takeWhile_imp hb, rest, ?_⟩
      rw [List.cons_append, hrest]

theorem matchFrac_sound (t : Text) : IsFrac (matchFrac t) ∧ matchFrac t <+: t := by
  cases t with
  | nil => exact ⟨.none, List.nil_prefix⟩
  | cons a t =>
    rw [matchFrac]
    split_ifs with h
    · obtain ⟨rest, hrest⟩ := List.takeWhile_prefix (l := t) isDigit
      refine ⟨?_, rest, by rw [List.cons_append, hrest]⟩
      rw [h.1]
      exact .some ⟨h.2, fun b hb => List.mem_takeWhile_imp hb⟩
    · exact ⟨.none, List.nil_prefix⟩

theorem matchExpSign_sound (t : Text) :
    (matchExpSign t = [] ∨ matchExpSign t = [plus] ∨ matchExpSign t = [minus]) ∧
      matchExpSign t <+: t := by
  cases t with
  | nil => exact ⟨.inl rfl, List.nil_prefix⟩
  | cons a t =>
    rw [matchExpSign]
    split_ifs with h
    · refine ⟨.inr ?_, t, rfl⟩
      rcases h with rfl | rfl
      · exact .inl rfl
      · exact .inr rfl
    · exact ⟨.inl rfl, List.nil_prefix⟩

theorem matchExp_sound (t : Text) : IsExp (matchExp t) ∧ matchExp t <+: t := by
  cases t with
  | nil => exact ⟨.none, List.nil_prefix⟩
  | cons a t =>
    rw [matchExp]
    split_ifs with h
    · obtain ⟨hsign, hprefix⟩ := matchExpSign_sound t
      have hdigits := prefix_step hprefix (List.takeWhile_prefix isDigit)
      obtain ⟨rest, hrest⟩ := hdigits
      refine ⟨.some h.1 hsign ⟨h.2, fun b hb => List.mem_takeWhile_imp hb⟩, rest, ?_⟩
      rw [List.cons_append, List.cons_append, hrest]
    · exact ⟨.none, List.nil_prefix⟩

/-- What the regular expression matches is a number. -/
theorem matchNumber_sound {t token : Text} (h : matchNumber t = some token) :
    NumberToken token ∧ token <+: t := by
  unfold matchNumber at h
  dsimp only at h
  obtain ⟨int, hint, rfl⟩ := Option.map_eq_some_iff.1 h
  obtain ⟨hsign, hsignPrefix⟩ := matchSign_sound t
  obtain ⟨hint, hintPrefix⟩ := matchInt_sound hint
  have hpart := prefix_step hsignPrefix hintPrefix
  rw [List.drop_drop, ← List.length_append]
  obtain ⟨hfrac, hfracPrefix⟩ := matchFrac_sound (t.drop (matchSign t ++ int).length)
  have hmore := prefix_step hpart hfracPrefix
  rw [List.drop_drop, ← List.length_append]
  obtain ⟨hexp, hexpPrefix⟩ := matchExp_sound
    (t.drop (matchSign t ++ int ++ matchFrac (t.drop (matchSign t ++ int).length)).length)
  exact ⟨.mk hsign hint hfrac hexp, prefix_step hmore hexpPrefix⟩

/-- What may stand behind a value. -/
def Follows (rest : Text) : Prop :=
  ∀ a ∈ rest.head?, isWhitespace a = true ∨ a = comma ∨ a = closeBracket ∨ a = closeBrace

/-- Nothing of a number. -/
structure NoNumber (rest : Text) : Prop where
  digit : ∀ a ∈ rest.head?, isDigit a = false
  point : ∀ a ∈ rest.head?, a ≠ point
  exp : ∀ a ∈ rest.head?, ¬ (a = 0x65 ∨ a = 0x45)

theorem Follows.noNumber {rest : Text} (h : Follows rest) : NoNumber rest := by
  have hcases : ∀ a ∈ rest.head?, isDigit a = false ∧ a ≠ Lib.Json.point ∧ ¬ (a = 0x65 ∨ a = 0x45) := by
    intro a ha
    rcases h a ha with hspace | rfl | rfl | rfl
    · simp only [isWhitespace, Bool.or_eq_true, beq_iff_eq] at hspace
      rcases hspace with ((rfl | rfl) | rfl) | rfl <;> decide
    · decide
    · decide
    · decide
  exact ⟨fun a ha => (hcases a ha).1, fun a ha => (hcases a ha).2.1, fun a ha => (hcases a ha).2.2⟩

theorem isDigit_iff {a : Nat} : isDigit a = true ↔ 0x30 ≤ a ∧ a ≤ 0x39 := by
  simp [isDigit]

theorem isInt_head {int : Text} (h : IsInt int) :
    ∃ d ds, int = d :: ds ∧ isDigit d = true := by
  cases h with
  | zero => exact ⟨_, _, rfl, rfl⟩
  | digits hd => exact ⟨_, _, rfl, hd⟩

theorem matchSign_token {sign int rest : Text} (hsign : sign = [] ∨ sign = [minus])
    (hint : IsInt int) : matchSign (sign ++ (int ++ rest)) = sign := by
  obtain ⟨d, ds, rfl, hd⟩ := isInt_head hint
  rcases hsign with rfl | rfl
  · have hne : d ≠ minus := fun heq => by
      rw [heq] at hd
      cases hd
    simp [matchSign, hne]
  · rfl

theorem matchInt_token {int rest : Text} (hint : IsInt int)
    (hrest : ∀ a ∈ rest.head?, isDigit a = false) : matchInt (int ++ rest) = some int := by
  cases hint with
  | zero => rfl
  | @digits d ds hd hne hds =>
    rw [List.cons_append, matchInt, if_neg hne, if_pos hd, takeWhile_eq hds hrest]

theorem matchFrac_token {frac rest : Text} (hfrac : IsFrac frac)
    (hdigit : ∀ a ∈ rest.head?, isDigit a = false) (hpoint : frac = [] → ∀ a ∈ rest.head?, a ≠ point) :
    matchFrac (frac ++ rest) = frac := by
  cases hfrac with
  | none =>
    cases rest with
    | nil => rfl
    | cons a rest =>
      rw [List.nil_append, matchFrac, if_neg]
      exact fun h => hpoint rfl a rfl h.1
  | some hds =>
    rw [List.cons_append, matchFrac, takeWhile_eq hds.2 hdigit, if_pos ⟨rfl, hds.1⟩]

theorem matchExpSign_token {sign ds : Text} (rest : Text)
    (hsign : sign = [] ∨ sign = [plus] ∨ sign = [minus]) (hds : Digits ds) :
    matchExpSign (sign ++ (ds ++ rest)) = sign := by
  rcases hsign with rfl | rfl | rfl
  · obtain ⟨hne, hall⟩ := hds
    cases ds with
    | nil => exact absurd rfl hne
    | cons d ds =>
      have hd := isDigit_iff.1 (hall d List.mem_cons_self)
      have hnot : ¬ (d = plus ∨ d = minus) := fun h => by
        rcases h with rfl | rfl
        · revert hd
          decide
        · revert hd
          decide
      simp [matchExpSign, hnot]
  · rfl
  · rfl

theorem matchExp_token {exp rest : Text} (hexp : IsExp exp) (hrest : NoNumber rest) :
    matchExp (exp ++ rest) = exp := by
  cases hexp with
  | none =>
    cases rest with
    | nil => rfl
    | cons a rest =>
      rw [List.nil_append, matchExp, if_neg]
      exact fun h => hrest.exp a rfl h.1
  | @some e sign ds he hsign hds =>
    rw [List.cons_append, List.cons_append, matchExp, List.append_assoc, matchExpSign_token rest hsign hds, List.drop_left,
      takeWhile_eq hds.2 hrest.digit, if_pos ⟨he, hds.1⟩, List.cons_append]

/-- Behind the integer part of a number: its fraction or exponent, or what follows the number. -/
theorem noDigit_exp {exp rest : Text} (hexp : IsExp exp) (hrest : NoNumber rest) :
    (∀ a ∈ (exp ++ rest).head?, isDigit a = false) ∧ ∀ a ∈ (exp ++ rest).head?, a ≠ point := by
  cases hexp with
  | none => exact ⟨hrest.digit, hrest.point⟩
  | some he =>
    refine ⟨fun a ha => ?_, fun a ha => ?_⟩
    · obtain rfl := Option.some.inj ha
      rcases he with rfl | rfl <;> rfl
    · obtain rfl := Option.some.inj ha
      rcases he with rfl | rfl <;> decide

theorem noDigit_frac {frac tail : Text} (hfrac : IsFrac frac)
    (htail : ∀ a ∈ tail.head?, isDigit a = false) : ∀ a ∈ (frac ++ tail).head?, isDigit a = false := by
  cases hfrac with
  | none => exact htail
  | some =>
    intro a ha
    obtain rfl := Option.some.inj ha
    rfl

/-- A number of the grammar is matched to its end. -/
theorem matchNumber_token {token rest : Text} (h : NumberToken token) (hrest : Follows rest) :
    matchNumber (token ++ rest) = some token := by
  obtain @⟨sign, int, frac, exp, hsign, hint, hfrac, hexp⟩ := h
  have hplain := hrest.noNumber
  obtain ⟨hdigit, hpoint⟩ := noDigit_exp hexp hplain
  have hall : sign ++ int ++ frac ++ exp ++ rest = sign ++ (int ++ (frac ++ (exp ++ rest))) := by
    simp only [List.append_assoc]
  unfold matchNumber
  dsimp only
  rw [hall, matchSign_token hsign hint, List.drop_left, matchInt_token hint (noDigit_frac hfrac hdigit),
    Option.map_some, List.drop_left, matchFrac_token hfrac hdigit fun _ => hpoint, List.drop_left,
    matchExp_token hexp hplain]

theorem numberToken_head {token : Text} (h : NumberToken token) :
    ∃ a t, token = a :: t ∧ (a = minus ∨ isDigit a = true) := by
  obtain ⟨hsign, hint, -, -⟩ := h
  obtain ⟨d, ds, rfl, hd⟩ := isInt_head hint
  rcases hsign with rfl | rfl
  · exact ⟨d, _, rfl, .inr hd⟩
  · exact ⟨minus, _, rfl, .inl rfl⟩

/-! ## Values of one token -/

section
variable {ν : Type*} {number : Text → ν}

theorem parseNumber_sound {c next : Cursor} {node : Node ν}
    (h : parseNumber number c = .ok (node, next)) :
    ∃ t, NumberToken t ∧ c.Reads t next ∧
      node = .number (number t) c.offset (c.offset + t.length) := by
  unfold parseNumber at h
  cases hmatch : matchNumber c.rest with
  | none =>
    rw [hmatch] at h
    cases h
  | some token =>
    rw [hmatch] at h
    cases h
    obtain ⟨htoken, rest, hrest⟩ := matchNumber_sound hmatch
    refine ⟨token, htoken, ⟨?_, rfl⟩, rfl⟩
    show c.rest = token ++ c.rest.drop token.length
    rw [← hrest, List.drop_left]

theorem parseNumber_token {t rest : Text} (h : NumberToken t) (hrest : Follows rest) (o : Nat) :
    parseNumber number ⟨o, t ++ rest⟩ =
      .ok (.number (number t) o (o + t.length), ⟨o + t.length, rest⟩) := by
  unfold parseNumber
  dsimp only
  rw [matchNumber_token h hrest]
  dsimp only
  rw [advance_append]

theorem parseLiteral_sound {c next : Cursor} {token : Text} {make : Nat → Nat → Node ν}
    {node : Node ν} (h : parseLiteral c token make = .ok (node, next)) :
    c.Reads token next ∧ node = make c.offset (c.offset + token.length) := by
  unfold parseLiteral at h
  split_ifs at h with htake
  · cases h
    refine ⟨⟨?_, rfl⟩, rfl⟩
    have hsplit := List.take_append_drop token.length c.rest
    rw [htake] at hsplit
    exact hsplit.symm
  · cases h

theorem parseLiteral_token (token rest : Text) (make : Nat → Nat → Node ν) (o : Nat) :
    parseLiteral ⟨o, token ++ rest⟩ token make =
      .ok (make o (o + token.length), ⟨o + token.length, rest⟩) := by
  unfold parseLiteral
  dsimp only
  rw [List.take_left, if_pos rfl, advance_append]

end

end Scripts

import Mathlib.Data.List.Basic

/-!
# JSON texts

The values of JSON and its grammar over UTF-16 code units, without the offsets and the errors of
any parser. `Derives (.value v) t` says that the text `t` is a JSON value with the meaning `v`,
`JsonText source v` the same of a whole source with whitespace around the value. Members of an
object keep their order and may repeat a name; `KeysDistinct` excludes that.

What a number token means is a parameter.
-/

namespace Lib

namespace Json

/-- UTF-16 code units. -/
abbrev Text := List Nat

/-! ## Code units -/

abbrev quote : Nat := 0x22

abbrev plus : Nat := 0x2B

abbrev comma : Nat := 0x2C

abbrev minus : Nat := 0x2D

abbrev point : Nat := 0x2E

abbrev colon : Nat := 0x3A

abbrev openBracket : Nat := 0x5B

abbrev backslash : Nat := 0x5C

abbrev closeBracket : Nat := 0x5D

abbrev openBrace : Nat := 0x7B

abbrev closeBrace : Nat := 0x7D

/-- Space, tab, line feed and carriage return. -/
def isWhitespace (c : Nat) : Bool := c == 0x20 || c == 0x09 || c == 0x0A || c == 0x0D

def isDigit (c : Nat) : Bool := 0x30 ≤ c && c ≤ 0x39

def Whitespace (t : Text) : Prop := ∀ c ∈ t, isWhitespace c = true

def trueToken : Text := [0x74, 0x72, 0x75, 0x65]

def falseToken : Text := [0x66, 0x61, 0x6C, 0x73, 0x65]

def nullToken : Text := [0x6E, 0x75, 0x6C, 0x6C]

/-! ## Numbers -/

inductive IsInt : Text → Prop
  | zero : IsInt [0x30]
  | digits {d : Nat} {ds : Text} : isDigit d = true → d ≠ 0x30 → (∀ c ∈ ds, isDigit c = true) →
      IsInt (d :: ds)

/-- One digit or more. -/
def Digits (ds : Text) : Prop := ds ≠ [] ∧ ∀ c ∈ ds, isDigit c = true

inductive IsFrac : Text → Prop
  | none : IsFrac []
  | some {ds : Text} : Digits ds → IsFrac (point :: ds)

inductive IsExp : Text → Prop
  | none : IsExp []
  | some {e : Nat} {sign ds : Text} : e = 0x65 ∨ e = 0x45 → sign = [] ∨ sign = [plus] ∨ sign = [minus] →
      Digits ds → IsExp (e :: sign ++ ds)

inductive NumberToken : Text → Prop
  | mk {sign int frac exp : Text} : sign = [] ∨ sign = [minus] → IsInt int → IsFrac frac → IsExp exp →
      NumberToken (sign ++ int ++ frac ++ exp)

/-! ## Strings -/

/-- What a single character stands for behind a backslash. -/
def escape (c : Nat) : Option Nat :=
  if c = quote ∨ c = backslash ∨ c = 0x2F then some c
  else if c = 0x62 then some 0x08
  else if c = 0x66 then some 0x0C
  else if c = 0x6E then some 0x0A
  else if c = 0x72 then some 0x0D
  else if c = 0x74 then some 0x09
  else none

def hexDigit (c : Nat) : Option Nat :=
  if 0x30 ≤ c ∧ c ≤ 0x39 then some (c - 0x30)
  else if 0x61 ≤ c ∧ c ≤ 0x66 then some (c - 0x61 + 10)
  else if 0x41 ≤ c ∧ c ≤ 0x46 then some (c - 0x41 + 10)
  else none

/-- Four hexadecimal digits. -/
def hex4 (a b c d : Nat) : Option Nat :=
  match hexDigit a, hexDigit b, hexDigit c, hexDigit d with
  | some a, some b, some c, some d => some (((a * 16 + b) * 16 + c) * 16 + d)
  | _, _, _, _ => none

/-- `Chars raw value`: between quotes, `raw` stands for `value`. -/
inductive Chars : Text → Text → Prop
  | nil : Chars [] []
  | unescaped {c : Nat} {raw value : Text} : 0x20 ≤ c → c ≠ quote → c ≠ backslash → Chars raw value →
      Chars (c :: raw) (c :: value)
  | escaped {c u : Nat} {raw value : Text} : escape c = some u → Chars raw value →
      Chars (backslash :: c :: raw) (u :: value)
  | unicode {a b c d u : Nat} {raw value : Text} : hex4 a b c d = some u → Chars raw value →
      Chars (backslash :: 0x75 :: a :: b :: c :: d :: raw) (u :: value)

/-- A string token and the string it stands for. -/
inductive StringToken : Text → Text → Prop
  | mk {raw value : Text} : Chars raw value → StringToken (quote :: raw ++ [quote]) value

/-! ## Reading and writing strings -/

/-- The string in front of the closing quote, which ends the text. -/
def decodeChars : Text → Option Text
  | [] => none
  | c :: rest =>
    if c = quote then if rest = [] then some [] else none
    else if c = backslash then
      match rest with
      | [] => none
      | e :: rest =>
        if e = 0x75 then
          match rest with
          | a :: b :: c :: d :: rest =>
            (hex4 a b c d).bind fun u => (decodeChars rest).map fun value => u :: value
          | _ => none
        else (escape e).bind fun u => (decodeChars rest).map fun value => u :: value
    else if c < 0x20 then none
    else (decodeChars rest).map fun value => c :: value

/-- `JSON.parse` of a string token. -/
def decode : Text → Option Text
  | [] => none
  | c :: rest => if c = quote then decodeChars rest else none

def isHighSurrogate (c : Nat) : Bool := 0xD800 ≤ c && c ≤ 0xDBFF

def isLowSurrogate (c : Nat) : Bool := 0xDC00 ≤ c && c ≤ 0xDFFF

def hexUnit (n : Nat) : Nat := if n < 10 then 0x30 + n else 0x61 + (n - 10)

def unicodeEscape (c : Nat) : Text :=
  [backslash, 0x75, hexUnit (c / 0x1000 % 16), hexUnit (c / 0x100 % 16), hexUnit (c / 0x10 % 16),
    hexUnit (c % 16)]

/-- A code unit that is no surrogate. -/
def quoteUnit (c : Nat) : Text :=
  if c = 0x08 then [backslash, 0x62]
  else if c = 0x09 then [backslash, 0x74]
  else if c = 0x0A then [backslash, 0x6E]
  else if c = 0x0C then [backslash, 0x66]
  else if c = 0x0D then [backslash, 0x72]
  else if c = quote ∨ c = backslash then [backslash, c]
  else if c < 0x20 then unicodeEscape c
  else [c]

/-- Surrogates without a partner are escaped. -/
def stringifyChars : Text → Text
  | [] => []
  | c :: rest =>
    if isHighSurrogate c then
      match rest with
      | [] => unicodeEscape c
      | d :: behind =>
        if isLowSurrogate d then c :: d :: stringifyChars behind
        else unicodeEscape c ++ stringifyChars (d :: behind)
    else if isLowSurrogate c then unicodeEscape c ++ stringifyChars rest
    else quoteUnit c ++ stringifyChars rest

/-- `JSON.stringify` of a string. -/
def stringify (value : Text) : Text := quote :: stringifyChars value ++ [quote]

/-- Reading the characters of a string token is the grammar. -/
theorem decodeChars_iff {t value : Text} :
    decodeChars t = some value ↔ ∃ raw, t = raw ++ [quote] ∧ Chars raw value := by
  constructor
  · intro h
    fun_induction decodeChars t generalizing value with
    | case1 => cases h
    | case2 =>
      obtain rfl := Option.some.inj h
      exact ⟨[], rfl, .nil⟩
    | case3 => cases h
    | case4 => cases h
    | case5 hquote a b c d rest ih =>
      obtain ⟨u, hu, h⟩ := Option.bind_eq_some_iff.1 h
      obtain ⟨v, hv, rfl⟩ := Option.map_eq_some_iff.1 h
      obtain ⟨raw, rfl, hraw⟩ := ih hv
      exact ⟨_, rfl, .unicode hu hraw⟩
    | case6 => cases h
    | case7 hquote e rest he ih =>
      obtain ⟨u, hu, h⟩ := Option.bind_eq_some_iff.1 h
      obtain ⟨v, hv, rfl⟩ := Option.map_eq_some_iff.1 h
      obtain ⟨raw, rfl, hraw⟩ := ih hv
      exact ⟨_, rfl, .escaped hu hraw⟩
    | case8 => cases h
    | case9 c rest hquote hbackslash hcontrol ih =>
      obtain ⟨v, hv, rfl⟩ := Option.map_eq_some_iff.1 h
      obtain ⟨raw, rfl, hraw⟩ := ih hv
      exact ⟨_, rfl, .unescaped (Nat.le_of_not_lt hcontrol) hquote hbackslash hraw⟩
  · rintro ⟨raw, rfl, hraw⟩
    induction hraw with
    | nil => rfl
    | unescaped hcontrol hquote hbackslash _ ih =>
      rw [List.cons_append, decodeChars.eq_def]
      dsimp only
      rw [if_neg hquote, if_neg hbackslash, if_neg (Nat.not_lt.2 hcontrol), ih, Option.map_some]
    | escaped hescape _ ih =>
      rename_i c u raw value _
      have hc : c ≠ 0x75 := fun hc => by
        subst hc
        cases hescape
      rw [List.cons_append, List.cons_append, decodeChars.eq_def]
      dsimp only
      rw [if_neg (by decide), if_pos rfl, if_neg hc, hescape, Option.bind_some, ih, Option.map_some]
    | unicode hhex _ ih =>
      simp only [List.cons_append]
      rw [decodeChars.eq_def]
      dsimp only
      rw [if_neg (by decide), if_pos rfl, if_pos rfl, hhex, Option.bind_some, ih, Option.map_some]

theorem decode_iff {t value : Text} : decode t = some value ↔ StringToken t value := by
  constructor
  · intro h
    cases t with
    | nil => cases h
    | cons c rest =>
      rw [decode] at h
      split_ifs at h with hc
      obtain ⟨raw, rfl, hraw⟩ := decodeChars_iff.1 h
      rw [hc, ← List.cons_append]
      exact .mk hraw
  · rintro ⟨hraw⟩
    exact decodeChars_iff.2 ⟨_, rfl, hraw⟩

/-! ### Writing -/

theorem hexDigit_hexUnit {n : Nat} (h : n < 16) : hexDigit (hexUnit n) = some n := by
  unfold hexUnit hexDigit
  split_ifs <;> first | omega | (congr 1; omega)

theorem unicodeEscape_chars {c : Nat} {raw value : Text} (h : c < 0x10000) (hraw : Chars raw value) :
    Chars (unicodeEscape c ++ raw) (c :: value) := by
  refine .unicode ?_ hraw
  unfold hex4
  rw [hexDigit_hexUnit (Nat.mod_lt _ (by decide)), hexDigit_hexUnit (Nat.mod_lt _ (by decide)),
    hexDigit_hexUnit (Nat.mod_lt _ (by decide)), hexDigit_hexUnit (Nat.mod_lt _ (by decide))]
  refine congrArg some ?_
  omega

theorem quoteUnit_chars {c : Nat} {raw value : Text} (hraw : Chars raw value) :
    Chars (quoteUnit c ++ raw) (c :: value) := by
  unfold quoteUnit
  split_ifs with h1 h2 h3 h4 h5 h6 h7
  · exact .escaped (by rw [h1]; rfl) hraw
  · exact .escaped (by rw [h2]; rfl) hraw
  · exact .escaped (by rw [h3]; rfl) hraw
  · exact .escaped (by rw [h4]; rfl) hraw
  · exact .escaped (by rw [h5]; rfl) hraw
  · refine .escaped ?_ hraw
    rcases h6 with rfl | rfl <;> rfl
  · exact unicodeEscape_chars (by omega) hraw
  · rw [not_or] at h6
    exact .unescaped (Nat.le_of_not_lt h7) h6.1 h6.2 hraw

theorem stringifyChars_chars (value : Text) : Chars (stringifyChars value) value := by
  fun_induction stringifyChars value with
  | case1 => exact .nil
  | case2 c hhigh =>
    have hc : c < 0x10000 := by
      simp only [isHighSurrogate, Bool.and_eq_true, decide_eq_true_eq] at hhigh
      omega
    simpa using unicodeEscape_chars hc .nil
  | case3 c hhigh d behind hlow ih =>
    simp only [isHighSurrogate, isLowSurrogate, Bool.and_eq_true, decide_eq_true_eq] at hhigh hlow
    have hne : ∀ x, 0xD800 ≤ x → x ≠ quote ∧ x ≠ backslash := fun x hx =>
      ⟨fun h => absurd (h ▸ hx) (by decide), fun h => absurd (h ▸ hx) (by decide)⟩
    have hc := hne c hhigh.1
    have hd := hne d (by omega)
    exact .unescaped (by omega) hc.1 hc.2 (.unescaped (by omega) hd.1 hd.2 ih)
  | case4 c hhigh d behind hlow ih =>
    simp only [isHighSurrogate, Bool.and_eq_true, decide_eq_true_eq] at hhigh
    exact unicodeEscape_chars (by omega) ih
  | case5 c rest hhigh hlow ih =>
    simp only [isLowSurrogate, Bool.and_eq_true, decide_eq_true_eq] at hlow
    exact unicodeEscape_chars (by omega) ih
  | case6 c rest hhigh hlow ih => exact quoteUnit_chars ih

/-- What `JSON.stringify` writes is a token of the string, so `JSON.parse` gives the string back. -/
theorem stringify_token (value : Text) : StringToken (stringify value) value :=
  .mk (stringifyChars_chars value)

end Json

/-! ## Values -/

/-- A JSON value. `ν` is the type of numbers. -/
inductive Json (ν : Type*) where
  | null
  | boolean (value : Bool)
  | number (value : ν)
  | string (value : Json.Text)
  | array (items : List (Json ν))
  | object (members : List (Json.Text × Json ν))

namespace Json

variable {ν : Type*}

/-- No object in the value repeats a name. -/
inductive KeysDistinct : Json ν → Prop
  | null : KeysDistinct .null
  | boolean (value : Bool) : KeysDistinct (.boolean value)
  | number (value : ν) : KeysDistinct (.number value)
  | string (value : Text) : KeysDistinct (.string value)
  | array {items : List (Json ν)} : (∀ v ∈ items, KeysDistinct v) → KeysDistinct (.array items)
  | object {members : List (Text × Json ν)} : (members.map Prod.fst).Nodup →
      (∀ m ∈ members, KeysDistinct m.2) → KeysDistinct (.object members)

/-- What a part of a JSON text means: a value, the elements of an array or the members of an object,
of which there is one at least. -/
inductive Phrase (ν : Type*) where
  | value (v : Json ν)
  | elements (items : List (Json ν))
  | members (members : List (Text × Json ν))

/-- The grammar. -/
inductive Derives (number : Text → ν) : Phrase ν → Text → Prop
  | null : Derives number (.value .null) nullToken
  | true : Derives number (.value (.boolean true)) trueToken
  | false : Derives number (.value (.boolean false)) falseToken
  | number {t : Text} : NumberToken t → Derives number (.value (.number (number t))) t
  | string {t value : Text} : StringToken t value → Derives number (.value (.string value)) t
  | emptyArray {w : Text} : Whitespace w →
      Derives number (.value (.array [])) (openBracket :: w ++ [closeBracket])
  | array {items : List (Json ν)} {t : Text} : Derives number (.elements items) t →
      Derives number (.value (.array items)) (openBracket :: t ++ [closeBracket])
  | emptyObject {w : Text} : Whitespace w →
      Derives number (.value (.object [])) (openBrace :: w ++ [closeBrace])
  | object {members : List (Text × Json ν)} {t : Text} : Derives number (.members members) t →
      Derives number (.value (.object members)) (openBrace :: t ++ [closeBrace])
  | element {v : Json ν} {w₁ t w₂ : Text} : Whitespace w₁ → Derives number (.value v) t →
      Whitespace w₂ → Derives number (.elements [v]) (w₁ ++ t ++ w₂)
  | elements {v : Json ν} {items : List (Json ν)} {w₁ t w₂ rest : Text} : Whitespace w₁ →
      Derives number (.value v) t → Whitespace w₂ → Derives number (.elements items) rest →
      Derives number (.elements (v :: items)) (w₁ ++ t ++ w₂ ++ comma :: rest)
  | member {v : Json ν} {key : Text} {w₁ k w₂ w₃ t w₄ : Text} : Whitespace w₁ → StringToken k key →
      Whitespace w₂ → Whitespace w₃ → Derives number (.value v) t → Whitespace w₄ →
      Derives number (.members [(key, v)]) (w₁ ++ k ++ w₂ ++ colon :: (w₃ ++ t ++ w₄))
  | members {v : Json ν} {key : Text} {members : List (Text × Json ν)} {w₁ k w₂ w₃ t w₄ rest : Text} :
      Whitespace w₁ → StringToken k key → Whitespace w₂ → Whitespace w₃ →
      Derives number (.value v) t → Whitespace w₄ → Derives number (.members members) rest →
      Derives number (.members ((key, v) :: members))
        (w₁ ++ k ++ w₂ ++ colon :: (w₃ ++ t ++ w₄ ++ comma :: rest))

/-- A source that is one JSON value, with whitespace around it. -/
def JsonText (number : Text → ν) (source : Text) (v : Json ν) : Prop :=
  ∃ w₁ t w₂, source = w₁ ++ t ++ w₂ ∧ Whitespace w₁ ∧ Derives number (.value v) t ∧ Whitespace w₂

end Json

end Lib

import Mathlib.Data.List.Infix

/-!
# Prefix codes

A `PrefixCode σ β` encodes each valid symbol as a nonempty list of units and decodes the first
symbol of a list of units. Two equivalences say what the decoder does: it decodes `s` exactly from
the lists that start with the encoding of `s`, and it asks for more units exactly on the proper
prefixes of an encoding. The code is then prefix-free (`eq_of_prefix`), and a list of units is the
encoding of at most one list of symbols (`encodeAll_injective`).

`Split C b ss rest` cuts a list of units into its longest run of encodings and a rest from which
nothing decodes. Every list has such a cut (`exists_split`), the run is the longest prefix that is
a text (`Split.longest`), and the rest decides whether the list is a text (`Split.isText_iff`), a
text that breaks off inside an encoding (`Split.truncated_iff`), or neither.

`fitting` is the longest run of symbols whose encodings fit into a room (`fitting_longest`). The
prefixes of a text are ordered by the lengths of their encodings (`prefix_of_length_le`).
-/

namespace Lib

/-- What decoding the first symbol of a list of units gives. -/
inductive Decoding (σ : Type*) where
  | decoded (s : σ) (n : Nat)
  | incomplete
  | invalid

/-- A code of the symbols `s` with `valid s`, with the decoder of one symbol. -/
structure PrefixCode (σ β : Type*) where
  valid : σ → Prop
  encode : σ → List β
  decode : List β → Decoding σ
  encode_ne_nil : ∀ {s}, valid s → encode s ≠ []
  decoded_iff : ∀ {b s n},
    decode b = .decoded s n ↔ valid s ∧ n = (encode s).length ∧ encode s <+: b
  incomplete_iff : ∀ {b}, decode b = .incomplete ↔ ∃ s, valid s ∧ b <+: encode s ∧ b ≠ encode s

namespace PrefixCode

variable {σ β : Type*} (C : PrefixCode σ β)

/-- The encodings of a list of symbols, one after the other. -/
def encodeAll (ss : List σ) : List β := ss.flatMap C.encode

/-- Every symbol of the list is valid. -/
def Valid (ss : List σ) : Prop := ∀ s ∈ ss, C.valid s

/-- A list of units that is the encoding of valid symbols. -/
def IsText (b : List β) : Prop := ∃ ss, C.Valid ss ∧ b = C.encodeAll ss

/-- A text followed by a nonempty proper prefix of one more encoding. -/
def Truncated (b : List β) : Prop :=
  ∃ t p s, b = t ++ p ∧ C.IsText t ∧ p ≠ [] ∧ C.valid s ∧ p <+: C.encode s ∧ p ≠ C.encode s

@[simp] theorem encodeAll_nil : C.encodeAll [] = [] := rfl

@[simp] theorem encodeAll_cons (s : σ) (ss : List σ) :
    C.encodeAll (s :: ss) = C.encode s ++ C.encodeAll ss := rfl

@[simp] theorem encodeAll_append (ss ts : List σ) :
    C.encodeAll (ss ++ ts) = C.encodeAll ss ++ C.encodeAll ts := by
  simp [encodeAll]

theorem valid_nil : C.Valid [] := fun _ h => absurd h List.not_mem_nil

@[simp] theorem valid_cons {s : σ} {ss : List σ} :
    C.Valid (s :: ss) ↔ C.valid s ∧ C.Valid ss := by
  simp [Valid]

@[simp] theorem valid_append {ss ts : List σ} :
    C.Valid (ss ++ ts) ↔ C.Valid ss ∧ C.Valid ts := by
  simp only [Valid, List.mem_append]
  exact ⟨fun h => ⟨fun s hs => h s (.inl hs), fun s hs => h s (.inr hs)⟩,
    fun h s hs => hs.elim (h.1 s) (h.2 s)⟩

theorem isText_encodeAll {ss : List σ} (h : C.Valid ss) : C.IsText (C.encodeAll ss) :=
  ⟨ss, h, rfl⟩

theorem isText_nil : C.IsText [] := ⟨[], C.valid_nil, rfl⟩

variable {C}

theorem IsText.append {a b : List β} (ha : C.IsText a) (hb : C.IsText b) : C.IsText (a ++ b) := by
  obtain ⟨ss, hs, rfl⟩ := ha
  obtain ⟨ts, ht, rfl⟩ := hb
  exact ⟨ss ++ ts, C.valid_append.2 ⟨hs, ht⟩, by simp⟩

/-! ## Decoding -/

/-- Decoding a list that starts with an encoding. -/
theorem decode_append {s : σ} (h : C.valid s) (rest : List β) :
    C.decode (C.encode s ++ rest) = .decoded s (C.encode s).length :=
  C.decoded_iff.2 ⟨h, rfl, List.prefix_append _ _⟩

theorem encode_length_pos {s : σ} (h : C.valid s) : 0 < (C.encode s).length :=
  List.length_pos_iff.2 (C.encode_ne_nil h)

theorem length_le_encodeAll {ss : List σ} (h : C.Valid ss) :
    ss.length ≤ (C.encodeAll ss).length := by
  induction ss with
  | nil => simp
  | cons s ss ih =>
    obtain ⟨hs, hss⟩ := C.valid_cons.1 h
    have := encode_length_pos hs
    have := ih hss
    rw [encodeAll_cons, List.length_append, List.length_cons]
    omega

/-- **Prefix-freeness**: no encoding starts another one. -/
theorem eq_of_prefix {s t : σ} {b : List β} (hs : C.valid s) (ht : C.valid t)
    (h : C.encode s <+: b) (h' : C.encode t <+: b) : s = t := by
  have h1 := C.decoded_iff.2 ⟨hs, rfl, h⟩
  have h2 := C.decoded_iff.2 ⟨ht, rfl, h'⟩
  rw [h1] at h2
  exact (Decoding.decoded.inj h2).1

/-- Units that stop a text: nothing decodes from them. -/
def Stuck (C : PrefixCode σ β) (rest : List β) : Prop := ∀ s n, C.decode rest ≠ .decoded s n

theorem stuck_nil : C.Stuck [] := by
  intro s n h
  obtain ⟨hs, -, hp⟩ := C.decoded_iff.1 h
  exact C.encode_ne_nil hs (List.prefix_nil.1 hp)

/-- A text in front of units that stop it is no longer than the symbols before them. -/
theorem encodeAll_prefix_of_stuck {rest : List β} (hr : C.Stuck rest) :
    ∀ {ss ts : List σ}, C.Valid ss → C.Valid ts →
      C.encodeAll ts <+: C.encodeAll ss ++ rest → ts <+: ss
  | _, [], _, _, _ => List.nil_prefix
  | [], t :: ts, _, ht, h => by
    -- the first encoding of `ts` would decode from `rest`
    simp only [encodeAll_nil, List.nil_append, encodeAll_cons] at h
    have hp : C.encode t <+: rest := (List.prefix_append _ _).trans h
    exact absurd (C.decoded_iff.2 ⟨(C.valid_cons.1 ht).1, rfl, hp⟩) (hr t _)
  | s :: ss, t :: ts, hs, ht, h => by
    obtain ⟨hs1, hs2⟩ := C.valid_cons.1 hs
    obtain ⟨ht1, ht2⟩ := C.valid_cons.1 ht
    simp only [encodeAll_cons, List.append_assoc] at h
    obtain rfl : t = s :=
      eq_of_prefix ht1 hs1 ((List.prefix_append _ _).trans h) (List.prefix_append _ _)
    rw [List.prefix_append_right_inj] at h
    exact List.prefix_cons_inj t |>.2 (encodeAll_prefix_of_stuck hr hs2 ht2 h)

/-- **Unique decoding**: a text is the encoding of one list of symbols. -/
theorem encodeAll_injective {ss ts : List σ} (hs : C.Valid ss) (ht : C.Valid ts)
    (h : C.encodeAll ss = C.encodeAll ts) : ss = ts := by
  have h1 : ts <+: ss := encodeAll_prefix_of_stuck stuck_nil hs ht (by simp [h])
  have h2 : ss <+: ts := encodeAll_prefix_of_stuck stuck_nil ht hs (by simp [h])
  exact h2.eq_of_length_le h1.length_le

/-- A text that starts another text leaves a text. -/
theorem IsText.of_append {a b : List β} (ha : C.IsText a) (hab : C.IsText (a ++ b)) :
    C.IsText b := by
  obtain ⟨ss, hs, rfl⟩ := ha
  obtain ⟨ts, ht, h⟩ := hab
  have hp : ss <+: ts := encodeAll_prefix_of_stuck stuck_nil ht hs (by simp [← h])
  obtain ⟨us, rfl⟩ := hp
  rw [encodeAll_append] at h
  exact ⟨us, (C.valid_append.1 ht).2, List.append_cancel_left h⟩

/-! ## The longest text at the start of a list -/

/-- `b` is the encoding of `ss` followed by units that stop it. -/
structure Split (C : PrefixCode σ β) (b : List β) (ss : List σ) (rest : List β) : Prop where
  valid : C.Valid ss
  eq : b = C.encodeAll ss ++ rest
  stuck : C.Stuck rest

theorem exists_split (b : List β) : ∃ ss rest, Split C b ss rest := by
  induction hn : b.length using Nat.strongRecOn generalizing b with
  | _ n ih =>
    cases hd : C.decode b with
    | incomplete => exact ⟨[], b, C.valid_nil, rfl, fun s n h => by rw [hd] at h; cases h⟩
    | invalid => exact ⟨[], b, C.valid_nil, rfl, fun s n h => by rw [hd] at h; cases h⟩
    | decoded s k =>
      obtain ⟨hs, -, r, rfl⟩ := C.decoded_iff.1 hd
      have hlt : r.length < n := by
        have := encode_length_pos hs
        rw [List.length_append] at hn
        omega
      obtain ⟨ss, rest, hsp⟩ := ih r.length hlt r rfl
      exact ⟨s :: ss, rest, C.valid_cons.2 ⟨hs, hsp.valid⟩, by simp [← hsp.eq], hsp.stuck⟩

namespace Split

variable {b rest : List β} {ss : List σ}

theorem isText_take (h : Split C b ss rest) : C.IsText (b.take (C.encodeAll ss).length) := by
  rw [h.eq, List.take_left']
  · exact C.isText_encodeAll h.valid
  · rfl

/-- The encodings before the units that stop the text are the longest text at the start. -/
theorem longest (h : Split C b ss rest) {m : Nat} (hm : m ≤ b.length) (ht : C.IsText (b.take m)) :
    m ≤ (C.encodeAll ss).length := by
  obtain ⟨ts, hts, htk⟩ := ht
  have hp : C.encodeAll ts <+: C.encodeAll ss ++ rest := by
    rw [← htk, ← h.eq]
    exact List.take_prefix _ _
  obtain ⟨us, rfl⟩ := encodeAll_prefix_of_stuck h.stuck h.valid hts hp
  have hl := congrArg List.length htk
  rw [List.length_take_of_le hm] at hl
  rw [encodeAll_append, List.length_append]
  omega

theorem isText_iff (h : Split C b ss rest) : C.IsText b ↔ rest = [] := by
  constructor
  · rintro ⟨ts, hts, he⟩
    have hm : b.length ≤ (C.encodeAll ss).length :=
      h.longest (Nat.le_refl _) (by rw [List.take_length]; exact ⟨ts, hts, he⟩)
    rw [h.eq, List.length_append] at hm
    exact List.length_eq_zero_iff.1 (by omega)
  · rintro rfl
    exact ⟨ss, h.valid, by simpa using h.eq⟩

/-- The rest asks for more units exactly when the list breaks off inside an encoding. -/
theorem truncated_iff (h : Split C b ss rest) :
    C.Truncated b ↔ rest ≠ [] ∧ C.decode rest = .incomplete := by
  constructor
  · rintro ⟨t, p, s, he, ⟨ts, hts, rfl⟩, hp, hs, hps, hne⟩
    have hdp : C.decode p = .incomplete := C.incomplete_iff.2 ⟨s, hs, hps, hne⟩
    have hst : C.Stuck p := fun s' n' hd => by rw [hdp] at hd; cases hd
    -- both cuts stop at units from which nothing decodes, so they are the same
    have h1 : ts <+: ss := encodeAll_prefix_of_stuck h.stuck h.valid hts
      (by rw [← h.eq, he]; exact List.prefix_append _ _)
    have h2 : ss <+: ts := encodeAll_prefix_of_stuck hst hts h.valid
      (by rw [← he, h.eq]; exact List.prefix_append _ _)
    obtain rfl := h2.eq_of_length_le h1.length_le
    have hr : rest = p := List.append_cancel_left (h.eq.symm.trans he)
    rw [hr]
    exact ⟨hp, hdp⟩
  · rintro ⟨hne, hd⟩
    obtain ⟨s, hs, hp, hn⟩ := C.incomplete_iff.1 hd
    exact ⟨_, rest, s, h.eq, C.isText_encodeAll h.valid, hne, hs, hp, hn⟩

end Split

/-- The cut behind some of the symbols. -/
theorem Split.drop {b rest : List β} {ss ts : List σ} (h : Split C b (ts ++ ss) rest) :
    Split C (b.drop (C.encodeAll ts).length) ss rest where
  valid := (C.valid_append.1 h.valid).2
  eq := by rw [h.eq, encodeAll_append, List.append_assoc, List.drop_left]
  stuck := h.stuck

/-! ## The symbols that fit -/

/-- The longest run of symbols at the start whose encodings fit into the room. -/
def fitting (C : PrefixCode σ β) : Nat → List σ → List σ
  | _, [] => []
  | room, s :: ss =>
    if (C.encode s).length ≤ room then s :: C.fitting (room - (C.encode s).length) ss else []

theorem fitting_spec (C : PrefixCode σ β) (room : Nat) (ss : List σ) :
    C.fitting room ss <+: ss ∧ (C.encodeAll (C.fitting room ss)).length ≤ room := by
  induction ss generalizing room with
  | nil => simp [fitting]
  | cons s ss ih =>
    rw [fitting]
    split_ifs with hfit
    · obtain ⟨hstart, hroom⟩ := ih (room - (C.encode s).length)
      refine ⟨(List.prefix_cons_inj s).2 hstart, ?_⟩
      rw [encodeAll_cons, List.length_append]
      omega
    · exact ⟨List.nil_prefix, Nat.zero_le room⟩

/-- No longer run fits. -/
theorem fitting_longest {room : Nat} {ss ts : List σ} (hstart : ts <+: ss)
    (hroom : (C.encodeAll ts).length ≤ room) : ts <+: C.fitting room ss := by
  induction ss generalizing room ts with
  | nil => rwa [fitting]
  | cons s ss ih =>
    cases ts with
    | nil => exact List.nil_prefix
    | cons t ts =>
      obtain ⟨rfl, htail⟩ := List.cons_prefix_cons.1 hstart
      rw [encodeAll_cons, List.length_append] at hroom
      rw [fitting, if_pos (by omega)]
      exact (List.prefix_cons_inj t).2 (ih htail (by omega))

theorem fitting_eq_self {room : Nat} {ss : List σ} (h : (C.encodeAll ss).length ≤ room) :
    C.fitting room ss = ss :=
  (C.fitting_spec room ss).1.eq_of_length_le (fitting_longest (List.prefix_refl ss) h).length_le

/-- What stops the run is a symbol whose encoding does not fit into the room left. -/
theorem fitting_next {room : Nat} {ss : List σ} (h : C.fitting room ss ≠ ss) :
    ∃ s us, ss = C.fitting room ss ++ s :: us ∧
      room - (C.encodeAll (C.fitting room ss)).length < (C.encode s).length := by
  induction ss generalizing room with
  | nil => exact absurd rfl h
  | cons s ss ih =>
    rw [fitting] at h ⊢
    split_ifs at h ⊢ with hfit
    · obtain ⟨t, us, hss, hlt⟩ := ih fun heq => h (congrArg (s :: ·) heq)
      refine ⟨t, us, congrArg (s :: ·) hss, ?_⟩
      rw [encodeAll_cons, List.length_append]
      omega
    · exact ⟨s, ss, rfl, by simpa using hfit⟩

/-- Units that ask for more asked for more from the start. -/
theorem incomplete_of_append {b ext : List β} (h : C.decode (b ++ ext) = .incomplete) :
    C.decode b = .incomplete := by
  obtain ⟨s, hs, hp, hne⟩ := C.incomplete_iff.1 h
  refine C.incomplete_iff.2 ⟨s, hs, (List.prefix_append _ _).trans hp, ?_⟩
  rintro rfl
  exact hne ((List.prefix_append _ _).eq_of_length_le hp.length_le).symm

/-- Units that ask for more can be completed to the encoding of a symbol. -/
theorem exists_completion {b : List β} (h : C.decode b = .incomplete) :
    ∃ ext s n, C.decode (b ++ ext) = .decoded s n := by
  obtain ⟨s, hs, ⟨ext, he⟩, -⟩ := C.incomplete_iff.1 h
  exact ⟨ext, s, _, by rw [he]; simpa using decode_append hs []⟩

/-! ## Prefixes of a text -/

section Prefixes

variable {ss p q : List σ}

theorem length_encodeAll_le (h : p <+: q) : (C.encodeAll p).length ≤ (C.encodeAll q).length := by
  obtain ⟨r, rfl⟩ := h
  rw [encodeAll_append, List.length_append]
  exact Nat.le_add_right _ _

/-- The prefix with the shorter encoding comes first. -/
theorem prefix_of_length_le (hss : C.Valid ss) (hp : p <+: ss) (hq : q <+: ss)
    (hle : (C.encodeAll p).length ≤ (C.encodeAll q).length) : p <+: q := by
  rcases List.prefix_or_prefix_of_prefix hp hq with h | ⟨r, rfl⟩
  · exact h
  · have hr : C.Valid r := fun s hs => hss s (hp.subset (List.mem_append_right q hs))
    have hlength := length_le_encodeAll hr
    rw [encodeAll_append, List.length_append] at hle
    obtain rfl : r = [] := List.length_eq_zero_iff.1 (by omega)
    rw [List.append_nil]

theorem eq_of_length_eq (hss : C.Valid ss) (hp : p <+: ss) (hq : q <+: ss)
    (heq : (C.encodeAll p).length = (C.encodeAll q).length) : p = q :=
  (prefix_of_length_le hss hp hq (Nat.le_of_eq heq)).eq_of_length_le
    (prefix_of_length_le hss hq hp (Nat.le_of_eq heq.symm)).length_le

/-- The encodings of the prefixes grow. -/
theorem pairwise_lengths (hss : C.Valid ss) :
    (ss.inits.map fun p => (C.encodeAll p).length).Pairwise (· < ·) := by
  induction ss with
  | nil => simp
  | cons s ss ih =>
    obtain ⟨hs, hss⟩ := C.valid_cons.1 hss
    rw [List.inits_cons, List.map_cons, List.map_map, List.pairwise_cons]
    refine ⟨fun n hn => ?_, ?_⟩
    · obtain ⟨p, -, rfl⟩ := List.mem_map.1 hn
      have hpos := encode_length_pos hs
      simp only [Function.comp_apply, encodeAll_nil, encodeAll_cons, List.length_append,
        List.length_nil]
      omega
    · have hih := List.pairwise_map.1 (ih hss)
      refine List.pairwise_map.2 (hih.imp fun hlt => ?_)
      simp only [Function.comp_apply, encodeAll_cons, List.length_append]
      omega

end Prefixes

end PrefixCode

end Lib

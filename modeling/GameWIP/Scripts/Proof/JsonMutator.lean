import Mathlib.Data.List.Perm.Basic
import GameWIP.Scripts.JsonMutator
import GameWIP.Scripts.Proof.JsonEdits

/-!
# The mutator replaces what it is told to

A located target is a string of the tree that holds the expected value (`locate_spec`). Replacing the
last target first, each of them is where the tree says when its turn comes, so the output is the
source with all tokens replaced at once (`Spliced`) and means the value of the tree with the strings
replaced (`mutateProjectToolsSource_spec`). The order of the mutations does not matter
(`mutateProjectToolsSource_perm`).
-/

namespace Scripts

open Lib (Json)
open Lib.Json

variable {ν : Type} {number : Text → ν}

theorem bind_eq_ok {α β ε : Type} {x : Except ε α} {f : α → Except ε β} {b : β}
    (h : (x >>= f) = .ok b) : ∃ a, x = .ok a ∧ f a = .ok b := by
  cases x with
  | error e => cases h
  | ok a => exact ⟨a, rfl, h⟩

/-! ## Targets -/

theorem getProperty_strings {properties : List (StringNode × Node ν)} {name : Text} {node : Node ν}
    (h : getProperty properties name = some node) : node.strings ⊆ propertyStrings properties := by
  induction properties with
  | nil => cases h
  | cons p properties ih =>
    obtain ⟨key, value⟩ := p
    by_cases hkey : (key.value == name) = true
    · have hfind : getProperty ((key, value) :: properties) name = some value := by
        simp [getProperty, hkey]
      rw [hfind] at h
      obtain rfl := Option.some.inj h
      exact List.subset_append_left _ _
    · have hfind : getProperty ((key, value) :: properties) name = getProperty properties name := by
        simp [getProperty, hkey]
      rw [hfind] at h
      exact List.Subset.trans (ih h) (List.subset_append_right _ _)

theorem item_strings {items : List (Node ν)} {node : Node ν} (h : node ∈ items) :
    node.strings ⊆ itemStrings items := by
  induction items with
  | nil => cases h
  | cons item items ih =>
    rcases List.mem_cons.1 h with rfl | h
    · exact List.subset_append_left _ _
    · exact List.Subset.trans (ih h) (List.subset_append_right _ _)

theorem objectProperty_spec {node value : Node ν} {name : Text} {i : Nat}
    (h : objectProperty node name i = .ok value) :
    value.strings ⊆ node.strings ∧ ∀ j, objectProperty node name j = .ok value := by
  cases node with
  | object properties start stop =>
    unfold objectProperty at h ⊢
    dsimp only at h ⊢
    cases hget : getProperty properties name with
    | none =>
      rw [hget] at h
      cases h
    | some found =>
      rw [hget] at h
      obtain rfl := Except.ok.inj h
      exact ⟨getProperty_strings hget, fun _ => rfl⟩
  | _ => cases h

section
variable [BEq ν]

theorem selectItems_subset {entries : List (Text × Json ν)} {items selection : List (Node ν)}
    (h : selectItems entries items = .ok selection) : selection ⊆ items := by
  induction items generalizing selection with
  | nil =>
    obtain rfl := Except.ok.inj h
    exact List.Subset.refl _
  | cons candidate items ih =>
    rw [selectItems] at h
    obtain ⟨keep, -, h⟩ := bind_eq_ok h
    obtain ⟨rest, hrest, h⟩ := bind_eq_ok h
    obtain rfl := Except.ok.inj h
    split
    · exact List.cons_subset_cons _ (ih hrest)
    · exact List.Subset.trans (ih hrest) (List.subset_cons_self _ _)

theorem resolveSegment_spec {current next : Node ν} {segment : Json ν} {i : Nat}
    (h : resolveSegment current segment i = .ok next) :
    next.strings ⊆ current.strings ∧ ∀ j, resolveSegment current segment j = .ok next := by
  cases segment with
  | string name => exact objectProperty_spec h
  | object fields =>
    unfold resolveSegment at h ⊢
    dsimp only at h ⊢
    cases hmatch : field fields "match" with
    | none =>
      rw [hmatch] at h
      cases h
    | some selector =>
      rw [hmatch] at h
      cases selector with
      | object entries =>
        cases current with
        | array items start stop =>
          dsimp only at h ⊢
          obtain ⟨selection, hselection, h⟩ := bind_eq_ok h
          rw [hselection]
          match selection, hselection, h with
          | [item], hselection, h =>
            obtain rfl := Except.ok.inj h
            exact ⟨item_strings (selectItems_subset hselection List.mem_cons_self), fun _ => rfl⟩
        | _ => cases h
      | _ => cases h
  | _ => cases h

theorem resolvePath_spec {path : List (Json ν)} {current last : Node ν} {i : Nat}
    (h : resolvePath i current path = .ok last) :
    last.strings ⊆ current.strings ∧ ∀ j, resolvePath j current path = .ok last := by
  induction path generalizing current with
  | nil =>
    obtain rfl := Except.ok.inj h
    exact ⟨List.Subset.refl _, fun _ => rfl⟩
  | cons segment path ih =>
    rw [resolvePath] at h
    obtain ⟨next, hnext, h⟩ := bind_eq_ok h
    obtain ⟨hsubset, hindex⟩ := resolveSegment_spec hnext
    obtain ⟨hrest, hrestIndex⟩ := ih h
    refine ⟨List.Subset.trans hrest hsubset, fun j => ?_⟩
    rw [resolvePath, hindex j]
    exact hrestIndex j

theorem locate_eq_ok {root : Node ν} {m : Mutation ν} {i : Nat} {entry : Located ν} :
    locate root m i = .ok entry ↔ ∃ items a b tool,
      objectProperty root (ofString "tools") i = .ok (.array items a b) ∧
      items.filter (hasId m.toolId) = [tool] ∧ resolvePath i tool m.path = .ok (.string entry.target) ∧
      entry.target.value = m.expected ∧ entry = ⟨entry.target, m, i⟩ := by
  constructor
  · intro h
    unfold locate at h
    obtain ⟨tools, htools, h⟩ := bind_eq_ok h
    cases tools with
    | array items a b =>
      dsimp only at h
      split at h
      · rename_i tool hfilter
        obtain ⟨node, hnode, h⟩ := bind_eq_ok h
        cases node with
        | string target =>
          dsimp only at h
          split at h
          · obtain rfl := Except.ok.inj h
            exact ⟨items, a, b, tool, htools, hfilter, hnode, ‹_›, rfl⟩
          · cases h
        | _ => cases h
      · cases h
    | _ => cases h
  · rintro ⟨items, a, b, tool, htools, hfilter, hpath, hvalue, hentry⟩
    simp only [locate, htools, bind, Except.bind, hfilter, hpath, hvalue, if_true]
    rw [hentry]
    rfl

/-- What is located, at any index. -/
theorem locate_spec {root : Node ν} {m : Mutation ν} {i : Nat} {entry : Located ν}
    (h : locate root m i = .ok entry) :
    entry.target ∈ root.strings ∧ entry.target.value = m.expected ∧ entry.mutation = m ∧
      ∀ j, locate root m j = .ok ⟨entry.target, m, j⟩ := by
  obtain ⟨items, a, b, tool, htools, hfilter, hpath, hvalue, hentry⟩ := locate_eq_ok.1 h
  obtain ⟨htoolsStrings, htoolsIndex⟩ := objectProperty_spec htools
  obtain ⟨hpathStrings, hpathIndex⟩ := resolvePath_spec hpath
  have hmem : tool ∈ items.filter (hasId m.toolId) := by
    rw [hfilter]
    exact List.mem_cons_self
  refine ⟨?_, hvalue, congrArg Located.mutation hentry, fun j => ?_⟩
  · exact htoolsStrings (item_strings (List.mem_of_mem_filter hmem) (hpathStrings List.mem_cons_self))
  · exact locate_eq_ok.2 ⟨items, a, b, tool, htoolsIndex j, hfilter, hpathIndex j, hvalue, rfl⟩

end

/-! ## The output -/

/-- All targets are replaced in the text at once; the last one comes first in the list. -/
inductive Spliced : List (Located ν) → Text → Text → Prop
  | nil (t : Text) : Spliced [] t t
  | cons {entry : Located ν} {located : List (Located ν)} {a a' : Text} (u b : Text) :
      Spliced located a a' → entry.target.start = a.length → entry.target.stop = a.length + u.length →
      Spliced (entry :: located) (a ++ u ++ b) (a' ++ stringify entry.mutation.value ++ b)

/-- The targets stand in front of one another, the last one first. -/
def Descending (located : List (Located ν)) : Prop :=
  located.Pairwise fun e e' => e'.target.stop ≤ e.target.start

theorem splice_eq {a u b : Text} {entry : Located ν} (hstart : entry.target.start = a.length)
    (hstop : entry.target.stop = a.length + u.length) :
    splice (a ++ u ++ b) entry = a ++ stringify entry.mutation.value ++ b := by
  unfold splice
  rw [hstart, hstop, ← List.length_append, List.drop_left, List.append_assoc a u, List.take_left]

/-- The targets lie in the text. -/
def Within (located : List (Located ν)) (t : Text) : Prop :=
  ∀ e ∈ located, e.target.start ≤ e.target.stop ∧ e.target.stop ≤ t.length

theorem split_at (t : Text) {start stop : Nat} (h : start ≤ stop) (hstop : stop ≤ t.length) :
    ∃ a u b, t = a ++ u ++ b ∧ start = a.length ∧ stop = a.length + u.length := by
  refine ⟨t.take start, (t.drop start).take (stop - start), t.drop stop, ?_, ?_, ?_⟩
  · have hdrop : t.drop stop = (t.drop start).drop (stop - start) := by
      rw [List.drop_drop, Nat.add_sub_cancel' h]
    rw [hdrop, List.append_assoc, List.take_append_drop, List.take_append_drop]
  · rw [List.length_take_of_le (by omega)]
  · rw [List.length_take_of_le (by omega), List.length_take_of_le (by rw [List.length_drop]; omega)]
    omega

/-- Replacing one after the other, from the last one on, replaces all, whatever stands behind. -/
theorem spliced_foldl {located : List (Located ν)} {t : Text} (h : Within located t)
    (hdescending : Descending located) :
    ∃ t', Spliced located t t' ∧ ∀ c, located.foldl splice (t ++ c) = t' ++ c := by
  induction located generalizing t with
  | nil => exact ⟨t, .nil t, fun _ => rfl⟩
  | cons entry located ih =>
    have hentry := h entry List.mem_cons_self
    obtain ⟨hlast, hrest⟩ := List.pairwise_cons.1 hdescending
    obtain ⟨a, u, b, rfl, hstart, hstop⟩ := split_at t hentry.1 hentry.2
    have hwithin : Within located a := fun e he =>
      ⟨(h e (List.mem_cons_of_mem _ he)).1, hstart ▸ hlast e he⟩
    obtain ⟨a', hspliced, hfold⟩ := ih hwithin hrest
    refine ⟨_, .cons u b hspliced hstart hstop, fun c => ?_⟩
    rw [List.foldl_cons, List.append_assoc, splice_eq hstart hstop, List.append_assoc, hfold]
    simp only [List.append_assoc]

/-! ## What the output means -/

/-- The new strings, by the offsets of the targets. -/
def editsOf : List (Located ν) → Edits
  | [] => fun _ => none
  | entry :: located => (editsOf located).with entry.target.start entry.mutation.value

theorem editsOf_none {located : List (Located ν)} {i : Nat} (h : ∀ e ∈ located, i ≠ e.target.start) :
    editsOf located i = none := by
  induction located with
  | nil => rfl
  | cons entry located ih =>
    rw [editsOf, Edits.with_of_ne (h entry List.mem_cons_self)]
    exact ih fun e he => h e (List.mem_cons_of_mem _ he)

/-- The string that starts at an offset, if the targets start at different ones. -/
theorem editsOf_eq_some {located : List (Located ν)} {i : Nat} {v : Text}
    (h : (located.map fun e => e.target.start).Nodup) :
    editsOf located i = some v ↔ ∃ e ∈ located, e.target.start = i ∧ e.mutation.value = v := by
  induction located with
  | nil => simp [editsOf]
  | cons entry located ih =>
    obtain ⟨hnew, hrest⟩ := List.nodup_cons.1 h
    by_cases hi : i = entry.target.start
    · rw [editsOf, hi, Edits.with_self]
      constructor
      · intro hv
        exact ⟨entry, List.mem_cons_self, rfl, Option.some.inj hv⟩
      · rintro ⟨e, he, hstart, hv⟩
        rcases List.mem_cons.1 he with rfl | he
        · rw [hv]
        · exact absurd (List.mem_map.2 ⟨e, he, hstart⟩) hnew
    · rw [editsOf, Edits.with_of_ne hi, ih hrest]
      constructor
      · rintro ⟨e, he, heq⟩
        exact ⟨e, List.mem_cons_of_mem _ he, heq⟩
      · rintro ⟨e, he, hstart, hv⟩
        rcases List.mem_cons.1 he with rfl | he
        · exact absurd hstart.symm hi
        · exact ⟨e, he, hstart, hv⟩

theorem editsOf_perm {l l' : List (Located ν)} (h : (l.map fun e => e.target.start).Nodup)
    (hperm : l.Perm l') : editsOf l = editsOf l' := by
  funext i
  refine Option.ext fun v => ?_
  rw [editsOf_eq_some h, editsOf_eq_some ((hperm.map _).nodup_iff.1 h)]
  simp only [hperm.mem_iff]

/-- The output is read, as the tree with its strings replaced. -/
theorem parse_foldl {located : List (Located ν)} {source : Text} {root : Node ν}
    (h : parseJsonSource number source = .ok root) (hmem : ∀ e ∈ located, e.target ∈ root.strings)
    (hdescending : Descending located) : ∃ root',
      parseJsonSource number (located.foldl splice source) = .ok root' ∧
      root'.value = root.edited (editsOf located) := by
  induction located generalizing source root with
  | nil =>
    refine ⟨root, h, ?_⟩
    obtain ⟨w₁, t, w₂, -, -, hspells, -⟩ := parseJsonSource_spells.1 h
    exact (Phrase.value.inj hspells.edited_none).symm
  | cons entry located ih =>
    obtain ⟨hlast, hrest⟩ := List.pairwise_cons.1 hdescending
    have hlt : ∀ e ∈ located, e.target.start < entry.target.start := fun e he => by
      have := strings_lt h (hmem e (List.mem_cons_of_mem _ he))
      have := hlast e he
      omega
    obtain ⟨a, u, b, root', rfl, hstart, hstop, hnew, hbefore, hedited⟩ :=
      parseJsonSource_replace h (hmem entry List.mem_cons_self) entry.mutation.value
    obtain ⟨root'', hparse, hvalue⟩ := ih hnew
      (fun e he => hbefore _ (hmem e (List.mem_cons_of_mem _ he)) (hlt e he)) hrest
    refine ⟨root'', ?_, ?_⟩
    · rw [List.foldl_cons, splice_eq hstart hstop]
      exact hparse
    · rw [hvalue, editsOf]
      refine hedited _ fun i hi => editsOf_none fun e he => ?_
      have := hlt e he
      omega

/-! ## The ranges and their order -/

def Located.range (entry : Located ν) : Nat × Nat := (entry.target.start, entry.target.stop)

theorem checkRanges_eq_ok {located : List (Located ν)} {ranges : List (Nat × Nat)} :
    checkRanges ranges located = .ok () ↔
      (located.map Located.range).Nodup ∧ ∀ e ∈ located, e.range ∉ ranges := by
  induction located generalizing ranges with
  | nil => simp [checkRanges]
  | cons entry located ih =>
    by_cases hseen : entry.range ∈ ranges
    · refine iff_of_false (fun h => ?_) fun h => h.2 entry List.mem_cons_self hseen
      rw [checkRanges] at h
      rw [if_pos (show (entry.target.start, entry.target.stop) ∈ ranges from hseen)] at h
      cases h
    · rw [checkRanges]
      show (if entry.range ∈ ranges then _ else checkRanges (entry.range :: ranges) located) = _ ↔ _
      rw [if_neg hseen, ih, List.map_cons, List.nodup_cons]
      constructor
      · rintro ⟨hnodup, hall⟩
        refine ⟨⟨fun hmem => ?_, hnodup⟩, fun e he => ?_⟩
        · obtain ⟨e, he, heq⟩ := List.mem_map.1 hmem
          exact hall e he (heq ▸ List.mem_cons_self)
        · rcases List.mem_cons.1 he with rfl | he
          · exact hseen
          · exact fun hmem => hall e he (List.mem_cons_of_mem _ hmem)
      · rintro ⟨⟨hnew, hnodup⟩, hall⟩
        refine ⟨hnodup, fun e he hmem => ?_⟩
        rcases List.mem_cons.1 hmem with heq | hmem
        · exact hnew (List.mem_map.2 ⟨e, he, heq⟩)
        · exact hall e (List.mem_cons_of_mem _ he) hmem

theorem ordered_perm (located : List (Located ν)) : (ordered located).Perm located :=
  List.perm_insertionSort _ _

theorem ordered_sorted (located : List (Located ν)) :
    (ordered located).Pairwise fun e e' => e'.target.start ≤ e.target.start :=
  List.pairwise_insertionSort _ _

/-- Different strings of a tree, in their order, stand in front of one another. -/
theorem ordered_descending {source : Text} {root : Node ν} {located : List (Located ν)}
    (h : parseJsonSource number source = .ok root) (hmem : ∀ e ∈ located, e.target ∈ root.strings)
    (hranges : (located.map Located.range).Nodup) : Descending (ordered located) := by
  have hperm := ordered_perm located
  have hnodup : (ordered located).Pairwise fun e e' => e.range ≠ e'.range :=
    List.pairwise_map.1 ((hperm.map _).nodup_iff.2 hranges)
  refine ((ordered_sorted located).and hnodup).imp_of_mem fun he he' hboth => ?_
  obtain ⟨hle, hne⟩ := hboth
  rename_i e e'
  have he := hmem e (hperm.mem_iff.1 he)
  have he' := hmem e' (hperm.mem_iff.1 he')
  have hlt := strings_lt h he
  rcases strings_apart h he he' with heq | hstop | hstop
  · exact absurd (congrArg (fun s : StringNode => (s.start, s.stop)) heq) hne
  · omega
  · exact hstop

theorem starts_nodup {source : Text} {root : Node ν} {located : List (Located ν)}
    (h : parseJsonSource number source = .ok root) (hmem : ∀ e ∈ located, e.target ∈ root.strings)
    (hranges : (located.map Located.range).Nodup) :
    (located.map fun e => e.target.start).Nodup := by
  refine List.pairwise_map.2 ((List.pairwise_map.1 hranges).imp_of_mem fun he he' hne heq => ?_)
  rename_i e e'
  have hlt := strings_lt h (hmem e he)
  have hlt' := strings_lt h (hmem e' he')
  rcases strings_apart h (hmem e he) (hmem e' he') with hsame | hstop | hstop
  · exact hne (congrArg (fun s : StringNode => (s.start, s.stop)) hsame)
  · omega
  · omega

/-! ## A whole mutation -/

section
variable [BEq ν]

theorem locateAll_mem {root : Node ν} {mutations : List (Json ν)} {located : List (Located ν)} {i : Nat}
    (h : locateAll root i mutations = .ok located) :
    ∀ e ∈ located, e.target ∈ root.strings ∧ e.target.value = e.mutation.expected := by
  induction mutations generalizing i located with
  | nil =>
    obtain rfl := Except.ok.inj h
    exact fun e he => absurd he List.not_mem_nil
  | cons mutation mutations ih =>
    rw [locateAll] at h
    obtain ⟨entry, hentry, h⟩ := bind_eq_ok h
    obtain ⟨rest, hrest, h⟩ := bind_eq_ok h
    obtain rfl := Except.ok.inj h
    intro e he
    rcases List.mem_cons.1 he with rfl | he
    · obtain ⟨declared, -, hlocate⟩ := bind_eq_ok hentry
      obtain ⟨hmem, hvalue, hmutation, -⟩ := locate_spec hlocate
      exact ⟨hmem, by rw [hvalue, hmutation]⟩
    · exact ih hrest e he

theorem mapError_eq_ok {α ε ε' : Type} {f : ε → ε'} {x : Except ε α} {a : α}
    (h : x.mapError f = .ok a) : x = .ok a := by
  cases x with
  | error e => cases h
  | ok b => exact congrArg _ (Except.ok.inj h)

/-- The stages of a mutation that returns. -/
theorem mutateProjectToolsSource_eq_ok {source output : Text} {specification : Json ν} :
    mutateProjectToolsSource number source specification = .ok output ↔
      ∃ mutations root located verifiedRoot,
        specifiedMutations number specification = .ok mutations ∧
        parseJsonSource number source = .ok root ∧ locateAll root 0 mutations = .ok located ∧
        checkRanges [] located = .ok () ∧ output = (ordered located).foldl splice source ∧
        parseJsonSource number output = .ok verifiedRoot ∧ verifyAll verifiedRoot located = .ok () := by
  constructor
  · intro h
    unfold mutateProjectToolsSource at h
    obtain ⟨mutations, hmutations, h⟩ := bind_eq_ok h
    obtain ⟨root, hroot, h⟩ := bind_eq_ok h
    obtain ⟨located, hlocated, h⟩ := bind_eq_ok h
    obtain ⟨⟨⟩, hranges, h⟩ := bind_eq_ok h
    obtain ⟨verifiedRoot, hverified, h⟩ := bind_eq_ok h
    obtain ⟨⟨⟩, hall, h⟩ := bind_eq_ok h
    obtain rfl := Except.ok.inj h
    exact ⟨mutations, root, located, verifiedRoot, hmutations, mapError_eq_ok hroot, hlocated, hranges,
      rfl, mapError_eq_ok hverified, hall⟩
  · rintro ⟨mutations, root, located, verifiedRoot, hmutations, hroot, hlocated, hranges, rfl, hverified,
      hall⟩
    simp only [mutateProjectToolsSource, hmutations, hroot, hlocated, hranges, hverified, hall, bind,
      Except.bind, Except.mapError]
    rfl

/-- **The mutator replaces the targets and nothing else.** When a mutation returns, every target is a
string of the source that held its expected value, no two mutations share one, the output is the source
with the tokens of the targets replaced, and it is read as the source's value with exactly those strings
replaced. -/
theorem mutateProjectToolsSource_spec {source output : Text} {specification : Json ν}
    (h : mutateProjectToolsSource number source specification = .ok output) :
    ∃ mutations root located,
      specifiedMutations number specification = .ok mutations ∧
      parseJsonSource number source = .ok root ∧ locateAll root 0 mutations = .ok located ∧
      (∀ e ∈ located, e.target ∈ root.strings ∧ e.target.value = e.mutation.expected) ∧
      (located.map fun e => e.target.start).Nodup ∧ Spliced (ordered located) source output ∧
      ∃ root', parseJsonSource number output = .ok root' ∧
        root'.value = root.edited (editsOf located) := by
  obtain ⟨mutations, root, located, verifiedRoot, hmutations, hroot, hlocated, hranges, rfl, -, -⟩ :=
    mutateProjectToolsSource_eq_ok.1 h
  have hall := locateAll_mem hlocated
  have hmem : ∀ e ∈ located, e.target ∈ root.strings := fun e he => (hall e he).1
  have hnodup := (checkRanges_eq_ok.1 hranges).1
  have hdescending := ordered_descending hroot hmem hnodup
  have hperm := ordered_perm located
  have horderedMem : ∀ e ∈ ordered located, e.target ∈ root.strings := fun e he =>
    hmem e (hperm.mem_iff.1 he)
  have hstarts := starts_nodup hroot hmem hnodup
  have hwithin : Within (ordered located) source := fun e he => by
    have := strings_lt hroot (horderedMem e he)
    omega
  obtain ⟨root', hparse, hvalue⟩ := parse_foldl hroot horderedMem hdescending
  obtain ⟨output, hspliced, hfold⟩ := spliced_foldl hwithin hdescending
  have houtput := hfold []
  rw [List.append_nil, List.append_nil] at houtput
  refine ⟨mutations, root, located, hmutations, hroot, hlocated, hall, hstarts, houtput ▸ hspliced, root',
    hparse, ?_⟩
  rw [hvalue, editsOf_perm ((hperm.map _).nodup_iff.2 hstarts) hperm]

/-- `{"tools":[{"id":"a","v":"x","w":"y"}]}`. -/
def registry : Text :=
  ofString "\x7b\"tools\":[\x7b\"id\":\"a\",\"v\":\"x\",\"w\":\"y\"\x7d]\x7d"

def digitsValue (token : Text) : Nat := token.foldl (fun n c => 10 * n + (c - 0x30)) 0

/-- A mutation of one field of the tool of `registry`. -/
def registryMutation (name expected value : String) : Json Nat :=
  .object [(ofString "toolId", .string (ofString "a")), (ofString "path", .array [.string (ofString name)]),
    (ofString "expected", .string (ofString expected)), (ofString "value", .string (ofString value))]

def registrySpecification (mutations : List (Json Nat)) : Json Nat :=
  .object [(ofString "schemaVersion", .number 1), (ofString "mutations", .array mutations)]

theorem mutateProjectToolsSource_spec_registry :
    ∃ root, parseJsonSource digitsValue registry = .ok root ∧ ∃ root',
      parseJsonSource digitsValue
        (ofString "\x7b\"tools\":[\x7b\"id\":\"a\",\"v\":\"long\",\"w\":\"y\"\x7d]\x7d") = .ok root' := by
  have h : mutateProjectToolsSource digitsValue registry
      (registrySpecification [registryMutation "v" "x" "long"]) =
      .ok (ofString "\x7b\"tools\":[\x7b\"id\":\"a\",\"v\":\"long\",\"w\":\"y\"\x7d]\x7d") := by
    decide +kernel
  obtain ⟨_, root, _, _, hroot, _, _, _, _, root', hroot', _⟩ := mutateProjectToolsSource_spec h
  exact ⟨root, hroot, root', hroot'⟩

/-! ## The order of the mutations -/

omit [BEq ν] in
theorem declaredMutation_index {mutation : Json ν} {declared : Mutation ν} {i : Nat}
    (h : declaredMutation i mutation = .ok declared) (j : Nat) :
    declaredMutation j mutation = .ok declared := by
  cases mutation with
  | object fields =>
    unfold declaredMutation at h ⊢
    dsimp only at h ⊢
    split at h
    · split at h
      · exact h
      · cases h
    · cases h
  | _ => cases h

/-- An entry without its index. -/
def Located.edit (entry : Located ν) : StringNode × Mutation ν := (entry.target, entry.mutation)

/-- The mutation is located there, whatever its index. -/
def LocatesAt (root : Node ν) (mutation : Json ν) (edit : StringNode × Mutation ν) : Prop :=
  ∀ j, locateMutation root mutation j = .ok ⟨edit.1, edit.2, j⟩

theorem locateMutation_index {root : Node ν} {mutation : Json ν} {entry : Located ν} {i : Nat}
    (h : locateMutation root mutation i = .ok entry) : LocatesAt root mutation entry.edit := by
  obtain ⟨declared, hdeclared, hlocate⟩ := bind_eq_ok h
  obtain ⟨-, -, hmutation, hindex⟩ := locate_spec hlocate
  intro j
  rw [locateMutation, declaredMutation_index hdeclared j]
  show locate root declared j = .ok ⟨entry.target, entry.mutation, j⟩
  rw [hindex j, hmutation]

theorem locateAll_forall {root : Node ν} {mutations : List (Json ν)} {located : List (Located ν)}
    {i : Nat} (h : locateAll root i mutations = .ok located) :
    List.Forall₂ (LocatesAt root) mutations (located.map Located.edit) := by
  induction mutations generalizing i located with
  | nil =>
    obtain rfl := Except.ok.inj h
    exact .nil
  | cons mutation mutations ih =>
    rw [locateAll] at h
    obtain ⟨entry, hentry, h⟩ := bind_eq_ok h
    obtain ⟨rest, hrest, h⟩ := bind_eq_ok h
    obtain rfl := Except.ok.inj h
    exact .cons (locateMutation_index hentry) (ih hrest)

theorem locateAll_of_forall {root : Node ν} {mutations : List (Json ν)}
    {edits : List (StringNode × Mutation ν)} (h : List.Forall₂ (LocatesAt root) mutations edits)
    (i : Nat) :
    ∃ located, locateAll root i mutations = .ok located ∧ located.map Located.edit = edits := by
  induction h generalizing i with
  | nil => exact ⟨[], rfl, rfl⟩
  | @cons mutation edit mutations edits hmutation _ ih =>
    obtain ⟨rest, hrest, hedits⟩ := ih (i + 1)
    refine ⟨⟨edit.1, edit.2, i⟩ :: rest, ?_, congrArg (edit :: ·) hedits⟩
    rw [locateAll, hmutation i, hrest]
    rfl

omit [BEq ν] in
theorem foldl_splice_edits {l l' : List (Located ν)} (h : l.map Located.edit = l'.map Located.edit)
    (t : Text) : l.foldl splice t = l'.foldl splice t := by
  have hfold : ∀ (l : List (Located ν)) t, l.foldl splice t =
      (l.map Located.edit).foldl (fun t edit => splice t ⟨edit.1, edit.2, 0⟩) t := by
    intro l t
    rw [List.foldl_map]
    rfl
  rw [hfold, hfold, h]

omit [BEq ν] in
/-- Sorting forgets the order of entries that start at different offsets. -/
theorem ordered_edits {l l' : List (Located ν)} (hstarts : (l.map fun e => e.target.start).Nodup)
    (h : (l.map Located.edit).Perm (l'.map Located.edit)) :
    (ordered l).map Located.edit = (ordered l').map Located.edit := by
  have hstrict : ∀ l : List (Located ν), (l.map fun e => e.target.start).Nodup →
      ((ordered l).map Located.edit).Pairwise fun a b => b.1.start < a.1.start := by
    intro l hl
    have hnodup : (ordered l).Pairwise fun e e' => e.target.start ≠ e'.target.start :=
      List.pairwise_map.1 (((ordered_perm l).map _).nodup_iff.2 hl)
    refine List.pairwise_map.2 (((ordered_sorted l).and hnodup).imp fun hboth => ?_)
    exact Nat.lt_of_le_of_ne hboth.1 hboth.2.symm
  have hstarts' : (l'.map fun e => e.target.start).Nodup := by
    have hmap := (h.map fun edit => edit.1.start).nodup_iff.1 (by
      rw [List.map_map]
      exact hstarts)
    rw [List.map_map] at hmap
    exact hmap
  refine List.Perm.eq_of_pairwise (fun a b _ _ hab hba => absurd hab (Nat.lt_asymm hba))
    (hstrict l hstarts) (hstrict l' hstarts') ?_
  exact ((ordered_perm l).map _).trans (h.trans ((ordered_perm l').map _).symm)

theorem verifyAll_eq_ok {root : Node ν} {located : List (Located ν)} :
    verifyAll root located = .ok () ↔ ∀ edit ∈ located.map Located.edit,
      ∃ entry, locate root { edit.2 with expected := edit.2.value } 0 = .ok entry := by
  induction located with
  | nil => simp [verifyAll]
  | cons entry located ih =>
    rw [verifyAll, List.map_cons, List.forall_mem_cons, ← ih]
    constructor
    · intro h
      obtain ⟨found, hfound, h⟩ := bind_eq_ok h
      exact ⟨⟨_, (locate_spec hfound).2.2.2 0⟩, h⟩
    · rintro ⟨⟨found, hfound⟩, h⟩
      have hindex := (locate_spec hfound).2.2.2 entry.index
      show (locate root { entry.mutation with expected := entry.mutation.value } entry.index >>=
        fun _ => verifyAll root located) = _
      rw [h]
      simp only [Located.edit] at hindex
      rw [hindex]
      rfl

/-- **The order of the mutations does not matter.** When a mutation returns, so does one of the same
mutations in any other order, with the same output. -/
theorem mutateProjectToolsSource_perm {source output : Text} {specification specification' : Json ν}
    {mutations mutations' : List (Json ν)}
    (hspecified : specifiedMutations number specification = .ok mutations)
    (hspecified' : specifiedMutations number specification' = .ok mutations')
    (hperm : mutations.Perm mutations')
    (h : mutateProjectToolsSource number source specification = .ok output) :
    mutateProjectToolsSource number source specification' = .ok output := by
  obtain ⟨found, root, located, verifiedRoot, hfound, hroot, hlocated, hranges, rfl, hverified, hall⟩ :=
    mutateProjectToolsSource_eq_ok.1 h
  obtain rfl : mutations = found := Except.ok.inj (hspecified.symm.trans hfound)
  obtain ⟨edits, hedits, hsame⟩ := List.perm_comp_forall₂ hperm.symm (locateAll_forall hlocated)
  obtain ⟨located', hlocated', rfl⟩ := locateAll_of_forall hedits 0
  have hmem : ∀ e ∈ located, e.target ∈ root.strings := fun e he => (locateAll_mem hlocated e he).1
  have hnodup := (checkRanges_eq_ok.1 hranges).1
  have hordered := ordered_edits (starts_nodup hroot hmem hnodup) hsame.symm
  refine mutateProjectToolsSource_eq_ok.2 ⟨mutations', root, located', verifiedRoot, hspecified', hroot,
    hlocated', checkRanges_eq_ok.2 ⟨?_, fun e _ => List.not_mem_nil⟩, foldl_splice_edits hordered source,
    hverified, verifyAll_eq_ok.2 fun edit hedit => ?_⟩
  · have hmap := (hsame.map fun edit => (edit.1.start, edit.1.stop)).nodup_iff.2 (by
      rw [List.map_map]
      exact hnodup)
    rw [List.map_map] at hmap
    exact hmap
  · exact verifyAll_eq_ok.1 hall edit (hsame.mem_iff.1 hedit)

end

theorem specifiedMutations_registry (mutations : List (Json Nat)) :
    specifiedMutations digitsValue (registrySpecification mutations) = .ok mutations := by
  have hne : (ofString "mutations" == ofString "schemaVersion") = false := by decide +kernel
  simp [specifiedMutations, registrySpecification, field, List.lookup_cons, hne, digitsValue]

theorem mutateProjectToolsSource_perm_registry :
    mutateProjectToolsSource digitsValue registry
      (registrySpecification [registryMutation "w" "y" "z", registryMutation "v" "x" "long"]) =
      .ok (ofString "\x7b\"tools\":[\x7b\"id\":\"a\",\"v\":\"long\",\"w\":\"z\"\x7d]\x7d") :=
  mutateProjectToolsSource_perm
    (specifiedMutations_registry [registryMutation "v" "x" "long", registryMutation "w" "y" "z"])
    (specifiedMutations_registry _) (List.Perm.swap _ _ _) (by decide +kernel)

end Scripts

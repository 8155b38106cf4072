import GameWIP.Logger.Sources
import GameWIP.Unicode.Proof.Utf8

/-!
# The source registry answers as the definitions do

`prepareSources` accepts exactly the definitions and filters of `Accepted`. The sources it
prepares are then the definitions sorted by id, each with the state its filter gives it
(`preparedSources_eq_ok_iff`). Each entry of the direct table in use is the position of the source
it stands for (`Indexed`), which the loop that fills the table keeps (`fillLookup_indexed`), so a
lookup answers the one source with the id (`findSource_eq_some_iff`).
-/

namespace Logger

open Lib (SortedBy StrictTotal adjacentFind isMatching search sortBy)
open Unicode.Utf8 (IsText)

theorem idLess_iff {left right : UInt32} : idLess left right = true ↔ left.toNat < right.toNat := by
  simp [idLess, UInt32.lt_iff_toNat_lt]

theorem idOrder : StrictTotal idLess := by
  refine StrictTotal.of_rank (fun a b => ?_) fun a b => UInt32.toNat_inj.1
  rw [idLess]
  exact decide_eq_decide.2 UInt32.lt_iff_toNat_lt

/-- The sources are in the order of their ids, each id once. -/
abbrev InOrder (sources : List RegisteredSource) : Prop := SortedBy idLess (·.id) sources

/-! ## The definitions -/

theorem definitionStatus_eq_none_iff {definition : SourceDefinition} :
    definitionStatus definition = none ↔ definition.name ≠ [] ∧ IsText definition.name := by
  rw [Unicode.Utf8.isText_iff, ← Unicode.Utf8.validate_valid_iff]
  unfold definitionStatus
  by_cases hname : definition.name = []
  · simp [hname]
  · by_cases hvalid : (Unicode.Utf8.validate definition.name).outcome = .valid <;>
      simp [hname, hvalid]

/-- The source a definition registers. -/
def registered (definition : SourceDefinition) : RegisteredSource :=
  { id := definition.id, name := definition.name, enabled := true }

theorem copyDefinitions_eq_ok_iff {definitions : List SourceDefinition}
    {sources : List RegisteredSource} :
    copyDefinitions definitions = .ok sources ↔
      (∀ d ∈ definitions, d.name ≠ [] ∧ IsText d.name) ∧ sources = definitions.map registered := by
  induction definitions generalizing sources with
  | nil => simp [copyDefinitions, eq_comm]
  | cons definition rest ih =>
    rw [List.forall_mem_cons, ← definitionStatus_eq_none_iff, copyDefinitions]
    cases hstatus : definitionStatus definition with
    | some status => simp
    | none =>
      cases hrest : copyDefinitions rest with
    | error status =>
      have hinvalid : ¬ ∀ d ∈ rest, d.name ≠ [] ∧ IsText d.name := by
        intro hvalid
        rw [ih.2 ⟨hvalid, rfl⟩] at hrest
        cases hrest
      simp [Except.map, hinvalid]
    | ok copied =>
      obtain ⟨hvalid, rfl⟩ := ih.1 hrest
      simp only [Except.map, Except.ok.injEq, List.map_cons, registered, true_and]
      exact ⟨fun h => ⟨hvalid, h.symm⟩, fun h => h.2.symm⟩

/-! ## The filters -/

/-- What one filter does to a source. -/
def configure (source : RegisteredSource) (filter : SourceFilter) : RegisteredSource :=
  if source.id = filter.source then { source with enabled := filter.enabled } else source

/-- The state the filters give a source at first. -/
def initiallyEnabled (filters : List SourceFilter) (source : UInt32) : Bool :=
  ((filters.find? fun f => f.source = source).map (·.enabled)).getD true

@[simp] theorem configure_id (source : RegisteredSource) (filter : SourceFilter) :
    (configure source filter).id = source.id := by
  unfold configure
  split <;> rfl

@[simp] theorem foldl_configure_id (filters : List SourceFilter) (source : RegisteredSource) :
    (filters.foldl configure source).id = source.id := by
  induction filters generalizing source with
  | nil => rfl
  | cons filter rest ih => rw [List.foldl_cons, ih, configure_id]

/-- Where each source has one filter at most, the filters give it the state of its own. -/
theorem foldl_configure {filters : List SourceFilter} (h : (filters.map (·.source)).Nodup)
    (source : RegisteredSource) :
    filters.foldl configure source = { source with
      enabled := ((filters.find? fun f => f.source = source.id).map (·.enabled)).getD
        source.enabled } := by
  induction filters generalizing source with
  | nil => rfl
  | cons filter rest ih =>
    obtain ⟨hnot, hrest⟩ := List.nodup_cons.1 (List.map_cons ▸ h)
    rw [List.foldl_cons, ih hrest, List.find?_cons, configure_id]
    by_cases hid : filter.source = source.id
    · have hnone : (rest.find? fun f => f.source = source.id) = none := by
        rw [List.find?_eq_none]
        intro f hf
        have hne : f.source ≠ filter.source := fun heq => hnot (List.mem_map.2 ⟨f, hf, heq⟩)
        simpa [hid] using hne
      simp [configure, hnone, hid]
    · have hne : source.id ≠ filter.source := Ne.symm hid
      simp [configure, hid, hne]

theorem InOrder.map {sources : List RegisteredSource} {f : RegisteredSource → RegisteredSource}
    (h : InOrder sources) (hf : ∀ s, (f s).id = s.id) : InOrder (sources.map f) := by
  refine List.pairwise_map.2 (List.Pairwise.imp (fun hab => ?_) h)
  simpa only [hf] using hab

theorem applyFilters_eq_ok_iff {filters : List SourceFilter} {sources result : List RegisteredSource}
    (h : InOrder sources) :
    applyFilters filters sources = .ok result ↔
      (∀ f ∈ filters, ∃ s ∈ sources, s.id = f.source) ∧
        result = sources.map (filters.foldl configure) := by
  induction filters generalizing sources with
  | nil => simp [applyFilters, eq_comm]
  | cons filter rest ih =>
    rw [List.forall_mem_cons, ← SortedBy.isMatching_search idOrder h filter.source, applyFilters]
    by_cases hfound : isMatching (·.id) sources (search idLess (·.id) sources filter.source)
        filter.source = true
    · have hstep : (sources.map (configure · filter)) = sources.modify
          (search idLess (·.id) sources filter.source)
          fun s => { s with enabled := filter.enabled } :=
        (SortedBy.modify_search idOrder h _ hfound).symm
      have hsame : InOrder (sources.map (configure · filter)) := h.map fun s => configure_id s filter
      rw [if_pos hfound, ← hstep, ih hsame]
      simp [hfound, Function.comp_def]
    · rw [if_neg hfound]
      simp [hfound]

/-! ## Preparation -/

/-- What `prepareSources` asks of its definitions and filters. -/
structure Accepted (definitions : List SourceDefinition) (filters : List SourceFilter) :
    Prop where
  names : ∀ d ∈ definitions, d.name ≠ [] ∧ IsText d.name
  ids : (definitions.map (·.id)).Nodup
  known : ∀ f ∈ filters, ∃ d ∈ definitions, d.id = f.source
  once : (filters.map (·.source)).Nodup

/-- The source prepared for a definition. -/
def prepared (filters : List SourceFilter) (definition : SourceDefinition) : RegisteredSource :=
  { id := definition.id, name := definition.name,
    enabled := initiallyEnabled filters definition.id }

/-- No two sorted sources are found to have one id exactly when the ids are distinct. -/
theorem duplicateSource_iff (definitions : List SourceDefinition) :
    adjacentFind (fun left right => decide (left.id = right.id))
      (sortBy idLess (·.id) (definitions.map registered)) = [] ↔
        (definitions.map (·.id)).Nodup := by
  have hids : (definitions.map registered).map (·.id) = definitions.map (·.id) := by
    rw [List.map_map]
    rfl
  rw [← hids]
  exact Lib.adjacentFind_sortBy_iff idOrder

/-- No two sorted filters are found to have one source exactly when the sources are distinct. -/
theorem duplicateFilter_iff (filteredSources : List UInt32) :
    adjacentFind (fun left right => decide (left = right)) (sortBy idLess id filteredSources) = [] ↔
      filteredSources.Nodup := by
  have hfilters : adjacentFind (fun left right => decide (id left = id right))
      (sortBy idLess id filteredSources) = [] ↔ (filteredSources.map id).Nodup :=
    Lib.adjacentFind_sortBy_iff idOrder
  rwa [List.map_id] at hfilters

theorem preparedSources_eq_ok_iff {definitions : List SourceDefinition}
    {filters : List SourceFilter} {sources : List RegisteredSource} :
    preparedSources definitions filters = .ok sources ↔
      Accepted definitions filters ∧
        sources = (sortBy idLess (·.id) (definitions.map registered)).map
          (filters.foldl configure) := by
  unfold preparedSources
  cases hcopy : copyDefinitions definitions with
  | error status =>
    refine iff_of_false (by simp) fun h => ?_
    rw [copyDefinitions_eq_ok_iff.2 ⟨h.1.names, rfl⟩] at hcopy
    cases hcopy
  | ok copied =>
    obtain ⟨hnames, rfl⟩ := copyDefinitions_eq_ok_iff.1 hcopy
    have hids := duplicateSource_iff definitions
    dsimp only
    by_cases hdistinct : (definitions.map (·.id)).Nodup
    swap
    · rw [if_pos fun h => hdistinct (hids.1 h)]
      exact iff_of_false (by simp) fun h => hdistinct h.1.ids
    rw [if_neg (not_not_intro (hids.2 hdistinct))]
    have horder : InOrder (sortBy idLess (·.id) (definitions.map registered)) :=
      Lib.sortBy_sorted idOrder (hids.2 hdistinct)
    have hknown : (∀ f ∈ filters, ∃ s ∈ sortBy idLess (·.id) (definitions.map registered),
        s.id = f.source) ↔ ∀ f ∈ filters, ∃ d ∈ definitions, d.id = f.source := by
      simp [registered]
    cases hfilters : applyFilters filters (sortBy idLess (·.id) (definitions.map registered)) with
    | error status =>
      refine iff_of_false (by simp) fun h => ?_
      rw [(applyFilters_eq_ok_iff horder).2 ⟨hknown.2 h.1.known, rfl⟩] at hfilters
      cases hfilters
    | ok filtered =>
      obtain ⟨hall, rfl⟩ := (applyFilters_eq_ok_iff horder).1 hfilters
      have honce := duplicateFilter_iff (filters.map (·.source))
      dsimp only
      by_cases hunique : (filters.map (·.source)).Nodup
      · rw [if_neg (not_not_intro (honce.2 hunique))]
        have haccepted : Accepted definitions filters := ⟨hnames, hdistinct, hknown.1 hall, hunique⟩
        simp [haccepted, eq_comm]
      · rw [if_pos fun h => hunique (honce.1 h)]
        exact iff_of_false (by simp) fun h => hunique h.1.once

/-- The sources prepared are in the order of their ids. -/
theorem sources_inOrder {definitions : List SourceDefinition} {filters : List SourceFilter}
    (h : Accepted definitions filters) :
    InOrder ((sortBy idLess (·.id) (definitions.map registered)).map
      (filters.foldl configure)) := by
  have horder : InOrder (sortBy idLess (·.id) (definitions.map registered)) :=
    Lib.sortBy_sorted idOrder ((duplicateSource_iff definitions).2 h.ids)
  exact InOrder.map horder (foldl_configure_id filters)

/-- They are the definitions with their first states. -/
theorem mem_sources {definitions : List SourceDefinition} {filters : List SourceFilter}
    (h : Accepted definitions filters) {source : RegisteredSource} :
    source ∈ (sortBy idLess (·.id) (definitions.map registered)).map (filters.foldl configure) ↔
      ∃ d ∈ definitions, prepared filters d = source := by
  have hmap : ∀ d, filters.foldl configure (registered d) = prepared filters d :=
    fun d => foldl_configure h.once (registered d)
  simp [hmap]

/-! ## The direct table -/

/-- Each entry of the table that is in use is the position of the source it stands for. -/
def Indexed (base : UInt32) (sources : List RegisteredSource) (lookup : List Nat) : Prop :=
  ∀ offset index, lookup[offset]? = some index → index ≠ kInvalidSourceIndex →
    ∃ s, sources[index]? = some s ∧ (s.id - base).toNat = offset

theorem Indexed.set {base : UInt32} {sources : List RegisteredSource} {lookup : List Nat}
    (h : Indexed base sources lookup) {index : Nat} {s : RegisteredSource}
    (hs : sources[index]? = some s) :
    Indexed base sources (lookup.set (s.id - base).toNat index) := by
  intro offset i hat hvalid
  rw [List.getElem?_set] at hat
  by_cases hoffset : (s.id - base).toNat = offset
  · rw [if_pos hoffset] at hat
    split at hat
    · cases hat
      exact ⟨s, hs, hoffset⟩
    · cases hat
  · rw [if_neg hoffset] at hat
    exact h offset i hat hvalid

theorem fillLookup_indexed {base : UInt32} {sources : List RegisteredSource}
    {rest : List RegisteredSource} {index : Nat} {lookup : List Nat}
    (hrest : sources.drop index = rest) (h : Indexed base sources lookup) :
    Indexed base sources (fillLookup base rest index lookup) := by
  induction rest generalizing index lookup with
  | nil => exact h
  | cons s rest ih =>
    have hs : sources[index]? = some s := by
      rw [← List.head?_drop, hrest, List.head?_cons]
    have htail : sources.drop (index + 1) = rest := by
      rw [← List.tail_drop, hrest, List.tail_cons]
    exact ih htail (h.set hs)

@[simp] theorem fillLookup_length (base : UInt32) (rest : List RegisteredSource) (index : Nat)
    (lookup : List Nat) : (fillLookup base rest index lookup).length = lookup.length := by
  induction rest generalizing index lookup with
  | nil => rfl
  | cons s rest ih => rw [fillLookup, ih, List.length_set]

theorem InOrder.front_le {sources : List RegisteredSource} (h : InOrder sources)
    {front s : RegisteredSource} (hfront : sources.head? = some front) (hs : s ∈ sources) :
    front.id.toNat ≤ s.id.toNat := by
  obtain ⟨rest, rfl⟩ := List.head?_eq_some_iff.1 hfront
  rcases List.mem_cons.1 hs with rfl | hs
  · exact Nat.le_refl _
  · exact Nat.le_of_lt (idLess_iff.1 ((List.pairwise_cons.1 h).1 s hs))

theorem InOrder.le_back {sources : List RegisteredSource} (h : InOrder sources)
    {back s : RegisteredSource} (hback : sources.getLast? = some back) (hs : s ∈ sources) :
    s.id.toNat ≤ back.id.toNat := by
  obtain ⟨rest, rfl⟩ := List.getLast?_eq_some_iff.1 hback
  rcases List.mem_append.1 hs with hs | hs
  · exact Nat.le_of_lt (idLess_iff.1 ((List.pairwise_append.1 h).2.2 s hs back (by simp)))
  · rw [List.mem_singleton.1 hs]

/-- The span is counted in 64 bits, where it does not wrap. -/
theorem span_toNat {front back : UInt32} (h : front.toNat ≤ back.toNat) :
    (back.toUInt64 - front.toUInt64 + 1).toNat = back.toNat - front.toNat + 1 := by
  have hle : front.toUInt64 ≤ back.toUInt64 := by
    rw [UInt64.le_iff_toNat_le]
    simpa using h
  have hlt := back.toNat_lt
  rw [UInt64.toNat_add, UInt64.toNat_sub_of_le _ _ hle]
  simp
  omega

/-- What the registry is after the table has been rebuilt. -/
structure Rebuilt (sources : List RegisteredSource) (registry : SourceRegistry) : Prop where
  sources_eq : registry.sources = sources
  indexed : Indexed registry.directSourceBase sources registry.directSourceLookup
  inside : registry.directSourceLookup ≠ [] →
    ∀ s ∈ sources, (s.id - registry.directSourceBase).toNat < registry.directSourceLookup.length

theorem Rebuilt.without (sources : List RegisteredSource) : Rebuilt sources { sources } where
  sources_eq := rfl
  indexed := by
    intro offset index hat
    cases hat
  inside h := absurd rfl h

theorem rebuildSourceLookup_rebuilt {sources : List RegisteredSource} (h : InOrder sources) :
    Rebuilt sources (rebuildSourceLookup { sources }) := by
  unfold rebuildSourceLookup
  dsimp only
  cases hfront : sources.head? with
  | none => exact .without sources
  | some front =>
    cases hback : sources.getLast? with
    | none => exact .without sources
    | some back =>
      dsimp only
      split
      · exact .without sources
      · have hspan := span_toNat (h.front_le hfront (List.mem_of_getLast? hback))
        refine ⟨rfl, fillLookup_indexed rfl fun offset index hat hvalid => ?_, fun _ s hs => ?_⟩
        · exact absurd (List.eq_of_mem_replicate (List.mem_of_getElem? hat)) hvalid
        · have hleft := h.front_le hfront hs
          have hright := h.le_back hback hs
          rw [fillLookup_length, List.length_replicate, hspan,
            UInt32.toNat_sub_of_le _ _ (UInt32.le_iff_toNat_le.2 hleft)]
          omega

/-! ## Lookup -/

theorem searchSource_eq_some_iff {sources : List RegisteredSource} (h : InOrder sources)
    {source : UInt32} {s : RegisteredSource} :
    searchSource sources source = some s ↔ s ∈ sources ∧ s.id = source := by
  unfold searchSource
  by_cases hfound : isMatching (·.id) sources (search idLess (·.id) sources source) source = true
  · obtain ⟨e, hat, hid⟩ := SortedBy.exists_matching hfound
    have he : e ∈ sources := List.mem_of_getElem? hat
    rw [if_pos hfound, hat, Option.some.injEq]
    constructor
    · rintro rfl
      exact ⟨he, hid⟩
    · rintro ⟨hs, rfl⟩
      exact SortedBy.eq_of_key idOrder h he hs hid
  · rw [if_neg hfound]
    refine iff_of_false (by simp) fun hs => hfound ?_
    exact (SortedBy.isMatching_search idOrder h source).2 ⟨s, hs⟩

/-- What an entry of the direct table is when it is used. -/
theorem directIndex_cases {registry : SourceRegistry} {source : UInt32} {index : Nat}
    (h : directIndex registry source = some index) :
    registry.directSourceLookup[(source - registry.directSourceBase).toNat]? = some index ∧
      index ≠ kInvalidSourceIndex := by
  unfold directIndex at h
  split at h
  · dsimp only at h
    split at h
    · rename_i hoffset
      split at h
      · rename_i hvalid
        cases h
        refine ⟨?_, hvalid⟩
        simp [List.getElem?_eq_getElem hoffset]
      · cases h
    · cases h
  · cases h

/-- A lookup answers the one source with the id. -/
theorem findSource_eq_some_iff {registry : SourceRegistry} (h : InOrder registry.sources)
    (hindexed : Indexed registry.directSourceBase registry.sources registry.directSourceLookup)
    {source : UInt32} {s : RegisteredSource} :
    findSource registry source = some s ↔ s ∈ registry.sources ∧ s.id = source := by
  unfold findSource
  cases hdirect : directIndex registry source with
  | none => exact searchSource_eq_some_iff h
  | some index =>
    obtain ⟨hat, hvalid⟩ := directIndex_cases hdirect
    obtain ⟨e, he, hoffset⟩ := hindexed _ _ hat hvalid
    have hmem : e ∈ registry.sources := List.mem_of_getElem? he
    -- one distance from the base is one id
    have hid : e.id = source := by
      have hsame := UInt32.toNat_inj.1 hoffset
      simpa using congrArg (· + registry.directSourceBase) hsame
    dsimp only
    rw [he, Option.some.injEq]
    constructor
    · rintro rfl
      exact ⟨hmem, hid⟩
    · rintro ⟨hs, hsid⟩
      exact SortedBy.eq_of_key idOrder h hmem hs (hid.trans hsid.symm)

/-- The definition a lookup by plain search finds is the one definition with the id. -/
theorem find?_definition {definitions : List SourceDefinition}
    (h : (definitions.map (·.id)).Nodup) {source : UInt32} {d : SourceDefinition} :
    (definitions.find? fun d => d.id = source) = some d ↔ d ∈ definitions ∧ d.id = source := by
  constructor
  · intro hfind
    exact ⟨List.mem_of_find?_eq_some hfind, by simpa using List.find?_some hfind⟩
  · rintro ⟨hd, hid⟩
    cases hfind : definitions.find? fun d => d.id = source with
    | none => simpa [hid] using List.find?_eq_none.1 hfind d hd
    | some e =>
      have he : e.id = source := by simpa using List.find?_some hfind
      rw [List.inj_on_of_nodup_map h (List.mem_of_find?_eq_some hfind) hd (he.trans hid.symm)]

/-- What the registry of accepted definitions and filters answers. -/
structure Answers (definitions : List SourceDefinition) (filters : List SourceFilter)
    (registry : SourceRegistry) : Prop where
  /-- A lookup answers the definition with the id in the state its filter gives it. -/
  finds : ∀ source, findSource registry source =
    (definitions.find? fun d => d.id = source).map fun d =>
      { id := d.id, name := d.name, enabled := initiallyEnabled filters d.id }
  /-- An entry of the direct table that is in use is the position of a source. -/
  entries : ∀ index ∈ registry.directSourceLookup,
    index = kInvalidSourceIndex ∨ index < registry.sources.length
  /-- The entry of each source is one of the table. -/
  inside : registry.directSourceLookup ≠ [] → ∀ s ∈ registry.sources,
    (s.id - registry.directSourceBase).toNat < registry.directSourceLookup.length

theorem rebuildSourceLookup_answers {definitions : List SourceDefinition}
    {filters : List SourceFilter} (h : Accepted definitions filters) :
    Answers definitions filters (rebuildSourceLookup { sources :=
      (sortBy idLess (·.id) (definitions.map registered)).map (filters.foldl configure) }) := by
  have horder := sources_inOrder h
  obtain ⟨hsources, hindexed, hinside⟩ := rebuildSourceLookup_rebuilt horder
  refine ⟨fun source => ?_, fun index hindex => ?_, ?_⟩
  · apply Option.ext
    intro s
    rw [findSource_eq_some_iff (by rwa [hsources]) (by rwa [hsources]), hsources, mem_sources h,
      Option.map_eq_some_iff]
    constructor
    · rintro ⟨⟨d, hd, rfl⟩, hid⟩
      exact ⟨d, (find?_definition h.ids).2 ⟨hd, hid⟩, rfl⟩
    · rintro ⟨d, hfind, rfl⟩
      obtain ⟨hd, hid⟩ := (find?_definition h.ids).1 hfind
      exact ⟨⟨d, hd, rfl⟩, hid⟩
  · by_cases hvalid : index = kInvalidSourceIndex
    · exact .inl hvalid
    · obtain ⟨offset, hat⟩ := List.mem_iff_getElem?.1 hindex
      obtain ⟨s, hs, -⟩ := hindexed offset index hat hvalid
      rw [hsources]
      exact .inr (List.getElem?_eq_some_iff.1 hs).1
  · rwa [hsources]

/-- **Preparation**: it succeeds exactly when the definitions and filters are acceptable, gives no
registry otherwise, and the registry it gives answers as the definitions and filters do. There is
none only where nothing was to be registered. -/
theorem prepareSources_answers (definitions : List SourceDefinition)
    (filters : List SourceFilter) :
    ((prepareSources definitions filters).ok = true ↔ Accepted definitions filters) ∧
      ((prepareSources definitions filters).ok = false →
        (prepareSources definitions filters).registry = none) ∧
      ((prepareSources definitions filters).ok = true →
        (prepareSources definitions filters).registry = none →
          definitions = [] ∧ filters = []) ∧
      ∀ registry, (prepareSources definitions filters).registry = some registry →
        Answers definitions filters registry := by
  unfold prepareSources
  by_cases hempty : (definitions.isEmpty && filters.isEmpty) = true
  · rw [if_pos hempty]
    simp only [Bool.and_eq_true, List.isEmpty_iff] at hempty
    obtain ⟨rfl, rfl⟩ := hempty
    have haccepted : Accepted [] [] := ⟨by simp, by simp, by simp, by simp⟩
    simp [haccepted]
  · rw [if_neg hempty]
    cases hprepared : preparedSources definitions filters with
    | error status =>
      have hrejected : ¬ Accepted definitions filters := by
        intro haccepted
        rw [preparedSources_eq_ok_iff.2 ⟨haccepted, rfl⟩] at hprepared
        cases hprepared
      simp [hrejected]
    | ok sources =>
      obtain ⟨haccepted, rfl⟩ := preparedSources_eq_ok_iff.1 hprepared
      simp [haccepted, rebuildSourceLookup_answers haccepted]

example :
    ((prepareSources [⟨0xFFFFFFFF, [0x62]⟩, ⟨0xFFFFFFFD, [0x61]⟩] [⟨0xFFFFFFFD, false⟩]).registry.map
      fun registry => [0xFFFFFFFC, 0xFFFFFFFD, 0xFFFFFFFE, 0xFFFFFFFF, 0].map (findSource registry)) =
    some [none, some ⟨0xFFFFFFFD, [0x61], false⟩, none, some ⟨0xFFFFFFFF, [0x62], true⟩, none] := by
  decide +kernel

end Logger

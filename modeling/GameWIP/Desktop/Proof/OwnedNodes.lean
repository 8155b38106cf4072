import GameWIP.Desktop.Proof.Budgets

/-!
# Owned nodes are whole copies

`ofNode_spec`: the node of an owner is the one it was made from, and the owner has storage of its own
for every payload of it (`Owns`): the strings, the children, the relations with their targets, the
extensions with their nested lists, the selection, and the text with its annotations and fragments.

A copy of a value appends to the strings and the lists (`appended`). The slot of a list is behind the
lists before it and in front of those of its items (`copyItems_spec`).
-/

namespace Desktop

variable {F : Type}

/-! ## Backed payloads -/

/-- The text is empty or one of the strings. -/
def HeldIn (strings : List (List UInt8)) (text : List UInt8) : Prop := text = [] ∨ text ∈ strings

mutual

/-- The strings and the lists hold the payloads of the value, at every depth. -/
def ExtensionValue.BackedBy (strings : List (List UInt8)) (lists : List (List (ExtensionValue F))) :
    ExtensionValue F → Prop
  | .utf8 value => HeldIn strings value
  | .list values => values ∈ lists ∧ ExtensionValue.BackedListBy strings lists values
  | _ => True

def ExtensionValue.BackedListBy (strings : List (List UInt8))
    (lists : List (List (ExtensionValue F))) : List (ExtensionValue F) → Prop
  | [] => True
  | item :: rest => item.BackedBy strings lists ∧ ExtensionValue.BackedListBy strings lists rest

end

structure Extension.BackedBy (strings : List (List UInt8)) (lists : List (List (ExtensionValue F)))
    (entry : Extension F) : Prop where
  namespaceName : HeldIn strings entry.namespaceName
  name : HeldIn strings entry.name
  value : entry.value.BackedBy strings lists

variable {strings strings' : List (List UInt8)} {lists lists' : List (List (ExtensionValue F))}

theorem HeldIn.mono {text : List UInt8} (h : HeldIn strings text) (hsub : strings ⊆ strings') :
    HeldIn strings' text :=
  h.imp_right fun hmem => hsub hmem

mutual

theorem ExtensionValue.BackedBy.mono (hstrings : strings ⊆ strings') (hlists : lists ⊆ lists') :
    ∀ value : ExtensionValue F, value.BackedBy strings lists → value.BackedBy strings' lists'
  | .utf8 _, h => HeldIn.mono h hstrings
  | .list values, h =>
    ⟨hlists h.1, ExtensionValue.BackedListBy.mono hstrings hlists values h.2⟩
  | .boolean _, _ | .signedInteger _, _ | .unsignedInteger _, _ | .real _, _ | .nodeReference _, _
  | .unknown _, _ => trivial

theorem ExtensionValue.BackedListBy.mono (hstrings : strings ⊆ strings') (hlists : lists ⊆ lists') :
    ∀ values : List (ExtensionValue F), ExtensionValue.BackedListBy strings lists values →
      ExtensionValue.BackedListBy strings' lists' values
  | [], _ => trivial
  | item :: rest, h => ⟨ExtensionValue.BackedBy.mono hstrings hlists item h.1,
    ExtensionValue.BackedListBy.mono hstrings hlists rest h.2⟩

end

theorem Extension.BackedBy.mono {entry : Extension F} (h : entry.BackedBy strings lists)
    (hstrings : strings ⊆ strings') (hlists : lists ⊆ lists') : entry.BackedBy strings' lists' where
  namespaceName := h.namespaceName.mono hstrings
  name := h.name.mono hstrings
  value := ExtensionValue.BackedBy.mono hstrings hlists _ h.value

/-! ## Copies of values -/

namespace OwnedAccessibilityNode

/-- Storage with more strings and lists behind. -/
def appended (owned : OwnedAccessibilityNode F) (strings : List (List UInt8))
    (lists : List (List (ExtensionValue F))) : OwnedAccessibilityNode F :=
  { owned with
    strings := owned.strings ++ strings
    extensionLists := owned.extensionLists ++ lists }

@[simp] theorem appended_nil (owned : OwnedAccessibilityNode F) : owned.appended [] [] = owned := by
  simp [appended]

@[simp] theorem appended_appended (owned : OwnedAccessibilityNode F) :
    (owned.appended strings lists).appended strings' lists' =
      owned.appended (strings ++ strings') (lists ++ lists') := by
  simp [appended]

theorem copyString_spec (source : List UInt8) (owned : OwnedAccessibilityNode F) :
    ∃ strings, owned.copyString source = (source, owned.appended strings []) ∧ HeldIn strings source := by
  unfold copyString
  cases source with
  | nil => exact ⟨[], by simp, .inl rfl⟩
  | cons byte rest => exact ⟨[byte :: rest], by simp [appended], .inr List.mem_cons_self⟩

theorem modify_middle {α : Type} (l₁ l₂ : List α) (a : α) (f : α → α) :
    (l₁ ++ a :: l₂).modify l₁.length f = l₁ ++ f a :: l₂ := by
  induction l₁ with
  | nil => rfl
  | cons b l₁ ih => simpa using ih

mutual

theorem copyExtension_spec : ∀ (value : ExtensionValue F) (owned : OwnedAccessibilityNode F),
    ∃ strings lists, copyExtension value owned = (value, owned.appended strings lists) ∧
      value.BackedBy strings lists
  | .boolean _, owned | .signedInteger _, owned | .unsignedInteger _, owned | .real _, owned
  | .nodeReference _, owned | .unknown _, owned => ⟨[], [], by simp [copyExtension], trivial⟩
  | .utf8 value, owned => by
    obtain ⟨strings, hcopy, hheld⟩ := copyString_spec value owned
    exact ⟨strings, [], by simp [copyExtension, hcopy], hheld⟩
  | .list values, owned => by
    obtain ⟨strings, lists, hcopy, hbacked⟩ := copyItems_spec values
      { owned with extensionLists := owned.extensionLists ++ [[]] } owned.extensionLists [] [] rfl
    refine ⟨strings, values :: lists, ?_, List.mem_cons_self,
      ExtensionValue.BackedListBy.mono (List.Subset.refl _) (List.subset_cons_self _ _) _ hbacked⟩
    simp [copyExtension, hcopy, appended]

/-- The items go to the slot; what their own copies append stands behind it. -/
theorem copyItems_spec : ∀ (values : List (ExtensionValue F)) (owned : OwnedAccessibilityNode F)
    (l₁ : List (List (ExtensionValue F))) (done : List (ExtensionValue F))
    (l₂ : List (List (ExtensionValue F))), owned.extensionLists = l₁ ++ done :: l₂ →
    ∃ strings lists, copyItems l₁.length values owned =
      { owned with
        strings := owned.strings ++ strings
        extensionLists := l₁ ++ (done ++ values) :: (l₂ ++ lists) } ∧
      ExtensionValue.BackedListBy strings lists values
  | [], owned, l₁, done, l₂, h => ⟨[], [], by simp [copyItems, ← h], trivial⟩
  | item :: rest, owned, l₁, done, l₂, h => by
    obtain ⟨strings, lists, hcopy, hbacked⟩ := copyExtension_spec item owned
    obtain ⟨strings', lists', hrest, hbacked'⟩ := copyItems_spec rest
      ((owned.appended strings lists).pushItem l₁.length item) l₁ (done ++ [item]) (l₂ ++ lists)
      (by simp [pushItem, appended, h, modify_middle])
    refine ⟨strings ++ strings', lists ++ lists', ?_,
      ExtensionValue.BackedBy.mono (List.subset_append_left _ _) (List.subset_append_left _ _) _ hbacked,
      ExtensionValue.BackedListBy.mono (List.subset_append_right _ _) (List.subset_append_right _ _) _
        hbacked'⟩
    rw [copyItems, hcopy]
    refine hrest.trans ?_
    simp [pushItem, appended]

end

/-! ## The parts of a node -/

theorem foldl_copyRelation (relations : List Relation) (owned : OwnedAccessibilityNode F) :
    relations.foldl copyRelation owned = { owned with
      relationTargets := owned.relationTargets ++ relations.map (·.targets)
      relations := owned.relations ++ relations } := by
  induction relations generalizing owned with
  | nil => simp
  | cons relation rest ih =>
    rw [List.foldl_cons, ih]
    simp [copyRelation]

theorem copyEntry_spec (owned : OwnedAccessibilityNode F) (entry : Extension F) :
    ∃ strings lists, owned.copyEntry entry =
      { owned.appended strings lists with extensions := owned.extensions ++ [entry] } ∧
      entry.BackedBy strings lists := by
  obtain ⟨s₁, hnamespace, hheld₁⟩ := copyString_spec entry.namespaceName owned
  obtain ⟨s₂, hname, hheld₂⟩ := copyString_spec entry.name (owned.appended s₁ [])
  obtain ⟨s₃, lists, hvalue, hbacked⟩ :=
    copyExtension_spec entry.value ((owned.appended s₁ []).appended s₂ [])
  refine ⟨s₁ ++ s₂ ++ s₃, lists, ?_, ?_, ?_, ?_⟩
  · simp only [copyEntry, hnamespace, hname, hvalue]
    simp [appended]
  · exact hheld₁.mono (by simp)
  · exact hheld₂.mono (by simp)
  · exact ExtensionValue.BackedBy.mono (by simp) (List.Subset.refl _) _ hbacked

theorem foldl_copyEntry (extensions : List (Extension F)) (owned : OwnedAccessibilityNode F) :
    ∃ strings lists, extensions.foldl copyEntry owned =
      { owned.appended strings lists with extensions := owned.extensions ++ extensions } ∧
      ∀ entry ∈ extensions, entry.BackedBy strings lists := by
  induction extensions generalizing owned with
  | nil => exact ⟨[], [], by simp, by simp⟩
  | cons entry rest ih =>
    obtain ⟨s₁, l₁, hentry, hbacked⟩ := copyEntry_spec owned entry
    obtain ⟨s₂, l₂, hrest, hbacked'⟩ := ih (owned.copyEntry entry)
    refine ⟨s₁ ++ s₂, l₁ ++ l₂, ?_, List.forall_mem_cons.2 ⟨?_, fun other hother => ?_⟩⟩
    · rw [List.foldl_cons, hrest, hentry]
      simp [appended]
    · exact hbacked.mono (List.subset_append_left _ _) (List.subset_append_left _ _)
    · exact (hbacked' other hother).mono (List.subset_append_right _ _) (List.subset_append_right _ _)

theorem copyTexts_spec (owned : OwnedAccessibilityNode F) (source : Node F) :
    ∃ strings, owned.copyTexts source = { owned.appended strings [] with
      node := { owned.node with
        name := source.name, description := source.description, helpText := source.helpText
        value := source.value, language := source.language, accessKey := source.accessKey
        keyboardShortcut := source.keyboardShortcut } } ∧
      ∀ text ∈ source.texts, HeldIn strings text := by
  obtain ⟨s₁, h₁, hheld₁⟩ := copyString_spec source.name owned
  obtain ⟨s₂, h₂, hheld₂⟩ := copyString_spec source.description (owned.appended s₁ [])
  obtain ⟨s₃, h₃, hheld₃⟩ := copyString_spec source.helpText (owned.appended (s₁ ++ s₂) [])
  obtain ⟨s₄, h₄, hheld₄⟩ := copyString_spec source.value (owned.appended (s₁ ++ s₂ ++ s₃) [])
  obtain ⟨s₅, h₅, hheld₅⟩ := copyString_spec source.language (owned.appended (s₁ ++ s₂ ++ s₃ ++ s₄) [])
  obtain ⟨s₆, h₆, hheld₆⟩ :=
    copyString_spec source.accessKey (owned.appended (s₁ ++ s₂ ++ s₃ ++ s₄ ++ s₅) [])
  obtain ⟨s₇, h₇, hheld₇⟩ :=
    copyString_spec source.keyboardShortcut (owned.appended (s₁ ++ s₂ ++ s₃ ++ s₄ ++ s₅ ++ s₆) [])
  refine ⟨s₁ ++ s₂ ++ s₃ ++ s₄ ++ s₅ ++ s₆ ++ s₇, ?_, ?_⟩
  · simp only [copyTexts, h₁, h₂, h₃, h₄, h₅, h₆, h₇, appended_appended, List.append_nil]
    rfl
  · simp only [Node.texts, List.mem_cons, List.not_mem_nil, or_false, forall_eq_or_imp, forall_eq]
    refine ⟨hheld₁.mono ?_, hheld₂.mono ?_, hheld₃.mono ?_, hheld₄.mono ?_, hheld₅.mono ?_,
      hheld₆.mono ?_, hheld₇.mono ?_⟩ <;> intro text htext <;> simp [htext]

theorem copyAnnotation_spec (owned : OwnedAccessibilityNode F) (i : Nat) :
    ∃ strings, copyAnnotation owned i = owned.appended strings [] ∧
      HeldIn strings (owned.annotations.getD i {}).value := by
  obtain ⟨strings, hcopy, hheld⟩ := copyString_spec (owned.annotations.getD i {}).value owned
  refine ⟨strings, ?_, hheld⟩
  have hsame : owned.annotations.set i (owned.annotations.getD i {}) = owned.annotations := by
    by_cases hi : i < owned.annotations.length
    · simp [hi]
    · exact List.set_eq_of_length_le (Nat.le_of_not_lt hi)
  unfold copyAnnotation
  simp only [hcopy]
  exact congrArg (fun annotations => { owned.appended strings [] with annotations }) hsame

/-- Every annotation gets a string of its own; the annotations stay what they are. -/
theorem foldl_copyAnnotation (positions : List Nat) (owned : OwnedAccessibilityNode F) :
    ∃ strings, positions.foldl copyAnnotation owned = owned.appended strings [] ∧
      ∀ i ∈ positions, HeldIn strings (owned.annotations.getD i {}).value := by
  induction positions generalizing owned with
  | nil => exact ⟨[], by simp, by simp⟩
  | cons i rest ih =>
    obtain ⟨s₁, hfirst, hheld⟩ := copyAnnotation_spec owned i
    obtain ⟨s₂, hrest, hheld'⟩ := ih (owned.appended s₁ [])
    refine ⟨s₁ ++ s₂, ?_, List.forall_mem_cons.2 ⟨?_, fun j hj => ?_⟩⟩
    · rw [List.foldl_cons, hfirst, hrest]
      simp
    · exact hheld.mono (List.subset_append_left _ _)
    · exact (hheld' j hj).mono (List.subset_append_right _ _)

theorem copyText_spec (owned : OwnedAccessibilityNode F) (source : Node F) (text : TextContent F)
    (htext : source.text = some text) :
    ∃ strings, owned.copyText source = { owned.appended strings [] with
      annotations := text.annotations
      fragments := text.fragments
      textSelection := text.selection
      node := { owned.node with text := owned.node.text.map ({ · with
        utf8 := text.utf8, language := text.language, annotations := text.annotations
        fragments := text.fragments, selection := text.selection }) } } ∧
      HeldIn strings text.utf8 ∧ HeldIn strings text.language ∧
        ∀ item ∈ text.annotations, HeldIn strings item.value := by
  obtain ⟨s₁, h₁, hheld₁⟩ := copyString_spec text.utf8 owned
  obtain ⟨s₂, h₂, hheld₂⟩ := copyString_spec text.language (owned.appended s₁ [])
  obtain ⟨s₃, h₃, hheld₃⟩ := foldl_copyAnnotation (List.range text.annotations.length)
    { owned.appended (s₁ ++ s₂) [] with annotations := text.annotations }
  refine ⟨s₁ ++ s₂ ++ s₃, ?_, hheld₁.mono ?_, hheld₂.mono ?_, fun item hitem => ?_⟩
  · simp only [copyText, htext, h₁, h₂, appended_appended, List.append_nil, h₃]
    simp [appended]
  · intro value hvalue
    simp [hvalue]
  · intro value hvalue
    simp [hvalue]
  · obtain ⟨i, hi, rfl⟩ := List.mem_iff_getElem.1 hitem
    have hheld : HeldIn s₃ text.annotations[i].value := by
      simpa [hi] using hheld₃ i (List.mem_range.2 hi)
    exact hheld.mono (List.subset_append_right _ _)

theorem copySelection_spec (owned : OwnedAccessibilityNode F) :
    ∃ selectedNodes, owned.copySelection owned.node = { owned with selectedNodes } ∧
      ∀ selection, owned.node.selection = some selection → selection.selectedNodes = selectedNodes := by
  cases hsome : owned.node.selection with
  | none => exact ⟨owned.selectedNodes, by simp [copySelection, hsome], by simp⟩
  | some selection =>
    refine ⟨selection.selectedNodes, ?_, by simp⟩
    have hsame : { owned.node with selection := some selection } = owned.node := by
      rw [← hsome]
    simp [copySelection, hsome, hsame]

/-! ## The whole node -/

/-- The owner stores every payload of its node. -/
structure Owns (owned : OwnedAccessibilityNode F) : Prop where
  texts : ∀ text ∈ owned.node.texts, HeldIn owned.strings text
  children : owned.node.children = owned.children
  relations : owned.node.relations = owned.relations
  targets : ∀ relation ∈ owned.relations, relation.targets ∈ owned.relationTargets
  extensions : owned.node.extensions = owned.extensions
  values : ∀ entry ∈ owned.extensions, entry.BackedBy owned.strings owned.extensionLists
  selection : ∀ selection, owned.node.selection = some selection →
    selection.selectedNodes = owned.selectedNodes
  text : ∀ text, owned.node.text = some text → text.annotations = owned.annotations ∧
    text.fragments = owned.fragments ∧ text.selection = owned.textSelection ∧
      HeldIn owned.strings text.utf8 ∧ HeldIn owned.strings text.language ∧
        ∀ item ∈ owned.annotations, HeldIn owned.strings item.value

/-- **An owned node is a whole copy.** -/
theorem ofNode_spec (source : Node F) : (ofNode source).node = source ∧ (ofNode source).Owns := by
  obtain ⟨s₁, htexts, hheld⟩ := copyTexts_spec { node := source } source
  obtain ⟨s₂, lists, hentries, hbacked⟩ := foldl_copyEntry source.extensions
    { node := source, strings := s₁, children := source.children
      relations := source.relations, relationTargets := source.relations.map (·.targets) }
  have hstart : copyTexts { node := source } source = { node := source, strings := s₁ } := htexts
  let parts : OwnedAccessibilityNode F :=
    { node := source, strings := s₁ ++ s₂, children := source.children
      relations := source.relations, relationTargets := source.relations.map (·.targets)
      extensions := source.extensions, extensionLists := lists }
  have hparts : ofNode source = copyText (copySelection parts source) source := by
    simp only [ofNode, hstart, foldl_copyRelation]
    have hentries' := congrArg (fun owned => copyText (copySelection { owned with
      node := { owned.node with extensions := owned.extensions } } source) source) hentries
    refine hentries'.trans ?_
    simp [parts, appended]
  obtain ⟨selectedNodes, hselection, hselected⟩ := copySelection_spec parts
  have hselection : copySelection parts source = { parts with selectedNodes } := hselection
  rw [hparts, hselection]
  have htexts' : ∀ strings, ∀ text ∈ source.texts, HeldIn (s₁ ++ s₂ ++ strings) text :=
    fun strings text htext => (hheld text htext).mono (by simp)
  have hvalues : ∀ strings, ∀ entry ∈ source.extensions,
      entry.BackedBy (s₁ ++ s₂ ++ strings) lists :=
    fun strings entry hentry => (hbacked entry hentry).mono
      (fun text htext => by simp [htext]) (List.Subset.refl _)
  cases htext : source.text with
  | none =>
    have hnone : copyText { parts with selectedNodes } source = { parts with selectedNodes } := by
      simp [copyText, htext]
    rw [hnone]
    refine ⟨rfl, fun text hmem => ?_, rfl, rfl, ?_, rfl, fun entry hentry => ?_, hselected, ?_⟩
    · simpa using htexts' [] text hmem
    · exact fun relation hrelation => List.mem_map_of_mem hrelation
    · simpa using hvalues [] entry hentry
    · intro text hsome
      rw [htext] at hsome
      cases hsome
  | some text =>
    obtain ⟨s₃, hcopy, hutf8, hlanguage, hitems⟩ :=
      copyText_spec { parts with selectedNodes } source text htext
    have hsame : { source with text := some text } = source := by
      rw [← htext]
    have hcopied : copyText { parts with selectedNodes } source = { parts with
        strings := s₁ ++ s₂ ++ s₃, annotations := text.annotations, fragments := text.fragments
        textSelection := text.selection, selectedNodes } := by
      rw [hcopy]
      simp [parts, appended, htext, hsame]
    rw [hcopied]
    refine ⟨rfl, htexts' s₃, rfl, rfl, fun relation hrelation => List.mem_map_of_mem hrelation, rfl,
      hvalues s₃, hselected, fun text' hsome => ?_⟩
    obtain rfl := Option.some.inj (htext.symm.trans hsome)
    exact ⟨rfl, rfl, rfl, hutf8.mono (List.subset_append_right _ _),
      hlanguage.mono (List.subset_append_right _ _),
      fun item hitem => (hitems item hitem).mono (List.subset_append_right _ _)⟩

end OwnedAccessibilityNode

end Desktop

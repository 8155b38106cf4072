import GameWIP.Desktop.Proof.Budgets
import GameWIP.Desktop.Proof.Validation
import Mathlib.Algebra.Group.Pi.Basic

/-!
# What the validation accepts

`validate_ok_iff`: the validation accepts exactly the snapshots that are `Acceptable`, which says
nothing of the order of the nodes (`Acceptable.perm`).

Each check is known by its cost (`checkNode_costs`): what it asks of the node alone (`Admits`), and
what it adds to the bytes, the focused nodes and the incoming counts.
-/

namespace Desktop

open Lib (Child IsPreorder Meter Yields toOption_bind isSome_toOption_forM)

variable {F : Type} {snapshot : SnapshotView F} {limits : Limits} {node : Node F}

/-! ## Checks without their results -/

theorem failIf_bind_eq_some {α : Type} {c : Bool} {result : ValidationResult} {f : Unit → Check α}
    {a : α} : (failIf c result >>= f).toOption = some a ↔ c = false ∧ (f ()).toOption = some a := by
  rw [toOption_bind]
  cases c <;> simp [failIf, Except.toOption]

theorem toOption_failIf (c : Bool) (result : ValidationResult) :
    (failIf c result).toOption = if c then none else some () := by
  cases c <;> rfl

@[simp] theorem isSome_failIf (c : Bool) (result : ValidationResult) :
    (failIf c result).toOption.isSome = true ↔ c = false := by
  cases c <;> simp [failIf, Except.toOption]

@[simp] theorem toOption_ok {α : Type} (a : α) : (Except.ok a : Check α).toOption = some a := rfl

theorem toOption_withNode {α : Type} (id : NodeId) (index : Nat) (x : Except ValidationIssue α) :
    (withNode id index x).toOption = x.toOption := by
  cases x <;> rfl

theorem strings_costs (id : NodeId) (index : Nat) (values : List (List UInt8)) :
    (Budget.meter limits).CostsE (∀ value ∈ values, validUtf8 value = true)
      (values.map textCost).sum (strings limits id index values) :=
  Meter.CostsE.foldlM fun value _ =>
    (Budget.string_costs value).of_eq fun _ => toOption_withNode _ _ _

theorem checkStrings_costs (node : Node F) (i : Nat) :
    (Budget.meter limits).CostsE
      ((∀ value ∈ node.texts, validUtf8 value = true) ∧ node.language.contains 0 = false)
      (node.texts.map textCost).sum (checkStrings limits node i) :=
  ((strings_costs node.id i node.texts).bind
    (.after (isSome_failIf _ _) Meter.CostsE.pass)).congr (by simp) (add_zero _)

/-! ## Flags and children -/

/-- Whether the node has the focus, as a number. -/
def Node.focus (node : Node F) : Nat := if node.states.contains .focused then 1 else 0

/-- The number of focused nodes. -/
def focusMeter : Meter Nat Nat where
  spend := (· + ·)
  within focused := focused ≤ 1
  spend_zero := Nat.add_zero
  spend_add := Nat.add_assoc
  within_of_spend := by
    intro focused cost h
    omega

/-- What is asked of the role, the states, the actions and the exposure. -/
structure AdmitsFlags (node : Node F) : Prop where
  role : ¬ node.role ≥ .count
  states : (node.states.flags >>> 23 ≠ 0 ||
    node.states.contains .focused && !node.states.contains .focusable ||
    node.states.contains .mixed && node.states.contains .checked) = false
  actions : ¬ node.actions.flags >>> ActionKind.count.toUInt64 ≠ 0
  exposure : ¬ node.exposure > .redactContent

theorem checkFlags_costs (node : Node F) (i : Nat) :
    focusMeter.CostsE (AdmitsFlags node) node.focus (checkFlags node i) := by
  intro focused t hfocused
  have hsplit : AdmitsFlags node ↔ ¬ node.role ≥ .count ∧ (node.states.flags >>> 23 ≠ 0 ||
      node.states.contains .focused && !node.states.contains .focusable ||
      node.states.contains .mixed && node.states.contains .checked) = false ∧
      ¬ node.actions.flags >>> ActionKind.count.toUInt64 ≠ 0 ∧ ¬ node.exposure > .redactContent :=
    ⟨fun h => ⟨h.role, h.states, h.actions, h.exposure⟩, fun ⟨h₁, h₂, h₃, h₄⟩ => ⟨h₁, h₂, h₃, h₄⟩⟩
  have hbound : focused ≤ 1 := hfocused
  rw [hsplit]
  simp only [checkFlags, failIf_bind_eq_some]
  cases hfocus : node.states.contains .focused <;>
    simp [Node.focus, focusMeter, hfocus, hbound]
  · grind
  · grind
/-- How often the positions have been listed. -/
def incomingMeter : Meter (Nat → Nat) (Nat → Nat) where
  spend := (· + ·)
  within incoming := ∀ x, incoming x ≤ 1
  spend_zero := add_zero
  spend_add := add_assoc
  within_of_spend := by
    intro incoming cost h x
    have := h x
    rw [Pi.add_apply] at this
    omega

/-- What is asked of a listed child. -/
structure AdmitsChild (snapshot : SnapshotView F) (node : Node F) (child : NodeId) : Prop where
  known : snapshot.find child ≠ snapshot.nodes.length
  parent : (snapshot.node (snapshot.find child)).parent = node.id

theorem checkChild_costs (node : Node F) (i : Nat) (child : NodeId) :
    incomingMeter.CostsE (AdmitsChild snapshot node child) (Pi.single (snapshot.find child) 1)
      (checkChild snapshot node i · child) := by
  intro incoming t hincoming
  have hpost : Function.update incoming (snapshot.find child) (incoming (snapshot.find child) + 1) =
      incoming + Pi.single (snapshot.find child) 1 := by
    ext x
    by_cases hx : x = snapshot.find child
    · subst hx
      simp
    · simp [hx]
  have hwithin : (∀ x, (incoming + Pi.single (snapshot.find child) 1 : Nat → Nat) x ≤ 1) ↔
      incoming (snapshot.find child) + 1 ≤ 1 := by
    refine ⟨fun h => by simpa using h (snapshot.find child), fun h x => ?_⟩
    by_cases hx : x = snapshot.find child
    · subst hx
      simpa using h
    · have := hincoming x
      simpa [hx] using this
  have hsplit : AdmitsChild snapshot node child ↔ snapshot.find child ≠ snapshot.nodes.length ∧
      (snapshot.node (snapshot.find child)).parent = node.id :=
    ⟨fun h => ⟨h.known, h.parent⟩, fun ⟨h₁, h₂⟩ => ⟨h₁, h₂⟩⟩
  rw [hsplit]
  simp only [checkChild, failIf_bind_eq_some, incomingMeter, hwithin, hpost]
  simp [and_assoc, eq_comm (b := t)]

/-! ## Extensions and texts -/

/-- What is asked of an extension at its position. -/
structure AdmitsExtension (snapshot : SnapshotView F) (limits : Limits) [DoubleOps F] (node : Node F)
    (entry : Extension F × Nat) : Prop where
  named : (entry.1.namespaceName.isEmpty || entry.1.name.isEmpty) = false
  first : ((node.extensions.take entry.2).any fun previous =>
    previous.namespaceName = entry.1.namespaceName && previous.name = entry.1.name) = false
  utf8 : ∀ value ∈ [entry.1.namespaceName, entry.1.name], validUtf8 value = true
  value : entry.1.value.Fits limits 0 ∧ entry.1.value.Sound
  references : checkReferences snapshot entry.1.value = true

/-- What is asked of an annotation of a text. -/
structure AdmitsItem (snapshot : SnapshotView F) (text : TextContent F) (item : TextAnnotation) :
    Prop where
  range : validRange text.utf8 (graphemeBoundaries text.utf8) item.range = true
  kind : ¬ item.kind > .custom
  language : (item.kind = .language && item.value.contains 0) = false
  target : (item.target ≠ 0 && !snapshot.isKnown item.target) = false
  utf8 : validUtf8 item.value = true

/-- What is asked of the text of a node. -/
structure AdmitsText (snapshot : SnapshotView F) (limits : Limits) [DoubleOps F] (node : Node F)
    (text : TextContent F) : Prop where
  utf8 : ∀ value ∈ [text.utf8, text.language], validUtf8 value = true
  language : text.language.contains 0 = false
  direction : ¬ text.direction > .mixed
  fits : text.Fits limits
  selections : (text.selection.length > 1 && !node.selection.any (·.multiSelectable)) = false
  annotations : ∀ item ∈ text.annotations, AdmitsItem snapshot text item
  fragments : (text.fragments.any fun fragment =>
    !validRange text.utf8 (graphemeBoundaries text.utf8) fragment.range || !validRect fragment.bounds) =
      false
  ranges : (text.selection.any (!validRange text.utf8 (graphemeBoundaries text.utf8) ·)) = false
  caret : (text.caret.any fun caret => !validRange text.utf8 (graphemeBoundaries text.utf8)
    { begin := caret, end_ := caret }) = false

theorem checkAnnotation_costs (node : Node F) (i : Nat) (text : TextContent F) (item : TextAnnotation) :
    (Budget.meter limits).CostsE (AdmitsItem snapshot text item) (textCost item.value) fun budget =>
      checkAnnotation snapshot limits node i text (graphemeBoundaries text.utf8) budget item := by
  have hstring : (Budget.meter limits).CostsE (validUtf8 item.value = true) (textCost item.value)
      fun budget => withNode node.id i (budget.string limits item.value) :=
    (Budget.string_costs item.value).of_eq fun _ => toOption_withNode _ _ _
  refine (Meter.CostsE.after (isSome_failIf _ _) (.after (isSome_failIf _ _)
    (.after (isSome_failIf _ _) (.after (isSome_failIf _ _) hstring)))).congr ?_ rfl
  constructor
  · rintro ⟨hrange, hkind, hlanguage, htarget, hutf8⟩
    exact ⟨by simpa using hrange, by simpa using hkind, hlanguage, htarget, hutf8⟩
  · intro h
    exact ⟨by simpa using h.range, by simpa using h.kind, h.language, h.target, h.utf8⟩

variable [DoubleOps F]

theorem checkExtension_costs (node : Node F) (entry : Extension F × Nat) :
    (Budget.meter limits).CostsE (AdmitsExtension snapshot limits node entry) entry.1.cost
      (checkExtension snapshot limits node · entry) := by
  have hvalue : (Budget.meter limits).CostsE
      (entry.1.value.Fits limits 0 ∧ entry.1.value.Sound) entry.1.value.cost
      fun budget => withNode node.id entry.2 (Budget.extension limits entry.1.value 0 budget) :=
    (Budget.extension_costs entry.1.value 0).of_eq fun _ => toOption_withNode _ _ _
  refine (Meter.CostsE.after (isSome_failIf _ _) (.after (isSome_failIf _ _)
    ((strings_costs _ _ _).bind (hvalue.bind
      (.after (isSome_failIf _ _) Meter.CostsE.pass))))).congr ?_ ?_
  · constructor
    · rintro ⟨hnamed, hfirst, hutf8, hvalue, hreferences, -⟩
      exact ⟨hnamed, hfirst, hutf8, hvalue, by simpa using hreferences⟩
    · intro h
      exact ⟨h.named, h.first, h.utf8, h.value, by simpa using h.references, trivial⟩
  · simp [Extension.cost, add_assoc]

theorem checkText_costs (node : Node F) (i : Nat) :
    (Budget.meter limits).CostsE
      (∀ text, node.text = some text → AdmitsText snapshot limits node text)
      ((node.text.map TextContent.cost).getD 0) (checkText snapshot limits node i) := by
  unfold checkText
  cases node.text with
  | none => exact Meter.CostsE.pass.congr (by simp) rfl
  | some text =>
    have hitems : (Budget.meter limits).CostsE (∀ item ∈ text.annotations, AdmitsItem snapshot text item)
        _ fun budget => text.annotations.foldlM (fun budget item => checkAnnotation snapshot limits
          node i text (graphemeBoundaries text.utf8) budget item) budget :=
      Meter.CostsE.foldlM fun item _ => checkAnnotation_costs node i text item
    refine ((strings_costs node.id i [text.utf8, text.language]).bind
      (.after (isSome_failIf _ _) (.after (isSome_failIf _ _) (.after (isSome_failIf _ _)
        (.after (isSome_failIf _ _) (hitems.bind (.after (isSome_failIf _ _)
          (.after (isSome_failIf _ _) (.after (isSome_failIf _ _) Meter.CostsE.pass))))))))).congr
            ?_ ?_
    · constructor
      · rintro ⟨hutf8, hlanguage, hdirection, hfits, hselections, hitems, hfragments, hranges, hcaret, -⟩
          text' heq
        obtain rfl := Option.some.inj heq
        refine ⟨hutf8, hlanguage, by simpa using hdirection, ?_, hselections, hitems, hfragments,
          hranges, hcaret⟩
        simpa [TextContent.Fits, and_assoc] using hfits
      · intro h
        have h := h text rfl
        refine ⟨h.utf8, h.language, by simpa using h.direction, ?_, h.selections, h.annotations,
          h.fragments, h.ranges, h.caret, trivial⟩
        simpa [TextContent.Fits, and_assoc] using h.fits
    · simp [TextContent.cost, add_assoc]

/-! ## Nodes -/

/-- What is asked of a node. -/
structure Admits (snapshot : SnapshotView F) (limits : Limits) (node : Node F) : Prop where
  flags : AdmitsFlags node
  texts : ∀ value ∈ node.texts, validUtf8 value = true
  language : node.language.contains 0 = false
  lengths : (node.children.length > limits.maximumChildrenPerNode ||
    node.relations.length > limits.maximumRelationsPerNode ||
    node.extensions.length > limits.maximumExtensionsPerNode) = false
  distinct : adjacentFind (sorted node.children) = false
  children : ∀ child ∈ node.children, AdmitsChild snapshot node child
  parent : node.id ≠ snapshot.root → node.parent ≠ 0 ∧ snapshot.isKnown node.parent = true
  relations : (node.relations.foldlM (checkRelation snapshot limits node 0) (0, [])).toOption.isSome
  extensions : ∀ entry ∈ node.extensions.zipIdx, AdmitsExtension snapshot limits node entry
  geometry : (checkGeometry node 0).toOption.isSome
  rangeValue : (checkRangeValue node 0).toOption.isSome
  scroll : (checkScroll node 0).toOption.isSome
  selection : (checkSelection snapshot limits node 0).toOption.isSome
  collection : (checkCollection node 0).toOption.isSome
  virtualization : (checkVirtualization node 0).toOption.isSome
  text : ∀ text, node.text = some text → AdmitsText snapshot limits node text
  bytes : node.cost.1 ≤ limits.maximumTextBytesPerNode
  values : node.cost.2 ≤ limits.maximumExtensionValuesPerNode

/-- The position of a node stands in the results only. -/
structure SameChecks (snapshot : SnapshotView F) (limits : Limits) (node : Node F) (i : Nat) : Prop where
  relations : (node.relations.foldlM (checkRelation snapshot limits node i) (0, [])).toOption =
    (node.relations.foldlM (checkRelation snapshot limits node 0) (0, [])).toOption
  geometry : (checkGeometry node i).toOption = (checkGeometry node 0).toOption
  rangeValue : (checkRangeValue node i).toOption = (checkRangeValue node 0).toOption
  scroll : (checkScroll node i).toOption = (checkScroll node 0).toOption
  selection : (checkSelection snapshot limits node i).toOption =
    (checkSelection snapshot limits node 0).toOption
  collection : (checkCollection node i).toOption = (checkCollection node 0).toOption
  virtualization : (checkVirtualization node i).toOption = (checkVirtualization node 0).toOption

theorem sameChecks (snapshot : SnapshotView F) (limits : Limits) (node : Node F) (i : Nat) :
    SameChecks snapshot limits node i where
  relations := by
    refine Lib.toOption_foldlM_congr (fun relation _ seen => ?_) _
    have hloop := Lib.toOption_forM_congr fun target (_ : target ∈ relation.targets) =>
      (toOption_failIf (!snapshot.isKnown target) (fail .missingNode node.id i)).trans
        (toOption_failIf _ (fail .missingNode node.id 0)).symm
    simp only [checkRelation, toOption_bind, toOption_failIf, hloop]
  geometry := by
    unfold checkGeometry
    cases node.geometry with
    | none => rfl
    | some g => simp only [toOption_bind, toOption_failIf]
  rangeValue := by
    simp only [checkRangeValue, toOption_failIf]
  scroll := by
    simp only [checkScroll, toOption_failIf]
  selection := by
    unfold checkSelection
    cases node.selection with
    | none => rfl
    | some s =>
      simp only [toOption_bind, toOption_failIf]
      refine Option.bind_congr fun _ _ => Option.bind_congr fun _ _ => Option.bind_congr fun _ _ =>
        Option.bind_congr fun _ _ => Lib.toOption_forM_congr fun id _ => ?_
      simp only [toOption_failIf]
  collection := by
    unfold checkCollection
    cases node.collection with
    | none => rfl
    | some c => simp only [toOption_bind, toOption_failIf]
  virtualization := by
    simp only [checkVirtualization, toOption_failIf]

/-- How often the children of a node list each position. -/
def Node.listed (snapshot : SnapshotView F) (node : Node F) : Nat → Nat :=
  (node.children.map fun child => Pi.single (snapshot.find child) 1).sum

omit [DoubleOps F] in
theorem checkChildren_costs (node : Node F) (i : Nat) :
    incomingMeter.CostsE
      ((node.children.length > limits.maximumChildrenPerNode ||
        node.relations.length > limits.maximumRelationsPerNode ||
        node.extensions.length > limits.maximumExtensionsPerNode) = false ∧
          adjacentFind (sorted node.children) = false ∧
            ∀ child ∈ node.children, AdmitsChild snapshot node child)
      (node.listed snapshot) (checkChildren snapshot limits node i) :=
  .after (isSome_failIf _ _) (.after (isSome_failIf _ _)
    (.foldlM fun child _ => checkChild_costs node i child))

theorem checkExtensions_costs (node : Node F) :
    (Budget.meter limits).CostsE
      (∀ entry ∈ node.extensions.zipIdx, AdmitsExtension snapshot limits node entry)
      (node.extensions.map Extension.cost).sum fun budget =>
        node.extensions.zipIdx.foldlM (checkExtension snapshot limits node) budget := by
  refine (Meter.CostsE.foldlM fun entry _ => checkExtension_costs node entry).congr Iff.rfl ?_
  show (node.extensions.zipIdx.map (Extension.cost ∘ Prod.fst)).sum = _
  rw [← List.map_map, List.zipIdx_map_fst]

/-- The budget over all nodes, the number of focused nodes and the incoming counts. -/
def Scan.meter (limits : Limits) : Meter Scan (Nat × Nat × (Nat → Nat)) where
  spend scan cost :=
    { bytes := scan.bytes + cost.1
      focused := scan.focused + cost.2.1
      incoming := scan.incoming + cost.2.2 }
  within scan := scan.bytes ≤ limits.maximumTotalTextBytes ∧ focusMeter.within scan.focused ∧
    incomingMeter.within scan.incoming
  spend_zero _ := rfl
  spend_add scan c d := by
    simp [add_assoc]
  within_of_spend := by
    intro scan cost ⟨hbytes, hfocused, hincoming⟩
    exact ⟨Nat.le_of_add_right_le hbytes, focusMeter.within_of_spend hfocused,
      incomingMeter.within_of_spend hincoming⟩

/-- What a node adds to the scan. -/
def Node.scanCost (snapshot : SnapshotView F) (node : Node F) : Nat × Nat × (Nat → Nat) :=
  (node.cost.1, node.focus, node.listed snapshot)

/-- The loop body asks what is asked of the node, and adds what the node costs. -/
theorem checkNode_costs {root i : Nat} (hroot : i ≠ root ↔ node.id ≠ snapshot.root) :
    (Scan.meter limits).CostsE (Admits snapshot limits node) (node.scanCost snapshot)
      fun scan => checkNode snapshot limits root scan (node, i) := by
  rintro scan t ⟨hbytes, hfocused, hincoming⟩
  have hsame := sameChecks snapshot limits node i
  have hstart : (Budget.meter limits).within { bytes := scan.bytes } :=
    ⟨hbytes, Nat.zero_le _, Nat.zero_le _⟩
  have hparent : (checkParent snapshot root node i).toOption.isSome = true ↔
      (node.id ≠ snapshot.root → node.parent ≠ 0 ∧ snapshot.isKnown node.parent = true) := by
    rw [checkParent, isSome_failIf, ← hroot]
    simp
  simp only [checkNode, toOption_bind, Option.bind_eq_some_iff]
  constructor
  · rintro ⟨focused, hf, budget, hb, incoming, hi, u₁, hp, u₂, hr, budget', he, u₃, hg, u₄, hv, u₅, hs,
      u₆, hsel, u₇, hc, u₈, hvirt, budget'', ht, heq⟩
    obtain ⟨hflags, hfwithin, rfl⟩ := (checkFlags_costs node i _ _ hfocused).1 hf
    obtain ⟨⟨htexts, hlanguage⟩, hbwithin, rfl⟩ := (checkStrings_costs node i _ _ hstart).1 hb
    obtain ⟨⟨hlengths, hdistinct, hchildren⟩, hiwithin, rfl⟩ :=
      (checkChildren_costs node i _ _ hincoming).1 hi
    obtain ⟨hextensions, hewithin, rfl⟩ := (checkExtensions_costs node _ _ hbwithin).1 he
    obtain ⟨htext, htwithin, rfl⟩ := (checkText_costs node i _ _ hewithin).1 ht
    rw [Meter.spend_add, Meter.spend_add] at htwithin heq
    obtain ⟨htotal, hnode, hvalues⟩ := htwithin
    refine ⟨⟨hflags, htexts, hlanguage, hlengths, hdistinct, hchildren,
      hparent.1 (Option.isSome_of_eq_some hp),
      Option.isSome_of_eq_some (hsame.relations.symm.trans hr), hextensions,
      Option.isSome_of_eq_some (hsame.geometry.symm.trans hg),
      Option.isSome_of_eq_some (hsame.rangeValue.symm.trans hv),
      Option.isSome_of_eq_some (hsame.scroll.symm.trans hs),
      Option.isSome_of_eq_some (hsame.selection.symm.trans hsel),
      Option.isSome_of_eq_some (hsame.collection.symm.trans hc),
      Option.isSome_of_eq_some (hsame.virtualization.symm.trans hvirt), htext,
      (Nat.zero_add _).symm.trans_le hnode, (Nat.zero_add _).symm.trans_le hvalues⟩,
      ⟨htotal, hfwithin, hiwithin⟩, (Option.some.inj heq).symm⟩
  · rintro ⟨h, ⟨htotal, hfwithin, hiwithin⟩, rfl⟩
    have hend : (Budget.meter limits).within
        ((Budget.meter limits).spend { bytes := scan.bytes } node.cost) :=
      ⟨htotal, (Nat.zero_add _).trans_le h.bytes, (Nat.zero_add _).trans_le h.values⟩
    have hcost : node.cost = (node.texts.map textCost).sum + ((node.extensions.map Extension.cost).sum +
      (node.text.map TextContent.cost).getD 0) := rfl
    rw [hcost, ← Meter.spend_add, ← Meter.spend_add] at hend
    have hewithin := Meter.within_of_spend _ hend
    have hbwithin := Meter.within_of_spend _ hewithin
    obtain ⟨u₁, hp⟩ := Option.isSome_iff_exists.1 (hparent.2 h.parent)
    obtain ⟨u₂, hr⟩ := Option.isSome_iff_exists.1 h.relations
    obtain ⟨u₃, hg⟩ := Option.isSome_iff_exists.1 h.geometry
    obtain ⟨u₄, hv⟩ := Option.isSome_iff_exists.1 h.rangeValue
    obtain ⟨u₅, hs⟩ := Option.isSome_iff_exists.1 h.scroll
    obtain ⟨u₆, hsel⟩ := Option.isSome_iff_exists.1 h.selection
    obtain ⟨u₇, hc⟩ := Option.isSome_iff_exists.1 h.collection
    obtain ⟨u₈, hvirt⟩ := Option.isSome_iff_exists.1 h.virtualization
    refine ⟨_, (checkFlags_costs node i _ _ hfocused).2 ⟨h.flags, hfwithin, rfl⟩,
      _, (checkStrings_costs node i _ _ hstart).2 ⟨⟨h.texts, h.language⟩, hbwithin, rfl⟩,
      _, (checkChildren_costs node i _ _ hincoming).2
        ⟨⟨h.lengths, h.distinct, h.children⟩, hiwithin, rfl⟩,
      u₁, hp, u₂, hsame.relations.trans hr,
      _, (checkExtensions_costs node _ _ hbwithin).2 ⟨h.extensions, hewithin, rfl⟩,
      u₃, hsame.geometry.trans hg, u₄, hsame.rangeValue.trans hv, u₅, hsame.scroll.trans hs,
      u₆, hsame.selection.trans hsel, u₇, hsame.collection.trans hc,
      u₈, hsame.virtualization.trans hvirt,
      _, (checkText_costs node i _ _ hewithin).2 ⟨h.text, hend, rfl⟩, ?_⟩
    rw [Meter.spend_add, Meter.spend_add]
    rfl

/-! ## The whole scan -/

omit [DoubleOps F] in
theorem listed_eq_count (node : Node F) (x : Nat) :
    node.listed snapshot x = (node.children.map snapshot.find).count x := by
  unfold Node.listed
  induction node.children with
  | nil => rfl
  | cons child rest ih =>
    rw [List.map_cons, List.sum_cons, List.map_cons, List.count_cons, Pi.add_apply, ih, Nat.add_comm]
    by_cases hx : snapshot.find child = x
    · simp [hx]
    · simp [hx]

omit [DoubleOps F] in
theorem sum_scanCost (snapshot : SnapshotView F) (nodes : List (Node F)) :
    (nodes.map (·.scanCost snapshot)).sum = ((nodes.map (·.cost.1)).sum, (nodes.map (·.focus)).sum,
      fun x => (kidsOf snapshot nodes).count x) := by
  induction nodes with
  | nil => rfl
  | cons node nodes ih =>
    have hkids : kidsOf snapshot (node :: nodes) =
        node.children.map snapshot.find ++ kidsOf snapshot nodes := rfl
    rw [List.map_cons, List.sum_cons, ih]
    ext x <;> simp [Node.scanCost, hkids, listed_eq_count]

/-- What is asked of all nodes, but for the shape of the tree. -/
structure Admissible (snapshot : SnapshotView F) (limits : Limits) : Prop where
  valid : validLimits limits = true
  generation : snapshot.generation ≠ 0
  nonempty : snapshot.nodes ≠ []
  size : snapshot.nodes.length ≤ limits.maximumNodes
  admits : ∀ node ∈ snapshot.nodes, Admits snapshot limits node
  bytes : (snapshot.nodes.map (·.cost.1)).sum ≤ limits.maximumTotalTextBytes
  focused : (snapshot.nodes.map (·.focus)).sum ≤ 1

/-- The scan of the nodes. -/
theorem scan_costs (hd : snapshot.ids.Nodup) (hroot : snapshot.root ∈ snapshot.ids) :
    (Scan.meter limits).CostsE (∀ node ∈ snapshot.nodes, Admits snapshot limits node)
      (snapshot.nodes.map (·.scanCost snapshot)).sum fun scan =>
        snapshot.nodes.zipIdx.foldlM (checkNode snapshot limits (snapshot.find snapshot.root)) scan := by
  refine (Meter.CostsE.foldlM (P := fun entry : Node F × Nat => Admits snapshot limits entry.1)
    fun entry hentry => checkNode_costs ?_).congr ?_ ?_
  · have hat := List.mem_zipIdx_iff_getElem?.1 (show (entry.1, entry.2) ∈ _ from hentry)
    have hid : entry.1.id ∈ snapshot.ids := List.mem_map_of_mem (List.mem_of_getElem? hat)
    rw [← SnapshotView.find_eq hd hat]
    exact not_congr ⟨find_inj hd hid hroot, congrArg _⟩
  · rw [← List.forall_mem_map (f := Prod.fst), List.zipIdx_map_fst]
  · show (snapshot.nodes.zipIdx.map ((·.scanCost snapshot) ∘ Prod.fst)).sum = _
    rw [← List.map_map, List.zipIdx_map_fst]

omit [DoubleOps F] in
/-- The limits of the scan, over the nodes in any order. -/
theorem scan_within_iff :
    (Scan.meter limits).within ((Scan.meter limits).spend {}
      (snapshot.nodes.map (·.scanCost snapshot)).sum) ↔
      (snapshot.nodes.map (·.cost.1)).sum ≤ limits.maximumTotalTextBytes ∧
        (snapshot.nodes.map (·.focus)).sum ≤ 1 ∧ (kidsOf snapshot snapshot.nodes).Nodup := by
  rw [sum_scanCost, List.nodup_iff_count_le_one]
  simp [Scan.meter, focusMeter, incomingMeter]

theorem admissible_of_checkNodes {root : Nat} (h : checkNodes snapshot limits = .ok root) :
    Admissible snapshot limits := by
  have hspec : Yields (Checked snapshot) (Spares snapshot) (checkNodes snapshot limits) :=
    checkNodes_spec
  have hchecked : Checked snapshot root := hspec.of_ok h
  have hsome : (checkNodes snapshot limits).toOption = some root := congrArg Except.toOption h
  simp only [checkNodes, toOption_bind, Option.bind_eq_some_iff, toOption_failIf] at hsome
  obtain ⟨_, hvalid, _, hgeneration, _, hnonempty, _, hsize, -, -, -, -, -, -, scan, hscan, -⟩ := hsome
  obtain ⟨hadmits, hwithin, -⟩ := (scan_costs hchecked.distinct hchecked.known _ _
    ⟨Nat.zero_le _, Nat.zero_le _, fun _ => Nat.zero_le _⟩).1 hscan
  obtain ⟨hbytes, hfocused, -⟩ := scan_within_iff.1 hwithin
  refine ⟨?_, ?_, ?_, ?_, hadmits, hbytes, hfocused⟩
  · simpa using hvalid
  · simpa using hgeneration
  · simpa using hnonempty
  · simpa using hsize

theorem checkNodes_of_admissible (h : Admissible snapshot limits) (htree : snapshot.IsTree) :
    checkNodes snapshot limits = .ok (snapshot.find snapshot.root) := by
  have hd := htree.distinct
  obtain ⟨rootNode, hmem, hid, hzero⟩ := htree.root
  have hroot : snapshot.root ∈ snapshot.ids := hid ▸ List.mem_map_of_mem hmem
  obtain ⟨i, hat⟩ := List.mem_iff_getElem?.1 hmem
  have hfound : snapshot.find snapshot.root = i := hid ▸ SnapshotView.find_eq hd hat
  have hids : (checkIds snapshot).toOption.isSome = true := by
    refine (isSome_toOption_forM _ _).2 fun entry hentry => (isSome_failIf _ _).2 ?_
    have hat := List.mem_zipIdx_iff_getElem?.1 (show (entry.1, entry.2) ∈ _ from hentry)
    have hne : entry.1.id ≠ 0 := fun heq =>
      htree.nonzero (List.mem_map.2 ⟨entry.1, List.mem_of_getElem? hat, heq⟩)
    simpa using hne
  have hdistinct : (checkDistinct snapshot.index).toOption.isSome = true := by
    have hcases := checkDistinct_cases snapshot.index SnapshotView.pairwise_index
    cases hcheck : checkDistinct snapshot.index with
    | ok u => rfl
    | error result =>
      rw [hcheck] at hcases
      exact absurd ((SnapshotView.index_fst_perm snapshot).nodup_iff.2 hd) hcases.2
  have hscan := (scan_costs hd hroot {} _ ⟨Nat.zero_le _, Nat.zero_le _, fun _ => Nat.zero_le _⟩).2
    ⟨h.admits, scan_within_iff.2 ⟨h.bytes, h.focused, htree.kidsOf_nodup⟩, rfl⟩
  have hincoming : ((Scan.meter limits).spend {} (snapshot.nodes.map (·.scanCost snapshot)).sum).incoming =
      fun x => (kidsOf snapshot snapshot.nodes).count x := by
    rw [sum_scanCost]
    exact zero_add _
  have hlisted : ((List.range snapshot.nodes.length).forM fun i =>
      failIf (i ≠ snapshot.find snapshot.root && (kidsOf snapshot snapshot.nodes).count i ≠ 1)
        (fail .parentMismatch (snapshot.node i).id i)).toOption.isSome = true := by
    refine (isSome_toOption_forM _ _).2 fun i hi => (isSome_failIf _ _).2 ?_
    by_cases hne : i = snapshot.find snapshot.root
    · simp [hne]
    · have hcount := List.count_eq_one_of_mem htree.kidsOf_nodup
        (htree.mem_kidsOf_of_ne (List.mem_range.1 hi) hne)
      simp [hcount]
  have hsome : (checkNodes snapshot limits).toOption = some (snapshot.find snapshot.root) := by
    obtain ⟨u, hids⟩ := Option.isSome_iff_exists.1 hids
    obtain ⟨v, hdistinct⟩ := Option.isSome_iff_exists.1 hdistinct
    obtain ⟨w, hlisted⟩ := Option.isSome_iff_exists.1 hlisted
    simp only [checkNodes, toOption_bind, Option.bind_eq_some_iff, toOption_failIf]
    refine ⟨(), by simp [h.valid], (), by simp [h.generation], (), by simp [h.nonempty],
      (), by simpa using h.size, u, hids, v, hdistinct, (), ?_, _, hscan, (), ?_, w, ?_, rfl⟩
    · rw [hfound, SnapshotView.node_eq hat]
      simp [hzero, ((List.getElem?_eq_some_iff.1 hat).1).ne]
    · rw [hincoming]
      simp [List.count_eq_zero.2 htree.root_notMem_kidsOf]
    · rw [hincoming]
      exact hlisted
  cases hrun : checkNodes snapshot limits with
  | ok root =>
    rw [hrun] at hsome
    exact congrArg _ (Option.some.inj hsome)
  | error result =>
    rw [hrun] at hsome
    cases hsome

/-! ## Containment, the other way -/

section Containment

omit [DoubleOps F]

variable {root : Nat}

/-- The nodes whose nearest table the traversal has found, and those it has not come to. -/
structure Gridded (snapshot : SnapshotView F) (done : List Nat) (t : Traversal) : Prop where
  found : ∀ x ∈ done, t.grid x < snapshot.nodes.length →
    snapshot.NearestGrid (snapshot.node x) (snapshot.node (t.grid x))
  later : ∀ x, x ∉ done → t.grid x = snapshot.nodes.length

theorem Gridded.visit (h : Checked snapshot root) {done : List Nat} {t : Traversal} {i : Nat}
    (hi : i < snapshot.nodes.length) (hnew : i ∉ done)
    (hparent : ∀ p, snapshot.parent i = some p → p ∈ done) (ht : Gridded snapshot done t) :
    Gridded snapshot (done ++ [i]) (visit snapshot t i) := by
  have hother : ∀ x, x ≠ i → (Desktop.visit snapshot t i).grid x = t.grid x := by
    intro x hne
    unfold Desktop.visit
    cases snapshot.parent i with
    | none => rfl
    | some p => exact Function.update_of_ne hne _ _
  refine ⟨fun x hx hlt => ?_, fun x hx => ?_⟩
  · rcases List.mem_append.1 hx with hx | hx
    · have hne : x ≠ i := fun heq => hnew (heq ▸ hx)
      rw [hother x hne] at hlt ⊢
      exact ht.found x hx hlt
    · obtain rfl := List.mem_singleton.1 hx
      cases hp : snapshot.parent x with
      | none =>
        have hgrid : (Desktop.visit snapshot t x).grid = t.grid := by
          simp [Desktop.visit, hp]
        rw [hgrid, ht.later x hnew] at hlt
        omega
      | some p =>
        have hkid := (h.parent_iff hi).1 hp
        have hmem := (Checked.node_of_lt (Checked.lt_of_mem_kids hkid)).2
        have hid := (h.kid hkid).2.1.symm
        have hgrid : (Desktop.visit snapshot t x).grid x =
            if isGrid snapshot p then p else t.grid p := by
          simp [Desktop.visit, hp]
        rw [hgrid] at hlt ⊢
        by_cases htable : isGrid snapshot p = true
        · rw [if_pos htable]
          exact .parent hmem hid ((isGrid_iff p).1 htable)
        · rw [if_neg htable] at hlt ⊢
          exact .above hmem hid (fun hgrid => htable ((isGrid_iff p).2 hgrid))
            (ht.found p (hparent p hp) hlt)
  · rw [List.mem_append, not_or] at hx
    rw [hother x fun heq => hx.2 (List.mem_singleton.2 heq)]
    exact ht.later x hx.1

theorem gridded (h : Checked snapshot root) {pre : Nat → List Nat}
    (hpre : IsPreorder snapshot.kids pre) :
    Gridded snapshot (pre root) (traversed snapshot (pre root)) :=
  h.foldl_visit hpre (I := Gridded snapshot) (fun _ _ _ hi hnew hparent ht => ht.visit h hi hnew hparent)
    ⟨by simp, fun _ _ => rfl⟩

/-- The nearest table has collection data. -/
theorem collection_of_nearestGrid {a g : Node F} (h : snapshot.NearestGrid a g) :
    g.collection.isSome = true := by
  induction h with
  | parent _ _ hgrid => exact hgrid.2
  | above _ _ _ _ ih => exact ih

/-- Declared parents are positions above. -/
theorem below_of_isParent (h : Checked snapshot root) {a b : NodeId} (ha : a ∈ snapshot.ids)
    (hab : Relation.TransGen snapshot.IsParent a b) :
    b ∈ snapshot.ids ∧ Relation.TransGen (Child snapshot.kids) (snapshot.find a) (snapshot.find b) := by
  have hstep : ∀ a b, a ∈ snapshot.ids → snapshot.IsParent a b →
      b ∈ snapshot.ids ∧ Child snapshot.kids (snapshot.find a) (snapshot.find b) := by
    rintro a b ha ⟨node, hnode, rfl, rfl⟩
    obtain ⟨i, hat⟩ := List.mem_iff_getElem?.1 hnode
    have hne : node.parent ≠ 0 := fun hzero => h.nonzero (hzero ▸ ha)
    refine ⟨List.mem_map_of_mem hnode, ?_⟩
    rw [SnapshotView.find_eq h.distinct hat]
    refine (h.parent_iff (List.getElem?_eq_some_iff.1 hat).1).1 ?_
    rw [SnapshotView.parent, SnapshotView.node_eq hat, if_neg hne]
  induction hab with
  | single hab => exact (hstep _ _ ha hab).imp_right .single
  | tail _ hbc ih =>
    obtain ⟨hb, hbelow⟩ := ih
    exact (hstep _ _ hb hbc).imp_right hbelow.tail

/-- In an accepted tree the last loop finds nothing. -/
theorem contained_of_accepted (h : Checked snapshot root) (haccepted : Accepted snapshot)
    {pre : Nat → List Nat} (hpre : IsPreorder snapshot.kids pre)
    (hall : ∀ i < snapshot.nodes.length, i ∈ pre root) {i : Nat} {node : Node F}
    (hat : snapshot.nodes[i]? = some node) :
    Contained snapshot (traversed snapshot (pre root))
      (Lib.addSizes snapshot.parent (traversed snapshot (pre root)).traversal fun _ => 1) node i := by
  have hwalked : Walked snapshot (pre root) (traversed snapshot (pre root)) := walked h hpre _ rfl
  have hinside : ∀ i ∈ pre root, i < snapshot.nodes.length := fun i => h.lt_of_mem_pre hpre
  have hnode := List.mem_of_getElem? hat
  have hlt := (List.getElem?_eq_some_iff.1 hat).1
  have hi := hall i hlt
  refine ⟨fun selection hsome id hid => ?_, fun hcell hgrid item hitem => ?_⟩
  · obtain ⟨hknown, hbelow⟩ := haccepted.2.1 node hnode selection hsome id hid
    have hpositions := (below_of_isParent h (List.mem_map_of_mem hnode) hbelow).2
    rw [SnapshotView.find_eq h.distinct hat] at hpositions
    have hfound := hall _ (h.find_lt hknown).1
    rw [hwalked.traversal, hpre.addSizes_eq h.forest (fun a b hb => h.parent_iff (hinside b hb)) hi,
      hwalked.ordinal _ hfound, hwalked.ordinal _ hi]
    exact hpre.idxOf_of_below (hpre.nodup h.forest root) hi hpositions
  · have hnearest := (gridded h hpre).found i hi hgrid
    obtain ⟨container, hcontainer⟩ := Option.isSome_iff_exists.1 (collection_of_nearestGrid hnearest)
    rw [SnapshotView.node_eq hat] at hnearest
    rw [hcontainer]
    exact haccepted.2.2 node hnode hcell item hitem _ hnearest container hcontainer

theorem checkContained_of_contained {t : Traversal} {subtree : Nat → Nat} {i : Nat}
    (h : Contained snapshot t subtree node i) :
    (checkContained snapshot t subtree (node, i)).toOption.isSome = true := by
  have hselected : (checkSelected snapshot t subtree node i).toOption.isSome = true := by
    unfold checkSelected
    cases hsome : node.selection with
    | none => rfl
    | some selection =>
      refine (isSome_toOption_forM _ _).2 fun id hid => ?_
      simpa using h.selection selection hsome id hid
  have hcell : (checkCell snapshot t node i).toOption.isSome = true := by
    unfold checkCell
    cases hsome : node.collection with
    | none => rfl
    | some item =>
      dsimp only
      split
      · rename_i hguard
        simp only [Bool.and_eq_true, Bool.or_eq_true, decide_eq_true_eq] at hguard
        have hinside := h.cell (by simpa [Node.IsCell, or_assoc] using hguard.2) hguard.1 item hsome
        have hrow := hinside.row
        have hrowEnd := hinside.rowEnd
        have hcolumn := hinside.column
        have hcolumnEnd := hinside.columnEnd
        simp
        omega
      · rfl
  obtain ⟨u, hselected⟩ := Option.isSome_iff_exists.1 hselected
  rw [checkContained, toOption_bind, hselected]
  exact hcell

end Containment

/-! ## Acceptance -/

/-- **What the validation accepts**, in no order of the nodes. -/
structure Acceptable (snapshot : SnapshotView F) (limits : Limits) : Prop where
  admissible : Admissible snapshot limits
  accepted : Accepted snapshot

theorem acceptable_of_validate {fuel : Nat} {r : ValidationResult}
    (h : validate snapshot limits fuel = some r) (hok : r.ok = true) : Acceptable snapshot limits := by
  obtain ⟨r', hrun, haccepted, -⟩ := validate_cases snapshot limits
  have hmono := validate_mono h (Nat.le_max_left fuel (snapshot.nodes.length + 1))
  rw [hrun _ (by omega)] at hmono
  obtain rfl := Option.some.inj hmono
  cases hnodes : checkNodes snapshot limits with
  | ok root => exact ⟨admissible_of_checkNodes hnodes, haccepted hok⟩
  | error result =>
    have hspec : Yields (Checked snapshot) (Spares snapshot) (checkNodes snapshot limits) :=
      checkNodes_spec
    rw [validate, hnodes] at h
    obtain rfl := Option.some.inj h
    exact absurd ((hspec.of_error hnodes).1.symm.trans hok) (by decide)

theorem Acceptable.validate (h : Acceptable snapshot limits) {fuel : Nat}
    (hfuel : snapshot.nodes.length < fuel) : Desktop.validate snapshot limits fuel = some {} := by
  have hnodes := checkNodes_of_admissible h.admissible h.accepted.1
  have hspec : Yields (Checked snapshot) (Spares snapshot) (checkNodes snapshot limits) :=
    checkNodes_spec
  have hchecked := hspec.of_ok hnodes
  obtain ⟨work, hbreadth, hpass⟩ := hchecked.pass
  obtain ⟨pre, hpre, hall, hresult⟩ := hchecked.validate_eq hnodes hbreadth hpass
    (hchecked.length_of_isTree h.accepted.1 hpass)
  have hloop : (containedChecks snapshot
      (traversed snapshot (pre (snapshot.find snapshot.root)))).toOption.isSome = true := by
    refine (isSome_toOption_forM _ _).2 fun entry hentry => checkContained_of_contained ?_
    exact contained_of_accepted hchecked h.accepted hpre hall (List.mem_zipIdx_iff_getElem?.1 hentry)
  rw [hresult fuel hfuel]
  cases hchecks : containedChecks snapshot
      (traversed snapshot (pre (snapshot.find snapshot.root))) with
  | ok u => rfl
  | error result =>
    rw [hchecks] at hloop
    cases hloop

theorem validate_ok_iff {fuel : Nat} (hfuel : snapshot.nodes.length < fuel) :
    (∃ r, validate snapshot limits fuel = some r ∧ r.ok = true) ↔ Acceptable snapshot limits :=
  ⟨fun ⟨_, h, hok⟩ => acceptable_of_validate h hok, fun h => ⟨{}, h.validate hfuel, rfl⟩⟩

/-! ## The order of the nodes -/

/-- The same nodes in another order. -/
structure SameNodes (s t : SnapshotView F) : Prop where
  generation : t.generation = s.generation
  root : t.root = s.root
  nodes : t.nodes.Perm s.nodes

namespace SameNodes

variable {s t : SnapshotView F}

omit [DoubleOps F]

theorem mem (h : SameNodes s t) {node : Node F} : node ∈ t.nodes ↔ node ∈ s.nodes := h.nodes.mem_iff

theorem ids (h : SameNodes s t) : t.ids.Perm s.ids := h.nodes.map Node.id

theorem isKnown (h : SameNodes s t) (hd : s.ids.Nodup) (id : NodeId) : t.isKnown id = s.isKnown id := by
  rw [Bool.eq_iff_iff, SnapshotView.isKnown_iff hd, SnapshotView.isKnown_iff (h.ids.nodup_iff.2 hd),
    h.ids.mem_iff]

/-- The node behind an identity. -/
theorem node_find (h : SameNodes s t) (hd : s.ids.Nodup) (id : NodeId) :
    t.node (t.find id) = s.node (s.find id) := by
  have hd' := h.ids.nodup_iff.2 hd
  by_cases hid : id ∈ s.ids
  · obtain ⟨node, hat, hnode⟩ := SnapshotView.find_lt hd hid
    obtain ⟨node', hat', hnode'⟩ := SnapshotView.find_lt hd' (h.ids.mem_iff.2 hid)
    rw [SnapshotView.node_eq hat, SnapshotView.node_eq hat']
    exact eq_of_id hd (h.mem.1 (List.mem_of_getElem? hat')) (List.mem_of_getElem? hat)
      (hnode'.trans hnode.symm)
  · have hid' : id ∉ t.ids := fun hmem => hid (h.ids.mem_iff.1 hmem)
    rw [SnapshotView.find_of_notMem hid, SnapshotView.find_of_notMem hid']
    simp [SnapshotView.node]

theorem lists (h : SameNodes s t) : t.Lists = s.Lists := by
  ext a b
  simp [SnapshotView.Lists, h.mem]

theorem isParent (h : SameNodes s t) : t.IsParent = s.IsParent := by
  ext a b
  simp [SnapshotView.IsParent, h.mem]

theorem nearestGrid (h : SameNodes s t) {a g : Node F} (hg : t.NearestGrid a g) : s.NearestGrid a g := by
  induction hg with
  | parent hmem hid hgrid => exact .parent (h.mem.1 hmem) hid hgrid
  | above hmem hid hgrid _ ih => exact .above (h.mem.1 hmem) hid hgrid ih

theorem accepted (h : SameNodes s t) (hs : Accepted s) : Accepted t := by
  obtain ⟨htree, hselects, hcells⟩ := hs
  refine ⟨⟨?_, h.ids.nodup_iff.2 htree.distinct, ?_, ?_, ?_, ?_, ?_⟩, ?_, ?_⟩
  · exact fun hzero => htree.nonzero (h.ids.mem_iff.1 hzero)
  · rw [h.isParent, h.root]
    exact htree.root
  · intro node hnode hne
    rw [h.root] at hne
    obtain ⟨parent, hparent, hid, hcount⟩ := htree.listed node (h.mem.1 hnode) hne
    exact ⟨parent, h.mem.2 hparent, hid, hcount⟩
  · rw [h.lists, h.isParent]
    exact htree.declared
  · intro id hid
    rw [h.lists, h.root]
    exact htree.reachable id (h.ids.mem_iff.1 hid)
  · intro node hnode
    have hresolves := htree.resolves node (h.mem.1 hnode)
    refine ⟨fun relation hrelation target htarget => ?_, fun text htext item hitem hne => ?_,
      fun entry hentry id hid => ?_⟩
    · exact h.ids.mem_iff.2 (hresolves.relations relation hrelation target htarget)
    · exact h.ids.mem_iff.2 (hresolves.annotations text htext item hitem hne)
    · exact h.ids.mem_iff.2 (hresolves.extensions entry hentry id hid)
  · intro node hnode selection hsome id hid
    obtain ⟨hknown, hbelow⟩ := hselects node (h.mem.1 hnode) selection hsome id hid
    rw [h.isParent]
    exact ⟨h.ids.mem_iff.2 hknown, hbelow⟩
  · intro node hnode hcell item hitem grid hgrid container hcontainer
    exact hcells node (h.mem.1 hnode) hcell item hitem grid (h.nearestGrid hgrid) container hcontainer

/-- What is asked of a node depends on the nodes by their identities. -/
theorem admits [DoubleOps F] (h : SameNodes s t) (hd : s.ids.Nodup) {node : Node F}
    (hs : Admits s limits node) : Admits t limits node := by
  have hd' := h.ids.nodup_iff.2 hd
  have hreferences : ∀ value : ExtensionValue F, checkReferences t value = checkReferences s value := by
    intro value
    rw [Bool.eq_iff_iff, checkReferences_iff hd, checkReferences_iff hd']
    simp only [h.ids.mem_iff]
  have hrelations : checkRelation t limits node 0 = checkRelation s limits node 0 := by
    funext seen relation
    simp only [checkRelation, h.isKnown hd]
  have hselection : checkSelection t limits node 0 = checkSelection s limits node 0 := by
    simp only [checkSelection, h.isKnown hd, h.node_find hd]
  exact
    { flags := hs.flags
      texts := hs.texts
      language := hs.language
      lengths := hs.lengths
      distinct := hs.distinct
      children := fun child hchild => by
        have hadmits := hs.children child hchild
        have hknown : s.isKnown child = true := decide_eq_true hadmits.known
        rw [← h.isKnown hd] at hknown
        exact ⟨of_decide_eq_true hknown, h.node_find hd child ▸ hadmits.parent⟩
      parent := fun hne => by
        rw [h.isKnown hd]
        exact hs.parent (h.root ▸ hne)
      relations := hrelations ▸ hs.relations
      extensions := fun entry hentry => by
        have hadmits := hs.extensions entry hentry
        exact ⟨hadmits.named, hadmits.first, hadmits.utf8, hadmits.value,
          (hreferences _).trans hadmits.references⟩
      geometry := hs.geometry
      rangeValue := hs.rangeValue
      scroll := hs.scroll
      selection := hselection ▸ hs.selection
      collection := hs.collection
      virtualization := hs.virtualization
      text := fun text htext => by
        have hadmits := hs.text text htext
        refine ⟨hadmits.utf8, hadmits.language, hadmits.direction, hadmits.fits, hadmits.selections,
          fun item hitem => ?_, hadmits.fragments, hadmits.ranges, hadmits.caret⟩
        have hitem := hadmits.annotations item hitem
        exact ⟨hitem.range, hitem.kind, hitem.language, h.isKnown hd _ ▸ hitem.target, hitem.utf8⟩
      bytes := hs.bytes
      values := hs.values }

end SameNodes

/-- **The order of the nodes does not matter.** -/
theorem Acceptable.perm {s t : SnapshotView F} (hs : Acceptable s limits) (h : SameNodes s t) :
    Acceptable t limits where
  admissible :=
    { valid := hs.admissible.valid
      generation := h.generation ▸ hs.admissible.generation
      nonempty := fun hnil => hs.admissible.nonempty (hnil ▸ h.nodes).symm.eq_nil
      size := h.nodes.length_eq ▸ hs.admissible.size
      admits := fun node hnode =>
        h.admits hs.accepted.1.distinct (hs.admissible.admits node (h.mem.1 hnode))
      bytes := (h.nodes.map fun node => node.cost.1).sum_eq.trans_le hs.admissible.bytes
      focused := (h.nodes.map fun node => node.focus).sum_eq.trans_le hs.admissible.focused }
  accepted := h.accepted hs.accepted

end Desktop

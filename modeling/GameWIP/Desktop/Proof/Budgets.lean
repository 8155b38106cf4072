import GameWIP.Desktop.SnapshotBuilder
import GameWIP.Lib.Meter
import Mathlib.Algebra.Group.Nat.Defs
import Mathlib.Algebra.Group.Prod

/-!
# The two budgets

The validation and the builder count the same: the strings, values and depths of a node
(`Node.cost`). What the validation accepts from its budget (`Budget.string_costs`,
`Budget.extension_costs`) the builder accepts from its own (`NodeCount.string_costs`,
`NodeCount.extension_costs`).
-/

namespace Desktop

open Lib (Meter)

variable {F : Type} {limits : Limits}

/-! ## Costs -/

/-- The bytes of a text; the second component counts values. -/
def textCost (text : List UInt8) : Nat × Nat := (text.length, 0)

mutual

/-- The bytes and the number of values. -/
def ExtensionValue.cost : ExtensionValue F → Nat × Nat
  | .utf8 value => (0, 1) + textCost value
  | .list values => (0, 1) + ExtensionValue.costList values
  | _ => (0, 1)

def ExtensionValue.costList : List (ExtensionValue F) → Nat × Nat
  | [] => 0
  | item :: rest => item.cost + ExtensionValue.costList rest

end

mutual

/-- The depth, the lengths of the lists and the kinds. -/
def ExtensionValue.Fits (limits : Limits) : ExtensionValue F → Nat → Prop
  | .list values, depth => depth ≤ limits.maximumExtensionDepth ∧
    values.length ≤ limits.maximumExtensionListItems ∧ ExtensionValue.FitsList limits values (depth + 1)
  | .unknown _, _ => False
  | _, depth => depth ≤ limits.maximumExtensionDepth

def ExtensionValue.FitsList (limits : Limits) : List (ExtensionValue F) → Nat → Prop
  | [], _ => True
  | item :: rest, depth => item.Fits limits depth ∧ ExtensionValue.FitsList limits rest depth

end

section

variable [DoubleOps F]

mutual

/-- The payloads. -/
def ExtensionValue.Sound : ExtensionValue F → Prop
  | .real value => DoubleOps.isfinite value = true
  | .utf8 value => validUtf8 value = true
  | .nodeReference value => value ≠ 0
  | .list values => ExtensionValue.SoundList values
  | _ => True

def ExtensionValue.SoundList : List (ExtensionValue F) → Prop
  | [] => True
  | item :: rest => item.Sound ∧ ExtensionValue.SoundList rest

end

end

def Extension.cost (entry : Extension F) : Nat × Nat :=
  textCost entry.namespaceName + (textCost entry.name + entry.value.cost)

/-- The texts that every node has. -/
def Node.texts (node : Node F) : List (List UInt8) :=
  [node.name, node.description, node.helpText, node.value, node.language, node.accessKey,
    node.keyboardShortcut]

def TextContent.cost (text : TextContent F) : Nat × Nat :=
  textCost text.utf8 + (textCost text.language +
    (text.annotations.map fun item => textCost item.value).sum)

/-- The number of targets of its relations. -/
def Node.targets (node : Node F) : Nat := (node.relations.map (·.targets.length)).sum

/-- The numbers of the parts of a text. -/
def TextContent.Fits (limits : Limits) (text : TextContent F) : Prop :=
  text.annotations.length ≤ limits.maximumTextAnnotationsPerNode ∧
    text.fragments.length ≤ limits.maximumTextFragmentsPerNode ∧
    text.selection.length ≤ limits.maximumTextSelectionsPerNode

/-- The numbers of the parts of a node. -/
structure Node.Fits (limits : Limits) (node : Node F) : Prop where
  children : node.children.length ≤ limits.maximumChildrenPerNode
  relations : node.relations.length ≤ limits.maximumRelationsPerNode
  extensions : node.extensions.length ≤ limits.maximumExtensionsPerNode
  targets : node.targets ≤ limits.maximumRelationTargetsPerNode
  values : ∀ entry ∈ node.extensions, entry.value.Fits limits 0
  selected : ∀ selection, node.selection = some selection →
    selection.selectedNodes.length ≤ limits.maximumNodes
  text : ∀ text, node.text = some text → text.Fits limits

/-- What a node costs in both budgets. -/
def Node.cost (node : Node F) : Nat × Nat :=
  (node.texts.map textCost).sum + ((node.extensions.map Extension.cost).sum +
    (node.text.map TextContent.cost).getD 0)

/-! ## The meters -/

/-- The budget of the validation. -/
def Budget.meter (limits : Limits) : Meter Budget (Nat × Nat) where
  spend budget cost :=
    { bytes := budget.bytes + cost.1
      nodeBytes := budget.nodeBytes + cost.1
      extensionValues := budget.extensionValues + cost.2 }
  within budget := budget.bytes ≤ limits.maximumTotalTextBytes ∧
    budget.nodeBytes ≤ limits.maximumTextBytesPerNode ∧
    budget.extensionValues ≤ limits.maximumExtensionValuesPerNode
  spend_zero _ := rfl
  spend_add budget c d := by
    simp [Nat.add_assoc]
  within_of_spend := by
    intro budget cost h
    dsimp only at h
    omega

/-- The budget of the builder for one node. -/
def NodeCount.meter (limits : Limits) : Meter NodeCount (Nat × Nat) where
  spend count cost :=
    { nodeBytes := count.nodeBytes + cost.1, values := count.values + cost.2 }
  within count := count.nodeBytes ≤ limits.maximumTextBytesPerNode ∧
    count.values ≤ limits.maximumExtensionValuesPerNode
  spend_zero _ := rfl
  spend_add count c d := by
    simp [Nat.add_assoc]
  within_of_spend := by
    intro count cost h
    dsimp only at h
    omega

/-- The targets of the relations of one node. -/
def targetsMeter (limits : Limits) : Meter Nat Nat where
  spend := (· + ·)
  within targets := targets ≤ limits.maximumRelationTargetsPerNode
  spend_zero := Nat.add_zero
  spend_add := Nat.add_assoc
  within_of_spend := by
    intro targets cost h
    omega

/-! ## The builder -/

namespace NodeCount

theorem string_costs (text : List UInt8) :
    (meter limits).Costs True (textCost text) (string limits text) := by
  rintro ⟨bytes, values⟩ t ⟨-, hvalues⟩
  have hfits : text.length ≤ limits.maximumTextBytesPerNode ∧
      bytes + text.length ≤ limits.maximumTextBytesPerNode ↔
        bytes + text.length ≤ limits.maximumTextBytesPerNode := by omega
  simp only [string, textCost, meter]
  split_ifs with hlong hfits' <;> grind

theorem enter_costs (depth : Nat) :
    (meter limits).Costs (depth ≤ limits.maximumExtensionDepth) (0, 1) (enter limits depth) := by
  rintro ⟨bytes, values⟩ t ⟨hbytes, -⟩
  simp only [enter, meter]
  split_ifs with hdeep hmany <;> grind

mutual

theorem extension_costs : ∀ (value : ExtensionValue F) (depth : Nat),
    (meter limits).Costs (value.Fits limits depth) value.cost (extension limits value depth)
  | .boolean _, depth | .signedInteger _, depth | .unsignedInteger _, depth | .real _, depth
  | .nodeReference _, depth => enter_costs depth
  | .utf8 value, depth => ((enter_costs depth).bind (string_costs value)).congr
    (by simp [ExtensionValue.Fits]) rfl
  | .list values, depth =>
    (enter_costs depth).bind
      (.check (P := values.length ≤ limits.maximumExtensionListItems) (by simp)
        (extensionList_costs values (depth + 1)))
  | .unknown _, depth =>
    ((enter_costs depth).bind (Meter.Costs.fails (c := 0))).congr
      (by simp [ExtensionValue.Fits]) rfl

theorem extensionList_costs : ∀ (values : List (ExtensionValue F)) (depth : Nat),
    (meter limits).Costs (ExtensionValue.FitsList limits values depth)
      (ExtensionValue.costList values) (extensionList limits values depth)
  | [], _ => Meter.Costs.pass
  | item :: rest, depth => (extension_costs item depth).bind (extensionList_costs rest depth)

end

theorem entry_costs (value : Extension F) :
    (meter limits).Costs (value.value.Fits limits 0) value.cost (entry limits · value) :=
  ((string_costs value.namespaceName).bind
    ((string_costs value.name).bind (extension_costs value.value 0))).congr (by simp) rfl

theorem text_costs (content : TextContent F) :
    (meter limits).Costs (content.Fits limits) content.cost (text limits content) := by
  refine (Meter.Costs.check (P := content.Fits limits) ?_ ((string_costs content.utf8).bind
    ((string_costs content.language).bind (.foldlM fun item _ => string_costs item.value)))).congr
      (by simp) rfl
  simp [TextContent.Fits, and_assoc]

theorem countTargets_costs (relation : Relation) :
    (targetsMeter limits).Costs True relation.targets.length (countTargets limits · relation) := by
  intro targets t htargets
  simp only [countTargets, targetsMeter]
  split_ifs <;> grind

/-- The count of the text a node may have. -/
def textOf (limits : Limits) (count : NodeCount) : Option (TextContent F) → Option NodeCount
  | none => some count
  | some content => count.text limits content

/-- The count of a node accepts exactly what fits. -/
theorem node_costs (value : Node F) :
    (meter limits).Costs (value.Fits limits) value.cost (node limits value) := by
  have htargets : (value.relations.foldlM (countTargets limits) 0).isSome = true ↔
      value.targets ≤ limits.maximumRelationTargetsPerNode := by
    rw [(Meter.Costs.foldlM fun relation _ => countTargets_costs relation).isSome (Nat.zero_le _)]
    simp [targetsMeter, Node.targets]
  have htext : (meter limits).Costs (∀ text, value.text = some text → text.Fits limits)
      ((value.text.map TextContent.cost).getD 0) fun count =>
        textOf limits count value.text := by
    cases value.text with
    | none => exact Meter.Costs.pass.congr (by simp) rfl
    | some content => exact (text_costs content).congr (by simp) rfl
  have hselected : (meter limits).Costs _ _ _ := Meter.Costs.check
    (P := ∀ selection, value.selection = some selection →
      selection.selectedNodes.length ≤ limits.maximumNodes)
    (b := value.selection.any fun selection => selection.selectedNodes.length > limits.maximumNodes)
    (by cases value.selection <;> simp) htext
  have hextensions := (Meter.Costs.foldlM fun entry (_ : entry ∈ value.extensions) =>
    entry_costs entry).bind hselected
  have hlengths : (meter limits).Costs _ _ _ := Meter.Costs.check
    (P := value.children.length ≤ limits.maximumChildrenPerNode ∧
      value.relations.length ≤ limits.maximumRelationsPerNode ∧
      value.extensions.length ≤ limits.maximumExtensionsPerNode)
    (b := (value.children.length > limits.maximumChildrenPerNode ||
      value.relations.length > limits.maximumRelationsPerNode ||
      value.extensions.length > limits.maximumExtensionsPerNode) = true)
    (by simp [and_assoc]) (Meter.Costs.after htargets hextensions)
  refine ((Meter.Costs.foldlM fun text _ => string_costs text).bind hlengths).congr ?_ rfl
  constructor
  · rintro ⟨-, ⟨hchildren, hrelations, hextensions⟩, htargets, hvalues, hselected, htext⟩
    exact ⟨hchildren, hrelations, hextensions, htargets, hvalues, hselected, htext⟩
  · intro h
    exact ⟨by simp, ⟨h.children, h.relations, h.extensions⟩, h.targets, h.values, h.selected, h.text⟩

end NodeCount

/-- **The budget of the builder**: what fits and stays within the limits. -/
theorem boundedNode_iff {node : Node F} {bytes bytes' : Nat} :
    boundedNode node limits bytes = some bytes' ↔ node.Fits limits ∧
      node.cost.1 ≤ limits.maximumTextBytesPerNode ∧
      node.cost.2 ≤ limits.maximumExtensionValuesPerNode ∧
      bytes + node.cost.1 ≤ limits.maximumTotalTextBytes ∧ bytes' = bytes + node.cost.1 := by
  have hcosts := fun count => @NodeCount.node_costs _ limits node {} count
    ⟨Nat.zero_le _, Nat.zero_le _⟩
  simp only [NodeCount.meter, Nat.zero_add] at hcosts
  simp only [boundedNode, Option.bind_eq_bind, Option.bind_eq_some_iff, hcosts]
  constructor
  · rintro ⟨count, ⟨hfits, ⟨hbytes, hvalues⟩, rfl⟩, hsome⟩
    grind
  · rintro ⟨hfits, hbytes, hvalues, htotal, rfl⟩
    exact ⟨_, ⟨hfits, ⟨hbytes, hvalues⟩, rfl⟩, by simp [htotal]⟩

/-! ## The validation -/

namespace Budget

theorem string_costs (value : List UInt8) :
    (meter limits).CostsE (validUtf8 value = true) (textCost value) (string limits value) := by
  rintro ⟨bytes, nodeBytes, values⟩ t ⟨-, -, hvalues⟩
  simp only [string, textCost, meter]
  split_ifs with hlong hvalid <;> simp [Except.toOption] <;> grind

theorem enter_costs (depth : Nat) :
    (meter limits).CostsE (depth ≤ limits.maximumExtensionDepth) (0, 1) (enter limits depth) := by
  rintro ⟨bytes, nodeBytes, values⟩ t ⟨hbytes, hnode, -⟩
  simp only [enter, meter]
  split_ifs with hmany <;> simp [Except.toOption] <;> grind

variable [DoubleOps F]

mutual

theorem extension_costs : ∀ (value : ExtensionValue F) (depth : Nat),
    (meter limits).CostsE (value.Fits limits depth ∧ value.Sound) value.cost
      (extension limits value depth)
  | .boolean _, depth | .signedInteger _, depth | .unsignedInteger _, depth =>
    (enter_costs depth).congr (by simp [ExtensionValue.Fits, ExtensionValue.Sound]) rfl
  | .real value, depth => ((enter_costs depth).bind Meter.CostsE.require).congr Iff.rfl rfl
  | .utf8 value, depth => (enter_costs depth).bind (string_costs value)
  | .nodeReference value, depth => ((enter_costs depth).bind Meter.CostsE.require).congr Iff.rfl rfl
  | .list values, depth => by
    refine ((enter_costs depth).bind
      (.check (P := values.length ≤ limits.maximumExtensionListItems) (by simp)
        (extensionList_costs values (depth + 1)))).congr ?_ rfl
    simp [ExtensionValue.Fits, ExtensionValue.Sound, and_assoc]
  | .unknown _, depth =>
    ((enter_costs depth).bind (Meter.CostsE.fails (c := 0))).congr
      (by simp [ExtensionValue.Fits]) rfl

theorem extensionList_costs : ∀ (values : List (ExtensionValue F)) (depth : Nat),
    (meter limits).CostsE
      (ExtensionValue.FitsList limits values depth ∧ ExtensionValue.SoundList values)
      (ExtensionValue.costList values) (extensionList limits values depth)
  | [], _ => Meter.CostsE.pass.congr (by simp [ExtensionValue.FitsList, ExtensionValue.SoundList]) rfl
  | item :: rest, depth =>
    ((extension_costs item depth).bind (extensionList_costs rest depth)).congr
      (by simp [ExtensionValue.FitsList, ExtensionValue.SoundList]; tauto) rfl

end

end Budget

end Desktop

import Mathlib.Data.List.InsertIdx
import Mathlib.Data.List.Perm.Subperm
import GameWIP.Action.Bindings
import GameWIP.Action.Proof.ActionMap

/-!
# The two vectors of an action map are one list of entries

A `BindingRun` keeps, beside the map, the list of its entries: an entry is a binding with its
runtime state under a number of its own. `BindingRun.Kept` says that the two vectors of the map are
the projections of that list, that no two bindings are the same and that the modifiers of each are
distinct buttons. Every operation keeps it (`Kept.step`), and it holds along every run
(`bindings_kept`).
-/

namespace Action

open Lib (Trace Transition)
open Input (InputControl isButtonControl)

variable {F : Type*}

/-! ## The modifier comparison -/

theorem hasDuplicateControls_eq_false {controls : List InputControl} :
    hasDuplicateControls controls = false ↔ controls.Nodup := by
  induction controls with
  | nil => simp [hasDuplicateControls]
  | cons control controls ih => simp [hasDuplicateControls, containsControl, ih]

/-- Of distinct modifiers the comparison is one of sets. -/
theorem haveSameModifierSet_iff {left right : List InputControl} (hleft : left.Nodup) :
    haveSameModifierSet left right = true ↔ left.Perm right := by
  simp only [haveSameModifierSet, Bool.and_eq_true, decide_eq_true_eq, List.all_eq_true]
  constructor
  · rintro ⟨hlength, hsubset⟩
    exact (List.subperm_of_subset hleft hsubset).perm_of_length_le (Nat.le_of_eq hlength.symm)
  · intro hperm
    exact ⟨hperm.length_eq, fun modifier hmem => hperm.mem_iff.1 hmem⟩

/-- The modifiers are distinct buttons other than the primary control. -/
structure ActionCombo.DistinctModifiers (combo : ActionCombo) : Prop where
  nodup : combo.modifiers.Nodup
  primary : combo.primaryControl ∉ combo.modifiers
  buttons : ∀ modifier ∈ combo.modifiers, isButtonControl modifier = true

section
variable [FloatOps F]

/-- The bindings are the same up to the order of their modifiers. -/
structure ActionBinding.SameUpToOrder (left right : ActionBinding F) : Prop where
  action : left.action = right.action
  primaryControl : left.combo.primaryControl = right.combo.primaryControl
  activationMode : left.combo.activationMode = right.combo.activationMode
  modifiers : left.combo.modifiers.Perm right.combo.modifiers
  gesture : areSameGesture left.gesture right.gesture = true
  valueMapping : areSameValueMapping left.valueMapping right.valueMapping = true

theorem areSameBinding_iff {left right : ActionBinding F}
    (hleft : left.combo.DistinctModifiers) :
    areSameBinding left right = true ↔ left.SameUpToOrder right := by
  simp only [areSameBinding, areSameCombo, Bool.and_eq_true, decide_eq_true_eq,
    haveSameModifierSet_iff hleft.nodup]
  constructor
  · rintro ⟨⟨⟨haction, ⟨hprimary, hmode⟩, hmodifiers⟩, hgesture⟩, hmapping⟩
    exact ⟨haction, hprimary, hmode, hmodifiers, hgesture, hmapping⟩
  · rintro ⟨haction, hprimary, hmode, hmodifiers, hgesture, hmapping⟩
    exact ⟨⟨⟨haction, ⟨hprimary, hmode⟩, hmodifiers⟩, hgesture⟩, hmapping⟩

/-- `==` of floats does not depend on the order of its operands. -/
def FloatEqSymmetric (F : Type*) [FloatOps F] : Prop :=
  ∀ left right : F, FloatOps.eq left right = FloatOps.eq right left

theorem areSameBinding_comm (heq : FloatEqSymmetric F) {left right : ActionBinding F}
    (hleft : left.combo.DistinctModifiers) (hright : right.combo.DistinctModifiers) :
    areSameBinding left right = areSameBinding right left := by
  rw [Bool.eq_iff_iff, areSameBinding_iff hleft, areSameBinding_iff hright]
  have hgesture : areSameGesture left.gesture right.gesture =
      areSameGesture right.gesture left.gesture := by
    simp [areSameGesture, heq left.gesture.holdSeconds, heq left.gesture.doubleTapSeconds,
      eq_comm]
  have hmapping : areSameValueMapping left.valueMapping right.valueMapping =
      areSameValueMapping right.valueMapping left.valueMapping := by
    simp [areSameValueMapping, heq left.valueMapping.scale, heq left.valueMapping.threshold,
      eq_comm]
  constructor
  · intro h
    exact ⟨h.action.symm, h.primaryControl.symm, h.activationMode.symm, h.modifiers.symm,
      hgesture ▸ h.gesture, hmapping ▸ h.valueMapping⟩
  · intro h
    exact ⟨h.action.symm, h.primaryControl.symm, h.activationMode.symm, h.modifiers.symm,
      hgesture ▸ h.gesture, hmapping ▸ h.valueMapping⟩

/-! ## Validation -/

/-- A validation that finds no duplicate has compared the binding with all it does not ignore. -/
theorem compareBindings_accepted {binding : ActionBinding F} {ignoreSameActionBindings : Bool}
    {result : ActionResult} {bindings : List (ActionBinding F)}
    (h : compareBindings binding ignoreSameActionBindings result bindings ≠ .duplicateBinding)
    {existingBinding : ActionBinding F} (hmem : existingBinding ∈ bindings)
    (hcompared : ignoreSameActionBindings = true → existingBinding.action ≠ binding.action) :
    areSameBinding existingBinding binding = false := by
  induction bindings generalizing result with
  | nil => cases hmem
  | cons first bindings ih =>
    rw [compareBindings] at h
    by_cases hignored : (ignoreSameActionBindings && first.action = binding.action) = true
    · rw [if_pos hignored] at h
      rw [Bool.and_eq_true, decide_eq_true_eq] at hignored
      rcases List.mem_cons.1 hmem with rfl | hmem
      · exact absurd hignored.2 (hcompared hignored.1)
      · exact ih h hmem
    by_cases hsame : areSameBinding first binding = true
    · rw [if_neg hignored, if_pos hsame] at h
      exact absurd rfl h
    · rw [if_neg hignored, if_neg hsame] at h
      rcases List.mem_cons.1 hmem with rfl | hmem
      · exact eq_false_of_ne_true hsame
      · exact ih h hmem

/-- The results that let a binding in. -/
def ActionResult.Accepted (result : ActionResult) : Prop :=
  result = .success ∨ result = .conflictingBinding

instance (result : ActionResult) : Decidable result.Accepted :=
  inferInstanceAs (Decidable (_ ∨ _))

theorem accepted_iff {result : ActionResult} :
    result.Accepted ↔ ¬ (result ≠ .success && result ≠ .conflictingBinding) = true := by
  cases result <;> simp [ActionResult.Accepted]

variable [FloatFinite F]

/-- An accepted binding has a valid action, distinct modifiers, and no equal among the bindings it
is compared with. -/
theorem ActionMap.validateBinding_accepted {map : ActionMap F} {binding : ActionBinding F}
    {ignoreSameActionBindings : Bool}
    (h : (map.validateBinding binding ignoreSameActionBindings).Accepted) :
    map.isValidAction binding.action = true ∧ binding.combo.DistinctModifiers ∧
      ∀ existingBinding ∈ map.bindings,
        (ignoreSameActionBindings = true → existingBinding.action ≠ binding.action) →
          areSameBinding existingBinding binding = false := by
  unfold ActionMap.validateBinding at h
  cases hkind : map.actionKinds[binding.action]? with
  | none =>
    simp only [hkind] at h
    exact absurd h (by decide)
  | some actionKind =>
    simp only [hkind] at h
    split_ifs at h with h1 h2 h3 h4 h5 hmodifiers hcontrols h8
    all_goals try exact absurd h (by decide)
    refine ⟨?_, ⟨?_, ?_, ?_⟩, ?_⟩
    · exact decide_eq_true (List.getElem?_eq_some_iff.1 hkind).1
    · exact hasDuplicateControls_eq_false.1 (by simp_all)
    · simp_all [containsControl]
    · intro modifier hmem
      simp_all
    · intro existingBinding hmem hcompared
      have hunique : compareBindings binding ignoreSameActionBindings .success map.bindings ≠
          .duplicateBinding := by
        intro hduplicate
        rw [hduplicate] at h
        exact absurd h (by decide)
      exact compareBindings_accepted hunique hmem hcompared

end

/-! ## Entries -/

/-- A binding with its runtime state, under a number of its own. -/
structure BindingEntry (F : Type*) where
  id : Nat
  binding : ActionBinding F
  state : RuntimeBindingState F

/-- A map with its entries, and the number of the entry added next. -/
structure BindingRun (F : Type*) where
  map : ActionMap F
  entries : List (BindingEntry F)
  nextId : Nat

/-- The entries whose binding is of another action. -/
def dropAction (action : Nat) (entries : List (BindingEntry F)) : List (BindingEntry F) :=
  entries.filter fun entry => entry.binding.action ≠ action

/-- New runtime states at the places of the old ones. -/
def withStates (entries : List (BindingEntry F)) (states : List (RuntimeBindingState F)) :
    List (BindingEntry F) :=
  entries.zipWith (fun entry state => { entry with state }) states

theorem withStates_spec {entries : List (BindingEntry F)} {states : List (RuntimeBindingState F)}
    (hlength : states.length = entries.length) :
    (withStates entries states).map (·.state) = states ∧
      (withStates entries states).map (fun entry => (entry.id, entry.binding)) =
        entries.map fun entry => (entry.id, entry.binding) := by
  induction entries generalizing states with
  | nil =>
    rw [List.length_nil, List.length_eq_zero_iff] at hlength
    simp [withStates, hlength]
  | cons entry entries ih =>
    cases states with
    | nil => cases hlength
    | cons state states =>
      obtain ⟨hstates, hothers⟩ := ih (Nat.succ.inj hlength)
      simp only [withStates, List.zipWith_cons_cons, List.map_cons] at hstates hothers ⊢
      rw [hstates, hothers]
      exact ⟨rfl, rfl⟩

/-- The loop of `clearBindings`, on the projections of a list of entries. -/
theorem eraseBindingsFrom_entries (action : Nat) (before after : List (BindingEntry F)) :
    eraseBindingsFrom action ((before ++ after).map (·.binding)) ((before ++ after).map (·.state))
        before.length =
      ((before ++ dropAction action after).map (·.binding),
        (before ++ dropAction action after).map (·.state)) := by
  induction after generalizing before with
  | nil =>
    rw [eraseBindingsFrom, dif_neg (by simp)]
    rfl
  | cons entry after ih =>
    have hget : ∀ h, ((before ++ entry :: after).map (·.binding)).get ⟨before.length, h⟩ =
        entry.binding := by
      simp
    rw [eraseBindingsFrom, dif_pos (by simp), hget]
    by_cases haction : entry.binding.action = action
    · rw [if_pos haction, List.eraseIdx_map, List.eraseIdx_map,
        List.eraseIdx_append_of_length_le (Nat.le_refl _), Nat.sub_self, List.eraseIdx_cons_zero, ih]
      simp [dropAction, haction]
    · rw [if_neg haction]
      have h := ih (before ++ [entry])
      simp only [List.append_assoc, List.singleton_append, List.length_append,
        List.length_singleton] at h
      rw [h]
      simp [dropAction, haction]

section
variable [FloatOps F]

/-- A map of `actionCount` actions without bindings. -/
def BindingRun.initial (actionCount : Nat) : BindingRun F := ⟨.new actionCount, [], 0⟩

/-- What holds of the bindings between the operations. -/
structure BindingRun.Kept (run : BindingRun F) : Prop where
  wellFormed : run.map.WellFormed
  bindings : run.map.bindings = run.entries.map (·.binding)
  states : run.map.bindingStates = run.entries.map (·.state)
  ids : (run.entries.map (·.id)).Nodup
  fresh : ∀ entry ∈ run.entries, entry.id < run.nextId
  distinct : run.map.bindings.Pairwise fun left right => areSameBinding left right = false
  modifiers : ∀ binding ∈ run.map.bindings, binding.combo.DistinctModifiers

namespace BindingRun

variable {run : BindingRun F}

theorem initial_kept (actionCount : Nat) : (initial actionCount : BindingRun F).Kept where
  wellFormed := ActionMap.new_wellFormed actionCount
  bindings := rfl
  states := rfl
  ids := List.nodup_nil
  fresh _ h := nomatch h
  distinct := .nil
  modifiers _ h := nomatch h

/-- The entries left behind an operation that only takes some away. -/
theorem Kept.sublist (h : run.Kept) {map : ActionMap F} {entries : List (BindingEntry F)}
    (hentries : entries.Sublist run.entries) (hmap : map.WellFormed)
    (hbindings : map.bindings = entries.map (·.binding))
    (hstates : map.bindingStates = entries.map (·.state)) :
    Kept ⟨map, entries, run.nextId⟩ where
  wellFormed := hmap
  bindings := hbindings
  states := hstates
  ids := h.ids.sublist (hentries.map _)
  fresh entry hmem := h.fresh entry (hentries.subset hmem)
  distinct := by
    rw [hbindings]
    exact (h.bindings ▸ h.distinct).sublist (hentries.map _)
  modifiers binding hmem := by
    rw [hbindings] at hmem
    exact h.modifiers binding (h.bindings ▸ (hentries.map _).subset hmem)

/-- Numbers that are not used up stay unused. -/
theorem Kept.skip (h : run.Kept) : Kept { run with nextId := run.nextId + 1 } :=
  { h with fresh := fun entry hmem => Nat.lt_succ_of_lt (h.fresh entry hmem) }

/-- A binding that equals none of the others goes to the end of both vectors. -/
theorem Kept.append (h : run.Kept) {binding : ActionBinding F}
    (hmodifiers : binding.combo.DistinctModifiers)
    (hunique : ∀ existingBinding ∈ run.map.bindings,
      areSameBinding existingBinding binding = false) :
    Kept ⟨run.map.addBindingUnchecked binding,
      run.entries ++ [⟨run.nextId, binding, .initial⟩], run.nextId + 1⟩ where
  wellFormed := ActionMap.apply_wellFormed h.wellFormed (.addBinding binding)
  bindings := by simp [ActionMap.addBindingUnchecked, h.bindings]
  states := by simp [ActionMap.addBindingUnchecked, h.states]
  ids := by
    rw [List.map_append, List.map_singleton, List.nodup_append]
    refine ⟨h.ids, by simp, ?_⟩
    intro id hid id' hid'
    obtain ⟨entry, hmem, rfl⟩ := List.mem_map.1 hid
    rw [List.mem_singleton] at hid'
    rw [hid']
    exact Nat.ne_of_lt (h.fresh entry hmem)
  fresh entry hmem := by
    rcases List.mem_append.1 hmem with hmem | hmem
    · exact Nat.lt_succ_of_lt (h.fresh entry hmem)
    · rw [List.mem_singleton] at hmem
      rw [hmem]
      exact Nat.lt_succ_self _
  distinct := by
    rw [ActionMap.addBindingUnchecked, List.pairwise_append]
    refine ⟨h.distinct, List.pairwise_singleton _ _, ?_⟩
    intro left hleft right hright
    rw [List.mem_singleton] at hright
    exact hright ▸ hunique left hleft
  modifiers other hmem := by
    rcases List.mem_append.1 hmem with hmem | hmem
    · exact h.modifiers other hmem
    · rw [List.mem_singleton] at hmem
      exact hmem ▸ hmodifiers

end BindingRun

/-! ## The operations keep the entries -/

theorem ActionMap.evaluate_bindings (map : ActionMap F) (inputState : Input.InputState F)
    (deltaSeconds : F) : (map.evaluate inputState deltaSeconds).bindings = map.bindings := by
  have hrecorded := (recordChanges_same map inputState).bindings
  refine Eq.trans ?_ hrecorded
  exact List.foldlRecOn
    (motive := fun progress : ActionMap F × List (ValueBucket F) =>
      progress.1.bindings = (map.recordChanges inputState).bindings) _ _ rfl
    fun progress h i _ => by
      rcases evaluateBinding_cases inputState _ progress i with ⟨hsame, -⟩ | ⟨_, _, -, -, hsame⟩
      · rw [hsame]
        exact h
      · rw [hsame]
        exact h

variable [FloatFinite F]

/-- What becomes of the entries, given the map after the operation: a binding that is let in gets
the next number, and an evaluation leaves every entry at its place. -/
def BindingRun.advanceEntries (run : BindingRun F) (next : ActionMap F) :
    BindingOperation F → List (BindingEntry F)
  | .addBinding binding =>
    if (run.map.addBinding binding).1.Accepted then
      run.entries ++ [⟨run.nextId, binding, .initial⟩]
    else run.entries
  | .applyCapturedBinding capture =>
    if (run.map.applyCapturedBinding capture).1.Accepted then
      (if capture.replaceExistingBindings then dropAction capture.binding.action run.entries
        else run.entries) ++ [⟨run.nextId, capture.binding, .initial⟩]
    else run.entries
  | .clearBindings action =>
    if run.map.isValidAction action then dropAction action run.entries else run.entries
  | .clearAllBindings => []
  | .evaluate _ _ => withStates run.entries next.bindingStates
  | .resize _ | .defineAction _ _ | .advanceFrame => run.entries

def BindingRun.advance (run : BindingRun F) (operation : BindingOperation F) : BindingRun F where
  map := (run.map.change operation).2
  entries := run.advanceEntries (run.map.change operation).2 operation
  nextId := run.nextId + 1

/-- One operation; every one is enabled in every state. -/
def bindingStep (run : BindingRun F) (operation : BindingOperation F) : Option (BindingRun F) :=
  some (run.advance operation)

/-- An operation takes the entries along: an evaluation changes the runtime state of each at its
place, and every other operation keeps entries as they are or adds one with a new state. -/
structure BindingRun.Follows (run : BindingRun F) (operation : BindingOperation F)
    (next : BindingRun F) : Prop where
  evaluated : ∀ inputState deltaSeconds, operation = .evaluate inputState deltaSeconds →
    next.entries.map (fun entry => (entry.id, entry.binding)) =
      run.entries.map fun entry => (entry.id, entry.binding)
  edited : (∀ inputState deltaSeconds, operation ≠ .evaluate inputState deltaSeconds) →
    ∀ entry ∈ next.entries, entry ∈ run.entries ∨ entry.id = run.nextId ∧ entry.state = .initial

theorem ActionMap.addBinding_eq (map : ActionMap F) (binding : ActionBinding F) :
    map.addBinding binding = (map.validateBinding binding false,
      if (map.validateBinding binding false).Accepted then map.addBindingUnchecked binding
      else map) := by
  unfold ActionMap.addBinding
  dsimp only
  split_ifs <;> simp_all [accepted_iff]

theorem ActionMap.applyCapturedBinding_rejected {map : ActionMap F}
    {capture : ActionRebindCapture F} (h : ¬ (map.applyCapturedBinding capture).1.Accepted) :
    (map.applyCapturedBinding capture).2 = map := by
  unfold ActionMap.applyCapturedBinding at h ⊢
  dsimp only at h ⊢
  split_ifs at h ⊢ <;> simp_all [accepted_iff]

theorem ActionMap.applyCapturedBinding_accepted {map : ActionMap F}
    {capture : ActionRebindCapture F} (h : (map.applyCapturedBinding capture).1.Accepted) :
    (map.validateBinding capture.binding capture.replaceExistingBindings).Accepted ∧
      (map.applyCapturedBinding capture).2 =
        (if capture.replaceExistingBindings then map.clearBindingsInPlace capture.binding.action
          else map).addBindingUnchecked capture.binding := by
  unfold ActionMap.applyCapturedBinding at h ⊢
  dsimp only at h ⊢
  split_ifs at h ⊢ <;> simp_all [accepted_iff]

namespace BindingRun

variable {run : BindingRun F}

omit [FloatFinite F] in
theorem Kept.clearBindings (h : run.Kept) {action : Nat}
    (hvalid : run.map.isValidAction action = true) :
    Kept ⟨run.map.clearBindingsInPlace action, dropAction action run.entries, run.nextId⟩ := by
  have herase := eraseBindingsFrom_entries action [] run.entries
  simp only [List.nil_append, List.length_nil, ← h.bindings, ← h.states] at herase
  have hmap : run.map.clearBindingsInPlace action =
      { run.map with
        bindings := (dropAction action run.entries).map (·.binding)
        bindingStates := (dropAction action run.entries).map (·.state) } := by
    simp [ActionMap.clearBindingsInPlace, hvalid, herase]
  rw [hmap]
  refine h.sublist List.filter_sublist ⟨h.wellFormed.actions, ?_⟩ rfl rfl
  rw [List.length_map, List.length_map]

/-- **One operation** keeps the entries, the distinct bindings and their modifiers. -/
theorem Kept.advance (h : run.Kept) (operation : BindingOperation F) :
    (run.advance operation).Kept := by
  cases operation with
  | resize actionCount =>
    exact (h.sublist (List.Sublist.refl _)
      (ActionMap.apply_wellFormed h.wellFormed (.resize actionCount)) h.bindings h.states).skip
  | defineAction action kind =>
    have hsame : (run.map.defineAction action kind).bindings = run.map.bindings ∧
        (run.map.defineAction action kind).bindingStates = run.map.bindingStates := by
      unfold ActionMap.defineAction
      split_ifs <;> exact ⟨rfl, rfl⟩
    exact (h.sublist (List.Sublist.refl _)
      (ActionMap.apply_wellFormed h.wellFormed (.defineAction action kind))
      (hsame.1.trans h.bindings) (hsame.2.trans h.states)).skip
  | addBinding binding =>
    unfold BindingRun.advance BindingRun.advanceEntries ActionMap.change
    dsimp only
    rw [ActionMap.addBinding_eq]
    dsimp only
    by_cases haccepted : (run.map.validateBinding binding false).Accepted
    · obtain ⟨-, hmodifiers, hunique⟩ := ActionMap.validateBinding_accepted haccepted
      rw [if_pos haccepted, if_pos haccepted]
      exact h.append hmodifiers fun existing hmem => hunique existing hmem nofun
    · rw [if_neg haccepted, if_neg haccepted]
      exact h.skip
  | applyCapturedBinding capture =>
    unfold BindingRun.advance BindingRun.advanceEntries ActionMap.change
    dsimp only
    by_cases haccepted : (run.map.applyCapturedBinding capture).1.Accepted
    · obtain ⟨hresult, hmap⟩ := ActionMap.applyCapturedBinding_accepted haccepted
      obtain ⟨hvalid, hmodifiers, hunique⟩ := ActionMap.validateBinding_accepted hresult
      rw [if_pos haccepted, hmap]
      cases hreplace : capture.replaceExistingBindings with
      | false =>
        exact h.append hmodifiers fun existing hmem => hunique existing hmem (by simp [hreplace])
      | true =>
        -- what the validation ignored is what `clearBindings` takes away
        have hcleared := h.clearBindings hvalid
        refine hcleared.append hmodifiers fun existing hmem => ?_
        rw [hcleared.bindings] at hmem
        obtain ⟨entry, hentry, rfl⟩ := List.mem_map.1 hmem
        obtain ⟨hentry, haction⟩ := List.mem_filter.1 hentry
        refine hunique _ ?_ fun _ => of_decide_eq_true haction
        rw [h.bindings]
        exact List.mem_map_of_mem hentry
    · rw [if_neg haccepted, ActionMap.applyCapturedBinding_rejected haccepted]
      exact h.skip
  | clearBindings action =>
    unfold BindingRun.advance BindingRun.advanceEntries ActionMap.change
    dsimp only
    by_cases hvalid : run.map.isValidAction action = true
    · rw [if_pos hvalid]
      exact (h.clearBindings hvalid).skip
    · rw [if_neg hvalid, ActionMap.clearBindingsInPlace, if_pos (by simpa using hvalid)]
      exact h.skip
  | clearAllBindings =>
    exact (h.sublist (List.nil_sublist _)
      (ActionMap.apply_wellFormed h.wellFormed .clearAllBindings) rfl rfl).skip
  | advanceFrame =>
    exact (h.sublist (List.Sublist.refl _)
      (ActionMap.apply_wellFormed h.wellFormed .advanceFrame) h.bindings h.states).skip
  | evaluate inputState deltaSeconds =>
    have hwf := ActionMap.evaluate_wellFormed h.wellFormed inputState deltaSeconds
    have hbindings := run.map.evaluate_bindings inputState deltaSeconds
    have hlength : (run.map.evaluate inputState deltaSeconds).bindingStates.length =
        run.entries.length := by
      rw [hwf.states, hbindings, h.bindings, List.length_map]
    obtain ⟨hstates, hothers⟩ := withStates_spec hlength
    have hids := congrArg (List.map Prod.fst) hothers
    have hsame := congrArg (List.map Prod.snd) hothers
    simp only [List.map_map, Function.comp_def] at hids hsame
    refine ⟨hwf, (hbindings.trans h.bindings).trans hsame.symm, hstates.symm, ?_, ?_, ?_, ?_⟩
    · exact hids ▸ h.ids
    · intro entry hmem
      have hid : entry.id ∈ run.entries.map (·.id) := hids ▸ List.mem_map_of_mem hmem
      obtain ⟨old, hold, hsameId⟩ := List.mem_map.1 hid
      exact hsameId ▸ Nat.lt_succ_of_lt (h.fresh old hold)
    · exact hbindings ▸ h.distinct
    · exact fun binding hmem => h.modifiers binding (hbindings ▸ hmem)

/-- **One operation** takes the entries along. -/
theorem Kept.follows (h : run.Kept) (operation : BindingOperation F) :
    run.Follows operation (run.advance operation) := by
  constructor
  · intro inputState deltaSeconds hevaluate
    subst hevaluate
    have hwf := ActionMap.evaluate_wellFormed h.wellFormed inputState deltaSeconds
    have hlength : (run.map.evaluate inputState deltaSeconds).bindingStates.length =
        run.entries.length := by
      rw [hwf.states, ActionMap.evaluate_bindings, h.bindings, List.length_map]
    exact (withStates_spec hlength).2
  · intro hne entry hmem
    have hdrop : ∀ action, entry ∈ dropAction action run.entries → entry ∈ run.entries :=
      fun action hmem => (List.mem_filter.1 hmem).1
    unfold BindingRun.advance BindingRun.advanceEntries at hmem
    dsimp only at hmem
    cases operation with
    | resize | defineAction | advanceFrame => exact .inl hmem
    | clearAllBindings => cases hmem
    | clearBindings action =>
      dsimp only at hmem
      split_ifs at hmem
      · exact .inl (hdrop action hmem)
      · exact .inl hmem
    | addBinding binding =>
      dsimp only at hmem
      split_ifs at hmem
      · rcases List.mem_append.1 hmem with hmem | hmem
        · exact .inl hmem
        · exact .inr (by simp_all)
      · exact .inl hmem
    | applyCapturedBinding capture =>
      dsimp only at hmem
      split_ifs at hmem
      · rcases List.mem_append.1 hmem with hmem | hmem
        · exact .inl (hdrop _ hmem)
        · exact .inr (by simp_all)
      · rcases List.mem_append.1 hmem with hmem | hmem
        · exact .inl hmem
        · exact .inr (by simp_all)
      · exact .inl hmem
    | evaluate inputState deltaSeconds => exact absurd rfl (hne inputState deltaSeconds)

end BindingRun

/-- A rejected binding or capture leaves the map as it is. -/
theorem ActionMap.change_rejected (map : ActionMap F) (operation : BindingOperation F)
    {result : ActionResult} (hresult : (map.change operation).1 = some result)
    (hrejected : ¬ result.Accepted) : (map.change operation).2 = map := by
  cases operation with
  | addBinding binding =>
    unfold ActionMap.change at hresult ⊢
    dsimp only at hresult ⊢
    rw [ActionMap.addBinding_eq] at hresult ⊢
    obtain rfl := Option.some.inj hresult
    exact if_neg hrejected
  | applyCapturedBinding capture =>
    obtain rfl := Option.some.inj hresult
    exact ActionMap.applyCapturedBinding_rejected hrejected
  | resize | defineAction | clearBindings | clearAllBindings | advanceFrame | evaluate =>
    cases hresult

/-- **The run**: what holds of the bindings of a new map holds after and before every operation. -/
theorem BindingRun.kept_of_trace {actionCount : Nat}
    {operations : List (Transition (BindingRun F) (BindingOperation F))} {run : BindingRun F}
    (hrun : Trace bindingStep (.initial actionCount) operations run) :
    run.Kept ∧ ∀ x ∈ operations, x.pre.Kept ∧ x.post.Kept :=
  hrun.invariant_of_step (initial_kept actionCount) fun run operation next hkept hnext => by
    cases hnext
    exact hkept.advance operation

omit [FloatFinite F] in
/-- Bindings at different places are not the same. -/
theorem BindingRun.Kept.areSameBinding_eq_false {run : BindingRun F} (heq : FloatEqSymmetric F)
    (h : run.Kept) {i j : Nat} {left right : ActionBinding F} (hij : i ≠ j)
    (hleft : run.map.bindings[i]? = some left) (hright : run.map.bindings[j]? = some right) :
    areSameBinding left right = false := by
  have hpairs := List.pairwise_iff_getElem.1 h.distinct
  obtain ⟨hi, rfl⟩ := List.getElem?_eq_some_iff.1 hleft
  obtain ⟨hj, rfl⟩ := List.getElem?_eq_some_iff.1 hright
  rcases Nat.lt_or_gt_of_ne hij with hlt | hgt
  · exact hpairs i j hi hj hlt
  · rw [areSameBinding_comm heq (h.modifiers _ (List.getElem_mem hi))
      (h.modifiers _ (List.getElem_mem hj))]
    exact hpairs j i hj hi hgt

/-- **The bindings of an action map.** Along every run of operations the two vectors are the
projections of one list of entries that the operations take along, no two bindings are the same up
to the order of their modifiers, the modifiers of each are distinct buttons, and a rejected
operation changes nothing. -/
theorem bindings_kept (heq : FloatEqSymmetric F) {actionCount : Nat}
    {operations : List (Transition (BindingRun F) (BindingOperation F))} {run : BindingRun F}
    (hrun : Trace bindingStep (.initial actionCount) operations run) :
    (∀ state, state = run ∨ (∃ x ∈ operations, state = x.pre) →
      state.Kept ∧ state.map.bindingStates.length = state.map.bindings.length ∧
      (∀ (i j : Nat) (left right : ActionBinding F), i ≠ j →
        state.map.bindings[i]? = some left → state.map.bindings[j]? = some right →
          areSameBinding left right = false) ∧
      ∀ left ∈ state.map.bindings, ∀ right ∈ state.map.bindings,
        (areSameBinding left right = true ↔ left.SameUpToOrder right)) ∧
    ∀ x ∈ operations, x.pre.Follows x.action x.post ∧
      ∀ result, (x.pre.map.change x.action).1 = some result →
        result ≠ .success → result ≠ .conflictingBinding → x.post.map = x.pre.map := by
  obtain ⟨hlast, hall⟩ := BindingRun.kept_of_trace hrun
  constructor
  · intro state hstate
    have hkept : state.Kept := by
      rcases hstate with rfl | ⟨x, hx, rfl⟩
      · exact hlast
      · exact (hall x hx).1
    exact ⟨hkept, hkept.wellFormed.states,
      fun i j left right hij => hkept.areSameBinding_eq_false heq hij,
      fun left hleft right _ => areSameBinding_iff (hkept.modifiers left hleft)⟩
  · intro x hx
    have hpost : x.pre.advance x.action = x.post := Option.some.inj (hrun.mem_step hx)
    rw [← hpost]
    refine ⟨(hall x hx).1.follows x.action, fun result hresult hsuccess hconflict => ?_⟩
    exact x.pre.map.change_rejected x.action hresult fun haccepted =>
      haccepted.elim hsuccess hconflict

end

/-- A chord of the button action 0 on the keys 4, 5 and 6. -/
def chordBinding (modifiers : List InputControl) : ActionBinding Int where
  action := 0
  combo := { primaryControl := { controlCode := 4 }, modifiers }
  gesture := ⟨.pressed, 0, 0⟩
  valueMapping := ⟨.scalar, 1, 0⟩
  settings := defaultSettings .button
  hasCustomSettings := false

/-- The chord is added, added again with its modifiers swapped, and captured anew. -/
def chordOperations : List (BindingOperation Int) :=
  [.addBinding (chordBinding [{ controlCode := 5 }, { controlCode := 6 }]),
    .addBinding (chordBinding [{ controlCode := 6 }, { controlCode := 5 }]),
    .applyCapturedBinding
      { binding := chordBinding [{ controlCode := 6 }, { controlCode := 5 }], result := .captured }]

theorem bindings_kept_chord :
    (Lib.run bindingStep (.initial 1) chordOperations).map (fun r =>
      (r.1.map fun x => (x.pre.map.change x.action).1, r.2.map.bindings.length)) =
        some ([some .success, some .duplicateBinding, some .success], 1) ∧
    ∀ r, Lib.run bindingStep (.initial 1) chordOperations = some r →
      r.2.Kept ∧ ∀ x ∈ r.1, x.pre.Follows x.action x.post := by
  refine ⟨by decide +kernel, fun r hr => ?_⟩
  have heq : FloatEqSymmetric Int := fun left right => decide_eq_decide.2 eq_comm
  have hkept := bindings_kept heq (Trace.of_run hr)
  exact ⟨(hkept.1 r.2 (.inl rfl)).1, fun x hx => (hkept.2 x hx).1⟩

end Action

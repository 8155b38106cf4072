import Mathlib.Algebra.Ring.Nat
import Mathlib.Data.List.Induction
import Mathlib.Data.List.Nodup

/-!
# Tables of shared blocks

`intern blocks` keeps each of some blocks once and names every block by its place among those kept.
The names lead back to the blocks (`intern_getElem`), and no block is kept twice (`intern_nodup`).

A row cut into blocks of one size is read through the names: the entry at `k * size + j` is the one
at `j` in the block of the name at `k` (`flatten_getElem`).
-/

namespace Lib

variable {β : Type*} [BEq β] [LawfulBEq β]

/-- The blocks kept so far, and the names of those seen. -/
structure Interned (β : Type*) where
  kept : List β
  names : List Nat

namespace Interned

/-- A block of which an equal one is kept has its name; another is kept behind the others. -/
def add (table : Interned β) (block : β) : Interned β :=
  if block ∈ table.kept then ⟨table.kept, table.names ++ [table.kept.idxOf block]⟩
  else ⟨table.kept ++ [block], table.names ++ [table.kept.length]⟩

end Interned

def intern (blocks : List β) : Interned β := blocks.foldl Interned.add ⟨[], []⟩

/-- What the table says of the blocks it has seen. -/
structure InternedOf (blocks : List β) (table : Interned β) : Prop where
  length : table.names.length = blocks.length
  name : ∀ k name : Nat, table.names[k]? = some name → ∃ block, blocks[k]? = some block ∧
    table.kept[name]? = some block
  nodup : table.kept.Nodup
  mem : ∀ block, block ∈ table.kept ↔ block ∈ blocks

omit [BEq β] [LawfulBEq β] in
theorem internedOf_nil : InternedOf ([] : List β) ⟨[], []⟩ where
  length := rfl
  name k name h := by simp at h
  nodup := .nil
  mem := by simp

/-- One block more. -/
theorem InternedOf.add {blocks : List β} {table : Interned β} (h : InternedOf blocks table)
    (block : β) : InternedOf (blocks ++ [block]) (table.add block) := by
  have hlast : ∀ {k name new : Nat}, (table.names ++ [new])[k]? = some name →
      table.names[k]? = some name ∨ k = blocks.length ∧ name = new := by
    intro k name new hk
    rw [List.getElem?_append] at hk
    split_ifs at hk with hlt
    · exact .inl hk
    · rw [List.getElem?_singleton] at hk
      split_ifs at hk with hzero
      have := h.length
      exact .inr ⟨by omega, (Option.some.inj hk).symm⟩
  have hnew : (blocks ++ [block])[blocks.length]? = some block := by simp
  unfold Interned.add
  split_ifs with hmem
  · refine ⟨by simp [h.length], fun k name hk => ?_, h.nodup, fun b => ?_⟩
    · rcases hlast hk with hk | ⟨rfl, rfl⟩
      · obtain ⟨b, hb, hkept⟩ := h.name k name hk
        exact ⟨b, List.getElem?_append_left (List.getElem?_eq_some_iff.1 hb).1 ▸ hb, hkept⟩
      · exact ⟨block, hnew, List.getElem?_idxOf hmem⟩
    · rw [h.mem b, List.mem_append, List.mem_singleton]
      refine (or_iff_left_of_imp fun heq => ?_).symm
      rw [heq, ← h.mem]
      exact hmem
  · refine ⟨by simp [h.length], fun k name hk => ?_, ?_, fun b => ?_⟩
    · rcases hlast hk with hk | ⟨rfl, rfl⟩
      · obtain ⟨b, hb, hkept⟩ := h.name k name hk
        refine ⟨b, List.getElem?_append_left (List.getElem?_eq_some_iff.1 hb).1 ▸ hb, ?_⟩
        rw [List.getElem?_append_left (List.getElem?_eq_some_iff.1 hkept).1]
        exact hkept
      · exact ⟨block, hnew, by simp⟩
    · refine List.nodup_append.2 ⟨h.nodup, List.nodup_singleton _, fun a ha b hb => ?_⟩
      rw [List.mem_singleton.1 hb]
      exact fun heq => hmem (heq ▸ ha)
    · rw [List.mem_append, List.mem_append, h.mem b]

theorem intern_of (blocks : List β) : InternedOf blocks (intern blocks) := by
  induction blocks using List.reverseRecOn with
  | nil => exact internedOf_nil
  | append_singleton blocks block ih =>
    have hstep : intern (blocks ++ [block]) = (intern blocks).add block := by
      simp [intern]
    rw [hstep]
    exact ih.add block

variable {blocks : List β}

/-- Every block is the one of its name. -/
theorem intern_getElem (blocks : List β) (k : Nat) :
    ((intern blocks).names[k]?.bind fun name => (intern blocks).kept[name]?) = blocks[k]? := by
  have h := intern_of blocks
  cases hname : (intern blocks).names[k]? with
  | none =>
    have hlength := List.getElem?_eq_none_iff.1 hname
    rw [h.length] at hlength
    rw [List.getElem?_eq_none hlength]
    rfl
  | some name =>
    obtain ⟨block, hblock, hkept⟩ := h.name k name hname
    rw [Option.bind_some, hkept, hblock]

theorem intern_name_lt {k name : Nat} (h : (intern blocks).names[k]? = some name) :
    name < (intern blocks).kept.length := by
  obtain ⟨block, -, hkept⟩ := (intern_of blocks).name k name h
  exact (List.getElem?_eq_some_iff.1 hkept).1

/-! ## Blocks of one size -/

omit [BEq β] [LawfulBEq β] in
/-- An entry of blocks of one size. -/
theorem flatten_getElem {size : Nat} {rows : List (List β)} (h : ∀ row ∈ rows, row.length = size)
    {k j : Nat} (hj : j < size) :
    rows.flatten[k * size + j]? = rows[k]?.bind fun row => row[j]? := by
  induction rows generalizing k with
  | nil => simp
  | cons row rows ih =>
    have hrow := h row List.mem_cons_self
    rw [List.flatten_cons]
    cases k with
    | zero =>
      rw [Nat.zero_mul, Nat.zero_add, List.getElem?_append_left (by omega)]
      rfl
    | succ k =>
      have hindex : (k + 1) * size + j = row.length + (k * size + j) := by
        rw [hrow, Nat.succ_mul]
        omega
      rw [hindex, List.getElem?_append_right (by omega), Nat.add_sub_cancel_left, List.getElem?_cons_succ]
      exact ih fun r hr => h r (List.mem_cons_of_mem _ hr)

omit [BEq β] [LawfulBEq β] in
/-- An entry of a block cut out of a row. -/
theorem slice_getElem {row : List β} {start size j : Nat} (hj : j < size) :
    ((row.drop start).take size)[j]? = row[start + j]? := by
  rw [List.getElem?_take_of_lt hj, List.getElem?_drop]

end Lib

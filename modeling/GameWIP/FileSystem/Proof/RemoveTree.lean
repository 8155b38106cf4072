import GameWIP.FileSystem.RemoveTree

/-!
# The removal follows the tree

`Entries.visits` is the traversal as a recursion over the tree: each entry is found, everything
below it is visited, and it is removed. The loop makes one pass for each visit (`removeLoop_follows`), so
that what it removes is a part of the post-order of the tree (`Entries.order`), from the front.

`removeDirectoryTree_exact`: the call always ends, and it keeps its promises exactly when no
exception of the stack comes after a removal (`LateThrow`): the exception is reported without the
entries removed before it.
-/

namespace FileSystem

open Io (Status makeStatus successStatus)

variable {Name : Type}

/-! ## The post-order of a tree -/

namespace Entries

/-- The paths of the entries below the directory at `dir`, each behind everything below it. -/
def order (dir : List Name) : Entries Name → List (List Name)
  | nil => []
  | file name _ _ rest => (dir ++ [name]) :: rest.order dir
  | directory name children rest =>
    children.order (dir ++ [name]) ++ (dir ++ [name]) :: rest.order dir

theorem length_order (dir : List Name) (entries : Entries Name) :
    (entries.order dir).length = entries.count := by
  induction entries generalizing dir with
  | nil => rfl
  | file name kind leaf rest ih => simp [order, count, ih]
  | directory name children rest ihc ih =>
    simp [order, count, ihc, ih]
    omega

/-- A path below a directory goes through one of its entries. -/
theorem mem_order {dir path : List Name} {entries : Entries Name} (h : path ∈ entries.order dir) :
    ∃ name ∈ entries.names, (dir ++ [name]) <+: path := by
  induction entries generalizing dir with
  | nil => simp [order] at h
  | file name kind leaf rest ih =>
    rcases List.mem_cons.1 h with rfl | h
    · exact ⟨name, List.mem_cons_self, List.prefix_rfl⟩
    · obtain ⟨other, hother, hpath⟩ := ih h
      exact ⟨other, List.mem_cons_of_mem _ hother, hpath⟩
  | directory name children rest ihc ih =>
    rcases List.mem_append.1 h with h | h
    · obtain ⟨other, -, hpath⟩ := ihc h
      exact ⟨name, List.mem_cons_self, (List.prefix_append ..).trans hpath⟩
    · rcases List.mem_cons.1 h with rfl | h
      · exact ⟨name, List.mem_cons_self, List.prefix_rfl⟩
      · obtain ⟨other, hother, hpath⟩ := ih h
        exact ⟨other, List.mem_cons_of_mem _ hother, hpath⟩

/-- Paths through two entries of a directory are apart. -/
theorem not_prefix_of_ne {dir path other : List Name} {name next : Name} (hne : name ≠ next)
    (hpath : (dir ++ [name]) <+: path) (hother : (dir ++ [next]) <+: other) : ¬ path <+: other := by
  intro h
  have hsame := List.prefix_of_prefix_length_le (hpath.trans h) hother (by simp)
  obtain ⟨_, hlast⟩ := List.append_inj' (hsame.eq_of_length (by simp)) rfl
  exact hne (List.cons.inj hlast).1

/-- Nothing comes before something below it, or twice. -/
theorem pairwise_order (dir : List Name) {entries : Entries Name} (h : entries.Distinct) :
    (entries.order dir).Pairwise fun earlier later => ¬ earlier <+: later := by
  induction entries generalizing dir with
  | nil => exact .nil
  | file name kind leaf rest ih =>
    refine List.pairwise_cons.2 ⟨fun later hlater => ?_, ih dir h.2⟩
    obtain ⟨next, hnext, hpath⟩ := mem_order hlater
    exact not_prefix_of_ne (fun he => h.1 (by rwa [he])) List.prefix_rfl hpath
  | directory name children rest ihc ih =>
    obtain ⟨hname, hchildren, hrest⟩ := h
    have hapart {path later : List Name} (hpath : (dir ++ [name]) <+: path)
        (hlater : later ∈ rest.order dir) : ¬ path <+: later := by
      obtain ⟨next, hnext, hlater⟩ := mem_order hlater
      exact not_prefix_of_ne (fun he => hname (by rwa [he])) hpath hlater
    refine List.pairwise_append.2 ⟨ihc _ hchildren, List.pairwise_cons.2
      ⟨fun later hlater => hapart List.prefix_rfl hlater, ih dir hrest⟩, fun path hpath later hlater => ?_⟩
    obtain ⟨next, -, hbelow⟩ := mem_order hpath
    rcases List.mem_cons.1 hlater with rfl | hlater
    · intro hle
      have hlen := (hbelow.trans hle).length_le
      simp at hlen
    · exact hapart ((List.prefix_append ..).trans hbelow) hlater

end Entries

/-- The post-order of the whole tree; the root comes last. -/
def DirectoryTree.order (tree : DirectoryTree Name) : List (List Name) :=
  tree.entries.order [] ++ [[]]

@[simp] theorem DirectoryTree.length_order (tree : DirectoryTree Name) :
    tree.order.length = tree.count := by
  simp [order, count, Entries.length_order]

theorem DirectoryTree.pairwise_order (tree : DirectoryTree Name) :
    tree.order.Pairwise fun earlier later => ¬ earlier <+: later := by
  refine List.pairwise_append.2 ⟨Entries.pairwise_order [] tree.distinct, List.pairwise_singleton ..,
    fun path hpath later hlater => ?_⟩
  obtain ⟨name, -, hbelow⟩ := Entries.mem_order hpath
  rw [List.mem_singleton.1 hlater, List.prefix_nil]
  rintro rfl
  simp at hbelow

theorem DirectoryTree.nodup_order (tree : DirectoryTree Name) : tree.order.Nodup := by
  refine tree.pairwise_order.imp fun h he => h ?_
  subst he
  exact List.prefix_rfl

/-- The root is the last of the order. -/
theorem DirectoryTree.root_mem_order (tree : DirectoryTree Name) : [] ∈ tree.order := by
  simp [order]

/-- A part of the order, from the front, holds everything below its entries in front of them. -/
theorem DirectoryTree.behind_of_order {tree : DirectoryTree Name} {removed later before rest : List (List Name)}
    {entry below : List Name} (hsplit : tree.order = removed ++ later)
    (hremoved : removed = before ++ entry :: rest) (hbelow : below ∈ tree.order)
    (hunder : entry <+: below) (hne : below ≠ entry) : below ∈ before := by
  have hpairwise := tree.pairwise_order
  rw [hsplit, hremoved, List.append_assoc, List.cons_append] at hpairwise hbelow
  obtain ⟨-, hrest, -⟩ := List.pairwise_append.1 hpairwise
  rcases List.mem_append.1 hbelow with hbefore | hbelow
  · exact hbefore
  · rcases List.mem_cons.1 hbelow with heq | hlater
    · exact absurd heq hne
    · exact absurd hunder ((List.pairwise_cons.1 hrest).1 below hlater)

/-! ## Visits -/

/-- One pass of the loop: an entry is found, or removed; the pass may open the directory it is in
and read its cursor. -/
structure Visit (Name : Type) where
  path : List Name
  removes : Bool
  opens : Bool := false
  reads : Bool := true

namespace Entries

/-- The visits below the directory at `dir`; the first one opens it when it is `fresh`. -/
def visits (dir : List Name) (fresh : Bool) : Entries Name → List (Visit Name)
  | nil => []
  | file name _ _ rest =>
    { path := dir ++ [name], removes := false, opens := fresh } ::
      { path := dir ++ [name], removes := true, reads := false } :: rest.visits dir false
  | directory name children rest =>
    { path := dir ++ [name], removes := false, opens := fresh } ::
      (children.visits (dir ++ [name]) true ++
        { path := dir ++ [name], removes := true, opens := children.names.isEmpty } ::
          rest.visits dir false)

/-- The visits of a directory: those below it and its own removal. -/
def allVisits (dir : List Name) (fresh : Bool) (entries : Entries Name) : List (Visit Name) :=
  entries.visits dir fresh ++
    [{ path := dir, removes := true, opens := fresh && entries.names.isEmpty }]

end Entries

/-- The paths that the visits remove. -/
def removals (visits : List (Visit Name)) : List (List Name) :=
  (visits.filter Visit.removes).map Visit.path

@[simp] theorem removals_append (visits more : List (Visit Name)) :
    removals (visits ++ more) = removals visits ++ removals more := by
  simp [removals]

theorem removals_visits (dir : List Name) (fresh : Bool) (entries : Entries Name) :
    removals (entries.visits dir fresh) = entries.order dir := by
  induction entries generalizing dir fresh with
  | nil => rfl
  | file name kind leaf rest ih => simpa [removals, Entries.visits, Entries.order] using ih dir false
  | directory name children rest ihc ih =>
    have hchildren := ihc (dir ++ [name]) true
    have hrest := ih dir false
    simp only [removals] at hchildren hrest
    simp [removals, Entries.visits, Entries.order, hchildren, hrest]

/-- The last visit of a directory removes it. -/
theorem removals_ne_nil {dir : List Name} {fresh : Bool} {entries : Entries Name}
    {rest : List (Visit Name)} (hsuffix : rest <:+ entries.allVisits dir fresh) (hne : rest ≠ []) :
    removals rest ≠ [] := by
  obtain hnil | ⟨front, rfl, -⟩ := List.suffix_concat_iff.1 hsuffix
  · exact absurd hnil hne
  · simp [removals]

theorem removals_allVisits (fresh : Bool) (tree : DirectoryTree Name) :
    removals (tree.entries.allVisits [] fresh) = tree.order := by
  rw [Entries.allVisits, removals_append, removals_visits]
  rfl

/-- Each entry below a directory takes two visits. -/
theorem length_visits (dir : List Name) (fresh : Bool) (entries : Entries Name) :
    (entries.visits dir fresh).length = 2 * entries.count := by
  induction entries generalizing dir fresh with
  | nil => rfl
  | file name kind leaf rest ih =>
    simp [Entries.visits, Entries.count, ih]
    omega
  | directory name children rest ihc ih =>
    simp [Entries.visits, Entries.count, ihc, ih]
    omega

/-! ## Following the visits -/

section
variable (maxEntries : Nat) (passes : Nat → PassAnswer)

/-- The result of a visit that ends the traversal once its directory is open, after so many
removals. -/
def Visit.stopOpen (visit : Visit Name) (answer : PassAnswer) (removed : Nat) :
    Option RemoveTreeResult :=
  if visit.reads && !answer.read.ok then some (removeTreeFailure answer.read removed)
  else if visit.removes then
    if !answer.remove.ok then some (removeTreeFailure answer.remove removed) else none
  else answer.thrown.map fun thrown => removeTreeFailure thrown.status

/-- The result of a visit that ends the traversal. -/
def Visit.stop (visit : Visit Name) (answer : PassAnswer) (removed : Nat) :
    Option RemoveTreeResult :=
  if removed ≥ maxEntries then some (removeTreeFailure (makeStatus .sizeLimitExceeded) removed)
  else if visit.opens && !answer.opened.ok then some (removeTreeFailure answer.opened removed)
  else visit.stopOpen answer removed

/-- The traversal as the visits in order, from the given pass on, and what it removed. -/
def follow : List (Visit Name) → (pass : Nat) → (removed : List (List Name)) →
    RemoveTreeResult × List (List Name)
  | [], _, removed => ({ status := successStatus, removedEntries := removed.length }, removed)
  | visit :: rest, pass, removed =>
    match visit.stop maxEntries (passes pass) removed.length with
    | some result => (result, removed)
    | none => follow rest (pass + 1) (if visit.removes then removed ++ [visit.path] else removed)

/-- The visit throws: it comes to the push of an entry, and the push throws. -/
def Visit.Throws (visit : Visit Name) (answer : PassAnswer) (removed : Nat) : Prop :=
  removed < maxEntries ∧ (visit.opens = true → answer.opened.ok = true) ∧
    (visit.reads = true → answer.read.ok = true) ∧ visit.removes = false ∧
    answer.thrown.isSome = true

/-- The visit at which the traversal stops throws, and something was removed before. -/
def LateThrowFrom : List (Visit Name) → (pass removed : Nat) → Prop
  | [], _, _ => False
  | visit :: rest, pass, removed =>
    match visit.stop maxEntries (passes pass) removed with
    | some _ => visit.Throws maxEntries (passes pass) removed ∧ 0 < removed
    | none => LateThrowFrom rest (pass + 1) (if visit.removes then removed + 1 else removed)

end

variable {maxEntries : Nat} {passes : Nat → PassAnswer}

theorem Visit.stop_fails {visit : Visit Name} {answer : PassAnswer} {removed : Nat}
    {result : RemoveTreeResult} (h : visit.stop maxEntries answer removed = some result) :
    result.status.ok = false := by
  unfold Visit.stop Visit.stopOpen at h
  split_ifs at h with hlimit hopen hread hremoves hremove
  · cases h
    rfl
  · rw [Bool.and_eq_true, Bool.not_eq_true'] at hopen
    cases h
    exact hopen.2
  · rw [Bool.and_eq_true, Bool.not_eq_true'] at hread
    cases h
    exact hread.2
  · cases h
    simpa [removeTreeFailure] using hremove
  · obtain ⟨thrown, -, rfl⟩ := Option.map_eq_some_iff.1 h
    exact thrown.status_ok

/-- A stop counts the removals, unless it throws: then it counts none. -/
theorem Visit.stop_count {visit : Visit Name} {answer : PassAnswer} {removed : Nat}
    {result : RemoveTreeResult} (h : visit.stop maxEntries answer removed = some result) :
    result.removedEntries = removed ↔
      ¬ (visit.Throws maxEntries answer removed ∧ 0 < removed) := by
  unfold Visit.stop Visit.stopOpen at h
  split_ifs at h with hlimit hopen hread hremoves hremove
  · cases h
    exact iff_of_true rfl fun ⟨⟨hlt, _⟩, _⟩ => absurd hlimit (Nat.not_le.2 hlt)
  · cases h
    refine iff_of_true rfl fun ⟨⟨_, hopened, _⟩, _⟩ => ?_
    rw [Bool.and_eq_true, Bool.not_eq_true'] at hopen
    exact Bool.false_ne_true (hopen.2.symm.trans (hopened hopen.1))
  · cases h
    refine iff_of_true rfl fun ⟨⟨_, _, hwasRead, _⟩, _⟩ => ?_
    rw [Bool.and_eq_true, Bool.not_eq_true'] at hread
    exact Bool.false_ne_true (hread.2.symm.trans (hwasRead hread.1))
  · cases h
    exact iff_of_true rfl fun ⟨⟨_, _, _, hpush, _⟩, _⟩ =>
      Bool.false_ne_true (hpush.symm.trans hremoves)
  · obtain ⟨thrown, hthrown, rfl⟩ := Option.map_eq_some_iff.1 h
    have hthrows : visit.Throws maxEntries answer removed := by
      simp_all [Visit.Throws]
    simp [hthrows, removeTreeFailure, eq_comm]

/-- The traversal stops early, or it removes everything. -/
theorem follow_spec (maxEntries : Nat) (passes : Nat → PassAnswer) (visits : List (Visit Name))
    (pass : Nat) (removed : List (List Name)) :
    let followed := follow maxEntries passes visits pass removed
    (∃ rest, removed ++ removals visits = followed.2 ++ removals rest ∧
      rest <:+ visits ∧ (followed.1.status.ok = true ↔ rest = [])) ∧
    (followed.1.removedEntries = followed.2.length ↔
      ¬ LateThrowFrom maxEntries passes visits pass removed.length) ∧
    (removed.length ≤ maxEntries → followed.2.length ≤ maxEntries) := by
  induction visits generalizing pass removed with
  | nil =>
    refine ⟨⟨[], rfl, List.suffix_rfl, by simp [follow]⟩, ?_, id⟩
    simp [follow, LateThrowFrom]
  | cons visit visits ih =>
    unfold follow LateThrowFrom
    cases hstop : visit.stop maxEntries (passes pass) removed.length with
    | some result =>
      refine ⟨⟨visit :: visits, rfl, List.suffix_rfl, ?_⟩, Visit.stop_count hstop, id⟩
      simp [Visit.stop_fails hstop]
    | none =>
      dsimp only
      have hlt : removed.length < maxEntries := by
        by_contra h
        simp [Visit.stop, Nat.not_lt.1 h] at hstop
      cases hremoves : visit.removes with
      | true =>
        obtain ⟨⟨rest, hrest, hsuffix, hok⟩, hcount, hle⟩ :=
          ih (pass + 1) (removed ++ [visit.path])
        rw [List.length_append, List.length_singleton] at hcount hle
        have hsplit : removed ++ removals (visit :: visits) =
            removed ++ [visit.path] ++ removals visits := by
          simp [removals, hremoves]
        exact ⟨⟨rest, hsplit.trans hrest, hsuffix.trans (List.suffix_cons ..), hok⟩, hcount,
          fun _ => hle hlt⟩
      | false =>
        obtain ⟨⟨rest, hrest, hsuffix, hok⟩, hcount, hle⟩ := ih (pass + 1) removed
        have hsplit : removed ++ removals (visit :: visits) = removed ++ removals visits := by
          simp [removals, hremoves]
        exact ⟨⟨rest, hsplit.trans hrest, hsuffix.trans (List.suffix_cons ..), hok⟩, hcount, hle⟩

/-- Without a failure, and with room for every removal, nothing stops the traversal. -/
theorem follow_succeeds {visits : List (Visit Name)} {pass : Nat} {removed : List (List Name)}
    (hpasses : ∀ n, (passes n).opened.ok = true ∧ (passes n).read.ok = true ∧
      (passes n).thrown = none ∧ (passes n).remove.ok = true)
    (hroom : removed.length + (removals visits).length ≤ maxEntries)
    (hlast : ∀ visit rest, visit :: rest <:+ visits → removals (visit :: rest) ≠ []) :
    (follow maxEntries passes visits pass removed).1.status.ok = true := by
  induction visits generalizing pass removed with
  | nil => rfl
  | cons visit visits ih =>
    obtain ⟨hopened, hread, hthrown, hremove⟩ := hpasses pass
    have hpos := List.length_pos_iff.2 (hlast visit visits List.suffix_rfl)
    have hgo : visit.stop maxEntries (passes pass) removed.length = none := by
      simp [Visit.stop, Visit.stopOpen, hopened, hread, hthrown, hremove]
      omega
    unfold follow
    rw [hgo]
    refine ih ?_ fun next rest hsuffix => hlast next rest (hsuffix.trans (List.suffix_cons ..))
    cases hremoves : visit.removes <;> simp [removals, hremoves] at hroom ⊢ <;> omega

/-! ## The loop follows the visits -/

namespace Entries

/-- What a cursor has left is the end of the entries of its directory. -/
inductive Ends (left : Entries Name) : Entries Name → Prop
  | refl : Ends left left
  | file {entries : Entries Name} (name : Name) (kind : EntryKind) (leaf : kind ≠ .directory) :
      Ends left entries → Ends left (.file name kind leaf entries)
  | directory {entries : Entries Name} (name : Name) (children : Entries Name) :
      Ends left entries → Ends left (.directory name children entries)

variable {left entries : Entries Name} {name : Name}

theorem Ends.after_file {kind : EntryKind} {leaf : kind ≠ .directory}
    (h : Ends (.file name kind leaf left) entries) : Ends left entries := by
  induction h with
  | refl => exact .file _ _ _ .refl
  | file _ _ _ _ ih => exact .file _ _ _ ih
  | directory _ _ _ ih => exact .directory _ _ ih

theorem Ends.after_directory {children : Entries Name}
    (h : Ends (.directory name children left) entries) : Ends left entries := by
  induction h with
  | refl => exact .directory _ _ .refl
  | file _ _ _ _ ih => exact .file _ _ _ ih
  | directory _ _ _ ih => exact .directory _ _ ih

theorem Ends.mem_names (h : Ends left entries) (hname : name ∈ left.names) :
    name ∈ entries.names := by
  induction h with
  | refl => exact hname
  | file _ _ _ _ ih => exact List.mem_cons_of_mem _ ih
  | directory _ _ _ ih => exact List.mem_cons_of_mem _ ih

variable [DecidableEq Name]

/-- A directory that a cursor delivers is opened by its name. -/
theorem Ends.openAt {children : Entries Name}
    (h : Ends (.directory name children left) entries) (hdistinct : entries.Distinct) :
    entries.openAt [name] = some children := by
  induction h with
  | refl => simp [Entries.openAt]
  | file other _ _ hends ih =>
    have hne : other ≠ name := fun he =>
      hdistinct.1 (he ▸ hends.mem_names List.mem_cons_self)
    rw [Entries.openAt, if_neg hne]
    exact ih hdistinct.2
  | directory other _ hends ih =>
    have hne : other ≠ name := fun he =>
      hdistinct.1 (he ▸ hends.mem_names List.mem_cons_self)
    rw [Entries.openAt, if_neg hne]
    exact ih hdistinct.2.2

theorem openAt_append (entries : Entries Name) (dir path : List Name) :
    entries.openAt (dir ++ path) = (entries.openAt dir).bind fun found => found.openAt path := by
  induction entries generalizing dir with
  | nil => cases dir <;> rfl
  | file name kind leaf rest ih =>
    cases dir with
    | nil => rfl
    | cons next dir =>
      simp only [List.cons_append, openAt]
      split_ifs
      · rfl
      · exact ih (next :: dir)
  | directory name children rest ihc ih =>
    cases dir with
    | nil => rfl
    | cons next dir =>
      simp only [List.cons_append, openAt]
      split_ifs
      · exact ihc dir
      · exact ih (next :: dir)

theorem Distinct.openAt {found : Entries Name} {path : List Name} (h : entries.Distinct)
    (hopen : entries.openAt path = some found) : found.Distinct := by
  induction entries generalizing path with
  | nil =>
    cases path with
    | nil => cases hopen; exact h
    | cons next path => cases hopen
  | file name kind leaf rest ih =>
    cases path with
    | nil => cases hopen; exact h
    | cons next path =>
      simp only [Entries.openAt] at hopen
      split_ifs at hopen
      exact ih h.2 hopen
  | directory name children rest ihc ih =>
    cases path with
    | nil => cases hopen; exact h
    | cons next path =>
      simp only [Entries.openAt] at hopen
      split_ifs at hopen
      · exact ihc h.2.1 hopen
      · exact ih h.2.2 hopen

end Entries

variable [DecidableEq Name] {tree : DirectoryTree Name}

/-- The visits that a frame stands for. -/
def RemovalFrame.visits (tree : DirectoryTree Name) (frame : RemovalFrame Name) :
    List (Visit Name) :=
  if frame.kind = .directory then
    match frame.cursor with
    | some cursor => cursor.allVisits frame.path false
    | none => (tree.entries.openAt frame.path).elim [] fun entries =>
        entries.allVisits frame.path true
  else [{ path := frame.path, removes := true, reads := false }]

/-- The visits that are left. -/
def Removal.visits (tree : DirectoryTree Name) (state : Removal Name) : List (Visit Name) :=
  state.pending.flatMap (RemovalFrame.visits tree)

/-- A frame of a directory belongs to it, and a cursor holds the end of its entries. -/
def RemovalFrame.Belongs (tree : DirectoryTree Name) (frame : RemovalFrame Name) : Prop :=
  frame.kind = .directory → ∃ entries, tree.entries.openAt frame.path = some entries ∧
    ∀ cursor, frame.cursor = some cursor → cursor.Ends entries

/-- The invariant of the loop. -/
structure Removal.Inv (tree : DirectoryTree Name) (state : Removal Name) : Prop where
  frames : ∀ frame ∈ state.pending, frame.Belongs tree
  parents : ∀ frame ∈ state.pending.tail, frame.cursor.isSome = true
  count : state.removedEntries = state.removed.length
  opened : ∀ path ∈ state.opened, (tree.entries.openAt path).isSome = true

/-- A pass does what its visit says: it ends with the result of the visit, or it leaves the other
visits. -/
def Pass.Follows (tree : DirectoryTree Name) (pass : Pass Name) (removed : List (List Name))
    (visit : Visit Name) (rest : List (Visit Name)) : Option RemoveTreeResult → Prop
  | some result => ∃ state', pass = .finished result state' ∧ state'.removed = removed ∧
      ∀ path ∈ state'.opened, (tree.entries.openAt path).isSome = true
  | none => ∃ state', pass = .next state' ∧ state'.Inv tree ∧ state'.visits tree = rest ∧
      state'.removed = if visit.removes then removed ++ [visit.path] else removed

/-- The removal of the entry on top. -/
theorem removeCurrent_follows {state : Removal Name} {current : RemovalFrame Name}
    {below : List (RemovalFrame Name)} (answer : PassAnswer) (visit : Visit Name)
    (hpath : visit.path = current.path) (hremoves : visit.removes = true)
    (hread : visit.reads = true → answer.read.ok = true)
    (h : Removal.Inv tree { state with pending := below })
    (hparents : ∀ frame ∈ below, frame.cursor.isSome = true) :
    (removeCurrent current below answer state).Follows tree state.removed visit
      (below.flatMap (RemovalFrame.visits tree)) (visit.stopOpen answer state.removed.length) := by
  have hgo : (visit.reads && !answer.read.ok) = false := by
    cases hreads : visit.reads with
    | false => rfl
    | true => simp [hread hreads]
  unfold removeCurrent Visit.stopOpen
  rw [hgo, if_neg Bool.false_ne_true, if_pos hremoves]
  have hcount : state.removedEntries = state.removed.length := h.count
  split_ifs with hremove
  · exact ⟨state, by rw [hcount], rfl, h.opened⟩
  · refine ⟨_, rfl, ⟨h.frames, fun frame hframe => hparents frame (List.mem_of_mem_tail hframe),
      ?_, h.opened⟩, rfl, ?_⟩
    · simp [hcount]
    · rw [if_pos hremoves, hpath]

/-- The push of a child over its directory. -/
theorem pushChild_follows {state : Removal Name} {current : RemovalFrame Name}
    {below : List (RemovalFrame Name)} (answer : PassAnswer) (visit : Visit Name)
    (path : List Name) (kind : EntryKind) (hremoves : visit.removes = false)
    (hread : answer.read.ok = true)
    (h : Removal.Inv tree { state with pending := current :: below })
    (hparents : ∀ frame ∈ current :: below, frame.cursor.isSome = true)
    (hchild : RemovalFrame.Belongs tree { path, kind }) :
    (pushChild path kind current below answer state).Follows tree state.removed visit
      (RemovalFrame.visits tree { path, kind } ++
        (current :: below).flatMap (RemovalFrame.visits tree))
      (visit.stopOpen answer state.removed.length) := by
  unfold pushChild Visit.stopOpen
  rw [hread, Bool.not_true, Bool.and_false, if_neg Bool.false_ne_true, hremoves,
    if_neg Bool.false_ne_true]
  cases hthrown : answer.thrown with
  | some thrown => exact ⟨state, rfl, rfl, h.opened⟩
  | none =>
    refine ⟨_, rfl, ⟨fun frame hframe => ?_, hparents, h.count, h.opened⟩, rfl, ?_⟩
    · rcases List.mem_cons.1 hframe with rfl | hframe
      · exact hchild
      · exact h.frames frame hframe
    · rw [hremoves]
      rfl

/-- The next child of an open directory, or the directory itself. -/
theorem readCurrent_follows (state : Removal Name) {current : RemovalFrame Name}
    {below : List (RemovalFrame Name)} {entries : Entries Name} (cursor : Entries Name)
    (fresh : Bool) (answer : PassAnswer) (hkind : current.kind = .directory)
    (hopen : tree.entries.openAt current.path = some entries) (hends : cursor.Ends entries)
    (h : Removal.Inv tree { state with pending := below })
    (hparents : ∀ frame ∈ below, frame.cursor.isSome = true) :
    ∃ visit rest, cursor.allVisits current.path fresh ++
        below.flatMap (RemovalFrame.visits tree) = visit :: rest ∧ visit.opens = fresh ∧
      (readCurrent current cursor below answer state).Follows tree state.removed visit rest
        (visit.stopOpen answer state.removed.length) := by
  have hfail {visit : Visit Name} {rest : List (Visit Name)} (hreads : visit.reads = true)
      (hread : answer.read.ok = false) :
      (readCurrent current cursor below answer state).Follows tree state.removed visit rest
        (visit.stopOpen answer state.removed.length) := by
    unfold readCurrent Visit.stopOpen
    rw [hread, hreads]
    exact ⟨state, by rw [← h.count]; rfl, rfl, h.opened⟩
  have hpushed {rest : Entries Name} (hrest : rest.Ends entries) :
      Removal.Inv tree
        { state with pending := { current with cursor := some rest } :: below } := by
    refine ⟨fun frame hframe => ?_, hparents, h.count, h.opened⟩
    rcases List.mem_cons.1 hframe with rfl | hframe
    · exact fun _ => ⟨entries, hopen, fun cursor hcursor => by cases hcursor; exact hrest⟩
    · exact h.frames frame hframe
  have hcursors (rest : Entries Name) :
      ∀ frame ∈ { current with cursor := some rest } :: below, frame.cursor.isSome = true := by
    intro frame hframe
    rcases List.mem_cons.1 hframe with rfl | hframe
    · rfl
    · exact hparents frame hframe
  cases cursor with
  | nil =>
    refine ⟨_, _, rfl, Bool.and_true fresh, ?_⟩
    by_cases hread : answer.read.ok = true
    · simp only [readCurrent, hread, Bool.not_true, if_neg Bool.false_ne_true]
      exact removeCurrent_follows answer _ rfl rfl (fun _ => hread) h hparents
    · exact hfail rfl (by simpa using hread)
  | file name kind leaf rest =>
    refine ⟨_, _, rfl, rfl, ?_⟩
    by_cases hread : answer.read.ok = true
    · have hpush := pushChild_follows answer
        { path := current.path ++ [name], removes := false, opens := fresh }
        (current.path ++ [name]) kind rfl hread (hpushed hends.after_file) (hcursors rest)
        fun hdir => absurd hdir leaf
      simp only [readCurrent, hread, Bool.not_true, if_neg Bool.false_ne_true]
      simpa [RemovalFrame.visits, leaf, hkind, Entries.allVisits, Entries.names] using hpush
    · exact hfail rfl (by simpa using hread)
  | directory name children rest =>
    refine ⟨_, _, rfl, rfl, ?_⟩
    by_cases hread : answer.read.ok = true
    · have hchild : tree.entries.openAt (current.path ++ [name]) = some children := by
        rw [Entries.openAt_append, hopen, Option.bind_some]
        exact hends.openAt (tree.distinct.openAt hopen)
      have hpush := pushChild_follows answer
        { path := current.path ++ [name], removes := false, opens := fresh }
        (current.path ++ [name]) .directory rfl hread (hpushed hends.after_directory) (hcursors rest)
        fun _ => ⟨children, hchild, fun cursor hcursor => by cases hcursor⟩
      simp only [readCurrent, hread, Bool.not_true, if_neg Bool.false_ne_true]
      simpa [RemovalFrame.visits, hkind, hchild, Entries.allVisits, Entries.names] using hpush
    · exact hfail rfl (by simpa using hread)

/-- **One pass.** Every pass follows the first of the visits that are left. -/
theorem removePass_follows {state : Removal Name} {current : RemovalFrame Name}
    {below : List (RemovalFrame Name)} (maxEntries : Nat) (answer : PassAnswer)
    (h : state.Inv tree) (hpending : state.pending = current :: below) :
    ∃ visit rest, state.visits tree = visit :: rest ∧
      (removePass tree maxEntries answer current below state).Follows tree state.removed visit rest
        (visit.stop maxEntries answer state.removed.length) := by
  have hbelow : Removal.Inv tree { state with pending := below } :=
    ⟨fun frame hframe => h.frames frame (hpending ▸ List.mem_cons_of_mem _ hframe),
      fun frame hframe => h.parents frame (hpending ▸ List.mem_of_mem_tail hframe), h.count, h.opened⟩
  have hparents : ∀ frame ∈ below, frame.cursor.isSome = true := fun frame hframe =>
    h.parents frame (hpending ▸ hframe)
  have hlimit {visit : Visit Name} {rest : List (Visit Name)}
      (hge : state.removed.length ≥ maxEntries) :
      (removePass tree maxEntries answer current below state).Follows tree state.removed visit rest
        (visit.stop maxEntries answer state.removed.length) := by
    unfold removePass Visit.stop
    rw [h.count, if_pos hge, if_pos hge]
    exact ⟨state, rfl, rfl, h.opened⟩
  have hvisits : state.visits tree =
      current.visits tree ++ below.flatMap (RemovalFrame.visits tree) := by
    rw [Removal.visits, hpending, List.flatMap_cons]
  rw [hvisits]
  by_cases hkind : current.kind = .directory
  · obtain ⟨entries, hopen, hends⟩ := h.frames current (hpending ▸ List.mem_cons_self) hkind
    cases hcursor : current.cursor with
    | some cursor =>
      obtain ⟨visit, rest, heq, hopens, hfollows⟩ :=
        readCurrent_follows state cursor false answer hkind hopen (hends cursor hcursor) hbelow hparents
      refine ⟨visit, rest, by simpa [RemovalFrame.visits, hkind, hcursor] using heq, ?_⟩
      by_cases hge : state.removed.length ≥ maxEntries
      · exact hlimit hge
      · unfold removePass Visit.stop
        simpa [h.count, hge, hkind, hcursor, hopens] using hfollows
    | none =>
      have hopened : Removal.Inv tree
          { state with pending := below, opened := state.opened ++ [current.path] } := by
        refine ⟨hbelow.frames, hbelow.parents, h.count, fun path hpath => ?_⟩
        rcases List.mem_append.1 hpath with hpath | hpath
        · exact h.opened path hpath
        · rw [List.mem_singleton.1 hpath, hopen]
          rfl
      obtain ⟨visit, rest, heq, hopens, hfollows⟩ :=
        readCurrent_follows { state with opened := state.opened ++ [current.path] } entries true
          answer hkind hopen .refl hopened hparents
      refine ⟨visit, rest, by simpa [RemovalFrame.visits, hkind, hcursor, hopen] using heq, ?_⟩
      have hcursors : (below.head?.any fun parent => parent.cursor.isNone) = false := by
        cases below with
        | nil => rfl
        | cons parent below => simpa using hparents parent List.mem_cons_self
      by_cases hge : state.removed.length ≥ maxEntries
      · exact hlimit hge
      · unfold removePass Visit.stop
        by_cases hok : answer.opened.ok = true
        · simpa [h.count, hge, hkind, hcursor, hcursors, hopens, hok, hopen] using hfollows
        · have hresult : ∃ state', Pass.finished (removeTreeFailure answer.opened
              state.removed.length) state = .finished (removeTreeFailure answer.opened
              state.removed.length) state' ∧ state'.removed = state.removed ∧
              ∀ path ∈ state'.opened, (tree.entries.openAt path).isSome = true :=
            ⟨state, rfl, rfl, h.opened⟩
          simpa [h.count, hge, hkind, hcursor, hcursors, hopens, hok, Pass.Follows] using hresult
  · refine ⟨{ path := current.path, removes := true, reads := false },
      below.flatMap (RemovalFrame.visits tree), by simp only [RemovalFrame.visits, if_neg hkind, List.singleton_append], ?_⟩
    by_cases hge : state.removed.length ≥ maxEntries
    · exact hlimit hge
    · have hremove := removeCurrent_follows answer
        { path := current.path, removes := true, reads := false } rfl rfl (fun h => by cases h)
        hbelow hparents
      unfold removePass Visit.stop
      simpa [h.count, hge, hkind] using hremove

/-- **The loop.** With fuel for the visits that are left, the loop ends as they do. -/
theorem removeLoop_follows (maxEntries : Nat) (passes : Nat → PassAnswer) (pass : Nat)
    {state : Removal Name} {visits : List (Visit Name)} {fuel : Nat} (h : state.Inv tree)
    (hvisits : state.visits tree = visits) (hfuel : visits.length ≤ fuel) :
    ∃ state', removeLoop tree maxEntries passes fuel pass state =
        some ((follow maxEntries passes visits pass state.removed).1, state') ∧
      state'.removed = (follow maxEntries passes visits pass state.removed).2 ∧
      ∀ path ∈ state'.opened, (tree.entries.openAt path).isSome = true := by
  induction visits generalizing state fuel pass with
  | nil =>
    cases hpending : state.pending with
    | nil =>
      refine ⟨state, ?_, rfl, h.opened⟩
      unfold removeLoop
      rw [hpending, h.count]
      rfl
    | cons current below =>
      obtain ⟨visit, rest, hcons, -⟩ := removePass_follows maxEntries (passes pass) h hpending
      rw [hvisits] at hcons
      cases hcons
  | cons visit visits ih =>
    cases hpending : state.pending with
    | nil =>
      rw [Removal.visits, hpending] at hvisits
      cases hvisits
    | cons current below =>
      obtain ⟨fuel, rfl⟩ := Nat.exists_eq_add_one_of_ne_zero (n := fuel)
        (by rintro rfl; simp at hfuel)
      obtain ⟨_, _, hcons, hpass⟩ := removePass_follows maxEntries (passes pass) h hpending
      rw [hvisits] at hcons
      cases hcons
      unfold removeLoop follow
      rw [hpending]
      dsimp only
      cases hstop : visit.stop maxEntries (passes pass) state.removed.length with
      | some result =>
        rw [hstop] at hpass
        obtain ⟨state', hfinished, hremoved, hopened⟩ := hpass
        rw [hfinished]
        exact ⟨state', rfl, hremoved, hopened⟩
      | none =>
        rw [hstop] at hpass
        obtain ⟨state', hnext, hinv, hrest, hremoved⟩ := hpass
        rw [hnext, ← hremoved]
        exact ih (pass + 1) hinv hrest (Nat.le_of_succ_le_succ hfuel)

/-! ## The call -/

variable {Path : Type}

/-- What a removal promises: it removes entries of the tree, each once and behind everything below
it, opens only directories, counts what it removed, and succeeds when that is everything. -/
structure Removes (paths : PathOperations Path) (path : Path) (tree : DirectoryTree Name)
    (options : RemoveTreeOptions) (answers : RemoveTreeAnswers) (result : RemoveTreeResult)
    (state : Removal Name) : Prop where
  entries : ∀ entry ∈ state.removed, entry ∈ tree.order
  once : state.removed.Nodup
  behind : ∀ before entry rest, state.removed = before ++ entry :: rest →
    ∀ below ∈ tree.order, entry <+: below → below ≠ entry → below ∈ before
  directories : ∀ entry ∈ state.opened, (tree.entries.openAt entry).isSome = true
  count : result.removedEntries = state.removed.length
  limit : state.removed.length ≤ options.maxEntries
  success : result.status.ok = true ↔ ∀ entry ∈ tree.order, entry ∈ state.removed
  /-- The limit may be the number of entries. -/
  room : checkTree paths path options answers = none →
    (∀ n, (answers.passes n).opened.ok = true ∧ (answers.passes n).read.ok = true ∧
      (answers.passes n).thrown = none ∧ (answers.passes n).remove.ok = true) →
    tree.count ≤ options.maxEntries → result.status.ok = true

/-- The traversal ends with an exception of the stack, and an entry was removed before. -/
def LateThrow (paths : PathOperations Path) (path : Path) (tree : DirectoryTree Name)
    (options : RemoveTreeOptions) (answers : RemoveTreeAnswers) : Prop :=
  checkTree paths path options answers = none ∧
    LateThrowFrom options.maxEntries answers.passes (tree.entries.allVisits [] true) 0 0

/-- A call that ends at the checks fails and counts nothing. -/
theorem checkTree_fails {paths : PathOperations Path} {path : Path} {options : RemoveTreeOptions}
    {answers : RemoveTreeAnswers} {result : RemoveTreeResult}
    (h : checkTree paths path options answers = some result) :
    result.status.ok = false ∧ result.removedEntries = 0 := by
  unfold checkTree at h
  dsimp only at h
  split_ifs at h with hinvalid hquery hmissing hkind hlink hzero
  · cases h
    exact ⟨rfl, rfl⟩
  · -- the target is there, so that its query does not miss it
    exfalso
    rw [Bool.or_eq_true, not_or] at hinvalid
    rw [Bool.and_eq_true, beq_iff_eq] at hmissing
    obtain ⟨hempty, hpolicy⟩ := hinvalid
    have hfound : (queryEntry paths path options.symlinkPolicy
        { status := answers.query, kind := .directory }).status = answers.query := by
      unfold queryEntry
      rw [if_neg hempty]
      cases hsymlink : options.symlinkPolicy with
      | other value => simp [hsymlink, isValidSymlinkPolicy] at hpolicy
      | _ => rfl
    exact answers.query_found (hfound ▸ hmissing.1)
  · cases h
    exact ⟨by simpa [removeTreeFailure] using hquery, rfl⟩
  · cases h
    exact ⟨rfl, rfl⟩
  · cases h
    exact ⟨rfl, rfl⟩
  · cases h
    exact ⟨rfl, rfl⟩
  · obtain ⟨thrown, -, rfl⟩ := Option.map_eq_some_iff.1 h
    exact ⟨thrown.status_ok, rfl⟩

theorem distinct_fileAndDirectory :
    (Entries.file 0 .regularFile (by decide) (.directory 1 .nil .nil)).Distinct := by
  simp [Entries.Distinct, Entries.names]

theorem distinct_files :
    (Entries.file 0 .regularFile (by decide) (.file 1 .regularFile (by decide) .nil)).Distinct := by
  simp [Entries.Distinct, Entries.names]

end FileSystem

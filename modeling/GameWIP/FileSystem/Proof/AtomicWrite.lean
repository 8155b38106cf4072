import GameWIP.FileSystem.AtomicWrite
import GameWIP.Io.Proof.Write

/-!
# The destination before or after, never between

`writeAllBytesAtomic_law`: whatever the platform answers, the destination holds at every moment its
old contents or the whole payload, and no other file that was there is touched.

Up to the move the world `Spares` the destination and every file that was there before: all that
changes is a temporary file that did not exist. The move is one step.
-/

namespace FileSystem

open Io (Status makeStatus successStatus)

variable {Path : Type} {files : Files Path} {path temporaryPath : Path} {world : World Path}

/-! ## Spared files -/

/-- At every moment the destination and the files there at the start are as they were. -/
def Spares (files : Files Path) (path : Path) (world : World Path) : Prop :=
  ∀ moment ∈ world.moments, ∀ other, other = path ∨ (files other).isSome = true →
    moment other = files other

theorem spares_start (files : Files Path) (path : Path) : Spares files path { files } := by
  intro moment hmoment other _
  rw [List.mem_singleton.1 hmoment]

theorem Spares.now (h : Spares files path world) {other : Path}
    (hother : other = path ∨ (files other).isSome = true) : world.files other = files other :=
  h _ (by simp [World.moments]) other hother

/-- A file that is missing now was missing at the start. -/
theorem Spares.missing (h : Spares files path world)
    (hmissing : (world.files temporaryPath).isSome = false) : files temporaryPath = none := by
  cases hfile : files temporaryPath with
  | none => rfl
  | some contents =>
    rw [h.now (.inr (by rw [hfile]; rfl)), hfile] at hmissing
    cases hmissing

variable [DecidableEq Path]

theorem Spares.put (h : Spares files path world) (hne : temporaryPath ≠ path)
    (hnew : files temporaryPath = none) (contents : Option (List UInt8)) :
    Spares files path (world.put temporaryPath contents) := by
  intro moment hmoment other hother
  rcases List.mem_append.1 hmoment with hmoment | hmoment
  · exact h moment hmoment other hother
  · have hdiff : other ≠ temporaryPath := by
      rintro rfl
      rcases hother with rfl | hsome
      · exact hne rfl
      · rw [hnew] at hsome
        cases hsome
    rw [List.mem_singleton.1 hmoment]
    exact (Function.update_of_ne hdiff ..).trans (h.now hother)

variable (paths : PathOperations Path)

theorem Spares.removeFile (h : Spares files path world) (hne : temporaryPath ≠ path)
    (hnew : files temporaryPath = none) (answer : Status) :
    Spares files path (removeFile paths temporaryPath answer world) := by
  unfold FileSystem.removeFile
  split_ifs
  · exact h
  · exact h.put hne hnew none
  · exact h

/-! ## The temporary file -/

/-- A temporary file that the call created: it is not the destination and was not there before. -/
structure Created (files : Files Path) (path temporaryPath : Path) (world : World Path) : Prop where
  spares : Spares files path world
  ne : temporaryPath ≠ path
  fresh : files temporaryPath = none

theorem openTemporary_spec (symlinkPolicy : SymlinkPolicy) (answer : OpenAnswer)
    (h : Spares files path world) (hne : temporaryPath ≠ path) :
    Spares files path (openTemporary paths temporaryPath symlinkPolicy answer world).2 ∧
      ((openTemporary paths temporaryPath symlinkPolicy answer world).1.ok = true →
        files temporaryPath = none ∧
          (openTemporary paths temporaryPath symlinkPolicy answer world).2.files temporaryPath =
            some []) := by
  unfold openTemporary openNew
  dsimp only
  split_ifs with hpolicy hparent hexists hok hopen <;> try exact ⟨h, fun hok => by simp_all⟩
  have hnew := h.missing (by simpa using hexists)
  exact ⟨h.put hne hnew _, fun _ => ⟨hnew, Function.update_self ..⟩⟩

/-- The attempts spare everything, whether they end with a new empty file or with a failure. -/
theorem createTemporary_spec {parent : Path} {options : AtomicWriteOptions}
    {opens : Nat → OpenAnswer}
    (hnames : ∀ attempt, uniqueAtomicTemporaryPath paths parent options.temporaryNamePrefix attempt
      (opens attempt) ≠ path) (remaining attempt : Nat) {openStatus : Status}
    (h : Spares files path world) (hstatus : openStatus.ok = false) :
    let made := createTemporary paths parent options opens remaining attempt openStatus world
    Spares files path made.2 ∧
      (∀ status, made.1 = .error status → status.ok = false) ∧
      ∀ temporaryPath, made.1 = .ok temporaryPath →
        Created files path temporaryPath made.2 ∧ made.2.files temporaryPath = some [] := by
  induction remaining generalizing attempt openStatus world with
  | zero =>
    refine ⟨h, fun status he => ?_, fun _ he => by cases he⟩
    cases he
    exact hstatus
  | succ remaining ih =>
    unfold createTemporary
    dsimp only
    split
    · refine ⟨h, fun status he => ?_, fun _ he => by cases he⟩
      cases he
      exact Exception.status_ok _
    · obtain ⟨hspares, hopened⟩ :=
        openTemporary_spec paths options.symlinkPolicy (opens attempt) h (hnames attempt)
      split_ifs with hok hexists
      · refine ⟨hspares, fun status he => ?_, fun _ he => ?_⟩
        · cases he
        · cases he
          obtain ⟨hnew, hempty⟩ := hopened hok
          exact ⟨⟨hspares, hnames attempt, hnew⟩, hempty⟩
      · exact ih _ hspares (by simpa using hok)
      · refine ⟨hspares, fun status he => ?_, fun _ he => ?_⟩
        · cases he
          simpa using hok
        · cases he

/-- The writes fill the temporary file alone; when they succeed it holds the payload. -/
theorem writeAllBytes_created (writes : List WriteAnswer) (bytes : List UInt8)
    (h : Created files path temporaryPath world) (hempty : world.files temporaryPath = some []) :
    let written := Io.writeAllBytes (fileWriter temporaryPath) (world, writes) bytes
    Created files path temporaryPath written.2.1 ∧
      (written.1.status.ok = true → written.2.1.files temporaryPath = some bytes) := by
  have hrule := Io.writeAllFrom_rule (fileWriter temporaryPath)
    (P := fun rest state => Created files path temporaryPath state.1 ∧
      ∃ done, state.1.files temporaryPath = some done ∧ done ++ rest = bytes)
    (Q := fun state => Created files path temporaryPath state.1) (fun h => h.1)
    (fun {rest state} ⟨hcreated, done, hdone, hsplit⟩ => ?_) 0
    (s := (world, writes)) ⟨h, [], hempty, rfl⟩
  · refine ⟨hrule.1, fun hok => ?_⟩
    obtain ⟨-, done, hdone, hsplit⟩ := hrule.2 hok
    rw [List.append_nil] at hsplit
    rw [← hsplit] at hdone ⊢
    exact hdone
  · have hcreated' (contents : Option (List UInt8)) :
        Created files path temporaryPath (state.1.put temporaryPath contents) :=
      ⟨hcreated.spares.put hcreated.ne hcreated.fresh contents, hcreated.ne, hcreated.fresh⟩
    refine ⟨hcreated' _, fun hok hle => ⟨hcreated' _, _, Function.update_self .., ?_⟩⟩
    have hanswer : (state.2.headD {}).result.status.ok = true := hok
    rw [if_pos hanswer, hdone, Option.getD_some, List.append_assoc, ← hsplit]
    exact congrArg (done ++ ·) (List.take_append_drop _ rest)

/-! ## The write -/

/-- A move renames when it succeeds, and changes nothing when it fails. -/
theorem movePath_cases (source target : Path) (replaceMode : ReplaceMode) (answer : Status)
    (world : World Path) :
    ((movePath source target replaceMode answer world).1.ok = false ∧
      (movePath source target replaceMode answer world).2 = world) ∨
    ((movePath source target replaceMode answer world).1.ok = true ∧
      (movePath source target replaceMode answer world).2 = world.rename source target) := by
  unfold movePath
  split_ifs with hanswer
  · exact .inl ⟨by simpa using hanswer, rfl⟩
  · exact .inl ⟨rfl, rfl⟩
  · exact .inr ⟨by simpa using hanswer, rfl⟩

/-- What an atomic write promises of the files, from `files` on. -/
structure AtomicWrite (files : Files Path) (path : Path) (bytes : List UInt8)
    (options : AtomicWriteOptions) (answers : AtomicWriteAnswers) (status : Status)
    (world : World Path) : Prop where
  /-- The destination is the old one or the new one at every moment. -/
  destination : ∀ moment ∈ world.moments, moment path = files path ∨ moment path = some bytes
  committed : status.ok = true → world.files path = some bytes
  /-- A failure that is not the late flush of the parent directory changed nothing. -/
  failed : status.ok = false → world.files path = files path ∨
    options.flushParentDirectory = true ∧ answers.flushDirectory.ok = false ∧
      status = answers.flushDirectory ∧ world.files path = some bytes
  /-- No other file that was there is removed or overwritten. -/
  others : ∀ other, other ≠ path → (files other).isSome = true →
    ∀ moment ∈ world.moments, moment other = files other

variable {bytes : List UInt8} {options : AtomicWriteOptions} {answers : AtomicWriteAnswers}

omit [DecidableEq Path] in
/-- A failure of a world that spares everything. -/
theorem AtomicWrite.of_spares {status : Status} (h : Spares files path world)
    (hstatus : status.ok = false) : AtomicWrite files path bytes options answers status world where
  destination moment hmoment := .inl (h moment hmoment path (.inl rfl))
  committed hok := by
    rw [hstatus] at hok
    cases hok
  failed _ := .inl (h.now (.inl rfl))
  others other _ hsome moment hmoment := h moment hmoment other (.inr hsome)

/-- The rename puts the payload in place; what follows is the flush of the parent directory. -/
theorem AtomicWrite.of_rename (h : Created files path temporaryPath world)
    (hpayload : world.files temporaryPath = some bytes) {status : Status}
    (hstatus : status.ok = false → options.flushParentDirectory = true ∧
      answers.flushDirectory.ok = false ∧ status = answers.flushDirectory) :
    AtomicWrite files path bytes options answers status (world.rename temporaryPath path) := by
  have hnow : (world.rename temporaryPath path).files path = some bytes := by
    simp [World.rename, Function.update_of_ne h.ne.symm, hpayload]
  refine ⟨fun moment hmoment => ?_, fun _ => hnow, fun hfailed => .inr ?_,
    fun other hne hsome moment hmoment => ?_⟩
  · rcases List.mem_append.1 hmoment with hmoment | hmoment
    · exact .inl (h.spares moment hmoment path (.inl rfl))
    · rw [List.mem_singleton.1 hmoment]
      exact .inr hnow
  · obtain ⟨hflush, hlate, heq⟩ := hstatus hfailed
    exact ⟨hflush, hlate, heq, hnow⟩
  · rcases List.mem_append.1 hmoment with hmoment | hmoment
    · exact h.spares moment hmoment other (.inr hsome)
    · have hdiff : other ≠ temporaryPath := by
        rintro rfl
        rw [h.fresh] at hsome
        cases hsome
      rw [List.mem_singleton.1 hmoment]
      exact ((Function.update_of_ne hdiff ..).trans (Function.update_of_ne hne ..)).trans
        (h.spares.now (.inr hsome))

/-- **Before or after.** Whatever the platform answers, an atomic write leaves at every moment the
old destination or the whole payload, succeeds only with the payload in place, fails with the old
destination unless the late flush of the parent directory fails, and touches no other file that was
there. -/
theorem writeAllBytesAtomic_law (paths : PathOperations Path) (files : Files Path) (path : Path)
    (bytes : List UInt8) (options : AtomicWriteOptions) (answers : AtomicWriteAnswers)
    (hnames : ∀ attempt, uniqueAtomicTemporaryPath paths (parentOf paths path)
      options.temporaryNamePrefix attempt (answers.opens attempt) ≠ path) :
    let result := writeAllBytesAtomic paths path bytes options answers { files }
    AtomicWrite files path bytes options answers result.1 result.2 := by
  unfold writeAllBytesAtomic
  dsimp only
  by_cases hchecked : (checkDestination paths path options answers).ok = true
  · rw [if_neg (by simpa using hchecked)]
    obtain ⟨hspares, herror, hcreated⟩ :=
      createTemporary_spec paths hnames 64 0 (spares_start files path) (Io.makeStatus_ok .alreadyExists)
    split
    · rename_i openStatus world hmade
      rw [hmade] at hspares herror
      exact .of_spares hspares (herror openStatus rfl)
    · rename_i temporaryPath world hmade
      rw [hmade] at hcreated
      obtain ⟨hcreated, hempty⟩ := hcreated temporaryPath rfl
      obtain ⟨hwritten, hpayload⟩ := writeAllBytes_created answers.writes bytes hcreated hempty
      have hdiscard {status : Status} (hstatus : status.ok = false) :
          AtomicWrite files path bytes options answers status
            (removeFile paths temporaryPath answers.remove
              (Io.writeAllBytes (fileWriter temporaryPath) (world, answers.writes) bytes).2.1) :=
        .of_spares (hwritten.spares.removeFile paths hwritten.ne hwritten.fresh _) hstatus
      have hmoved := movePath_cases temporaryPath path options.replaceMode answers.move
        (Io.writeAllBytes (fileWriter temporaryPath) (world, answers.writes) bytes).2.1
      split_ifs with hwrite hflush hclose hmove hlate
      · exact hdiscard (by simpa using hwrite)
      · exact hdiscard (by simpa using hflush)
      · exact hdiscard (by simpa using hclose)
      · -- a failed move leaves the world as it was
        obtain ⟨hfailed, hsame⟩ := hmoved.resolve_right fun h => by simp [h.1] at hmove
        rw [hsame]
        exact hdiscard hfailed
      all_goals
        obtain ⟨-, hrename⟩ := hmoved.resolve_left fun h => hmove (by simp [h.1])
        rw [hrename]
      · rw [Bool.and_eq_true, Bool.not_eq_true'] at hlate
        exact .of_rename hwritten (hpayload (by simpa using hwrite)) fun _ => ⟨hlate.1, hlate.2, rfl⟩
      · exact .of_rename hwritten (hpayload (by simpa using hwrite)) fun h => by simp at h
  · rw [if_pos (by simpa using hchecked)]
    exact .of_spares (spares_start files path) (by simpa using hchecked)

/-- A file replaced by two writes and a rename. -/
theorem writeAllBytesAtomic_law_replaced :
    let files : Files (List (List UInt8)) := fun path => if path = [[0x61]] then some [1] else none
    let options : AtomicWriteOptions := { temporaryNamePrefix := [0x74] }
    let answers : AtomicWriteAnswers :=
      { writes := [{ result := { bytesWritten := 1 } }, { result := { bytesWritten := 1 } }] }
    let result := writeAllBytesAtomic componentPaths [[0x61]] [2, 3] options answers { files }
    AtomicWrite files [[0x61]] [2, 3] options answers result.1 result.2 ∧ result.1.ok = true := by
  intro files options answers result
  refine ⟨writeAllBytesAtomic_law componentPaths files [[0x61]] [2, 3] options answers
    fun attempt h => ?_, by decide +kernel⟩
  -- the temporary name has a component more
  simpa [uniqueAtomicTemporaryPath, parentOf, componentPaths] using congrArg List.length h

end FileSystem

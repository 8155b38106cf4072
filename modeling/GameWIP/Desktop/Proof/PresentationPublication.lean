import GameWIP.Desktop.PresentationPublication

/-!
# Published values are not lost

An effect replaces one published value and leaves the others as they were (`reads_apply`): the packed
words and the masks of the flags keep the values apart. So in any run of any number of threads every
reading gives what the committed effects have published last, and each thread commits the effects of its
calls once and in their order (`publication_run`). With one thread that publishes, as the Window does,
readers see a prefix of what it has called (`publication_owner`).
-/

namespace Desktop

namespace Publication

open Events (Binary32 LogicalSize PixelSize ContentScale Dpi MonitorId PresentationState)
open Lib (AtomicWords Trace putField putField_and_mask putField_and_other Fits)

/-! ## Packed pairs -/

@[simp] theorem lowUnsigned_packUnsigned (low high : UInt32) :
    lowUnsigned (packUnsigned low high) = low := by
  refine UInt32.toBitVec_inj.1 (BitVec.eq_of_getLsbD_eq fun i hi => ?_)
  simp [lowUnsigned, packUnsigned, hi]

@[simp] theorem highUnsigned_packUnsigned (low high : UInt32) :
    highUnsigned (packUnsigned low high) = high := by
  refine UInt32.toBitVec_inj.1 (BitVec.eq_of_getLsbD_eq fun i hi => ?_)
  have hin : 32 + i < 64 := by omega
  have hout : ¬32 + i < 32 := by omega
  have hi64 : i < 64 := by omega
  simp [highUnsigned, packUnsigned, hi, hin, hout, hi64]

theorem lowUnsigned_zero : lowUnsigned 0#64 = 0 := by decide

theorem highUnsigned_zero : highUnsigned 0#64 = 0 := by decide

/-! ## The flags word -/

theorem fits_presentation (value : PresentationState) :
    Fits kPresentationMask (presentationBits value) := by
  cases value <;> rfl

theorem fits_flag (flag : BitVec 32) (value : Bool) : Fits flag (if value then flag else 0) := by
  cases value with
  | true => exact BitVec.and_self
  | false => exact BitVec.zero_and

/-- A flag that is put reads back, unless it has no bit. -/
theorem updateFlag_and {flag : BitVec 32} (hflag : flag ≠ 0) (value : Bool) (current : BitVec 32) :
    ((updateFlag flag value current &&& flag) != 0) = value := by
  have h : updateFlag flag value current &&& flag = if value then flag else 0 :=
    putField_and_mask (fits_flag flag value)
  rw [h]
  cases value with
  | true => simpa using hflag
  | false => simp

/-- What has no bit in common with a flag stays. -/
theorem updateFlag_and_other {flag other : BitVec 32} (hdisjoint : flag &&& other = 0#32)
    (value : Bool) (current : BitVec 32) :
    updateFlag flag value current &&& other = current &&& other :=
  putField_and_other (fits_flag flag value) hdisjoint

theorem updatePresentation_and (value : PresentationState) (current : BitVec 32) :
    updateFlags kPresentationMask (presentationBits value) current &&& kPresentationMask =
      presentationBits value :=
  putField_and_mask (fits_presentation value)

/-- A flag under a mask that has no bit in common with it. -/
theorem testFlag_update (memory : Memory) {mask value : BitVec 32} (h : Fits mask value)
    (flag : BitVec 32) (hdisjoint : mask &&& flag = 0#32) :
    testFlag (Function.update memory .flags (updateFlags mask value (memory .flags))) flag =
      testFlag memory flag :=
  congrArg (· != 0) (putField_and_other h hdisjoint)

/-! ## One effect -/

theorem reads_construct : Reads construct {} := by
  constructor <;> decide

variable {memory : Memory} {p : Presented}

/-- **One effect** replaces its value, and every other value stays as it was. -/
theorem reads_apply (h : Reads memory p) (e : Effect) :
    Reads (words.apply memory e) (p.after e) := by
  cases e with
  | clear word =>
    cases word with
    | clientSize =>
      refine { h with clientSize := ?_ }
      exact congrArg₂ LogicalSize.mk lowUnsigned_zero highUnsigned_zero
    | framebufferSize =>
      refine { h with framebufferSize := ?_ }
      exact congrArg₂ PixelSize.mk lowUnsigned_zero highUnsigned_zero
    | contentScale =>
      refine { h with contentScale := ?_ }
      exact congrArg₂ ContentScale.mk (congrArg Binary32.mk lowUnsigned_zero)
        (congrArg Binary32.mk highUnsigned_zero)
    | dpi =>
      refine { h with dpi := ?_ }
      exact congrArg₂ Dpi.mk (congrArg Binary32.mk lowUnsigned_zero)
        (congrArg Binary32.mk highUnsigned_zero)
    | monitor => exact { h with monitor := rfl }
    | flags =>
      have hflag : ∀ flag : BitVec 32, ((0#32 &&& flag) != 0) = false := by simp
      exact { h with
        presentation := BitVec.zero_and
        visible := hflag kVisible
        interactiveMoveResizeActive := hflag kInteractiveMoveResizeActive
        occluded := hflag kOccluded }
  | clientSize value =>
    refine { h with clientSize := ?_ }
    exact congrArg₂ LogicalSize.mk (lowUnsigned_packUnsigned ..) (highUnsigned_packUnsigned ..)
  | framebufferSize value =>
    refine { h with framebufferSize := ?_ }
    exact congrArg₂ PixelSize.mk (lowUnsigned_packUnsigned ..) (highUnsigned_packUnsigned ..)
  | contentScale value =>
    refine { h with contentScale := ?_ }
    exact congrArg₂ ContentScale.mk (congrArg Binary32.mk (lowUnsigned_packUnsigned ..))
      (congrArg Binary32.mk (highUnsigned_packUnsigned ..))
  | dpi value =>
    refine { h with dpi := ?_ }
    exact congrArg₂ Dpi.mk (congrArg Binary32.mk (lowUnsigned_packUnsigned ..))
      (congrArg Binary32.mk (highUnsigned_packUnsigned ..))
  | monitor value => exact { h with monitor := rfl }
  | presentationState value =>
    have hother := testFlag_update memory (fits_presentation value)
    exact { h with
      presentation := updatePresentation_and value _
      visible := (hother kVisible rfl).trans h.visible
      interactiveMoveResizeActive :=
        (hother kInteractiveMoveResizeActive rfl).trans h.interactiveMoveResizeActive
      occluded := (hother kOccluded rfl).trans h.occluded }
  | visible value =>
    have hother := testFlag_update memory (fits_flag kVisible value)
    exact { h with
      presentation := (updateFlag_and_other rfl value _).trans h.presentation
      visible := updateFlag_and (by decide) value _
      interactiveMoveResizeActive :=
        (hother kInteractiveMoveResizeActive rfl).trans h.interactiveMoveResizeActive
      occluded := (hother kOccluded rfl).trans h.occluded }
  | interactiveMoveResizeActive value =>
    have hother := testFlag_update memory (fits_flag kInteractiveMoveResizeActive value)
    exact { h with
      presentation := (updateFlag_and_other rfl value _).trans h.presentation
      visible := (hother kVisible rfl).trans h.visible
      interactiveMoveResizeActive := updateFlag_and (by decide) value _
      occluded := (hother kOccluded rfl).trans h.occluded }
  | occluded value =>
    have hother := testFlag_update memory (fits_flag kOccluded value)
    exact { h with
      presentation := (updateFlag_and_other rfl value _).trans h.presentation
      visible := (hother kVisible rfl).trans h.visible
      interactiveMoveResizeActive :=
        (hother kInteractiveMoveResizeActive rfl).trans h.interactiveMoveResizeActive
      occluded := updateFlag_and (by decide) value _ }

theorem reads_foldl (h : Reads memory p) (effects : List Effect) :
    Reads (effects.foldl words.apply memory) (effects.foldl Presented.after p) := by
  induction effects generalizing memory p with
  | nil => exact h
  | cons e effects ih => exact ih (reads_apply h e)

/-! ## Runs -/

abbrev State : Type := AtomicWords.State words

abbrev Step : Type := Lib.Transition State (AtomicWords.Action Effect)

variable {tr : List Step} {u : State}

/-- **No publication is lost.** Whatever threads publish, and however their loads and exchanges come
between each other, every reading gives what the committed effects have published last, and a thread
commits the effects of its calls once and in their order. -/
theorem publication_run
    (h : Trace (AtomicWords.step words) (AtomicWords.initial words construct) tr u) :
    Reads u.memory
        (((AtomicWords.committed words tr).map Prod.snd).foldl Presented.after {}) ∧
      ∀ c, ((AtomicWords.committed words tr).filter fun entry => entry.1 = c).map Prod.snd ++
        (u.threads c).left = AtomicWords.called words c tr := by
  refine ⟨?_, AtomicWords.program_order h⟩
  rw [AtomicWords.memory_eq h]
  exact reads_foldl reads_construct _

/-- **One publishing thread.** Readers see what a prefix of its calls has published: all of them
but what is left of the one that runs. -/
theorem publication_owner
    (h : Trace (AtomicWords.step words) (AtomicWords.initial words construct) tr u) (owner : Nat)
    (howner : ∀ c, c ≠ owner → AtomicWords.called words c tr = []) :
    ∃ published, AtomicWords.called words owner tr = published ++ (u.threads owner).left ∧
      Reads u.memory (published.foldl Presented.after {}) := by
  obtain ⟨hreads, horder⟩ := publication_run h
  have hall : ∀ entry ∈ AtomicWords.committed words tr, entry.1 = owner := by
    intro entry hentry
    by_contra hne
    have hnil := horder entry.1
    rw [howner entry.1 hne, List.append_eq_nil_iff, List.map_eq_nil_iff] at hnil
    have hmem : entry ∈ (AtomicWords.committed words tr).filter fun e => e.1 = entry.1 :=
      List.mem_filter.2 ⟨hentry, by simp⟩
    rw [hnil.1] at hmem
    cases hmem
  have hfilter : ((AtomicWords.committed words tr).filter fun e => e.1 = owner) =
      AtomicWords.committed words tr :=
    List.filter_eq_self.2 fun entry hentry => by simpa using hall entry hentry
  refine ⟨(AtomicWords.committed words tr).map Prod.snd, ?_, hreads⟩
  rw [← horder owner, hfilter]

/-- Two threads publish flags: the exchange of the first fails, twice, and it loads again. -/
def contention : List (AtomicWords.Action Effect) :=
  [.call 0 [.visible true], .call 1 [.occluded true], .access 0, .access 1, .access 1, .access 0,
    .spurious 0, .access 0]

theorem publication_run_contention : ∃ (tr : List Step) (u : State),
    tr.map Lib.Transition.action = contention ∧
      Reads u.memory { visible := true, occluded := true } := by
  have hrun : Lib.run (AtomicWords.step words) (AtomicWords.initial words construct) contention =
      some _ := rfl
  exact ⟨_, _, Lib.actions_of_run hrun, (publication_run (Trace.of_run hrun)).1⟩

/-- Between the effects of one call a reader sees those that are made. -/
theorem publication_owner_partial : ∃ (tr : List Step) (u : State),
    Trace (AtomicWords.step words) (AtomicWords.initial words construct) tr u ∧
      AtomicWords.called words 0 tr = [.clientSize ⟨800, 600⟩, .visible true] ∧
      Reads u.memory { clientSize := ⟨800, 600⟩ } := by
  have hrun : Lib.run (AtomicWords.step words) (AtomicWords.initial words construct)
      [.call 0 [.clientSize ⟨800, 600⟩, .visible true], .access 0, .access 0] = some _ := rfl
  have htrace := Trace.of_run hrun
  obtain ⟨published, hsplit, hreads⟩ := publication_owner htrace 0 fun c hc => by
    simp [AtomicWords.called, AtomicWords.calledBy, Ne.symm hc]
  have hsplit : [.clientSize ⟨800, 600⟩, .visible true] = published ++ [.visible true] := hsplit
  have hpublished : published = [.clientSize ⟨800, 600⟩] :=
    (List.append_left_inj [.visible true]).1 hsplit.symm
  rw [hpublished] at hreads
  exact ⟨_, _, htrace, rfl, hreads⟩

end Publication

end Desktop

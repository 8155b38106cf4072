import GameWIP.Desktop.HitMask
import GameWIP.Lib.Trace
import Mathlib.Data.Nat.Bitwise

/-!
# What a hit mask answers

The updates of a run, read from its steps: the update that is pending and the mask that is active.
`pointerHitMask_follows`: a publish succeeds only for the pending update and only while its size is
the framebuffer size, no generation is published twice, and the lookup answers with the bit of the
scaled pixel in the active mask, in 64 bit arithmetic that does not wrap.
-/

namespace Desktop

namespace HitMask

open Events (LogicalPosition LogicalSize PixelSize)
open Lib (Trace Transition)
open DataTransfer (wouldMultiplyOverflow)

/-! ## The bit of a position -/

/-- The column or row of the framebuffer at a coordinate of the client area. -/
def pixelOf (coordinate : Int32) (extent client : UInt32) : Nat :=
  coordinate.toInt.toNat * extent.toNat / client.toNat

/-- The bit of a pixel, where rows are padded to words. -/
def bitAt (width : UInt32) (words : List UInt32) (x y : Nat) : Option Bool :=
  words[y * wordsPerRow width.toNat + x / bitsPerWord]?.map (·.toNat.testBit (x % bitsPerWord))

/-- A coordinate inside a client extent. -/
def Inside (coordinate : Int32) (client : UInt32) : Prop :=
  0 ≤ coordinate.toInt ∧ coordinate.toInt < client.toNat

theorem toNat_toUInt32_of_nonneg {x : Int32} (h : 0 ≤ x.toInt) : x.toUInt32.toNat = x.toInt.toNat := by
  rw [Int32.toNat_toUInt32_of_le (Int32.le_iff_toInt_le.2 h)]
  rfl

theorem insideClient_iff {size : LogicalSize} {position : LogicalPosition} :
    insideClient size position = true ↔
      Inside position.x size.width ∧ Inside position.y size.height := by
  have hcoordinate : ∀ (x : Int32) (client : UInt32),
      ¬ (client = 0 ∨ x < 0 ∨ x.toUInt32 ≥ client) ↔ Inside x client := by
    intro x client
    have hsign : x < 0 ↔ x.toInt < 0 := Int32.lt_iff_toInt_lt
    have hzero : client = 0 ↔ client.toNat = 0 := UInt32.toNat_inj.symm
    rw [Inside, hsign, hzero, ge_iff_le, UInt32.le_iff_toNat_le]
    by_cases hx : 0 ≤ x.toInt
    · rw [toNat_toUInt32_of_nonneg hx]
      omega
    · omega
  rw [← hcoordinate, ← hcoordinate]
  simp only [insideClient, Bool.not_eq_true', Bool.or_eq_false_iff, decide_eq_false_iff_not, not_or]
  constructor
  · rintro ⟨⟨⟨⟨⟨hwidth, hheight⟩, hx⟩, hy⟩, hright⟩, hbottom⟩
    exact ⟨⟨hwidth, hx, hright⟩, hheight, hy, hbottom⟩
  · rintro ⟨⟨hwidth, hx, hright⟩, hheight, hy, hbottom⟩
    exact ⟨⟨⟨⟨⟨hwidth, hheight⟩, hx⟩, hy⟩, hright⟩, hbottom⟩

namespace Inside

variable {coordinate : Int32} {client : UInt32}

theorem toNat_lt (h : Inside coordinate client) : coordinate.toInt.toNat < client.toNat := by
  obtain ⟨h0, hlt⟩ := h
  omega

/-- The multiplication does not overflow. -/
theorem product_lt (h : Inside coordinate client) (extent : UInt32) :
    coordinate.toInt.toNat * extent.toNat < 2 ^ 64 :=
  calc coordinate.toInt.toNat * extent.toNat
      ≤ 2 ^ 32 * extent.toNat :=
        Nat.mul_le_mul_right _ (Nat.le_of_lt (h.toNat_lt.trans client.toNat_lt))
    _ < 2 ^ 32 * 2 ^ 32 := Nat.mul_lt_mul_of_pos_left extent.toNat_lt (by decide)

theorem scaled_toNat (h : Inside coordinate client) (extent : UInt32) :
    (scaled coordinate extent client).toNat = pixelOf coordinate extent client := by
  have hposition : coordinate.toInt64.toUInt64.toNat = coordinate.toInt.toNat := by
    have h0 : (0 : Int64) ≤ coordinate.toInt64 := by
      rw [Int64.le_iff_toInt_le, Int32.toInt_toInt64]
      exact h.1
    rw [Int64.toNat_toUInt64_of_le h0, Int64.toNatClampNeg, Int32.toInt_toInt64]
  rw [scaled, UInt64.toNat_div, UInt64.toNat_mul, hposition, UInt32.toNat_toUInt64,
    UInt32.toNat_toUInt64, Nat.mod_eq_of_lt (h.product_lt extent), pixelOf]

theorem pixelOf_lt (h : Inside coordinate client) {extent : UInt32} (hpos : 0 < extent.toNat) :
    pixelOf coordinate extent client < extent.toNat := by
  have hclient : 0 < client.toNat := Nat.zero_lt_of_lt h.toNat_lt
  rw [pixelOf, Nat.div_lt_iff_lt_mul hclient, Nat.mul_comm extent.toNat]
  exact Nat.mul_lt_mul_of_pos_right h.toNat_lt hpos

end Inside

theorem wordsPerRow_le {width : Nat} (h : width < 2 ^ 32) : wordsPerRow width ≤ 2 ^ 27 := by
  unfold wordsPerRow bitsPerWord
  split <;> omega

theorem column_lt_wordsPerRow {width x : Nat} (h : x < width) : x / bitsPerWord < wordsPerRow width := by
  unfold wordsPerRow bitsPerWord
  split <;> omega

theorem requiredPointerHitMaskWords_eq (size : PixelSize) :
    requiredPointerHitMaskWords size = wordsPerRow size.width.toNat * size.height.toNat := by
  have hfits : wouldMultiplyOverflow size.height.toNat (wordsPerRow size.width.toNat) = false := by
    have hrow := wordsPerRow_le size.width.toNat_lt
    have hheight := size.height.toNat_lt
    by_cases h0 : size.height.toNat = 0
    · simp [wouldMultiplyOverflow, h0]
    · have hdiv : 2 ^ 27 ≤ (2 ^ 64 - 1) / size.height.toNat := by
        rw [Nat.le_div_iff_mul_le (Nat.pos_of_ne_zero h0)]
        omega
      simp only [wouldMultiplyOverflow, Bool.and_eq_false_iff, decide_eq_false_iff_not]
      omega
  rw [requiredPointerHitMaskWords, hfits]
  by_cases hw : size.width.toNat = 0
  · simp [hw, wordsPerRow]
  · by_cases hh : size.height.toNat = 0
    · simp [hh]
    · simp [hw, hh]

/-- The word of a pixel lies in the mask. -/
theorem word_lt_required {size : PixelSize} {x y : Nat} (hx : x < size.width.toNat)
    (hy : y < size.height.toNat) :
    y * wordsPerRow size.width.toNat + x / bitsPerWord < requiredPointerHitMaskWords size :=
  calc y * wordsPerRow size.width.toNat + x / bitsPerWord
      < y * wordsPerRow size.width.toNat + wordsPerRow size.width.toNat :=
        Nat.add_lt_add_left (column_lt_wordsPerRow hx) _
    _ = wordsPerRow size.width.toNat * (y + 1) := by rw [Nat.mul_comm y, Nat.mul_succ]
    _ ≤ wordsPerRow size.width.toNat * size.height.toNat := Nat.mul_le_mul_left _ hy
    _ = requiredPointerHitMaskWords size := (requiredPointerHitMaskWords_eq size).symm

theorem wordIndex_toNat {width : UInt32} {x y : UInt64} (hx : x.toNat < width.toNat)
    (hy : y.toNat < 2 ^ 32) :
    (wordIndex width x y).toNat = y.toNat * wordsPerRow width.toNat + x.toNat / bitsPerWord := by
  have hrow : (width.toUInt64 / 32 + if width.toUInt64 % 32 ≠ 0 then 1 else 0).toNat =
      wordsPerRow width.toNat := by
    have hdiv : (width.toUInt64 / 32).toNat = width.toNat / bitsPerWord := rfl
    have hmod : (width.toUInt64 % 32).toNat = width.toNat % bitsPerWord := rfl
    have hlt := width.toNat_lt
    by_cases h0 : width.toNat % bitsPerWord = 0
    · have hz : width.toUInt64 % 32 = 0 := UInt64.toNat_inj.1 (hmod.trans h0)
      simp [wordsPerRow, h0, hz, hdiv]
    · have hz : width.toUInt64 % 32 ≠ 0 := fun h => h0 (hmod ▸ congrArg UInt64.toNat h)
      rw [if_pos hz, wordsPerRow, if_pos h0, UInt64.toNat_add, hdiv, UInt64.toNat_one,
        Nat.mod_eq_of_lt]
      rw [bitsPerWord]
      omega
  have hle := wordsPerRow_le width.toNat_lt
  have hproduct : y.toNat * wordsPerRow width.toNat ≤ 2 ^ 32 * 2 ^ 27 := Nat.mul_le_mul hy.le hle
  have hwidth := width.toNat_lt
  rw [wordIndex, UInt64.toNat_add, UInt64.toNat_mul, UInt64.toNat_div, hrow, bitsPerWord]
  simp
  omega

/-- A bit is tested with the mask `1 <<< (x % 32)`. -/
theorem and_shift_ne_zero (word : UInt32) (x : UInt64) :
    (word &&& (1 <<< (x % 32).toUInt32) != 0) = word.toNat.testBit (x.toNat % bitsPerWord) := by
  have hmask : ((1 : UInt32) <<< (x % 32).toUInt32).toNat = 2 ^ (x.toNat % bitsPerWord) := by
    have hlt : x.toNat % 32 < 32 := Nat.mod_lt _ (by decide)
    have hpow : 2 ^ (x.toNat % 32) < 2 ^ 32 := Nat.pow_lt_pow_right (by decide) hlt
    have hshift : (x % 32).toUInt32.toNat % 32 = x.toNat % 32 := by
      simp
    rw [UInt32.toNat_shiftLeft, hshift, UInt32.toNat_one, Nat.one_shiftLeft, Nat.mod_eq_of_lt hpow]
    rfl
  have hzero : (word &&& (1 <<< (x % 32).toUInt32)) = 0 ↔
      word.toNat &&& 2 ^ (x.toNat % bitsPerWord) = 0 := by
    rw [← UInt32.toNat_inj, UInt32.toNat_and, hmask]
    rfl
  rw [Nat.and_two_pow] at hzero
  cases hbit : word.toNat.testBit (x.toNat % bitsPerWord) <;> simp [hbit] at hzero <;> simp [hzero]

/-! ## The updates of a run -/

def next (s : WindowState) (a : Action) : Option WindowState := some (step s a)

/-- The update that a step began. -/
def begun (x : Transition WindowState Action) : Option PointerHitMaskTarget :=
  match x.action with
  | .begin answers => (beginPointerHitMaskUpdate x.pre answers).2.2
  | _ => none

/-- The generation and the words that a step published. -/
def published (x : Transition WindowState Action) : Option (UInt64 × List UInt32) :=
  match x.action with
  | .publish generation words answers =>
    if (publishPointerHitMask x.pre generation words answers).2.ok then some (generation, words)
    else none
  | _ => none

/-- Whether a step invalidates the mask and the update. -/
def invalidates (x : Transition WindowState Action) : Bool :=
  match x.action with
  | .invalidate | .finishWindowLifetime => true
  | .refreshGeometry framebufferSize _ => x.pre.rendererIntegration.any (staleFor framebufferSize)
  | _ => false

/-- A published mask. -/
structure Mask where
  size : PixelSize
  words : List UInt32

/-- The update that is begun, not yet published and not invalidated; and the mask that was published
last, unless it was invalidated. -/
structure Updates where
  pending : Option PointerHitMaskTarget := none
  active : Option Mask := none

def Updates.follow (updates : Updates) (x : Transition WindowState Action) : Updates :=
  if invalidates x then {}
  else
    match begun x, published x with
    | some target, _ => { updates with pending := some target }
    | none, some (_, words) => { active := some { size := x.pre.framebufferSize, words } }
    | none, none => updates

def updatesOf (tr : List (Transition WindowState Action)) : Updates := tr.foldl Updates.follow {}

def generationsOf (tr : List (Transition WindowState Action)) : List UInt64 :=
  (tr.filterMap published).map Prod.fst

/-! ## The invariant -/

/-- The renderer state holds the pending update and the active mask, and its generations go up. -/
structure Tracks (updates : Updates) (generations : List UInt64) (r : RendererIntegrationState) :
    Prop where
  target : r.pointerHitMaskTargetGeneration ≠ 0 →
    updates.pending = some ⟨r.pointerHitMaskTargetGeneration, r.pointerHitMaskTargetSize,
      r.pointerHitMaskTargetWordCount⟩ ∧
    r.pointerHitMaskTargetWordCount = requiredPointerHitMaskWords r.pointerHitMaskTargetSize ∧
    r.pointerHitMaskTargetGeneration ≤ r.pointerHitMaskGeneration ∧
    ∀ g ∈ generations, g < r.pointerHitMaskTargetGeneration
  mask : match updates.active with
    | none => r.pointerHitMaskActiveGeneration = 0
    | some mask => r.pointerHitMaskActiveGeneration ≠ 0 ∧ r.pointerHitMask = mask.words ∧
        r.pointerHitMaskSize = mask.size ∧ mask.words.length = requiredPointerHitMaskWords mask.size ∧
        0 < mask.words.length
  generations_le : ∀ g ∈ generations, g ≤ r.pointerHitMaskGeneration
  nodup : generations.Nodup

/-- The renderer state, a new one when there is none yet. -/
def rendererOf (s : WindowState) : RendererIntegrationState := s.rendererIntegration.getD {}

namespace Tracks

variable {updates : Updates} {generations : List UInt64} {r r' : RendererIntegrationState}

/-- Without a mask and a target. -/
theorem cleared (h : Tracks updates generations r) (htarget : r'.pointerHitMaskTargetGeneration = 0)
    (hactive : r'.pointerHitMaskActiveGeneration = 0)
    (hle : r.pointerHitMaskGeneration ≤ r'.pointerHitMaskGeneration) : Tracks {} generations r' where
  target hne := absurd htarget hne
  mask := hactive
  generations_le g hg := UInt64.le_trans (h.generations_le g hg) hle
  nodup := h.nodup

/-- Without a target. -/
theorem withdrawn (h : Tracks updates generations r) (exhausted : Bool) :
    Tracks updates generations { r with
      pointerHitMaskGenerationExhausted := exhausted, pointerHitMaskTargetGeneration := 0 } where
  target hne := absurd rfl hne
  mask := h.mask
  generations_le := h.generations_le
  nodup := h.nodup

theorem lt_succ_of_ne_max {g : UInt64} (h : g ≠ maxGeneration) : g < g + 1 := by
  have hne : g.toNat ≠ 2 ^ 64 - 1 := fun heq => h (UInt64.toNat_inj.1 heq)
  have hlt := g.toNat_lt
  rw [UInt64.lt_iff_toNat_lt, UInt64.toNat_add, UInt64.toNat_one]
  omega

/-- With the next generation as its target. -/
theorem begun (h : Tracks updates generations r) (hmax : r.pointerHitMaskGeneration ≠ maxGeneration)
    (size : PixelSize) :
    Tracks
      ⟨some ⟨r.pointerHitMaskGeneration + 1, size, requiredPointerHitMaskWords size⟩, updates.active⟩
      generations
      { r with
        pointerHitMaskGeneration := r.pointerHitMaskGeneration + 1
        pointerHitMaskTargetGeneration := r.pointerHitMaskGeneration + 1
        pointerHitMaskTargetSize := size
        pointerHitMaskTargetWordCount := requiredPointerHitMaskWords size } where
  target _ := ⟨rfl, rfl, UInt64.le_refl _,
    fun g hg => UInt64.lt_of_le_of_lt (h.generations_le g hg) (lt_succ_of_ne_max hmax)⟩
  mask := h.mask
  generations_le g hg :=
    UInt64.le_of_lt (UInt64.lt_of_le_of_lt (h.generations_le g hg) (lt_succ_of_ne_max hmax))
  nodup := h.nodup

/-- With the target in the place of the mask. -/
theorem published (h : Tracks updates generations r) {s : WindowState} {words : List UInt32}
    (htarget : r.pointerHitMaskTargetGeneration ≠ 0) (hpos : r.pointerHitMaskTargetWordCount ≠ 0)
    (hlength : r.pointerHitMaskTargetWordCount = words.length) :
    Tracks { active := some { size := r.pointerHitMaskTargetSize, words } }
      (generations ++ [r.pointerHitMaskTargetGeneration])
      (rendererOf (activate s r r.pointerHitMaskTargetGeneration words)) := by
  obtain ⟨-, hcount, hle, hlt⟩ := h.target htarget
  refine ⟨fun hne => absurd rfl hne, 
    ⟨htarget, rfl, rfl, hlength ▸ hcount, Nat.pos_of_ne_zero (hlength ▸ hpos)⟩, ?_, ?_⟩
  · intro g hg
    rcases List.mem_append.1 hg with hg | hg
    · exact h.generations_le g hg
    · rw [List.mem_singleton.1 hg]
      exact hle
  · refine List.nodup_append.2 ⟨h.nodup, List.nodup_singleton _, fun g hg g' hg' heq => ?_⟩
    rw [List.mem_singleton.1 hg'] at heq
    exact absurd (heq ▸ hlt g hg) (UInt64.lt_irrefl _)

end Tracks

/-! ## What each operation does -/

/-- A publish fails and changes nothing, or it was for the target and for the framebuffer as it is. -/
theorem publishPointerHitMask_cases (s : WindowState) (generation : UInt64) (words : List UInt32)
    (answers : PublishAnswers) :
    ((publishPointerHitMask s generation words answers).2.ok = false ∧
      (publishPointerHitMask s generation words answers).1 = s) ∨
    ((publishPointerHitMask s generation words answers).2.ok = true ∧
      ∃ r, s.rendererIntegration = some r ∧ r.pointerHitMaskTargetGeneration ≠ 0 ∧
        generation = r.pointerHitMaskTargetGeneration ∧ r.pointerHitMaskTargetWordCount ≠ 0 ∧
        r.pointerHitMaskTargetWordCount = words.length ∧
        r.pointerHitMaskTargetSize = s.framebufferSize ∧
        (publishPointerHitMask s generation words answers).1 = activate s r generation words) := by
  unfold publishPointerHitMask
  cases howner : answers.owner.ok with
  | false => exact .inl ⟨howner, rfl⟩
  | true =>
    cases hr : s.rendererIntegration with
    | none => exact .inl ⟨rfl, rfl⟩
    | some r =>
      simp only [Bool.not_true, Bool.false_eq_true, if_false]
      split
      · exact .inl ⟨rfl, rfl⟩
      · rename_i hgeneration
        split
        · exact .inl ⟨rfl, rfl⟩
        · rename_i hshape
          simp only [Bool.or_eq_true, decide_eq_true_eq, not_or, not_not] at hgeneration hshape
          have hr' := And.intro (hgeneration.2 ▸ hgeneration.1)
            (And.intro hgeneration.2 (And.intro hshape.1.1 (And.intro hshape.1.2 hshape.2)))
          split
          · exact .inl ⟨rfl, rfl⟩
          · split
            · exact .inr ⟨rfl, r, rfl, hr'.1, hr'.2.1, hr'.2.2.1, hr'.2.2.2.1, hr'.2.2.2.2, rfl⟩
            · split
              · exact .inr ⟨rfl, r, rfl, hr'.1, hr'.2.1, hr'.2.2.1, hr'.2.2.2.1, hr'.2.2.2.2, rfl⟩
              · exact .inl ⟨rfl, rfl⟩
              · exact .inl ⟨rfl, rfl⟩

/-- An update is refused, where at most the target is withdrawn, or begun with the next generation. -/
theorem beginPointerHitMaskUpdate_cases (s : WindowState) (answers : BeginAnswers) :
    ((beginPointerHitMaskUpdate s answers).2.2 = none ∧
      (rendererOf (beginPointerHitMaskUpdate s answers).1 = rendererOf s ∨
        rendererOf (beginPointerHitMaskUpdate s answers).1 =
          { rendererOf s with
            pointerHitMaskGenerationExhausted := true, pointerHitMaskTargetGeneration := 0 })) ∨
    ((rendererOf s).pointerHitMaskGeneration ≠ maxGeneration ∧
      (beginPointerHitMaskUpdate s answers).2.2 =
        some ⟨(rendererOf s).pointerHitMaskGeneration + 1, s.framebufferSize,
          requiredPointerHitMaskWords s.framebufferSize⟩ ∧
      rendererOf (beginPointerHitMaskUpdate s answers).1 =
        { rendererOf s with
          pointerHitMaskGeneration := (rendererOf s).pointerHitMaskGeneration + 1
          pointerHitMaskTargetGeneration := (rendererOf s).pointerHitMaskGeneration + 1
          pointerHitMaskTargetSize := s.framebufferSize
          pointerHitMaskTargetWordCount := requiredPointerHitMaskWords s.framebufferSize }) := by
  unfold beginPointerHitMaskUpdate refuse
  split
  · exact .inl ⟨rfl, .inl rfl⟩
  split
  · exact .inl ⟨rfl, .inl rfl⟩
  split
  · exact .inl ⟨rfl, .inl rfl⟩
  split
  · exact .inl ⟨rfl, .inl rfl⟩
  simp only
  split
  · exact .inl ⟨rfl, .inr rfl⟩
  · rename_i hmax
    simp only [Bool.or_eq_true, decide_eq_true_eq, not_or] at hmax
    split
    · exact .inl ⟨rfl, .inl rfl⟩
    · exact .inr ⟨hmax.2, rfl, rfl⟩

/-! ## Runs -/

section Step

variable {tr : List (Transition WindowState Action)} {x : Transition WindowState Action}

theorem updatesOf_append : updatesOf (tr ++ [x]) = (updatesOf tr).follow x := by
  simp [updatesOf]

theorem generationsOf_append :
    generationsOf (tr ++ [x]) = generationsOf tr ++ ((published x).map Prod.fst).toList := by
  cases h : published x <;> simp [generationsOf, h]

theorem rendererOf_invalidatePointerHitMask (s : WindowState) (updates : Updates)
    (generations : List UInt64) (h : Tracks updates generations (rendererOf s)) :
    Tracks {} generations (rendererOf (invalidatePointerHitMask s)) := by
  cases hr : s.rendererIntegration with
  | none =>
    rw [rendererOf, hr] at h
    rw [rendererOf, invalidatePointerHitMask, hr]
    exact h.cleared rfl rfl (UInt64.le_refl _)
  | some r =>
    rw [rendererOf, hr] at h
    rw [rendererOf, invalidatePointerHitMask, hr]
    simp only [Option.map_some, Option.getD_some, RendererIntegrationState.invalidatePointerHitMask]
    split
    · exact h.cleared rfl rfl (UInt64.le_refl _)
    · rename_i hmax
      exact h.cleared rfl rfl (UInt64.le_of_lt (Tracks.lt_succ_of_ne_max hmax))

/-- **One step.** -/
theorem tracks_step (hx : x.post = step x.pre x.action)
    (h : Tracks (updatesOf tr) (generationsOf tr) (rendererOf x.pre)) :
    Tracks (updatesOf (tr ++ [x])) (generationsOf (tr ++ [x])) (rendererOf x.post) := by
  obtain ⟨s, a, t⟩ := x
  change t = step s a at hx
  subst hx
  rw [updatesOf_append, generationsOf_append]
  change Tracks _ _ (rendererOf s) at h
  cases a with
  | begin answers =>
    change Tracks _ (generationsOf tr ++ []) _
    rw [List.append_nil]
    rcases beginPointerHitMaskUpdate_cases s answers with ⟨hnone, heq⟩ | ⟨hmax, hsome, heq⟩
    · have hfollow : (updatesOf tr).follow ⟨s, .begin answers, step s (.begin answers)⟩ = updatesOf tr := by
        simp [Updates.follow, invalidates, begun, published, hnone]
      rw [hfollow]
      change Tracks _ _ (rendererOf (beginPointerHitMaskUpdate s answers).1)
      rcases heq with heq | heq
      · rw [heq]
        exact h
      · rw [heq]
        exact h.withdrawn true
    · have hfollow : (updatesOf tr).follow ⟨s, .begin answers, step s (.begin answers)⟩ =
          ⟨some ⟨(rendererOf s).pointerHitMaskGeneration + 1, s.framebufferSize,
            requiredPointerHitMaskWords s.framebufferSize⟩, (updatesOf tr).active⟩ := by
        simp [Updates.follow, invalidates, begun, hsome]
      rw [hfollow]
      change Tracks _ _ (rendererOf (beginPointerHitMaskUpdate s answers).1)
      rw [heq]
      exact h.begun hmax s.framebufferSize
  | publish generation words answers =>
    rcases publishPointerHitMask_cases s generation words answers with
      ⟨hfailed, heq⟩ | ⟨hok, r, hr, htarget, rfl, hpos, hlength, hsize, heq⟩
    · have hnone : published ⟨s, .publish generation words answers,
          step s (.publish generation words answers)⟩ = none := by
        simp [published, hfailed]
      rw [Updates.follow, hnone]
      change Tracks _ (generationsOf tr ++ []) (rendererOf (publishPointerHitMask s _ _ _).1)
      rw [List.append_nil, heq]
      exact h
    · have hsome : published ⟨s, .publish r.pointerHitMaskTargetGeneration words answers,
          step s (.publish r.pointerHitMaskTargetGeneration words answers)⟩ =
          some (r.pointerHitMaskTargetGeneration, words) := by
        simp [published, hok]
      rw [Updates.follow, hsome]
      change Tracks { active := some { size := s.framebufferSize, words } }
        (generationsOf tr ++ [r.pointerHitMaskTargetGeneration])
        (rendererOf (publishPointerHitMask s _ _ _).1)
      rw [heq, ← hsize]
      rw [rendererOf, hr] at h
      exact h.published htarget hpos hlength
  | invalidate =>
    change Tracks {} (generationsOf tr ++ []) _
    rw [List.append_nil]
    exact rendererOf_invalidatePointerHitMask s _ _ h
  | finishWindowLifetime =>
    change Tracks {} (generationsOf tr ++ []) (rendererOf (finishWindowLifetime s))
    rw [List.append_nil]
    cases hr : s.rendererIntegration with
    | none =>
      rw [rendererOf, hr] at h
      rw [rendererOf, finishWindowLifetime, hr]
      exact h.cleared rfl rfl (UInt64.le_refl _)
    | some r =>
      rw [rendererOf, hr] at h
      rw [rendererOf, finishWindowLifetime, hr]
      exact h.cleared rfl rfl (UInt64.le_refl _)
  | refreshGeometry framebufferSize clientSize =>
    change Tracks _ (generationsOf tr ++ []) (rendererOf (refreshCachedGeometry s _ _))
    rw [List.append_nil, refreshCachedGeometry, Updates.follow, invalidates]
    cases hstale : s.rendererIntegration.any (staleFor framebufferSize) with
    | true =>
      simp only [hstale, if_true]
      exact rendererOf_invalidatePointerHitMask { s with framebufferSize } _ _ h
    | false =>
      simp only [hstale]
      exact h
  | setSizes framebufferSize clientSize =>
    change Tracks _ (generationsOf tr ++ []) (rendererOf s)
    rw [List.append_nil]
    exact h

end Step

/-- **A run.** -/
theorem tracks_run {framebufferSize : PixelSize} {clientSize : LogicalSize} {u : WindowState}
    {tr : List (Transition WindowState Action)}
    (h : Trace next { framebufferSize, clientSize } tr u) :
    Tracks (updatesOf tr) (generationsOf tr) (rendererOf u) := by
  refine h.history (P := fun tr u => Tracks (updatesOf tr) (generationsOf tr) (rendererOf u)) ?_ ?_
  · exact ⟨fun hne => absurd rfl hne, rfl, fun _ hg => absurd hg List.not_mem_nil, List.nodup_nil⟩
  · intro tr x _ hx htracks
    exact tracks_step (Option.some.inj hx).symm htracks

/-! ## The lookup -/

/-- The lookup reads a word of the mask for the pixel of the position, and no product overflows. -/
structure LooksUp (s : WindowState) (position : LogicalPosition) (words : List UInt32) : Prop where
  held : (rendererOf s).pointerHitMask = words
  column_product : position.x.toInt.toNat * s.framebufferSize.width.toNat < 2 ^ 64
  row_product : position.y.toInt.toNat * s.framebufferSize.height.toNat < 2 ^ 64
  column : (scaled position.x s.framebufferSize.width s.clientSize.width).toNat =
    pixelOf position.x s.framebufferSize.width s.clientSize.width
  row : (scaled position.y s.framebufferSize.height s.clientSize.height).toNat =
    pixelOf position.y s.framebufferSize.height s.clientSize.height
  column_lt : pixelOf position.x s.framebufferSize.width s.clientSize.width <
    s.framebufferSize.width.toNat
  row_lt : pixelOf position.y s.framebufferSize.height s.clientSize.height <
    s.framebufferSize.height.toNat
  word : (wordIndex s.framebufferSize.width
      (scaled position.x s.framebufferSize.width s.clientSize.width)
      (scaled position.y s.framebufferSize.height s.clientSize.height)).toNat =
    pixelOf position.y s.framebufferSize.height s.clientSize.height *
        wordsPerRow s.framebufferSize.width.toNat +
      pixelOf position.x s.framebufferSize.width s.clientSize.width / bitsPerWord
  word_lt : pixelOf position.y s.framebufferSize.height s.clientSize.height *
        wordsPerRow s.framebufferSize.width.toNat +
      pixelOf position.x s.framebufferSize.width s.clientSize.width / bitsPerWord < words.length
  length_lt : words.length < 2 ^ 64

section Lookup

variable {updates : Updates} {generations : List UInt64} {s : WindowState} {mask : Mask}
  {position : LogicalPosition}

theorem requiredPointerHitMaskWords_lt (size : PixelSize) :
    requiredPointerHitMaskWords size < 2 ^ 64 := by
  rw [requiredPointerHitMaskWords_eq]
  calc wordsPerRow size.width.toNat * size.height.toNat
      ≤ 2 ^ 27 * 2 ^ 32 := Nat.mul_le_mul (wordsPerRow_le size.width.toNat_lt) size.height.toNat_lt.le
    _ < 2 ^ 64 := by decide

theorem Tracks.looksUp (h : Tracks updates generations (rendererOf s))
    (hactive : updates.active = some mask) (hsize : mask.size = s.framebufferSize)
    (hx : Inside position.x s.clientSize.width) (hy : Inside position.y s.clientSize.height) :
    LooksUp s position mask.words := by
  have hmask := h.mask
  simp only [hactive] at hmask
  obtain ⟨-, hheld, -, hlength, hpos⟩ := hmask
  rw [hlength, hsize, requiredPointerHitMaskWords_eq] at hpos
  have hwidth : 0 < s.framebufferSize.width.toNat := by
    rcases Nat.eq_zero_or_pos s.framebufferSize.width.toNat with h0 | h0
    · rw [h0] at hpos
      simp [wordsPerRow] at hpos
    · exact h0
  have hcolumn := hx.pixelOf_lt hwidth
  have hrow := hy.pixelOf_lt (Nat.pos_of_mul_pos_left hpos)
  have hword := word_lt_required hcolumn hrow
  rw [← hsize, ← hlength] at hword
  refine ⟨hheld, hx.product_lt _, hy.product_lt _, hx.scaled_toNat _, hy.scaled_toNat _, hcolumn, hrow,
    ?_, hsize ▸ hword, hlength ▸ requiredPointerHitMaskWords_lt _⟩
  rw [wordIndex_toNat, hx.scaled_toNat, hy.scaled_toNat]
  · rw [hx.scaled_toNat]
    exact hcolumn
  · rw [hy.scaled_toNat]
    exact hrow.trans s.framebufferSize.height.toNat_lt

/-- Under a mask that fits, the lookup answers with the bit. -/
theorem Tracks.accepts_eq (h : Tracks updates generations (rendererOf s))
    (hactive : updates.active = some mask) (hsize : mask.size = s.framebufferSize)
    (hx : Inside position.x s.clientSize.width) (hy : Inside position.y s.clientSize.height) :
    some (pointerHitMaskAccepts s position) =
      bitAt s.framebufferSize.width mask.words
        (pixelOf position.x s.framebufferSize.width s.clientSize.width)
        (pixelOf position.y s.framebufferSize.height s.clientSize.height) := by
  have hlook := h.looksUp hactive hsize hx hy
  have hmask := h.mask
  simp only [hactive] at hmask
  obtain ⟨hgeneration, hheld, hmaskSize, -, hpos⟩ := hmask
  cases hr : s.rendererIntegration with
  | none =>
    rw [rendererOf, hr] at hgeneration
    exact absurd rfl hgeneration
  | some r =>
    rw [rendererOf, hr, Option.getD_some] at hgeneration hheld hmaskSize
    have hne : mask.words ≠ [] := List.ne_nil_of_length_pos hpos
    have hinside := insideClient_iff.2 ⟨hx, hy⟩
    have hcolumn : ¬ scaled position.x s.framebufferSize.width s.clientSize.width ≥
        s.framebufferSize.width.toUInt64 := by
      rw [ge_iff_le, UInt64.le_iff_toNat_le, hlook.column, UInt32.toNat_toUInt64]
      exact Nat.not_le.2 hlook.column_lt
    have hrow : ¬ scaled position.y s.framebufferSize.height s.clientSize.height ≥
        s.framebufferSize.height.toUInt64 := by
      rw [ge_iff_le, UInt64.le_iff_toNat_le, hlook.row, UInt32.toNat_toUInt64]
      exact Nat.not_le.2 hlook.row_lt
    have hword : ¬ wordIndex s.framebufferSize.width
        (scaled position.x s.framebufferSize.width s.clientSize.width)
        (scaled position.y s.framebufferSize.height s.clientSize.height) ≥
          UInt64.ofNat mask.words.length := by
      rw [ge_iff_le, UInt64.le_iff_toNat_le, hlook.word, UInt64.toNat_ofNat',
        Nat.mod_eq_of_lt hlook.length_lt]
      exact Nat.not_le.2 hlook.word_lt
    simp only [pointerHitMaskAccepts, hr, hheld, hgeneration, hmaskSize, hsize, hinside, hcolumn, hrow,
      hword, and_shift_ne_zero, hlook.word, hlook.column]
    simp [bitAt, hne, List.getElem?_eq_getElem hlook.word_lt]

/-- **The lookup.** -/
theorem Tracks.accepts_iff (h : Tracks updates generations (rendererOf s)) :
    pointerHitMaskAccepts s position = false ↔
      ∃ mask, updates.active = some mask ∧ mask.size = s.framebufferSize ∧
        Inside position.x s.clientSize.width ∧ Inside position.y s.clientSize.height ∧
        bitAt s.framebufferSize.width mask.words
          (pixelOf position.x s.framebufferSize.width s.clientSize.width)
          (pixelOf position.y s.framebufferSize.height s.clientSize.height) = some false := by
  constructor
  · intro hfalse
    have hreached : insideClient s.clientSize position = true ∧
        (rendererOf s).pointerHitMaskActiveGeneration ≠ 0 ∧
        (rendererOf s).pointerHitMaskSize = s.framebufferSize := by
      cases hr : s.rendererIntegration with
      | none => simp [pointerHitMaskAccepts, hr] at hfalse
      | some r =>
        simp only [pointerHitMaskAccepts, hr] at hfalse
        split at hfalse
        · exact absurd hfalse Bool.noConfusion
        · rename_i hguard
          simp only [Bool.or_eq_true, decide_eq_true_eq, Bool.not_eq_true', not_or, not_not,
            Bool.not_eq_false] at hguard
          simp only [rendererOf, hr, Option.getD_some]
          exact ⟨hguard.2, hguard.1.1.2, hguard.1.2⟩
    obtain ⟨hinside, hgeneration, hsize⟩ := hreached
    obtain ⟨hx, hy⟩ := insideClient_iff.1 hinside
    have hmask := h.mask
    cases hactive : updates.active with
    | none =>
      simp only [hactive] at hmask
      exact absurd hmask hgeneration
    | some mask =>
      simp only [hactive] at hmask
      have hfits : mask.size = s.framebufferSize := hmask.2.2.1.symm.trans hsize
      refine ⟨mask, rfl, hfits, hx, hy, ?_⟩
      rw [← h.accepts_eq hactive hfits hx hy, hfalse]
  · rintro ⟨mask, hactive, hsize, hx, hy, hbit⟩
    rw [← h.accepts_eq hactive hsize hx hy] at hbit
    exact Option.some.inj hbit

end Lookup

/-- **Hit masks follow their updates.** In every state of a run of a Window: a publish succeeds only
with the generation of the pending update and while its size is the framebuffer size; no generation
was published twice; a failed publish changes nothing; and a position is not accepted exactly when the
active mask fits the framebuffer, the position lies in the client area and the bit of its pixel is
clear. Then the lookup stays in the mask and in 64 bits. -/
theorem pointerHitMask_follows (framebufferSize : PixelSize) (clientSize : LogicalSize)
    (tr : List (Transition WindowState Action)) (u : WindowState)
    (h : Trace next { framebufferSize, clientSize } tr u) :
    (∀ generation words answers,
      (publishPointerHitMask u generation words answers).2.ok = true →
      ∃ target, (updatesOf tr).pending = some target ∧ target.generation = generation ∧
        target.framebufferSize = u.framebufferSize) ∧
    (generationsOf tr).Nodup ∧
    (∀ generation words answers,
      (publishPointerHitMask u generation words answers).2.ok = false →
      (publishPointerHitMask u generation words answers).1 = u) ∧
    ∀ position : LogicalPosition,
      (pointerHitMaskAccepts u position = false ↔
        ∃ mask, (updatesOf tr).active = some mask ∧ mask.size = u.framebufferSize ∧
          Inside position.x u.clientSize.width ∧ Inside position.y u.clientSize.height ∧
          bitAt u.framebufferSize.width mask.words
            (pixelOf position.x u.framebufferSize.width u.clientSize.width)
            (pixelOf position.y u.framebufferSize.height u.clientSize.height) = some false) ∧
      ∀ mask, (updatesOf tr).active = some mask → mask.size = u.framebufferSize →
        Inside position.x u.clientSize.width → Inside position.y u.clientSize.height →
        LooksUp u position mask.words := by
  have htracks := tracks_run h
  refine ⟨fun generation words answers hok => ?_, htracks.nodup,
    fun generation words answers hfailed => ?_,
    fun position => ⟨htracks.accepts_iff, fun mask hactive hsize hx hy =>
      htracks.looksUp hactive hsize hx hy⟩⟩
  · rcases publishPointerHitMask_cases u generation words answers with
      ⟨hfailed, -⟩ | ⟨-, r, hr, htarget, rfl, -, -, hsize, -⟩
    · rw [hfailed] at hok
      exact absurd hok Bool.noConfusion
    · rw [rendererOf, hr] at htracks
      exact ⟨_, (htracks.target htarget).1, rfl, hsize⟩
  · rcases publishPointerHitMask_cases u generation words answers with ⟨-, heq⟩ | ⟨hok, -⟩
    · exact heq
    · rw [hfailed] at hok
      exact absurd hok Bool.noConfusion

/-- A mask for 40 times 2 pixels in a client area of half the size; a pixel of the second word of each
row is clear. -/
def halfScaleUpdate : List Action :=
  [.begin {}, .publish 1 [0xFFFFFFFF, 0xFB, 0xFFFFFFFF, 0xFB] {}]

theorem pointerHitMask_follows_halfScaleUpdate :
    ∃ tr u, Trace next { framebufferSize := ⟨40, 2⟩, clientSize := ⟨20, 1⟩ } tr u ∧
      (generationsOf tr).Nodup ∧
      ∃ mask, (updatesOf tr).active = some mask ∧ bitAt 40 mask.words 34 0 = some false := by
  have hrun : ((Lib.run next { framebufferSize := ⟨40, 2⟩, clientSize := ⟨20, 1⟩ }
      halfScaleUpdate).map fun r => (r.2.framebufferSize, r.2.clientSize,
        pointerHitMaskAccepts r.2 ⟨17, 0⟩)) = some (⟨40, 2⟩, ⟨20, 1⟩, false) := by decide +kernel
  obtain ⟨⟨tr, u⟩, htr, hu⟩ := Option.map_eq_some_iff.1 hrun
  obtain ⟨hframebuffer, hclient, haccepts⟩ : u.framebufferSize = ⟨40, 2⟩ ∧ u.clientSize = ⟨20, 1⟩ ∧
      pointerHitMaskAccepts u ⟨17, 0⟩ = false := by simpa using hu
  obtain ⟨-, hnodup, -, hlookup⟩ := pointerHitMask_follows _ _ tr u (Trace.of_run htr)
  obtain ⟨mask, hactive, -, -, -, hbit⟩ := (hlookup ⟨17, 0⟩).1.1 haccepts
  rw [hframebuffer, hclient] at hbit
  exact ⟨tr, u, Trace.of_run htr, hnodup, mask, hactive, hbit⟩

end HitMask

end Desktop

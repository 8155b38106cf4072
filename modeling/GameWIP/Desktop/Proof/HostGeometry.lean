import GameWIP.Desktop.HostGeometry

/-!
# Reads of the host geometry

`readGeometry_delivers`: a read that returns true has the eight values of one publication.
-/

namespace Desktop

open Lib (Trace Transition)
open Lib.SequenceLock (completed published)

namespace AccessibilityRuntime

variable {F : Type} [FloatOps F]

/-- **Reads are whole.** A read that begins after the steps `before` and returns true delivers the
initial geometry or that of a completed publication, one no older than the last one completed
`before`. Fewer than `2 ^ 63` publications begin, so the sequence does not wrap. -/
theorem readGeometry_delivers (readers c : Nat) (out geometry : AccessibilityHostGeometry F)
    (before after : List (Transition (GeometryState F) (GeometryAction F))) (s t u : GeometryState F)
    (h : Trace geometryStep (initialState readers) (before ++ ⟨s, .call c out, t⟩ :: after) u)
    (hcall : ∀ x ∈ after, ∀ out, x.action ≠ .call c out)
    (hwraps : (published (before ++ ⟨s, .call c out, t⟩ :: after)).length < 2 ^ 63)
    (hreturned : u.readers[c]? = some (.returned true geometry)) :
    ∃ k, (completed before).length ≤ k ∧
      (initialGeometry :: completed (before ++ ⟨s, .call c out, t⟩ :: after))[k]? = some geometry :=
  Lib.SequenceLock.delivers h rfl hcall hwraps hreturned

def firstGeometry : AccessibilityHostGeometry Int := ⟨10, 20, 640, 480, 1, 1, true, false⟩

def secondGeometry : AccessibilityHostGeometry Int := ⟨30, 40, 800, 600, 2, 2, true, true⟩

/-- The steps of a publication. -/
def publication (geometry : AccessibilityHostGeometry Int) : List (GeometryAction Int) :=
  .publish geometry :: .replicate 9 .store

/-- A read that has loaded three atomics when a publication begins; its second attempt meets an odd
sequence and its third one succeeds. -/
def retriedRead : List (GeometryAction Int) :=
  .replicate 4 (.load 0) ++ (publication secondGeometry).take 4 ++ .replicate 7 (.load 0) ++
    (publication secondGeometry).drop 4 ++ .replicate 10 (.load 0)

theorem readGeometry_delivers_retriedRead :
    ∃ (before after : List (Transition (GeometryState Int) (GeometryAction Int)))
      (s t u : GeometryState Int),
      Trace geometryStep (initialState 1) (before ++ ⟨s, .call 0 firstGeometry, t⟩ :: after) u ∧
      ∃ k, (completed before).length ≤ k ∧
        (initialGeometry :: completed (before ++ ⟨s, .call 0 firstGeometry, t⟩ :: after))[k]? =
          some secondGeometry := by
  have hrun : ((Lib.run geometryStep (initialState 1) (publication firstGeometry)).bind fun r =>
      (geometryStep r.2 (.call 0 firstGeometry)).bind fun t =>
        (Lib.run geometryStep t retriedRead).map fun r' => r'.2.readers[0]?) =
      some (some (.returned true secondGeometry)) := by decide +kernel
  obtain ⟨⟨before, s⟩, hbefore, hrun⟩ := Option.bind_eq_some_iff.1 hrun
  obtain ⟨t, hs, hrun⟩ := Option.bind_eq_some_iff.1 hrun
  obtain ⟨⟨after, u⟩, hafter, hreturned⟩ := Option.map_eq_some_iff.1 hrun
  have htrace := (Trace.of_run hbefore).append (.cons hs (Trace.of_run hafter))
  have hfirst := Lib.actions_of_run hbefore
  have hrest := Lib.actions_of_run hafter
  refine ⟨before, after, s, t, u, htrace,
    readGeometry_delivers 1 0 _ _ before after s t u htrace ?_ ?_ hreturned⟩
  · intro x hx out hcall
    have hmem : x.action ∈ retriedRead := hrest ▸ List.mem_map_of_mem hx
    rw [hcall] at hmem
    simp [retriedRead, publication] at hmem
  · have hlength : (before ++ ⟨s, .call 0 firstGeometry, t⟩ :: after).length < 100 := by
      rw [List.length_append, List.length_cons, ← List.length_map Transition.action, hfirst,
        ← List.length_map Transition.action, hrest]
      decide
    exact Nat.lt_trans (Nat.lt_of_le_of_lt (List.length_filterMap_le _ _) hlength) (by decide)

end AccessibilityRuntime

end Desktop

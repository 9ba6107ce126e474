import TptAte.Test.BinSort

/-! # Wafer map

The state of each die of a wafer, keyed by its location. Locations are ordered by
column, then by row.
-/

namespace Test

open Wire

instance : Ord DieCoord := ⟨compareLex (compareOn DieCoord.x) (compareOn DieCoord.y)⟩

theorem DieCoord.compare_eq (a b : DieCoord) :
    compare a b = (compare a.x b.x).then (compare a.y b.y) := rfl

instance : Std.TransOrd DieCoord :=
  inferInstanceAs (Std.TransCmp (compareLex (compareOn DieCoord.x) (compareOn DieCoord.y)))

instance : Std.LawfulEqOrd DieCoord where
  eq_of_compare {a b} h := by
    rw [DieCoord.compare_eq, Ordering.then_eq_eq] at h
    obtain ⟨hx, hy⟩ := h
    cases a
    cases b
    simp_all [Std.LawfulEqCmp.compare_eq_iff_eq]

structure DieTestOutcome where
  passed : Bool
  hardBin : UInt16
  softBin : UInt16
  deriving DecidableEq, Repr

inductive DieState where
  | untested
  | excluded
  | tested (outcome : DieTestOutcome)
  deriving DecidableEq, Repr

/-- The wafer being tested: its die sites, the size of a die, and the location of
the centre. -/
structure WaferDieMap where
  waferId : String
  dies : Std.ExtTreeMap DieCoord DieState
  dieHeightMils : F32
  dieWidthMils : F32
  center : DieCoord

namespace WaferDieMap

def coords (wafer : WaferDieMap) : List DieCoord :=
  wafer.dies.keys.mergeSort fun a b => (compare a b).isLE

theorem coords_eq (wafer : WaferDieMap) : wafer.coords = wafer.dies.keys := by
  apply List.mergeSort_of_pairwise
  exact wafer.dies.ordered_keys.imp fun h => by simp [h]

/-- Each site comes once. -/
theorem pairwise_coords (wafer : WaferDieMap) :
    wafer.coords.Pairwise fun a b => compare a b = .lt := by
  rw [coords_eq]
  exact wafer.dies.ordered_keys

theorem mem_coords (wafer : WaferDieMap) (coord : DieCoord) :
    coord ∈ wafer.coords ↔ coord ∈ wafer.dies := by
  rw [coords_eq]
  exact Std.ExtTreeMap.mem_keys

end WaferDieMap

end Test

import TptAte.Test.Sorting
import TptAte.Keyed.Latest

/-! # What sorting leaves alone

Sorting a wafer changes nothing of the map but the states of its testable sites. Each of
these shows the last result of its location, however many came before it.
-/

namespace Test

open Keyed

section

variable {program : TestProgram} {taxonomy : BinTaxonomy}

/-- What placing one result keeps, a whole run keeps. -/
theorem foldl_sortOne_induction {P : WaferDieMap → Prop}
    (hplace : ∀ {wafer : WaferDieMap} {result : DieTestResult}, wafer.Testable result.coord →
      P wafer → P (wafer.place program taxonomy result))
    (results : List DieTestResult) (unmatched : UInt32) {wafer : WaferDieMap} (hwafer : P wafer) :
    P (results.foldl (sortOne program taxonomy) (unmatched, wafer)).2 := by
  induction results generalizing unmatched wafer with
  | nil => exact hwafer
  | cons result results ih =>
      rw [List.foldl_cons]
      by_cases htestable : wafer.Testable result.coord
      · rw [sortOne_of_testable program taxonomy unmatched htestable]
        exact ih unmatched (hplace htestable hwafer)
      · rw [sortOne_of_not_testable program taxonomy unmatched htestable]
        exact ih (unmatched + 1) hwafer

/-! ## The wafer itself -/

/-- Two maps of the same wafer: only the states of testable dies may differ. -/
structure SameWafer (wafer wafer' : WaferDieMap) : Prop where
  waferId : wafer'.waferId = wafer.waferId
  dieHeightMils : wafer'.dieHeightMils = wafer.dieHeightMils
  dieWidthMils : wafer'.dieWidthMils = wafer.dieWidthMils
  center : wafer'.center = wafer.center
  sites (coord : DieCoord) : coord ∈ wafer'.dies ↔ coord ∈ wafer.dies
  excluded (coord : DieCoord) :
    wafer'.dies[coord]? = some .excluded ↔ wafer.dies[coord]? = some .excluded

theorem SameWafer.refl (wafer : WaferDieMap) : SameWafer wafer wafer :=
  ⟨rfl, rfl, rfl, rfl, fun _ => Iff.rfl, fun _ => Iff.rfl⟩

/-- A site can be tested exactly if it is on the wafer and not excluded. -/
theorem testable_iff {wafer : WaferDieMap} {coord : DieCoord} :
    wafer.Testable coord ↔ coord ∈ wafer.dies ∧ wafer.dies[coord]? ≠ some .excluded := by
  unfold WaferDieMap.Testable
  rw [← Std.ExtTreeMap.isSome_getElem?_iff_mem]
  cases wafer.dies[coord]? <;> simp

/-- Sorting changes nothing about which sites can be tested. -/
theorem SameWafer.testable {wafer wafer' : WaferDieMap} (hsame : SameWafer wafer wafer')
    (coord : DieCoord) : wafer'.Testable coord ↔ wafer.Testable coord := by
  rw [testable_iff, testable_iff, hsame.sites, Ne, hsame.excluded]

theorem SameWafer.eq_with_dies {wafer wafer' : WaferDieMap} (hsame : SameWafer wafer wafer') :
    wafer' = { wafer with dies := wafer'.dies } := by
  cases wafer'
  rw [WaferDieMap.mk.injEq]
  exact ⟨hsame.waferId, rfl, hsame.dieHeightMils, hsame.dieWidthMils, hsame.center⟩

theorem SameWafer.place {wafer wafer' : WaferDieMap} (hsame : SameWafer wafer wafer')
    {result : DieTestResult} (htestable : wafer'.Testable result.coord) :
    SameWafer wafer (wafer'.place program taxonomy result) := by
  obtain ⟨hmem, hexcluded⟩ := testable_iff.mp htestable
  refine ⟨hsame.waferId, hsame.dieHeightMils, hsame.dieWidthMils, hsame.center, ?_, ?_⟩
  · intro coord
    rw [← hsame.sites, WaferDieMap.place, Std.ExtTreeMap.mem_insert]
    constructor
    · intro hsite
      rcases hsite with heq | hsite
      · rwa [← Std.LawfulEqOrd.eq_of_compare heq]
      · exact hsite
    · exact Or.inr
  · intro coord
    rw [← hsame.excluded, WaferDieMap.place, Std.ExtTreeMap.getElem?_insert]
    split
    next heq =>
      rw [← Std.LawfulEqOrd.eq_of_compare heq]
      exact iff_of_false (by simp) hexcluded
    next => exact Iff.rfl

/-- Sorting changes nothing of a wafer but the states of its sites. -/
theorem sameWafer_sortWafer (results : List DieTestResult) (wafer : WaferDieMap) :
    SameWafer wafer (sortWafer results wafer program taxonomy).2 :=
  foldl_sortOne_induction (fun htestable hsame => hsame.place htestable) results 0
    (SameWafer.refl wafer)

/-! ## The last result of a location -/

/-- The last result of a location. -/
def lastFor (coord : DieCoord) (results : List DieTestResult) : Option DieTestResult :=
  (results.filter (·.coord = coord)).getLast?

/-- The latest result for a site is the last one, if it is for that site. -/
theorem lastFor_concat (coord : DieCoord) (results : List DieTestResult) (result : DieTestResult) :
    lastFor coord (results ++ [result]) =
      if result.coord = coord then some result else lastFor coord results := by
  unfold lastFor
  rw [List.filter_append]
  by_cases hcoord : result.coord = coord <;> simp [hcoord]

theorem lastFor_eq_none {coord : DieCoord} {results : List DieTestResult}
    (hnone : ∀ result ∈ results, result.coord ≠ coord) : lastFor coord results = none := by
  have hfilter : results.filter (·.coord = coord) = [] :=
    List.filter_eq_nil_iff.mpr fun result hresult => by simpa using hnone result hresult
  rw [lastFor, hfilter, List.getLast?_nil]

/-- It is the latest one with its location. -/
theorem lastFor_eq_some_iff {coord : DieCoord} {results : List DieTestResult}
    {result : DieTestResult} :
    lastFor coord results = some result ↔
      result ∈ latest (·.coord) results ∧ result.coord = coord :=
  getLast?_filter_key_iff DieTestResult.coord

theorem lastFor_onSites {wafer : WaferDieMap} {coord : DieCoord}
    (htestable : wafer.Testable coord) (results : List DieTestResult) :
    lastFor coord (wafer.onSites results) = lastFor coord results := by
  unfold lastFor WaferDieMap.onSites
  rw [List.filter_filter]
  congr 1
  apply List.filter_congr
  intro result _
  by_cases hcoord : result.coord = coord
  · subst hcoord
    simp [htestable]
  · simp [hcoord]

/-- Sorting one result more is sorting the others and then that one. -/
theorem sortWafer_concat (results : List DieTestResult) (result : DieTestResult)
    (wafer : WaferDieMap) :
    sortWafer (results ++ [result]) wafer program taxonomy =
      sortOne program taxonomy (sortWafer results wafer program taxonomy) result := by
  rw [sortWafer, List.foldl_append]
  rfl

/-- A testable site shows its last result, if there is one; every other site stays as
it was. -/
theorem getElem?_sortWafer (results : List DieTestResult) (wafer : WaferDieMap)
    (coord : DieCoord) :
    (sortWafer results wafer program taxonomy).2.dies[coord]? =
      if wafer.Testable coord then
        ((lastFor coord results).map fun result =>
          DieState.tested (result.outcome program taxonomy)).or wafer.dies[coord]?
      else wafer.dies[coord]? := by
  -- by induction from the back: the last result decides its own site and no other
  induction results using List.reverseRecOn with
  | nil => exact (ite_self _).symm
  | append_singleton results result ih =>
      have hsame := @sameWafer_sortWafer program taxonomy results wafer
      rw [sortWafer_concat, lastFor_concat]
      generalize sortWafer results wafer program taxonomy = sorted at ih hsame
      obtain ⟨unmatched, wafer'⟩ := sorted
      by_cases htestable : wafer'.Testable result.coord
      · rw [sortOne_of_testable program taxonomy unmatched htestable]
        simp only [WaferDieMap.place, Std.ExtTreeMap.getElem?_insert,
          Std.LawfulEqCmp.compare_eq_iff_eq]
        by_cases hcoord : result.coord = coord
        · subst hcoord
          rw [if_pos rfl, if_pos rfl, if_pos ((hsame.testable _).mp htestable)]
          rfl
        · rw [if_neg hcoord, if_neg hcoord]
          exact ih
      · rw [sortOne_of_not_testable program taxonomy unmatched htestable]
        by_cases hcoord : result.coord = coord
        · subst hcoord
          have hwafer := mt (hsame.testable _).mpr htestable
          rw [if_neg hwafer]
          exact ih.trans (if_neg hwafer)
        · rw [if_neg hcoord]
          exact ih

/-! ## The whole effect -/

/-- What sorting does to a map, and what it returns. -/
structure SortEffect (program : TestProgram) (taxonomy : BinTaxonomy) (wafer : WaferDieMap)
    (results : List DieTestResult) : Prop where
  same : SameWafer wafer (sortWafer results wafer program taxonomy).2
  untouched (coord : DieCoord) : (∀ result ∈ results, result.coord ≠ coord) →
    (sortWafer results wafer program taxonomy).2.dies[coord]? = wafer.dies[coord]?
  last (coord : DieCoord) (result : DieTestResult) :
    coord ∈ wafer.dies → wafer.dies[coord]? ≠ some .excluded →
      lastFor coord results = some result →
        (sortWafer results wafer program taxonomy).2.dies[coord]? =
          some (.tested
            { passed := (sortDie result program taxonomy).passed
              hardBin := (sortDie result program taxonomy).hardBin
              softBin := (sortDie result program taxonomy).softBin })
  unmatched : (sortWafer results wafer program taxonomy).1 =
    UInt32.ofNat (results.countP fun result =>
      result.coord ∉ wafer.dies ∨ wafer.dies[result.coord]? = some .excluded)
  unmatchedExactly : (results.countP fun result =>
      result.coord ∉ wafer.dies ∨ wafer.dies[result.coord]? = some .excluded) < 2 ^ 32 →
    (sortWafer results wafer program taxonomy).1.toNat =
      results.countP fun result =>
        result.coord ∉ wafer.dies ∨ wafer.dies[result.coord]? = some .excluded

theorem length_offSites (wafer : WaferDieMap) (results : List DieTestResult) :
    (wafer.offSites results).length = results.countP fun result =>
      result.coord ∉ wafer.dies ∨ wafer.dies[result.coord]? = some .excluded := by
  rw [WaferDieMap.offSites, ← List.countP_eq_length_filter]
  apply List.countP_congr
  intro result _
  simp only [decide_eq_true_eq, testable_iff, not_and_or, not_ne_iff]

/-- Sorting changes exactly the testable sites that have results. -/
theorem sortEffect (program : TestProgram) (taxonomy : BinTaxonomy) (wafer : WaferDieMap)
    (results : List DieTestResult) : SortEffect program taxonomy wafer results where
  same := sameWafer_sortWafer results wafer
  untouched coord hnone := by
    rw [getElem?_sortWafer, lastFor_eq_none hnone]
    exact ite_self _
  last coord result hsite hexcluded hlast := by
    rw [getElem?_sortWafer, if_pos (testable_iff.mpr ⟨hsite, hexcluded⟩), hlast]
    rfl
  unmatched := by rw [fst_sortWafer, length_offSites]
  unmatchedExactly hcount := by
    rw [fst_sortWafer, length_offSites, UInt32.toNat_ofNat_of_lt' hcount]

end

end Test

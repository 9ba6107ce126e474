import TptAte.Test.Recording

/-! # The order in which dies are reported

When no die is reported twice, a run leaves the same map, tally and record stream
whatever the order of the results.
-/

namespace Test

open Keyed

/-! ## The map -/

section

variable {program : TestProgram} {taxonomy : BinTaxonomy}

variable {results results' : List DieTestResult} (hperm : results.Perm results')
  (hdistinct : (results.map (·.coord)).Nodup)

include hperm

theorem fst_sortWafer_perm (wafer : WaferDieMap) :
    (sortWafer results wafer program taxonomy).1 =
      (sortWafer results' wafer program taxonomy).1 := by
  rw [fst_sortWafer, fst_sortWafer]
  exact congrArg UInt32.ofNat (hperm.filter _).length_eq

include hdistinct

/-- Each location has the same result. -/
theorem lastFor_perm (coord : DieCoord) : lastFor coord results = lastFor coord results' := by
  apply Option.ext
  intro result
  rw [lastFor_eq_some_iff, lastFor_eq_some_iff, latest_eq_self DieTestResult.coord hdistinct,
    latest_eq_self DieTestResult.coord ((hperm.map _).nodup_iff.mp hdistinct), hperm.mem_iff]

theorem dies_sortWafer_perm (wafer : WaferDieMap) :
    (sortWafer results wafer program taxonomy).2.dies =
      (sortWafer results' wafer program taxonomy).2.dies := by
  apply Std.ExtTreeMap.ext_getElem?
  intro coord
  rw [getElem?_sortWafer, getElem?_sortWafer, lastFor_perm hperm hdistinct]

/-- Results for distinct sites may be sorted in any order. -/
theorem sortWafer_perm (wafer : WaferDieMap) :
    sortWafer results wafer program taxonomy = sortWafer results' wafer program taxonomy := by
  apply Prod.ext
  · exact fst_sortWafer_perm hperm wafer
  · rw [(sameWafer_sortWafer results wafer).eq_with_dies,
      (sameWafer_sortWafer results' wafer).eq_with_dies, dies_sortWafer_perm hperm hdistinct]

end

/-! ## The tally and the synopses -/

/-- Results may be tallied in any order. -/
theorem tally_perm (program : TestProgram) (taxonomy : BinTaxonomy)
    {results results' : List DieTestResult} (hperm : results.Perm results') :
    tally results program taxonomy = tally results' program taxonomy := by
  rw [tally_eq, tally_eq, hperm.length_eq, hperm.countP_eq, hperm.countP_eq,
    countAll_eq_of_perm (hperm.map fun result => (result.outcome program taxonomy).hardBin),
    countAll_eq_of_perm (hperm.map fun result => (result.outcome program taxonomy).softBin)]

theorem foldl_summarize (results : List DieTestResult) (pick : DieTestResult → Option Bool)
    (counts : UInt32 × UInt32) :
    results.foldl (countVerdict pick) counts =
      (counts.1 + UInt32.ofNat (results.countP fun result => (pick result).isSome),
        counts.2 + UInt32.ofNat (results.countP fun result => pick result == some false)) := by
  induction results generalizing counts with
  | nil => simp
  | cons result results ih =>
      rw [List.foldl_cons, ih, List.countP_cons, List.countP_cons]
      cases hpick : pick result with
      | none => simp [countVerdict, hpick]
      | some passed =>
          cases passed <;>
            simp [countVerdict, hpick, WaferDieMap.toUInt32_eq, UInt32.ofNat_add, add_comm,
              add_assoc]

theorem summarize_eq (results : List DieTestResult) (pick : DieTestResult → Option Bool) :
    summarize results pick =
      (UInt32.ofNat (results.countP fun result => (pick result).isSome),
        UInt32.ofNat (results.countP fun result => pick result == some false)) := by
  rw [summarize, foldl_summarize]
  simp

/-- Results may be summarized in any order. -/
theorem summarize_perm {results results' : List DieTestResult} (hperm : results.Perm results')
    (pick : DieTestResult → Option Bool) : summarize results pick = summarize results' pick := by
  rw [summarize_eq, summarize_eq, hperm.countP_eq, hperm.countP_eq]

/-! ## The record stream -/

/-- The results by coordinates come in order. -/
theorem pairwise_byCoord (results : List DieTestResult) :
    (byCoord results).Pairwise fun a b => (compare a.coord b.coord).isLE := by
  apply List.pairwise_mergeSort
  · intro a b c hab hbc
    exact Std.TransOrd.isLE_trans hab hbc
  · intro a b
    rw [Std.OrientedOrd.eq_swap (a := b.coord)]
    cases compare a.coord b.coord <;> rfl

/-- The results of distinct dies in ascending order are always the same list. -/
theorem byCoord_perm {results results' : List DieTestResult} (hperm : results.Perm results')
    (hdistinct : (results.map (·.coord)).Nodup) : byCoord results = byCoord results' := by
  have hresults : (byCoord results).Perm results := List.mergeSort_perm _ _
  have hresults' : (byCoord results').Perm results' := List.mergeSort_perm _ _
  refine List.Perm.eq_of_pairwise ?_ (pairwise_byCoord results) (pairwise_byCoord results')
    (hresults.trans (hperm.trans hresults'.symm))
  intro a b ha hb hab hba
  have hcoord : a.coord = b.coord :=
    Std.LawfulEqOrd.eq_of_compare (Std.OrientedCmp.isLE_antisymm hab hba)
  have hmem : b ∈ results := hperm.mem_iff.mpr (hresults'.mem_iff.mp hb)
  exact List.inj_on_of_nodup_map hdistinct (hresults.mem_iff.mp ha) hmem hcoord

/-- A run does not depend on the order in which the dies are reported. -/
theorem recordRun_perm (program : TestProgram) (taxonomy : BinTaxonomy) (metadata : RunMetadata)
    (wafer : WaferDieMap) {results results' : List DieTestResult} (hperm : results.Perm results')
    (hdistinct : (results.map (·.coord)).Nodup) :
    recordRun program taxonomy metadata wafer results =
      recordRun program taxonomy metadata wafer results' := by
  have htsr : testTsr results = testTsr results' := by
    funext spec
    rw [testTsr, testTsr, summarize_perm hperm]
  have hgroup : groupTsr results = groupTsr results' := by
    funext group
    rw [groupTsr, groupTsr, summarize_perm hperm]
  rw [recordRun, recordRun, sortWafer_perm hperm hdistinct, tally_perm program taxonomy hperm]
  simp only [buildWaferRunRecords, byCoord_perm hperm hdistinct, htsr, hgroup]

/-- A run of two dies, reported in either order. -/
theorem recordRun_perm_twoResults :
    recordRun lenientProgram .defaults (.default 1700000900 1700000900) twoSites
        [failedDie, { failedDie with coord := ⟨1, 0⟩ }] =
      recordRun lenientProgram .defaults (.default 1700000900 1700000900) twoSites
        [{ failedDie with coord := ⟨1, 0⟩ }, failedDie] :=
  recordRun_perm lenientProgram .defaults _ twoSites (.swap _ _ _) (by decide)

end Test

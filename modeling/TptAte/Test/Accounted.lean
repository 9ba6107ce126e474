import TptAte.Test.Frame

/-! # Every result is accounted for

A result is on the map in the end if it is the latest one of its site. The tally counts
the dies that are tested on the map and the results that are lost to it: those without a
place, and those that a later one supersedes.
-/

namespace Test

open Keyed

section

variable (program : TestProgram) (taxonomy : BinTaxonomy) (results : List DieTestResult)
  {wafer : WaferDieMap}

/-- A site is tested exactly if it has a latest result, and shows that one. -/
theorem tested_sortWafer_iff (hfresh : wafer.Fresh) {coord : DieCoord} {outcome : DieTestOutcome} :
    (sortWafer results wafer program taxonomy).2.dies[coord]? = some (.tested outcome) ↔
      ∃ result ∈ latest (·.coord) (wafer.onSites results),
        result.coord = coord ∧ result.outcome program taxonomy = outcome := by
  rw [getElem?_sortWafer]
  constructor
  · intro htested
    split at htested
    next htestable =>
      cases hlast : lastFor coord results with
      | none =>
          rw [hlast] at htested
          exact absurd htested (hfresh coord outcome)
      | some result =>
          rw [hlast] at htested
          rw [← lastFor_onSites htestable] at hlast
          obtain ⟨hmem, hcoord⟩ := lastFor_eq_some_iff.mp hlast
          cases htested
          exact ⟨result, hmem, hcoord, rfl⟩
    next => exact absurd htested (hfresh coord outcome)
  · intro hexists
    obtain ⟨result, hmem, rfl, rfl⟩ := hexists
    have honsite := List.mem_filter.mp ((latest_sublist DieTestResult.coord _).subset hmem)
    have htestable : wafer.Testable result.coord := of_decide_eq_true honsite.2
    have hlast := lastFor_eq_some_iff.mpr ⟨hmem, rfl⟩
    rw [lastFor_onSites htestable] at hlast
    rw [if_pos htestable, hlast]
    rfl

/-- The tested dies are the latest results on their sites. -/
theorem testedSites_sortWafer (hfresh : wafer.Fresh) :
    (sortWafer results wafer program taxonomy).2.testedSites.Perm
      ((latest (·.coord) (wafer.onSites results)).map fun result =>
        (result.coord, result.outcome program taxonomy)) := by
  rw [List.perm_ext_iff_of_nodup (WaferDieMap.nodup_testedSites _)]
  · intro site
    cases site
    rw [WaferDieMap.mem_testedSites, tested_sortWafer_iff program taxonomy results hfresh,
      List.mem_map]
    simp only [Prod.mk.injEq]
  · apply List.Nodup.of_map Prod.fst
    rw [List.map_map]
    exact nodup_map_latest (·.coord) (wafer.onSites results)

/-- The outcomes on a fresh wafer are those of the latest result for each site. -/
theorem outcomes_sortWafer (hfresh : wafer.Fresh) :
    (sortWafer results wafer program taxonomy).2.outcomes.Perm
      ((latest (·.coord) (wafer.onSites results)).map (·.outcome program taxonomy)) := by
  rw [WaferDieMap.outcomes_eq]
  have hperm := (testedSites_sortWafer program taxonomy results hfresh).map (·.2)
  rwa [List.map_map] at hperm

end

/-- The results on testable sites that a later result of the same die supersedes. -/
def WaferDieMap.supersededResults (wafer : WaferDieMap) (results : List DieTestResult) :
    List DieTestResult :=
  superseded (·.coord) (wafer.onSites results)

/-- The results that are on the map in the end. -/
def WaferDieMap.kept (wafer : WaferDieMap) (results : List DieTestResult) : List DieTestResult :=
  latest (·.coord) (wafer.onSites results)

def WaferDieMap.lost (wafer : WaferDieMap) (results : List DieTestResult) : List DieTestResult :=
  wafer.offSites results ++ wafer.supersededResults results

def countWith (program : TestProgram) (taxonomy : BinTaxonomy) (p : DieTestOutcome → Bool)
    (results : List DieTestResult) : Nat :=
  results.countP fun result => p (result.outcome program taxonomy)

section

variable (program : TestProgram) (taxonomy : BinTaxonomy) {wafer : WaferDieMap}
  (results : List DieTestResult)

/-- Each result is the latest of its die or lost. -/
theorem countWith_eq_add (wafer : WaferDieMap) (p : DieTestOutcome → Bool) :
    countWith program taxonomy p results =
      countWith program taxonomy p (wafer.kept results) +
        countWith program taxonomy p (wafer.lost results) := by
  have hsites : countWith program taxonomy p results =
      countWith program taxonomy p (wafer.onSites results) +
        countWith program taxonomy p (wafer.offSites results) := by
    unfold countWith WaferDieMap.onSites WaferDieMap.offSites
    induction results with
    | nil => rfl
    | cons result results ih =>
        by_cases htestable : wafer.Testable result.coord <;>
          simp [List.countP_cons, htestable, ih] <;> omega
  have hsuperseded : countWith program taxonomy p (wafer.onSites results) =
      countWith program taxonomy p (wafer.kept results) +
        countWith program taxonomy p (wafer.supersededResults results) :=
    countP_eq_add DieTestResult.coord (fun result => p (result.outcome program taxonomy)) _
  have hlost : countWith program taxonomy p (wafer.lost results) =
      countWith program taxonomy p (wafer.offSites results) +
        countWith program taxonomy p (wafer.supersededResults results) :=
    List.countP_append
  omega

variable {program taxonomy results}

theorem countWith_true (results : List DieTestResult) :
    countWith program taxonomy (fun _ => true) results = results.length := by
  rw [countWith, List.countP_true]

/-- How many tested dies are of the given kind. -/
theorem countP_outcomes (hfresh : wafer.Fresh) (p : DieTestOutcome → Bool) :
    (sortWafer results wafer program taxonomy).2.outcomes.countP p =
      countWith program taxonomy p (wafer.kept results) := by
  rw [(outcomes_sortWafer program taxonomy results hfresh).countP_eq, List.countP_map]
  rfl

theorem count_bins (bin : DieTestOutcome → UInt16) (number : UInt16)
    (results : List DieTestResult) :
    (results.map fun result => bin (result.outcome program taxonomy)).count number =
      countWith program taxonomy (bin · == number) results := by
  rw [List.count, List.countP_map]
  rfl

/-- Each bin counts the results it was given, of those that were kept. -/
theorem getD_binCounts (hfresh : wafer.Fresh) (bin : DieTestOutcome → UInt16) (number : UInt16) :
    ((sortWafer results wafer program taxonomy).2.binCounts bin)[number]?.getD 0 =
      UInt32.ofNat (countWith program taxonomy (bin · == number) (wafer.kept results)) := by
  rw [WaferDieMap.binCounts_eq, getD_countAll, List.count, List.countP_map]
  exact congrArg UInt32.ofNat (countP_outcomes hfresh _)

theorem fst_testedCounts (hfresh : wafer.Fresh) :
    (sortWafer results wafer program taxonomy).2.testedCounts.1 =
      UInt32.ofNat (countWith program taxonomy (fun _ => true) (wafer.kept results)) := by
  rw [WaferDieMap.testedCounts_eq, ← countP_outcomes hfresh, List.countP_true]

theorem snd_testedCounts (hfresh : wafer.Fresh) :
    (sortWafer results wafer program taxonomy).2.testedCounts.2 =
      UInt32.ofNat (countWith program taxonomy (·.passed) (wafer.kept results)) := by
  rw [WaferDieMap.testedCounts_eq, ← countP_outcomes hfresh]

end

/-- The tally and the map together account for every result. -/
structure Accounted (program : TestProgram) (taxonomy : BinTaxonomy) (wafer : WaferDieMap)
    (results : List DieTestResult) : Prop where
  total : (tally results program taxonomy).totalTested =
    (sortWafer results wafer program taxonomy).2.testedCounts.1 +
      (sortWafer results wafer program taxonomy).1 +
      UInt32.ofNat (wafer.supersededResults results).length
  hard (bin : UInt16) : (tally results program taxonomy).hardBins[bin]?.getD 0 -
      (sortWafer results wafer program taxonomy).2.hardBinCounts[bin]?.getD 0 =
    UInt32.ofNat (countWith program taxonomy (·.hardBin == bin) (wafer.lost results))
  soft (bin : UInt16) : (tally results program taxonomy).softBins[bin]?.getD 0 -
      (sortWafer results wafer program taxonomy).2.softBinCounts[bin]?.getD 0 =
    UInt32.ofNat (countWith program taxonomy (·.softBin == bin) (wafer.lost results))

/-- The same in natural numbers. -/
structure AccountedExactly (program : TestProgram) (taxonomy : BinTaxonomy) (wafer : WaferDieMap)
    (results : List DieTestResult) : Prop where
  total : (tally results program taxonomy).totalTested.toNat =
    (sortWafer results wafer program taxonomy).2.testedCounts.1.toNat +
      (sortWafer results wafer program taxonomy).1.toNat +
      (wafer.supersededResults results).length
  hard (bin : UInt16) : ((tally results program taxonomy).hardBins[bin]?.getD 0).toNat =
    ((sortWafer results wafer program taxonomy).2.hardBinCounts[bin]?.getD 0).toNat +
      countWith program taxonomy (·.hardBin == bin) (wafer.lost results)
  soft (bin : UInt16) : ((tally results program taxonomy).softBins[bin]?.getD 0).toNat =
    ((sortWafer results wafer program taxonomy).2.softBinCounts[bin]?.getD 0).toNat +
      countWith program taxonomy (·.softBin == bin) (wafer.lost results)

section

variable {program : TestProgram} {taxonomy : BinTaxonomy} {wafer : WaferDieMap}
  {results : List DieTestResult}

/-- A result is lost off the sites or to a later one. -/
theorem length_lost (wafer : WaferDieMap) :
    (wafer.lost results).length =
      (wafer.offSites results).length + (wafer.supersededResults results).length :=
  List.length_append

/-- Every result is kept, off the sites or superseded. -/
theorem length_results (program : TestProgram) (taxonomy : BinTaxonomy) (wafer : WaferDieMap) :
    results.length = countWith program taxonomy (fun _ => true) (wafer.kept results) +
      ((wafer.offSites results).length + (wafer.supersededResults results).length) := by
  have hadd := countWith_eq_add program taxonomy results wafer fun _ => true
  rwa [countWith_true, countWith_true (wafer.lost results), length_lost] at hadd

theorem countWith_le (program : TestProgram) (taxonomy : BinTaxonomy) (p : DieTestOutcome → Bool)
    (results : List DieTestResult) : countWith program taxonomy p results ≤ results.length :=
  List.countP_le_length

/-- A fresh wafer accounts for every result, to 32 bits. -/
theorem accounted (hfresh : wafer.Fresh) : Accounted program taxonomy wafer results where
  total := by
    rw [tally_eq, fst_testedCounts hfresh, fst_sortWafer]
    dsimp only
    rw [length_results program taxonomy wafer, UInt32.ofNat_add, UInt32.ofNat_add, UInt32.add_assoc]
  hard bin := by
    rw [tally_eq, WaferDieMap.hardBinCounts, getD_binCounts hfresh, getD_countAll,
      count_bins (·.hardBin), countWith_eq_add program taxonomy results wafer, UInt32.ofNat_add,
      add_sub_cancel_left]
  soft bin := by
    rw [tally_eq, WaferDieMap.softBinCounts, getD_binCounts hfresh, getD_countAll,
      count_bins (·.softBin), countWith_eq_add program taxonomy results wafer, UInt32.ofNat_add,
      add_sub_cancel_left]

theorem toNat_ofNat {count : Nat} (hlength : results.length < 2 ^ 32)
    (hle : count ≤ results.length) : (UInt32.ofNat count).toNat = count :=
  UInt32.toNat_ofNat_of_lt' (Nat.lt_of_le_of_lt hle hlength)

/-- Below 2^32 results a fresh wafer accounts for every result. -/
theorem accountedExactly (hfresh : wafer.Fresh) (hlength : results.length < 2 ^ 32) :
    AccountedExactly program taxonomy wafer results where
  total := by
    have hadd := @length_results results program taxonomy wafer
    rw [tally_eq, fst_testedCounts hfresh, fst_sortWafer]
    dsimp only
    rw [toNat_ofNat hlength le_rfl, toNat_ofNat hlength (by omega),
      toNat_ofNat hlength (by omega)]
    omega
  hard bin := by
    have hadd := countWith_eq_add program taxonomy results wafer (·.hardBin == bin)
    have hle := countWith_le program taxonomy (·.hardBin == bin) results
    rw [tally_eq, WaferDieMap.hardBinCounts, getD_binCounts hfresh, getD_countAll,
      count_bins (·.hardBin), toNat_ofNat hlength hle, toNat_ofNat hlength (by omega), hadd]
  soft bin := by
    have hadd := countWith_eq_add program taxonomy results wafer (·.softBin == bin)
    have hle := countWith_le program taxonomy (·.softBin == bin) results
    rw [tally_eq, WaferDieMap.softBinCounts, getD_binCounts hfresh, getD_countAll,
      count_bins (·.softBin), toNat_ofNat hlength hle, toNat_ofNat hlength (by omega), hadd]

end

/-- The tally counts the tested dies of the map and the results that are lost to it, in
total and for each bin; as long as no counter wraps around also as numbers. -/
theorem accounted_sortWafer (program : TestProgram) (taxonomy : BinTaxonomy) {wafer : WaferDieMap}
    (hfresh : wafer.Fresh) (results : List DieTestResult) :
    Accounted program taxonomy wafer results ∧
      (results.length < 2 ^ 32 → AccountedExactly program taxonomy wafer results) :=
  ⟨accounted hfresh, accountedExactly hfresh⟩

/-- A wafer of a die to test and of one that is excluded. -/
def twoSites : WaferDieMap :=
  { waferId := "W1"
    dies := Std.ExtTreeMap.ofList
      ([(⟨0, 0⟩, .untested), (⟨1, 0⟩, .excluded)] : List (DieCoord × DieState))
    dieHeightMils := .one
    dieWidthMils := .one
    center := ⟨0, 0⟩ }

theorem fresh_twoSites : twoSites.Fresh := by
  intro coord outcome htested
  rw [← Std.ExtTreeMap.mem_toList_iff_getElem?_eq_some] at htested
  have hsites : twoSites.dies.toList = [(⟨0, 0⟩, .untested), (⟨1, 0⟩, .excluded)] := by
    decide +kernel
  simp [hsites] at htested

/-- Results for a die that is tested twice, for the excluded one, and for none. -/
def fourResults : List DieTestResult :=
  [failedDie, { failedDie with measurements := [] }, { failedDie with coord := ⟨1, 0⟩ },
    { failedDie with coord := ⟨5, 5⟩ }]

/-- Four results for two sites: one is off the wafer and one is superseded. -/
theorem accounted_sortWafer_fourResults :
    Accounted lenientProgram .defaults twoSites fourResults ∧
      AccountedExactly lenientProgram .defaults twoSites fourResults :=
  (accounted_sortWafer lenientProgram .defaults fresh_twoSites fourResults).imp_right
    (· (by decide))

end Test

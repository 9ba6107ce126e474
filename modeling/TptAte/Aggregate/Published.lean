import TptAte.Aggregate.Cohort
import TptAte.Aggregate.Schema
import TptAte.Test.Recovered

/-! # What is published of a wafer run

The outcome of a run holds the sorted map and the redacted bin summary. Both come from the
results of the tester, and neither from the host that collected the events of the run. They say
of each die and of each bin what the host was told, up to the minimum cohort.
-/

namespace Aggregate

open Test Keyed BinDistribution

def runOutcome (tester : SimulatedTester) (wafer : WaferDieMap) (minCohort : UInt32)
    (packageTest : List ElectricalMeasurement) : TestOutcome :=
  { waferMap := tester.sorted wafer
    binSummary := (fromTally (tally (tester.results wafer) tester.program
      tester.taxonomy)).redactBelowCohort minCohort
    packageTest }

/-- What the minimum-cohort rule lets be known of a bin with so many dies. -/
def atLeast (minCohort count : Nat) : Option Nat :=
  if count = 0 then none else some (max minCohort count)

def published (minCohort : UInt32) (bins : Std.ExtTreeMap UInt16 BinCount) (bin : UInt16) :
    Option Nat :=
  bins[bin]?.map fun bucket => (publishableCount bucket minCohort).toNat

/-- An outcome says of a wafer what is known of its dies. -/
structure Tells (known : Std.ExtTreeMap DieCoord DieTestOutcome) (wafer : WaferDieMap)
    (minCohort : UInt32) (outcome : TestOutcome) : Prop where
  dies (coord : DieCoord) (told : DieTestOutcome) :
    outcome.waferMap.dies[coord]? = some (.tested told) ↔
      known[coord]? = some told ∧ wafer.Testable coord
  totalTested : outcome.binSummary.totalTested.toNat = known.size
  totalPassed : outcome.binSummary.totalPassed.toNat = known.toList.countP (·.2.passed)
  yieldFraction : outcome.binSummary.yieldFraction =
    if known.isEmpty then 0.0
    else outcome.binSummary.totalPassed.toFloat / outcome.binSummary.totalTested.toFloat
  hardBins (bin : UInt16) : published minCohort outcome.binSummary.hardBins bin =
    atLeast minCohort.toNat (known.toList.countP (·.2.hardBin = bin))
  softBins (bin : UInt16) : published minCohort outcome.binSummary.softBins bin =
    atLeast minCohort.toNat (known.toList.countP (·.2.softBin = bin))

/-! ## Bins -/

section Bins

variable {minCohort : UInt32}

/-- A bucket is published with its count, or with the minimum cohort where it has fewer dies. -/
theorem publishableCount_eq_max (count : UInt32) :
    (publishableCount (redactBucket minCohort { count, withheld := false }) minCohort).toNat =
      max minCohort.toNat count.toNat := by
  by_cases hlt : count < minCohort
  · rw [publishableCount_of_lt hlt]
    exact (Nat.max_eq_left (UInt32.lt_iff_toNat_lt.mp hlt).le).symm
  · have hle := UInt32.not_lt.mp hlt
    rw [publishableCount_of_le hle]
    exact (Nat.max_eq_right (UInt32.le_iff_toNat_le.mp hle)).symm

/-- A bin of counted dies is published with their number, or with the minimum cohort. -/
theorem published_countAll {bins : List UInt16} (hlength : bins.length < 2 ^ 32) (bin : UInt16) :
    published minCohort ((bucketsOf (countAll bins)).map fun _ => redactBucket minCohort) bin =
      atLeast minCohort.toNat (bins.count bin) := by
  rw [published, bucketsOf, Std.ExtTreeMap.getElem?_map, Std.ExtTreeMap.getElem?_map,
    getElem?_countAll, atLeast]
  by_cases hmem : bin ∈ bins
  · have hpos : bins.count bin ≠ 0 := Nat.ne_of_gt (List.count_pos_iff.mpr hmem)
    rw [if_pos hmem, if_neg hpos]
    simp only [Option.map_some, publishableCount_eq_max]
    rw [UInt32.toNat_ofNat_of_lt' (List.count_le_length.trans_lt hlength)]
  · rw [if_neg hmem, if_pos (List.count_eq_zero_of_not_mem hmem)]
    rfl

end Bins

/-! ## Dies -/

section Told

variable {tester : SimulatedTester} {wafer : WaferDieMap}
  {known : Std.ExtTreeMap DieCoord DieTestOutcome}

/-- Of each die is known what the tester reports, and of nothing else. -/
def Knows (known : Std.ExtTreeMap DieCoord DieTestOutcome) (tester : SimulatedTester)
    (wafer : WaferDieMap) : Prop :=
  ∀ coord, known[coord]? = if coord ∈ wafer.coords then some (tester.outcome coord) else none

/-- The host knows the dies of the wafer, each with the outcome that the tester reports. -/
theorem toList_perm_of_knows (hknows : Knows known tester wafer) :
    known.toList.Perm (wafer.coords.map fun coord => (coord, tester.outcome coord)) := by
  have hnodup : wafer.coords.Nodup :=
    wafer.pairwise_coords.imp fun hlt heq => by simp [heq] at hlt
  rw [List.perm_ext_iff_of_nodup (nodup_toList known)
    (hnodup.map fun _ _ heq => congrArg Prod.fst heq)]
  rintro ⟨coord, outcome⟩
  rw [Std.ExtTreeMap.mem_toList_iff_getElem?_eq_some, hknows coord, List.mem_map]
  constructor
  · intro hknown
    split at hknown
    next hcoord =>
      cases hknown
      exact ⟨coord, hcoord, rfl⟩
    next => cases hknown
  · rintro ⟨_, hcoord, heq⟩
    cases heq
    rw [if_pos hcoord]

/-- The dies of a kind are counted alike on both sides. -/
theorem countP_of_knows (hknows : Knows known tester wafer) (p : DieTestOutcome → Bool) :
    known.toList.countP (p ·.2) = wafer.coords.countP (p <| tester.outcome ·) := by
  rw [(toList_perm_of_knows hknows).countP_eq, List.countP_map]
  rfl

/-- The host knows as many dies as the wafer has sites. -/
theorem size_of_knows (hknows : Knows known tester wafer) :
    known.size = wafer.coords.length := by
  rw [← Std.ExtTreeMap.length_toList, (toList_perm_of_knows hknows).length_eq, List.length_map]

/-- The sorted map has the outcome of a die exactly if the host knows it and the die is not
excluded. -/
theorem dies_of_knows (hknows : Knows known tester wafer) (coord : DieCoord)
    (told : DieTestOutcome) :
    (tester.sorted wafer).dies[coord]? = some (.tested told) ↔
      known[coord]? = some told ∧ wafer.Testable coord := by
  rw [SimulatedTester.sorted, getElem?_sortWafer, hknows coord]
  by_cases htestable : wafer.Testable coord
  · have hsite : coord ∈ wafer.dies := by
      obtain ⟨state, hstate, -⟩ := htestable
      rw [Std.ExtTreeMap.mem_iff_isSome_getElem?]
      exact Option.isSome_of_mem hstate
    rw [if_pos htestable, if_pos ((wafer.mem_coords coord).mpr hsite), lastFor_results hsite,
      and_iff_left htestable]
    simp only [Option.map_some, Option.some_or, Option.some.injEq, DieState.tested.injEq]
    exact Iff.rfl
  · rw [if_neg htestable]
    apply iff_of_false
    · intro htested
      exact htestable ⟨_, htested, by simp⟩
    · exact fun h => htestable h.2

/-- The outcome of a run tells what is known of the dies that were reported. -/
theorem tells_runOutcome (hknows : Knows known tester wafer) (hsize : wafer.dies.size < 2 ^ 32)
    (minCohort : UInt32) (packageTest : List ElectricalMeasurement) :
    Tells known wafer minCohort (runOutcome tester wafer minCohort packageTest) := by
  have hlength : wafer.coords.length < 2 ^ 32 := by
    rwa [wafer.coords_eq, Std.ExtTreeMap.length_keys]
  have hresults : (tester.results wafer).length = wafer.coords.length := List.length_map _
  -- each die was tested once, so that the bins count the known outcomes
  have hbins (bin : DieTestOutcome → UInt16) (number : UInt16) :
      ((tester.results wafer).map fun result =>
          bin (result.outcome tester.program tester.taxonomy)).count number =
        known.toList.countP (bin ·.2 = number) := by
    rw [countP_of_knows hknows (bin · = number), SimulatedTester.results, List.map_map,
      List.count, List.countP_map]
    congr 1
  have hcounted (bin : DieTestOutcome → UInt16) :
      ((tester.results wafer).map fun result =>
        bin (result.outcome tester.program tester.taxonomy)).length < 2 ^ 32 := by
    rwa [List.length_map, hresults]
  constructor
  · exact dies_of_knows hknows
  · change (tally (tester.results wafer) tester.program tester.taxonomy).totalTested.toNat = _
    rw [tally_eq, hresults, size_of_knows hknows]
    exact UInt32.toNat_ofNat_of_lt' hlength
  · change (tally (tester.results wafer) tester.program tester.taxonomy).totalPassed.toNat = _
    rw [tally_eq, countP_of_knows hknows (·.passed), SimulatedTester.results, List.countP_map]
    exact UInt32.toNat_ofNat_of_lt' (List.countP_le_length.trans_lt hlength)
  -- the yield is given unless no die was tested
  · have hempty : (tally (tester.results wafer) tester.program tester.taxonomy).totalTested = 0 ↔
        known.isEmpty = true := by
      rw [Std.ExtTreeMap.isEmpty_eq_size_beq_zero, beq_iff_eq, size_of_knows hknows, tally_eq,
        hresults, ← UInt32.toNat_inj, UInt32.toNat_ofNat_of_lt' hlength]
      rfl
    change BinTally.yieldFraction _ = _
    rw [BinTally.yieldFraction]
    simp only [hempty]
    rfl
  · intro bin
    rw [← hbins (·.hardBin), ← published_countAll (hcounted (·.hardBin)), runOutcome, tally_eq]
    rfl
  · intro bin
    rw [← hbins (·.softBin), ← published_countAll (hcounted (·.softBin)), runOutcome, tally_eq]
    rfl

/-- What is published of a wafer run tells what the host was told of it over the transport: of
each die that is not excluded its outcome, and of each bin the number of its dies, up to the
minimum cohort. -/
theorem publishes_told (hcoords : ∀ coord ∈ wafer.dies, FitsU2 coord.x ∧ FitsU2 coord.y)
    (hsize : wafer.dies.size < 2 ^ 32) (minCohort : UInt32)
    (packageTest : List ElectricalMeasurement) (sessionId sessionId' : UInt16) :
    ∃ events, Comm.Delivers (collectParty sessionId) (testerParty tester wafer sessionId')
        (.ok ((("TPT-SIM-ATE", "0.1.0"), true), events)) (.ok ()) ∧
      Tells (gemResults events) wafer minCohort
        (runOutcome tester wafer minCohort packageTest) := by
  obtain ⟨after', hmeets⟩ := meets_collectWafer tester (.new sessionId) (.new sessionId') wafer
  refine ⟨_, hmeets.delivers ends_collectWafer (tester.ends_runWaferOverHsms wafer), ?_⟩
  refine tells_runOutcome ?_ hsize minCohort packageTest
  exact getElem?_gemResults fun coord hcoord => hcoords coord ((wafer.mem_coords coord).mp hcoord)

end Told

/-- A wafer of one die that is tested and one that is excluded, published for cohorts of five. -/
theorem publishes_told_twoSites :
    ∃ events, Comm.Delivers (collectParty 0) (testerParty lenientTester twoSites 7)
        (.ok ((("TPT-SIM-ATE", "0.1.0"), true), events)) (.ok ()) ∧
      Tells (gemResults events) twoSites 5 (runOutcome lenientTester twoSites 5 []) := by
  have hsize : twoSites.dies.size ≤ 2 := Std.ExtTreeMap.size_ofList_le
  exact publishes_told fits_twoSites (hsize.trans_lt (by decide)) 5 [] 0 7

end Aggregate

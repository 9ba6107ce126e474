import TptAte.Aggregate.Ingest
import TptAte.Aggregate.Published
import TptAte.Assembly.Validated

/-! # Reports on a package

A wafer run and an assembly run give what a report on a package is made of. The report is
exported to a file, and the files go from side to side. Whatever becomes of them, what any
side has ingested tells what the hosts of the two runs were told, up to how the JSON library
reads its numbers.
-/

namespace Aggregate

open Secs Test Assembly

/-- As-built vs. as-designed geometry of the placed dies. -/
def measuredGeometryFrom (records : List PlacementRecord) : List GeometryDeviation :=
  records.map fun record =>
    { key := record.siteId
      deviation := (record.placed.manhattanDistance record.nominal).toFloat
      note := s!"{record.siteId} placement offset (nm)" }

/-- A report is made of the results of a wafer run and of the records of an assembly run. -/
structure MadeOf (tester : SimulatedTester) (wafer : WaferDieMap) (minCohort : UInt32)
    (records : List PlacementRecord) (report : OutcomeReport) : Prop where
  track : ∃ packageTest,
    report.track = .testAssembly (runOutcome tester wafer minCohort packageTest)
  measuredGeometry : report.measuredGeometry = measuredGeometryFrom records
  totalUnits : report.yieldOutcome.totalUnits =
    (tally (tester.results wafer) tester.program tester.taxonomy).totalTested
  goodUnits : report.yieldOutcome.goodUnits =
    (tally (tester.results wafer) tester.program tester.taxonomy).totalPassed

/-- A report tells what is known of the dies of a wafer, and how far dies that verify on a layout
are off their sites. -/
structure TellsPackage (known : Std.ExtTreeMap DieCoord DieTestOutcome) (wafer : WaferDieMap)
    (minCohort : UInt32) (layout : InterposerLayout) (toleranceNm : Int64)
    (report : OutcomeReport) : Prop where
  outcome : ∃ outcome, report.track = .testAssembly outcome ∧ Tells known wafer minCohort outcome
  totalUnits : report.yieldOutcome.totalUnits.toNat = known.size
  goodUnits : report.yieldOutcome.goodUnits.toNat = known.toList.countP (·.2.passed)
  keys : report.measuredGeometry.map (·.key) = layout.sites.map (·.siteId)
  geometry : ∃ records, report.measuredGeometry = measuredGeometryFrom records ∧
    (verifyPlacements records layout toleranceNm).isOk = true ∧
    ∀ record ∈ records, record.placed.manhattanDistance record.nominal ≤ 30

section Package

variable {tester : SimulatedTester} {wafer : WaferDieMap} {minCohort : UInt32}
  {known : Std.ExtTreeMap DieCoord DieTestOutcome} {layout : InterposerLayout}
  {technique : AssemblyTechnique} {offset : Nat → PointNm → PointNm} {toleranceNm : Int64}
  {report : OutcomeReport}

theorem keys_measuredGeometryFrom (records : List PlacementRecord) :
    (measuredGeometryFrom records).map (·.key) = records.map (·.siteId) := by
  rw [measuredGeometryFrom, List.map_map]
  rfl

/-- A report that is made of two runs tells of both. -/
theorem MadeOf.tellsPackage
    (h : MadeOf tester wafer minCohort (layout.sites.zipIdx.map (recordFor technique offset))
      report)
    (hknows : Knows known tester wafer) (hsize : wafer.dies.size < 2 ^ 32)
    (hlayout : Addressable layout) (hclear : Clear layout)
    (hoffset : ∀ index target, Jitter (offset index target)) (htolerance : 30 ≤ toleranceNm.toInt) :
    TellsPackage known wafer minCohort layout toleranceNm report := by
  obtain ⟨packageTest, htrack⟩ := h.track
  have htells := tells_runOutcome hknows hsize minCohort packageTest
  constructor
  · exact ⟨_, htrack, htells⟩
  · rw [h.totalUnits]
    exact htells.totalTested
  · rw [h.goodUnits]
    exact htells.totalPassed
  · rw [h.measuredGeometry, keys_measuredGeometryFrom, siteIds_recordFor]
  · refine ⟨_, h.measuredGeometry, ?_, ?_⟩
    · apply isOk_iff.mpr
      exact checked_of_clear hlayout hoffset htolerance hclear
    · intro record hrecord
      obtain ⟨entry, hentry, rfl⟩ := List.mem_map.mp hrecord
      have hsite : entry.1 ∈ layout.sites := List.fst_mem_of_mem_zipIdx hentry
      have hnear : 30 ≤ (30 : Int64).toInt := by decide
      exact Int64.not_lt.mp (onTarget_recordFor hlayout hoffset hnear hsite)

end Package

end Aggregate

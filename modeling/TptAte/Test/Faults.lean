import TptAte.Test.Recovered
import TptAte.Test.Synopsis

/-! # Faults that show

A die that fails fails in one item of the program, if there is one. The host is told of the
failures that the fault model seeds, and the recorded run has one failing record for each die
that the host was told has failed.
-/

namespace Test

open Secs Wire Duplex Stdf

/-! ## Seeded faults -/

def FaultModel.deterministic (seed : UInt64) (alwaysFail : List DieCoord) : FaultModel :=
  { seed, failRate := .zero, alwaysFail }

def SimulatedTester.new (program : TestProgram) (faults : FaultModel) : SimulatedTester :=
  { program, taxonomy := .defaults, faults }

/-- The items of a program: its tests and its pattern groups. -/
def TestProgram.itemCount (program : TestProgram) : Nat :=
  program.tests.length + program.patternGroups.length

/-- The items that failed on a die. -/
def DieTestResult.failures (result : DieTestResult) : Nat :=
  result.measurements.countP (!·.passed) + result.patterns.countP (!·.passed)

/-! ## One failing item -/

/-- The failures among some items, by the index of the first one. -/
def failuresFrom : Option Nat → Nat → Nat → Nat
  | none, _, _ => 0
  | some item, index, count => if index ≤ item ∧ item < index + count then 1 else 0

section Items

variable (failingItem : Option Nat)

theorem failuresFrom_zero (index : Nat) : failuresFrom failingItem index 0 = 0 := by
  cases failingItem with
  | none => rfl
  | some item =>
      apply if_neg
      omega

theorem failuresFrom_succ (index count : Nat) :
    failuresFrom failingItem index (count + 1) =
      failuresFrom failingItem (index + 1) count +
        if (!(some index != failingItem)) = true then 1 else 0 := by
  cases failingItem with
  | none => rfl
  | some item =>
      simp only [failuresFrom, Bool.not_eq_true', bne_eq_false_iff_eq, Option.some.injEq]
      split_ifs <;> omega

theorem failuresFrom_add (index count count' : Nat) :
    failuresFrom failingItem index count + failuresFrom failingItem (index + count) count' =
      failuresFrom failingItem index (count + count') := by
  cases failingItem with
  | none => rfl
  | some item =>
      simp only [failuresFrom]
      split_ifs <;> omega

/-- The measurements that fail are those of the failing item. -/
theorem countP_measure (index : Nat) (rng : Comm.Rng) (specs : List TestSpec) :
    (measure failingItem index rng specs).countP (!·.passed) =
      failuresFrom failingItem index specs.length := by
  induction specs generalizing index rng with
  | nil => exact (failuresFrom_zero failingItem index).symm
  | cons spec specs ih => rw [measure, List.countP_cons, ih, List.length_cons, failuresFrom_succ]

/-- The patterns that fail are those of the failing item. -/
theorem countP_runPatterns (index : Nat) (groups : List PatternGroup) :
    (runPatterns failingItem index groups).countP (!·.passed) =
      failuresFrom failingItem index groups.length := by
  induction groups generalizing index with
  | nil => exact (failuresFrom_zero failingItem index).symm
  | cons group groups ih =>
      rw [runPatterns, List.countP_cons, ih, List.length_cons, failuresFrom_succ]

end Items

namespace SimulatedTester

def Fails (tester : SimulatedTester) (coord : DieCoord) : Prop :=
  coord ∈ tester.faults.alwaysFail ∨
    0 < toFloat32 tester.faults.failRate ∧
      ((Comm.Rng.fromParts [tester.faults.seed, coord.x.toInt64.toUInt64,
        coord.y.toInt64.toUInt64]).nextF32).1 < toFloat32 tester.faults.failRate

variable {tester : SimulatedTester} {coord : DieCoord}

/-- The simulator fails a die exactly if the faults it was given say so. -/
theorem failsDie_iff :
    (tester.failsDie coord (.fromParts [tester.faults.seed, coord.x.toInt64.toUInt64,
      coord.y.toInt64.toUInt64])).1 = true ↔ tester.Fails coord := by
  unfold failsDie Fails
  by_cases hforced : coord ∈ tester.faults.alwaysFail
  · simp [hforced]
  · by_cases hrate : 0 < toFloat32 tester.faults.failRate <;> simp [hforced, hrate]

/-- Only the dies of the list fail without a random draw. -/
theorem fails_deterministic (seed : UInt64) (alwaysFail : List DieCoord)
    (hfaults : tester.faults = .deterministic seed alwaysFail) :
    tester.Fails coord ↔ coord ∈ alwaysFail := by
  have hnever : ¬ 0 < toFloat32 F32.zero := by decide +kernel
  rw [Fails, hfaults]
  simp [FaultModel.deterministic, hnever]

instance : Decidable (tester.Fails coord) := decidable_of_iff _ failsDie_iff

/-- A die that fails does so in one item, if the program has any. -/
theorem failures_testDie :
    (tester.testDie coord).failures =
      if tester.Fails coord ∧ 0 < tester.program.itemCount then 1 else 0 := by
  have hitems : 0 < tester.program.itemCount ↔ 0 < tester.program.tests.length +
      tester.program.patternGroups.length := Iff.rfl
  rw [DieTestResult.failures, testDie]
  simp only
  rw [countP_measure, countP_runPatterns]
  have hsum := fun failingItem => failuresFrom_add failingItem 0 tester.program.tests.length
    tester.program.patternGroups.length
  simp only [Nat.zero_add] at hsum
  rw [hsum]
  by_cases hfails : tester.Fails coord
  · rw [failsDie_iff.mpr hfails]
    simp only [if_true, failuresFrom, hfails, true_and, hitems, Nat.zero_le, Nat.zero_add]
    congr 1
    apply propext
    constructor
    · intro hlt
      omega
    · intro hpos
      rw [Nat.max_eq_left hpos]
      exact Nat.mod_lt _ hpos
  · rw [Bool.eq_false_of_not_eq_true (mt failsDie_iff.mp hfails)]
    simp [failuresFrom, hfails]

/-- The host is told that a die has failed if it fails in an item. -/
theorem passed_outcome :
    (tester.outcome coord).passed = false ↔
      tester.Fails coord ∧ 0 < tester.program.itemCount := by
  have hgood := passed_sortDie_iff (tester.testDie coord) tester.program tester.taxonomy
  have hcount := @failures_testDie tester coord
  have hnone : (tester.testDie coord).Good ↔ (tester.testDie coord).failures = 0 := by
    simp [DieTestResult.Good, DieTestResult.failures, List.countP_eq_zero, testDie]
  rw [hnone, hcount] at hgood
  rw [← Bool.not_eq_true]
  refine (not_congr hgood).trans ?_
  split <;> simp_all

end SimulatedTester

/-! ## Sections of a record stream -/

/-- The fail bit of a result. -/
def failedRecord : Record → Bool
  | .ptr r => r.failed
  | .ftr r => r.failed
  | _ => false

/-- How many results with the fail bit there are in each section of a record stream. -/
def sectionFailures : List Record → List Nat
  | [] => []
  | .bps :: records => (records.takeWhile (· ≠ .eps)).countP failedRecord :: sectionFailures records
  | _ :: records => sectionFailures records

def toldFailed (events : List EventReport) (coord : DieCoord) : Bool :=
  (gemResults events)[coord]?.any (!·.passed)

section Sections

variable {program : TestProgram} {wafer : WaferDieMap} {tester : SimulatedTester}

theorem sectionFailures_append {records : List Record} (h : .bps ∉ records)
    (records' : List Record) :
    sectionFailures (records ++ records') = sectionFailures records' := by
  induction records with
  | nil => rfl
  | cons record records ih =>
      rw [List.mem_cons, not_or] at h
      rw [List.cons_append, sectionFailures, ih h.2]
      intro hbps
      exact h.1 hbps.symm

theorem countP_ptrs_die (result : DieTestResult) :
    (result.measurements.map fun measurement => Record.ptr (measurementPtr program measurement)
      ).countP failedRecord = result.measurements.countP (!·.passed) := by
  rw [List.countP_map]
  congr 1
  funext measurement
  exact failed_measurementPtr program measurement

theorem countP_ftrs_die (result : DieTestResult) :
    (result.patterns.map fun pattern => Record.ftr (patternFtr pattern)).countP failedRecord =
      result.patterns.countP (!·.passed) := by
  rw [List.countP_map]
  congr 1
  funext pattern
  exact failed_patternFtr pattern

/-- A section has the failures of its die. -/
theorem sectionFailures_dieRecords (result : DieTestResult) (records : List Record) :
    sectionFailures (dieRecords program result ++ records) =
      result.failures :: sectionFailures records := by
  have hitems : ∀ record ∈ result.measurements.map (fun measurement =>
      Record.ptr (measurementPtr program measurement)) ++
        result.patterns.map (fun pattern => .ftr (patternFtr pattern)),
      decide (record ≠ .eps) = true := by
    intro record hrecord
    rcases List.mem_append.mp hrecord with hmem | hmem
    · obtain ⟨measurement, -, rfl⟩ := List.mem_map.mp hmem
      rfl
    · obtain ⟨pattern, -, rfl⟩ := List.mem_map.mp hmem
      rfl
  have hlast : sectionFailures (.eps :: records) = sectionFailures records :=
    @sectionFailures_append [.eps] (by decide) records
  rw [dieRecords, List.append_assoc, List.cons_append, List.singleton_append, List.cons_append,
    sectionFailures, sectionFailures_append (by simp), hlast]
  congr 1
  rw [List.takeWhile_append_of_pos hitems, List.takeWhile_cons_of_neg (by simp),
    List.append_nil, List.countP_append, countP_ptrs_die, countP_ftrs_die]
  rfl

theorem sectionFailures_flatMap (results : List DieTestResult) {records : List Record}
    (h : .bps ∉ records) :
    sectionFailures (results.flatMap (dieRecords program) ++ records) =
      results.map (·.failures) := by
  induction results with
  | nil =>
      have hnone := sectionFailures_append h []
      rwa [List.append_nil] at hnone
  | cons result results ih =>
      rw [List.flatMap_cons, List.append_assoc, sectionFailures_dieRecords, ih, List.map_cons]

/-- The records of a run show in each section the failures of its die. -/
theorem sectionFailures_run (results : List DieTestResult) (tally : BinTally)
    (taxonomy : BinTaxonomy) (metadata : RunMetadata) :
    sectionFailures (buildWaferRunRecords program wafer results tally taxonomy metadata) =
      (byCoord results).map (·.failures) := by
  simp only [buildWaferRunRecords, List.append_assoc]
  rw [sectionFailures_append (by simp [identityRecords])]
  exact sectionFailures_flatMap _ (by simp)

/-- The results of a wafer are in the order in which they are recorded. -/
theorem byCoord_results : byCoord (tester.results wafer) = tester.results wafer := by
  apply List.mergeSort_of_pairwise
  refine List.pairwise_map.mpr (wafer.pairwise_coords.imp fun {coord coord'} hlt => ?_)
  change (compare coord coord').isLE = true
  rw [hlt]
  rfl

/-- The sections of the recorded run are those of the sites in ascending order. The one of a die
has a result with the fail bit if the host was told over the transport that the die has failed,
and then only one. These are the dies that the fault model lets fail, if the program has an item
that can fail. -/
theorem tells_faults (hcoords : ∀ coord ∈ wafer.dies, FitsU2 coord.x ∧ FitsU2 coord.y)
    (metadata : RunMetadata) (sessionId sessionId' : UInt16) :
    ∃ events, Comm.Delivers (collectParty sessionId) (testerParty tester wafer sessionId')
        (.ok ((("TPT-SIM-ATE", "0.1.0"), true), events)) (.ok ()) ∧
      sectionFailures (recordRun tester.program tester.taxonomy metadata wafer
          (tester.results wafer)).records =
        wafer.coords.map (fun coord => (toldFailed events coord).toNat) ∧
      ∀ coord, toldFailed events coord = true ↔
        coord ∈ wafer.dies ∧ tester.Fails coord ∧ 0 < tester.program.itemCount := by
  obtain ⟨after', hmeets⟩ := meets_collectWafer tester (.new sessionId) (.new sessionId') wafer
  have htold : ∀ coord, toldFailed
      (wafer.coords.map (dieEvent tester) ++ [(1, Ceid.waferDone, [])]) coord = true ↔
        coord ∈ wafer.dies ∧ tester.Fails coord ∧ 0 < tester.program.itemCount := by
    intro coord
    have hknown := @getElem?_gemResults tester wafer.coords
      (fun coord hcoord => hcoords coord ((wafer.mem_coords coord).mp hcoord)) coord
    rw [toldFailed, hknown, ← wafer.mem_coords, ← SimulatedTester.passed_outcome]
    by_cases hsite : coord ∈ wafer.coords <;> simp [hsite]
  refine ⟨_, hmeets.delivers ends_collectWafer (tester.ends_runWaferOverHsms wafer), ?_, htold⟩
  rw [recordRun, sectionFailures_run, byCoord_results, SimulatedTester.results, List.map_map]
  apply List.map_congr_left
  intro coord hcoord
  rw [Function.comp_apply, SimulatedTester.failures_testDie]
  have hiff := htold coord
  rw [← wafer.mem_coords] at hiff
  split
  next hfails => rw [hiff.mpr ⟨hcoord, hfails⟩, Bool.toNat_true]
  next hpasses =>
      rw [Bool.eq_false_of_not_eq_true fun htrue => hpasses (hiff.mp htrue).2, Bool.toNat_false]

/-- One listed die on a wafer with an excluded site. -/
theorem tells_faults_twoSites :
    ∃ events, Comm.Delivers (collectParty 0)
        (testerParty (.new lenientProgram (.deterministic 42 [⟨1, 0⟩])) twoSites 7)
        (.ok ((("TPT-SIM-ATE", "0.1.0"), true), events)) (.ok ()) ∧
      ∀ coord, toldFailed events coord = true ↔
        coord ∈ twoSites.dies ∧ coord ∈ [(⟨1, 0⟩ : DieCoord)] ∧ 0 < lenientProgram.itemCount := by
  have htells := @tells_faults twoSites (.new lenientProgram (.deterministic 42 [⟨1, 0⟩]))
    fits_twoSites (.default 1700000900 1700000900) 0 7
  obtain ⟨events, hdelivers, -, htold⟩ := htells
  refine ⟨events, hdelivers, fun coord => ?_⟩
  rw [htold, SimulatedTester.fails_deterministic 42 [⟨1, 0⟩] rfl]
  rfl

end Sections

end Test

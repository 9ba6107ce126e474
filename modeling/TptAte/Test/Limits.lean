import TptAte.Test.Synopsis
import TptAte.Stdf.Capacity

/-! # The limits of recorded measurements

The record of a measurement carries the limits of its test. A limit that the test does
not have is recorded as a limit of zero, which is what a reader then finds.
-/

namespace Test

open Wire Stdf

/-! ## The record of a measurement -/

/-- The record of a measurement of a given test, apart from its fail bit. -/
theorem measurementPtr_eq {program : TestProgram} {measurement : MeasurementOutcome}
    {spec : TestSpec}
    (hspec : program.tests.find? (·.testNumber == measurement.testNumber) = some spec) :
    measurementPtr program measurement =
      { Ptr.measured measurement.testNumber 1 1 measurement.value spec.name spec.unit
          (spec.loLimit.getD .zero) (spec.hiLimit.getD .zero) with
        testFlg := if measurement.passed then 0 else TestFlg.testFailed } := by
  cases hpassed : measurement.passed <;> simp [measurementPtr, hpassed, hspec, Ptr.measured]

/-- In a program with distinct test numbers a test is found by its number. -/
theorem find?_testNumber {tests : List TestSpec} (hdistinct : (tests.map (·.testNumber)).Nodup)
    {spec : TestSpec} (hspec : spec ∈ tests) :
    tests.find? (·.testNumber == spec.testNumber) = some spec := by
  induction tests with
  | nil => cases hspec
  | cons first tests ih =>
      rw [List.map_cons, List.nodup_cons] at hdistinct
      obtain ⟨hfirst, hrest⟩ := hdistinct
      rw [List.find?_cons]
      rcases List.mem_cons.mp hspec with rfl | hspec
      · rw [beq_self_eq_true]
      · have hne : (first.testNumber == spec.testNumber) = false := by
          apply beq_eq_false_iff_ne.mpr
          intro heq
          exact hfirst (heq ▸ List.mem_map_of_mem hspec)
        rw [hne]
        exact ih hrest hspec

/-! ## What a reader is told of the limits -/

/-- A record of a measurement has the limits of the test, and flags those that the test
does not have. -/
structure ShowsLimits (r : Ptr) (spec : TestSpec) : Prop where
  loLimit : r.loLimit = spec.loLimit
  noLoLimit : spec.loLimit = none → ∃ flags ∈ r.optFlg, flags &&& OptFlg.noLoLimit ≠ 0
  hiLimit : r.hiLimit = spec.hiLimit
  noHiLimit : spec.hiLimit = none → ∃ flags ∈ r.optFlg, flags &&& OptFlg.noHiLimit ≠ 0

/-- The records of the measurements of a program's tests show their limits, also to a
reader of what they are encoded to. -/
def LimitsRecorded (program : TestProgram) (records : List Record) : Prop :=
  ∀ r ∈ records.filterMap ptr?, ∀ spec ∈ program.tests, spec.testNumber = r.testNum →
    ShowsLimits r spec ∧
      ∀ bytes ∈ (Record.ptr r).encode, ∃ r',
        nextFrame .little true bytes = .ok (some (.ptr r', .little, [])) ∧ ShowsLimits r' spec

section

variable {program : TestProgram} {measurement : MeasurementOutcome} {spec : TestSpec}

/-- The two limits are always there, and never flagged as absent. -/
theorem showsLimits_iff
    (hspec : program.tests.find? (·.testNumber == measurement.testNumber) = some spec) :
    ShowsLimits (measurementPtr program measurement) spec ↔
      spec.loLimit.isSome = true ∧ spec.hiLimit.isSome = true := by
  rw [measurementPtr_eq hspec]
  constructor
  · intro hshows
    have hlo := hshows.loLimit
    have hhi := hshows.hiLimit
    simp only [Ptr.measured] at hlo hhi
    exact ⟨Option.isSome_iff_exists.mpr ⟨_, hlo.symm⟩, Option.isSome_iff_exists.mpr ⟨_, hhi.symm⟩⟩
  · intro hsome
    obtain ⟨lo, hlo⟩ := Option.isSome_iff_exists.mp hsome.1
    obtain ⟨hi, hhi⟩ := Option.isSome_iff_exists.mp hsome.2
    constructor <;> simp [Ptr.measured, hlo, hhi]

theorem wellFormed_ptr {r : Ptr} (hptr : r.WellFormed) : (Record.ptr r).WellFormed :=
  ⟨hptr, fun _ hbody => @length_encodeBody_le (.ptr r) trivial _ hbody⟩

/-- A record that could be written reads as it was. -/
theorem nextFrame_measurementPtr
    (hspec : program.tests.find? (·.testNumber == measurement.testNumber) = some spec)
    {bytes : Bytes}
    (hencode : (Record.ptr (measurementPtr program measurement)).encode = some bytes) :
    nextFrame .little true bytes =
      .ok (some (.ptr (measurementPtr program measurement), .little, [])) := by
  obtain ⟨body, hbody, -⟩ := encode_eq_some.mp hencode
  obtain ⟨hname, hunits⟩ := fitsCn_of_encodePtr hbody
  have hptr : (measurementPtr program measurement).WellFormed := by
    rw [measurementPtr_eq hspec] at hname hunits ⊢
    have hmeasured := Ptr.measured_wellFormed measurement.testNumber 1 1 measurement.value
      hname hunits (spec.loLimit.getD .zero) (spec.hiLimit.getD .zero)
    exact { hmeasured with }
  have hframe := nextFrame_encode (wellFormed_ptr hptr) hencode (.inl rfl) []
  rwa [List.append_nil] at hframe

end

/-- The limits of a run are recorded as they are exactly if every measured test has both
of them. -/
theorem limitsRecorded_iff {program : TestProgram}
    (hdistinct : (program.tests.map (·.testNumber)).Nodup) (wafer : WaferDieMap)
    (results : List DieTestResult) (tally : BinTally) (taxonomy : BinTaxonomy)
    (metadata : RunMetadata) :
    LimitsRecorded program
        (buildWaferRunRecords program wafer results tally taxonomy metadata) ↔
      ∀ result ∈ results, ∀ measurement ∈ result.measurements, ∀ spec ∈ program.tests,
        spec.testNumber = measurement.testNumber →
          spec.loLimit.isSome = true ∧ spec.hiLimit.isSome = true := by
  unfold LimitsRecorded
  rw [ptrs_eq]
  -- where no number comes twice, a measurement finds the limits of its own test
  have hfound {measurement : MeasurementOutcome} {spec : TestSpec} (hspec : spec ∈ program.tests)
      (hnumber : spec.testNumber = measurement.testNumber) :
      program.tests.find? (·.testNumber == measurement.testNumber) = some spec :=
    hnumber ▸ find?_testNumber hdistinct hspec
  constructor
  · intro hrecorded result hresult measurement hmeasurement spec hspec hnumber
    have hmem : measurementPtr program measurement ∈ (byCoord results).flatMap fun result =>
        result.measurements.map (measurementPtr program) := by
      rw [List.mem_flatMap]
      exact ⟨result, (List.mergeSort_perm _ _).mem_iff.mpr hresult,
        List.mem_map_of_mem hmeasurement⟩
    have hshows := hrecorded _ hmem spec hspec
      (hnumber.trans (testNum_measurementPtr program measurement).symm)
    exact (showsLimits_iff (hfound hspec hnumber)).mp hshows.1
  · intro hlimits r hr spec hspec hnumber
    obtain ⟨result, hresult, hr⟩ := List.mem_flatMap.mp hr
    obtain ⟨measurement, hmeasurement, rfl⟩ := List.mem_map.mp hr
    rw [testNum_measurementPtr] at hnumber
    have hresult := (List.mergeSort_perm _ _).mem_iff.mp hresult
    have hshows := (showsLimits_iff (hfound hspec hnumber)).mpr
      (hlimits result hresult measurement hmeasurement spec hspec hnumber)
    refine ⟨hshows, fun bytes hencode => ⟨_, ?_, hshows⟩⟩
    exact nextFrame_measurementPtr (hfound hspec hnumber) hencode

/-- The program with one test, which has no limits. -/
theorem limitsRecorded_iff_lenientProgram :
    LimitsRecorded lenientProgram
        (buildWaferRunRecords lenientProgram twoSites [failedDie] .empty .defaults
          (.default 1700000900 1700000900)) ↔
      ∀ result ∈ [failedDie], ∀ measurement ∈ result.measurements,
        ∀ spec ∈ lenientProgram.tests, spec.testNumber = measurement.testNumber →
          spec.loLimit.isSome = true ∧ spec.hiLimit.isSome = true :=
  limitsRecorded_iff (by decide) twoSites [failedDie] .empty .defaults _

/-- Its measurement is recorded with limits from zero to zero. -/
theorem not_limitsRecorded_lenientProgram :
    (lenientProgram.tests.map (·.testNumber)).Nodup ∧
      ¬ LimitsRecorded lenientProgram
        (buildWaferRunRecords lenientProgram twoSites [failedDie] .empty .defaults
          (.default 1700000900 1700000900)) := by
  refine ⟨by decide, fun hrecorded => ?_⟩
  unfold LimitsRecorded at hrecorded
  rw [ptrs_eq] at hrecorded
  have hshows := hrecorded (measurementPtr lenientProgram ⟨10, ⟨0⟩, false⟩)
    (by simp [byCoord, failedDie]) _ List.mem_cons_self rfl
  exact absurd hshows.1.loLimit (by decide)

end Test

import TptAte.Test.Bins

/-! # Bin sort

Turns the execution results of a die into its bins. An aborted die goes to the
abort bin. Otherwise the first failing item in execution order decides: it goes
to the software bin that the program declares for it, or, where this is zero, to
the default of its class. A die without a failure goes to the pass bin.
-/

namespace Test

open Wire

/-! ## The test program -/

/-- One parametric test of a program; a zero `failSoftBin` leaves the bin to the
defaults. -/
structure TestSpec where
  testNumber : UInt32
  name : String
  unit : String
  nominal : F32
  loLimit : Option F32
  hiLimit : Option F32
  failSoftBin : UInt16
  deriving DecidableEq, Repr

structure PatternGroup where
  name : String
  vectorCount : UInt32
  testNumber : UInt32
  failSoftBin : UInt16
  deriving DecidableEq, Repr

structure TestProgram where
  designName : String
  lotId : String
  partType : String
  sblotId : String
  tests : List TestSpec
  patternGroups : List PatternGroup
  deriving DecidableEq, Repr

/-! ## Results of a die -/

/-- Physical die location on a wafer. -/
structure DieCoord where
  x : Int32
  y : Int32
  deriving DecidableEq, Repr

structure MeasurementOutcome where
  testNumber : UInt32
  value : F32
  passed : Bool
  deriving DecidableEq, Repr

structure PatternOutcome where
  name : String
  testNumber : UInt32
  passed : Bool
  deriving DecidableEq, Repr

/-- Result of executing one die's program, in execution order. -/
structure DieTestResult where
  coord : DieCoord
  measurements : List MeasurementOutcome
  patterns : List PatternOutcome
  aborted : Bool
  deriving DecidableEq, Repr

structure BinAssignment where
  coord : DieCoord
  passed : Bool
  hardBin : UInt16
  softBin : UInt16
  failingTest : Option UInt32
  deriving DecidableEq, Repr

/-! ## Sorting -/

def defaultParametricSoftBin : UInt16 := 10

def defaultFunctionalSoftBin : UInt16 := 11

def abortSoftBin : UInt16 := 12

/-- The software bin that the program declares for a failed measurement. -/
def TestProgram.measurementSoftBin (program : TestProgram) (measurement : MeasurementOutcome) :
    UInt16 :=
  ((program.tests.find? (·.testNumber == measurement.testNumber)).map (·.failSoftBin)).getD 0

def TestProgram.patternSoftBin (program : TestProgram) (pattern : PatternOutcome) : UInt16 :=
  ((program.patternGroups.find? (·.testNumber == pattern.testNumber)).map (·.failSoftBin)).getD 0

def assignFail (result : DieTestResult) (taxonomy : BinTaxonomy) (softBin fallback : UInt16)
    (failingTest : Option UInt32) : BinAssignment :=
  let soft := if softBin = 0 then fallback else softBin
  { coord := result.coord
    passed := false
    hardBin := taxonomy.hardBinOf soft
    softBin := soft
    failingTest }

/-- Sort one die's results into its bins. -/
def sortDie (result : DieTestResult) (program : TestProgram) (taxonomy : BinTaxonomy) :
    BinAssignment :=
  if result.aborted then assignFail result taxonomy abortSoftBin abortSoftBin none
  else
    -- measurements decide before patterns
    match result.measurements.find? (!·.passed) with
    | some measurement =>
        assignFail result taxonomy (program.measurementSoftBin measurement)
          defaultParametricSoftBin (some measurement.testNumber)
    | none =>
        match result.patterns.find? (!·.passed) with
        | some pattern =>
            assignFail result taxonomy (program.patternSoftBin pattern)
              defaultFunctionalSoftBin (some pattern.testNumber)
        | none =>
            { coord := result.coord
              passed := true
              hardBin := taxonomy.hardBinOf 1
              softBin := 1
              failingTest := none }

def tally (results : List DieTestResult) (program : TestProgram) (taxonomy : BinTaxonomy) :
    BinTally :=
  results.foldl (fun out result =>
    let assignment := sortDie result program taxonomy
    let out := out.record assignment.passed assignment.hardBin assignment.softBin
    if result.aborted then { out with aborted := out.aborted + 1 } else out) .empty

/-! ## Passing and failing bins -/

/-- The die was not aborted and nothing in it failed. -/
def DieTestResult.Good (result : DieTestResult) : Prop :=
  result.aborted = false ∧ (∀ measurement ∈ result.measurements, measurement.passed = true) ∧
    ∀ pattern ∈ result.patterns, pattern.passed = true

/-- The software bin that the program declares for the first failing item of a
die that was not aborted; zero where it declares none. -/
def declaredSoftBin (result : DieTestResult) (program : TestProgram) : UInt16 :=
  if result.aborted then 0
  else
    match result.measurements.find? (!·.passed) with
    | some measurement => program.measurementSoftBin measurement
    | none => ((result.patterns.find? (!·.passed)).map program.patternSoftBin).getD 0

/-- Software bin 1 passes and the default bins of the failure classes fail. -/
structure BinTaxonomy.Separates (taxonomy : BinTaxonomy) : Prop where
  pass : taxonomy.rollsToPass 1 = true
  parametric : taxonomy.rollsToPass defaultParametricSoftBin = false
  functional : taxonomy.rollsToPass defaultFunctionalSoftBin = false
  abort : taxonomy.rollsToPass abortSoftBin = false

section

variable (result : DieTestResult) (program : TestProgram) (taxonomy : BinTaxonomy)

/-- A die passes the sort exactly if it is good. -/
theorem passed_sortDie_iff :
    (sortDie result program taxonomy).passed = true ↔ result.Good := by
  unfold sortDie DieTestResult.Good
  cases haborted : result.aborted with
  | true => simp [assignFail]
  | false =>
      cases hmeasurement : result.measurements.find? (!·.passed) with
      | some measurement =>
          have hfailed := List.find?_some hmeasurement
          have hmem := List.mem_of_find?_eq_some hmeasurement
          simp only [assignFail, Bool.false_eq_true, if_false, false_iff, not_and]
          intro _ hall
          simp [hall measurement hmem] at hfailed
      | none =>
          have hall : ∀ measurement ∈ result.measurements, measurement.passed = true := by
            simpa using List.find?_eq_none.mp hmeasurement
          cases hpattern : result.patterns.find? (!·.passed) with
          | some pattern =>
              have hfailed := List.find?_some hpattern
              have hmem := List.mem_of_find?_eq_some hpattern
              simp only [assignFail, Bool.false_eq_true, if_false, false_iff, not_and]
              intro _ _ hpatterns
              simp [hpatterns pattern hmem] at hfailed
          | none =>
              have hpatterns : ∀ pattern ∈ result.patterns, pattern.passed = true := by
                simpa using List.find?_eq_none.mp hpattern
              simpa using ⟨hall, hpatterns⟩

theorem hardBin_assignFail (softBin fallback : UInt16) (failingTest : Option UInt32)
    (hfallback : taxonomy.rollsToPass fallback = false) :
    taxonomy.isPassHardBin (assignFail result taxonomy softBin fallback failingTest).hardBin =
      (softBin != 0 && taxonomy.rollsToPass softBin) := by
  unfold assignFail
  by_cases hzero : softBin = 0
  · simpa [hzero, BinTaxonomy.rollsToPass] using hfallback
  · simp [hzero, BinTaxonomy.rollsToPass]

/-- The pass state of the hardware bin: that of a good die, or the one of the
bin that the program declares for the failure. -/
theorem isPassHardBin_sortDie {taxonomy : BinTaxonomy} (hseparates : taxonomy.Separates) :
    taxonomy.isPassHardBin (sortDie result program taxonomy).hardBin =
      ((sortDie result program taxonomy).passed ||
        (declaredSoftBin result program != 0 &&
          taxonomy.rollsToPass (declaredSoftBin result program))) := by
  unfold sortDie declaredSoftBin
  cases result.aborted with
  | true => simpa [assignFail, abortSoftBin, BinTaxonomy.rollsToPass] using hseparates.abort
  | false =>
      cases result.measurements.find? (!·.passed) with
      | some measurement =>
          simp only [Bool.false_eq_true, if_false,
            hardBin_assignFail _ _ _ _ _ hseparates.parametric]
          simp [assignFail]
      | none =>
          cases result.patterns.find? (!·.passed) with
          | some pattern =>
              simp only [Bool.false_eq_true, if_false,
                hardBin_assignFail _ _ _ _ _ hseparates.functional]
              simp [assignFail]
          | none => simpa [BinTaxonomy.rollsToPass] using hseparates.pass

/-- A good die declares no bin of failure. -/
theorem declaredSoftBin_of_good {result : DieTestResult} (hgood : result.Good) :
    declaredSoftBin result program = 0 := by
  obtain ⟨haborted, hmeasurements, hpatterns⟩ := hgood
  have hmeasurement : result.measurements.find? (!·.passed) = none :=
    List.find?_eq_none.mpr fun measurement hmem => by simp [hmeasurements measurement hmem]
  have hpattern : result.patterns.find? (!·.passed) = none :=
    List.find?_eq_none.mpr fun pattern hmem => by simp [hpatterns pattern hmem]
  simp [declaredSoftBin, haborted, hmeasurement, hpattern]

/-- A die passes exactly if it is good. Its hardware bin says the same, unless
the program declares for its first failing item a software bin that rolls up to
a pass bin. -/
theorem sortDie_passed_iff {taxonomy : BinTaxonomy} (hseparates : taxonomy.Separates) :
    ((sortDie result program taxonomy).passed = true ↔ result.Good) ∧
      ((sortDie result program taxonomy).passed =
          taxonomy.isPassHardBin (sortDie result program taxonomy).hardBin ↔
        declaredSoftBin result program = 0 ∨
          taxonomy.rollsToPass (declaredSoftBin result program) = false) := by
  have hpassed := passed_sortDie_iff result program taxonomy
  refine ⟨hpassed, ?_⟩
  rw [isPassHardBin_sortDie result program hseparates]
  cases hcase : (sortDie result program taxonomy).passed with
  | true => simp [declaredSoftBin_of_good program (hpassed.mp hcase)]
  | false =>
      cases taxonomy.rollsToPass (declaredSoftBin result program) <;> simp

end

/-- The default bins separate passing from failing. -/
theorem separates_defaults : BinTaxonomy.defaults.Separates :=
  ⟨by decide +kernel, by decide +kernel, by decide +kernel, by decide +kernel⟩

/-- A die whose only measurement failed. -/
def failedDie : DieTestResult :=
  { coord := ⟨0, 0⟩
    measurements := [{ testNumber := 10, value := ⟨0⟩, passed := false }]
    patterns := []
    aborted := false }

def lenientProgram : TestProgram :=
  { designName := "D", lotId := "L", partType := "P", sblotId := "S"
    tests := [{ testNumber := 10, name := "IDDQ", unit := "uA", nominal := ⟨0⟩, loLimit := none,
                hiLimit := none, failSoftBin := 1 }]
    patternGroups := [] }

theorem sortDie_passed_iff_failedDie :
    ((sortDie failedDie lenientProgram .defaults).passed = true ↔ failedDie.Good) ∧
      ((sortDie failedDie lenientProgram .defaults).passed =
          BinTaxonomy.defaults.isPassHardBin (sortDie failedDie lenientProgram .defaults).hardBin ↔
        declaredSoftBin failedDie lenientProgram = 0 ∨
          BinTaxonomy.defaults.rollsToPass (declaredSoftBin failedDie lenientProgram) = false) :=
  sortDie_passed_iff failedDie lenientProgram separates_defaults

/-- The hardware bin does not always agree: a failed die goes to a pass bin where
the program declares it. -/
theorem not_passed_eq_failedDie :
    ¬ ∀ (result : DieTestResult) (program : TestProgram) (taxonomy : BinTaxonomy),
      taxonomy.Separates →
        (sortDie result program taxonomy).passed =
            taxonomy.isPassHardBin (sortDie result program taxonomy).hardBin ∧
          ((sortDie result program taxonomy).passed = true ↔ result.Good) := by
  intro hall
  have hagree := (hall failedDie lenientProgram .defaults separates_defaults).1
  exact absurd hagree (by decide +kernel)

end Test

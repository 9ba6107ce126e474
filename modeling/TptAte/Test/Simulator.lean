import TptAte.Test.Wafer
import TptAte.Comm.Rng
import TptAte.Secs.Gem

/-! # Simulated tester

A synthetic tester that executes a program on each die of a wafer and reports the bins
of the dies as events. What happens to a die is seeded from the fault model and the
die's location.
-/

namespace Test

open Wire Secs Comm

/-! ## Testing a die -/

/-- How the simulated tester decides which dies fail. -/
structure FaultModel where
  seed : UInt64
  failRate : F32
  alwaysFail : List DieCoord

structure SimulatedTester where
  program : TestProgram
  taxonomy : BinTaxonomy
  faults : FaultModel

def toFloat32 (value : F32) : Float32 := .ofBits value.bits

def ofFloat32 (value : Float32) : F32 := ⟨value.toBits⟩

def atLeastOne (value : Float32) : Float32 := if 1.0 < value then value else 1.0

/-- A value inside the limits of a test, or one just outside of them. Without both
limits it is one around the nominal value. -/
def measurementValue (rng : Rng) (spec : TestSpec) (passed : Bool) : Float32 × Rng :=
  match spec.loLimit.map toFloat32, spec.hiLimit.map toFloat32 with
  | some lo, some hi =>
      if passed then rng.uniform (lo + 0.05 * (hi - lo)) (lo + 0.95 * (hi - lo))
      else
        let (draw, rng) := rng.nextF32
        if draw < 0.5 then (lo - 0.05 * atLeastOne (hi - lo).abs, rng)
        else (hi + 0.05 * atLeastOne (hi - lo).abs, rng)
  | lo, _ =>
      let nominal := toFloat32 spec.nominal
      let span := atLeastOne nominal.abs
      if passed then rng.uniform (nominal - 0.1 * span) (nominal + 0.1 * span)
      else if lo.isSome then (nominal - 0.2 * span, rng)
      else (nominal + 0.2 * span, rng)

/-- Measure the tests from an index on; the failing item is the only one that fails. -/
def measure (failingItem : Option Nat) : Nat → Rng → List TestSpec → List MeasurementOutcome
  | _, _, [] => []
  | index, rng, spec :: specs =>
      let passed := some index != failingItem
      let (value, rng) := measurementValue rng spec passed
      { testNumber := spec.testNumber, value := ofFloat32 value, passed } ::
        measure failingItem (index + 1) rng specs

def runPatterns (failingItem : Option Nat) : Nat → List PatternGroup → List PatternOutcome
  | _, [] => []
  | index, group :: groups =>
      { name := group.name, testNumber := group.testNumber, passed := some index != failingItem } ::
        runPatterns failingItem (index + 1) groups

namespace SimulatedTester

/-- Whether a die fails, with the generator behind the decision. -/
def failsDie (tester : SimulatedTester) (coord : DieCoord) (rng : Rng) : Bool × Rng :=
  let failRate := toFloat32 tester.faults.failRate
  if coord ∈ tester.faults.alwaysFail then (true, rng)
  else if 0 < failRate then
    let (draw, rng) := rng.nextF32
    (draw < failRate, rng)
  else (false, rng)

/-- Execute the program against one die. -/
def testDie (tester : SimulatedTester) (coord : DieCoord) : DieTestResult :=
  let rng := Rng.fromParts
    [tester.faults.seed, coord.x.toInt64.toUInt64, coord.y.toInt64.toUInt64]
  let (fails, rng) := tester.failsDie coord rng
  let tests := tester.program.tests
  let groups := tester.program.patternGroups
  let (failingItem, rng) :=
    if fails then
      let (draw, rng) := rng.nextU64
      (some (draw.toNat % max (tests.length + groups.length) 1), rng)
    else (none, rng)
  { coord
    measurements := measure failingItem 0 rng tests
    patterns := runPatterns failingItem tests.length groups
    aborted := false }

def testAndSortDie (tester : SimulatedTester) (coord : DieCoord) :
    DieTestResult × BinAssignment :=
  let result := tester.testDie coord
  (result, sortDie result tester.program tester.taxonomy)

def outcome (tester : SimulatedTester) (coord : DieCoord) : DieTestOutcome :=
  let (_, assignment) := tester.testAndSortDie coord
  { passed := assignment.passed, hardBin := assignment.hardBin, softBin := assignment.softBin }

end SimulatedTester

/-! ## Reporting a die -/

/-- The variables of a die's report. -/
def encodeDieReport (coord : DieCoord) (outcome : DieTestOutcome) : List SecsItem :=
  [.oneU2 coord.x.toUInt32.toUInt16, .oneU2 coord.y.toUInt32.toUInt16, .oneU2 outcome.hardBin,
    .oneU2 outcome.softBin, .boolean [outcome.passed]]

def decodeDieReport : List SecsItem → Except SecsError (DieCoord × DieTestOutcome)
  | [x, y, hardBin, softBin, passed] => do
      let x ← orGem "DIE_X is not U2" x.asU2
      let y ← orGem "DIE_Y is not U2" y.asU2
      let hardBin ← orGem "HARD_BIN is not U2" hardBin.asU2
      let softBin ← orGem "SOFT_BIN is not U2" softBin.asU2
      match passed with
      | .boolean values =>
          return (⟨x.toUInt32.toInt32, y.toUInt32.toInt32⟩,
            { passed := values.head?.getD false, hardBin, softBin })
      | _ => .error (.gem (.text "DIE_PASS is not BOOLEAN"))
  | vlist => .error (.gem (.text s!"die report has {vlist.length} variables, expected 5"))

def FitsU2 (value : Int32) : Prop := 0 ≤ value.toInt ∧ value.toInt ≤ 65535

/-- A coordinate comes out of two bytes as its remainder. -/
theorem toInt_toUInt16 (value : Int32) :
    value.toUInt32.toUInt16.toUInt32.toInt32.toInt = value.toInt % 65536 := by
  have hvalue := BitVec.toInt_eq_toNat_cond value.toBitVec
  have hlt := value.toBitVec.isLt
  have hsmall : value.toBitVec.toNat % 65536 < 65536 := Nat.mod_lt _ (by decide)
  have hnat : value.toUInt32.toUInt16.toUInt32.toInt32.toBitVec.toNat =
      value.toBitVec.toNat % 65536 := rfl
  have hread := BitVec.toInt_eq_toNat_cond value.toUInt32.toUInt16.toUInt32.toInt32.toBitVec
  rw [hnat, if_pos (by omega)] at hread
  change value.toInt = _ at hvalue
  change value.toUInt32.toUInt16.toUInt32.toInt32.toInt = _ at hread
  rw [hread, hvalue]
  split <;> omega

/-- The coordinates that come out of two bytes unchanged. -/
theorem toInt32_toUInt16_iff {value : Int32} :
    value.toUInt32.toUInt16.toUInt32.toInt32 = value ↔ FitsU2 value := by
  rw [← Int32.toInt_inj, toInt_toUInt16, FitsU2]
  omega

/-- A report of a die at such a location is read back. -/
theorem decodeDieReport_encodeDieReport {coord : DieCoord} (hx : FitsU2 coord.x)
    (hy : FitsU2 coord.y) (outcome : DieTestOutcome) :
    decodeDieReport (encodeDieReport coord outcome) = .ok (coord, outcome) := by
  simp only [encodeDieReport, SecsItem.oneU2, decodeDieReport, SecsItem.asU2, List.head?_cons,
    orGem, Reader.ok_bind, toInt32_toUInt16_iff.mpr hx, toInt32_toUInt16_iff.mpr hy]
  rfl

/-! ## Running a wafer -/

namespace SimulatedTester

def gem : EquipmentGem := ⟨"TPT-SIM-ATE", "0.1.0"⟩

/-- The report of a die. -/
def dieReport (tester : SimulatedTester) (coord : DieCoord) : List ReportEntry :=
  [(dieTestedRptid, encodeDieReport coord (tester.outcome coord))]

/-- Test dies one by one and report each. -/
def reportDies (tester : SimulatedTester) : List DieCoord → Program Unit
  | [] => return
  | coord :: coords => do
      EquipmentGem.sendEventReport 1 Ceid.dieTested (tester.dieReport coord)
      tester.reportDies coords

/-- The equipment's side of a wafer run: an event for each die in the order of the
locations, and a last one when the wafer is done. -/
def runWaferOverHsms (tester : SimulatedTester) (wafer : WaferDieMap) : Program Unit := do
  gem.accept
  tester.reportDies wafer.coords
  EquipmentGem.sendEventReport 1 Ceid.waferDone []

end SimulatedTester

end Test

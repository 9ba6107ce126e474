import TptAte.Test.RunOrder
import TptAte.Test.Simulator
import TptAte.Keyed.Verdicts

/-! # Synopses of the tests

The records of the dies list every item that was executed, and the synopsis of a test
counts the first item of its number on each die. The two agree for the programs that
give each of their tests and of their pattern groups a number of its own.
-/

namespace Stdf

def Ptr.failed (r : Ptr) : Bool := r.testFlg &&& TestFlg.testFailed != 0

def Ftr.failed (r : Ftr) : Bool := r.testFlg &&& TestFlg.testFailed != 0

end Stdf

namespace Test

open Stdf Keyed

/-! ## Test records and synopses of a record stream -/

def ptr? : Record → Option Ptr
  | .ptr r => some r
  | _ => none

def ftr? : Record → Option Ftr
  | .ftr r => some r
  | _ => none

def tsr? : Record → Option Tsr
  | .tsr r => some r
  | _ => none

/-- Each synopsis counts the records of its kind that have its test number, and those of
them with the fail bit. -/
structure SynopsesMatch (records : List Record) : Prop where
  parametric : ∀ tsr ∈ records.filterMap tsr?, tsr.testTyp = 0x50 →
    tsr.execCnt.toNat = (records.filterMap ptr?).countP (·.testNum == tsr.testNum) ∧
      tsr.failCnt.toNat =
        (records.filterMap ptr?).countP fun r => r.testNum == tsr.testNum && r.failed
  functional : ∀ tsr ∈ records.filterMap tsr?, tsr.testTyp = 0x46 →
    tsr.execCnt.toNat = (records.filterMap ftr?).countP (·.testNum == tsr.testNum) ∧
      tsr.failCnt.toNat =
        (records.filterMap ftr?).countP fun r => r.testNum == tsr.testNum && r.failed

section

variable {program : TestProgram} {wafer : WaferDieMap} {results : List DieTestResult}
  {tally : BinTally} {taxonomy : BinTaxonomy} {metadata : RunMetadata}

/-- The records of a kind that only the dies and the tests have. -/
theorem filterMap_testRecords {α : Type} {pick : Record → Option α}
    (hidentity : (identityRecords program wafer metadata).filterMap pick = [])
    (hwrr : ∀ r, pick (.wrr r) = none) (hpcr : ∀ r, pick (.pcr r) = none)
    (hhbr : ∀ r, pick (.hbr r) = none) (hsbr : ∀ r, pick (.sbr r) = none)
    (hgdr : ∀ r, pick (.gdr r) = none) (hmrr : ∀ r, pick (.mrr r) = none) :
    (buildWaferRunRecords program wafer results tally taxonomy metadata).filterMap pick =
      (byCoord results).flatMap (fun result => (dieRecords program result).filterMap pick) ++
        program.tests.filterMap (fun spec => pick (.tsr (testTsr results spec))) ++
        program.patternGroups.filterMap fun group => pick (.tsr (groupTsr results group)) := by
  simp only [buildWaferRunRecords, List.filterMap_append, hidentity, List.filterMap_map,
    Function.comp_def, hhbr, hsbr, List.filterMap_none, List.filterMap_cons, hwrr, hpcr, hgdr,
    hmrr, List.filterMap_nil, List.nil_append, List.append_nil, List.filterMap_flatMap]

theorem ptrs_eq :
    (buildWaferRunRecords program wafer results tally taxonomy metadata).filterMap ptr? =
      (byCoord results).flatMap fun result =>
        result.measurements.map (measurementPtr program) := by
  rw [filterMap_testRecords rfl (fun _ => rfl) (fun _ => rfl) (fun _ => rfl) (fun _ => rfl)
    (fun _ => rfl) fun _ => rfl]
  simp [ptr?, dieRecords, List.filterMap_map, Function.comp_def, List.filterMap_cons]

theorem ftrs_eq :
    (buildWaferRunRecords program wafer results tally taxonomy metadata).filterMap ftr? =
      (byCoord results).flatMap fun result => result.patterns.map patternFtr := by
  rw [filterMap_testRecords rfl (fun _ => rfl) (fun _ => rfl) (fun _ => rfl) (fun _ => rfl)
    (fun _ => rfl) fun _ => rfl]
  simp [ftr?, dieRecords, List.filterMap_map, Function.comp_def, List.filterMap_cons]

theorem tsrs_eq :
    (buildWaferRunRecords program wafer results tally taxonomy metadata).filterMap tsr? =
      program.tests.map (testTsr results) ++ program.patternGroups.map (groupTsr results) := by
  rw [filterMap_testRecords rfl (fun _ => rfl) (fun _ => rfl) (fun _ => rfl) (fun _ => rfl)
    (fun _ => rfl) fun _ => rfl]
  simp [tsr?, dieRecords, List.filterMap_map, Function.comp_def, List.filterMap_cons]

end

/-! ## What the records and the synopses count -/

/-- The verdicts of a die on the parametric tests. -/
def DieTestResult.measuredVerdicts (result : DieTestResult) : List (UInt32 × Bool) :=
  result.measurements.map fun measurement => (measurement.testNumber, measurement.passed)

/-- The verdicts of a die on the pattern groups. -/
def DieTestResult.patternVerdicts (result : DieTestResult) : List (UInt32 × Bool) :=
  result.patterns.map fun pattern => (pattern.testNumber, pattern.passed)

theorem measured_eq (number : UInt32) (result : DieTestResult) :
    result.measured number = verdictOn number result.measuredVerdicts := by
  rw [DieTestResult.measured, verdictOn, DieTestResult.measuredVerdicts, List.find?_map,
    Option.map_map]
  rfl

theorem ran_eq (number : UInt32) (result : DieTestResult) :
    result.ran number = verdictOn number result.patternVerdicts := by
  rw [DieTestResult.ran, verdictOn, DieTestResult.patternVerdicts, List.find?_map, Option.map_map]
  rfl

theorem testNum_measurementPtr (program : TestProgram) (measurement : MeasurementOutcome) :
    (measurementPtr program measurement).testNum = measurement.testNumber := by
  simp only [measurementPtr]
  split <;> rfl

theorem testFlg_measurementPtr (program : TestProgram) (measurement : MeasurementOutcome) :
    (measurementPtr program measurement).testFlg =
      if measurement.passed then 0 else TestFlg.testFailed := by
  cases hpassed : measurement.passed <;> simp [measurementPtr, hpassed, Ptr.measured]

theorem failed_measurementPtr (program : TestProgram) (measurement : MeasurementOutcome) :
    (measurementPtr program measurement).failed = !measurement.passed := by
  rw [Ptr.failed, testFlg_measurementPtr]
  cases measurement.passed <;> rfl

theorem failed_patternFtr (pattern : PatternOutcome) :
    (patternFtr pattern).failed = !pattern.passed := by
  cases hpassed : pattern.passed <;> simp only [Ftr.failed, patternFtr, Ftr.pattern, hpassed] <;>
    decide

section

variable {α β : Type} (results : List DieTestResult) (items : DieTestResult → List β)
  (record : β → α) (entry : β → UInt32 × Bool)

/-- The log of all dies, whose order does not matter, counts what the dies were reported
to have executed. -/
theorem countP_log {p : α → Bool} {q : UInt32 × Bool → Bool}
    (hcount : ∀ item, p (record item) = q (entry item)) :
    ((byCoord results).flatMap fun result => (items result).map record).countP p =
      (results.map fun result => (items result).map entry).flatten.countP q := by
  have hperm : (byCoord results).Perm results := List.mergeSort_perm _ _
  rw [← List.flatMap_def, ← List.map_flatMap, ← List.map_flatMap, List.countP_map,
    List.countP_map, (hperm.flatMap_right items).countP_eq]
  congr 1
  funext item
  exact hcount item

/-- A synopsis of the first verdicts of the dies. -/
theorem counts_synopsis_iff (verdicts : DieTestResult → List (UInt32 × Bool))
    (number : UInt32) :
    ((summarize results fun result => verdictOn number (verdicts result)).1.toNat =
          verdictsOn number (results.map verdicts).flatten ∧
        (summarize results fun result => verdictOn number (verdicts result)).2.toNat =
          failuresOn number (results.map verdicts).flatten) ↔
      CountersAgree number (results.map verdicts) := by
  rw [summarize_eq, CountersAgree, List.countP_map, List.countP_map]
  rfl

end

/-! ## Programs with distinct numbers -/

section

variable {program : TestProgram} {results : List DieTestResult}

/-- Each die executed the tests and the pattern groups of the program in their order. -/
def Executed (program : TestProgram) (result : DieTestResult) : Prop :=
  result.measurements.map (·.testNumber) = program.tests.map (·.testNumber) ∧
    result.patterns.map (·.testNumber) = program.patternGroups.map (·.testNumber)

theorem testNumbers_measure (failingItem : Option Nat) (index : Nat) (rng : Comm.Rng)
    (specs : List TestSpec) :
    (measure failingItem index rng specs).map (·.testNumber) = specs.map (·.testNumber) := by
  induction specs generalizing index rng with
  | nil => rfl
  | cons spec specs ih =>
      rw [measure, List.map_cons, List.map_cons, ih]

theorem testNumbers_runPatterns (failingItem : Option Nat) (index : Nat)
    (groups : List PatternGroup) :
    (runPatterns failingItem index groups).map (·.testNumber) = groups.map (·.testNumber) := by
  induction groups generalizing index with
  | nil => rfl
  | cons group groups ih => rw [runPatterns, List.map_cons, List.map_cons, ih]

/-- The simulator runs every test and every pattern of its program, in order. -/
theorem executed_testDie (tester : SimulatedTester) (coord : DieCoord) :
    Executed tester.program (tester.testDie coord) :=
  ⟨testNumbers_measure _ _ _ _, testNumbers_runPatterns _ _ _⟩

/-- The counters of all numbers agree exactly if no number comes twice and the dies fit 32 bits. -/
theorem countersAgree_numbers_iff {numbers : List UInt32}
    {verdicts : DieTestResult → List (UInt32 × Bool)}
    (hnumbers : ∀ result ∈ results, (verdicts result).map (·.1) = numbers) :
    (∀ number ∈ numbers, CountersAgree number (results.map verdicts)) ↔
      results = [] ∨ (numbers.Nodup ∧ (results.length < 2 ^ 32 ∨ numbers = [])) := by
  have hiff := forall_countersAgree_iff (List.forall_mem_map.mpr hnumbers)
  rwa [List.length_map, List.map_eq_nil_iff] at hiff

theorem map_measuredVerdicts (result : DieTestResult) :
    result.measuredVerdicts.map (·.1) = result.measurements.map (·.testNumber) :=
  List.map_map

theorem map_patternVerdicts (result : DieTestResult) :
    result.patternVerdicts.map (·.1) = result.patterns.map (·.testNumber) :=
  List.map_map

variable {wafer : WaferDieMap} {tally : BinTally} {taxonomy : BinTaxonomy} {metadata : RunMetadata}

/-- The records of the parametric tests, counted by number and by their fail bits. -/
theorem countP_ptrs (number : UInt32) :
    (((buildWaferRunRecords program wafer results tally taxonomy metadata).filterMap
          ptr?).countP (·.testNum == number) =
        verdictsOn number (results.map DieTestResult.measuredVerdicts).flatten) ∧
      ((buildWaferRunRecords program wafer results tally taxonomy metadata).filterMap
          ptr?).countP (fun r => r.testNum == number && r.failed) =
        failuresOn number (results.map DieTestResult.measuredVerdicts).flatten := by
  rw [ptrs_eq]
  constructor
  · apply countP_log results DieTestResult.measurements
    intro measurement
    rw [testNum_measurementPtr]
  · apply countP_log results DieTestResult.measurements
    intro measurement
    rw [testNum_measurementPtr, failed_measurementPtr]

/-- The same of the pattern groups. -/
theorem countP_ftrs (number : UInt32) :
    (((buildWaferRunRecords program wafer results tally taxonomy metadata).filterMap
          ftr?).countP (·.testNum == number) =
        verdictsOn number (results.map DieTestResult.patternVerdicts).flatten) ∧
      ((buildWaferRunRecords program wafer results tally taxonomy metadata).filterMap
          ftr?).countP (fun r => r.testNum == number && r.failed) =
        failuresOn number (results.map DieTestResult.patternVerdicts).flatten := by
  rw [ftrs_eq]
  constructor
  · apply countP_log results DieTestResult.patterns
    intro pattern
    rfl
  · apply countP_log results DieTestResult.patterns
    intro pattern
    rw [failed_patternFtr]
    rfl

theorem testTsr_eq (spec : TestSpec) :
    testTsr results spec =
      synopsis 0x50 spec.testNumber spec.name (summarize results fun result =>
        verdictOn spec.testNumber result.measuredVerdicts) := by
  simp only [testTsr, measured_eq]

theorem groupTsr_eq (group : PatternGroup) :
    groupTsr results group =
      synopsis 0x46 group.testNumber group.name (summarize results fun result =>
        verdictOn group.testNumber result.patternVerdicts) := by
  simp only [groupTsr, ran_eq]

/-- The parametric synopses are those of the tests. -/
theorem forall_parametric_iff {P : Tsr → Prop} :
    (∀ tsr ∈ (buildWaferRunRecords program wafer results tally taxonomy metadata).filterMap tsr?,
        tsr.testTyp = 0x50 → P tsr) ↔
      ∀ spec ∈ program.tests, P (testTsr results spec) := by
  rw [tsrs_eq, List.forall_mem_append, List.forall_mem_map, List.forall_mem_map]
  constructor
  · intro hall spec hspec
    exact hall.1 spec hspec rfl
  · intro htests
    refine ⟨fun spec hspec _ => htests spec hspec, fun group _ htyp => ?_⟩
    exact absurd htyp (by decide : (0x46 : UInt8) ≠ 0x50)

/-- The functional synopses are those of the pattern groups. -/
theorem forall_functional_iff {P : Tsr → Prop} :
    (∀ tsr ∈ (buildWaferRunRecords program wafer results tally taxonomy metadata).filterMap tsr?,
        tsr.testTyp = 0x46 → P tsr) ↔
      ∀ group ∈ program.patternGroups, P (groupTsr results group) := by
  rw [tsrs_eq, List.forall_mem_append, List.forall_mem_map, List.forall_mem_map]
  constructor
  · intro hall group hgroup
    exact hall.2 group hgroup rfl
  · intro hgroups
    refine ⟨fun spec _ htyp => ?_, fun group hgroup _ => hgroups group hgroup⟩
    exact absurd htyp (by decide : (0x50 : UInt8) ≠ 0x46)

/-- A synopsis counts what the dies were reported to have executed. -/
theorem synopsesMatch_iff_countersAgree :
    SynopsesMatch (buildWaferRunRecords program wafer results tally taxonomy metadata) ↔
      (∀ number ∈ program.tests.map (·.testNumber),
          CountersAgree number (results.map DieTestResult.measuredVerdicts)) ∧
        ∀ number ∈ program.patternGroups.map (·.testNumber),
          CountersAgree number (results.map DieTestResult.patternVerdicts) := by
  have hsynopses : SynopsesMatch
      (buildWaferRunRecords program wafer results tally taxonomy metadata) ↔ _ ∧ _ :=
    ⟨fun hmatch => ⟨hmatch.parametric, hmatch.functional⟩, fun hboth => ⟨hboth.1, hboth.2⟩⟩
  rw [hsynopses, forall_parametric_iff, forall_functional_iff, List.forall_mem_map,
    List.forall_mem_map]
  apply and_congr
  · apply forall₂_congr
    intro spec _
    rw [testTsr_eq, (countP_ptrs _).1, (countP_ptrs _).2]
    exact counts_synopsis_iff results _ _
  · apply forall₂_congr
    intro group _
    rw [groupTsr_eq, (countP_ftrs _).1, (countP_ftrs _).2]
    exact counts_synopsis_iff results _ _

/-- The synopses of executed programs. -/
theorem synopsesMatch_iff_distinct (hexecuted : ∀ result ∈ results, Executed program result) :
    SynopsesMatch (buildWaferRunRecords program wafer results tally taxonomy metadata) ↔
      results = [] ∨
        ((program.tests.map (·.testNumber)).Nodup ∧
          (program.patternGroups.map (·.testNumber)).Nodup ∧
          (results.length < 2 ^ 32 ∨ program.tests = [] ∧ program.patternGroups = [])) := by
  have hparametric := @countersAgree_numbers_iff results (program.tests.map (·.testNumber))
    DieTestResult.measuredVerdicts fun result hresult =>
      (map_measuredVerdicts result).trans (hexecuted result hresult).1
  have hfunctional := @countersAgree_numbers_iff results
    (program.patternGroups.map (·.testNumber)) DieTestResult.patternVerdicts
    fun result hresult => (map_patternVerdicts result).trans (hexecuted result hresult).2
  rw [synopsesMatch_iff_countersAgree, hparametric, hfunctional, List.map_eq_nil_iff,
    List.map_eq_nil_iff, ← or_and_left, and_and_and_comm, ← or_and_left, and_assoc]

end

/-- A die that a tester reported for a program. -/
def Tested (program : TestProgram) (result : DieTestResult) : Prop :=
  ∃ (tester : SimulatedTester) (coord : DieCoord),
    tester.program = program ∧ tester.testDie coord = result

/-- The synopses of a run match its records exactly if no two tests and no two pattern
groups of the program share a number, as long as the counters do not wrap around. A run
without dies, and one of an empty program, has nothing to count. -/
theorem synopsesMatch_iff {program : TestProgram} {results : List DieTestResult}
    (htested : ∀ result ∈ results, Tested program result) (wafer : WaferDieMap)
    (tally : BinTally) (taxonomy : BinTaxonomy) (metadata : RunMetadata) :
    SynopsesMatch (buildWaferRunRecords program wafer results tally taxonomy metadata) ↔
      results = [] ∨
        ((program.tests.map (·.testNumber)).Nodup ∧
          (program.patternGroups.map (·.testNumber)).Nodup ∧
          (results.length < 2 ^ 32 ∨ program.tests = [] ∧ program.patternGroups = [])) := by
  apply synopsesMatch_iff_distinct
  intro result hresult
  obtain ⟨tester, coord, rfl, rfl⟩ := htested result hresult
  exact executed_testDie tester coord

/-- A tester on which no die fails. -/
def flawlessTester (program : TestProgram) : SimulatedTester :=
  { program, taxonomy := .defaults, faults := { seed := 42, failRate := .zero, alwaysFail := [] } }

def flawlessDie (program : TestProgram) : DieTestResult :=
  (flawlessTester program).testDie ⟨0, 0⟩

theorem tested_flawlessDie (program : TestProgram) :
    ∀ result ∈ [flawlessDie program], Tested program result := by
  intro result hresult
  rw [List.mem_singleton.mp hresult]
  exact ⟨flawlessTester program, ⟨0, 0⟩, rfl, rfl⟩

def flawlessRecords (program : TestProgram) : List Record :=
  buildWaferRunRecords program twoSites [flawlessDie program] .empty .defaults
    (.default 1700000900 1700000900)

theorem synopsesMatch_iff_lenientProgram :
    SynopsesMatch (flawlessRecords lenientProgram) ↔
      [flawlessDie lenientProgram] = [] ∨
        ((lenientProgram.tests.map (·.testNumber)).Nodup ∧
          (lenientProgram.patternGroups.map (·.testNumber)).Nodup ∧
          ([flawlessDie lenientProgram].length < 2 ^ 32 ∨
            lenientProgram.tests = [] ∧ lenientProgram.patternGroups = [])) :=
  synopsesMatch_iff (tested_flawlessDie lenientProgram) twoSites .empty .defaults _

def doubledProgram : TestProgram :=
  { lenientProgram with tests := lenientProgram.tests ++ lenientProgram.tests }

/-- Both tests are executed and recorded, and both synopses count one execution. -/
theorem not_synopsesMatch_doubledProgram :
    (∀ result ∈ [flawlessDie doubledProgram], Tested doubledProgram result) ∧
      ¬ SynopsesMatch (flawlessRecords doubledProgram) := by
  refine ⟨tested_flawlessDie doubledProgram, ?_⟩
  have hexecuted : ∀ result ∈ [flawlessDie doubledProgram], Executed doubledProgram result := by
    intro result hresult
    rw [List.mem_singleton.mp hresult]
    exact executed_testDie (flawlessTester doubledProgram) ⟨0, 0⟩
  rw [flawlessRecords, synopsesMatch_iff_distinct hexecuted]
  intro hcase
  have hnodup := (hcase.resolve_left (List.cons_ne_nil _ _)).1
  exact absurd hnodup (by decide)

end Test

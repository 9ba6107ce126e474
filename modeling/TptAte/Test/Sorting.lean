import TptAte.Test.Wafer
import TptAte.Keyed.Counter

/-! # Sorting a wafer

The results of a wafer are sorted into the map, where a later result of a die takes
the place of an earlier one, and are counted in the tally, where each result counts.
Results that are not on a testable site are counted only.
-/

namespace Test

open Keyed

/-! ## Recording a result on the map -/

/-- What is known of a tested die. -/
def DieState.outcome? : DieState → Option DieTestOutcome
  | .tested outcome => some outcome
  | _ => none

namespace WaferDieMap

/-- Record the result for a die; `false` if there is no such site to test. -/
def record (wafer : WaferDieMap) (coord : DieCoord) (outcome : DieTestOutcome) :
    Bool × WaferDieMap :=
  match wafer.dies[coord]? with
  | some .untested | some (.tested _) =>
      (true, { wafer with dies := wafer.dies.insert coord (.tested outcome) })
  | _ => (false, wafer)

def states (wafer : WaferDieMap) : List DieState := wafer.dies.toList.map (·.2)

def countTested (counts : UInt32 × UInt32) : DieState → UInt32 × UInt32
  | .tested outcome => (counts.1 + 1, counts.2 + outcome.passed.toUInt32)
  | _ => counts

/-- How many dies are tested, and how many of them passed. -/
def testedCounts (wafer : WaferDieMap) : UInt32 × UInt32 := wafer.states.foldl countTested (0, 0)

def countBin (bin : DieTestOutcome → UInt16) (counts : Std.ExtTreeMap UInt16 UInt32) :
    DieState → Std.ExtTreeMap UInt16 UInt32
  | .tested outcome => bump counts (bin outcome)
  | _ => counts

/-- Dies per bin, over tested dies only. -/
def binCounts (wafer : WaferDieMap) (bin : DieTestOutcome → UInt16) :
    Std.ExtTreeMap UInt16 UInt32 :=
  wafer.states.foldl (countBin bin) ∅

def hardBinCounts (wafer : WaferDieMap) : Std.ExtTreeMap UInt16 UInt32 :=
  wafer.binCounts (·.hardBin)

def softBinCounts (wafer : WaferDieMap) : Std.ExtTreeMap UInt16 UInt32 :=
  wafer.binCounts (·.softBin)

def Testable (wafer : WaferDieMap) (coord : DieCoord) : Prop :=
  ∃ state ∈ wafer.dies[coord]?, state ≠ .excluded

instance (wafer : WaferDieMap) : DecidablePred wafer.Testable := fun coord =>
  match h : wafer.dies[coord]? with
  | none => isFalse (by simp [Testable, h])
  | some state => decidable_of_iff (state ≠ .excluded) (by simp [Testable, h])

def Fresh (wafer : WaferDieMap) : Prop :=
  ∀ (coord : DieCoord) (outcome : DieTestOutcome),
    wafer.dies[coord]? ≠ some (DieState.tested outcome)

/-- A site that can be tested takes its outcome. -/
theorem record_of_testable {wafer : WaferDieMap} {coord : DieCoord}
    (htestable : wafer.Testable coord) (outcome : DieTestOutcome) :
    wafer.record coord outcome =
      (true, { wafer with dies := wafer.dies.insert coord (.tested outcome) }) := by
  obtain ⟨state, hstate, hexcluded⟩ := htestable
  rw [Option.mem_def] at hstate
  rw [record, hstate]
  cases state with
  | excluded => exact absurd rfl hexcluded
  | _ => rfl

/-- Any other site takes nothing, and says so. -/
theorem record_of_not_testable {wafer : WaferDieMap} {coord : DieCoord}
    (htestable : ¬ wafer.Testable coord) (outcome : DieTestOutcome) :
    wafer.record coord outcome = (false, wafer) := by
  rw [record]
  cases hstate : wafer.dies[coord]? with
  | none => rfl
  | some state =>
      cases state with
      | excluded => rfl
      | _ => exact absurd ⟨_, hstate, by simp⟩ htestable

/-- A recorded result leaves the same sites testable. -/
theorem testable_insert {wafer : WaferDieMap} {coord : DieCoord}
    (htestable : wafer.Testable coord) (outcome : DieTestOutcome) (coord' : DieCoord) :
    Testable { wafer with dies := wafer.dies.insert coord (.tested outcome) } coord' ↔
      wafer.Testable coord' := by
  unfold Testable at htestable ⊢
  rw [Std.ExtTreeMap.getElem?_insert]
  by_cases h : coord = coord'
  · subst h
    simpa using htestable
  · simp [h]

/-! ## Counting the tested dies -/

/-- What is known of the tested dies. -/
def outcomes (wafer : WaferDieMap) : List DieTestOutcome := wafer.states.filterMap DieState.outcome?

def testedSites (wafer : WaferDieMap) : List (DieCoord × DieTestOutcome) :=
  wafer.dies.toList.filterMap fun entry => entry.2.outcome?.map (entry.1, ·)

theorem outcomes_eq (wafer : WaferDieMap) : wafer.outcomes = wafer.testedSites.map (·.2) := by
  unfold outcomes states testedSites
  rw [List.filterMap_map, List.map_filterMap]
  congr 1
  funext ⟨coord, state⟩
  cases state <;> rfl

theorem outcome?_eq_some_iff {state : DieState} {outcome : DieTestOutcome} :
    state.outcome? = some outcome ↔ state = .tested outcome := by
  cases state <;> simp [DieState.outcome?]

theorem mem_testedSites {wafer : WaferDieMap} {coord : DieCoord} {outcome : DieTestOutcome} :
    (coord, outcome) ∈ wafer.testedSites ↔ wafer.dies[coord]? = some (.tested outcome) := by
  simp [testedSites, outcome?_eq_some_iff]

theorem nodup_testedSites (wafer : WaferDieMap) : wafer.testedSites.Nodup := by
  apply (nodup_toList wafer.dies).filterMap
  rintro ⟨coord, state⟩ ⟨coord', state'⟩ ⟨site, outcome⟩ hfirst hsecond
  simp only [Option.mem_def, Option.map_eq_some_iff, outcome?_eq_some_iff, Prod.mk.injEq]
    at hfirst hsecond
  obtain ⟨_, rfl, rfl, rfl⟩ := hfirst
  obtain ⟨_, rfl, rfl, rfl⟩ := hsecond
  rfl

theorem toUInt32_eq (passed : Bool) : passed.toUInt32 = UInt32.ofNat (if passed then 1 else 0) := by
  cases passed <;> rfl

/-- The loop over the states counts the tested and the passed, to 32 bits. -/
theorem foldl_countTested (states : List DieState) (counts : UInt32 × UInt32) :
    states.foldl countTested counts =
      (counts.1 + UInt32.ofNat (states.filterMap DieState.outcome?).length,
        counts.2 + UInt32.ofNat ((states.filterMap DieState.outcome?).countP (·.passed))) := by
  induction states generalizing counts with
  | nil => simp
  | cons state states ih =>
      rw [List.foldl_cons, ih]
      cases state with
      | tested outcome =>
          simp [countTested, DieState.outcome?, List.countP_cons, toUInt32_eq, UInt32.ofNat_add,
            add_comm, add_assoc]
      | _ => rfl

theorem testedCounts_eq (wafer : WaferDieMap) :
    wafer.testedCounts =
      (UInt32.ofNat wafer.outcomes.length, UInt32.ofNat (wafer.outcomes.countP (·.passed))) := by
  rw [testedCounts, foldl_countTested]
  simp [outcomes]

theorem foldl_countBin (bin : DieTestOutcome → UInt16) (states : List DieState)
    (counts : Std.ExtTreeMap UInt16 UInt32) :
    states.foldl (countBin bin) counts =
      ((states.filterMap DieState.outcome?).map bin).foldl bump counts := by
  induction states generalizing counts with
  | nil => rfl
  | cons state states ih =>
      rw [List.foldl_cons, ih]
      cases state <;> rfl

/-- The bins count the outcomes. -/
theorem binCounts_eq (wafer : WaferDieMap) (bin : DieTestOutcome → UInt16) :
    wafer.binCounts bin = countAll (wafer.outcomes.map bin) :=
  foldl_countBin bin wafer.states ∅

end WaferDieMap

/-! ## Sorting -/

/-- What a result puts on the map. -/
def DieTestResult.outcome (result : DieTestResult) (program : TestProgram)
    (taxonomy : BinTaxonomy) : DieTestOutcome :=
  let assignment := sortDie result program taxonomy
  { passed := assignment.passed, hardBin := assignment.hardBin, softBin := assignment.softBin }

/-- One result: it is recorded on its site, or counted as one without a place. -/
def sortOne (program : TestProgram) (taxonomy : BinTaxonomy) (sorted : UInt32 × WaferDieMap)
    (result : DieTestResult) : UInt32 × WaferDieMap :=
  let assignment := sortDie result program taxonomy
  let (placed, wafer) := sorted.2.record assignment.coord (result.outcome program taxonomy)
  (if placed then sorted.1 else sorted.1 + 1, wafer)

/-- Sort the results of a wafer into its map; returns how many of them have no place
there. -/
def sortWafer (results : List DieTestResult) (wafer : WaferDieMap) (program : TestProgram)
    (taxonomy : BinTaxonomy) : UInt32 × WaferDieMap :=
  results.foldl (sortOne program taxonomy) (0, wafer)

def WaferDieMap.onSites (wafer : WaferDieMap) (results : List DieTestResult) :
    List DieTestResult :=
  results.filter (wafer.Testable ·.coord)

def WaferDieMap.offSites (wafer : WaferDieMap) (results : List DieTestResult) :
    List DieTestResult :=
  results.filter (¬ wafer.Testable ·.coord)

section

variable (program : TestProgram) (taxonomy : BinTaxonomy) (wafer : WaferDieMap)

theorem coord_sortDie (result : DieTestResult) :
    (sortDie result program taxonomy).coord = result.coord := by
  unfold sortDie assignFail
  split
  · rfl
  split
  · rfl
  split <;> rfl

def WaferDieMap.place (result : DieTestResult) : WaferDieMap :=
  { wafer with dies := wafer.dies.insert result.coord (.tested (result.outcome program taxonomy)) }

variable {wafer} {result : DieTestResult}

theorem sortOne_of_testable (unmatched : UInt32) (htestable : wafer.Testable result.coord) :
    sortOne program taxonomy (unmatched, wafer) result =
      (unmatched, wafer.place program taxonomy result) := by
  rw [sortOne, coord_sortDie, WaferDieMap.record_of_testable htestable]
  rfl

theorem sortOne_of_not_testable (unmatched : UInt32) (htestable : ¬ wafer.Testable result.coord) :
    sortOne program taxonomy (unmatched, wafer) result = (unmatched + 1, wafer) := by
  rw [sortOne, coord_sortDie, WaferDieMap.record_of_not_testable htestable]
  rfl

theorem offSites_place (htestable : wafer.Testable result.coord) (results : List DieTestResult) :
    (wafer.place program taxonomy result).offSites results = wafer.offSites results := by
  unfold WaferDieMap.offSites
  congr 1
  funext other
  simp only [WaferDieMap.place, WaferDieMap.testable_insert htestable]

variable (wafer) (results : List DieTestResult)

/-- The results without a place are counted. -/
theorem fst_foldl_sortOne (unmatched : UInt32) :
    (results.foldl (sortOne program taxonomy) (unmatched, wafer)).1 =
      unmatched + UInt32.ofNat (wafer.offSites results).length := by
  induction results generalizing unmatched wafer with
  | nil => simp [WaferDieMap.offSites]
  | cons result results ih =>
      rw [List.foldl_cons]
      by_cases htestable : wafer.Testable result.coord
      · rw [sortOne_of_testable program taxonomy unmatched htestable, ih,
          offSites_place program taxonomy htestable]
        simp [WaferDieMap.offSites, htestable]
      · rw [sortOne_of_not_testable program taxonomy unmatched htestable, ih]
        simp [WaferDieMap.offSites, htestable, UInt32.ofNat_add, add_comm, add_assoc]

/-- The results without a site to be tested are counted, to 32 bits. -/
theorem fst_sortWafer {program : TestProgram} {taxonomy : BinTaxonomy} {wafer : WaferDieMap}
    {results : List DieTestResult} :
    (sortWafer results wafer program taxonomy).1 =
      UInt32.ofNat (wafer.offSites results).length := by
  rw [sortWafer, fst_foldl_sortOne, UInt32.zero_add]

/-- The tally counts each result. -/
theorem tally_eq :
    tally results program taxonomy =
      { totalTested := UInt32.ofNat results.length
        totalPassed :=
          UInt32.ofNat (results.countP fun result => (result.outcome program taxonomy).passed)
        hardBins := countAll (results.map fun result => (result.outcome program taxonomy).hardBin)
        softBins := countAll (results.map fun result => (result.outcome program taxonomy).softBin)
        aborted := UInt32.ofNat (results.countP (·.aborted)) } := by
  have hfold (out : BinTally) :
      results.foldl (fun out result =>
          let assignment := sortDie result program taxonomy
          let out := out.record assignment.passed assignment.hardBin assignment.softBin
          if result.aborted then { out with aborted := out.aborted + 1 } else out) out =
        { totalTested := out.totalTested + UInt32.ofNat results.length
          totalPassed := out.totalPassed +
            UInt32.ofNat (results.countP fun result => (result.outcome program taxonomy).passed)
          hardBins := (results.map fun result =>
            (result.outcome program taxonomy).hardBin).foldl bump out.hardBins
          softBins := (results.map fun result =>
            (result.outcome program taxonomy).softBin).foldl bump out.softBins
          aborted := out.aborted + UInt32.ofNat (results.countP (·.aborted)) } := by
    induction results generalizing out with
    | nil => simp
    | cons result results ih =>
        rw [List.foldl_cons, ih]
        cases haborted : result.aborted <;>
          simp [BinTally.record, haborted, List.countP_cons, DieTestResult.outcome, bump,
            WaferDieMap.toUInt32_eq, UInt32.ofNat_add, add_comm, add_assoc]
  rw [tally, hfold]
  simp [BinTally.empty, countAll]

end

end Test

import TptAte.Test.Faults

/-! # Wafers that are a grid

The synthetic wafer is a grid of columns and rows. A run reports it column by column. Two bytes
hold a coordinate in a report, so that the host can tell at most 65536 columns and as many rows
apart.
-/

namespace Test

open Secs Wire Duplex Keyed

/-! ## The grid -/

/-- The numbers below a bound in ascending order, none if it is negative. -/
def below (bound : Int32) : List Int32 := (List.range bound.toInt.toNat).map Int32.ofNat

/-- A grid of testable dies around its middle. -/
def WaferDieMap.rectangular (waferId : String) (cols rows : Int32)
    (dieWidthMils dieHeightMils : F32) : WaferDieMap :=
  { waferId
    dies := (below cols).foldl
      (fun dies x => (below rows).foldl (fun dies y => dies.insert ⟨x, y⟩ .untested) dies) ∅
    dieHeightMils
    dieWidthMils
    center := ⟨cols / 2, rows / 2⟩ }

def grid (cols rows : Int32) : List DieCoord :=
  (below cols).flatMap fun x => (below rows).map fun y => ⟨x, y⟩

/-- As many of the columns or rows as two bytes can tell apart. -/
def side (bound : Int32) : Int32 := if 65536 < bound then 65536 else bound

theorem toInt_ofNat_of_lt {bound : Int32} {value : Nat} (hlt : value < bound.toInt.toNat) :
    (Int32.ofNat value).toInt = value := by
  have hmax := bound.toInt_lt
  exact Int32.toInt_ofNat_of_lt (by omega)

/-- The numbers below a bound are those from 0 up to it; there are none below a negative one. -/
theorem mem_below {bound value : Int32} :
    value ∈ below bound ↔ 0 ≤ value.toInt ∧ value.toInt < bound.toInt := by
  rw [below, List.mem_map]
  constructor
  · rintro ⟨index, hindex, rfl⟩
    rw [List.mem_range] at hindex
    rw [toInt_ofNat_of_lt hindex]
    omega
  · rintro ⟨hnonneg, hlt⟩
    have hindex : value.toInt.toNat < bound.toInt.toNat := by omega
    refine ⟨value.toInt.toNat, List.mem_range.mpr hindex, ?_⟩
    rw [← Int32.toInt_inj, toInt_ofNat_of_lt hindex]
    omega

/-- The numbers below a bound come in order. -/
theorem pairwise_below (bound : Int32) :
    (below bound).Pairwise fun a b => compare a b = .lt := by
  rw [below, List.pairwise_map]
  refine List.Pairwise.imp_of_mem ?_ List.pairwise_lt_range
  intro a b ha hb hlt
  rw [Std.compare_eq_lt, Int32.lt_iff_toInt_lt, toInt_ofNat_of_lt (List.mem_range.mp ha),
    toInt_ofNat_of_lt (List.mem_range.mp hb)]
  omega

theorem length_below (bound : Int32) : (below bound).length = bound.toInt.toNat := by
  rw [below, List.length_map, List.length_range]

theorem toInt_side (bound : Int32) : (side bound).toInt = min bound.toInt 65536 := by
  have hside : (65536 : Int32).toInt = 65536 := rfl
  rw [side]
  split
  next hlt =>
    rw [Int32.lt_iff_toInt_lt, hside] at hlt
    omega
  next hle =>
    rw [Int32.lt_iff_toInt_lt, hside] at hle
    omega

/-- The first number that two bytes cannot hold. -/
theorem first_mem_below {bound : Int32} : 65536 ∈ below bound ↔ 65536 < bound.toInt := by
  have hfirst : (65536 : Int32).toInt = 65536 := rfl
  rw [mem_below, hfirst]
  omega

theorem first_not_mem_side {bound : Int32} : 65536 ∉ below (side bound) := by
  rw [first_mem_below, toInt_side]
  omega

section Grid

variable {cols rows : Int32}

/-- A die is on the grid exactly if both coordinates are. -/
theorem mem_grid {coord : DieCoord} :
    coord ∈ grid cols rows ↔ coord.x ∈ below cols ∧ coord.y ∈ below rows := by
  simp only [grid, List.mem_flatMap, List.mem_map]
  constructor
  · rintro ⟨x, hx, y, hy, rfl⟩
    exact ⟨hx, hy⟩
  · rintro ⟨hx, hy⟩
    exact ⟨coord.x, hx, coord.y, hy, rfl⟩

/-- The dies of the grid come in the order of the map. -/
theorem pairwise_grid (cols rows : Int32) :
    (grid cols rows).Pairwise fun a b => compare a b = .lt := by
  rw [grid, List.pairwise_flatMap]
  constructor
  · intro x _
    rw [List.pairwise_map]
    refine (pairwise_below rows).imp fun {y y'} hlt => ?_
    have hself : compare x x = .eq := Std.ReflCmp.compare_self
    rw [DieCoord.compare_eq, hlt, hself]
    rfl
  · refine (pairwise_below cols).imp fun {x x'} hlt => ?_
    intro coord hcoord coord' hcoord'
    obtain ⟨y, -, rfl⟩ := List.mem_map.mp hcoord
    obtain ⟨y', -, rfl⟩ := List.mem_map.mp hcoord'
    rw [DieCoord.compare_eq, hlt]
    rfl

/-- The grid has as many dies as columns times rows. -/
theorem length_grid (cols rows : Int32) :
    (grid cols rows).length = cols.toInt.toNat * rows.toInt.toNat := by
  simp only [grid, List.length_flatMap, List.length_map, length_below]
  rw [List.map_const', List.sum_replicate, length_below]
  rfl

end Grid

/-! ## The wafer -/

section Wafer

variable {waferId : String} {cols rows : Int32} {dieWidthMils dieHeightMils : F32}

theorem dies_rectangular :
    (WaferDieMap.rectangular waferId cols rows dieWidthMils dieHeightMils).dies =
      (grid cols rows).foldl (fun dies coord => dies.insert coord .untested) ∅ := by
  rw [grid, List.foldl_flatMap]
  simp only [List.foldl_map]
  rfl

theorem getElem?_insertAll (coords : List DieCoord) (coord : DieCoord) :
    (coords.foldl (fun dies coord => dies.insert coord DieState.untested)
      (∅ : Std.ExtTreeMap DieCoord DieState))[coord]? =
        if coord ∈ coords then some DieState.untested else none := by
  induction coords using List.reverseRecOn with
  | nil => simp
  | append_singleton coords last ih =>
      rw [List.foldl_append, List.foldl_cons, List.foldl_nil, Std.ExtTreeMap.getElem?_insert, ih]
      simp only [Std.LawfulEqCmp.compare_eq_iff_eq, List.mem_append, List.mem_singleton]
      by_cases hsame : last = coord
      · simp [hsame]
      · simp [hsame, Ne.symm hsame]

theorem getElem?_rectangular (coord : DieCoord) :
    (WaferDieMap.rectangular waferId cols rows dieWidthMils dieHeightMils).dies[coord]? =
      if coord ∈ grid cols rows then some DieState.untested else none := by
  rw [dies_rectangular, getElem?_insertAll]

theorem mem_rectangular (coord : DieCoord) :
    coord ∈ (WaferDieMap.rectangular waferId cols rows dieWidthMils dieHeightMils).dies ↔
      coord ∈ grid cols rows := by
  rw [Std.ExtTreeMap.mem_iff_isSome_getElem?, getElem?_rectangular]
  split
  next hmem => exact iff_of_true rfl hmem
  next hnot => exact iff_of_false (by simp) hnot

/-- The sites of a rectangular wafer are the grid. -/
theorem coords_rectangular :
    (WaferDieMap.rectangular waferId cols rows dieWidthMils dieHeightMils).coords =
      grid cols rows := by
  apply eq_of_ascending (WaferDieMap.pairwise_coords _) (pairwise_grid cols rows)
  intro coord
  rw [WaferDieMap.mem_coords, mem_rectangular]

theorem fresh_rectangular :
    (WaferDieMap.rectangular waferId cols rows dieWidthMils dieHeightMils).Fresh := by
  intro coord outcome htested
  rw [getElem?_rectangular] at htested
  split at htested <;> cases htested

end Wafer

/-! ## What two bytes tell apart -/

/-- The coordinates reported for a side are those below its first 65536. -/
theorem exists_reported_below {bound value : Int32} :
    (∃ value' ∈ below bound, value'.toUInt32.toUInt16.toUInt32.toInt32 = value) ↔
      value ∈ below (side bound) := by
  rw [mem_below, toInt_side]
  constructor
  · rintro ⟨value', hmem, rfl⟩
    rw [mem_below] at hmem
    rw [toInt_toUInt16]
    omega
  · intro hvalue
    refine ⟨value, mem_below.mpr (by omega), ?_⟩
    rw [toInt32_toUInt16_iff, FitsU2]
    omega

/-- The locations of a grid are read as those of its part that two bytes hold. -/
theorem exists_reported_grid {cols rows : Int32} {coord : DieCoord} :
    (∃ coord' ∈ grid cols rows, reportedCoord coord' = coord) ↔
      coord ∈ grid (side cols) (side rows) := by
  rw [mem_grid, ← exists_reported_below, ← exists_reported_below]
  constructor
  · rintro ⟨coord', hcoord', rfl⟩
    rw [mem_grid] at hcoord'
    exact ⟨⟨_, hcoord'.1, rfl⟩, _, hcoord'.2, rfl⟩
  · rintro ⟨⟨x, hx, hx'⟩, y, hy, hy'⟩
    refine ⟨⟨x, y⟩, mem_grid.mpr ⟨hx, hy⟩, ?_⟩
    rw [reportedCoord, hx', hy']

section Told

variable {tester : SimulatedTester} {cols rows : Int32}

/-- The host has an outcome for each location that a report is read as. -/
theorem mem_gemResults {coords : List DieCoord} {coord : DieCoord} :
    coord ∈ gemResults (coords.map (dieEvent tester) ++ [(1, Ceid.waferDone, [])]) ↔
      ∃ coord' ∈ coords, reportedCoord coord' = coord := by
  have hdone (results : Std.ExtTreeMap DieCoord DieTestOutcome) :
      insertReported results (1, Ceid.waferDone, []) = results := rfl
  rw [gemResults, List.foldl_append, List.foldl_cons, List.foldl_nil, hdone]
  induction coords using List.reverseRecOn with
  | nil => simp
  | append_singleton coords last ih =>
      rw [List.map_append, List.foldl_append, List.map_singleton, List.foldl_cons, List.foldl_nil,
        insertReported, reportedDie_dieEvent]
      rw [Std.ExtTreeMap.mem_insert]
      apply (or_congr Iff.rfl ih).trans
      simp only [Std.LawfulEqCmp.compare_eq_iff_eq, List.mem_append, List.mem_singleton,
        or_and_right, exists_or, exists_eq_left]
      exact or_comm

/-- The host knows of a grid as many dies as two bytes can tell apart. -/
theorem size_gemResults (tester : SimulatedTester) (cols rows : Int32) :
    (gemResults ((grid cols rows).map (dieEvent tester) ++ [(1, Ceid.waferDone, [])])).size =
      min cols.toInt.toNat 65536 * min rows.toInt.toNat 65536 := by
  rw [← Std.ExtTreeMap.length_keys]
  have hkeys : (gemResults ((grid cols rows).map (dieEvent tester) ++
      [(1, Ceid.waferDone, [])])).keys = grid (side cols) (side rows) := by
    apply eq_of_ascending Std.ExtTreeMap.ordered_keys (pairwise_grid _ _)
    intro coord
    rw [Std.ExtTreeMap.mem_keys, mem_gemResults, exists_reported_grid]
  rw [hkeys, length_grid, toInt_side, toInt_side]
  congr 1 <;> omega

/-- Two bytes can hold the coordinates of a grid. -/
def SidesFit (cols rows : Int32) : Prop := cols.toInt ≤ 65536 ∧ rows.toInt ≤ 65536

theorem fits_of_sidesFit (hfit : SidesFit cols rows) {coord : DieCoord}
    (hcoord : coord ∈ grid cols rows) : FitsU2 coord.x ∧ FitsU2 coord.y := by
  obtain ⟨hcols, hrows⟩ := hfit
  rw [mem_grid, mem_below, mem_below] at hcoord
  rw [FitsU2, FitsU2]
  omega

/-- Every die of a grid is read with its own location if and only if two bytes can hold the
coordinates, or there is no die. -/
theorem grid_subset_iff :
    (∀ coord ∈ grid cols rows, coord ∈ grid (side cols) (side rows)) ↔
      grid cols rows = [] ∨ SidesFit cols rows := by
  constructor
  · intro hsubset
    apply or_iff_not_imp_left.mpr
    intro hne
    obtain ⟨coord, hcoord⟩ := List.exists_mem_of_ne_nil _ hne
    rw [mem_grid] at hcoord
    constructor
    · apply Int.not_lt.mp
      intro hlt
      have hmem := hsubset ⟨65536, coord.y⟩
        (mem_grid.mpr ⟨first_mem_below.mpr hlt, hcoord.2⟩)
      exact first_not_mem_side (mem_grid.mp hmem).1
    · apply Int.not_lt.mp
      intro hlt
      have hmem := hsubset ⟨coord.x, 65536⟩
        (mem_grid.mpr ⟨hcoord.1, first_mem_below.mpr hlt⟩)
      exact first_not_mem_side (mem_grid.mp hmem).2
  · rintro (hnil | hfit) coord hcoord
    · rw [hnil] at hcoord
      cases hcoord
    · obtain ⟨hx, hy⟩ := fits_of_sidesFit hfit hcoord
      exact exists_reported_grid.mp ⟨coord, hcoord, reportedCoord_eq_self.mpr ⟨hx, hy⟩⟩

/-- The host knows the outcome of every die. -/
theorem knows_grid_iff :
    (∀ coord ∈ grid cols rows, (gemResults ((grid cols rows).map (dieEvent tester) ++
        [(1, Ceid.waferDone, [])]))[coord]? = some (tester.outcome coord)) ↔
      grid cols rows = [] ∨ SidesFit cols rows := by
  constructor
  · intro hknown
    apply grid_subset_iff.mp
    intro coord hcoord
    rw [← exists_reported_grid, ← @mem_gemResults tester, Std.ExtTreeMap.mem_iff_isSome_getElem?,
      hknown coord hcoord]
    rfl
  · rintro (hnil | hfit) coord hcoord
    · rw [hnil] at hcoord
      cases hcoord
    · rw [getElem?_gemResults fun coord => fits_of_sidesFit hfit, if_pos hcoord]

end Told

/-! ## A run of a grid -/

/-- What a run of a grid amounts to. -/
structure GridRun (tester : SimulatedTester) (wafer : WaferDieMap) (cols rows : Int32)
    (events : List EventReport) : Prop where
  reported : events = (grid cols rows).map (dieEvent tester) ++ [(1, Ceid.waferDone, [])]
  told : (gemResults events).size = min cols.toInt.toNat 65536 * min rows.toInt.toNat 65536
  knows : (∀ coord ∈ grid cols rows, (gemResults events)[coord]? = some (tester.outcome coord)) ↔
    grid cols rows = [] ∨ SidesFit cols rows
  unmatched : (sortWafer (tester.results wafer) wafer tester.program tester.taxonomy).1 = 0
  tested : cols.toInt.toNat * rows.toInt.toNat < 2 ^ 32 →
    (tester.sorted wafer).testedCounts.1.toNat = cols.toInt.toNat * rows.toInt.toNat
  failed : cols.toInt.toNat * rows.toInt.toNat < 2 ^ 32 →
    (tester.sorted wafer).testedCounts.2.toNat +
        (grid cols rows).countP (tester.Fails · ∧ 0 < tester.program.itemCount) =
      cols.toInt.toNat * rows.toInt.toNat

section Run

variable {waferId : String} {cols rows : Int32} {dieWidthMils dieHeightMils : F32}
  {tester : SimulatedTester}

theorem testable_rectangular (coord : DieCoord) :
    (WaferDieMap.rectangular waferId cols rows dieWidthMils dieHeightMils).Testable coord ↔
      coord ∈ grid cols rows := by
  rw [WaferDieMap.Testable, getElem?_rectangular]
  split
  next hmem => simp [hmem]
  next hnot => simp [hnot]

theorem results_rectangular :
    tester.results (.rectangular waferId cols rows dieWidthMils dieHeightMils) =
      (grid cols rows).map tester.testDie := by
  rw [SimulatedTester.results, coords_rectangular]

theorem onSites_rectangular :
    (WaferDieMap.rectangular waferId cols rows dieWidthMils dieHeightMils).onSites
      ((grid cols rows).map tester.testDie) = (grid cols rows).map tester.testDie := by
  rw [WaferDieMap.onSites, List.filter_eq_self, List.forall_mem_map]
  intro coord hcoord
  exact decide_eq_true ((testable_rectangular coord).mpr hcoord)

theorem offSites_rectangular :
    (WaferDieMap.rectangular waferId cols rows dieWidthMils dieHeightMils).offSites
      ((grid cols rows).map tester.testDie) = [] := by
  rw [WaferDieMap.offSites, List.filter_eq_nil_iff, List.forall_mem_map]
  intro coord hcoord
  have htestable := (@testable_rectangular waferId cols rows dieWidthMils dieHeightMils
    coord).mpr hcoord
  rw [coord_testDie]
  simpa using htestable

/-- The map shows in the end the outcome of each die of the grid. -/
theorem outcomes_rectangular :
    (tester.sorted (.rectangular waferId cols rows dieWidthMils dieHeightMils)).outcomes.Perm
      ((grid cols rows).map tester.outcome) := by
  have hnodup : (((grid cols rows).map tester.testDie).map (·.coord)).Nodup := by
    rw [List.map_map]
    have hid : (grid cols rows).map (DieTestResult.coord ∘ tester.testDie) = grid cols rows :=
      List.map_id _
    rw [hid]
    exact (pairwise_grid cols rows).imp fun hlt heq => by simp [heq] at hlt
  have hperm := outcomes_sortWafer tester.program tester.taxonomy
    ((grid cols rows).map tester.testDie)
    (@fresh_rectangular waferId cols rows dieWidthMils dieHeightMils)
  rw [onSites_rectangular, latest_eq_self DieTestResult.coord hnodup, List.map_map] at hperm
  rw [SimulatedTester.sorted, results_rectangular]
  exact hperm

/-- The dies that pass and those that the fault model lets fail are all there are. -/
theorem countP_passed_add_failed :
    ((grid cols rows).map tester.outcome).countP (·.passed) +
        (grid cols rows).countP (tester.Fails · ∧ 0 < tester.program.itemCount) =
      (grid cols rows).length := by
  rw [List.countP_map, List.length_eq_countP_add_countP fun coord => (tester.outcome coord).passed]
  congr 2
  funext coord
  simp [← SimulatedTester.passed_outcome]

/-- A run over a rectangular wafer reports the grid and then the end of the wafer. -/
theorem gridRun_rectangular :
    GridRun tester (.rectangular waferId cols rows dieWidthMils dieHeightMils) cols rows
      ((grid cols rows).map (dieEvent tester) ++ [(1, Ceid.waferDone, [])]) := by
  have hperm := @outcomes_rectangular waferId cols rows dieWidthMils dieHeightMils tester
  have hlength : ((grid cols rows).map tester.outcome).length =
      cols.toInt.toNat * rows.toInt.toNat := by
    rw [List.length_map, length_grid]
  constructor
  · rfl
  · exact size_gemResults tester cols rows
  · exact knows_grid_iff
  · rw [fst_sortWafer, results_rectangular, offSites_rectangular]
    rfl
  · intro hcount
    rw [WaferDieMap.testedCounts_eq, hperm.length_eq, hlength]
    exact UInt32.toNat_ofNat_of_lt' hcount
  · intro hcount
    have hpassed : ((grid cols rows).map tester.outcome).countP (·.passed) < 2 ^ 32 := by
      apply List.countP_le_length.trans_lt
      rwa [hlength]
    rw [WaferDieMap.testedCounts_eq, hperm.countP_eq, UInt32.toNat_ofNat_of_lt' hpassed,
      countP_passed_add_failed, length_grid]

/-- Over the transport, a grid is reported column by column. The host knows of as many dies as
two bytes can tell apart, and of each die its outcome exactly if the sides of the grid fit or it
has no die. All results have a place on the map, where those pass that the fault model does
not let fail. -/
theorem reports_grid (tester : SimulatedTester) (waferId : String) (cols rows : Int32)
    (dieWidthMils dieHeightMils : F32) (sessionId sessionId' : UInt16) :
    ∃ events, Comm.Delivers (collectParty sessionId)
        (testerParty tester (.rectangular waferId cols rows dieWidthMils dieHeightMils) sessionId')
        (.ok ((("TPT-SIM-ATE", "0.1.0"), true), events)) (.ok ()) ∧
      GridRun tester (.rectangular waferId cols rows dieWidthMils dieHeightMils) cols rows
        events := by
  obtain ⟨after', hmeets⟩ := meets_collectWafer tester (.new sessionId) (.new sessionId')
    (.rectangular waferId cols rows dieWidthMils dieHeightMils)
  refine ⟨_, hmeets.delivers ends_collectWafer (tester.ends_runWaferOverHsms _), ?_⟩
  rw [coords_rectangular]
  exact gridRun_rectangular

end Run

end Test

import TptAte.Secs.Parties
import TptAte.Test.DieReport
import TptAte.Test.Frame
import TptAte.Test.Recordable
import TptAte.Test.WaferRun

/-! # Wafer runs that are recovered from their file

The tester reports a wafer over the in-memory transport, and the same results are sorted
into the map and recorded. What is read back from the file is what the host was told of
each die, except that nothing is read of the sites that are excluded from the map.
-/

namespace Test

open Secs Wire Duplex Program Stdf StdfWriter Keyed

/-! ## The programs as parties -/

theorem ends_greet : greet.Ends :=
  ends_select.bind fun _ => Ends.onlineData.bind fun _ =>
    Ends.establishCommunications.bind fun _ => ends_pure _

theorem ends_collect (events : List EventReport) : (collect events).Ends :=
  ends_loop (fun _ => Ends.receiveEventReport.bind fun _ => ends_pure _) events

theorem ends_collectWafer : collectWafer.Ends :=
  ends_greet.bind fun _ => (ends_collect []).bind fun _ => ends_pure _

namespace SimulatedTester

theorem ends_reportDies (tester : SimulatedTester) (coords : List DieCoord) :
    (tester.reportDies coords).Ends := by
  induction coords with
  | nil => exact ends_pure _
  | cons coord coords ih => exact (Ends.sendEventReport _ _ _).bind fun _ => ih

theorem ends_runWaferOverHsms (tester : SimulatedTester) (wafer : WaferDieMap) :
    (tester.runWaferOverHsms wafer).Ends :=
  (Ends.accept _).bind fun _ => (tester.ends_reportDies wafer.coords).bind fun _ =>
    Ends.sendEventReport _ _ _

end SimulatedTester

def collectParty (sessionId : UInt16) :
    Ending UInt8 UInt8 (Except Stop (((String × String) × Bool) × List EventReport)) :=
  collectWafer.party ends_collectWafer (.new sessionId)

def testerParty (tester : SimulatedTester) (wafer : WaferDieMap) (sessionId : UInt16) :
    Ending UInt8 UInt8 (Except Stop Unit) :=
  (tester.runWaferOverHsms wafer).party (tester.ends_runWaferOverHsms wafer) (.new sessionId)

/-! ## What the host was told -/

/-- The die and the outcome that an event reports. -/
def reportedDie : EventReport → Option (DieCoord × DieTestOutcome)
  | (_, ceid, [(_, vlist)]) =>
      if ceid = Ceid.dieTested then (decodeDieReport vlist).toOption else none
  | _ => none

/-- One more event: what it reports replaces what was known of the die. -/
def insertReported (results : Std.ExtTreeMap DieCoord DieTestOutcome) (event : EventReport) :
    Std.ExtTreeMap DieCoord DieTestOutcome :=
  match reportedDie event with
  | some (coord, outcome) => results.insert coord outcome
  | none => results

def gemResults (events : List EventReport) : Std.ExtTreeMap DieCoord DieTestOutcome :=
  events.foldl insertReported ∅

section Reported

variable {tester : SimulatedTester} {coords : List DieCoord}

theorem reportedDie_dieEvent (coord : DieCoord) :
    reportedDie (dieEvent tester coord) = some (reportedCoord coord, tester.outcome coord) := rfl

/-- The host knows of the dies that were reported what the tester reported. -/
theorem getElem?_gemResults (hcoords : ∀ coord ∈ coords, FitsU2 coord.x ∧ FitsU2 coord.y)
    (coord : DieCoord) :
    (gemResults (coords.map (dieEvent tester) ++ [(1, Ceid.waferDone, [])]))[coord]? =
      if coord ∈ coords then some (tester.outcome coord) else none := by
  have hdone (results : Std.ExtTreeMap DieCoord DieTestOutcome) :
      insertReported results (1, Ceid.waferDone, []) = results := rfl
  rw [gemResults, List.foldl_append, List.foldl_cons, List.foldl_nil, hdone]
  induction coords using List.reverseRecOn with
  | nil => simp
  | append_singleton coords last ih =>
      rw [List.forall_mem_append, List.forall_mem_singleton] at hcoords
      have hlast : reportedCoord last = last := reportedCoord_eq_self.mpr hcoords.2
      rw [List.map_append, List.foldl_append, List.map_singleton, List.foldl_cons, List.foldl_nil,
        insertReported, reportedDie_dieEvent, hlast]
      rw [Std.ExtTreeMap.getElem?_insert, ih hcoords.1]
      simp only [Std.LawfulEqCmp.compare_eq_iff_eq, List.mem_append, List.mem_singleton]
      by_cases hsame : last = coord
      · subst hsame
        simp
      · simp [hsame, Ne.symm hsame]

end Reported

/-! ## Recording and recovering -/

/-- The results of all dies of a wafer. -/
def SimulatedTester.results (tester : SimulatedTester) (wafer : WaferDieMap) :
    List DieTestResult := wafer.coords.map tester.testDie

def SimulatedTester.sorted (tester : SimulatedTester) (wafer : WaferDieMap) : WaferDieMap :=
  (sortWafer (tester.results wafer) wafer tester.program tester.taxonomy).2

/-- A map that was read back: one entry for each site, in ascending order, with what is known of
its die unless it is excluded. -/
structure Recovers (known : Std.ExtTreeMap DieCoord DieTestOutcome) (wafer : WaferDieMap)
    (snapshot : WaferMapSnapshot) : Prop where
  waferId : snapshot.waferId = wafer.waferId
  ascending : snapshot.dies.Pairwise fun a b => compare a.1 b.1 = .lt
  dies (coord : DieCoord) (found : Option DieTestOutcome) :
    (coord, found) ∈ snapshot.dies ↔ ∃ state ∈ wafer.dies[coord]?,
      found = if state = .excluded then none else known[coord]?

/-- The file of some records is read back with one map, of which this holds. -/
def ReadsBack (records : List Record) (holds : WaferMapSnapshot → Prop) : Prop :=
  ∃ bytes records' gdr snapshot, file records = some bytes ∧
    (StdfReader.new (.whole bytes)).readAll.1 = .ok records' ∧
    records'.filterMap gdr? = [gdr] ∧ decodeWaferMapGdr gdr = some (some snapshot) ∧ holds snapshot

/-- Ascending lists of the same locations. -/
theorem eq_of_ascending {coords coords' : List DieCoord}
    (h : coords.Pairwise fun a b => compare a b = .lt)
    (h' : coords'.Pairwise fun a b => compare a b = .lt)
    (hmem : ∀ coord, coord ∈ coords ↔ coord ∈ coords') : coords = coords' := by
  have hnodup {coords : List DieCoord} (h : coords.Pairwise fun a b => compare a b = .lt) :
      coords.Nodup :=
    h.imp fun hlt heq => by simp [heq] at hlt
  refine List.Perm.eq_of_pairwise ?_ h h'
    ((List.perm_ext_iff_of_nodup (hnodup h) (hnodup h')).mpr hmem)
  intro a b _ _ hlt hgt
  have hgt' := Std.OrientedCmp.gt_of_lt hgt
  rw [hlt] at hgt'
  cases hgt'

section Recovered

variable {tester : SimulatedTester} {wafer : WaferDieMap}

theorem coord_testDie (tester : SimulatedTester) (coord : DieCoord) :
    (tester.testDie coord).coord = coord := rfl

/-- The last result of a site is the one of its die. -/
theorem lastFor_results {coord : DieCoord} (hsite : coord ∈ wafer.dies) :
    lastFor coord (tester.results wafer) = some (tester.testDie coord) := by
  have hcoords : (tester.results wafer).map (·.coord) = wafer.coords := by
    rw [SimulatedTester.results, List.map_map]
    exact List.map_id _
  have hnodup : ((tester.results wafer).map (·.coord)).Nodup := by
    rw [hcoords]
    exact wafer.pairwise_coords.imp fun hlt heq => by simp [heq] at hlt
  rw [lastFor_eq_some_iff, latest_eq_self DieTestResult.coord hnodup]
  exact ⟨List.mem_map_of_mem ((wafer.mem_coords coord).mpr hsite), coord_testDie tester coord⟩

/-- The sorted map has an outcome for each site that is not excluded, namely the one that
the tester reports. -/
theorem outcome?_sorted {coord : DieCoord} {state state' : DieState}
    (hstate : wafer.dies[coord]? = some state)
    (hstate' : (tester.sorted wafer).dies[coord]? = some state') :
    state'.outcome? = if state = .excluded then none else some (tester.outcome coord) := by
  have hsite : coord ∈ wafer.dies := by
    rw [Std.ExtTreeMap.mem_iff_isSome_getElem?, hstate]
    rfl
  rw [SimulatedTester.sorted, getElem?_sortWafer, lastFor_results hsite, hstate] at hstate'
  by_cases hexcluded : state = .excluded
  · have hnot : ¬ wafer.Testable coord := by
      simp [WaferDieMap.Testable, hstate, hexcluded]
    rw [if_neg hnot] at hstate'
    cases hstate'
    rw [if_pos hexcluded, hexcluded]
    rfl
  · have htestable : wafer.Testable coord := ⟨state, hstate, hexcluded⟩
    rw [if_pos htestable] at hstate'
    cases hstate'
    rw [if_neg hexcluded]
    rfl

/-- What a sorted map shows is what the host was told of the sites that are not excluded. -/
theorem recovers_of_shows (hcoords : ∀ coord ∈ wafer.dies, FitsU2 coord.x ∧ FitsU2 coord.y)
    {snapshot : WaferMapSnapshot} (hid : snapshot.waferId = wafer.waferId)
    (hshows : snapshot.Shows (tester.sorted wafer)) :
    Recovers (gemResults (wafer.coords.map (dieEvent tester) ++ [(1, Ceid.waferDone, [])])) wafer
      snapshot := by
  have hsame := @sameWafer_sortWafer tester.program tester.taxonomy (tester.results wafer) wafer
  refine ⟨hid, hshows.ascending, fun coord found => ?_⟩
  have hknown := @getElem?_gemResults tester wafer.coords
    (fun coord hcoord => hcoords coord ((wafer.mem_coords coord).mp hcoord)) coord
  rw [hshows.dies]
  constructor
  · rintro ⟨state', hstate', rfl⟩
    have hsite : coord ∈ wafer.dies := by
      rw [← hsame.sites coord, Std.ExtTreeMap.mem_iff_isSome_getElem?]
      exact Option.isSome_of_mem hstate'
    obtain ⟨state, hstate⟩ := Option.isSome_iff_exists.mp
      (Std.ExtTreeMap.mem_iff_isSome_getElem?.mp hsite)
    refine ⟨state, hstate, ?_⟩
    rw [outcome?_sorted hstate hstate', hknown, if_pos ((wafer.mem_coords coord).mpr hsite)]
  · rintro ⟨state, hstate, rfl⟩
    have hsite : coord ∈ wafer.dies := by
      rw [Std.ExtTreeMap.mem_iff_isSome_getElem?]
      exact Option.isSome_of_mem hstate
    obtain ⟨state', hstate'⟩ := Option.isSome_iff_exists.mp
      (Std.ExtTreeMap.mem_iff_isSome_getElem?.mp ((hsame.sites coord).mpr hsite))
    refine ⟨state', hstate', ?_⟩
    rw [hknown, if_pos ((wafer.mem_coords coord).mpr hsite), outcome?_sorted hstate hstate']

theorem keys_sorted : (tester.sorted wafer).dies.keys = wafer.dies.keys := by
  have hsame := @sameWafer_sortWafer tester.program tester.taxonomy (tester.results wafer) wafer
  apply eq_of_ascending Std.ExtTreeMap.ordered_keys Std.ExtTreeMap.ordered_keys
  intro coord
  rw [Std.ExtTreeMap.mem_keys, Std.ExtTreeMap.mem_keys]
  exact hsame.sites coord

/-- The sites of a map that was read back are those of the sorted map. -/
theorem Recovers.coords {known : Std.ExtTreeMap DieCoord DieTestOutcome}
    {snapshot : WaferMapSnapshot} (h : Recovers known wafer snapshot) :
    snapshot.dies.map (·.1) = (tester.sorted wafer).dies.toList.map (·.1) := by
  rw [Std.ExtTreeMap.map_fst_toList_eq_keys, keys_sorted]
  apply eq_of_ascending (List.pairwise_map.mpr h.ascending) Std.ExtTreeMap.ordered_keys
  intro coord
  rw [Std.ExtTreeMap.mem_keys, Std.ExtTreeMap.mem_iff_isSome_getElem?, Option.isSome_iff_exists]
  constructor
  · intro hcoord
    obtain ⟨⟨coord', found⟩, hmem, rfl⟩ := List.mem_map.mp hcoord
    obtain ⟨state, hstate, -⟩ := (h.dies coord' found).mp hmem
    exact ⟨state, hstate⟩
  · rintro ⟨state, hstate⟩
    exact List.mem_map.mpr ⟨_, (h.dies coord _).mpr ⟨state, hstate, rfl⟩, rfl⟩

theorem mapFits_sorted : MapFits (tester.sorted wafer) ↔ MapFits wafer := by
  have hsame := @sameWafer_sortWafer tester.program tester.taxonomy (tester.results wafer) wafer
  have hsize : (tester.sorted wafer).dies.size = wafer.dies.size := by
    rw [← Std.ExtTreeMap.length_keys, ← Std.ExtTreeMap.length_keys, keys_sorted]
  have hid : (tester.sorted wafer).waferId = wafer.waferId := hsame.waferId
  rw [MapFits, MapFits, hsize, hid]

/-- A run over the transport tells the host of each die what is read back from the file of the
run, exactly if the texts of the run fit their length bytes and its map fits a record. -/
theorem recovers_iff (hfresh : wafer.Fresh)
    (hcoords : ∀ coord ∈ wafer.dies, FitsU2 coord.x ∧ FitsU2 coord.y)
    (metadata : RunMetadata) (sessionId sessionId' : UInt16) :
    ∃ events, Comm.Delivers (collectParty sessionId) (testerParty tester wafer sessionId')
        (.ok ((("TPT-SIM-ATE", "0.1.0"), true), events)) (.ok ()) ∧
      (ReadsBack (recordRun tester.program tester.taxonomy metadata wafer
          (tester.results wafer)).records (Recovers (gemResults events) wafer) ↔
        TextsFit tester.program (tester.sorted wafer) (tester.results wafer)
            (tally (tester.results wafer) tester.program tester.taxonomy) tester.taxonomy
            metadata ∧
          MapFits wafer) := by
  obtain ⟨after', hmeets⟩ := meets_collectWafer tester (.new sessionId) (.new sessionId') wafer
  refine ⟨_, hmeets.delivers ends_collectWafer (tester.ends_runWaferOverHsms wafer), ?_⟩
  rw [← @mapFits_sorted tester wafer]
  constructor
  · rintro ⟨bytes, records, gdr, snapshot, hfile, hread, hgdr, hdecode, hrecovers⟩
    exact fits_of_recorded
      ⟨bytes, records, gdr, snapshot, hfile, hread, hgdr, hdecode, hrecovers.coords⟩
  · rintro ⟨hfit, hmap⟩
    obtain ⟨bytes, hfile, hread⟩ := readAll_file _ (wellFormed_buildWaferRunRecords hfit hmap)
    have hsame := @sameWafer_sortWafer tester.program tester.taxonomy (tester.results wafer) wafer
    have hid : FitsCn wafer.waferId := by
      rw [← hsame.waferId]
      exact hfit.waferId
    obtain ⟨snapshot, hdecode, hwaferId, hshows⟩ := decode_sortWafer hfresh hid tester.program
      tester.taxonomy (tester.results wafer)
    exact ⟨bytes, _, _, snapshot, hfile, hread, filterMap_gdr?, hdecode,
      recovers_of_shows hcoords hwaferId hshows⟩

theorem fits_twoSites : ∀ coord ∈ twoSites.dies, FitsU2 coord.x ∧ FitsU2 coord.y := by
  intro coord hcoord
  rw [twoSites, Std.ExtTreeMap.mem_ofList] at hcoord
  simp only [List.map_cons, List.map_nil, List.contains_eq_mem, List.mem_cons, List.not_mem_nil,
    or_false, decide_eq_true_eq] at hcoord
  rcases hcoord with rfl | rfl <;> exact ⟨⟨by decide, by decide⟩, by decide, by decide⟩

/-- A wafer of one die that is tested and one that is excluded. -/
theorem recovers_iff_twoSites :
    ∃ events, Comm.Delivers (collectParty 0) (testerParty lenientTester twoSites 7)
        (.ok ((("TPT-SIM-ATE", "0.1.0"), true), events)) (.ok ()) ∧
      (ReadsBack (recordRun lenientTester.program lenientTester.taxonomy
          (.default 1700000900 1700000900) twoSites (lenientTester.results twoSites)).records
          (Recovers (gemResults events) twoSites) ↔
        TextsFit lenientTester.program (lenientTester.sorted twoSites)
            (lenientTester.results twoSites)
            (tally (lenientTester.results twoSites) lenientTester.program lenientTester.taxonomy)
            lenientTester.taxonomy (.default 1700000900 1700000900) ∧
          MapFits twoSites) :=
  recovers_iff fresh_twoSites fits_twoSites _ 0 7

end Recovered

end Test

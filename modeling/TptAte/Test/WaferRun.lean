import TptAte.Test.Simulator
import TptAte.Secs.GemLaws

/-! # A wafer run from end to end

The host selects, makes the handshake and collects event reports until the wafer is
done, while the tester reports die after die. By induction over the dies that are left
the host has collected one event for each.
-/

namespace Test

open Secs Wire Duplex Program HsmsSession

/-- An event report as the host receives it: DATAID, CEID and reports. -/
abbrev EventReport := UInt32 × UInt32 × List ReportEntry

/-- Receive one more event report; the one that the wafer is done is the last. -/
def collectRound (events : List EventReport) :
    Program (List EventReport ⊕ List EventReport) := do
  let event ← HostGem.receiveEventReport
  return if event.2.1 = Ceid.waferDone then .inr (events ++ [event]) else .inl (events ++ [event])

theorem reads_collectRound (events : List EventReport) :
    Reads (collectRound events).action (·.isLeft) :=
  HostGem.reads_receiveEventReport.map fun _ _ => trivial

def collect (events : List EventReport) : Program (List EventReport) :=
  .loop collectRound reads_collectRound events

def greet : Program ((String × String) × Bool) := do
  Program.select
  let identity ← HostGem.onlineData
  let established ← HostGem.establishCommunications
  return (identity, established)

def collectWafer : Program (((String × String) × Bool) × List EventReport) := do
  let greeting ← greet
  let events ← collect []
  return (greeting, events)

/-- An event reports a die if it is a single report that decodes to the location and
to the bins that the die is sorted into. -/
def Reports (tester : SimulatedTester) (coord : DieCoord) (event : EventReport) : Prop :=
  event.2.1 = Ceid.dieTested ∧ ∃ rptid vlist, event.2.2 = [(rptid, vlist)] ∧
    ∃ outcome, decodeDieReport vlist = .ok (coord, outcome) ∧
      (outcome.passed, outcome.hardBin, outcome.softBin) =
        let assignment := sortDie (tester.testDie coord) tester.program tester.taxonomy
        (assignment.passed, assignment.hardBin, assignment.softBin)

section Run

variable {control control' : Control} (tester : SimulatedTester)

def dieEvent (coord : DieCoord) : EventReport := (1, Ceid.dieTested, tester.dieReport coord)

/-- The event of a die whose coordinates fit reports that die. -/
theorem reports_dieEvent {coord : DieCoord} (hx : FitsU2 coord.x) (hy : FitsU2 coord.y) :
    Reports tester coord (dieEvent tester coord) :=
  ⟨rfl, _, _, rfl, _, decodeDieReport_encodeDieReport hx hy _, rfl⟩

/-- The report of a die fits a frame. -/
theorem fitsFrame_dieReport (coord : DieCoord) :
    FitsFrame (s6f11EventReport 1 Ceid.dieTested (tester.dieReport coord)) := by
  apply fitsFrame_of_weight
  · simp [s6f11EventReport, reportItem, SimulatedTester.dieReport, encodeDieReport,
      SecsItem.Encodable, SecsItem.AllEncodable, SecsItem.lengthCount, SecsItem.oneU4,
      SecsItem.oneU2, maxLength]
  · simp [s6f11EventReport, reportItem, SimulatedTester.dieReport, encodeDieReport, SecsItem.weight,
      SecsItem.weights, SecsItem.lengthCount, SecsItem.oneU4, SecsItem.oneU2]

theorem fitsFrame_waferDone : FitsFrame (s6f11EventReport 1 Ceid.waferDone []) := by
  apply fitsFrame_of_weight
  · simp [s6f11EventReport, SecsItem.Encodable, SecsItem.AllEncodable, SecsItem.lengthCount,
      SecsItem.oneU4, maxLength]
  · simp [s6f11EventReport, SecsItem.weight, SecsItem.weights, SecsItem.lengthCount,
      SecsItem.oneU4]

/-- Host and tester select, and the host learns who the tester is. -/
theorem meets_greet (control control' : Control) :
    greet.Meets control SimulatedTester.gem.accept control' (("TPT-SIM-ATE", "0.1.0"), true)
      control.advanced.selected.advanced.advanced () control'.selected := by
  have hmodel : (asBytes SimulatedTester.gem.modelName).length ≤ maxLength := by decide
  refine (meets_select control control').bind ?_
  exact (HostGem.meets_onlineData rfl rfl hmodel (by decide)).bind
    ((HostGem.meets_establishCommunications rfl rfl).bind (meets_pure _ _ _ _))

/-- The dies that are left are reported and collected one by one. -/
theorem meets_collect (coords : List DieCoord) (events : List EventReport)
    (hselected : control.state = .selected) (hselected' : control'.state = .selected) :
    ∃ after', (collect events).Meets control
      (tester.reportDies coords >>= fun () =>
        EquipmentGem.sendEventReport 1 Ceid.waferDone []) control'
      (events ++ (coords.map (dieEvent tester) ++ [(1, Ceid.waferDone, [])])) control ()
        after' := by
  induction coords generalizing events control' with
  | nil =>
      refine ⟨control'.advanced, ?_⟩
      rw [SimulatedTester.reportDies, pure_bind]
      refine Meets.loop_leaves ?_
      exact (HostGem.meets_receiveEventReport hselected' hselected
        fitsFrame_waferDone).then_left rfl
  | cons coord coords ih =>
      have hadvanced' : control'.advanced.state = .selected := hselected'
      obtain ⟨after', hmeets⟩ := ih (events ++ [dieEvent tester coord]) hadvanced'
      refine ⟨after', ?_⟩
      rw [SimulatedTester.reportDies, bind_assoc]
      refine Meets.loop_again ((HostGem.meets_receiveEventReport hselected' hselected
        (fitsFrame_dieReport tester coord)).then_left rfl) ?_
      rw [List.append_assoc] at hmeets
      exact hmeets

/-- Host and tester meet over the whole run: one event for each die and one for the end. -/
theorem meets_collectWafer (control control' : Control) (wafer : WaferDieMap) :
    ∃ after', collectWafer.Meets control (tester.runWaferOverHsms wafer) control'
      ((("TPT-SIM-ATE", "0.1.0"), true),
        wafer.coords.map (dieEvent tester) ++ [(1, Ceid.waferDone, [])])
      control.advanced.selected.advanced.advanced () after' := by
  obtain ⟨after', hmeets⟩ := @meets_collect control.advanced.selected.advanced.advanced
    control'.selected tester wafer.coords [] rfl rfl
  refine ⟨after', (meets_greet control control').bind ?_⟩
  exact hmeets.then_left rfl

end Run

/-- A wafer run from end to end, in every order of steps: both sides return, and the
host has received one event for each die site, in ascending order, and then the one
that the wafer is done. -/
theorem settles_collectWafer (tester : SimulatedTester) (sessionId : UInt16) {wafer : WaferDieMap}
    (hcoords : ∀ coord ∈ wafer.dies, FitsU2 coord.x ∧ FitsU2 coord.y) :
    ∃ events : List EventReport,
      Settles (collectWafer.process (.new sessionId))
        ((tester.runWaferOverHsms wafer).process (.new sessionId))
        (.ok ((("TPT-SIM-ATE", "0.1.0"), true), events ++ [(1, Ceid.waferDone, [])])) (.ok ()) ∧
      List.Forall₂ (Reports tester) wafer.coords events ∧
      wafer.coords.Pairwise (fun a b => compare a b = .lt) ∧
      ∀ coord, coord ∈ wafer.coords ↔ coord ∈ wafer.dies := by
  refine ⟨wafer.coords.map (dieEvent tester), ?_, ?_, wafer.pairwise_coords, wafer.mem_coords⟩
  · obtain ⟨after', hmeets⟩ := meets_collectWafer tester (.new sessionId) (.new sessionId) wafer
    exact hmeets.settles
  · rw [List.forall₂_map_right_iff, List.forall₂_same]
    intro coord hcoord
    obtain ⟨hx, hy⟩ := hcoords coord ((wafer.mem_coords coord).mp hcoord)
    exact reports_dieEvent tester hx hy

/-- A wafer of three dies, one of them at the largest location. -/
def threeDies : WaferDieMap :=
  { waferId := "W1"
    dies := Std.ExtTreeMap.ofList
      ([(⟨1, 0⟩, .untested), (⟨0, 3⟩, .untested), (⟨65535, 65535⟩, .untested)] :
        List (DieCoord × DieState))
    dieHeightMils := .one
    dieWidthMils := .one
    center := ⟨0, 0⟩ }

def lenientTester : SimulatedTester :=
  { program := lenientProgram
    taxonomy := .defaults
    faults := { seed := 42, failRate := .zero, alwaysFail := [⟨1, 0⟩] } }

theorem settles_collectWafer_threeDies : ∃ events : List EventReport,
    Settles (collectWafer.process (.new 0))
      ((lenientTester.runWaferOverHsms threeDies).process (.new 0))
      (.ok ((("TPT-SIM-ATE", "0.1.0"), true), events ++ [(1, Ceid.waferDone, [])])) (.ok ()) ∧
    List.Forall₂ (Reports lenientTester) threeDies.coords events ∧
    threeDies.coords.Pairwise (fun a b => compare a b = .lt) ∧
    ∀ coord, coord ∈ threeDies.coords ↔ coord ∈ threeDies.dies := by
  refine settles_collectWafer lenientTester 0 fun coord hcoord => ?_
  rw [threeDies, Std.ExtTreeMap.mem_ofList] at hcoord
  simp only [List.map_cons, List.map_nil, List.contains_eq_mem, List.mem_cons, List.not_mem_nil,
    or_false, decide_eq_true_eq] at hcoord
  rcases hcoord with rfl | rfl | rfl <;> exact ⟨⟨by decide, by decide⟩, by decide, by decide⟩

end Test

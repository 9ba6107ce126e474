import TptAte.Secs.Panics
import TptAte.Test.Recovered

/-! # Wafer runs with any peer

The tester and the host each keep to their side of a wafer run whatever the peer is: what
arrives makes neither panic, and neither waits for more at the end of a stream.
-/

namespace Test

open Secs Program

theorem neverPanics_greet : greet.NeverPanics :=
  neverPanics_select.bind fun _ => HostGem.neverPanics_onlineData.bind fun _ =>
    HostGem.neverPanics_establishCommunications.bind fun _ => neverPanics_pure _

theorem neverPanics_collect (events : List EventReport) : (collect events).NeverPanics :=
  neverPanics_loop (fun _ => HostGem.neverPanics_receiveEventReport.bind fun _ =>
    neverPanics_pure _) events

/-- No bytes make the host panic while it collects a wafer. -/
theorem neverPanics_collectWafer : collectWafer.NeverPanics :=
  neverPanics_greet.bind fun _ => (neverPanics_collect []).bind fun _ => neverPanics_pure _

namespace SimulatedTester

theorem neverPanics_reportDies (tester : SimulatedTester) (coords : List DieCoord) :
    (tester.reportDies coords).NeverPanics := by
  induction coords with
  | nil => exact neverPanics_pure _
  | cons coord coords ih =>
      have hreport := EquipmentGem.neverPanics_sendEventReport (fitsFrame_dieReport tester coord).1
      exact hreport.bind fun _ => ih

/-- No bytes make the tester panic during a run. -/
theorem neverPanics_runWaferOverHsms (tester : SimulatedTester) (wafer : WaferDieMap) :
    (tester.runWaferOverHsms wafer).NeverPanics := by
  have haccept : gem.accept.NeverPanics := EquipmentGem.neverPanics_accept (by decide) (by decide)
  refine haccept.bind fun _ => (tester.neverPanics_reportDies wafer.coords).bind fun _ => ?_
  exact EquipmentGem.neverPanics_sendEventReport fitsFrame_waferDone.1

end SimulatedTester

/-- Whatever arrives, each side of a wafer run returns, fails with an error or waits for more,
and where its stream has come to its end it does not wait. -/
theorem waferRun_stops (tester : SimulatedTester) (wafer : WaferDieMap) :
    (tester.runWaferOverHsms wafer).StopsInOrder ∧ collectWafer.StopsInOrder :=
  ⟨(tester.neverPanics_runWaferOverHsms wafer).stopsInOrder (tester.ends_runWaferOverHsms wafer),
    neverPanics_collectWafer.stopsInOrder ends_collectWafer⟩

end Test

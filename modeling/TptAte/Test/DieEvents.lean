import TptAte.Secs.Acknowledged
import TptAte.Secs.Dispatch
import TptAte.Secs.ReportAck
import TptAte.Test.Accounted
import TptAte.Test.WaferRun

/-! # The dies that a run reports

A run that is acknowledged throughout has reported every site of the map, whether the site
is to be tested or not; the map takes no result for an excluded one.
-/

namespace Test

open Secs Wire HsmsSession

/-! ## Events of dies in a history -/

/-- The event of a die that is sent. -/
def sentDieEvent : Event → Option EventReport
  | .wrote (.data _ stream function _ _ (some item)) =>
      if stream = 6 ∧ function = 11 then
        match parseS6f11 item with
        | .ok event => if event.2.1 = Ceid.dieTested then some event else none
        | .error _ => none
      else none
  | _ => none

def sentDieEvents (events : List Event) : List EventReport := events.filterMap sentDieEvent

theorem sentDieEvents_append (events events' : List Event) :
    sentDieEvents (events ++ events') = sentDieEvents events ++ sentDieEvents events' :=
  List.filterMap_append

/-- A log without data messages sends no events. -/
theorem sentDieEvents_of_not_writesData {events : List Event}
    (hevents : ∀ event ∈ events, ¬ WritesData event) : sentDieEvents events = [] := by
  rw [sentDieEvents, List.filterMap_eq_nil_iff]
  intro event hevent
  have hnot := hevents event hevent
  cases event with
  | read message => rfl
  | wrote message =>
      cases message with
      | data => exact (hnot ⟨_, _, _, _, _, _, rfl⟩).elim
      | _ => rfl

theorem sentDieEvent_primary (session : HsmsSession) (dataid ceid : UInt32)
    (reports : List ReportEntry) :
    sentDieEvent (.wrote (session.primary 6 11 (some (s6f11EventReport dataid ceid reports)))) =
      if ceid = Ceid.dieTested then some (dataid, ceid, reports) else none := by
  simp [sentDieEvent, primary, parseS6f11_eventReport]

/-! ## What a run sends -/

/-- A call that returns leaves the session selected and has sent these events of dies. -/
structure Sends (session final : HsmsSession) (sent : List EventReport) : Prop where
  selected : final.state = .selected
  log : ∃ events, final.stream.log = session.stream.log ++ events ∧ sentDieEvents events = sent

theorem Sends.trans {first second third : HsmsSession} {sent sent' : List EventReport}
    (h : Sends first second sent) (h' : Sends second third sent') :
    Sends first third (sent ++ sent') := by
  obtain ⟨events, hlog, rfl⟩ := h.log
  obtain ⟨events', hlog', rfl⟩ := h'.log
  refine ⟨h'.selected, events ++ events', ?_, sentDieEvents_append events events'⟩
  rw [hlog', hlog, List.append_assoc]

theorem sends_acceptSelect {session final : HsmsSession}
    (haccept : acceptSelect.call session = (.ok (), final)) : Sends session final [] := by
  rw [acceptSelect_call] at haccept
  obtain ⟨controls, middle, message, after, last, hanswers, hreceive, hreact, hlast⟩ :=
    answers_of_awaitMessage haccept
  cases message with
  | selectReq systemBytes =>
      cases hreact
      obtain ⟨⟨⟩, written, hsend, hset⟩ := SessionM.call_bind_eq_ok.mp hlast
      rw [write, SessionM.call_mk] at hsend
      cases hset
      refine ⟨rfl, exchange acceptReaction controls ++
        [.read (.selectReq systemBytes), .wrote (.selectRsp systemBytes .selected)], ?_, ?_⟩
      · change written.stream.log = _
        rw [(sent_of_send hsend).log, (received_of_receive hreceive).log, hanswers.log]
        simp
      · rw [sentDieEvents_append, sentDieEvents_of_not_writesData fun event hevent =>
          (idle_exchange mild_accept controls event hevent).1]
        rfl
  | linktestReq => cases hreact
  | _ =>
      cases hreact
      cases hlast

/-- None of the equipment's answers is an event report. -/
theorem sentDieEvents_replyTo (gem : EquipmentGem) (sessionId : UInt16) (stream function : UInt8)
    (wBit : Bool) (systemBytes : UInt32) (body : Option SecsItem) :
    sentDieEvents (((HsmsMessage.data sessionId stream function wBit systemBytes body).replyTo
      gem.answer).toList.map .wrote) = [] := by
  rw [HsmsMessage.replyTo]
  cases hreply : (if wBit then gem.answer stream function body else none) with
  | none => rfl
  | some reply =>
      have hfunction : function ∈ [1, 13, 41] := by
        by_contra hother
        rw [EquipmentGem.answer_eq_none hother, ite_self] at hreply
        cases hreply
      have hne : function + 1 ≠ 11 := by
        simp only [List.mem_cons, List.not_mem_nil, or_false] at hfunction
        rcases hfunction with rfl | rfl | rfl <;> decide
      simp [sentDieEvents, sentDieEvent, hne]

theorem sends_serveOne {gem : EquipmentGem} {session final : HsmsSession}
    {served : UInt8 × UInt8 × Option SecsItem} (hselected : session.state = .selected)
    (hserve : gem.serveOne.action.call session = (.ok served, final)) :
    Sends session final [] := by
  obtain ⟨stream, function, body⟩ := served
  obtain ⟨controls, sessionId, wBit, systemBytes, hserved⟩ := served_of_serveOne hselected hserve
  refine ⟨hserved.same.state.trans hselected, _, hserved.log, ?_⟩
  rw [sentDieEvents_append, sentDieEvents_of_not_writesData fun event hevent =>
    (idle_exchange (mild_serve gem.answer) controls event hevent).1, List.nil_append]
  exact sentDieEvents_replyTo gem sessionId stream function wBit systemBytes body

theorem sends_accept {gem : EquipmentGem} {session final : HsmsSession}
    (haccept : gem.accept.action.call session = (.ok (), final)) : Sends session final [] := by
  have haction : gem.accept.action = acceptSelect >>= fun _ =>
      gem.serveOne.action >>= fun _ => gem.serveOne.action >>= fun _ => pure () := rfl
  rw [haction] at haccept
  obtain ⟨⟨⟩, selected, hselect, hserves⟩ := SessionM.call_bind_eq_ok.mp haccept
  obtain ⟨served, middle, hfirst, hrest⟩ := SessionM.call_bind_eq_ok.mp hserves
  obtain ⟨served', after, hsecond, hlast⟩ := SessionM.call_bind_eq_ok.mp hrest
  cases hlast
  have hselected := sends_acceptSelect hselect
  have hmiddle := sends_serveOne hselected.selected hfirst
  exact (hselected.trans hmiddle).trans (sends_serveOne hmiddle.selected hsecond)

/-- A report that is acknowledged was sent once. -/
theorem sends_sendEventReport {dataid ceid : UInt32} {reports : List ReportEntry}
    {session final : HsmsSession} (hselected : session.state = .selected)
    (hsend : (EquipmentGem.sendEventReport dataid ceid reports).action.call session =
      (.ok (), final)) :
    Sends session final (if ceid = Ceid.dieTested then [(dataid, ceid, reports)] else []) := by
  obtain ⟨reply, htransact, -⟩ := EquipmentGem.sendEventReport_eq_ok.mp hsend
  obtain ⟨requests, sessionId, stream, wBit, hexchanged⟩ :=
    exchanged_of_transact hselected htransact
  refine ⟨hexchanged.same.state.trans hselected, .wrote (session.primary 6 11
      (some (s6f11EventReport dataid ceid reports))) ::
    (exchange (replyReaction session.nextSystemBytes 12) requests ++
      [.read (.data sessionId stream 12 wBit session.nextSystemBytes reply)]), ?_, ?_⟩
  · rw [hexchanged.log, List.append_assoc]
    rfl
  · have hothers : sentDieEvents (exchange (replyReaction session.nextSystemBytes 12) requests ++
        [.read (.data sessionId stream 12 wBit session.nextSystemBytes reply)]) = [] := by
      rw [sentDieEvents_append, sentDieEvents_of_not_writesData fun event hevent =>
        (idle_exchange (mild_reply _ _) requests event hevent).1]
      rfl
    rw [sentDieEvents, List.filterMap_cons, sentDieEvent_primary, ← sentDieEvents, hothers]
    by_cases hceid : ceid = Ceid.dieTested <;> simp [hceid]

variable {tester : SimulatedTester}

/-- The dies that are left are reported in their order. -/
theorem sends_reportDies {coords : List DieCoord} {session final : HsmsSession}
    (hselected : session.state = .selected)
    (hreport : (tester.reportDies coords).action.call session = (.ok (), final)) :
    Sends session final (coords.map (dieEvent tester)) := by
  induction coords generalizing session with
  | nil =>
      cases hreport
      exact ⟨hselected, [], by simp, rfl⟩
  | cons coord coords ih =>
      have haction : (tester.reportDies (coord :: coords)).action =
          (EquipmentGem.sendEventReport 1 Ceid.dieTested (tester.dieReport coord)).action >>=
            fun _ => (tester.reportDies coords).action := rfl
      rw [haction] at hreport
      obtain ⟨⟨⟩, middle, hsend, hrest⟩ := SessionM.call_bind_eq_ok.mp hreport
      have hfirst := sends_sendEventReport hselected hsend
      exact hfirst.trans (ih hfirst.selected hrest)

/-- A run that returns has sent one event for each site of the map. -/
theorem sends_runWaferOverHsms {wafer : WaferDieMap} {session final : HsmsSession}
    (hrun : (tester.runWaferOverHsms wafer).action.call session = (.ok (), final)) :
    Sends session final (wafer.coords.map (dieEvent tester)) := by
  have haction : (tester.runWaferOverHsms wafer).action =
      SimulatedTester.gem.accept.action >>= fun _ =>
        (tester.reportDies wafer.coords).action >>= fun _ =>
          (EquipmentGem.sendEventReport 1 Ceid.waferDone []).action := rfl
  rw [haction] at hrun
  obtain ⟨⟨⟩, accepted, haccept, hreports⟩ := SessionM.call_bind_eq_ok.mp hrun
  obtain ⟨⟨⟩, reported, hreport, hlast⟩ := SessionM.call_bind_eq_ok.mp hreports
  have haccepted := sends_accept haccept
  have hreported := sends_reportDies haccepted.selected hreport
  have hdone := sends_sendEventReport hreported.selected hlast
  rw [if_neg (by decide)] at hdone
  simpa using (haccepted.trans hreported).trans hdone

/-! ## Excluded sites -/

theorem mem_dies_iff {wafer : WaferDieMap} {coord : DieCoord} :
    coord ∈ wafer.coords ↔ ∃ state, wafer.dies[coord]? = some state := by
  rw [wafer.mem_coords, Std.ExtTreeMap.mem_iff_isSome_getElem?, Option.isSome_iff_exists]

/-- All sites of the map are to be tested exactly if none is excluded. -/
theorem forall_testable_iff {wafer : WaferDieMap} :
    (∀ coord ∈ wafer.coords, wafer.Testable coord) ↔
      ∀ coord : DieCoord, wafer.dies[coord]? ≠ some DieState.excluded := by
  constructor
  · intro htestable coord hexcluded
    obtain ⟨state, hstate, hne⟩ := htestable coord (mem_dies_iff.mpr ⟨_, hexcluded⟩)
    rw [hexcluded] at hstate
    cases hstate
    exact hne rfl
  · intro hnone coord hcoord
    obtain ⟨state, hstate⟩ := mem_dies_iff.mp hcoord
    exact ⟨state, hstate, fun hexcluded => hnone coord (hexcluded ▸ hstate)⟩

/-- On a wafer whose sites can all be tested no result of the tester goes unmatched. -/
theorem fst_sortWafer_testDie {wafer : WaferDieMap} (program : TestProgram)
    (taxonomy : BinTaxonomy) (htestable : ∀ coord ∈ wafer.coords, wafer.Testable coord) :
    (sortWafer (wafer.coords.map tester.testDie) wafer program taxonomy).1 = 0 := by
  have hoff : wafer.offSites (wafer.coords.map tester.testDie) = [] := by
    rw [WaferDieMap.offSites, List.filter_eq_nil_iff]
    simp only [List.mem_map, forall_exists_index, and_imp]
    rintro result coord hcoord rfl
    have hsite : (tester.testDie coord).coord = coord := rfl
    simpa [hsite] using htestable coord hcoord
  rw [fst_sortWafer, hoff]
  rfl

/-- A run in which each event is acknowledged has reported every site in ascending order. These
are the sites to be tested, and the map takes all of their results, exactly if no site is
excluded. -/
theorem sentDieEvents_iff {tester : SimulatedTester} {wafer : WaferDieMap} {stream : Connection}
    {sessionId : UInt16} {final : HsmsSession} (program : TestProgram) (taxonomy : BinTaxonomy)
    (hrun : (tester.runWaferOverHsms wafer).action.call (.new stream sessionId) =
      (.ok (), final)) :
    ∃ events, final.stream.log = stream.log ++ events ∧
      sentDieEvents events = wafer.coords.map (dieEvent tester) ∧
      wafer.coords.Pairwise (fun a b => compare a b = .lt) ∧
      ((sentDieEvents events =
            (wafer.coords.filter (wafer.Testable ·)).map (dieEvent tester) ∧
          (sortWafer (wafer.coords.map tester.testDie) wafer program taxonomy).1 = 0) ↔
        ∀ coord : DieCoord, wafer.dies[coord]? ≠ some DieState.excluded) := by
  obtain ⟨events, hlog, hsent⟩ := (sends_runWaferOverHsms hrun).log
  refine ⟨events, hlog, hsent, wafer.pairwise_coords, ?_⟩
  rw [hsent, ← forall_testable_iff]
  constructor
  · rintro ⟨hall, -⟩
    have hlength := congrArg List.length hall
    rw [List.length_map, List.length_map, eq_comm, List.length_filter_eq_length_iff] at hlength
    simpa using hlength
  · intro htestable
    rw [List.filter_eq_self.mpr (by simpa using htestable)]
    exact ⟨rfl, fst_sortWafer_testDie program taxonomy htestable⟩

/-! ## A run that is acknowledged -/

/-- The acknowledges of a host for some event reports, from the first system bytes on. -/
def acceptances : Nat → UInt32 → List HsmsMessage
  | 0, _ => []
  | count + 1, systemBytes =>
      HostGem.acceptance 0 systemBytes :: acceptances count (systemBytes + 1)

theorem exists_acknowledged {dataid ceid : UInt32} {reports : List ReportEntry}
    (hencodable : (s6f11EventReport dataid ceid reports).Encodable) {count : Nat}
    {session : HsmsSession} (hselected : session.state = .selected)
    (hfaults : session.stream.faults = [])
    (hframes : session.frames = acceptances (count + 1) session.nextSystemBytes) :
    ∃ final, (EquipmentGem.sendEventReport dataid ceid reports).action.call session =
        (.ok (), final) ∧
      final.state = .selected ∧ final.stream.faults = [] ∧
      final.frames = acceptances count final.nextSystemBytes := by
  have hprimary : (session.primary 6 11
      (some (s6f11EventReport dataid ceid reports))).toBytes.isSome := by
    apply isSome_toBytes_primary
    rintro item ⟨⟩
    exact hencodable
  obtain ⟨final, htransact, hexchanged, hrest⟩ := @transact_of_carries session hselected 6 11 6 12 0
    false _ (some (s6f12Acknowledge 0)) [] (acceptances count (session.nextSystemBytes + 1))
    (by decide) hframes (by simp) (writesSucceed_of_faults hfaults _) hprimary
  refine ⟨final, EquipmentGem.sendEventReport_eq_ok.mpr ⟨_, htransact, rfl⟩,
    hexchanged.same.state.trans hselected, ?_, ?_⟩
  · rw [hexchanged.faults, hfaults, List.drop_nil]
  · rw [hrest, hexchanged.same.nextSystemBytes]
    rfl

/-- A host that acknowledges every report lets the tester report all dies. -/
theorem exists_reported (tester : SimulatedTester) {coords : List DieCoord} {session : HsmsSession}
    (hselected : session.state = .selected) (hfaults : session.stream.faults = [])
    (hframes : session.frames = acceptances (coords.length + 1) session.nextSystemBytes) :
    ∃ final, (tester.reportDies coords).action.call session = (.ok (), final) ∧
      final.state = .selected ∧ final.stream.faults = [] ∧
      final.frames = acceptances 1 final.nextSystemBytes := by
  induction coords generalizing session with
  | nil => exact ⟨session, rfl, hselected, hfaults, hframes⟩
  | cons coord coords ih =>
      obtain ⟨middle, hsend, hmiddle, hnone, hrest⟩ := exists_acknowledged
        (fitsFrame_dieReport tester coord).1 hselected hfaults hframes
      obtain ⟨final, hreport, hfinal⟩ := ih hmiddle hnone hrest
      have haction : (tester.reportDies (coord :: coords)).action =
          (EquipmentGem.sendEventReport 1 Ceid.dieTested (tester.dieReport coord)).action >>=
            fun _ => (tester.reportDies coords).action := rfl
      refine ⟨final, ?_, hfinal⟩
      rw [haction, SessionM.call_bind, hsend]
      exact hreport

/-- A run returns if the host makes its handshake and accepts every report. -/
theorem exists_run (tester : SimulatedTester) {wafer : WaferDieMap} {session : HsmsSession}
    (hfaults : session.stream.faults = [])
    (hframes : session.frames = EquipmentGem.handshake ++
      acceptances (wafer.coords.length + 1) session.nextSystemBytes) :
    ∃ final, (tester.runWaferOverHsms wafer).action.call session = (.ok (), final) := by
  obtain ⟨accepted, haccept, hselected, hrest, hnone, hnumber⟩ :=
    SimulatedTester.gem.exists_accepted (by decide) (by decide) hframes hfaults
  rw [← hnumber] at hrest
  obtain ⟨reported, hreport, hselected', hnone', hrest'⟩ :=
    exists_reported tester hselected hnone hrest
  obtain ⟨final, hdone, -⟩ := exists_acknowledged fitsFrame_waferDone.1 hselected' hnone' hrest'
  have haction : (tester.runWaferOverHsms wafer).action =
      SimulatedTester.gem.accept.action >>= fun _ =>
        (tester.reportDies wafer.coords).action >>= fun _ =>
          (EquipmentGem.sendEventReport 1 Ceid.waferDone []).action := rfl
  refine ⟨final, ?_⟩
  rw [haction, SessionM.call_bind, haccept]
  dsimp only
  rw [SessionM.call_bind, hreport]
  exact hdone

theorem coords_twoSites : twoSites.coords = [⟨0, 0⟩, ⟨1, 0⟩] := by
  rw [WaferDieMap.coords_eq]
  decide +kernel

/-- The messages of a host that accepts three reports. -/
def acceptingHost : List HsmsMessage := EquipmentGem.handshake ++ acceptances 3 1

def acceptingStream : Connection :=
  { inbound := .whole ((encodeAll acceptingHost).getD []), closed := false, faults := []
    sent := [], log := [] }

theorem exists_run_twoSites : ∃ final, (lenientTester.runWaferOverHsms twoSites).action.call
    (.new acceptingStream 0) = (.ok (), final) := by
  have hsome : (encodeAll acceptingHost).isSome := by decide +kernel
  obtain ⟨bytes, hbytes⟩ := Option.isSome_iff_exists.mp hsome
  refine exists_run lenientTester rfl ?_
  have hcount : twoSites.coords.length + 1 = 3 := by rw [coords_twoSites]; rfl
  rw [hcount]
  change framesOf false (.whole ((encodeAll acceptingHost).getD [])) = acceptingHost
  rw [hbytes]
  refine framesOf_encodeAll ?_ hbytes false
  have hbody : ∀ item ∈ some (s6f12Acknowledge 0), Program.FitsFrame item := by
    rintro item ⟨⟩
    exact fitsFrame_byte 0
  have hempty : ∀ item ∈ some (SecsItem.list []), Program.FitsFrame item := by
    rintro item ⟨⟩
    exact Program.fitsFrame_nil
  simp only [acceptingHost, EquipmentGem.handshake, acceptances, List.cons_append,
    List.nil_append, List.forall_mem_cons, List.not_mem_nil, false_implies, implies_true, and_true]
  exact ⟨trivial, ⟨by decide, by decide, hempty⟩, ⟨by decide, by decide, hempty⟩,
    ⟨by decide, by decide, hbody⟩, ⟨by decide, by decide, hbody⟩, by decide, by decide, hbody⟩

theorem sentDieEvents_iff_twoSites :
    ∃ events : List Event, sentDieEvents events = twoSites.coords.map (dieEvent lenientTester) ∧
      ((sentDieEvents events =
            (twoSites.coords.filter (twoSites.Testable ·)).map (dieEvent lenientTester) ∧
          (sortWafer (twoSites.coords.map lenientTester.testDie) twoSites lenientTester.program
            lenientTester.taxonomy).1 = 0) ↔
        ∀ coord : DieCoord, twoSites.dies[coord]? ≠ some DieState.excluded) := by
  obtain ⟨final, hrun⟩ := exists_run_twoSites
  obtain ⟨events, -, hsent, -, hiff⟩ :=
    sentDieEvents_iff lenientTester.program lenientTester.taxonomy hrun
  exact ⟨events, hsent, hiff⟩

/-- The excluded site is reported as well, and its result has no place on the map. -/
theorem sentDieEvents_twoSites :
    ∃ final, (lenientTester.runWaferOverHsms twoSites).action.call (.new acceptingStream 0) =
        (.ok (), final) ∧
      sentDieEvents final.stream.log =
        [dieEvent lenientTester ⟨0, 0⟩, dieEvent lenientTester ⟨1, 0⟩] ∧
      twoSites.dies[(⟨1, 0⟩ : DieCoord)]? = some DieState.excluded ∧
      (sortWafer (twoSites.coords.map lenientTester.testDie) twoSites lenientTester.program
        lenientTester.taxonomy).1 = 1 := by
  obtain ⟨final, hrun⟩ := exists_run_twoSites
  obtain ⟨events, hlog, hsent⟩ := (sends_runWaferOverHsms hrun).log
  rw [coords_twoSites] at hsent
  refine ⟨final, hrun, ?_, by decide +kernel, ?_⟩
  · rw [hlog]
    exact hsent
  · rw [fst_sortWafer, coords_twoSites]
    decide +kernel

end Test

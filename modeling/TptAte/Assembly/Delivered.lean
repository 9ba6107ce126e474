import TptAte.Assembly.Run
import TptAte.Secs.Acknowledged
import TptAte.Secs.Crossing

/-! # Placement events that the host acknowledges

A call that waits for the placement of one site acknowledges every event report that
it comes to, and returns a position for that site only.
-/

namespace Assembly

open Secs Wire HsmsSession HostGem

/-- The site that a report names and the position that it gives. -/
def reportedSite : ReportEntry → Option (String × PointNm)
  | (_, [site, x, y]) => do
      let siteId ← site.asAscii
      let x ← x.asU4
      let y ← y.asU4
      return (siteId, ⟨x.toUInt64.toInt64, y.toUInt64.toInt64⟩)
  | _ => none

/-- An event report that can be parsed and whose placements, if it reports any, are
returned for their sites. -/
def Arrives (body : Option SecsItem) (returned : String → PointNm → Prop) : Prop :=
  ∃ item dataid ceid reports, body = some item ∧
    parseS6f11 item = .ok (dataid, ceid, reports) ∧
    (ceid = ceidPlacementDone → ∀ report ∈ reports, ∃ siteId placed,
      reportedSite report = some (siteId, placed) ∧ returned siteId placed)

/-! ## The reports of one event -/

section Reports

variable {siteId : String} {reports : List ReportEntry} {placed : PointNm}

/-- If every report gives one position for the awaited site, so does the event. -/
theorem reportedPlacement_of_forall (hne : reports ≠ [])
    (hreports : ∀ report ∈ reports, reportedSite report = some (siteId, placed)) :
    reportedPlacement siteId reports = .ok (some placed) := by
  cases reports with
  | nil => exact (hne rfl).elim
  | cons report reports =>
      have hreport := hreports report List.mem_cons_self
      obtain ⟨rptid, vlist⟩ := report
      match vlist, hreport with
      | [site, x, y], hreport =>
          simp only [reportedSite, Option.bind_eq_bind, Option.bind_eq_some_iff, Option.pure_def,
            Option.some.injEq, Prod.mk.injEq] at hreport
          obtain ⟨name, hname, xValue, hx, yValue, hy, rfl, rfl⟩ := hreport
          simp only [reportedPlacement, hname, hx, hy, orMalformed]
          exact if_neg (not_not.mpr rfl)

end Reports

/-! ## What a call acknowledges -/

namespace AssemblyHost

/-- A call that issues a placement command and waits for its event. -/
def placeCall (rcmd : String) (command : PlacementCommand) (session : HsmsSession) :
    Except Stop (Except AssemblyError PointNm) × HsmsSession :=
  (place rcmd command).run.action.call session

/-- What the wait for a placement leaves with at a primary. -/
def awaitedPlacement (siteId : String) (served : UInt8 × UInt8 × Option SecsItem) :
    Option (Except Stop (Except AssemblyError PointNm)) :=
  match placementSeen siteId (.ok served) with
  | .inl () => none
  | .inr result => some (.ok result)

/-- What the wait for a placement ends with where serving fails. -/
def awaitFails : Stop → Except Stop (Except AssemblyError PointNm)
  | .error error => .ok (.error (.comm error))
  | .panicked => .error .panicked
  | .blocked => .error .blocked

/-- The wait for a placement serves primaries until one gives the position, with the acknowledge as
its answer to each. -/
theorem serves_awaitPlacementEvent (siteId : String) {session : HsmsSession}
    (hselected : session.state = .selected) :
    Serves acknowledge awaitFails (awaitedPlacement siteId) session
      ((awaitPlacementEvent siteId).run.action.call session) := by
  refine serves_loop (fun session => ?_) hselected
  change (attempt (serveOne acknowledge) >>= fun served =>
    pure (placementSeen siteId served)).call session = _
  rw [SessionM.call_bind, attempt, SessionM.call_mk]
  rcases (serveOne acknowledge).call session with ⟨stop | served, after⟩
  · cases stop <;> rfl
  · dsimp only [caught, roundAfter, awaitedPlacement, SessionM.call_pure]
    rcases placementSeen siteId (.ok served) with ⟨⟩ | result <;> rfl

/-- A call comes to an event report behind the host command's acknowledge. -/
def ComesToReport (rcmd : String) (command : PlacementCommand) (session : HsmsSession)
    (report : HsmsMessage) : Prop :=
  ∃ requests sessionId stream wBit reply rest, session.state = .selected ∧
    session.frames =
      requests ++ .data sessionId stream 42 wBit session.nextSystemBytes reply :: rest ∧
    (∀ request ∈ requests, request.IsRequest) ∧ (firstBinary reply).getD 1 = hcackOk ∧
    session.WritesSucceed (requests.length + 1) ∧
    (session.primary 2 41 (some (placementCommand rcmd command))).toBytes.isSome ∧
    ComesTo acknowledge (awaitedPlacement command.siteId)
      (session.stream.faults.drop (requests.length + 1)) rest report

/-- The host command is issued, and its acknowledge decides on the wait. -/
theorem placeCall_eq (rcmd : String) (command : PlacementCommand) (session : HsmsSession) :
    placeCall rcmd command session =
      match (transact 2 41 (some (placementCommand rcmd command))).call session with
      | (.error stop, after) => (awaitFails stop, after)
      | (.ok (function, reply), after) =>
          if function ≠ 42 then
            (.ok (.error (.comm (.unexpectedStreamFunction 2 function
              (.text "S2F42 acknowledge")))), after)
          else if (firstBinary reply).getD 1 ≠ hcackOk then
            (.ok (.error (.commandRejected command.siteId ((firstBinary reply).getD 1))), after)
          else (awaitPlacementEvent command.siteId).run.action.call after := by
  have hbind : (place rcmd command).run.action =
      (attempt (transact 2 41 (some (placementCommand rcmd command))) >>= fun replied =>
        pure (replied.mapError AssemblyError.comm)) >>= fun replied =>
          match replied with
          | .ok (function, reply) =>
              (if function ≠ 42 then
                throw (.comm (.unexpectedStreamFunction 2 function (.text "S2F42 acknowledge")))
              else
                let hcack := (firstBinary reply).getD 1
                if hcack ≠ hcackOk then throw (.commandRejected command.siteId hcack)
                else awaitPlacementEvent command.siteId : AssemblyM PointNm).run.action
          | .error error => pure (.error error) := by
    rw [place, ExceptT.run_bind]
    change _ >>= _ = _ >>= _
    congr 1
    funext replied
    cases replied <;> rfl
  rw [placeCall, hbind, SessionM.call_bind, SessionM.call_bind, attempt, SessionM.call_mk]
  rcases (transact 2 41 (some (placementCommand rcmd command))).call session with
    ⟨stop | ⟨function, reply⟩, after⟩
  · cases stop <;> rfl
  · dsimp only [caught, SessionM.call_pure, Except.mapError]
    split
    · rfl
    · split <;> rfl

theorem awaitFails_ne (stop : Stop) (placed : PointNm) : awaitFails stop ≠ .ok (.ok placed) := by
  cases stop <;> nofun

/-- Behind an accepting acknowledge the call waits. -/
theorem placeCall_of_accepted {rcmd : String} {command : PlacementCommand}
    {session middle : HsmsSession} {reply : Option SecsItem}
    (htransact : (transact 2 41 (some (placementCommand rcmd command))).call session =
      (.ok (42, reply), middle))
    (hhcack : (firstBinary reply).getD 1 = hcackOk) :
    placeCall rcmd command session =
      (awaitPlacementEvent command.siteId).run.action.call middle := by
  rw [placeCall_eq, htransact]
  dsimp only
  rw [if_neg (not_not.mpr rfl), if_neg (not_not.mpr hhcack)]

/-- A call either ends with its transaction and returns no position, or it comes to its
wait behind an accepting acknowledge. -/
theorem placeCall_cases (rcmd : String) (command : PlacementCommand) (session : HsmsSession) :
    ((placeCall rcmd command session).2 =
        ((transact 2 41 (some (placementCommand rcmd command))).call session).2 ∧
      ∀ placed, (placeCall rcmd command session).1 ≠ .ok (.ok placed)) ∨
    ∃ reply middle, session.state = .selected ∧
      (transact 2 41 (some (placementCommand rcmd command))).call session =
        (.ok (42, reply), middle) ∧
      (firstBinary reply).getD 1 = hcackOk := by
  by_cases hselected : session.state = .selected
  · rw [placeCall_eq]
    rcases htransact : (transact 2 41 (some (placementCommand rcmd command))).call session with
      ⟨stop | ⟨function, reply⟩, middle⟩
    · exact .inl ⟨rfl, awaitFails_ne stop⟩
    · dsimp only
      split
      · exact .inl ⟨rfl, nofun⟩
      next hfunction =>
        obtain rfl := not_not.mp hfunction
        split
        · exact .inl ⟨rfl, nofun⟩
        next hhcack => exact .inr ⟨reply, middle, hselected, rfl, not_not.mp hhcack⟩
  · rw [placeCall_eq, transact_call_of_not hselected]
    exact .inl ⟨rfl, awaitFails_ne (.error (.notSelected session.state))⟩

/-- A call that does not get to wait acknowledges nothing. -/
theorem not_acknowledged_transact {rcmd : String} {command : PlacementCommand}
    {session final : HsmsSession} {body : Option SecsItem}
    (hfinal : final =
      ((transact 2 41 (some (placementCommand rcmd command))).call session).2) :
    ¬ Acknowledged session final body := by
  rintro ⟨events, sessionId, systemBytes, hlog, hreplies⟩
  subst hfinal
  exact not_replies_transact hlog ⟨_, _, _, _, _, _, rfl⟩ hreplies

/-- What is acknowledged behind a transaction is acknowledged by the wait. -/
theorem acknowledged_behind_transact {rcmd : String} {command : PlacementCommand}
    {session middle final : HsmsSession} {reply body : Option SecsItem}
    (hselected : session.state = .selected)
    (htransact : (transact 2 41 (some (placementCommand rcmd command))).call session =
      (.ok (42, reply), middle))
    {waited : List Event} (hwaited : final.stream.log = middle.stream.log ++ waited) :
    Acknowledged session final body ↔ Acknowledged middle final body := by
  obtain ⟨requests, sessionId, stream, wBit, hexchanged⟩ :=
    exchanged_of_transact hselected htransact
  obtain ⟨opening, hlog⟩ : ∃ opening, middle.stream.log = session.stream.log ++
      (opening ++ [.read (.data sessionId stream 42 wBit session.nextSystemBytes reply)]) :=
    ⟨_, hexchanged.log.trans (List.append_assoc _ _ _)⟩
  have htransacted : ((transact 2 41 (some (placementCommand rcmd command))).call
      session).2.stream.log = session.stream.log ++
      (opening ++ [.read (.data sessionId stream 42 wBit session.nextSystemBytes reply)]) := by
    rw [htransact]
    exact hlog
  constructor
  · rintro ⟨events, reportId, systemBytes, hevents, hreplies⟩
    rw [hwaited, hlog, List.append_assoc] at hevents
    obtain rfl := List.append_cancel_left hevents
    rcases replies_append hreplies with hfirst | hsecond | ⟨front, rest, hfront, -⟩
    · exact (not_replies_transact htransacted ⟨_, _, _, _, _, _, rfl⟩ hfirst).elim
    · exact ⟨waited, reportId, systemBytes, hwaited, hsecond⟩
    · -- the last message in front of the wait is the answer to the host command
      obtain ⟨-, hlast⟩ := List.append_inj' hfront rfl
      cases hlast
  · rintro ⟨events, reportId, systemBytes, hevents, before, after, rfl⟩
    refine ⟨_, reportId, systemBytes, ?_, opening ++ [.read (.data sessionId stream 42 wBit
      session.nextSystemBytes reply)] ++ before, after, rfl⟩
    rw [hevents, hlog]
    simp

/-- The event reports that a call acknowledges are those that it comes to. -/
theorem acknowledged_placeCall_iff (rcmd : String) (command : PlacementCommand)
    (session : HsmsSession) (body : Option SecsItem) :
    Acknowledged session (placeCall rcmd command session).2 body ↔
      ∃ sessionId systemBytes,
        ComesToReport rcmd command session (eventReport sessionId systemBytes body) := by
  have hrange : (41 : UInt8) ≠ 0xFF := by decide
  constructor
  · intro hacknowledged
    rcases placeCall_cases rcmd command session with ⟨hends, -⟩ |
      ⟨reply, middle, hselected, htransact, hhcack⟩
    · exact (not_acknowledged_transact hends hacknowledged).elim
    -- the command was accepted, so that the acknowledge is written while the event is awaited
    · obtain ⟨requests, sessionId, stream, wBit, hexchanged⟩ :=
        exchanged_of_transact hselected htransact
      have hserves := serves_awaitPlacementEvent command.siteId
        (hexchanged.same.state.trans hselected)
      obtain ⟨waited, hwaited, -⟩ := hserves.replies
      rw [placeCall_of_accepted htransact hhcack,
        acknowledged_behind_transact hselected htransact hwaited,
        acknowledged_iff hserves] at hacknowledged
      obtain ⟨reportId, systemBytes, hcomes⟩ := hacknowledged
      rw [hexchanged.faults] at hcomes
      exact ⟨reportId, systemBytes, requests, sessionId, stream, wBit, reply, middle.frames,
        hselected, hexchanged.frames, hexchanged.isRequest, hhcack, hexchanged.succeeds,
        hexchanged.encodable, hcomes⟩
  · rintro ⟨reportId, systemBytes, requests, sessionId, stream, wBit, reply, rest, hselected,
      hframes, hrequests, hhcack, hsucceeds, hencodable, hcomes⟩
    obtain ⟨middle, htransact, hexchanged, hrest⟩ :=
      transact_of_carries hselected hrange hframes hrequests hsucceeds hencodable
    have hserves := serves_awaitPlacementEvent command.siteId
      (hexchanged.same.state.trans hselected)
    obtain ⟨waited, hwaited, -⟩ := hserves.replies
    rw [placeCall_of_accepted htransact hhcack,
      acknowledged_behind_transact hselected htransact hwaited, acknowledged_iff hserves]
    rw [← hexchanged.faults, ← hrest] at hcomes
    exact ⟨reportId, systemBytes, hcomes⟩

/-- What a call returns that comes to an event at which its wait leaves. -/
theorem result_placeCall {rcmd : String} {command : PlacementCommand} {session : HsmsSession}
    {sessionId : UInt16} {systemBytes : UInt32} {body : Option SecsItem}
    {result : Except Stop (Except AssemblyError PointNm)}
    (hcomes : ComesToReport rcmd command session (eventReport sessionId systemBytes body))
    (hleave : awaitedPlacement command.siteId (6, 11, body) = some result) :
    (placeCall rcmd command session).1 = result := by
  obtain ⟨requests, replyId, stream, wBit, reply, rest, hselected, hframes, hrequests, hhcack,
    hsucceeds, hencodable, hcomes⟩ := hcomes
  obtain ⟨middle, htransact, hexchanged, hrest⟩ :=
    transact_of_carries hselected (by decide) hframes hrequests hsucceeds hencodable
  have hserves := serves_awaitPlacementEvent command.siteId
    (hexchanged.same.state.trans hselected)
  rw [placeCall_of_accepted htransact hhcack]
  rw [← hexchanged.faults, ← hrest] at hcomes
  exact hserves.result encodes_acknowledge (not_cuts_eventReport _ _ _) rfl hleave hcomes

/-! ## What a call delivers -/

/-- Every event report that the call acknowledges arrives, with no placement but that
of the commanded site at the position that the call returns. -/
def Delivers (rcmd : String) (command : PlacementCommand) (session : HsmsSession) : Prop :=
  ∀ body, Acknowledged session (placeCall rcmd command session).2 body →
    Arrives body fun siteId placed =>
      siteId = command.siteId ∧ (placeCall rcmd command session).1 = .ok (.ok placed)

/-- An event report that the call comes to can be parsed, and if it reports placements
each of its reports gives the same position for the commanded site. -/
def Prompt (rcmd : String) (command : PlacementCommand) (session : HsmsSession) : Prop :=
  ∀ sessionId systemBytes body,
    ComesToReport rcmd command session (eventReport sessionId systemBytes body) →
    ∃ point, Arrives body fun siteId placed => siteId = command.siteId ∧ placed = point

/-- A call delivers all it acknowledges exactly if it is prompt. -/
theorem delivers_iff (rcmd : String) (command : PlacementCommand) (session : HsmsSession) :
    Delivers rcmd command session ↔ Prompt rcmd command session := by
  constructor
  · intro hdelivers sessionId systemBytes body hcomes
    obtain ⟨item, dataid, ceid, reports, hbody, hparse, hreports⟩ := hdelivers body
      ((acknowledged_placeCall_iff rcmd command session body).mpr ⟨sessionId, systemBytes, hcomes⟩)
    -- the one position is the one that the call returns
    by_cases hreturns : ∃ point, (placeCall rcmd command session).1 = .ok (.ok point)
    · obtain ⟨point, hpoint⟩ := hreturns
      refine ⟨point, item, dataid, ceid, reports, hbody, hparse, fun hceid report hreport => ?_⟩
      obtain ⟨siteId, placed, hsite, hcommand, hplaced⟩ := hreports hceid report hreport
      rw [hpoint] at hplaced
      cases hplaced
      exact ⟨siteId, point, hsite, hcommand, rfl⟩
    · refine ⟨⟨0, 0⟩, item, dataid, ceid, reports, hbody, hparse, fun hceid report hreport => ?_⟩
      obtain ⟨siteId, placed, -, -, hplaced⟩ := hreports hceid report hreport
      exact (hreturns ⟨placed, hplaced⟩).elim
  · intro hprompt body hacknowledged
    obtain ⟨sessionId, systemBytes, hcomes⟩ :=
      (acknowledged_placeCall_iff rcmd command session body).mp hacknowledged
    obtain ⟨point, item, dataid, ceid, reports, rfl, hparse, hreports⟩ :=
      hprompt sessionId systemBytes body hcomes
    refine ⟨item, dataid, ceid, reports, rfl, hparse, fun hceid report hreport => ?_⟩
    have hsites (other : ReportEntry) (hother : other ∈ reports) :
        reportedSite other = some (command.siteId, point) := by
      obtain ⟨siteId, placed, hsite, rfl, rfl⟩ := hreports hceid other hother
      exact hsite
    have hplacement := reportedPlacement_of_forall (List.ne_nil_of_mem hreport) hsites
    have hleave : awaitedPlacement command.siteId (6, 11, some item) = some (.ok (.ok point)) := by
      simp [awaitedPlacement, placementSeen, hparse, hceid, hplacement]
    exact ⟨command.siteId, point, hsites report hreport, rfl, result_placeCall hcomes hleave⟩

/-! ## Runs of calls -/

/-- A call of a run, at the session that it is made at. -/
structure Placing where
  rcmd : String
  command : PlacementCommand
  session : HsmsSession

namespace Placing

def result (placing : Placing) : Except Stop (Except AssemblyError PointNm) :=
  (placeCall placing.rcmd placing.command placing.session).1

def after (placing : Placing) : HsmsSession :=
  (placeCall placing.rcmd placing.command placing.session).2

/-- The site that is asked for, and the position that is returned for it. -/
def returned (placing : Placing) : String × Option PointNm :=
  (placing.command.siteId, placing.result.toOption.bind Except.toOption)

end Placing

/-- Calls one after the other: each that returns, with a position or an error, is
followed by the next. -/
def placings : List (String × PlacementCommand) → HsmsSession → List Placing
  | [], _ => []
  | (rcmd, command) :: calls, session =>
      ⟨rcmd, command, session⟩ ::
        match placeCall rcmd command session with
        | (.ok _, after) => placings calls after
        | (.error _, _) => []

/-- Every event report that a call of the run acknowledges arrives, each of its
placements at a call for the site, this one or a later one. -/
def DeliversAll (run : List Placing) : Prop :=
  ∀ earlier placing later, run = earlier ++ placing :: later →
    ∀ body, Acknowledged placing.session placing.after body →
      Arrives body fun siteId placed =>
        ∃ call ∈ placing :: later, call.command.siteId = siteId ∧ call.result = .ok (.ok placed)

/-- A run of prompt calls delivers every placement event that it acknowledges. -/
theorem deliversAll_of_prompt {run : List Placing}
    (hprompt : ∀ placing ∈ run, Prompt placing.rcmd placing.command placing.session) :
    DeliversAll run := by
  rintro earlier placing later rfl body hacknowledged
  have hdelivers := (delivers_iff placing.rcmd placing.command placing.session).mpr
    (hprompt placing (by simp))
  obtain ⟨item, dataid, ceid, reports, hbody, hparse, hreports⟩ := hdelivers body hacknowledged
  refine ⟨item, dataid, ceid, reports, hbody, hparse, fun hceid report hreport => ?_⟩
  obtain ⟨siteId, placed, hsite, hcommand, hplaced⟩ := hreports hceid report hreport
  exact ⟨siteId, placed, hsite, placing, List.mem_cons_self, hcommand.symm, hplaced⟩

/-- The event with which the equipment reports a placement. -/
def placementEvent (systemBytes : UInt32) (command : PlacementCommand) (placed : PointNm) :
    HsmsMessage :=
  eventReport 0 systemBytes (some (s6f11EventReport 1 ceidPlacementDone
    (AssemblyEquipment.placementReport command placed)))

def commandAccepted (systemBytes : UInt32) : HsmsMessage :=
  .data 0 2 42 false systemBytes (some (s2f42Hcack hcackOk))

def arrivedSession (messages : List HsmsMessage) : HsmsSession :=
  selectedSession ((encodeAll messages).getD [])

/-- What has arrived at the session is read message by message. -/
theorem frames_arrivedSession {messages : List HsmsMessage}
    (hcanonical : ∀ message ∈ messages, message.Canonical) (hsome : (encodeAll messages).isSome) :
    (arrivedSession messages).frames = messages := by
  obtain ⟨bytes, hbytes⟩ := Option.isSome_iff_exists.mp hsome
  rw [arrivedSession, hbytes]
  exact framesOf_encodeAll hcanonical hbytes false

theorem canonical_commandAccepted (systemBytes : UInt32) :
    (commandAccepted systemBytes).Canonical := by
  refine ⟨by decide, by decide, ?_⟩
  rintro item ⟨⟩
  exact fitsFrame_byte hcackOk

theorem canonical_placementEvent (systemBytes : UInt32) {command : PlacementCommand}
    (hsite : (asBytes command.siteId).length ≤ maxLength) (placed : PointNm) :
    (placementEvent systemBytes command placed).Canonical := by
  refine ⟨by decide, by decide, ?_⟩
  rintro item ⟨⟩
  exact fitsFrame_placementReport hsite placed

def placeA : PlacementCommand := ⟨"A", "cpu", ⟨1, 2⟩, .r0⟩

def placeB : PlacementCommand := ⟨"B", "hbm", ⟨5, 6⟩, .r0⟩

/-- The host command for the site "A" is acknowledged, and its placement reported. -/
def promptEvents : List HsmsMessage := [commandAccepted 2, placementEvent 7 placeA ⟨1, 2⟩]

/-- Before the placement at "A" the one at "B" is reported, whose command comes next. -/
def earlyEvents : List HsmsMessage :=
  [commandAccepted 2, placementEvent 7 placeB ⟨5, 6⟩, placementEvent 8 placeA ⟨1, 2⟩,
    commandAccepted 3]

theorem frames_promptEvents : (arrivedSession promptEvents).frames = promptEvents := by
  refine frames_arrivedSession ?_ (by decide +kernel)
  simp only [promptEvents, List.forall_mem_cons, List.not_mem_nil, false_imp_iff, implies_true,
    and_true]
  exact ⟨canonical_commandAccepted 2, canonical_placementEvent 7 (by decide) _⟩

theorem frames_earlyEvents : (arrivedSession earlyEvents).frames = earlyEvents := by
  refine frames_arrivedSession ?_ (by decide +kernel)
  simp only [earlyEvents, List.forall_mem_cons, List.not_mem_nil, false_imp_iff, implies_true,
    and_true]
  exact ⟨canonical_commandAccepted 2, canonical_placementEvent 7 (by decide) _,
    canonical_placementEvent 8 (by decide) _, canonical_commandAccepted 3⟩

/-- The placement that is reported first is the one that was commanded. -/
theorem prompt_promptEvents : Prompt "PLACE_PP" placeA (arrivedSession promptEvents) := by
  rintro sessionId systemBytes body ⟨requests, replyId, stream, wBit, reply, rest, -, hframes,
    hrequests, -, -, -, front, behind, hrest, -⟩
  rw [frames_promptEvents, promptEvents] at hframes
  cases requests with
  | cons request requests =>
      obtain ⟨rfl, -⟩ := List.cons.inj hframes
      obtain ⟨sb, hrequest | hrequest⟩ := hrequests _ List.mem_cons_self <;> cases hrequest
  | nil =>
      obtain ⟨-, rfl⟩ := List.cons.inj hframes
      cases front with
      | cons message front => simp at hrest
      | nil =>
          obtain ⟨hevent, -⟩ := List.cons.inj hrest
          cases hevent
          refine ⟨⟨1, 2⟩, _, _, _, _, rfl, parseS6f11_eventReport _ _ _, fun _ report hreport => ?_⟩
          obtain rfl := List.mem_singleton.mp hreport
          exact ⟨"A", ⟨1, 2⟩, rfl, rfl, rfl⟩

theorem placings_singleton (rcmd : String) (command : PlacementCommand) (session : HsmsSession) :
    placings [(rcmd, command)] session = [⟨rcmd, command, session⟩] := by
  rw [placings]
  rcases placeCall rcmd command session with ⟨stop | returned, after⟩ <;> rfl

end AssemblyHost

end Assembly

import TptAte.Assembly.Delivered
import TptAte.Secs.Dispatch

/-! # Host commands that the equipment acknowledges

The equipment answers a host command by its function alone, then looks at its name,
and places the next die of its own list.
-/

namespace Assembly

open Secs Wire HsmsSession

namespace AssemblyEquipment

/-- An S2F41 that wants an answer. -/
def hostCommand (sessionId : UInt16) (systemBytes : UInt32) (body : Option SecsItem) :
    HsmsMessage :=
  .data sessionId 2 41 true systemBytes body

/-- The S2F42 with HCACK 0 that answers it. -/
def hcackAcceptance (sessionId : UInt16) (systemBytes : UInt32) : HsmsMessage :=
  .data sessionId 2 42 false systemBytes (some (s2f42Hcack hcackOk))

/-- The site and the coordinates in the parameters of a host command. -/
def commandedPlacement (params : List (String × SecsItem)) : Option (String × UInt32 × UInt32) := do
  let site ← params.lookup "SITE"
  let x ← params.lookup "X"
  let y ← params.lookup "Y"
  return (← site.asAscii, ← x.asU4, ← y.asU4)

def sentPlacement : Event → Option (List ReportEntry)
  | .wrote (.data _ stream function _ _ (some item)) =>
      if stream = 6 ∧ function = 11 then
        match parseS6f11 item with
        | .ok (_, ceid, reports) => if ceid = ceidPlacementDone then some reports else none
        | .error _ => none
      else none
  | _ => none

/-- A coordinate within the jitter window of a commanded one. -/
def Near (commanded : UInt32) (placed : Int64) : Prop :=
  placed.toInt - commanded.toNat ≤ 15 ∧ commanded.toNat - placed.toInt ≤ 15

instance (commanded : UInt32) (placed : Int64) : Decidable (Near commanded placed) :=
  inferInstanceAs (Decidable (_ ∧ _))

/-- A host command with this body is one of the machine's own, and the next placement
event behind it is for its site and within the jitter window of its coordinates. -/
def Places (equipment : AssemblyEquipment) (body : Option SecsItem) (after : List Event) : Prop :=
  ∃ item params siteId x y reports placed, body = some item ∧
    parseS2f41 item = .ok (equipment.technique.rcmd, params) ∧
    commandedPlacement params = some (siteId, x, y) ∧
    after.findSome? sentPlacement = some reports ∧
    reports.map reportedSite = [some (siteId, placed)] ∧ Near x placed.x ∧ Near y placed.y

/-- In a history every host command that is answered with HCACK 0 is placed. -/
def Executed (equipment : AssemblyEquipment) (events : List Event) : Prop :=
  ∀ before sessionId systemBytes body after,
    events = before ++ .read (hostCommand sessionId systemBytes body) ::
      .wrote (hcackAcceptance sessionId systemBytes) :: after →
    equipment.Places body after

/-! ## One command -/

/-- Where the equipment places a die for a command of its list, if it takes a body for
a command of its own. -/
def placedFor (equipment : AssemblyEquipment) (offset : PointNm) (command : PlacementCommand)
    (body : Option SecsItem) : Option PointNm := do
  let item ← body
  let (rcmd, _) ← (parseS2f41 item).toOption
  if rcmd = equipment.technique.rcmd then placedAt command.target offset else none

def execute (equipment : AssemblyEquipment) (offset : PointNm) (command : PlacementCommand)
    (session : HsmsSession) : Except Stop Unit × HsmsSession :=
  (equipment.runCommand offset command).action.call session

section

variable (equipment : AssemblyEquipment) (offset : PointNm) (command : PlacementCommand)
  {session after : HsmsSession}

/-- Where serving the host command stops, the whole call stops. -/
theorem execute_of_error {stop : Stop}
    (hserve : (serveOne equipment.gem.answer).call session = (.error stop, after)) :
    equipment.execute offset command session = (.error stop, after) := by
  change (serveOne equipment.gem.answer >>= _).call session = _
  rw [SessionM.call_bind, hserve]

/-- A primary that is no host command of the machine ends the run. -/
theorem execute_of_none {stream function : UInt8} {body : Option SecsItem}
    (hserve : (serveOne equipment.gem.answer).call session =
      (.ok (stream, function, body), after))
    (hnone : stream ≠ 2 ∨ function ≠ 41 ∨ equipment.placedFor offset command body = none) :
    ∃ stop, equipment.execute offset command session = (.error stop, after) := by
  change ∃ stop, ((serveOne equipment.gem.answer) >>= _).call session = _
  rw [SessionM.call_bind, hserve]
  dsimp only
  by_cases hfunction : stream ≠ 2 ∨ function ≠ 41
  · rw [if_pos hfunction]
    exact ⟨_, rfl⟩
  rw [if_neg hfunction]
  have hplaced := (or_assoc.mpr hnone).resolve_left hfunction
  cases body with
  | none => exact ⟨_, rfl⟩
  | some item =>
      dsimp only
      cases hparse : parseS2f41 item with
      | error error => exact ⟨_, rfl⟩
      | ok parsed =>
          obtain ⟨rcmd, params⟩ := parsed
          simp only [placedFor, hparse, Except.toOption, Option.bind_eq_bind, Option.bind_some]
            at hplaced
          rw [Program.ofExcept_ok, pure_bind]
          dsimp only
          split
          · exact ⟨_, rfl⟩
          next hrcmd =>
            rw [if_pos (not_not.mp hrcmd)] at hplaced
            rw [hplaced]
            exact ⟨_, rfl⟩

/-- A host command of the machine is executed at the next target of the list. -/
theorem execute_of_some {body : Option SecsItem} {placed : PointNm}
    (hserve : (serveOne equipment.gem.answer).call session = (.ok (2, 41, body), after))
    (hplaced : equipment.placedFor offset command body = some placed) :
    equipment.execute offset command session =
      (EquipmentGem.sendEventReport 1 ceidPlacementDone
        (placementReport command placed)).action.call after := by
  change ((serveOne equipment.gem.answer) >>= _).call session = _
  rw [SessionM.call_bind, hserve]
  dsimp only
  rw [if_neg (by decide)]
  cases body with
  | none => cases hplaced
  | some item =>
      dsimp only
      cases hparse : parseS2f41 item with
      | error error =>
          simp [placedFor, hparse, Except.toOption] at hplaced
      | ok parsed =>
          obtain ⟨rcmd, params⟩ := parsed
          simp only [placedFor, hparse, Except.toOption, Option.bind_eq_bind, Option.bind_some]
            at hplaced
          split at hplaced
          next hrcmd =>
            rw [Program.ofExcept_ok, pure_bind]
            dsimp only
            rw [if_neg (not_not.mpr hrcmd), hplaced]
          · cases hplaced

end

section

variable (reports : List ReportEntry) (session : HsmsSession)

/-- A report of placements is a transaction; it returns only behind an S6F12. -/
theorem sendEventReport_call :
    ((EquipmentGem.sendEventReport 1 ceidPlacementDone reports).action.call session).2 =
        ((transact 6 11 (some (s6f11EventReport 1 ceidPlacementDone reports))).call session).2 ∧
      (∀ stop, ((transact 6 11 (some (s6f11EventReport 1 ceidPlacementDone reports))).call
          session).1 = .error stop →
        ((EquipmentGem.sendEventReport 1 ceidPlacementDone reports).action.call session).1 =
          .error stop) ∧
      (((EquipmentGem.sendEventReport 1 ceidPlacementDone reports).action.call session).1 = .ok () →
        ∃ reply, ((transact 6 11 (some (s6f11EventReport 1 ceidPlacementDone reports))).call
          session).1 = .ok (12, reply)) := by
  have hcall : (EquipmentGem.sendEventReport 1 ceidPlacementDone reports).action =
      transact 6 11 (some (s6f11EventReport 1 ceidPlacementDone reports)) >>= _ := rfl
  rw [hcall, SessionM.call_bind]
  rcases (transact 6 11 (some (s6f11EventReport 1 ceidPlacementDone reports))).call session with
    ⟨stop | ⟨function, reply⟩, after⟩
  · exact ⟨rfl, fun _ h => by (cases h; rfl), fun h => by cases h⟩
  · dsimp only
    split
    · exact ⟨rfl, fun _ h => by (cases h), fun h => by cases h⟩
    next hfunction =>
      obtain rfl := not_not.mp hfunction
      cases firstBinary reply with
      | none => exact ⟨rfl, fun _ h => by (cases h), fun _ => ⟨reply, rfl⟩⟩
      | some code =>
          dsimp only
          split
          · exact ⟨rfl, fun _ h => by (cases h), fun _ => ⟨reply, rfl⟩⟩
          · exact ⟨rfl, fun _ h => by (cases h), fun _ => ⟨reply, rfl⟩⟩

/-- The report is the first data message of its transaction, if it can be written. -/
theorem events_sendEventReport :
    ∃ events, ((EquipmentGem.sendEventReport 1 ceidPlacementDone reports).action.call
        session).2.stream.log = session.stream.log ++ events ∧
      ((session.Opens 6 11 (some (s6f11EventReport 1 ceidPlacementDone reports)) ∧
          ∃ others, events = .wrote (session.primary 6 11
            (some (s6f11EventReport 1 ceidPlacementDone reports))) :: others ∧
            ∀ event ∈ others, ¬ WritesData event) ∨
        (¬ session.Opens 6 11 (some (s6f11EventReport 1 ceidPlacementDone reports)) ∧
          events = [] ∧ ∃ stop, ((EquipmentGem.sendEventReport 1 ceidPlacementDone
            reports).action.call session).1 = .error stop)) := by
  obtain ⟨hfinal, hstop, -⟩ := sendEventReport_call reports session
  obtain ⟨events, hlog, hevents⟩ :=
    events_transact 6 11 (some (s6f11EventReport 1 ceidPlacementDone reports)) session
  refine ⟨events, by rw [hfinal]; exact hlog, ?_⟩
  rcases hevents with hopens | ⟨hcloses, hnil, stop, herror⟩
  · exact .inl hopens
  · exact .inr ⟨hcloses, hnil, stop, hstop stop herror⟩

end

/-- A report that returns ends with the reading of its acknowledge. -/
theorem sendEventReport_ok {reports : List ReportEntry} {session final : HsmsSession}
    (hselected : session.state = .selected)
    (hcall : (EquipmentGem.sendEventReport 1 ceidPlacementDone reports).action.call session =
      (.ok (), final)) :
    final.state = .selected ∧ ∃ log sessionId stream wBit systemBytes body,
      final.stream.log = log ++ [.read (.data sessionId stream 12 wBit systemBytes body)] := by
  obtain ⟨hfinal, -, hok⟩ := sendEventReport_call reports session
  rw [hcall] at hfinal hok
  obtain ⟨reply, hreply⟩ := hok rfl
  obtain ⟨requests, sessionId, stream, wBit, hexchanged⟩ :=
    exchanged_of_transact hselected (Prod.ext hreply hfinal.symm)
  exact ⟨hexchanged.same.state.trans hselected, _, _, _, _, _, _, hexchanged.log⟩

/-- No acceptance of a host command among the events. -/
def Silent (events : List Event) : Prop :=
  ∀ sessionId systemBytes, .wrote (hcackAcceptance sessionId systemBytes) ∉ events

/-- Where no data is written, no host command is answered and no placement is sent. -/
theorem silent_of_not_writesData {events : List Event}
    (hevents : ∀ event ∈ events, ¬ WritesData event) : Silent events :=
  fun _ _ hmem => hevents _ hmem ⟨_, _, _, _, _, _, rfl⟩

/-- Answering control messages neither acknowledges a host command nor reports a placement. -/
theorem silent_exchange {makeReply : UInt8 → UInt8 → Option SecsItem → Option SecsItem}
    (controls : List HsmsMessage) : Silent (exchange (serveReaction makeReply) controls) :=
  silent_of_not_writesData fun event hevent =>
    (idle_exchange (mild_serve makeReply) controls event hevent).1

theorem silent_report {session : HsmsSession} {body : Option SecsItem} {others : List Event}
    (hothers : ∀ event ∈ others, ¬ WritesData event) :
    Silent (.wrote (session.primary 6 11 body) :: others) := by
  intro sessionId systemBytes hmem
  rcases List.mem_cons.mp hmem with hprimary | hmem
  · cases hprimary
  · exact silent_of_not_writesData hothers _ _ hmem

/-- Every host command with the W-bit is answered with HCACK 0. -/
theorem replyTo_hostCommand (equipment : AssemblyEquipment) (sessionId : UInt16)
    (systemBytes : UInt32) (body : Option SecsItem) :
    (hostCommand sessionId systemBytes body).replyTo equipment.gem.answer =
      some (hcackAcceptance sessionId systemBytes) := rfl

section

variable (equipment : AssemblyEquipment) (offset : PointNm) (command : PlacementCommand)
  {session middle : HsmsSession}

/-- Behind the primary that it serves a call writes no acceptance. -/
theorem events_execute {stream function : UInt8} {body : Option SecsItem}
    (hserve : (serveOne equipment.gem.answer).call session =
      (.ok (stream, function, body), middle)) :
    ∃ back, (equipment.execute offset command session).2.stream.log = middle.stream.log ++ back ∧
      Silent back := by
  by_cases hnone : stream ≠ 2 ∨ function ≠ 41 ∨ equipment.placedFor offset command body = none
  · obtain ⟨stop, hstop⟩ := execute_of_none equipment offset command hserve hnone
    exact ⟨[], by rw [hstop]; simp, by simp [Silent]⟩
  · simp only [not_or, not_not] at hnone
    obtain ⟨rfl, rfl, hplaced⟩ := hnone
    obtain ⟨placed, hplaced⟩ := Option.ne_none_iff_exists'.mp hplaced
    obtain ⟨back, hlog, hback⟩ := events_sendEventReport (placementReport command placed) middle
    rw [execute_of_some equipment offset command hserve hplaced]
    refine ⟨back, hlog, ?_⟩
    rcases hback with ⟨-, others, rfl, hothers⟩ | ⟨-, rfl, -⟩
    · exact silent_report hothers
    · simp [Silent]

/-- A host command that is answered is the primary that is served. -/
theorem served_of_split (hselected : session.state = .selected) {before after : List Event}
    {sessionId : UInt16} {systemBytes : UInt32} {body : Option SecsItem}
    (hlog : (equipment.execute offset command session).2.stream.log = session.stream.log ++
      (before ++ .read (hostCommand sessionId systemBytes body) ::
        .wrote (hcackAcceptance sessionId systemBytes) :: after)) :
    ∃ controls middle, (serveOne equipment.gem.answer).call session = (.ok (2, 41, body), middle) ∧
      Served equipment.gem.answer session controls (hostCommand sessionId systemBytes body)
        middle ∧
      (equipment.execute offset command session).2.stream.log = middle.stream.log ++ after := by
  rcases hserve : (serveOne equipment.gem.answer).call session with
    ⟨stop | ⟨stream, function, served⟩, middle⟩
  · obtain ⟨events, hevents, hsilent⟩ := not_writesData_serveOne hserve
    rw [execute_of_error equipment offset command hserve, hevents] at hlog
    obtain rfl := List.append_cancel_left hlog
    exact (silent_of_not_writesData hsilent sessionId systemBytes (by simp)).elim
  · obtain ⟨controls, servedId, wBit, servedBytes, hserved⟩ := served_of_serveOne hselected hserve
    obtain ⟨back, hback, hsilent⟩ := events_execute equipment offset command hserve
    rw [hback, hserved.log, List.append_assoc, List.append_assoc] at hlog
    obtain ⟨hmessage, hreply, -, rfl⟩ := split_served (silent_exchange controls _ _)
      (hsilent sessionId systemBytes) (List.append_cancel_left hlog)
    rw [hmessage] at hserved
    cases hmessage
    exact ⟨controls, middle, rfl, hserved, hback⟩

/-- The equipment places its own die for a body whose remote command is the one of its technique,
whatever the parameters say. -/
theorem placedFor_eq_some {body : Option SecsItem} {placed : PointNm} :
    equipment.placedFor offset command body = some placed ↔
      ∃ item params, body = some item ∧ parseS2f41 item = .ok (equipment.technique.rcmd, params) ∧
        placedAt command.target offset = some placed := by
  constructor
  · intro hplaced
    cases body with
    | none => cases hplaced
    | some item =>
        cases hparse : parseS2f41 item with
        | error error => simp [placedFor, hparse, Except.toOption] at hplaced
        | ok parsed =>
            obtain ⟨rcmd, params⟩ := parsed
            simp only [placedFor, hparse, Except.toOption, Option.bind_eq_bind, Option.bind_some]
              at hplaced
            split at hplaced
            next hrcmd => exact ⟨item, params, rfl, by rw [hparse, hrcmd], hplaced⟩
            · cases hplaced
  · rintro ⟨item, params, rfl, hparse, hplaced⟩
    simp [placedFor, hparse, Except.toOption, hplaced]

theorem sentPlacement_primary (reports : List ReportEntry) (session : HsmsSession) :
    sentPlacement (.wrote (session.primary 6 11
      (some (s6f11EventReport 1 ceidPlacementDone reports)))) = some reports := by
  simp [sentPlacement, primary, parseS6f11_eventReport]

/-- The host reads from the report the site of the equipment's command and the coordinates as they
were sent. -/
theorem reportedSite_placementReport (placed : PointNm) :
    (placementReport command placed).map reportedSite =
      [some (command.siteId, ⟨receivedCoordinate placed.x, receivedCoordinate placed.y⟩)] := rfl

/-- The body is one of the machine's own commands, for the site of the next command of
its list and close to where that one is placed. -/
def Agrees (body : Option SecsItem) (placed : PointNm) : Prop :=
  ∃ item params x y, body = some item ∧
    parseS2f41 item = .ok (equipment.technique.rcmd, params) ∧
    commandedPlacement params = some (command.siteId, x, y) ∧
    placedAt command.target offset = some placed ∧
    Near x (receivedCoordinate placed.x) ∧ Near y (receivedCoordinate placed.y)

/-- A host command with nothing behind it is not placed. -/
theorem not_places_nil {body : Option SecsItem} : ¬ equipment.Places body [] := by
  rintro ⟨item, params, siteId, x, y, reports, placed, -, -, -, hsent, -⟩
  cases hsent

/-- Where the next placement event is the one for a command, the body is of that command
if it agrees with it. -/
theorem places_of_sent {body : Option SecsItem} {placed : PointNm}
    (hplaced : equipment.placedFor offset command body = some placed) {events : List Event}
    (hsent : events.findSome? sentPlacement = some (placementReport command placed)) :
    equipment.Places body events ↔ Agrees equipment offset command body placed := by
  obtain ⟨_, _, _, _, htarget⟩ := (placedFor_eq_some equipment offset command).mp hplaced
  constructor
  · rintro ⟨item, params, siteId, x, y, reports, point, hbody, hparse, hcommanded, hreports,
      hsite, hx, hy⟩
    rw [hsent] at hreports
    cases hreports
    rw [reportedSite_placementReport] at hsite
    cases hsite
    exact ⟨item, params, x, y, hbody, hparse, hcommanded, htarget, hx, hy⟩
  · rintro ⟨item, params, x, y, hbody, hparse, hcommanded, -, hx, hy⟩
    exact ⟨item, params, command.siteId, x, y, _, _, hbody, hparse, hcommanded, hsent,
      reportedSite_placementReport command placed, hx, hy⟩

/-- A body that agrees with the expected command has its die placed. -/
theorem Agrees.placedFor {body : Option SecsItem} {placed : PointNm}
    (h : Agrees equipment offset command body placed) :
    equipment.placedFor offset command body = some placed := by
  obtain ⟨item, params, x, y, hbody, hparse, -, htarget, -⟩ := h
  exact (placedFor_eq_some equipment offset command).mpr ⟨item, params, hbody, hparse, htarget⟩

/-- The next placement event behind a host command that is served is the one for the
next command of the list, if that one is executed. -/
theorem places_iff {body : Option SecsItem}
    (hserve : (serveOne equipment.gem.answer).call session = (.ok (2, 41, body), middle))
    {back later : List Event}
    (hback : (equipment.execute offset command session).2.stream.log = middle.stream.log ++ back)
    (hlater : ∀ stop, (equipment.execute offset command session).1 = .error stop → later = []) :
    equipment.Places body (back ++ later) ↔
      ∃ placed, Agrees equipment offset command body placed ∧
        middle.Opens 6 11 (some (s6f11EventReport 1 ceidPlacementDone
          (placementReport command placed))) := by
  cases hplaced : equipment.placedFor offset command body with
  -- the body is none that this equipment acts on: no event follows it
  | none =>
      obtain ⟨stop, hstop⟩ :=
        execute_of_none equipment offset command hserve (.inr (.inr hplaced))
      rw [hstop] at hback hlater
      obtain rfl := List.self_eq_append_right.mp hback
      obtain rfl := hlater stop rfl
      apply iff_of_false (not_places_nil equipment)
      rintro ⟨placed, hagrees, -⟩
      rw [hagrees.placedFor] at hplaced
      cases hplaced
  | some placed =>
      rw [execute_of_some equipment offset command hserve hplaced] at hback hlater
      obtain ⟨events, hevents, hcases⟩ :=
        events_sendEventReport (placementReport command placed) middle
      obtain rfl := List.append_cancel_left (hback.symm.trans hevents)
      have honly (placed' : PointNm) (hagrees : Agrees equipment offset command body placed') :
          placed = placed' := by
        rw [hagrees.placedFor] at hplaced
        exact (Option.some.inj hplaced).symm
      -- the report is written, or the write fails and the run is over
      rcases hcases with ⟨hopens, others, rfl, -⟩ | ⟨hcloses, rfl, stop, hstop⟩
      · have hsent : (Event.wrote (middle.primary 6 11 (some (s6f11EventReport 1 ceidPlacementDone
            (placementReport command placed)))) :: others ++ later).findSome? sentPlacement =
            some (placementReport command placed) := by
          rw [List.cons_append, List.findSome?_cons, sentPlacement_primary]
        rw [places_of_sent equipment offset command hplaced hsent]
        constructor
        · intro hagrees
          exact ⟨placed, hagrees, hopens⟩
        · rintro ⟨placed', hagrees, -⟩
          rwa [honly placed' hagrees]
      · obtain rfl := hlater stop hstop
        apply iff_of_false (not_places_nil equipment)
        rintro ⟨placed', hagrees, hopens⟩
        rw [← honly placed' hagrees] at hopens
        exact (hcloses hopens).elim

/-- A host command that the call comes to agrees with the next command of the list, and
the event that reports its placement can be written. -/
def Matches (session : HsmsSession) : Prop :=
  session.state = .selected → ∀ controls sessionId systemBytes body rest,
    session.frames = controls ++ hostCommand sessionId systemBytes body :: rest →
    (∀ control ∈ controls, control.IsControl) → session.WritesSucceed (controls.length + 1) →
    ∃ placed, Agrees equipment offset command body placed ∧
      session.WritesSucceed (controls.length + 2) ∧
      (session.primary 6 11 (some (s6f11EventReport 1 ceidPlacementDone
        (placementReport command placed)))).toBytes.isSome

/-- Behind a command that is served the report can be written if the next write of the
session succeeds. -/
theorem opens_iff {controls : List HsmsMessage} {sessionId : UInt16} {systemBytes : UInt32}
    {body item : Option SecsItem} (hselected : session.state = .selected)
    (hserved : Served equipment.gem.answer session controls
      (hostCommand sessionId systemBytes body) middle) :
    middle.Opens 6 11 item ↔ session.WritesSucceed (controls.length + 2) ∧
      (session.primary 6 11 item).toBytes.isSome := by
  have hone : ((hostCommand sessionId systemBytes body).replyTo
      equipment.gem.answer).toList.length = 1 := rfl
  have hfaults := hserved.faults
  have hsucceeds := hserved.succeeds
  rw [hone] at hfaults hsucceeds
  have hprimary : middle.primary 6 11 item = session.primary 6 11 item := by
    rw [primary, primary, hserved.same.sessionId, hserved.same.nextSystemBytes]
  have hwrites : middle.WritesSucceed 1 ↔ session.WritesSucceed (controls.length + 2) := by
    rw [WritesSucceed, WritesSucceed, hfaults,
      show controls.length + 2 = controls.length + 1 + 1 from rfl, List.take_add]
    constructor
    · intro hnext fault hfault
      rcases List.mem_append.mp hfault with hfront | hback
      · exact hsucceeds fault hfront
      · exact hnext fault hback
    · exact fun hall fault hfault => hall fault (List.mem_append_right _ hfault)
  rw [Opens, hprimary, hwrites, and_iff_right (hserved.same.state.trans hselected)]

/-- A call executes what it acknowledges, whatever comes later, exactly if the command
that it comes to matches. -/
theorem executed_step_iff (hselected : session.state = .selected) {events later : List Event}
    (hlog : (equipment.execute offset command session).2.stream.log =
      session.stream.log ++ events)
    (hlater : ∀ stop, (equipment.execute offset command session).1 = .error stop → later = []) :
    (∀ before sessionId systemBytes body after,
      events = before ++ .read (hostCommand sessionId systemBytes body) ::
        .wrote (hcackAcceptance sessionId systemBytes) :: after →
      equipment.Places body (after ++ later)) ↔ Matches equipment offset command session := by
  constructor
  · intro hplaces _ controls sessionId systemBytes body rest hframes hcontrols hsucceeds
    obtain ⟨middle, hserve, hserved, -⟩ := exists_served hselected hframes hcontrols (by decide)
      (replyTo_hostCommand equipment sessionId systemBytes body) (by rfl) hsucceeds
    obtain ⟨back, hback, -⟩ := events_execute equipment offset command hserve
    have hevents := hback
    rw [hserved.log, hlog, List.append_assoc, List.append_assoc] at hevents
    obtain ⟨placed, hagrees, hopens⟩ := (places_iff equipment offset command hserve hback hlater).mp
      (hplaces _ sessionId systemBytes body back (List.append_cancel_left hevents))
    exact ⟨placed, hagrees, (opens_iff equipment hselected hserved).mp hopens⟩
  · rintro hmatches before sessionId systemBytes body after rfl
    obtain ⟨controls, middle, hserve, hserved, hback⟩ :=
      served_of_split equipment offset command hselected hlog
    obtain ⟨placed, hagrees, hwrites⟩ := hmatches hselected controls sessionId systemBytes body
      middle.frames hserved.frames hserved.isControl hserved.succeeds
    exact (places_iff equipment offset command hserve hback hlater).mpr
      ⟨placed, hagrees, (opens_iff equipment hselected hserved).mpr hwrites⟩

/-- A call adds events to the history and changes none that is there. -/
theorem exists_events_execute (session : HsmsSession) :
    ∃ events, (equipment.execute offset command session).2.stream.log =
      session.stream.log ++ events := by
  rcases hserve : (serveOne equipment.gem.answer).call session with
    ⟨stop | ⟨stream, function, body⟩, middle⟩
  · obtain ⟨events, hlog, -⟩ := not_writesData_serveOne hserve
    exact ⟨events, by rw [execute_of_error equipment offset command hserve]; exact hlog⟩
  · obtain ⟨served, hlog, -⟩ := answered_serveOne equipment.gem.answer session
    obtain ⟨back, hback, -⟩ := events_execute equipment offset command hserve
    rw [hserve] at hlog
    exact ⟨served ++ back, by rw [hback, hlog.log, List.append_assoc]⟩

/-- A command that is executed ends with the reading of an S6F12. -/
theorem execute_ok
    (hexecute : equipment.execute offset command session = (.ok (), middle)) :
    ∃ log sessionId stream wBit systemBytes body,
      middle.stream.log = log ++ [.read (.data sessionId stream 12 wBit systemBytes body)] := by
  rcases hserve : (serveOne equipment.gem.answer).call session with
    ⟨stop | ⟨stream, function, body⟩, after⟩
  · rw [execute_of_error equipment offset command hserve] at hexecute
    cases hexecute
  by_cases hnone : stream ≠ 2 ∨ function ≠ 41 ∨ equipment.placedFor offset command body = none
  · obtain ⟨stop, hstop⟩ := execute_of_none equipment offset command hserve hnone
    rw [hexecute] at hstop
    cases hstop
  · simp only [not_or, not_not] at hnone
    obtain ⟨rfl, rfl, hplaced⟩ := hnone
    obtain ⟨placed, hplaced⟩ := Option.ne_none_iff_exists'.mp hplaced
    have hselected : session.state = .selected := by
      by_contra hstate
      rw [serveOne_call_of_not hstate] at hserve
      cases hserve
    obtain ⟨controls, sessionId, wBit, systemBytes, hserved⟩ :=
      served_of_serveOne hselected hserve
    rw [execute_of_some equipment offset command hserve hplaced] at hexecute
    exact (sendEventReport_ok (hserved.same.state.trans hselected) hexecute).2

end

/-! ## Runs -/

/-- A command of a run, at the session at which it is executed. -/
structure Execution where
  offset : PointNm
  command : PlacementCommand
  session : HsmsSession

/-- The commands of a run, each at its session; a call that stops ends the run. -/
def executions (equipment : AssemblyEquipment) (offset : Nat → PointNm → PointNm) :
    Nat → List PlacementCommand → HsmsSession → List Execution
  | _, [], _ => []
  | index, command :: commands, session =>
      ⟨offset index command.target, command, session⟩ ::
        match equipment.execute (offset index command.target) command session with
        | (.ok (), after) => equipment.executions offset (index + 1) commands after
        | (.error _, _) => []

/-- A history with later events is executed if its own host commands are placed in it or in what
follows, and those of the later events are. -/
theorem executed_append {equipment : AssemblyEquipment} {events later : List Event}
    (hmeet : ∀ before sessionId systemBytes body,
      events ≠ before ++ [.read (hostCommand sessionId systemBytes body)]) :
    equipment.Executed (events ++ later) ↔
      (∀ before sessionId systemBytes body after,
        events = before ++ .read (hostCommand sessionId systemBytes body) ::
          .wrote (hcackAcceptance sessionId systemBytes) :: after →
        equipment.Places body (after ++ later)) ∧ equipment.Executed later := by
  constructor
  · intro hexecuted
    constructor
    · rintro before sessionId systemBytes body after rfl
      exact hexecuted before sessionId systemBytes body (after ++ later) (by simp)
    · rintro before sessionId systemBytes body after rfl
      exact hexecuted (events ++ before) sessionId systemBytes body after (by simp)
  · rintro ⟨hevents, hlater⟩ before sessionId systemBytes body after hsplit
    rcases split_append hsplit with ⟨rest, hfront, rfl⟩ | ⟨rest, -, hback⟩ | ⟨hfront, -⟩
    · exact hevents before sessionId systemBytes body rest hfront
    · exact hlater rest sessionId systemBytes body after hback
    · exact (hmeet before sessionId systemBytes body hfront).elim

/-- The commands of a run are executed if acknowledged, exactly if each host command
that is come to matches the list. -/
theorem executed_runCommands_iff (equipment : AssemblyEquipment) (offset : Nat → PointNm → PointNm)
    (index : Nat) (commands : List PlacementCommand) (session : HsmsSession) :
    ∃ events, ((equipment.runCommands offset index commands).action.call session).2.stream.log =
        session.stream.log ++ events ∧
      (equipment.Executed events ↔
        ∀ execution ∈ equipment.executions offset index commands session,
          Matches equipment execution.offset execution.command execution.session) := by
  -- by induction on the commands: `hstep` is about the first, and the hypothesis about the others
  induction commands generalizing index session with
  | nil => exact ⟨[], by simp [runCommands]; rfl, by simp [Executed, executions]⟩
  | cons command commands ih =>
      obtain ⟨events, hlog⟩ :=
        exists_events_execute equipment (offset index command.target) command session
      have hstep (later : List Event) (hlater : ∀ stop, (equipment.execute
          (offset index command.target) command session).1 = .error stop → later = []) :
          (∀ before sessionId systemBytes body after,
            events = before ++ .read (hostCommand sessionId systemBytes body) ::
              .wrote (hcackAcceptance sessionId systemBytes) :: after →
            equipment.Places body (after ++ later)) ↔
          Matches equipment (offset index command.target) command session := by
        by_cases hselected : session.state = .selected
        · exact executed_step_iff equipment _ command hselected hlog hlater
        · -- a session that is not selected neither reads nor writes
          rw [execute_of_error equipment _ command (serveOne_call_of_not hselected _)] at hlog
          obtain rfl := List.self_eq_append_right.mp hlog
          exact iff_of_true (by simp) fun h => (hselected h).elim
      have hrun : (equipment.runCommands offset index (command :: commands)).action =
          (equipment.runCommand (offset index command.target) command).action >>= fun _ =>
            (equipment.runCommands offset (index + 1) commands).action := by
        rw [runCommands]
        rfl
      rw [hrun, SessionM.call_bind, executions]
      have hcall :
          (equipment.runCommand (offset index command.target) command).action.call session =
            equipment.execute (offset index command.target) command session := rfl
      rw [hcall]
      rcases hexecute : equipment.execute (offset index command.target) command session with
        ⟨stop | ⟨⟩, after⟩
      · rw [hexecute] at hlog hstep
        refine ⟨events, hlog, ?_⟩
        rw [List.forall_mem_singleton, ← hstep [] fun _ _ => rfl]
        simp only [List.append_nil, Executed]
      · rw [hexecute] at hlog hstep
        obtain ⟨later, hlater, hiff⟩ := ih (index + 1) after
        refine ⟨events ++ later, by rw [hlater, hlog, List.append_assoc], ?_⟩
        rw [executed_append, List.forall_mem_cons, hiff, hstep later (fun _ h => by cases h)]
        -- the last message that was read is an S6F12, and no host command
        rintro before sessionId systemBytes body rfl
        obtain ⟨log, replyId, stream, wBit, replyBytes, reply, hlast⟩ :=
          execute_ok equipment _ command hexecute
        rw [hlog, ← List.append_assoc] at hlast
        obtain ⟨-, hevent⟩ := List.append_inj' hlast rfl
        cases hevent

/-- In every run behind the handshake each host command that is answered with HCACK 0
is executed, exactly if each host command that is come to matches the command of the
list whose turn it is. -/
theorem executed_runWith_iff (equipment : AssemblyEquipment) (offset : Nat → PointNm → PointNm)
    (commands : List PlacementCommand) {session middle : HsmsSession}
    (hhandshake : equipment.gem.accept.action.call session = (.ok (), middle)) :
    ∃ events, ((equipment.runWith offset commands).action.call session).2.stream.log =
        middle.stream.log ++ events ∧
      (equipment.Executed events ↔
        ∀ execution ∈ equipment.executions offset 0 commands middle,
          Matches equipment execution.offset execution.command execution.session) := by
  have hrun : (equipment.runWith offset commands).action =
      equipment.gem.accept.action >>= fun _ =>
        (equipment.runCommands offset 0 commands).action := rfl
  rw [hrun, SessionM.call_bind, hhandshake]
  exact executed_runCommands_iff equipment offset 0 commands middle

/-- The handshake of a host, and what it sends behind it. -/
def handshaken (messages : List HsmsMessage) : List HsmsMessage :=
  .selectReq 1 :: .data 0 1 1 true 2 (some s1f1AreYouThere) ::
    .data 0 1 13 true 3 (some s1f13EstablishCommunicationsRequest) :: messages

/-- Behind the Select and the two primaries of the handshake the equipment is selected and has read
nothing more. -/
theorem exists_handshaken (equipment : AssemblyEquipment)
    (hmodel : (asBytes equipment.modelName).length ≤ maxLength) {messages : List HsmsMessage}
    {session : HsmsSession} (hframes : session.frames = handshaken messages)
    (hfaults : session.stream.faults = []) :
    ∃ middle, equipment.gem.accept.action.call session = (.ok (), middle) ∧
      middle.state = .selected ∧ middle.frames = messages ∧ middle.stream.faults = [] := by
  obtain ⟨middle, haccept, hselected, hmessages, hnone, -⟩ :=
    EquipmentGem.exists_accepted equipment.gem hmodel
      (by decide : (asBytes "0.1.0").length ≤ maxLength) hframes hfaults
  exact ⟨middle, haccept, hselected, hmessages, hnone⟩

/-- A host command that comes first is the one that is come to. -/
theorem matches_iff_of_frames (equipment : AssemblyEquipment) (offset : PointNm)
    (command : PlacementCommand) {session : HsmsSession} (hselected : session.state = .selected)
    (hfaults : session.stream.faults = []) {sessionId : UInt16} {systemBytes : UInt32}
    {body : Option SecsItem} {rest : List HsmsMessage}
    (hframes : session.frames = hostCommand sessionId systemBytes body :: rest) :
    Matches equipment offset command session ↔
      ∃ placed, Agrees equipment offset command body placed ∧
        (session.primary 6 11 (some (s6f11EventReport 1 ceidPlacementDone
          (placementReport command placed)))).toBytes.isSome := by
  constructor
  · intro hmatches
    obtain ⟨placed, hagrees, -, hencodable⟩ := hmatches hselected [] sessionId systemBytes body rest
      hframes (by simp) (writesSucceed_of_faults hfaults _)
    exact ⟨placed, hagrees, hencodable⟩
  · rintro ⟨placed, hagrees, hencodable⟩ - controls otherId otherBytes otherBody others hsplit
      hcontrols -
    rw [hframes] at hsplit
    cases controls with
    | nil =>
        obtain ⟨hsame, -⟩ := List.cons.inj hsplit
        cases hsame
        exact ⟨placed, hagrees, writesSucceed_of_faults hfaults _, hencodable⟩
    | cons control controls =>
        obtain ⟨rfl, -⟩ := List.cons.inj hsplit
        exact (hcontrols _ List.mem_cons_self).elim

/-- A session that is not selected yet, at which some messages have arrived. -/
def connectedSession (messages : List HsmsMessage) : HsmsSession :=
  freshSession ((encodeAll messages).getD [])

/-- The machine, with two commands in its list. -/
def flipChip : AssemblyEquipment := .new .flipChip 42

def placeCommand (command : PlacementCommand) : HsmsMessage :=
  hostCommand 0 4 (some (AssemblyHost.placementCommand "PLACE_FC" command))

/-- The connected equipment has the host command in front of it. -/
theorem exists_connected {command : PlacementCommand}
    (hsite : (asBytes command.siteId).length ≤ maxLength)
    (hsome : (encodeAll (handshaken [placeCommand command])).isSome) :
    ∃ middle, flipChip.gem.accept.action.call
        (connectedSession (handshaken [placeCommand command])) = (.ok (), middle) ∧
      middle.state = .selected ∧ middle.frames = [placeCommand command] ∧
      middle.stream.faults = [] := by
  obtain ⟨bytes, hbytes⟩ := Option.isSome_iff_exists.mp hsome
  refine exists_handshaken flipChip (by decide) ?_ rfl
  rw [connectedSession, hbytes]
  refine framesOf_encodeAll ?_ hbytes false
  simp only [handshaken, placeCommand, List.forall_mem_cons, List.not_mem_nil, false_imp_iff,
    implies_true, and_true]
  refine ⟨trivial, ⟨by decide, by decide, ?_⟩, ⟨by decide, by decide, ?_⟩, by decide, by decide, ?_⟩
  · rintro item ⟨⟩
    exact Program.fitsFrame_nil
  · rintro item ⟨⟩
    exact Program.fitsFrame_nil
  · rintro item ⟨⟩
    exact fitsFrame_placementCommand hsite .flipChip

open AssemblyHost in
/-- The host commands what stands in the list. -/
theorem executed_runWith_iff_sameList :
    ∃ middle events, flipChip.gem.accept.action.call
        (connectedSession (handshaken [placeCommand placeA])) = (.ok (), middle) ∧
      ((flipChip.runWith (fun _ _ => ⟨3, -2⟩) [placeA]).action.call
        (connectedSession (handshaken [placeCommand placeA]))).2.stream.log =
          middle.stream.log ++ events ∧
      flipChip.Executed events ∧ events.length = 3 := by
  obtain ⟨middle, hhandshake, hselected, hframes, hfaults⟩ :=
    @exists_connected placeA (by decide) (by decide +kernel)
  obtain ⟨events, hlog, hexecuted⟩ :=
    executed_runWith_iff flipChip (fun _ _ => ⟨3, -2⟩) [placeA] hhandshake
  refine ⟨middle, events, hhandshake, hlog, hexecuted.mpr ?_, ?_⟩
  · have hsingle : flipChip.executions (fun _ _ => ⟨3, -2⟩) 0 [placeA] middle =
        [⟨⟨3, -2⟩, placeA, middle⟩] := by
      rw [executions]
      rcases flipChip.execute ⟨3, -2⟩ placeA middle with ⟨stop | ⟨⟩, after⟩ <;> rfl
    rw [hsingle, List.forall_mem_singleton,
      matches_iff_of_frames flipChip _ placeA hselected hfaults hframes]
    have hplaced : placedAt placeA.target ⟨3, -2⟩ = some ⟨4, 0⟩ := by decide
    refine ⟨⟨4, 0⟩, ⟨_, _, 1, 2, rfl, parseS2f41_hostCommand _ _, rfl, hplaced, by decide,
      by decide⟩, isSome_toBytes_primary ?_⟩
    rintro item ⟨⟩
    exact (@fitsFrame_placementReport placeA (by decide) ⟨4, 0⟩).1
  · -- the command is read, acknowledged and reported
    have hbefore : (flipChip.gem.accept.action.call (connectedSession
        (handshaken [placeCommand placeA]))).2.stream.log.length = 6 := by decide +kernel
    have hall : ((flipChip.runWith (fun _ _ => ⟨3, -2⟩) [placeA]).action.call (connectedSession
        (handshaken [placeCommand placeA]))).2.stream.log.length = 9 := by decide +kernel
    rw [hhandshake] at hbefore
    change middle.stream.log.length = 6 at hbefore
    rw [hlog, List.length_append] at hall
    omega

open AssemblyHost in
/-- Not every acknowledged host command is executed: where the list begins with "A" the
command for "B" is answered with HCACK 0, and the event behind it reports "A". -/
theorem not_executed_swapped :
    ∃ middle events, flipChip.gem.accept.action.call
        (connectedSession (handshaken [placeCommand placeB])) = (.ok (), middle) ∧
      ((flipChip.run [placeA, placeB]).action.call
        (connectedSession (handshaken [placeCommand placeB]))).2.stream.log =
          middle.stream.log ++ events ∧
      ¬ flipChip.Executed events := by
  obtain ⟨middle, hhandshake, hselected, hframes, hfaults⟩ :=
    @exists_connected placeB (by decide) (by decide +kernel)
  obtain ⟨events, hlog, hexecuted⟩ :=
    executed_runCommands_iff flipChip flipChip.drawn 0 [placeA, placeB] middle
  refine ⟨middle, events, hhandshake, ?_, fun h => ?_⟩
  · have hrun : (flipChip.run [placeA, placeB]).action =
        flipChip.gem.accept.action >>= fun _ =>
          (flipChip.runCommands flipChip.drawn 0 [placeA, placeB]).action := rfl
    rw [hrun, SessionM.call_bind, hhandshake]
    exact hlog
  · have hmatches := hexecuted.mp h ⟨flipChip.drawn 0 placeA.target, placeA, middle⟩
      List.mem_cons_self
    obtain ⟨placed, ⟨item, params, x, y, hitem, hparse, hcommanded, -⟩, -⟩ :=
      (matches_iff_of_frames flipChip _ placeA hselected hfaults hframes).mp hmatches
    cases hitem
    rw [AssemblyHost.placementCommand, parseS2f41_hostCommand] at hparse
    cases hparse
    have hsite : some "B" = some "A" := congrArg (Option.map Prod.fst) hcommanded
    exact absurd hsite (by decide)

end AssemblyEquipment

end Assembly

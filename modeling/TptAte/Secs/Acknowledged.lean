import TptAte.Secs.Gem
import TptAte.Secs.Serving

/-! # Event reports that the host acknowledges

The host writes its acknowledge before it looks at the body of an event report.
-/

namespace Secs

open Wire HsmsSession

namespace HostGem

def acknowledge (_stream _function : UInt8) (_body : Option SecsItem) : Option SecsItem :=
  some (s6f12Acknowledge 0)

/-- An S6F11 that wants an answer. -/
def eventReport (sessionId : UInt16) (systemBytes : UInt32) (body : Option SecsItem) :
    HsmsMessage :=
  .data sessionId 6 11 true systemBytes body

/-- The S6F12 with DACKN 0 that answers it. -/
def acceptance (sessionId : UInt16) (systemBytes : UInt32) : HsmsMessage :=
  .data sessionId 6 12 false systemBytes (some (s6f12Acknowledge 0))

/-- Between two states of a session an event report with this body was read and
answered with DACKN 0. -/
def Acknowledged (session session' : HsmsSession) (body : Option SecsItem) : Prop :=
  ∃ events sessionId systemBytes, session'.stream.log = session.stream.log ++ events ∧
    Replies events (eventReport sessionId systemBytes body) (acceptance sessionId systemBytes)

/-- The acknowledge is small enough to be sent. -/
theorem encodes_acknowledge : Encodes acknowledge := by
  intro message reply hreply
  cases message with
  | data sessionId stream function wBit systemBytes body =>
      cases wBit
      · cases hreply
      · cases hreply
        rfl
  | separate => cases hreply
  | _ =>
      cases hreply
      rfl

/-- An event report never ends the session that reads it: it is acknowledged. -/
theorem not_cuts_eventReport (sessionId : UInt16) (systemBytes : UInt32) (body : Option SecsItem) :
    ¬ (eventReport sessionId systemBytes body).Cuts acknowledge := fun h => absurd h.1 (by decide)

theorem replyTo_eventReport (sessionId : UInt16) (systemBytes : UInt32) (body : Option SecsItem) :
    (eventReport sessionId systemBytes body).replyTo acknowledge =
      some (acceptance sessionId systemBytes) := rfl

/-! ## One event report -/

/-- What the wait for an event report leaves with at a primary. -/
def receivedReport : UInt8 × UInt8 × Option SecsItem →
    Option (Except Stop (UInt32 × UInt32 × List ReportEntry))
  | (stream, function, body) =>
      if stream = 6 ∧ function = 11 then
        match body with
        | none => some (.error (.error (.missingDataBody 6 11)))
        | some body => some ((parseS6f11 body).mapError .error)
      else none

/-- Every event report that the call acknowledges is what it returns. -/
def Delivers (session : HsmsSession) : Prop :=
  ∀ body, Acknowledged session (receiveEventReport.action.call session).2 body →
    ∃ item report, body = some item ∧ parseS6f11 item = .ok report ∧
      (receiveEventReport.action.call session).1 = .ok report

/-- The event report that a call comes to has a body that can be parsed. -/
def Readable (session : HsmsSession) : Prop :=
  session.state = .selected → ∀ sessionId systemBytes body,
    ComesTo acknowledge receivedReport session.stream.faults session.frames
      (eventReport sessionId systemBytes body) →
    ∃ item report, body = some item ∧ parseS6f11 item = .ok report

/-- A round of the host serves one message and looks whether it was an event report. -/
theorem receiveRound_call (session : HsmsSession) :
    (receiveRound ()).action.call session =
      roundAfter .error receivedReport ((serveOne acknowledge).call session) := by
  change ((serveOne acknowledge) >>= _).call session = _
  rw [SessionM.call_bind]
  rcases (serveOne acknowledge).call session with ⟨stop | ⟨stream, function, body⟩, after⟩
  · rfl
  · dsimp only [receivedReport, roundAfter]
    split
    · cases body with
      | none => rfl
      | some body =>
          dsimp only
          cases parseS6f11 body <;> rfl
    · rfl

/-- A selected host receives event reports by serving messages until one of them is a report. -/
theorem serves_receiveEventReport {session : HsmsSession} (hselected : session.state = .selected) :
    Serves acknowledge .error receivedReport session (receiveEventReport.action.call session) :=
  serves_loop receiveRound_call hselected

/-- At a session that is not selected nothing is read or written. -/
theorem receiveEventReport_call_of_not {session : HsmsSession}
    (hstate : session.state ≠ .selected) :
    (receiveEventReport.action.call session).2 = session := by
  change ((loop (fun state => (receiveRound state).action) _ ()).call session).2 = session
  rw [loop_eq, SessionM.call_bind, receiveRound_call, serveOne_call_of_not hstate]
  rfl

theorem not_acknowledged_self (session : HsmsSession) (body : Option SecsItem) :
    ¬ Acknowledged session session body := by
  rintro ⟨events, sessionId, systemBytes, hlog, hreplies⟩
  obtain rfl := List.self_eq_append_right.mp hlog
  exact not_replies_nil hreplies

/-- A wait for event reports acknowledges those that it comes to. -/
theorem acknowledged_iff {α : Type} {fails : Stop → Except Stop α}
    {leave : UInt8 × UInt8 × Option SecsItem → Option (Except Stop α)} {session : HsmsSession}
    {ending : Except Stop α × HsmsSession} (hserves : Serves acknowledge fails leave session ending)
    {body : Option SecsItem} :
    Acknowledged session ending.2 body ↔
      ∃ sessionId systemBytes, ComesTo acknowledge leave session.stream.faults session.frames
        (eventReport sessionId systemBytes body) := by
  obtain ⟨events, hlog, hreplies⟩ := hserves.replies
  constructor
  · rintro ⟨events', sessionId, systemBytes, hlog', h⟩
    obtain rfl := List.append_cancel_left (hlog'.symm.trans hlog)
    exact ⟨sessionId, systemBytes, (hreplies _ _ (not_cuts_eventReport _ _ _)
      (replyTo_eventReport _ _ _)).1 h⟩
  · rintro ⟨sessionId, systemBytes, hcomes⟩
    exact ⟨events, sessionId, systemBytes, hlog,
      (hreplies _ _ (not_cuts_eventReport _ _ _) (replyTo_eventReport _ _ _)).2
        encodes_acknowledge hcomes⟩

/-- The acknowledged event report is returned exactly if it can be parsed. -/
theorem delivers_iff (session : HsmsSession) : Delivers session ↔ Readable session := by
  by_cases hselected : session.state = .selected
  · have hserves := serves_receiveEventReport hselected
    constructor
    · intro hdelivers _ sessionId systemBytes body hcomes
      obtain ⟨item, report, hbody, hparse, -⟩ :=
        hdelivers body ((acknowledged_iff hserves).mpr ⟨sessionId, systemBytes, hcomes⟩)
      exact ⟨item, report, hbody, hparse⟩
    · intro hreadable body hacknowledged
      obtain ⟨sessionId, systemBytes, hcomes⟩ := (acknowledged_iff hserves).mp hacknowledged
      obtain ⟨item, report, rfl, hparse⟩ :=
        hreadable hselected sessionId systemBytes body hcomes
      have hleave : receivedReport (6, 11, some item) = some (.ok report) := by
        simp [receivedReport, hparse, Except.mapError]
      exact ⟨item, report, rfl, hparse, hserves.result encodes_acknowledge
        (not_cuts_eventReport sessionId systemBytes (some item)) rfl hleave hcomes⟩
  · constructor
    · exact fun _ h => (hselected h).elim
    · intro _ body hacknowledged
      rw [receiveEventReport_call_of_not hselected] at hacknowledged
      exact (not_acknowledged_self session body hacknowledged).elim

end HostGem

end Secs

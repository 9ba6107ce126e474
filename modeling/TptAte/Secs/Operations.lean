import TptAte.Secs.Framing
import TptAte.Secs.Transact

/-! # What the calls of a session write

The four calls of a session as data, the history that each of them adds, and how
the control messages that it writes relate to the messages it read.
-/

namespace Secs

open Wire

namespace HsmsMessage

/-- A control message that a session writes in answer to another message. -/
def IsAnswer : HsmsMessage → Prop
  | .linktestRsp _ => True
  | .selectRsp _ _ => True
  | .reject _ _ _ _ => True
  | _ => False

/-- The bytes of an answer are decoded to system bytes that agree with those of
the answered message, except where the answer's own fields stand: the status in
the last byte, or the rejected stream and function and the reason in the last
three. -/
def Echoes (message answer : HsmsMessage) : Prop :=
  ∃ bytes decoded, answer.toBytes = some bytes ∧
    fromBytes bytes = .ok (decoded, bytes.length) ∧
    systemByte decoded.systemBytes 0 = systemByte message.systemBytes 0 ∧
    match answer with
    | .selectRsp _ status =>
        systemByte decoded.systemBytes 1 = systemByte message.systemBytes 1 ∧
          systemByte decoded.systemBytes 2 = systemByte message.systemBytes 2 ∧
          systemByte decoded.systemBytes 3 = status.code
    | .reject _ reason rejectedS rejectedF =>
        systemByte decoded.systemBytes 1 = rejectedS ∧
          systemByte decoded.systemBytes 2 = rejectedF ∧
          systemByte decoded.systemBytes 3 = reason
    | _ => decoded.systemBytes = message.systemBytes

/-- An answer with the system bytes of a message echoes it. -/
theorem echoes_of_systemBytes {message answer : HsmsMessage} (hanswer : answer.IsAnswer)
    (hsame : answer.systemBytes = message.systemBytes) : message.Echoes answer := by
  have hsendable : answer.Sendable := by cases answer <;> trivial
  obtain ⟨bytes, hbytes, hread⟩ := fromBytes_toBytes (canonical_onWire hsendable)
  rw [toBytes_onWire] at hbytes
  have hexact := hread []
  rw [List.append_nil] at hexact
  refine ⟨bytes, answer.onWire, hbytes, hexact, ?_⟩
  rw [← hsame]
  cases answer with
  | selectRsp => simp [onWire, systemBytes, systemByte_ofSystemBytes]
  | reject => simp [onWire, systemBytes, systemByte_ofSystemBytes]
  | linktestRsp => exact ⟨rfl, rfl⟩
  | _ => exact hanswer.elim

end HsmsMessage

namespace HsmsSession

/-! ## The calls -/

/-- The calls of a session. -/
inductive Operation where
  | select
  | acceptSelect
  | transact (stream function : UInt8) (body : Option SecsItem)
  | serveOne (makeReply : UInt8 → UInt8 → Option SecsItem → Option SecsItem)

inductive Outcome where
  | selected
  | replied (function : UInt8) (body : Option SecsItem)
  | served (stream function : UInt8) (body : Option SecsItem)
  deriving Repr

namespace Operation

def call (operation : Operation) (session : HsmsSession) : Except Stop Outcome × HsmsSession :=
  match operation with
  | .select =>
      let (result, final) := HsmsSession.select.call session
      (result.map fun () => .selected, final)
  | .acceptSelect =>
      let (result, final) := HsmsSession.acceptSelect.call session
      (result.map fun () => .selected, final)
  | .transact stream function body =>
      let (result, final) := (HsmsSession.transact stream function body).call session
      (result.map fun (function, body) => .replied function body, final)
  | .serveOne makeReply =>
      let (result, final) := (HsmsSession.serveOne makeReply).call session
      (result.map fun (stream, function, body) => .served stream function body, final)

def CarriesData : Operation → Prop
  | .transact _ _ _ | .serveOne _ => True
  | _ => False

end Operation

/-- Selecting sends its request and then waits for the response. -/
theorem select_call (session : HsmsSession) :
    select.call session =
      match session.advanced.send (.selectReq session.nextSystemBytes) with
      | (.error stop, sent) => (.error stop, sent)
      | (.ok (), sent) => awaitMessage selectReaction sent := by
  rw [select_eq]
  simp only [SessionM.call_bind, takeSystemBytes, SessionM.call_get, SessionM.call_set,
    SessionM.call_pure, write, await, SessionM.call_mk, advanced]
  generalize send _ _ = written
  rcases written with ⟨_ | ⟨⟩, sent⟩ <;> rfl

theorem serveOne_call {session : HsmsSession} (hselected : session.state = .selected)
    (makeReply : UInt8 → UInt8 → Option SecsItem → Option SecsItem) :
    (serveOne makeReply).call session = awaitMessage (serveReaction makeReply) session := by
  rw [serveOne_eq]
  simp only [SessionM.call_bind, SessionM.call_get, hselected, ne_eq, not_true_eq_false, if_false,
    await, SessionM.call_mk]

/-- Outside the selected state a transaction fails without a byte sent or read. -/
theorem transact_call_of_not {session : HsmsSession} (hstate : session.state ≠ .selected)
    (stream function : UInt8) (body : Option SecsItem) :
    (transact stream function body).call session =
      (.error (.error (.notSelected session.state)), session) := by
  simp only [transact, SessionM.call_bind, SessionM.call_get, if_pos hstate, fail,
    SessionM.call_throw]

/-- The transactions that return, told from what is inbound. -/
theorem transact_returns_iff {session : HsmsSession} {stream function replyFunction : UInt8}
    {body replyBody : Option SecsItem} (hrange : function ≠ 0xFF) :
    (∃ final, (transact stream function body).call session =
        (.ok (replyFunction, replyBody), final)) ↔
      session.state = .selected ∧ (session.primary stream function body).toBytes.isSome ∧
        ∃ requests sessionId replyStream wBit rest, session.frames = requests ++
            .data sessionId replyStream replyFunction wBit session.nextSystemBytes replyBody ::
              rest ∧
          (∀ request ∈ requests, request.IsRequest) ∧
          session.WritesSucceed (requests.length + 1) := by
  constructor
  · rintro ⟨final, htransact⟩
    by_cases hselected : session.state = .selected
    · obtain ⟨requests, sessionId, replyStream, wBit, hexchanged⟩ :=
        exchanged_of_transact hselected htransact
      exact ⟨hselected, hexchanged.encodable, requests, sessionId, replyStream, wBit, final.frames,
        hexchanged.frames, hexchanged.isRequest, hexchanged.succeeds⟩
    · rw [transact_call_of_not hselected] at htransact
      cases htransact
  · rintro ⟨hselected, hencodable, requests, sessionId, replyStream, wBit, rest, hframes,
      hrequests, hsucceeds⟩
    obtain ⟨final, htransact, -, -⟩ :=
      transact_of_carries hselected hrange hframes hrequests hsucceeds hencodable
    exact ⟨final, htransact⟩

/-- Outside the selected state serving fails without a byte sent or read. -/
theorem serveOne_call_of_not {session : HsmsSession} (hstate : session.state ≠ .selected)
    (makeReply : UInt8 → UInt8 → Option SecsItem → Option SecsItem) :
    (serveOne makeReply).call session =
      (.error (.error (.notSelected session.state)), session) := by
  rw [serveOne_eq]
  simp only [SessionM.call_bind, SessionM.call_get, if_pos hstate, fail, SessionM.call_throw]

section ServeReaction

variable {makeReply : UInt8 → UInt8 → Option SecsItem → Option SecsItem} {sessionId : UInt16}
  {stream function : UInt8} {wBit : Bool} {systemBytes : UInt32} {body : Option SecsItem}

/-- A data message that gets no reply ends `serveOne` as it is. -/
theorem serveReaction_unreplied
    (hreply : (if wBit then makeReply stream function body else none) = none) :
    ∃ last, serveReaction makeReply (.data sessionId stream function wBit systemBytes body) =
        .finish last ∧
      ∀ session, last.call session = (.ok (stream, function, body), session) := by
  refine ⟨_, rfl, fun session => ?_⟩
  simp only [hreply, SessionM.call_pure]

/-- A data message that gets a reply ends `serveOne` with the writing of it. -/
theorem serveReaction_replied {replyBody : SecsItem}
    (hreply : (if wBit then makeReply stream function body else none) = some replyBody) :
    ∃ last, serveReaction makeReply (.data sessionId stream function wBit systemBytes body) =
        .finish last ∧
      ∀ session : HsmsSession, last.call session =
        if function = 0xFF then (.error .panicked, session)
        else
          (((session.send (.data sessionId stream (function + 1) false systemBytes
            (some replyBody))).1.map fun () => (stream, function, body)),
            (session.send (.data sessionId stream (function + 1) false systemBytes
              (some replyBody))).2) := by
  refine ⟨_, rfl, fun session => ?_⟩
  simp only [hreply]
  by_cases hoverflow : function = 0xFF
  · simp [hoverflow]
  · simp only [if_neg hoverflow, SessionM.call_bind, write, SessionM.call_mk]
    rcases session.send (.data sessionId stream (function + 1) false systemBytes
      (some replyBody)) with ⟨stop | ⟨⟩, sent⟩ <;> rfl

end ServeReaction

/-! ## How a wait ends -/

/-- A stop that is neither a wait for bytes nor the refusal of a call. -/
structure IsFailure (stop : Stop) : Prop where
  ne_blocked : stop ≠ .blocked
  ne_notSelected : ∀ state, stop ≠ .error (.notSelected state)

theorem isFailure_of_send {session after : HsmsSession} {message : HsmsMessage} {stop : Stop}
    (hsend : session.send message = (.error stop, after)) : IsFailure stop := by
  rcases stop_of_send hsend with rfl | ⟨kind, rfl⟩
  · exact ⟨by simp, by simp⟩
  · exact ⟨by simp, by simp⟩

/-- A reply that is awaited ends the wait itself, or the message in its place fails it. -/
theorem isFailure_of_replyReaction {systemBytes : UInt32} {wantFunction : UInt8}
    {message : HsmsMessage} {last : SessionM HsmsMessage}
    (hreact : replyReaction systemBytes wantFunction message = .finish last)
    {session : HsmsSession} {stop : Stop} (hstop : (last.call session).1 = .error stop) :
    IsFailure stop := by
  cases message with
  | data =>
      simp only [replyReaction] at hreact
      split at hreact
      · cases hreact
        cases hstop
      · cases hreact
        cases hstop
        exact ⟨by simp, by simp⟩
  | linktestReq | selectReq => cases hreact
  | _ =>
      cases hreact
      cases hstop
      exact ⟨by simp, by simp⟩

/-- A primary that is awaited ends the wait with the write of its reply, and a Separate
fails it. -/
theorem isFailure_of_serveReaction {makeReply : UInt8 → UInt8 → Option SecsItem → Option SecsItem}
    {message : HsmsMessage} {last : SessionM (UInt8 × UInt8 × Option SecsItem)}
    (hreact : serveReaction makeReply message = .finish last) {session : HsmsSession} {stop : Stop}
    (hstop : (last.call session).1 = .error stop) : IsFailure stop := by
  cases message with
  | data sessionId stream function wBit systemBytes body =>
      cases hreply : (if wBit then makeReply stream function body else none) with
      | none =>
          obtain ⟨last', hlast, hcall⟩ := serveReaction_unreplied hreply
          cases hreact.symm.trans hlast
          rw [hcall] at hstop
          cases hstop
      | some replyBody =>
          obtain ⟨last', hlast, hcall⟩ := serveReaction_replied hreply
          cases hreact.symm.trans hlast
          rw [hcall] at hstop
          split at hstop
          · cases hstop
            exact ⟨by simp, by simp⟩
          · rcases hsend : session.send (.data sessionId stream (function + 1) false systemBytes
              (some replyBody)) with ⟨stop' | ⟨⟩, sent⟩
            · rw [hsend] at hstop
              cases hstop
              exact isFailure_of_send hsend
            · rw [hsend] at hstop
              cases hstop
  | linktestReq | selectReq => cases hreact
  | separate =>
      cases hreact
      cases hstop
      exact ⟨by simp, by simp⟩
  | _ => cases hreact

/-! ## Answers in a history -/

/-- Every answer in a history stands right behind the message that it echoes. -/
inductive Answered : List Event → Prop
  | nil : Answered []
  | read (message : HsmsMessage) {events : List Event} (hevents : Answered events) :
      Answered (.read message :: events)
  | wrote {message : HsmsMessage} {events : List Event} (hmessage : ¬ message.IsAnswer)
      (hevents : Answered events) : Answered (.wrote message :: events)
  | answer {message reply : HsmsMessage} {events : List Event} (hechoes : message.Echoes reply)
      (hevents : Answered events) : Answered (.read message :: .wrote reply :: events)

theorem Answered.append {events events' : List Event} (h : Answered events)
    (h' : Answered events') : Answered (events ++ events') := by
  induction h with
  | nil => exact h'
  | read message _ ih => exact .read message ih
  | wrote hmessage _ ih => exact .wrote hmessage ih
  | answer hechoes _ ih => exact .answer hechoes ih

variable {α : Type} {react : HsmsMessage → Reaction α}

/-- Reading and answering in turn leaves nothing unanswered. -/
theorem answered_exchange
    (hechoes : ∀ message reply, react message = .answer reply → message.Echoes reply)
    (messages : List HsmsMessage) : Answered (exchange react messages) := by
  induction messages with
  | nil => exact .nil
  | cons message messages ih =>
      rw [exchange, List.flatMap_cons]
      cases hreact : react message with
      | answer reply => exact .answer (hechoes message reply hreact) ih
      | finish last => exact ih

/-- A loop writes nothing but answers, if what it does in the end keeps to that. -/
theorem answered_await
    (hechoes : ∀ message reply, react message = .answer reply → message.Echoes reply)
    (hfinish : ∀ message last, react message = .finish last → ∀ session : HsmsSession,
      ∃ events, Grown events session (last.call session).2 ∧ Answered (.read message :: events))
    (session : HsmsSession) :
    ∃ events, Grown events session (awaitMessage react session).2 ∧ Answered events := by
  obtain ⟨messages, middle, hanswers, hleaves⟩ := exists_leaves react session
  have hgrown := hanswers.grown
  have hexchange := answered_exchange hechoes messages
  generalize awaitMessage react session = ending at hleaves
  cases hleaves with
  | unread hreceive => exact ⟨_, hgrown.trans (unread_receive hreceive).1, hexchange.append .nil⟩
  | finished hreceive hreact =>
      obtain ⟨events, hlast, hanswered⟩ := hfinish _ _ hreact _
      exact ⟨_, hgrown.trans ((grown_receive hreceive).trans hlast), hexchange.append hanswered⟩
  | unanswered hreceive hreact hsend =>
      exact ⟨_, hgrown.trans ((grown_receive hreceive).trans (unsent_send hsend).1),
        hexchange.append (.read _ .nil)⟩

theorem echoes_of_select {message reply : HsmsMessage}
    (hreact : selectReaction message = .answer reply) : message.Echoes reply := by
  cases message with
  | linktestReq =>
      cases hreact
      exact HsmsMessage.echoes_of_systemBytes trivial rfl
  | _ => cases hreact

theorem echoes_of_accept {message reply : HsmsMessage}
    (hreact : acceptReaction message = .answer reply) : message.Echoes reply := by
  cases message with
  | linktestReq =>
      cases hreact
      exact HsmsMessage.echoes_of_systemBytes trivial rfl
  | _ => cases hreact

theorem echoes_of_reply {systemBytes : UInt32} {wantFunction : UInt8} {message reply : HsmsMessage}
    (hreact : replyReaction systemBytes wantFunction message = .answer reply) :
    message.Echoes reply := by
  obtain ⟨sb, rfl | rfl⟩ := isRequest_of_replyReaction hreact
  · cases hreact
    exact HsmsMessage.echoes_of_systemBytes trivial rfl
  · cases hreact
    exact HsmsMessage.echoes_of_systemBytes trivial rfl

theorem echoes_of_serve {makeReply : UInt8 → UInt8 → Option SecsItem → Option SecsItem}
    {message reply : HsmsMessage} (hreact : serveReaction makeReply message = .answer reply) :
    message.Echoes reply := by
  cases message with
  | data | separate => cases hreact
  | _ =>
      cases hreact
      exact HsmsMessage.echoes_of_systemBytes trivial rfl

theorem answered_write (message : HsmsMessage) (session : HsmsSession) :
    ∃ events, Grown events session ((write message).call session).2 ∧
      (events = [] ∨ events = [.wrote message]) := by
  rw [write, SessionM.call_mk]
  rcases hsend : session.send message with ⟨stop | ⟨⟩, final⟩
  · exact ⟨[], (unsent_send hsend).1, .inl rfl⟩
  · exact ⟨_, grown_send hsend, .inr rfl⟩

theorem answered_select (session : HsmsSession) :
    ∃ events, Grown events session (select.call session).2 ∧ Answered events := by
  have hfinish (message : HsmsMessage) (last : SessionM Unit)
      (hreact : selectReaction message = .finish last) (final : HsmsSession) :
      ∃ events, Grown events final (last.call final).2 ∧ Answered (.read message :: events) := by
    cases message with
    | selectRsp systemBytes status =>
        cases hreact
        cases status <;> exact ⟨[], .of_stream rfl, .read _ .nil⟩
    | linktestReq => cases hreact
    | _ =>
        cases hreact
        exact ⟨[], .of_stream rfl, .read _ .nil⟩
  rw [select_call]
  rcases hsend : session.advanced.send (.selectReq session.nextSystemBytes) with ⟨stop | ⟨⟩, sent⟩
  · have hgrown := (unsent_send hsend).1
    exact ⟨[], ⟨hgrown.log, hgrown.sent⟩, .nil⟩
  · obtain ⟨events, hgrown, hanswered⟩ := answered_await (fun _ _ => echoes_of_select) hfinish sent
    have hall := (grown_send hsend).trans hgrown
    exact ⟨_, ⟨hall.log, hall.sent⟩, .wrote (fun h => h) hanswered⟩

theorem answered_acceptSelect (session : HsmsSession) :
    ∃ events, Grown events session (acceptSelect.call session).2 ∧ Answered events := by
  apply answered_await fun _ _ => echoes_of_accept
  intro message last hreact final
  cases message with
  | selectReq systemBytes =>
      cases hreact
      rw [SessionM.call_bind]
      -- the Select.rsp stands right behind the Select.req, if it is written at all
      obtain ⟨events, hgrown, hevents⟩ := answered_write (.selectRsp systemBytes .selected) final
      rcases hwrite : (write (.selectRsp systemBytes .selected)).call final with
        ⟨stop | ⟨⟩, written⟩
      all_goals
        rw [hwrite] at hgrown
        refine ⟨events, ⟨hgrown.log, hgrown.sent⟩, ?_⟩
        rcases hevents with rfl | rfl
        · exact .read _ .nil
        · exact .answer (HsmsMessage.echoes_of_systemBytes trivial rfl) .nil
  | linktestReq => cases hreact
  | _ =>
      cases hreact
      exact ⟨[], .of_stream rfl, .read _ .nil⟩

/-- During a transaction each control request is answered before anything else is read. -/
theorem answered_transact (stream function : UInt8) (body : Option SecsItem)
    (session : HsmsSession) :
    ∃ events, Grown events session ((transact stream function body).call session).2 ∧
      Answered events := by
  have hfinish (systemBytes : UInt32) (wantFunction : UInt8) (message : HsmsMessage)
      (last : SessionM HsmsMessage)
      (hreact : replyReaction systemBytes wantFunction message = .finish last)
      (final : HsmsSession) :
      ∃ events, Grown events final (last.call final).2 ∧ Answered (.read message :: events) := by
    refine ⟨[], ?_, .read _ .nil⟩
    cases message with
    | data =>
        simp only [replyReaction] at hreact
        split at hreact <;> cases hreact <;> exact .of_stream rfl
    | linktestReq | selectReq => cases hreact
    | _ =>
        cases hreact
        exact .of_stream rfl
  by_cases hselected : session.state = .selected
  · rw [transact_call hselected]
    rcases hsend : session.advanced.send (session.primary stream function body) with
      ⟨stop | ⟨⟩, sent⟩
    · have hgrown := (unsent_send hsend).1
      exact ⟨[], ⟨hgrown.log, hgrown.sent⟩, .nil⟩
    · have hsent := grown_send hsend
      dsimp only
      split
      · exact ⟨_, ⟨hsent.log, hsent.sent⟩, .wrote (fun h => h) .nil⟩
      · obtain ⟨events, hgrown, hanswered⟩ : ∃ events, Grown events sent
            (awaitMessage (replyReaction session.nextSystemBytes (function + 1)) sent).2 ∧
            Answered events :=
          answered_await (fun _ _ => echoes_of_reply)
            (hfinish session.nextSystemBytes (function + 1)) sent
        have hall := hsent.trans hgrown
        have hprimary : ¬ (session.primary stream function body).IsAnswer := fun h => h
        refine ⟨_, ?_, .wrote hprimary hanswered⟩
        generalize awaitMessage _ sent = ending at hall
        rcases ending with ⟨stop | message, final⟩
        · exact ⟨hall.log, hall.sent⟩
        · cases message <;> exact ⟨hall.log, hall.sent⟩
  · rw [transact_call_of_not hselected]
    exact ⟨[], .refl session, .nil⟩

/-- While serving each control request is answered before anything else is read. -/
theorem answered_serveOne (makeReply : UInt8 → UInt8 → Option SecsItem → Option SecsItem)
    (session : HsmsSession) :
    ∃ events, Grown events session ((serveOne makeReply).call session).2 ∧ Answered events := by
  by_cases hselected : session.state = .selected
  · rw [serveOne_call hselected]
    apply answered_await fun _ _ => echoes_of_serve
    intro message last hreact final
    cases message with
    | data sessionId stream function wBit systemBytes body =>
        cases hreply : (if wBit then makeReply stream function body else none) with
        | none =>
            obtain ⟨last', hlast, hcall⟩ := serveReaction_unreplied hreply
            cases hreact.symm.trans hlast
            rw [hcall]
            exact ⟨[], .refl final, .read _ .nil⟩
        | some replyBody =>
            obtain ⟨last', hlast, hcall⟩ := serveReaction_replied hreply
            cases hreact.symm.trans hlast
            rw [hcall]
            split
            · exact ⟨[], .refl final, .read _ .nil⟩
            · obtain ⟨events, hgrown, rfl | rfl⟩ := answered_write
                (.data sessionId stream (function + 1) false systemBytes (some replyBody)) final
              · exact ⟨[], hgrown, .read _ .nil⟩
              · exact ⟨_, hgrown, .read _ (.wrote (fun h => h) .nil)⟩
    | linktestReq | selectReq => cases hreact
    | separate =>
        cases hreact
        exact ⟨[], .of_stream rfl, .read _ .nil⟩
    | _ => cases hreact
  · rw [serveOne_call_of_not hselected]
    exact ⟨[], .refl session, .nil⟩

/-- Every control message that a call writes in answer stands right behind the
message that it answers, and what its bytes are decoded to echoes the system
bytes of that message. -/
theorem answered_call (operation : Operation) (session : HsmsSession) :
    ∃ events, Grown events session (operation.call session).2 ∧ Answered events := by
  cases operation with
  | select => exact answered_select session
  | acceptSelect => exact answered_acceptSelect session
  | transact stream function body => exact answered_transact stream function body session
  | serveOne makeReply => exact answered_serveOne makeReply session

/-- A fresh session whose peer has sent some bytes. -/
def freshSession (inbound : Bytes) : HsmsSession :=
  .new { inbound := .whole inbound, closed := false, faults := [], sent := [], log := [] } 0

def selectRequest : Bytes := [0, 0, 0, 10, 0, 0, 0, 0, 0, 1, 1, 2, 3, 4]

/-- Accepting a selection reads the request and writes the response. -/
theorem grown_selectRequest :
    Grown [.read (.selectReq 0x01020304), .wrote (.selectRsp 0x01020304 .selected)]
      (freshSession selectRequest)
      (Operation.acceptSelect.call (freshSession selectRequest)).2 := by
  have hframes : (freshSession selectRequest).frames = [.selectReq 0x01020304] := by
    have hencoded : encodeAll [.selectReq 0x01020304] = some selectRequest := by decide +kernel
    exact framesOf_encodeAll (by simp [HsmsMessage.Canonical]) hencoded false
  obtain ⟨after, hreceive⟩ := receive_of_frames hframes
  have hfaults := (received_of_receive hreceive).faults
  have hsucceeds : after.WritesSucceed 1 := by
    simp [WritesSucceed, hfaults, freshSession, HsmsSession.new]
  obtain ⟨written, hsend⟩ := @send_of_succeeds after (.selectRsp 0x01020304 .selected) hsucceeds rfl
  have hgrown := (grown_receive hreceive).trans (grown_send hsend)
  have hcall : (Operation.acceptSelect.call (freshSession selectRequest)).2.stream =
      written.stream := by
    change (acceptSelect.call (freshSession selectRequest)).2.stream = written.stream
    rw [acceptSelect_call, awaitMessage_of_finish hreceive rfl, SessionM.call_bind, write,
      SessionM.call_mk, hsend]
    rfl
  exact ⟨hcall ▸ hgrown.log, hcall ▸ hgrown.sent⟩

/-- Not every answer is decoded to the system bytes of what it answers: the status
of this Select.rsp stands in their last byte. -/
theorem not_echoed_selectRequest :
    ¬ ∀ (operation : Operation) (session : HsmsSession) (before after : List Event)
      (message reply : HsmsMessage),
      Grown (before ++ .read message :: .wrote reply :: after) session
        (operation.call session).2 → reply.IsAnswer →
      ∃ bytes decoded, reply.toBytes = some bytes ∧
        HsmsMessage.fromBytes bytes = .ok (decoded, bytes.length) ∧
        decoded.systemBytes = message.systemBytes := by
  intro hall
  obtain ⟨bytes, decoded, hbytes, hdecoded, hsame⟩ :=
    hall .acceptSelect (freshSession selectRequest) [] [] _ _ grown_selectRequest trivial
  obtain rfl : [0, 0, 0, 10, 0, 0, 0, 0, 0, 2, 1, 2, 3, 0] = bytes :=
    Option.some.inj hbytes
  have hread : (HsmsMessage.fromBytes [0, 0, 0, 10, 0, 0, 0, 0, 0, 2, 1, 2, 3, 0]).toOption.map
      (·.1.systemBytes) = some 0x01020300 := by decide +kernel
  rw [hdecoded] at hread
  have hread : decoded.systemBytes = 0x01020300 := Option.some.inj hread
  rw [hsame] at hread
  exact absurd hread (by decide)

end HsmsSession

end Secs

import TptAte.Secs.Traffic

/-! # Transactions

Which frame a transaction takes for its reply, and what becomes of it when the
peer sends primaries of its own in between.
-/

namespace Secs

open Wire

namespace HsmsMessage

/-- A control request that a selected session answers. -/
def IsRequest (message : HsmsMessage) : Prop :=
  ∃ systemBytes, message = .linktestReq systemBytes ∨ message = .selectReq systemBytes

/-- A data message that carries the given system bytes. -/
def Carries (systemBytes : UInt32) (message : HsmsMessage) : Prop :=
  ∃ sessionId stream function wBit body,
    message = .data sessionId stream function wBit systemBytes body

end HsmsMessage

namespace HsmsSession

def primary (session : HsmsSession) (stream function : UInt8) (body : Option SecsItem) :
    HsmsMessage :=
  .data session.sessionId stream function true session.nextSystemBytes body

def advanced (session : HsmsSession) : HsmsSession :=
  { session with nextSystemBytes := session.nextSystemBytes + 1 }

/-- A transaction sends its primary message and then waits for the reply. -/
theorem transact_call {session : HsmsSession} (hselected : session.state = .selected)
    (stream function : UInt8) (body : Option SecsItem) :
    (transact stream function body).call session =
      match session.advanced.send (session.primary stream function body) with
      | (.error stop, sent) => (.error stop, sent)
      | (.ok (), sent) =>
          if function = 0xFF then (.error .panicked, sent)
          else
            match awaitMessage (replyReaction session.nextSystemBytes (function + 1)) sent with
            | (.error stop, final) => (.error stop, final)
            | (.ok (.data _ _ function _ _ body), final) => (.ok (function, body), final)
            | (.ok _, final) => (.error .panicked, final) := by
  simp only [transact, SessionM.call_bind, hselected, takeSystemBytes, SessionM.call_get,
    SessionM.call_set, SessionM.call_pure, ne_eq, not_true_eq_false, if_false, write,
    SessionM.call_mk, primary, advanced]
  generalize send _ _ = written
  rcases written with ⟨_ | ⟨⟩, sent⟩
  · rfl
  by_cases hoverflow : function = 0xFF
  · simp [hoverflow]
  simp only [if_neg hoverflow, SessionM.call_bind, awaitReply, await, SessionM.call_mk]
  rcases awaitMessage (replyReaction session.nextSystemBytes (function + 1)) sent with
    ⟨_ | message, final⟩
  · rfl
  · cases message <;> rfl

/-! ## The wait for a reply -/

section ReplyReaction

variable {systemBytes : UInt32} {wantFunction : UInt8} {message : HsmsMessage}

theorem replyReaction_of_isRequest (h : message.IsRequest) :
    ∃ reply, replyReaction systemBytes wantFunction message = .answer reply ∧
      reply.toBytes.isSome := by
  obtain ⟨sb, rfl | rfl⟩ := h
  · exact ⟨.linktestRsp sb, rfl, rfl⟩
  · exact ⟨.selectRsp sb .alreadySelected, rfl, rfl⟩

/-- What is answered while a reply is awaited is a control request. -/
theorem isRequest_of_replyReaction {reply : HsmsMessage}
    (h : replyReaction systemBytes wantFunction message = .answer reply) : message.IsRequest := by
  cases message with
  | data => simp only [replyReaction] at h; split at h <;> cases h
  | selectReq sb => exact ⟨sb, .inr rfl⟩
  | linktestReq sb => exact ⟨sb, .inl rfl⟩
  | _ => cases h

/-- The wait ends well only at a data message that carries the system bytes. -/
theorem data_of_finish {last : SessionM HsmsMessage} {after final : HsmsSession}
    {reply : HsmsMessage} (hreact : replyReaction systemBytes wantFunction message = .finish last)
    (hlast : last.call after = (.ok reply, final)) :
    ∃ sessionId stream function wBit body,
      message = .data sessionId stream function wBit systemBytes body ∧
        reply = .data after.sessionId 0 function false systemBytes body ∧ final = after := by
  cases message with
  | data sessionId stream function wBit sb body =>
      simp only [replyReaction] at hreact
      split at hreact
      next hsame =>
        cases hreact
        subst hsame
        cases hlast
        exact ⟨_, _, _, _, _, rfl, rfl, rfl⟩
      · cases hreact
        cases hlast
  | selectReq sb => cases hreact
  | linktestReq sb => cases hreact
  | _ =>
      cases hreact
      cases hlast

/-- A data message with the awaited system bytes ends the wait. -/
theorem replyReaction_data (sessionId : UInt16) (stream function : UInt8) (wBit : Bool)
    (body : Option SecsItem) (after : HsmsSession) :
    ∃ last, replyReaction systemBytes wantFunction
        (.data sessionId stream function wBit systemBytes body) = .finish last ∧
      last.call after = (.ok (.data after.sessionId 0 function false systemBytes body), after) := by
  refine ⟨_, if_pos rfl, ?_⟩
  rfl

end ReplyReaction

/-- What a transaction that returns has done: it sent its primary, answered
control requests, and then read a data message with its system bytes. -/
structure Exchanged (session : HsmsSession) (stream function : UInt8) (body : Option SecsItem)
    (requests : List HsmsMessage) (message : HsmsMessage) (final : HsmsSession) : Prop where
  isRequest : ∀ request ∈ requests, request.IsRequest
  carries : message.Carries session.nextSystemBytes
  frames : session.frames = requests ++ message :: final.frames
  log : final.stream.log = session.stream.log ++ .wrote (session.primary stream function body) ::
    exchange (replyReaction session.nextSystemBytes (function + 1)) requests ++ [.read message]
  faults : final.stream.faults = session.stream.faults.drop (requests.length + 1)
  same : SameState session.advanced final
  succeeds : session.WritesSucceed (requests.length + 1)
  encodable : (session.primary stream function body).toBytes.isSome
  inRange : function ≠ 0xFF

/-- Requests answered and then the reply: this is an exchange. -/
theorem exchanged_of_answers {session sent middle final : HsmsSession} {stream function : UInt8}
    {body : Option SecsItem} {requests : List HsmsMessage} {message : HsmsMessage}
    (hrange : function ≠ 0xFF)
    (hsend : session.advanced.send (session.primary stream function body) = (.ok (), sent))
    (hanswers : Answers (replyReaction session.nextSystemBytes (function + 1)) sent requests middle)
    (hreceive : middle.receive = (.ok message, final))
    (hcarries : message.Carries session.nextSystemBytes) :
    Exchanged session stream function body requests message final := by
  have hsent := sent_of_send hsend
  have hreceived := received_of_receive hreceive
  refine ⟨?_, hcarries, ?_, ?_, ?_, ?_, ?_, hsent.isSome, hrange⟩
  · intro request hrequest
    obtain ⟨reply, hanswer⟩ := hanswers.answered request hrequest
    exact isRequest_of_replyReaction hanswer
  · rw [← hreceived.frames, ← hanswers.frames, hsent.frames]
    rfl
  · rw [hreceived.log, hanswers.log, hsent.log]
    simp [advanced]
  · rw [hreceived.faults, hanswers.faults, hsent.faults]
    simp [advanced]
  · exact (hsent.same.trans hanswers.same).trans hreceived.same
  · refine writesSucceed_succ.mpr ⟨hsent.succeeds, ?_⟩
    have hsucceeds := hanswers.succeeds
    rw [WritesSucceed, hsent.faults] at hsucceeds
    exact hsucceeds

/-- A transaction that returns has taken the first message that is not a control
request, and this message carries the system bytes of the primary. -/
theorem exchanged_of_transact {session final : HsmsSession} (hselected : session.state = .selected)
    {stream function replyFunction : UInt8} {body replyBody : Option SecsItem}
    (htransact : (transact stream function body).call session =
      (.ok (replyFunction, replyBody), final)) :
    ∃ requests sessionId replyStream wBit, Exchanged session stream function body requests
      (.data sessionId replyStream replyFunction wBit session.nextSystemBytes replyBody) final := by
  rw [transact_call hselected] at htransact
  split at htransact
  · cases htransact
  next sent hsend =>
    split at htransact
    · cases htransact
    next hoverflow =>
      split at htransact
      · cases htransact
      next hawait =>
        cases htransact
        obtain ⟨requests, middle, message, after, last, hanswers, hreceive, hreact, hlast⟩ :=
          answers_of_awaitMessage hawait
        obtain ⟨sessionId, replyStream, replyFunction', wBit, replyBody', rfl, hreply, rfl⟩ :=
          data_of_finish hreact hlast
        cases hreply
        exact ⟨requests, sessionId, replyStream, wBit,
          exchanged_of_answers hoverflow hsend hanswers hreceive ⟨_, _, _, _, _, rfl⟩⟩
      · cases htransact

/-- A session whose next writes succeed sends its primary and answers the control
requests in front of the first other message. -/
theorem exists_answered {session : HsmsSession} {stream function : UInt8} {body : Option SecsItem}
    {requests rest : List HsmsMessage} {message : HsmsMessage}
    (hframes : session.frames = requests ++ message :: rest)
    (hrequests : ∀ request ∈ requests, request.IsRequest)
    (hsucceeds : session.WritesSucceed (requests.length + 1))
    (hencodable : (session.primary stream function body).toBytes.isSome) (wantFunction : UInt8) :
    ∃ sent middle after, session.advanced.send (session.primary stream function body) =
        (.ok (), sent) ∧
      Answers (replyReaction session.nextSystemBytes wantFunction) sent requests middle ∧
      middle.receive = (.ok message, after) ∧ after.frames = rest := by
  obtain ⟨hfirst, hothers⟩ := writesSucceed_succ.mp hsucceeds
  obtain ⟨sent, hsend⟩ := @send_of_succeeds session.advanced _ hfirst hencodable
  have hsent := sent_of_send hsend
  obtain ⟨middle, hanswers, hmiddle⟩ := exists_answers (hsent.frames.trans hframes)
    (fun request hrequest => @replyReaction_of_isRequest session.nextSystemBytes wantFunction _
      (hrequests request hrequest))
    (by rw [WritesSucceed, hsent.faults]; exact hothers)
  obtain ⟨after, hreceive⟩ := receive_of_frames hmiddle
  have hreceived := received_of_receive hreceive
  rw [hreceived.frames, List.cons.injEq] at hmiddle
  exact ⟨sent, middle, after, hsend, hanswers, hreceive, hmiddle.2⟩

/-- A transaction returns the first message that is not a control request, if
this is a data message that carries its system bytes. -/
theorem transact_of_carries {session : HsmsSession} (hselected : session.state = .selected)
    {stream function replyStream replyFunction : UInt8} {sessionId : UInt16} {wBit : Bool}
    {body replyBody : Option SecsItem} {requests rest : List HsmsMessage}
    (hrange : function ≠ 0xFF)
    (hframes : session.frames = requests ++
      .data sessionId replyStream replyFunction wBit session.nextSystemBytes replyBody :: rest)
    (hrequests : ∀ request ∈ requests, request.IsRequest)
    (hsucceeds : session.WritesSucceed (requests.length + 1))
    (hencodable : (session.primary stream function body).toBytes.isSome) :
    ∃ final, (transact stream function body).call session =
        (.ok (replyFunction, replyBody), final) ∧
      Exchanged session stream function body requests
        (.data sessionId replyStream replyFunction wBit session.nextSystemBytes replyBody) final ∧
      final.frames = rest := by
  obtain ⟨sent, middle, after, hsend, hanswers, hreceive, hafter⟩ :=
    exists_answered hframes hrequests hsucceeds hencodable (function + 1)
  obtain ⟨last, hreact, hlast⟩ := @replyReaction_data session.nextSystemBytes (function + 1)
    sessionId replyStream replyFunction wBit replyBody after
  refine ⟨after, ?_, exchanged_of_answers hrange hsend hanswers hreceive ⟨_, _, _, _, _, rfl⟩,
    hafter⟩
  rw [transact_call hselected, hsend]
  simp only [if_neg hrange, awaitMessage_of_answers hanswers,
    awaitMessage_of_finish hreceive hreact, hlast]

end HsmsSession

end Secs

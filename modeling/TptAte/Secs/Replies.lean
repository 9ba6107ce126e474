import TptAte.Secs.Selected

/-! # Replies in the history of a session

What a serving session writes in answer to a message, where the replies stand in the
history of its calls, and what one call of `serveOne` and one transaction add to it.
-/

namespace Secs

open Wire

namespace HsmsMessage

section

variable (makeReply : UInt8 → UInt8 → Option SecsItem → Option SecsItem)

/-- What a serving session writes in answer to a message. -/
def replyTo : HsmsMessage → Option HsmsMessage
  | .data sessionId stream function wBit systemBytes body =>
      (if wBit then makeReply stream function body else none).map fun replyBody =>
        .data sessionId stream (function + 1) false systemBytes (some replyBody)
  | .linktestReq systemBytes => some (.linktestRsp systemBytes)
  | .selectReq systemBytes => some (.selectRsp systemBytes .alreadySelected)
  | .separate _ => none
  | other => some (.reject other.systemBytes RejectReason.illegalStatus.code 0 0)

/-- The session ends at the message without answering it: a Separate, or a reply
whose function would overflow. -/
def Cuts : HsmsMessage → Prop
  | .data _ stream function wBit _ body =>
      function = 0xFF ∧ (if wBit then makeReply stream function body else none).isSome
  | .separate _ => True
  | _ => False

end

/-- A control message that a serving session answers. -/
def IsControl : HsmsMessage → Prop
  | .data _ _ _ _ _ _ => False
  | .separate _ => False
  | _ => True

def served : HsmsMessage → Option (UInt8 × UInt8 × Option SecsItem)
  | .data _ stream function _ _ body => some (stream, function, body)
  | _ => none

end HsmsMessage

namespace HsmsSession

open HsmsMessage

variable {makeReply : UInt8 → UInt8 → Option SecsItem → Option SecsItem}

def sendReply : Option HsmsMessage → HsmsSession → Except Stop Unit × HsmsSession
  | none, session => (.ok (), session)
  | some reply, session => session.send reply

theorem sendReply_ok {reply : Option HsmsMessage} {session after : HsmsSession}
    (hsend : sendReply reply session = (.ok (), after)) :
    after.state = session.state ∧ after.stream.inbound = session.stream.inbound := by
  cases reply with
  | none =>
      cases hsend
      exact ⟨rfl, rfl⟩
  | some reply =>
      have hinbound := inbound_send reply session
      rw [show session.send reply = (.ok (), after) from hsend] at hinbound
      exact ⟨(sent_of_send hsend).same.state, hinbound⟩

/-- A reply fails only if there is one and it cannot be written. -/
theorem isSome_of_sendReply {reply : Option HsmsMessage} {session after : HsmsSession} {stop : Stop}
    (hsend : sendReply reply session = (.error stop, after)) :
    ∃ written, reply = some written ∧ session.send written = (.error stop, after) := by
  cases reply with
  | none => cases hsend
  | some written => exact ⟨written, rfl, hsend⟩

/-! ## Replies -/

/-- A history in which a message is read and a reply to it is written. -/
def Replies (events : List Event) (message reply : HsmsMessage) : Prop :=
  ∃ before after, events = before ++ .read message :: .wrote reply :: after

theorem not_replies_nil {message reply : HsmsMessage} : ¬ Replies [] message reply := by
  rintro ⟨before, after, hevents⟩
  simp at hevents

theorem replies_read_iff {events : List Event} {first message reply : HsmsMessage} :
    Replies (.read first :: events) message reply ↔
      (first = message ∧ ∃ after, events = .wrote reply :: after) ∨
        Replies events message reply := by
  constructor
  · rintro ⟨_ | ⟨event, before⟩, after, hevents⟩
    · obtain ⟨hfirst, rfl⟩ := List.cons.inj hevents
      exact .inl ⟨Event.read.inj hfirst, after, rfl⟩
    · obtain ⟨-, rfl⟩ := List.cons.inj hevents
      exact .inr ⟨before, after, rfl⟩
  · rintro (⟨rfl, after, rfl⟩ | ⟨before, after, rfl⟩)
    · exact ⟨[], after, rfl⟩
    · exact ⟨.read first :: before, after, rfl⟩

theorem replies_wrote_iff {events : List Event} {first message reply : HsmsMessage} :
    Replies (.wrote first :: events) message reply ↔ Replies events message reply := by
  constructor
  · rintro ⟨_ | ⟨event, before⟩, after, hevents⟩
    · cases hevents
    · obtain ⟨-, rfl⟩ := List.cons.inj hevents
      exact ⟨before, after, rfl⟩
  · rintro ⟨before, after, rfl⟩
    exact ⟨.wrote first :: before, after, rfl⟩

/-- An answer in two parts of a history stands in one of them, or where they meet. -/
theorem split_append {events events' before after : List Event} {message reply : HsmsMessage}
    (h : events ++ events' = before ++ .read message :: .wrote reply :: after) :
    (∃ rest, events = before ++ .read message :: .wrote reply :: rest ∧ after = rest ++ events') ∨
      (∃ rest, before = events ++ rest ∧ events' = rest ++ .read message :: .wrote reply :: after) ∨
      events = before ++ [.read message] ∧ events' = .wrote reply :: after := by
  rcases List.append_eq_append_iff.mp h with ⟨rest, hbefore, hevents'⟩ | ⟨rest, hevents, hafter⟩
  · exact .inr (.inl ⟨rest, hbefore, hevents'⟩)
  · rcases rest with _ | ⟨event, _ | ⟨event', rest⟩⟩
    · exact .inr (.inl ⟨[], by simpa using hevents.symm, hafter.symm⟩)
    · obtain ⟨rfl, hevents'⟩ := List.cons.inj hafter
      exact .inr (.inr ⟨hevents, hevents'.symm⟩)
    · simp only [List.cons_append, List.cons.injEq] at hafter
      obtain ⟨rfl, rfl, hafter⟩ := hafter
      exact .inl ⟨rest, hevents, hafter⟩

/-- A reply that is written only behind one message is written in answer to it. -/
theorem split_served {front back before after : List Event} {served message reply : HsmsMessage}
    {written : Option HsmsMessage} (hfront : .wrote reply ∉ front) (hback : .wrote reply ∉ back)
    (h : front ++ (.read served :: (written.toList.map .wrote ++ back)) =
      before ++ .read message :: .wrote reply :: after) :
    served = message ∧ written = some reply ∧ before = front ∧ after = back := by
  rcases split_append h with ⟨rest, rfl, -⟩ | ⟨rest, rfl, hevents⟩ | ⟨-, hevents⟩
  · exact (hfront (by simp)).elim
  · cases rest with
    | nil =>
        obtain ⟨hserved, hevents⟩ := List.cons.inj hevents
        cases written with
        | none => exact (hback (by rw [show back = _ from hevents]; simp)).elim
        | some other =>
            obtain ⟨hreply, hback⟩ := List.cons.inj hevents
            exact ⟨Event.read.inj hserved, congrArg some (Event.wrote.inj hreply),
              List.append_nil _, hback.symm⟩
    | cons event rest =>
        obtain ⟨-, hevents⟩ := List.cons.inj hevents
        cases written with
        | none => exact (hback (by rw [show back = _ from hevents]; simp)).elim
        | some other =>
            cases rest with
            | nil => cases hevents
            | cons event rest =>
                obtain ⟨-, hevents⟩ := List.cons.inj hevents
                exact (hback (by rw [show back = _ from hevents]; simp)).elim
  · cases hevents

/-- A reply in a log in two parts stands in one of them or across the cut. -/
theorem replies_append {events events' : List Event} {message reply : HsmsMessage}
    (h : Replies (events ++ events') message reply) :
    Replies events message reply ∨ Replies events' message reply ∨
      ∃ front rest, events = front ++ [.read message] ∧ events' = .wrote reply :: rest := by
  obtain ⟨before, after, hsplit⟩ := h
  rcases split_append hsplit with ⟨rest, hevents, -⟩ | ⟨rest, -, hevents'⟩ | ⟨hevents, hevents'⟩
  · exact .inl ⟨before, rest, hevents⟩
  · exact .inr (.inl ⟨rest, after, hevents'⟩)
  · exact .inr (.inr ⟨before, after, hevents, hevents'⟩)

/-! ## Transactions answer no primary -/

/-- The wait for a reply leaves the stream as it is at its last message. -/
theorem stream_of_replyReaction {systemBytes : UInt32} {wantFunction : UInt8}
    {message : HsmsMessage} {last : SessionM HsmsMessage}
    (hreact : replyReaction systemBytes wantFunction message = .finish last)
    (session : HsmsSession) : (last.call session).2.stream = session.stream := by
  cases message with
  | data =>
      simp only [replyReaction] at hreact
      split at hreact <;> cases hreact <;> rfl
  | linktestReq | selectReq => cases hreact
  | _ =>
      cases hreact
      rfl

/-- The wait for a reply writes no data message. -/
theorem not_writesData_awaitReply (systemBytes : UInt32) (wantFunction : UInt8)
    (session : HsmsSession) :
    ∃ events, (awaitMessage (replyReaction systemBytes wantFunction) session).2.stream.log =
        session.stream.log ++ events ∧ ∀ event ∈ events, ¬ WritesData event := by
  obtain ⟨messages, middle, hanswers, hleaves⟩ :=
    exists_leaves (replyReaction systemBytes wantFunction) session
  have hexchange (event : Event)
      (hevent : event ∈ exchange (replyReaction systemBytes wantFunction) messages) :
      ¬ WritesData event := (idle_exchange (mild_reply _ _) messages event hevent).1
  -- at most one message is read behind those that are answered
  have hlast (message : HsmsMessage) (event : Event)
      (hevent : event ∈ exchange (replyReaction systemBytes wantFunction) messages ++
        [.read message]) : ¬ WritesData event := by
    rcases List.mem_append.mp hevent with hfront | hlast
    · exact hexchange event hfront
    · exact List.mem_singleton.mp hlast ▸ not_writesData_read message
  generalize awaitMessage _ session = ending at hleaves
  cases hleaves with
  | unread hreceive =>
      refine ⟨_, ?_, hexchange⟩
      rw [(unread_receive hreceive).1.log, hanswers.log, List.append_nil]
  | @finished message after last hreceive hreact =>
      refine ⟨_, ?_, hlast message⟩
      rw [stream_of_replyReaction hreact, (received_of_receive hreceive).log, hanswers.log,
        List.append_assoc]
  | @unanswered message reply after failed stop hreceive hreact hsend =>
      refine ⟨_, ?_, hlast message⟩
      rw [(unsent_send hsend).1.log, List.append_nil, (received_of_receive hreceive).log,
        hanswers.log, List.append_assoc]

/-- The primary of a transaction is written. -/
def Opens (session : HsmsSession) (stream function : UInt8) (body : Option SecsItem) : Prop :=
  session.state = .selected ∧ session.WritesSucceed 1 ∧
    (session.primary stream function body).toBytes.isSome

/-- A transaction writes its primary first, and no other data message; where it cannot
write its primary it stops. -/
theorem events_transact (stream function : UInt8) (body : Option SecsItem)
    (session : HsmsSession) :
    ∃ events, ((transact stream function body).call session).2.stream.log =
        session.stream.log ++ events ∧
      ((session.Opens stream function body ∧
          ∃ others, events = .wrote (session.primary stream function body) :: others ∧
            ∀ event ∈ others, ¬ WritesData event) ∨
        (¬ session.Opens stream function body ∧ events = [] ∧
          ∃ stop, ((transact stream function body).call session).1 = .error stop)) := by
  by_cases hselected : session.state = .selected
  · rw [transact_call hselected]
    rcases hsend : session.advanced.send (session.primary stream function body) with
      ⟨stop | ⟨⟩, sent⟩
    · refine ⟨[], (unsent_send hsend).1.log, .inr ⟨?_, rfl, stop, rfl⟩⟩
      rintro ⟨-, hsucceeds, hencodable⟩
      obtain ⟨sent', hsent⟩ := @send_of_succeeds session.advanced _ hsucceeds hencodable
      rw [hsend] at hsent
      cases hsent
    have hopens : session.Opens stream function body :=
      ⟨hselected, (sent_of_send hsend).succeeds, (sent_of_send hsend).isSome⟩
    have hsent := (sent_of_send hsend).log
    dsimp only
    split
    · exact ⟨_, hsent, .inl ⟨hopens, [], rfl, by simp⟩⟩
    obtain ⟨others, hlog, hothers⟩ :=
      not_writesData_awaitReply session.nextSystemBytes (function + 1) sent
    refine ⟨.wrote (session.primary stream function body) :: others, ?_,
      .inl ⟨hopens, others, rfl, hothers⟩⟩
    rw [hsent, List.append_assoc] at hlog
    generalize awaitMessage _ sent = ending at hlog
    rcases ending with ⟨stop | message, final⟩
    · exact hlog
    · cases message <;> exact hlog
  · rw [transact_call_of_not hselected]
    exact ⟨[], by simp, .inr ⟨fun hopens => hselected hopens.1, rfl, _, rfl⟩⟩

/-- No data message is written in answer to what a transaction reads. -/
theorem not_replies_transact {stream function : UInt8} {body : Option SecsItem}
    {session : HsmsSession} {events : List Event}
    (hlog : ((transact stream function body).call session).2.stream.log =
      session.stream.log ++ events) {message reply : HsmsMessage}
    (hreply : WritesData (.wrote reply)) : ¬ Replies events message reply := by
  obtain ⟨events', hlog', hevents⟩ := events_transact stream function body session
  obtain rfl := List.append_cancel_left (hlog'.symm.trans hlog)
  rintro ⟨before, after, hsplit⟩
  rcases hevents with ⟨-, others, rfl, hothers⟩ | ⟨-, rfl, -⟩
  · cases before with
    | nil => cases hsplit
    | cons event before =>
        obtain ⟨-, rfl⟩ := List.cons.inj hsplit
        exact hothers _ (by simp) hreply
  · simp at hsplit

/-! ## One call of `serveOne` -/

section

variable {session middle : HsmsSession} {message : HsmsMessage}
  (hselected : session.state = .selected) (hreceive : session.receive = (.ok message, middle))

include hselected hreceive

/-- `serveOne` at a message that ends it without a reply. -/
theorem serveOne_of_cuts (hcuts : message.Cuts makeReply) :
    ∃ stop after, (serveOne makeReply).call session = (.error stop, after) ∧
      after.stream = middle.stream := by
  rw [serveOne_call hselected, awaitMessage_eq, hreceive]
  cases message with
  | data sessionId stream function wBit systemBytes body =>
      obtain ⟨hoverflow, hsome⟩ := hcuts
      obtain ⟨replyBody, hreply⟩ := Option.isSome_iff_exists.mp hsome
      obtain ⟨last, hreact, hlast⟩ := @serveReaction_replied makeReply sessionId stream function
        wBit systemBytes body replyBody hreply
      simp only [hreact, hlast, if_pos hoverflow]
      exact ⟨_, _, rfl, rfl⟩
  | separate systemBytes => exact ⟨_, _, rfl, rfl⟩
  | _ => exact hcuts.elim

/-- `serveOne` at any other message writes the reply, and returns a data message or
goes on. -/
theorem serveOne_of_not_cuts (hcuts : ¬ message.Cuts makeReply) :
    (serveOne makeReply).call session =
      match sendReply (message.replyTo makeReply) middle with
      | (.error stop, after) => (.error stop, after)
      | (.ok (), after) =>
          match message.served with
          | some served => (.ok served, after)
          | none => (serveOne makeReply).call after := by
  have hmiddle : middle.state = .selected :=
    (received_of_receive hreceive).same.state.trans hselected
  rw [serveOne_call hselected, awaitMessage_eq, hreceive]
  -- a control message is answered, and `serveOne` goes on behind the answer
  have hcontrol (reply : HsmsMessage) :
      (match middle.send reply with
        | (.error stop, after) => (Except.error stop, after)
        | (.ok (), after) => awaitMessage (serveReaction makeReply) after) =
      match sendReply (some reply) middle with
      | (.error stop, after) => (.error stop, after)
      | (.ok (), after) => (serveOne makeReply).call after := by
    rw [sendReply]
    rcases hsend : middle.send reply with ⟨stop | ⟨⟩, after⟩
    · rfl
    · exact (serveOne_call ((sent_of_send hsend).same.state.trans hmiddle) makeReply).symm
  cases message with
  | data sessionId stream function wBit systemBytes body =>
      cases hreply : (if wBit then makeReply stream function body else none) with
      | none =>
          obtain ⟨last, hreact, hlast⟩ := @serveReaction_unreplied makeReply sessionId stream
            function wBit systemBytes body hreply
          simp only [hreact, hlast, replyTo, hreply, Option.map_none, sendReply, served]
      | some replyBody =>
          obtain ⟨last, hreact, hlast⟩ := @serveReaction_replied makeReply sessionId stream function
            wBit systemBytes body replyBody hreply
          have hrange : function ≠ 0xFF := fun hoverflow => hcuts ⟨hoverflow, by simp [hreply]⟩
          simp only [hreact, hlast, if_neg hrange, replyTo, hreply, Option.map_some, sendReply]
          rcases middle.send (.data sessionId stream (function + 1) false systemBytes
            (some replyBody)) with ⟨stop | ⟨⟩, after⟩ <;> rfl
  | separate systemBytes => exact (hcuts trivial).elim
  | _ => exact hcontrol _

end

/-- What a call that serves a primary has done: it answered control messages, read
the primary, and wrote the reply to it, if there is one. -/
structure Served (makeReply : UInt8 → UInt8 → Option SecsItem → Option SecsItem)
    (session : HsmsSession) (controls : List HsmsMessage) (message : HsmsMessage)
    (final : HsmsSession) : Prop where
  isControl : ∀ control ∈ controls, control.IsControl
  frames : session.frames = controls ++ message :: final.frames
  log : final.stream.log = session.stream.log ++ (exchange (serveReaction makeReply) controls ++
    .read message :: (message.replyTo makeReply).toList.map .wrote)
  faults : final.stream.faults =
    session.stream.faults.drop (controls.length + (message.replyTo makeReply).toList.length)
  succeeds :
    session.WritesSucceed (controls.length + (message.replyTo makeReply).toList.length)
  same : SameState session final

/-- The control messages are those that the service answers and goes on. -/
theorem isControl_iff {message : HsmsMessage} :
    message.IsControl ↔ ∃ reply, serveReaction makeReply message = .answer reply := by
  cases message with
  | data | separate => exact ⟨fun h => h.elim, fun ⟨_, h⟩ => by cases h⟩
  | _ => exact ⟨fun _ => ⟨_, rfl⟩, fun _ => trivial⟩

/-- Behind the control messages in front of it a primary is served, unless it cuts the
call or its reply cannot be written. -/
theorem served_of_answers {session before middle final : HsmsSession}
    {controls : List HsmsMessage} {message : HsmsMessage}
    (hanswers : Answers (serveReaction makeReply) session controls before)
    (hreceive : before.receive = (.ok message, middle))
    (hsend : sendReply (message.replyTo makeReply) middle = (.ok (), final)) :
    Served makeReply session controls message final := by
  have hreceived := received_of_receive hreceive
  have hcontrol (control : HsmsMessage) (hmem : control ∈ controls) : control.IsControl :=
    (@isControl_iff makeReply control).mpr (hanswers.answered control hmem)
  have hframes : session.frames = controls ++ message :: middle.frames := by
    rw [hanswers.frames, hreceived.frames]
  have hlog : middle.stream.log = session.stream.log ++
      (exchange (serveReaction makeReply) controls ++ [.read message]) := by
    rw [hreceived.log, hanswers.log, List.append_assoc]
  have hfaults : middle.stream.faults = session.stream.faults.drop controls.length := by
    rw [hreceived.faults, hanswers.faults]
  have hsame := hanswers.same.trans hreceived.same
  cases hreply : message.replyTo makeReply with
  | none =>
      rw [hreply] at hsend
      cases hsend
      exact ⟨hcontrol, hframes, by simp [hlog, hreply], by simp [hfaults, hreply],
        by simpa [hreply] using hanswers.succeeds, hsame⟩
  | some reply =>
      rw [hreply] at hsend
      have hsent := sent_of_send hsend
      refine ⟨hcontrol, by rw [hframes, hsent.frames], by simp [hsent.log, hlog, hreply],
        by simp [hsent.faults, hfaults, hreply], ?_, hsame.trans hsent.same⟩
      intro fault hfault
      rw [hreply, Option.toList_some, List.length_singleton, List.take_add,
        List.mem_append] at hfault
      rcases hfault with hfault | hfault
      · exact hanswers.succeeds fault hfault
      · exact hsent.succeeds fault (by rwa [hfaults])

/-- Serving that returns has answered control messages and then a data message. -/
theorem served_of_serveOne {session final : HsmsSession} (hselected : session.state = .selected)
    {stream function : UInt8} {body : Option SecsItem}
    (hserve : (serveOne makeReply).call session = (.ok (stream, function, body), final)) :
    ∃ controls sessionId wBit systemBytes, Served makeReply session controls
      (.data sessionId stream function wBit systemBytes body) final := by
  rw [serveOne_call hselected] at hserve
  obtain ⟨controls, before, message, middle, last, hanswers, hreceive, hreact, hlast⟩ :=
    answers_of_awaitMessage hserve
  have hbefore : before.state = .selected := hanswers.same.state.trans hselected
  have hone : (serveOne makeReply).call before = (.ok (stream, function, body), final) := by
    rw [serveOne_call hbefore, awaitMessage_of_finish hreceive hreact, hlast]
  have hcuts : ¬ message.Cuts makeReply := by
    intro hcuts
    obtain ⟨stop, after, hstop, -⟩ := serveOne_of_cuts hbefore hreceive hcuts
    rw [hone] at hstop
    cases hstop
  rw [serveOne_of_not_cuts hbefore hreceive hcuts] at hone
  rcases hsend : sendReply (message.replyTo makeReply) middle with ⟨stop | ⟨⟩, after⟩
  · rw [hsend] at hone
    cases hone
  rw [hsend] at hone
  cases message with
  | data sessionId stream' function' wBit systemBytes body' =>
      cases hone
      exact ⟨controls, sessionId, wBit, systemBytes, served_of_answers hanswers hreceive hsend⟩
  | separate => exact (hcuts trivial).elim
  | _ => cases hreact

/-- A call that stops has written no data message. -/
theorem not_writesData_serveOne {session final : HsmsSession} {stop : Stop}
    (hserve : (serveOne makeReply).call session = (.error stop, final)) :
    ∃ events, final.stream.log = session.stream.log ++ events ∧
      ∀ event ∈ events, ¬ WritesData event := by
  by_cases hselected : session.state = .selected
  · rw [serveOne_call hselected] at hserve
    obtain ⟨controls, before, hanswers, hleaves⟩ :=
      exists_leaves (serveReaction makeReply) session
    have hbefore : before.state = .selected := hanswers.same.state.trans hselected
    have hexchange (event : Event)
        (hevent : event ∈ exchange (serveReaction makeReply) controls) : ¬ WritesData event :=
      (idle_exchange (mild_serve makeReply) controls event hevent).1
    -- the last message is read and not answered
    have hlast (message : HsmsMessage) (middle : HsmsSession)
        (hreceive : before.receive = (.ok message, middle))
        (hlog : final.stream.log = middle.stream.log) :
        ∃ events, final.stream.log = session.stream.log ++ events ∧
          ∀ event ∈ events, ¬ WritesData event := by
      refine ⟨exchange (serveReaction makeReply) controls ++ [.read message], ?_, ?_⟩
      · rw [hlog, (received_of_receive hreceive).log, hanswers.log, List.append_assoc]
      · intro event hevent
        rcases List.mem_append.mp hevent with hfront | hread
        · exact hexchange event hfront
        · exact List.mem_singleton.mp hread ▸ not_writesData_read message
    rw [hserve] at hleaves
    generalize hending : (Except.error stop, final) = ending at hleaves
    cases hleaves with
    | unread hreceive =>
        cases hending
        refine ⟨_, ?_, hexchange⟩
        rw [(unread_receive hreceive).1.log, hanswers.log, List.append_nil]
    | unanswered hreceive _ hsend =>
        cases hending
        exact hlast _ _ hreceive (by rw [(unsent_send hsend).1.log, List.append_nil])
    | @finished message middle last hreceive hreact =>
        have hone : (serveOne makeReply).call before = (.error stop, final) := by
          rw [serveOne_call hbefore, awaitMessage_of_finish hreceive hreact, hending]
        by_cases hcuts : message.Cuts makeReply
        · obtain ⟨stop', after, hstop, hstream⟩ := serveOne_of_cuts hbefore hreceive hcuts
          rw [hone] at hstop
          cases hstop
          exact hlast message middle hreceive (by rw [hstream])
        rw [serveOne_of_not_cuts hbefore hreceive hcuts] at hone
        rcases hsend : sendReply (message.replyTo makeReply) middle with ⟨stop' | ⟨⟩, after⟩
        · rw [hsend] at hone
          cases hone
          obtain ⟨reply, -, hfailed⟩ := isSome_of_sendReply hsend
          exact hlast message middle hreceive (by rw [(unsent_send hfailed).1.log, List.append_nil])
        · rw [hsend] at hone
          cases message with
          | data => cases hone
          | separate => exact (hcuts trivial).elim
          | _ => cases hreact
  · rw [serveOne_call_of_not hselected] at hserve
    cases hserve
    exact ⟨[], by simp, by simp⟩

/-- A primary behind control messages is served, if the writes succeed. -/
theorem exists_served {session : HsmsSession} (hselected : session.state = .selected)
    {controls rest : List HsmsMessage} {sessionId : UInt16} {stream function : UInt8} {wBit : Bool}
    {systemBytes : UInt32} {body : Option SecsItem} {reply : HsmsMessage}
    (hframes : session.frames =
      controls ++ .data sessionId stream function wBit systemBytes body :: rest)
    (hcontrols : ∀ control ∈ controls, control.IsControl) (hrange : function ≠ 0xFF)
    (hreply : (HsmsMessage.data sessionId stream function wBit systemBytes body).replyTo makeReply =
      some reply) (hencodable : reply.toBytes.isSome)
    (hsucceeds : session.WritesSucceed (controls.length + 1)) :
    ∃ final, (serveOne makeReply).call session = (.ok (stream, function, body), final) ∧
      Served makeReply session controls
        (.data sessionId stream function wBit systemBytes body) final ∧
      final.frames = rest := by
  -- each control message has an answer that can be sent
  have hanswerable (control : HsmsMessage) (hmem : control ∈ controls) :
      ∃ answer, serveReaction makeReply control = .answer answer ∧ answer.toBytes.isSome := by
    have hcontrol := hcontrols control hmem
    cases control with
    | data | separate => exact hcontrol.elim
    | _ => exact ⟨_, rfl, rfl⟩
  obtain ⟨before, hanswers, hbefore⟩ := exists_answers hframes hanswerable
    fun fault hfault => hsucceeds fault ((List.take_sublist_take_left (by omega)).subset hfault)
  have hstate : before.state = .selected := hanswers.same.state.trans hselected
  obtain ⟨middle, hreceive⟩ := receive_of_frames hbefore
  have hreceived := received_of_receive hreceive
  obtain ⟨final, hsend⟩ := @send_of_succeeds middle reply (by
    intro fault hfault
    rw [hreceived.faults, hanswers.faults] at hfault
    exact hsucceeds fault (by rw [List.take_add]; exact List.mem_append_right _ hfault)) hencodable
  -- the primary message is reached, and one more write succeeds
  have hsendReply : sendReply ((HsmsMessage.data sessionId stream function wBit systemBytes
      body).replyTo makeReply) middle = (.ok (), final) := by
    rw [hreply]
    exact hsend
  have hone : (serveOne makeReply).call before = (.ok (stream, function, body), final) := by
    rw [serveOne_of_not_cuts hstate hreceive fun h => hrange h.1, hsendReply]
    rfl
  refine ⟨final, ?_, served_of_answers hanswers hreceive hsendReply, ?_⟩
  · rw [serveOne_call hselected, awaitMessage_of_answers hanswers, ← serveOne_call hstate, hone]
  · rw [hreceived.frames, List.cons.injEq] at hbefore
    rw [(sent_of_send hsend).frames, hbefore.2]

end HsmsSession

end Secs

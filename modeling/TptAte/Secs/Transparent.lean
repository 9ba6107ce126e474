import TptAte.Secs.Causal

/-! # Control traffic is transparent

Requests of the peer that a call answers while it waits change neither what the
call returns nor the session that it leaves: they only add their answers to what
is written.
-/

namespace Secs

open Wire

inductive ControlRequest where
  | linktest (systemBytes : UInt32)
  | select (systemBytes : UInt32)

namespace ControlRequest

def message : ControlRequest → HsmsMessage
  | linktest systemBytes => .linktestReq systemBytes
  | select systemBytes => .selectReq systemBytes

/-- What a session that is already selected answers. -/
def answer : ControlRequest → HsmsMessage
  | linktest systemBytes => .linktestRsp systemBytes
  | select systemBytes => .selectRsp systemBytes .alreadySelected

end ControlRequest

/-- Frames with further frames inserted, each of which carries a request of an
allowed kind; with these requests in their order. -/
inductive Inserted (allowed : ControlRequest → Prop) :
    List ControlRequest → List Frame → List Frame → Prop
  | nil : Inserted allowed [] [] []
  | keep {requests : List ControlRequest} {frames inserted : List Frame} (frame : Frame)
      (hrest : Inserted allowed requests frames inserted) :
      Inserted allowed requests (frame :: frames) (frame :: inserted)
  | insert {request : ControlRequest} {requests : List ControlRequest}
      {frames inserted : List Frame} {frame : Frame} (hallowed : allowed request)
      (hdecode : frame.decode = .ok request.message)
      (hrest : Inserted allowed requests frames inserted) :
      Inserted allowed (request :: requests) frames (frame :: inserted)

namespace HsmsSession

/-- A history with requests inserted, each right in front of its answer. -/
inductive Spliced : List ControlRequest → List Event → List Event → Prop
  | nil : Spliced [] [] []
  | keep {requests : List ControlRequest} {events events' : List Event} (event : Event)
      (hrest : Spliced requests events events') :
      Spliced requests (event :: events) (event :: events')
  | insert {request : ControlRequest} {requests : List ControlRequest}
      {events events' : List Event} (hrest : Spliced requests events events') :
      Spliced (request :: requests) events
        (.read request.message :: .wrote request.answer :: events')

theorem Spliced.refl (events : List Event) : Spliced [] events events := by
  induction events with
  | nil => exact .nil
  | cons event events ih => exact .keep event ih

theorem Spliced.behind {requests : List ControlRequest} {events events' : List Event}
    (h : Spliced requests events events') (front : List Event) :
    Spliced requests (front ++ events) (front ++ events') := by
  induction front with
  | nil => exact h
  | cons event front ih => exact .keep event ih

theorem Spliced.append {requests : List ControlRequest} {events events' : List Event}
    (h : Spliced requests events events') (back : List Event) :
    Spliced requests (events ++ back) (events' ++ back) := by
  induction h with
  | nil => exact .refl back
  | keep event _ ih => exact .keep event ih
  | insert _ ih => exact .insert ih

/-- The requests that a call answers while it waits: a Select.req only while the
session is selected. -/
def Operation.Tolerates (operation : Operation) : ControlRequest → Prop
  | .linktest _ => True
  | .select _ => operation.CarriesData

def withInbound (session : HsmsSession) (closed : Bool) (inbound : Source) : HsmsSession :=
  { session with stream := { session.stream with inbound, closed } }

theorem faultless_withInbound {session : HsmsSession} (hfaults : session.stream.faults = [])
    (closed : Bool) {inbound : Source} (hclean : inbound.Clean) :
    (session.withInbound closed inbound).Faultless :=
  ⟨hclean, hfaults⟩

/-- Two calls, of which the second meets further requests: they return the same,
leave the same session and the same bytes, and differ in the answers alone. -/
structure Unaltered {α : Type} (requests : List ControlRequest) (session session' : HsmsSession)
    (result result' : Except Stop α × HsmsSession) : Prop where
  outcome : result'.1 = result.1
  same : SameState result.2 result'.2
  unread : result'.2.stream.inbound.bytes = result.2.stream.inbound.bytes
  history : ∃ events events', Grown events session result.2 ∧ Grown events' session' result'.2 ∧
    Spliced requests events events'

/-! ## Waiting loops -/

section Loops

variable {α : Type} {react : HsmsMessage → Reaction α}

/-- What a faultless session receives in a frame. -/
theorem receive_frame {session : HsmsSession} (hfaultless : session.Faultless) {frame : Frame}
    {rest : Bytes} (hbytes : session.stream.inbound.bytes = frame.bytes ++ rest) :
    ∃ after : HsmsSession, session.receive = (frame.result, after) ∧ after.Faultless ∧
      after.stream.inbound.bytes = rest ∧ after.stream.closed = session.stream.closed := by
  obtain ⟨inbound, hread, hclean, hrest⟩ :=
    readMessage_frame session.stream.closed hfaultless.clean hbytes
  unfold receive
  dsimp only
  rw [hread]
  cases frame.result with
  | error stop => exact ⟨_, rfl, ⟨hclean, hfaultless.faults⟩, hrest, rfl⟩
  | ok message => exact ⟨_, rfl, ⟨hclean, hfaultless.faults⟩, hrest, rfl⟩

/-- With nothing to read on an open stream a session waits. -/
theorem receive_nil {session : HsmsSession} (hfaultless : session.Faultless)
    (hopen : session.stream.closed = false) (hbytes : session.stream.inbound.bytes = []) :
    ∃ after, session.receive = (.error .blocked, after) := by
  unfold receive
  dsimp only
  rw [readMessage, readExactCounted_clean _ 4 hfaultless.clean, hbytes, hopen]
  exact ⟨_, rfl⟩

/-- A loop reads a frame, answers it and goes on. -/
theorem answer_frame {session : HsmsSession} (hfaultless : session.Faultless) {frame : Frame}
    {rest : Bytes} (hbytes : session.stream.inbound.bytes = frame.bytes ++ rest)
    {message reply : HsmsMessage} (hdecode : frame.decode = .ok message)
    (hreact : react message = .answer reply) (hreply : reply.toBytes.isSome) :
    ∃ next : HsmsSession, awaitMessage react session = awaitMessage react next ∧
      Grown [.read message, .wrote reply] session next ∧ next.Faultless ∧
      next.stream.inbound.bytes = rest ∧ next.stream.closed = session.stream.closed ∧
      SameState session next := by
  obtain ⟨middle, hreceive, hmiddle, hrest, hclosed⟩ := receive_frame hfaultless hbytes
  rw [Frame.result, hdecode] at hreceive
  change session.receive = (.ok message, middle) at hreceive
  obtain ⟨bytes, hencoded⟩ := Option.isSome_iff_exists.mp hreply
  have hsend := hmiddle.send reply
  rw [hencoded] at hsend
  refine ⟨_, awaitMessage_of_answers (.cons hreceive hreact hsend (.nil _)),
    (grown_receive hreceive).trans (grown_send hsend), ⟨hmiddle.clean, hmiddle.faults⟩, hrest,
    hclosed, (received_of_receive hreceive).same.trans (sent_of_send hsend).same⟩

/-- A frame whose message the loop answers. -/
def Passes (react : HsmsMessage → Reaction α) (frame : Frame) : Prop :=
  ∃ message reply, frame.decode = .ok message ∧ react message = .answer reply ∧
    reply.toBytes.isSome

/-- A loop that is still waiting has answered all frames. -/
theorem passes_of_blocked
    (hfinish : ∀ message last, react message = .finish last → ∀ session : HsmsSession,
      (last.call session).1 ≠ .error .blocked)
    {frames : List Frame} {session : HsmsSession} (hfaultless : session.Faultless)
    (hbytes : session.stream.inbound.bytes = frames.flatMap Frame.bytes)
    (hblocked : (awaitMessage react session).1 = .error .blocked) :
    ∀ frame ∈ frames, Passes react frame := by
  -- by induction on the frames: a wait that comes to an end at one of them is not blocked
  induction frames generalizing session with
  | nil => simp
  | cons frame frames ih =>
      rw [List.flatMap_cons] at hbytes
      obtain ⟨middle, hreceive, hmiddle, hrest, -⟩ := receive_frame hfaultless hbytes
      cases hdecode : frame.decode with
      | error error =>
          rw [Frame.result, hdecode] at hreceive
          rw [awaitMessage_eq, hreceive] at hblocked
          cases hblocked
      | ok message =>
          rw [Frame.result, hdecode] at hreceive
          change session.receive = (.ok message, middle) at hreceive
          cases hreact : react message with
          | finish last =>
              rw [awaitMessage_of_finish hreceive hreact] at hblocked
              exact (hfinish message last hreact middle hblocked).elim
          | answer reply =>
              cases hencoded : reply.toBytes with
              | none =>
                  have hsend := hmiddle.send reply
                  rw [hencoded] at hsend
                  rw [awaitMessage_eq, hreceive] at hblocked
                  simp only [hreact, hsend] at hblocked
                  cases hblocked
              | some bytes =>
                  have hreply : reply.toBytes.isSome := by simp [hencoded]
                  obtain ⟨next, hawait, -, hnext, hbytes', -⟩ :=
                    answer_frame hfaultless hbytes hdecode hreact hreply
                  rw [hawait] at hblocked
                  exact List.forall_mem_cons.mpr
                    ⟨⟨message, reply, hdecode, hreact, hreply⟩, ih hnext hbytes' hblocked⟩

/-- Over frames that it answers, with requests inserted or without, a loop comes
to the same place. -/
theorem exists_aligned {allowed : ControlRequest → Prop}
    (hallowed : ∀ request, allowed request → react request.message = .answer request.answer)
    {requests : List ControlRequest} {frames inserted : List Frame}
    (hinserted : Inserted allowed requests frames inserted)
    (hpasses : ∀ frame ∈ frames, Passes react frame) {tail : Bytes}
    {session session' : HsmsSession} (hfaultless : session.Faultless)
    (hfaultless' : session'.Faultless)
    (hsame : SameState session session') (hclosed : session'.stream.closed = session.stream.closed)
    (hbytes : session.stream.inbound.bytes = frames.flatMap Frame.bytes ++ tail)
    (hbytes' : session'.stream.inbound.bytes = inserted.flatMap Frame.bytes ++ tail) :
    ∃ next next' events events', awaitMessage react session = awaitMessage react next ∧
      awaitMessage react session' = awaitMessage react next' ∧ Grown events session next ∧
      Grown events' session' next' ∧ Spliced requests events events' ∧ Ahead [] next next' := by
  -- by induction on the insertion: the two sessions stay aligned behind each frame
  induction hinserted generalizing session session' with
  | nil =>
      refine ⟨session, session', [], [], rfl, rfl, .refl session, .refl session', .nil, hfaultless,
        hfaultless', hsame, hclosed, fun h => (h rfl).elim, ?_⟩
      rw [hbytes, hbytes', List.append_nil]
  | keep frame hrest ih =>
      -- a frame of both streams is answered by both sessions
      obtain ⟨⟨message, reply, hdecode, hreact, hreply⟩, hothers⟩ := List.forall_mem_cons.mp hpasses
      rw [List.flatMap_cons, List.append_assoc] at hbytes hbytes'
      obtain ⟨next, hawait, hgrown, hnext, hnextBytes, hnextClosed, hnextSame⟩ :=
        answer_frame hfaultless hbytes hdecode hreact hreply
      obtain ⟨next', hawait', hgrown', hnext', hnextBytes', hnextClosed', hnextSame'⟩ :=
        answer_frame hfaultless' hbytes' hdecode hreact hreply
      have hsame' : SameState next next' :=
        ⟨hnextSame'.state.trans (hsame.state.trans hnextSame.state.symm),
          hnextSame'.sessionId.trans (hsame.sessionId.trans hnextSame.sessionId.symm),
          hnextSame'.nextSystemBytes.trans
            (hsame.nextSystemBytes.trans hnextSame.nextSystemBytes.symm)⟩
      obtain ⟨last, last', events, events', hlast, hlast', hall, hall', hspliced, hahead⟩ :=
        ih hothers hnext hnext' hsame' (hnextClosed'.trans (hclosed.trans hnextClosed.symm))
          hnextBytes hnextBytes'
      exact ⟨last, last', _, _, hawait.trans hlast, hawait'.trans hlast', hgrown.trans hall,
        hgrown'.trans hall', hspliced.behind _, hahead⟩
  | @insert request _ _ _ _ hrequest hdecode hrest ih =>
      rw [List.flatMap_cons, List.append_assoc] at hbytes'
      -- an inserted request is answered by the second session alone
      have hreply : request.answer.toBytes.isSome := by cases request <;> rfl
      obtain ⟨next', hawait', hgrown', hnext', hnextBytes', hnextClosed', hnextSame'⟩ :=
        answer_frame hfaultless' hbytes' hdecode (hallowed request hrequest) hreply
      obtain ⟨last, last', events, events', hlast, hlast', hall, hall', hspliced, hahead⟩ :=
        ih hpasses hfaultless hnext' (hsame.trans hnextSame') (hnextClosed'.trans hclosed)
          hbytes hnextBytes'
      exact ⟨last, last', events, _, hlast, hawait'.trans hlast', hall, hgrown'.trans hall',
        .insert hspliced, hahead⟩

/-- A call of a session that comes to wait in a loop, and shows what the loop
returns. -/
structure Waits {β : Type} (react : HsmsMessage → Reaction α)
    (call : HsmsSession → Except Stop β × HsmsSession) (session : HsmsSession) : Prop where
  enters : ∃ (start : HsmsSession) (front : List Event)
    (shown : Except Stop α → Except Stop β), start.stream.faults = [] ∧
    (∀ result, shown result = .error .blocked → result = .error .blocked) ∧
    ∀ closed inbound, inbound.Clean →
      call (session.withInbound closed inbound) =
          (shown (awaitMessage react (start.withInbound closed inbound)).1,
            (awaitMessage react (start.withInbound closed inbound)).2) ∧
        Grown front (session.withInbound closed inbound) (start.withInbound closed inbound)
  causal : Causal (await react)
  ends : ∀ message last, react message = .finish last → ∀ session : HsmsSession,
    (last.call session).1 ≠ .error .blocked

/-- A call that waits is not altered by requests that its wait answers. -/
theorem Waits.unaltered {β : Type} {call : HsmsSession → Except Stop β × HsmsSession}
    {session : HsmsSession} (h : Waits react call session) {allowed : ControlRequest → Prop}
    (hallowed : ∀ request, allowed request → react request.message = .answer request.answer)
    {requests : List ControlRequest} {before inserted : List Frame}
    (hinserted : Inserted allowed requests before inserted)
    (hwaits : (call (session.withInbound false (.whole (before.flatMap Frame.bytes)))).1 =
      .error .blocked)
    (closed : Bool) {tail : Bytes} {inbound inbound' : Source} (hclean : inbound.Clean)
    (hclean' : inbound'.Clean) (hbytes : inbound.bytes = before.flatMap Frame.bytes ++ tail)
    (hbytes' : inbound'.bytes = inserted.flatMap Frame.bytes ++ tail) :
    Unaltered requests (session.withInbound closed inbound) (session.withInbound closed inbound')
      (call (session.withInbound closed inbound)) (call (session.withInbound closed inbound')) := by
  obtain ⟨⟨start, front, shown, hfaults, hshown, hcall⟩, hcausal, hends⟩ := h
  have hwhole := Source.clean_whole (before.flatMap Frame.bytes)
  -- the loop waits behind the frames in front, so it answers them
  have hpasses : ∀ frame ∈ before, Passes react frame := by
    rw [(hcall false _ hwhole).1] at hwaits
    have hbytes :
        (start.withInbound false (.whole (before.flatMap Frame.bytes))).stream.inbound.bytes =
      before.flatMap Frame.bytes := Source.bytes_whole _
    exact passes_of_blocked hends (faultless_withInbound hfaults false hwhole) hbytes
      (hshown _ hwaits)
  obtain ⟨next, next', events, events', hawait, hawait', hgrown, hgrown', hspliced, hahead⟩ :=
    @exists_aligned _ _ _ hallowed _ _ _ hinserted hpasses tail (start.withInbound closed inbound)
      (start.withInbound closed inbound') (faultless_withInbound hfaults closed hclean)
      (faultless_withInbound hfaults closed hclean') ⟨rfl, rfl, rfl⟩ rfl hbytes hbytes'
  obtain ⟨last, last', hlast, hlast', -, hcases⟩ := hcausal.continues [] next next' hahead
  rcases hcases with ⟨hsame, rfl, hfinal⟩ | ⟨-, hmore, -⟩
  · simp only [await, SessionM.call_mk] at hlast hlast' hsame hfinal
    rw [(hcall closed inbound hclean).1, (hcall closed inbound' hclean').1, hawait, hawait']
    exact ⟨congrArg shown hsame, hfinal.same, hfinal.bytes.trans (List.append_nil _), _, _,
      (hcall closed inbound hclean).2.trans (hgrown.trans hlast),
      (hcall closed inbound' hclean').2.trans (hgrown'.trans hlast'),
      (hspliced.append last').behind front⟩
  · exact (hmore rfl).elim

end Loops

/-! ## The four calls -/

theorem map_eq_blocked {α β : Type} {f : α → β} {result : Except Stop α}
    (h : result.map f = .error .blocked) : result = .error .blocked := by
  cases result with
  | error stop =>
      cases h
      rfl
  | ok value => cases h

/-- `select` at a faultless session: it writes its request and waits. -/
theorem select_call_of_faultless {session : HsmsSession} (hfaultless : session.Faultless)
    {bytes : Bytes}
    (hbytes : (HsmsMessage.selectReq session.nextSystemBytes).toBytes = some bytes) :
    select.call session = awaitMessage selectReaction
      (session.advanced.havingSent (.selectReq session.nextSystemBytes) bytes) := by
  have hadvanced : session.advanced.Faultless := ⟨hfaultless.clean, hfaultless.faults⟩
  rw [select_call, hadvanced.send, hbytes]

theorem waits_select {session : HsmsSession} (hfaults : session.stream.faults = []) :
    Waits selectReaction Operation.select.call session := by
  obtain ⟨bytes, hbytes⟩ : ∃ bytes, (HsmsMessage.selectReq session.nextSystemBytes).toBytes =
    some bytes := ⟨_, rfl⟩
  refine ⟨⟨session.advanced.havingSent (.selectReq session.nextSystemBytes) bytes,
    [.wrote (.selectReq session.nextSystemBytes)], Except.map fun () => .selected, hfaults,
    fun _ => map_eq_blocked, fun closed inbound hclean => ?_⟩, causal_awaitSelectRsp, ?_⟩
  · have hselect := select_call_of_faultless (faultless_withInbound hfaults closed hclean) hbytes
    have hgrown := grown_havingSent (session.withInbound closed inbound) hbytes
    refine ⟨?_, hgrown.log, hgrown.sent⟩
    simp only [Operation.call, hselect]
    rfl
  · intro message last hreact final
    cases message with
    | selectRsp _ status =>
        cases hreact
        cases status <;> exact fun h => by cases h
    | linktestReq => cases hreact
    | _ =>
        cases hreact
        exact fun h => by cases h

theorem waits_acceptSelect {session : HsmsSession} (hfaults : session.stream.faults = []) :
    Waits acceptReaction Operation.acceptSelect.call session := by
  refine ⟨⟨session, [], Except.map fun () => .selected, hfaults, fun _ => map_eq_blocked,
    fun closed inbound hclean => ⟨rfl, .refl _⟩⟩, causal_acceptSelect, ?_⟩
  intro message last hreact final
  cases message with
  | selectReq systemBytes =>
      cases hreact
      rw [SessionM.call_bind, write, SessionM.call_mk]
      rcases hsend : final.send (.selectRsp systemBytes .selected) with ⟨stop | ⟨⟩, sent⟩
      · simpa using (isFailure_of_send hsend).ne_blocked
      · exact fun h => by cases h
  | linktestReq => cases hreact
  | _ =>
      cases hreact
      exact fun h => by cases h

/-- What a transaction shows of the message that its wait returned. -/
def replyOutcome : Except Stop HsmsMessage → Except Stop Outcome
  | .ok (.data _ _ function _ _ body) => .ok (.replied function body)
  | .ok _ => .error .panicked
  | .error stop => .error stop

/-- A transaction at a faultless session: it writes its primary and waits. -/
theorem transact_call_of_faultless {session : HsmsSession} (hfaultless : session.Faultless)
    (hselected : session.state = .selected) {stream function : UInt8} {body : Option SecsItem}
    (hfunction : function ≠ 0xFF) {bytes : Bytes}
    (hbytes : (session.primary stream function body).toBytes = some bytes) :
    (Operation.transact stream function body).call session =
      (replyOutcome (awaitMessage (replyReaction session.nextSystemBytes (function + 1))
          (session.advanced.havingSent (session.primary stream function body) bytes)).1,
        (awaitMessage (replyReaction session.nextSystemBytes (function + 1))
          (session.advanced.havingSent (session.primary stream function body) bytes)).2) := by
  have hadvanced : session.advanced.Faultless := ⟨hfaultless.clean, hfaultless.faults⟩
  simp only [Operation.call]
  rw [transact_call hselected, hadvanced.send, hbytes]
  dsimp only
  rw [if_neg hfunction]
  rcases awaitMessage (replyReaction session.nextSystemBytes (function + 1))
    (session.advanced.havingSent (session.primary stream function body) bytes) with
    ⟨stop | message, final⟩
  · rfl
  · cases message <;> rfl

theorem waits_transact {session : HsmsSession} (hfaults : session.stream.faults = [])
    (hselected : session.state = .selected) {stream function : UInt8} {body : Option SecsItem}
    (hfunction : function ≠ 0xFF) {bytes : Bytes}
    (hbytes : (session.primary stream function body).toBytes = some bytes) :
    Waits (replyReaction session.nextSystemBytes (function + 1))
      (Operation.transact stream function body).call session := by
  have hshown (result : Except Stop HsmsMessage) (h : replyOutcome result = .error .blocked) :
      result = .error .blocked := by
    cases result with
    | error stop =>
        cases h
        rfl
    | ok message => cases message <;> cases h
  refine ⟨⟨session.advanced.havingSent (session.primary stream function body) bytes,
    [.wrote (session.primary stream function body)], replyOutcome, hfaults, hshown,
    fun closed inbound hclean => ?_⟩, causal_awaitReply _ _, ?_⟩
  · have hcall :
        (Operation.transact stream function body).call (session.withInbound closed inbound) = _ :=
      transact_call_of_faultless (faultless_withInbound hfaults closed hclean) hselected hfunction
        hbytes
    have hgrown := grown_havingSent (session.withInbound closed inbound) hbytes
    exact ⟨hcall, hgrown.log, hgrown.sent⟩
  · intro message last hreact final hstop
    exact (isFailure_of_replyReaction hreact hstop).ne_blocked rfl

theorem waits_serveOne {session : HsmsSession} (hfaults : session.stream.faults = [])
    (hselected : session.state = .selected)
    (makeReply : UInt8 → UInt8 → Option SecsItem → Option SecsItem) :
    Waits (serveReaction makeReply) (Operation.serveOne makeReply).call session := by
  refine ⟨⟨session, [], Except.map fun served => .served served.1 served.2.1 served.2.2,
    hfaults, fun _ => map_eq_blocked, fun closed inbound hclean => ⟨?_, .refl _⟩⟩,
    causal_awaitPrimary makeReply, ?_⟩
  · have hstate : (session.withInbound closed inbound).state = .selected := hselected
    simp only [Operation.call, serveOne_call hstate]
  · intro message last hreact final hstop
    exact (isFailure_of_serveReaction hreact hstop).ne_blocked rfl

/-- A transaction that comes to wait has written its primary. -/
theorem of_transact_blocked {session : HsmsSession} (hfaultless : session.Faultless)
    {stream function : UInt8} {body : Option SecsItem}
    (hblocked : ((Operation.transact stream function body).call session).1 = .error .blocked) :
    session.state = .selected ∧ function ≠ 0xFF ∧
      ∃ bytes, (session.primary stream function body).toBytes = some bytes := by
  have hadvanced : session.advanced.Faultless := ⟨hfaultless.clean, hfaultless.faults⟩
  by_cases hselected : session.state = .selected
  · simp only [Operation.call] at hblocked
    rw [transact_call hselected, hadvanced.send] at hblocked
    cases hbytes : (session.primary stream function body).toBytes with
    | none =>
        rw [hbytes] at hblocked
        cases hblocked
    | some bytes =>
        rw [hbytes] at hblocked
        refine ⟨hselected, fun hfunction => ?_, bytes, rfl⟩
        dsimp only at hblocked
        rw [if_pos hfunction] at hblocked
        cases hblocked
  · simp only [Operation.call, transact_call_of_not hselected] at hblocked
    cases hblocked

/-- Requests inserted where a call still waits, behind any frames on which alone it
does not end: they leave what it returns and the session behind it as they are, and
add their answers in the order in which they arrive. -/
theorem transparent_call (operation : Operation) {session : HsmsSession}
    (hfaults : session.stream.faults = []) {requests : List ControlRequest}
    {before inserted : List Frame}
    (hinserted : Inserted operation.Tolerates requests before inserted)
    (hwaits : (operation.call
      (session.withInbound false (.whole (before.flatMap Frame.bytes)))).1 = .error .blocked)
    (closed : Bool) {tail : Bytes} {inbound inbound' : Source} (hclean : inbound.Clean)
    (hclean' : inbound'.Clean) (hbytes : inbound.bytes = before.flatMap Frame.bytes ++ tail)
    (hbytes' : inbound'.bytes = inserted.flatMap Frame.bytes ++ tail) :
    Unaltered requests (session.withInbound closed inbound) (session.withInbound closed inbound')
      (operation.call (session.withInbound closed inbound))
      (operation.call (session.withInbound closed inbound')) := by
  have hcalm : (session.withInbound false (.whole (before.flatMap Frame.bytes))).Faultless :=
    faultless_withInbound hfaults false (Source.clean_whole _)
  cases operation with
  | select =>
      refine (waits_select hfaults).unaltered (fun request hrequest => ?_) hinserted hwaits closed
        hclean hclean' hbytes hbytes'
      cases request with
      | linktest => rfl
      | select => exact hrequest.elim
  | acceptSelect =>
      refine (waits_acceptSelect hfaults).unaltered (fun request hrequest => ?_) hinserted hwaits
        closed hclean hclean' hbytes hbytes'
      cases request with
      | linktest => rfl
      | select => exact hrequest.elim
  | transact stream function body =>
      -- a call that ends before its loop does not wait
      obtain ⟨hselected, hfunction, bytes, hencoded⟩ := of_transact_blocked hcalm hwaits
      exact (waits_transact hfaults hselected hfunction hencoded).unaltered
        (fun request _ => by cases request <;> rfl) hinserted hwaits closed hclean hclean' hbytes
        hbytes'
  | serveOne makeReply =>
      by_cases hselected : session.state = .selected
      · exact (waits_serveOne hfaults hselected makeReply).unaltered
          (fun request _ => by cases request <;> rfl) hinserted hwaits closed hclean hclean' hbytes
          hbytes'
      · have hcall := @serveOne_call_of_not
          (session.withInbound false (.whole (before.flatMap Frame.bytes))) hselected makeReply
        simp only [Operation.call, hcall] at hwaits
        cases hwaits

/-- A Linktest.req and a Select.req. -/
def linktestFrame : Frame := ⟨[0, 0, 0, 0, 0, 5, 0, 0, 0, 9], by decide⟩

def selectFrame : Frame := ⟨[0, 0, 0, 0, 0, 1, 0, 0, 0, 3], by decide⟩

def primaryFrame : Frame := ⟨[0, 0, 0x81, 1, 0, 0, 0, 0, 0, 1], by decide⟩

theorem transparent_call_serveOne :
    Unaltered [.linktest 9, .select 3]
      (({ freshSession [] with state := .selected }).withInbound false (.whole primaryFrame.bytes))
      (({ freshSession [] with state := .selected }).withInbound false
        (.whole (linktestFrame.bytes ++ selectFrame.bytes ++ primaryFrame.bytes)))
      ((Operation.serveOne fun _ _ _ => none).call
        (({ freshSession [] with state := .selected }).withInbound false
          (.whole primaryFrame.bytes)))
      ((Operation.serveOne fun _ _ _ => none).call
        (({ freshSession [] with state := .selected }).withInbound false
          (.whole (linktestFrame.bytes ++ selectFrame.bytes ++ primaryFrame.bytes)))) := by
  have hinserted : Inserted (Operation.serveOne fun _ _ _ => none).Tolerates
      [.linktest 9, .select 3] [] [linktestFrame, selectFrame] :=
    .insert trivial rfl (.insert trivial rfl .nil)
  have hwaits : ((Operation.serveOne fun _ _ _ => none).call
      (({ freshSession [] with state := .selected }).withInbound false (.whole []))).1 =
        .error .blocked := by
    simp only [Operation.call]
    rw [serveOne_call rfl, awaitMessage_eq]
    simp [receive, readMessage, readExactCounted, withInbound, freshSession, HsmsSession.new,
      Source.whole, Source.readExact, Source.read, Except.map]
  exact transparent_call _ rfl hinserted hwaits false (Source.clean_whole _) (Source.clean_whole _)
    (Source.bytes_whole _) (Source.bytes_whole _)

end HsmsSession

end Secs

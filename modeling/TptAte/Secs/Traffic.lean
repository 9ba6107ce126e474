import TptAte.Secs.Session
import TptAte.Secs.HsmsLaws

/-! # Inbound traffic of a session

The messages that a session's stream delivers, and the stretch of control
requests that a waiting loop answers before it leaves.
-/

namespace Secs

open Wire

/-- The messages that a stream delivers before reading one fails. -/
def framesOf (closed : Bool) (inbound : Source) : List HsmsMessage :=
  match _hread : readMessage closed inbound with
  | (.error _, _) => []
  | (.ok message, inbound) => message :: framesOf closed inbound
termination_by inbound.size
decreasing_by exact size_readMessage _hread

/-- The frames ahead are the first that can be read and those behind it. -/
theorem framesOf_eq (closed : Bool) (inbound : Source) :
    framesOf closed inbound =
      match readMessage closed inbound with
      | (.error _, _) => []
      | (.ok message, inbound) => message :: framesOf closed inbound := by
  rw [framesOf]
  split <;> simp_all

theorem readExactCounted_whole (closed : Bool) {wanted : Nat} {data : Bytes}
    (hle : wanted ≤ data.length) :
    readExactCounted closed wanted (.whole data) =
      (.ok (data.take wanted), .whole (data.drop wanted)) := by
  rw [readExactCounted, Source.readExact_nil_of_calm (Source.calm_whole wanted data),
    Source.bytes_whole, if_neg (by omega), Source.skip_whole]

/-- A message whose frame can carry it is read from the front of what arrived. -/
theorem readMessage_whole {message : HsmsMessage} (hcanonical : message.Canonical) {bytes : Bytes}
    (hbytes : message.toBytes = some bytes) (closed : Bool) (rest : Bytes) :
    readMessage closed (.whole (bytes ++ rest)) = (.ok message, .whole rest) := by
  obtain ⟨body, hbody, hlength⟩ := HsmsMessage.exists_bodyBytes hcanonical
  have hheader := message.length_header
  obtain rfl : bytes = Word.u32.bytes .big (UInt32.ofNat (10 + body.length)) ++
      message.header ++ body := by
    rw [HsmsMessage.toBytes, HsmsMessage.encode, hbody] at hbytes
    exact (Option.some.inj hbytes).symm
  have hvalue : Endian.big.value (Word.u32.bytes .big (UInt32.ofNat (10 + body.length))) =
      10 + body.length := by
    rw [Word.bytes, Endian.value_bytes _ _ _ (Word.u32.toNat_lt _)]
    exact UInt32.toNat_ofNat_of_lt' hlength
  have hfour : (Word.u32.bytes .big (UInt32.ofNat (10 + body.length))).length = 4 :=
    Word.length_bytes _ _ _
  have hframe : (message.header ++ (body ++ rest)).take (10 + body.length) =
      message.header ++ body := by
    rw [← List.append_assoc, List.take_left' (by simp [hheader])]
  obtain ⟨used, hdecode⟩ : ∃ used, HsmsMessage.fromBytes
      (Word.u32.bytes .big (UInt32.ofNat (10 + body.length)) ++ (message.header ++ body)) =
        .ok (message, used) := by
    obtain ⟨encoded, hencoded, hread⟩ := HsmsMessage.fromBytes_toBytes hcanonical
    rw [hbytes] at hencoded
    cases hencoded
    have hexact := hread []
    rw [List.append_nil, List.append_assoc] at hexact
    exact ⟨_, hexact⟩
  rw [readMessage, List.append_assoc, List.append_assoc,
    readExactCounted_whole closed (by rw [List.length_append, hfour]; omega)]
  simp only [List.take_left' hfour, List.drop_left' hfour, hvalue]
  rw [readExactCounted_whole closed (by simp [hheader]), hframe]
  simp only [hdecode]
  rw [← List.append_assoc, List.drop_left' (by simp [hheader])]

/-- The bytes of some messages, one after the other. -/
def encodeAll : List HsmsMessage → Option Bytes
  | [] => some []
  | message :: messages => do
      let bytes ← message.toBytes
      let rest ← encodeAll messages
      return bytes ++ rest

/-- What arrives as the bytes of some messages is read as these messages. -/
theorem framesOf_encodeAll {messages : List HsmsMessage}
    (hcanonical : ∀ message ∈ messages, message.Canonical) {bytes : Bytes}
    (hbytes : encodeAll messages = some bytes) (closed : Bool) :
    framesOf closed (.whole bytes) = messages := by
  induction messages generalizing bytes with
  | nil =>
      cases hbytes
      rw [framesOf_eq, readMessage]
      cases closed <;> simp [readExactCounted, Source.whole, Source.readExact, Source.read]
  | cons message messages ih =>
      obtain ⟨hmessage, hothers⟩ := List.forall_mem_cons.mp hcanonical
      obtain ⟨encoded, hencoded, -⟩ := HsmsMessage.fromBytes_toBytes hmessage
      cases hrest : encodeAll messages with
      | none => simp [encodeAll, hencoded, hrest] at hbytes
      | some rest =>
          obtain rfl : encoded ++ rest = bytes := by
            simpa [encodeAll, hencoded, hrest] using hbytes
          rw [framesOf_eq, readMessage_whole hmessage hencoded]
          simp only [ih hothers hrest]

namespace HsmsSession

/-- The messages that a session will read. -/
def frames (session : HsmsSession) : List HsmsMessage :=
  framesOf session.stream.closed session.stream.inbound

def WritesSucceed (count : Nat) (session : HsmsSession) : Prop :=
  ∀ fault ∈ session.stream.faults.take count, fault = none

/-- What reading and writing leave as it is. -/
structure SameState (session session' : HsmsSession) : Prop where
  state : session'.state = session.state
  sessionId : session'.sessionId = session.sessionId
  nextSystemBytes : session'.nextSystemBytes = session.nextSystemBytes

theorem SameState.trans {first second third : HsmsSession} (hfirst : SameState first second)
    (hsecond : SameState second third) : SameState first third :=
  ⟨hsecond.state.trans hfirst.state, hsecond.sessionId.trans hfirst.sessionId,
    hsecond.nextSystemBytes.trans hfirst.nextSystemBytes⟩

structure Received (session : HsmsSession) (message : HsmsMessage) (session' : HsmsSession) :
    Prop where
  frames : session.frames = message :: session'.frames
  log : session'.stream.log = session.stream.log ++ [.read message]
  faults : session'.stream.faults = session.stream.faults
  same : SameState session session'

/-- A message received was the first of the frames ahead. -/
theorem received_of_receive {session session' : HsmsSession} {message : HsmsMessage}
    (hreceive : session.receive = (.ok message, session')) :
    Received session message session' := by
  unfold receive at hreceive
  dsimp only at hreceive
  split at hreceive
  · cases hreceive
  next inbound hread =>
    cases hreceive
    refine ⟨?_, rfl, rfl, rfl, rfl, rfl⟩
    rw [HsmsSession.frames, framesOf_eq, hread]
    rfl

/-- The first of the frames ahead can be received. -/
theorem receive_of_frames {session : HsmsSession} {message : HsmsMessage}
    {rest : List HsmsMessage} (hframes : session.frames = message :: rest) :
    ∃ session', session.receive = (.ok message, session') := by
  rw [HsmsSession.frames, framesOf_eq] at hframes
  rcases hread : readMessage session.stream.closed session.stream.inbound with
    ⟨stop | received, inbound⟩
  · rw [hread] at hframes
    cases hframes
  · rw [hread] at hframes
    obtain ⟨rfl, -⟩ := List.cons.inj hframes
    simp only [receive, hread]
    exact ⟨_, rfl⟩

structure Sent (session : HsmsSession) (message : HsmsMessage) (session' : HsmsSession) :
    Prop where
  succeeds : session.WritesSucceed 1
  isSome : message.toBytes.isSome
  frames : session'.frames = session.frames
  log : session'.stream.log = session.stream.log ++ [.wrote message]
  faults : session'.stream.faults = session.stream.faults.tail
  same : SameState session session'

/-- The ways in which a write ends: a message that has no bytes, a fault of the stream, and
the bytes behind those that were sent. -/
theorem send_cases {session session' : HsmsSession} {message : HsmsMessage}
    {result : Except Stop Unit} (hsend : session.send message = (result, session')) :
    (message.toBytes = none ∧ result = .error .panicked ∧ session' = session) ∨
      (∃ kind faults, session.stream.faults = some kind :: faults ∧
        result = .error (.error (.io kind)) ∧
        session' = { session with stream := { session.stream with faults } }) ∨
      ∃ bytes, message.toBytes = some bytes ∧ session.WritesSucceed 1 ∧ result = .ok () ∧
        session' = { session with
          stream := { session.stream with
            faults := session.stream.faults.tail
            sent := session.stream.sent ++ bytes
            log := session.stream.log ++ [.wrote message] } } := by
  unfold send writeMessage at hsend
  cases hbytes : message.toBytes with
  | none =>
      rw [hbytes] at hsend
      cases hsend
      exact .inl ⟨rfl, rfl, rfl⟩
  | some bytes =>
      rw [hbytes] at hsend
      rcases hfaults : session.stream.faults with _ | ⟨_ | kind, faults⟩
      · rw [hfaults] at hsend
        cases hsend
        exact .inr (.inr ⟨bytes, rfl, by simp [WritesSucceed, hfaults], rfl, rfl⟩)
      · rw [hfaults] at hsend
        cases hsend
        exact .inr (.inr ⟨bytes, rfl, by simp [WritesSucceed, hfaults], rfl, rfl⟩)
      · rw [hfaults] at hsend
        cases hsend
        exact .inr (.inl ⟨kind, faults, rfl, rfl, rfl⟩)

/-- A write that succeeds. -/
theorem send_ok_cases {session session' : HsmsSession} {message : HsmsMessage}
    (hsend : session.send message = (.ok (), session')) :
    ∃ bytes, message.toBytes = some bytes ∧ session.WritesSucceed 1 ∧
      session' = { session with
        stream := { session.stream with
          faults := session.stream.faults.tail
          sent := session.stream.sent ++ bytes
          log := session.stream.log ++ [.wrote message] } } := by
  rcases send_cases hsend with ⟨-, hresult, -⟩ | ⟨kind, faults, -, hresult, -⟩ |
    ⟨bytes, hbytes, hsucceeds, -, hsession⟩
  · cases hresult
  · cases hresult
  · exact ⟨bytes, hbytes, hsucceeds, hsession⟩

/-- A message sent is in the log, and nothing else has changed. -/
theorem sent_of_send {session session' : HsmsSession} {message : HsmsMessage}
    (hsend : session.send message = (.ok (), session')) : Sent session message session' := by
  obtain ⟨bytes, hbytes, hsucceeds, rfl⟩ := send_ok_cases hsend
  exact ⟨hsucceeds, Option.isSome_of_eq_some hbytes, rfl, rfl, rfl, rfl, rfl, rfl⟩

/-- Where the next write succeeds, a message that can be encoded is sent. -/
theorem send_of_succeeds {session : HsmsSession} {message : HsmsMessage}
    (hsucceeds : session.WritesSucceed 1) (hbytes : message.toBytes.isSome) :
    ∃ session', session.send message = (.ok (), session') := by
  obtain ⟨bytes, hbytes⟩ := Option.isSome_iff_exists.mp hbytes
  unfold send writeMessage
  rw [hbytes]
  rcases hcase : session.stream.faults with _ | ⟨_ | kind, faults⟩
  · exact ⟨_, rfl⟩
  · exact ⟨_, rfl⟩
  · simp [WritesSucceed, hcase] at hsucceeds

/-! ## Waiting loops -/

variable {α : Type} {react : HsmsMessage → Reaction α}

/-- A session reads messages that its loop answers, and answers each. -/
inductive Answers (react : HsmsMessage → Reaction α) :
    HsmsSession → List HsmsMessage → HsmsSession → Prop
  | nil (session : HsmsSession) : Answers react session [] session
  | cons {session middle next last : HsmsSession} {message reply : HsmsMessage}
      {messages : List HsmsMessage} (hreceive : session.receive = (.ok message, middle))
      (hreact : react message = .answer reply) (hsend : middle.send reply = (.ok (), next))
      (hrest : Answers react next messages last) :
      Answers react session (message :: messages) last

def exchange (react : HsmsMessage → Reaction α) (messages : List HsmsMessage) : List Event :=
  messages.flatMap fun message =>
    match react message with
    | .answer reply => [.read message, .wrote reply]
    | .finish _ => []

namespace Answers

variable {session last : HsmsSession} {messages : List HsmsMessage}

theorem frames (h : Answers react session messages last) :
    session.frames = messages ++ last.frames := by
  induction h with
  | nil => rfl
  | cons hreceive hreact hsend _ ih =>
      rw [(received_of_receive hreceive).frames, ← (sent_of_send hsend).frames, ih]
      rfl

theorem log (h : Answers react session messages last) :
    last.stream.log = session.stream.log ++ exchange react messages := by
  induction h with
  | nil => simp [exchange]
  | cons hreceive hreact hsend _ ih =>
      rw [ih, (sent_of_send hsend).log, (received_of_receive hreceive).log]
      simp [exchange, hreact]

theorem faults (h : Answers react session messages last) :
    last.stream.faults = session.stream.faults.drop messages.length := by
  induction h with
  | nil => rfl
  | cons hreceive hreact hsend _ ih =>
      rw [ih, (sent_of_send hsend).faults, (received_of_receive hreceive).faults,
        List.drop_tail]
      rfl

theorem same (h : Answers react session messages last) : SameState session last := by
  induction h with
  | nil => exact ⟨rfl, rfl, rfl⟩
  | cons hreceive hreact hsend _ ih =>
      exact ((received_of_receive hreceive).same.trans (sent_of_send hsend).same).trans ih

theorem answered (h : Answers react session messages last) :
    ∀ message ∈ messages, ∃ reply, react message = .answer reply := by
  induction h with
  | nil => simp
  | cons hreceive hreact hsend _ ih => simpa using ⟨⟨_, hreact⟩, ih⟩

end Answers

theorem writesSucceed_succ {count : Nat} {session : HsmsSession} :
    session.WritesSucceed (count + 1) ↔
      session.WritesSucceed 1 ∧ ∀ fault ∈ session.stream.faults.tail.take count, fault = none := by
  rcases hcase : session.stream.faults with _ | ⟨fault, faults⟩ <;> simp [WritesSucceed, hcase]

/-- Answering so many messages took as many writes that succeeded. -/
theorem Answers.succeeds {session last : HsmsSession} {messages : List HsmsMessage}
    (h : Answers react session messages last) : session.WritesSucceed messages.length := by
  induction h with
  | nil => simp [WritesSucceed]
  | cons hreceive hreact hsend _ ih =>
      have hsent := sent_of_send hsend
      have hreceived := received_of_receive hreceive
      refine writesSucceed_succ.mpr ⟨?_, ?_⟩
      · simpa [WritesSucceed, hreceived.faults] using hsent.succeeds
      · simpa [WritesSucceed, hreceived.faults, hsent.faults] using ih

/-- A loop answers what it is given to answer, if its writes succeed. -/
theorem exists_answers {session : HsmsSession} {messages rest : List HsmsMessage}
    (hframes : session.frames = messages ++ rest)
    (hreact : ∀ message ∈ messages, ∃ reply, react message = .answer reply ∧ reply.toBytes.isSome)
    (hsucceed : session.WritesSucceed messages.length) :
    ∃ last, Answers react session messages last ∧ last.frames = rest := by
  induction messages generalizing session with
  | nil => exact ⟨session, .nil session, hframes⟩
  | cons message messages ih =>
      -- read the message, answer it, and go on with the session after both
      obtain ⟨middle, hreceive⟩ := receive_of_frames hframes
      have hreceived := received_of_receive hreceive
      obtain ⟨reply, hreply, hbytes⟩ := hreact message List.mem_cons_self
      obtain ⟨hfirst, hothers⟩ := writesSucceed_succ.mp hsucceed
      obtain ⟨next, hsend⟩ := @send_of_succeeds middle reply
        (by simpa [WritesSucceed, hreceived.faults] using hfirst) hbytes
      have hsent := sent_of_send hsend
      rw [hreceived.frames, List.cons_append, List.cons.injEq] at hframes
      obtain ⟨last, hanswers, hlast⟩ := @ih next (hsent.frames.trans hframes.2)
        (fun other hother => hreact other (List.mem_cons_of_mem _ hother))
        (by simpa [WritesSucceed, hreceived.faults, hsent.faults] using hothers)
      exact ⟨last, .cons hreceive hreply hsend hanswers, hlast⟩

/-- A wait takes the next message and does what the reaction says. -/
theorem awaitMessage_eq (react : HsmsMessage → Reaction α) (session : HsmsSession) :
    awaitMessage react session =
      match session.receive with
      | (.error stop, session) => (.error stop, session)
      | (.ok message, middle) =>
          match react message with
          | .finish last => last.call middle
          | .answer reply =>
              match middle.send reply with
              | (.error stop, session) => (.error stop, session)
              | (.ok (), session) => awaitMessage react session := by
  rw [awaitMessage]
  split
  · simp_all
  next message middle hreceive =>
    rw [hreceive]
    dsimp only
    cases react message with
    | finish last => rfl
    | answer reply => dsimp only; split <;> simp_all

/-- Answered messages do not change what a loop ends with. -/
theorem awaitMessage_of_answers {session last : HsmsSession} {messages : List HsmsMessage}
    (h : Answers react session messages last) :
    awaitMessage react session = awaitMessage react last := by
  induction h with
  | nil => rfl
  | cons hreceive hreact hsend _ ih =>
      rw [awaitMessage_eq, hreceive]
      simp only [hreact, hsend, ih]

theorem awaitMessage_of_finish {session after : HsmsSession} {message : HsmsMessage}
    {last : SessionM α} (hreceive : session.receive = (.ok message, after))
    (hreact : react message = .finish last) :
    awaitMessage react session = last.call after := by
  rw [awaitMessage_eq, hreceive]
  simp only [hreact]

/-- A loop that returns has answered some messages and left at the next one. -/
theorem answers_of_awaitMessage {session final : HsmsSession} {value : α}
    (hawait : awaitMessage react session = (.ok value, final)) :
    ∃ messages middle message after last, Answers react session messages middle ∧
      middle.receive = (.ok message, after) ∧ react message = .finish last ∧
      last.call after = (.ok value, final) := by
  fun_induction awaitMessage react session with
  | case1 => cases hawait
  | case2 session message after hreceive last hreact =>
      exact ⟨[], session, message, after, last, .nil session, hreceive, hreact, hawait⟩
  | case3 => cases hawait
  | case4 session message middle hreceive reply hreact next hsend ih =>
      obtain ⟨messages, before, message', after, last, hanswers, hleave⟩ := ih hawait
      exact ⟨message :: messages, before, message', after, last,
        .cons hreceive hreact hsend hanswers, hleave⟩

/-- How a loop ends behind the messages it has answered: reading fails, a message
ends the loop, or the answer to one cannot be written. -/
inductive Leaves (react : HsmsMessage → Reaction α) (middle : HsmsSession) :
    Except Stop α × HsmsSession → Prop
  | unread {stop : Stop} {after : HsmsSession} (hreceive : middle.receive = (.error stop, after)) :
      Leaves react middle (.error stop, after)
  | finished {message : HsmsMessage} {after : HsmsSession} {last : SessionM α}
      (hreceive : middle.receive = (.ok message, after)) (hreact : react message = .finish last) :
      Leaves react middle (last.call after)
  | unanswered {message reply : HsmsMessage} {after failed : HsmsSession} {stop : Stop}
      (hreceive : middle.receive = (.ok message, after)) (hreact : react message = .answer reply)
      (hsend : after.send reply = (.error stop, failed)) :
      Leaves react middle (.error stop, failed)

/-- Every loop answers some messages and then leaves. -/
theorem exists_leaves (react : HsmsMessage → Reaction α) (session : HsmsSession) :
    ∃ messages middle, Answers react session messages middle ∧
      Leaves react middle (awaitMessage react session) := by
  fun_induction awaitMessage react session with
  | case1 session stop after hreceive =>
      exact ⟨[], session, .nil session, .unread hreceive⟩
  | case2 session message after hreceive last hreact =>
      exact ⟨[], session, .nil session, .finished hreceive hreact⟩
  | case3 session message after hreceive reply hreact stop failed hsend =>
      exact ⟨[], session, .nil session, .unanswered hreceive hreact hsend⟩
  | case4 session message middle hreceive reply hreact next hsend ih =>
      obtain ⟨messages, last, hanswers, hleaves⟩ := ih
      exact ⟨message :: messages, last, .cons hreceive hreact hsend hanswers, hleaves⟩

/-! ## What calls add to the history -/

/-- The bytes that an event put on the stream. -/
def sentBytes : Event → Bytes
  | .read _ => []
  | .wrote message => message.toBytes.getD []

/-- A call has added these events to the history, and their bytes to the stream. -/
structure Grown (events : List Event) (session session' : HsmsSession) : Prop where
  log : session'.stream.log = session.stream.log ++ events
  sent : session'.stream.sent = session.stream.sent ++ events.flatMap sentBytes

namespace Grown

variable {first second third : HsmsSession} {events events' : List Event}

theorem of_stream (h : second.stream = first.stream) : Grown [] first second :=
  ⟨by simp [h], by simp [h]⟩

theorem refl (session : HsmsSession) : Grown [] session session := of_stream rfl

theorem trans (h : Grown events first second) (h' : Grown events' second third) :
    Grown (events ++ events') first third :=
  ⟨by rw [h'.log, h.log, List.append_assoc],
    by rw [h'.sent, h.sent, List.flatMap_append, List.append_assoc]⟩

end Grown

/-- A receive adds the message it read to the log. -/
theorem grown_receive {session session' : HsmsSession} {message : HsmsMessage}
    (hreceive : session.receive = (.ok message, session')) :
    Grown [.read message] session session' := by
  unfold receive at hreceive
  dsimp only at hreceive
  split at hreceive
  · cases hreceive
  · cases hreceive
    exact ⟨rfl, by simp [sentBytes]⟩

/-- What a failed read leaves as it was. -/
theorem unread_receive {session session' : HsmsSession} {stop : Stop}
    (hreceive : session.receive = (.error stop, session')) :
    Grown [] session session' ∧ SameState session session' := by
  unfold receive at hreceive
  dsimp only at hreceive
  split at hreceive
  · cases hreceive
    exact ⟨⟨by simp, by simp⟩, rfl, rfl, rfl⟩
  · cases hreceive

/-- A send adds the message it wrote to the log. -/
theorem grown_send {session session' : HsmsSession} {message : HsmsMessage}
    (hsend : session.send message = (.ok (), session')) :
    Grown [.wrote message] session session' := by
  obtain ⟨bytes, hbytes, -, rfl⟩ := send_ok_cases hsend
  exact ⟨rfl, by simp [sentBytes, hbytes]⟩

/-- What a failed write leaves as it was. -/
theorem unsent_send {session session' : HsmsSession} {message : HsmsMessage} {stop : Stop}
    (hsend : session.send message = (.error stop, session')) :
    Grown [] session session' ∧ SameState session session' := by
  rcases send_cases hsend with ⟨-, -, rfl⟩ | ⟨kind, faults, -, -, rfl⟩ | ⟨bytes, -, -, hresult, -⟩
  · exact ⟨⟨by simp, by simp⟩, rfl, rfl, rfl⟩
  · exact ⟨⟨by simp, by simp⟩, rfl, rfl, rfl⟩
  · cases hresult

/-- How a write fails. -/
theorem stop_of_send {session session' : HsmsSession} {message : HsmsMessage} {stop : Stop}
    (hsend : session.send message = (.error stop, session')) :
    stop = .panicked ∨ ∃ kind, stop = .error (.io kind) := by
  rcases send_cases hsend with ⟨-, hresult, -⟩ | ⟨kind, faults, -, hresult, -⟩ |
    ⟨bytes, -, -, hresult, -⟩
  · exact .inl (Except.error.inj hresult)
  · exact .inr ⟨kind, Except.error.inj hresult⟩
  · cases hresult

/-- Answering adds the messages and their answers to the log, in turn. -/
theorem Answers.grown {session last : HsmsSession} {messages : List HsmsMessage}
    (h : Answers react session messages last) : Grown (exchange react messages) session last := by
  induction h with
  | nil session => exact Grown.refl session
  | cons hreceive hreact hsend _ ih =>
      have hgrown := ((grown_receive hreceive).trans (grown_send hsend)).trans ih
      simpa [exchange, hreact] using hgrown

end HsmsSession

end Secs

import TptAte.Secs.Hsms

/-! # HSMS sessions

A session over a byte stream: the stream delivers its bytes as a source does,
and its writes may fail. Each function of the session either ends with a value
or stops: with an error, in a failed assertion, or waiting for bytes that an
open stream has not delivered. The stream keeps a history of the messages that
were read and written.
-/

namespace Secs

open Wire

inductive Event where
  | read (message : HsmsMessage)
  | wrote (message : HsmsMessage)
  deriving Repr

/-- A byte stream. A write beyond the list of faults succeeds; a write that
fails sends nothing. -/
structure Connection where
  inbound : Source
  closed : Bool
  faults : List (Option ErrorKind)
  sent : Bytes
  log : List Event

/-- Why a call did not return a value. -/
inductive Stop where
  | error (error : SecsError)
  | panicked
  | blocked
  deriving Repr

structure HsmsSession where
  stream : Connection
  state : HsmsState
  sessionId : UInt16
  nextSystemBytes : UInt32

abbrev SessionM := ExceptT Stop (StateM HsmsSession)

def SessionM.call {α : Type} (action : SessionM α) (session : HsmsSession) :
    Except Stop α × HsmsSession :=
  action.run.run session

namespace SessionM

variable {α β : Type}

theorem call_bind (first : SessionM α) (next : α → SessionM β) (session : HsmsSession) :
    (first >>= next).call session =
      match first.call session with
      | (.ok value, session) => (next value).call session
      | (.error stop, session) => (.error stop, session) := by
  change StateT.run (ExceptT.run (first >>= next)) session = _
  rw [ExceptT.run_bind, StateT.run_bind]
  rcases hfirst : first.run.run session with ⟨_ | _, _⟩ <;> simp [call, hfirst] <;> rfl

/-- A sequence that returns is two calls that return. -/
theorem call_bind_eq_ok {first : SessionM α} {next : α → SessionM β} {session final : HsmsSession}
    {value : β} :
    (first >>= next).call session = (.ok value, final) ↔
      ∃ between middle, first.call session = (.ok between, middle) ∧
        (next between).call middle = (.ok value, final) := by
  rw [call_bind]
  rcases first.call session with ⟨stop | between, middle⟩
  · simp
  · simp

@[simp] theorem call_pure (value : α) (session : HsmsSession) :
    (pure value : SessionM α).call session = (.ok value, session) := rfl

@[simp] theorem call_get (session : HsmsSession) :
    (get : SessionM HsmsSession).call session = (.ok session, session) := rfl

@[simp] theorem call_set (new session : HsmsSession) :
    (set new : SessionM PUnit).call session = (.ok ⟨⟩, new) := rfl

@[simp] theorem call_throw (stop : Stop) (session : HsmsSession) :
    (throw stop : SessionM α).call session = (.error stop, session) := rfl

@[simp] theorem call_mk (f : HsmsSession → Except Stop α × HsmsSession) (session : HsmsSession) :
    SessionM.call (ExceptT.mk f) session = f session := rfl

end SessionM

/-- Read exactly `wanted` bytes of a stream. -/
def readExactCounted (closed : Bool) (wanted : Nat) (inbound : Source) :
    Except Stop Bytes × Source :=
  inbound.readExact (fun kind => .error (.io kind))
    (fun wanted had => if closed then .error (.unexpectedEof wanted had) else .blocked) wanted []

def readMessage (closed : Bool) (inbound : Source) : Except Stop HsmsMessage × Source :=
  match readExactCounted closed 4 inbound with
  | (.error stop, inbound) => (.error stop, inbound)
  | (.ok lenBytes, inbound) =>
      match readExactCounted closed (Endian.big.value lenBytes) inbound with
      | (.error stop, inbound) => (.error stop, inbound)
      | (.ok rest, inbound) =>
          match HsmsMessage.fromBytes (lenBytes ++ rest) with
          | .error error => (.error (.error error), inbound)
          | .ok (message, _) => (.ok message, inbound)

/-- A frame is written and flushed as a whole; a write that fails counts as one of nothing. -/
def writeMessage (message : HsmsMessage) (stream : Connection) : Except Stop Unit × Connection :=
  match message.toBytes with
  | none => (.error .panicked, stream)
  | some bytes =>
      match stream.faults with
      | some kind :: faults => (.error (.error (.io kind)), { stream with faults })
      | faults =>
          (.ok (), { stream with
            faults := faults.tail
            sent := stream.sent ++ bytes
            log := stream.log ++ [.wrote message] })

/-- Every byte read makes the source shorter. -/
theorem size_readExactCounted {closed : Bool} {wanted : Nat} {inbound inbound' : Source}
    {bytes : Bytes} (hread : readExactCounted closed wanted inbound = (.ok bytes, inbound')) :
    inbound'.size + wanted ≤ inbound.size := by
  obtain ⟨hlength, hsize⟩ := Source.size_readExact_ok hread
  simp only [List.length_nil] at hsize
  omega

/-- A message uses up at least its length bytes. -/
theorem size_readMessage {closed : Bool} {inbound inbound' : Source} {message : HsmsMessage}
    (hread : readMessage closed inbound = (.ok message, inbound')) :
    inbound'.size < inbound.size := by
  unfold readMessage at hread
  split at hread
  · cases hread
  next lenBytes middle hlength =>
    have hless := size_readExactCounted hlength
    split at hread
    · cases hread
    next rest last hrest =>
      have hle := size_readExactCounted hrest
      split at hread
      · cases hread
      · cases hread
        omega

namespace HsmsSession

/-- A session over an established stream. -/
def new (stream : Connection) (sessionId : UInt16) : HsmsSession :=
  { stream, state := .connectedNotSelected, sessionId, nextSystemBytes := 1 }

def receive (session : HsmsSession) : Except Stop HsmsMessage × HsmsSession :=
  let stream := session.stream
  match readMessage stream.closed stream.inbound with
  | (.error stop, inbound) => (.error stop, { session with stream := { stream with inbound } })
  | (.ok message, inbound) =>
      (.ok message, { session with
        stream := { stream with inbound, log := stream.log ++ [.read message] } })

def send (message : HsmsMessage) (session : HsmsSession) : Except Stop Unit × HsmsSession :=
  let (result, stream) := writeMessage message session.stream
  (result, { session with stream })

/-- Every message received makes the source shorter, so that a wait terminates. -/
theorem size_receive {session session' : HsmsSession} {message : HsmsMessage}
    (hreceive : session.receive = (.ok message, session')) :
    session'.stream.inbound.size < session.stream.inbound.size := by
  unfold receive at hreceive
  dsimp only at hreceive
  split at hreceive
  · cases hreceive
  next hread =>
    cases hreceive
    exact size_readMessage hread

theorem inbound_send (message : HsmsMessage) (session : HsmsSession) :
    (session.send message).2.stream.inbound = session.stream.inbound := by
  unfold send writeMessage
  cases message.toBytes with
  | none => rfl
  | some bytes => rcases session.stream.faults with _ | ⟨_ | kind, faults⟩ <;> rfl

def write (message : HsmsMessage) : SessionM Unit := ExceptT.mk (send message)

/-- The next system bytes; the counter wraps. -/
def takeSystemBytes : SessionM UInt32 := do
  let session ← get
  set { session with nextSystemBytes := session.nextSystemBytes + 1 }
  return session.nextSystemBytes

def setState (state : HsmsState) : SessionM Unit :=
  modify fun session => { session with state }

def fail {α : Type} (error : SecsError) : SessionM α := throw (.error error)

/-- What a waiting loop does with a message: answer it and keep waiting, or leave. -/
inductive Reaction (α : Type) where
  | answer (reply : HsmsMessage)
  | finish (last : SessionM α)

/-- Read messages until one is not just answered. -/
def awaitMessage {α : Type} (react : HsmsMessage → Reaction α) (session : HsmsSession) :
    Except Stop α × HsmsSession :=
  match _hreceive : session.receive with
  | (.error stop, session) => (.error stop, session)
  | (.ok message, middle) =>
      match react message with
      | .finish last => last.call middle
      | .answer reply =>
          match _hsend : middle.send reply with
          | (.error stop, session) => (.error stop, session)
          | (.ok (), session) => awaitMessage react session
termination_by session.stream.inbound.size
decreasing_by
  have hless := size_receive _hreceive
  have hsame := inbound_send reply middle
  rw [_hsend] at hsame
  rw [← hsame] at hless
  exact hless

def await {α : Type} (react : HsmsMessage → Reaction α) : SessionM α :=
  ExceptT.mk (awaitMessage react)

/-- The reactions to control traffic while a session is selected; `other` is for
the rest. -/
def whileSelected {α : Type} (message : HsmsMessage) (other : Reaction α) : Reaction α :=
  match message with
  | .linktestReq systemBytes => .answer (.linktestRsp systemBytes)
  | .selectReq systemBytes => .answer (.selectRsp systemBytes .alreadySelected)
  | .separate _ => .finish do
      setState .connectedNotSelected
      fail (.gem (.text "peer sent Separate; session deselected"))
  | _ => other

def select : SessionM Unit := do
  let systemBytes ← takeSystemBytes
  write (.selectReq systemBytes)
  await fun message =>
    match message with
    | .selectRsp _ status => .finish do
        if status = .selected then setState .selected
        else fail (.gem (.selectRejected status))
    | .linktestReq systemBytes => .answer (.linktestRsp systemBytes)
    | other => .finish (fail (.gem (.unexpected other "Select.rsp")))

def acceptSelect : SessionM Unit :=
  await fun message =>
    match message with
    | .selectReq systemBytes => .finish do
        write (.selectRsp systemBytes .selected)
        setState .selected
    | .linktestReq systemBytes => .answer (.linktestRsp systemBytes)
    | other => .finish (fail (.gem (.unexpected other "Select.req")))

def replyReaction (systemBytes : UInt32) (wantFunction : UInt8) (message : HsmsMessage) :
    Reaction HsmsMessage :=
  let unexpected := Reaction.finish
    (fail (.unexpectedStreamFunction 0 wantFunction (.reply systemBytes message)))
  match message with
  | .data _ _ function _ sb body =>
      -- neither the stream, nor the function, nor the W-bit is looked at
      if sb = systemBytes then .finish do
        return .data (← get).sessionId 0 function false sb body
      else unexpected
  | _ => whileSelected message unexpected

/-- Wait for the reply to a primary, matching on system bytes. -/
def awaitReply (systemBytes : UInt32) (wantFunction : UInt8) : SessionM HsmsMessage :=
  await (replyReaction systemBytes wantFunction)

/-- Send a primary and wait for its secondary. -/
def transact (stream function : UInt8) (body : Option SecsItem) :
    SessionM (UInt8 × Option SecsItem) := do
  let session ← get
  if session.state ≠ .selected then fail (.notSelected session.state)
  let systemBytes ← takeSystemBytes
  write (.data session.sessionId stream function true systemBytes body)
  -- the function wanted, `function + 1`, must not overflow
  if function = 0xFF then throw .panicked
  match ← awaitReply systemBytes (function + 1) with
  | .data _ _ function _ _ body => return (function, body)
  | _ => throw .panicked

/-- Answer one inbound primary with what `makeReply` computes from it. -/
def serveOne (makeReply : UInt8 → UInt8 → Option SecsItem → Option SecsItem) :
    SessionM (UInt8 × UInt8 × Option SecsItem) := do
  let session ← get
  if session.state ≠ .selected then fail (.notSelected session.state)
  await fun message =>
    match message with
    | .data sessionId stream function wBit systemBytes body => .finish do
        let reply := if wBit then makeReply stream function body else none
        if let some replyBody := reply then
          if function = 0xFF then throw .panicked
          write (.data sessionId stream (function + 1) false systemBytes (some replyBody))
        return (stream, function, body)
    | other => whileSelected other
        (.answer (.reject other.systemBytes RejectReason.illegalStatus.code 0 0))

/-! ## The waiting loops under names of their own -/

def selectReaction (message : HsmsMessage) : Reaction Unit :=
  match message with
  | .selectRsp _ status => .finish do
      if status = .selected then setState .selected
      else fail (.gem (.selectRejected status))
  | .linktestReq systemBytes => .answer (.linktestRsp systemBytes)
  | other => .finish (fail (.gem (.unexpected other "Select.rsp")))

def acceptReaction (message : HsmsMessage) : Reaction Unit :=
  match message with
  | .selectReq systemBytes => .finish do
      write (.selectRsp systemBytes .selected)
      setState .selected
  | .linktestReq systemBytes => .answer (.linktestRsp systemBytes)
  | other => .finish (fail (.gem (.unexpected other "Select.req")))

def serveReaction (makeReply : UInt8 → UInt8 → Option SecsItem → Option SecsItem)
    (message : HsmsMessage) : Reaction (UInt8 × UInt8 × Option SecsItem) :=
  match message with
  | .data sessionId stream function wBit systemBytes body => .finish do
      let reply := if wBit then makeReply stream function body else none
      if let some replyBody := reply then
        if function = 0xFF then throw .panicked
        write (.data sessionId stream (function + 1) false systemBytes (some replyBody))
      return (stream, function, body)
  | other => whileSelected other
      (.answer (.reject other.systemBytes RejectReason.illegalStatus.code 0 0))

theorem select_eq : select = (do
    let systemBytes ← takeSystemBytes
    write (.selectReq systemBytes)
    await selectReaction) := rfl

theorem acceptSelect_call (session : HsmsSession) :
    acceptSelect.call session = awaitMessage acceptReaction session := rfl

theorem serveOne_eq (makeReply : UInt8 → UInt8 → Option SecsItem → Option SecsItem) :
    serveOne makeReply = (do
      let session ← get
      if session.state ≠ .selected then fail (.notSelected session.state)
      await (serveReaction makeReply)) := rfl

end HsmsSession

end Secs

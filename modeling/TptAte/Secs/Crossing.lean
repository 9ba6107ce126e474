import TptAte.Secs.Transact

/-! # Transactions that cross a peer's primaries

Both peers number their primaries from one, and a transaction takes the first
data message with its own number for its reply. A primary of the peer that
carries this number is taken as well, and one with another number ends the
transaction.
-/

namespace Secs

open Wire

namespace HsmsSession

/-! ## Foreign messages taken for a reply -/

/-- Whenever the transaction returns, it has read a secondary of its primary
after sending it. -/
def TakesSecondary (session : HsmsSession) (stream function : UInt8) (body : Option SecsItem) :
    Prop :=
  ∀ replyFunction replyBody final,
    (transact stream function body).call session = (.ok (replyFunction, replyBody), final) →
      (∃ events, final.stream.log =
        session.stream.log ++ .wrote (session.primary stream function body) :: events ++
          [.read (.data session.sessionId stream replyFunction false session.nextSystemBytes
            replyBody)]) ∧
      (replyFunction = function + 1 ∨ replyFunction = 0)

/-- The first inbound message that is not a control request carries the system
bytes of the next primary without being a secondary of it, and nothing keeps the
session from reading it. -/
def Misled (session : HsmsSession) (stream function : UInt8) (body : Option SecsItem) : Prop :=
  ∃ requests sessionId otherStream otherFunction wBit otherBody rest,
    session.frames = requests ++ .data sessionId otherStream otherFunction wBit
      session.nextSystemBytes otherBody :: rest ∧
    (∀ request ∈ requests, request.IsRequest) ∧
    session.WritesSucceed (requests.length + 1) ∧
    (session.primary stream function body).toBytes.isSome ∧
    ¬ (sessionId = session.sessionId ∧ otherStream = stream ∧ wBit = false ∧
      (otherFunction = function + 1 ∨ otherFunction = 0))

/-- A transaction takes nothing but a secondary of its primary for its reply
exactly if it is not misled. -/
theorem takesSecondary_iff {session : HsmsSession} (hselected : session.state = .selected)
    (stream : UInt8) {function : UInt8} (hrange : function ≠ 0xFF) (body : Option SecsItem) :
    session.TakesSecondary stream function body ↔ ¬ session.Misled stream function body := by
  constructor
  · rintro htakes ⟨requests, sessionId, otherStream, otherFunction, wBit, otherBody, rest,
      hframes, hrequests, hsucceeds, hencodable, hforeign⟩
    obtain ⟨final, htransact, hexchanged, -⟩ :=
      transact_of_carries hselected hrange hframes hrequests hsucceeds hencodable
    obtain ⟨⟨events, hlog⟩, hfunction⟩ := htakes _ _ _ htransact
    -- both descriptions of the log end with the message that was read last
    have hlast := congrArg List.getLast? (hlog.symm.trans hexchanged.log)
    simp only [List.getLast?_concat, Option.some.injEq, Event.read.injEq,
      HsmsMessage.data.injEq] at hlast
    obtain ⟨hsession, hstream, -, hwBit, -, -⟩ := hlast
    exact hforeign ⟨hsession.symm, hstream.symm, hwBit.symm, hfunction⟩
  · intro hmisled replyFunction replyBody final htransact
    obtain ⟨requests, sessionId, replyStream, wBit, hexchanged⟩ :=
      exchanged_of_transact hselected htransact
    by_cases hsecondary : sessionId = session.sessionId ∧ replyStream = stream ∧ wBit = false ∧
        (replyFunction = function + 1 ∨ replyFunction = 0)
    · obtain ⟨rfl, rfl, rfl, hfunction⟩ := hsecondary
      exact ⟨⟨_, hexchanged.log⟩, hfunction⟩
    · exact (hmisled ⟨requests, sessionId, replyStream, replyFunction, wBit, replyBody,
        final.frames, hexchanged.frames, hexchanged.isRequest, hexchanged.succeeds,
        hexchanged.encodable, hsecondary⟩).elim

/-- A selected session that has used its first system bytes for the Select. -/
def selectedSession (inbound : Bytes) : HsmsSession :=
  { stream := { inbound := .whole inbound, closed := false, faults := [], sent := [], log := [] }
    state := .selected
    sessionId := 0
    nextSystemBytes := 2 }

/-- An event report S6F11 of the peer that carries the system bytes 2. -/
def crossingReport : Bytes := [0, 0, 0, 10, 0, 0, 0x86, 11, 0, 0, 0, 0, 0, 2]

theorem takesSecondary_iff_crossingReport :
    (selectedSession crossingReport).TakesSecondary 2 41 none ↔
      ¬ (selectedSession crossingReport).Misled 2 41 none :=
  takesSecondary_iff rfl 2 (by decide) none

/-- Not every transaction takes a secondary: here the host command S2F41 takes an
event report for its reply. -/
theorem not_takesSecondary_crossingReport :
    ¬ ∀ (session : HsmsSession) (stream function : UInt8) (body : Option SecsItem),
      session.state = .selected → function.toNat % 2 = 1 → function ≤ 125 →
        session.TakesSecondary stream function body := by
  intro hall
  have htakes := hall (selectedSession crossingReport) 2 41 none rfl (by decide) (by decide)
  have hrun : ((transact 2 41 none).call (selectedSession crossingReport)).1.toOption.map Prod.fst =
      some 11 := by decide +kernel
  rcases hcall : (transact 2 41 none).call (selectedSession crossingReport) with
    ⟨_ | ⟨replyFunction, replyBody⟩, final⟩
  · simp [hcall, Except.toOption] at hrun
  · obtain ⟨-, hfunction⟩ := htakes _ _ _ hcall
    rw [hcall] at hrun
    cases hrun
    exact absurd hfunction (by decide)

/-! ## Runs of transactions -/

/-- A primary of the peer that does not carry the given system bytes. -/
def IsForeignPrimary (systemBytes : UInt32) (message : HsmsMessage) : Prop :=
  ∃ sessionId stream function otherBytes body,
    message = .data sessionId stream function true otherBytes body ∧ otherBytes ≠ systemBytes

/-- One turn of a run: a primary, and what the peer sends before it answers. -/
structure Turn where
  stream : UInt8
  function : UInt8
  body : Option SecsItem
  before : List HsmsMessage
  sessionId : UInt16
  replyStream : UInt8
  wBit : Bool
  replyBody : Option SecsItem

namespace Turn

def reply (turn : Turn) (systemBytes : UInt32) : HsmsMessage :=
  .data turn.sessionId turn.replyStream (turn.function + 1) turn.wBit systemBytes turn.replyBody

def answer (turn : Turn) : UInt8 × Option SecsItem := (turn.function + 1, turn.replyBody)

structure Admissible (turn : Turn) (systemBytes : UInt32) : Prop where
  inRange : turn.function ≠ 0xFF
  encodable : ∀ item ∈ turn.body, item.Encodable
  before : ∀ message ∈ turn.before,
    message.IsRequest ∨ IsForeignPrimary systemBytes message

def Quiet (turn : Turn) : Prop := ∀ message ∈ turn.before, message.IsRequest

end Turn

/-- What the peer sends in a run of turns, the first with the given system bytes. -/
def framesOfTurns : UInt32 → List Turn → List HsmsMessage
  | _, [] => []
  | systemBytes, turn :: turns =>
      turn.before ++ turn.reply systemBytes :: framesOfTurns (systemBytes + 1) turns

def AdmissibleTurns : UInt32 → List Turn → Prop
  | _, [] => True
  | systemBytes, turn :: turns =>
      turn.Admissible systemBytes ∧ AdmissibleTurns (systemBytes + 1) turns

def transactAll : List Turn → SessionM (List (UInt8 × Option SecsItem))
  | [] => return []
  | turn :: turns => do
      let answer ← transact turn.stream turn.function turn.body
      let answers ← transactAll turns
      return answer :: answers

theorem transactAll_call (turn : Turn) (turns : List Turn) (session : HsmsSession) :
    (transactAll (turn :: turns)).call session =
      match (transact turn.stream turn.function turn.body).call session with
      | (.error stop, session) => (.error stop, session)
      | (.ok answer, session) =>
          match (transactAll turns).call session with
          | (.error stop, session) => (.error stop, session)
          | (.ok answers, session) => (.ok (answer :: answers), session) := by
  rw [transactAll, SessionM.call_bind]
  rcases (transact turn.stream turn.function turn.body).call session with ⟨_ | answer, middle⟩
  · rfl
  · simp only [SessionM.call_bind, SessionM.call_pure]
    rcases (transactAll turns).call middle with ⟨_ | answers, final⟩ <;> rfl

def Reliable (session : HsmsSession) : Prop := ∀ fault ∈ session.stream.faults, fault = none

/-- On a reliable session any number of writes succeed. -/
theorem Reliable.writesSucceed {session : HsmsSession} (h : session.Reliable) (count : Nat) :
    session.WritesSucceed count :=
  fun fault hfault => h fault (List.mem_of_mem_take hfault)

/-- The first primary of the peer ends the transaction: everything behind it
stays unread, the secondary included. -/
theorem transact_of_foreign {session : HsmsSession} (hselected : session.state = .selected)
    {stream function : UInt8} {body : Option SecsItem} {requests rest : List HsmsMessage}
    {foreign : HsmsMessage} (hrange : function ≠ 0xFF)
    (hframes : session.frames = requests ++ foreign :: rest)
    (hrequests : ∀ request ∈ requests, request.IsRequest)
    (hforeign : IsForeignPrimary session.nextSystemBytes foreign)
    (hsucceeds : session.WritesSucceed (requests.length + 1))
    (hencodable : (session.primary stream function body).toBytes.isSome) :
    ∃ final, (transact stream function body).call session =
        (.error (.error (.unexpectedStreamFunction 0 (function + 1)
          (.reply session.nextSystemBytes foreign))), final) ∧ final.frames = rest := by
  obtain ⟨sent, middle, after, hsend, hanswers, hreceive, hafter⟩ :=
    exists_answered hframes hrequests hsucceeds hencodable (function + 1)
  obtain ⟨sessionId, otherStream, otherFunction, otherBytes, otherBody, rfl, hne⟩ := hforeign
  refine ⟨after, ?_, hafter⟩
  have hreact : replyReaction session.nextSystemBytes (function + 1)
      (.data sessionId otherStream otherFunction true otherBytes otherBody) = .finish _ :=
    if_neg hne
  rw [transact_call hselected, hsend]
  simp only [if_neg hrange, awaitMessage_of_answers hanswers,
    awaitMessage_of_finish hreceive hreact]
  rfl

/-- A primary message whose body can be encoded can be sent. -/
theorem isSome_toBytes_primary {session : HsmsSession} {stream function : UInt8}
    {body : Option SecsItem} (hencodable : ∀ item ∈ body, item.Encodable) :
    (session.primary stream function body).toBytes.isSome := by
  cases body with
  | none => rfl
  | some item =>
      obtain ⟨bytes, hbytes, -⟩ := readBack item (hencodable item rfl)
      simp [primary, HsmsMessage.toBytes, HsmsMessage.encode, HsmsMessage.bodyBytes, hbytes]

/-- One turn of a run without a primary of the peer. -/
theorem transact_of_quiet {session : HsmsSession} (hselected : session.state = .selected)
    (hreliable : session.Reliable) {turn : Turn} {rest : List HsmsMessage}
    (hturn : turn.Admissible session.nextSystemBytes) (hquiet : turn.Quiet)
    (hframes : session.frames = turn.before ++ turn.reply session.nextSystemBytes :: rest) :
    ∃ final, (transact turn.stream turn.function turn.body).call session =
        (.ok turn.answer, final) ∧
      final.state = .selected ∧ final.Reliable ∧
      final.nextSystemBytes = session.nextSystemBytes + 1 ∧ final.frames = rest := by
  obtain ⟨final, htransact, hexchanged, hrest⟩ :=
    transact_of_carries hselected hturn.inRange hframes hquiet (hreliable.writesSucceed _)
      (isSome_toBytes_primary hturn.encodable)
  refine ⟨final, htransact, hexchanged.same.state.trans hselected, ?_,
    hexchanged.same.nextSystemBytes, hrest⟩
  intro fault hfault
  rw [hexchanged.faults] at hfault
  exact hreliable fault (List.mem_of_mem_drop hfault)

/-- One turn of a run with a primary of the peer. -/
theorem transact_of_not_quiet {session : HsmsSession} (hselected : session.state = .selected)
    (hreliable : session.Reliable) {turn : Turn} {rest : List HsmsMessage}
    (hturn : turn.Admissible session.nextSystemBytes) (hnoisy : ¬ turn.Quiet)
    (hframes : session.frames = turn.before ++ rest) :
    ∃ stop final, (transact turn.stream turn.function turn.body).call session =
      (.error stop, final) := by
  classical
  -- the first message that is no request is a primary of the peer
  have hsome : (turn.before.find? fun message => !decide message.IsRequest).isSome := by
    simpa [Turn.Quiet] using hnoisy
  obtain ⟨foreign, hfind⟩ := Option.isSome_iff_exists.mp hsome
  obtain ⟨hforeign, requests, behind, hbefore, hrequests⟩ := List.find?_eq_some_iff_append.mp hfind
  have hmember : foreign ∈ turn.before := hbefore ▸ by simp
  obtain ⟨final, htransact, -⟩ := transact_of_foreign hselected hturn.inRange
    (hframes.trans (by rw [hbefore, List.append_assoc, List.cons_append]))
    (by simpa using hrequests)
    ((hturn.before foreign hmember).resolve_left (by simpa using hforeign))
    (hreliable.writesSucceed _) (isSome_toBytes_primary hturn.encodable)
  exact ⟨_, final, htransact⟩

/-- The system bytes after a turn and more turns are those after all of them. -/
theorem next_add_length (systemBytes : UInt32) (turn : Turn) (turns : List Turn) :
    systemBytes + 1 + UInt32.ofNat turns.length =
      systemBytes + UInt32.ofNat (turn :: turns).length := by
  rw [List.length_cons, Nat.add_comm, UInt32.ofNat_add, UInt32.add_assoc]
  rfl

/-- What the peer sends in some turns, and then in others. -/
theorem framesOfTurns_append (systemBytes : UInt32) (turns later : List Turn) :
    framesOfTurns systemBytes (turns ++ later) = framesOfTurns systemBytes turns ++
      framesOfTurns (systemBytes + UInt32.ofNat turns.length) later := by
  induction turns generalizing systemBytes with
  | nil => simp [framesOfTurns]
  | cons turn turns ih =>
      rw [List.cons_append, framesOfTurns, framesOfTurns, ih, List.append_assoc, List.cons_append,
        next_add_length]

/-- Turns in a row are admissible if the first of them are, and the others from there on. -/
theorem admissibleTurns_append {systemBytes : UInt32} {turns later : List Turn}
    (h : AdmissibleTurns systemBytes (turns ++ later)) :
    AdmissibleTurns systemBytes turns ∧
      AdmissibleTurns (systemBytes + UInt32.ofNat turns.length) later := by
  induction turns generalizing systemBytes with
  | nil => exact ⟨trivial, by simpa using h⟩
  | cons turn turns ih =>
      obtain ⟨hturns, hlater⟩ := ih h.2
      refine ⟨⟨h.1, hturns⟩, ?_⟩
      rwa [← next_add_length]

/-- Turns without a primary of the peer return their replies and leave the session ready for
the turns behind them. -/
theorem transactAll_of_quiet {session : HsmsSession} (hselected : session.state = .selected)
    (hreliable : session.Reliable) {turns : List Turn} {rest : List HsmsMessage}
    (hturns : AdmissibleTurns session.nextSystemBytes turns)
    (hquiet : ∀ turn ∈ turns, turn.Quiet)
    (hframes : session.frames = framesOfTurns session.nextSystemBytes turns ++ rest) :
    ∃ middle, (transactAll turns).call session = (.ok (turns.map Turn.answer), middle) ∧
      middle.state = .selected ∧ middle.Reliable ∧
      middle.nextSystemBytes = session.nextSystemBytes + UInt32.ofNat turns.length ∧
      middle.frames = rest := by
  induction turns generalizing session with
  | nil => exact ⟨session, rfl, hselected, hreliable, by simp, hframes⟩
  | cons turn turns ih =>
      rw [List.forall_mem_cons] at hquiet
      rw [framesOfTurns, List.append_assoc, List.cons_append] at hframes
      obtain ⟨after, htransact, hstate, hstill, hnext, hafter⟩ :=
        transact_of_quiet hselected hreliable hturns.1 hquiet.1 hframes
      rw [← hnext] at hafter
      obtain ⟨middle, hall, hmiddle⟩ := ih hstate hstill (hnext ▸ hturns.2) hquiet.2 hafter
      refine ⟨middle, ?_, ?_⟩
      · rw [transactAll_call, htransact]
        simp only [hall, List.map_cons]
      · rwa [hnext, next_add_length] at hmiddle

/-- A run goes on behind the turns that have returned. -/
theorem transactAll_append_call {turns : List Turn} {session middle : HsmsSession}
    {answers : List (UInt8 × Option SecsItem)}
    (hturns : (transactAll turns).call session = (.ok answers, middle)) (later : List Turn)
    {stop : Stop} {final : HsmsSession}
    (hlater : (transactAll later).call middle = (.error stop, final)) :
    (transactAll (turns ++ later)).call session = (.error stop, final) := by
  induction turns generalizing session answers with
  | nil =>
      cases hturns
      exact hlater
  | cons turn turns ih =>
      rw [transactAll_call] at hturns
      rw [List.cons_append, transactAll_call]
      -- neither the turn nor those behind it have stopped
      rcases htransact : (transact turn.stream turn.function turn.body).call session with
        ⟨_ | answer, after⟩
      · rw [htransact] at hturns
        cases hturns
      · rw [htransact] at hturns
        rcases hrest : (transactAll turns).call after with ⟨_ | others, last⟩
        · simp only [hrest] at hturns
          cases hturns
        · simp only [hrest] at hturns
          cases hturns
          simp only [ih hrest]

/-- The first primary of the peer stops the run at the turn that it meets. -/
theorem stops_at_foreign {session : HsmsSession} (hselected : session.state = .selected)
    (hreliable : session.Reliable) {prior later : List Turn} {turn : Turn}
    {requests behind rest : List HsmsMessage} {foreign : HsmsMessage} {systemBytes : UInt32}
    (hsystem : systemBytes = session.nextSystemBytes + UInt32.ofNat prior.length)
    (hturns : AdmissibleTurns session.nextSystemBytes (prior ++ turn :: later))
    (hframes : session.frames =
      framesOfTurns session.nextSystemBytes (prior ++ turn :: later) ++ rest)
    (hquiet : ∀ turn ∈ prior, turn.Quiet) (hbefore : turn.before = requests ++ foreign :: behind)
    (hrequests : ∀ request ∈ requests, request.IsRequest)
    (hforeign : IsForeignPrimary systemBytes foreign) :
    ∃ middle final, (transactAll prior).call session = (.ok (prior.map Turn.answer), middle) ∧
      (transact turn.stream turn.function turn.body).call middle =
        (.error (.error (.unexpectedStreamFunction 0 (turn.function + 1)
          (.reply systemBytes foreign))), final) ∧
      final.frames = behind ++ turn.reply systemBytes ::
        framesOfTurns (systemBytes + 1) later ++ rest := by
  obtain ⟨hprior, hturn, -⟩ := admissibleTurns_append hturns
  rw [framesOfTurns_append, List.append_assoc] at hframes
  obtain ⟨middle, hall, hstate, hstill, hnext, hmiddle⟩ :=
    transactAll_of_quiet hselected hreliable hprior hquiet hframes
  -- the session in front of the turn numbers it like the peer
  rw [← hsystem] at hmiddle hnext
  subst hnext
  have hsplit : middle.frames = requests ++ foreign ::
      (behind ++ turn.reply middle.nextSystemBytes ::
        framesOfTurns (middle.nextSystemBytes + 1) later ++ rest) := by
    rw [hmiddle, framesOfTurns, hbefore]
    simp
  obtain ⟨final, htransact, hfinal⟩ := transact_of_foreign hstate hturn.inRange hsplit hrequests
    hforeign (hstill.writesSucceed _) (isSome_toBytes_primary hturn.encodable)
  exact ⟨middle, final, hall, htransact, hfinal⟩

/-- A host command with a Linktest before its reply, then an identification that an event report
crosses. -/
def crossedTurns : List Turn :=
  [{ stream := 2, function := 41, body := none, before := [.linktestReq 9]
     sessionId := 0, replyStream := 2, wBit := false, replyBody := some (.binary [0]) },
   { stream := 1, function := 1, body := none, before := [.data 0 6 11 true 7 none]
     sessionId := 0, replyStream := 1, wBit := false, replyBody := none }]

def crossedBytes : Bytes :=
  [0, 0, 0, 10, 0, 0, 0, 0, 0, 5, 0, 0, 0, 9,
   0, 0, 0, 13, 0, 0, 2, 42, 0, 0, 0, 0, 0, 2, 0x21, 1, 0,
   0, 0, 0, 10, 0, 0, 0x86, 11, 0, 0, 0, 0, 0, 7,
   0, 0, 0, 10, 0, 0, 1, 2, 0, 0, 0, 0, 0, 3]

/-- The traffic of the example is the traffic of its turns. -/
theorem frames_crossedBytes :
    (selectedSession crossedBytes).frames = framesOfTurns 2 crossedTurns ++ [] := by
  have hencoded : encodeAll (framesOfTurns 2 crossedTurns ++ []) = some crossedBytes := by
    decide +kernel
  have hlength : ∀ bytes, (SecsItem.binary [0]).encode = some bytes →
      10 + bytes.length < 2 ^ 32 := by
    rintro bytes ⟨⟩
    decide
  refine framesOf_encodeAll ?_ hencoded false
  simpa [crossedTurns, framesOfTurns, Turn.reply, HsmsMessage.Canonical, SecsItem.Encodable,
    SecsItem.lengthCount, maxLength] using hlength

/-- An event report S6F11 that crosses the host command S2F41, and then the
answer S2F42 to the command. -/
def crossedCommand : Bytes :=
  [0, 0, 0, 10, 0, 0, 0x86, 11, 0, 0, 0, 0, 0, 7, 0, 0, 0, 10, 0, 0, 2, 42, 0, 0, 0, 0, 0, 2]

end HsmsSession

end Secs

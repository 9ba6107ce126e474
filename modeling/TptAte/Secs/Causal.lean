import TptAte.Secs.Operations

/-! # Sessions that are given more bytes

A call depends on its stream only through the bytes that it takes. With more
bytes behind those that were there, a call that has ended ends the same way, and
a call that was waiting goes on from where it was. How the bytes are divided does
not matter.
-/

namespace Secs

open Wire

/-- Two reads, the second of them over a stream with more bytes: they agree, or the
first is still waiting. -/
def ReadsOn {α : Type} (more : Bytes) (reading reading' : Except Stop α × Source) : Prop :=
  (more ≠ [] ∧ ∃ rest, reading = (.error .blocked, rest)) ∨
    ∃ result rest rest', reading = (result, rest) ∧ reading' = (result, rest') ∧ rest.Clean ∧
      rest'.Clean ∧ rest'.bytes = rest.bytes ++ more

section ReadsOn

variable {closed : Bool} {more : Bytes} {source source' : Source}

/-- A count of bytes that is there is read alike whatever follows it. -/
theorem readsOn_counted (wanted : Nat) (hopen : more ≠ [] → closed = false)
    (hclean : source.Clean) (hclean' : source'.Clean)
    (hbytes : source'.bytes = source.bytes ++ more) :
    ReadsOn more (readExactCounted closed wanted source)
      (readExactCounted closed wanted source') := by
  rw [readExactCounted_clean closed wanted hclean, readExactCounted_clean closed wanted hclean',
    hbytes, List.length_append]
  by_cases hshort : source.bytes.length < wanted
  · rw [if_pos hshort]
    by_cases hmore : more = []
    · subst hmore
      rw [List.length_nil, Nat.add_zero, if_pos hshort]
      exact .inr ⟨_, _, _, rfl, rfl, by simp [Source.Clean], by simp [Source.Clean], rfl⟩
    · exact .inl ⟨hmore, [], by simp [hopen hmore]⟩
  · rw [if_neg hshort, if_neg (by omega), List.take_append_of_le_length (by omega)]
    refine .inr ⟨_, _, _, rfl, rfl, hclean.skip wanted, hclean'.skip wanted, ?_⟩
    rw [Source.bytes_skip, Source.bytes_skip, hbytes, List.drop_append_of_le_length (by omega)]

/-- A message that has arrived whole is read alike whatever follows it. -/
theorem readsOn_message (hopen : more ≠ [] → closed = false) (hclean : source.Clean)
    (hclean' : source'.Clean) (hbytes : source'.bytes = source.bytes ++ more) :
    ReadsOn more (readMessage closed source) (readMessage closed source') := by
  rw [readMessage, readMessage]
  rcases readsOn_counted 4 hopen hclean hclean' hbytes with
    ⟨hmore, rest, hread⟩ | ⟨result, rest, rest', hread, hread', hrest, hrest', hbytes⟩
  · rw [hread]
    exact .inl ⟨hmore, rest, rfl⟩
  rw [hread, hread']
  cases result with
  | error stop => exact .inr ⟨_, _, _, rfl, rfl, hrest, hrest', hbytes⟩
  | ok lenBytes =>
      dsimp only
      rcases readsOn_counted (Endian.big.value lenBytes) hopen hrest hrest' hbytes with
        ⟨hmore, last, hread⟩ | ⟨result, last, last', hread, hread', hlast, hlast', hbytes⟩
      · rw [hread]
        exact .inl ⟨hmore, last, rfl⟩
      rw [hread, hread']
      cases result with
      | error stop => exact .inr ⟨_, _, _, rfl, rfl, hlast, hlast', hbytes⟩
      | ok payload =>
          dsimp only
          cases HsmsMessage.fromBytes (lenBytes ++ payload) with
          | error error => exact .inr ⟨_, _, _, rfl, rfl, hlast, hlast', hbytes⟩
          | ok pair => exact .inr ⟨_, _, _, rfl, rfl, hlast, hlast', hbytes⟩

theorem clean_readMessage (closed : Bool) (hclean : source.Clean) :
    (readMessage closed source).2.Clean := by
  have hreads : ReadsOn [] (readMessage closed source) (readMessage closed source) :=
    readsOn_message (fun h => (h rfl).elim) hclean hclean (by simp)
  rcases hreads with ⟨hmore, -⟩ | ⟨result, rest, rest', hread, -, hrest, -⟩
  · exact (hmore rfl).elim
  · rw [hread]
    exact hrest

end ReadsOn

namespace HsmsSession

/-- Neither reading nor writing fails at the stream. -/
structure Faultless (session : HsmsSession) : Prop where
  clean : session.stream.inbound.Clean
  faults : session.stream.faults = []

/-- The second session is the first one with more bytes to read, except for the
history. A closed stream gets no more bytes. -/
structure Ahead (more : Bytes) (session session' : HsmsSession) : Prop where
  faultless : session.Faultless
  faultless' : session'.Faultless
  same : SameState session session'
  closed : session'.stream.closed = session.stream.closed
  isOpen : more ≠ [] → session.stream.closed = false
  bytes : session'.stream.inbound.bytes = session.stream.inbound.bytes ++ more

theorem Faultless.ahead {session : HsmsSession} (h : session.Faultless) :
    Ahead [] session session :=
  ⟨h, h, ⟨rfl, rfl, rfl⟩, rfl, fun hmore => (hmore rfl).elim, by simp⟩

/-- Two calls, the second of them with more bytes: they end alike with the same
events, or the first is still waiting and its events come first in the second. -/
def Continues {α : Type} (more : Bytes) (session session' : HsmsSession)
    (result result' : Except Stop α × HsmsSession) : Prop :=
  ∃ events events', Grown events session result.2 ∧ Grown events' session' result'.2 ∧
    result'.2.Faultless ∧
    ((result'.1 = result.1 ∧ events' = events ∧ Ahead more result.2 result'.2) ∨
      (result.1 = .error .blocked ∧ more ≠ [] ∧ events <+: events'))

/-- An action that treats its stream as a sequence of bytes. -/
structure Causal {α : Type} (action : SessionM α) : Prop where
  grows : ∀ session : HsmsSession, session.Faultless →
    ∃ events, Grown events session (action.call session).2 ∧ (action.call session).2.Faultless
  continues : ∀ more session session', Ahead more session session' →
    Continues more session session' (action.call session) (action.call session')

theorem Faultless.of_stream {session session' : HsmsSession} (h : session.Faultless)
    (hstream : session'.stream = session.stream) : session'.Faultless :=
  ⟨hstream ▸ h.clean, hstream ▸ h.faults⟩

/-! ## Reading and writing -/

/-- The session behind a write. -/
def havingSent (session : HsmsSession) (message : HsmsMessage) (bytes : Bytes) : HsmsSession :=
  { session with
    stream := { session.stream with
      sent := session.stream.sent ++ bytes
      log := session.stream.log ++ [.wrote message] } }

/-- A write that succeeds puts its message at the end of the log. -/
theorem grown_havingSent (session : HsmsSession) {message : HsmsMessage} {bytes : Bytes}
    (hbytes : message.toBytes = some bytes) :
    Grown [.wrote message] session (session.havingSent message bytes) :=
  ⟨rfl, by simp [havingSent, sentBytes, hbytes]⟩

section Streams

variable {more : Bytes} {session session' : HsmsSession}

/-- A faultless session sends what can be encoded. -/
theorem Faultless.send (h : session.Faultless) (message : HsmsMessage) :
    session.send message =
      match message.toBytes with
      | none => (.error .panicked, session)
      | some bytes => (.ok (), session.havingSent message bytes) := by
  obtain ⟨⟨inbound, closed, faults, sent, log⟩, state, sessionId, nextSystemBytes⟩ := session
  obtain rfl : faults = [] := h.faults
  rw [HsmsSession.send, writeMessage]
  cases message.toBytes <;> rfl

theorem faultless_send (h : session.Faultless) (message : HsmsMessage) :
    (session.send message).2.Faultless := by
  rw [h.send]
  cases message.toBytes with
  | none => exact h
  | some bytes => exact ⟨h.clean, h.faults⟩

theorem faultless_receive (h : session.Faultless) : session.receive.2.Faultless := by
  have hclean := clean_readMessage session.stream.closed h.clean
  unfold receive
  dsimp only
  rcases hread : readMessage session.stream.closed session.stream.inbound with ⟨stop | _, rest⟩ <;>
    rw [hread] at hclean <;> exact ⟨hclean, h.faults⟩

theorem faultless_of_receive {after : HsmsSession} {result : Except Stop HsmsMessage}
    (h : session.Faultless) (hreceive : session.receive = (result, after)) : after.Faultless := by
  have hafter := faultless_receive h
  rwa [hreceive] at hafter

theorem faultless_of_send {after : HsmsSession} {message : HsmsMessage} {result : Except Stop Unit}
    (h : session.Faultless) (hsend : session.send message = (result, after)) :
    after.Faultless := by
  have hafter := faultless_send h message
  rwa [hsend] at hafter

/-- With more bytes a session receives the same, unless it was waiting. -/
theorem ahead_receive (h : Ahead more session session') :
    (more ≠ [] ∧ ∃ after, session.receive = (.error .blocked, after)) ∨
      ∃ result after after', session.receive = (result, after) ∧
        session'.receive = (result, after') ∧ Ahead more after after' := by
  unfold receive
  dsimp only
  rw [h.closed]
  rcases readsOn_message h.isOpen h.faultless.clean h.faultless'.clean h.bytes with
    ⟨hmore, rest, hread⟩ | ⟨result, rest, rest', hread, hread', hrest, hrest', hbytes⟩
  · rw [hread]
    exact .inl ⟨hmore, _, rfl⟩
  · rw [hread, hread']
    cases result <;>
      exact .inr ⟨_, _, _, rfl, rfl, ⟨hrest, h.faultless.faults⟩, ⟨hrest', h.faultless'.faults⟩,
        ⟨h.same.state, h.same.sessionId, h.same.nextSystemBytes⟩, rfl, h.isOpen, hbytes⟩

/-- What is still to arrive does not change what a write does. -/
theorem ahead_send (h : Ahead more session session') (message : HsmsMessage) :
    ∃ result after after', session.send message = (result, after) ∧
      session'.send message = (result, after') ∧ Ahead more after after' := by
  rw [h.faultless.send, h.faultless'.send]
  cases message.toBytes with
  | none => exact ⟨_, _, _, rfl, rfl, h⟩
  | some bytes =>
      exact ⟨_, _, _, rfl, rfl, ⟨h.faultless.clean, h.faultless.faults⟩,
        ⟨h.faultless'.clean, h.faultless'.faults⟩,
        ⟨h.same.state, h.same.sessionId, h.same.nextSystemBytes⟩, h.closed, h.isOpen, h.bytes⟩

end Streams

/-! ## Causal actions -/

section Causal

variable {α β : Type}

/-- Both calls end alike where they are. -/
theorem Continues.of_same {more : Bytes} {session session' after after' : HsmsSession}
    {result : Except Stop α} {events : List Event} (hgrown : Grown events session after)
    (hgrown' : Grown events session' after') (hahead : Ahead more after after') :
    Continues more session session' (result, after) (result, after') :=
  ⟨events, events, hgrown, hgrown', hahead.faultless', .inl ⟨rfl, rfl, hahead⟩⟩

/-- Both calls go on behind the same events. -/
theorem Continues.behind {more : Bytes} {session session' start start' : HsmsSession}
    {front : List Event} {result result' : Except Stop α × HsmsSession}
    (hfront : Grown front session start) (hfront' : Grown front session' start')
    (h : Continues more start start' result result') :
    Continues more session session' result result' := by
  obtain ⟨events, events', hgrown, hgrown', hfinal, hcases⟩ := h
  refine ⟨_, _, hfront.trans hgrown, hfront'.trans hgrown', hfinal, ?_⟩
  rcases hcases with ⟨hsame, rfl, hahead⟩ | ⟨hblocked, hmore, hinitial⟩
  · exact .inl ⟨hsame, rfl, hahead⟩
  · exact .inr ⟨hblocked, hmore, (List.prefix_append_right_inj _).mpr hinitial⟩

/-- Looking at what a call returned does not change how it continues. -/
theorem Continues.map {more : Bytes} {session session' : HsmsSession}
    {result result' : Except Stop α × HsmsSession}
    (h : Continues more session session' result result') (f : α → β) :
    Continues more session session' (result.1.map f, result.2) (result'.1.map f, result'.2) := by
  obtain ⟨events, events', hgrown, hgrown', hfinal, hcases⟩ := h
  refine ⟨events, events', hgrown, hgrown', hfinal, ?_⟩
  rcases hcases with ⟨hsame, rfl, hahead⟩ | ⟨hblocked, hmore, hinitial⟩
  · exact .inl ⟨congrArg (Except.map f) hsame, rfl, hahead⟩
  · exact .inr ⟨by rw [hblocked]; rfl, hmore, hinitial⟩

theorem causal_pure (value : α) : Causal (pure value) :=
  ⟨fun session h => ⟨[], .refl session, h⟩,
    fun _ _ _ h => .of_same (.refl _) (.refl _) h⟩

theorem causal_throw (stop : Stop) : Causal (throw stop : SessionM α) :=
  ⟨fun session h => ⟨[], .refl session, h⟩,
    fun _ _ _ h => .of_same (.refl _) (.refl _) h⟩

theorem causal_fail (error : SecsError) : Causal (fail error : SessionM α) :=
  causal_throw (.error error)

/-- A call behind another one continues if it does where that one returns. -/
theorem Continues.bind {more : Bytes} {session session' : HsmsSession} {first : SessionM α}
    {next : α → SessionM β}
    (h : Continues more session session' (first.call session) (first.call session'))
    (hgrows : ∀ value (middle : HsmsSession), middle.Faultless →
      ∃ events, Grown events middle ((next value).call middle).2 ∧
        ((next value).call middle).2.Faultless)
    (hnext : ∀ value middle middle', first.call session = (.ok value, middle) →
      Ahead more middle middle' →
        Continues more middle middle' ((next value).call middle) ((next value).call middle')) :
    Continues more session session' ((first >>= next).call session)
      ((first >>= next).call session') := by
  obtain ⟨events, events', hgrown, hgrown', hfaultless', hcases⟩ := h
  rw [SessionM.call_bind, SessionM.call_bind]
  rcases hcall : first.call session with ⟨result, middle⟩
  rcases hcall' : first.call session' with ⟨result', middle'⟩
  rw [hcall, hcall'] at hcases
  rw [hcall] at hgrown
  rw [hcall'] at hgrown' hfaultless'
  rcases hcases with ⟨hresult, rfl, hmiddle⟩ | ⟨hblocked, hmore, hinitial⟩
  · cases hresult
    cases result with
    | error stop => exact .of_same hgrown hgrown' hmiddle
    | ok value => exact (hnext value middle middle' hcall hmiddle).behind hgrown hgrown'
  · -- the first call waits, whatever the second one goes on to do
    cases hblocked
    cases result' with
    | error stop =>
        exact ⟨_, _, hgrown, hgrown', hfaultless', .inr ⟨rfl, hmore, hinitial⟩⟩
    | ok value =>
        obtain ⟨last', hlast', hfinal⟩ := hgrows value middle' hfaultless'
        exact ⟨_, _, hgrown, hgrown'.trans hlast', hfinal,
          .inr ⟨rfl, hmore, hinitial.trans (List.prefix_append _ _)⟩⟩

/-- Causal actions in sequence are causal. -/
theorem Causal.bind {first : SessionM α} {next : α → SessionM β} (hfirst : Causal first)
    (hnext : ∀ value, Causal (next value)) : Causal (first >>= next) := by
  constructor
  · intro session hfaultless
    obtain ⟨events, hgrown, hmiddle⟩ := hfirst.grows session hfaultless
    rw [SessionM.call_bind]
    rcases hcall : first.call session with ⟨stop | value, middle⟩ <;> rw [hcall] at hgrown hmiddle
    · exact ⟨events, hgrown, hmiddle⟩
    · obtain ⟨events', hgrown', hfinal⟩ := (hnext value).grows middle hmiddle
      exact ⟨events ++ events', hgrown.trans hgrown', hfinal⟩
  · intro more session session' hahead
    exact (hfirst.continues more session session' hahead).bind
      (fun value middle => (hnext value).grows middle)
      fun value middle middle' _ => (hnext value).continues more middle middle'

/-- An action behind a check that may end it. -/
theorem causal_check {condition : Prop} [Decidable condition] {stop : Stop} {rest : SessionM α}
    (hrest : Causal rest) : Causal (if condition then throw stop >>= fun () => rest else rest) := by
  split
  · exact (causal_throw stop).bind fun _ => hrest
  · exact hrest

theorem causal_write (message : HsmsMessage) : Causal (write message) := by
  have hgrown (session : HsmsSession) (h : session.Faultless) :
      Grown (if message.toBytes.isSome then [.wrote message] else []) session
        (session.send message).2 := by
    rw [h.send]
    cases hbytes : message.toBytes with
    | none => exact .refl session
    | some bytes => exact grown_havingSent session hbytes
  constructor
  · intro session h
    exact ⟨_, hgrown session h, faultless_send h message⟩
  · intro more session session' h
    have hfirst := hgrown session h.faultless
    have hsecond := hgrown session' h.faultless'
    obtain ⟨result, after, after', hsend, hsend', hahead⟩ := ahead_send h message
    rw [hsend] at hfirst
    rw [hsend'] at hsecond
    rw [write, SessionM.call_mk, SessionM.call_mk, hsend, hsend']
    exact .of_same hfirst hsecond hahead

theorem causal_setState (state : HsmsState) : Causal (setState state) :=
  ⟨fun _ h => ⟨[], .of_stream rfl, h.of_stream rfl⟩,
    fun _ _ _ h => .of_same (.of_stream rfl) (.of_stream rfl)
      ⟨h.faultless.of_stream rfl, h.faultless'.of_stream rfl,
        ⟨rfl, h.same.sessionId, h.same.nextSystemBytes⟩, h.closed, h.isOpen, h.bytes⟩⟩

theorem takeSystemBytes_call (session : HsmsSession) :
    takeSystemBytes.call session = (.ok session.nextSystemBytes, session.advanced) := rfl

theorem causal_takeSystemBytes : Causal takeSystemBytes := by
  constructor
  · exact fun _ h => ⟨[], .of_stream rfl, h.of_stream rfl⟩
  · intro more session session' h
    have hcounter := h.same.nextSystemBytes
    rw [takeSystemBytes_call, takeSystemBytes_call, hcounter]
    exact .of_same (.of_stream rfl) (.of_stream rfl)
      ⟨h.faultless.of_stream rfl, h.faultless'.of_stream rfl,
        ⟨h.same.state, h.same.sessionId, congrArg (· + 1) hcounter⟩, h.closed, h.isOpen, h.bytes⟩

/-- An action may look at the session's state, but not at its stream. -/
theorem causal_get {next : HsmsSession → SessionM α}
    (hstate : ∀ session session', SameState session session' → next session = next session')
    (hnext : ∀ session, Causal (next session)) : Causal (get >>= next) := by
  constructor
  · intro session h
    rw [SessionM.call_bind, SessionM.call_get]
    exact (hnext session).grows session h
  · intro more session session' h
    rw [SessionM.call_bind, SessionM.call_bind, SessionM.call_get, SessionM.call_get]
    dsimp only
    rw [← hstate session session' h.same]
    exact (hnext session).continues more session session' h

end Causal

/-! ## The calls are causal -/

section Loops

variable {α : Type} {react : HsmsMessage → Reaction α}

/-- A loop over a faultless stream only adds to the history. -/
theorem grows_await (hfinish : ∀ message last, react message = .finish last → Causal last)
    {session : HsmsSession} (h : session.Faultless) :
    ∃ events, Grown events session (awaitMessage react session).2 ∧
      (awaitMessage react session).2.Faultless := by
  fun_induction awaitMessage react session with
  | case1 session stop after hreceive =>
      exact ⟨[], (unread_receive hreceive).1, faultless_of_receive h hreceive⟩
  | case2 session message after hreceive last hreact =>
      obtain ⟨events, hgrown, hfinal⟩ :=
        (hfinish _ _ hreact).grows after (faultless_of_receive h hreceive)
      exact ⟨_, (grown_receive hreceive).trans hgrown, hfinal⟩
  | case3 session message after hreceive reply hreact stop failed hsend =>
      have hfailed := faultless_of_send (faultless_of_receive h hreceive) hsend
      exact ⟨_, (grown_receive hreceive).trans (unsent_send hsend).1, hfailed⟩
  | case4 session message middle hreceive reply hreact next hsend ih =>
      have hnext := faultless_of_send (faultless_of_receive h hreceive) hsend
      obtain ⟨events, hgrown, hfinal⟩ := ih hnext
      exact ⟨_, ((grown_receive hreceive).trans (grown_send hsend)).trans hgrown, hfinal⟩

/-- A loop is causal if the ways it ends are. -/
theorem causal_await
    (hfinish : ∀ message last, react message = .finish last → Causal last) :
    Causal (await react) := by
  refine ⟨fun session h => grows_await hfinish h, fun more session session' hahead => ?_⟩
  simp only [await, SessionM.call_mk]
  -- by induction along the loop, once for each way in which a round of it can go on
  fun_induction awaitMessage react session generalizing session' with
  | case1 session stop after hreceive =>
      rcases ahead_receive hahead with
        ⟨hmore, other, hblocked⟩ | ⟨result, other, after', hread, hread', hafter⟩
      · cases hreceive.symm.trans hblocked
        -- the wait is blocked, and with more bytes it may go on from here
        obtain ⟨events, hgrown, hfinal⟩ := grows_await hfinish hahead.faultless'
        exact ⟨_, _, (unread_receive hreceive).1, hgrown, hfinal,
          .inr ⟨rfl, hmore, List.nil_prefix⟩⟩
      · cases hreceive.symm.trans hread
        rw [awaitMessage_eq, hread']
        exact .of_same (unread_receive hreceive).1 (unread_receive hread').1 hafter
  | case2 session message after hreceive last hreact =>
      rcases ahead_receive hahead with
        ⟨-, other, hblocked⟩ | ⟨result, other, after', hread, hread', hafter⟩
      · cases hreceive.symm.trans hblocked
      cases hreceive.symm.trans hread
      rw [awaitMessage_of_finish hread' hreact]
      exact ((hfinish _ _ hreact).continues more _ _ hafter).behind (grown_receive hreceive)
        (grown_receive hread')
  | case3 session message after hreceive reply hreact stop failed hsend =>
      rcases ahead_receive hahead with
        ⟨-, other, hblocked⟩ | ⟨result, other, after', hread, hread', hafter⟩
      · cases hreceive.symm.trans hblocked
      cases hreceive.symm.trans hread
      obtain ⟨sending, other, failed', hwrite, hwrite', hfailed⟩ := ahead_send hafter reply
      cases hsend.symm.trans hwrite
      rw [awaitMessage_eq, hread']
      simp only [hreact, hwrite']
      exact .of_same ((grown_receive hreceive).trans (unsent_send hsend).1)
        ((grown_receive hread').trans (unsent_send hwrite').1) hfailed
  | case4 session message middle hreceive reply hreact next hsend ih =>
      rcases ahead_receive hahead with
        ⟨-, other, hblocked⟩ | ⟨result, other, middle', hread, hread', hmiddle⟩
      · cases hreceive.symm.trans hblocked
      cases hreceive.symm.trans hread
      obtain ⟨sending, other, next', hwrite, hwrite', hnext⟩ := ahead_send hmiddle reply
      cases hsend.symm.trans hwrite
      rw [awaitMessage_of_answers (.cons hread' hreact hwrite' (.nil next'))]
      exact (ih next' hnext).behind ((grown_receive hreceive).trans (grown_send hsend))
        ((grown_receive hread').trans (grown_send hwrite'))

end Loops

theorem causal_awaitSelectRsp : Causal (await selectReaction) := by
  refine causal_await fun message last hreact => ?_
  cases message with
  | selectRsp _ status =>
      cases hreact
      cases status with
      | selected => exact causal_setState _
      | _ => exact causal_fail _
  | linktestReq => cases hreact
  | _ =>
      cases hreact
      exact causal_fail _

theorem causal_select : Causal select :=
  causal_takeSystemBytes.bind fun _ => (causal_write _).bind fun _ => causal_awaitSelectRsp

theorem causal_acceptSelect : Causal acceptSelect := by
  refine causal_await fun message last hreact => ?_
  cases message with
  | selectReq =>
      cases hreact
      exact (causal_write _).bind fun _ => causal_setState _
  | linktestReq => cases hreact
  | _ =>
      cases hreact
      exact causal_fail _

theorem causal_awaitReply (systemBytes : UInt32) (wantFunction : UInt8) :
    Causal (awaitReply systemBytes wantFunction) := by
  refine causal_await fun message last hreact => ?_
  cases message with
  | data =>
      simp only [replyReaction] at hreact
      split at hreact
      · cases hreact
        exact causal_get (fun _ _ h => by rw [h.sessionId]) fun _ => causal_pure _
      · cases hreact
        exact causal_fail _
  | linktestReq | selectReq => cases hreact
  | separate =>
      cases hreact
      exact (causal_setState _).bind fun _ => causal_fail _
  | _ =>
      cases hreact
      exact causal_fail _

theorem causal_transact (stream function : UInt8) (body : Option SecsItem) :
    Causal (transact stream function body) := by
  refine causal_get (fun _ _ h => by rw [h.state, h.sessionId]) fun session => ?_
  apply causal_check
  refine causal_takeSystemBytes.bind fun systemBytes => (causal_write _).bind fun _ => ?_
  apply causal_check
  refine (causal_awaitReply _ _).bind fun message => ?_
  cases message with
  | data => exact causal_pure _
  | _ => exact causal_throw _

theorem causal_awaitPrimary (makeReply : UInt8 → UInt8 → Option SecsItem → Option SecsItem) :
    Causal (await (serveReaction makeReply)) := by
  refine causal_await fun message last hreact => ?_
  cases message with
  | data sessionId stream function wBit systemBytes body =>
      cases hreact
      dsimp only
      split
      · apply causal_check
        exact (causal_write _).bind fun _ => causal_pure _
      · exact causal_pure _
  | linktestReq | selectReq => cases hreact
  | separate =>
      cases hreact
      exact (causal_setState _).bind fun _ => causal_fail _
  | _ => cases hreact

theorem causal_serveOne (makeReply : UInt8 → UInt8 → Option SecsItem → Option SecsItem) :
    Causal (serveOne makeReply) := by
  refine causal_get (fun _ _ h => by rw [h.state]) fun session => ?_
  apply causal_check
  exact causal_awaitPrimary makeReply

/-- Every call treats its stream as a sequence of bytes. -/
theorem causal_call (operation : Operation) {more : Bytes} {session session' : HsmsSession}
    (h : Ahead more session session') :
    Continues more session session' (operation.call session) (operation.call session') := by
  cases operation with
  | select => exact (causal_select.continues more _ _ h).map _
  | acceptSelect => exact (causal_acceptSelect.continues more _ _ h).map _
  | transact stream function body =>
      exact ((causal_transact stream function body).continues more _ _ h).map _
  | serveOne makeReply => exact ((causal_serveOne makeReply).continues more _ _ h).map _

end HsmsSession

end Secs

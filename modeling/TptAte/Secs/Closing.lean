import TptAte.Secs.Loop
import TptAte.Duplex.Ending

/-! # Sessions whose peer goes away

While its stream is open a call cannot tell whether the peer will go away: what it returns
is the same at the end of the stream. A call that waits for a peer that has gone comes to
the end of the stream instead.
-/

namespace Secs

open Wire Duplex

namespace HsmsSession

variable {α β : Type}

def shut (session : HsmsSession) : HsmsSession :=
  { session with stream := { session.stream with closed := true } }

/-- A call and the same call at the end of its stream: what it returns before is the same,
and at the end it does not wait. -/
structure EndsAt (action : SessionM α) (session : HsmsSession) : Prop where
  same : session.stream.closed = false → (action.call session).1 ≠ .error .blocked →
    action.call session.shut = ((action.call session).1, (action.call session).2.shut)
  waiting : session.stream.closed = false → (action.call session).1 = .error .blocked →
    (action.call session).2.stream.sent <+: (action.call session.shut).2.stream.sent
  never : session.stream.closed = true → (action.call session).1 ≠ .error .blocked

/-- An action that comes to an end with its stream. -/
structure Ends (action : SessionM α) : Prop extends Causal action where
  closed : ∀ session, (action.call session).2.stream.closed = session.stream.closed
  endsAt : ∀ session : HsmsSession, session.Faultless → EndsAt action session

theorem Faultless.shut {session : HsmsSession} (h : session.Faultless) : session.shut.Faultless :=
  ⟨h.clean, h.faults⟩

theorem sameState_shut (session : HsmsSession) : SameState session session.shut := ⟨rfl, rfl, rfl⟩

/-! ## Reading and writing -/

/-- Reading does not close the stream. -/
theorem closed_receive (session : HsmsSession) :
    session.receive.2.stream.closed = session.stream.closed := by
  unfold receive
  dsimp only
  rcases readMessage session.stream.closed session.stream.inbound with ⟨stop | message, rest⟩ <;>
    rfl

/-- Writing does not close the other party's half. -/
theorem closed_send (message : HsmsMessage) (session : HsmsSession) :
    (session.send message).2.stream.closed = session.stream.closed := by
  unfold send writeMessage
  cases message.toBytes with
  | none => rfl
  | some bytes => rcases session.stream.faults with _ | ⟨_ | kind, faults⟩ <;> rfl

/-- Whether the other party is gone does not matter to a write. -/
theorem send_shut (message : HsmsMessage) (session : HsmsSession) :
    session.shut.send message =
      ((session.send message).1, (session.send message).2.shut) := by
  unfold send writeMessage
  cases message.toBytes with
  | none => rfl
  | some bytes =>
      simp only [shut]
      rcases session.stream.faults with _ | ⟨_ | kind, faults⟩ <;> rfl

/-- A number of bytes from a stream that is open or has ended. -/
theorem readExactCounted_cases (wanted : Nat) {source : Source} (hclean : source.Clean) :
    (readExactCounted false wanted source = (.error .blocked, []) ∧
      readExactCounted true wanted source =
        (.error (.error (.unexpectedEof wanted source.bytes.length)), [])) ∨
    ∃ bytes rest, rest.Clean ∧
      ∀ closed, readExactCounted closed wanted source = (.ok bytes, rest) := by
  by_cases hshort : source.bytes.length < wanted
  · refine .inl ⟨?_, ?_⟩ <;> rw [readExactCounted_clean _ wanted hclean, if_pos hshort] <;> rfl
  · refine .inr ⟨source.bytes.take wanted, _, hclean.skip wanted, fun closed => ?_⟩
    rw [readExactCounted_clean closed wanted hclean, if_neg hshort]

/-- A message from a stream that is open or has ended. -/
theorem readMessage_cases {source : Source} (hclean : source.Clean) :
    (readMessage false source = (.error .blocked, []) ∧
      ∃ error, readMessage true source = (.error (.error error), [])) ∨
    ∃ result rest, result ≠ .error .blocked ∧
      ∀ closed, readMessage closed source = (result, rest) := by
  rcases readExactCounted_cases 4 hclean with ⟨hopen, hend⟩ | ⟨lenBytes, rest, hrest, hread⟩
  · refine .inl ⟨?_, .unexpectedEof 4 source.bytes.length, ?_⟩
    · rw [readMessage, hopen]
    · rw [readMessage, hend]
  rcases readExactCounted_cases (Endian.big.value lenBytes) hrest with
    ⟨hopen, hend⟩ | ⟨payload, last, -, hread'⟩
  · refine .inl ⟨?_, .unexpectedEof (Endian.big.value lenBytes) rest.bytes.length, ?_⟩
    · simp only [readMessage, hread, hopen]
    · simp only [readMessage, hread, hend]
  · cases hdecode : HsmsMessage.fromBytes (lenBytes ++ payload) with
    | error error =>
        refine .inr ⟨.error (.error error), last, by simp, fun closed => ?_⟩
        simp only [readMessage, hread, hread', hdecode]
    | ok pair =>
        refine .inr ⟨.ok pair.1, last, by simp, fun closed => ?_⟩
        simp only [readMessage, hread, hread', hdecode]

/-- What a session receives when its peer may have gone. -/
theorem receive_cases {session : HsmsSession} (h : session.Faultless)
    (hopen : session.stream.closed = false) :
    (∃ after error, session.receive = (.error .blocked, after) ∧
      session.shut.receive = (.error (.error error), after.shut)) ∨
    ∃ result after, result ≠ .error .blocked ∧ session.receive = (result, after) ∧
      session.shut.receive = (result, after.shut) := by
  unfold receive
  simp only [hopen]
  rcases readMessage_cases h.clean with ⟨hread, error, hend⟩ | ⟨result, rest, hne, hread⟩
  · refine .inl ⟨_, error, by rw [hread], ?_⟩
    simp only [shut, hend]
  · refine .inr ⟨result, ?_⟩
    simp only [shut, hread]
    cases result with
    | error stop => exact ⟨_, hne, rfl, rfl⟩
    | ok message => exact ⟨_, hne, rfl, rfl⟩

/-- Where the stream has ended nothing that is received is waited for. -/
theorem receive_ne_blocked {session : HsmsSession} (h : session.Faultless)
    (hclosed : session.stream.closed = true) : session.receive.1 ≠ .error .blocked := by
  unfold receive
  simp only [hclosed]
  rcases readMessage_cases h.clean with ⟨-, error, hend⟩ | ⟨result, rest, hne, hread⟩
  · rw [hend]
    nofun
  · rw [hread]
    cases result with
    | error stop => exact hne
    | ok message => nofun

/-- A write never waits. -/
theorem send_ne_blocked (message : HsmsMessage) (session : HsmsSession) :
    (session.send message).1 ≠ .error .blocked := by
  unfold send writeMessage
  cases message.toBytes with
  | none => nofun
  | some bytes => rcases session.stream.faults with _ | ⟨_ | kind, faults⟩ <;> nofun

/-! ## Actions that come to an end -/

/-- An action that does not look at its stream. -/
theorem Ends.of_unread {action : SessionM α} (hcausal : Causal action)
    (hclosed : ∀ session, (action.call session).2.stream.closed = session.stream.closed)
    (hsame : ∀ session : HsmsSession,
      action.call session.shut = ((action.call session).1, (action.call session).2.shut))
    (hnever : ∀ session, (action.call session).1 ≠ .error .blocked) : Ends action :=
  ⟨hcausal, hclosed, fun session _ => ⟨fun _ _ => hsame session,
    fun _ hblocked => (hnever session hblocked).elim, fun _ => hnever session⟩⟩

theorem ends_pure (value : α) : Ends (pure value) :=
  .of_unread (causal_pure value) (fun _ => rfl) (fun _ => rfl) fun _ => nofun

theorem ends_throw {stop : Stop} (hstop : stop ≠ .blocked) : Ends (throw stop : SessionM α) :=
  .of_unread (causal_throw stop) (fun _ => rfl) (fun _ => rfl)
    fun _ h => hstop (Except.error.inj h)

theorem ends_fail (error : SecsError) : Ends (fail error : SessionM α) := ends_throw nofun

theorem ends_write (message : HsmsMessage) : Ends (write message) :=
  .of_unread (causal_write message) (closed_send message) (send_shut message)
    (send_ne_blocked message)

theorem ends_setState (state : HsmsState) : Ends (setState state) :=
  .of_unread (causal_setState state) (fun _ => rfl) (fun _ => rfl) fun _ => nofun

theorem ends_takeSystemBytes : Ends takeSystemBytes :=
  .of_unread causal_takeSystemBytes (fun _ => rfl) (fun _ => rfl) fun _ => nofun

/-- A call behind another one. -/
theorem EndsAt.bind {first : SessionM α} {next : α → SessionM β} {session : HsmsSession}
    (hfaultless : session.Faultless) (hfirst : Ends first)
    (hcausal : ∀ value, Causal (next value))
    (hnext : ∀ value middle, first.call session = (.ok value, middle) → middle.Faultless →
      EndsAt (next value) middle) : EndsAt (first >>= next) session := by
  obtain ⟨hsame, hwaiting, hnever⟩ := hfirst.endsAt session hfaultless
  have hclosed := hfirst.closed session
  obtain ⟨-, -, hmiddle⟩ := hfirst.grows session hfaultless
  rcases hcall : first.call session with ⟨stop | value, middle⟩ <;>
    rw [hcall] at hsame hwaiting hnever hclosed hmiddle
  · have hbind : (first >>= next).call session = (.error stop, middle) := by
      rw [SessionM.call_bind, hcall]
    constructor
    · intro hopen hreturned
      have hstop : stop ≠ .blocked := fun h => hreturned (h ▸ congrArg Prod.fst hbind)
      rw [hbind, SessionM.call_bind, hsame hopen fun h => hstop (Except.error.inj h)]
    · intro hopen hblocked
      rw [hbind] at hblocked
      obtain rfl : stop = .blocked := Except.error.inj hblocked
      -- the first action waits, and at the end of the stream the next one may follow
      have hsent := hwaiting hopen rfl
      obtain ⟨-, -, hmiddle'⟩ := hfirst.grows session.shut hfaultless.shut
      rw [hbind, SessionM.call_bind]
      rcases hcall' : first.call session.shut with ⟨stop' | value', middle'⟩ <;>
        rw [hcall'] at hsent hmiddle'
      · exact hsent
      · obtain ⟨events, hgrown, -⟩ := (hcausal value').grows middle' hmiddle'
        dsimp only
        rw [hgrown.sent]
        exact hsent.trans (List.prefix_append _ _)
    · intro hshut hblocked
      rw [hbind] at hblocked
      exact hnever hshut (congrArg Except.error (Except.error.inj hblocked))
  · have hbind : (first >>= next).call session = (next value).call middle := by
      rw [SessionM.call_bind, hcall]
    obtain ⟨hsame', hwaiting', hnever'⟩ := hnext value middle hcall hmiddle
    have hbind' (hopen : session.stream.closed = false) :
        (first >>= next).call session.shut = (next value).call middle.shut := by
      rw [SessionM.call_bind, hsame hopen nofun]
    constructor
    · intro hopen hreturned
      rw [hbind] at hreturned ⊢
      rw [hbind' hopen]
      exact hsame' (hclosed.trans hopen) hreturned
    · intro hopen hblocked
      rw [hbind] at hblocked ⊢
      rw [hbind' hopen]
      exact hwaiting' (hclosed.trans hopen) hblocked
    · intro hshut
      rw [hbind]
      exact hnever' (hclosed.trans hshut)

/-- Actions that end in sequence end. -/
theorem Ends.bind {first : SessionM α} {next : α → SessionM β} (hfirst : Ends first)
    (hnext : ∀ value, Ends (next value)) : Ends (first >>= next) := by
  refine ⟨hfirst.toCausal.bind fun value => (hnext value).toCausal, fun session => ?_,
    fun session hfaultless => .bind hfaultless hfirst (fun value => (hnext value).toCausal)
      fun value middle _ hmiddle => (hnext value).endsAt middle hmiddle⟩
  have hclosed := hfirst.closed session
  rw [SessionM.call_bind]
  rcases hcall : first.call session with ⟨stop | value, middle⟩ <;> rw [hcall] at hclosed
  · exact hclosed
  · exact ((hnext value).closed middle).trans hclosed

/-- An action behind a check that may end it. -/
theorem ends_check {condition : Prop} [Decidable condition] {stop : Stop} {rest : SessionM α}
    (hrest : Ends rest) (hstop : stop ≠ .blocked := by nofun) :
    Ends (if condition then throw stop >>= fun () => rest else rest) := by
  split
  · exact (ends_throw hstop).bind fun _ => hrest
  · exact hrest

/-- An action may look at the session's state. -/
theorem ends_get {next : HsmsSession → SessionM α}
    (hstate : ∀ session session', SameState session session' → next session = next session')
    (hnext : ∀ session, Ends (next session)) : Ends (get >>= next) := by
  have hcall (session : HsmsSession) :
      (get >>= next).call session = (next session).call session := by
    rw [SessionM.call_bind, SessionM.call_get]
  refine ⟨causal_get hstate fun session => (hnext session).toCausal, fun session => ?_,
    fun session hfaultless => ?_⟩
  · rw [hcall]
    exact (hnext session).closed session
  · have hshut : (get >>= next).call session.shut = (next session).call session.shut := by
      rw [hcall, ← hstate session session.shut (sameState_shut session)]
    obtain ⟨hsame, hwaiting, hnever⟩ := (hnext session).endsAt session hfaultless
    constructor <;> rw [hcall]
    · rwa [hshut]
    · rwa [hshut]
    · exact hnever

/-! ## Waiting loops -/

section Loops

variable {react : HsmsMessage → Reaction α}

/-- A wait leaves open or closed whether the other party is gone. -/
theorem closed_await (hfinish : ∀ message last, react message = .finish last → Ends last)
    (session : HsmsSession) :
    (awaitMessage react session).2.stream.closed = session.stream.closed := by
  fun_induction awaitMessage react session with
  | case1 session stop after hreceive =>
      have hclosed := closed_receive session
      rwa [hreceive] at hclosed
  | case2 session message after hreceive last hreact =>
      have hclosed := closed_receive session
      rw [hreceive] at hclosed
      exact ((hfinish _ _ hreact).closed after).trans hclosed
  | case3 session message after hreceive reply hreact stop failed hsend =>
      have hclosed := closed_receive session
      have hsent := closed_send reply after
      rw [hreceive] at hclosed
      rw [hsend] at hsent
      exact hsent.trans hclosed
  | case4 session message middle hreceive reply hreact next hsend ih =>
      have hclosed := closed_receive session
      have hsent := closed_send reply middle
      rw [hreceive] at hclosed
      rw [hsend] at hsent
      exact ih.trans (hsent.trans hclosed)

/-- A loop at a stream that is open and at the end of it. -/
theorem shut_await (hfinish : ∀ message last, react message = .finish last → Ends last)
    {session : HsmsSession} (hfaultless : session.Faultless)
    (hopen : session.stream.closed = false) :
    ((awaitMessage react session).1 ≠ .error .blocked →
      awaitMessage react session.shut =
        ((awaitMessage react session).1, (awaitMessage react session).2.shut)) ∧
    ((awaitMessage react session).1 = .error .blocked →
      (awaitMessage react session).2.stream.sent <+:
        (awaitMessage react session.shut).2.stream.sent) := by
  -- by induction along the loop; on the stream that is shut each message is read as before
  fun_induction awaitMessage react session with
  | case1 session stop after hreceive =>
      rw [awaitMessage_eq]
      rcases receive_cases hfaultless hopen with
        ⟨other, error, hread, hshut⟩ | ⟨result, other, hne, hread, hshut⟩
      -- only here do the two differ: the one waits and the other meets the end
      · cases hreceive.symm.trans hread
        rw [hshut]
        exact ⟨fun h => (h rfl).elim, fun _ => List.prefix_rfl⟩
      · cases hreceive.symm.trans hread
        rw [hshut]
        exact ⟨fun _ => rfl, fun _ => List.prefix_rfl⟩
  | case2 session message after hreceive last hreact =>
      have hafter := faultless_of_receive hfaultless hreceive
      have hclosed := closed_receive session
      rw [hreceive] at hclosed
      rcases receive_cases hfaultless hopen with
        ⟨other, error, hread, -⟩ | ⟨result, other, -, hread, hshut⟩
      · cases hreceive.symm.trans hread
      cases hreceive.symm.trans hread
      rw [awaitMessage_of_finish hshut hreact]
      have hends := (hfinish _ _ hreact).endsAt after hafter
      exact ⟨hends.same (hclosed.trans hopen), hends.waiting (hclosed.trans hopen)⟩
  | case3 session message after hreceive reply hreact stop failed hsend =>
      rcases receive_cases hfaultless hopen with
        ⟨other, error, hread, -⟩ | ⟨result, other, -, hread, hshut⟩
      · cases hreceive.symm.trans hread
      cases hreceive.symm.trans hread
      have hcall : awaitMessage react session.shut = (.error stop, failed.shut) := by
        rw [awaitMessage_eq, hshut]
        simp only [hreact, send_shut, hsend]
      rw [hcall]
      exact ⟨fun _ => rfl, fun _ => List.prefix_rfl⟩
  | case4 session message middle hreceive reply hreact next hsend ih =>
      have hmiddle := faultless_of_receive hfaultless hreceive
      have hclosed := closed_receive session
      have hsent := closed_send reply middle
      rw [hreceive] at hclosed
      rw [hsend] at hsent
      rcases receive_cases hfaultless hopen with
        ⟨other, error, hread, -⟩ | ⟨result, other, -, hread, hshut⟩
      · cases hreceive.symm.trans hread
      cases hreceive.symm.trans hread
      have hcall : awaitMessage react session.shut = awaitMessage react next.shut := by
        rw [awaitMessage_eq, hshut]
        simp only [hreact, send_shut, hsend]
      rw [hcall]
      exact ih (faultless_of_send hmiddle hsend) (hsent.trans (hclosed.trans hopen))

/-- On a closed stream a wait comes to its end: there are only so many bytes. -/
theorem await_ne_blocked (hfinish : ∀ message last, react message = .finish last → Ends last)
    {session : HsmsSession} (hfaultless : session.Faultless)
    (hclosed : session.stream.closed = true) :
    (awaitMessage react session).1 ≠ .error .blocked := by
  fun_induction awaitMessage react session with
  | case1 session stop after hreceive =>
      have hne := receive_ne_blocked hfaultless hclosed
      rw [hreceive] at hne
      exact fun h => hne (congrArg Except.error (Except.error.inj h))
  | case2 session message after hreceive last hreact =>
      have hafter := closed_receive session
      rw [hreceive] at hafter
      exact ((hfinish _ _ hreact).endsAt after (faultless_of_receive hfaultless hreceive)).never
        (hafter.trans hclosed)
  | case3 session message after hreceive reply hreact stop failed hsend =>
      have hne := send_ne_blocked reply after
      rw [hsend] at hne
      exact fun h => hne (congrArg Except.error (Except.error.inj h))
  | case4 session message middle hreceive reply hreact next hsend ih =>
      have hmiddle := closed_receive session
      have hsent := closed_send reply middle
      rw [hreceive] at hmiddle
      rw [hsend] at hsent
      exact ih (faultless_of_send (faultless_of_receive hfaultless hreceive) hsend)
        (hsent.trans (hmiddle.trans hclosed))

/-- A waiting loop comes to an end with its stream if the ways it ends do. -/
theorem ends_await (hfinish : ∀ message last, react message = .finish last → Ends last) :
    Ends (await react) where
  toCausal := causal_await fun message last hreact => (hfinish message last hreact).toCausal
  closed := closed_await hfinish
  endsAt _ hfaultless := ⟨fun hopen => (shut_await hfinish hfaultless hopen).1,
    fun hopen => (shut_await hfinish hfaultless hopen).2, await_ne_blocked hfinish hfaultless⟩

end Loops

/-! ## The calls -/

theorem ends_select : Ends select := by
  refine ends_takeSystemBytes.bind fun _ => (ends_write _).bind fun _ => ?_
  refine ends_await fun message last hreact => ?_
  cases message with
  | selectRsp _ status =>
      cases hreact
      cases status with
      | selected => exact ends_setState _
      | _ => exact ends_fail _
  | linktestReq => cases hreact
  | _ =>
      cases hreact
      exact ends_fail _

theorem ends_acceptSelect : Ends acceptSelect := by
  refine ends_await fun message last hreact => ?_
  cases message with
  | selectReq =>
      cases hreact
      exact (ends_write _).bind fun _ => ends_setState _
  | linktestReq => cases hreact
  | _ =>
      cases hreact
      exact ends_fail _

theorem ends_awaitReply (systemBytes : UInt32) (wantFunction : UInt8) :
    Ends (awaitReply systemBytes wantFunction) := by
  refine ends_await fun message last hreact => ?_
  cases message with
  | data =>
      simp only [replyReaction] at hreact
      split at hreact
      · cases hreact
        exact ends_get (fun _ _ h => by rw [h.sessionId]) fun _ => ends_pure _
      · cases hreact
        exact ends_fail _
  | linktestReq | selectReq => cases hreact
  | separate =>
      cases hreact
      exact (ends_setState _).bind fun _ => ends_fail _
  | _ =>
      cases hreact
      exact ends_fail _

theorem ends_transact (stream function : UInt8) (body : Option SecsItem) :
    Ends (transact stream function body) := by
  refine ends_get (fun _ _ h => by rw [h.state, h.sessionId]) fun session => ?_
  refine ends_check ?_
  refine ends_takeSystemBytes.bind fun systemBytes => (ends_write _).bind fun _ => ?_
  refine ends_check ?_
  refine (ends_awaitReply _ _).bind fun message => ?_
  cases message with
  | data => exact ends_pure _
  | _ => exact ends_throw nofun

theorem ends_serveOne (makeReply : UInt8 → UInt8 → Option SecsItem → Option SecsItem) :
    Ends (serveOne makeReply) := by
  refine ends_get (fun _ _ h => by rw [h.state]) fun session => ?_
  refine ends_check ?_
  refine ends_await fun message last hreact => ?_
  cases message with
  | data sessionId stream function wBit systemBytes body =>
      cases hreact
      dsimp only
      split
      · refine ends_check ?_
        exact (ends_write _).bind fun _ => ends_pure _
      · exact ends_pure _
  | linktestReq | selectReq => cases hreact
  | separate =>
      cases hreact
      exact (ends_setState _).bind fun _ => ends_fail _
  | _ => cases hreact

/-! ## Errors as values and loops -/

theorem ends_attempt {action : SessionM α} (h : Ends action) : Ends (attempt action) := by
  refine ⟨causal_attempt h.toCausal, fun session => h.closed session, fun session hfaultless => ?_⟩
  obtain ⟨hsame, hwaiting, hnever⟩ := h.endsAt session hfaultless
  constructor
  · intro hopen hreturned
    have hshut := hsame hopen fun hblocked => hreturned (caught_eq_blocked.mpr hblocked)
    simp only [attempt, SessionM.call_mk, hshut]
  · intro hopen hblocked
    exact hwaiting hopen (caught_eq_blocked.mp hblocked)
  · intro hshut hblocked
    exact hnever hshut (caught_eq_blocked.mp hblocked)

section Rounds

variable {σ : Type} {round : σ → SessionM (σ ⊕ α)}
  {hreads : ∀ state, Reads (round state) (·.isLeft)}

/-- Rounds that come to an end with their stream make up a loop that does. -/
theorem ends_loop (hround : ∀ state, Ends (round state)) (state : σ) :
    Ends (loop round hreads state) := by
  have hcausal : ∀ state, Causal (loop round hreads state) :=
    causal_loop fun state => (hround state).toCausal
  refine ⟨hcausal state, fun session => ?_, fun session hfaultless => ?_⟩
  · simp only [loop, SessionM.call_mk]
    fun_induction loopCall round hreads state session with
    | case1 state session stop last hcall =>
        have hclosed := (hround state).closed session
        rwa [hcall] at hclosed
    | case2 state session value last hcall =>
        have hclosed := (hround state).closed session
        rwa [hcall] at hclosed
    | case3 state session next middle hcall ih =>
        have hclosed := (hround state).closed session
        rw [hcall] at hclosed
        exact ih.trans hclosed
  · induction hsize : session.stream.inbound.size using Nat.strong_induction_on
      generalizing state session with
    | _ size ih =>
        rw [loop_eq]
        refine .bind hfaultless (hround state) ?_ fun next middle hcall hmiddle => ?_
        · rintro (next | value)
          · exact hcausal next
          · exact causal_pure value
        · cases next with
          | inl next =>
              exact ih _ (hsize ▸ hreads state _ _ _ hcall rfl) next middle hmiddle rfl
          | inr value => exact (ends_pure value).endsAt middle hmiddle

end Rounds

end HsmsSession

end Secs

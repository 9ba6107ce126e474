import TptAte.Secs.Operations

/-! # Data only while selected

A run is a sequence of calls at one session. In the history of a run, data is
written only behind a completed Select with no Separate behind it, as long as no
Select is made over an existing one: the loops of `select` and `acceptSelect` end
at a Separate without leaving the selected state.
-/

namespace Secs

open Wire

namespace HsmsSession

/-! ## Histories -/

/-- A message of the peer that ends the selected state. -/
def ReadsSeparate (event : Event) : Prop := ∃ systemBytes, event = .read (.separate systemBytes)

def WritesData (event : Event) : Prop :=
  ∃ sessionId stream function wBit systemBytes body,
    event = .wrote (.data sessionId stream function wBit systemBytes body)

/-- The event with which a call completes a Select exchange. -/
def Completes : Operation → Event → Prop
  | .select, .read (.selectRsp _ .selected) => True
  | .acceptSelect, .wrote (.selectRsp _ .selected) => True
  | _, _ => False

/-- A history of calls, each event with the call that made it. -/
abbrev History := List (Operation × Event)

def Covered (history : History) : Prop :=
  ∃ before operation event after, history = before ++ (operation, event) :: after ∧
    Completes operation event ∧ ∀ entry ∈ after, ¬ ReadsSeparate entry.2

/-- Data is written only behind a completed Select. -/
def DataCovered (history : History) : Prop :=
  ∀ before operation event after, history = before ++ (operation, event) :: after →
    WritesData event → Covered before

/-- Runs of calls that are allowed where they are made, with their histories. -/
inductive Run (allowed : Operation → HsmsSession → Prop) :
    HsmsSession → History → HsmsSession → Prop
  | nil (session : HsmsSession) : Run allowed session [] session
  | call {session middle : HsmsSession} {history : History} {operation : Operation}
      {events : List Event} (hrun : Run allowed session history middle)
      (hallowed : allowed operation middle)
      (hgrown : Grown events middle (operation.call middle).2) :
      Run allowed session (history ++ events.map (operation, ·)) (operation.call middle).2

/-- A Select over an existing one meets a Separate: behind some Linktest.req that
the session can answer, the first message is a Separate. -/
def Overlooks (operation : Operation) (session : HsmsSession) : Prop :=
  session.state = .selected ∧ ∃ requests systemBytes rest,
    session.frames = requests ++ .separate systemBytes :: rest ∧
    (∀ request ∈ requests, ∃ sb, request = .linktestReq sb) ∧
    match operation with
    | .select => session.WritesSucceed (requests.length + 1)
    | .acceptSelect => session.WritesSucceed requests.length
    | _ => False

/-! ## What one call adds -/

/-- A call writes data only while selected and before it reads a Separate; behind
it the session is selected if the call completed a Select exchange last, or if it
was selected and read no Separate. -/
structure Careful (operation : Operation) (session : HsmsSession) (events : List Event)
    (final : HsmsSession) : Prop where
  data : ∀ before event after, events = before ++ event :: after → WritesData event →
    session.state = .selected ∧ ∀ other ∈ before, ¬ ReadsSeparate other
  selected : final.state = .selected →
    (∃ before event, events = before ++ [event] ∧ Completes operation event) ∨
      (session.state = .selected ∧ ∀ event ∈ events, ¬ ReadsSeparate event)

/-- An event that neither writes data nor reads a Separate. -/
def Idle (event : Event) : Prop := ¬ WritesData event ∧ ¬ ReadsSeparate event

theorem not_writesData_read (message : HsmsMessage) : ¬ WritesData (.read message) := by
  rintro ⟨_, _, _, _, _, _, hevent⟩
  cases hevent

theorem not_readsSeparate_wrote (message : HsmsMessage) : ¬ ReadsSeparate (.wrote message) := by
  rintro ⟨_, hevent⟩
  cases hevent

/-- A call without data messages and separations is careful as long as it selects nothing. -/
theorem Careful.of_idle {operation : Operation} {session final : HsmsSession}
    {events : List Event} (hidle : ∀ event ∈ events, Idle event)
    (hstate : final.state = .selected → session.state = .selected) :
    Careful operation session events final := by
  constructor
  · rintro before event after rfl hdata
    exact absurd hdata (hidle event (by simp)).1
  · intro hselected
    exact .inr ⟨hstate hselected, fun event hevent => (hidle event hevent).2⟩

theorem idle_read {message : HsmsMessage} (h : ∀ systemBytes, message ≠ .separate systemBytes) :
    Idle (.read message) := by
  refine ⟨not_writesData_read message, ?_⟩
  rintro ⟨systemBytes, hevent⟩
  exact h systemBytes (Event.read.inj hevent)

theorem idle_wrote {message : HsmsMessage} (h : message.IsAnswer) : Idle (.wrote message) := by
  refine ⟨?_, not_readsSeparate_wrote message⟩
  rintro ⟨_, _, _, _, _, _, hevent⟩
  cases hevent
  exact h

/-- Behind idle events any last event may follow a selected state. -/
theorem Careful.of_concat {operation : Operation} {session final : HsmsSession}
    {front : List Event} {last : Event} (hidle : ∀ event ∈ front, Idle event)
    (hdata : WritesData last → session.state = .selected)
    (hselected : final.state = .selected →
      Completes operation last ∨ session.state = .selected ∧ ¬ ReadsSeparate last) :
    Careful operation session (front ++ [last]) final := by
  constructor
  · intro before event after hsplit hevent
    rcases List.eq_nil_or_concat after with rfl | ⟨after, other, rfl⟩
    · obtain ⟨rfl, hlast⟩ := List.append_inj' hsplit rfl
      cases hlast
      exact ⟨hdata hevent, fun other hother => (hidle other hother).2⟩
    · -- an event in front of the last one is idle
      rw [List.concat_eq_append, ← List.cons_append, ← List.append_assoc] at hsplit
      obtain ⟨rfl, -⟩ := List.append_inj' hsplit rfl
      exact absurd hevent (hidle event (by simp)).1
  · intro hfinal
    rcases hselected hfinal with hcompletes | ⟨hstate, hlast⟩
    · exact .inl ⟨front, last, rfl, hcompletes⟩
    · refine .inr ⟨hstate, fun event hevent => ?_⟩
      rcases List.mem_append.mp hevent with hfront | hlast'
      · exact (hidle event hfront).2
      · exact List.mem_singleton.mp hlast' ▸ hlast

variable {α : Type} {react : HsmsMessage → Reaction α}

/-- A loop answers only control messages, and not a Separate. -/
def Mild (react : HsmsMessage → Reaction α) : Prop :=
  ∀ message reply, react message = .answer reply →
    reply.IsAnswer ∧ ∀ systemBytes, message ≠ .separate systemBytes

/-- Reading and answering mild messages is idle. -/
theorem idle_exchange (hmild : Mild react) (messages : List HsmsMessage) :
    ∀ event ∈ exchange react messages, Idle event := by
  intro event hevent
  obtain ⟨message, -, hevent⟩ := List.mem_flatMap.mp hevent
  cases hreact : react message with
  | finish last => simp [hreact] at hevent
  | answer reply =>
      obtain ⟨hanswer, hmessage⟩ := hmild message reply hreact
      simp only [hreact, List.mem_cons, List.not_mem_nil, or_false] at hevent
      rcases hevent with rfl | rfl
      · exact idle_read hmessage
      · exact idle_wrote hanswer

theorem mild_select : Mild selectReaction := by
  intro message reply hreact
  cases message with
  | linktestReq =>
      cases hreact
      exact ⟨trivial, by simp⟩
  | _ => cases hreact

theorem mild_accept : Mild acceptReaction := by
  intro message reply hreact
  cases message with
  | linktestReq =>
      cases hreact
      exact ⟨trivial, by simp⟩
  | _ => cases hreact

theorem mild_reply (systemBytes : UInt32) (wantFunction : UInt8) :
    Mild (replyReaction systemBytes wantFunction) := by
  intro message reply hreact
  obtain ⟨sb, rfl | rfl⟩ := isRequest_of_replyReaction hreact
  · cases hreact
    exact ⟨trivial, by simp⟩
  · cases hreact
    exact ⟨trivial, by simp⟩

theorem mild_serve (makeReply : UInt8 → UInt8 → Option SecsItem → Option SecsItem) :
    Mild (serveReaction makeReply) := by
  intro message reply hreact
  cases message with
  | data | separate => cases hreact
  | _ =>
      cases hreact
      exact ⟨trivial, by simp⟩

/-- How a loop that was entered in a session's state ends: the message that ends it
and what is done about it are a last event behind idle ones. -/
structure Parting (operation : Operation) (session : HsmsSession) (message : HsmsMessage)
    (after final : HsmsSession) (front : List Event) (last : Event) : Prop where
  grown : ∃ events, Grown events after final ∧ .read message :: events = front ++ [last]
  idle : ∀ event ∈ front, Idle event
  data : WritesData last → session.state = .selected
  selected : final.state = .selected →
    Completes operation last ∨ session.state = .selected ∧ ¬ ReadsSeparate last

/-- A loop that writes nothing in the end parts with the message that ends it. -/
theorem parting_read {operation : Operation} {session after final : HsmsSession}
    {message : HsmsMessage} (hstream : final.stream = after.stream)
    (hselected : final.state = .selected → Completes operation (.read message) ∨
      session.state = .selected ∧ ¬ ReadsSeparate (.read message)) :
    Parting operation session message after final [] (.read message) :=
  ⟨⟨[], .of_stream hstream, rfl⟩, by simp, (absurd · (not_writesData_read message)), hselected⟩

/-- A loop behind idle events is careful if it parts that way. -/
theorem careful_await {operation : Operation} {session start : HsmsSession} {before : List Event}
    (hbefore : ∀ event ∈ before, Idle event) (hstart : Grown before session start)
    (hstate : start.state = session.state) (hmild : Mild react)
    (hparting : ∀ messages middle message after last, Answers react start messages middle →
      middle.receive = (.ok message, after) → react message = .finish last →
      ∃ front event, Parting operation session message after (last.call after).2 front event) :
    ∃ events, Grown events session (awaitMessage react start).2 ∧
      Careful operation session events (awaitMessage react start).2 := by
  obtain ⟨messages, middle, hanswers, hleaves⟩ := exists_leaves react start
  have hgrown := hstart.trans hanswers.grown
  have hmiddle : middle.state = session.state := hanswers.same.state.trans hstate
  have hidle : ∀ event ∈ before ++ exchange react messages, Idle event :=
    List.forall_mem_append.mpr ⟨hbefore, idle_exchange hmild messages⟩
  generalize awaitMessage react start = ending at hleaves
  cases hleaves with
  | unread hreceive =>
      obtain ⟨hlast, hsame⟩ := unread_receive hreceive
      refine ⟨_, hgrown.trans hlast, .of_idle (by simpa using hidle) fun h => ?_⟩
      rw [← hmiddle, ← hsame.state, h]
  | finished hreceive hreact =>
      obtain ⟨front, last, ⟨events, hlast, hevents⟩, hfront, hdata, hselected⟩ :=
        hparting _ _ _ _ _ hanswers hreceive hreact
      have hall := hgrown.trans ((grown_receive hreceive).trans hlast)
      rw [List.singleton_append, hevents, ← List.append_assoc] at hall
      exact ⟨_, hall, .of_concat (List.forall_mem_append.mpr ⟨hidle, hfront⟩) hdata hselected⟩
  | unanswered hreceive hreact hsend =>
      obtain ⟨hlast, hsame⟩ := unsent_send hsend
      have hread := idle_read (hmild _ _ hreact).2
      refine ⟨_, hgrown.trans ((grown_receive hreceive).trans hlast),
        .of_idle (List.forall_mem_append.mpr ⟨hidle, by simpa using hread⟩) fun h => ?_⟩
      rw [← hmiddle, ← (received_of_receive hreceive).same.state, ← hsame.state, h]

/-! ## The four calls -/

theorem not_readsSeparate_read {message : HsmsMessage}
    (h : ∀ systemBytes, message ≠ .separate systemBytes) : ¬ ReadsSeparate (.read message) :=
  (idle_read h).2

theorem linktest_of_select {message reply : HsmsMessage}
    (hreact : selectReaction message = .answer reply) : ∃ sb, message = .linktestReq sb := by
  cases message with
  | linktestReq sb => exact ⟨sb, rfl⟩
  | _ => cases hreact

theorem linktest_of_accept {message reply : HsmsMessage}
    (hreact : acceptReaction message = .answer reply) : ∃ sb, message = .linktestReq sb := by
  cases message with
  | linktestReq sb => exact ⟨sb, rfl⟩
  | _ => cases hreact

/-- Selecting is careful unless it overlooks a separation. -/
theorem careful_select {session : HsmsSession} (hattentive : ¬ Overlooks .select session) :
    ∃ events, Grown events session (select.call session).2 ∧
      Careful .select session events (select.call session).2 := by
  rw [select_call]
  rcases hsend : session.advanced.send (.selectReq session.nextSystemBytes) with ⟨stop | ⟨⟩, sent⟩
  · obtain ⟨hgrown, hsame⟩ := unsent_send hsend
    exact ⟨[], ⟨hgrown.log, hgrown.sent⟩, .of_idle (by simp) fun h => hsame.state.symm.trans h⟩
  have hsent := sent_of_send hsend
  have hgrown : Grown [.wrote (.selectReq session.nextSystemBytes)] session sent :=
    ⟨(grown_send hsend).log, (grown_send hsend).sent⟩
  have hidle : ∀ event ∈ [Event.wrote (.selectReq session.nextSystemBytes)], Idle event := by
    intro event hevent
    rw [List.mem_singleton.mp hevent]
    refine ⟨?_, not_readsSeparate_wrote _⟩
    rintro ⟨_, _, _, _, _, _, hevent⟩
    cases hevent
  apply careful_await hidle hgrown hsent.same.state mild_select
  intro messages middle message after last hanswers hreceive hreact
  have hreceived := received_of_receive hreceive
  have hafter : after.state = session.state :=
    hreceived.same.state.trans (hanswers.same.state.trans hsent.same.state)
  refine ⟨[], .read message, ?_⟩
  cases message with
  | selectRsp systemBytes status =>
      cases hreact
      cases status with
      | selected => exact parting_read rfl fun _ => .inl trivial
      | _ =>
          exact parting_read rfl fun h =>
            .inr ⟨hafter.symm.trans h, not_readsSeparate_read (by simp)⟩
  | linktestReq => cases hreact
  | separate systemBytes =>
      cases hreact
      -- the loop leaves the state as it is: a Select over an existing one
      refine parting_read rfl fun h => (hattentive ⟨hafter.symm.trans h, messages, systemBytes,
        after.frames, ?_, fun request hrequest => ?_, ?_⟩).elim
      · rw [← hreceived.frames, ← hanswers.frames, hsent.frames]
        rfl
      · obtain ⟨reply, hanswer⟩ := hanswers.answered request hrequest
        exact linktest_of_select hanswer
      · refine writesSucceed_succ.mpr ⟨hsent.succeeds, ?_⟩
        have hsucceeds := hanswers.succeeds
        rw [WritesSucceed, hsent.faults] at hsucceeds
        exact hsucceeds
  | _ =>
      cases hreact
      exact parting_read rfl fun h =>
        .inr ⟨hafter.symm.trans h, not_readsSeparate_read (by simp)⟩

/-- Accepting a selection is careful unless it overlooks a separation. -/
theorem careful_acceptSelect {session : HsmsSession}
    (hattentive : ¬ Overlooks .acceptSelect session) :
    ∃ events, Grown events session (acceptSelect.call session).2 ∧
      Careful .acceptSelect session events (acceptSelect.call session).2 := by
  rw [acceptSelect_call]
  apply careful_await (by simp) (.refl session) rfl mild_accept
  intro messages middle message after last hanswers hreceive hreact
  have hreceived := received_of_receive hreceive
  have hafter : after.state = session.state := hreceived.same.state.trans hanswers.same.state
  cases message with
  | selectReq systemBytes =>
      cases hreact
      rw [SessionM.call_bind, write, SessionM.call_mk]
      rcases hsend : after.send (.selectRsp systemBytes .selected) with ⟨stop | ⟨⟩, sent⟩
      · obtain ⟨hgrown, hsame⟩ := unsent_send hsend
        refine ⟨[], .read (.selectReq systemBytes), ⟨_, hgrown, rfl⟩, by simp,
          (absurd · (not_writesData_read _)), fun h => .inr ⟨?_, not_readsSeparate_read (by simp)⟩⟩
        exact hafter.symm.trans (hsame.state.symm.trans h)
      · have hgrown := grown_send hsend
        refine ⟨[.read (.selectReq systemBytes)], .wrote (.selectRsp systemBytes .selected),
          ⟨_, ⟨hgrown.log, hgrown.sent⟩, rfl⟩, by simpa using idle_read (by simp), ?_,
          fun _ => .inl trivial⟩
        have hanswer : Idle (.wrote (.selectRsp systemBytes .selected)) := idle_wrote trivial
        exact (absurd · hanswer.1)
  | linktestReq => cases hreact
  | separate systemBytes =>
      cases hreact
      -- as in `select`, the state stays as it is
      refine ⟨[], _, parting_read rfl fun h => (hattentive ⟨hafter.symm.trans h, messages,
        systemBytes, after.frames, ?_, fun request hrequest => ?_, hanswers.succeeds⟩).elim⟩
      · rw [← hreceived.frames, ← hanswers.frames]
      · obtain ⟨reply, hanswer⟩ := hanswers.answered request hrequest
        exact linktest_of_accept hanswer
  | _ =>
      cases hreact
      exact ⟨[], _, parting_read rfl fun h =>
        .inr ⟨hafter.symm.trans h, not_readsSeparate_read (by simp)⟩⟩

/-- While selected, a call may write a data message first. -/
theorem Careful.wrote {operation : Operation} {session start final : HsmsSession} {first : Event}
    {events : List Event} (hselected : session.state = .selected)
    (hfirst : ¬ ReadsSeparate first) (h : Careful operation start events final) :
    Careful operation session (first :: events) final := by
  constructor
  · intro before event after hsplit hdata
    cases before with
    | nil => exact ⟨hselected, by simp⟩
    | cons head before =>
        obtain ⟨rfl, hrest⟩ := List.cons.inj hsplit
        exact ⟨hselected, List.forall_mem_cons.mpr ⟨hfirst, (h.data _ _ _ hrest hdata).2⟩⟩
  · intro hfinal
    rcases h.selected hfinal with ⟨before, event, rfl, hcompletes⟩ | ⟨-, hnone⟩
    · exact .inl ⟨first :: before, event, rfl, hcompletes⟩
    · exact .inr ⟨hselected, List.forall_mem_cons.mpr ⟨hfirst, hnone⟩⟩

/-- The wait for a reply, as part of a call at a selected session. -/
theorem careful_awaitReply (operation : Operation) {session : HsmsSession}
    (hselected : session.state = .selected) (systemBytes : UInt32) (wantFunction : UInt8) :
    ∃ events,
      Grown events session (awaitMessage (replyReaction systemBytes wantFunction) session).2 ∧
      Careful operation session events
        (awaitMessage (replyReaction systemBytes wantFunction) session).2 := by
  apply careful_await (by simp) (.refl session) rfl (mild_reply _ _)
  intro messages middle message after last hanswers hreceive hreact
  refine ⟨[], .read message, ?_⟩
  cases message with
  | data =>
      simp only [replyReaction] at hreact
      split at hreact <;> cases hreact <;>
        exact parting_read rfl fun _ => .inr ⟨hselected, not_readsSeparate_read (by simp)⟩
  | linktestReq | selectReq => cases hreact
  | separate =>
      cases hreact
      -- the session is deselected before the call ends
      exact parting_read rfl fun h => by cases h
  | _ =>
      cases hreact
      exact parting_read rfl fun _ => .inr ⟨hselected, not_readsSeparate_read (by simp)⟩

/-- A transaction is careful: it writes data only while the session is selected. -/
theorem careful_transact (stream function : UInt8) (body : Option SecsItem)
    (session : HsmsSession) :
    ∃ events, Grown events session ((transact stream function body).call session).2 ∧
      Careful (.transact stream function body) session events
        ((transact stream function body).call session).2 := by
  by_cases hselected : session.state = .selected
  · rw [transact_call hselected]
    rcases hsend : session.advanced.send (session.primary stream function body) with
      ⟨stop | ⟨⟩, sent⟩
    · obtain ⟨hgrown, hsame⟩ := unsent_send hsend
      exact ⟨[], ⟨hgrown.log, hgrown.sent⟩, .of_idle (by simp) fun _ => hselected⟩
    have hgrown : Grown [.wrote (session.primary stream function body)] session sent :=
      ⟨(grown_send hsend).log, (grown_send hsend).sent⟩
    have hsent : sent.state = .selected := (sent_of_send hsend).same.state.trans hselected
    dsimp only
    split
    · exact ⟨_, hgrown, .wrote hselected (not_readsSeparate_wrote _)
        (.of_idle (by simp) fun _ => hsent)⟩
    obtain ⟨events, hawait, hcareful⟩ := careful_awaitReply (.transact stream function body) hsent
      session.nextSystemBytes (function + 1)
    have hall := hgrown.trans hawait
    have hwrote := hcareful.wrote hselected
      (not_readsSeparate_wrote (session.primary stream function body))
    refine ⟨.wrote (session.primary stream function body) :: events, ?_⟩
    generalize awaitMessage _ sent = ending at hall hwrote
    rcases ending with ⟨stop | message, final⟩
    · exact ⟨hall, hwrote⟩
    · cases message <;> exact ⟨hall, hwrote⟩
  · rw [transact_call_of_not hselected]
    exact ⟨[], .refl session, .of_idle (by simp) id⟩

/-- Serving is careful: it writes data only while the session is selected. -/
theorem careful_serveOne (makeReply : UInt8 → UInt8 → Option SecsItem → Option SecsItem)
    (session : HsmsSession) :
    ∃ events, Grown events session ((serveOne makeReply).call session).2 ∧
      Careful (.serveOne makeReply) session events ((serveOne makeReply).call session).2 := by
  by_cases hselected : session.state = .selected
  · rw [serveOne_call hselected]
    apply careful_await (by simp) (.refl session) rfl (mild_serve makeReply)
    intro messages middle message after last hanswers hreceive hreact
    cases message with
    | data sessionId stream function wBit systemBytes body =>
        have hread {final : HsmsSession} (hstream : final.stream = after.stream) :=
          @parting_read (.serveOne makeReply) session after final
            (.data sessionId stream function wBit systemBytes body) hstream
            fun _ => .inr ⟨hselected, not_readsSeparate_read (by simp)⟩
        cases hreply : (if wBit then makeReply stream function body else none) with
        -- nothing is written for a message without a reply
        | none =>
            obtain ⟨last', hlast, hcall⟩ := serveReaction_unreplied hreply
            cases hreact.symm.trans hlast
            rw [hcall]
            exact ⟨[], _, hread rfl⟩
        | some replyBody =>
            obtain ⟨last', hlast, hcall⟩ := serveReaction_replied hreply
            cases hreact.symm.trans hlast
            rw [hcall]
            split
            -- the function of the reply overflows, and nothing is written either
            · exact ⟨[], _, hread rfl⟩
            · rcases hsend : after.send (.data sessionId stream (function + 1) false systemBytes
                (some replyBody)) with ⟨stop | ⟨⟩, sent⟩
              · refine ⟨[], _, ⟨[], (unsent_send hsend).1, rfl⟩, by simp, fun _ => hselected,
                  fun _ => .inr ⟨hselected, not_readsSeparate_read (by simp)⟩⟩
              · exact ⟨[.read (.data sessionId stream function wBit systemBytes body)], _,
                  ⟨_, grown_send hsend, rfl⟩, by simpa using idle_read (by simp),
                  fun _ => hselected, fun _ => .inr ⟨hselected, not_readsSeparate_wrote _⟩⟩
    | linktestReq | selectReq => cases hreact
    | separate =>
        cases hreact
        exact ⟨[], _, parting_read rfl fun h => by cases h⟩
    | _ => cases hreact
  · rw [serveOne_call_of_not hselected]
    exact ⟨[], .refl session, .of_idle (by simp) id⟩

/-- What a call adds to the history, unless it makes a Select over an existing one
and meets a Separate. -/
theorem careful_call {operation : Operation} {session : HsmsSession}
    (hattentive : ¬ Overlooks operation session) :
    ∃ events, Grown events session (operation.call session).2 ∧
      Careful operation session events (operation.call session).2 := by
  cases operation with
  | select => exact careful_select hattentive
  | acceptSelect => exact careful_acceptSelect hattentive
  | transact stream function body => exact careful_transact stream function body session
  | serveOne makeReply => exact careful_serveOne makeReply session

/-! ## Runs -/

theorem Covered.append {history : History} (h : Covered history) (operation : Operation)
    {events : List Event} (hnone : ∀ event ∈ events, ¬ ReadsSeparate event) :
    Covered (history ++ events.map (operation, ·)) := by
  obtain ⟨before, completing, event, after, rfl, hcompletes, hafter⟩ := h
  refine ⟨before, completing, event, after ++ events.map (operation, ·), by simp, hcompletes, ?_⟩
  apply List.forall_mem_append.mpr ⟨hafter, ?_⟩
  intro entry hentry
  obtain ⟨event', hevent, rfl⟩ := List.mem_map.mp hentry
  exact hnone event' hevent

/-- What holds behind every call of an attentive run: data is covered, and while
the session is selected so is what it writes next. -/
structure Kept (history : History) (session : HsmsSession) : Prop where
  data : DataCovered history
  selected : session.state = .selected → Covered history

/-- A careful call keeps the history covered. -/
theorem Kept.call {history : History} {session final : HsmsSession} {operation : Operation}
    {events : List Event} (h : Kept history session)
    (hcareful : Careful operation session events final) :
    Kept (history ++ events.map (operation, ·)) final := by
  constructor
  · intro before operation' event after hsplit hdata
    rcases List.append_eq_append_iff.mp hsplit with ⟨front, rfl, hevents⟩ | ⟨rest, hhistory, hrest⟩
    · -- the data is written by this call
      obtain ⟨front, back, rfl, rfl, hback⟩ := List.map_eq_append_iff.mp hevents
      cases back with
      | nil => cases hback
      | cons first back =>
          rw [List.map_cons, List.cons.injEq] at hback
          cases hback.1
          obtain ⟨hstate, hnone⟩ := hcareful.data front event back rfl hdata
          exact (h.selected hstate).append operation hnone
    -- the data is written by an earlier call
    · cases rest with
      | nil =>
          rw [List.append_nil] at hhistory
          subst hhistory
          cases events with
          | nil => cases hrest
          | cons first events =>
              rw [List.nil_append, List.map_cons, List.cons.injEq] at hrest
              cases hrest.1
              exact h.selected (hcareful.data [] event events rfl hdata).1
      | cons first rest =>
          rw [List.cons_append, List.cons.injEq] at hrest
          cases hrest.1
          exact h.data before operation' event rest hhistory hdata
  · intro hfinal
    rcases hcareful.selected hfinal with ⟨before, event, rfl, hcompletes⟩ | ⟨hstate, hnone⟩
    · exact ⟨history ++ before.map (operation, ·), operation, event, [], by simp, hcompletes,
        by simp⟩
    · exact (h.selected hstate).append operation hnone

/-! ## Calls that are refused -/

theorem readMessage_ne_notSelected (closed : Bool) (inbound : Source) (state : HsmsState) :
    (readMessage closed inbound).1 ≠ .error (.error (.notSelected state)) := by
  have hcounted (wanted : Nat) (source source' : Source) (stop : Stop)
      (hread : readExactCounted closed wanted source = (.error stop, source')) :
      stop ≠ .error (.notSelected state) := by
    rw [readExactCounted] at hread
    by_cases hcalm : source.Calm wanted
    · rw [Source.readExact_nil_of_calm hcalm] at hread
      split at hread
      · cases hread
        cases closed <;> simp
      · cases hread
    · obtain ⟨kind, after, -, hfault⟩ :=
        @Source.readExact_of_not_calm _ _ _ wanted [] source hcalm
      rw [hfault] at hread
      cases hread
      simp
  rw [readMessage]
  split
  next stop after hlength => simpa using hcounted _ _ _ _ hlength
  split
  next stop after hpayload => simpa using hcounted _ _ _ _ hpayload
  split
  next error herror =>
    intro hsame
    cases hsame
    exact decodes_fromBytes _ _ herror
  · simp

theorem receive_ne_notSelected {session after : HsmsSession} {stop : Stop}
    (hreceive : session.receive = (.error stop, after)) (state : HsmsState) :
    stop ≠ .error (.notSelected state) := by
  have hread := readMessage_ne_notSelected session.stream.closed session.stream.inbound state
  unfold receive at hreceive
  dsimp only at hreceive
  split at hreceive
  next stop' after' heq =>
    cases hreceive
    simpa [heq] using hread
  · cases hreceive

/-- A loop reports that the session is not selected only if the way it ends does. -/
theorem awaitMessage_ne_notSelected {state : HsmsState}
    (hfinish : ∀ message last, react message = .finish last → ∀ session : HsmsSession,
      (last.call session).1 ≠ .error (.error (.notSelected state)))
    (session : HsmsSession) :
    (awaitMessage react session).1 ≠ .error (.error (.notSelected state)) := by
  obtain ⟨messages, middle, -, hleaves⟩ := exists_leaves react session
  generalize awaitMessage react session = ending at hleaves
  cases hleaves with
  | unread hreceive => simpa using receive_ne_notSelected hreceive state
  | finished hreceive hreact => exact hfinish _ _ hreact _
  | unanswered hreceive hreact hsend => simpa using (isFailure_of_send hsend).ne_notSelected state

/-- A transaction that is refused does nothing at all. -/
theorem refused_transact {session : HsmsSession} {stream function : UInt8}
    {body : Option SecsItem} {state : HsmsState}
    (hrefused : ((transact stream function body).call session).1 =
      .error (.error (.notSelected state))) :
    ((transact stream function body).call session).2 = session := by
  by_cases hselected : session.state = .selected
  · rw [transact_call hselected] at hrefused
    rcases hsend : session.advanced.send (session.primary stream function body) with
      ⟨stop | ⟨⟩, sent⟩
    · rw [hsend] at hrefused
      cases hrefused
      exact ((isFailure_of_send hsend).ne_notSelected state rfl).elim
    rw [hsend] at hrefused
    dsimp only at hrefused
    split at hrefused
    · cases hrefused
    have hawait := @awaitMessage_ne_notSelected _
      (replyReaction session.nextSystemBytes (function + 1)) state
      (fun message last hreact final hstop =>
        (isFailure_of_replyReaction hreact hstop).ne_notSelected state rfl) sent
    generalize awaitMessage _ sent = ending at hrefused hawait
    rcases ending with ⟨stop | message, final⟩
    · cases hrefused
      exact (hawait rfl).elim
    · cases message <;> cases hrefused
  · rw [transact_call_of_not hselected]

/-- A refused wait for a primary does nothing at all. -/
theorem refused_serveOne {session : HsmsSession}
    {makeReply : UInt8 → UInt8 → Option SecsItem → Option SecsItem} {state : HsmsState}
    (hrefused : ((serveOne makeReply).call session).1 = .error (.error (.notSelected state))) :
    ((serveOne makeReply).call session).2 = session := by
  by_cases hselected : session.state = .selected
  · rw [serveOne_call hselected] at hrefused
    have hfinish : ∀ message last, serveReaction makeReply message = .finish last →
        ∀ final : HsmsSession, (last.call final).1 ≠ .error (.error (.notSelected state)) :=
      fun message last hreact final hstop =>
        (isFailure_of_serveReaction hreact hstop).ne_notSelected state rfl
    exact (awaitMessage_ne_notSelected hfinish session hrefused).elim
  · rw [serveOne_call_of_not hselected]

/-- A call that is refused has changed nothing. -/
theorem refused_call {operation : Operation} (hcarries : operation.CarriesData)
    {session : HsmsSession} {state : HsmsState}
    (hrefused : (operation.call session).1 = .error (.error (.notSelected state))) :
    (operation.call session).2 = session := by
  cases operation with
  | select | acceptSelect => exact hcarries.elim
  | transact stream function body =>
      apply @refused_transact session stream function body state
      simp only [Operation.call] at hrefused
      cases hresult : ((transact stream function body).call session).1 <;>
        simp_all [Except.map]
  | serveOne makeReply =>
      apply @refused_serveOne session makeReply state
      simp only [Operation.call] at hrefused
      cases hresult : ((serveOne makeReply).call session).1 <;> simp_all [Except.map]

/-! ## Data in runs -/

/-- A call does not make a Select over an existing one and meet a Separate. -/
def Attentive (operation : Operation) (session : HsmsSession) : Prop :=
  ¬ Overlooks operation session

theorem Grown.events_eq {events events' : List Event} {session final : HsmsSession}
    (h : Grown events session final) (h' : Grown events' session final) : events = events' :=
  List.append_cancel_left (h.log.symm.trans h'.log)

/-- Along every attentive run the history stays covered. -/
theorem kept_of_run {stream : Connection} {sessionId : UInt16} {history : History}
    {final : HsmsSession} (hrun : Run Attentive (.new stream sessionId) history final) :
    Kept history final := by
  induction hrun with
  | nil => exact ⟨fun before _ _ after hsplit => by simp at hsplit, fun hstate => by cases hstate⟩
  | call hrun hattentive hgrown ih =>
      obtain ⟨events, hevents, hcareful⟩ := careful_call hattentive
      cases hgrown.events_eq hevents
      exact ih.call hcareful

/-- In runs in which no Select is made over an existing one and meets a Separate,
data is written only behind a completed Select with no Separate behind it. A call
that is refused for want of a Select leaves the session as it was. -/
theorem dataCovered_of_attentive (stream : Connection) (sessionId : UInt16) :
    (∀ history final,
      Run Attentive (.new stream sessionId) history final → DataCovered history) ∧
    ∀ (operation : Operation) (session : HsmsSession) (state : HsmsState),
      operation.CarriesData →
      (operation.call session).1 = .error (.error (.notSelected state)) →
      (operation.call session).2 = session :=
  ⟨fun _ _ hrun => (kept_of_run hrun).data,
    fun _ _ _ hcarries hrefused => refused_call hcarries hrefused⟩

/-- A stream that writes well and will deliver these messages. -/
structure Delivers (session : HsmsSession) (messages : List HsmsMessage) : Prop where
  frames : session.frames = messages
  faults : session.stream.faults = []

theorem Delivers.send {session : HsmsSession} {messages : List HsmsMessage}
    (h : Delivers session messages) {message : HsmsMessage} (hbytes : message.toBytes.isSome) :
    ∃ sent, session.send message = (.ok (), sent) ∧ Delivers sent messages ∧
      sent.state = session.state ∧ Grown [.wrote message] session sent := by
  obtain ⟨sent, hsend⟩ := @send_of_succeeds session message (by simp [WritesSucceed, h.faults])
    hbytes
  have hsent := sent_of_send hsend
  exact ⟨sent, hsend, ⟨hsent.frames.trans h.frames, by simp [hsent.faults, h.faults]⟩,
    hsent.same.state, grown_send hsend⟩

/-- `select` ends with the next message, if that is not a Linktest.req. -/
theorem Delivers.select {session : HsmsSession} {message : HsmsMessage}
    {messages : List HsmsMessage} (h : Delivers session (message :: messages))
    {last : SessionM Unit} (hreact : selectReaction message = .finish last) :
    ∃ after, Delivers after messages ∧ after.state = session.state ∧
      Grown [.wrote (.selectReq session.nextSystemBytes), .read message] session after ∧
      (Operation.select.call session).2 = (last.call after).2 := by
  obtain ⟨sent, hsend, hdelivers, hstate, hgrown⟩ := @Delivers.send session.advanced _
    ⟨h.frames, h.faults⟩ (.selectReq session.nextSystemBytes) rfl
  obtain ⟨after, hreceive⟩ := receive_of_frames hdelivers.frames
  have hreceived := received_of_receive hreceive
  refine ⟨after, ⟨?_, hreceived.faults.trans hdelivers.faults⟩,
    hreceived.same.state.trans hstate, ?_, ?_⟩
  · have hframes := hreceived.frames.symm.trans hdelivers.frames
    exact (List.cons.inj hframes).2
  · have hall := hgrown.trans (grown_receive hreceive)
    exact ⟨hall.log, hall.sent⟩
  · change (HsmsSession.select.call session).2 = _
    rw [select_call, hsend, ← awaitMessage_of_finish hreceive hreact]

/-- A transaction writes its primary. -/
theorem Delivers.transact {session : HsmsSession} {messages : List HsmsMessage}
    (h : Delivers session messages) (hselected : session.state = .selected)
    (stream function : UInt8) :
    ∃ events, Grown (.wrote (session.primary stream function none) :: events) session
      ((Operation.transact stream function none).call session).2 := by
  obtain ⟨sent, hsend, -, hstate, hgrown⟩ := @Delivers.send session.advanced _
    ⟨h.frames, h.faults⟩ (session.primary stream function none) rfl
  change ∃ events, Grown _ session ((HsmsSession.transact stream function none).call session).2
  rw [transact_call hselected, hsend]
  dsimp only
  split
  · exact ⟨[], hgrown.log, hgrown.sent⟩
  · obtain ⟨events, hawait, -⟩ := careful_awaitReply (.transact stream function none)
      (hstate.trans hselected) session.nextSystemBytes (function + 1)
    have hall := hgrown.trans hawait
    refine ⟨events, ?_⟩
    generalize awaitMessage _ sent = ending at hall
    rcases ending with ⟨stop | message, final⟩
    · exact ⟨hall.log, hall.sent⟩
    · cases message <;> exact ⟨hall.log, hall.sent⟩

/-- A Select.rsp that reports the session selected. -/
def selectAnswer : Bytes := [0, 0, 0, 10, 0, 0, 0, 0, 0, 2, 0, 0, 0, 0]

def separateNotice : Bytes := [0, 0, 0, 10, 0, 0, 0, 0, 0, 9, 0, 0, 0, 7]

/-- The first Select of a session that gets this answer. -/
theorem exists_selected {messages : List HsmsMessage} {session : HsmsSession}
    (h : Delivers session (.selectRsp 0 .selected :: messages)) :
    ∃ events, Grown events session (Operation.select.call session).2 ∧
      Delivers (Operation.select.call session).2 messages ∧
      (Operation.select.call session).2.state = .selected := by
  obtain ⟨after, hdelivers, -, hgrown, hcall⟩ := h.select rfl
  rw [hcall]
  exact ⟨_, ⟨hgrown.log, hgrown.sent⟩, ⟨hdelivers.frames, hdelivers.faults⟩, rfl⟩

/-- A further Select that meets a Separate. -/
theorem exists_overlooked {messages : List HsmsMessage} {session : HsmsSession}
    {systemBytes : UInt32} (h : Delivers session (.separate systemBytes :: messages))
    (hselected : session.state = .selected) :
    Grown [.wrote (.selectReq session.nextSystemBytes), .read (.separate systemBytes)] session
        (Operation.select.call session).2 ∧
      Delivers (Operation.select.call session).2 messages ∧
      (Operation.select.call session).2.state = .selected := by
  obtain ⟨after, hdelivers, hstate, hgrown, hcall⟩ := h.select rfl
  rw [hcall]
  exact ⟨hgrown, hdelivers, hstate.trans hselected⟩

/-- Behind a Separate that is read last there is no completed Select. -/
theorem not_covered_separate (history : History) (operation : Operation) (systemBytes : UInt32) :
    ¬ Covered (history ++ [(operation, .read (.separate systemBytes))]) := by
  rintro ⟨before, completing, event, after, hsplit, hcompletes, hafter⟩
  rcases List.eq_nil_or_concat after with rfl | ⟨front, last, rfl⟩
  · obtain ⟨-, hlast⟩ := List.append_inj' hsplit rfl
    cases hlast
    cases operation <;> exact hcompletes
  · rw [List.concat_eq_append, ← List.cons_append, ← List.append_assoc] at hsplit
    obtain ⟨-, hlast⟩ := List.append_inj' hsplit rfl
    cases hlast
    exact hafter (operation, .read (.separate systemBytes)) (by simp) ⟨systemBytes, rfl⟩

/-- In the run of two Selects, of which the second meets a Separate, and a
transaction, data is written behind that Separate. -/
theorem not_dataCovered_selectTwice :
    ¬ ∀ history final,
      Run (fun _ _ => True) (freshSession (selectAnswer ++ separateNotice)) history final →
        DataCovered history := by
  intro hall
  have hencoded : encodeAll [.selectRsp 0 .selected, .separate 7] =
      some (selectAnswer ++ separateNotice) := by decide +kernel
  have hstart : Delivers (freshSession (selectAnswer ++ separateNotice))
      [.selectRsp 0 .selected, .separate 7] :=
    ⟨framesOf_encodeAll (by simp [HsmsMessage.Canonical]; decide) hencoded false, rfl⟩
  obtain ⟨events, hgrown, hdelivers, hselected⟩ := exists_selected hstart
  obtain ⟨hagain, hdelivers, hselected⟩ := exists_overlooked hdelivers hselected
  obtain ⟨events', htransact⟩ := hdelivers.transact hselected 1 1
  have hfirst : Run (fun _ _ => True) (freshSession (selectAnswer ++ separateNotice)) _ _ :=
    Run.call (.nil _) trivial hgrown
  have hthird := (hfirst.call trivial hagain).call trivial htransact
  have hcovered := hall _ _ hthird _ _ _ _ rfl ⟨_, _, _, _, _, _, rfl⟩
  exact not_covered_separate (events.map (.select, ·) ++ [(.select, .wrote (.selectReq _))])
    .select 7 (by simpa using hcovered)

theorem dataCovered_of_attentive_selectAnswer :
    (∃ history final, (∃ entry ∈ history, WritesData entry.2) ∧
      Run Attentive (freshSession selectAnswer) history final ∧ DataCovered history) ∧
    ((Operation.transact 1 1 none).call (freshSession [])).2 = freshSession [] := by
  have hattentive (session : HsmsSession) (h : session.state ≠ .selected) :
      Attentive .select session := fun hoverlooks => h hoverlooks.1
  have hencoded : encodeAll [.selectRsp 0 .selected] = some selectAnswer := by decide +kernel
  have hstart : Delivers (freshSession selectAnswer) [.selectRsp 0 .selected] :=
    ⟨framesOf_encodeAll (by simp [HsmsMessage.Canonical]; decide) hencoded false, rfl⟩
  obtain ⟨events, hgrown, hdelivers, hselected⟩ := exists_selected hstart
  obtain ⟨events', htransact⟩ := hdelivers.transact hselected 1 1
  have hfirst : Run Attentive (freshSession selectAnswer) _ _ :=
    Run.call (.nil _) (hattentive _ (by simp [freshSession, HsmsSession.new])) hgrown
  have hrun := hfirst.call (fun hoverlooks => by
    obtain ⟨-, _, _, _, -, -, hnever⟩ := hoverlooks
    exact hnever) htransact
  exact ⟨⟨_, _, ⟨_, List.mem_append_right _ List.mem_cons_self, _, _, _, _, _, _, rfl⟩, hrun,
    (dataCovered_of_attentive _ _).1 _ _ hrun⟩,
    (dataCovered_of_attentive (freshSession []).stream 0).2 (.transact 1 1 none) (freshSession [])
      .connectedNotSelected trivial rfl⟩

end HsmsSession

end Secs

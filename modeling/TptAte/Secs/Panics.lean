import TptAte.Secs.Dispatch
import TptAte.Secs.Parties

/-! # Sessions that do not panic

A session panics where a message has no bytes, or where the function of a secondary would
overflow. Nothing that a peer sends makes it do either: the functions that are read have
seven bits, and the calls write bodies of their own.
-/

namespace Secs

open Wire

/-! ## What is read -/

/-- The function of a message that was parsed has lost its highest bit. -/
theorem function_lt_of_parse {header body : Bytes} {sessionId : UInt16} {stream function : UInt8}
    {wBit : Bool} {systemBytes : UInt32} {item : Option SecsItem}
    (hparse : HsmsMessage.parse header body =
      .ok (.data sessionId stream function wBit systemBytes item)) : function < 128 := by
  unfold HsmsMessage.parse at hparse
  dsimp only at hparse
  split at hparse
  · cases hbody : HsmsMessage.parseBody body with
    | error error =>
        rw [hbody] at hparse
        cases hparse
    | ok read =>
        rw [hbody] at hparse
        cases hparse
        rw [UInt8.lt_iff_toNat_lt, UInt8.toNat_and]
        exact Nat.lt_of_le_of_lt Nat.and_le_right (by decide)
  all_goals cases hparse

theorem function_lt_of_fromBytes {data : Bytes} {sessionId : UInt16} {stream function : UInt8}
    {wBit : Bool} {systemBytes : UInt32} {body : Option SecsItem} {used : Nat}
    (hdecode : HsmsMessage.fromBytes data =
      .ok (.data sessionId stream function wBit systemBytes body, used)) : function < 128 := by
  unfold HsmsMessage.fromBytes at hdecode
  dsimp only at hdecode
  split at hdecode
  · cases hdecode
  split at hdecode
  · cases hdecode
  split at hdecode
  · cases hdecode
  split at hdecode
  · cases hdecode
  · generalize hparse : HsmsMessage.parse _ _ = parsed at hdecode
    cases parsed with
    | error error => cases hdecode
    | ok message =>
        cases hdecode
        exact function_lt_of_parse hparse

namespace HsmsSession

variable {α β σ : Type}

/-- The function of a data message that is received has seven bits, so that the next one does not
overflow. -/
theorem function_ne_of_receive {session after : HsmsSession} {sessionId : UInt16}
    {stream function : UInt8} {wBit : Bool} {systemBytes : UInt32} {body : Option SecsItem}
    (hreceive : session.receive =
      (.ok (.data sessionId stream function wBit systemBytes body), after)) : function ≠ 0xFF := by
  unfold receive at hreceive
  dsimp only at hreceive
  split at hreceive
  · cases hreceive
  next message inbound hread =>
    cases hreceive
    unfold readMessage at hread
    split at hread
    · cases hread
    split at hread
    · cases hread
    split at hread
    · cases hread
    next hdecode =>
      cases hread
      rintro rfl
      exact absurd (function_lt_of_fromBytes hdecode) (by decide)

/-- No bytes make the reader of messages panic. -/
theorem readMessage_ne_panicked (closed : Bool) (inbound : Source) :
    (readMessage closed inbound).1 ≠ .error .panicked := by
  have hcounted (wanted : Nat) (source source' : Source) (stop : Stop)
      (hread : readExactCounted closed wanted source = (.error stop, source')) :
      stop ≠ .panicked := by
    rw [readExactCounted] at hread
    by_cases hcalm : source.Calm wanted
    · rw [Source.readExact_nil_of_calm hcalm] at hread
      split at hread
      · cases hread
        cases closed <;> simp
      · cases hread
    · obtain ⟨kind, after, -, hfault⟩ :=
        @Source.readExact_of_not_calm _ _ _ wanted [] source hcalm
      rw [hfault] at hread
      cases hread
      simp
  rw [readMessage]
  split
  next stop after hlength => simpa using hcounted _ _ _ _ hlength
  split
  next stop after hpayload => simpa using hcounted _ _ _ _ hpayload
  split
  · simp
  · simp

theorem ne_panicked_of_eq {result : Except Stop α × HsmsSession} {stop : Stop}
    {after : HsmsSession} (hne : result.1 ≠ .error .panicked) (h : result = (.error stop, after)) :
    stop ≠ .panicked := by
  rintro rfl
  rw [h] at hne
  exact hne rfl

theorem receive_ne_panicked (session : HsmsSession) : session.receive.1 ≠ .error .panicked := by
  have hread := readMessage_ne_panicked session.stream.closed session.stream.inbound
  unfold receive
  dsimp only
  split
  next stop inbound heq =>
    rw [heq] at hread
    exact hread
  · simp

/-- A message that can be encoded is sent without a panic. -/
theorem send_ne_panicked {message : HsmsMessage} (hbytes : message.toBytes.isSome)
    (session : HsmsSession) : (session.send message).1 ≠ .error .panicked := by
  intro hpanicked
  rcases hsend : session.send message with ⟨result, after⟩
  rw [hsend] at hpanicked
  rcases send_cases hsend with ⟨hnone, -⟩ | ⟨kind, faults, -, hresult, -⟩ |
    ⟨bytes, -, -, hresult, -⟩
  · rw [hnone] at hbytes
    cases hbytes
  · cases hresult.symm.trans hpanicked
  · cases hresult.symm.trans hpanicked

/-! ## Actions that do not panic -/

/-- Whatever has arrived at a session and however its stream fails, the action does not
panic there. -/
def NeverPanics (action : SessionM α) : Prop :=
  ∀ session, (action.call session).1 ≠ .error .panicked

theorem neverPanics_pure (value : α) : NeverPanics (pure value) := fun _ => nofun

theorem neverPanics_fail (error : SecsError) : NeverPanics (fail error : SessionM α) :=
  fun _ => nofun

theorem neverPanics_setState (state : HsmsState) : NeverPanics (setState state) := fun _ => nofun

theorem neverPanics_takeSystemBytes : NeverPanics takeSystemBytes := fun _ => nofun

theorem neverPanics_write {message : HsmsMessage} (hbytes : message.toBytes.isSome) :
    NeverPanics (write message) :=
  send_ne_panicked hbytes

/-- A call behind one that does not panic at this session. -/
theorem bind_ne_panicked {first : SessionM α} {next : α → SessionM β} {session : HsmsSession}
    (hfirst : (first.call session).1 ≠ .error .panicked)
    (hnext : ∀ value middle, first.call session = (.ok value, middle) →
      ((next value).call middle).1 ≠ .error .panicked) :
    ((first >>= next).call session).1 ≠ .error .panicked := by
  rw [SessionM.call_bind]
  rcases hcall : first.call session with ⟨stop | value, middle⟩
  · intro hpanics
    exact ne_panicked_of_eq hfirst hcall (Except.error.inj hpanics)
  · exact hnext value middle hcall

/-- Actions that never panic never panic in sequence. -/
theorem NeverPanics.bind {first : SessionM α} {next : α → SessionM β} (hfirst : NeverPanics first)
    (hnext : ∀ value, NeverPanics (next value)) : NeverPanics (first >>= next) :=
  fun session => bind_ne_panicked (hfirst session) fun value middle _ => hnext value middle

theorem NeverPanics.attempt {action : SessionM α} (h : NeverPanics action) :
    NeverPanics (attempt action) := by
  intro session hpanics
  apply h session
  simp only [HsmsSession.attempt, SessionM.call_mk] at hpanics
  rcases hresult : (action.call session).1 with (_ | _ | _) | _ <;> rw [hresult] at hpanics <;>
    first | rfl | cases hpanics

/-! ## Waiting loops -/

/-- A wait does not panic if its answers can be written and the ways it ends do not panic
behind the messages at which it ends. -/
theorem neverPanics_await {react : HsmsMessage → Reaction α}
    (hanswer : ∀ message reply, react message = .answer reply → reply.toBytes.isSome)
    (hfinish : ∀ message last (session after : HsmsSession), react message = .finish last →
      session.receive = (.ok message, after) → (last.call after).1 ≠ .error .panicked) :
    NeverPanics (await react) := by
  intro session
  simp only [await, SessionM.call_mk]
  fun_induction awaitMessage react session with
  | case1 session stop after hreceive =>
      intro hpanics
      exact ne_panicked_of_eq (receive_ne_panicked session) hreceive (Except.error.inj hpanics)
  | case2 session message after hreceive last hreact =>
      exact hfinish message last session after hreact hreceive
  | case3 session message after hreceive reply hreact stop failed hsend =>
      intro hpanics
      have hne := send_ne_panicked (hanswer message reply hreact) after
      exact ne_panicked_of_eq hne hsend (Except.error.inj hpanics)
  | case4 session message middle hreceive reply hreact next hsend ih => exact ih

/-- A loop does not panic if its rounds do not. -/
theorem neverPanics_loop {round : σ → SessionM (σ ⊕ α)}
    {hreads : ∀ state, Reads (round state) (·.isLeft)}
    (hround : ∀ state, NeverPanics (round state)) (state : σ) :
    NeverPanics (loop round hreads state) := by
  intro session
  induction hsize : session.stream.inbound.size using Nat.strong_induction_on
    generalizing state session with
  | _ size ih =>
      rw [loop_eq]
      apply bind_ne_panicked (hround state session)
      intro next middle hcall
      cases next with
      | inl next => exact ih _ (hsize ▸ hreads state _ _ _ hcall rfl) next middle rfl
      | inr value => exact neverPanics_pure value middle

/-! ## The calls -/

theorem neverPanics_select : NeverPanics select := by
  refine neverPanics_takeSystemBytes.bind fun _ => (neverPanics_write (by rfl)).bind fun _ => ?_
  apply neverPanics_await
  · intro message reply hreact
    cases message with
    | linktestReq =>
        cases hreact
        rfl
    | _ => cases hreact
  · intro message last session after hreact _
    cases message with
    | selectRsp _ status =>
        cases hreact
        cases status with
        | selected => exact neverPanics_setState _ after
        | _ => exact neverPanics_fail _ after
    | linktestReq => cases hreact
    | _ =>
        cases hreact
        exact neverPanics_fail _ after

theorem neverPanics_acceptSelect : NeverPanics acceptSelect := by
  apply neverPanics_await
  · intro message reply hreact
    cases message with
    | linktestReq =>
        cases hreact
        rfl
    | _ => cases hreact
  · intro message last session after hreact _
    cases message with
    | selectReq =>
        cases hreact
        exact ((neverPanics_write (by rfl)).bind fun _ => neverPanics_setState _) after
    | linktestReq => cases hreact
    | _ =>
        cases hreact
        exact neverPanics_fail _ after

theorem neverPanics_awaitReply (systemBytes : UInt32) (wantFunction : UInt8) :
    NeverPanics (awaitReply systemBytes wantFunction) := by
  apply neverPanics_await
  · intro message reply hreact
    obtain ⟨reply', hanswer, hbytes⟩ :=
      replyReaction_of_isRequest (isRequest_of_replyReaction hreact)
    cases hreact.symm.trans hanswer
    exact hbytes
  · intro message last session after hreact _ hpanics
    cases message with
    | data =>
        simp only [replyReaction] at hreact
        split at hreact
        · cases hreact
          cases hpanics
        · cases hreact
          cases hpanics
    | linktestReq | selectReq => cases hreact
    | _ =>
        cases hreact
        cases hpanics

/-- A wait for a reply returns data messages only. -/
theorem carries_of_awaitReply {systemBytes : UInt32} {wantFunction : UInt8}
    {session final : HsmsSession} {reply : HsmsMessage}
    (hcall : (awaitReply systemBytes wantFunction).call session = (.ok reply, final)) :
    reply.Carries systemBytes := by
  obtain ⟨messages, middle, message, after, last, -, -, hreact, hlast⟩ :=
    answers_of_awaitMessage hcall
  obtain ⟨sessionId, stream, function, wBit, body, -, rfl, -⟩ := data_of_finish hreact hlast
  exact ⟨_, _, _, _, _, rfl⟩

/-! ## Exactly when a call panics -/

/-- What brings a call to a panic: a body of its own that cannot be encoded, and a primary that it
sends with function 255. A call that serves primaries comes to the first one behind the control
messages that it can answer. -/
def Operation.Panics (session : HsmsSession) : Operation → Prop
  | .select | .acceptSelect => False
  | .transact _ function body =>
      session.state = .selected ∧
        ((∃ item ∈ body, ¬ item.Encodable) ∨ function = 0xFF ∧ session.WritesSucceed 1)
  | .serveOne makeReply =>
      session.state = .selected ∧
        ∃ controls sessionId stream function systemBytes body reply rest,
          session.frames =
            controls ++ .data sessionId stream function true systemBytes body :: rest ∧
          (∀ control ∈ controls, control.IsControl) ∧ session.WritesSucceed controls.length ∧
          makeReply stream function body = some reply ∧ ¬ reply.Encodable

/-- A data message can be encoded exactly if its body can. -/
theorem isSome_toBytes_iff {item : SecsItem} {sessionId : UInt16} {stream function : UInt8}
    {wBit : Bool} {systemBytes : UInt32} :
    (HsmsMessage.data sessionId stream function wBit systemBytes (some item)).toBytes.isSome ↔
      item.Encodable := by
  simp [HsmsMessage.toBytes, HsmsMessage.encode, HsmsMessage.bodyBytes, ← isSome_encode]

theorem toBytes_primary_eq_none {session : HsmsSession} {stream function : UInt8}
    {body : Option SecsItem} :
    (session.primary stream function body).toBytes = none ↔ ∃ item ∈ body, ¬ item.Encodable := by
  cases body with
  | none => exact iff_of_false nofun nofun
  | some item =>
      rw [← Option.not_isSome_iff_eq_none, primary, isSome_toBytes_iff]
      simp

/-- No reply makes a transaction panic. -/
theorem transact_panics_iff {session : HsmsSession} {stream function : UInt8}
    {body : Option SecsItem} :
    ((transact stream function body).call session).1 = .error .panicked ↔
      (Operation.transact stream function body).Panics session := by
  rw [Operation.Panics]
  by_cases hselected : session.state = .selected
  · rw [and_iff_right hselected, ← toBytes_primary_eq_none, transact_call hselected]
    rcases hsend : session.advanced.send (session.primary stream function body) with
      ⟨result, sent⟩
    -- the body cannot be encoded, the write fails, or the request is sent
    rcases send_cases hsend with ⟨hnone, rfl, -⟩ | ⟨kind, faults, hfaults, rfl, -⟩ |
      ⟨bytes, hsome, hsucceeds, rfl, -⟩
    · exact iff_of_true rfl (.inl hnone)
    · apply iff_of_false (by simp)
      rintro (hnone | ⟨-, hsucceeds⟩)
      · rw [send, writeMessage, hnone] at hsend
        cases hsend
      · have hfault := hsucceeds (some kind) (by
          rw [show session.stream.faults = _ from hfaults]
          exact List.mem_cons_self)
        cases hfault
    · rw [hsome]
      -- behind the write only the number of the reply's function can overflow
      by_cases hoverflow : function = 0xFF
      · exact iff_of_true (by simp only [if_pos hoverflow]) (.inr ⟨hoverflow, hsucceeds⟩)
      · apply iff_of_false
        · simp only [if_neg hoverflow]
          have hnever := neverPanics_awaitReply session.nextSystemBytes (function + 1) sent
          rcases hawait : (awaitReply session.nextSystemBytes (function + 1)).call sent with
            ⟨stop | reply, final⟩
          · rw [show awaitMessage _ sent = _ from hawait]
            exact fun h => ne_panicked_of_eq hnever hawait (Except.error.inj h)
          · obtain ⟨_, _, _, _, _, rfl⟩ := carries_of_awaitReply hawait
            rw [show awaitMessage _ sent = _ from hawait]
            simp
        · rintro (hnone | ⟨hfunction, -⟩)
          · cases hnone
          · exact hoverflow hfunction
  · rw [transact_call_of_not hselected]
    exact iff_of_false (by simp) fun h => hselected h.1

theorem map_eq_panicked_iff {result : Except Stop α} {f : α → β} :
    result.map f = .error .panicked ↔ result = .error .panicked := by
  cases result <;> simp [Except.map]

/-- The answers to control messages can all be encoded. -/
theorem isSome_of_serveReaction {makeReply : UInt8 → UInt8 → Option SecsItem → Option SecsItem}
    {message reply : HsmsMessage} (hreact : serveReaction makeReply message = .answer reply) :
    reply.toBytes.isSome := by
  cases message with
  | data | separate => cases hreact
  | _ =>
      cases hreact
      rfl

/-- A call panics at the primary that it serves only for the reply that it computes. -/
theorem unencodable_of_serveReaction
    {makeReply : UInt8 → UInt8 → Option SecsItem → Option SecsItem} {middle after : HsmsSession}
    {message : HsmsMessage} {last : SessionM (UInt8 × UInt8 × Option SecsItem)}
    (hreceive : middle.receive = (.ok message, after))
    (hreact : serveReaction makeReply message = .finish last)
    (hpanics : (last.call after).1 = .error .panicked) :
    ∃ sessionId stream function systemBytes body reply,
      message = .data sessionId stream function true systemBytes body ∧
        makeReply stream function body = some reply ∧ ¬ reply.Encodable := by
  cases message with
  | data sessionId stream function wBit systemBytes body =>
      cases hreply : (if wBit then makeReply stream function body else none) with
      | none =>
          obtain ⟨last', hlast, hcall⟩ := serveReaction_unreplied hreply
          cases hreact.symm.trans hlast
          rw [hcall] at hpanics
          cases hpanics
      | some reply =>
          obtain ⟨last', hlast, hcall⟩ := serveReaction_replied hreply
          cases hreact.symm.trans hlast
          rw [hcall, if_neg (function_ne_of_receive hreceive)] at hpanics
          have hsend := map_eq_panicked_iff.mp hpanics
          cases wBit with
          | false => cases hreply
          | true =>
              refine ⟨_, _, _, _, _, reply, rfl, hreply, fun hencodable => ?_⟩
              exact send_ne_panicked (isSome_toBytes_iff.mpr hencodable) after hsend
  | linktestReq | selectReq => cases hreact
  | separate =>
      cases hreact
      cases hpanics
  | _ => cases hreact

/-- The functions of the primaries that are served have seven bits, and those of their replies do
not overflow. -/
theorem serveOne_panics_iff {makeReply : UInt8 → UInt8 → Option SecsItem → Option SecsItem}
    {session : HsmsSession} :
    ((serveOne makeReply).call session).1 = .error .panicked ↔
      (Operation.serveOne makeReply).Panics session := by
  rw [Operation.Panics]
  by_cases hselected : session.state = .selected
  · rw [serveOne_call hselected, and_iff_right hselected]
    constructor
    · intro hpanics
      obtain ⟨controls, middle, hanswers, hleaves⟩ :=
        exists_leaves (serveReaction makeReply) session
      generalize awaitMessage (serveReaction makeReply) session = ending at hleaves hpanics
      -- reading and the answers to control messages never panic, so that only the reply is left
      cases hleaves with
      | unread hreceive =>
          have hne := receive_ne_panicked middle
          exact (ne_panicked_of_eq hne hreceive (Except.error.inj hpanics)).elim
      | finished hreceive hreact =>
          obtain ⟨sessionId, stream, function, systemBytes, body, reply, rfl, hreply, hencodable⟩ :=
            unencodable_of_serveReaction hreceive hreact hpanics
          have hframes := hanswers.frames
          rw [(received_of_receive hreceive).frames] at hframes
          exact ⟨controls, sessionId, stream, function, systemBytes, body, reply, _, hframes,
            fun control hcontrol => isControl_iff.mpr (hanswers.answered control hcontrol),
            hanswers.succeeds, hreply, hencodable⟩
      | @unanswered message answer after failed stop hreceive hreact hsend =>
          have hne := send_ne_panicked (isSome_of_serveReaction hreact) after
          exact (ne_panicked_of_eq hne hsend (Except.error.inj hpanics)).elim
    · rintro ⟨controls, sessionId, stream, function, systemBytes, body, reply, rest, hframes,
        hcontrols, hsucceeds, hreply, hencodable⟩
      have hanswerable (control : HsmsMessage) (hcontrol : control ∈ controls) :
          ∃ answer, serveReaction makeReply control = .answer answer ∧ answer.toBytes.isSome := by
        obtain ⟨answer, hreact⟩ := isControl_iff.mp (hcontrols control hcontrol)
        exact ⟨answer, hreact, isSome_of_serveReaction hreact⟩
      -- the control messages are answered, and then the reply cannot be encoded
      obtain ⟨before, hanswers, hbefore⟩ := exists_answers hframes hanswerable hsucceeds
      obtain ⟨after, hreceive⟩ := receive_of_frames hbefore
      obtain ⟨last, hlast, hcall⟩ := @serveReaction_replied makeReply sessionId stream function true
        systemBytes body reply hreply
      rw [awaitMessage_of_answers hanswers, awaitMessage_of_finish hreceive hlast, hcall,
        if_neg (function_ne_of_receive hreceive)]
      apply map_eq_panicked_iff.mpr
      rw [← isSome_toBytes_iff, Option.not_isSome_iff_eq_none] at hencodable
      rw [send, writeMessage, hencodable]
  · rw [serveOne_call_of_not hselected]
    exact iff_of_false (by simp) fun h => hselected h.1

/-- Whatever has arrived and however the stream fails, a call panics exactly if it comes to write
a body of its own that cannot be encoded, or has asked with function 255. -/
theorem call_panics_iff (operation : Operation) (session : HsmsSession) :
    (operation.call session).1 = .error .panicked ↔ operation.Panics session := by
  cases operation with
  | select =>
      exact iff_of_false (fun h => neverPanics_select session (map_eq_panicked_iff.mp h)) id
  | acceptSelect =>
      exact iff_of_false (fun h => neverPanics_acceptSelect session (map_eq_panicked_iff.mp h)) id
  | transact stream function body => exact map_eq_panicked_iff.trans transact_panics_iff
  | serveOne makeReply => exact map_eq_panicked_iff.trans serveOne_panics_iff

/-- A transaction whose primary can be encoded does not panic, whatever comes for a reply. -/
theorem neverPanics_transact {stream function : UInt8} {body : Option SecsItem}
    (hrange : function ≠ 0xFF) (hbody : ∀ item ∈ body, item.Encodable) :
    NeverPanics (transact stream function body) := by
  intro session hpanics
  rcases (transact_panics_iff.mp hpanics).2 with ⟨item, hitem, hencodable⟩ | ⟨hoverflow, -⟩
  · exact hencodable (hbody item hitem)
  · exact hrange hoverflow

/-- A call that serves a primary does not panic, whatever the primary is. -/
theorem neverPanics_serveOne {makeReply : UInt8 → UInt8 → Option SecsItem → Option SecsItem}
    (hencodable : ∀ stream function body reply, makeReply stream function body = some reply →
      reply.Encodable) : NeverPanics (serveOne makeReply) := by
  intro session hpanics
  obtain ⟨-, _, _, stream, function, _, body, reply, _, -, -, -, hreply, hnot⟩ :=
    serveOne_panics_iff.mp hpanics
  exact hnot (hencodable stream function body reply hreply)

end HsmsSession

/-! ## Programs -/

namespace Program

variable {α β σ : Type}

/-- A program that does not panic at any session. -/
def NeverPanics (program : Program α) : Prop := HsmsSession.NeverPanics program.action

theorem neverPanics_pure (value : α) : (pure value : Program α).NeverPanics :=
  HsmsSession.neverPanics_pure value

theorem neverPanics_fail (error : SecsError) : (fail error : Program α).NeverPanics :=
  HsmsSession.neverPanics_fail error

theorem neverPanics_ofExcept (result : Except SecsError α) : (ofExcept result).NeverPanics := by
  cases result with
  | error error => exact neverPanics_fail error
  | ok value => exact neverPanics_pure value

theorem neverPanics_select : select.NeverPanics := HsmsSession.neverPanics_select

theorem neverPanics_acceptSelect : acceptSelect.NeverPanics := HsmsSession.neverPanics_acceptSelect

theorem neverPanics_transact {stream function : UInt8} {item : SecsItem}
    (hrange : function ≠ 0xFF) (hencodable : item.Encodable) :
    (transact stream function (some item)).NeverPanics :=
  HsmsSession.neverPanics_transact hrange fun _ hitem => Option.some.inj hitem ▸ hencodable

theorem neverPanics_serveOne {makeReply : UInt8 → UInt8 → Option SecsItem → Option SecsItem}
    (hencodable : ∀ stream function body reply, makeReply stream function body = some reply →
      reply.Encodable) : (serveOne makeReply).NeverPanics :=
  HsmsSession.neverPanics_serveOne hencodable

theorem NeverPanics.bind {program : Program α} {next : α → Program β} (h : program.NeverPanics)
    (hnext : ∀ value, (next value).NeverPanics) : (program >>= next).NeverPanics :=
  HsmsSession.NeverPanics.bind h hnext

theorem NeverPanics.attempt {program : Program α} (h : program.NeverPanics) :
    program.attempt.NeverPanics :=
  HsmsSession.NeverPanics.attempt h

/-- What comes behind a panic does not take place. -/
theorem bind_panics {program : Program α} {control : Control} {arrived : Bytes}
    (hpanics : (program.call control arrived).1 = .error .panicked) (next : α → Program β) :
    ((program >>= next).call control arrived).1 = .error .panicked := by
  rw [Program.call_bind]
  rcases hcall : program.call control arrived with ⟨result, after⟩
  rw [hcall] at hpanics
  cases hpanics
  rfl

/-- Errors are handed to the caller, a panic is not. -/
theorem attempt_panics {program : Program α} {control : Control} {arrived : Bytes}
    (hpanics : (program.call control arrived).1 = .error .panicked) :
    (program.attempt.call control arrived).1 = .error .panicked :=
  congrArg HsmsSession.caught hpanics

/-- A body that cannot be encoded makes the transaction panic, whatever arrives. -/
theorem transact_panics {control : Control} (hselected : control.state = .selected)
    (stream function : UInt8) {item : SecsItem} (hencodable : ¬ item.Encodable) (arrived : Bytes) :
    ((transact stream function (some item)).call control arrived).1 = .error .panicked :=
  HsmsSession.transact_panics_iff.mpr ⟨hselected, .inl ⟨item, rfl, hencodable⟩⟩

/-- A loop never panics if its rounds never do. -/
theorem neverPanics_loop {round : σ → Program (σ ⊕ α)}
    {hreads : ∀ state, HsmsSession.Reads (round state).action (·.isLeft)}
    (hround : ∀ state, (round state).NeverPanics) (state : σ) :
    (loop round hreads state).NeverPanics :=
  HsmsSession.neverPanics_loop hround state

/-- Where a call of the program stops it has failed with an error, or it waits for more of a
stream that, if nothing fails at it, has not come to its end. -/
def StopsInOrder (program : Program α) : Prop :=
  ∀ session stop, (program.action.call session).1 = .error stop →
    (∃ error, stop = .error error) ∨
      stop = .blocked ∧ (session.Faultless → session.stream.closed = false)

/-- A program that never panics, and ends with its stream, fails with an error or waits in order. -/
theorem NeverPanics.stopsInOrder {program : Program α} (h : program.NeverPanics)
    (hends : program.Ends) : program.StopsInOrder := by
  intro session stop hstop
  cases stop with
  | error error => exact .inl ⟨error, rfl⟩
  | panicked => exact (h session hstop).elim
  | blocked =>
      refine .inr ⟨rfl, fun hfaultless => ?_⟩
      cases hclosed : session.stream.closed with
      | false => rfl
      | true => exact ((hends.endsAt session hfaultless).never hclosed hstop).elim

end Program

/-! ## GEM transactions -/

open Program

namespace EquipmentGem

/-- The equipment's texts are what makes its answers too long to be sent. -/
theorem encodable_of_answer {gem : EquipmentGem}
    (hmodel : (asBytes gem.modelName).length ≤ maxLength)
    (hsoftRev : (asBytes gem.softRev).length ≤ maxLength) {stream function : UInt8}
    {body : Option SecsItem} {reply : SecsItem}
    (hreply : gem.answer stream function body = some reply) : reply.Encodable := by
  unfold answer at hreply
  split at hreply
  · cases hreply
    exact (fitsFrame_onlineData hmodel hsoftRev).1
  split at hreply
  · cases hreply
    exact fitsFrame_establishCommunicationsAck.1
  split at hreply
  · cases hreply
    exact (fitsFrame_byte _).1
  · cases hreply

theorem neverPanics_serveOne {gem : EquipmentGem}
    (hmodel : (asBytes gem.modelName).length ≤ maxLength)
    (hsoftRev : (asBytes gem.softRev).length ≤ maxLength) : gem.serveOne.NeverPanics :=
  Program.neverPanics_serveOne fun _ _ _ _ hreply => encodable_of_answer hmodel hsoftRev hreply

theorem neverPanics_accept {gem : EquipmentGem}
    (hmodel : (asBytes gem.modelName).length ≤ maxLength)
    (hsoftRev : (asBytes gem.softRev).length ≤ maxLength) : gem.accept.NeverPanics := by
  have hserve := neverPanics_serveOne hmodel hsoftRev
  exact neverPanics_acceptSelect.bind fun _ => hserve.bind fun _ => hserve.bind fun _ =>
    neverPanics_pure _

theorem neverPanics_sendEventReport {dataid ceid : UInt32} {reports : List ReportEntry}
    (hencodable : (s6f11EventReport dataid ceid reports).Encodable) :
    (sendEventReport dataid ceid reports).NeverPanics := by
  refine (neverPanics_transact (by decide) hencodable).bind ?_
  rintro ⟨function, reply⟩
  dsimp only
  split
  · exact neverPanics_fail _
  · split
    · exact neverPanics_pure _
    · split
      · exact neverPanics_fail _
      · exact neverPanics_pure _

end EquipmentGem

namespace HostGem

theorem neverPanics_onlineData : onlineData.NeverPanics :=
  (neverPanics_transact (by decide) fitsFrame_nil.1).bind fun _ => neverPanics_ofExcept _

theorem neverPanics_establishCommunications : establishCommunications.NeverPanics :=
  (neverPanics_transact (by decide) fitsFrame_nil.1).bind fun _ => neverPanics_ofExcept _

/-- No bytes make the host panic. -/
theorem neverPanics_serveEventReports : serveEventReports.NeverPanics := by
  refine Program.neverPanics_serveOne fun _ _ _ _ hreply => ?_
  cases hreply
  exact (fitsFrame_byte 0).1

theorem neverPanics_receiveEventReport : receiveEventReport.NeverPanics := by
  refine neverPanics_loop (fun state => neverPanics_serveEventReports.bind ?_) ()
  rintro ⟨stream, function, body⟩
  dsimp only
  split
  · cases body with
    | none => exact neverPanics_fail _
    | some body => exact (neverPanics_ofExcept _).bind fun _ => neverPanics_pure _
  · exact neverPanics_pure _

end HostGem

end Secs

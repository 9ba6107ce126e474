import TptAte.Secs.Selected

/-! # System bytes of primaries

A session numbers its primaries: each call takes the next system bytes at most once, and
writes a primary with no others. So the primaries of a session differ in their system
bytes as long as these have not wrapped around, and no reply to an earlier primary is
taken for the one to a later.
-/

namespace Secs

open Wire

/-- The system bytes of a primary that is written: a Select.req, or data with the W-bit. -/
def Event.primary : Event → Option UInt32
  | .wrote (.selectReq systemBytes) => some systemBytes
  | .wrote (.data _ _ _ true systemBytes _) => some systemBytes
  | _ => none

def primaries (events : List Event) : List UInt32 := events.filterMap Event.primary

@[simp] theorem primaries_append (events events' : List Event) :
    primaries (events ++ events') = primaries events ++ primaries events' :=
  List.filterMap_append

/-- An answer takes no number of its own. -/
theorem primary_of_isAnswer {message : HsmsMessage} (h : message.IsAnswer) :
    Event.primary (.wrote message) = none := by
  cases message with
  | linktestRsp | selectRsp | reject => rfl
  | data | selectReq | linktestReq | separate => exact h.elim

namespace HsmsSession

/-! ## What takes no system bytes -/

/-- No primary is written and no system bytes are taken. -/
def Quiet (session final : HsmsSession) : Prop :=
  final.nextSystemBytes = session.nextSystemBytes ∧
    ∃ events, Grown events session final ∧ primaries events = []

section Quiet

variable {α : Type} {react : HsmsMessage → Reaction α} {first second third : HsmsSession}

theorem Quiet.of_stream (hnext : second.nextSystemBytes = first.nextSystemBytes)
    (hstream : second.stream = first.stream) : Quiet first second :=
  ⟨hnext, [], .of_stream hstream, rfl⟩

theorem Quiet.refl (session : HsmsSession) : Quiet session session := .of_stream rfl rfl

theorem Quiet.trans (h : Quiet first second) (h' : Quiet second third) : Quiet first third := by
  obtain ⟨hnext, events, hgrown, hevents⟩ := h
  obtain ⟨hnext', events', hgrown', hevents'⟩ := h'
  refine ⟨hnext'.trans hnext, events ++ events', hgrown.trans hgrown', ?_⟩
  rw [primaries_append, hevents, hevents', List.append_nil]

theorem quiet_receive {message : HsmsMessage} (hreceive : first.receive = (.ok message, second)) :
    Quiet first second :=
  ⟨(received_of_receive hreceive).same.nextSystemBytes, _, grown_receive hreceive, rfl⟩

theorem quiet_send {message : HsmsMessage} (hmessage : Event.primary (.wrote message) = none)
    {result : Except Stop Unit} (hsend : first.send message = (result, second)) :
    Quiet first second := by
  cases result with
  | error stop =>
      obtain ⟨hgrown, hsame⟩ := unsent_send hsend
      exact ⟨hsame.nextSystemBytes, _, hgrown, rfl⟩
  | ok =>
      refine ⟨(sent_of_send hsend).same.nextSystemBytes, _, grown_send hsend, ?_⟩
      simp [primaries, hmessage]

/-- Answering control messages takes no number. -/
theorem Answers.quiet {messages : List HsmsMessage} (h : Answers react first messages second)
    (hmild : Mild react) : Quiet first second := by
  induction h with
  | nil session => exact .refl session
  | cons hreceive hreact hsend _ ih =>
      exact ((quiet_receive hreceive).trans
        (quiet_send (primary_of_isAnswer (hmild _ _ hreact).1) hsend)).trans ih

/-- A loop takes no system bytes if what it does in the end does not. -/
theorem quiet_await (hmild : Mild react)
    (hfinish : ∀ message last, react message = .finish last → ∀ session : HsmsSession,
      Quiet session (last.call session).2) (session : HsmsSession) :
    Quiet session (awaitMessage react session).2 := by
  obtain ⟨messages, middle, hanswers, hleaves⟩ := exists_leaves react session
  have hquiet := hanswers.quiet hmild
  generalize awaitMessage react session = ending at hleaves
  cases hleaves with
  | unread hreceive =>
      obtain ⟨hgrown, hsame⟩ := unread_receive hreceive
      exact hquiet.trans ⟨hsame.nextSystemBytes, _, hgrown, rfl⟩
  | finished hreceive hreact =>
      exact hquiet.trans ((quiet_receive hreceive).trans (hfinish _ _ hreact _))
  | unanswered hreceive hreact hsend =>
      exact hquiet.trans ((quiet_receive hreceive).trans
        (quiet_send (primary_of_isAnswer (hmild _ _ hreact).1) hsend))

end Quiet

/-! ## What one call takes -/

/-- A call takes no system bytes, or the next ones. It writes a primary with these if any. -/
def Takes (session final : HsmsSession) : Prop :=
  Quiet session final ∨ final.nextSystemBytes = session.nextSystemBytes + 1 ∧
    ∃ events, Grown events session final ∧
      (primaries events = [] ∨ primaries events = [session.nextSystemBytes])

section Takes

/-- System bytes are taken for a primary, and what comes behind it takes none. -/
theorem takes_primary {session sent final : HsmsSession} {message : HsmsMessage}
    (hmessage : Event.primary (.wrote message) = some session.nextSystemBytes)
    (hsend : session.advanced.send message = (.ok (), sent)) (hquiet : Quiet sent final) :
    Takes session final := by
  obtain ⟨hnext, events, hgrown, hevents⟩ := hquiet
  have hall := (grown_send hsend).trans hgrown
  have hsame : sent.nextSystemBytes = session.nextSystemBytes + 1 :=
    (sent_of_send hsend).same.nextSystemBytes
  refine .inr ⟨hnext.trans hsame, _, ⟨hall.log, hall.sent⟩, .inr ?_⟩
  rw [primaries_append, hevents, List.append_nil]
  simp [primaries, hmessage]

/-- A primary message that cannot be sent has taken its number all the same. -/
theorem takes_unsent {session final : HsmsSession} {message : HsmsMessage} {stop : Stop}
    (hsend : session.advanced.send message = (.error stop, final)) : Takes session final := by
  obtain ⟨hgrown, hsame⟩ := unsent_send hsend
  exact .inr ⟨hsame.nextSystemBytes, [], ⟨hgrown.log, hgrown.sent⟩, .inl rfl⟩

theorem takes_select (session : HsmsSession) : Takes session (select.call session).2 := by
  rw [select_call]
  rcases hsend : session.advanced.send (.selectReq session.nextSystemBytes) with ⟨stop | ⟨⟩, sent⟩
  · exact takes_unsent hsend
  · refine takes_primary rfl hsend (quiet_await mild_select ?_ sent)
    intro message last hreact final
    cases message with
    | selectRsp systemBytes status =>
        cases hreact
        cases status <;> exact .of_stream rfl rfl
    | linktestReq => cases hreact
    | _ =>
        cases hreact
        exact .of_stream rfl rfl

theorem quiet_acceptSelect (session : HsmsSession) :
    Quiet session (acceptSelect.call session).2 := by
  refine quiet_await mild_accept ?_ session
  intro message last hreact final
  cases message with
  | selectReq systemBytes =>
      cases hreact
      rw [SessionM.call_bind, write, SessionM.call_mk]
      rcases hsend : final.send (.selectRsp systemBytes .selected) with ⟨stop | ⟨⟩, written⟩
      · exact quiet_send rfl hsend
      · exact (quiet_send rfl hsend).trans (.of_stream rfl rfl)
  | linktestReq => cases hreact
  | _ =>
      cases hreact
      exact .of_stream rfl rfl

theorem quiet_awaitReply (systemBytes : UInt32) (wantFunction : UInt8) (session : HsmsSession) :
    Quiet session (awaitMessage (replyReaction systemBytes wantFunction) session).2 := by
  refine quiet_await (mild_reply systemBytes wantFunction) ?_ session
  intro message last hreact final
  cases message with
  | data =>
      simp only [replyReaction] at hreact
      split at hreact <;> cases hreact <;> exact .of_stream rfl rfl
  | linktestReq | selectReq => cases hreact
  | _ =>
      cases hreact
      exact .of_stream rfl rfl

theorem takes_transact (stream function : UInt8) (body : Option SecsItem)
    (session : HsmsSession) :
    Takes session ((transact stream function body).call session).2 := by
  by_cases hselected : session.state = .selected
  · rw [transact_call hselected]
    rcases hsend : session.advanced.send (session.primary stream function body) with
      ⟨stop | ⟨⟩, sent⟩
    · exact takes_unsent hsend
    · dsimp only
      split
      · exact takes_primary rfl hsend (.refl sent)
      · have hquiet := quiet_awaitReply session.nextSystemBytes (function + 1) sent
        refine takes_primary rfl hsend ?_
        generalize awaitMessage _ sent = ending at hquiet
        rcases ending with ⟨stop | message, final⟩
        · exact hquiet
        · cases message <;> exact hquiet
  · rw [transact_call_of_not hselected]
    exact .inl (.refl session)

theorem quiet_serveOne (makeReply : UInt8 → UInt8 → Option SecsItem → Option SecsItem)
    (session : HsmsSession) : Quiet session ((serveOne makeReply).call session).2 := by
  by_cases hselected : session.state = .selected
  · rw [serveOne_call hselected]
    refine quiet_await (mild_serve makeReply) ?_ session
    intro message last hreact final
    cases message with
    | data sessionId stream function wBit systemBytes body =>
        cases hreply : (if wBit then makeReply stream function body else none) with
        | none =>
            obtain ⟨last', hlast, hcall⟩ := serveReaction_unreplied hreply
            cases hreact.symm.trans hlast
            rw [hcall]
            exact .refl final
        | some replyBody =>
            obtain ⟨last', hlast, hcall⟩ := serveReaction_replied hreply
            cases hreact.symm.trans hlast
            rw [hcall]
            split
            · exact .refl final
            · exact quiet_send rfl rfl
    | linktestReq | selectReq => cases hreact
    | separate =>
        cases hreact
        exact .of_stream rfl rfl
    | _ => cases hreact
  · rw [serveOne_call_of_not hselected]
    exact .refl session

/-- Every call takes one number or none, and only for the primary message that it sends. -/
theorem takes_call (operation : Operation) (session : HsmsSession) :
    Takes session (operation.call session).2 := by
  cases operation with
  | select => exact takes_select session
  | acceptSelect => exact .inl (quiet_acceptSelect session)
  | transact stream function body => exact takes_transact stream function body session
  | serveOne makeReply => exact .inl (quiet_serveOne makeReply session)

end Takes

/-! ## What a session takes -/

/-- The calls of a session, one after the other. -/
def callAll (session : HsmsSession) (operations : List Operation) : HsmsSession :=
  operations.foldl (fun session operation => (operation.call session).2) session

/-- The system bytes that a session takes for its messages, counted from one. -/
def numbered (number : Nat) : UInt32 := UInt32.ofNat number

/-- So many system bytes were taken, and the primaries have some of them in their order. -/
structure Numbered (count : Nat) (session final : HsmsSession) : Prop where
  next : final.nextSystemBytes = numbered (count + 1)
  ascending : ∃ (events : List Event) (numbers : List Nat), Grown events session final ∧
    primaries events = numbers.map numbered ∧ numbers.Pairwise (· < ·) ∧
    ∀ number ∈ numbers, 1 ≤ number ∧ number ≤ count

theorem numbered_new (stream : Connection) (sessionId : UInt16) :
    Numbered 0 (.new stream sessionId) (.new stream sessionId) :=
  ⟨rfl, [], [], .refl _, rfl, .nil, by simp⟩

theorem numbered_succ (number : Nat) : numbered number + 1 = numbered (number + 1) :=
  (UInt32.ofNat_add number 1).symm

section Numbered

variable {count : Nat} {session middle final : HsmsSession}

/-- A call takes at most one number. -/
theorem Numbered.call (h : Numbered count session middle) (htakes : Takes middle final) :
    ∃ count', count ≤ count' ∧ count' ≤ count + 1 ∧ Numbered count' session final := by
  obtain ⟨hnext, events, numbers, hgrown, hprimaries, hpairwise, hbounds⟩ := h
  rcases htakes with ⟨hsame, events', hgrown', hnone⟩ | ⟨hsucc, events', hgrown', hcases⟩
  · refine ⟨count, le_rfl, Nat.le_succ _, hsame.trans hnext, _, numbers, hgrown.trans hgrown', ?_,
      hpairwise, hbounds⟩
    rw [primaries_append, hnone, List.append_nil, hprimaries]
  · refine ⟨count + 1, Nat.le_succ _, le_rfl, ?_, ?_⟩
    · rw [hsucc, hnext, numbered_succ]
    · rcases hcases with hnone | hone
      · refine ⟨_, numbers, hgrown.trans hgrown', ?_, hpairwise, fun number hnumber => ?_⟩
        · rw [primaries_append, hnone, List.append_nil, hprimaries]
        · exact ⟨(hbounds number hnumber).1, (hbounds number hnumber).2.trans (Nat.le_succ _)⟩
      · refine ⟨_, numbers ++ [count + 1], hgrown.trans hgrown', ?_, ?_, ?_⟩
        · rw [primaries_append, hone, hprimaries, hnext, List.map_append, List.map_singleton]
        · refine List.pairwise_append.mpr ⟨hpairwise, List.pairwise_singleton _ _, ?_⟩
          intro number hnumber last hlast
          rw [List.mem_singleton.mp hlast]
          exact Nat.lt_succ_of_le (hbounds number hnumber).2
        · intro number hnumber
          rcases List.mem_append.mp hnumber with hnumber | hlast
          · exact ⟨(hbounds number hnumber).1, (hbounds number hnumber).2.trans (Nat.le_succ _)⟩
          · rw [List.mem_singleton.mp hlast]
            exact ⟨Nat.succ_pos _, le_rfl⟩

/-- Calls take at most one number each. -/
theorem Numbered.callAll (h : Numbered count session middle) (operations : List Operation) :
    ∃ count', count' ≤ count + operations.length ∧
      Numbered count' session (middle.callAll operations) := by
  induction operations generalizing count middle with
  | nil => exact ⟨count, le_rfl, h⟩
  | cons operation operations ih =>
      obtain ⟨count', -, hle, hcall⟩ := h.call (takes_call operation middle)
      obtain ⟨last, hlast, hall⟩ := ih hcall
      refine ⟨last, ?_, hall⟩
      rw [List.length_cons]
      omega

/-- The first 2^32 - 1 numbers are distinct. -/
theorem numbered_inj {number number' : Nat} (h : number < 2 ^ 32) (h' : number' < 2 ^ 32)
    (heq : numbered number = numbered number') : number = number' := by
  have hnat := congrArg UInt32.toNat heq
  rwa [numbered, numbered, UInt32.toNat_ofNat_of_lt' h, UInt32.toNat_ofNat_of_lt' h'] at hnat

/-- In the first 2 ^ 32 - 1 calls of a session no two primaries have the same system bytes, and
a transaction that returns behind them takes a data message for its reply whose system bytes no
primary of the calls before it had: no reply that is late, or comes twice, is taken for that to a
later primary. -/
theorem takes_no_late_reply (stream : Connection) (sessionId : UInt16)
    (operations : List Operation) (hlength : operations.length < 2 ^ 32 - 1) :
    ∃ events, Grown events (.new stream sessionId)
        (HsmsSession.callAll (.new stream sessionId) operations) ∧
      (primaries events).Nodup ∧
      ∀ stream' function body replyFunction replyBody final,
        (transact stream' function body).call
            (HsmsSession.callAll (.new stream sessionId) operations) =
          (.ok (replyFunction, replyBody), final) →
        ∃ requests sessionId' replyStream wBit systemBytes,
          (HsmsSession.callAll (.new stream sessionId) operations).frames =
            requests ++ .data sessionId' replyStream replyFunction wBit systemBytes replyBody ::
              final.frames ∧
          (∀ request ∈ requests, request.IsRequest) ∧ systemBytes ∉ primaries events := by
  obtain ⟨count, hle, hnext, events, numbers, hgrown, hprimaries, hpairwise, hbounds⟩ :=
    (numbered_new stream sessionId).callAll operations
  rw [Nat.zero_add] at hle
  have hsmall (number : Nat) (hnumber : number ∈ numbers) : number < 2 ^ 32 := by
    have hbound := (hbounds number hnumber).2
    omega
  refine ⟨events, hgrown, ?_, ?_⟩
  -- the numbers taken are increasing and below 2^32, where distinct numbers stay distinct
  · rw [hprimaries]
    refine List.pairwise_map.mpr (hpairwise.imp_of_mem fun hnumber hnumber' hlt heq => ?_)
    exact Nat.ne_of_lt hlt (numbered_inj (hsmall _ hnumber) (hsmall _ hnumber') heq)
  · intro stream' function body replyFunction replyBody final htransact
    by_cases hselected :
      (HsmsSession.callAll (.new stream sessionId) operations).state = .selected
    · obtain ⟨requests, sessionId', replyStream, wBit, hexchanged⟩ :=
        exchanged_of_transact hselected htransact
      refine ⟨requests, sessionId', replyStream, wBit, _, hexchanged.frames,
        hexchanged.isRequest, ?_⟩
      rw [hnext, hprimaries]
      intro hmem
      obtain ⟨number, hnumber, heq⟩ := List.mem_map.mp hmem
      -- an earlier message would have taken the number that is only taken now
      have hbound := (hbounds number hnumber).2
      have hsame := numbered_inj (hsmall number hnumber) (by omega) heq
      omega
    · rw [transact_call_of_not hselected] at htransact
      cases htransact

end Numbered

/-- The reply S1F2 to a second primary. -/
def onlineAnswer : Bytes := [0, 0, 0, 10, 0, 0, 1, 2, 0, 0, 0, 0, 0, 2]

/-- A session that was selected and has its answer to come. -/
theorem transact_onlineAnswer :
    ∃ final, (transact 1 1 none).call
        (HsmsSession.callAll (freshSession (selectAnswer ++ onlineAnswer)) [.select]) =
      (.ok (2, none), final) := by
  have hencoded : encodeAll [.selectRsp 0 .selected, .data 0 1 2 false 2 none] =
      some (selectAnswer ++ onlineAnswer) := by decide +kernel
  have hstart : Delivers (freshSession (selectAnswer ++ onlineAnswer))
      [.selectRsp 0 .selected, .data 0 1 2 false 2 none] :=
    ⟨framesOf_encodeAll (by simp [HsmsMessage.Canonical]; decide) hencoded false, rfl⟩
  obtain ⟨after, -, -, hgrown, hcall⟩ := hstart.select rfl
  obtain ⟨-, -, hafter, hselected⟩ := exists_selected hstart
  -- the Select.req took the first system bytes
  have hnext : (Operation.select.call
      (freshSession (selectAnswer ++ onlineAnswer))).2.nextSystemBytes = 2 := by
    rcases takes_select (freshSession (selectAnswer ++ onlineAnswer)) with hquiet | ⟨hnext, -⟩
    · obtain ⟨-, events, hevents, hnone⟩ := hquiet
      change (select.call (freshSession (selectAnswer ++ onlineAnswer))).2 = _ at hcall
      rw [hcall] at hevents
      obtain rfl := hevents.events_eq ⟨hgrown.log, hgrown.sent⟩
      cases hnone
    · exact hnext
  change ∃ final, (transact 1 1 none).call (Operation.select.call _).2 = _
  refine (transact_returns_iff (by decide)).mpr
    ⟨hselected, rfl, [], 0, 1, false, [], ?_, by simp, ?_⟩
  · rw [hnext]
    exact hafter.frames
  · simp [WritesSucceed, hafter.faults]

/-- A session that selects and then makes a transaction. -/
theorem takes_no_late_reply_onlineAnswer :
    ∃ events, Grown events (freshSession (selectAnswer ++ onlineAnswer))
        (HsmsSession.callAll (freshSession (selectAnswer ++ onlineAnswer)) [.select]) ∧
      (primaries events).Nodup ∧
      ∃ requests sessionId' replyStream wBit systemBytes rest,
        (HsmsSession.callAll (freshSession (selectAnswer ++ onlineAnswer)) [.select]).frames =
          requests ++ .data sessionId' replyStream 2 wBit systemBytes none :: rest ∧
        systemBytes ∉ primaries events := by
  obtain ⟨events, hgrown, hnodup, hlate⟩ :=
    takes_no_late_reply (freshSession (selectAnswer ++ onlineAnswer)).stream 0 [.select] (by decide)
  obtain ⟨final, htransact⟩ := transact_onlineAnswer
  obtain ⟨requests, sessionId', replyStream, wBit, systemBytes, hframes, -, hnot⟩ :=
    hlate 1 1 none 2 none final htransact
  exact ⟨events, hgrown, hnodup, requests, sessionId', replyStream, wBit, systemBytes, _, hframes,
    hnot⟩

end HsmsSession

end Secs

import TptAte.Comm.Delivery
import TptAte.Secs.Agreement
import TptAte.Secs.Closing
import TptAte.Secs.Gem

/-! # Programs as parties of a connection

A program whose calls come to an end with their stream is a party that goes away when it
has returned. How a conversation of two programs ends is told from how it goes on behind
what they both have returned from.
-/

namespace Secs

open Wire Duplex

namespace Program

variable {α β γ δ σ : Type}

/-- A program whose calls come to an end with their stream. -/
def Ends (program : Program α) : Prop := HsmsSession.Ends program.action

theorem ends_pure (value : α) : (pure value : Program α).Ends := HsmsSession.ends_pure value

theorem ends_fail (error : SecsError) : (fail error : Program α).Ends := HsmsSession.ends_fail error

theorem ends_panicked : (stop .panicked : Program α).Ends := HsmsSession.ends_throw nofun

theorem ends_ofExcept (result : Except SecsError α) : (ofExcept result).Ends := by
  cases result with
  | error error => exact ends_fail error
  | ok value => exact ends_pure value

theorem ends_select : select.Ends := HsmsSession.ends_select

theorem ends_acceptSelect : acceptSelect.Ends := HsmsSession.ends_acceptSelect

theorem ends_transact (stream function : UInt8) (body : Option SecsItem) :
    (transact stream function body).Ends := HsmsSession.ends_transact stream function body

theorem ends_serveOne (makeReply : UInt8 → UInt8 → Option SecsItem → Option SecsItem) :
    (serveOne makeReply).Ends := HsmsSession.ends_serveOne makeReply

theorem Ends.bind {program : Program α} {next : α → Program β} (h : program.Ends)
    (hnext : ∀ value, (next value).Ends) : (program >>= next).Ends :=
  HsmsSession.Ends.bind h hnext

theorem Ends.attempt {program : Program α} (h : program.Ends) : program.attempt.Ends :=
  HsmsSession.ends_attempt h

/-- A loop ends on a closed stream if its rounds do: each round reads. -/
theorem ends_loop {round : σ → Program (σ ⊕ α)}
    {hreads : ∀ state, HsmsSession.Reads (round state).action (·.isLeft)}
    (hround : ∀ state, (round state).Ends) (state : σ) : (loop round hreads state).Ends :=
  HsmsSession.ends_loop hround state

theorem Ends.receiveEventReport : HostGem.receiveEventReport.Ends := by
  refine ends_loop (fun state => ?_) ()
  refine (ends_serveOne _).bind ?_
  rintro ⟨stream, function, body⟩
  dsimp only
  split
  · cases body with
    | none => exact ends_fail _
    | some body => exact (ends_ofExcept _).bind fun _ => ends_pure _
  · exact ends_pure _

theorem Ends.onlineData : HostGem.onlineData.Ends :=
  (ends_transact _ _ _).bind fun _ => ends_ofExcept _

theorem Ends.establishCommunications : HostGem.establishCommunications.Ends :=
  (ends_transact _ _ _).bind fun _ => ends_ofExcept _

theorem Ends.accept (gem : EquipmentGem) : gem.accept.Ends :=
  ends_acceptSelect.bind fun _ => (ends_serveOne _).bind fun _ => (ends_serveOne _).bind fun _ =>
    ends_pure _

theorem Ends.sendEventReport (dataid ceid : UInt32) (reports : List ReportEntry) :
    (EquipmentGem.sendEventReport dataid ceid reports).Ends := by
  refine (ends_transact _ _ _).bind ?_
  rintro ⟨function, reply⟩
  dsimp only
  split
  · exact ends_fail _
  · split
    · exact ends_pure _
    · split
      · exact ends_fail _
      · exact ends_pure _

/-- A call of the program at the end of a stream on which these bytes have arrived. -/
def callAtEnd (program : Program α) (control : Control) (arrived : Bytes) :
    Except Stop α × HsmsSession :=
  program.action.call (control.session arrived).shut

def party (program : Program α) (hends : program.Ends) (control : Control) :
    Ending UInt8 UInt8 (Except Stop α) where
  toProcess := program.process control
  quits := by
    rintro read _ value ⟨more, rfl⟩ hvalue
    obtain ⟨_, _, hgrown, hgrown', -, hcases⟩ := program.continues_call control read more
    change (program.call control (read ++ more)).2.stream.sent =
      (program.call control read).2.stream.sent
    rcases hcases with ⟨-, rfl, -⟩ | ⟨hblocked, -, -⟩
    · rw [hgrown.sent, hgrown'.sent]
      rfl
    · change returned (program.call control read).1 = some value at hvalue
      rw [hblocked] at hvalue
      cases hvalue
  lastOutput arrived := (program.callAtEnd control arrived).2.stream.sent
  lastResult arrived := (program.callAtEnd control arrived).1
  output_last arrived hwaits :=
    (hends.endsAt _ (control.faultless_session arrived)).waiting rfl (returned_eq_none.mp hwaits)

section Parties

variable {program : Program α} {control control' : Control} {arrived written : Bytes} {value : α}

theorem Ahead.shut {session session' : HsmsSession} (h : HsmsSession.Ahead [] session session') :
    HsmsSession.Ahead [] session.shut session'.shut :=
  ⟨h.faultless.shut, h.faultless'.shut, ⟨h.same.state, h.same.sessionId, h.same.nextSystemBytes⟩,
    rfl, fun hne => (hne rfl).elim, h.bytes⟩

/-- What comes behind a program that returns, at the end of the stream. -/
theorem Exchanges.callAtEnd_bind (hends : program.Ends)
    (h : program.Exchanges control arrived value written control') (next : α → Program β)
    (more : Bytes) :
    ((program >>= next).callAtEnd control (arrived ++ more)).1 =
        ((next value).callAtEnd control' more).1 ∧
      ((program >>= next).callAtEnd control (arrived ++ more)).2.stream.sent =
        written ++ ((next value).callAtEnd control' more).2.stream.sent := by
  obtain ⟨hreturns, hsent, -⟩ := h.ends more
  have hreturned : (program.call control (arrived ++ more)).1 ≠ .error .blocked := by
    rw [hreturns]
    nofun
  have hshut : program.action.call (control.session (arrived ++ more)).shut =
      ((program.call control (arrived ++ more)).1,
        (program.call control (arrived ++ more)).2.shut) :=
    (hends.endsAt _ (control.faultless_session _)).same rfl hreturned
  have hcall : (program >>= next).callAtEnd control (arrived ++ more) =
      (next value).action.call (program.call control (arrived ++ more)).2.shut := by
    change (program.action >>= fun value => (next value).action).call _ = _
    rw [SessionM.call_bind, hshut, hreturns]
  obtain ⟨hsame, -, events, hgrown, hgrown'⟩ :=
    same_of_ahead (Ahead.shut (h.ahead more)) (next value)
  rw [hcall]
  refine ⟨hsame, ?_⟩
  have hnext : ((next value).callAtEnd control' more).2.stream.sent =
    [] ++ events.flatMap HsmsSession.sentBytes := hgrown.sent
  rw [hgrown'.sent, hnext, List.nil_append]
  exact congrArg (· ++ _) hsent

/-- A program and what comes behind it, as parties. -/
theorem Exchanges.party_chains (hends : program.Ends) {next : α → Program β}
    (hnext : (next value).Ends) (hall : (program >>= next).Ends)
    (h : program.Exchanges control arrived value written control') :
    ((program >>= next).party hall control).Chains (program.process control) arrived
      ((next value).party hnext control') where
  whole := h.chains next
  lastOutput more := by
    have hsent : (program.process control).output arrived = written := h.sent
    rw [hsent]
    exact (h.callAtEnd_bind hends next more).2
  lastResult more := (h.callAtEnd_bind hends next more).1

end Parties

/-! ## How conversations end -/

/-- A conversation of two programs, as parties that go away, that cannot go on; with what
they have come to. A program without an outcome waits. -/
def Leads (left : Program α) (control : Control) (right : Program β) (control' : Control)
    (outcome : Option (Except Stop α)) (outcome' : Option (Except Stop β)) : Prop :=
  ∀ (hleft : left.Ends) (hright : right.Ends), ∃ read read',
    Closes (left.party hleft control).closing (right.party hright control').closing read read' ∧
      (left.party hleft control).returns read = outcome ∧
      (right.party hright control').returns read' = outcome'

section Leads

variable {left : Program α} {right : Program β} {control control' after after' : Control}
  {value : α} {value' : β} {outcome : Option (Except Stop α)} {outcome' : Option (Except Stop β)}

theorem Leads.swap (h : left.Leads control right control' outcome outcome') :
    right.Leads control' left control outcome' outcome := by
  intro hright hleft
  obtain ⟨read, read', hcloses, hread, hread'⟩ := h hleft hright
  exact ⟨read', read, hcloses.swap, hread', hread⟩

/-- In every run the parties come to these outcomes. -/
theorem Leads.concludes (h : left.Leads control right control' outcome outcome')
    (hleft : left.Ends) (hright : right.Ends) :
    Concludes (left.party hleft control).closing (right.party hright control').closing outcome
      outcome' := by
  obtain ⟨read, read', hcloses, rfl, rfl⟩ := h hleft hright
  exact hcloses.concludes (Ending.closing_quits _) (Ending.closing_quits _)

/-- In every run over the in-memory transport the parties come to these outcomes. -/
theorem Leads.connects (h : left.Leads control right control' outcome outcome')
    (hleft : left.Ends) (hright : right.Ends) :
    Comm.Connects (left.party hleft control) (right.party hright control') outcome outcome' :=
  Comm.connects_of_concludes (h.concludes hleft hright)

/-- Programs that both return do so in every run over the in-memory transport. -/
theorem Meets.delivers (h : left.Meets control right control' value after value' after')
    (hleft : left.Ends) (hright : right.Ends) :
    Comm.Delivers (left.party hleft control) (right.party hright control') (.ok value)
      (.ok value') := by
  obtain ⟨arrived, written, htalk, hexchanges, hexchanges'⟩ := h
  exact Comm.delivers_of_talk htalk hexchanges.result hexchanges'.result hexchanges.sent
    hexchanges'.sent

/-- Programs that both return. -/
theorem Meets.leads (h : left.Meets control right control' value after value' after') :
    left.Leads control right control' (some (.ok value)) (some (.ok value')) := by
  intro hleft hright
  obtain ⟨arrived, written, htalk, hexchanges, hexchanges'⟩ := h
  refine ⟨arrived.map some, written.map some, ?_, ?_, ?_⟩
  · exact Ending.closes_of_returned htalk hexchanges.result hexchanges'.result
  · exact (Ending.returns_map_some _ _).trans hexchanges.result
  · exact (Ending.returns_map_some _ _).trans hexchanges'.result

/-- What comes behind programs that both return, with everything read. -/
theorem Leads.behind {next : α → Program γ} {next' : β → Program δ}
    {last : Option (Except Stop γ)} {last' : Option (Except Stop δ)}
    (hmeets : left.Meets control right control' value after value' after')
    (hleft : left.Ends) (hright : right.Ends) (hnext : (next value).Ends)
    (hnext' : (next' value').Ends)
    (h : (next value).Leads after (next' value') after' last last') :
    (left >>= next).Leads control (right >>= next') control' last last' := by
  intro hall hall'
  obtain ⟨arrived, written, htalk, hexchanges, hexchanges'⟩ := hmeets
  obtain ⟨more, more', hcloses, rfl, rfl⟩ := h hnext hnext'
  have hchains := (hexchanges.party_chains hleft hnext hall).closing
  have hchains' := (hexchanges'.party_chains hright hnext' hall').closing
  have hwritten : (left.process control).overItems.output (arrived.map some) =
      written.map some := by
    have hsent : (left.process control).output arrived = written := hexchanges.sent
    simp [Process.overItems, hsent]
  have hwritten' : (right.process control').overItems.output (written.map some) =
      arrived.map some := by
    have hsent : (right.process control').output written = arrived := hexchanges'.sent
    simp [Process.overItems, hsent]
  refine ⟨arrived.map some ++ more, written.map some ++ more', ?_, ?_, ?_⟩
  · exact hcloses.chain hchains hchains'
      (htalk.extended (extends_overItems _) (extends_overItems _)) hwritten hwritten'
  · exact hchains.result more
  · exact hchains'.result more'

/-- Two programs over the in-memory transport. In every run that ends both have returned or failed
and dropped their halves, or both wait for more with nothing left unread; and one such run tells
that all runs are finite, and what the programs come to and write in each of them. -/
theorem one_run_decides (hleft : left.Ends) (hright : right.Ends) (control control' : Control)
    {connection : Comm.Connection}
    (hran : Comm.Ran (left.party hleft control) (right.party hright control') connection) :
    Comm.BothOrNeither (left.party hleft control) (right.party hright control') connection ∧
      Terminates (Comm.Connection.step (left.party hleft control) (right.party hright control'))
        .start ∧
      ∀ connection', Comm.Ran (left.party hleft control) (right.party hright control') connection' →
        Comm.SameRun (left.party hleft control) (right.party hright control') connection
          connection' :=
  ⟨hran.both_or_neither, hran.decides⟩

/-- The select exchange. -/
theorem one_run_decides_select : ∃ connection,
    Comm.Ran (select.party ends_select (.new 0)) (acceptSelect.party ends_acceptSelect (.new 1))
      connection ∧
    Comm.BothOrNeither (select.party ends_select (.new 0))
      (acceptSelect.party ends_acceptSelect (.new 1)) connection ∧
    ∀ connection', Comm.Ran (select.party ends_select (.new 0))
        (acceptSelect.party ends_acceptSelect (.new 1)) connection' →
      Comm.SameRun (select.party ends_select (.new 0))
        (acceptSelect.party ends_acceptSelect (.new 1)) connection connection' := by
  have hdelivers := (meets_select (.new 0) (.new 1)).delivers ends_select ends_acceptSelect
  obtain ⟨connection, hreaches, hrest⟩ := hdelivers.terminates.exists_still
  have hran : Comm.Ran (select.party ends_select (.new 0))
    (acceptSelect.party ends_acceptSelect (.new 1)) connection := ⟨hreaches, hrest⟩
  have hdecides := one_run_decides ends_select ends_acceptSelect (.new 0) (.new 1) hran
  exact ⟨connection, hran, hdecides.1, hdecides.2.2⟩

/-! ## Programs that wait from the beginning -/

/-- With nothing arrived the program has written these bytes and waits; at the end of its
stream it comes to a result. -/
structure Waits (program : Program α) (control : Control) (written : Bytes)
    (result : Except Stop α) : Prop where
  blocked : (program.call control []).1 = .error .blocked
  sent : (program.call control []).2.stream.sent = written
  atEnd : (program.callAtEnd control []).1 = result

/-- With nothing arrived the program has returned and written nothing. -/
structure Leaves (program : Program α) (control : Control) (result : Except Stop α) : Prop where
  returns : (program.call control []).1 = result
  sent : (program.call control []).2.stream.sent = []
  result : result ≠ .error .blocked

/-- The left program waits for one that has returned. -/
theorem Waits.leads {written : Bytes} {result : Except Stop α} {result' : Except Stop β}
    (h : left.Waits control written result) (h' : right.Leaves control' result') :
    left.Leads control right control' (some result) (some result') := by
  intro hleft hright
  have hwaits : (left.process control).result [] = none := returned_eq_none.mpr h.blocked
  have hreturned : (right.process control').result [] = some result' := by
    change returned (right.call control' []).1 = _
    have hresult := h'.result
    rw [h'.returns]
    rcases result' with (_ | _ | _) | _
    · rfl
    · rfl
    · exact (hresult rfl).elim
    · rfl
  have hatEnd := h.atEnd
  subst hatEnd
  refine ⟨[none], [], Ending.closes_of_waits .silent hwaits hreturned h'.sent, ?_, ?_⟩
  · exact Ending.returns_of_ended hwaits rfl
  · exact Ending.returns_of_returned hreturned

/-- Both programs wait and have written nothing. -/
theorem Waits.stuck {result : Except Stop α} {result' : Except Stop β}
    (h : left.Waits control [] result) (h' : right.Waits control' [] result') :
    left.Leads control right control' none none := by
  intro hleft hright
  have hwaits : (left.process control).result [] = none := returned_eq_none.mpr h.blocked
  have hwaits' : (right.process control').result [] = none := returned_eq_none.mpr h'.blocked
  refine ⟨[], [], Ending.closes_of_stuck .silent hwaits hwaits' h'.sent h.sent, ?_, ?_⟩
  · exact (Ending.returns_map_some _ []).trans hwaits
  · exact (Ending.returns_map_some _ []).trans hwaits'

theorem leaves_pure (value : α) (control : Control) :
    (pure value : Program α).Leaves control (.ok value) := ⟨rfl, rfl, nofun⟩

theorem leaves_stop {stop : Stop} (hstop : stop ≠ .blocked) (next : α → Program β)
    (control : Control) :
    ((Program.stop stop : Program α) >>= next).Leaves control (.error stop) :=
  ⟨rfl, rfl, fun h => hstop (Except.error.inj h)⟩

/-- A program that waits keeps what comes behind it waiting. -/
theorem call_bind_of_blocked (hblocked : (left.call control []).1 = .error .blocked)
    (next : α → Program γ) :
    ((left >>= next).call control []).1 = .error .blocked ∧
      ((left >>= next).call control []).2.stream.sent =
        (left.call control []).2.stream.sent := by
  rw [call_bind]
  rcases hcall : left.call control [] with ⟨stop | value, session⟩ <;> rw [hcall] at hblocked
  · exact ⟨congrArg Except.error (Except.error.inj hblocked), rfl⟩
  · cases hblocked

/-- At the end of the stream a sequence runs as its parts do. -/
theorem callAtEnd_bind (left : Program α) (next : α → Program γ) (control : Control)
    (arrived : Bytes) :
    (left >>= next).callAtEnd control arrived =
      match left.callAtEnd control arrived with
      | (.ok value, session) => (next value).action.call session
      | (.error stop, session) => (.error stop, session) :=
  SessionM.call_bind _ _ _

/-- What comes behind a program that fails is left out. -/
theorem Waits.bind_error {written : Bytes} {stop : Stop}
    (h : left.Waits control written (.error stop)) (next : α → Program γ) :
    (left >>= next).Waits control written (.error stop) := by
  obtain ⟨hblocked, hsent⟩ := call_bind_of_blocked h.blocked next
  refine ⟨hblocked, hsent.trans h.sent, ?_⟩
  have hatEnd := h.atEnd
  rw [callAtEnd_bind]
  rcases hcall : left.callAtEnd control [] with ⟨stop' | value, session⟩ <;> rw [hcall] at hatEnd
  · exact congrArg Except.error (Except.error.inj hatEnd)
  · cases hatEnd

/-- What is computed behind a program that comes to a value at the end. -/
theorem Waits.bind_pure {written : Bytes} (h : left.Waits control written (.ok value))
    {next : α → Program γ} {result : γ} (hnext : next value = pure result) :
    (left >>= next).Waits control written (.ok result) := by
  obtain ⟨hblocked, hsent⟩ := call_bind_of_blocked h.blocked next
  refine ⟨hblocked, hsent.trans h.sent, ?_⟩
  have hatEnd := h.atEnd
  rw [callAtEnd_bind]
  rcases hcall : left.callAtEnd control [] with ⟨stop' | value, session⟩ <;> rw [hcall] at hatEnd
  · cases hatEnd
  · cases hatEnd
    dsimp only
    rw [hnext]
    rfl

/-- A program that catches the error of the end waits as the program itself does. -/
theorem Waits.attempt {written : Bytes} {error : SecsError}
    (h : left.Waits control written (.error (.error error))) :
    left.attempt.Waits control written (.ok (.error error)) where
  blocked := HsmsSession.caught_eq_blocked.mpr h.blocked
  sent := h.sent
  atEnd := congrArg HsmsSession.caught h.atEnd

/-- The round at which a loop that waits comes to its result. -/
theorem Waits.loop_leaves {round : σ → Program (σ ⊕ α)}
    {hreads : ∀ state, HsmsSession.Reads (round state).action (·.isLeft)} {state : σ}
    {written : Bytes} (h : (round state).Waits control written (.ok (.inr value))) :
    (loop round hreads state).Waits control written (.ok value) := by
  rw [loop_eq]
  exact h.bind_pure rfl

/-- A stream with nothing on it, open and at its end. -/
theorem receive_nil_cases {session : HsmsSession} (hfaultless : session.Faultless)
    (hopen : session.stream.closed = false) (hbytes : session.stream.inbound.bytes = []) :
    (∃ after, session.receive = (.error .blocked, after) ∧
        after.stream.sent = session.stream.sent) ∧
      (session.shut.receive).1 = .error (.error (.unexpectedEof 4 0)) := by
  obtain ⟨after, hreceive⟩ := HsmsSession.receive_nil hfaultless hopen hbytes
  have hsent := (HsmsSession.unread_receive hreceive).1.sent
  rw [List.flatMap_nil, List.append_nil] at hsent
  refine ⟨⟨after, hreceive, hsent⟩, ?_⟩
  unfold HsmsSession.receive
  have hclean : session.shut.stream.inbound.Clean := hfaultless.clean
  have hnone : session.shut.stream.inbound.bytes = [] := hbytes
  dsimp only
  rw [readMessage, readExactCounted_clean _ 4 hclean, hnone]
  rfl

/-- A loop with nothing to read waits, and fails at the end of its stream. -/
theorem awaitMessage_nil {react : HsmsMessage → HsmsSession.Reaction α} {session : HsmsSession}
    (hfaultless : session.Faultless) (hopen : session.stream.closed = false)
    (hbytes : session.stream.inbound.bytes = []) :
    (HsmsSession.awaitMessage react session).1 = .error .blocked ∧
      (HsmsSession.awaitMessage react session).2.stream.sent = session.stream.sent ∧
      (HsmsSession.awaitMessage react session.shut).1 =
        .error (.error (.unexpectedEof 4 0)) := by
  obtain ⟨⟨after, hreceive, hsent⟩, hend⟩ := receive_nil_cases hfaultless hopen hbytes
  rw [HsmsSession.awaitMessage_eq, hreceive]
  refine ⟨rfl, hsent, ?_⟩
  rw [HsmsSession.awaitMessage_eq]
  rcases hshut : session.shut.receive with ⟨stop | message, last⟩ <;> rw [hshut] at hend
  · exact congrArg Except.error (Except.error.inj hend)
  · cases hend

theorem waits_serveOne (hselected : control.state = .selected)
    (makeReply : UInt8 → UInt8 → Option SecsItem → Option SecsItem) :
    (serveOne makeReply).Waits control [] (.error (.error (.unexpectedEof 4 0))) := by
  have hstate : (control.session []).state = .selected := hselected
  obtain ⟨hblocked, hsent, hend⟩ := @awaitMessage_nil _ (HsmsSession.serveReaction makeReply)
    (control.session []) (control.faultless_session []) rfl rfl
  have hcall : (serveOne makeReply).call control [] =
      HsmsSession.awaitMessage (HsmsSession.serveReaction makeReply) (control.session []) :=
    HsmsSession.serveOne_call hstate makeReply
  have hshut : (serveOne makeReply).callAtEnd control [] =
      HsmsSession.awaitMessage (HsmsSession.serveReaction makeReply) (control.session []).shut :=
    @HsmsSession.serveOne_call (control.session []).shut hstate makeReply
  exact ⟨by rw [hcall]; exact hblocked, by rw [hcall]; exact hsent, by rw [hshut]; exact hend⟩

/-- A transaction whose wait stops. -/
theorem transact_call_of_stop {session start : HsmsSession} (hselected : session.state = .selected)
    {stream function : UInt8} (hfunction : function ≠ 0xFF) {body : Option SecsItem}
    (hsend : session.advanced.send (session.primary stream function body) = (.ok (), start))
    {stop : Stop} (hawait : (HsmsSession.awaitMessage
      (HsmsSession.replyReaction session.nextSystemBytes (function + 1)) start).1 = .error stop) :
    (HsmsSession.transact stream function body).call session =
      (.error stop, (HsmsSession.awaitMessage
        (HsmsSession.replyReaction session.nextSystemBytes (function + 1)) start).2) := by
  rw [HsmsSession.transact_call hselected, hsend]
  dsimp only
  rw [if_neg hfunction]
  rcases hlast : HsmsSession.awaitMessage
    (HsmsSession.replyReaction session.nextSystemBytes (function + 1)) start with
      ⟨stop' | message, final⟩ <;> rw [hlast] at hawait
  · cases hawait
    rfl
  · cases hawait

/-- A transaction has written its primary and waits for the reply. -/
theorem waits_transact (hselected : control.state = .selected) {stream function : UInt8}
    (hfunction : function ≠ 0xFF) {body : Option SecsItem} {written : Bytes}
    (hwritten : (primary control stream function body).toBytes = some written) :
    (transact stream function body).Waits control written
      (.error (.error (.unexpectedEof 4 0))) := by
  have hadvanced : (control.session []).advanced.Faultless := ⟨Source.clean_whole [], rfl⟩
  have hsend : (control.session []).advanced.send (primary control stream function body) =
      (.ok (), (control.session []).advanced.havingSent (primary control stream function body)
        written) := by
    rw [hadvanced.send, hwritten]
  have hsend' : (control.session []).shut.advanced.send (primary control stream function body) =
      (.ok (), ((control.session []).advanced.havingSent (primary control stream function body)
        written).shut) := by
    change HsmsSession.send _ (control.session []).advanced.shut = _
    rw [HsmsSession.send_shut, hsend]
  obtain ⟨hblocked, hsent, hend⟩ := @awaitMessage_nil _
    (HsmsSession.replyReaction control.nextSystemBytes (function + 1))
    ((control.session []).advanced.havingSent (primary control stream function body) written)
    ⟨Source.clean_whole [], rfl⟩ rfl rfl
  have hcall : (transact stream function body).call control [] = _ :=
    @transact_call_of_stop (control.session []) _ hselected _ _ hfunction _ hsend _ hblocked
  have hshut : (transact stream function body).callAtEnd control [] = _ :=
    @transact_call_of_stop (control.session []).shut _ hselected _ _ hfunction _ hsend' _ hend
  exact ⟨by rw [hcall], by rw [hcall]; exact hsent, by rw [hshut]⟩

end Leads

end Program

end Secs

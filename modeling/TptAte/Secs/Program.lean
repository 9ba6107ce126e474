import TptAte.Secs.Transparent
import TptAte.Duplex.Process

/-! # Programs over sessions

Programs are put together from the calls of a session; they see its stream as bytes.
At an open stream a program is a process: it has written what it writes for the bytes
that have arrived, and it has returned or waits for more.
-/

namespace Secs

open Wire Duplex

/-- A session without its stream. -/
structure Control where
  state : HsmsState
  sessionId : UInt16
  nextSystemBytes : UInt32

namespace Control

def new (sessionId : UInt16) : Control := ⟨.connectedNotSelected, sessionId, 1⟩

def session (control : Control) (arrived : Bytes) : HsmsSession :=
  { stream := { inbound := .whole arrived, closed := false, faults := [], sent := [], log := [] }
    state := control.state
    sessionId := control.sessionId
    nextSystemBytes := control.nextSystemBytes }

def advanced (control : Control) : Control :=
  { control with nextSystemBytes := control.nextSystemBytes + 1 }

def selected (control : Control) : Control := { control with state := .selected }

theorem faultless_session (control : Control) (arrived : Bytes) :
    (control.session arrived).Faultless :=
  ⟨Source.clean_whole arrived, rfl⟩

end Control

namespace HsmsSession

def control (session : HsmsSession) : Control :=
  ⟨session.state, session.sessionId, session.nextSystemBytes⟩

theorem Ahead.control_eq {more : Bytes} {session session' : HsmsSession}
    (h : Ahead more session session') : session'.control = session.control := by
  rw [control, control, h.same.state, h.same.sessionId, h.same.nextSystemBytes]

/-- With more bytes arrived a session is ahead. -/
theorem ahead_session (control : Control) (arrived more : Bytes) :
    Ahead more (control.session arrived) (control.session (arrived ++ more)) :=
  ⟨control.faultless_session _, control.faultless_session _, ⟨rfl, rfl, rfl⟩, rfl, fun _ => rfl,
    by simp [Control.session]⟩

end HsmsSession

/-- An action that sees its stream as bytes. -/
structure Program (α : Type) where
  action : SessionM α
  causal : HsmsSession.Causal action

namespace Program

open HsmsSession

variable {α β γ δ : Type}

theorem ext {program program' : Program α} (h : program.action = program'.action) :
    program = program' := by
  cases program
  cases program'
  cases h
  rfl

instance : Monad Program where
  pure value := ⟨pure value, causal_pure value⟩
  bind program next :=
    ⟨program.action >>= fun value => (next value).action,
      program.causal.bind fun value => (next value).causal⟩

instance : LawfulMonad Program :=
  LawfulMonad.mk' Program (fun program => ext (bind_pure program.action))
    (fun value next => ext (pure_bind value fun value => (next value).action))
    (fun first _ _ => ext (bind_assoc first.action _ _))

def fail (error : SecsError) : Program α := ⟨HsmsSession.fail error, causal_fail error⟩

def select : Program Unit := ⟨HsmsSession.select, causal_select⟩

def acceptSelect : Program Unit := ⟨HsmsSession.acceptSelect, causal_acceptSelect⟩

def transact (stream function : UInt8) (body : Option SecsItem) :
    Program (UInt8 × Option SecsItem) :=
  ⟨HsmsSession.transact stream function body, causal_transact stream function body⟩

def serveOne (makeReply : UInt8 → UInt8 → Option SecsItem → Option SecsItem) :
    Program (UInt8 × UInt8 × Option SecsItem) :=
  ⟨HsmsSession.serveOne makeReply, causal_serveOne makeReply⟩

def call (program : Program α) (control : Control) (arrived : Bytes) :
    Except Stop α × HsmsSession :=
  program.action.call (control.session arrived)

/-- What a call that does not wait has returned. -/
def returned : Except Stop α → Option (Except Stop α)
  | .error .blocked => none
  | result => some result

/-- A call has not returned exactly if it is blocked. -/
theorem returned_eq_none {result : Except Stop α} :
    returned result = none ↔ result = .error .blocked := by
  rcases result with (_ | _ | _) | _ <;> simp [returned]

/-- More bytes let a call go on from where it was. -/
theorem continues_call (program : Program α) (control : Control) (arrived more : Bytes) :
    Continues more (control.session arrived) (control.session (arrived ++ more))
      (program.call control arrived) (program.call control (arrived ++ more)) :=
  program.causal.continues more _ _ (ahead_session control arrived more)

def process (program : Program α) (control : Control) :
    Process UInt8 UInt8 (Except Stop α) where
  output arrived := (program.call control arrived).2.stream.sent
  result arrived := returned (program.call control arrived).1
  output_mono := by
    rintro arrived _ ⟨more, rfl⟩
    obtain ⟨events, events', hgrown, hgrown', -, hcases⟩ :=
      program.continues_call control arrived more
    have hinitial : events <+: events' := by
      rcases hcases with ⟨-, rfl, -⟩ | ⟨-, -, hinitial⟩
      · exact List.prefix_rfl
      · exact hinitial
    obtain ⟨rest, rfl⟩ := hinitial
    rw [hgrown.sent, hgrown'.sent, List.flatMap_append, ← List.append_assoc]
    exact List.prefix_append _ _
  result_stable := by
    rintro arrived _ value ⟨more, rfl⟩ hvalue
    obtain ⟨_, _, _, _, _, hcases⟩ := program.continues_call control arrived more
    rcases hcases with ⟨hsame, -, -⟩ | ⟨hblocked, -, -⟩
    · rw [hsame, hvalue]
    · rw [hblocked] at hvalue
      cases hvalue

/-- A call that takes exactly these bytes, returns, and has written those. -/
structure Exchanges (program : Program α) (control : Control) (arrived : Bytes) (value : α)
    (written : Bytes) (control' : Control) : Prop where
  returns : (program.call control arrived).1 = .ok value
  sent : (program.call control arrived).2.stream.sent = written
  taken : (program.call control arrived).2.stream.inbound.bytes = []
  control : (program.call control arrived).2.control = control'

section Exchanges

variable {program : Program α} {control control' : Control} {arrived written : Bytes} {value : α}

theorem Exchanges.result (h : program.Exchanges control arrived value written control') :
    (program.process control).result arrived = some (.ok value) := by
  simp only [process, h.returns]
  rfl

/-- Before the last byte has arrived the call waits. -/
theorem Exchanges.waits (h : program.Exchanges control arrived value written control')
    {early : Bytes} (hinitial : early <+: arrived) (hne : early ≠ arrived) :
    (program.call control early).1 = .error .blocked := by
  obtain ⟨more, rfl⟩ := hinitial
  obtain ⟨_, _, _, _, _, hcases⟩ := program.continues_call control early more
  rcases hcases with ⟨-, -, hahead⟩ | ⟨hblocked, -, -⟩
  · have hbytes := hahead.bytes
    rw [h.taken] at hbytes
    exact (hne (by simp [(List.append_eq_nil_iff.mp hbytes.symm).2])).elim
  · exact hblocked

/-- With more bytes the call ends where it ended, with those bytes ahead. -/
theorem Exchanges.ends (h : program.Exchanges control arrived value written control')
    (more : Bytes) :
    (program.call control (arrived ++ more)).1 = .ok value ∧
      (program.call control (arrived ++ more)).2.stream.sent = written ∧
      Ahead more (program.call control arrived).2 (program.call control (arrived ++ more)).2 := by
  obtain ⟨events, events', hgrown, hgrown', hfinal, hcases⟩ :=
    program.continues_call control arrived more
  rcases hcases with ⟨hsame, rfl, hahead⟩ | ⟨hblocked, -, -⟩
  · refine ⟨hsame.trans h.returns, ?_, hahead⟩
    rw [hgrown'.sent, ← h.sent, hgrown.sent]
    rfl
  · rw [h.returns] at hblocked
    cases hblocked

/-- The session behind the call is like one at which the further bytes arrive. -/
theorem Exchanges.ahead (h : program.Exchanges control arrived value written control')
    (more : Bytes) :
    Ahead [] (control'.session more) (program.call control (arrived ++ more)).2 := by
  obtain ⟨-, -, hahead⟩ := h.ends more
  -- the stream is open, since more could arrive
  have hopen := (h.ends [0]).2.2.isOpen (by simp)
  have hcontrol := h.control
  subst hcontrol
  refine ⟨Control.faultless_session _ more, hahead.faultless',
    ⟨hahead.same.state, hahead.same.sessionId, hahead.same.nextSystemBytes⟩,
    hahead.closed.trans hopen, fun hmore => (hmore rfl).elim, ?_⟩
  rw [hahead.bytes, h.taken]
  simp [Control.session]

/-- Two calls on the same bytes. -/
theorem same_of_ahead {session session' : HsmsSession} (hahead : Ahead [] session session')
    (program : Program α) :
    (program.action.call session').1 = (program.action.call session).1 ∧
      Ahead [] (program.action.call session).2 (program.action.call session').2 ∧
      ∃ events, Grown events session (program.action.call session).2 ∧
        Grown events session' (program.action.call session').2 := by
  obtain ⟨events, events', hgrown, hgrown', -, hcases⟩ :=
    program.causal.continues [] session session' hahead
  rcases hcases with ⟨hsame, rfl, hfinal⟩ | ⟨-, hmore, -⟩
  · exact ⟨hsame, hfinal, events', hgrown, hgrown'⟩
  · exact (hmore rfl).elim

theorem call_bind (program : Program α) (next : α → Program β) (control : Control)
    (arrived : Bytes) :
    (program >>= next).call control arrived =
      match program.call control arrived with
      | (.ok value, session) => (next value).action.call session
      | (.error stop, session) => (.error stop, session) :=
  SessionM.call_bind _ _ _

/-- What comes behind a program that returns. -/
theorem Exchanges.call_bind (h : program.Exchanges control arrived value written control')
    (next : α → Program β) (more : Bytes) :
    ((program >>= next).call control (arrived ++ more)).1 = ((next value).call control' more).1 ∧
      ((program >>= next).call control (arrived ++ more)).2.stream.sent =
        written ++ ((next value).call control' more).2.stream.sent ∧
      Ahead [] ((next value).call control' more).2
        ((program >>= next).call control (arrived ++ more)).2 := by
  obtain ⟨hreturns, hsent, -⟩ := h.ends more
  have hcall : (program >>= next).call control (arrived ++ more) =
      (next value).action.call (program.call control (arrived ++ more)).2 := by
    rw [Program.call_bind]
    rcases hprogram : program.call control (arrived ++ more) with ⟨result, session⟩
    rw [hprogram] at hreturns
    cases hreturns
    rfl
  obtain ⟨hsame, hahead, events, hgrown, hgrown'⟩ := same_of_ahead (h.ahead more) (next value)
  rw [hcall]
  refine ⟨hsame, ?_, hahead⟩
  rw [hgrown'.sent, hsent]
  have hnext : ((next value).call control' more).2.stream.sent = [] ++ events.flatMap sentBytes :=
    hgrown.sent
  rw [hnext, List.nil_append]

/-- Exchanges in sequence are an exchange. -/
theorem Exchanges.bind (h : program.Exchanges control arrived value written control')
    {next : α → Program β} {value' : β} {arrived' written' : Bytes} {control'' : Control}
    (hnext : (next value).Exchanges control' arrived' value' written' control'') :
    (program >>= next).Exchanges control (arrived ++ arrived') value' (written ++ written')
      control'' := by
  obtain ⟨hsame, hsent, hahead⟩ := h.call_bind next arrived'
  refine ⟨hsame.trans hnext.returns, by rw [hsent, hnext.sent], ?_, ?_⟩
  · rw [hahead.bytes, hnext.taken]
    rfl
  · rw [hahead.control_eq, hnext.control]

/-- A program and what comes behind it, as processes. -/
theorem Exchanges.chains (h : program.Exchanges control arrived value written control')
    (next : α → Program β) :
    ((program >>= next).process control).Chains (program.process control) arrived
      ((next value).process control') := by
  constructor
  · intro early _
    change (program.call control early).2.stream.sent <+: _
    have hfaultless : (program.call control early).2.Faultless := by
      obtain ⟨_, -, hfaultless⟩ := program.causal.grows _ (control.faultless_session early)
      exact hfaultless
    simp only [process, Program.call_bind]
    rcases hcall : program.call control early with ⟨stop | value', session⟩
    · exact List.prefix_rfl
    · rw [hcall] at hfaultless
      obtain ⟨events, hgrown, -⟩ := (next value').causal.grows session hfaultless
      rw [hgrown.sent]
      exact List.prefix_append _ _
  · intro early hearly hne
    have hblocked := h.waits hearly hne
    simp only [process, Program.call_bind]
    rcases hcall : program.call control early with ⟨result, session⟩
    rw [hcall] at hblocked
    cases hblocked
    rfl
  · intro more
    have hwritten : (program.process control).output arrived = written := h.sent
    rw [hwritten]
    exact (h.call_bind next more).2.1
  · intro more
    exact congrArg returned (h.call_bind next more).1

end Exchanges

/-- Two programs on a duplex: there is a conversation in which both return and
everything that was written is read. -/
def Meets (left : Program α) (control : Control) (right : Program β) (control' : Control)
    (value : α) (after : Control) (value' : β) (after' : Control) : Prop :=
  ∃ arrived written, Talk (left.process control) (right.process control') arrived written ∧
    left.Exchanges control arrived value written after ∧
    right.Exchanges control' written value' arrived after'

section Meets

variable {left : Program α} {right : Program β} {control control' after after' : Control}
  {value : α} {value' : β}

/-- Programs that meet settle: both return, in every order of their steps. -/
theorem Meets.settles (h : left.Meets control right control' value after value' after') :
    Settles (left.process control) (right.process control') (.ok value) (.ok value') := by
  obtain ⟨arrived, written, htalk, hleft, hright⟩ := h
  have hmeets : Duplex.Meets (left.process control) (right.process control') arrived written
      (.ok value) (.ok value') := ⟨htalk, hleft.result, hright.result⟩
  exact hmeets.settles

theorem Meets.swap (h : left.Meets control right control' value after value' after') :
    right.Meets control' left control value' after' value after := by
  obtain ⟨arrived, written, htalk, hleft, hright⟩ := h
  exact ⟨written, arrived, htalk.swap, hright, hleft⟩

/-- Programs that return without reading or writing. -/
theorem meets_pure (control control' : Control) (value : α) (value' : β) :
    (pure value : Program α).Meets control (pure value' : Program β) control' value control value'
      control' :=
  ⟨[], [], .silent, ⟨rfl, rfl, rfl, rfl⟩, ⟨rfl, rfl, rfl, rfl⟩⟩

/-- Meetings in sequence are a meeting. -/
theorem Meets.bind (h : left.Meets control right control' value after value' after')
    {next : α → Program γ} {next' : β → Program δ} {last last' : Control} {result : γ}
    {result' : δ}
    (hnext : (next value).Meets after (next' value') after' result last result' last') :
    (left >>= next).Meets control (right >>= next') control' result last result' last' := by
  obtain ⟨arrived, written, htalk, hleft, hright⟩ := h
  obtain ⟨more, more', htalk', hleft', hright'⟩ := hnext
  refine ⟨arrived ++ more, written ++ more', ?_, hleft.bind hleft', hright.bind hright'⟩
  exact htalk.chain (hleft.chains next) (hright.chains next') hleft.sent hright.sent htalk'

/-- One program asks and the other answers. -/
theorem Meets.of_answer {arrived written : Bytes}
    (hasks : (left.call control []).2.stream.sent = written)
    (hleft : left.Exchanges control arrived value written after)
    (hright : right.Exchanges control' written value' arrived after') :
    left.Meets control right control' value after value' after' := by
  refine ⟨arrived, written, ?_, hleft, hright⟩
  exact Talk.of_answer (fun early hearly hne => returned_eq_none.mpr (hleft.waits hearly hne))
    (fun early hearly hne => returned_eq_none.mpr (hright.waits hearly hne)) hasks hright.sent

end Meets

end Program

end Secs

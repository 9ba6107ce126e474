import TptAte.Secs.Agreement

/-! # Loops over calls

A loop that serves message after message ends because every round that asks for
another one has read something. Such a loop sees its stream as bytes, as do the
calls that it makes.
-/

namespace Secs

open Wire Duplex

namespace HsmsSession

variable {α β σ : Type}

/-- An action that has read something if it returns a value of this kind. -/
def Reads (action : SessionM α) (kind : α → Prop) : Prop :=
  ∀ session value session', action.call session = (.ok value, session') → kind value →
    session'.stream.inbound.size < session.stream.inbound.size

/-- An action that never puts anything back to be read. -/
def Keeps (action : SessionM α) : Prop :=
  ∀ session, (action.call session).2.stream.inbound.size ≤ session.stream.inbound.size

theorem keeps_pure (value : α) : Keeps (pure value) := fun _ => Nat.le_refl _

theorem keeps_throw (stop : Stop) : Keeps (throw stop : SessionM α) := fun _ => Nat.le_refl _

theorem keeps_write (message : HsmsMessage) : Keeps (write message) := fun session => by
  rw [write, SessionM.call_mk, inbound_send]

theorem keeps_setState (state : HsmsState) : Keeps (setState state) := fun _ => Nat.le_refl _

/-- Actions that put nothing back put nothing back in sequence. -/
theorem Keeps.bind {first : SessionM α} {next : α → SessionM β} (hfirst : Keeps first)
    (hnext : ∀ value, Keeps (next value)) : Keeps (first >>= next) := by
  intro session
  have hle := hfirst session
  rw [SessionM.call_bind]
  rcases hfirst' : first.call session with ⟨stop | value, middle⟩ <;> rw [hfirst'] at hle
  · exact hle
  · exact (hnext value middle).trans hle

/-- A sequence reads bytes if its first action does. -/
theorem Reads.bind {first : SessionM α} {next : α → SessionM β} {kind : α → Prop}
    {kind' : β → Prop} (hfirst : Reads first kind) (hnext : ∀ value, Keeps (next value))
    (hkind : ∀ value session value' session', (next value).call session = (.ok value', session') →
      kind' value' → kind value) : Reads (first >>= next) kind' := by
  intro session value' session' hcall hvalue'
  obtain ⟨value, middle, hvalue, hlast⟩ := SessionM.call_bind_eq_ok.mp hcall
  have hle := hnext value middle
  rw [hlast] at hle
  exact hle.trans_lt (hfirst _ _ _ hvalue (hkind _ _ _ _ hlast hvalue'))

theorem Reads.map {action : SessionM α} {kind : α → Prop} {kind' : β → Prop} {f : α → β}
    (h : Reads action kind) (hkind : ∀ value, kind' (f value) → kind value) :
    Reads (action >>= fun value => pure (f value)) kind' := by
  refine h.bind (fun _ => keeps_pure _) fun value session value' session' hcall hvalue' => ?_
  cases hcall
  exact hkind value hvalue'

/-- A waiting loop that returns has read a message. -/
theorem reads_await {react : HsmsMessage → Reaction α}
    (hfinish : ∀ message last, react message = .finish last → Keeps last) :
    Reads (await react) fun _ => True := by
  intro session value session' hcall _
  simp only [await, SessionM.call_mk] at hcall
  fun_induction awaitMessage react session with
  | case1 => cases hcall
  | case2 session message middle hreceive last hreact =>
      have hle := hfinish _ _ hreact middle
      rw [hcall] at hle
      exact hle.trans_lt (size_receive hreceive)
  | case3 => cases hcall
  | case4 session message middle hreceive reply hreact next hsend ih =>
      have hsame := inbound_send reply middle
      rw [hsend] at hsame
      rw [hsame] at ih
      exact (ih hcall).trans (size_receive hreceive)

theorem reads_serveOne (makeReply : UInt8 → UInt8 → Option SecsItem → Option SecsItem) :
    Reads (serveOne makeReply) fun _ => True := by
  have hawait : Reads (await (serveReaction makeReply)) fun _ => True := by
    refine reads_await fun message last hreact => ?_
    cases message with
    | data sessionId stream function wBit systemBytes body =>
        cases hreact
        dsimp only
        split
        · split
          · exact (keeps_throw _).bind fun _ => (keeps_write _).bind fun _ => keeps_pure _
          · exact (keeps_write _).bind fun _ => keeps_pure _
        · exact keeps_pure _
    | linktestReq | selectReq => cases hreact
    | separate =>
        cases hreact
        exact (keeps_setState _).bind fun _ => keeps_throw _
    | _ => cases hreact
  intro session value session' hcall _
  by_cases hstate : session.state = .selected
  · rw [serveOne_call hstate] at hcall
    exact hawait _ _ _ hcall trivial
  · rw [serveOne_eq, SessionM.call_bind, SessionM.call_get] at hcall
    dsimp only at hcall
    rw [if_pos hstate] at hcall
    cases hcall

/-! ## Errors as values -/

/-- The outcome of a call whose errors are handed to the caller. -/
def caught : Except Stop α → Except Stop (Except SecsError α)
  | .ok value => .ok (.ok value)
  | .error (.error error) => .ok (.error error)
  | .error .panicked => .error .panicked
  | .error .blocked => .error .blocked

def attempt (action : SessionM α) : SessionM (Except SecsError α) :=
  ExceptT.mk fun session => ((action.call session).1 |> caught, (action.call session).2)

theorem caught_eq_blocked {result : Except Stop α} :
    caught result = .error .blocked ↔ result = .error .blocked := by
  rcases result with (_ | _ | _) | _ <;> simp [caught]

theorem causal_attempt {action : SessionM α} (h : Causal action) : Causal (attempt action) := by
  refine ⟨fun session hfaultless => h.grows session hfaultless,
    fun more session session' hahead => ?_⟩
  obtain ⟨events, events', hgrown, hgrown', hfinal, hcases⟩ := h.continues more _ _ hahead
  refine ⟨events, events', hgrown, hgrown', hfinal, ?_⟩
  rcases hcases with ⟨hsame, rfl, hahead⟩ | ⟨hblocked, hmore, hinitial⟩
  · exact .inl ⟨congrArg caught hsame, rfl, hahead⟩
  · exact .inr ⟨caught_eq_blocked.mpr hblocked, hmore, hinitial⟩

theorem Reads.attempt {action : SessionM α} {kind : α → Prop} (h : Reads action kind) :
    Reads (attempt action) fun result => ∃ value, result = .ok value ∧ kind value := by
  rintro session _ session' hcall ⟨value, rfl, hvalue⟩
  simp only [HsmsSession.attempt, SessionM.call_mk, Prod.mk.injEq] at hcall
  refine h session value session' (Prod.ext ?_ hcall.2) hvalue
  rcases haction : (action.call session).1 with (_ | _ | _) | _ <;> rw [haction] at hcall <;>
    simp_all [caught]

/-! ## Loops -/

/-- Rounds that ask for another one or leave, one after the other. -/
def loopCall (round : σ → SessionM (σ ⊕ α)) (hreads : ∀ state, Reads (round state) (·.isLeft))
    (state : σ) (session : HsmsSession) : Except Stop α × HsmsSession :=
  match _hround : (round state).call session with
  | (.error stop, last) => (.error stop, last)
  | (.ok (.inr value), last) => (.ok value, last)
  | (.ok (.inl next), middle) => loopCall round hreads next middle
termination_by session.stream.inbound.size
decreasing_by exact hreads state _ _ _ _hround rfl

def loop (round : σ → SessionM (σ ⊕ α)) (hreads : ∀ state, Reads (round state) (·.isLeft))
    (state : σ) : SessionM α :=
  ExceptT.mk (loopCall round hreads state)

section Loop

variable {round : σ → SessionM (σ ⊕ α)} {hreads : ∀ state, Reads (round state) (·.isLeft)}

/-- A loop makes one round and then leaves or goes on. -/
theorem loop_eq (state : σ) :
    loop round hreads state = round state >>= fun
      | .inl next => loop round hreads next
      | .inr value => pure value := by
  have hcall (session : HsmsSession) : (loop round hreads state).call session =
      (round state >>= fun
        | .inl next => loop round hreads next
        | .inr value => pure value).call session := by
    rw [loop, SessionM.call_mk, loopCall, SessionM.call_bind]
    split <;> rename_i hround <;> rw [hround] <;> rfl
  exact funext hcall

/-- Rounds that see their stream as bytes make up a loop that does. -/
theorem causal_loop (hround : ∀ state, Causal (round state)) (state : σ) :
    Causal (loop round hreads state) := by
  have hgrows (state : σ) (session : HsmsSession) (h : session.Faultless) :
      ∃ events, Grown events session (loopCall round hreads state session).2 ∧
        (loopCall round hreads state session).2.Faultless := by
    fun_induction loopCall round hreads state session with
    | case1 state session stop last hcall =>
        have hgrown := (hround state).grows session h
        rwa [hcall] at hgrown
    | case2 state session value last hcall =>
        have hgrown := (hround state).grows session h
        rwa [hcall] at hgrown
    | case3 state session next middle hcall ih =>
        obtain ⟨events, hgrown, hmiddle⟩ := (hround state).grows session h
        rw [hcall] at hgrown hmiddle
        obtain ⟨events', hgrown', hfinal⟩ := ih hmiddle
        exact ⟨_, hgrown.trans hgrown', hfinal⟩
  refine ⟨hgrows state, fun more session session' hahead => ?_⟩
  induction hsize : session.stream.inbound.size using Nat.strong_induction_on
    generalizing state session session' with
  | _ size ih =>
      rw [loop_eq]
      refine ((hround state).continues more _ _ hahead).bind ?_
        fun next middle middle' hcall h => ?_
      · rintro (next | value) middle hmiddle
        · exact hgrows next middle hmiddle
        · exact ⟨[], .refl middle, hmiddle⟩
      · cases next with
        | inl next => exact ih _ (hsize ▸ hreads state _ _ _ hcall rfl) next middle middle' h rfl
        | inr value => exact .of_same (.refl _) (.refl _) h

/-- A loop has read something if its rounds have. -/
theorem reads_loop {kind : α → Prop}
    (hleaves : ∀ state, Reads (round state) fun next => ∀ value, next = .inr value → kind value)
    (state : σ) : Reads (loop round hreads state) kind := by
  intro session value session' hcall hvalue
  simp only [loop, SessionM.call_mk] at hcall
  fun_induction loopCall round hreads state session with
  | case1 => cases hcall
  | case2 state session value last hround =>
      cases hcall
      exact hleaves state _ _ _ hround fun _ h => Sum.inr.inj h ▸ hvalue
  | case3 state session next middle hround ih =>
      exact (ih hcall).trans (hreads state _ _ _ hround rfl)

end Loop

end HsmsSession

/-! ## Loops of programs -/

namespace Program

variable {α β σ : Type}

def stop (stop : Stop) : Program α := ⟨throw stop, HsmsSession.causal_throw stop⟩

/-- The value of a computation without calls, or its error. -/
def ofExcept : Except SecsError α → Program α
  | .ok value => pure value
  | .error error => fail error

@[simp] theorem ofExcept_ok (value : α) : ofExcept (.ok value) = pure value := rfl

theorem keeps_ofExcept (result : Except SecsError α) :
    HsmsSession.Keeps (ofExcept result).action := by
  cases result with
  | error error => exact HsmsSession.keeps_throw _
  | ok value => exact HsmsSession.keeps_pure value

def attempt (program : Program α) : Program (Except SecsError α) :=
  ⟨HsmsSession.attempt program.action, HsmsSession.causal_attempt program.causal⟩

def loop (round : σ → Program (σ ⊕ α))
    (hreads : ∀ state, HsmsSession.Reads (round state).action (·.isLeft)) (state : σ) :
    Program α :=
  ⟨HsmsSession.loop (fun state => (round state).action) hreads state,
    HsmsSession.causal_loop (fun state => (round state).causal) state⟩

/-- A loop is a round of it and then, as long as the round says so, the loop again. -/
theorem loop_eq {round : σ → Program (σ ⊕ α)}
    {hreads : ∀ state, HsmsSession.Reads (round state).action (·.isLeft)} (state : σ) :
    loop round hreads state = round state >>= fun
      | .inl next => loop round hreads next
      | .inr value => pure value := by
  refine ext ((HsmsSession.loop_eq state).trans ?_)
  change _ = (round state).action >>= _
  congr 1
  funext next
  cases next <;> rfl

section Meets

variable {left : Program α} {right : Program β} {control control' after after' : Control}
  {value : α} {value' : β}

/-- A program whose errors are looked at takes part in the conversations of the program. -/
theorem Meets.attempt (h : left.Meets control right control' value after value' after') :
    left.attempt.Meets control right control' (.ok value) after value' after' := by
  obtain ⟨arrived, written, htalk, hleft, hright⟩ := h
  have hwaits (read : Bytes) (hnone : (left.process control).result read = none) :
      (left.attempt.process control).result read = none :=
    returned_eq_none.mpr (HsmsSession.caught_eq_blocked.mpr (returned_eq_none.mp hnone))
  refine ⟨arrived, written, ?_, ⟨?_, hleft.sent, hleft.taken, hleft.control⟩, hright⟩
  · exact htalk.of_left (fun _ => rfl) hwaits
  · exact congrArg HsmsSession.caught hleft.returns

/-- One round of a loop that asks for another one. -/
theorem Meets.loop_again {γ δ : Type} {round : σ → Program (σ ⊕ α)}
    {hreads : ∀ state, HsmsSession.Reads (round state).action (·.isLeft)} {state next : σ}
    {middle middle' : Control} {value' : γ} {next' : γ → Program δ} {right : Program γ}
    {result : δ} (h : (round state).Meets control right control' (.inl next) middle value' middle')
    (hnext : (loop round hreads next).Meets middle (next' value') middle' value after result
      after') :
    (loop round hreads state).Meets control (right >>= next') control' value after result
      after' := by
  rw [loop_eq]
  exact h.bind hnext

/-- The round at which a loop leaves. -/
theorem Meets.loop_leaves {round : σ → Program (σ ⊕ α)}
    {hreads : ∀ state, HsmsSession.Reads (round state).action (·.isLeft)} {state : σ}
    (h : (round state).Meets control right control' (.inr value) after value' after') :
    (loop round hreads state).Meets control right control' value after value' after' := by
  rw [loop_eq, ← bind_pure right]
  exact h.bind (meets_pure after after' value value')

end Meets

end Program

end Secs

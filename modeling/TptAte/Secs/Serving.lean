import TptAte.Secs.Loop
import TptAte.Secs.Replies

/-! # Which messages a serving wait answers

A wait that serves primaries deals with its messages one by one: it answers a
message and goes on, or it leaves. The messages that it comes to answer can be told
from what is inbound and from the faults of the writes.
-/

namespace Secs

open Wire

namespace HsmsSession

open HsmsMessage

variable {α : Type} {makeReply : UInt8 → UInt8 → Option SecsItem → Option SecsItem}
  {fails : Stop → Except Stop α}
  {leave : UInt8 × UInt8 × Option SecsItem → Option (Except Stop α)}

/-! ## A wait, message by message -/

/-- A wait at a session and what it ends with. -/
inductive Serves (makeReply : UInt8 → UInt8 → Option SecsItem → Option SecsItem)
    (fails : Stop → Except Stop α)
    (leave : UInt8 × UInt8 × Option SecsItem → Option (Except Stop α)) :
    HsmsSession → Except Stop α × HsmsSession → Prop
  | unread {session after : HsmsSession} {stop : Stop}
      (hreceive : session.receive = (.error stop, after)) :
      Serves makeReply fails leave session (fails stop, after)
  | cut {session middle after : HsmsSession} {message : HsmsMessage} {stop : Stop}
      (hreceive : session.receive = (.ok message, middle)) (hcuts : message.Cuts makeReply)
      (hstream : after.stream = middle.stream) :
      Serves makeReply fails leave session (fails stop, after)
  | unanswered {session middle after : HsmsSession} {message : HsmsMessage} {stop : Stop}
      (hreceive : session.receive = (.ok message, middle)) (hcuts : ¬ message.Cuts makeReply)
      (hsend : sendReply (message.replyTo makeReply) middle = (.error stop, after)) :
      Serves makeReply fails leave session (fails stop, after)
  | left {session middle after : HsmsSession} {message : HsmsMessage} {result : Except Stop α}
      (hreceive : session.receive = (.ok message, middle)) (hcuts : ¬ message.Cuts makeReply)
      (hsend : sendReply (message.replyTo makeReply) middle = (.ok (), after))
      (hleave : message.served.bind leave = some result) :
      Serves makeReply fails leave session (result, after)
  | goes {session middle after : HsmsSession} {message : HsmsMessage}
      {ending : Except Stop α × HsmsSession}
      (hreceive : session.receive = (.ok message, middle)) (hcuts : ¬ message.Cuts makeReply)
      (hsend : sendReply (message.replyTo makeReply) middle = (.ok (), after))
      (hleave : message.served.bind leave = none)
      (hnext : Serves makeReply fails leave after ending) :
      Serves makeReply fails leave session ending

def afterServing (wait : SessionM α) (fails : Stop → Except Stop α)
    (leave : UInt8 × UInt8 × Option SecsItem → Option (Except Stop α)) :
    Except Stop (UInt8 × UInt8 × Option SecsItem) × HsmsSession → Except Stop α × HsmsSession
  | (.error stop, after) => (fails stop, after)
  | (.ok served, after) =>
      match leave served with
      | some result => (result, after)
      | none => wait.call after

/-- A wait that serves one primary after the other goes message by message. -/
theorem serves_of_call {wait : SessionM α}
    (hcall : ∀ session : HsmsSession, session.state = .selected →
      wait.call session = afterServing wait fails leave ((serveOne makeReply).call session))
    {session : HsmsSession} (hselected : session.state = .selected) :
    Serves makeReply fails leave session (wait.call session) := by
  induction hsize : session.stream.inbound.size using Nat.strong_induction_on
    generalizing session with
  | _ size ih =>
      rw [hcall session hselected]
      rcases hreceive : session.receive with ⟨stop | message, middle⟩
      · rw [serveOne_call hselected, awaitMessage_eq, hreceive]
        exact .unread hreceive
      have hmiddle : middle.state = .selected :=
        (received_of_receive hreceive).same.state.trans hselected
      by_cases hcuts : message.Cuts makeReply
      · obtain ⟨stop, after, hserve, hstream⟩ := serveOne_of_cuts hselected hreceive hcuts
        rw [hserve]
        exact .cut hreceive hcuts hstream
      rw [serveOne_of_not_cuts hselected hreceive hcuts]
      rcases hsend : sendReply (message.replyTo makeReply) middle with ⟨stop | ⟨⟩, after⟩
      · exact .unanswered hreceive hcuts hsend
      obtain ⟨hstate, hinbound⟩ := sendReply_ok hsend
      have hafter := hstate.trans hmiddle
      have hnext := ih _ (hsize ▸ hinbound ▸ size_receive hreceive) hafter rfl
      cases hserved : message.served with
      | none =>
          rw [hcall after hafter] at hnext
          exact .goes hreceive hcuts hsend (by rw [hserved]; rfl) hnext
      | some value =>
          dsimp only [afterServing]
          cases hleave : leave value with
          | some result => exact .left hreceive hcuts hsend (by rw [hserved]; exact hleave)
          | none => exact .goes hreceive hcuts hsend (by rw [hserved]; exact hleave) hnext

/-- What one round of a serving loop ends with. -/
def roundAfter (fails : Stop → Except Stop α)
    (leave : UInt8 × UInt8 × Option SecsItem → Option (Except Stop α)) :
    Except Stop (UInt8 × UInt8 × Option SecsItem) × HsmsSession →
      Except Stop (Unit ⊕ α) × HsmsSession
  | (.error stop, after) => ((fails stop).map .inr, after)
  | (.ok served, after) =>
      match leave served with
      | some result => (result.map .inr, after)
      | none => (.ok (.inl ()), after)

/-- A loop whose rounds serve one primary each. -/
theorem serves_loop {round : Unit → SessionM (Unit ⊕ α)}
    {hreads : ∀ state, Reads (round state) (·.isLeft)}
    (hround : ∀ session : HsmsSession,
      (round ()).call session = roundAfter fails leave ((serveOne makeReply).call session))
    {session : HsmsSession} (hselected : session.state = .selected) :
    Serves makeReply fails leave session ((loop round hreads ()).call session) := by
  refine serves_of_call (fun session _ => ?_) hselected
  conv_lhs => rw [loop_eq]
  rw [SessionM.call_bind, hround]
  rcases (serveOne makeReply).call session with ⟨stop | served, after⟩
  · rw [roundAfter, afterServing]
    cases fails stop <;> rfl
  · dsimp only [roundAfter, afterServing]
    cases leave served with
    | none => rfl
    | some result => cases result <;> rfl

/-! ## The messages that a wait comes to -/

/-- A wait goes on behind the message. -/
def GoesOn (makeReply : UInt8 → UInt8 → Option SecsItem → Option SecsItem)
    (leave : UInt8 × UInt8 × Option SecsItem → Option (Except Stop α)) (message : HsmsMessage) :
    Prop :=
  ¬ message.Cuts makeReply ∧ message.served.bind leave = none

/-- With these faults of the writes, a wait over the messages comes to one of them
and can write in answer to it: it goes on behind each in front, and no write fails. -/
def ComesTo (makeReply : UInt8 → UInt8 → Option SecsItem → Option SecsItem)
    (leave : UInt8 × UInt8 × Option SecsItem → Option (Except Stop α))
    (faults : List (Option ErrorKind)) (messages : List HsmsMessage) (message : HsmsMessage) :
    Prop :=
  ∃ front rest, messages = front ++ message :: rest ∧
    (∀ earlier ∈ front, GoesOn makeReply leave earlier) ∧
    ∀ fault ∈ faults.take (front.countP (fun earlier => (earlier.replyTo makeReply).isSome) + 1),
      fault = none

theorem not_comesTo_nil {faults : List (Option ErrorKind)} {message : HsmsMessage} :
    ¬ ComesTo makeReply leave faults [] message := by
  rintro ⟨front, rest, hmessages, -⟩
  simp at hmessages

theorem forall_mem_take_succ {faults : List (Option ErrorKind)} {count : Nat} :
    (∀ fault ∈ faults.take (count + 1), fault = none) ↔
      (∀ fault ∈ faults.take 1, fault = none) ∧ ∀ fault ∈ faults.tail.take count, fault = none := by
  cases faults <;> simp

/-- A wait comes to the first message, or goes on behind it and comes to a later one. -/
theorem comesTo_cons {faults : List (Option ErrorKind)} {first message : HsmsMessage}
    {messages : List HsmsMessage} :
    ComesTo makeReply leave faults (first :: messages) message ↔
      (first = message ∧ ∀ fault ∈ faults.take 1, fault = none) ∨
      GoesOn makeReply leave first ∧
        if (first.replyTo makeReply).isSome then
          (∀ fault ∈ faults.take 1, fault = none) ∧
            ComesTo makeReply leave faults.tail messages message
        else ComesTo makeReply leave faults messages message := by
  constructor
  · rintro ⟨_ | ⟨earlier, front⟩, rest, hmessages, hfront, hfaults⟩
    · obtain ⟨rfl, -⟩ := List.cons.inj hmessages
      exact .inl ⟨rfl, hfaults⟩
    · obtain ⟨rfl, rfl⟩ := List.cons.inj hmessages
      obtain ⟨hgoes, hfront⟩ := List.forall_mem_cons.mp hfront
      refine .inr ⟨hgoes, ?_⟩
      rw [List.countP_cons] at hfaults
      split
      next hreplied =>
        rw [if_pos hreplied] at hfaults
        obtain ⟨hfirst, hothers⟩ := forall_mem_take_succ.mp hfaults
        exact ⟨hfirst, front, rest, rfl, hfront, hothers⟩
      next hreplied =>
        rw [if_neg hreplied] at hfaults
        exact ⟨front, rest, rfl, hfront, hfaults⟩
  · rintro (⟨rfl, hfaults⟩ | ⟨hgoes, hlater⟩)
    · exact ⟨[], messages, rfl, by simp, hfaults⟩
    · split at hlater
      next hreplied =>
        obtain ⟨hfirst, front, rest, rfl, hfront, hothers⟩ := hlater
        refine ⟨first :: front, rest, rfl, List.forall_mem_cons.mpr ⟨hgoes, hfront⟩, ?_⟩
        rw [List.countP_cons, if_pos hreplied]
        exact forall_mem_take_succ.mpr ⟨hfirst, hothers⟩
      next hreplied =>
        obtain ⟨front, rest, rfl, hfront, hfaults⟩ := hlater
        refine ⟨first :: front, rest, rfl, List.forall_mem_cons.mpr ⟨hgoes, hfront⟩, ?_⟩
        rw [List.countP_cons, if_neg hreplied]
        exact hfaults

/-! ## The messages that a wait answers -/

/-- Every reply of the session can be written. -/
def Encodes (makeReply : UInt8 → UInt8 → Option SecsItem → Option SecsItem) : Prop :=
  ∀ message reply : HsmsMessage, message.replyTo makeReply = some reply → reply.toBytes.isSome

/-- What a reply that is written, if there is one, does at a session. -/
structure Replied (reply : Option HsmsMessage) (session session' : HsmsSession) : Prop where
  frames : session'.frames = session.frames
  log : session'.stream.log = session.stream.log ++ reply.toList.map .wrote
  faults : session'.stream.faults =
    if reply.isSome then session.stream.faults.tail else session.stream.faults
  succeeds : reply.isSome → ∀ fault ∈ session.stream.faults.take 1, fault = none

/-- A reply that was sent is in the log. -/
theorem replied_of_sendReply {reply : Option HsmsMessage} {session after : HsmsSession}
    (hsend : sendReply reply session = (.ok (), after)) : Replied reply session after := by
  cases reply with
  | none =>
      cases hsend
      exact ⟨rfl, by simp, rfl, by simp⟩
  | some reply =>
      have hsent := sent_of_send hsend
      exact ⟨hsent.frames, hsent.log, hsent.faults, fun _ => hsent.succeeds⟩

theorem frames_of_unread {session after : HsmsSession} {stop : Stop}
    (hreceive : session.receive = (.error stop, after)) : session.frames = [] := by
  cases hframes : session.frames with
  | nil => rfl
  | cons message rest =>
      obtain ⟨middle, hmessage⟩ := receive_of_frames hframes
      rw [hreceive] at hmessage
      cases hmessage

/-- The events of one message: only the message itself is answered among them. -/
theorem replies_message_iff {events : List Event} {first message reply : HsmsMessage}
    (hreply : message.replyTo makeReply = some reply) :
    Replies (.read first :: ((first.replyTo makeReply).toList.map .wrote ++ events)) message reply ↔
      first = message ∨ Replies events message reply := by
  rw [replies_read_iff]
  cases hfirst : first.replyTo makeReply with
  | none =>
      have hne : first ≠ message := by
        rintro rfl
        rw [hfirst] at hreply
        cases hreply
      simp [hne]
  | some written =>
      simp only [Option.toList_some, List.map_cons, List.map_nil, List.cons_append, List.nil_append,
        replies_wrote_iff]
      constructor
      · rintro (⟨hsame, -⟩ | hlater)
        · exact .inl hsame
        · exact .inr hlater
      · rintro (rfl | hlater)
        · rw [hfirst] at hreply
          cases hreply
          exact .inl ⟨rfl, events, rfl⟩
        · exact .inr hlater

/-- Where the reply to the first message cannot be written a wait comes to nothing. -/
theorem not_comesTo_of_unanswered (hencodes : Encodes makeReply)
    {session middle after : HsmsSession} {first message : HsmsMessage} {stop : Stop}
    (hreceive : session.receive = (.ok first, middle))
    (hsend : sendReply (first.replyTo makeReply) middle = (.error stop, after)) :
    ¬ ComesTo makeReply leave session.stream.faults session.frames message := by
  obtain ⟨written, hwritten, hfailed⟩ := isSome_of_sendReply hsend
  have hreceived := received_of_receive hreceive
  have hfaults : ¬ ∀ fault ∈ session.stream.faults.take 1, fault = none := by
    intro hnone
    obtain ⟨sent, hsent⟩ := @send_of_succeeds middle written
      (by rwa [WritesSucceed, hreceived.faults]) (hencodes first written hwritten)
    rw [hfailed] at hsent
    cases hsent
  rw [hreceived.frames, comesTo_cons, hwritten]
  rintro (⟨-, hnone⟩ | ⟨-, hnone, -⟩)
  · exact hfaults hnone
  · exact hfaults hnone

/-- At a message where it leaves a wait does not go on. -/
theorem not_goesOn_of_leaves {first : HsmsMessage} {result : Except Stop α}
    (hleave : first.served.bind leave = some result) : ¬ GoesOn makeReply leave first := by
  intro hgoes
  rw [hgoes.2] at hleave
  cases hleave

section

variable {session middle after : HsmsSession} {first message : HsmsMessage}
  (hreceive : session.receive = (.ok first, middle))

include hreceive

/-- At a message where it stays a wait comes to nothing else. -/
theorem comesTo_stays_iff (hstays : ¬ GoesOn makeReply leave first) :
    ComesTo makeReply leave session.stream.faults session.frames message ↔
      first = message ∧ ∀ fault ∈ session.stream.faults.take 1, fault = none := by
  rw [(received_of_receive hreceive).frames, comesTo_cons]
  apply or_iff_left
  intro hlater
  exact hstays hlater.1

/-- Behind a message that it has answered a wait comes to what the rest of it comes to. -/
theorem comesTo_goesOn_iff (hgoes : GoesOn makeReply leave first)
    (hsend : sendReply (first.replyTo makeReply) middle = (.ok (), after)) :
    ComesTo makeReply leave session.stream.faults session.frames message ↔
      (first = message ∧ ∀ fault ∈ session.stream.faults.take 1, fault = none) ∨
        ComesTo makeReply leave after.stream.faults after.frames message := by
  have hreceived := received_of_receive hreceive
  have hreplied := replied_of_sendReply hsend
  have hsucceeds := hreceived.faults ▸ hreplied.succeeds
  rw [hreceived.frames, comesTo_cons, hreplied.frames, hreplied.faults, hreceived.faults,
    and_iff_right hgoes]
  apply or_congr_right
  split
  next hsome => exact and_iff_right (hsucceeds hsome)
  next => exact Iff.rfl

end

/-- A wait writes a reply to exactly the messages that it comes to. -/
theorem Serves.replies {session : HsmsSession} {ending : Except Stop α × HsmsSession}
    (h : Serves makeReply fails leave session ending) :
    ∃ events, ending.2.stream.log = session.stream.log ++ events ∧
      ∀ message reply, ¬ message.Cuts makeReply → message.replyTo makeReply = some reply →
        (Replies events message reply →
          ComesTo makeReply leave session.stream.faults session.frames message) ∧
        (Encodes makeReply →
          ComesTo makeReply leave session.stream.faults session.frames message →
            Replies events message reply) := by
  induction h with
  | unread hreceive =>
      refine ⟨[], by rw [(unread_receive hreceive).1.log], fun message reply _ _ =>
        ⟨fun h => (not_replies_nil h).elim, fun _ h => ?_⟩⟩
      -- nothing more arrives, so that the session comes to no message
      rw [frames_of_unread hreceive] at h
      exact (not_comesTo_nil h).elim
  | @cut session middle after first stop hreceive hcuts hstream =>
      refine ⟨[.read first], by rw [hstream]; exact (received_of_receive hreceive).log,
        fun message reply hanswered hreply => ⟨fun h => ?_, fun _ h => ?_⟩⟩
      · simp [replies_read_iff, not_replies_nil] at h
      -- the message that ends the session is the only one it comes to, and has no answer
      · obtain ⟨rfl, -⟩ := (comesTo_stays_iff hreceive fun hgoes => hgoes.1 hcuts).mp h
        exact (hanswered hcuts).elim
  | @unanswered session middle after first stop hreceive hcuts hsend =>
      obtain ⟨written, -, hfailed⟩ := isSome_of_sendReply hsend
      have hreceived := received_of_receive hreceive
      refine ⟨[.read first], by rw [(unsent_send hfailed).1.log, hreceived.log]; simp,
        fun message reply hanswered hreply => ⟨fun h => ?_, fun hencodes h => ?_⟩⟩
      · simp [replies_read_iff, not_replies_nil] at h
      · exact (not_comesTo_of_unanswered hencodes hreceive hsend h).elim
  | @left session middle after first result hreceive hcuts hsend hleave =>
      have hreceived := received_of_receive hreceive
      have hreplied := replied_of_sendReply hsend
      refine ⟨.read first :: ((first.replyTo makeReply).toList.map .wrote ++ []),
        by rw [hreplied.log, hreceived.log]; simp, fun message reply hanswered hreply => ?_⟩
      rw [replies_message_iff hreply,
        comesTo_stays_iff hreceive (not_goesOn_of_leaves hleave)]
      constructor
      · rintro (rfl | hlater)
        · exact ⟨rfl, hreceived.faults ▸ hreplied.succeeds (by rw [hreply]; rfl)⟩
        · exact (not_replies_nil hlater).elim
      · intro _ hcomes
        exact .inl hcomes.1
  | @goes session middle after first ending hreceive hcuts hsend hleave _ ih =>
      obtain ⟨events, hlog, hreplies⟩ := ih
      -- the first message is answered, and the rest of the log answers for the others
      have hreceived := received_of_receive hreceive
      have hreplied := replied_of_sendReply hsend
      refine ⟨.read first :: ((first.replyTo makeReply).toList.map .wrote ++ events),
        by rw [hlog, hreplied.log, hreceived.log]; simp, fun message reply hanswered hreply => ?_⟩
      obtain ⟨hcomes, hwrites⟩ := hreplies message reply hanswered hreply
      rw [replies_message_iff hreply, comesTo_goesOn_iff hreceive ⟨hcuts, hleave⟩ hsend]
      constructor
      · rintro (rfl | hlater)
        · exact .inl ⟨rfl, hreceived.faults ▸ hreplied.succeeds (by rw [hreply]; rfl)⟩
        · exact .inr (hcomes hlater)
      · rintro hencodes (⟨hsame, -⟩ | hlater)
        · exact .inl hsame
        · exact .inr (hwrites hencodes hlater)

/-- A wait that comes to a message at which it leaves ends with what it leaves with. -/
theorem Serves.result {session : HsmsSession} {ending : Except Stop α × HsmsSession}
    (h : Serves makeReply fails leave session ending) (hencodes : Encodes makeReply)
    {message : HsmsMessage} {result : Except Stop α} (hcuts : ¬ message.Cuts makeReply)
    (hreply : (message.replyTo makeReply).isSome) (hleave : message.served.bind leave = some result)
    (hcomes : ComesTo makeReply leave session.stream.faults session.frames message) :
    ending.1 = result := by
  induction h with
  | unread hreceive =>
      rw [frames_of_unread hreceive] at hcomes
      exact (not_comesTo_nil hcomes).elim
  | cut hreceive hfirst hstream =>
      rw [comesTo_stays_iff hreceive fun hgoes => hgoes.1 hfirst] at hcomes
      exact (hcuts (hcomes.1 ▸ hfirst)).elim
  | unanswered hreceive _ hsend =>
      exact (not_comesTo_of_unanswered hencodes hreceive hsend hcomes).elim
  | left hreceive hfirst hsend hfirstLeave =>
      rw [comesTo_stays_iff hreceive (not_goesOn_of_leaves hfirstLeave)] at hcomes
      obtain ⟨rfl, -⟩ := hcomes
      exact Option.some.inj (hfirstLeave.symm.trans hleave)
  | goes hreceive hfirst hsend hfirstLeave _ ih =>
      rw [comesTo_goesOn_iff hreceive ⟨hfirst, hfirstLeave⟩ hsend] at hcomes
      rcases hcomes with ⟨rfl, -⟩ | hlater
      · rw [hleave] at hfirstLeave
        cases hfirstLeave
      · exact ih hlater

/-- The events of a message that is read and answered. -/
def answered (makeReply : UInt8 → UInt8 → Option SecsItem → Option SecsItem)
    (message : HsmsMessage) : List Event :=
  .read message :: (message.replyTo makeReply).toList.map .wrote

/-- One message answered is one read and one reply in the log. -/
theorem log_of_answered {session middle after : HsmsSession} {message : HsmsMessage}
    (hreceive : session.receive = (.ok message, middle))
    (hsend : sendReply (message.replyTo makeReply) middle = (.ok (), after)) :
    after.stream.log = session.stream.log ++ answered makeReply message := by
  rw [(replied_of_sendReply hsend).log, (received_of_receive hreceive).log, List.append_assoc]
  rfl

/-- A wait that ends with none of its failures has answered each of its messages, and leaves at
the last of them. -/
theorem Serves.leaves {session : HsmsSession} {ending : Except Stop α × HsmsSession}
    (h : Serves makeReply fails leave session ending) (hends : ∀ stop, ending.1 ≠ fails stop) :
    ∃ front message, ending.2.stream.log =
        session.stream.log ++ (front ++ [message]).flatMap (answered makeReply) ∧
      message.served.bind leave = some ending.1 := by
  induction h with
  | unread => exact (hends _ rfl).elim
  | cut => exact (hends _ rfl).elim
  | unanswered => exact (hends _ rfl).elim
  | @left session middle after message result hreceive _ hsend hleave =>
      refine ⟨[], message, ?_, hleave⟩
      simpa using log_of_answered hreceive hsend
  | @goes session middle after first ending hreceive _ hsend _ _ ih =>
      obtain ⟨front, message, hlog, hleave⟩ := ih hends
      refine ⟨first :: front, message, ?_, hleave⟩
      rw [hlog, log_of_answered hreceive hsend, List.cons_append, List.flatMap_cons,
        List.append_assoc]

end HsmsSession

end Secs

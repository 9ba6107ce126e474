import Mathlib.Data.List.Forall2
import TptAte.Secs.Transparent
import TptAte.Secs.Flight

/-! # Two sessions that serve one another

Both parties of a connection wait for a primary while control frames are in flight
between them. Each turn of `serveOne` reads one frame and writes at most one; what
is in flight keeps step with its kinds.
-/

namespace Secs

open Wire Duplex

def HsmsMessage.kind : HsmsMessage → Option Kind
  | .data _ _ _ _ _ _ => none
  | .selectReq _ | .linktestReq _ => some .request
  | .selectRsp _ _ | .linktestRsp _ => some .answer
  | .separate _ => some .separate
  | .reject _ _ _ _ => some .reject

def Frame.IsOf (frame : Frame) (kind : Kind) : Prop :=
  ∃ message, frame.decode = .ok message ∧ message.kind = some kind

def AreOf (bytes : Bytes) (kinds : List Kind) : Prop :=
  ∃ frames : List Frame, bytes = frames.flatMap Frame.bytes ∧
    List.Forall₂ Frame.IsOf frames kinds

theorem areOf_nil : AreOf [] [] := ⟨[], rfl, .nil⟩

theorem AreOf.append {bytes bytes' : Bytes} {kinds kinds' : List Kind} (h : AreOf bytes kinds)
    (h' : AreOf bytes' kinds') : AreOf (bytes ++ bytes') (kinds ++ kinds') := by
  obtain ⟨frames, rfl, hframes⟩ := h
  obtain ⟨frames', rfl, hframes'⟩ := h'
  exact ⟨frames ++ frames', by rw [List.flatMap_append], List.rel_append hframes hframes'⟩

namespace HsmsSession

variable {makeReply : UInt8 → UInt8 → Option SecsItem → Option SecsItem}

/-- One turn of the loop of `serveOne`: whether it goes on, and the session behind
it. There is no turn while the stream has delivered no whole message. -/
def serveTurn (makeReply : UInt8 → UInt8 → Option SecsItem → Option SecsItem)
    (session : HsmsSession) : Option (Bool × HsmsSession) :=
  match session.receive with
  | (.error .blocked, _) => none
  | (.error _, after) => some (false, after)
  | (.ok message, middle) =>
      match serveReaction makeReply message with
      | .finish last => some (false, (last.call middle).2)
      | .answer reply =>
          match middle.send reply with
          | (.error _, failed) => some (false, failed)
          | (.ok (), next) => some (true, next)

/-- The loop is made of its turns. -/
theorem awaitMessage_serveTurn (session : HsmsSession) :
    match serveTurn makeReply session with
    | none => (awaitMessage (serveReaction makeReply) session).1 = .error .blocked
    | some (true, next) => awaitMessage (serveReaction makeReply) session =
        awaitMessage (serveReaction makeReply) next
    | some (false, final) => (awaitMessage (serveReaction makeReply) session).2 = final := by
  rw [awaitMessage_eq, serveTurn]
  rcases session.receive with ⟨stop | message, middle⟩
  · cases stop <;> rfl
  · dsimp only
    cases serveReaction makeReply message with
    | finish last => rfl
    | answer reply =>
        dsimp only
        rcases middle.send reply with ⟨stop | ⟨⟩, next⟩ <;> rfl

/-- What `serveOne` does with a control message. -/
theorem serveReaction_of_kind {message : HsmsMessage} {kind : Kind}
    (hkind : message.kind = some kind) :
    (kind = .separate ∧ ∃ last, serveReaction makeReply message = .finish last ∧
      ∀ session : HsmsSession,
        (last.call session).2 = { session with state := .connectedNotSelected }) ∨
    ∃ reply kind', kind.reply = some kind' ∧ serveReaction makeReply message = .answer reply ∧
      reply.IsAnswer ∧ reply.kind = some kind' := by
  cases message with
  | data => cases hkind
  | separate =>
      cases hkind
      exact .inl ⟨rfl, _, rfl, fun _ => rfl⟩
  | _ =>
      cases hkind
      exact .inr ⟨_, _, rfl, rfl, trivial, rfl⟩

/-- An answer is a frame of its kind. -/
theorem areOf_answer {reply : HsmsMessage} {kind : Kind} (hanswer : reply.IsAnswer)
    (hkind : reply.kind = some kind) :
    ∃ bytes, reply.toBytes = some bytes ∧ AreOf bytes [kind] := by
  have hsendable : reply.Sendable := by
    cases reply with
    | data => exact hanswer.elim
    | _ => trivial
  obtain ⟨frame, hbytes, hdecode⟩ := exists_frame_onWire hsendable
  refine ⟨frame.bytes, hbytes, [frame], by simp, .cons ⟨reply.onWire, hdecode, ?_⟩ .nil⟩
  rw [← hkind]
  cases reply <;> rfl

end HsmsSession

/-- A session that is in `serveOne`, or has left it. -/
structure Party where
  session : HsmsSession
  serving : Bool

namespace Party

variable {makeReply : UInt8 → UInt8 → Option SecsItem → Option SecsItem}

/-- A turn of the loop, with the bytes that it writes. -/
def act (makeReply : UInt8 → UInt8 → Option SecsItem → Option SecsItem) (party : Party) :
    Option (Party × Bytes) :=
  if party.serving then
    (HsmsSession.serveTurn makeReply party.session).map fun (serving, session) =>
      (⟨session, serving⟩, session.stream.sent.drop party.session.stream.sent.length)
  else none

def deliver (bytes : Bytes) (party : Party) : Party :=
  { party with
    session := party.session.withInbound party.session.stream.closed
      (party.session.stream.inbound ++ .whole bytes) }

structure Holds (party : Party) (inbox : Inbox) : Prop where
  serving : party.serving = inbox.serving
  faultless : party.session.Faultless
  isOpen : party.session.stream.closed = false
  inFlight : AreOf party.session.stream.inbound.bytes inbox.kinds

/-- Bytes that are frames of these kinds arrive as messages of these kinds. -/
theorem Holds.deliver {party : Party} {inbox : Inbox} (h : Holds party inbox) {bytes : Bytes}
    {kinds : List Kind} (hbytes : AreOf bytes kinds) :
    Holds (party.deliver bytes) (inbox.deliver kinds) := by
  refine ⟨h.serving, ⟨h.faultless.clean.append (Source.clean_whole bytes), h.faultless.faults⟩,
    h.isOpen, ?_⟩
  have hall := h.inFlight.append hbytes
  rwa [← Source.bytes_whole bytes, ← Source.bytes_append] at hall

/-- What a party receives is of the first kind in flight. -/
theorem Holds.receive {party : Party} {serving : Bool} {kinds : List Kind}
    (h : Holds party ⟨serving, kinds⟩) :
    match kinds with
    | [] => ∃ after, party.session.receive = (.error .blocked, after)
    | kind :: kinds => ∃ message after, party.session.receive = (.ok message, after) ∧
        message.kind = some kind ∧ after.Faultless ∧ after.stream.closed = false ∧
        AreOf after.stream.inbound.bytes kinds := by
  obtain ⟨frames, hbytes, hframes⟩ := h.inFlight
  cases hframes with
  | nil => exact HsmsSession.receive_nil h.faultless h.isOpen hbytes
  | cons hframe hrest =>
      obtain ⟨message, hdecode, hkind⟩ := hframe
      rw [List.flatMap_cons] at hbytes
      obtain ⟨after, hreceive, hafter, hafterBytes, hclosed⟩ :=
        HsmsSession.receive_frame h.faultless hbytes
      rw [Frame.result, hdecode] at hreceive
      exact ⟨message, after, hreceive, hkind, hafter, hclosed.trans h.isOpen, _, hafterBytes, hrest⟩

/-- A turn of a party keeps step with the frames in flight to it. -/
theorem Holds.act {party : Party} {inbox : Inbox} (h : Holds party inbox) :
    Option.Rel (fun acted acted' => Holds acted.1 acted'.1 ∧ AreOf acted.2 acted'.2)
      (party.act makeReply) inbox.act := by
  obtain ⟨session, serving⟩ := party
  obtain ⟨serving', kinds⟩ := inbox
  obtain rfl : serving = serving' := h.serving
  cases serving with
  | false => exact .none
  | true =>
      have hreceive := h.receive
      cases kinds with
      | nil =>
          obtain ⟨after, hreceive⟩ := hreceive
          simp only [Party.act, HsmsSession.serveTurn, hreceive]
          exact .none
      | cons kind kinds =>
          obtain ⟨message, after, hreceive, hkind, hafter, hopen, hrest⟩ := hreceive
          have hread := (HsmsSession.grown_receive hreceive).sent
          -- the message ends the service, or it is answered by one of the kind that answers its
          -- kind
          rcases @HsmsSession.serveReaction_of_kind makeReply _ _ hkind with
            ⟨rfl, last, hreact, hlast⟩ | ⟨reply, kind', hreply, hreact, hanswer, hkind'⟩
          · simp only [Party.act, HsmsSession.serveTurn, hreceive, hreact, hlast]
            refine .some ⟨⟨rfl, ⟨hafter.clean, hafter.faults⟩, hopen, hrest⟩, ?_⟩
            simp [hread, HsmsSession.sentBytes, Kind.reply, areOf_nil]
          · obtain ⟨bytes, hbytes, hare⟩ := HsmsSession.areOf_answer hanswer hkind'
            have hseparate : kind ≠ .separate := by
              rintro rfl
              cases hreply
            have hsend := hafter.send reply
            rw [hbytes] at hsend
            simp only [Party.act, HsmsSession.serveTurn, hreceive, hreact, hsend]
            refine .some ⟨⟨by simp [hseparate], ⟨hafter.clean, hafter.faults⟩, hopen, hrest⟩, ?_⟩
            simpa [HsmsSession.havingSent, hread, HsmsSession.sentBytes, hreply] using hare

end Party

/-- Two sessions that read what the other writes. -/
abbrev Link := Pair Party

namespace Link

/-- The replies that the two parties would make. -/
abbrev Replies := Side → UInt8 → UInt8 → Option SecsItem → Option SecsItem

def step (makeReply : Replies) : Side → Link → Option Link :=
  Pair.step (fun side => Party.act (makeReply side)) Party.deliver

end Link

/-- A party is about to answer a Reject with a Reject. -/
def Party.Echoes (makeReply : UInt8 → UInt8 → Option SecsItem → Option SecsItem)
    (party : Party) : Prop :=
  party.serving = true ∧ ∃ message answer after,
    party.session.receive = (.ok message, after) ∧ message.kind = some .reject ∧
      HsmsSession.serveReaction makeReply message = .answer answer ∧ answer.kind = some .reject

namespace Link

variable {makeReply : Replies}

def Holds (link : Link) (flight : Flight) : Prop :=
  link.left.Holds flight.left ∧ link.right.Holds flight.right

/-- The parties do what the kinds of their messages do, step by step. -/
theorem lockstep : Lockstep (step makeReply) Flight.step Holds :=
  Pair.lockstep (fun _ _ _ h => h.act) fun _ _ _ _ hbytes h => h.deliver hbytes

/-- Every run between the two parties is finite, and in none of them a Reject is
answered with a Reject. -/
def Settles (makeReply : Replies) (link : Link) : Prop :=
  Terminates (step makeReply) link ∧ ∀ link', Reaches (step makeReply) link link' →
    ¬ link'.left.Echoes (makeReply .left) ∧ ¬ link'.right.Echoes (makeReply .right)

/-- A party is about to answer a rejection with one exactly if one is the next to be read. -/
theorem echoes_iff {party : Party} {inbox : Inbox} (h : party.Holds inbox)
    (makeReply : UInt8 → UInt8 → Option SecsItem → Option SecsItem) :
    party.Echoes makeReply ↔ ∃ kinds, inbox = ⟨true, .reject :: kinds⟩ := by
  obtain ⟨serving, kinds⟩ := inbox
  have hreceive := h.receive
  constructor
  · rintro ⟨hserving, message, answer, after, hmessage, hkind, -, -⟩
    obtain rfl : serving = true := h.serving.symm.trans hserving
    cases kinds with
    | nil =>
        obtain ⟨other, hblocked⟩ := hreceive
        cases hmessage.symm.trans hblocked
    | cons kind kinds =>
        obtain ⟨message', other, hreceive, hkind', -⟩ := hreceive
        cases hmessage.symm.trans hreceive
        cases hkind.symm.trans hkind'
        exact ⟨kinds, rfl⟩
  · rintro ⟨kinds', hinbox⟩
    cases hinbox
    obtain ⟨message, after, hreceive, hkind, -⟩ := hreceive
    rcases @HsmsSession.serveReaction_of_kind makeReply _ _ hkind with
      ⟨hseparate, -⟩ | ⟨reply, kind', hreply, hreact, -, hkind'⟩
    · cases hseparate
    · cases hreply
      exact ⟨h.serving, message, reply, after, hreceive, hkind, hreact, hkind'⟩

/-- A link settles exactly if the kinds in flight do. -/
theorem settles_iff_flight {link : Link} {flight : Flight} (h : Holds link flight) :
    Settles makeReply link ↔ Terminates Flight.step flight ∧ Flight.Silent flight := by
  refine and_congr (lockstep.terminates_iff h) ⟨fun hlink flight' hreaches => ?_,
    fun hflight link' hreaches => ?_⟩
  · obtain ⟨link', hlink', hleft, hright⟩ := lockstep.reaches_back h hreaches
    obtain ⟨hnotLeft, hnotRight⟩ := hlink link' hlink'
    rintro (hechoes | hechoes)
    · exact hnotLeft ((echoes_iff hleft _).mpr hechoes)
    · exact hnotRight ((echoes_iff hright _).mpr hechoes)
  · obtain ⟨flight', hflight', hleft, hright⟩ := lockstep.reaches h hreaches
    exact ⟨fun hechoes => hflight flight' hflight' (.inl ((echoes_iff hleft _).mp hechoes)),
      fun hechoes => hflight flight' hflight' (.inr ((echoes_iff hright _).mp hechoes))⟩

/-- Between two sessions that both wait in `serveOne`, with control frames in flight
to each, all runs are finite and no Reject is answered with a Reject exactly if
what is in flight is quiet. -/
theorem settles_iff (makeReply : Replies) {link : Link} {toLeft toRight : List Kind}
    (hleft : link.left.Holds ⟨true, toLeft⟩) (hright : link.right.Holds ⟨true, toRight⟩) :
    Settles makeReply link ↔ Flight.Quiet toLeft toRight :=
  (settles_iff_flight ⟨hleft, hright⟩).trans Flight.quiet_iff

/-- Two selected sessions, with some bytes in flight to each. -/
def selectedLink (toLeft toRight : Bytes) : Link :=
  ⟨⟨{ HsmsSession.freshSession toLeft with state := .selected }, true⟩,
    ⟨{ HsmsSession.freshSession toRight with state := .selected }, true⟩⟩

theorem holds_selectedLink {toLeft toRight : Bytes} {left right : List Kind}
    (hleft : AreOf toLeft left) (hright : AreOf toRight right) :
    Holds (selectedLink toLeft toRight) ⟨⟨true, left⟩, ⟨true, right⟩⟩ := by
  refine ⟨⟨rfl, ⟨Source.clean_whole _, rfl⟩, rfl, ?_⟩, ⟨rfl, ⟨Source.clean_whole _, rfl⟩, rfl, ?_⟩⟩
  · exact (Source.bytes_whole toLeft).symm ▸ hleft
  · exact (Source.bytes_whole toRight).symm ▸ hright

def rejectFrame : Frame := ⟨[0, 0, 0, 0, 0, 7, 0, 0, 0, 4], by decide⟩

def separateFrame : Frame := ⟨[0, 0, 0, 0, 0, 9, 0, 0, 0, 7], by decide⟩

theorem areOf_frame {frame : Frame} {kind : Kind} (h : frame.IsOf kind) :
    AreOf frame.bytes [kind] := ⟨[frame], by simp, .cons h .nil⟩

/-- One Reject in flight is answered forever. -/
theorem not_settles_reject :
    ¬ Settles (fun _ _ _ _ => none) (selectedLink rejectFrame.bytes []) := by
  have hreject : rejectFrame.IsOf .reject := ⟨_, rfl, rfl⟩
  rw [settles_iff_flight (holds_selectedLink (areOf_frame hreject) areOf_nil), Flight.quiet_iff]
  simp [Flight.Quiet]

/-- A Separate that crosses a Linktest settles. -/
theorem settles_iff_separate :
    Settles (fun _ _ _ _ => none)
      (selectedLink HsmsSession.linktestFrame.bytes separateFrame.bytes) := by
  have hrequest : HsmsSession.linktestFrame.IsOf .request := ⟨_, rfl, rfl⟩
  have hseparate : separateFrame.IsOf .separate := ⟨_, rfl, rfl⟩
  obtain ⟨hleft, hright⟩ := holds_selectedLink (areOf_frame hrequest) (areOf_frame hseparate)
  rw [settles_iff _ hleft hright]
  simp [Flight.Quiet, Kind.beforeSeparate]

end Link

end Secs

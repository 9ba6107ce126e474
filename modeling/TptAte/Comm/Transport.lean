import Mathlib.Logic.Function.Basic
import TptAte.Duplex.History
import TptAte.Duplex.System
import TptAte.Wire.Endian

/-! # The in-memory transport

The byte pipe that connects the equipment simulator to a controller. A pipe holds what
was written and not yet read. The two halves of a connection share two pipes, each of
which one half reads and the other half writes, and closes when it is dropped.
-/

namespace Comm

open Duplex (Side Runs)
open Wire (Bytes)

/-- What is in a pipe, and whether its writer is gone. -/
@[ext]
structure PipeInner where
  buffer : Bytes := []
  closed : Bool := false
  deriving DecidableEq, Repr

inductive PipeError where
  | brokenPipe (message : String)
  deriving DecidableEq, Repr

namespace Endpoint

def writeBytes (data : Bytes) (inner : PipeInner) : Except PipeError Nat × PipeInner :=
  if inner.closed then
    (.error (.brokenPipe "pipe closed"), inner)
  else
    (.ok data.length, { inner with buffer := inner.buffer ++ data })

/-- Read into a buffer of some size. There is no result while the call waits. -/
def readBytes (size : Nat) (inner : PipeInner) : Option (Bytes × PipeInner) :=
  if inner.buffer ≠ [] then
    let n := min size inner.buffer.length
    some (inner.buffer.take n, { inner with buffer := inner.buffer.drop n })
  else if inner.closed then
    some ([], inner)
  else
    none

def close (inner : PipeInner) : PipeInner := { inner with closed := true }

variable {inner next : PipeInner} {bytes : Bytes} {size : Nat}

/-- While the pipe is open, a write takes all bytes it is offered. -/
theorem writeBytes_of_open (hopen : inner.closed = false) (data : Bytes) :
    writeBytes data inner = (.ok data.length, ⟨inner.buffer ++ data, false⟩) := by
  simp [writeBytes, hopen]

/-- What is read comes off the front. -/
theorem buffer_of_readBytes (hread : readBytes size inner = some (bytes, next)) :
    inner.buffer = bytes ++ next.buffer ∧ next.closed = inner.closed := by
  unfold readBytes at hread
  split at hread
  next hbuffer =>
    cases hread
    exact ⟨(List.take_append_drop _ _).symm, rfl⟩
  next hbuffer =>
    split at hread
    next => cases hread; exact ⟨rfl, rfl⟩
    next => cases hread

/-- A read returns as many bytes as it asks for or as lie in the pipe, whichever is fewer. -/
theorem length_of_readBytes (hread : readBytes size inner = some (bytes, next)) :
    bytes.length = min size inner.buffer.length := by
  unfold readBytes at hread
  split at hread
  next hbuffer =>
    cases hread
    simp
  next hbuffer =>
    split at hread
    next => cases hread; simp_all
    next => cases hread

/-- A reader with room for a byte gets none only at the end. -/
theorem readBytes_eq_nil (hsize : 0 < size) (hread : readBytes size inner = some ([], next)) :
    inner.buffer = [] ∧ inner.closed = true := by
  have hlength := length_of_readBytes hread
  have hbuffer : inner.buffer = [] := by
    apply List.eq_nil_of_length_eq_zero
    simp only [List.length_nil] at hlength
    omega
  refine ⟨hbuffer, ?_⟩
  by_contra hopen
  simp [readBytes, hbuffer, hopen] at hread

/-- A call waits exactly where the pipe is empty and its writer is still there. -/
theorem readBytes_eq_none_iff :
    readBytes size inner = none ↔ inner.buffer = [] ∧ inner.closed = false := by
  unfold readBytes
  split
  next hbuffer => simp [hbuffer]
  next hbuffer =>
    cases hclosed : inner.closed with
    | true => simp
    | false => simp_all

end Endpoint

/-- Which of the shared endpoints a reference points to. -/
inductive Address where
  | a
  | b
  deriving DecidableEq, Repr

/-- The endpoints of a connection. -/
abbrev Pipes := Address → PipeInner

structure DuplexHalf where
  localEnd : Address
  peerEnd : Address
  deriving DecidableEq, Repr

namespace DuplexHalf

def write (half : DuplexHalf) (buf : Bytes) (pipes : Pipes) : Except PipeError Nat × Pipes :=
  let (result, inner) := Endpoint.writeBytes buf (pipes half.peerEnd)
  (result, Function.update pipes half.peerEnd inner)

def read (half : DuplexHalf) (size : Nat) (pipes : Pipes) : Option (Bytes × Pipes) :=
  (Endpoint.readBytes size (pipes half.localEnd)).map fun (bytes, inner) =>
    (bytes, Function.update pipes half.localEnd inner)

def drop (half : DuplexHalf) (pipes : Pipes) : Pipes :=
  Function.update pipes half.peerEnd (Endpoint.close (pipes half.peerEnd))

end DuplexHalf

/-- A connection: its endpoints, and the halves not yet dropped. -/
structure Transport where
  pipes : Pipes
  half : Side → Option DuplexHalf

def duplex : Transport where
  pipes _ := {}
  half
    | .left => some ⟨.a, .b⟩
    | .right => some ⟨.b, .a⟩

/-! ## Interleaved calls -/

inductive Operation where
  | write (buf : Bytes)
  | flush
  | read (size : Nat)
  | drop
  deriving DecidableEq, Repr

inductive Outcome where
  | wrote (result : Except PipeError Nat)
  | flushed
  | read (bytes : Bytes)
  | dropped

/-- One side's call. A dropped half takes no calls, and a read that waits returns in a
later step. -/
def Transport.step (call : Side × Operation) (transport : Transport) :
    Option (Outcome × Transport) :=
  (transport.half call.1).bind fun half =>
    match call.2 with
    | .write buf =>
        let (result, pipes) := half.write buf transport.pipes
        some (.wrote result, { transport with pipes })
    | .flush => some (.flushed, transport)
    | .read size => (half.read size transport.pipes).map fun (bytes, pipes) =>
        (.read bytes, { transport with pipes })
    | .drop => some (.dropped,
        ⟨half.drop transport.pipes, Function.update transport.half call.1 none⟩)

abbrev Event := (Side × Operation) × Outcome

/-- The bytes a call hands over for a side. -/
def handedOver (side : Side) : Event → Bytes
  | ((actor, .write buf), .wrote (.ok count)) => if actor = side then buf.take count else []
  | _ => []

/-- The bytes a call takes out for a side. -/
def takenOut (side : Side) : Event → Bytes
  | ((actor, .read _), .read bytes) => if actor = side then bytes else []
  | _ => []

def writtenBy (side : Side) (history : List Event) : Bytes := history.flatMap (handedOver side)

def readBy (side : Side) (history : List Event) : Bytes := history.flatMap (takenOut side)

def Dropped (side : Side) (history : List Event) : Prop :=
  ((side, .drop), .dropped) ∈ history

/-- An event adds to what a side has written what it handed over. -/
@[simp] theorem writtenBy_concat (side : Side) (history : List Event) (event : Event) :
    writtenBy side (history ++ [event]) = writtenBy side history ++ handedOver side event := by
  simp [writtenBy]

/-- An event adds to what a side has read what it took out. -/
@[simp] theorem readBy_concat (side : Side) (history : List Event) (event : Event) :
    readBy side (history ++ [event]) = readBy side history ++ takenOut side event := by
  simp [readBy]

/-- A side has been dropped exactly if it was before or is now. -/
@[simp] theorem dropped_concat {side : Side} {history : List Event} {event : Event} :
    Dropped side (history ++ [event]) ↔
      Dropped side history ∨ ((side, .drop), .dropped) = event := by
  simp [Dropped]

/-! ## What is in the pipes -/

def inbound : Side → Address
  | .left => .a
  | .right => .b

theorem inbound_inj {side side' : Side} : inbound side = inbound side' ↔ side = side' := by
  cases side <;> cases side' <;> simp [inbound]

/-- The halves are cross-wired: each reads its own endpoint and writes the other's. -/
def Wired (transport : Transport) : Prop :=
  ∀ side half, transport.half side = some half → half = ⟨inbound side, inbound side.other⟩

/-- What a step does, from cross-wired halves. -/
theorem step_cases {side : Side} {operation : Operation} {outcome : Outcome}
    {transport transport' : Transport} (hwired : Wired transport)
    (hstep : Transport.step (side, operation) transport = some (outcome, transport')) :
    (∃ buf result inner, operation = .write buf ∧ outcome = .wrote result ∧
      Endpoint.writeBytes buf (transport.pipes (inbound side.other)) = (result, inner) ∧
      transport' = ⟨Function.update transport.pipes (inbound side.other) inner,
        transport.half⟩) ∨
    (operation = .flush ∧ outcome = .flushed ∧ transport' = transport) ∨
    (∃ size bytes inner, operation = .read size ∧ outcome = .read bytes ∧
      Endpoint.readBytes size (transport.pipes (inbound side)) = some (bytes, inner) ∧
      transport' = ⟨Function.update transport.pipes (inbound side) inner, transport.half⟩) ∨
    (operation = .drop ∧ outcome = .dropped ∧
      transport' = ⟨Function.update transport.pipes (inbound side.other)
          (Endpoint.close (transport.pipes (inbound side.other))),
        Function.update transport.half side none⟩) := by
  obtain ⟨half, hhalf, hcall⟩ := Option.bind_eq_some_iff.mp hstep
  have hends := hwired side half hhalf
  subst hends
  cases operation with
  | write buf =>
      cases hcall
      exact .inl ⟨buf, _, _, rfl, rfl, rfl, rfl⟩
  | flush =>
      cases hcall
      exact .inr (.inl ⟨rfl, rfl, rfl⟩)
  | read size =>
      simp only [DuplexHalf.read, Option.map_map, Option.map_eq_some_iff] at hcall
      obtain ⟨⟨bytes, inner⟩, hread, hresult⟩ := hcall
      cases hresult
      exact .inr (.inr (.inl ⟨size, bytes, inner, rfl, rfl, hread, rfl⟩))
  | drop =>
      cases hcall
      exact .inr (.inr (.inr ⟨rfl, rfl, rfl⟩))

/-- The pipe a side reads holds what the other side wrote and this side has not read, and
is closed when the other side is gone. -/
structure Carried (history : List Event) (transport : Transport) (side : Side) : Prop where
  bytes : writtenBy side.other history =
    readBy side history ++ (transport.pipes (inbound side)).buffer
  closed : (transport.pipes (inbound side)).closed = true ↔ Dropped side.other history
  held : transport.half side = none ↔ Dropped side history

/-- A fresh duplex carries nothing, and nothing was written to it. -/
theorem carried_duplex (side : Side) : Carried [] duplex side where
  bytes := rfl
  closed := by simp [duplex, Dropped]
  held := by cases side <;> simp [duplex, Dropped]

/-- The halves of a fresh duplex are wired crosswise. -/
theorem wired_duplex : Wired duplex := by
  intro side half hhalf
  cases side with
  | left => cases hhalf; rfl
  | right => cases hhalf; rfl

section Step

variable {history : List Event} {transport : Transport} {actor side : Side}

/-- A side that takes calls has not closed the pipe it writes. -/
theorem open_of_held (hcarried : ∀ side, Carried history transport side)
    (hheld : transport.half actor ≠ none) :
    (transport.pipes (inbound actor.other)).closed = false := by
  have hdropped : ¬ Dropped actor history := fun h => hheld ((hcarried actor).held.mpr h)
  have hclosed := (hcarried actor.other).closed
  rw [Side.other_other] at hclosed
  exact Bool.eq_false_iff.mpr fun h => hdropped (hclosed.mp h)

/-- A call keeps what is carried towards a side if nothing is lost or made up in it. -/
theorem Carried.concat (hcarried : Carried history transport side) {event : Event}
    {transport' : Transport}
    (hbytes : (transport.pipes (inbound side)).buffer ++ handedOver side.other event =
      takenOut side event ++ (transport'.pipes (inbound side)).buffer)
    (hclosed : (transport'.pipes (inbound side)).closed = true ↔
      (transport.pipes (inbound side)).closed = true ∨ ((side.other, .drop), .dropped) = event)
    (hheld : transport'.half side = none ↔
      transport.half side = none ∨ ((side, .drop), .dropped) = event) :
    Carried (history ++ [event]) transport' side where
  bytes := by
    rw [writtenBy_concat, readBy_concat, hcarried.bytes, List.append_assoc, hbytes,
      List.append_assoc]
  closed := by rw [dropped_concat, ← hcarried.closed, hclosed]
  held := by rw [dropped_concat, ← hcarried.held, hheld]

/-- A write extends the bytes written and the bytes in flight by the same piece. -/
theorem carried_write (hcarried : Carried history transport side) {buf : Bytes}
    {inner : PipeInner} (hbuffer : inner.buffer =
      (transport.pipes (inbound actor.other)).buffer ++ buf)
    (hclosed : inner.closed = (transport.pipes (inbound actor.other)).closed) :
    Carried (history ++ [((actor, .write buf), .wrote (.ok buf.length))])
      ⟨Function.update transport.pipes (inbound actor.other) inner, transport.half⟩ side := by
  rcases side.eq_or_eq_other actor with rfl | rfl
  · apply hcarried.concat <;> simp [handedOver, takenOut, inbound_inj]
  · apply hcarried.concat <;> simp [handedOver, takenOut, hbuffer, hclosed]

/-- A read moves the front of the bytes in flight to the bytes read. -/
theorem carried_read (hcarried : Carried history transport side) {size : Nat} {bytes : Bytes}
    {inner : PipeInner} (hbuffer : (transport.pipes (inbound actor)).buffer = bytes ++ inner.buffer)
    (hclosed : inner.closed = (transport.pipes (inbound actor)).closed) :
    Carried (history ++ [((actor, .read size), .read bytes)])
      ⟨Function.update transport.pipes (inbound actor) inner, transport.half⟩ side := by
  rcases side.eq_or_eq_other actor with rfl | rfl
  · apply hcarried.concat <;> simp [handedOver, takenOut, hbuffer, hclosed]
  · apply hcarried.concat <;> simp [handedOver, takenOut, inbound_inj]

/-- A drop closes the pipe a side writes to and leaves the bytes that are in it. -/
theorem carried_drop (hcarried : Carried history transport side) :
    Carried (history ++ [((actor, .drop), .dropped)])
      ⟨Function.update transport.pipes (inbound actor.other)
          (Endpoint.close (transport.pipes (inbound actor.other))),
        Function.update transport.half actor none⟩ side := by
  rcases side.eq_or_eq_other actor with rfl | rfl
  · apply hcarried.concat <;> simp [handedOver, takenOut, inbound_inj]
  · apply hcarried.concat <;> simp [handedOver, takenOut, Endpoint.close]

/-- A flush has nothing to do: a write is visible to the reader at once. -/
theorem carried_flush (hcarried : Carried history transport side) :
    Carried (history ++ [((actor, .flush), .flushed)]) transport side := by
  apply hcarried.concat <;> simp [handedOver, takenOut]

end Step

/-- What holds of a connection and the calls on it so far. -/
structure Invariant (history : List Event) (transport : Transport) : Prop where
  wired : Wired transport
  carried : ∀ side, Carried history transport side
  accepted : ∀ side buf result, ((side, .write buf), .wrote result) ∈ history →
    result = .ok buf.length

/-- Each call keeps the invariant of the duplex, for the pipe it touches and for the other one. -/
theorem invariant_step {history : List Event} {transport transport' : Transport}
    {call : Side × Operation} {outcome : Outcome} (hinv : Invariant history transport)
    (hstep : Transport.step call transport = some (outcome, transport')) :
    Invariant (history ++ [(call, outcome)]) transport' := by
  obtain ⟨actor, operation⟩ := call
  obtain ⟨hwired, hcarried, haccepted⟩ := hinv
  have hheld : transport.half actor ≠ none := by
    intro hnone
    simp [Transport.step, hnone] at hstep
  -- a write, a flush, a read or a drop
  rcases step_cases hwired hstep with ⟨buf, result, inner, rfl, rfl, hwrite, rfl⟩ |
    ⟨rfl, rfl, rfl⟩ | ⟨size, bytes, inner, rfl, rfl, hread, rfl⟩ | ⟨rfl, rfl, rfl⟩
  · rw [Endpoint.writeBytes_of_open (open_of_held hcarried hheld)] at hwrite
    cases hwrite
    refine ⟨hwired, fun side => ?_, ?_⟩
    · apply carried_write (hcarried side) rfl
      exact (open_of_held hcarried hheld).symm
    · intro side buf' result hmem
      rcases List.mem_append.mp hmem with hearlier | hlast
      · exact haccepted side buf' result hearlier
      · cases List.mem_singleton.mp hlast
        rfl
  · refine ⟨hwired, fun side => carried_flush (hcarried side), ?_⟩
    simpa using haccepted
  · obtain ⟨hbuffer, hclosed⟩ := Endpoint.buffer_of_readBytes hread
    refine ⟨hwired, fun side => carried_read (hcarried side) hbuffer hclosed, ?_⟩
    simpa using haccepted
  · refine ⟨?_, fun side => carried_drop (hcarried side), ?_⟩
    · intro side half hhalf
      by_cases hside : side = actor
      · simp [hside] at hhalf
      · simp only [Function.update_of_ne hside] at hhalf
        exact hwired side half hhalf
    · simpa using haccepted

/-- Along every run of the duplex the invariant holds. -/
theorem invariant_run {history : List Event} {transport : Transport}
    (hruns : Runs Transport.step duplex history transport) : Invariant history transport := by
  refine Runs.inv ?_ ?_ hruns
  · exact ⟨wired_duplex, carried_duplex, by simp⟩
  · intro _ _ _ _ _ hinv hstep
    exact invariant_step hinv hstep

/-! ## Reliable delivery -/

/-- The calls that concern what travels towards a side: its own reads, and what the other
side does to its peer. -/
def toward (side : Side) : Event → Bool
  | ((actor, .write _), _) => actor = side.other
  | ((_, .flush), _) => false
  | ((actor, .read _), _) => actor = side
  | ((actor, .drop), _) => actor = side.other

/-- A connection carries each direction's bytes in order, in full and by itself. -/
structure Reliable (history : List Event) (transport : Transport) : Prop where
  /-- What a side has read is always the front of what the other has written. -/
  ordered : ∀ side before, before <+: history →
    readBy side before <+: writtenBy side.other before
  /-- What has not been read is what is in the pipe. -/
  rest : ∀ side, writtenBy side.other history =
    readBy side history ++ (transport.pipes (inbound side)).buffer
  /-- Every write takes its whole buffer. -/
  accepted : ∀ side buf result, ((side, .write buf), .wrote result) ∈ history →
    result = .ok buf.length
  /-- A read that had room gets nothing only at the end of what was written. -/
  ended : ∀ side size before after, 0 < size →
    history = before ++ ((side, .read size), .read []) :: after →
      Dropped side.other before ∧ readBy side before = writtenBy side.other before
  /-- The calls of one direction alone decide what is in its pipe. -/
  apart : ∀ side history' transport', Runs Transport.step duplex history' transport' →
    history'.filter (toward side) = history.filter (toward side) →
      transport'.pipes (inbound side) = transport.pipes (inbound side)

/-- An event that is not about this direction hands nothing over in it. -/
theorem handedOver_of_not_toward {side : Side} {event : Event} (h : toward side event = false) :
    handedOver side.other event = [] := by
  unfold handedOver
  split
  next actor buf count =>
    have hactor : actor ≠ side.other := of_decide_eq_false h
    exact if_neg hactor
  next => rfl

/-- An event that is not about this direction takes nothing out of it. -/
theorem takenOut_of_not_toward {side : Side} {event : Event} (h : toward side event = false) :
    takenOut side event = [] := by
  unfold takenOut
  split
  next actor size bytes =>
    have hactor : actor ≠ side := of_decide_eq_false h
    exact if_neg hactor
  next => rfl

/-- Events that give nothing may be left out. -/
theorem flatMap_filter {take : Event → Bytes} {keep : Event → Bool}
    (hnothing : ∀ event, keep event = false → take event = []) (history : List Event) :
    (history.filter keep).flatMap take = history.flatMap take := by
  induction history with
  | nil => rfl
  | cons event history ih =>
      cases hkeep : keep event with
      | true => simp [hkeep, ih]
      | false => simp [hkeep, ih, hnothing event hkeep]

/-- Whether the writer has been dropped is seen in the events of its direction alone. -/
theorem dropped_toward {side : Side} {history : List Event} :
    Dropped side.other (history.filter (toward side)) ↔ Dropped side.other history := by
  simp [Dropped, toward]

/-- Two runs that agree on the events of one direction leave the same bytes in it: the directions do
not interfere. -/
theorem Carried.apart {side : Side} {history history' : List Event}
    {transport transport' : Transport} (h : Carried history transport side)
    (h' : Carried history' transport' side)
    (hagree : history'.filter (toward side) = history.filter (toward side)) :
    transport'.pipes (inbound side) = transport.pipes (inbound side) := by
  have hwritten : writtenBy side.other history' = writtenBy side.other history := by
    unfold writtenBy
    rw [← flatMap_filter (fun _ => handedOver_of_not_toward) history', hagree,
      flatMap_filter fun _ => handedOver_of_not_toward]
  have hread : readBy side history' = readBy side history := by
    unfold readBy
    rw [← flatMap_filter (fun _ => takenOut_of_not_toward) history', hagree,
      flatMap_filter fun _ => takenOut_of_not_toward]
  have hbuffer : (transport'.pipes (inbound side)).buffer =
      (transport.pipes (inbound side)).buffer := by
    refine @List.append_cancel_left _ (readBy side history) _ _ ?_
    rw [← h.bytes, ← hwritten, h'.bytes, hread]
  have hclosed : (transport'.pipes (inbound side)).closed =
      (transport.pipes (inbound side)).closed := by
    rw [Bool.eq_iff_iff, h.closed, h'.closed, ← dropped_toward, hagree, dropped_toward]
  exact PipeInner.ext hbuffer hclosed

/-- A read that had room and got nothing found its pipe drained and closed. -/
theorem ended_of_read {side : Side} {size : Nat} {history : List Event}
    {transport transport' : Transport} (hinv : Invariant history transport) (hsize : 0 < size)
    (hstep : Transport.step (side, .read size) transport = some (.read [], transport')) :
    Dropped side.other history ∧ readBy side history = writtenBy side.other history := by
  obtain ⟨hwired, hcarried, -⟩ := hinv
  rcases step_cases hwired hstep with ⟨_, _, _, hoperation, _⟩ | ⟨hoperation, _⟩ |
    ⟨size', bytes, inner, hoperation, houtcome, hread, -⟩ | ⟨hoperation, _⟩
  · cases hoperation
  · cases hoperation
  · cases hoperation
    cases houtcome
    obtain ⟨hempty, hclosed⟩ := Endpoint.readBytes_eq_nil hsize hread
    refine ⟨(hcarried side).closed.mp hclosed, ?_⟩
    rw [(hcarried side).bytes, hempty, List.append_nil]
  · cases hoperation

/-- A side's read waits as long as everything written to it has been read and the other
side is still there. -/
theorem read_waits_iff {side : Side} {size : Nat} {history : List Event}
    {transport : Transport} (hinv : Invariant history transport) (hheld : ¬ Dropped side history) :
    Transport.step (side, .read size) transport = none ↔
      readBy side history = writtenBy side.other history ∧ ¬ Dropped side.other history := by
  obtain ⟨hbytes, hclosed, hnone⟩ := hinv.carried side
  obtain ⟨half, hhalf⟩ := Option.ne_none_iff_exists'.mp (mt hnone.mp hheld)
  have hends := hinv.wired side half hhalf
  subst hends
  simp only [Transport.step, hhalf, Option.bind_some, DuplexHalf.read, Option.map_map,
    Option.map_eq_none_iff, Endpoint.readBytes_eq_none_iff]
  rw [hbytes, ← hclosed, Bool.not_eq_true]
  simp

/-- The simulated transport is a reliable first-in first-out connection: whatever calls
the holders of its two halves make, in whatever order. -/
theorem duplex_reliable {history : List Event} {transport : Transport}
    (hruns : Runs Transport.step duplex history transport) : Reliable history transport where
  ordered side before := by
    rintro ⟨after, rfl⟩
    obtain ⟨middle, hbefore, -⟩ := hruns.split
    exact ⟨_, ((invariant_run hbefore).carried side).bytes.symm⟩
  rest side := ((invariant_run hruns).carried side).bytes
  accepted := (invariant_run hruns).accepted
  ended side size before after hsize := by
    rintro rfl
    obtain ⟨middle, next, hbefore, hstep⟩ := hruns.at_event
    exact ended_of_read (invariant_run hbefore) hsize hstep
  apart side history' transport' hruns' hagree :=
    ((invariant_run hruns).carried side).apart ((invariant_run hruns').carried side) hagree

/-- Two bytes are written and read one at a time, across the drop of the writer. -/
theorem duplex_reliable_short_read : ∃ transport,
    Reliable [((.left, .write [1, 2]), .wrote (.ok 2)), ((.right, .read 1), .read [1]),
      ((.left, .drop), .dropped), ((.right, .read 4), .read [2]), ((.right, .read 4), .read [])]
      transport := by
  have hstart : Runs Transport.step duplex [] duplex := .nil
  have hwrite := hstart.concat (rfl : Transport.step (.left, .write [1, 2]) _ = some (_, _))
  have hread := hwrite.concat (rfl : Transport.step (.right, .read 1) _ = some (_, _))
  have hdrop := hread.concat (rfl : Transport.step (.left, .drop) _ = some (_, _))
  have hrest := hdrop.concat (rfl : Transport.step (.right, .read 4) _ = some (_, _))
  have hend := hrest.concat (rfl : Transport.step (.right, .read 4) _ = some (_, _))
  exact ⟨_, duplex_reliable hend⟩

end Comm

import TptAte.Comm.Transport
import TptAte.Duplex.Ending

/-! # Two parties over the in-memory transport

Each party holds one half of a connection. It writes some of the bytes that it owes,
flushes behind a write, reads into a buffer of any size when there is nothing left to
write, and drops its half when it has returned. What the two parties come to over the
transport is what they come to as processes that hand over items.
-/

namespace Comm

open Duplex Wire

/-- The items that a call hands over for a side: bytes, and the end when it drops its
half. -/
def itemsGiven (side : Side) : Event → List (Option UInt8)
  | ((actor, .write buf), .wrote (.ok count)) =>
      if actor = side then (buf.take count).map some else []
  | ((actor, .drop), .dropped) => if actor = side then [none] else []
  | _ => []

/-- The items that a call takes out for a side: bytes, and the end when there are none. -/
def itemsTaken (side : Side) : Event → List (Option UInt8)
  | ((actor, .read _), .read bytes) =>
      if actor = side then (if bytes = [] then [none] else bytes.map some) else []
  | _ => []

def givenBy (side : Side) (history : List Event) : List (Option UInt8) :=
  history.flatMap (itemsGiven side)

def takenBy (side : Side) (history : List Event) : List (Option UInt8) :=
  history.flatMap (itemsTaken side)

/-- An event adds to what a side has given what that event gives. -/
@[simp] theorem givenBy_concat (side : Side) (history : List Event) (event : Event) :
    givenBy side (history ++ [event]) = givenBy side history ++ itemsGiven side event := by
  simp [givenBy]

/-- An event adds to what a side has taken what that event takes. -/
@[simp] theorem takenBy_concat (side : Side) (history : List Event) (event : Event) :
    takenBy side (history ++ [event]) = takenBy side history ++ itemsTaken side event := by
  simp [takenBy]

def unflushed (side : Side) (history : List Event) : Bool :=
  match (history.filter (·.1.1 = side)).getLast? with
  | some ((_, .write _), _) => true
  | _ => false

/-- The calls that a party makes when it has taken and handed over these items. -/
def Permits {α : Type} (party : Ending UInt8 UInt8 α) (side : Side) (history : List Event) :
    Operation → Prop
  | .write buf =>
      buf ≠ [] ∧ givenBy side history ++ buf.map some <+: party.outputs (takenBy side history)
  | .flush => unflushed side history = true
  | .read size =>
      0 < size ∧ givenBy side history = party.outputs (takenBy side history) ∧
        party.returns (takenBy side history) = none
  | .drop => givenBy side history ++ [none] <+: party.outputs (takenBy side history)

instance {α : Type} (party : Ending UInt8 UInt8 α) (side : Side) (history : List Event)
    (operation : Operation) : Decidable (Permits party side history operation) :=
  match operation with
  | .write _ => inferInstanceAs (Decidable (_ ∧ _))
  | .flush => inferInstanceAs (Decidable (_ = _))
  | .read _ => inferInstanceAs (Decidable (_ ∧ _ ∧ _))
  | .drop => inferInstanceAs (Decidable (_ <+: _))

/-- A connection with the calls that were made on it. -/
structure Connection where
  history : List Event
  transport : Transport

namespace Connection

def start : Connection := ⟨[], duplex⟩

def step {α β : Type} (left : Ending UInt8 UInt8 α) (right : Ending UInt8 UInt8 β)
    (call : Side × Operation) (connection : Connection) : Option Connection :=
  let permitted :=
    match call.1 with
    | .left => decide (Permits left .left connection.history call.2)
    | .right => decide (Permits right .right connection.history call.2)
  if permitted then
    (Transport.step call connection.transport).map fun (outcome, transport) =>
      ⟨connection.history ++ [(call, outcome)], transport⟩
  else none

/-- What the parties have read and written. -/
def exchange (connection : Connection) : Exchange (Option UInt8) (Option UInt8) :=
  ⟨takenBy .left connection.history, givenBy .left connection.history,
    takenBy .right connection.history, givenBy .right connection.history⟩

end Connection

/-! ## What was handed over and taken out -/

/-- The items of a side are the bytes that it wrote, with the end behind them once it has
dropped its half. -/
def GivenBytes (side : Side) (history : List Event) : Prop :=
  (¬ Dropped side history ∧ givenBy side history = (writtenBy side history).map some) ∨
    (Dropped side history ∧ givenBy side history = (writtenBy side history).map some ++ [none])

/-- The items that a party has taken are the bytes that it read, with the end behind them if
it came to the end while it waited. -/
def TakenBytes {α : Type} (party : Ending UInt8 UInt8 α) (side : Side) (history : List Event) :
    Prop :=
  takenBy side history = (readBy side history).map some ∨
    (takenBy side history = (readBy side history).map some ++ [none] ∧
      party.result (readBy side history) = none)

section Items

variable {history : List Event} {transport transport' : Transport} {actor side : Side}
  {operation : Operation} {outcome : Outcome}

/-- Only a side that still holds its half of the duplex can make a call. -/
theorem held_of_step (hstep : Transport.step (actor, operation) transport =
    some (outcome, transport')) : transport.half actor ≠ none := by
  intro hnone
  simp [Transport.step, hnone] at hstep

/-- A party that can still make a call has not dropped its half. -/
theorem not_dropped_of_step (hinv : Invariant history transport)
    (hstep : Transport.step (actor, operation) transport = some (outcome, transport')) :
    ¬ Dropped actor history :=
  fun h => held_of_step hstep ((hinv.carried actor).held.mpr h)

/-- What a call returns. -/
theorem outcome_cases (hinv : Invariant history transport)
    (hstep : Transport.step (actor, operation) transport = some (outcome, transport')) :
    (∃ buf, operation = .write buf ∧ outcome = .wrote (.ok buf.length)) ∨
    (operation = .flush ∧ outcome = .flushed) ∨
    (∃ size bytes, operation = .read size ∧ outcome = .read bytes) ∨
    (operation = .drop ∧ outcome = .dropped) := by
  rcases step_cases hinv.wired hstep with ⟨buf, result, inner, rfl, rfl, hwrite, -⟩ |
    ⟨rfl, rfl, -⟩ | ⟨size, bytes, inner, rfl, rfl, -, -⟩ | ⟨rfl, rfl, -⟩
  · rw [Endpoint.writeBytes_of_open (open_of_held hinv.carried (held_of_step hstep))] at hwrite
    cases hwrite
    exact .inl ⟨buf, rfl, rfl⟩
  · exact .inr (.inl ⟨rfl, rfl⟩)
  · exact .inr (.inr (.inl ⟨size, bytes, rfl, rfl⟩))
  · exact .inr (.inr (.inr ⟨rfl, rfl⟩))

/-- A call of one side hands over and takes out nothing for the other. -/
theorem items_of_other (hne : actor ≠ side) (operation : Operation) (outcome : Outcome) :
    itemsGiven side ((actor, operation), outcome) = [] ∧
      itemsTaken side ((actor, operation), outcome) = [] ∧
      handedOver side ((actor, operation), outcome) = [] ∧
      takenOut side ((actor, operation), outcome) = [] := by
  cases operation with
  | write buf =>
      rcases outcome with (_ | _) | _ | _ | _ <;> simp [itemsGiven, itemsTaken, handedOver,
        takenOut, hne]
  | flush => simp [itemsGiven, itemsTaken, handedOver, takenOut]
  | read size =>
      cases outcome <;> simp [itemsGiven, itemsTaken, handedOver, takenOut, hne]
  | drop => cases outcome <;> simp [itemsGiven, itemsTaken, handedOver, takenOut, hne]

/-- Every run of the transport keeps the account of the bytes given, since each call does. -/
theorem givenBytes_of_runs (hruns : Runs Transport.step duplex history transport) (side : Side) :
    GivenBytes side history := by
  induction hruns with
  | nil => exact .inl ⟨by simp [Dropped], rfl⟩
  | @concat history middle final label outcome hruns hstep ih =>
      obtain ⟨actor, operation⟩ := label
      have hinv := invariant_run hruns
      by_cases hside : actor = side
      · subst hside
        have hheld := not_dropped_of_step hinv hstep
        have hgiven := (ih.resolve_right fun h => hheld h.1).2
        rw [GivenBytes, givenBy_concat, writtenBy_concat, dropped_concat, hgiven]
        rcases outcome_cases hinv hstep with ⟨buf, rfl, rfl⟩ | ⟨rfl, rfl⟩ |
          ⟨size, bytes, rfl, rfl⟩ | ⟨rfl, rfl⟩
        · simp [itemsGiven, handedOver, hheld]
        · simp [itemsGiven, handedOver, hheld]
        · simp [itemsGiven, handedOver, hheld]
        · simp [itemsGiven, handedOver]
      · obtain ⟨hitems, -, hbytes, -⟩ := items_of_other hside operation outcome
        rw [GivenBytes, givenBy_concat, writtenBy_concat, dropped_concat, hitems, hbytes,
          List.append_nil, List.append_nil]
        have hevent :
            ((side, Operation.drop), Outcome.dropped) ≠ ((actor, operation), outcome) := by
          intro h
          cases h
          exact hside rfl
        simpa [hevent, GivenBytes] using ih

end Items

/-! ## One call of a party -/

section Calls

variable {α : Type} {party : Ending UInt8 UInt8 α} {history : List Event}
  {transport transport' : Transport} {side : Side} {operation : Operation} {outcome : Outcome}

/-- A party that waits has taken bytes only. -/
theorem TakenBytes.of_waits (h : TakenBytes party side history)
    (hwaits : party.returns (takenBy side history) = none) :
    takenBy side history = (readBy side history).map some ∧
      party.result (readBy side history) = none := by
  rcases h with htaken | ⟨htaken, -⟩
  · rw [htaken, Ending.returns_map_some] at hwaits
    exact ⟨htaken, hwaits⟩
  · obtain ⟨-, hopen⟩ := Ending.returns_eq_none_iff.mp hwaits
    rw [htaken] at hopen
    simp at hopen

/-- A party that reads takes out items that were handed over. -/
theorem takenBy_read (hruns : Runs Transport.step duplex history transport)
    (htaken : TakenBytes party side history) {size : Nat} {bytes : Bytes} (hsize : 0 < size)
    (hwaits : party.returns (takenBy side history) = none)
    (hstep : Transport.step (side, .read size) transport = some (.read bytes, transport')) :
    TakenBytes party side (history ++ [((side, .read size), .read bytes)]) ∧
      takenBy side (history ++ [((side, .read size), .read bytes)]) <+:
        givenBy side.other history := by
  have hinv := invariant_run hruns
  have hgiven := givenBytes_of_runs hruns side.other
  obtain ⟨hbytes, hwaiting⟩ := htaken.of_waits hwaits
  have hread : readBy side (history ++ [((side, .read size), .read bytes)]) =
      readBy side history ++ bytes := by
    simp [takenOut]
  by_cases hempty : bytes = []
  · -- the party comes to the end, and the other one is gone
    subst hempty
    obtain ⟨hdropped, hall⟩ := ended_of_read hinv hsize hstep
    have hgiven := (hgiven.resolve_left fun h => h.1 hdropped).2
    have htaken' : takenBy side (history ++ [((side, .read size), .read [])]) =
        (readBy side history).map some ++ [none] := by
      simp [itemsTaken, hbytes]
    rw [htaken', hgiven, hall]
    refine ⟨.inr ⟨?_, ?_⟩, List.prefix_rfl⟩
    · rw [htaken', hread, List.append_nil]
    · rwa [hread, List.append_nil]
  -- bytes were read, and those are the next that the other side has written
  · have htaken' : takenBy side (history ++ [((side, .read size), .read bytes)]) =
        (readBy side history ++ bytes).map some := by
      simp [itemsTaken, hbytes, hempty]
    refine ⟨.inl (htaken'.trans (hread ▸ rfl)), ?_⟩
    have hcarried := ((invariant_run (hruns.concat hstep)).carried side).bytes
    rw [hread, writtenBy_concat] at hcarried
    have hsame : handedOver side.other ((side, .read size), .read bytes) = [] := rfl
    rw [hsame, List.append_nil] at hcarried
    have hfront : (readBy side history ++ bytes).map some <+:
        (writtenBy side.other history).map some := prefix_map_some ⟨_, hcarried.symm⟩
    rw [htaken']
    rcases hgiven with ⟨-, hgiven⟩ | ⟨-, hgiven⟩ <;> rw [hgiven]
    · exact hfront
    · exact hfront.trans (List.prefix_append _ _)

/-- A call that a party is permitted to make is a step of the process over items, or a
flush. -/
theorem transfer_of_call (hruns : Runs Transport.step duplex history transport)
    (htaken : TakenBytes party side history)
    (hpermits : Permits party side history operation)
    (hstep : Transport.step (side, operation) transport = some (outcome, transport')) :
    TakenBytes party side (history ++ [((side, operation), outcome)]) ∧
      ((operation = .flush ∧ outcome = .flushed) ∨
        ∃ transfer, party.closing.transfer (takenBy side history) (givenBy side history)
            (givenBy side.other history) transfer =
          some (takenBy side (history ++ [((side, operation), outcome)]),
            givenBy side (history ++ [((side, operation), outcome)]))) := by
  rcases outcome_cases (invariant_run hruns) hstep with ⟨buf, rfl, rfl⟩ | ⟨rfl, rfl⟩ |
    ⟨size, bytes, rfl, rfl⟩ | ⟨rfl, rfl⟩
  · obtain ⟨hne, howed⟩ := hpermits
    refine ⟨?_, .inr ⟨.writes (buf.map some).length, ?_⟩⟩
    · simpa [TakenBytes, itemsTaken, takenOut] using htaken
    · rw [Process.transfer_writes (by simpa using hne) howed]
      simp [itemsTaken, itemsGiven]
  · refine ⟨?_, .inl ⟨rfl, rfl⟩⟩
    simpa [TakenBytes, itemsTaken, takenOut] using htaken
  · obtain ⟨hsize, hwritten, hwaits⟩ := hpermits
    obtain ⟨htaken', harrived⟩ := takenBy_read hruns htaken hsize hwaits hstep
    refine ⟨htaken', .inr ⟨.reads (itemsTaken side ((side, .read size), .read bytes)).length, ?_⟩⟩
    rw [takenBy_concat] at harrived ⊢
    rw [Process.transfer_reads ?_ (hwritten ▸ Nat.le_refl _) hwaits harrived]
    · simp [itemsGiven]
    · by_cases hempty : bytes = [] <;> simp [itemsTaken, hempty]
  · refine ⟨?_, .inr ⟨.writes 1, ?_⟩⟩
    · simpa [TakenBytes, itemsTaken, takenOut] using htaken
    · have hwrites := @Process.transfer_writes _ _ _ party.closing (takenBy side history)
        (givenBy side.other history) _ [none] (by simp) hpermits
      simpa [itemsTaken, itemsGiven] using hwrites

/-- A party that waits has not dropped its half. -/
theorem not_dropped_of_waits (hgiven : GivenBytes side history)
    (hall : givenBy side history = party.outputs (takenBy side history))
    (hwaits : party.returns (takenBy side history) = none) : ¬ Dropped side history := by
  intro hdropped
  obtain ⟨hresult, hopen⟩ := Ending.returns_eq_none_iff.mp hwaits
  rw [(hgiven.resolve_left fun h => h.1 hdropped).2, Ending.outputs_of_waiting hresult hopen]
    at hall
  have hmem : none ∈ (party.output (Duplex.given (takenBy side history))).map some :=
    hall ▸ List.mem_append_right _ (List.mem_singleton.mpr rfl)
  simp at hmem

/-- Where the process over items can make a step, the party can make a call. -/
theorem exists_call (hruns : Runs Transport.step duplex history transport)
    (htaken : TakenBytes party side history)
    (howed : givenBy side history <+: party.outputs (takenBy side history))
    (harrived : takenBy side history <+: givenBy side.other history)
    (htransfer : ∃ transfer next, party.closing.transfer (takenBy side history)
      (givenBy side history) (givenBy side.other history) transfer = some next) :
    ∃ operation next, Permits party side history operation ∧
      Transport.step (side, operation) transport = some next := by
  have hinv := invariant_run hruns
  have hheld (hnone : ¬ Dropped side history) : ∃ half, transport.half side = some half :=
    Option.ne_none_iff_exists'.mp (mt (hinv.carried side).held.mp hnone)
  have hcan := (Process.exists_transfer_iff howed harrived).mp htransfer
  by_cases hall : givenBy side history = party.outputs (takenBy side history)
  · obtain ⟨hwaits, hne⟩ := hcan.resolve_left (not_not.mpr hall)
    change party.returns (takenBy side history) = none at hwaits
    have hbytes := (htaken.of_waits hwaits).1
    have hnone := not_dropped_of_waits (givenBytes_of_runs hruns side) hall hwaits
    refine ⟨.read 1, ?_⟩
    by_contra hno
    have hstep : Transport.step (side, .read 1) transport = none := by
      by_contra hsome
      obtain ⟨next, hnext⟩ := Option.ne_none_iff_exists'.mp hsome
      exact hno ⟨next, ⟨Nat.one_pos, hall, hwaits⟩, hnext⟩
    -- a read that waits has nothing to take out
    obtain ⟨hread, hother⟩ := (read_waits_iff hinv hnone).mp hstep
    have hgiven := ((givenBytes_of_runs hruns side.other).resolve_right fun h => hother h.1).2
    exact hne (by rw [hbytes, hgiven, hread])
  · obtain ⟨rest, hrest⟩ := howed
    obtain ⟨item, rest, rfl⟩ := List.exists_cons_of_ne_nil
      (fun hnil : rest = [] => hall (by rw [← hrest, hnil, List.append_nil]))
    -- nothing is owed behind the end, so the half is still there
    have hnone : ¬ Dropped side history := by
      intro hdropped
      have hgiven := ((givenBytes_of_runs hruns side).resolve_left fun h => h.1 hdropped).2
      rw [hgiven, List.append_assoc] at hrest
      cases Ending.eq_nil_of_outputs hrest
    obtain ⟨half, hhalf⟩ := hheld hnone
    cases item with
    | some byte =>
        refine ⟨.write [byte], _, ⟨by simp, rest, ?_⟩, by rw [Transport.step, hhalf]; rfl⟩
        rw [← hrest]
        simp
    | none =>
        refine ⟨.drop, _, ⟨rest, ?_⟩, by rw [Transport.step, hhalf]; rfl⟩
        rw [← hrest]
        simp

end Calls

/-! ## Runs -/

section Runs

variable {α β : Type} {left : Ending UInt8 UInt8 α} {right : Ending UInt8 UInt8 β}
  {connection connection' : Connection}

/-- The calls so far are a run of the transport, and what the parties have taken out are the
bytes that they read. -/
structure Mirrors (left : Ending UInt8 UInt8 α) (right : Ending UInt8 UInt8 β)
    (connection : Connection) : Prop where
  runs : Runs Transport.step duplex connection.history connection.transport
  left : TakenBytes left .left connection.history
  right : TakenBytes right .right connection.history

/-- The fresh connection mirrors the fresh exchange: nothing given, nothing taken. -/
theorem mirrors_start : Mirrors left right .start := ⟨.nil, .inl rfl, .inl rfl⟩

/-- The sides that have not flushed what they wrote last. -/
def pending (connection : Connection) : Nat :=
  (unflushed .left connection.history).toNat + (unflushed .right connection.history).toNat

/-- Only a side's own write leaves it unflushed, and only its own other calls end that. -/
theorem unflushed_concat (side actor : Side) (history : List Event) (operation : Operation)
    (outcome : Outcome) :
    unflushed side (history ++ [((actor, operation), outcome)]) =
      if actor = side then (match operation with | .write _ => true | _ => false)
      else unflushed side history := by
  by_cases hside : actor = side
  · cases operation <;> simp [unflushed, hside]
  · simp [unflushed, hside]

/-- A connection moves by one permitted call of one side, which the history records. -/
theorem moves_connection_iff :
    Moves (Connection.step left right) connection connection' ↔
      (∃ operation outcome transport, Permits left .left connection.history operation ∧
        Transport.step (.left, operation) connection.transport = some (outcome, transport) ∧
        connection' = ⟨connection.history ++ [((.left, operation), outcome)], transport⟩) ∨
      ∃ operation outcome transport, Permits right .right connection.history operation ∧
        Transport.step (.right, operation) connection.transport = some (outcome, transport) ∧
        connection' = ⟨connection.history ++ [((.right, operation), outcome)], transport⟩ := by
  constructor
  · rintro ⟨⟨side, operation⟩, hstep⟩
    cases side with
    | left =>
        simp only [Connection.step, decide_eq_true_eq, Option.ite_none_right_eq_some,
          Option.map_eq_some_iff] at hstep
        obtain ⟨hpermits, ⟨outcome, transport⟩, hcall, rfl⟩ := hstep
        exact .inl ⟨operation, outcome, transport, hpermits, hcall, rfl⟩
    | right =>
        simp only [Connection.step, decide_eq_true_eq, Option.ite_none_right_eq_some,
          Option.map_eq_some_iff] at hstep
        obtain ⟨hpermits, ⟨outcome, transport⟩, hcall, rfl⟩ := hstep
        exact .inr ⟨operation, outcome, transport, hpermits, hcall, rfl⟩
  · rintro (⟨operation, outcome, transport, hpermits, hcall, rfl⟩ |
      ⟨operation, outcome, transport, hpermits, hcall, rfl⟩)
    · exact ⟨(.left, operation), by simp [Connection.step, hpermits, hcall]⟩
    · exact ⟨(.right, operation), by simp [Connection.step, hpermits, hcall]⟩

/-- What one side does leaves the items and the bytes of the other as they are. -/
theorem other_unchanged {actor side : Side} (hne : actor ≠ side) (history : List Event)
    (operation : Operation) (outcome : Outcome) :
    givenBy side (history ++ [((actor, operation), outcome)]) = givenBy side history ∧
      takenBy side (history ++ [((actor, operation), outcome)]) = takenBy side history ∧
      readBy side (history ++ [((actor, operation), outcome)]) = readBy side history := by
  obtain ⟨hgiven, htaken, -, hread⟩ := items_of_other hne operation outcome
  simp [hgiven, htaken, hread]

/-- A call of the other side takes nothing for this one. -/
theorem TakenBytes.of_other {γ : Type} {party : Ending UInt8 UInt8 γ} {actor side : Side}
    {history : List Event} (h : TakenBytes party side history) (hne : actor ≠ side)
    (operation : Operation) (outcome : Outcome) :
    TakenBytes party side (history ++ [((actor, operation), outcome)]) := by
  obtain ⟨-, htaken, hread⟩ := other_unchanged hne history operation outcome
  rw [TakenBytes, htaken, hread]
  exact h

/-- A flush leaves the items as they are and is not made twice. -/
theorem pending_flush {actor : Side} {transport : Transport}
    (hunflushed : unflushed actor connection.history = true) :
    (⟨connection.history ++ [((actor, .flush), .flushed)], transport⟩ : Connection).exchange =
        connection.exchange ∧
      pending ⟨connection.history ++ [((actor, .flush), .flushed)], transport⟩ <
        pending connection := by
  refine ⟨by simp [Connection.exchange, itemsGiven, itemsTaken], ?_⟩
  cases actor <;> simp [pending, unflushed_concat, hunflushed]

/-- A call of a party is a step of the processes over items, or a flush. -/
theorem Mirrors.moves (h : Mirrors left right connection)
    (hmoves : Moves (Connection.step left right) connection connection') :
    Mirrors left right connection' ∧
      (Moves (Exchange.transfer left.closing right.closing) connection.exchange
          connection'.exchange ∨
        (connection'.exchange = connection.exchange ∧
          pending connection' < pending connection)) := by
  rcases moves_connection_iff.mp hmoves with
    ⟨operation, outcome, transport, hpermits, hcall, rfl⟩ |
    ⟨operation, outcome, transport, hpermits, hcall, rfl⟩
  · obtain ⟨htaken, hcases⟩ := transfer_of_call h.runs h.left hpermits hcall
    obtain ⟨hgiven', htaken', -⟩ :=
      @other_unchanged .left .right nofun connection.history operation outcome
    have hother := @TakenBytes.of_other _ _ .left _ _ h.right nofun operation outcome
    refine ⟨⟨h.runs.concat hcall, htaken, hother⟩, ?_⟩
    rcases hcases with ⟨rfl, rfl⟩ | ⟨transfer, htransfer⟩
    · exact .inr (pending_flush hpermits)
    · refine .inl (moves_transfer_iff.mpr (.inl ⟨transfer, _, _, htransfer, ?_⟩))
      simp only [Connection.exchange, hgiven', htaken']
  · obtain ⟨htaken, hcases⟩ := transfer_of_call h.runs h.right hpermits hcall
    obtain ⟨hgiven', htaken', -⟩ :=
      @other_unchanged .right .left nofun connection.history operation outcome
    have hother := @TakenBytes.of_other _ _ .right _ _ h.left nofun operation outcome
    refine ⟨⟨h.runs.concat hcall, hother, htaken⟩, ?_⟩
    rcases hcases with ⟨rfl, rfl⟩ | ⟨transfer, htransfer⟩
    · exact .inr (pending_flush hpermits)
    · refine .inl (moves_transfer_iff.mpr (.inr ⟨transfer, _, _, htransfer, ?_⟩))
      simp only [Connection.exchange, hgiven', htaken']

/-- A connection in which no call can be made, as processes over items. -/
theorem Mirrors.still (h : Mirrors left right connection)
    (horderly : Orderly left.closing right.closing connection.exchange)
    (hstill : ∀ connection', ¬ Moves (Connection.step left right) connection connection')
    (exchange : Exchange (Option UInt8) (Option UInt8)) :
    ¬ Moves (Exchange.transfer left.closing right.closing) connection.exchange exchange := by
  intro hmoves
  rcases moves_transfer_iff.mp hmoves with ⟨transfer, _, _, htransfer, -⟩ |
    ⟨transfer, _, _, htransfer, -⟩
  · obtain ⟨operation, ⟨outcome, transport⟩, hpermits, hcall⟩ := exists_call h.runs h.left
      horderly.leftWritten horderly.leftArrived ⟨transfer, _, htransfer⟩
    exact hstill _ (moves_connection_iff.mpr
      (.inl ⟨operation, outcome, transport, hpermits, hcall, rfl⟩))
  · obtain ⟨operation, ⟨outcome, transport⟩, hpermits, hcall⟩ := exists_call h.runs h.right
      horderly.rightWritten horderly.rightArrived ⟨transfer, _, htransfer⟩
    exact hstill _ (moves_connection_iff.mpr
      (.inr ⟨operation, outcome, transport, hpermits, hcall, rfl⟩))

/-- What the parties have done in a run is what the processes over items may do. -/
theorem mirrors_of_reaches (hreaches : Reaches (Connection.step left right) .start connection) :
    Mirrors left right connection ∧
      Reaches (Exchange.transfer left.closing right.closing) .start connection.exchange := by
  induction hreaches with
  | refl => exact ⟨mirrors_start, .refl⟩
  | tail _ hlast ih =>
      obtain ⟨hmirrors, hcases⟩ := ih.1.moves hlast
      refine ⟨hmirrors, ?_⟩
      rcases hcases with hmoves | ⟨hsame, -⟩
      · exact ih.2.tail hmoves
      · rw [hsame]
        exact ih.2

/-- All runs of two parties over the transport are finite, and where no call can be made
they have come to these outcomes. -/
def Connects (left : Ending UInt8 UInt8 α) (right : Ending UInt8 UInt8 β) (outcome : Option α)
    (outcome' : Option β) : Prop :=
  Terminates (Connection.step left right) .start ∧
    ∀ connection, Reaches (Connection.step left right) .start connection →
      (∀ connection', ¬ Moves (Connection.step left right) connection connection') →
      left.returns (takenBy .left connection.history) = outcome ∧
        right.returns (takenBy .right connection.history) = outcome'

/-- Where the processes over items do not go on forever, the parties do not over the
transport. -/
theorem terminates_of_transfer
    (h : Terminates (Exchange.transfer left.closing right.closing) .start) :
    Terminates (Connection.step left right) .start := by
  refine @Terminates.of_simulation _ _ _ _ _ _
    (fun connection exchange => Mirrors left right connection ∧ exchange = connection.exchange)
    pending (fun first second next hfirst hmoves => ?_) _ _ ⟨mirrors_start, rfl⟩ h
  obtain ⟨hmirrors, rfl⟩ := hfirst
  obtain ⟨hmirrors', hcases⟩ := hmirrors.moves hmoves
  rcases hcases with hmoves | ⟨hsame, hless⟩
  · exact .inl ⟨_, hmoves, hmirrors', rfl⟩
  · exact .inr ⟨⟨hmirrors', hsame.symm⟩, hless⟩

/-- What processes over items come to, the parties come to over the transport, however the
bytes are divided into calls. -/
theorem connects_of_concludes {outcome : Option α} {outcome' : Option β}
    (h : Concludes left.closing right.closing outcome outcome') :
    Connects left right outcome outcome' := by
  refine ⟨terminates_of_transfer h.1, fun connection hreaches hstill => ?_⟩
  obtain ⟨hmirrors, hreached⟩ := mirrors_of_reaches hreaches
  exact h.2 _ hreached (hmirrors.still (orderly_of_reaches hreached) hstill)

end Runs

end Comm

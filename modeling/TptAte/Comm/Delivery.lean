import TptAte.Comm.Connection

/-! # What two parties come to over the transport

If there is one conversation in which both parties return with everything read, they do so
in every run over the transport and no read meets the end of a stream. Whatever the
parties are, none of them is left waiting for one that is gone.
-/

namespace Comm

open Duplex Wire

variable {α β : Type} {left : Ending UInt8 UInt8 α} {right : Ending UInt8 UInt8 β}
  {connection : Connection}

/-- No further call can be made. -/
def AtRest (left : Ending UInt8 UInt8 α) (right : Ending UInt8 UInt8 β) (connection : Connection) :
    Prop :=
  ∀ connection', ¬ Moves (Connection.step left right) connection connection'

structure Ran (left : Ending UInt8 UInt8 α) (right : Ending UInt8 UInt8 β)
    (connection : Connection) : Prop where
  reaches : Reaches (Connection.step left right) .start connection
  atRest : AtRest left right connection

section Rest

/-- A connection in which nobody can move any more mirrors an exchange that has come to rest. -/
theorem Ran.still (h : Ran left right connection) :
    Still left.closing right.closing connection.exchange := by
  obtain ⟨hmirrors, hreached⟩ := mirrors_of_reaches h.reaches
  have horderly := orderly_of_reaches hreached
  exact horderly.still (hmirrors.still horderly h.atRest)

/-- A party that has handed over the end has dropped its half. -/
theorem dropped_of_end {side : Side} {history : List Event}
    (hgiven : GivenBytes side history) (hend : none ∈ givenBy side history) :
    Dropped side history := by
  rcases hgiven with ⟨-, hgiven⟩ | ⟨hdropped, -⟩
  · rw [hgiven] at hend
    simp at hend
  · exact hdropped

/-- What has been taken out is in the pipe no more. -/
theorem buffer_of_taken {party : Ending UInt8 UInt8 α} {side : Side} {history : List Event}
    {transport : Transport} (hruns : Runs Transport.step duplex history transport)
    (htaken : TakenBytes party side history) (hnone : ¬ Dropped side.other history)
    (hall : takenBy side history = givenBy side.other history) :
    (transport.pipes (inbound side)).buffer = [] := by
  have hgiven := ((givenBytes_of_runs hruns side.other).resolve_right fun h => hnone h.1).2
  have hcarried := ((invariant_run hruns).carried side).bytes
  have hread : (readBy side history).map some = (writtenBy side.other history).map some := by
    rcases htaken with htaken | ⟨htaken, -⟩
    · rw [← htaken, hall, hgiven]
    · have hmem : none ∈ (writtenBy side.other history).map some := by
        rw [← hgiven, ← hall, htaken]
        simp
      simp at hmem
  rw [List.map_injective_iff.mpr (Option.some_injective _) hread] at hcarried
  exact List.append_cancel_left ((List.append_nil _).trans hcarried).symm

/-- Both parties have returned and dropped their halves, or both hold their halves, wait and
have read everything that was written. -/
def BothOrNeither (left : Ending UInt8 UInt8 α) (right : Ending UInt8 UInt8 β)
    (connection : Connection) : Prop :=
  ((left.returns (takenBy .left connection.history)).isSome ∧
      (right.returns (takenBy .right connection.history)).isSome ∧
      ∀ side, Dropped side connection.history) ∨
    (left.returns (takenBy .left connection.history) = none ∧
      right.returns (takenBy .right connection.history) = none ∧
      ∀ side, ¬ Dropped side connection.history ∧
        (connection.transport.pipes (inbound side)).buffer = [])

/-- No party is left waiting for one that is gone. -/
theorem Ran.both_or_neither (h : Ran left right connection) :
    BothOrNeither left right connection := by
  obtain ⟨hmirrors, -⟩ := mirrors_of_reaches h.reaches
  have hgiven := givenBytes_of_runs hmirrors.runs
  have hstill := h.still
  rcases Ending.both_or_neither hstill with ⟨hleft, hright⟩ | ⟨hleft, hright, hread, hread'⟩
  · refine .inl ⟨hleft, hright, fun side => dropped_of_end (hgiven side) ?_⟩
    cases side with
    | left =>
        have hwritten : givenBy .left connection.history = _ := hstill.leftWritten
        exact hwritten ▸ Ending.none_mem_outputs hleft
    | right =>
        have hwritten : givenBy .right connection.history = _ := hstill.rightWritten
        exact hwritten ▸ Ending.none_mem_outputs hright
  · have hheld := not_dropped_of_waits (hgiven .left) hstill.leftWritten hleft
    have hheld' := not_dropped_of_waits (hgiven .right) hstill.rightWritten hright
    refine .inr ⟨hleft, hright, fun side => ?_⟩
    cases side with
    | left => exact ⟨hheld, buffer_of_taken hmirrors.runs hmirrors.left hheld' hread⟩
    | right => exact ⟨hheld', buffer_of_taken hmirrors.runs hmirrors.right hheld hread'⟩

/-- Two runs at whose ends the parties have returned the same, wrote the same bytes and hold the
same halves. -/
structure SameRun (left : Ending UInt8 UInt8 α) (right : Ending UInt8 UInt8 β)
    (connection connection' : Connection) : Prop where
  left : left.returns (takenBy .left connection'.history) =
    left.returns (takenBy .left connection.history)
  right : right.returns (takenBy .right connection'.history) =
    right.returns (takenBy .right connection.history)
  written (side : Side) :
    writtenBy side connection'.history = writtenBy side connection.history
  dropped (side : Side) : Dropped side connection'.history ↔ Dropped side connection.history

/-- The items of a side show the bytes that it wrote and whether it dropped its half. -/
theorem GivenBytes.shows {side : Side} {history : List Event} (h : GivenBytes side history) :
    writtenBy side history = Duplex.given (givenBy side history) ∧
      (Dropped side history ↔ ended (givenBy side history) = true) := by
  rcases h with ⟨hheld, hgiven⟩ | ⟨hdropped, hgiven⟩
  · simp [hgiven, hheld]
  · simp [hgiven, hdropped, Duplex.given]

/-- If one run ends then all runs are finite and end like it, whatever the order of the calls and
however the bytes are divided among them. -/
theorem Ran.decides (h : Ran left right connection) :
    Terminates (Connection.step left right) .start ∧
      ∀ connection', Ran left right connection' →
        SameRun left right connection connection' := by
  obtain ⟨hmirrors, hreached⟩ := mirrors_of_reaches h.reaches
  obtain ⟨hterminates, hsame⟩ := h.still.decides (Ending.closing_quits left)
    (Ending.closing_quits right) hreached
  refine ⟨terminates_of_transfer hterminates, fun connection' h' => ?_⟩
  obtain ⟨hmirrors', hreached'⟩ := mirrors_of_reaches h'.reaches
  have hend := hsame _ hreached' h'.still
  have hgiven (side : Side) :
      givenBy side connection'.history = givenBy side connection.history := by
    cases side with
    | left => exact hend.leftWritten
    | right => exact hend.rightWritten
  have hshows (side : Side) := (givenBytes_of_runs hmirrors.runs side).shows
  have hshows' (side : Side) := (givenBytes_of_runs hmirrors'.runs side).shows
  refine ⟨hend.leftResult, hend.rightResult, fun side => ?_, fun side => ?_⟩
  · rw [(hshows' side).1, (hshows side).1, hgiven side]
  · rw [(hshows' side).2, (hshows side).2, hgiven side]

end Rest

/-! ## Conversations that are carried -/

/-- All runs are finite, no read meets the end of its stream, and where no call can be made
both parties have returned, dropped their halves and read what was written. -/
structure Delivers (left : Ending UInt8 UInt8 α) (right : Ending UInt8 UInt8 β) (value : α)
    (value' : β) : Prop where
  terminates : Terminates (Connection.step left right) .start
  quiet : ∀ connection, Reaches (Connection.step left right) .start connection →
    ∀ side size, ((side, .read size), .read []) ∉ connection.history
  returns : ∀ connection, Ran left right connection →
    left.result (readBy .left connection.history) = some value ∧
      right.result (readBy .right connection.history) = some value'
  carried : ∀ connection, Ran left right connection →
    ∀ side, Dropped side connection.history ∧
      readBy side connection.history = writtenBy side.other connection.history

section Delivers

variable {party : Ending UInt8 UInt8 α} {side : Side} {history : List Event}

/-- A party that returns at the last byte does not come to the end. -/
theorem bytes_of_taken (htaken : TakenBytes party side history) {whole : Bytes}
    (hle : takenBy side history <+: whole.map some ++ [none])
    (hreturns : (party.result whole).isSome) :
    takenBy side history = (readBy side history).map some ∧ readBy side history <+: whole := by
  obtain ⟨rest, hrest⟩ := hle
  have hgiven := congrArg Duplex.given hrest
  rcases htaken with htaken | ⟨htaken, hwaits⟩
  · rw [htaken, given_map_some_append, given_map_some_append] at hgiven
    exact ⟨htaken, Duplex.given rest, by simpa [Duplex.given] using hgiven⟩
  · rw [htaken, List.append_assoc, given_map_some_append, given_map_some_append] at hgiven
    have hread : readBy side history = whole := by simpa [Duplex.given] using hgiven
    rw [hread] at hwaits
    rw [hwaits] at hreturns
    cases hreturns

/-- A read that got nothing took out the end. -/
theorem none_mem_takenBy {size : Nat} (hread : ((side, .read size), .read []) ∈ history) :
    none ∈ takenBy side history := by
  refine List.mem_flatMap.mpr ⟨_, hread, ?_⟩
  simp [itemsTaken]

/-- A side that has taken bytes only has not seen the end of the stream. -/
theorem not_read_nil (htaken : takenBy side history = (readBy side history).map some)
    (size : Nat) : ((side, .read size), .read []) ∉ history := by
  intro hread
  have hmem := none_mem_takenBy hread
  rw [htaken] at hmem
  simp at hmem

/-- What a party has handed over that has returned. -/
theorem givenBy_of_returned {written : Bytes} (htaken : takenBy side history =
      (readBy side history).map some)
    (hgiven : GivenBytes side history)
    (hall : givenBy side history = party.outputs (takenBy side history))
    {value : α} (hvalue : party.result (readBy side history) = some value)
    (hwritten : party.output (readBy side history) = written) :
    Dropped side history ∧ writtenBy side history = written := by
  have hreturned : (party.result (Duplex.given (takenBy side history))).isSome := by
    simp [htaken, hvalue]
  rw [Ending.outputs_of_returned hreturned, htaken, given_map_some, hwritten] at hall
  have hdropped := dropped_of_end hgiven (by simp [hall])
  refine ⟨hdropped, ?_⟩
  rw [(hgiven.resolve_left fun h => h.1 hdropped).2] at hall
  have hbytes := congrArg Duplex.given hall
  simpa [Duplex.given] using hbytes

/-- One conversation in which both parties return and everything is read decides every run
over the transport. -/
theorem delivers_of_talk {read written : Bytes} {value : α} {value' : β}
    (htalk : Talk left.toProcess right.toProcess read written)
    (hleft : left.result read = some value) (hright : right.result written = some value')
    (hwritten : left.output read = written) (hwritten' : right.output written = read) :
    Delivers left right value value' := by
  have hcloses := Ending.closes_of_returned htalk hleft hright
  have hconnects := connects_of_concludes
    (hcloses.concludes (Ending.closing_quits left) (Ending.closing_quits right))
  have hend : left.outputs (read.map some) = written.map some ++ [none] := by
    rw [Ending.outputs_of_returned (by simp [hleft]), given_map_some, hwritten]
  have hend' : right.outputs (written.map some) = read.map some ++ [none] := by
    rw [Ending.outputs_of_returned (by simp [hright]), given_map_some, hwritten']
  -- no party takes out more than the bytes of the conversation
  have htaken {connection : Connection}
      (hreaches : Reaches (Connection.step left right) .start connection) :
      (takenBy .left connection.history = (readBy .left connection.history).map some ∧
          readBy .left connection.history <+: read) ∧
        takenBy .right connection.history = (readBy .right connection.history).map some ∧
          readBy .right connection.history <+: written := by
    obtain ⟨hmirrors, hreached⟩ := mirrors_of_reaches hreaches
    have hbounded := hcloses.rests.bounded (Ending.closing_quits left) (Ending.closing_quits right)
      hreached
    have hleftTaken : takenBy .left connection.history <+: right.outputs (written.map some) :=
      hbounded.orderly.leftArrived.trans
        (hbounded.orderly.rightWritten.trans hbounded.rightOutput)
    have hrightTaken : takenBy .right connection.history <+: left.outputs (read.map some) :=
      hbounded.orderly.rightArrived.trans
        (hbounded.orderly.leftWritten.trans hbounded.leftOutput)
    exact ⟨bytes_of_taken hmirrors.left (hend' ▸ hleftTaken) (by simp [hleft]),
      bytes_of_taken hmirrors.right (hend ▸ hrightTaken) (by simp [hright])⟩
  -- and where no call can be made it has taken out all of them
  have hall {connection : Connection} (hran : Ran left right connection) :
      readBy .left connection.history = read ∧ readBy .right connection.history = written := by
    obtain ⟨hleftTaken, hrightTaken⟩ := htaken hran.reaches
    obtain ⟨-, hreached⟩ := mirrors_of_reaches hran.reaches
    obtain ⟨hfront, hfront'⟩ := hran.still.front (orderly_of_reaches hreached) hcloses.talk
    have hread : read.map some <+: takenBy .left connection.history := hfront
    have hread' : written.map some <+: takenBy .right connection.history := hfront'
    rw [hleftTaken.1, List.prefix_map_iff_of_injective (Option.some_injective _)] at hread
    rw [hrightTaken.1, List.prefix_map_iff_of_injective (Option.some_injective _)] at hread'
    exact ⟨hleftTaken.2.eq_of_length
        (Nat.le_antisymm hleftTaken.2.length_le hread.length_le),
      hrightTaken.2.eq_of_length (Nat.le_antisymm hrightTaken.2.length_le hread'.length_le)⟩
  refine ⟨hconnects.1, fun connection hreaches side size => ?_, fun connection hran => ?_,
    fun connection hran side => ?_⟩
  · obtain ⟨hleftTaken, hrightTaken⟩ := htaken hreaches
    cases side with
    | left => exact not_read_nil hleftTaken.1 size
    | right => exact not_read_nil hrightTaken.1 size
  · rw [(hall hran).1, (hall hran).2]
    exact ⟨hleft, hright⟩
  · obtain ⟨hleftTaken, hrightTaken⟩ := htaken hran.reaches
    obtain ⟨hmirrors, -⟩ := mirrors_of_reaches hran.reaches
    have hgiven := givenBytes_of_runs hmirrors.runs
    obtain ⟨hread, hread'⟩ := hall hran
    have hdone := givenBy_of_returned hleftTaken.1 (hgiven .left) hran.still.leftWritten
      (hread ▸ hleft) (hread ▸ hwritten)
    have hdone' := givenBy_of_returned hrightTaken.1 (hgiven .right) hran.still.rightWritten
      (hread' ▸ hright) (hread' ▸ hwritten')
    cases side with
    | left => exact ⟨hdone.1, hread.trans hdone'.2.symm⟩
    | right => exact ⟨hdone'.1, hread'.trans hdone.2.symm⟩

end Delivers

end Comm

import TptAte.Duplex.Process

/-! # Transfers of many items

Processes that hand over many items at a time, and that may be given more items than
they need. A process that has returned writes nothing more, so what it is given then
makes no difference: a conversation that leaves nothing to say decides every run.
-/

namespace Duplex

universe u v w x

variable {ι : Type u} {ο : Type v} {α : Type w} {β : Type x}

/-- A process that has returned writes nothing more. -/
def Process.Quits (process : Process ι ο α) : Prop :=
  ∀ {read more : List ι} {value : α}, read <+: more → process.result read = some value →
    process.output more = process.output read

/-- A step in which at most so many items are handed over. -/
inductive Transfer where
  | writes (count : Nat)
  | reads (count : Nat)

/-- What a process has read and written after a step. It reads when it has written
everything and has not returned. -/
def Process.transfer (process : Process ι ο α) (read : List ι) (written : List ο)
    (arrived : List ι) : Transfer → Option (List ι × List ο)
  | .writes count =>
      match ((process.output read).drop written.length).take count with
      | [] => none
      | item :: items => some (read, written ++ item :: items)
  | .reads count =>
      if (process.output read).length ≤ written.length ∧ (process.result read).isNone then
        match (arrived.drop read.length).take count with
        | [] => none
        | item :: items => some (read ++ item :: items, written)
      else none

def Exchange.transfer (left : Process ι ο α) (right : Process ο ι β) :
    Side × Transfer → Exchange ι ο → Option (Exchange ι ο)
  | (.left, transfer), exchange =>
      (left.transfer exchange.leftRead exchange.leftWritten exchange.rightWritten transfer).map
        fun (leftRead, leftWritten) => { exchange with leftRead, leftWritten }
  | (.right, transfer), exchange =>
      (right.transfer exchange.rightRead exchange.rightWritten exchange.leftWritten transfer).map
        fun (rightRead, rightWritten) => { exchange with rightRead, rightWritten }

/-- All runs are finite, and where none of the processes can make a step they have come
to these outcomes; a process that has not returned has none. -/
def Concludes (left : Process ι ο α) (right : Process ο ι β) (outcome : Option α)
    (outcome' : Option β) : Prop :=
  Terminates (Exchange.transfer left right) .start ∧
    ∀ exchange, Reaches (Exchange.transfer left right) .start exchange →
      (∀ exchange', ¬ Moves (Exchange.transfer left right) exchange exchange') →
      left.result exchange.leftRead = outcome ∧ right.result exchange.rightRead = outcome'

/-! ## Systems that follow another one -/

/-- A system whose moves are moves of another one, or steps aside that do not go on
forever, has no endless run if the other one has none. -/
theorem Terminates.of_simulation {Mover Mover' : Type u} {State : Type v} {State' : Type w}
    {step : Mover → State → Option State} {step' : Mover' → State' → Option State'}
    {related : State → State' → Prop} (aside : State → Nat)
    (hmoves : ∀ state state' next, related state state' → Moves step state next →
      (∃ next', Moves step' state' next' ∧ related next next') ∨
        (related next state' ∧ aside next < aside state))
    {state : State} {state' : State'} (hrelated : related state state')
    (h : Terminates step' state') : Terminates step state := by
  rw [terminates_iff_acc] at h ⊢
  induction h generalizing state with
  | intro state' _ ih =>
      induction hcount : aside state using Nat.strong_induction_on generalizing state with
      | _ count ihcount =>
          refine ⟨_, fun next hnext => ?_⟩
          rcases hmoves state state' next hrelated hnext with
            ⟨next', hnext', hrelated'⟩ | ⟨hrelated', hless⟩
          · exact ih next' hnext' hrelated'
          · exact ihcount _ (hcount ▸ hless) hrelated' rfl

/-! ## One step -/

section Lists

variable {γ : Type u}

/-- More items of a list. -/
theorem prefix_append_take {front whole : List γ} (hfront : front <+: whole) (count : Nat) :
    front ++ (whole.drop front.length).take count <+: whole := by
  obtain ⟨rest, rfl⟩ := hfront
  rw [List.drop_left]
  exact (List.prefix_append_right_inj front).mpr (List.take_prefix count rest)

end Lists

section Steps

variable {process : Process ι ο α} {read arrived read' : List ι} {written written' : List ο}

/-- What a step does: it hands over items that are owed or have arrived. -/
theorem Process.transfer_eq_some {transfer : Transfer}
    (h : process.transfer read written arrived transfer = some (read', written'))
    (hwritten : written <+: process.output read) (hread : read <+: arrived) :
    read <+: read' ∧ read' <+: arrived ∧ written <+: written' ∧ written' <+: process.output read ∧
      read.length + written.length < read'.length + written'.length ∧
      (read' ≠ read → process.result read = none) := by
  cases transfer with
  | writes count =>
      have hmore := prefix_append_take hwritten count
      simp only [Process.transfer] at h
      split at h
      · cases h
      next item items htake =>
        rw [htake] at hmore
        cases h
        refine ⟨List.prefix_rfl, hread, List.prefix_append _ _, hmore, ?_, fun h => (h rfl).elim⟩
        rw [List.length_append, List.length_cons]
        omega
  | reads count =>
      have hmore := prefix_append_take hread count
      simp only [Process.transfer] at h
      split at h
      next hready =>
        split at h
        · cases h
        next item items htake =>
          rw [htake] at hmore
          cases h
          refine ⟨List.prefix_append _ _, hmore, List.prefix_rfl, hwritten, ?_,
            fun _ => Option.isNone_iff_eq_none.mp hready.2⟩
          rw [List.length_append, List.length_cons]
          omega
      · cases h

/-- A process that owes items can write as many of them as there are. -/
theorem Process.transfer_writes {items : List ο} (hne : items ≠ [])
    (hitems : written ++ items <+: process.output read) :
    process.transfer read written arrived (.writes items.length) =
      some (read, written ++ items) := by
  obtain ⟨rest, hrest⟩ := hitems
  have htake : ((process.output read).drop written.length).take items.length = items := by
    rw [← hrest, List.append_assoc, List.drop_left, List.take_left]
  cases items with
  | nil => exact (hne rfl).elim
  | cons item items => simp only [Process.transfer, htake]

/-- A process that waits can read as many items as have arrived. -/
theorem Process.transfer_reads {items : List ι} (hne : items ≠ [])
    (hwritten : (process.output read).length ≤ written.length)
    (hwaits : process.result read = none) (hitems : read ++ items <+: arrived) :
    process.transfer read written arrived (.reads items.length) =
      some (read ++ items, written) := by
  obtain ⟨rest, hrest⟩ := hitems
  have htake : (arrived.drop read.length).take items.length = items := by
    rw [← hrest, List.append_assoc, List.drop_left, List.take_left]
  cases items with
  | nil => exact (hne rfl).elim
  | cons item items =>
      simp only [Process.transfer, htake]
      exact if_pos ⟨hwritten, Option.isNone_iff_eq_none.mpr hwaits⟩

/-- A process makes a step where it owes something, or waits and something has arrived. -/
theorem Process.exists_transfer_iff (hwritten : written <+: process.output read)
    (hread : read <+: arrived) :
    (∃ transfer next, process.transfer read written arrived transfer = some next) ↔
      written ≠ process.output read ∨ (process.result read = none ∧ read ≠ arrived) := by
  constructor
  · rintro ⟨transfer, ⟨read', written'⟩, htransfer⟩
    obtain ⟨hmore, harrived, hgrown, howed, hlength, hwaits⟩ :=
      Process.transfer_eq_some htransfer hwritten hread
    by_cases howes : written = process.output read
    · -- nothing more is written, so something is read
      have hwritten' := howed.length_le
      rw [← howes] at hwritten'
      refine .inr ⟨hwaits ?_, ?_⟩
      · rintro rfl
        omega
      · rintro rfl
        have hread' := harrived.length_le
        omega
    · exact .inl howes
  intro h
  by_cases howes : written = process.output read
  · obtain ⟨hwaits, hne⟩ := h.resolve_left (not_not.mpr howes)
    obtain ⟨items, rfl⟩ := hread
    have hwritten : (process.output read).length ≤ written.length := by rw [howes]
    refine ⟨_, _, Process.transfer_reads ?_ hwritten hwaits List.prefix_rfl⟩
    rintro rfl
    exact hne (List.append_nil read).symm
  · obtain ⟨items, hitems⟩ := hwritten
    have howed : written ++ items <+: process.output read := hitems ▸ List.prefix_rfl
    refine ⟨_, _, Process.transfer_writes ?_ howed⟩
    rintro rfl
    exact howes ((List.append_nil written).symm.trans hitems)

end Steps

section Runs

variable {left : Process ι ο α} {right : Process ο ι β} {exchange exchange' : Exchange ι ο}

/-- An exchange moves by one transfer of one side. -/
theorem moves_transfer_iff :
    Moves (Exchange.transfer left right) exchange exchange' ↔
      (∃ transfer leftRead leftWritten, left.transfer exchange.leftRead exchange.leftWritten
          exchange.rightWritten transfer = some (leftRead, leftWritten) ∧
        exchange' = { exchange with leftRead, leftWritten }) ∨
      ∃ transfer rightRead rightWritten, right.transfer exchange.rightRead exchange.rightWritten
          exchange.leftWritten transfer = some (rightRead, rightWritten) ∧
        exchange' = { exchange with rightRead, rightWritten } := by
  constructor
  · rintro ⟨⟨side, transfer⟩, hstep⟩
    cases side with
    | left =>
        obtain ⟨⟨read, written⟩, htransfer, rfl⟩ := Option.map_eq_some_iff.mp hstep
        exact .inl ⟨transfer, read, written, htransfer, rfl⟩
    | right =>
        obtain ⟨⟨read, written⟩, htransfer, rfl⟩ := Option.map_eq_some_iff.mp hstep
        exact .inr ⟨transfer, read, written, htransfer, rfl⟩
  · rintro (⟨transfer, read, written, htransfer, rfl⟩ | ⟨transfer, read, written, htransfer, rfl⟩)
    · exact ⟨(.left, transfer), Option.map_eq_some_iff.mpr ⟨_, htransfer, rfl⟩⟩
    · exact ⟨(.right, transfer), Option.map_eq_some_iff.mpr ⟨_, htransfer, rfl⟩⟩

/-- What holds in every state of every run of two processes: written items are owed, and
read items were written. -/
structure Orderly (left : Process ι ο α) (right : Process ο ι β) (exchange : Exchange ι ο) :
    Prop where
  leftWritten : exchange.leftWritten <+: left.output exchange.leftRead
  rightWritten : exchange.rightWritten <+: right.output exchange.rightRead
  leftArrived : exchange.leftRead <+: exchange.rightWritten
  rightArrived : exchange.rightRead <+: exchange.leftWritten

theorem orderly_start : Orderly left right .start :=
  ⟨List.nil_prefix, List.nil_prefix, List.nil_prefix, List.nil_prefix⟩

theorem Orderly.swap (h : Orderly left right exchange) : Orderly right left exchange.swap :=
  ⟨h.rightWritten, h.leftWritten, h.rightArrived, h.leftArrived⟩

/-- Every transfer keeps an exchange orderly. -/
theorem Orderly.moves (h : Orderly left right exchange)
    (hmoves : Moves (Exchange.transfer left right) exchange exchange') :
    Orderly left right exchange' := by
  rcases moves_transfer_iff.mp hmoves with ⟨transfer, read, written, htransfer, rfl⟩ |
    ⟨transfer, read, written, htransfer, rfl⟩
  · obtain ⟨hmore, harrived, hgrown, howed, -, -⟩ :=
      Process.transfer_eq_some htransfer h.leftWritten h.leftArrived
    exact ⟨howed.trans (left.output_mono hmore), h.rightWritten, harrived,
      h.rightArrived.trans hgrown⟩
  · obtain ⟨hmore, harrived, hgrown, howed, -, -⟩ :=
      Process.transfer_eq_some htransfer h.rightWritten h.rightArrived
    exact ⟨h.leftWritten, howed.trans (right.output_mono hmore), h.leftArrived.trans hgrown,
      harrived⟩

/-- Every exchange that is reached is orderly. -/
theorem orderly_of_reaches (hreaches : Reaches (Exchange.transfer left right) .start exchange) :
    Orderly left right exchange :=
  hreaches.inv (fun _ _ h hmoves => h.moves hmoves) orderly_start

/-- Where nothing moves everything owed is written, and a process that has not returned
has read all that was written. -/
structure Still (left : Process ι ο α) (right : Process ο ι β) (exchange : Exchange ι ο) :
    Prop where
  leftWritten : exchange.leftWritten = left.output exchange.leftRead
  rightWritten : exchange.rightWritten = right.output exchange.rightRead
  leftRead : left.result exchange.leftRead = none → exchange.leftRead = exchange.rightWritten
  rightRead : right.result exchange.rightRead = none → exchange.rightRead = exchange.leftWritten

theorem Still.swap (h : Still left right exchange) : Still right left exchange.swap :=
  ⟨h.rightWritten, h.leftWritten, h.rightRead, h.leftRead⟩

/-- Where no transfer is possible, both sides have written everything, and who waits has read
everything. -/
theorem Orderly.still (h : Orderly left right exchange)
    (hstill : ∀ exchange', ¬ Moves (Exchange.transfer left right) exchange exchange') :
    Still left right exchange := by
  have hleft := mt (Process.exists_transfer_iff h.leftWritten h.leftArrived).mpr
    fun ⟨_, _, htransfer⟩ => hstill _ (moves_transfer_iff.mpr (.inl ⟨_, _, _, htransfer, rfl⟩))
  have hright := mt (Process.exists_transfer_iff h.rightWritten h.rightArrived).mpr
    fun ⟨_, _, htransfer⟩ => hstill _ (moves_transfer_iff.mpr (.inr ⟨_, _, _, htransfer, rfl⟩))
  simp only [not_or, not_and, not_not] at hleft hright
  exact ⟨hleft.1, hright.1, hleft.2, hright.2⟩

/-- A side that has written its whole output cannot write. -/
theorem Still.not_write {process : Process ι ο α} {read : List ι} {written written' : List ο}
    (hwritten : written = process.output read) :
    process.write read written ≠ some written' := by
  intro hwrite
  obtain ⟨howed, -, hlength⟩ := Process.write_eq_some hwrite (hwritten ▸ List.prefix_rfl)
  have hle := howed.length_le
  rw [← hwritten] at hle
  omega

/-- A side that has returned, or has read all that arrived, cannot read. -/
theorem Still.not_read {process : Process ι ο α} {read arrived read' : List ι} {written : List ο}
    (hread : process.result read = none → read = arrived) (harrived : read <+: arrived) :
    process.read read written arrived ≠ some read' := by
  intro hreads
  obtain ⟨hmore, -, hlength, hwaits⟩ := Process.read_eq_some hreads harrived
  have hle := hmore.length_le
  rw [← hread hwaits] at hle
  omega

/-- Where nothing moves all of a conversation has taken place. -/
theorem Still.front {front : List ι} {front' : List ο} (h : Orderly left right exchange)
    (hstill : Still left right exchange) (htalk : Talk left right front front') :
    front <+: exchange.leftRead ∧ front' <+: exchange.rightRead := by
  have hfollows : Follows left right exchange.leftRead exchange.rightRead exchange :=
    ⟨h.leftWritten, h.rightWritten, h.leftArrived, h.rightArrived, List.prefix_rfl,
      List.prefix_rfl⟩
  refine hfollows.read_of_still (fun exchange' hmoves => ?_) htalk
  rcases moves_iff.mp hmoves with
    ⟨_, hwrite, -⟩ | ⟨_, hreads, -⟩ | ⟨_, hwrite, -⟩ | ⟨_, hreads, -⟩
  · exact Still.not_write hstill.leftWritten hwrite
  · exact Still.not_read hstill.leftRead h.leftArrived hreads
  · exact Still.not_write hstill.rightWritten hwrite
  · exact Still.not_read hstill.rightRead h.rightArrived hreads

/-! ## Conversations that leave nothing to say -/

/-- A conversation that cannot go on: each process has returned or has read all that the
other one writes. -/
structure Closes (left : Process ι ο α) (right : Process ο ι β) (read : List ι)
    (read' : List ο) : Prop where
  talk : Talk left right read read'
  leftDone : (left.result read).isSome ∨ right.output read' = read
  rightDone : (right.result read').isSome ∨ left.output read = read'

theorem Closes.swap {read : List ι} {read' : List ο} (h : Closes left right read read') :
    Closes right left read' read :=
  ⟨h.talk.swap, h.rightDone, h.leftDone⟩

/-- What two processes have read where nothing is left to say, be it more than they needed. -/
structure Rests (left : Process ι ο α) (right : Process ο ι β) (read : List ι)
    (read' : List ο) : Prop where
  leftArrived : read <+: right.output read'
  rightArrived : read' <+: left.output read
  leftDone : (left.result read).isSome ∨ right.output read' = read
  rightDone : (right.result read').isSome ∨ left.output read = read'

theorem Rests.swap {read : List ι} {read' : List ο} (h : Rests left right read read') :
    Rests right left read' read :=
  ⟨h.rightArrived, h.leftArrived, h.rightDone, h.leftDone⟩

/-- A talk that closes comes to rest. -/
theorem Closes.rests {read : List ι} {read' : List ο} (h : Closes left right read read') :
    Rests left right read read' :=
  ⟨h.talk.prefix_left, h.talk.swap.prefix_left, h.leftDone, h.rightDone⟩

/-- Nothing is left to say where nothing moves. -/
theorem Still.rests (h : Orderly left right exchange) (hstill : Still left right exchange) :
    Rests left right exchange.leftRead exchange.rightRead where
  leftArrived := h.leftArrived.trans h.rightWritten
  rightArrived := h.rightArrived.trans h.leftWritten
  leftDone := by
    cases hresult : left.result exchange.leftRead with
    | some value => exact .inl rfl
    | none => exact .inr (hstill.rightWritten.symm.trans (hstill.leftRead hresult).symm)
  rightDone := by
    cases hresult : right.result exchange.rightRead with
    | some value => exact .inl rfl
    | none => exact .inr (hstill.leftWritten.symm.trans (hstill.rightRead hresult).symm)

/-- No process writes more than in the conversation. -/
structure Bounded (left : Process ι ο α) (right : Process ο ι β) (read : List ι)
    (read' : List ο) (exchange : Exchange ι ο) : Prop where
  orderly : Orderly left right exchange
  leftOutput : left.output exchange.leftRead <+: left.output read
  rightOutput : right.output exchange.rightRead <+: right.output read'

theorem Bounded.swap {read : List ι} {read' : List ο}
    (h : Bounded left right read read' exchange) :
    Bounded right left read' read exchange.swap :=
  ⟨h.orderly.swap, h.rightOutput, h.leftOutput⟩

/-- What the left process is given does not make it write more. -/
theorem Rests.output_le {read early : List ι} {read' : List ο} (hquits : left.Quits)
    (h : Rests left right read read') (hearly : early <+: right.output read') :
    left.output early <+: left.output read := by
  rcases h.leftDone with hreturned | hall
  · obtain ⟨value, hvalue⟩ := Option.isSome_iff_exists.mp hreturned
    rcases List.prefix_or_prefix_of_prefix hearly h.leftArrived with hless | hmore
    · exact left.output_mono hless
    · rw [hquits hmore hvalue]
  · rw [hall] at hearly
    exact left.output_mono hearly

/-- Every transfer stays within the bounds of a talk that rests. -/
theorem Bounded.moves {read : List ι} {read' : List ο} (hquits : left.Quits)
    (hquits' : right.Quits) (hrests : Rests left right read read')
    (h : Bounded left right read read' exchange)
    (hmoves : Moves (Exchange.transfer left right) exchange exchange') :
    Bounded left right read read' exchange' := by
  have horderly := h.orderly.moves hmoves
  have hleft : exchange'.leftRead <+: right.output read' → left.output exchange'.leftRead <+:
    left.output read := hrests.output_le hquits
  have hright : exchange'.rightRead <+: left.output read → right.output exchange'.rightRead <+:
    right.output read' := hrests.swap.output_le hquits'
  -- one process moves, and what it has read was written before
  rcases moves_transfer_iff.mp hmoves with ⟨transfer, leftRead, leftWritten, -, rfl⟩ |
    ⟨transfer, rightRead, rightWritten, -, rfl⟩
  · have hread := horderly.leftArrived.trans (h.orderly.rightWritten.trans h.rightOutput)
    exact ⟨horderly, hleft hread, h.rightOutput⟩
  · have hread := horderly.rightArrived.trans (h.orderly.leftWritten.trans h.leftOutput)
    exact ⟨horderly, h.leftOutput, hright hread⟩

theorem bounded_start {read : List ι} {read' : List ο} :
    Bounded left right read read' .start :=
  ⟨orderly_start, left.output_mono List.nil_prefix, right.output_mono List.nil_prefix⟩

/-- What is left to hand over. -/
def unmoved (left : Process ι ο α) (right : Process ο ι β) (read : List ι) (read' : List ο)
    (exchange : Exchange ι ο) : Nat :=
  2 * ((left.output read).length + (right.output read').length) -
    (exchange.leftRead.length + exchange.leftWritten.length +
      (exchange.rightRead.length + exchange.rightWritten.length))

/-- Every transfer leaves less to move: the measure by which an exchange terminates. -/
theorem Bounded.unmoved_lt {read : List ι} {read' : List ο}
    (h : Bounded left right read read' exchange) (h' : Bounded left right read read' exchange')
    (hmoves : Moves (Exchange.transfer left right) exchange exchange') :
    unmoved left right read read' exchange' < unmoved left right read read' exchange := by
  have hleft := (h'.orderly.leftWritten.trans h'.leftOutput).length_le
  have hright := (h'.orderly.rightWritten.trans h'.rightOutput).length_le
  have hleftRead := h'.orderly.leftArrived.length_le
  have hrightRead := h'.orderly.rightArrived.length_le
  simp only [unmoved]
  rcases moves_transfer_iff.mp hmoves with ⟨transfer, leftRead, leftWritten, htransfer, rfl⟩ |
    ⟨transfer, rightRead, rightWritten, htransfer, rfl⟩
  · obtain ⟨-, -, -, -, hless, -⟩ :=
      Process.transfer_eq_some htransfer h.orderly.leftWritten h.orderly.leftArrived
    dsimp only at hleft hright hleftRead hrightRead ⊢
    omega
  · obtain ⟨-, -, -, -, hless, -⟩ :=
      Process.transfer_eq_some htransfer h.orderly.rightWritten h.orderly.rightArrived
    dsimp only at hleft hright hleftRead hrightRead ⊢
    omega

/-- All that is reached stays within the bounds of a talk that rests. -/
theorem Rests.bounded {read : List ι} {read' : List ο} (hquits : left.Quits)
    (hquits' : right.Quits) (h : Rests left right read read')
    (hreaches : Reaches (Exchange.transfer left right) .start exchange) :
    Bounded left right read read' exchange :=
  hreaches.inv (fun _ _ hbounded hmoves => hbounded.moves hquits hquits' h hmoves) bounded_start

/-- An exchange whose talk comes to rest terminates. -/
theorem Rests.terminates {read : List ι} {read' : List ο} (hquits : left.Quits)
    (hquits' : right.Quits) (h : Rests left right read read') :
    Terminates (Exchange.transfer left right) .start := by
  refine @terminates_of_measure _ _ _ _ (Bounded left right read read')
    (unmoved left right read read') ?_ bounded_start
  intro exchange exchange' hbounded hmove
  have hbounded' := hbounded.moves hquits hquits' h hmove
  exact ⟨hbounded', hbounded.unmoved_lt hbounded' hmove⟩

/-- What a process has come to where nothing is left to say. -/
theorem Rests.result_eq {read more : List ι} {read' more' : List ο}
    (h : Rests left right read read') (h' : Rests left right more more')
    (hle : read <+: more) (hall : right.output more' <+: right.output read') :
    left.result more = left.result read := by
  rcases h.leftDone with hreturned | hread
  · obtain ⟨value, hvalue⟩ := Option.isSome_iff_exists.mp hreturned
    rw [hvalue]
    exact left.result_stable hle hvalue
  · have hmore := h'.leftArrived.trans hall
    rw [hread] at hmore
    rw [hle.eq_of_length (Nat.le_antisymm hle.length_le hmore.length_le)]

/-- Where nothing moves, and where nothing is left to say, a process has come to the same. -/
theorem Rests.result_of_still {read : List ι} {read' : List ο}
    (h : Rests left right read read') (hbounded : Bounded left right read read' exchange)
    (hstill : Still left right exchange)
    (hback : right.output read' <+: right.output exchange.rightRead) :
    left.result exchange.leftRead = left.result read := by
  have hrests := hstill.rests hbounded.orderly
  have harrived := hrests.leftArrived.trans hbounded.rightOutput
  rcases List.prefix_or_prefix_of_prefix harrived h.leftArrived with hless | hmore
  · exact (hrests.result_eq h hless hback).symm
  · exact h.result_eq hrests hmore hbounded.rightOutput

/-- One conversation that cannot go on decides every run. -/
theorem Closes.concludes {read : List ι} {read' : List ο} (hquits : left.Quits)
    (hquits' : right.Quits) (h : Closes left right read read') :
    Concludes left right (left.result read) (right.result read') := by
  refine ⟨h.rests.terminates hquits hquits', fun exchange hreaches hstill => ?_⟩
  have hbounded := h.rests.bounded hquits hquits' hreaches
  have hdone := hbounded.orderly.still hstill
  obtain ⟨hread, hread'⟩ := hdone.front hbounded.orderly h.talk
  exact ⟨h.rests.result_of_still hbounded hdone (right.output_mono hread'),
    h.rests.swap.result_of_still hbounded.swap hdone.swap (left.output_mono hread)⟩

/-! ## One run decides all -/

/-- Two ends of runs at which the processes have come to the same and have written the same. -/
structure SameEnd (left : Process ι ο α) (right : Process ο ι β)
    (exchange exchange' : Exchange ι ο) : Prop where
  leftResult : left.result exchange'.leftRead = left.result exchange.leftRead
  rightResult : right.result exchange'.rightRead = right.result exchange.rightRead
  leftWritten : exchange'.leftWritten = exchange.leftWritten
  rightWritten : exchange'.rightWritten = exchange.rightWritten

/-- If one run comes to an end then all runs are finite and come to that end, however the steps
interleave and however many items each of them hands over. -/
theorem Still.decides (hquits : left.Quits) (hquits' : right.Quits)
    (hreaches : Reaches (Exchange.transfer left right) .start exchange)
    (hstill : Still left right exchange) :
    Terminates (Exchange.transfer left right) .start ∧
      ∀ exchange', Reaches (Exchange.transfer left right) .start exchange' →
        Still left right exchange' → SameEnd left right exchange exchange' := by
  have hrests := hstill.rests (orderly_of_reaches hreaches)
  refine ⟨hrests.terminates hquits hquits', fun exchange' hreaches' hstill' => ?_⟩
  have hbounded := hrests.bounded hquits hquits' hreaches'
  have hback := (hstill'.rests (orderly_of_reaches hreaches')).bounded hquits hquits' hreaches
  refine ⟨hrests.result_of_still hbounded hstill' hback.rightOutput,
    hrests.swap.result_of_still hbounded.swap hstill'.swap hback.leftOutput, ?_, ?_⟩
  · rw [hstill.leftWritten, hstill'.leftWritten]
    exact hbounded.leftOutput.eq_of_length
      (Nat.le_antisymm hbounded.leftOutput.length_le hback.leftOutput.length_le)
  · rw [hstill.rightWritten, hstill'.rightWritten]
    exact hbounded.rightOutput.eq_of_length
      (Nat.le_antisymm hbounded.rightOutput.length_le hback.rightOutput.length_le)

end Runs

/-- A conversation that cannot go on, behind one in which everything that was written is
read. -/
theorem Closes.chain {γ : Type w} {δ : Type x} {left : Process ι ο γ} {right : Process ο ι δ}
    {first : Process ι ο α} {first' : Process ο ι β} {second : Process ι ο γ}
    {second' : Process ο ι δ} {read more : List ι} {read' more' : List ο}
    (hleft : left.Chains first read second) (hright : right.Chains first' read' second')
    (htalk : Talk first first' read read') (hwritten : first.output read = read')
    (hwritten' : first'.output read' = read) (h : Closes second second' more more') :
    Closes left right (read ++ more) (read' ++ more') where
  talk := htalk.chain hleft hright hwritten hwritten' h.talk
  leftDone := by
    rw [hleft.result, hright.output, hwritten']
    exact h.leftDone.imp_right fun hall => congrArg (read ++ ·) hall
  rightDone := by
    rw [hright.result, hleft.output, hwritten]
    exact h.rightDone.imp_right fun hall => congrArg (read' ++ ·) hall

end Duplex

import TptAte.Duplex.System
import Mathlib.Data.List.Infix

/-! # Processes on a duplex

A process writes items and waits for items: what it has written and whether it has
returned depend on what it has read alone, and more input only adds to them. Two
processes on a reliable duplex read, item by item, what the other has written, in
any order of steps. If there is one conversation in which both return, then both
return in every run, with the same results.
-/

namespace Duplex

universe u v w x

/-- What a process has written, and whether it has returned, when it has read some
items and has no more. -/
structure Process (In : Type u) (Out : Type v) (Result : Type w) where
  output : List In → List Out
  result : List In → Option Result
  output_mono : ∀ {read more : List In}, read <+: more → output read <+: output more
  result_stable : ∀ {read more : List In} {value : Result}, read <+: more →
    result read = some value → result more = some value

section Lists

variable {α : Type u}

/-- Of two prefixes of a list one is a prefix of the other. -/
theorem prefix_or_prefix {first second whole : List α} (hfirst : first <+: whole)
    (hsecond : second <+: whole) : first <+: second ∨ (second <+: first ∧ second ≠ first) := by
  rcases List.prefix_or_prefix_of_prefix hfirst hsecond with h | h
  · exact .inl h
  · by_cases heq : second = first
    · exact .inl (heq ▸ List.prefix_rfl)
    · exact .inr ⟨h, heq⟩

/-- One more item of a list. -/
theorem prefix_concat {read whole rest : List α} {item : α} (hread : read <+: whole)
    (hdrop : whole.drop read.length = item :: rest) : read ++ [item] <+: whole := by
  obtain ⟨tail, rfl⟩ := hread
  rw [List.drop_left] at hdrop
  subst hdrop
  exact ⟨rest, by simp⟩

/-- A proper prefix leaves an item to read. -/
theorem exists_drop_eq_cons {read whole : List α} (hread : read <+: whole) (hne : read ≠ whole) :
    ∃ item rest, whole.drop read.length = item :: rest := by
  obtain ⟨tail, rfl⟩ := hread
  rw [List.drop_left]
  cases tail with
  | nil => exact (hne (List.append_nil read).symm).elim
  | cons item rest => exact ⟨item, rest, rfl⟩

end Lists

variable {ι : Type u} {ο : Type v} {α : Type w} {β : Type x}

/-! ## Exchanges -/

/-- What two processes have read and written. -/
structure Exchange (ι : Type u) (ο : Type v) where
  leftRead : List ι
  leftWritten : List ο
  rightRead : List ο
  rightWritten : List ι

/-- The steps of two processes. -/
inductive Action where
  | leftWrites
  | leftReads
  | rightWrites
  | rightReads

def Process.write (process : Process ι ο α) (read : List ι) (written : List ο) :
    Option (List ο) :=
  match (process.output read).drop written.length with
  | [] => none
  | item :: _ => some (written ++ [item])

/-- A process that has written everything and has not returned reads the next item
that has arrived. -/
def Process.read (process : Process ι ο α) (read : List ι) (written : List ο)
    (arrived : List ι) : Option (List ι) :=
  if (process.output read).length ≤ written.length ∧ (process.result read).isNone then
    match arrived.drop read.length with
    | [] => none
    | item :: _ => some (read ++ [item])
  else none

namespace Exchange

def start : Exchange ι ο := ⟨[], [], [], []⟩

def swap (exchange : Exchange ι ο) : Exchange ο ι :=
  ⟨exchange.rightRead, exchange.rightWritten, exchange.leftRead, exchange.leftWritten⟩

def step (left : Process ι ο α) (right : Process ο ι β) :
    Action → Exchange ι ο → Option (Exchange ι ο)
  | .leftWrites, exchange =>
      (left.write exchange.leftRead exchange.leftWritten).map fun leftWritten =>
        { exchange with leftWritten }
  | .leftReads, exchange =>
      (left.read exchange.leftRead exchange.leftWritten exchange.rightWritten).map
        fun leftRead => { exchange with leftRead }
  | .rightWrites, exchange =>
      (right.write exchange.rightRead exchange.rightWritten).map fun rightWritten =>
        { exchange with rightWritten }
  | .rightReads, exchange =>
      (right.read exchange.rightRead exchange.rightWritten exchange.leftWritten).map
        fun rightRead => { exchange with rightRead }

end Exchange

/-- All runs of two processes are finite, and where none of them can make a step both
have returned these values. -/
def Settles (left : Process ι ο α) (right : Process ο ι β) (value : α) (value' : β) : Prop :=
  Terminates (Exchange.step left right) .start ∧
    ∀ exchange, Reaches (Exchange.step left right) .start exchange →
      (∀ exchange', ¬ Moves (Exchange.step left right) exchange exchange') →
      left.result exchange.leftRead = some value ∧ right.result exchange.rightRead = some value'

/-! ## Conversations -/

/-- Items that are written reach the process that waits for them, many at a time. -/
inductive Talk (left : Process ι ο α) (right : Process ο ι β) : List ι → List ο → Prop
  | silent : Talk left right [] []
  | toLeft {read : List ι} {read' : List ο} (more : List ι) (htalk : Talk left right read read')
      (hwritten : read ++ more <+: right.output read')
      (hwaits : ∀ early, read <+: early → early <+: read ++ more → early ≠ read ++ more →
        left.result early = none) :
      Talk left right (read ++ more) read'
  | toRight {read : List ι} {read' : List ο} (more : List ο) (htalk : Talk left right read read')
      (hwritten : read' ++ more <+: left.output read)
      (hwaits : ∀ early, read' <+: early → early <+: read' ++ more → early ≠ read' ++ more →
        right.result early = none) :
      Talk left right read (read' ++ more)

/-- A conversation in which both processes return. -/
structure Meets (left : Process ι ο α) (right : Process ο ι β) (read : List ι) (read' : List ο)
    (value : α) (value' : β) : Prop where
  talk : Talk left right read read'
  left : left.result read = some value
  right : right.result read' = some value'

section Conversations

variable {left : Process ι ο α} {right : Process ο ι β} {read : List ι} {read' : List ο}

theorem Talk.swap (h : Talk left right read read') : Talk right left read' read := by
  induction h with
  | silent => exact .silent
  | toLeft more _ hwritten hwaits ih => exact .toRight more ih hwritten hwaits
  | toRight more _ hwritten hwaits ih => exact .toLeft more ih hwritten hwaits

/-- What the left process reads in a conversation has been written. -/
theorem Talk.prefix_left (h : Talk left right read read') : read <+: right.output read' := by
  induction h with
  | silent => exact List.nil_prefix
  | toLeft more _ hwritten hwaits ih => exact hwritten
  | toRight more _ hwritten hwaits ih =>
      exact ih.trans (right.output_mono (List.prefix_append _ _))

/-- A process that writes what the left one writes, and waits where that one waits,
converses as it does. -/
theorem Talk.of_left {γ : Type w} {process : Process ι ο γ} (h : Talk left right read read')
    (houtput : ∀ items, process.output items = left.output items)
    (hresult : ∀ items, left.result items = none → process.result items = none) :
    Talk process right read read' := by
  induction h with
  | silent => exact .silent
  | toLeft more _ hwritten hwaits ih =>
      exact .toLeft more ih hwritten fun early hlate hearly hne =>
        hresult early (hwaits early hlate hearly hne)
  | toRight more _ hwritten hwaits ih =>
      exact .toRight more ih (houtput _ ▸ hwritten) hwaits

end Conversations

/-! ## Runs follow every conversation -/

section Steps

variable {process : Process ι ο α} {read arrived : List ι} {written : List ο}

/-- A write adds one item, the next of the output. -/
theorem Process.write_eq_some {written' : List ο} (h : process.write read written = some written')
    (hwritten : written <+: process.output read) :
    written' <+: process.output read ∧ written <+: written' ∧
      written'.length = written.length + 1 := by
  unfold Process.write at h
  split at h
  · cases h
  next item rest hdrop =>
    cases h
    exact ⟨prefix_concat hwritten hdrop, List.prefix_append _ _, by simp⟩

theorem Process.write_eq_none (h : process.write read written = none)
    (hwritten : written <+: process.output read) : written = process.output read := by
  by_contra hne
  obtain ⟨item, rest, hdrop⟩ := exists_drop_eq_cons hwritten hne
  simp [Process.write, hdrop] at h

/-- A read takes one item, the next to arrive, and only a process without a result reads. -/
theorem Process.read_eq_some {read' : List ι} (h : process.read read written arrived = some read')
    (hread : read <+: arrived) :
    read' <+: arrived ∧ read <+: read' ∧ read'.length = read.length + 1 ∧
      process.result read = none := by
  unfold Process.read at h
  split at h
  next hready =>
    split at h
    · cases h
    next item rest hdrop =>
      cases h
      exact ⟨prefix_concat hread hdrop, List.prefix_append _ _, by simp,
        Option.isNone_iff_eq_none.mp hready.2⟩
  · cases h

/-- A process that waits, has written everything and cannot read has read all that arrived. -/
theorem Process.read_eq_none (h : process.read read written arrived = none)
    (hread : read <+: arrived) (hwritten : written = process.output read)
    (hwaits : process.result read = none) : read = arrived := by
  by_contra hne
  obtain ⟨item, rest, hdrop⟩ := exists_drop_eq_cons hread hne
  simp [Process.read, hdrop, hwritten, hwaits] at h

end Steps

/-- What holds in every state of every run: written items are owed, read items were
written, and no process reads more than in the conversation. -/
structure Follows (left : Process ι ο α) (right : Process ο ι β) (read : List ι) (read' : List ο)
    (exchange : Exchange ι ο) : Prop where
  leftWritten : exchange.leftWritten <+: left.output exchange.leftRead
  rightWritten : exchange.rightWritten <+: right.output exchange.rightRead
  leftArrived : exchange.leftRead <+: exchange.rightWritten
  rightArrived : exchange.rightRead <+: exchange.leftWritten
  leftRead : exchange.leftRead <+: read
  rightRead : exchange.rightRead <+: read'

section Runs

variable {left : Process ι ο α} {right : Process ο ι β} {read : List ι} {read' : List ο}
  {value : α} {value' : β}

theorem Meets.swap (h : Meets left right read read' value value') :
    Meets right left read' read value' value :=
  ⟨h.talk.swap, h.right, h.left⟩

theorem Follows.swap {exchange : Exchange ι ο} (h : Follows left right read read' exchange) :
    Follows right left read' read exchange.swap :=
  ⟨h.rightWritten, h.leftWritten, h.rightArrived, h.leftArrived, h.rightRead, h.leftRead⟩

theorem follows_start : Follows left right read read' .start :=
  ⟨List.nil_prefix, List.nil_prefix, List.nil_prefix, List.nil_prefix, List.nil_prefix,
    List.nil_prefix⟩

def remaining (left : Process ι ο α) (right : Process ο ι β) (read : List ι) (read' : List ο)
    (exchange : Exchange ι ο) : Nat :=
  (read.length - exchange.leftRead.length) +
    ((left.output read).length - exchange.leftWritten.length) +
    ((read'.length - exchange.rightRead.length) +
      ((right.output read').length - exchange.rightWritten.length))

theorem remaining_swap (exchange : Exchange ι ο) :
    remaining right left read' read exchange.swap = remaining left right read read' exchange :=
  Nat.add_comm _ _

/-- A write of the left process. -/
theorem Follows.leftWrites {exchange : Exchange ι ο} {leftWritten : List ο}
    (h : Follows left right read read' exchange)
    (hwrite : left.write exchange.leftRead exchange.leftWritten = some leftWritten) :
    Follows left right read read' { exchange with leftWritten } ∧
      remaining left right read read' { exchange with leftWritten } <
        remaining left right read read' exchange := by
  obtain ⟨howed, hmore, hlength⟩ := Process.write_eq_some hwrite h.leftWritten
  have hbound := (howed.trans (left.output_mono h.leftRead)).length_le
  refine ⟨⟨howed, h.rightWritten, h.leftArrived, h.rightArrived.trans hmore, h.leftRead,
    h.rightRead⟩, ?_⟩
  simp only [remaining]
  omega

/-- A read of the left process. -/
theorem Follows.leftReads {exchange : Exchange ι ο} {leftRead : List ι}
    (h : Follows left right read read' exchange)
    (hmeets : Meets left right read read' value value')
    (hreads : left.read exchange.leftRead exchange.leftWritten exchange.rightWritten =
      some leftRead) :
    Follows left right read read' { exchange with leftRead } ∧
      remaining left right read read' { exchange with leftRead } <
        remaining left right read read' exchange := by
  obtain ⟨harrived, hmore, hlength, hwaits⟩ := Process.read_eq_some hreads h.leftArrived
  -- the item is the next one of the conversation, since the process has not returned
  have hread : leftRead <+: read := by
    have hwritten := harrived.trans (h.rightWritten.trans (right.output_mono h.rightRead))
    rcases prefix_or_prefix hwritten hmeets.talk.prefix_left with hread | ⟨hread, hne⟩
    · exact hread
    · have heq : exchange.leftRead = read := by
        refine h.leftRead.eq_of_length (Nat.le_antisymm h.leftRead.length_le ?_)
        have hshort : read.length ≠ leftRead.length := fun h => hne (hread.eq_of_length h)
        have hle := hread.length_le
        omega
      rw [heq, hmeets.left] at hwaits
      cases hwaits
  have hbound := hread.length_le
  refine ⟨⟨h.leftWritten.trans (left.output_mono hmore), h.rightWritten, harrived, h.rightArrived,
    hread, h.rightRead⟩, ?_⟩
  simp only [remaining]
  omega

/-- An exchange moves by one write or one read of one side. -/
theorem moves_iff {exchange exchange' : Exchange ι ο} :
    Moves (Exchange.step left right) exchange exchange' ↔
      (∃ leftWritten, left.write exchange.leftRead exchange.leftWritten = some leftWritten ∧
        exchange' = { exchange with leftWritten }) ∨
      (∃ leftRead, left.read exchange.leftRead exchange.leftWritten exchange.rightWritten =
        some leftRead ∧ exchange' = { exchange with leftRead }) ∨
      (∃ rightWritten, right.write exchange.rightRead exchange.rightWritten = some rightWritten ∧
        exchange' = { exchange with rightWritten }) ∨
      ∃ rightRead, right.read exchange.rightRead exchange.rightWritten exchange.leftWritten =
        some rightRead ∧ exchange' = { exchange with rightRead } := by
  constructor
  · rintro ⟨action, hstep⟩
    cases action with
    | leftWrites =>
        obtain ⟨written, hwrite, rfl⟩ := Option.map_eq_some_iff.mp hstep
        exact .inl ⟨written, hwrite, rfl⟩
    | leftReads =>
        obtain ⟨read, hread, rfl⟩ := Option.map_eq_some_iff.mp hstep
        exact .inr (.inl ⟨read, hread, rfl⟩)
    | rightWrites =>
        obtain ⟨written, hwrite, rfl⟩ := Option.map_eq_some_iff.mp hstep
        exact .inr (.inr (.inl ⟨written, hwrite, rfl⟩))
    | rightReads =>
        obtain ⟨read, hread, rfl⟩ := Option.map_eq_some_iff.mp hstep
        exact .inr (.inr (.inr ⟨read, hread, rfl⟩))
  · rintro (⟨written, h, rfl⟩ | ⟨read, h, rfl⟩ | ⟨written, h, rfl⟩ | ⟨read, h, rfl⟩)
    · exact ⟨.leftWrites, Option.map_eq_some_iff.mpr ⟨written, h, rfl⟩⟩
    · exact ⟨.leftReads, Option.map_eq_some_iff.mpr ⟨read, h, rfl⟩⟩
    · exact ⟨.rightWrites, Option.map_eq_some_iff.mpr ⟨written, h, rfl⟩⟩
    · exact ⟨.rightReads, Option.map_eq_some_iff.mpr ⟨read, h, rfl⟩⟩

/-- Every step keeps to the conversation and brings it forward. -/
theorem Follows.moves {exchange exchange' : Exchange ι ο}
    (h : Follows left right read read' exchange)
    (hmeets : Meets left right read read' value value')
    (hmoves : Moves (Exchange.step left right) exchange exchange') :
    Follows left right read read' exchange' ∧
      remaining left right read read' exchange' < remaining left right read read' exchange := by
  rcases moves_iff.mp hmoves with
    ⟨written, hwrite, rfl⟩ | ⟨items, hreads, rfl⟩ | ⟨written, hwrite, rfl⟩ | ⟨items, hreads, rfl⟩
  · exact h.leftWrites hwrite
  · exact h.leftReads hmeets hreads
  · obtain ⟨hfollows, hless⟩ := h.swap.leftWrites hwrite
    rw [← remaining_swap, ← remaining_swap exchange]
    exact ⟨hfollows.swap, hless⟩
  · obtain ⟨hfollows, hless⟩ := h.swap.leftReads hmeets.swap hreads
    rw [← remaining_swap, ← remaining_swap exchange]
    exact ⟨hfollows.swap, hless⟩

/-- Where nothing moves, all of the conversation has taken place. -/
theorem Follows.read_of_still {exchange : Exchange ι ο}
    (h : Follows left right read read' exchange)
    (hstill : ∀ exchange', ¬ Moves (Exchange.step left right) exchange exchange')
    {front : List ι} {front' : List ο} (htalk : Talk left right front front') :
    front <+: exchange.leftRead ∧ front' <+: exchange.rightRead := by
  -- where nobody moves, both sides have written everything
  have hleft : exchange.leftWritten = left.output exchange.leftRead := by
    refine Process.write_eq_none ?_ h.leftWritten
    by_contra hsome
    obtain ⟨written, hwrite⟩ := Option.ne_none_iff_exists'.mp hsome
    exact hstill _ (moves_iff.mpr (.inl ⟨written, hwrite, rfl⟩))
  have hright : exchange.rightWritten = right.output exchange.rightRead := by
    refine Process.write_eq_none ?_ h.rightWritten
    by_contra hsome
    obtain ⟨written, hwrite⟩ := Option.ne_none_iff_exists'.mp hsome
    exact hstill _ (moves_iff.mpr (.inr (.inr (.inl ⟨written, hwrite, rfl⟩))))
  -- by induction on the talk: what was read so far lets the next item be written
  induction htalk with
  | silent => exact ⟨List.nil_prefix, List.nil_prefix⟩
  | toLeft more _ hwritten hwaits ih =>
      refine ⟨?_, ih.2⟩
      have hall := hwritten.trans (right.output_mono ih.2)
      rw [← hright] at hall
      rcases prefix_or_prefix hall h.leftArrived with hdone | ⟨hearly, hne⟩
      · exact hdone
      · -- the process waits, and the next item of the conversation has been written
        have hblocked := hwaits _ ih.1 hearly hne
        have hnone : left.read exchange.leftRead exchange.leftWritten exchange.rightWritten =
            none := by
          by_contra hsome
          obtain ⟨items, hreads⟩ := Option.ne_none_iff_exists'.mp hsome
          exact hstill _ (moves_iff.mpr (.inr (.inl ⟨items, hreads, rfl⟩)))
        have heq := Process.read_eq_none hnone h.leftArrived hleft hblocked
        rw [← heq] at hall
        exact hall
  | toRight more _ hwritten hwaits ih =>
      refine ⟨ih.1, ?_⟩
      have hall := hwritten.trans (left.output_mono ih.1)
      rw [← hleft] at hall
      rcases prefix_or_prefix hall h.rightArrived with hdone | ⟨hearly, hne⟩
      · exact hdone
      · have hblocked := hwaits _ ih.2 hearly hne
        have hnone : right.read exchange.rightRead exchange.rightWritten exchange.leftWritten =
            none := by
          by_contra hsome
          obtain ⟨items, hreads⟩ := Option.ne_none_iff_exists'.mp hsome
          exact hstill _ (moves_iff.mpr (.inr (.inr (.inr ⟨items, hreads, rfl⟩))))
        have heq := Process.read_eq_none hnone h.rightArrived hright hblocked
        rw [← heq] at hall
        exact hall

/-- If there is one conversation in which both processes return, they return these
values in every run. -/
theorem Meets.settles (h : Meets left right read read' value value') :
    Settles left right value value' := by
  have hfollows {exchange : Exchange ι ο} (hreaches : Reaches (Exchange.step left right) .start
      exchange) : Follows left right read read' exchange :=
    hreaches.inv (fun _ _ hfollows hmoves => (hfollows.moves h hmoves).1) follows_start
  refine ⟨?_, fun exchange hreaches hstill => ?_⟩
  · exact @terminates_of_measure _ _ _ _ (Follows left right read read')
      (remaining left right read read') (fun _ _ hfollows hmoves => hfollows.moves h hmoves)
      follows_start
  · obtain ⟨hleft, hright⟩ := (hfollows hreaches).read_of_still hstill h.talk
    exact ⟨left.result_stable hleft h.left, right.result_stable hright h.right⟩

/-- The values that two processes settle on are the only ones. -/
theorem Settles.unique {other : α} {other' : β} (h : Settles left right value value')
    (h' : Settles left right other other') : value = other ∧ value' = other' := by
  obtain ⟨exchange, hreaches, hstill⟩ := h.1.exists_still
  obtain ⟨hleft, hright⟩ := h.2 exchange hreaches hstill
  obtain ⟨hleft', hright'⟩ := h'.2 exchange hreaches hstill
  rw [hleft] at hleft'
  rw [hright] at hright'
  exact ⟨Option.some.inj hleft', Option.some.inj hright'⟩

end Runs

/-! ## One process after another -/

/-- A process that acts as a first one until that has read some items, and then as a
second one. -/
structure Process.Chains {γ : Type w} (process : Process ι ο γ) (first : Process ι ο α)
    (read : List ι) (second : Process ι ο γ) : Prop where
  early : ∀ early, early <+: read → first.output early <+: process.output early
  waits : ∀ early, early <+: read → early ≠ read → process.result early = none
  output : ∀ more, process.output (read ++ more) = first.output read ++ second.output more
  result : ∀ more, process.result (read ++ more) = second.result more

section Chains

variable {γ : Type w} {δ : Type x} {left : Process ι ο γ} {right : Process ο ι δ}
  {first : Process ι ο α} {first' : Process ο ι β} {second : Process ι ο γ}
  {second' : Process ο ι δ} {read more : List ι} {read' more' : List ο}

/-- The conversation of the first processes is one of the chained processes. -/
theorem Talk.chain_first (hleft : left.Chains first read second)
    (hright : right.Chains first' read' second') {front : List ι} {front' : List ο}
    (h : Talk first first' front front') (hfront : front <+: read) (hfront' : front' <+: read') :
    Talk left right front front' := by
  induction h with
  | silent => exact .silent
  | @toLeft read₀ read₀' more htalk hwritten hwaits ih =>
      refine .toLeft more (ih ((List.prefix_append _ _).trans hfront) hfront')
        (hwritten.trans (hright.early _ hfront')) fun early _ hearly hne =>
          hleft.waits early (hearly.trans hfront) ?_
      rintro rfl
      exact hne (hearly.eq_of_length (Nat.le_antisymm hearly.length_le hfront.length_le))
  | @toRight read₀ read₀' more htalk hwritten hwaits ih =>
      refine .toRight more (ih hfront ((List.prefix_append _ _).trans hfront'))
        (hwritten.trans (hleft.early _ hfront)) fun early _ hearly hne =>
          hright.waits early (hearly.trans hfront') ?_
      rintro rfl
      exact hne (hearly.eq_of_length (Nat.le_antisymm hearly.length_le hfront'.length_le))

/-- What comes before some items in a longer list that begins as they do. -/
theorem exists_append_of_prefix {α : Type u} {front more early : List α}
    (hlate : front <+: early) (hearly : early <+: front ++ more) (hne : early ≠ front ++ more) :
    ∃ middle, early = front ++ middle ∧ middle <+: more ∧ middle ≠ more := by
  obtain ⟨middle, rfl⟩ := hlate
  refine ⟨middle, rfl, (List.prefix_append_right_inj front).mp hearly, ?_⟩
  rintro rfl
  exact hne rfl

/-- Conversations of chained processes, one behind the other. What the first
processes write has all been read when the second ones begin. -/
theorem Talk.chain (hleft : left.Chains first read second)
    (hright : right.Chains first' read' second') (h : Talk first first' read read')
    (hwritten : first.output read = read') (hwritten' : first'.output read' = read)
    (hmore : Talk second second' more more') :
    Talk left right (read ++ more) (read' ++ more') := by
  induction hmore with
  | silent =>
      rw [List.append_nil, List.append_nil]
      exact h.chain_first hleft hright List.prefix_rfl List.prefix_rfl
  | @toLeft front front' more _ howed hwaits ih =>
      rw [← List.append_assoc]
      refine .toLeft more ih ?_ fun early hlate hearly hne => ?_
      · rw [hright.output, hwritten', List.append_assoc]
        exact (List.prefix_append_right_inj read).mpr howed
      · obtain ⟨middle, rfl, hmiddle, hshort⟩ := exists_append_of_prefix hlate hearly hne
        rw [List.append_assoc, hleft.result]
        refine hwaits _ (List.prefix_append _ _) ((List.prefix_append_right_inj front).mpr hmiddle)
          fun heq => hshort (List.append_cancel_left heq)
  | @toRight front front' more _ howed hwaits ih =>
      rw [← List.append_assoc]
      refine .toRight more ih ?_ fun early hlate hearly hne => ?_
      · rw [hleft.output, hwritten, List.append_assoc]
        exact (List.prefix_append_right_inj read').mpr howed
      · obtain ⟨middle, rfl, hmiddle, hshort⟩ := exists_append_of_prefix hlate hearly hne
        rw [List.append_assoc, hright.result]
        refine hwaits _ (List.prefix_append _ _) ((List.prefix_append_right_inj front').mpr hmiddle)
          fun heq => hshort (List.append_cancel_left heq)

/-- One process writes all it has to, reads the answer and returns; the other reads
first and returns with the answer written. -/
theorem Talk.of_answer {left : Process ι ο α} {right : Process ο ι β}
    (hleft : ∀ early, early <+: read → early ≠ read → left.result early = none)
    (hright : ∀ early, early <+: read' → early ≠ read' → right.result early = none)
    (hwritten : left.output [] = read') (hwritten' : right.output read' = read) :
    Talk left right read read' :=
  .toLeft read
    (.toRight read' .silent (hwritten ▸ List.prefix_rfl) fun early _ hearly hne =>
      hright early hearly hne)
    (hwritten' ▸ List.prefix_rfl) fun early _ hearly hne => hleft early hearly hne

end Chains

end Duplex

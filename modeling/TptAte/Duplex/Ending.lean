import TptAte.Duplex.Transfer

/-! # Ends of input

A process that has returned goes away, and the other one then comes to the end of its
input instead of waiting for more. The end is the last item that a process writes: with
it no process is left waiting for one that is gone.
-/

namespace Duplex

universe u v w x y z

variable {ι : Type u} {ο : Type v} {α : Type w} {β : Type x}

/-- A process that also says what it has written and returned where its input ends. -/
structure Ending (ι : Type u) (ο : Type v) (α : Type w) extends Process ι ο α where
  quits : toProcess.Quits
  lastOutput : List ι → List ο
  lastResult : List ι → α
  output_last : ∀ read, result read = none → output read <+: lastOutput read

def given : List (Option ι) → List ι
  | some item :: items => item :: given items
  | _ => []

def ended (items : List (Option ι)) : Bool := items.any Option.isNone

section Items

variable {items more read : List (Option ι)}

@[simp] theorem given_map_some_append (front : List ι) (more : List (Option ι)) :
    given (front.map some ++ more) = front ++ given more := by
  induction front with
  | nil => rfl
  | cons item front ih => exact congrArg (item :: ·) ih

@[simp] theorem given_map_some (front : List ι) : given (front.map some) = front := by
  simpa [given] using given_map_some_append front []

@[simp] theorem ended_append : ended (items ++ more) = (ended items || ended more) := by
  simp [ended]

@[simp] theorem ended_map_some (front : List ι) : ended (front.map some) = false := by
  simp [ended]

@[simp] theorem ended_none : ended [(none : Option ι)] = true := rfl

theorem ended_iff : ended items = true ↔ none ∈ items := by
  simp [ended]

/-- Items without an end. -/
theorem eq_map_some (h : ended items = false) : items = (given items).map some := by
  induction items with
  | nil => rfl
  | cons item items ih =>
      cases item with
      | none => cases h
      | some item => exact congrArg (some item :: ·) (ih h)

/-- What is read from a stream of items alone is a front of those items. -/
theorem exists_map_some {whole : List ι} (h : items <+: whole.map some) :
    ∃ front, items = front.map some ∧ front <+: whole := by
  obtain ⟨front, hfront, heq⟩ := List.prefix_map_iff.mp h
  exact ⟨front, heq, hfront⟩

/-- Further items do not change those in front of the end. -/
theorem given_of_ended (h : ended items = true) (more : List (Option ι)) :
    given (items ++ more) = given items := by
  induction items with
  | nil => cases h
  | cons item items ih =>
      cases item with
      | none => rfl
      | some item => exact congrArg (item :: ·) (ih h)

/-- Either the end is among the first items and nothing changes behind them, or more
items may be given. -/
theorem given_cases (h : read <+: more) :
    (ended read = true ∧ ended more = true ∧ given more = given read) ∨
      (ended read = false ∧ given read <+: given more) := by
  obtain ⟨rest, rfl⟩ := h
  cases hended : ended read with
  | true => exact .inl ⟨rfl, by simp [hended], given_of_ended hended rest⟩
  | false =>
      refine .inr ⟨rfl, ?_⟩
      rw [eq_map_some hended, given_map_some, given_map_some_append]
      exact List.prefix_append _ _

end Items

theorem prefix_map_some {front whole : List ι} (h : front <+: whole) :
    front.map some <+: whole.map some := h.map some

/-! ## Conversations over items -/

/-- A process over items that writes at least what a process writes, and waits where it
does. -/
structure Extends {γ : Type y} (process : Process ι ο α)
    (extension : Process (Option ι) (Option ο) γ) : Prop where
  output : ∀ read, (process.output read).map some <+: extension.output (read.map some)
  waits : ∀ read, process.result read = none → extension.result (read.map some) = none

/-- A conversation of processes is one of processes over items. -/
theorem Talk.extended {γ : Type y} {δ : Type z} {left : Process ι ο α} {right : Process ο ι β}
    {extension : Process (Option ι) (Option ο) γ} {extension' : Process (Option ο) (Option ι) δ}
    (hleft : Extends left extension) (hright : Extends right extension') {read : List ι}
    {read' : List ο} (h : Talk left right read read') :
    Talk extension extension' (read.map some) (read'.map some) := by
  induction h with
  | silent => exact .silent
  | toLeft more _ hwritten hwaits ih =>
      rw [List.map_append]
      refine .toLeft _ ih ?_ fun early hlate hearly hne => ?_
      · rw [← List.map_append]
        exact (prefix_map_some hwritten).trans (hright.output _)
      · rw [← List.map_append] at hearly hne
        obtain ⟨front, rfl, hfront⟩ := exists_map_some hearly
        refine hleft.waits front (hwaits front ?_ hfront fun h => hne (h ▸ rfl))
        exact (List.prefix_map_iff_of_injective (Option.some_injective _)).mp hlate
  | toRight more _ hwritten hwaits ih =>
      rw [List.map_append]
      refine .toRight _ ih ?_ fun early hlate hearly hne => ?_
      · rw [← List.map_append]
        exact (prefix_map_some hwritten).trans (hleft.output _)
      · rw [← List.map_append] at hearly hne
        obtain ⟨front, rfl, hfront⟩ := exists_map_some hearly
        refine hright.waits front (hwaits front ?_ hfront fun h => hne (h ▸ rfl))
        exact (List.prefix_map_iff_of_injective (Option.some_injective _)).mp hlate

/-- The process over items, without an end. -/
def Process.overItems (process : Process ι ο α) : Process (Option ι) (Option ο) α where
  output items := (process.output (given items)).map some
  result items := process.result (given items)
  output_mono h := by
    rcases given_cases h with ⟨-, -, hsame⟩ | ⟨-, hmore⟩
    · rw [hsame]
    · exact prefix_map_some (process.output_mono hmore)
  result_stable h hvalue := by
    rcases given_cases h with ⟨-, -, hsame⟩ | ⟨-, hmore⟩
    · rwa [hsame]
    · exact process.result_stable hmore hvalue

/-- A process works on a stream as it does on its items, until the stream ends. -/
theorem extends_overItems (process : Process ι ο α) : Extends process process.overItems where
  output read := by simp [Process.overItems]
  waits read h := by simpa [Process.overItems] using h

namespace Ending

variable {party : Ending ι ο α} {items : List (Option ι)} {value : α}

/-- A process that goes away when it has returned: the last thing it writes is the end. -/
def outputs (party : Ending ι ο α) (items : List (Option ι)) : List (Option ο) :=
  if (party.result (given items)).isSome then
    (party.output (given items)).map some ++ [none]
  else if ended items then (party.lastOutput (given items)).map some ++ [none]
  else (party.output (given items)).map some

/-- What it has returned, be it that it has come to the end. -/
def returns (party : Ending ι ο α) (items : List (Option ι)) : Option α :=
  (party.result (given items)).or
    (if ended items then some (party.lastResult (given items)) else none)

/-- A party that has returned closes its side behind its output. -/
theorem outputs_of_returned (h : (party.result (given items)).isSome) :
    party.outputs items = (party.output (given items)).map some ++ [none] := if_pos h

/-- A party that meets the end before it has returned writes its last words, and then the end. -/
theorem outputs_of_ended (h : party.result (given items) = none) (hended : ended items = true) :
    party.outputs items = (party.lastOutput (given items)).map some ++ [none] := by
  simp [outputs, h, hended]

/-- A party that still waits leaves its side open. -/
theorem outputs_of_waiting (h : party.result (given items) = none)
    (hended : ended items = false) :
    party.outputs items = (party.output (given items)).map some := by
  simp [outputs, h, hended]

/-- A party that needs no more items returns what its process results in. -/
theorem returns_of_returned (h : party.result (given items) = some value) :
    party.returns items = some value := by
  simp [returns, h]

/-- A party that meets the end while it waits returns its last result. -/
theorem returns_of_ended (h : party.result (given items) = none) (hended : ended items = true) :
    party.returns items = some (party.lastResult (given items)) := by
  simp [returns, h, hended]

/-- A party still waits exactly if its process does and the other side has not ended. -/
theorem returns_eq_none_iff :
    party.returns items = none ↔ party.result (given items) = none ∧ ended items = false := by
  simp [returns]

/-- In front of the end it writes at least what the process writes. -/
theorem output_le_outputs (party : Ending ι ο α) (items : List (Option ι)) :
    (party.output (given items)).map some <+: party.outputs items := by
  unfold outputs
  split
  · exact List.prefix_append _ _
  next hwaits =>
    split
    · have hwaits := Option.not_isSome_iff_eq_none.mp hwaits
      exact (prefix_map_some (party.output_last _ hwaits)).trans (List.prefix_append _ _)
    · exact List.prefix_rfl

/-- Nothing is written behind the end. -/
theorem eq_nil_of_outputs {front : List ο} {rest : List (Option ο)}
    (h : front.map some ++ none :: rest = party.outputs items) : rest = [] := by
  have hopen (rest : List (Option ο)) (whole : List ο) :
      front.map some ++ none :: rest ≠ whole.map some := by
    intro heq
    have hmem : none ∈ whole.map some := heq ▸ List.mem_append_right _ List.mem_cons_self
    simp at hmem
  have hclosed (whole : List ο) (heq : front.map some ++ none :: rest = whole.map some ++ [none]) :
      rest = [] := by
    rcases List.eq_nil_or_concat rest with hnil | ⟨more, last, rfl⟩
    · exact hnil
    · rw [List.concat_eq_append, ← List.cons_append, ← List.append_assoc] at heq
      exact (hopen more whole (List.append_inj' heq rfl).1).elim
  unfold outputs at h
  split at h
  · exact hclosed _ h
  · split at h
    · exact hclosed _ h
    · exact (hopen rest _ h).elim

/-- With more items it has written more. -/
theorem outputs_mono (party : Ending ι ο α) {read more : List (Option ι)} (h : read <+: more) :
    party.outputs read <+: party.outputs more := by
  rcases given_cases h with ⟨hended, hended', hsame⟩ | ⟨hopen, hmore⟩
  · rw [outputs, outputs, hsame, hended, hended']
  · cases hresult : party.result (given read) with
    | none =>
        rw [outputs_of_waiting hresult hopen]
        exact (prefix_map_some (party.output_mono hmore)).trans (party.output_le_outputs more)
    | some value =>
        have hlater := party.result_stable hmore hresult
        rw [outputs_of_returned (Option.isSome_of_mem hresult),
          outputs_of_returned (Option.isSome_of_mem hlater), party.quits hmore hresult]

/-- What a party has returned, later items do not change. -/
theorem returns_stable (party : Ending ι ο α) {read more : List (Option ι)} {value : α}
    (h : read <+: more) (hvalue : party.returns read = some value) :
    party.returns more = some value := by
  rcases given_cases h with ⟨hended, hended', hsame⟩ | ⟨hopen, hmore⟩
  · rw [returns, hsame, hended']
    rwa [returns, hended] at hvalue
  · simp only [returns, hopen, Bool.false_eq_true, if_false, Option.or_none] at hvalue
    exact returns_of_returned (party.result_stable hmore hvalue)

/-- The process over items of which the last one is the end. -/
def closing (party : Ending ι ο α) : Process (Option ι) (Option ο) α where
  output := party.outputs
  result := party.returns
  output_mono h := party.outputs_mono h
  result_stable h hvalue := party.returns_stable h hvalue

@[simp] theorem closing_output (party : Ending ι ο α) (items : List (Option ι)) :
    party.closing.output items = party.outputs items := rfl

@[simp] theorem closing_result (party : Ending ι ο α) (items : List (Option ι)) :
    party.closing.result items = party.returns items := rfl

/-- A party that has returned writes nothing more. -/
theorem closing_quits (party : Ending ι ο α) : party.closing.Quits := by
  intro read more value h hvalue
  change party.outputs more = party.outputs read
  rcases given_cases h with ⟨hended, hended', hsame⟩ | ⟨hopen, hmore⟩
  · rw [outputs, outputs, hsame, hended, hended']
  · change party.returns read = some value at hvalue
    simp only [returns, hopen, Bool.false_eq_true, if_false, Option.or_none] at hvalue
    have hlater := party.result_stable hmore hvalue
    rw [outputs_of_returned (Option.isSome_of_mem hvalue),
      outputs_of_returned (Option.isSome_of_mem hlater),
      party.quits hmore hvalue]

/-! ## No process waits for one that is gone -/

/-- A party that has returned has closed its side. -/
theorem none_mem_outputs (h : (party.returns items).isSome) : none ∈ party.outputs items := by
  cases hresult : party.result (given items) with
  | some value =>
      rw [outputs_of_returned (Option.isSome_of_mem hresult)]
      simp
  | none =>
      have hended : ended items = true := by
        by_contra hopen
        rw [returns_eq_none_iff.mpr ⟨hresult, by simpa using hopen⟩] at h
        cases h
      rw [outputs_of_ended hresult hended]
      simp

/-- A party returns at the latest when it meets the end. -/
theorem returns_of_none_mem (h : none ∈ items) : (party.returns items).isSome := by
  by_contra hnone
  obtain ⟨-, hopen⟩ := returns_eq_none_iff.mp (Option.not_isSome_iff_eq_none.mp hnone)
  rw [ended_iff.mpr h] at hopen
  cases hopen

/-- A process that has read all that one wrote which has returned has itself returned. -/
theorem returns_of_returned_other {other : Ending ο ι β} {read : List (Option ι)}
    {read' : List (Option ο)} (hother : (other.returns read').isSome)
    (hread : party.returns read = none → read = other.outputs read') :
    (party.returns read).isSome := by
  by_contra hnone
  have hall := hread (Option.not_isSome_iff_eq_none.mp hnone)
  exact hnone (returns_of_none_mem (hall ▸ none_mem_outputs hother))

/-- Where nothing moves both processes have returned, or both of them wait and have read
all that was written. -/
theorem both_or_neither {left : Ending ι ο α} {right : Ending ο ι β}
    {exchange : Exchange (Option ι) (Option ο)}
    (hstill : Still left.closing right.closing exchange) :
    ((left.returns exchange.leftRead).isSome ∧ (right.returns exchange.rightRead).isSome) ∨
      (left.returns exchange.leftRead = none ∧ right.returns exchange.rightRead = none ∧
        exchange.leftRead = exchange.rightWritten ∧
        exchange.rightRead = exchange.leftWritten) := by
  have hleft := hstill.leftRead
  have hright := hstill.rightRead
  by_cases hreturned : (left.returns exchange.leftRead).isSome
  · rw [hstill.leftWritten] at hright
    exact .inl ⟨hreturned, returns_of_returned_other hreturned hright⟩
  · have hwaits := Option.not_isSome_iff_eq_none.mp hreturned
    by_cases hreturned' : (right.returns exchange.rightRead).isSome
    · rw [hstill.rightWritten] at hleft
      exact .inl ⟨returns_of_returned_other hreturned' hleft, hreturned'⟩
    · have hwaits' := Option.not_isSome_iff_eq_none.mp hreturned'
      exact .inr ⟨hwaits, hwaits', hleft hwaits, hright hwaits'⟩

/-! ## Conversations -/

section Conversations

variable {left : Ending ι ο α} {right : Ending ο ι β} {read : List ι} {read' : List ο}

/-- The closing process continues the process of the party. -/
theorem extends_closing (party : Ending ι ο α) : Extends party.toProcess party.closing where
  output read := by simpa using party.output_le_outputs (read.map some)
  waits read h := by
    apply returns_eq_none_iff.mpr
    simpa using h

/-- As long as the other side stays open, a party returns when its process results. -/
theorem returns_map_some (party : Ending ι ο α) (read : List ι) :
    party.returns (read.map some) = party.result read := by
  simp [returns]

/-- A process that acts as a first one until that has read some items, and then as a second
one, also where its input ends. -/
structure Chains {γ : Type w} (party : Ending ι ο α) (first : Process ι ο γ) (read : List ι)
    (second : Ending ι ο α) : Prop where
  whole : party.toProcess.Chains first read second.toProcess
  lastOutput : ∀ more, party.lastOutput (read ++ more) = first.output read ++ second.lastOutput more
  lastResult : ∀ more, party.lastResult (read ++ more) = second.lastResult more

/-- A party that is a process followed by another party stays so once the ends are added. -/
theorem Chains.closing {γ : Type w} {party second : Ending ι ο α} {first : Process ι ο γ}
    {read : List ι}
    (h : party.Chains first read second) :
    party.closing.Chains first.overItems (read.map some) second.closing where
  early early hearly := by
    obtain ⟨front, rfl, hfront⟩ := exists_map_some hearly
    simp only [Process.overItems, given_map_some]
    exact (prefix_map_some (h.whole.early front hfront)).trans
      (party.extends_closing.output front)
  waits early hearly hne := by
    obtain ⟨front, rfl, hfront⟩ := exists_map_some hearly
    exact party.extends_closing.waits front (h.whole.waits front hfront fun heq => hne (heq ▸ rfl))
  output more := by
    have houtput : party.output (read ++ given more) = _ := h.whole.output (given more)
    have hresult : party.result (read ++ given more) = _ := h.whole.result (given more)
    change party.outputs (read.map some ++ more) =
      (first.output (given (read.map some))).map some ++ second.outputs more
    simp only [outputs, given_map_some_append, given_map_some, houtput, hresult, h.lastOutput,
      ended_append, ended_map_some, Bool.false_or, List.map_append]
    split
    · simp
    · split <;> simp
  result more := by
    have hresult : party.result (read ++ given more) = _ := h.whole.result (given more)
    change party.returns (read.map some ++ more) = second.returns more
    simp only [returns, given_map_some_append, hresult, h.lastResult, ended_append, ended_map_some,
      Bool.false_or]

/-! ## How a conversation ends -/

/-- Both processes return. -/
theorem closes_of_returned {value : α} {value' : β}
    (h : Talk left.toProcess right.toProcess read read') (hleft : left.result read = some value)
    (hright : right.result read' = some value') :
    Closes left.closing right.closing (read.map some) (read'.map some) where
  talk := h.extended left.extends_closing right.extends_closing
  leftDone := .inl (by simp [returns_map_some, hleft])
  rightDone := .inl (by simp [returns_map_some, hright])

/-- The left process waits for one that has returned, and comes to the end. -/
theorem closes_of_waits {value' : β} (h : Talk left.toProcess right.toProcess read read')
    (hleft : left.result read = none) (hright : right.result read' = some value')
    (hall : right.output read' = read) :
    Closes left.closing right.closing (read.map some ++ [none]) (read'.map some) := by
  have hend : right.outputs (read'.map some) = read.map some ++ [none] := by
    rw [outputs_of_returned (by simp [hright]), given_map_some, hall]
  refine ⟨.toLeft [none] (h.extended left.extends_closing right.extends_closing) ?_ ?_, ?_, ?_⟩
  · exact hend ▸ List.prefix_rfl
  · intro early hlate hearly hne
    have heq : early = read.map some := by
      obtain ⟨rest, rfl⟩ := hlate
      rw [List.prefix_append_right_inj] at hearly
      rcases List.prefix_cons_iff.mp hearly with rfl | ⟨more, rfl, hmore⟩
      · exact List.append_nil _
      · obtain rfl := List.prefix_nil.mp hmore
        exact (hne rfl).elim
    subst heq
    exact left.extends_closing.waits read hleft
  · exact .inl (returns_of_none_mem (by simp))
  · exact .inl (by simp [returns_map_some, hright])

/-- Both processes wait for one another. -/
theorem closes_of_stuck (h : Talk left.toProcess right.toProcess read read')
    (hleft : left.result read = none) (hright : right.result read' = none)
    (hall : right.output read' = read) (hall' : left.output read = read') :
    Closes left.closing right.closing (read.map some) (read'.map some) where
  talk := h.extended left.extends_closing right.extends_closing
  leftDone := by
    refine .inr ?_
    change right.outputs (read'.map some) = _
    rw [outputs_of_waiting (by simp [hright]) (by simp), given_map_some, hall]
  rightDone := by
    refine .inr ?_
    change left.outputs (read.map some) = _
    rw [outputs_of_waiting (by simp [hleft]) (by simp), given_map_some, hall']

end Conversations

end Ending

end Duplex

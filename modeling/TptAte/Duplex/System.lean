import Mathlib.Order.WellFounded
import Mathlib.Logic.Relation
import Mathlib.Data.Option.Basic

/-! # Systems of movers

A system moves when one of its movers can: a mover either changes the state or has
nothing to do. Runs are sequences of moves in any order. Two systems whose movers
keep step with one another have the same runs.
-/

namespace Duplex

universe u v w

variable {Mover : Type u} {State : Type v} {State' : Type w}

def Moves (step : Mover → State → Option State) (state state' : State) : Prop :=
  ∃ mover, step mover state = some state'

def Reaches (step : Mover → State → Option State) : State → State → Prop :=
  Relation.ReflTransGen (Moves step)

/-- No run goes on forever. -/
def Terminates (step : Mover → State → Option State) (state : State) : Prop :=
  ∀ run : Nat → State, run 0 = state → ∃ n, ¬ Moves step (run n) (run (n + 1))

section OneSystem

variable {step : Mover → State → Option State} {state : State}

/-- A state terminates exactly if it is accessible: no run from it goes on for ever. -/
theorem terminates_iff_acc :
    Terminates step state ↔ Acc (fun later earlier => Moves step earlier later) state := by
  rw [acc_iff_isEmpty_descending_chain]
  constructor
  · intro h
    refine ⟨fun ⟨run, hstart, hmoves⟩ => ?_⟩
    obtain ⟨n, hn⟩ := h run hstart
    exact hn (hmoves n)
  · intro h run hstart
    by_contra hnever
    exact h.elim ⟨run, hstart, fun n => by_contra fun hn => hnever ⟨n, hn⟩⟩

/-- An invariant that every move keeps holds in every state reached. -/
theorem Reaches.inv {inv : State → Prop}
    (hmove : ∀ state state', inv state → Moves step state state' → inv state') {state' : State}
    (h : Reaches step state state') (hstart : inv state) : inv state' := by
  induction h with
  | refl => exact hstart
  | tail _ hlast ih => exact hmove _ _ ih hlast

/-- A measure that every move lowers bounds the runs. -/
theorem terminates_of_measure {inv : State → Prop} (measure : State → Nat)
    (hmove : ∀ state state', inv state → Moves step state state' →
      inv state' ∧ measure state' < measure state)
    (hstart : inv state) : Terminates step state := by
  rw [terminates_iff_acc]
  induction hn : measure state using Nat.strong_induction_on generalizing state with
  | _ n ih =>
      subst hn
      refine ⟨_, fun state' hstep => ?_⟩
      obtain ⟨hinv, hless⟩ := hmove state state' hstart hstep
      exact ih _ hless hinv rfl

/-- A system without endless runs can be run until nothing moves. -/
theorem Terminates.exists_still (h : Terminates step state) :
    ∃ state', Reaches step state state' ∧ ∀ state'', ¬ Moves step state' state'' := by
  rw [terminates_iff_acc] at h
  induction h with
  | intro state _ ih =>
      by_cases hstill : ∃ state', Moves step state state'
      · obtain ⟨state', hmoves⟩ := hstill
        obtain ⟨last, hreaches, hlast⟩ := ih state' hmoves
        exact ⟨last, .head hmoves hreaches, hlast⟩
      · exact ⟨state, .refl, not_exists.mp hstill⟩

/-- Where a move is always possible within an invariant, a run goes on forever. -/
theorem not_terminates_of_inv {inv : State → Prop}
    (hmove : ∀ state, inv state → ∃ state', Moves step state state' ∧ inv state')
    (hstart : inv state) : ¬ Terminates step state := by
  rw [terminates_iff_acc]
  intro hacc
  induction hacc with
  | intro state _ ih =>
      obtain ⟨state', hstep, hinv⟩ := hmove state hstart
      exact ih state' hstep hinv

end OneSystem

/-! ## Systems in step -/

section Lockstep

variable {step : Mover → State → Option State} {step' : Mover → State' → Option State'}
  {related : State → State' → Prop}

/-- In related states each mover has nothing to do in both systems, or moves both
to related states. -/
def Lockstep (step : Mover → State → Option State) (step' : Mover → State' → Option State')
    (related : State → State' → Prop) : Prop :=
  ∀ state state', related state state' → ∀ mover,
    Option.Rel related (step mover state) (step' mover state')

/-- A move of the first system is matched by one of the second. -/
theorem Lockstep.forth (h : Lockstep step step' related) {first second : State}
    {first' : State'} (hrelated : related first first') (hmoves : Moves step first second) :
    ∃ second', Moves step' first' second' ∧ related second second' := by
  obtain ⟨mover, hstep⟩ := hmoves
  have hrel := h first first' hrelated mover
  rw [hstep] at hrel
  cases hstep' : step' mover first' with
  | none =>
      rw [hstep'] at hrel
      cases hrel
  | some second' =>
      rw [hstep'] at hrel
      cases hrel with
      | some hrelated' => exact ⟨second', ⟨mover, hstep'⟩, hrelated'⟩

/-- A move of the second system is matched by one of the first. -/
theorem Lockstep.back (h : Lockstep step step' related) {first : State}
    {first' second' : State'} (hrelated : related first first')
    (hmoves : Moves step' first' second') :
    ∃ second, Moves step first second ∧ related second second' := by
  obtain ⟨mover, hstep'⟩ := hmoves
  have hrel := h first first' hrelated mover
  rw [hstep'] at hrel
  cases hstep : step mover first with
  | none =>
      rw [hstep] at hrel
      cases hrel
  | some second =>
      rw [hstep] at hrel
      cases hrel with
      | some hrelated' => exact ⟨second, ⟨mover, hstep⟩, hrelated'⟩

/-- What the first system reaches, the second reaches in step: by induction on the run. -/
theorem Lockstep.reaches (h : Lockstep step step' related) {first second : State} {first' : State'}
    (hrelated : related first first') (hreaches : Reaches step first second) :
    ∃ second', Reaches step' first' second' ∧ related second second' := by
  induction hreaches with
  | refl => exact ⟨first', .refl, hrelated⟩
  | tail _ hlast ih =>
      obtain ⟨middle', hmiddle, hrelated'⟩ := ih
      obtain ⟨second', hmoves, hlast'⟩ := h.forth hrelated' hlast
      exact ⟨second', hmiddle.tail hmoves, hlast'⟩

/-- What the second system reaches, the first reaches in step. -/
theorem Lockstep.reaches_back (h : Lockstep step step' related) {first : State}
    {first' second' : State'} (hrelated : related first first')
    (hreaches : Reaches step' first' second') :
    ∃ second, Reaches step first second ∧ related second second' := by
  induction hreaches with
  | refl => exact ⟨first, .refl, hrelated⟩
  | tail _ hlast ih =>
      obtain ⟨middle, hmiddle, hrelated'⟩ := ih
      obtain ⟨second, hmoves, hlast'⟩ := h.back hrelated' hlast
      exact ⟨second, hmiddle.tail hmoves, hlast'⟩

/-- Systems in lockstep terminate together. -/
theorem Lockstep.terminates_iff (h : Lockstep step step' related) {state : State}
    {state' : State'} (hrelated : related state state') :
    Terminates step state ↔ Terminates step' state' := by
  rw [terminates_iff_acc, terminates_iff_acc]
  constructor
  · intro hacc
    induction hacc generalizing state' with
    | intro state _ ih =>
        refine ⟨_, fun next' hmoves => ?_⟩
        obtain ⟨next, hnext, hrelated'⟩ := h.back hrelated hmoves
        exact ih next hnext hrelated'
  · intro hacc
    induction hacc generalizing state with
    | intro state' _ ih =>
        refine ⟨_, fun next hmoves => ?_⟩
        obtain ⟨next', hnext, hrelated'⟩ := h.forth hrelated hmoves
        exact ih next' hnext hrelated'

end Lockstep

/-! ## Two parties -/

inductive Side where
  | left
  | right

deriving instance DecidableEq for Side

namespace Side

def other : Side → Side
  | .left => .right
  | .right => .left

@[simp] theorem other_other (side : Side) : side.other.other = side := by cases side <;> rfl

@[simp] theorem other_ne (side : Side) : side.other ≠ side := by cases side <;> simp [other]

@[simp] theorem ne_other (side : Side) : side ≠ side.other := side.other_ne.symm

theorem eq_or_eq_other (actor side : Side) : actor = side ∨ actor = side.other := by
  cases actor <;> cases side <;> simp [other]

end Side

structure Pair (Party : Type u) where
  left : Party
  right : Party

section Pairs

variable {Party : Type u} {Item : Type v} {Party' : Type w} {Item' : Type v}

namespace Pair

def swap (pair : Pair Party) : Pair Party := ⟨pair.right, pair.left⟩

/-- One party acts, and what it writes is delivered to the other. -/
def step (act : Side → Party → Option (Party × List Item)) (deliver : List Item → Party → Party) :
    Side → Pair Party → Option (Pair Party)
  | .left, pair => (act .left pair.left).map fun (party, written) =>
      ⟨party, deliver written pair.right⟩
  | .right, pair => (act .right pair.right).map fun (party, written) =>
      ⟨deliver written pair.left, party⟩

/-- A pair moves by an act of one party, whose items go to the other. -/
theorem moves_iff {act : Side → Party → Option (Party × List Item)}
    {deliver : List Item → Party → Party} {pair pair' : Pair Party} :
    Moves (step act deliver) pair pair' ↔
      (∃ written, act .left pair.left = some (pair'.left, written) ∧
        pair'.right = deliver written pair.right) ∨
      ∃ written, act .right pair.right = some (pair'.right, written) ∧
        pair'.left = deliver written pair.left := by
  obtain ⟨left, right⟩ := pair
  obtain ⟨left', right'⟩ := pair'
  constructor
  · rintro ⟨side, hstep⟩
    cases side with
    | left =>
        obtain ⟨⟨party, written⟩, hact, hpair⟩ := Option.map_eq_some_iff.mp hstep
        cases hpair
        exact .inl ⟨written, hact, rfl⟩
    | right =>
        obtain ⟨⟨party, written⟩, hact, hpair⟩ := Option.map_eq_some_iff.mp hstep
        cases hpair
        exact .inr ⟨written, hact, rfl⟩
  · rintro (⟨written, hact, hright⟩ | ⟨written, hact, hleft⟩)
    · cases hright
      exact ⟨.left, Option.map_eq_some_iff.mpr ⟨_, hact, rfl⟩⟩
    · cases hleft
      exact ⟨.right, Option.map_eq_some_iff.mpr ⟨_, hact, rfl⟩⟩

/-- Parties that act alike may change sides. -/
theorem moves_swap {act : Party → Option (Party × List Item)} {deliver : List Item → Party → Party}
    {pair pair' : Pair Party} (h : Moves (step (fun _ => act) deliver) pair pair') :
    Moves (step (fun _ => act) deliver) pair.swap pair'.swap := by
  rw [moves_iff] at h ⊢
  exact h.symm

theorem reaches_swap {act : Party → Option (Party × List Item)}
    {deliver : List Item → Party → Party} {pair pair' : Pair Party}
    (h : Reaches (step (fun _ => act) deliver) pair pair') :
    Reaches (step (fun _ => act) deliver) pair.swap pair'.swap := by
  induction h with
  | refl => exact .refl
  | tail _ hlast ih => exact ih.tail (moves_swap hlast)

theorem terminates_of_swap {act : Party → Option (Party × List Item)}
    {deliver : List Item → Party → Party} {pair : Pair Party}
    (h : Terminates (step (fun _ => act) deliver) pair.swap) :
    Terminates (step (fun _ => act) deliver) pair := by
  rw [terminates_iff_acc] at h ⊢
  generalize hswap : pair.swap = swapped at h
  induction h generalizing pair with
  | intro swapped _ ih =>
      subst hswap
      exact ⟨_, fun pair' hmoves => ih pair'.swap (moves_swap hmoves) rfl⟩

/-- Parties in step with one another make pairs in step with one another. -/
theorem lockstep {act : Side → Party → Option (Party × List Item)}
    {deliver : List Item → Party → Party} {act' : Side → Party' → Option (Party' × List Item')}
    {deliver' : List Item' → Party' → Party'} {related : Party → Party' → Prop}
    {relatedItems : List Item → List Item' → Prop}
    (hact : ∀ side party party', related party party' →
      Option.Rel (fun acted acted' => related acted.1 acted'.1 ∧ relatedItems acted.2 acted'.2)
        (act side party) (act' side party'))
    (hdeliver : ∀ written written' party party', relatedItems written written' →
      related party party' → related (deliver written party) (deliver' written' party')) :
    Lockstep (step act deliver) (step act' deliver')
      (fun pair pair' => related pair.left pair'.left ∧ related pair.right pair'.right) := by
  rintro ⟨left, right⟩ ⟨left', right'⟩ ⟨hleft, hright⟩ side
  cases side with
  | left =>
      have hrel := hact .left left left' hleft
      simp only [step]
      generalize act .left left = acted, act' .left left' = acted' at hrel
      cases hrel with
      | none => exact .none
      | some hacted => exact .some ⟨hacted.1, hdeliver _ _ _ _ hacted.2 hright⟩
  | right =>
      have hrel := hact .right right right' hright
      simp only [step]
      generalize act .right right = acted, act' .right right' = acted' at hrel
      cases hrel with
      | none => exact .none
      | some hacted => exact .some ⟨hdeliver _ _ _ _ hacted.2 hleft, hacted.1⟩

end Pair

end Pairs

end Duplex

import TptAte.Duplex.System

/-! # Control frames between two waiting sessions

The kinds of control frames, and what two parties that both wait for a primary do
with the frames in flight between them: a frame that is not a Separate is answered
with exactly one frame, so frames get fewer only where a Separate ends the waiting.
-/

namespace Secs

open Duplex

/-- The kinds of control frames: requests that are answered, answers to them,
rejections and Separates. -/
inductive Kind where
  | request
  | answer
  | reject
  | separate
  deriving DecidableEq

namespace Kind

/-- The kind of frame with which a waiting session answers. -/
def reply : Kind → Option Kind
  | request => some answer
  | answer => some reject
  | reject => some reject
  | separate => none

/-- No message is answered by a Separate. -/
theorem separate_notMem_reply (kind : Kind) : separate ∉ kind.reply.toList := by
  cases kind <;> decide

def beforeSeparate : List Kind → List Kind
  | [] => []
  | separate :: _ => []
  | kind :: kinds => kind :: beforeSeparate kinds

theorem beforeSeparate_cons {kind : Kind} (h : kind ≠ separate) (kinds : List Kind) :
    beforeSeparate (kind :: kinds) = kind :: beforeSeparate kinds := by
  cases kind <;> first | rfl | exact (h rfl).elim

theorem beforeSeparate_append_of_mem {kinds : List Kind} (h : separate ∈ kinds)
    (more : List Kind) : beforeSeparate (kinds ++ more) = beforeSeparate kinds := by
  induction kinds with
  | nil => cases h
  | cons kind kinds ih =>
      by_cases hkind : kind = separate
      · subst hkind
        rfl
      · have hrest := ih ((List.mem_cons.mp h).resolve_left (Ne.symm hkind))
        rw [List.cons_append, beforeSeparate_cons hkind, beforeSeparate_cons hkind, hrest]

theorem beforeSeparate_of_notMem {kinds : List Kind} (h : separate ∉ kinds) :
    beforeSeparate kinds = kinds := by
  induction kinds with
  | nil => rfl
  | cons kind kinds ih =>
      rw [List.mem_cons, not_or] at h
      rw [beforeSeparate_cons (Ne.symm h.1), ih h.2]

theorem separate_notMem_beforeSeparate (kinds : List Kind) : separate ∉ beforeSeparate kinds := by
  induction kinds with
  | nil => simp [beforeSeparate]
  | cons kind kinds ih => cases kind <;> simp [beforeSeparate, ih]

end Kind

/-- A party with the frames in flight to it. -/
structure Inbox where
  serving : Bool
  kinds : List Kind

namespace Inbox

/-- A waiting party reads one frame, and answers it unless it is a Separate. -/
def act : Inbox → Option (Inbox × List Kind)
  | ⟨true, kind :: kinds⟩ => some (⟨kind ≠ .separate, kinds⟩, kind.reply.toList)
  | _ => none

def deliver (written : List Kind) (inbox : Inbox) : Inbox :=
  { inbox with kinds := inbox.kinds ++ written }

@[simp] theorem deliver_nil (inbox : Inbox) : inbox.deliver [] = inbox := by
  simp [deliver]

theorem deliver_deliver (inbox : Inbox) (written more : List Kind) :
    (inbox.deliver written).deliver more = inbox.deliver (written ++ more) := by
  simp [deliver]

/-- The party will read no frame that is not in flight to it yet. -/
def Ending (inbox : Inbox) : Prop := inbox.serving = false ∨ .separate ∈ inbox.kinds

def due (inbox : Inbox) : List Kind :=
  if inbox.serving then Kind.beforeSeparate inbox.kinds else []

def unread (inbox : Inbox) : Nat :=
  if inbox.serving then
    inbox.due.length + (if .separate ∈ inbox.kinds then 1 else 0)
  else 0

/-- An inbox acts on its first message while it is selected. -/
theorem act_eq_some {inbox inbox' : Inbox} {written : List Kind} :
    inbox.act = some (inbox', written) ↔
      ∃ kind kinds, inbox = ⟨true, kind :: kinds⟩ ∧ inbox' = ⟨kind ≠ .separate, kinds⟩ ∧
        written = kind.reply.toList := by
  constructor
  · intro h
    obtain ⟨serving, kinds⟩ := inbox
    cases serving with
    | false => cases h
    | true =>
        cases kinds with
        | nil => cases h
        | cons kind kinds =>
            cases h
            exact ⟨kind, kinds, rfl, rfl, rfl⟩
  · rintro ⟨kind, kinds, rfl, rfl, rfl⟩
    rfl

/-- An act leaves a party as much on its way to the end as it was. -/
theorem ending_act {inbox inbox' : Inbox} {written : List Kind}
    (hact : inbox.act = some (inbox', written)) : inbox'.Ending ↔ inbox.Ending := by
  obtain ⟨kind, kinds, rfl, rfl, -⟩ := act_eq_some.mp hact
  cases kind <;> simp [Ending]

/-- A frame that arrives ends a party only if it is a Separate. -/
theorem ending_deliver {inbox : Inbox} {written : List Kind} (h : .separate ∉ written) :
    (inbox.deliver written).Ending ↔ inbox.Ending := by
  simp [Ending, deliver, h]

/-- What arrives behind a Separate is never due. -/
theorem due_deliver_of_ending {inbox : Inbox} (h : inbox.Ending) (written : List Kind) :
    (inbox.deliver written).due = inbox.due := by
  obtain ⟨serving, kinds⟩ := inbox
  cases serving with
  | false => rfl
  | true =>
      have hmem := h.resolve_left (by simp)
      simp [due, deliver, Kind.beforeSeparate_append_of_mem hmem]

theorem due_deliver {inbox : Inbox} (h : ¬ inbox.Ending) {written : List Kind}
    (hwritten : .separate ∉ written) : (inbox.deliver written).due = inbox.due ++ written := by
  obtain ⟨serving, kinds⟩ := inbox
  simp only [Ending, not_or, Bool.not_eq_false] at h
  obtain ⟨rfl, hkinds⟩ := h
  simp [due, deliver, Kind.beforeSeparate_of_notMem, hkinds, hwritten]

/-- Reading takes the first of the frames that are due. -/
theorem due_act {inbox inbox' : Inbox} {written : List Kind}
    (hact : inbox.act = some (inbox', written)) :
    (∃ kind, inbox.due = kind :: inbox'.due ∧ written = kind.reply.toList) ∨
      inbox.due = [] ∧ inbox'.due = [] ∧ written = [] := by
  obtain ⟨kind, kinds, rfl, rfl, rfl⟩ := act_eq_some.mp hact
  by_cases hkind : kind = .separate
  · subst hkind
    exact .inr ⟨rfl, rfl, rfl⟩
  · refine .inl ⟨kind, ?_, rfl⟩
    simp [due, hkind, Kind.beforeSeparate_cons hkind]

/-- Every act reads one message and answers with at most one. -/
theorem unread_act {inbox inbox' : Inbox} {written : List Kind}
    (hact : inbox.act = some (inbox', written)) :
    inbox'.unread + 1 = inbox.unread ∧ written.length ≤ 1 ∧ .separate ∉ written := by
  obtain ⟨kind, kinds, rfl, rfl, rfl⟩ := act_eq_some.mp hact
  refine ⟨?_, ?_, Kind.separate_notMem_reply kind⟩
  · cases kind <;> simp [unread, due, Kind.beforeSeparate] <;> omega
  · cases kind <;> simp [Kind.reply]

theorem unread_deliver_of_ending {inbox : Inbox} (h : inbox.Ending) {written : List Kind}
    (hwritten : .separate ∉ written) : (inbox.deliver written).unread = inbox.unread := by
  simp only [unread, due_deliver_of_ending h]
  simp [deliver, hwritten]

theorem unread_deliver_le (inbox : Inbox) {written : List Kind} (hwritten : .separate ∉ written) :
    (inbox.deliver written).unread ≤ inbox.unread + written.length := by
  by_cases h : inbox.Ending
  · rw [unread_deliver_of_ending h hwritten]
    omega
  · simp only [unread, due_deliver h hwritten]
    simp only [Ending, not_or, Bool.not_eq_false] at h
    simp [deliver, h, hwritten]

end Inbox

/-- The frames in flight between two parties. -/
abbrev Flight := Pair Inbox

namespace Flight

/-- One party reads a frame; its answer is in flight to the other. -/
def step : Side → Flight → Option Flight := Pair.step (fun _ => Inbox.act) Inbox.deliver

/-- Where the left party is ending, no run goes on for ever. -/
theorem terminates_of_left {flight : Flight} (h : flight.left.Ending) : Terminates step flight := by
  refine @terminates_of_measure _ _ _ _ (fun flight : Flight => flight.left.Ending)
    (fun flight => 2 * flight.left.unread + flight.right.unread) ?_ h
  intro flight flight' hending hmoves
  rcases Pair.moves_iff.mp hmoves with ⟨written, hact, hright⟩ | ⟨written, hact, hleft⟩
  · -- the answer is one frame more for the right party, at most
    obtain ⟨hunread, hlength, hwritten⟩ := Inbox.unread_act hact
    have hmore := flight.right.unread_deliver_le hwritten
    refine ⟨(Inbox.ending_act hact).mpr hending, ?_⟩
    rw [hright]
    omega
  · obtain ⟨hunread, -, hwritten⟩ := Inbox.unread_act hact
    have hsame := Inbox.unread_deliver_of_ending hending hwritten
    rw [hleft]
    exact ⟨(Inbox.ending_deliver hwritten).mpr hending, by omega⟩

/-- Where either party is ending, no run goes on for ever. -/
theorem terminates_of_ending {flight : Flight}
    (h : flight.left.Ending ∨ flight.right.Ending) : Terminates step flight := by
  rcases h with h | h
  · exact terminates_of_left h
  · exact Pair.terminates_of_swap (terminates_of_left h)

/-- No frame in flight is a Separate, and there is one. -/
structure Endless (flight : Flight) : Prop where
  left : ¬ flight.left.Ending
  right : ¬ flight.right.Ending
  inFlight : flight.left.kinds ≠ [] ∨ flight.right.kinds ≠ []

theorem Endless.swap {flight : Flight} (h : Endless flight) : Endless flight.swap :=
  ⟨h.right, h.left, h.inFlight.symm⟩

/-- A frame to the left party is read and answered. -/
theorem Endless.moves_left {flight : Flight} (h : Endless flight)
    (hkinds : flight.left.kinds ≠ []) : ∃ flight', Moves step flight flight' ∧ Endless flight' := by
  obtain ⟨⟨serving, kinds⟩, right⟩ := flight
  obtain ⟨hleft, hright, -⟩ := h
  simp only [Inbox.Ending, not_or, Bool.not_eq_false] at hleft
  obtain ⟨rfl, hseparate⟩ := hleft
  cases kinds with
  | nil => exact (hkinds rfl).elim
  | cons kind kinds =>
      have hact : Inbox.act ⟨true, kind :: kinds⟩ = some (_, kind.reply.toList) := rfl
      rw [List.mem_cons, not_or] at hseparate
      refine ⟨⟨⟨kind ≠ .separate, kinds⟩, right.deliver kind.reply.toList⟩,
        Pair.moves_iff.mpr (.inl ⟨_, hact, rfl⟩), ?_, ?_, .inr ?_⟩
      · simp [Inbox.Ending, Ne.symm hseparate.1, hseparate.2]
      · rwa [Inbox.ending_deliver (Kind.separate_notMem_reply kind)]
      · cases kind <;> simp [Inbox.deliver, Kind.reply] at hseparate ⊢

/-- Where no Separate is in flight, what is in flight is answered for ever. -/
theorem Endless.not_terminates {flight : Flight} (h : Endless flight) :
    ¬ Terminates step flight := by
  apply not_terminates_of_inv _ h
  intro flight h
  rcases h.inFlight with hleft | hright
  · exact h.moves_left hleft
  · obtain ⟨swapped, hmoves, hendless⟩ := h.swap.moves_left hright
    exact ⟨swapped.swap, Pair.moves_swap hmoves, hendless.swap⟩

/-! ## Rejections in answer to rejections -/

/-- A party is about to answer a rejection with a rejection. -/
def Echoes (flight : Flight) : Prop :=
  (∃ kinds, flight.left = ⟨true, .reject :: kinds⟩) ∨
    ∃ kinds, flight.right = ⟨true, .reject :: kinds⟩

/-- No run comes to answer a rejection with a rejection. -/
def Silent (flight : Flight) : Prop := ∀ flight', Reaches step flight flight' → ¬ Echoes flight'

/-- One party is ending; no party has a rejection due, and neither will get one. -/
structure Hushed (flight : Flight) : Prop where
  ending : flight.left.Ending ∨ flight.right.Ending
  left : .reject ∉ flight.left.due
  right : .reject ∉ flight.right.due
  fromLeft : ¬ flight.right.Ending → ∀ kind ∈ flight.left.due, kind = .request
  fromRight : ¬ flight.left.Ending → ∀ kind ∈ flight.right.due, kind = .request

theorem Hushed.swap {flight : Flight} (h : Hushed flight) : Hushed flight.swap :=
  ⟨h.ending.symm, h.right, h.left, h.fromRight, h.fromLeft⟩

/-- An act keeps the exchange hushed. -/
theorem Hushed.left_act {flight flight' : Flight} {written : List Kind} (h : Hushed flight)
    (hact : flight.left.act = some (flight'.left, written))
    (hright : flight'.right = flight.right.deliver written) : Hushed flight' := by
  obtain ⟨-, -, hseparate⟩ := Inbox.unread_act hact
  have hleft := Inbox.ending_act hact
  have hsame : flight'.right.Ending ↔ flight.right.Ending := by
    rw [hright]
    exact Inbox.ending_deliver hseparate
  have hdue : ∀ kind ∈ flight'.left.due, kind ∈ flight.left.due := by
    rcases Inbox.due_act hact with ⟨kind, hdue, -⟩ | ⟨-, hdue, -⟩
    · rw [hdue]
      exact fun _ => List.mem_cons_of_mem _
    · simp [hdue]
  have hquiet (hending : flight.right.Ending) : flight'.right.due = flight.right.due := by
    rw [hright, Inbox.due_deliver_of_ending hending]
  refine ⟨by rw [hleft, hsame]; exact h.ending, fun hmem => h.left (hdue _ hmem), ?_,
    fun hending kind hkind => h.fromLeft (hsame.not.mp hending) kind (hdue kind hkind),
    fun hending => ?_⟩
  · by_cases hending : flight.right.Ending
    · rw [hquiet hending]
      exact h.right
    · -- the answer to a request is no rejection
      rw [hright, Inbox.due_deliver hending hseparate, List.mem_append, not_or]
      refine ⟨h.right, ?_⟩
      rcases Inbox.due_act hact with ⟨kind, hfirst, rfl⟩ | ⟨-, -, rfl⟩
      · rw [h.fromLeft hending kind (by simp [hfirst])]
        decide
      · simp
  · have hnot := hleft.not.mp hending
    rw [hquiet (h.ending.resolve_left hnot)]
    exact h.fromRight hnot

/-- A hushed exchange never comes to answer a rejection with a rejection. -/
theorem Hushed.silent {flight : Flight} (h : Hushed flight) : Silent flight := by
  intro flight' hreaches
  have hhushed : Hushed flight' := by
    refine hreaches.inv (fun flight flight' hhushed hmoves => ?_) h
    rcases Pair.moves_iff.mp hmoves with ⟨written, hact, hright⟩ | ⟨written, hact, hleft⟩
    · exact hhushed.left_act hact hright
    · exact (@Hushed.left_act flight.swap flight'.swap written hhushed.swap hact hleft).swap
  rintro (⟨kinds, hleft⟩ | ⟨kinds, hright⟩)
  · apply hhushed.left
    simp [hleft, Inbox.due, Kind.beforeSeparate]
  · apply hhushed.right
    simp [hright, Inbox.due, Kind.beforeSeparate]

/-- A run that brings the left party to any frame that is due to it. -/
theorem reaches_due {kinds : List Kind} {right : Inbox} {kind : Kind}
    (hdue : kind ∈ Kind.beforeSeparate kinds) :
    ∃ rest written, Reaches step ⟨⟨true, kinds⟩, right⟩
      ⟨⟨true, kind :: rest⟩, right.deliver written⟩ ∧ .separate ∉ written := by
  induction kinds generalizing right with
  | nil => cases hdue
  | cons first kinds ih =>
      by_cases hfirst : first = kind
      · subst hfirst
        exact ⟨kinds, [], by rw [Inbox.deliver_nil]; exact .refl, by simp⟩
      have hseparate : first ≠ .separate := by
        rintro rfl
        cases hdue
      rw [Kind.beforeSeparate_cons hseparate] at hdue
      obtain ⟨rest, written, hreaches, hwritten⟩ := @ih (right.deliver first.reply.toList)
        ((List.mem_cons.mp hdue).resolve_left (Ne.symm hfirst))
      have hmoves : Moves step ⟨⟨true, first :: kinds⟩, right⟩
          ⟨⟨true, kinds⟩, right.deliver first.reply.toList⟩ :=
        Pair.moves_iff.mpr (.inl ⟨first.reply.toList, by simp [Inbox.act, hseparate], rfl⟩)
      refine ⟨rest, first.reply.toList ++ written, ?_, ?_⟩
      · rw [← Inbox.deliver_deliver]
        exact .head hmoves hreaches
      · rw [List.mem_append, not_or]
        exact ⟨Kind.separate_notMem_reply first, hwritten⟩

theorem Silent.swap {flight : Flight} (h : Silent flight) : Silent flight.swap := by
  intro flight' hreaches hechoes
  exact h flight'.swap (Pair.reaches_swap hreaches) hechoes.symm

theorem reject_notMem_of_silent {toLeft : List Kind} {right : Inbox}
    (h : Silent ⟨⟨true, toLeft⟩, right⟩) : .reject ∉ Kind.beforeSeparate toLeft := by
  intro hdue
  obtain ⟨rest, written, hreaches, -⟩ := @reaches_due _ right _ hdue
  exact h _ hreaches (.inl ⟨rest, rfl⟩)

/-- A frame that is answered with a rejection comes to nothing only where the other
party ends before it reads the rejection. -/
theorem request_of_silent {toLeft toRight : List Kind}
    (h : Silent ⟨⟨true, toLeft⟩, ⟨true, toRight⟩⟩) (hright : .separate ∉ toRight) :
    ∀ kind ∈ Kind.beforeSeparate toLeft, kind = .request := by
  intro kind hdue
  by_contra hkind
  obtain ⟨rest, written, hreaches, hwritten⟩ := @reaches_due _ ⟨true, toRight⟩ _ hdue
  have hreply : kind.reply.toList = [.reject] := by
    cases kind with
    | request => exact (hkind rfl).elim
    | separate => exact (Kind.separate_notMem_beforeSeparate toLeft hdue).elim
    | answer | reject => rfl
  -- the left party answers the frame, and the right party reads up to that answer
  have hmoves : Moves step ⟨⟨true, kind :: rest⟩, ⟨true, toRight ++ written⟩⟩
      ⟨⟨kind ≠ .separate, rest⟩, ⟨true, toRight ++ written ++ [.reject]⟩⟩ :=
    Pair.moves_iff.mpr (.inl ⟨[.reject], by simp [Inbox.act, hreply], rfl⟩)
  have hmem : Kind.reject ∈ Kind.beforeSeparate (toRight ++ written ++ [.reject]) := by
    rw [Kind.beforeSeparate_of_notMem (by simp [hright, hwritten])]
    simp
  obtain ⟨rest', written', hreaches', -⟩ := @reaches_due _ ⟨kind ≠ .separate, rest⟩ _ hmem
  exact h _ ((hreaches.tail hmoves).trans (Pair.reaches_swap hreaches')) (.inr ⟨rest', rfl⟩)

/-- What is in flight to two waiting parties comes to an end without a rejection in
answer to a rejection: there is nothing in flight, or there is a Separate, no
rejection is in front of one, and what a party without one will get is answers. -/
def Quiet (toLeft toRight : List Kind) : Prop :=
  (toLeft = [] ∧ toRight = []) ∨
    ((.separate ∈ toLeft ∨ .separate ∈ toRight) ∧
      .reject ∉ Kind.beforeSeparate toLeft ∧ .reject ∉ Kind.beforeSeparate toRight ∧
      (.separate ∉ toRight → ∀ kind ∈ Kind.beforeSeparate toLeft, kind = .request) ∧
      (.separate ∉ toLeft → ∀ kind ∈ Kind.beforeSeparate toRight, kind = .request))

/-- The exchange is finite and silent exactly if the two lists of kinds in flight are quiet. -/
theorem quiet_iff {toLeft toRight : List Kind} :
    (Terminates step ⟨⟨true, toLeft⟩, ⟨true, toRight⟩⟩ ∧
      Silent ⟨⟨true, toLeft⟩, ⟨true, toRight⟩⟩) ↔ Quiet toLeft toRight := by
  constructor
  · rintro ⟨hterminates, hsilent⟩
    by_cases hempty : toLeft = [] ∧ toRight = []
    · exact .inl hempty
    refine .inr ⟨?_, reject_notMem_of_silent hsilent, reject_notMem_of_silent hsilent.swap,
      request_of_silent hsilent, request_of_silent hsilent.swap⟩
    by_contra hseparate
    rw [not_or] at hseparate
    have hendless : Endless ⟨⟨true, toLeft⟩, ⟨true, toRight⟩⟩ :=
      ⟨by simp [Inbox.Ending, hseparate.1], by simp [Inbox.Ending, hseparate.2],
        not_and_or.mp hempty⟩
    exact hendless.not_terminates hterminates
  · rintro (⟨rfl, rfl⟩ | ⟨hseparate, hleft, hright, hfromLeft, hfromRight⟩)
    · have hstill (flight : Flight) : ¬ Moves step ⟨⟨true, []⟩, ⟨true, []⟩⟩ flight := by
        rw [step, Pair.moves_iff]
        rintro (⟨written, hact, -⟩ | ⟨written, hact, -⟩) <;> cases hact
      refine ⟨fun run hstart => ⟨0, hstart ▸ hstill _⟩, fun flight' hreaches => ?_⟩
      rcases hreaches.cases_head with rfl | ⟨middle, hmoves, -⟩
      · rintro (⟨kinds, hkinds⟩ | ⟨kinds, hkinds⟩) <;> cases hkinds
      · exact (hstill _ hmoves).elim
    · have hending : Inbox.Ending ⟨true, toLeft⟩ ∨ Inbox.Ending ⟨true, toRight⟩ := by
        simpa [Inbox.Ending] using hseparate
      refine ⟨terminates_of_ending hending, Hushed.silent ⟨hending, hleft, hright, ?_, ?_⟩⟩
      · exact fun hnot => hfromLeft (by simpa [Inbox.Ending] using hnot)
      · exact fun hnot => hfromRight (by simpa [Inbox.Ending] using hnot)

end Flight

end Secs

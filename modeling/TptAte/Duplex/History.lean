import Mathlib.Data.List.Induction

/-! # Systems with a history

A system takes labelled steps, each of which gives an output or is not possible. The
history of a run lists its labels with their outputs, so that what holds of a run can
be said of what was done in it.
-/

namespace Duplex

universe u v w

variable {Label : Type u} {Output : Type v} {State : Type w}

/-- A run from one state to another, with its history. -/
inductive Runs (step : Label → State → Option (Output × State)) (start : State) :
    List (Label × Output) → State → Prop
  | nil : Runs step start [] start
  | concat {history : List (Label × Output)} {middle final : State} {label : Label}
      {output : Output} (hruns : Runs step start history middle)
      (hstep : step label middle = some (output, final)) :
      Runs step start (history ++ [(label, output)]) final

namespace Runs

variable {step : Label → State → Option (Output × State)} {start final : State}
  {history before after : List (Label × Output)}

/-- What every step keeps of a history and its state holds after every run. -/
theorem inv {inv : List (Label × Output) → State → Prop} (hstart : inv [] start)
    (hkeeps : ∀ history middle final label output, inv history middle →
      step label middle = some (output, final) → inv (history ++ [(label, output)]) final)
    (hruns : Runs step start history final) : inv history final := by
  induction hruns with
  | nil => exact hstart
  | concat _ hstep ih => exact hkeeps _ _ _ _ _ ih hstep

/-- A run goes through a state behind each part of its history. -/
theorem split (hruns : Runs step start (before ++ after) final) :
    ∃ middle, Runs step start before middle ∧ Runs step middle after final := by
  induction after using List.reverseRecOn generalizing final with
  | nil =>
      rw [List.append_nil] at hruns
      exact ⟨final, hruns, .nil⟩
  | append_singleton after event ih =>
      rw [← List.append_assoc] at hruns
      generalize hhistory : before ++ after ++ [event] = history at hruns
      cases hruns with
      | nil => simp at hhistory
      | concat hfront hstep =>
          obtain ⟨heq, hevent⟩ := List.append_inj' hhistory rfl
          cases hevent
          subst heq
          obtain ⟨middle, hbefore, hafter⟩ := ih hfront
          exact ⟨middle, hbefore, hafter.concat hstep⟩

/-- The state in which an event of a run took place. -/
theorem at_event {label : Label} {output : Output}
    (hruns : Runs step start (before ++ (label, output) :: after) final) :
    ∃ middle next, Runs step start before middle ∧ step label middle = some (output, next) := by
  rw [← List.singleton_append, ← List.append_assoc] at hruns
  obtain ⟨next, hfront, -⟩ := hruns.split
  generalize hhistory : before ++ [(label, output)] = history at hfront
  cases hfront with
  | nil => simp at hhistory
  | concat hbefore hstep =>
      obtain ⟨heq, hevent⟩ := List.append_inj' hhistory rfl
      cases hevent
      subst heq
      exact ⟨_, next, hbefore, hstep⟩

end Runs

end Duplex

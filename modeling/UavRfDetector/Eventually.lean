import UavRfDetector.Transition

/-! What a part of a system is sure to come to when it is left alone: it has one next
step at a time, and takes it. -/

namespace UavRfDetector.Transition

variable {State Event : Type}

inductive Eventually (next : State → Option State) (goal : State → Prop) : State → Prop where
  | reached {state} (here : goal state) : Eventually next goal state
  | step {state after} (stepped : next state = some after) (rest : Eventually next goal after) :
    Eventually next goal state

variable {next : State → Option State} {goal : State → Prop} {state : State}

/-- It comes about by steps of its own alone. -/
theorem Eventually.run (eventually : Eventually next goal state) {step : State → Event → Option State}
    {allowed : State → Event → Prop} (event : Event) (own : ∀ state, step state event = next state)
    (permitted : ∀ state, allowed state event) :
    ∃ count last, Run step allowed state (List.replicate count event) last ∧ goal last := by
  induction eventually with
  | reached here => exact ⟨0, _, .nil, here⟩
  | @step state after stepped rest ih =>
    obtain ⟨count, last, run, here⟩ := ih
    have first : Run step allowed state [event] after := .snoc .nil event (permitted state) ((own state).trans stepped)
    exact ⟨count + 1, last, first.trans run, here⟩

end UavRfDetector.Transition

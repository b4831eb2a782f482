import UavRfDetector.Transition

/-! Refinement of one system by another as far as can be seen from outside: a step of
the finer one is any number of steps of the other with the same labels. -/

namespace UavRfDetector.Transition

variable {State Event Abstract Action Label : Type}

section Refinement
variable (step : State → Event → Option State) (allowed : State → Event → Prop) (label : Event → Option Label)
  (step' : Abstract → Action → Option Abstract) (allowed' : Abstract → Action → Prop) (label' : Action → Option Label)

/-- What can be seen of the events of a run. -/
def history (events : List Event) : List Label := events.filterMap label

end Refinement

variable {step : State → Event → Option State} {allowed : State → Event → Prop} {label : Event → Option Label}
  {step' : Abstract → Action → Option Abstract} {allowed' : Abstract → Action → Prop} {label' : Action → Option Label}
  {related : State → Abstract → Prop} {first last : State} {events : List Event} {abstract : Abstract}

/-- One step of the abstract system is a run. -/
theorem Run.single {action : Action} {abstract' : Abstract} (permitted : allowed' abstract action)
    (stepped : step' abstract action = some abstract') : Run step' allowed' abstract [action] abstract' :=
  Run.nil.snoc action permitted stepped

end UavRfDetector.Transition

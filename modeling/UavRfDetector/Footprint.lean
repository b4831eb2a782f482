import Mathlib.Data.Setoid.Basic

/-! Operations on a state made of parts. One that neither reads nor writes what is not
its own cannot tell whether another one on other parts has been before it. -/

namespace UavRfDetector.Footprint

variable {State Part Out Out' : Type}

/-- An operation that works on some parts of a state, as long as the state is a good one. -/
structure Local (same : Part → Setoid State) (good : State → Prop) (mine : Part → Prop)
    (run : State → State × Out) : Prop where
  keeps : ∀ {state}, good state → good (run state).1
  frame : ∀ {state}, good state → ∀ part, ¬ mine part → (same part).r (run state).1 state
  congr : ∀ {state state'}, good state → good state' → (∀ part, mine part → (same part).r state state') →
    (run state).2 = (run state').2 ∧ ∀ part, mine part → (same part).r (run state).1 (run state').1

variable {same : Part → Setoid State} {good : State → Prop} {mine yours : Part → Prop}
  {run : State → State × Out} {other : State → State × Out'} {state : State}

/-- What an operation does after another one is what it would have done before. -/
theorem Local.after (first : Local same good mine run) (second : Local same good yours other)
    (apart : ∀ part, mine part → ¬ yours part) (sound : good state) :
    (run (other state).1).2 = (run state).2 ∧
      ∀ part, mine part → (same part).r (run (other state).1).1 (run state).1 := by
  apply first.congr (second.keeps sound) sound
  intro part own
  exact second.frame sound part (apart part own)

end UavRfDetector.Footprint

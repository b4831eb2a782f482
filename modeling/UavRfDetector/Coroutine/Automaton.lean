import UavRfDetector.Coroutine.Awaitable

/-! A coroutine whose next operation depends only on the last one and its result
is an automaton over its operations. A simulation proves this once for the frames;
facts about runs are then proved for the automaton, which has no continuations. -/

namespace UavRfDetector.Coroutine

structure Automaton (Op : Type) (Res : Op → Type) (ε : Type) where
  first : Control Op ε
  next : (operation : Op) → Res operation → Control Op ε

variable {Op : Type} {Res : Op → Type} {ε σ : Type}

abbrev History (Op : Type) (Res : Op → Type) := List (Σ operation, Res operation)

namespace Automaton
variable (automaton : Automaton Op Res ε)

/-- The history of a control state and where the answers lead from it. -/
def follow : Control Op ε → List (Answer Op Res) → History Op Res × Control Op ε
  | control, [] => ([], control)
  | .ended exception, _ :: _ => ([], .ended exception)
  | .pending operation, answer :: answers =>
    let (history, last) := follow (automaton.next operation (answer operation)) answers
    (⟨operation, answer operation⟩ :: history, last)

@[simp] theorem follow_nil (control : Control Op ε) : automaton.follow control [] = ([], control) := by
  cases control <;> rfl

@[simp] theorem follow_ended (exception : Option ε) (answers : List (Answer Op Res)) :
    automaton.follow (.ended exception) answers = ([], .ended exception) := by
  cases answers <;> rfl

@[simp] theorem follow_pending (operation : Op) (answer : Answer Op Res) (answers : List (Answer Op Res)) :
    automaton.follow (.pending operation) (answer :: answers) =
      (⟨operation, answer operation⟩ :: (automaton.follow (automaton.next operation (answer operation)) answers).1,
        (automaton.follow (automaton.next operation (answer operation)) answers).2) := rfl

inductive Reaches : History Op Res → Control Op ε → Prop where
  | start : Reaches [] automaton.first
  | next {history operation} (reached : Reaches history (.pending operation)) (result : Res operation) :
    Reaches (history ++ [⟨operation, result⟩]) (automaton.next operation result)

end Automaton

inductive Agrees (awaits : Op → Frame Op Res ε σ → Prop) : Control Op ε → Frame Op Res ε σ → Prop where
  | pending {operation frame} (suspended : awaits operation frame) : Agrees awaits (.pending operation) frame
  | ended (exception : Option ε) : Agrees awaits (.ended exception) (.ended exception)

/-- `awaits operation frame` describes the frames suspended on an operation,
and every result takes such a frame to where the automaton says. -/
structure Simulation (coroutine : Forever Op Res ε σ) (automaton : Automaton Op Res ε) where
  awaits : Op → Frame Op Res ε σ → Prop
  resumes : ∀ {operation frame}, awaits operation frame →
    ∃ resume, frame = .suspended operation resume ∧
      ∀ result, Agrees awaits (automaton.next operation result) (coroutine.settle (resume result))

namespace Simulation
variable {coroutine : Forever Op Res ε σ} {automaton : Automaton Op Res ε}

theorem control_eq (simulation : Simulation coroutine automaton) {control : Control Op ε}
    {frame : Frame Op Res ε σ} (agrees : Agrees simulation.awaits control frame) :
    frame.control = control := by
  cases agrees with
  | pending suspended =>
    obtain ⟨resume, rfl, _⟩ := simulation.resumes suspended
    rfl
  | ended exception => rfl

theorem run (simulation : Simulation coroutine automaton) {control : Control Op ε}
    {execution : Execution Op Res ε σ} (agrees : Agrees simulation.awaits control execution.frame)
    (answers : List (Answer Op Res)) :
    (coroutine.run execution answers).trace = execution.trace ++ (automaton.follow control answers).1 ∧
      Agrees simulation.awaits (automaton.follow control answers).2 (coroutine.run execution answers).frame := by
  induction answers generalizing control execution with
  | nil => simpa [Forever.run] using agrees
  | cons answer answers ih =>
    obtain ⟨trace, frame⟩ := execution
    cases agrees with
    | @pending operation _ suspended =>
      obtain ⟨resume, rfl, resumed⟩ := simulation.resumes suspended
      have next : Agrees simulation.awaits (automaton.next operation (answer operation))
          (coroutine.step ⟨trace, .suspended operation resume⟩ answer).frame := resumed (answer operation)
      have later := ih next
      simpa [Forever.run, Forever.step] using later
    | ended exception =>
      have next : Agrees simulation.awaits (.ended exception) (coroutine.step ⟨trace, .ended exception⟩ answer).frame :=
        .ended exception
      have later := ih next
      simpa [Forever.run, Forever.step] using later

/-- An execution has come to where its history leads the automaton. -/
structure Tracks (simulation : Simulation coroutine automaton) (execution : Execution Op Res ε σ)
    (control : Control Op ε) : Prop where
  reached : automaton.Reaches execution.trace control
  agrees : Agrees simulation.awaits control execution.frame

theorem Tracks.control_eq {simulation : Simulation coroutine automaton} {execution : Execution Op Res ε σ}
    {control : Control Op ε} (tracks : Tracks simulation execution control) : execution.frame.control = control :=
  simulation.control_eq tracks.agrees

theorem Tracks.step {simulation : Simulation coroutine automaton} {execution : Execution Op Res ε σ}
    {operation : Op} (tracks : Tracks simulation execution (.pending operation)) (answer : Answer Op Res) :
    (coroutine.step execution answer).trace = execution.trace ++ [⟨operation, answer operation⟩] ∧
      Tracks simulation (coroutine.step execution answer) (automaton.next operation (answer operation)) := by
  obtain ⟨trace, frame⟩ := execution
  obtain ⟨reached, agrees⟩ := tracks
  cases agrees with
  | pending suspended =>
    obtain ⟨resume, rfl, resumed⟩ := simulation.resumes suspended
    exact ⟨rfl, reached.next _, resumed _⟩

end Simulation
end UavRfDetector.Coroutine

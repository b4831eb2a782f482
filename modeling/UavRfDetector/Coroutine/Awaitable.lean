import Mathlib.Logic.Basic

/-! Coroutines as data. An awaitable is the tree of operations a coroutine
suspends on, each with its continuation; nothing here runs an operation. -/

namespace UavRfDetector.Coroutine

inductive Awaitable (Op : Type) (Res : Op → Type) (α : Type) where
  | done (value : α)
  | await (operation : Op) (resume : Res operation → Awaitable Op Res α)

variable {Op : Type} {Res : Op → Type} {α β : Type}

namespace Awaitable

def bind (program : Awaitable Op Res α) (next : α → Awaitable Op Res β) : Awaitable Op Res β :=
  match program with
  | .done value => next value
  | .await operation resume => .await operation (fun result => (resume result).bind next)

instance : Monad (Awaitable Op Res) where
  pure := .done
  bind := bind

end Awaitable

/-- The body of a coroutine: it reads and writes the locals that live in its
frame and may throw. A throw keeps the locals as they were at that point. -/
abbrev CoM (Op : Type) (Res : Op → Type) (ε σ : Type) := ExceptT ε (StateT σ (Awaitable Op Res))

variable {ε σ : Type}

def perform (operation : Op) : CoM Op Res ε σ (Res operation) :=
  ExceptT.lift (StateT.lift (.await operation .done))

inductive Flow where
  | again
  | coReturn
deriving DecidableEq, Repr

/-- A coroutine that runs `prologue` and then `body` in an endless loop. An
iteration that neither ends the coroutine nor awaits would spin without ever
giving control back; `suspends` excludes it. -/
structure Forever (Op : Type) (Res : Op → Type) (ε σ : Type) where
  prologue : CoM Op Res ε σ Unit
  body : CoM Op Res ε σ Flow
  suspends : ∀ first last, body.run.run first ≠ .done (.ok .again, last)

/-- A coroutine frame between two resumptions. An ended frame keeps what the
completion handler is given: `none` when the coroutine returned. -/
inductive Frame (Op : Type) (Res : Op → Type) (ε σ : Type) where
  | suspended (operation : Op) (resume : Res operation → Awaitable Op Res (Except ε Flow × σ))
  | ended (exception : Option ε)

/-- The result the environment has for the pending operation, whichever it is. -/
abbrev Answer (Op : Type) (Res : Op → Type) := (operation : Op) → Res operation

structure Execution (Op : Type) (Res : Op → Type) (ε σ : Type) where
  trace : List (Σ operation, Res operation)
  frame : Frame Op Res ε σ

inductive Control (Op ε : Type) where
  | pending (operation : Op)
  | ended (exception : Option ε)
deriving DecidableEq, Repr

def Frame.control : Frame Op Res ε σ → Control Op ε
  | .suspended operation _ => .pending operation
  | .ended exception => .ended exception

def Frame.isEnded : Frame Op Res ε σ → Bool
  | .suspended _ _ => false
  | .ended _ => true

theorem Frame.suspended_of_pending {frame : Frame Op Res ε σ} {operation : Op}
    (waiting : frame.control = .pending operation) : ∃ resume, frame = .suspended operation resume := by
  cases frame with
  | suspended operation resume =>
    cases waiting
    exact ⟨resume, rfl⟩
  | ended exception => cases waiting

theorem Frame.not_ended_of_pending {frame : Frame Op Res ε σ} {operation : Op}
    (waiting : frame.control = .pending operation) : ¬ frame.isEnded := by
  obtain ⟨resume, rfl⟩ := suspended_of_pending waiting
  simp [isEnded]

theorem Frame.isEnded_of_ended {frame : Frame Op Res ε σ} {exception : Option ε}
    (ended : frame.control = .ended exception) : frame.isEnded := by
  cases frame with
  | suspended operation resume => cases ended
  | ended exception => rfl

namespace Forever
variable (coroutine : Forever Op Res ε σ)

def iterate (locals : σ) : Frame Op Res ε σ :=
  match same : coroutine.body.run.run locals with
  | .await operation resume => .suspended operation resume
  | .done (.error exception, _) => .ended (some exception)
  | .done (.ok .coReturn, _) => .ended none
  | .done (.ok .again, last) => absurd same (coroutine.suspends locals last)

/-- Run to the next suspension or to the end, starting another iteration when
the current one is over. -/
def settle : Awaitable Op Res (Except ε Flow × σ) → Frame Op Res ε σ
  | .await operation resume => .suspended operation resume
  | .done (.error exception, _) => .ended (some exception)
  | .done (.ok .coReturn, _) => .ended none
  | .done (.ok .again, locals) => coroutine.iterate locals

def start (locals : σ) : Execution Op Res ε σ :=
  ⟨[], coroutine.settle ((coroutine.prologue *> pure Flow.again).run.run locals)⟩

def step (execution : Execution Op Res ε σ) (answer : Answer Op Res) : Execution Op Res ε σ :=
  match execution.frame with
  | .suspended operation resume =>
    ⟨execution.trace ++ [⟨operation, answer operation⟩], coroutine.settle (resume (answer operation))⟩
  | .ended _ => execution

def run (execution : Execution Op Res ε σ) (answers : List (Answer Op Res)) : Execution Op Res ε σ :=
  answers.foldl coroutine.step execution

theorem iterate_await {locals : σ} {operation : Op}
    {resume : Res operation → Awaitable Op Res (Except ε Flow × σ)}
    (awaits : coroutine.body.run.run locals = .await operation resume) :
    coroutine.iterate locals = .suspended operation resume := by
  unfold iterate
  split <;> simp_all

theorem iterate_throw {locals last : σ} {exception : ε}
    (throws : coroutine.body.run.run locals = .done (.error exception, last)) :
    coroutine.iterate locals = .ended (some exception) := by
  unfold iterate
  split <;> simp_all

end Forever
end UavRfDetector.Coroutine

import UavRfDetector.Proofs.SessionAutomaton

/-! Scripts of a session: what each operation in turn would come out as. What a
script delivers and where it first fails is read off the script alone. -/

namespace UavRfDetector.Proofs
open Coroutine

abbrev StreamAnswer := Answer StreamOp StreamOp.Result
abbrev StreamHistory := History StreamOp StreamOp.Result
abbrev SessionRun := Execution StreamOp StreamOp.Result Exception Stream

def succeeds (message : Message) : StreamAnswer
  | .asyncAccept _ _ => .ok ()
  | .asyncRead => .ok message
  | .asyncWrite _ => .ok ()

def fails (exception : Exception) : StreamAnswer
  | .asyncAccept _ _ => .error exception
  | .asyncRead => .error exception
  | .asyncWrite _ => .error exception

/-- The order of an echo: the handshake, then reads and writes in turn, every
write being of the message read before it. -/
def outcome : (operation : StreamOp) → operation.Result → Except Exception StreamOp
  | .asyncAccept _ _, .ok () => .ok .asyncRead
  | .asyncAccept _ _, .error exception => .error exception
  | .asyncRead, .ok message => .ok (.asyncWrite message)
  | .asyncRead, .error exception => .error exception
  | .asyncWrite _, .ok () => .ok .asyncRead
  | .asyncWrite _, .error exception => .error exception

def failure (entry : Σ operation : StreamOp, operation.Result) : Option Exception :=
  match outcome entry.1 entry.2 with
  | .ok _ => none
  | .error exception => some exception

def firstFailure (operation : StreamOp) : List StreamAnswer → Option (StreamOp × Exception)
  | [] => none
  | answer :: answers =>
    match outcome operation (answer operation) with
    | .ok next => firstFailure next answers
    | .error exception => some (operation, exception)

/-- Where the coroutine goes from a failed operation: the handshake is outside
of the `try`, the reads and the writes are inside. -/
def handleFailure (json : Except JsonException String) : StreamOp → Exception → Control StreamOp Exception
  | .asyncAccept _ _, exception => .ended (some exception)
  | .asyncRead, exception | .asyncWrite _, exception => afterFailure json exception

theorem next_success {json_string : String} {operation next : StreamOp} {result : operation.Result}
    (came : outcome operation result = .ok next) :
    (sessionAutomaton (.ok json_string)).next operation result = .pending next := by
  cases operation <;> cases result <;> cases came <;> rfl

theorem next_failure {json : Except JsonException String} {operation : StreamOp} {exception : Exception}
    {result : operation.Result} (came : outcome operation result = .error exception) :
    (sessionAutomaton json).next operation result = handleFailure json operation exception := by
  cases operation <;> cases result <;> cases came <;> rfl

theorem follow_success {json_string : String} {operation next : StreamOp} {answer : StreamAnswer}
    (answers : List StreamAnswer) (came : outcome operation (answer operation) = .ok next) :
    (sessionAutomaton (.ok json_string)).follow (.pending operation) (answer :: answers) =
      (⟨operation, answer operation⟩ :: ((sessionAutomaton (.ok json_string)).follow (.pending next) answers).1,
        ((sessionAutomaton (.ok json_string)).follow (.pending next) answers).2) := by
  rw [Automaton.follow_pending, next_success came]

theorem follow_failed {json : Except JsonException String} {operation : StreamOp} {exception : Exception}
    {answer : StreamAnswer} (answers : List StreamAnswer)
    (came : outcome operation (answer operation) = .error exception) :
    (sessionAutomaton json).follow (.pending operation) (answer :: answers) =
      (⟨operation, answer operation⟩ ::
          ((sessionAutomaton json).follow (handleFailure json operation exception) answers).1,
        ((sessionAutomaton json).follow (handleFailure json operation exception) answers).2) := by
  rw [Automaton.follow_pending, next_failure came]

/-- As long as nothing fails, a session whose JSON block returns keeps to the
order of an echo; the operation that fails first is handled as a failure. -/
theorem follow_firstFailure (json_string : String) {operation failing : StreamOp} {exception : Exception}
    {answers : List StreamAnswer} (fails : firstFailure operation answers = some (failing, exception)) :
    ∃ (before : StreamHistory) (result : failing.Result) (rest : List StreamAnswer),
      (∀ entry ∈ before, failure entry = none) ∧ failure ⟨failing, result⟩ = some exception ∧
      let later := (sessionAutomaton (.ok json_string)).follow (handleFailure (.ok json_string) failing exception) rest
      (sessionAutomaton (.ok json_string)).follow (.pending operation) answers =
        (before ++ ⟨failing, result⟩ :: later.1, later.2) := by
  induction answers generalizing operation with
  | nil => cases fails
  | cons answer answers ih =>
    rw [firstFailure] at fails
    cases came : outcome operation (answer operation) with
    | ok next =>
      rw [came] at fails
      obtain ⟨before, result, rest, successes, failed, followed⟩ := ih fails
      refine ⟨⟨operation, answer operation⟩ :: before, result, rest, ?_, failed, ?_⟩
      · simpa [failure, came] using successes
      · rw [follow_success answers came, followed]
        rfl
    | error error =>
      rw [came] at fails
      cases fails
      exact ⟨[], answer failing, answers, by simp, by simp [failure, came], follow_failed answers came⟩

theorem follow_without_failure (json_string : String) {operation : StreamOp} {answers : List StreamAnswer}
    (succeeds : firstFailure operation answers = none) :
    ∀ entry ∈ ((sessionAutomaton (.ok json_string)).follow (.pending operation) answers).1, failure entry = none := by
  induction answers generalizing operation with
  | nil => simp
  | cons answer answers ih =>
    rw [firstFailure] at succeeds
    cases came : outcome operation (answer operation) with
    | error error => rw [came] at succeeds; cases succeeds
    | ok next =>
      rw [came] at succeeds
      rw [follow_success answers came]
      intro entry member
      rcases List.mem_cons.mp member with rfl | member
      · simp [failure, came]
      · exact ih succeeds entry member

end UavRfDetector.Proofs

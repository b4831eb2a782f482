import UavRfDetector.Proofs.SessionScript

/-! How a session ends after the first failure of its stream, with the JSON block
taken as a step that returns. A failure other than a closing in the loop ends the
coroutine; a closing does not, because the catch clause falls into another pass. -/

namespace UavRfDetector.Proofs
open Coroutine

/-- What the session owes a first failure: silence on the stream, an ordinary
return after a closing reported by a read or a write, and the error otherwise. -/
def dueEnd : StreamOp → Exception → Option Exception
  | .asyncAccept _ _, exception => some exception
  | .asyncRead, exception | .asyncWrite _, exception => if exception.isClosed then none else some exception

structure TornDown (execution : SessionRun) : Prop where
  first : ∀ before entry after exception, execution.trace = before ++ entry :: after →
    (∀ earlier ∈ before, failure earlier = none) → failure entry = some exception →
    after = [] ∧ execution.frame.control = .ended (dueEnd entry.1 exception)
  closed : ∀ before entry after exception, execution.trace = before ++ entry :: after →
    failure entry = some exception → exception.isClosed →
    after = [] ∧ ∀ operation, execution.frame.control ≠ .pending operation

/-- The first failure of the script is a read or a write that reports closed. -/
def closesInLoop (script : List StreamAnswer) : Bool :=
  match firstFailure handshake script with
  | some (.asyncRead, exception) | some (.asyncWrite _, exception) => exception.isClosed
  | _ => false

private theorem split_unique {before after before' after' : StreamHistory}
    {entry entry' : Σ operation : StreamOp, operation.Result}
    (same : before ++ entry :: after = before' ++ entry' :: after')
    (succeeded : ∀ earlier ∈ before, failure earlier = none) (failed : failure entry ≠ none)
    (succeeded' : ∀ earlier ∈ before', failure earlier = none) (failed' : failure entry' ≠ none) :
    entry :: after = entry' :: after' := by
  have rest {before after : StreamHistory} {entry : Σ operation : StreamOp, operation.Result}
      (succeeded : ∀ earlier ∈ before, failure earlier = none) (failed : failure entry ≠ none) :
      (before ++ entry :: after).dropWhile (fun entry => (failure entry).isNone) = entry :: after := by
    rw [List.dropWhile_append_of_pos (by simpa using succeeded), List.dropWhile_cons_of_neg (by simpa using failed)]
  rw [← rest succeeded failed, same, rest succeeded' failed']

private theorem tornDown_of_ended {execution : SessionRun} {before : StreamHistory}
    {last : Σ operation : StreamOp, operation.Result} {exception : Exception}
    (succeeded : ∀ earlier ∈ before, failure earlier = none) (failed : failure last = some exception)
    (trace : execution.trace = before ++ [last])
    (ended : execution.frame.control = .ended (dueEnd last.1 exception)) : TornDown execution := by
  have onlyLast (front : StreamHistory) (entry : Σ operation : StreamOp, operation.Result) (after : StreamHistory)
      (split : execution.trace = front ++ entry :: after) (fails : failure entry ≠ none) : after = [] := by
    rw [trace] at split
    rcases List.append_eq_append_iff.mp split with ⟨middle, _, tail⟩ | ⟨middle, same, tail⟩
    · cases middle <;> simp_all
    · cases middle with
      | nil => simp_all
      | cons first middle =>
        cases tail
        exact absurd (succeeded _ (by simp [same])) fails
  constructor
  · intro front entry after other split earlier fails
    refine ⟨onlyLast front entry after split (by simp [fails]), ?_⟩
    cases split_unique (trace.symm.trans split) succeeded (by simp [failed]) earlier (by simp [fails])
    rw [failed] at fails
    cases fails
    exact ended
  · intro front entry after other split fails _
    exact ⟨onlyLast front entry after split (by simp [fails]), by simp [ended]⟩

private theorem not_tornDown_of_pending {execution : SessionRun} {json_string : String} {before : StreamHistory}
    {entry : Σ operation : StreamOp, operation.Result} {exception : Exception} {operation : StreamOp}
    {rest : List StreamAnswer}
    (succeeded : ∀ earlier ∈ before, failure earlier = none) (failed : failure entry = some exception)
    (trace : execution.trace =
      before ++ entry :: ((sessionAutomaton (.ok json_string)).follow (.pending operation) rest).1)
    (control : execution.frame.control = ((sessionAutomaton (.ok json_string)).follow (.pending operation) rest).2) :
    ¬ TornDown execution := by
  intro torn
  obtain ⟨silent, ended⟩ := torn.first before entry _ exception trace succeeded failed
  cases rest with
  | nil => rw [ended] at control; simp at control
  | cons answer rest => simp at silent

/-- The session is torn down as it should be exactly for the scripts whose first
failure is not a closing in the loop. After such a closing it reads again. -/
theorem doSession_tornDown_iff (json_string : String) (ws : Stream) (script : List StreamAnswer) :
    TornDown ((doSessionWith (.ok json_string)).run ((doSessionWith (.ok json_string)).start ws) script) ↔
      closesInLoop script = false := by
  obtain ⟨trace, control⟩ := session_run (.ok json_string) ws script
  cases fails : firstFailure handshake script with
  | none =>
    have succeeded := follow_without_failure json_string fails
    rw [← trace] at succeeded
    constructor
    · intro _
      simp [closesInLoop, fails]
    · intro _
      constructor
      · intro before entry after exception split _ failed
        simp [succeeded entry (by simp [split])] at failed
      · intro before entry after exception split failed
        simp [succeeded entry (by simp [split])] at failed
  | some first =>
    obtain ⟨failing, exception⟩ := first
    obtain ⟨before, result, rest, succeeded, failed, followed⟩ := follow_firstFailure json_string fails
    rw [followed] at trace control
    cases failing with
    | asyncAccept timeout suffix =>
      simp only [handleFailure, Automaton.follow_ended] at trace control
      constructor
      · intro _
        simp [closesInLoop, fails]
      · intro _
        exact tornDown_of_ended succeeded failed trace control
    | asyncRead | asyncWrite message =>
      cases closes : exception.isClosed with
      | true =>
        simp only [handleFailure, afterFailure, closes, loopTop, if_true] at trace control
        simp only [closesInLoop, fails, closes, Bool.true_eq_false, iff_false]
        exact not_tornDown_of_pending succeeded failed trace control
      | false =>
        simp only [handleFailure, afterFailure, closes, Bool.false_eq_true, if_false, Automaton.follow_ended]
          at trace control
        constructor
        · intro _
          simp [closesInLoop, fails, closes]
        · intro _
          apply tornDown_of_ended succeeded failed trace
          simpa [dueEnd, closes] using control

/-- The peer closes before its first message: the session reads again and waits,
where it should have returned. -/
theorem closed_first_not_tornDown :
    let script := [succeeds ⟨true, []⟩, fails (.systemError ⟨closed, "closed"⟩)]
    let session := (doSessionWith (.ok "")).run ((doSessionWith (.ok "")).start { socket := ⟨0⟩ }) script
    session.frame.control = .pending .asyncRead ∧ ¬ TornDown session := by
  refine ⟨rfl, ?_⟩
  intro torn
  obtain ⟨_, ended⟩ := torn.first [⟨handshake, .ok ()⟩] ⟨.asyncRead, .error (.systemError ⟨closed, "closed"⟩)⟩ []
    (.systemError ⟨closed, "closed"⟩) rfl (by simp [failure, outcome]) rfl
  cases ended

private theorem follow_closing (json_string : String) {closing : List StreamAnswer}
    (closes : ∀ answer ∈ closing, ∃ exception, answer .asyncRead = Except.error exception ∧ exception.isClosed) :
    ((sessionAutomaton (.ok json_string)).follow (.pending .asyncRead) closing).1.length = closing.length ∧
      ((sessionAutomaton (.ok json_string)).follow (.pending .asyncRead) closing).2 = .pending .asyncRead := by
  induction closing with
  | nil => exact ⟨rfl, rfl⟩
  | cons answer closing ih =>
    obtain ⟨exception, reported, closed⟩ := closes answer (by simp)
    have failed : outcome .asyncRead (answer .asyncRead) = .error exception := by rw [reported]; rfl
    obtain ⟨length, waits⟩ := ih (by
      intro later member
      exact closes later (by simp [member]))
    rw [follow_failed closing failed]
    simp only [handleFailure, afterFailure, closed, loopTop, if_true]
    exact ⟨congrArg Nat.succ length, waits⟩

/-- A stream that goes on reporting closed is read without end. -/
theorem closed_read_again (json_string : String) (ws : Stream) {accept : StreamAnswer}
    (accepted : accept handshake = Except.ok ()) {closing : List StreamAnswer}
    (closes : ∀ answer ∈ closing, ∃ exception, answer .asyncRead = Except.error exception ∧ exception.isClosed) :
    let session := (doSessionWith (.ok json_string)).run ((doSessionWith (.ok json_string)).start ws) (accept :: closing)
    session.trace.length = closing.length + 1 ∧ session.frame.control = .pending .asyncRead := by
  obtain ⟨trace, control⟩ := session_run (.ok json_string) ws (accept :: closing)
  have came : outcome handshake (accept handshake) = .ok .asyncRead := by rw [accepted]; rfl
  rw [follow_success closing came] at trace control
  obtain ⟨length, waits⟩ := follow_closing json_string closes
  intro session
  rw [trace, control]
  exact ⟨congrArg Nat.succ length, waits⟩

end UavRfDetector.Proofs

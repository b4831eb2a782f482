import UavRfDetector.Proofs.SessionScript
import UavRfDetector.Server

/-! How sessions end. Their coroutine never returns, and that alone keeps their
completion handler, which rethrows without a null check, from undefined behaviour. -/

namespace UavRfDetector.Proofs
open Coroutine

def OnlyStd (history : StreamHistory) : Prop :=
  ∀ entry ∈ history, ∀ exception, failure entry = some exception → exception.isStd

/-- No history of a session leads to an ordinary return: a closing is kept by the
catch clause, which falls into the next pass of the loop. -/
theorem session_end {json : Except JsonException String} {history : StreamHistory} {e : Option Exception}
    (reached : (sessionAutomaton json).Reaches history (.ended e)) (std : OnlyStd history) :
    ∃ exception, e = some exception ∧ exception.isStd := by
  have top {e : Option Exception} (ends : loopTop json = .ended e) :
      ∃ exception, e = some exception ∧ exception.isStd := by
    cases json with
    | ok json_string => cases ends
    | error error => cases ends; exact ⟨_, rfl, rfl⟩
  generalize ends : Control.ended e = control at reached
  cases reached with
  | start => cases ends
  | @next history operation reached result =>
    cases came : outcome operation result with
    | ok next =>
      change .ended e = sessionNext json operation result at ends
      cases operation <;> cases result <;> cases came
      · exact top ends.symm
      · cases ends
      · exact top ends.symm
    | error exception =>
      have thrown : exception.isStd := std ⟨operation, result⟩ (by simp) exception (by simp [failure, came])
      rw [next_failure came] at ends
      cases operation with
      | asyncAccept timeout suffix => cases ends; exact ⟨exception, rfl, thrown⟩
      | asyncRead | asyncWrite message =>
        simp only [handleFailure, afterFailure] at ends
        split at ends
        · exact top ends.symm
        · cases ends; exact ⟨exception, rfl, thrown⟩

theorem sessionHandler_returns {setup : LogSetup} {logger : Logger} {exception : Exception}
    (std : exception.isStd) (returns : ∀ text, ((logInfo setup text).run.run logger).1 = .ok ()) :
    (sessionHandler setup (some exception) logger).1 = .returned := by
  have logged := returns exception.what
  simp only [sessionHandler, std, if_true]
  split
  next => rfl
  next thrown _ failed => rw [failed] at logged; cases logged

end UavRfDetector.Proofs

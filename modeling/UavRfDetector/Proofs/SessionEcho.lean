import UavRfDetector.Proofs.SessionScript

/-! What a session echoes. The loop would be an echo if its JSON block returned;
the block throws, so that nothing is read and nothing is written. -/

namespace UavRfDetector.Proofs
open Coroutine

/-- The messages handed to writes that succeeded, in order. -/
def echoed (history : StreamHistory) : List Message :=
  history.filterMap fun
    | ⟨.asyncWrite message, .ok ()⟩ => some message
    | _ => none

/-- The messages of a script's reads, up to the first operation that fails; a
message whose own write fails is the only one left out. -/
def delivered : List StreamAnswer → List Message
  | read :: write :: rest =>
    match read .asyncRead with
    | .ok message =>
      match write (.asyncWrite message) with
      | .ok () => message :: delivered rest
      | .error _ => []
    | .error _ => []
  | _ => []

/-- The first message is read and its write succeeds. -/
def firstExchange : List StreamAnswer → Bool
  | read :: write :: _ =>
    match read .asyncRead with
    | .ok message =>
      match write (.asyncWrite message) with
      | .ok () => true
      | .error _ => false
    | .error _ => false
  | _ => false

theorem delivered_eq_nil (script : List StreamAnswer) : delivered script = [] ↔ firstExchange script = false := by
  match script with
  | [] | [_] => simp [delivered, firstExchange]
  | read :: write :: rest =>
    cases received : read .asyncRead with
    | error exception => simp [delivered, firstExchange, received]
    | ok message => cases written : write (.asyncWrite message) <;> simp [delivered, firstExchange, received, written]

theorem doSession_after_handshake {J : JsonLibrary} (documented : J.Documented) (ws : Stream) (accept : StreamAnswer)
    (accepted : accept handshake = Except.ok ()) (script : List StreamAnswer) :
    let execution := (doSession J).run ((doSession J).start ws) (accept :: script)
    execution.trace = [⟨handshake, .ok ()⟩] ∧
      ∃ what, execution.frame.control = .ended (some (.json ⟨302, what⟩)) := by
  obtain ⟨what, throws⟩ := jsonBlock_throws documented
  obtain ⟨trace, control⟩ := session_run (jsonBlock J) ws (accept :: script)
  have next : (sessionAutomaton (jsonBlock J)).next handshake (accept handshake) =
      .ended (some (.json ⟨302, what⟩)) := by
    rw [accepted, throws]
    rfl
  rw [Automaton.follow_pending, next, Automaton.follow_ended, accepted] at trace
  rw [Automaton.follow_pending, next, Automaton.follow_ended] at control
  exact ⟨trace, what, control⟩

/-- A session with a successful handshake echoes what its script delivers exactly
when the script delivers nothing: the first read or the first write fails, or the
peer stays silent. -/
theorem doSession_echoes_iff {J : JsonLibrary} (documented : J.Documented) (ws : Stream) (accept : StreamAnswer)
    (accepted : accept handshake = Except.ok ()) (script : List StreamAnswer) :
    echoed ((doSession J).run ((doSession J).start ws) (accept :: script)).trace = delivered script ↔
      firstExchange script = false := by
  obtain ⟨trace, _⟩ := doSession_after_handshake documented ws accept accepted script
  rw [trace, ← delivered_eq_nil]
  exact eq_comm

theorem one_message_not_echoed :
    let message : Message := ⟨true, [104, 105]⟩
    let script := [succeeds message, succeeds message, fails (.systemError ⟨closed, "closed"⟩)]
    let session := (doSession plainJson).run ((doSession plainJson).start { socket := ⟨0⟩ }) (succeeds message :: script)
    echoed session.trace = [] ∧ delivered script = [message] ∧ echoed session.trace ≠ delivered script := by
  refine ⟨rfl, rfl, ?_⟩
  decide

/-- A message comes and the connection is gone when it should be written. -/
theorem unwritten_message_echoed :
    let message : Message := ⟨true, [104, 105]⟩
    let script := [succeeds message, fails (.systemError ⟨⟨.system, 104⟩, "Connection reset by peer"⟩)]
    let session := (doSession plainJson).run ((doSession plainJson).start { socket := ⟨0⟩ }) (succeeds message :: script)
    firstExchange script = false ∧ echoed session.trace = delivered script :=
  ⟨rfl, (doSession_echoes_iff plainJson_documented _ _ rfl _).mpr rfl⟩

/-- Nothing succeeds on a stream that has failed. -/
def StaysFailed (history : StreamHistory) : Prop :=
  history.Pairwise fun earlier later => failure earlier ≠ none → failure later ≠ none

private theorem echoed_after {first : Σ operation : StreamOp, operation.Result} {history : StreamHistory}
    (stays : StaysFailed (first :: history)) (failed : failure first ≠ none) : echoed history = [] := by
  apply List.filterMap_eq_nil_iff.mpr
  intro entry member
  have fails := (List.pairwise_cons.mp stays).1 entry member failed
  obtain ⟨operation, result⟩ := entry
  cases operation <;> cases result <;> first | rfl | exact absurd rfl fails

private theorem echoed_from_read (json_string : String) (script : List StreamAnswer)
    (failed : StaysFailed ((sessionAutomaton (.ok json_string)).follow (.pending .asyncRead) script).1) :
    echoed ((sessionAutomaton (.ok json_string)).follow (.pending .asyncRead) script).1 = delivered script := by
  -- two answers to a pass: the read's and the write's
  match script with
  | [] => rfl
  | [read] =>
    cases received : read .asyncRead with
    | ok message =>
      have came : outcome .asyncRead (read .asyncRead) = .ok (.asyncWrite message) := by rw [received]; rfl
      rw [follow_success [] came]
      rfl
    | error exception =>
      have came : outcome .asyncRead (read .asyncRead) = .error exception := by rw [received]; rfl
      rw [follow_failed [] came]
      rfl
  | read :: write :: rest =>
    cases received : read .asyncRead with
    | error exception =>
      have came : outcome .asyncRead (read .asyncRead) = .error exception := by rw [received]; rfl
      rw [follow_failed _ came] at failed ⊢
      simpa [echoed, delivered, received] using echoed_after failed (by simp [failure, came])
    | ok message =>
      have came : outcome .asyncRead (read .asyncRead) = .ok (.asyncWrite message) := by rw [received]; rfl
      rw [follow_success _ came] at failed ⊢
      have failed := (List.pairwise_cons.mp failed).2
      cases written : write (.asyncWrite message) with
      | error exception =>
        have came : outcome (.asyncWrite message) (write (.asyncWrite message)) = .error exception := by rw [written]; rfl
        rw [follow_failed _ came] at failed ⊢
        simpa [echoed, delivered, received, written] using echoed_after failed (by simp [failure, came])
      | ok =>
        have came : outcome (.asyncWrite message) (write (.asyncWrite message)) = .ok .asyncRead := by rw [written]; rfl
        rw [follow_success _ came] at failed ⊢
        have rest := echoed_from_read json_string rest (List.pairwise_cons.mp failed).2
        simpa [echoed, delivered, received, written] using rest

/-- The loop around the JSON block is an echo: with a block that returns, a session
on a stream that stays failed echoes what its script delivers, whatever fails. -/
theorem doSessionWith_echoes (json_string : String) (ws : Stream) (accept : StreamAnswer)
    (accepted : accept handshake = Except.ok ()) (script : List StreamAnswer) :
    let session := (doSessionWith (.ok json_string)).run ((doSessionWith (.ok json_string)).start ws) (accept :: script)
    StaysFailed session.trace → echoed session.trace = delivered script := by
  obtain ⟨trace, _⟩ := session_run (.ok json_string) ws (accept :: script)
  have came : outcome handshake (accept handshake) = .ok .asyncRead := by rw [accepted]; rfl
  rw [follow_success script came] at trace
  intro session failed
  rw [trace] at failed ⊢
  have rest := echoed_from_read json_string script (List.pairwise_cons.mp failed).2
  simpa [echoed, accepted] using rest

end UavRfDetector.Proofs

import UavRfDetector.Coroutine.Automaton
import UavRfDetector.Session

/-! The control flow of `doSession`, without its stream and its continuations.
The simulation below is the only place where the coroutine's body is unfolded. -/

namespace UavRfDetector.Proofs
open Coroutine

def loopTop (json : Except JsonException String) : Control StreamOp Exception :=
  match json with
  | .ok _ => .pending .asyncRead
  | .error error => .ended (some (.json error))

def afterFailure (json : Except JsonException String) (exception : Exception) : Control StreamOp Exception :=
  if exception.isClosed then loopTop json else .ended (some exception)

def sessionNext (json : Except JsonException String) :
    (operation : StreamOp) → operation.Result → Control StreamOp Exception
  | .asyncAccept _ _, .ok () => loopTop json
  | .asyncAccept _ _, .error exception => .ended (some exception)
  | .asyncRead, .ok message => .pending (.asyncWrite message)
  | .asyncRead, .error exception => afterFailure json exception
  | .asyncWrite _, .ok () => loopTop json
  | .asyncWrite _, .error exception => afterFailure json exception

abbrev handshake : StreamOp := .asyncAccept (some .server) (some " websocket-server-coro")

def sessionAutomaton (json : Except JsonException String) : Automaton StreamOp StreamOp.Result Exception where
  first := .pending handshake
  next := sessionNext json

private abbrev SessionRest := Awaitable StreamOp StreamOp.Result (Except Exception Flow × Stream)

private def caught (exception : Exception) (ws : Stream) : SessionRest :=
  .done (if exception.isClosed then .ok .again else .error exception, ws)

private def resumeWrite (ws : Stream) : Except Exception Unit → SessionRest
  | .ok () => .done (.ok .again, ws)
  | .error exception => caught exception ws

private def resumeRead (ws : Stream) : Except Exception Message → SessionRest
  | .ok message =>
    .await (.asyncWrite message) (resumeWrite { ws with gotText := message.text, text := message.text })
  | .error exception => caught exception ws

private theorem sessionCatch_run (exception : Exception) (ws : Stream) :
    (sessionCatch exception).run.run ws =
      .done (if exception.isClosed then .ok () else .error exception, ws) := by
  unfold sessionCatch
  cases exception.isClosed <;> rfl

private theorem sessionBody_ok (json_string : String) (ws : Stream) :
    (sessionBody (.ok json_string)).run.run ws = .await .asyncRead (resumeRead ws) := by
  have failed (exception : Exception) (ws : Stream) :
      ((do sessionCatch exception; return .again : SessionM Flow)).run.run ws = caught exception ws := by
    change (sessionCatch exception).run.run ws >>= _ = _
    rw [sessionCatch_run]
    unfold caught
    cases exception.isClosed <;> rfl
  change Awaitable.await StreamOp.asyncRead _ = _
  congr 1
  funext received
  cases received with
  | error exception => exact failed exception ws
  | ok message =>
    change Awaitable.await (StreamOp.asyncWrite message) _ = _
    simp only [resumeRead]
    congr 1
    funext written
    cases written with
    | error exception => exact failed exception _
    | ok => rfl

private inductive SessionAwaits (json : Except JsonException String) :
    StreamOp → Frame StreamOp StreamOp.Result Exception Stream → Prop where
  | accept (ws : Stream) : SessionAwaits json handshake ((doSessionWith json).start ws).frame
  | read (ws : Stream) : SessionAwaits json .asyncRead (.suspended .asyncRead (resumeRead ws))
  | write (message : Message) (ws : Stream) :
    SessionAwaits json (.asyncWrite message) (.suspended (.asyncWrite message) (resumeWrite ws))

private theorem iterate_agrees (json : Except JsonException String) (ws : Stream) :
    Agrees (SessionAwaits json) (loopTop json) ((doSessionWith json).iterate ws) := by
  cases json with
  | ok json_string =>
    rw [Forever.iterate_await _ (sessionBody_ok json_string ws)]
    exact .pending (.read ws)
  | error error =>
    have throws : (doSessionWith (.error error)).body.run.run ws = .done (.error (.json error), ws) := rfl
    rw [Forever.iterate_throw _ throws]
    exact .ended _

private theorem caught_agrees (json : Except JsonException String) (exception : Exception) (ws : Stream) :
    Agrees (SessionAwaits json) (afterFailure json exception) ((doSessionWith json).settle (caught exception ws)) := by
  unfold afterFailure caught
  cases exception.isClosed with
  | true => exact iterate_agrees json ws
  | false => exact .ended _

def sessionSimulation (json : Except JsonException String) :
    Simulation (doSessionWith json) (sessionAutomaton json) where
  awaits := SessionAwaits json
  resumes suspended := by
    cases suspended with
    | accept ws =>
      refine ⟨_, rfl, ?_⟩
      intro accepted
      cases accepted with
      | ok => exact iterate_agrees json _
      | error exception => exact .ended _
    | read ws =>
      refine ⟨_, rfl, ?_⟩
      intro received
      cases received with
      | ok message => exact .pending (.write message _)
      | error exception => exact caught_agrees json exception ws
    | write message ws =>
      refine ⟨_, rfl, ?_⟩
      intro written
      cases written with
      | ok => exact iterate_agrees json ws
      | error exception => exact caught_agrees json exception ws

theorem session_start (json : Except JsonException String) (ws : Stream) :
    (sessionSimulation json).Tracks ((doSessionWith json).start ws) (sessionAutomaton json).first :=
  ⟨.start, .pending (.accept ws)⟩

theorem session_run (json : Except JsonException String) (ws : Stream) (answers : List (Answer StreamOp StreamOp.Result)) :
    ((doSessionWith json).run ((doSessionWith json).start ws) answers).trace =
        ((sessionAutomaton json).follow (.pending handshake) answers).1 ∧
      ((doSessionWith json).run ((doSessionWith json).start ws) answers).frame.control =
        ((sessionAutomaton json).follow (.pending handshake) answers).2 := by
  obtain ⟨trace, last⟩ := (sessionSimulation json).run (session_start json ws).agrees answers
  exact ⟨trace, (sessionSimulation json).control_eq last⟩

end UavRfDetector.Proofs

import UavRfDetector.Proofs.ServerStanding
import UavRfDetector.Proofs.SessionEnding

/-! Runs in which all that is thrown into sessions is a `std::exception`, and of
these the ones in which logging calls return: there no ending of a session does
harm, and whatever waits can go on. -/

namespace UavRfDetector.Proofs
open Coroutine Transition

/-- All that Beast and Asio throw into sessions derives from `std::exception`. -/
def StdOnly : Event → Prop
  | .session _ answer _ => ∀ operation exception,
      failure ⟨operation, answer operation⟩ = some exception → exception.isStd
  | _ => True

/-- A logging call made in this step returns normally. -/
def LoggingReturns (server : Server) : Event → Prop
  | .session _ _ setup => ∀ text, ((logInfo setup text).run.run server.logger).1 = .ok ()
  | _ => True

/-- The only calls of `log_info` that can throw are those that have to set the logger up. -/
theorem loggingReturns_iff {server : Server} {index : Nat} {answer : StreamAnswer} {setup : LogSetup} :
    LoggingReturns server (.session index answer setup) ↔ server.logger.setupResult setup = .ok () := by
  simp only [LoggingReturns, logInfo_result, forall_const]

@[simp] theorem setupResult_default (logger : Logger) : logger.setupResult {} = .ok () := by
  unfold Logger.setupResult
  cases logger.init <;> cases logger.sinks.isSome <;> rfl

def Benign (server : Server) (event : Event) : Prop := StdOnly event ∧ LoggingReturns server event

def Std (server : Server) : Prop := ∀ session ∈ server.sessions, OnlyStd session.execution.trace

private theorem resumed_std {J : JsonLibrary} {session : Session} {operation : StreamOp} {control : Control StreamOp Exception}
    {answer : StreamAnswer} (std : OnlyStd session.execution.trace)
    (tracks : (sessionSimulation (jsonBlock J)).Tracks session.execution control)
    (waiting : session.execution.frame.control = .pending operation)
    (only : ∀ operation exception, failure ⟨operation, answer operation⟩ = some exception → exception.isStd) :
    OnlyStd ((doSession J).step session.execution answer).trace := by
  cases tracks.control_eq.symm.trans waiting
  intro entry member exception failed
  change entry ∈ ((doSessionWith (jsonBlock J)).step session.execution answer).trace at member
  rw [(tracks.step answer).1] at member
  rcases List.mem_append.mp member with old | last
  · exact std entry old exception failed
  · cases List.mem_singleton.mp last
    exact only operation exception failed

theorem Std.step {J : JsonLibrary} {server after : Server} {event : Event} (std : Std server) (standing : Standing J server)
    (only : StdOnly event) (stepped : ServerStep J server event after) : Std after := by
  refine stepped.each std (fun ws entry member => by cases member) ?_
  intro session member index answer setup same resumed moved kept
  subst same
  obtain ⟨control, tracks⟩ := standing.sessions session member
  cases moved with
  | progresses waiting continues => exact resumed_std kept tracks waiting only
  | ends waiting ended => exact resumed_std kept tracks waiting only

theorem std_run {J : JsonLibrary} {allowed : Server → Event → Prop} {events : List Event} {server : Server}
    (run : Run (Server.step J) allowed Server.main events server)
    (only : ∀ server event, allowed server event → StdOnly event) : Std server := by
  apply run.invariant
  · intro session member
    cases member
  · intro events before after run event permitted stepped std
    exact std.step (standing_run run) (only before event permitted) (step_cases stepped)

theorem Std.session_end {J : JsonLibrary} {server : Server} (std : Std server) (standing : Standing J server)
    {session : Session} {e : Option Exception} (member : session ∈ server.sessions)
    (ended : session.execution.frame.control = .ended e) : ∃ exception, e = some exception ∧ exception.isStd := by
  obtain ⟨control, tracks⟩ := standing.sessions session member
  cases tracks.control_eq.symm.trans ended
  exact Proofs.session_end tracks.reached (std session member)

/-- The completion handler of a session is called once, when the session has ended,
with a `std::exception`, and returns. -/
def Settled (session : Session) : Prop :=
  match session.execution.frame.control with
  | .pending _ => session.handled = none
  | .ended e => ∃ exception, e = some exception ∧ exception.isStd ∧ session.handled = some (e, .returned)

structure Healthy (server : Server) : Prop where
  settled : ∀ session ∈ server.sessions, Settled session
  status : server.status = .running ∨ server.status = .exited ∧ server.listener.frame.isEnded ∧
    ∀ session ∈ server.sessions, session.execution.frame.isEnded

theorem Healthy.initial : Healthy Server.main :=
  ⟨by simp [Server.main], Or.inl rfl⟩

private theorem launch_settled (J : JsonLibrary) (ws : Stream) : Settled (Session.launch J ws) := by
  have control : (Session.launch J ws).execution.frame.control = .pending handshake :=
    (session_start (jsonBlock J) ws).control_eq
  simp only [Settled, control]
  rfl

theorem Healthy.step {J : JsonLibrary} {server after : Server} {event : Event} (healthy : Healthy server)
    (logs : LoggingReturns server event) (stepped : ServerStep J server event after) (standing : Standing J after)
    (std : Std after) : Healthy after := by
  constructor
  · have settled := @ServerStep.each J server after event (fun session => session ∈ after.sessions → Settled session)
      stepped (fun session old _ => healthy.settled session old) (fun ws _ => launch_settled J ws) ?_
    · intro session member
      exact settled session member member
    intro session present index answer setup same resumed moved kept member
    subst same
    cases moved with
    | progresses waiting continues =>
      have settled := healthy.settled session present
      simp only [Settled, waiting] at settled
      simpa only [Settled, continues] using settled
    | ends waiting ended =>
      obtain ⟨exception, rfl, thrown⟩ := std.session_end standing member ended
      simp only [Settled, ended]
      exact ⟨exception, rfl, thrown, by rw [sessionHandler_returns thrown logs]⟩
  · cases stepped with
    | listens running waiting continues => exact Or.inl running
    | listenerEnds running waiting ended =>
      obtain ⟨error, rfl⟩ := standing.listener_end ended
      exact Or.inl rfl
    | progresses running found waiting continues => exact Or.inl running
    | @sessionEnds index answer setup session operation e running found waiting ended =>
      have inside := (List.getElem?_eq_some_iff.mp found).choose
      obtain ⟨exception, rfl, thrown⟩ := std.session_end standing (List.mem_set inside _) ended
      simp only [sessionHandler_returns thrown logs]
      exact Or.inl rfl
    | runReturns running listener sessions => exact Or.inr ⟨rfl, listener, sessions⟩

theorem healthy_run {J : JsonLibrary} {events : List Event} {server : Server}
    (run : Run (Server.step J) Benign Server.main events server) : Healthy server := by
  apply run.invariant .initial
  intro events before after run event permitted stepped healthy
  have later := run.snoc event permitted stepped
  apply healthy.step permitted.2 (step_cases stepped) (standing_run later)
  apply std_run later
  intro _ _ benign
  exact benign.1

theorem Healthy.listening {server : Server} (healthy : Healthy server) {operation : ListenerOp}
    (waiting : server.listener.frame.control = .pending operation) : server.status = .running := by
  rcases healthy.status with running | ⟨_, ended, _⟩
  · exact running
  · exact absurd ended (Frame.not_ended_of_pending waiting)

theorem Healthy.resumable {server : Server} (healthy : Healthy server) (J : JsonLibrary) {index : Nat} {session : Session}
    {operation : StreamOp} (found : server.sessions[index]? = some session)
    (waiting : session.execution.frame.control = .pending operation) (answer : StreamAnswer)
    (setup : LogSetup) : (server.step J (.session index answer setup)).isSome := by
  have running : server.status = .running := by
    rcases healthy.status with running | ⟨_, _, ended⟩
    · exact running
    · exact absurd (ended session (List.mem_of_getElem? found)) (Frame.not_ended_of_pending waiting)
  obtain ⟨resume, suspended⟩ := Frame.suspended_of_pending waiting
  simp only [Server.step, running, found, suspended]
  split <;> rfl

end UavRfDetector.Proofs

import UavRfDetector.Proofs.ServerHealth

/-! How long the server accepts. A failed accept ends the listener, which `main`
reports, and a log file that cannot be opened ends the process; apart from these
two nothing that happens to a session does. -/

namespace UavRfDetector.Proofs
open Coroutine Transition

def StaysUp (server : Server) : Prop :=
  server.listener.frame.control = .pending .asyncAccept ∧ server.status = .running

def Reported (server : Server) : Prop :=
  server.cerr = match server.listener.frame.control with
    | .ended (some exception) => "Error: " ++ exception.what ++ "\n"
    | _ => ""

theorem Reported.initial : Reported Server.main := rfl

theorem Reported.step {J : JsonLibrary} {server after : Server} {event : Event} (reported : Reported server)
    (stepped : ServerStep J server event after) (standing : Standing J after) : Reported after := by
  cases stepped with
  | listens running waiting continues =>
    simp only [Reported, waiting] at reported
    simpa only [Reported, afterListener, continues] using reported
  | listenerEnds running waiting ended =>
    simp only [Reported, waiting] at reported
    obtain ⟨error, rfl⟩ := standing.listener_end ended
    simp only [Reported, afterListener, ended, reported]
    rfl
  | progresses running found waiting continues => exact reported
  | sessionEnds running found waiting ended => exact reported
  | runReturns running listener sessions => exact reported

theorem reported_run {J : JsonLibrary} {allowed : Server → Event → Prop} {events : List Event} {server : Server}
    (run : Run (Server.step J) allowed Server.main events server) : Reported server := by
  apply run.invariant .initial
  intro events before after run event permitted stepped reported
  exact reported.step (step_cases stepped) (standing_run (run.snoc event permitted stepped))

theorem next_accept_launches {J : JsonLibrary} {server : Server} (standing : Standing J server) (up : StaysUp server)
    {answer : ListenerAnswer} {socket : Socket} (accepts : answer .asyncAccept = Except.ok socket) :
    ∃ after, server.step J (.listener answer) = some after ∧
      after.sessions = server.sessions ++ [Session.launch J { socket }] ∧ StaysUp after := by
  obtain ⟨waiting, running⟩ := up
  obtain ⟨control, tracks, _⟩ := standing.listener
  cases tracks.control_eq.symm.trans waiting
  obtain ⟨_, accepted⟩ := tracks.step answer
  have spawning : (listenerAutomaton mainEndpoint).next .asyncAccept (answer .asyncAccept) =
      .pending (.coSpawn { socket }) := by
    rw [accepts]
    rfl
  rw [spawning] at accepted
  obtain ⟨_, spawned⟩ := accepted.step answer
  have resumed := resumeListener_spawns accepted.control_eq
  have continues : (Server.resumeListener server.listener answer).1.frame.control = .pending .asyncAccept := by
    rw [resumed]
    exact spawned.control_eq
  refine ⟨_, step_listens J running waiting continues, ?_, continues, running⟩
  simp only [afterListener, resumed, List.map_cons, List.map_nil]

/-- Running out of descriptors ends the listener, and a log file that cannot be
opened when the first session ends takes the process down. -/
theorem two_ways_down :
    (∃ events server, Run (Server.step plainJson) (fun _ => StdOnly) Server.main events server ∧
      Established server.listener.trace ∧
      server.listener.frame.control = .ended (some (.systemError ⟨⟨.system, 24⟩, "Too many open files"⟩)) ∧
      ¬ StaysUp server) ∧
    ∃ events server, Run (Server.step plainJson) (fun _ => StdOnly) Server.main events server ∧
      Established server.listener.trace ∧ server.status = .terminated (.spdlog "Failed opening file log_filename") ∧
      ¬ StaysUp server := by
  have run := (@Run.nil _ _ (Server.step plainJson) (fun _ => StdOnly) Server.main).steps
    [.listener (listens ⟨0⟩), .listener (listens ⟨0⟩), .listener (listens ⟨0⟩), .listener (listens ⟨0⟩)]
    (by simp [StdOnly]) rfl
  constructor
  · have down := run.snoc (.listener (refuses ⟨⟨.system, 24⟩, "Too many open files"⟩)) trivial rfl
    exact ⟨_, _, down, List.mem_of_getElem? (i := 3) rfl, rfl, fun up => by cases up.1⟩
  · have up := run.snoc (.listener (listens ⟨1⟩)) trivial rfl
    have std : StdOnly (.session 0 (fails (.std "reset")) { openFile := .error (.spdlog "Failed opening file log_filename") }) := by
      intro operation exception failed
      cases operation <;> cases failed <;> rfl
    have down := up.snoc _ std rfl
    exact ⟨_, _, down, List.mem_of_getElem? (i := 3) rfl, rfl, fun up => by cases up.2⟩

/-- Every accepted connection has a session. A failed accept is the last thing the
listener does, and `main` has then reported it. Where logging returns, the server stays
up while no accept has failed and launches a session for the next connection, and in
any case the sessions launched before go on. -/
theorem server_stays_up {J : JsonLibrary} {allowed : Server → Event → Prop} {events : List Event} {server : Server}
    (run : Run (Server.step J) allowed Server.main events server) (established : Established server.listener.trace) :
    server.sessions.map Session.ws = (accepted server.listener.trace).map (fun socket => { socket }) ∧
      (∀ error ∈ acceptFailures server.listener.trace,
        server.listener.frame.control = .ended (some (.systemError error)) ∧
          server.cerr = "Error: " ++ error.what ++ "\n") ∧
      ((∀ before event, allowed before event → Benign before event) →
        (server.status = .running ∨ server.status = .exited ∧ server.listener.frame.isEnded ∧
          ∀ session ∈ server.sessions, session.execution.frame.isEnded) ∧
        (acceptFailures server.listener.trace = [] → StaysUp server ∧
          ∀ answer socket, answer .asyncAccept = Except.ok socket →
            ∃ after, server.step J (.listener answer) = some after ∧
              after.sessions = server.sessions ++ [Session.launch J { socket }] ∧ StaysUp after) ∧
        ∀ index session operation, server.sessions[index]? = some session →
          session.execution.frame.control = .pending operation →
            ∀ answer setup, (server.step J (.session index answer setup)).isSome) := by
  have standing := standing_run run
  refine ⟨standing.sessions_accepted, ?_, ?_⟩
  · intro error failed
    have ended := standing.accept_failed established failed
    have reported := reported_run run
    simp only [Reported, ended] at reported
    exact ⟨ended, reported⟩
  · intro benign
    have healthy := healthy_run (run.mono benign)
    refine ⟨healthy.status, ?_, ?_⟩
    · intro unfailed
      have waiting := standing.accepting established unfailed
      have up : StaysUp server := ⟨waiting, healthy.listening waiting⟩
      refine ⟨up, ?_⟩
      intro answer socket accepts
      exact next_accept_launches standing up accepts
    · intro index session operation found waiting answer setup
      exact healthy.resumable J found waiting answer setup

/-- The first session has ended and was logged, and the server goes on. -/
theorem listening_server_up : ∃ events server, Run (Server.step plainJson) Benign Server.main events server ∧
    server.logger.queued = ["reset"] ∧ acceptFailures server.listener.trace = [] ∧ StaysUp server := by
  have run := (@Run.nil _ _ (Server.step plainJson) Benign Server.main).steps
    [.listener (listens ⟨0⟩), .listener (listens ⟨0⟩), .listener (listens ⟨0⟩), .listener (listens ⟨0⟩),
      .listener (listens ⟨1⟩), .listener (listens ⟨2⟩)] (by simp [Benign, StdOnly, LoggingReturns]) rfl
  have std : StdOnly (.session 0 (fails (.std "reset")) {}) := by
    intro operation exception failed
    cases operation <;> cases failed <;> rfl
  have run := run.snoc (.session 0 (fails (.std "reset")) {}) ⟨std, loggingReturns_iff.mpr (setupResult_default _)⟩ rfl
  have up := server_stays_up run (List.mem_of_getElem? (i := 3) rfl)
  exact ⟨_, _, run, rfl, rfl, ((up.2.2 fun _ _ benign => benign).2.1 rfl).1⟩

end UavRfDetector.Proofs

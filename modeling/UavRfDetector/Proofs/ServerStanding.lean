import UavRfDetector.Proofs.ServerStep

/-! Where the coroutines of the server stand in every run, whatever the outcomes of
their operations: each has followed its automaton, and every connection whose
launch the listener has performed has its session. -/

namespace UavRfDetector.Proofs
open Coroutine Transition

theorem resumeListener_spawns {listener : ListenerRun} {answer : ListenerAnswer} {ws : Stream}
    (spawning : ((doListen mainEndpoint).step listener answer).frame.control = .pending (.coSpawn ws)) :
    Server.resumeListener listener answer =
      ((doListen mainEndpoint).step ((doListen mainEndpoint).step listener answer) answer, [ws]) := by
  unfold Server.resumeListener
  generalize (doListen mainEndpoint).step listener answer = next at spawning
  obtain ⟨trace, frame⟩ := next
  cases frame with
  | ended e => cases spawning
  | suspended operation resume => cases spawning; rfl

theorem resumeListener_waits {listener : ListenerRun} {answer : ListenerAnswer}
    (waits : launching ((doListen mainEndpoint).step listener answer).frame.control = []) :
    Server.resumeListener listener answer = ((doListen mainEndpoint).step listener answer, []) := by
  unfold Server.resumeListener
  generalize (doListen mainEndpoint).step listener answer = next at waits
  obtain ⟨trace, frame⟩ := next
  cases frame with
  | ended e => rfl
  | suspended operation resume =>
    cases operation with
    | coSpawn ws => cases waits
    | openAcceptor _ | setReuseAddress _ | bind _ | listen _ | asyncAccept => rfl

theorem resumeListener_tracks {listener : ListenerRun} {operation : ListenerOp}
    (tracks : (listenerSimulation mainEndpoint).Tracks listener (.pending operation))
    (idle : launching (.pending operation) = []) (answer : ListenerAnswer) :
    ∃ control, (listenerSimulation mainEndpoint).Tracks (Server.resumeListener listener answer).1 control ∧
      launching control = [] ∧
      launched (Server.resumeListener listener answer).1.trace =
        launched listener.trace ++ (Server.resumeListener listener answer).2 := by
  obtain ⟨trace, tracked⟩ := tracks.step answer
  have quiet : launched ((doListen mainEndpoint).step listener answer).trace = launched listener.trace := by
    rw [trace]
    cases operation <;> simp_all [launched, launching]
  by_cases spawns : ∃ ws, (listenerAutomaton mainEndpoint).next operation (answer operation) = .pending (.coSpawn ws)
  · obtain ⟨ws, spawning⟩ := spawns
    rw [spawning] at tracked
    rw [resumeListener_spawns tracked.control_eq]
    obtain ⟨later, spawned⟩ := tracked.step answer
    refine ⟨_, spawned, rfl, ?_⟩
    rw [later, ← quiet]
    simp [launched]
  · have waits : launching ((listenerAutomaton mainEndpoint).next operation (answer operation)) = [] := by
      unfold launching
      split
      next ws spawning => exact absurd ⟨ws, spawning⟩ spawns
      next => rfl
    rw [resumeListener_waits (by rw [tracked.control_eq]; exact waits)]
    exact ⟨_, tracked, waits, by simpa using quiet⟩

structure Standing (J : JsonLibrary) (server : Server) : Prop where
  listener : ∃ control, (listenerSimulation mainEndpoint).Tracks server.listener control ∧ launching control = []
  launched : server.sessions.map Session.ws = launched server.listener.trace
  sessions : ∀ session ∈ server.sessions, ∃ control,
    (sessionSimulation (jsonBlock J)).Tracks session.execution control

theorem Standing.initial (J : JsonLibrary) : Standing J Server.main :=
  ⟨⟨_, listener_start mainEndpoint, rfl⟩, rfl, by simp [Server.main]⟩

theorem Standing.listened {J : JsonLibrary} {server : Server} {operation : ListenerOp} (standing : Standing J server)
    (waiting : server.listener.frame.control = .pending operation) (answer : ListenerAnswer) :
    ∃ control, (listenerSimulation mainEndpoint).Tracks (afterListener J server answer).listener control ∧
      launching control = [] ∧
      (afterListener J server answer).sessions.map Session.ws =
        Proofs.launched (afterListener J server answer).listener.trace := by
  obtain ⟨control, tracks, idle⟩ := standing.listener
  cases tracks.control_eq.symm.trans waiting
  obtain ⟨next, tracked, quiet, grown⟩ := resumeListener_tracks tracks idle answer
  refine ⟨next, tracked, quiet, ?_⟩
  have fresh (streams : List Stream) : (streams.map (Session.launch J)).map Session.ws = streams := by
    simp [Function.comp_def, Session.launch]
  simp only [afterListener, List.map_append, fresh, grown, standing.launched]

private theorem resumed_stream {sessions : List Session} {index : Nat} {session : Session}
    (found : sessions[index]? = some session) (execution : SessionRun)
    (handled : Option (Option Exception × HandlerResult)) :
    (sessions.set index { session with execution, handled }).map Session.ws = sessions.map Session.ws := by
  obtain ⟨inside, rfl⟩ := List.getElem?_eq_some_iff.mp found
  have mapped : index < (sessions.map Session.ws).length := by simpa using inside
  have same : (sessions.map Session.ws)[index] = sessions[index].ws := List.getElem_map _
  rw [List.map_set]
  change (sessions.map Session.ws).set index sessions[index].ws = _
  rw [← same, List.set_getElem_self]

theorem Standing.step {J : JsonLibrary} {server after : Server} {event : Event} (standing : Standing J server)
    (stepped : ServerStep J server event after) : Standing J after := by
  have sessions := stepped.each standing.sessions (fun ws => ⟨_, session_start (jsonBlock J) ws⟩) (by
    intro session _ index answer setup _ resumed moved ⟨control, tracks⟩
    cases moved with
    | progresses waiting continues =>
      cases tracks.control_eq.symm.trans waiting
      exact ⟨_, (tracks.step answer).2⟩
    | ends waiting ended =>
      cases tracks.control_eq.symm.trans waiting
      exact ⟨_, (tracks.step answer).2⟩)
  cases stepped with
  | listens running waiting continues =>
    obtain ⟨control, tracks, idle, launched⟩ := standing.listened waiting ‹_›
    exact ⟨⟨control, tracks, idle⟩, launched, sessions⟩
  | listenerEnds running waiting ended =>
    obtain ⟨control, tracks, idle, launched⟩ := standing.listened waiting ‹_›
    exact ⟨⟨control, tracks, idle⟩, launched, sessions⟩
  | progresses running found waiting continues =>
    exact ⟨standing.listener, (resumed_stream found _ _).trans standing.launched, sessions⟩
  | sessionEnds running found waiting ended =>
    exact ⟨standing.listener, (resumed_stream found _ _).trans standing.launched, sessions⟩
  | runReturns running listener ended => exact ⟨standing.listener, standing.launched, sessions⟩

theorem standing_run {J : JsonLibrary} {allowed : Server → Event → Prop} {events : List Event} {server : Server}
    (run : Run (Server.step J) allowed Server.main events server) : Standing J server := by
  apply run.invariant (.initial J)
  intro events before after run event permitted stepped standing
  exact standing.step (step_cases stepped)

theorem Standing.listener_end {J : JsonLibrary} {server : Server} {e : Option Exception} (standing : Standing J server)
    (ended : server.listener.frame.control = .ended e) : ∃ error, e = some (.systemError error) := by
  obtain ⟨control, tracks, _⟩ := standing.listener
  cases tracks.control_eq.symm.trans ended
  obtain ⟨error, same, _⟩ := ended_history tracks.reached
  exact ⟨error, same⟩

theorem Standing.sessions_accepted {J : JsonLibrary} {server : Server} (standing : Standing J server) :
    server.sessions.map Session.ws = (accepted server.listener.trace).map (fun socket => { socket }) := by
  obtain ⟨control, tracks, idle⟩ := standing.listener
  rw [standing.launched, accepted_launched tracks.reached, idle, List.append_nil]

theorem Standing.accepting {J : JsonLibrary} {server : Server} (standing : Standing J server)
    (established : Established server.listener.trace) (unfailed : acceptFailures server.listener.trace = []) :
    server.listener.frame.control = .pending .asyncAccept := by
  obtain ⟨control, tracks, idle⟩ := standing.listener
  rw [tracks.control_eq]
  cases control with
  | ended e =>
    obtain ⟨error, _, failed⟩ := ended_history tracks.reached
    rw [failed established] at unfailed
    cases unfailed
  | pending operation =>
    rcases (pending_history tracks.reached).2.mp established with rfl | ⟨ws, rfl⟩
    · rfl
    · cases idle

theorem Standing.accept_failed {J : JsonLibrary} {server : Server} (standing : Standing J server)
    (established : Established server.listener.trace) {error : SystemError}
    (failed : error ∈ acceptFailures server.listener.trace) :
    server.listener.frame.control = .ended (some (.systemError error)) := by
  obtain ⟨control, tracks, idle⟩ := standing.listener
  rw [tracks.control_eq]
  cases control with
  | pending operation =>
    rw [(pending_history tracks.reached).1] at failed
    cases failed
  | ended e =>
    obtain ⟨thrown, rfl, only⟩ := ended_history tracks.reached
    rw [only established] at failed
    cases List.mem_singleton.mp failed
    rfl

end UavRfDetector.Proofs

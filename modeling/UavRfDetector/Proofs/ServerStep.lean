import UavRfDetector.Proofs.ListenerAutomaton
import UavRfDetector.Proofs.SessionScript
import UavRfDetector.Transition

/-! What one event can do to the server, said once. Everything about runs of the
server is derived from these five cases and from what its coroutines track. -/

namespace UavRfDetector.Proofs
open Coroutine Transition

def afterListener (J : JsonLibrary) (server : Server) (answer : ListenerAnswer) : Server :=
  { server with
    listener := (Server.resumeListener server.listener answer).1
    sessions := server.sessions ++ (Server.resumeListener server.listener answer).2.map (Session.launch J) }

inductive ServerStep (J : JsonLibrary) (server : Server) : Event → Server → Prop where
  | listens {answer operation next} (running : server.status = .running)
      (waiting : server.listener.frame.control = .pending operation)
      (continues : (Server.resumeListener server.listener answer).1.frame.control = .pending next) :
      ServerStep J server (.listener answer) (afterListener J server answer)
  | listenerEnds {answer operation e} (running : server.status = .running)
      (waiting : server.listener.frame.control = .pending operation)
      (ended : (Server.resumeListener server.listener answer).1.frame.control = .ended e) :
      ServerStep J server (.listener answer) { afterListener J server answer with
        cerr := server.cerr ++ (mainHandler e).2, status := .afterHandler (mainHandler e).1 }
  | progresses {index answer setup session operation next} (running : server.status = .running)
      (found : server.sessions[index]? = some session)
      (waiting : session.execution.frame.control = .pending operation)
      (continues : ((doSession J).step session.execution answer).frame.control = .pending next) :
      ServerStep J server (.session index answer setup) { server with
        sessions := server.sessions.set index { session with execution := (doSession J).step session.execution answer } }
  | sessionEnds {index answer setup session operation e} (running : server.status = .running)
      (found : server.sessions[index]? = some session)
      (waiting : session.execution.frame.control = .pending operation)
      (ended : ((doSession J).step session.execution answer).frame.control = .ended e) :
      ServerStep J server (.session index answer setup) { server with
        sessions := server.sessions.set index { session with
          execution := (doSession J).step session.execution answer
          handled := some (e, (sessionHandler setup e server.logger).1) }
        logger := (sessionHandler setup e server.logger).2
        status := .afterHandler (sessionHandler setup e server.logger).1 }
  | runReturns (running : server.status = .running) (listener : server.listener.frame.isEnded)
      (sessions : ∀ session ∈ server.sessions, session.execution.frame.isEnded) :
      ServerStep J server .runReturns { server with status := .exited }

theorem step_cases {J : JsonLibrary} {server after : Server} {event : Event}
    (stepped : server.step J event = some after) : ServerStep J server event after := by
  cases event with
  | listener answer =>
    simp only [Server.step] at stepped
    split at stepped <;> try contradiction
    next running waiting =>
      have pending := congrArg Frame.control waiting
      split at stepped
      next continues =>
        cases stepped
        exact .listens running pending (congrArg Frame.control continues)
      next ended =>
        cases stepped
        exact .listenerEnds running pending (congrArg Frame.control ended)
  | session index answer setup =>
    simp only [Server.step] at stepped
    split at stepped <;> try contradiction
    next running found =>
      split at stepped <;> try contradiction
      next waiting =>
        have pending := congrArg Frame.control waiting
        split at stepped
        next continues =>
          cases stepped
          exact .progresses running found pending (congrArg Frame.control continues)
        next ended =>
          cases stepped
          exact .sessionEnds running found pending (congrArg Frame.control ended)
  | runReturns =>
    simp only [Server.step] at stepped
    split at stepped
    next idle =>
      cases stepped
      exact .runReturns idle.1 idle.2.1 (by simpa using idle.2.2)
    next => contradiction

inductive SessionStep (J : JsonLibrary) (setup : LogSetup) (logger : Logger) (session : Session)
    (answer : StreamAnswer) : Session → Prop where
  | progresses {operation next} (waiting : session.execution.frame.control = .pending operation)
      (continues : ((doSession J).step session.execution answer).frame.control = .pending next) :
      SessionStep J setup logger session answer { session with execution := (doSession J).step session.execution answer }
  | ends {operation e} (waiting : session.execution.frame.control = .pending operation)
      (ended : ((doSession J).step session.execution answer).frame.control = .ended e) :
      SessionStep J setup logger session answer { session with
        execution := (doSession J).step session.execution answer
        handled := some (e, (sessionHandler setup e logger).1) }

/-- A property of single sessions is kept by a step of the server if launching
establishes it and resuming keeps it. -/
theorem ServerStep.each {J : JsonLibrary} {server after : Server} {event : Event} {property : Session → Prop}
    (stepped : ServerStep J server event after) (held : ∀ session ∈ server.sessions, property session)
    (launch : ∀ ws, property (Session.launch J ws))
    (resume : ∀ session ∈ server.sessions, ∀ index answer setup, event = .session index answer setup →
      ∀ resumed, SessionStep J setup server.logger session answer resumed → property session → property resumed) :
    ∀ session ∈ after.sessions, property session := by
  have launched (answer : ListenerAnswer) : ∀ session ∈ (afterListener J server answer).sessions, property session := by
    intro session member
    rcases List.mem_append.mp member with old | fresh
    · exact held session old
    · obtain ⟨ws, _, rfl⟩ := List.mem_map.mp fresh
      exact launch ws
  have resumed {index : Nat} {answer : StreamAnswer} {setup : LogSetup} {before later : Session}
      (same : event = .session index answer setup) (found : server.sessions[index]? = some before)
      (moved : SessionStep J setup server.logger before answer later) :
      ∀ session ∈ server.sessions.set index later, property session := by
    intro session member
    have present := List.mem_of_getElem? found
    rcases List.mem_or_eq_of_mem_set member with old | rfl
    · exact held session old
    · exact resume before present index answer setup same _ moved (held before present)
  cases stepped with
  | listens running waiting continues => exact launched _
  | listenerEnds running waiting ended => exact launched _
  | progresses running found waiting continues => exact resumed rfl found (.progresses waiting continues)
  | sessionEnds running found waiting ended => exact resumed rfl found (.ends waiting ended)
  | runReturns running listener sessions => exact held

theorem step_listens (J : JsonLibrary) {server : Server} {answer : ListenerAnswer} {operation next : ListenerOp}
    (running : server.status = .running) (waiting : server.listener.frame.control = .pending operation)
    (continues : (Server.resumeListener server.listener answer).1.frame.control = .pending next) :
    server.step J (.listener answer) = some (afterListener J server answer) := by
  obtain ⟨resume, before⟩ := Frame.suspended_of_pending waiting
  obtain ⟨later, after⟩ := Frame.suspended_of_pending continues
  simp only [Server.step, running, before, after, afterListener]

end UavRfDetector.Proofs

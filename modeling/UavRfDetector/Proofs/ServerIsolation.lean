import UavRfDetector.Proofs.ServerHealth

/-! Every coroutine of the server is what it would be alone. In any interleaving a
session depends on its own events only, and so does the listener. -/

namespace UavRfDetector.Proofs
open Coroutine Transition

def listenerAnswer : Event → Option ListenerAnswer
  | .listener answer => some answer
  | _ => none

def sessionAnswer : Event → Option (Nat × StreamAnswer)
  | .session index answer _ => some (index, answer)
  | _ => none

/-- `do_listen` alone with the outcomes of its own operations; below, `do_session`. -/
def soloListener (answers : List ListenerAnswer) : ListenerRun :=
  answers.foldl (fun listener answer => (Server.resumeListener listener answer).1) Server.main.listener

def soloSession (J : JsonLibrary) (ws : Stream) (answers : List StreamAnswer) : SessionRun :=
  (doSession J).run ((doSession J).start ws) answers

variable {J : JsonLibrary} {allowed : Server → Event → Prop} {events : List Event} {server : Server}

theorem listener_isolated (run : Run (Server.step J) allowed Server.main events server) :
    server.listener = soloListener (events.filterMap listenerAnswer) := by
  apply run.view Server.listener listenerAnswer
  intro before event after stepped
  cases step_cases stepped <;> rfl

private def Born (J : JsonLibrary) (item : Stream × SessionRun) : Prop := item.2 = (doSession J).start item.1

private def advance (J : JsonLibrary) (item : Stream × SessionRun) (answer : StreamAnswer) : Stream × SessionRun :=
  (item.1, (doSession J).step item.2 answer)

private def pool (server : Server) : List (Stream × SessionRun) :=
  server.sessions.map fun session => (session.ws, session.execution)

private theorem pool_grows (answer : ListenerAnswer) :
    PoolStep (Born J) (advance J) (pool server) none (pool (afterListener J server answer)) := by
  have grown : PoolStep (Born J) (advance J) (pool server) none (pool server ++
      (Server.resumeListener server.listener answer).2.map fun ws => (ws, (doSession J).start ws)) :=
    .grow _ (by simp [Born])
  simpa [pool, afterListener, Session.launch, Function.comp_def] using grown

private theorem pool_advances {index : Nat} {session : Session} (found : server.sessions[index]? = some session)
    (answer : StreamAnswer) (handled : Option (Option Exception × HandlerResult)) :
    PoolStep (Born J) (advance J) (pool server) (some (index, answer))
      ((server.sessions.set index { session with execution := (doSession J).step session.execution answer, handled }).map
        fun session => (session.ws, session.execution)) := by
  rw [List.map_set]
  have present : (pool server)[index]? = some (session.ws, session.execution) := by simp [pool, found]
  exact .advance answer present

private theorem pool_step {event : Event} {after : Server} (stepped : ServerStep J server event after) :
    PoolStep (Born J) (advance J) (pool server) (sessionAnswer event) (pool after) := by
  cases stepped with
  | listens running waiting continues => exact pool_grows _
  | listenerEnds running waiting ended => exact pool_grows _
  | progresses running found waiting continues => exact pool_advances found _ _
  | sessionEnds running found waiting ended => exact pool_advances found _ _
  | runReturns running listener sessions =>
    have unchanged : PoolStep (Born J) (advance J) (pool server) none (pool server ++ []) := .grow [] (by simp)
    rwa [List.append_nil] at unchanged

theorem session_isolated (run : Run (Server.step J) allowed Server.main events server) {index : Nat} {session : Session}
    (found : server.sessions[index]? = some session) :
    session.execution = soloSession J session.ws (inputsOf sessionAnswer index events) := by
  have present : (pool server)[index]? = some (session.ws, session.execution) := by simp [pool, found]
  have pooled := run.pool pool sessionAnswer rfl (by
    intro before event after stepped
    exact pool_step (step_cases stepped))
  obtain ⟨initial, born, grown⟩ := pooled index _ present
  have folded (answers : List StreamAnswer) (item : Stream × SessionRun) :
      answers.foldl (advance J) item = (item.1, (doSession J).run item.2 answers) := by
    induction answers generalizing item with
    | nil => rfl
    | cons answer answers ih => exact ih _
  rw [folded] at grown
  obtain ⟨same, executed⟩ := Prod.mk.inj grown
  rw [executed, same, born]
  rfl

/-- For any number of connections and any interleaving: the sessions are the
accepted connections, in their order; a session that has ended has had its handler
called with a `std::exception`, which the handler survived; and each session, like
the listener, has done what it would have done alone, and can go on. -/
theorem sessions_isolated (run : Run (Server.step J) Benign Server.main events server) :
    server.sessions.map Session.ws = (accepted server.listener.trace).map (fun socket => { socket }) ∧
      (∀ session ∈ server.sessions, Settled session) ∧
      (server.status = .running ∨ server.status = .exited) ∧
      server.listener = soloListener (events.filterMap listenerAnswer) ∧
      ∀ index session, server.sessions[index]? = some session →
        session.execution = soloSession J session.ws (inputsOf sessionAnswer index events) ∧
        ∀ operation, session.execution.frame.control = .pending operation →
          ∀ answer setup, (server.step J (.session index answer setup)).isSome := by
  have healthy := healthy_run run
  refine ⟨(standing_run run).sessions_accepted, healthy.settled, ?_, listener_isolated run, ?_⟩
  · exact healthy.status.imp id (fun exited => exited.1)
  · intro index session found
    refine ⟨session_isolated run found, ?_⟩
    intro operation waiting answer setup
    exact healthy.resumable J found waiting answer setup

theorem two_clients_isolated : ∃ events server, Run (Server.step plainJson) Benign Server.main events server ∧
    server.sessions.map Session.ws = [{ socket := ⟨1⟩ }, { socket := ⟨2⟩ }] ∧
    server.sessions.map Session.handled = [none, some (some (.std "refused"), .returned)] ∧
    ∀ session ∈ server.sessions, Settled session := by
  have refused (server : Server) : Benign server (.session 1 (fails (.std "refused")) {}) := by
    refine ⟨?_, loggingReturns_iff.mpr (setupResult_default _)⟩
    intro operation exception failed
    cases operation <;> cases failed <;> rfl
  have run := (@Run.nil _ _ (Server.step plainJson) Benign Server.main).steps
    [.listener (listens ⟨0⟩), .listener (listens ⟨0⟩), .listener (listens ⟨0⟩), .listener (listens ⟨0⟩),
      .listener (listens ⟨1⟩), .listener (listens ⟨2⟩)] (by simp [Benign, StdOnly, LoggingReturns]) rfl
  have run := run.snoc (.session 1 (fails (.std "refused")) {}) (refused _) rfl
  exact ⟨_, _, run, rfl, rfl, (sessions_isolated run).2.1⟩

end UavRfDetector.Proofs

import UavRfDetector.Proofs.ServerAvailability
import UavRfDetector.Proofs.ServerEcho
import UavRfDetector.Proofs.ServerLogging

/-! How the process comes to its end, and what of it depends on the order of events.
Once the listener is gone no connection is left to arrive, and a session cannot be
resumed more than once, since its JSON block throws. -/

namespace UavRfDetector.Proofs
open Coroutine Transition

def waiting (server : Server) : Nat :=
  server.sessions.countP fun session => !session.execution.frame.isEnded

/-- The events that may still come when no connection can. -/
def outstanding (server : Server) : Nat :=
  waiting server + if server.status = .running then 1 else 0

theorem outstanding_le (server : Server) : outstanding server ≤ waiting server + 1 := by
  unfold outstanding
  split <;> simp

private theorem handshake_last (error : JsonException) (result : StreamOp.Result handshake) :
    ∃ e, (sessionAutomaton (.error error)).next handshake result = .ended e := by
  cases result with
  | ok => exact ⟨_, rfl⟩
  | error exception => exact ⟨_, rfl⟩

theorem Standing.handshake_ends {J : JsonLibrary} {server : Server} (standing : Standing J server)
    (documented : J.Documented) {session : Session} (member : session ∈ server.sessions) {operation : StreamOp}
    (pending : session.execution.frame.control = .pending operation) (answer : StreamAnswer) :
    ∃ e, ((doSession J).step session.execution answer).frame.control = .ended e := by
  obtain ⟨what, throws⟩ := jsonBlock_throws documented
  obtain ⟨control, tracks⟩ := standing.sessions session member
  cases tracks.control_eq.symm.trans pending
  have reached := tracks.reached
  rw [throws] at reached
  rcases handshake_only reached with ⟨_, waits⟩ | ⟨_, _, _, ended⟩
  · cases waits
    obtain ⟨e, last⟩ := handshake_last ⟨302, what⟩ (answer handshake)
    rw [← throws] at last
    exact ⟨e, (tracks.step answer).2.control_eq.trans last⟩
  · cases ended

theorem outstanding_decreases {J : JsonLibrary} {server after : Server} {event : Event} (standing : Standing J server)
    (documented : J.Documented) (down : server.listener.frame.isEnded) (stepped : ServerStep J server event after) :
    after.listener.frame.isEnded ∧ outstanding after < outstanding server := by
  cases stepped with
  | listens running waiting continues => exact absurd down (Frame.not_ended_of_pending waiting)
  | listenerEnds running waiting ended => exact absurd down (Frame.not_ended_of_pending waiting)
  | progresses running found waiting continues =>
    obtain ⟨e, ended⟩ := standing.handshake_ends documented (List.mem_of_getElem? found) waiting _
    cases continues.symm.trans ended
  | @sessionEnds index answer setup session operation e running found pending ended =>
    refine ⟨down, ?_⟩
    obtain ⟨inside, rfl⟩ := List.getElem?_eq_some_iff.mp found
    have before := Frame.not_ended_of_pending pending
    have later := Frame.isEnded_of_ended ended
    have counted : 0 < server.sessions.countP fun session => !session.execution.frame.isEnded := by
      apply List.countP_pos_iff.mpr
      exact ⟨_, List.getElem_mem inside, by simpa using before⟩
    have once (status : Status) : (if status = .running then 1 else 0) ≤ 1 := by split <;> simp
    simp only [outstanding, waiting, List.countP_set inside, before, later, running]
    have := once (.afterHandler (sessionHandler setup e server.logger).1)
    simp
    omega
  | runReturns running listener sessions =>
    refine ⟨down, ?_⟩
    simp [outstanding, waiting, running]

structure Draining (J : JsonLibrary) (server : Server) : Prop where
  standing : Standing J server
  down : server.listener.frame.isEnded

theorem Draining.step {J : JsonLibrary} {server after : Server} {event : Event} (draining : Draining J server)
    (documented : J.Documented) (stepped : ServerStep J server event after) :
    Draining J after ∧ outstanding after < outstanding server := by
  obtain ⟨down, less⟩ := outstanding_decreases draining.standing documented draining.down stepped
  exact ⟨⟨draining.standing.step stepped, down⟩, less⟩

/-- A healthy server that nothing can happen to any more has returned from `main`. -/
theorem Healthy.stuck {J : JsonLibrary} {server : Server} (healthy : Healthy server) (down : server.listener.frame.isEnded)
    (stuck : ∀ event, server.step J event = none) :
    server.status = .exited ∧ ∀ session ∈ server.sessions, session.execution.frame.isEnded := by
  rcases healthy.status with running | ⟨exited, _, ended⟩
  · exfalso
    have ended : ∀ session ∈ server.sessions, session.execution.frame.isEnded := by
      intro session member
      obtain ⟨index, found⟩ := List.mem_iff_getElem?.mp member
      cases stands : session.execution.frame with
      | ended e => rfl
      | suspended operation resume =>
        have waits : session.execution.frame.control = .pending operation := by rw [stands]; rfl
        have goes := healthy.resumable J found waits (succeeds ⟨true, []⟩) {}
        simp [stuck] at goes
    have returns := stuck .runReturns
    simp only [Server.step, running, down, true_and] at returns
    rw [if_pos (by simpa using ended)] at returns
    cases returns
  · exact ⟨exited, ended⟩

/-- Once an accept has failed the process comes to its end: it takes at most one more
event for each session that waits and one to return from `main`, and until it has
returned there is always one that can come. -/
theorem server_drains {J : JsonLibrary} (documented : J.Documented) {events more : List Event} {server after : Server}
    (run : Run (Server.step J) Benign Server.main events server) (down : server.listener.frame.isEnded)
    (rest : Run (Server.step J) Benign server more after) :
    more.length ≤ waiting server + 1 ∧ ((∀ event, after.step J event = none) →
      after.status = .exited ∧ ∀ session ∈ after.sessions, session.execution.frame.isEnded) := by
  have draining : Draining J server := ⟨standing_run run, down⟩
  have kept {before after : Server} (event : Event) (_ : Benign before event)
      (stepped : before.step J event = some after) (held : Draining J before) :
      Draining J after ∧ outstanding after < outstanding before := held.step documented (step_cases stepped)
  constructor
  · have bound := rest.bounded draining kept
    have least := outstanding_le server
    omega
  · intro stuck
    have down : after.listener.frame.isEnded := by
      apply Draining.down (J := J)
      apply rest.invariant draining
      intro _ _ _ _ event permitted stepped held
      exact (kept event permitted stepped held).1
    exact (healthy_run (run.trans rest)).stuck down stuck

theorem refused_server_drains : ∃ events server after, Run (Server.step plainJson) Benign Server.main events server ∧
    Run (Server.step plainJson) Benign server [.session 0 (succeeds ⟨true, []⟩) {}, .runReturns] after ∧
      after.status = .exited ∧ 2 ≤ waiting server + 1 := by
  have run := (@Run.nil _ _ (Server.step plainJson) Benign Server.main).steps
    [.listener (listens ⟨0⟩), .listener (listens ⟨0⟩), .listener (listens ⟨0⟩), .listener (listens ⟨0⟩),
      .listener (listens ⟨1⟩), .listener (refuses ⟨⟨.system, 24⟩, "Too many open files"⟩)]
    (by simp [Benign, StdOnly, LoggingReturns]) rfl
  have permitted (server : Server) : Benign server (.session 0 (succeeds ⟨true, []⟩) {}) := by
    refine ⟨?_, loggingReturns_iff.mpr (setupResult_default _)⟩
    intro operation exception failed
    cases operation <;> cases failed
  have stay {events : List Event} {server : Server} (_ : Run (Server.step plainJson) Benign Server.main events server) :
      Run (Server.step plainJson) Benign server [] server := .nil
  have rest := ((stay run).snoc (.session 0 (succeeds ⟨true, []⟩) {}) (permitted _) rfl).snoc .runReturns
    (by simp [Benign, StdOnly, LoggingReturns]) rfl
  exact ⟨_, _, _, run, rest, rfl, (server_drains plainJson_documented run rfl rest).1⟩

theorem Settled.handled_eq {session session' : Session} (settled : Settled session) (settled' : Settled session')
    (same : session.execution = session'.execution) : session.handled = session'.handled := by
  unfold Settled at settled settled'
  rw [← same] at settled'
  split at settled
  next waits =>
    simp only [waits] at settled'
    rw [settled, settled']
  next e ended =>
    simp only [ended] at settled'
    obtain ⟨_, _, _, handled⟩ := settled
    obtain ⟨_, _, _, handled'⟩ := settled'
    rw [handled, handled']

/-- Two interleavings of the same outcomes for each coroutine agree on everything but
the order of the log. -/
theorem interleavings_agree {J : JsonLibrary} {events events' : List Event} {server server' : Server}
    (run : Run (Server.step J) Benign Server.main events server)
    (run' : Run (Server.step J) Benign Server.main events' server')
    (listener : events.filterMap listenerAnswer = events'.filterMap listenerAnswer)
    (sessions : ∀ index, inputsOf sessionAnswer index events = inputsOf sessionAnswer index events') :
    server.listener = server'.listener ∧ server.sessions = server'.sessions ∧ server.cerr = server'.cerr ∧
      server.logger.queued.Perm server'.logger.queued := by
  have same : server.listener = server'.listener := by
    rw [listener_isolated run, listener_isolated run', listener]
  have streams : server.sessions.map Session.ws = server'.sessions.map Session.ws := by
    rw [(standing_run run).sessions_accepted, (standing_run run').sessions_accepted, same]
  have each : server.sessions = server'.sessions := by
    apply List.ext_getElem?
    intro index
    have stream := congrArg (fun streams => streams[index]?) streams
    simp only [List.getElem?_map] at stream
    cases found : server.sessions[index]? with
    | none => simpa [found] using stream.symm
    | some session =>
      cases found' : server'.sessions[index]? with
      | none => simp [found, found'] at stream
      | some session' =>
        have ws : session.ws = session'.ws := by simpa [found, found'] using stream
        have execution : session.execution = session'.execution := by
          rw [session_isolated run found, session_isolated run' found', ws, sessions]
        have handled := ((healthy_run run).settled session (List.mem_of_getElem? found)).handled_eq
          ((healthy_run run').settled session' (List.mem_of_getElem? found')) execution
        obtain ⟨ws, execution, handled⟩ := session
        obtain ⟨ws', execution', handled'⟩ := session'
        simp_all
  have cerr : server.cerr = server'.cerr := by
    rw [reported_run run, reported_run run', same]
  refine ⟨same, each, cerr, ?_⟩
  apply (logged_run run).lines.trans
  rw [each]
  exact (logged_run run').lines.symm

/-- A session that ends before the second connection comes, or after it. -/
theorem two_orders_agree : ∃ events events' server server', events ≠ events' ∧
    Run (Server.step plainJson) Benign Server.main events server ∧
      Run (Server.step plainJson) Benign Server.main events' server' ∧ server.sessions = server'.sessions := by
  have permitted (server : Server) : Benign server (.session 0 (succeeds ⟨true, []⟩) {}) := by
    refine ⟨?_, loggingReturns_iff.mpr (setupResult_default _)⟩
    intro operation exception failed
    cases operation <;> cases failed
  have run := (@Run.nil _ _ (Server.step plainJson) Benign Server.main).steps
    [.listener (listens ⟨0⟩), .listener (listens ⟨0⟩), .listener (listens ⟨0⟩), .listener (listens ⟨0⟩),
      .listener (listens ⟨1⟩)] (by simp [Benign, StdOnly, LoggingReturns]) rfl
  have first := (run.snoc (.session 0 (succeeds ⟨true, []⟩) {}) (permitted _) rfl).snoc (.listener (listens ⟨2⟩))
    (by simp [Benign, StdOnly, LoggingReturns]) rfl
  have last := (run.snoc (.listener (listens ⟨2⟩)) (by simp [Benign, StdOnly, LoggingReturns]) rfl).snoc
    (.session 0 (succeeds ⟨true, []⟩) {}) (permitted _) rfl
  have agree := interleavings_agree first last rfl fun index => by
    cases index <;> rfl
  exact ⟨_, _, _, _, by simp, first, last, agree.2.1⟩

end UavRfDetector.Proofs

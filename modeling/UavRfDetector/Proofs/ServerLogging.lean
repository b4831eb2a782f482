import UavRfDetector.Proofs.ServerHealth

/-! The log of the sessions. Its statics pass through three states, and the step
from the second to the third is the only one that can take the process down. -/

namespace UavRfDetector.Proofs
open Coroutine Transition

def mainLogger : AsyncLogger :=
  ⟨"main", [.rotatingFile "log_filename" (1024 * 1024) 5 false, .stdoutColor], some ⟨8192, 1⟩, .block⟩

def readyLogger (queued : List String) : Logger :=
  { init := true, registryPool := mainLogger.threadPool, sinks := some mainLogger.sinks,
    threadPool := some mainLogger.threadPool, logger := some mainLogger, queued }

/-- The initializers run in one order: a failing thread pool leaves nothing behind, a
failing log file the pool, and a logger is never built without its pool or its sinks. -/
inductive Statics : Logger → Prop where
  | untouched : Statics {}
  | withoutSinks : Statics { init := true, registryPool := mainLogger.threadPool }
  | ready (queued : List String) : Statics (readyLogger queued)

/-- What a call of a session's completion handler can do. -/
inductive HandlerStep (setup : LogSetup) (logger : Logger) :
    Option Exception → HandlerResult → Logger → Prop where
  | null : HandlerStep setup logger none .undefined logger
  | foreign {exception} (foreign : exception.isStd = false) :
    HandlerStep setup logger (some exception) (.threw exception) logger
  | logs {exception} (std : exception.isStd) :
    HandlerStep setup logger (some exception) .returned (readyLogger (logger.queued ++ [exception.what]))
  | fails {exception thrown after} (std : exception.isStd) (first : logger.queued = [])
    (throws : setup.startThreads = .error thrown ∨ setup.openFile = .error thrown) (statics : Statics after)
    (silent : after.queued = []) : HandlerStep setup logger (some exception) (.threw thrown) after

theorem handler_cases {logger : Logger} (statics : Statics logger) (setup : LogSetup) (e : Option Exception) :
    HandlerStep setup logger e (sessionHandler setup e logger).1 (sessionHandler setup e logger).2 := by
  cases e with
  | none => exact .null
  | some exception =>
    cases std : exception.isStd with
    | false =>
      simp only [sessionHandler, std, Bool.false_eq_true, if_false]
      exact .foreign std
    | true =>
      simp only [sessionHandler, std, if_true]
      obtain ⟨startThreads, openFile⟩ := setup
      cases statics with
      | ready queued => exact .logs std
      | withoutSinks =>
        cases openFile with
        | ok => exact .logs std
        | error thrown => exact .fails std rfl (Or.inr rfl) .withoutSinks rfl
      | untouched =>
        cases startThreads with
        | error thrown => exact .fails std rfl (Or.inl rfl) .untouched rfl
        | ok =>
          cases openFile with
          | ok => exact .logs std
          | error thrown => exact .fails std rfl (Or.inr rfl) .withoutSinks rfl

theorem HandlerStep.statics {setup : LogSetup} {logger after : Logger} {e : Option Exception}
    {result : HandlerResult} (handled : HandlerStep setup logger e result after) (statics : Statics logger) :
    Statics after := by
  cases handled with
  | null | foreign => exact statics
  | logs => exact .ready _
  | fails _ _ _ statics => exact statics

def logLine (session : Session) : Option String :=
  match session.handled with
  | some (some exception, .returned) => some exception.what
  | _ => none

/-- What a session has ended with. -/
def ending (session : Session) : Option String :=
  match session.execution.frame.control with
  | .ended (some exception) => some exception.what
  | _ => none

private theorem filterMap_set {α β : Type} {f : α → Option β} {items : List α} {index : Nat} {item : α}
    (found : items[index]? = some item) (silent : f item = none) (other : α) :
    ((items.set index other).filterMap f).Perm (items.filterMap f ++ (f other).toList) := by
  induction items generalizing index with
  | nil => simp at found
  | cons first items ih =>
    cases index with
    | zero =>
      cases found
      rw [List.set_cons_zero, List.filterMap_cons_none silent]
      cases image : f other with
      | none => simp [image]
      | some value => simpa [image] using (List.perm_append_singleton value _).symm
    | succ index =>
      have later := ih found
      cases image : f first with
      | none => simpa [image] using later
      | some value => simpa [image] using later

def Unhandled (session : Session) : Prop :=
  ∀ operation, session.execution.frame.control = .pending operation → session.handled = none

structure Logged (server : Server) : Prop where
  statics : Statics server.logger
  unhandled : ∀ session ∈ server.sessions, Unhandled session
  lines : server.logger.queued.Perm (server.sessions.filterMap logLine)

theorem Logged.initial : Logged Server.main :=
  ⟨.untouched, by simp [Server.main], .refl _⟩

theorem Logged.silent {server : Server} (logged : Logged server) {index : Nat} {session : Session} {operation : StreamOp}
    (found : server.sessions[index]? = some session)
    (waiting : session.execution.frame.control = .pending operation) : logLine session = none := by
  have unhandled := logged.unhandled session (List.mem_of_getElem? found) operation waiting
  simp only [logLine, unhandled]

private theorem launches_silent (J : JsonLibrary) (server : Server) (answer : ListenerAnswer) :
    (afterListener J server answer).sessions.filterMap logLine = server.sessions.filterMap logLine := by
  have fresh (streams : List Stream) : (streams.map (Session.launch J)).filterMap logLine = [] := by
    simp [List.filterMap_map, Function.comp_def, logLine, Session.launch]
  rw [afterListener, List.filterMap_append, fresh, List.append_nil]

theorem Logged.step {J : JsonLibrary} {server after : Server} {event : Event} (logged : Logged server)
    (stepped : ServerStep J server event after) : Logged after := by
  have unhandled := stepped.each logged.unhandled (fun ws _ _ => rfl) (by
    intro session member index answer setup _ resumed moved kept operation waits
    cases moved with
    | progresses waiting continues => exact kept _ waiting
    | ends waiting ended => cases ended.symm.trans waits)
  cases stepped with
  | listens running waiting continues =>
    refine ⟨logged.statics, unhandled, ?_⟩
    rw [launches_silent]
    exact logged.lines
  | listenerEnds running waiting ended =>
    refine ⟨logged.statics, unhandled, ?_⟩
    change List.Perm _ ((afterListener J server _).sessions.filterMap logLine)
    rw [launches_silent]
    exact logged.lines
  | @progresses index answer setup session operation next running found waiting continues =>
    have silent := logged.silent found waiting
    have lines := filterMap_set found silent { session with execution := (doSession J).step session.execution answer }
    change List.Perm _ (_ ++ (logLine session).toList) at lines
    rw [silent, Option.toList_none, List.append_nil] at lines
    exact ⟨logged.statics, unhandled, logged.lines.trans lines.symm⟩
  | @sessionEnds index answer setup session operation e running found waiting ended =>
    have handled := handler_cases logged.statics setup e
    have set := filterMap_set found (logged.silent found waiting)
    refine ⟨handled.statics logged.statics, unhandled, .trans ?_ (set _).symm⟩
    have lines := logged.lines
    generalize (sessionHandler setup e server.logger).1 = result at handled ⊢
    generalize (sessionHandler setup e server.logger).2 = logger at handled ⊢
    cases handled with
    | null | foreign => simpa [logLine] using lines
    | logs std => simpa [logLine, readyLogger] using lines.append_right _
    | fails std first throws statics silent => simpa [logLine, first, silent] using lines
  | runReturns running listener sessions => exact ⟨logged.statics, unhandled, logged.lines⟩

theorem logged_run {J : JsonLibrary} {allowed : Server → Event → Prop} {events : List Event} {server : Server}
    (run : Run (Server.step J) allowed Server.main events server) : Logged server := by
  apply run.invariant .initial
  intro events before after run event permitted stepped logged
  exact logged.step (step_cases stepped)

/-- Where logging returns, every ending of a session is logged once and nothing
else is. -/
theorem endings_logged {J : JsonLibrary} {events : List Event} {server : Server}
    (run : Run (Server.step J) Benign Server.main events server) :
    server.logger.queued.Perm (server.sessions.filterMap ending) := by
  have lines := (logged_run run).lines
  have settled := (healthy_run run).settled
  have same : server.sessions.filterMap logLine = server.sessions.filterMap ending := by
    apply List.filterMap_congr
    intro session member
    have handled := settled session member
    unfold Settled at handled
    unfold logLine ending
    split at handled
    next waiting => rw [handled, waiting]
    next e ended =>
      obtain ⟨exception, rfl, _, handled⟩ := handled
      rw [handled, ended]
  rwa [same] at lines

theorem two_endings_logged : ∃ events server, Run (Server.step plainJson) Benign Server.main events server ∧
    server.logger.queued.Perm ["refused", "reset"] := by
  have permitted (index : Nat) (what : String) (server : Server) :
      Benign server (.session index (fails (.std what)) {}) := by
    refine ⟨?_, loggingReturns_iff.mpr (setupResult_default _)⟩
    intro operation exception failed
    cases operation <;> cases failed <;> rfl
  have run := (@Run.nil _ _ (Server.step plainJson) Benign Server.main).steps
    [.listener (listens ⟨0⟩), .listener (listens ⟨0⟩), .listener (listens ⟨0⟩), .listener (listens ⟨0⟩),
      .listener (listens ⟨1⟩), .listener (listens ⟨2⟩)] (by simp [Benign, StdOnly, LoggingReturns]) rfl
  have run := (run.snoc (.session 1 (fails (.std "refused")) {}) (permitted _ _ _) rfl).snoc
    (.session 0 (fails (.std "reset")) {}) (permitted _ _ _) rfl
  exact ⟨_, _, run, (endings_logged run).trans (List.Perm.swap "refused" "reset" [])⟩

/-- As long as the process runs, every session that has ended has been logged. -/
theorem Logged.ended {J : JsonLibrary} {allowed : Server → Event → Prop} {events : List Event} {server : Server}
    (run : Run (Server.step J) allowed Server.main events server)
    (only : ∀ server event, allowed server event → StdOnly event) : server.status = .running →
      ∀ session ∈ server.sessions, session.execution.frame.isEnded → (logLine session).isSome := by
  apply run.invariant
  · intro _ session member
    cases member
  · intro events before after run event permitted stepped kept up session member ended
    have later := run.snoc event permitted stepped
    have standing := standing_run later
    have std := std_run later only
    have launched (answer : ListenerAnswer) (running : before.status = .running)
        (member : session ∈ (afterListener J before answer).sessions) : (logLine session).isSome := by
      rcases List.mem_append.mp member with old | fresh
      · exact kept running session old ended
      · obtain ⟨ws, _, rfl⟩ := List.mem_map.mp fresh
        have control : (Session.launch J ws).execution.frame.control = .pending handshake :=
          (session_start (jsonBlock J) ws).control_eq
        exact absurd ended (Frame.not_ended_of_pending control)
    cases step_cases stepped with
    | listens running waiting continues => exact launched _ running member
    | listenerEnds running waiting ended => exact launched _ running member
    | progresses running found waiting continues =>
      rcases List.mem_or_eq_of_mem_set member with old | rfl
      · exact kept running session old ended
      · exact absurd ended (Frame.not_ended_of_pending continues)
    | @sessionEnds index answer setup before' operation e running found waiting done =>
      rcases List.mem_or_eq_of_mem_set member with old | rfl
      · exact kept running session old ended
      · obtain ⟨exception, rfl, _⟩ := std.session_end standing member done
        -- the process would not run if the handler had not returned
        have handled := handler_cases (logged_run run).statics setup (some exception)
        simp only [logLine]
        generalize (sessionHandler setup (some exception) before.logger).1 = result at handled up ⊢
        generalize (sessionHandler setup (some exception) before.logger).2 = logger at handled
        cases handled with
        | foreign | fails => cases up
        | logs std => rfl
    | runReturns running listener sessions => cases up

/-- Nothing has left `main` unless it was the last event that had to set up the logger, for
the only session that has ended; and then it is what one of the library calls has thrown. -/
def OnlyLogSetup (events : List Event) (server : Server) : Prop :=
  server.status ≠ .undefined ∧ ∀ exception, server.status = .terminated exception →
    server.logger.queued = [] ∧ ∃ earlier index answer setup,
      events = earlier ++ [.session index answer setup] ∧
      (setup.startThreads = .error exception ∨ setup.openFile = .error exception) ∧
      ∀ other session, server.sessions[other]? = some session → (session.execution.frame.isEnded ↔ other = index)

private theorem OnlyLogSetup.harmless {events : List Event} {server : Server}
    (up : server.status = .running ∨ server.status = .exited) : OnlyLogSetup events server := by
  unfold OnlyLogSetup
  rcases up with running | exited <;> simp [*]

/-- As long as only `std::exception` is thrown into sessions, the one way for an
exception to leave `main` is that the logger cannot be set up when the first session ends. -/
theorem escape_is_log_setup {J : JsonLibrary} {events : List Event} {server : Server}
    (run : Run (Server.step J) (fun _ => StdOnly) Server.main events server) : OnlyLogSetup events server := by
  cases run with
  | nil => exact .harmless (Or.inl rfl)
  | @snoc events before after run event permitted stepped =>
    have later := run.snoc event permitted stepped
    have standing := standing_run later
    have std := std_run later (fun _ _ only => only)
    cases step_cases stepped with
    | listens running waiting continues => exact .harmless (Or.inl running)
    | listenerEnds running waiting ended =>
      obtain ⟨error, rfl⟩ := standing.listener_end ended
      exact .harmless (Or.inl rfl)
    | progresses running found waiting continues => exact .harmless (Or.inl running)
    | @sessionEnds index answer setup session operation e running found waiting ended =>
      have inside := (List.getElem?_eq_some_iff.mp found).choose
      obtain ⟨exception, rfl, thrown⟩ := std.session_end standing (List.mem_set inside _) ended
      have handled := handler_cases (logged_run run).statics setup (some exception)
      have lines := (logged_run run).lines
      have logged := Logged.ended run (fun _ _ only => only) running
      generalize (sessionHandler setup (some exception) before.logger).1 = result at handled ⊢
      generalize (sessionHandler setup (some exception) before.logger).2 = logger at handled ⊢
      cases handled with
      | foreign foreign => rw [thrown] at foreign; cases foreign
      | logs std => exact .harmless (Or.inl rfl)
      | fails std first throws statics silent =>
        refine ⟨by simp [Status.afterHandler], ?_⟩
        intro exception down
        cases down
        refine ⟨silent, events, index, answer, setup, rfl, throws, ?_⟩
        intro other session' present
        by_cases same : other = index
        · subst same
          rw [List.getElem?_set_self inside] at present
          cases present
          exact iff_of_true (Frame.isEnded_of_ended ended) rfl
        · rw [List.getElem?_set_ne (Ne.symm same)] at present
          have member := List.mem_of_getElem? present
          refine iff_of_false ?_ same
          intro finished
          obtain ⟨line, logged⟩ := Option.isSome_iff_exists.mp (logged session' member finished)
          rw [first] at lines
          have some : line ∈ before.sessions.filterMap logLine := List.mem_filterMap.mpr ⟨session', member, logged⟩
          rw [← lines.nil_eq] at some
          cases some
    | runReturns running listener sessions => exact .harmless (Or.inr rfl)

theorem log_file_escapes : ∃ events server, Run (Server.step plainJson) (fun _ => StdOnly) Server.main events server ∧
    server.status = .terminated (.spdlog "Failed opening file log_filename") ∧ OnlyLogSetup events server := by
  have run := (@Run.nil _ _ (Server.step plainJson) (fun _ => StdOnly) Server.main).steps
    [.listener (listens ⟨0⟩), .listener (listens ⟨0⟩), .listener (listens ⟨0⟩), .listener (listens ⟨0⟩),
      .listener (listens ⟨1⟩), .listener (listens ⟨2⟩)] (by simp [StdOnly]) rfl
  have std : StdOnly (.session 1 (fails (.std "reset")) { openFile := .error (.spdlog "Failed opening file log_filename") }) := by
    intro operation exception failed
    cases operation <;> cases failed <;> rfl
  have down := run.snoc _ std rfl
  exact ⟨_, _, down, rfl, escape_is_log_setup down⟩

end UavRfDetector.Proofs

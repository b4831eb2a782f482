import UavRfDetector.Listener
import UavRfDetector.Logger

/-! The process: `main`, its single `ioc.run()`, and the coroutines it drives. One
event is one completion handler run to its end, so that the events of a run are an
interleaving of what the listener and the sessions were waiting for. -/

namespace UavRfDetector
open Coroutine

inductive HandlerResult where
  | returned
  | threw (exception : Exception)
  | undefined
deriving DecidableEq, Repr

/-- The handler that `do_listen` gives to `co_spawn` for each session. Rethrowing
a null pointer is undefined; what it rethrows is logged if it is a `std::exception`. -/
def sessionHandler (setup : LogSetup) (e : Option Exception) (logger : Logger) :
    HandlerResult × Logger :=
  match e with
  | none => (.undefined, logger)
  | some exception =>
    if exception.isStd then
      match (logInfo setup exception.what).run.run logger with
      | (.ok (), logger) => (.returned, logger)
      | (.error thrown, logger) => (.threw thrown, logger)
    else (.threw exception, logger)

/-- The handler that `main` gives to `co_spawn`, with what it prints to `std::cerr`. -/
def mainHandler (e : Option Exception) : HandlerResult × String :=
  match e with
  | none => (.returned, "")
  | some exception =>
    if exception.isStd then (.returned, "Error: " ++ exception.what ++ "\n") else (.threw exception, "")

structure Session where
  ws : Stream
  execution : Execution StreamOp StreamOp.Result Exception Stream
  /-- the one call of its completion handler: the pointer passed and the result -/
  handled : Option (Option Exception × HandlerResult) := none

inductive Status where
  | running
  | exited
  /-- an exception left a completion handler, `ioc.run()` and `main` -/
  | terminated (exception : Exception)
  | undefined
deriving DecidableEq, Repr

structure Server where
  listener : Execution ListenerOp ListenerOp.Result Exception Unit
  sessions : List Session := []
  logger : Logger := {}
  cerr : String := ""
  status : Status := .running

def Status.afterHandler : HandlerResult → Status
  | .returned => .running
  | .threw exception => .terminated exception
  | .undefined => .undefined

/-- What the coroutine waits for comes out as answered; `setup` is for a logger
that a session's completion handler may have to set up. -/
inductive Event where
  | listener (answer : Answer ListenerOp ListenerOp.Result)
  | session (index : Nat) (answer : Answer StreamOp StreamOp.Result) (setup : LogSetup)
  | runReturns

/-- `make_address("127.0.0.1")` and `atoi("80")`. -/
def mainEndpoint : Endpoint := ⟨.v4, "127.0.0.1", 80⟩

def Session.launch (J : JsonLibrary) (ws : Stream) : Session :=
  { ws, execution := (doSession J).start ws }

namespace Server

/-- `main` up to `ioc.run()`. It spawns `threads - 1 = 0` further threads, so that
completion handlers run one at a time. -/
def main : Server := { listener := (doListen mainEndpoint).start () }

/-- One resumption of `do_listen`. A session it launches is started at once and the
listener goes on to its next `async_accept`. -/
def resumeListener (listener : Execution ListenerOp ListenerOp.Result Exception Unit)
    (answer : Answer ListenerOp ListenerOp.Result) :
    Execution ListenerOp ListenerOp.Result Exception Unit × List Stream :=
  let listener := (doListen mainEndpoint).step listener answer
  match listener.frame with
  | .suspended (.coSpawn ws) _ => ((doListen mainEndpoint).step listener answer, [ws])
  | _ => (listener, [])

def step (J : JsonLibrary) (server : Server) : Event → Option Server
  | .listener answer =>
    match server.status, server.listener.frame with
    | .running, .suspended _ _ =>
      let (listener, launched) := resumeListener server.listener answer
      let server := { server with listener, sessions := server.sessions ++ launched.map (Session.launch J) }
      match listener.frame with
      | .suspended _ _ => some server
      | .ended e =>
        let (result, printed) := mainHandler e
        some { server with cerr := server.cerr ++ printed, status := .afterHandler result }
    | _, _ => none
  | .session index answer setup =>
    match server.status, server.sessions[index]? with
    | .running, some session =>
      match session.execution.frame with
      | .ended _ => none
      | .suspended _ _ =>
        let execution := (doSession J).step session.execution answer
        match execution.frame with
        | .suspended _ _ => some { server with sessions := server.sessions.set index { session with execution } }
        | .ended e =>
          let (result, logger) := sessionHandler setup e server.logger
          some { server with
            sessions := server.sessions.set index { session with execution, handled := some (e, result) }
            logger, status := .afterHandler result }
    | _, _ => none
  | .runReturns =>
    if server.status = .running ∧ server.listener.frame.isEnded ∧
        server.sessions.all (fun session => session.execution.frame.isEnded) then
      some { server with status := .exited }
    else none

end Server
end UavRfDetector

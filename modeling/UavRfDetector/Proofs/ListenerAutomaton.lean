import UavRfDetector.Coroutine.Automaton
import UavRfDetector.Server

/-! The control flow of `doListen`: four operations that set the acceptor up, then
accepting and launching in turn. Its first failure is its end. -/

namespace UavRfDetector.Proofs
open Coroutine

abbrev ListenerHistory := History ListenerOp ListenerOp.Result
abbrev ListenerAnswer := Answer ListenerOp ListenerOp.Result
abbrev ListenerRun := Execution ListenerOp ListenerOp.Result Exception Unit

def listens (socket : Socket) : ListenerAnswer
  | .openAcceptor _ | .setReuseAddress _ | .bind _ | .listen _ => .ok ()
  | .asyncAccept => .ok socket
  | .coSpawn _ => ()

def refuses (error : SystemError) : ListenerAnswer
  | .openAcceptor _ | .setReuseAddress _ | .bind _ | .listen _ | .asyncAccept => .error error
  | .coSpawn _ => ()

def listenerOutcome (endpoint : Endpoint) :
    (operation : ListenerOp) → operation.Result → Except SystemError ListenerOp
  | .openAcceptor _, .ok () => .ok (.setReuseAddress true)
  | .setReuseAddress _, .ok () => .ok (.bind endpoint)
  | .bind _, .ok () => .ok (.listen .maxListenConnections)
  | .listen _, .ok () => .ok .asyncAccept
  | .asyncAccept, .ok socket => .ok (.coSpawn { socket })
  | .coSpawn _, () => .ok .asyncAccept
  | .openAcceptor _, .error error | .setReuseAddress _, .error error | .bind _, .error error
  | .listen _, .error error | .asyncAccept, .error error => .error error

def listenerNext (endpoint : Endpoint) (operation : ListenerOp) (result : operation.Result) :
    Control ListenerOp Exception :=
  match listenerOutcome endpoint operation result with
  | .ok next => .pending next
  | .error error => .ended (some (.systemError error))

def listenerAutomaton (endpoint : Endpoint) : Automaton ListenerOp ListenerOp.Result Exception where
  first := .pending (.openAcceptor endpoint.protocol)
  next := listenerNext endpoint

private abbrev ListenerRest := Awaitable ListenerOp ListenerOp.Result (Except Exception Flow × Unit)

private def failed (error : SystemError) : ListenerRest := .done (.error (.systemError error), ())

private def checked (next : ListenerRest) : Except SystemError Unit → ListenerRest
  | .ok () => next
  | .error error => failed error

private def fromListen : ListenerRest := .await (.listen .maxListenConnections) (checked (.done (.ok .again, ())))

private def fromBind (endpoint : Endpoint) : ListenerRest := .await (.bind endpoint) (checked fromListen)

private def fromReuse (endpoint : Endpoint) : ListenerRest := .await (.setReuseAddress true) (checked (fromBind endpoint))

private def fromOpen (endpoint : Endpoint) : ListenerRest :=
  .await (.openAcceptor endpoint.protocol) (checked (fromReuse endpoint))

private def resumeSpawn (_ : Unit) : ListenerRest := .done (.ok .again, ())

private def resumeAccept : Except SystemError Socket → ListenerRest
  | .ok socket => .await (.coSpawn { socket }) resumeSpawn
  | .error error => failed error

private theorem prologue_run (endpoint : Endpoint) :
    (listenerPrologue endpoint *> pure Flow.again).run.run () = fromOpen endpoint := by
  have next (operation : ListenerOp) {resume resume' : operation.Result → ListenerRest}
      (same : ∀ result, resume result = resume' result) : Awaitable.await operation resume = .await operation resume' :=
    congrArg _ (funext same)
  apply next (.openAcceptor endpoint.protocol)
  intro opened
  cases opened with
  | error error => rfl
  | ok =>
    apply next (.setReuseAddress true)
    intro reused
    cases reused with
    | error error => rfl
    | ok =>
      apply next (.bind endpoint)
      intro bound
      cases bound with
      | error error => rfl
      | ok =>
        apply next (.listen .maxListenConnections)
        intro listening
        cases listening <;> rfl

private theorem body_run : listenerBody.run.run () = .await .asyncAccept resumeAccept := by
  change Awaitable.await ListenerOp.asyncAccept _ = _
  congr 1
  funext accepted
  cases accepted <;> rfl

private inductive ListenerAwaits (endpoint : Endpoint) :
    ListenerOp → Frame ListenerOp ListenerOp.Result Exception Unit → Prop where
  | openAcceptor : ListenerAwaits endpoint (.openAcceptor endpoint.protocol)
      (.suspended (.openAcceptor endpoint.protocol) (checked (fromReuse endpoint)))
  | setReuseAddress : ListenerAwaits endpoint (.setReuseAddress true)
      (.suspended (.setReuseAddress true) (checked (fromBind endpoint)))
  | bind : ListenerAwaits endpoint (.bind endpoint) (.suspended (.bind endpoint) (checked fromListen))
  | listen : ListenerAwaits endpoint (.listen .maxListenConnections)
      (.suspended (.listen .maxListenConnections) (checked (.done (.ok .again, ()))))
  | asyncAccept : ListenerAwaits endpoint .asyncAccept (.suspended .asyncAccept resumeAccept)
  | coSpawn (ws : Stream) : ListenerAwaits endpoint (.coSpawn ws) (.suspended (.coSpawn ws) resumeSpawn)

private theorem accept_agrees (endpoint : Endpoint) :
    Agrees (ListenerAwaits endpoint) (.pending .asyncAccept) ((doListen endpoint).iterate ()) := by
  rw [Forever.iterate_await _ body_run]
  exact .pending .asyncAccept

def listenerSimulation (endpoint : Endpoint) : Simulation (doListen endpoint) (listenerAutomaton endpoint) where
  awaits := ListenerAwaits endpoint
  resumes suspended := by
    cases suspended with
    | coSpawn ws => exact ⟨_, rfl, fun _ => accept_agrees endpoint⟩
    | openAcceptor | setReuseAddress | bind | listen | asyncAccept =>
      refine ⟨_, rfl, ?_⟩
      intro result
      cases result with
      | error error => exact .ended _
      | ok value => first | exact accept_agrees endpoint | exact .pending (by constructor)

theorem listener_start (endpoint : Endpoint) :
    (listenerSimulation endpoint).Tracks ((doListen endpoint).start ()) (listenerAutomaton endpoint).first := by
  refine ⟨.start, ?_⟩
  have begins : ((doListen endpoint).start ()).frame = (doListen endpoint).settle (fromOpen endpoint) :=
    congrArg (doListen endpoint).settle (prologue_run endpoint)
  rw [begins]
  exact .pending .openAcceptor

def accepted (history : ListenerHistory) : List Socket :=
  history.filterMap fun
    | ⟨.asyncAccept, .ok socket⟩ => some socket
    | _ => none

def launched (history : ListenerHistory) : List Stream :=
  history.filterMap fun
    | ⟨.coSpawn ws, _⟩ => some ws
    | _ => none

def acceptFailures (history : ListenerHistory) : List SystemError :=
  history.filterMap fun
    | ⟨.asyncAccept, .error error⟩ => some error
    | _ => none

/-- `acceptor.listen` has succeeded. -/
def Established (history : ListenerHistory) : Prop :=
  ⟨.listen .maxListenConnections, .ok ()⟩ ∈ history

/-- The stream of a connection that has been accepted and not launched yet. -/
def launching : Control ListenerOp Exception → List Stream
  | .pending (.coSpawn ws) => [ws]
  | _ => []

section
variable {endpoint : Endpoint} {history : ListenerHistory} {control : Control ListenerOp Exception}

theorem accepted_launched (reached : (listenerAutomaton endpoint).Reaches history control) :
    (accepted history).map (fun socket => ({ socket } : Stream)) = launched history ++ launching control := by
  induction reached with
  | start => rfl
  | @next history operation reached result ih =>
    cases operation <;> cases result <;>
      simpa [accepted, launched, launching, listenerAutomaton, listenerNext, listenerOutcome] using ih

/-- The history of a listener that waits: it is in its loop exactly when listening
has succeeded, and no accept has failed. -/
theorem pending_history {operation : ListenerOp}
    (reached : (listenerAutomaton endpoint).Reaches history (.pending operation)) :
    acceptFailures history = [] ∧
      (Established history ↔ operation = .asyncAccept ∨ ∃ ws, operation = .coSpawn ws) := by
  generalize waits : Control.pending operation = control at reached
  induction reached generalizing operation with
  | start =>
    cases waits
    simp [acceptFailures, Established]
  | @next history previous reached result ih =>
    obtain ⟨failures, established⟩ := ih rfl
    cases previous <;> cases result <;>
      simp_all [acceptFailures, Established, listenerAutomaton, listenerNext, listenerOutcome]

/-- A listener only ends by throwing, and once it is listening only because an
accept has failed. -/
theorem ended_history {e : Option Exception} (reached : (listenerAutomaton endpoint).Reaches history (.ended e)) :
    ∃ error, e = some (.systemError error) ∧ (Established history → acceptFailures history = [error]) := by
  generalize ends : Control.ended e = control at reached
  cases reached with
  | start => cases ends
  | @next history previous reached result =>
    obtain ⟨failures, established⟩ := pending_history reached
    cases previous <;> cases result <;>
      simp_all [acceptFailures, Established, listenerAutomaton, listenerNext, listenerOutcome]

end

end UavRfDetector.Proofs

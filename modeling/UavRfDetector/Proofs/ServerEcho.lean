import UavRfDetector.Proofs.ServerIsolation
import UavRfDetector.Proofs.SessionEcho

/-! What the clients get back. In no run of the server does a session write, and
what keeps them from it is the JSON block alone: were it to return, every session
would echo its own client, whatever the others do. -/

namespace UavRfDetector.Proofs
open Coroutine Transition

/-- With a block that throws, the handshake is the only operation of a session. -/
theorem handshake_only {error : JsonException} {history : StreamHistory} {control : Control StreamOp Exception}
    (reached : (sessionAutomaton (.error error)).Reaches history control) :
    history = [] ∧ control = .pending handshake ∨
      ∃ result e, history = [⟨handshake, result⟩] ∧ control = .ended e := by
  induction reached with
  | start => exact Or.inl ⟨rfl, rfl⟩
  | @next history operation reached result ih =>
    rcases ih with ⟨rfl, waits⟩ | ⟨_, _, _, waits⟩
    · cases waits
      cases result with
      | ok => exact Or.inr ⟨_, _, rfl, rfl⟩
      | error exception => exact Or.inr ⟨_, _, rfl, rfl⟩
    · cases waits

/-- No session starts anything but its handshake: none reads, writes or echoes. -/
theorem server_never_echoes {J : JsonLibrary} (documented : J.Documented) {allowed : Server → Event → Prop}
    {events : List Event} {server : Server} (run : Run (Server.step J) allowed Server.main events server) :
    ∀ session ∈ server.sessions, echoed session.execution.trace = [] ∧
      (∀ entry ∈ session.execution.trace, entry.1 = handshake) ∧
        ∀ operation, session.execution.frame.control = .pending operation → operation = handshake := by
  intro session member
  obtain ⟨control, tracks⟩ := (standing_run run).sessions session member
  have reached := tracks.reached
  obtain ⟨what, throws⟩ := jsonBlock_throws documented
  rw [throws] at reached
  rw [tracks.control_eq]
  rcases handshake_only reached with ⟨history, rfl⟩ | ⟨result, e, history, rfl⟩
  · rw [history]
    refine ⟨rfl, by simp, ?_⟩
    intro operation waits
    cases waits
    rfl
  · rw [history]
    refine ⟨?_, by simp, ?_⟩
    · cases result <;> rfl
    · intro operation waits
      cases waits

theorem one_client_never_echoed : ∃ events server, Run (Server.step plainJson) (fun _ _ => True) Server.main events server ∧
    server.sessions.map Session.ws = [{ socket := ⟨1⟩ }] ∧
      ∀ session ∈ server.sessions, ∀ entry ∈ session.execution.trace, entry.1 = handshake := by
  have run := (@Run.nil _ _ (Server.step plainJson) (fun _ _ => True) Server.main).steps
    [.listener (listens ⟨0⟩), .listener (listens ⟨0⟩), .listener (listens ⟨0⟩), .listener (listens ⟨0⟩),
      .listener (listens ⟨1⟩), .session 0 (succeeds ⟨true, [104, 105]⟩) {}] (by simp) rfl
  exact ⟨_, _, run, rfl, fun session member => (server_never_echoes plainJson_documented run session member).2.1⟩

theorem server_would_echo {J : JsonLibrary} {json_string : String} (returns : jsonBlock J = .ok json_string)
    {allowed : Server → Event → Prop} {events : List Event} {server : Server}
    (run : Run (Server.step J) allowed Server.main events server) {index : Nat} {session : Session}
    (found : server.sessions[index]? = some session) {accept : StreamAnswer} {script : List StreamAnswer}
    (own : inputsOf sessionAnswer index events = accept :: script) (accepted : accept handshake = Except.ok ())
    (failed : StaysFailed session.execution.trace) : echoed session.execution.trace = delivered script := by
  have alone := session_isolated run found
  rw [own, soloSession, doSession, returns] at alone
  rw [alone] at failed ⊢
  exact doSessionWith_echoes json_string session.ws accept accepted script failed

end UavRfDetector.Proofs

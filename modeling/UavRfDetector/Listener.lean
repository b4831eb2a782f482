import UavRfDetector.Session

/-! `do_listen` of main.cpp: open the acceptor, then accept connections and
launch a session for each. `co_spawn` is an operation that completes at once. -/

namespace UavRfDetector
open Coroutine

inductive Protocol where
  | v4
  | v6
deriving DecidableEq, Repr

structure Endpoint where
  protocol : Protocol
  address : String
  port : UInt16
deriving DecidableEq, Repr

inductive Backlog where
  | maxListenConnections
deriving DecidableEq, Repr

inductive ListenerOp where
  | openAcceptor (protocol : Protocol)
  | setReuseAddress (reuse : Bool)
  | bind (endpoint : Endpoint)
  | listen (backlog : Backlog)
  | asyncAccept
  | coSpawn (ws : Stream)
deriving DecidableEq, Repr

/-- Every operation of the acceptor reports its failures as `system_error`. -/
abbrev ListenerOp.Result : ListenerOp → Type
  | .openAcceptor _ | .setReuseAddress _ | .bind _ | .listen _ => Except SystemError Unit
  | .asyncAccept => Except SystemError Socket
  | .coSpawn _ => Unit

abbrev ListenerM := CoM ListenerOp ListenerOp.Result Exception Unit

def ofSystem {α : Type} (result : Except SystemError α) : ListenerM α :=
  MonadExcept.ofExcept (result.mapError Exception.systemError)

def listenerPrologue (endpoint : Endpoint) : ListenerM Unit := do
  ofSystem (← perform (.openAcceptor endpoint.protocol))
  ofSystem (← perform (.setReuseAddress true))
  ofSystem (← perform (.bind endpoint))
  ofSystem (← perform (.listen .maxListenConnections))

def listenerBody : ListenerM Flow := do
  let socket : Socket ← ofSystem (← perform .asyncAccept)
  perform (ListenerOp.coSpawn { socket })
  return .again

def doListen (endpoint : Endpoint) : Forever ListenerOp ListenerOp.Result Exception Unit where
  prologue := listenerPrologue endpoint
  body := listenerBody
  suspends _ _ spins := by cases spins

end UavRfDetector

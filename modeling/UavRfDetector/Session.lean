import UavRfDetector.Coroutine.Awaitable
import UavRfDetector.Json

/-! `do_session` of main.cpp, one connection's coroutine. The handshake, the
reads and the writes are what it awaits; the socket and the buffers are data. -/

namespace UavRfDetector
open Coroutine

inductive RoleType where
  | client
  | server
deriving DecidableEq, Repr

structure Message where
  text : Bool
  payload : List UInt8
deriving DecidableEq, Repr

structure Socket where
  handle : Nat
deriving DecidableEq, Repr

/-- A `websocket::stream`: the role whose suggested timeouts are set, what the
decorator appends to the library's version in the Server field, and whether the
next message is written as text and the last one read was text. -/
structure Stream where
  socket : Socket
  timeout : Option RoleType := none
  serverSuffix : Option String := none
  text : Bool := true
  gotText : Bool := false
deriving DecidableEq, Repr

inductive StreamOp where
  | asyncAccept (timeout : Option RoleType) (serverSuffix : Option String)
  | asyncRead
  | asyncWrite (message : Message)
deriving DecidableEq, Repr

/-- A stream operation fails with the exception its `co_await` throws. -/
abbrev StreamOp.Result : StreamOp → Type
  | .asyncAccept _ _ => Except Exception Unit
  | .asyncRead => Except Exception Message
  | .asyncWrite _ => Except Exception Unit

abbrev SessionM := CoM StreamOp StreamOp.Result Exception Stream

abbrev FlatBuffer := List UInt8

namespace Stream

def setTimeout (role : RoleType) : SessionM Unit :=
  modify fun ws => { ws with timeout := some role }

def setDecorator (suffix : String) : SessionM Unit :=
  modify fun ws => { ws with serverSuffix := some suffix }

def asyncAccept : SessionM Unit := do
  let ws ← get
  let accepted ← perform (.asyncAccept ws.timeout ws.serverSuffix)
  MonadExcept.ofExcept accepted

/-- Appends one complete message to the buffer it is given. -/
def asyncRead (buffer : FlatBuffer) : SessionM FlatBuffer := do
  let received ← perform .asyncRead
  let message : Message ← MonadExcept.ofExcept received
  modify fun ws => { ws with gotText := message.text }
  return buffer ++ message.payload

def setText (text : Bool) : SessionM Unit :=
  modify fun ws => { ws with text }

def asyncWrite (data : FlatBuffer) : SessionM Unit := do
  let ws ← get
  let written ← perform (.asyncWrite ⟨ws.text, data⟩)
  MonadExcept.ofExcept written

end Stream

def sessionPrologue : SessionM Unit := do
  Stream.setTimeout .server
  Stream.setDecorator " websocket-server-coro"
  Stream.asyncAccept

/-- `catch (boost::system::system_error &se)`: any other exception passes it by,
and of those it takes all but `closed` are thrown on. -/
def sessionCatch (se : Exception) : SessionM Unit :=
  -- nothing else: after a closing the loop goes on
  unless se.isClosed do
    throw se

/-- One pass of the `for (;;)`, with the outcome of its JSON block given. -/
def sessionBody (json : Except JsonException String) : SessionM Flow := do
  try
    let buffer : FlatBuffer := []
    let _json_string ← MonadExcept.ofExcept (json.mapError Exception.json)
    let buffer ← Stream.asyncRead buffer
    Stream.setText (← get).gotText
    Stream.asyncWrite buffer
  catch se => sessionCatch se
  return .again

def doSessionWith (json : Except JsonException String) : Forever StreamOp StreamOp.Result Exception Stream where
  prologue := sessionPrologue
  body := sessionBody json
  suspends first last spins := by cases json <;> cases spins

def doSession (J : JsonLibrary) : Forever StreamOp StreamOp.Result Exception Stream :=
  doSessionWith (jsonBlock J)

end UavRfDetector

import Mathlib.Logic.Basic

/-! The C++ exceptions the server can meet, with the dynamic types its catch
clauses tell apart. -/

namespace UavRfDetector

inductive ErrorCategory where
  | system
  | misc
  | websocket
  | other (id : Nat)
deriving DecidableEq, Repr

/-- `boost::system::error_code`; two codes are equal when category and value are. -/
structure ErrorCode where
  category : ErrorCategory
  value : Int
deriving DecidableEq, Repr

/-- `websocket::error::closed`, the first value of its enumeration. -/
def closed : ErrorCode := ⟨.websocket, 1⟩

structure SystemError where
  code : ErrorCode
  what : String
deriving DecidableEq, Repr

/-- `nlohmann::json::exception` and the classes derived from it, by their id. -/
structure JsonException where
  id : Nat
  what : String
deriving DecidableEq, Repr

/-- A `std` is of some other class derived from `std::exception`, a `foreign` of none. -/
inductive Exception where
  | systemError (error : SystemError)
  | json (error : JsonException)
  | spdlog (what : String)
  | std (what : String)
  | foreign
deriving DecidableEq, Repr

namespace Exception

/-- Whether `catch (std::exception &)` takes it. -/
def isStd : Exception → Bool
  | .foreign => false
  | _ => true

def what : Exception → String
  | .systemError error => error.what
  | .json error => error.what
  | .spdlog what | .std what => what
  | .foreign => ""

def isClosed : Exception → Bool
  | .systemError error => error.code = closed
  | _ => false

end Exception
end UavRfDetector

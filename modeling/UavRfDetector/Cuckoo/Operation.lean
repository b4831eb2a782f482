import UavRfDetector.Cuckoo.Table

/-! The calls a user makes on a `cuckoohash_map`, and the map they are meant for: a
partial function on which every call takes place at once. -/

namespace UavRfDetector.Cuckoo

inductive Op (Key T : Type) where
  | findFn (key : Key)
  | updateFn (key : Key) (fn : T → T)
  /-- the functor leaves a value and says whether to erase it -/
  | eraseFn (key : Key) (fn : T → T × Bool)
  | upraseFn (key : Key) (fn : UpraseFn T) (val : T)
  | clear

variable {Key T : Type}

/-- `UpsertToUpraseFn`: a functor that never asks for the value to be erased. -/
def upsertToUpraseFn (fn : T → T) : UpraseFn T := .withoutContext fun mapped => (fn mapped, false)

def upsertWithContextToUpraseFn (fn : T → UpsertContext → T) : UpraseFn T :=
  .withContext fun mapped context => (fn mapped context, false)

namespace Op

def contains (key : Key) : Op Key T := .findFn key

def update (key : Key) (val : T) : Op Key T := .updateFn key fun _ => val

def erase (key : Key) : Op Key T := .eraseFn key fun mapped => (mapped, true)

def upsert (key : Key) (fn : T → T) (val : T) : Op Key T := .upraseFn key (upsertToUpraseFn fn) val

def insert (key : Key) (val : T) : Op Key T := upsert key id val

def insertOrAssign (key : Key) (val : T) : Op Key T := upsert key (fun _ => val) val

end Op

abbrev Map (Key T : Type) := Key → Option T

namespace Map
variable [DecidableEq Key]

/-- What is left of a value, if anything. -/
def left (fate : T × Bool) : Option T := if fate.2 then none else some fate.1

def onFound (map : Map Key T) (key : Key) (fn : T → T × Bool) : Map Key T × Outcome T :=
  match map key with
  | none => (map, .returned false none)
  | some mapped => (Function.update map key (left (fn mapped)), .returned true (some mapped))

def uprase (map : Map Key T) (key : Key) (fn : UpraseFn T) (val : T) : Map Key T × Outcome T :=
  match map key with
  | some mapped =>
    let (fate, seen) := fn.invoke mapped .alreadyExisted
    (Function.update map key (left fate), .returned false seen)
  | none =>
    let (fate, seen) := fn.invoke val .newlyInserted
    (Function.update map key (left fate), .returned true seen)

def apply (map : Map Key T) : Op Key T → Map Key T × Outcome T
  | .findFn key => map.onFound key fun mapped => (mapped, false)
  | .updateFn key fn => map.onFound key fun mapped => (fn mapped, false)
  | .eraseFn key fn => map.onFound key fn
  | .upraseFn key fn val => map.uprase key fn val
  | .clear => (fun _ => none, .cleared)

end Map

namespace Table
variable [DecidableEq Key] (config : Config Key) (table : Table Key T) (i1 i2 : Nat)

def findFn (key : Key) : Table Key T × Outcome T :=
  table.onFound config key (config.hashedKey key).partialKey i1 i2 fun mapped => (mapped, false)

def updateFn (key : Key) (fn : T → T) : Table Key T × Outcome T :=
  table.onFound config key (config.hashedKey key).partialKey i1 i2 fun mapped => (fn mapped, false)

def eraseFn (key : Key) (fn : T → T × Bool) : Table Key T × Outcome T :=
  table.onFound config key (config.hashedKey key).partialKey i1 i2 fn

end Table

end UavRfDetector.Cuckoo

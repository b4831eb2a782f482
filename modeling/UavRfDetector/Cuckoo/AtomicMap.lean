import Mathlib.Data.Set.Card
import UavRfDetector.Cuckoo.Operation

/-! What a map is to the threads that share it: a call takes effect at one moment
between its beginning and its end, whatever the others do. An insertion whose key finds
its buckets full may have the map grow, and throws when that is not possible. -/

namespace UavRfDetector.Cuckoo

variable {Key T : Type}

/-- Where a thread is in a call, as its user sees it. -/
inductive Call (Key T : Type) where
  | idle
  | pending (op : Op Key T)
  | answered (outcome : Outcome T)

/-- What an insertion that asks for a table beyond `hp` throws. -/
def TableError.Justified (config : Config Key) (size hashpower hp : Nat) : TableError → Prop
  | .loadFactorTooLow least => least = config.minimumLoadFactor ∧
      config.loadFactor size (hashsize hashpower * config.slotPerBucket) < least
  | .maximumHashpowerExceeded newHp =>
    newHp = hp + 1 ∧ ∃ most, config.maximumHashpower = some most ∧ most < newHp

def Config.slotsOf (config : Config Key) (hashpower : Nat) (key : Key) : Set TablePosition :=
  {pos | Home hashpower (config.hashedKey key) pos.index ∧ pos.slot < config.slotPerBucket}

/-- A key that is missing from the map has no slot left: each of its slots can be given to
another key that the bucket is one of the two of. -/
structure Map.Crowded (config : Config Key) (hashpower : Nat) (map : Map Key T) (key : Key) : Prop where
  absent : map key = none
  full : ∃ resident : TablePosition → Key, Set.InjOn resident (config.slotsOf hashpower key) ∧
    ∀ pos ∈ config.slotsOf hashpower key,
      (map (resident pos)).isSome ∧ Home hashpower (config.hashedKey (resident pos)) pos.index

noncomputable def Map.size (map : Map Key T) : Nat := {key | (map key).isSome}.ncard

structure AtomicMap (Key T : Type) where
  map : Map Key T := fun _ => none
  hashpower : Nat
  calls : Nat → Call Key T := fun _ => .idle
  /-- the last hashpower at which a call has found no slot for its key -/
  crowded : Nat → Option Nat := fun _ => none

namespace AtomicMap

inductive Action (Key T : Type) where
  | call (thread : Nat) (op : Op Key T)
  | commit (thread : Nat)
  | crowd (thread : Nat)
  | grow (thread : Nat)
  /-- an insertion that throws leaves the map alone -/
  | reject (thread : Nat) (error : TableError)
  | ret (thread : Nat) (outcome : Outcome T)

def Action.thread : Action Key T → Nat
  | .call thread _ | .commit thread | .crowd thread | .grow thread | .reject thread _ | .ret thread _ => thread

section Allowed
variable (config : Config Key) (state : AtomicMap Key T)

/-- An insertion that has yet to take effect. -/
def Inserts (thread : Nat) (key : Key) : Prop := ∃ fn val, state.calls thread = .pending (.upraseFn key fn val)

/-- A table may be found full, grow and be given up for a reason, and a return says what
is returned. -/
def Action.Allowed : Action Key T → Prop
  | .crowd thread => ∃ key, state.Inserts thread key ∧ state.map.Crowded config state.hashpower key
  | .grow thread => (∃ key, state.Inserts thread key) ∧ state.crowded thread = some state.hashpower ∧
      ∀ error, ¬ TableError.Justified config state.map.size state.hashpower state.hashpower error
  | .reject thread error => (∃ key, state.Inserts thread key) ∧ ∃ hp, state.crowded thread = some hp ∧
      error.Justified config state.map.size state.hashpower hp
  | .ret thread outcome => state.calls thread = .answered outcome
  | .call _ _ | .commit _ => True

end Allowed

variable [DecidableEq Key]

def step (state : AtomicMap Key T) : Action Key T → Option (AtomicMap Key T)
  | .call thread op =>
    match state.calls thread with
    | .idle => some { state with
        calls := Function.update state.calls thread (.pending op)
        crowded := Function.update state.crowded thread none }
    | _ => none
  | .commit thread =>
    match state.calls thread with
    | .pending op =>
      let (map, outcome) := state.map.apply op
      some { state with map, calls := Function.update state.calls thread (.answered outcome) }
    | _ => none
  | .crowd thread => some { state with crowded := Function.update state.crowded thread (some state.hashpower) }
  | .grow _ => some { state with hashpower := state.hashpower + 1 }
  | .reject thread error => some { state with calls := Function.update state.calls thread (.answered (.threw error)) }
  | .ret thread _ =>
    match state.calls thread with
    | .answered _ => some { state with calls := Function.update state.calls thread .idle }
    | _ => none

end AtomicMap

/-- What the users of a map see: the calls they make and what these return. -/
inductive Visible (Key T : Type) where
  | call (thread : Nat) (op : Op Key T)
  | ret (thread : Nat) (outcome : Outcome T)

def AtomicMap.Action.visible : AtomicMap.Action Key T → Option (Visible Key T)
  | .call thread op => some (.call thread op)
  | .ret thread outcome => some (.ret thread outcome)
  | _ => none

end UavRfDetector.Cuckoo

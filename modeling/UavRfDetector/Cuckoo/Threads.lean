import UavRfDetector.Cuckoo.Operation
import UavRfDetector.Cuckoo.Search

/-! Any number of threads on one map. A thread takes one lock at a time; what it does
between taking the last lock it needs and releasing them is one step. The two values
it reads without a lock, the hashpower and the current lock array, are steps of their
own: a read of the end of `all_locks_` is taken to be one, although another thread may
be adding to the list. -/

namespace UavRfDetector.Cuckoo

variable {Key T : Type}

/-- The arguments of an `uprase_fn` that is under way. -/
structure Insertion (Key T : Type) where
  key : Key
  fn : UpraseFn T
  val : T

def Insertion.op (ins : Insertion Key T) : Op Key T := .upraseFn ins.key ins.fn ins.val

/-- What a thread needs two buckets of its key for, or one or three on a cuckoo path. A path is
kept from its end: the records of the moves still to be made, the next one first. -/
inductive Section (Key T : Type) where
  | findFn (key : Key)
  | updateFn (key : Key) (fn : T → T)
  | eraseFn (key : Key) (fn : T → T × Bool)
  | cuckooInsert (ins : Insertion Key T)
  | slotSearch (ins : Insertion Key T) (x : BSlot) (q : BQueue)
  | pathSearch (ins : Insertion Key T) (sources : List CuckooRecord) (pos : TablePosition) (slots : List Nat)
  | pathMove (ins : Insertion Key T) (sources : List CuckooRecord) (target : TablePosition)

/-- What a thread needs all locks for. -/
inductive Purpose (Key T : Type) where
  | fastDouble (ins : Insertion Key T) (currentHp : Nat)
  | clear

inductive Pc (Key T : Type) where
  | idle
  | called (op : Op Key T)
  /-- about to read the current lock array, with the hashpower it has read -/
  | choosing (hp : Nat) (sec : Section Key T)
  /-- about to take its first lock -/
  | locking (hp : Nat) (sec : Section Key T) (array : Nat)
  /-- about to check the hashpower with its first lock taken -/
  | checking (hp : Nat) (sec : Section Key T) (array : Nat)
  | holding (hp : Nat) (sec : Section Key T) (array taken : Nat)
  | choosingAll (purpose : Purpose Key T)
  | lockingAll (purpose : Purpose Key T) (firstLocked array next : Nat)
  /-- about to swap in the doubled buckets -/
  | doubling (ins : Insertion Key T) (firstLocked newHp : Nat)
  | returned (outcome : Outcome T)

structure State (Key T : Type) where
  table : Table Key T
  /-- the thread that holds a lock, by array and index -/
  owner : Nat → Nat → Option Nat := fun _ _ => none
  threads : Nat → Pc Key T := fun _ => .idle

inductive Event (Key T : Type) where
  | call (thread : Nat) (op : Op Key T)
  | step (thread : Nat)
  | ret (thread : Nat) (outcome : Outcome T)

def Event.thread : Event Key T → Nat
  | .call thread _ | .step thread | .ret thread _ => thread

namespace Table

/-- The index of `get_current_locks()` in `all_locks_`. -/
def currentLocks (table : Table Key T) : Nat := table.retiredLocks.length

def locksSize (table : Table Key T) (array : Nat) : Nat := (table.retiredLocks ++ [table.locks.size])[array]?.getD 0

end Table

namespace Config
variable (config : Config Key)

def i1 (hp : Nat) (key : Key) : Nat := indexHash hp (config.hashedKey key).hash

def i2 (hp : Nat) (key : Key) : Nat := altIndex hp (config.hashedKey key).partialKey (config.i1 hp key)

end Config

/-- `if (m < l) std::swap(l, m)`. -/
def ordered (l m : Nat) : Nat × Nat := if m < l then (m, l) else (l, m)

/-- The order in which `lock_two` takes its locks. -/
def lockTwo (l1 l2 : Nat) : List Nat :=
  let (l1, l2) := ordered l1 l2
  l1 :: (if l2 ≠ l1 then [l2] else [])

def lockThree (l0 l1 l2 : Nat) : List Nat :=
  let (l1, l2) := ordered l1 l2
  let (l0, l2) := ordered l0 l2
  let (l0, l1) := ordered l0 l1
  l0 :: ((if l1 ≠ l0 then [l1] else []) ++ (if l2 ≠ l1 then [l2] else []))

namespace Section
variable (config : Config Key)

/-- The call it belongs to, which starts again when the hashpower has changed. -/
def op : Section Key T → Op Key T
  | findFn key => .findFn key
  | updateFn key fn => .updateFn key fn
  | eraseFn key fn => .eraseFn key fn
  | cuckooInsert ins | slotSearch ins _ _ | pathSearch ins _ _ _ | pathMove ins _ _ => ins.op

def lockKey (hp : Nat) (key : Key) : List Nat :=
  lockTwo (config.lockInd (config.i1 hp key)) (config.lockInd (config.i2 hp key))

/-- The locks it takes, in the order it takes them. -/
def lockInds (hp : Nat) : Section Key T → List Nat
  | findFn key | updateFn key _ | eraseFn key _ => lockKey config hp key
  | cuckooInsert ins => lockKey config hp ins.key
  | slotSearch _ x _ => [config.lockInd x.bucket]
  | pathSearch _ _ pos _ => [config.lockInd pos.index]
  | pathMove ins [] _ => lockKey config hp ins.key
  | pathMove ins [_] target =>
    lockThree (config.lockInd (config.i1 hp ins.key)) (config.lockInd (config.i2 hp ins.key)) (config.lockInd target.index)
  | pathMove _ (source :: _ :: _) target => lockTwo (config.lockInd source.bucket) (config.lockInd target.index)

/-- The top of the loop of `slot_search`. -/
def searchNext (hp : Nat) (ins : Insertion Key T) (q : BQueue) : Pc Key T :=
  match q.dequeue with
  | some (x, q) => .choosing hp (.slotSearch ins x q)
  -- the table is full
  | none => .choosingAll (.fastDouble ins hp)

/-- The start of `run_cuckoo`, and its next round when a move has failed. -/
def runCuckoo (hp : Nat) (ins : Insertion Key T) : Pc Key T :=
  searchNext hp ins (.start (config.i1 hp ins.key) (config.i2 hp ins.key))

/-- The next position of `cuckoopath_search`. A path has at least one slot. -/
def pathNext (hp : Nat) (ins : Insertion Key T) (sources : List CuckooRecord) (bucket : Nat) : List Nat → Pc Key T
  | slot :: slots => .choosing hp (.pathSearch ins sources ⟨bucket, slot⟩ slots)
  | [] => .idle

variable [DecidableEq Key]

/-- What is left of `uprase_fn` once `cuckoo_insert` has a position. -/
def finish (table : Table Key T) (ins : Insertion Key T) (pos : TablePosition) (status : CuckooStatus) :
    Table Key T × Pc Key T :=
  let (table, outcome) := table.upraseAt config (config.hashedKey ins.key).partialKey ins.key ins.fn ins.val pos status
  (table, .returned outcome)

def freed (table : Table Key T) (hp : Nat) (ins : Insertion Key T) (pos : TablePosition) : Table Key T × Pc Key T :=
  let (pos, status) := table.cuckooInsertFreed config (config.hashedKey ins.key).partialKey (config.i1 hp ins.key)
    (config.i2 hp ins.key) ins.key pos
  finish config table ins pos status

/-- What a thread does with all its locks taken and their buckets rehashed. -/
def body (hp : Nat) (table : Table Key T) : Section Key T → Table Key T × Pc Key T
  | findFn key =>
    let (table, outcome) := table.findFn config (config.i1 hp key) (config.i2 hp key) key
    (table, .returned outcome)
  | updateFn key fn =>
    let (table, outcome) := table.updateFn config (config.i1 hp key) (config.i2 hp key) key fn
    (table, .returned outcome)
  | eraseFn key fn =>
    let (table, outcome) := table.eraseFn config (config.i1 hp key) (config.i2 hp key) key fn
    (table, .returned outcome)
  | cuckooInsert ins =>
    match table.cuckooInsert config (config.hashedKey ins.key).partialKey (config.i1 hp ins.key) (config.i2 hp ins.key)
      ins.key with
    | some (pos, status) => finish config table ins pos status
    | none => (table, runCuckoo config hp ins)
  | slotSearch ins x q =>
    match config.searchBucket hp (table.buckets.buckets x.bucket) x q with
    | .error x =>
      let (bucket, slots) := config.decodePath x (config.i1 hp ins.key) (config.i2 hp ins.key)
      (table, pathNext hp ins [] bucket slots)
    | .ok q => (table, searchNext hp ins q)
  | pathSearch ins sources pos slots =>
    match table.entryAt pos, slots with
    | some entry, _ :: _ =>
      let hv := config.hashedKey entry.key
      (table, pathNext hp ins (⟨pos.index, pos.slot, hv⟩ :: sources) (altIndex hp hv.partialKey pos.index) slots)
    -- an empty slot before the end of the path, or its end
    | _, _ => (table, .choosing hp (.pathMove ins sources pos))
  | pathMove ins [] target =>
    match table.entryAt target with
    | none => freed config table hp ins target
    | some _ => (table, runCuckoo config hp ins)
  | pathMove ins (source :: sources) target =>
    match table.moveAlong config source target, sources with
    | none, _ => (table, runCuckoo config hp ins)
    | some table, [] => freed config table hp ins ⟨source.bucket, source.slot⟩
    | some table, _ :: _ => (table, .choosing hp (.pathMove ins sources ⟨source.bucket, source.slot⟩))

/-- `rehash_lock` on every lock it has taken, and the body. -/
def run (hp : Nat) (table : Table Key T) (sec : Section Key T) : Table Key T × Pc Key T :=
  sec.body config hp ((sec.lockInds config hp).foldl (Table.rehashLock config true) table)

end Section

namespace State
variable (state : State Key T)

def goto (thread : Nat) (pc : Pc Key T) : State Key T :=
  { state with threads := Function.update state.threads thread pc }

def acquire (thread array l : Nat) : State Key T :=
  { state with owner := fun a i => if a = array ∧ i = l then some thread else state.owner a i }

def release (array : Nat) (ls : List Nat) : State Key T :=
  { state with owner := fun a i => if a = array ∧ i ∈ ls then none else state.owner a i }

/-- `AllUnlocker`. -/
def releaseAll (firstLocked : Nat) : State Key T :=
  { state with owner := fun a i => if firstLocked ≤ a then none else state.owner a i }

/-- The locks of an array that `maybe_resize_locks` has made are taken as it is put in place. -/
def acquireCurrent (thread : Nat) (table : Table Key T) : State Key T :=
  { state with
    table
    owner := fun a i => if a = table.currentLocks ∧ i < table.locks.size then some thread else state.owner a i }

end State

namespace Purpose

def op : Purpose Key T → Op Key T
  | fastDouble ins _ => ins.op
  | clear => .clear

/-- What a thread does with all locks taken, with data that is moved without throwing. -/
def run (config : Config Key) (state : State Key T) (thread firstLocked : Nat) : Purpose Key T → State Key T
  | fastDouble ins currentHp =>
    match state.table.checkResizeValidity config true currentHp (currentHp + 1) with
    | .error error => (state.releaseAll firstLocked).goto thread (.returned (.threw error))
    | .ok .failureUnderExpansion => (state.releaseAll firstLocked).goto thread (.called ins.op)
    | .ok .ok =>
      (state.acquireCurrent thread (state.table.prepareDouble config (currentHp + 1))).goto thread
        (.doubling ins firstLocked (currentHp + 1))
  | clear => ({ state with table := state.table.cuckooClear }.releaseAll firstLocked).goto thread (.returned .cleared)

end Purpose

namespace State
variable [DecidableEq Key] (config : Config Key)

/-- The beginning of a call: the hashpower is read for the buckets of its key. -/
def begin (state : State Key T) (thread : Nat) : Op Key T → State Key T
  | .findFn key => state.goto thread (.choosing state.table.hashpower (.findFn key))
  | .updateFn key fn => state.goto thread (.choosing state.table.hashpower (.updateFn key fn))
  | .eraseFn key fn => state.goto thread (.choosing state.table.hashpower (.eraseFn key fn))
  | .upraseFn key fn val => state.goto thread (.choosing state.table.hashpower (.cuckooInsert ⟨key, fn, val⟩))
  | .clear => state.goto thread (.choosingAll .clear)

/-- The next step of a thread, if it has one and does not wait for a lock. -/
def advance (state : State Key T) (thread : Nat) : Option (State Key T) :=
  match state.threads thread with
  | .idle | .returned _ => none
  | .called op => some (state.begin thread op)
  | .choosing hp sec => some (state.goto thread (.locking hp sec state.table.currentLocks))
  | .locking hp sec array =>
    match sec.lockInds config hp with
    | [] => none
    | l :: _ =>
      if state.owner array l = none then some ((state.acquire thread array l).goto thread (.checking hp sec array))
      else none
  | .checking hp sec array =>
    if state.table.hashpower = hp then some (state.goto thread (.holding hp sec array 1))
    else some ((state.release array ((sec.lockInds config hp).take 1)).goto thread (.called sec.op))
  | .holding hp sec array taken =>
    match (sec.lockInds config hp)[taken]? with
    | some l =>
      if state.owner array l = none then
        some ((state.acquire thread array l).goto thread (.holding hp sec array (taken + 1)))
      else none
    | none =>
      let (table, pc) := sec.run config hp state.table
      some (({ state with table }.release array (sec.lockInds config hp)).goto thread pc)
  | .choosingAll purpose =>
    some (state.goto thread (.lockingAll purpose state.table.currentLocks state.table.currentLocks 0))
  | .lockingAll purpose firstLocked array next =>
    if next < state.table.locksSize array then
      if state.owner array next = none then
        some ((state.acquire thread array next).goto thread (.lockingAll purpose firstLocked array (next + 1)))
      else none
    else if array < state.table.currentLocks then some (state.goto thread (.lockingAll purpose firstLocked (array + 1) 0))
    else some (purpose.run config state thread firstLocked)
  | .doubling ins firstLocked newHp =>
    some (({ state with table := state.table.finishDouble config newHp }.releaseAll firstLocked).goto thread
      (.called ins.op))

def step (state : State Key T) : Event Key T → Option (State Key T)
  | .call thread op =>
    match state.threads thread with
    | .idle => some (state.goto thread (.called op))
    | _ => none
  | .step thread => state.advance config thread
  | .ret thread _ =>
    match state.threads thread with
    | .returned _ => some (state.goto thread .idle)
    | _ => none

/-- A map constructed with room for `n` elements, before any call. -/
def new (config : Config Key) (n : Nat) : State Key T := { table := .new config n }

end State

/-- The event of a return says what is returned. -/
def Event.Truthful (state : State Key T) : Event Key T → Prop
  | .ret thread outcome => state.threads thread = .returned outcome
  | _ => True

end UavRfDetector.Cuckoo

import Mathlib.Algebra.BigOperators.Group.Finset.Basic
import UavRfDetector.Cuckoo.Bucket

/-! The table of a `cuckoohash_map` and the functions of libcuckoo that work on it
under its locks. What the locks carry besides being locks, a counter and a flag, is
part of the table; who holds them is not. -/

namespace UavRfDetector.Cuckoo

structure Spinlock where
  elemCounter : Int := 0
  isMigrated : Bool := true
deriving DecidableEq, Repr

/-- One `locks_t`. -/
structure Locks where
  size : Nat
  lock : Nat → Spinlock := fun _ => {}

def Locks.modify (locks : Locks) (l : Nat) (change : Spinlock → Spinlock) : Locks :=
  { locks with lock := Function.update locks.lock l (change (locks.lock l)) }

def Locks.map (locks : Locks) (change : Spinlock → Spinlock) : Locks :=
  { locks with lock := fun l => if l < locks.size then change (locks.lock l) else locks.lock l }

structure TablePosition where
  index : Nat
  slot : Nat
deriving DecidableEq, Repr

inductive CuckooStatus where
  | ok
  | failureKeyDuplicated
deriving DecidableEq, Repr

inductive ResizeStatus where
  | ok
  | failureUnderExpansion
deriving DecidableEq, Repr

structure Table (Key T : Type) where
  buckets : BucketContainer Key T
  oldBuckets : BucketContainer Key T
  /-- the sizes of the `all_locks_` before the current one, whose contents are never read again -/
  retiredLocks : List Nat := []
  locks : Locks
  numRemainingLazyRehashLocks : Nat := 0

inductive UpsertContext where
  | newlyInserted
  | alreadyExisted
deriving DecidableEq, Repr

/-- A functor of `uprase_fn`, which may take the context or not. -/
inductive UpraseFn (T : Type) where
  | withContext (fn : T → UpsertContext → T × Bool)
  | withoutContext (fn : T → T × Bool)

/-- The value it leaves, whether to erase it, and the value it was called with if it was. -/
def UpraseFn.invoke {T : Type} : UpraseFn T → T → UpsertContext → (T × Bool) × Option T
  | .withContext fn, mapped, context => (fn mapped context, some mapped)
  | .withoutContext fn, mapped, .alreadyExisted => (fn mapped, some mapped)
  | .withoutContext _, mapped, .newlyInserted => ((mapped, false), none)

inductive TableError where
  | loadFactorTooLow (loadFactor : Rat)
  | maximumHashpowerExceeded (hashpower : Nat)
deriving DecidableEq, Repr

/-- How a call ends: with its result and the value its functor was called with, or
with what it throws. -/
inductive Outcome (T : Type) where
  | returned (result : Bool) (seen : Option T)
  | cleared
  | threw (error : TableError)
deriving DecidableEq, Repr

variable {Key T : Type}

namespace Config

def maxNumLocks (config : Config Key) : Nat := 1 <<< config.maxNumLocksPower

def lockInd (config : Config Key) (bucketInd : Nat) : Nat := bucketInd &&& (config.maxNumLocks - 1)

/-- The search for the smallest power of two that is enough buckets. No `size_type` needs more passes than fuel. -/
def reserveLoop (buckets : Nat) : Nat → Nat → Nat
  | 0, blog2 => blog2
  | fuel + 1, blog2 => if hashsize blog2 < buckets then reserveLoop buckets fuel (blog2 + 1) else blog2

def reserveCalc (config : Config Key) (n : Nat) : Nat :=
  reserveLoop ((n + config.slotPerBucket - 1) % 2 ^ 64 / config.slotPerBucket) 64 0

/-- `load_factor()`, from the size and the capacity. -/
def loadFactor (config : Config Key) (size capacity : Nat) : Rat :=
  config.toDouble (config.toDouble size / config.toDouble capacity)

end Config

namespace Table

def hashpower (table : Table Key T) : Nat := table.buckets.hashpower

/-- The constructor with room for `n` elements. -/
def new (config : Config Key) (n : Nat) : Table Key T where
  buckets := { hashpower := config.reserveCalc n }
  oldBuckets := { hashpower := 0 }
  locks := { size := min (hashsize (config.reserveCalc n)) config.maxNumLocks }

/-- What `size()` gets when no other call is under way; it takes no lock. -/
def size (table : Table Key T) : Nat := (∑ l ∈ Finset.range table.locks.size, (table.locks.lock l).elemCounter).toNat

def capacity (config : Config Key) (table : Table Key T) : Nat := table.buckets.size * config.slotPerBucket

def entryAt (table : Table Key T) (pos : TablePosition) : Option (Entry Key T) := table.buckets.buckets pos.index pos.slot

def write (table : Table Key T) (pos : TablePosition) (value : Option (Entry Key T)) : Table Key T :=
  { table with buckets := table.buckets.write pos.index pos.slot value }

def count (config : Config Key) (table : Table Key T) (bucketInd : Nat) (change : Int) : Table Key T :=
  { table with locks := table.locks.modify (config.lockInd bucketInd) fun lock =>
      { lock with elemCounter := lock.elemCounter + change } }

def addToBucket (config : Config Key) (table : Table Key T) (pos : TablePosition) (partialKey : UInt8) (key : Key)
    (val : T) : Table Key T :=
  (table.write pos (some ⟨partialKey, key, val⟩)).count config pos.index 1

def delFromBucket (config : Config Key) (table : Table Key T) (pos : TablePosition) : Table Key T :=
  (table.write pos none).count config pos.index (-1)

/-- Setting the number to zero gives the old buckets back. -/
def setNumRemaining (table : Table Key T) (n : Nat) : Table Key T :=
  { table with
    numRemainingLazyRehashLocks := n
    oldBuckets := if n = 0 then table.oldBuckets.clearAndDeallocate else table.oldBuckets }

section Searching
variable [DecidableEq Key] (config : Config Key) (table : Table Key T)

def cuckooFind (key : Key) (partialKey : UInt8) (i1 i2 : Nat) : Option TablePosition :=
  match config.tryReadFromBucket (table.buckets.buckets i1) partialKey key with
  | some slot => some ⟨i1, slot⟩
  | none =>
    match config.tryReadFromBucket (table.buckets.buckets i2) partialKey key with
    | some slot => some ⟨i2, slot⟩
    | none => none

/-- `cuckoo_insert` up to the point where both buckets are full and it has to
perform cuckoo hashing. -/
def cuckooInsert (partialKey : UInt8) (i1 i2 : Nat) (key : Key) : Option (TablePosition × CuckooStatus) :=
  match config.tryFindInsertBucket (table.buckets.buckets i1) partialKey key with
  | .error slot => some (⟨i1, slot⟩, .failureKeyDuplicated)
  | .ok res1 =>
    match config.tryFindInsertBucket (table.buckets.buckets i2) partialKey key with
    | .error slot => some (⟨i2, slot⟩, .failureKeyDuplicated)
    | .ok res2 =>
      match res1, res2 with
      | some slot, _ => some (⟨i1, slot⟩, .ok)
      | none, some slot => some (⟨i2, slot⟩, .ok)
      | none, none => none

/-- The rest of `cuckoo_insert` after `run_cuckoo` has freed a slot: the key may have been
inserted meanwhile. -/
def cuckooInsertFreed (partialKey : UInt8) (i1 i2 : Nat) (key : Key) (freed : TablePosition) :
    TablePosition × CuckooStatus :=
  match table.cuckooFind config key partialKey i1 i2 with
  | some pos => (pos, .failureKeyDuplicated)
  | none => (freed, .ok)

/-- What a functor leaves of the value at an occupied position. -/
def leave (pos : TablePosition) (entry : Entry Key T) (left : T × Bool) : Table Key T :=
  let table := table.write pos (some { entry with mapped := left.1 })
  if left.2 then table.delFromBucket config pos else table

/-- What `find_fn`, `update_fn` and `erase_fn` do under their locks. The functor is
given the value; it leaves a value and says whether to erase it. -/
def onFound (key : Key) (partialKey : UInt8) (i1 i2 : Nat) (fn : T → T × Bool) : Table Key T × Outcome T :=
  match table.cuckooFind config key partialKey i1 i2 with
  | none => (table, .returned false none)
  | some pos =>
    match table.entryAt pos with
    -- a position that was found is occupied
    | none => (table, .returned true none)
    | some entry => (table.leave config pos entry (fn entry.mapped), .returned true (some entry.mapped))

/-- The part of `uprase_fn` after `cuckoo_insert_loop`. -/
def upraseAt (partialKey : UInt8) (key : Key) (fn : UpraseFn T) (val : T) (pos : TablePosition)
    (status : CuckooStatus) : Table Key T × Outcome T :=
  let (table, context) :=
    match status with
    | .ok => (table.addToBucket config pos partialKey key val, UpsertContext.newlyInserted)
    | .failureKeyDuplicated => (table, .alreadyExisted)
  match table.entryAt pos with
  -- the position is that of the key, inserted or duplicated
  | none => (table, .returned (status = .ok) none)
  | some entry =>
    let (left, seen) := fn.invoke entry.mapped context
    (table.leave config pos entry left, .returned (status = .ok) seen)

end Searching

end Table

section Rehashing
variable (config : Config Key)

namespace Config

/-- One pass of the loop of `move_bucket`, over the new buckets and the first slot not
yet used in the upper of the two. -/
def moveSlot (old : BucketContainer Key T) (oldBucketInd : Nat) (moved : BucketContainer Key T × Nat)
    (oldBucketSlot : Nat) : BucketContainer Key T × Nat :=
  let (newBuckets, newBucketSlot) := moved
  match old.buckets oldBucketInd oldBucketSlot with
  | none => (newBuckets, newBucketSlot)
  | some entry =>
    if MovesUp old.hashpower newBuckets.hashpower (config.hashedKey entry.key) oldBucketInd then
      (newBuckets.setKV (oldBucketInd + hashsize old.hashpower) newBucketSlot entry.partialKey entry.key entry.mapped,
        newBucketSlot + 1)
    else
      (newBuckets.setKV oldBucketInd oldBucketSlot entry.partialKey entry.key entry.mapped, newBucketSlot)

/-- What it leaves behind in the old bucket is not read again. -/
def moveBucket (old newBuckets : BucketContainer Key T) (oldBucketInd : Nat) : BucketContainer Key T :=
  ((List.range config.slotPerBucket).foldl (config.moveSlot old oldBucketInd) (newBuckets, 0)).1

/-- The old buckets of a lock, `for (bucket_ind = l; bucket_ind < size; bucket_ind += kMaxNumLocks)`. -/
def bucketsOfLock (size l : Nat) : List Nat :=
  List.range' l ((size - l + config.maxNumLocks - 1) / config.maxNumLocks) config.maxNumLocks

end Config

namespace Table

def decrementNumRemaining (table : Table Key T) : Table Key T :=
  { table with
    numRemainingLazyRehashLocks := table.numRemainingLazyRehashLocks - 1
    oldBuckets :=
      if table.numRemainingLazyRehashLocks = 1 then table.oldBuckets.clearAndDeallocate else table.oldBuckets }

def rehashLock (isLazy : Bool) (table : Table Key T) (l : Nat) : Table Key T :=
  if (table.locks.lock l).isMigrated then table
  else
    let table := { table with
      buckets := (config.bucketsOfLock table.oldBuckets.size l).foldl (config.moveBucket table.oldBuckets) table.buckets
      locks := table.locks.modify l fun lock => { lock with isMigrated := true } }
    if isLazy then table.decrementNumRemaining else table

/-- What is left to rehash, when all locks are held. -/
def rehashAll (table : Table Key T) : Table Key T :=
  ((List.range table.locks.size).foldl (rehashLock config false) table).setNumRemaining 0

def checkResizeValidity (automaticResize : Bool) (table : Table Key T) (origHp newHp : Nat) :
    Except TableError ResizeStatus :=
  if config.maximumHashpower.any (· < newHp) then .error (.maximumHashpowerExceeded newHp)
  else if automaticResize && config.loadFactor table.size (table.capacity config) < config.minimumLoadFactor then
    .error (.loadFactorTooLow config.minimumLoadFactor)
  else .ok (if table.hashpower = origHp then .ok else .failureUnderExpansion)

def maybeResizeLocks (table : Table Key T) (newBucketCount : Nat) : Table Key T :=
  if table.locks.size < config.maxNumLocks ∧ table.locks.size < newBucketCount then
    { table with
      retiredLocks := table.retiredLocks ++ [table.locks.size]
      locks :=
        { size := min config.maxNumLocks newBucketCount
          lock := fun l => if l < table.locks.size then table.locks.lock l else {} } }
  else table

/-- `cuckoo_fast_double` from its check to the point where the new lock array is in place. -/
def prepareDouble (table : Table Key T) (newHp : Nat) : Table Key T :=
  (table.rehashAll config).maybeResizeLocks config (hashsize newHp)

/-- The rest of `cuckoo_fast_double`, from the swap of the buckets on. -/
def finishDouble (table : Table Key T) (newHp : Nat) : Table Key T :=
  let doubled := { table with oldBuckets := table.buckets, buckets := { hashpower := newHp } }
  if doubled.oldBuckets.size < config.maxNumLocks then
    let buckets := (List.range doubled.oldBuckets.size).foldl (config.moveBucket doubled.oldBuckets) doubled.buckets
    { doubled with buckets }.setNumRemaining 0
  else
    let locks := doubled.locks.map fun lock => { lock with isMigrated := false }
    { doubled with locks }.setNumRemaining locks.size

def cuckooClear (table : Table Key T) : Table Key T :=
  let cleared := { table with buckets := table.buckets.clear }.setNumRemaining 0
  { cleared with locks := cleared.locks.map fun _ => { elemCounter := 0, isMigrated := true } }

end Table

end Rehashing

end UavRfDetector.Cuckoo

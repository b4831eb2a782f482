import Mathlib.Logic.Function.Basic
import UavRfDetector.Cuckoo.Hashing

/-! The buckets of libcuckoo: `bucket_container` and the two searches through one
bucket. A slot that is not occupied holds `none`. -/

namespace UavRfDetector.Cuckoo

/-- The template and run-time parameters of a map. Its keys and values are moved without
throwing: `cuckoo_fast_double` leaves a map of others to `cuckoo_expand_simple`, which
is another algorithm. -/
structure Config (Key : Type) where
  hashFunction : Key → UInt64
  slotPerBucket : Nat
  slotPerBucket_pos : 0 < slotPerBucket
  isSimple : Bool
  /-- `kMaxNumLocks` is two to this power, which is 16 in the source -/
  maxNumLocksPower : Nat
  /-- the double that is nearest to a number -/
  toDouble : Rat → Rat
  minimumLoadFactor : Rat
  /-- `none` is `NO_MAXIMUM_HASHPOWER` -/
  maximumHashpower : Option Nat

/-- Buckets with one slot, to run the model with. -/
def oneSlot (maxNumLocksPower most : Nat) (minimumLoadFactor : Rat) : Config Nat where
  hashFunction key := UInt64.ofNat key
  slotPerBucket := 1
  slotPerBucket_pos := Nat.one_pos
  isSimple := true
  maxNumLocksPower
  toDouble := id
  minimumLoadFactor
  maximumHashpower := some most

structure Entry (Key T : Type) where
  partialKey : UInt8
  key : Key
  mapped : T
deriving DecidableEq, Repr

abbrev Bucket (Key T : Type) := Nat → Option (Entry Key T)

structure BucketContainer (Key T : Type) where
  hashpower : Nat
  buckets : Nat → Bucket Key T := fun _ _ => none
  isDeallocated : Bool := false

variable {Key T : Type}

namespace BucketContainer

def size (container : BucketContainer Key T) : Nat := hashsize container.hashpower

def write (container : BucketContainer Key T) (ind slot : Nat) (value : Option (Entry Key T)) : BucketContainer Key T :=
  { container with buckets :=
      Function.update container.buckets ind (Function.update (container.buckets ind) slot value) }

def setKV (container : BucketContainer Key T) (ind slot : Nat) (p : UInt8) (k : Key) (v : T) : BucketContainer Key T :=
  container.write ind slot (some ⟨p, k, v⟩)

def clear (container : BucketContainer Key T) : BucketContainer Key T :=
  { container with buckets := fun _ _ => none }

def clearAndDeallocate (container : BucketContainer Key T) : BucketContainer Key T :=
  { container.clear with isDeallocated := true }

theorem write_buckets (container : BucketContainer Key T) (ind slot : Nat) (value : Option (Entry Key T))
    (i j : Nat) : (container.write ind slot value).buckets i j =
      if i = ind ∧ j = slot then value else container.buckets i j := by
  unfold write
  by_cases same : i = ind
  · subst same
    by_cases slots : j = slot
    · simp [slots]
    · simp [slots]
  · simp [same]

end BucketContainer

namespace Config

def hashedKey (config : Config Key) (key : Key) : HashValue :=
  ⟨config.hashFunction key, partialKey (config.hashFunction key)⟩

variable [DecidableEq Key]

/-- The comparison of a slot with a key, by the partial key first unless the key is simple. -/
def matchesKey (config : Config Key) (partialKey : UInt8) (key : Key) (entry : Entry Key T) : Bool :=
  (config.isSimple || partialKey == entry.partialKey) && entry.key == key

def tryReadFromBucket (config : Config Key) (b : Bucket Key T) (partialKey : UInt8) (key : Key) : Option Nat :=
  (List.range config.slotPerBucket).find? fun i => (b i).any (config.matchesKey partialKey key)

/-- One pass of the loop of `try_find_insert_bucket`, which a duplicate leaves at once. -/
def findInsertSlot (config : Config Key) (b : Bucket Key T) (partialKey : UInt8) (key : Key) (slot : Option Nat)
    (i : Nat) : Except Nat (Option Nat) :=
  match b i with
  | some entry => if config.matchesKey partialKey key entry then .error i else .ok slot
  | none => .ok (some i)

/-- `.error` is the slot of a duplicate; otherwise the last empty slot. -/
def tryFindInsertBucket (config : Config Key) (b : Bucket Key T) (partialKey : UInt8) (key : Key) :
    Except Nat (Option Nat) :=
  (List.range config.slotPerBucket).foldlM (config.findInsertSlot b partialKey key) none

end Config

end UavRfDetector.Cuckoo

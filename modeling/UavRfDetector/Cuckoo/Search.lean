import UavRfDetector.Cuckoo.Table

/-! Looking for a cuckoo path. The search goes through the buckets one lock at a time,
so that each function here works on one bucket and says what to look at next. -/

namespace UavRfDetector.Cuckoo

variable {Key T : Type}

def maxBfsPathLen : Nat := 5

/-- One position in a cuckoo path, with the hash value of the key to be moved from it. -/
structure CuckooRecord where
  bucket : Nat
  slot : Nat
  hv : HashValue
deriving DecidableEq, Repr

structure BSlot where
  bucket : Nat
  pathcode : UInt16
  depth : Nat
deriving DecidableEq, Repr

/-- `slots` is what of the array has been written, up to `last_`. -/
structure BQueue where
  slots : List BSlot := []
  first : Nat := 0
deriving DecidableEq, Repr

namespace BQueue

def enqueue (q : BQueue) (x : BSlot) : BQueue := { q with slots := q.slots ++ [x] }

def dequeue (q : BQueue) : Option (BSlot × BQueue) :=
  q.slots[q.first]?.map fun x => (x, { q with first := q.first + 1 })

/-- The queue `slot_search` starts with. -/
def start (i1 i2 : Nat) : BQueue := (({} : BQueue).enqueue ⟨i1, 0, 0⟩).enqueue ⟨i2, 1, 0⟩

end BQueue

namespace Config
variable (config : Config Key)

/-- The length of the array of a `b_queue`. -/
def maxCuckooCount : Nat :=
  2 * (if config.slotPerBucket = 1 then maxBfsPathLen
    else (config.slotPerBucket ^ maxBfsPathLen - 1) / (config.slotPerBucket - 1))

def extendPathcode (pathcode : UInt16) (slot : Nat) : UInt16 :=
  pathcode * UInt16.ofNat config.slotPerBucket + UInt16.ofNat slot

/-- The slot `slot_search` looks at in its pass `i` over a bucket. -/
def searchedSlot (x : BSlot) (i : Nat) : Nat :=
  (x.pathcode.toNat % config.slotPerBucket + i) % config.slotPerBucket

/-- One pass of the inner loop of `slot_search`, which an empty slot ends. -/
def searchSlot (hp : Nat) (b : Bucket Key T) (x : BSlot) (q : BQueue) (i : Nat) : Except BSlot BQueue :=
  match b (config.searchedSlot x i) with
  | none => .error { x with pathcode := config.extendPathcode x.pathcode (config.searchedSlot x i) }
  | some entry =>
    if x.depth < maxBfsPathLen - 1 then
      .ok (q.enqueue
        ⟨altIndex hp entry.partialKey x.bucket, config.extendPathcode x.pathcode (config.searchedSlot x i), x.depth + 1⟩)
    else .ok q

/-- `.error` is where the search ends; otherwise it goes on with the queue. -/
def searchBucket (hp : Nat) (b : Bucket Key T) (x : BSlot) (q : BQueue) : Except BSlot BQueue :=
  (List.range config.slotPerBucket).foldlM (config.searchSlot hp b x) q

/-- The slots of a path from its code, and what is left of the code. -/
def decodeSlots : Nat → Nat → List Nat × Nat
  | 0, pathcode => ([], pathcode)
  | count + 1, pathcode =>
    let (slots, rest) := decodeSlots count (pathcode / config.slotPerBucket)
    (slots ++ [pathcode % config.slotPerBucket], rest)

/-- Where the path of a search that ended starts, and its slots. -/
def decodePath (x : BSlot) (i1 i2 : Nat) : Nat × List Nat :=
  let (slots, pathcode) := config.decodeSlots (x.depth + 1) x.pathcode.toNat
  (if pathcode = 0 then i1 else i2, slots)

end Config

/-- One turn of the loop of `cuckoopath_move`. Between the search and the move anything
may have happened to the two slots. -/
def Table.moveAlong (config : Config Key) (table : Table Key T) (source : CuckooRecord) (target : TablePosition) :
    Option (Table Key T) :=
  match table.entryAt target, table.entryAt ⟨source.bucket, source.slot⟩ with
  | none, some entry =>
    if config.hashFunction entry.key = source.hv.hash then
      some ((table.write target (some entry)).write ⟨source.bucket, source.slot⟩ none)
    else none
  | _, _ => none

end UavRfDetector.Cuckoo

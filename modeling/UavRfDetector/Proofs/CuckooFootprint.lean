import UavRfDetector.Footprint
import UavRfDetector.Proofs.CuckooInvariant

/-! What a thread with its locks taken can tell of the table: the buckets under these
locks, and the size. What it does depends on nothing else. -/

namespace UavRfDetector.Cuckoo
open Footprint

variable {Key T : Type} {config : Config Key} {held : Nat → Prop} {table table' after after' : Table Key T}

variable (config held) in
/-- Two tables that a thread with these locks cannot tell apart. -/
structure Agrees (table table' : Table Key T) : Prop where
  hashpower : table.hashpower = table'.hashpower
  oldHashpower : table.oldBuckets.hashpower = table'.oldBuckets.hashpower
  lock : ∀ l, held l → table.locks.lock l = table'.locks.lock l
  bucket : ∀ ind, held (config.lockInd ind) → table.buckets.buckets ind = table'.buckets.buckets ind
  oldBucket : ∀ ind, held (config.lockInd ind) → table.migrated config ind = false →
    table.oldBuckets.buckets ind = table'.oldBuckets.buckets ind

namespace Agrees

theorem refl (table : Table Key T) : Agrees config held table table :=
  ⟨rfl, rfl, fun _ _ => rfl, fun _ _ => rfl, fun _ _ _ => rfl⟩

theorem migrated (agrees : Agrees config held table table') {ind : Nat} (mine : held (config.lockInd ind)) :
    table.migrated config ind = table'.migrated config ind := by
  rw [Table.migrated, Table.migrated, agrees.lock _ mine]

theorem symm (agrees : Agrees config held table table') : Agrees config held table' table := by
  refine ⟨agrees.hashpower.symm, agrees.oldHashpower.symm, fun l mine => (agrees.lock l mine).symm,
    fun ind mine => (agrees.bucket ind mine).symm, ?_⟩
  intro ind mine waits
  rw [← agrees.migrated mine] at waits
  exact (agrees.oldBucket ind mine waits).symm

theorem trans (first : Agrees config held table table') (second : Agrees config held table' after) :
    Agrees config held table after := by
  refine ⟨first.hashpower.trans second.hashpower, first.oldHashpower.trans second.oldHashpower,
    fun l mine => (first.lock l mine).trans (second.lock l mine),
    fun ind mine => (first.bucket ind mine).trans (second.bucket ind mine), ?_⟩
  intro ind mine waits
  have waits' : table'.migrated config ind = false := (first.migrated mine).symm.trans waits
  exact (first.oldBucket ind mine waits).trans (second.oldBucket ind mine waits')

theorem entryAt (agrees : Agrees config held table table') {pos : TablePosition} (mine : held (config.lockInd pos.index)) :
    table.entryAt pos = table'.entryAt pos := by
  rw [Table.entryAt, Table.entryAt, agrees.bucket _ mine]

theorem write (agrees : Agrees config held table table') (pos : TablePosition) (value : Option (Entry Key T)) :
    Agrees config held (table.write pos value) (table'.write pos value) := by
  refine ⟨agrees.hashpower, agrees.oldHashpower, agrees.lock, ?_, agrees.oldBucket⟩
  intro ind mine
  funext slot
  rw [Table.write_other, Table.write_other, agrees.bucket ind mine]

theorem count (agrees : Agrees config held table table') (ind : Nat) (change : Int) :
    Agrees config held (table.count config ind change) (table'.count config ind change) := by
  refine ⟨agrees.hashpower, agrees.oldHashpower, ?_, agrees.bucket, ?_⟩
  · intro l mine
    by_cases same : l = config.lockInd ind
    · subst same
      simp only [Table.count, Locks.modify, Function.update_self, agrees.lock _ mine]
    · simp only [Table.count, Locks.modify, Function.update_of_ne same, agrees.lock _ mine]
  · intro ind' mine waits
    rw [Table.count_migrated] at waits
    exact agrees.oldBucket ind' mine waits

theorem moveAlong (agrees : Agrees config held table table') {source : CuckooRecord} {target : TablePosition}
    (mine : held (config.lockInd source.bucket)) (other : held (config.lockInd target.index)) :
    table.moveAlong config source target = none ∧ table'.moveAlong config source target = none ∨
      ∃ entry, table.moveAlong config source target =
          some ((table.write target (some entry)).write ⟨source.bucket, source.slot⟩ none) ∧
        table'.moveAlong config source target =
          some ((table'.write target (some entry)).write ⟨source.bucket, source.slot⟩ none) := by
  have here : table.entryAt ⟨source.bucket, source.slot⟩ = table'.entryAt ⟨source.bucket, source.slot⟩ :=
    agrees.entryAt mine
  rw [Table.moveAlong, Table.moveAlong, agrees.entryAt other, here]
  split
  next entry _ _ =>
    split
    next => exact Or.inr ⟨entry, rfl, rfl⟩
    next => exact Or.inl ⟨rfl, rfl⟩
  next => exact Or.inl ⟨rfl, rfl⟩

variable [DecidableEq Key] {i1 i2 : Nat}

theorem cuckooFind (agrees : Agrees config held table table') (first : held (config.lockInd i1))
    (second : held (config.lockInd i2)) (key : Key) (partialKey : UInt8) :
    table.cuckooFind config key partialKey i1 i2 = table'.cuckooFind config key partialKey i1 i2 := by
  rw [Table.cuckooFind, Table.cuckooFind, agrees.bucket i1 first, agrees.bucket i2 second]

theorem cuckooInsert (agrees : Agrees config held table table') (first : held (config.lockInd i1))
    (second : held (config.lockInd i2)) (key : Key) (partialKey : UInt8) :
    table.cuckooInsert config partialKey i1 i2 key = table'.cuckooInsert config partialKey i1 i2 key := by
  rw [Table.cuckooInsert, Table.cuckooInsert, agrees.bucket i1 first, agrees.bucket i2 second]

end Agrees

theorem Table.find_index [DecidableEq Key] {key : Key} {partialKey : UInt8} {i1 i2 : Nat} {pos : TablePosition}
    (found : table.cuckooFind config key partialKey i1 i2 = some pos) : pos.index = i1 ∨ pos.index = i2 := by
  rw [Table.cuckooFind] at found
  split at found
  next =>
    cases found
    exact Or.inl rfl
  next =>
    split at found
    next =>
      cases found
      exact Or.inr rfl
    next => cases found

theorem Table.insert_index [DecidableEq Key] {key : Key} {partialKey : UInt8} {i1 i2 : Nat} {pos : TablePosition}
    {status : CuckooStatus} (found : table.cuckooInsert config partialKey i1 i2 key = some (pos, status)) :
    pos.index = i1 ∨ pos.index = i2 := by
  rw [Table.cuckooInsert] at found
  split at found
  next =>
    cases found
    exact Or.inl rfl
  next =>
    split at found
    next =>
      cases found
      exact Or.inr rfl
    next =>
      split at found
      next =>
        cases found
        exact Or.inl rfl
      next =>
        cases found
        exact Or.inr rfl
      next => cases found

/-! Rehashing a lock, which reads and writes only what is under it. -/

section Rehashing
variable {old old' new new' : BucketContainer Key T} {mine : Nat → Prop}

/-- Buckets that are the same where it matters. -/
structure SameAt (mine : Nat → Prop) (new new' : BucketContainer Key T) : Prop where
  hashpower : new.hashpower = new'.hashpower
  bucket : ∀ ind, mine ind → new.buckets ind = new'.buckets ind

theorem SameAt.setKV (same : SameAt mine new new') (ind slot : Nat) (p : UInt8) (k : Key) (v : T) :
    SameAt mine (new.setKV ind slot p k v) (new'.setKV ind slot p k v) := by
  refine ⟨same.hashpower, ?_⟩
  intro j own
  funext slot'
  rw [BucketContainer.setKV, BucketContainer.setKV, BucketContainer.write_buckets, BucketContainer.write_buckets,
    same.bucket j own]

theorem SameAt.moveBucket (same : SameAt mine new new') (power : old.hashpower = old'.hashpower) {ind : Nat}
    (row : old.buckets ind = old'.buckets ind) :
    SameAt mine (config.moveBucket old new ind) (config.moveBucket old' new' ind) := by
  have slots : ∀ (slots : List Nat) (next : Nat) {new new' : BucketContainer Key T}, SameAt mine new new' →
      SameAt mine (slots.foldl (config.moveSlot old ind) (new, next)).1
        (slots.foldl (config.moveSlot old' ind) (new', next)).1 := by
    intro slots
    induction slots with
    | nil => exact fun _ _ _ same => same
    | cons slot slots ih =>
      intro next new new' same
      rw [List.foldl_cons, List.foldl_cons, Config.moveSlot, Config.moveSlot, row, power, same.hashpower]
      split
      next => exact ih _ same
      next entry _ =>
        split
        next => exact ih _ (same.setKV _ _ _ _ _)
        next => exact ih _ (same.setKV _ _ _ _ _)
  exact slots _ 0 same

theorem SameAt.moveBuckets (same : SameAt mine new new') (power : old.hashpower = old'.hashpower) {inds : List Nat}
    (rows : ∀ ind ∈ inds, old.buckets ind = old'.buckets ind) :
    SameAt mine (inds.foldl (config.moveBucket old) new) (inds.foldl (config.moveBucket old') new') := by
  induction inds generalizing new new' with
  | nil => exact same
  | cons ind inds ih =>
    rw [List.foldl_cons, List.foldl_cons]
    apply ih
    · exact same.moveBucket power (rows ind List.mem_cons_self)
    · intro other member
      exact rows other (List.mem_cons_of_mem _ member)

end Rehashing

/-- The old buckets go with the last lock that needs them, and not before. -/
structure Retires (table after : Table Key T) : Prop where
  hashpower : after.oldBuckets.hashpower = table.oldBuckets.hashpower
  fewer : after.numRemainingLazyRehashLocks ≤ table.numRemainingLazyRehashLocks
  old : after.oldBuckets =
    if after.numRemainingLazyRehashLocks = 0 ∧ table.numRemainingLazyRehashLocks ≠ 0 then
      table.oldBuckets.clearAndDeallocate
    else table.oldBuckets

namespace Retires

theorem unchanged (old : after.oldBuckets = table.oldBuckets)
    (remaining : after.numRemainingLazyRehashLocks = table.numRemainingLazyRehashLocks) : Retires table after := by
  refine ⟨congrArg BucketContainer.hashpower old, remaining.le, ?_⟩
  rw [old, remaining, if_neg]
  rintro ⟨none, some⟩
  exact some none

theorem trans {middle : Table Key T} (first : Retires table middle) (second : Retires middle after) :
    Retires table after := by
  refine ⟨second.hashpower.trans first.hashpower, second.fewer.trans first.fewer, ?_⟩
  have fewer := second.fewer
  have fewer' := first.fewer
  rw [second.old, first.old]
  by_cases none : middle.numRemainingLazyRehashLocks = 0
  · have last : after.numRemainingLazyRehashLocks = 0 := by omega
    simp only [none, last, ne_eq, not_true_eq_false, and_false, if_false, true_and]
  · have some : table.numRemainingLazyRehashLocks ≠ 0 := by omega
    simp only [none, some, if_false, ne_eq, not_false_eq_true, and_true]

theorem rehashLock (table : Table Key T) (l : Nat) : Retires table (table.rehashLock config true l) := by
  cases waits : (table.locks.lock l).isMigrated with
  | true =>
    rw [rehashLock_migrated waits]
    exact .unchanged rfl rfl
  | false =>
    rw [rehashLock_unmigrated waits, if_pos rfl, Table.decrementNumRemaining]
    have same : (table.migrate config l).numRemainingLazyRehashLocks = table.numRemainingLazyRehashLocks := rfl
    rw [same]
    refine ⟨?_, Nat.sub_le _ _, ?_⟩
    · dsimp only
      split
      next => rfl
      next => rfl
    · dsimp only
      by_cases one : table.numRemainingLazyRehashLocks = 1
      · rw [if_pos one, if_pos (by omega)]
        rfl
      · rw [if_neg one, if_neg (by omega)]
        rfl

theorem rehashLocks (table : Table Key T) (ls : List Nat) :
    Retires table (ls.foldl (Table.rehashLock config true) table) := by
  induction ls generalizing table with
  | nil => exact .unchanged rfl rfl
  | cons l ls ih => exact (rehashLock table l).trans (ih _)

/-- An old bucket that is still needed is as it was. -/
theorem bucket (retires : Retires table after) (placed : Placed config after) {ind : Nat}
    (waits : after.migrated config ind = false) : after.oldBuckets.buckets ind = table.oldBuckets.buckets ind := by
  obtain ⟨_, _, _, allocated⟩ := placed.pending _ waits
  have old := retires.old
  split at old
  next =>
    rw [old] at allocated
    cases allocated
  next => rw [old]

end Retires

theorem bucketsOfLock_lockInd {size l ind : Nat} (small : l < config.maxNumLocks) (member : ind ∈ config.bucketsOfLock size l) :
    config.lockInd ind = l := by
  obtain ⟨round, _, rfl⟩ := List.mem_range'.mp member
  rw [config.lockInd_eq, Nat.add_mul_mod_self_left, Nat.mod_eq_of_lt small]

theorem Agrees.rehashLock (agrees : Agrees config held table table') {l : Nat} (mine : held l) (valid : Valid config table)
    (valid' : Valid config table') :
    Agrees config held (table.rehashLock config true l) (table'.rehashLock config true l) := by
  obtain ⟨placed, _, _⟩ := valid.rehashLock l
  obtain ⟨placed', _, _⟩ := valid'.rehashLock l
  have retires : Retires table (table.rehashLock config true l) := .rehashLock table l
  have retires' : Retires table' (table'.rehashLock config true l) := .rehashLock table' l
  cases waits : (table.locks.lock l).isMigrated with
  | true =>
    have waits' : (table'.locks.lock l).isMigrated = true := by
      rw [← agrees.lock l mine]
      exact waits
    rw [rehashLock_migrated waits, rehashLock_migrated waits']
    exact agrees
  | false =>
    have waits' : (table'.locks.lock l).isMigrated = false := by
      rw [← agrees.lock l mine]
      exact waits
    have small : l < config.maxNumLocks := Nat.lt_of_lt_of_le (valid.pending l waits).1 valid.locks_le
    have size : table.oldBuckets.size = table'.oldBuckets.size := congrArg hashsize agrees.oldHashpower
    have rows : SameAt (fun ind => held (config.lockInd ind)) table.buckets table'.buckets :=
      ⟨agrees.hashpower, agrees.bucket⟩
    have moved : SameAt (fun ind => held (config.lockInd ind)) (table.migrate config l).buckets
        (table'.migrate config l).buckets := by
      rw [Table.migrate, Table.migrate, ← size]
      apply rows.moveBuckets agrees.oldHashpower
      intro ind member
      have own := bucketsOfLock_lockInd small member
      apply agrees.oldBucket ind
      · rw [own]
        exact mine
      · rw [Table.migrated, own]
        exact waits
    have locks : ∀ l', held l' → (table.migrate config l).locks.lock l' = (table'.migrate config l).locks.lock l' := by
      intro l' own
      by_cases same : l' = l
      · subst same
        simp only [Table.migrate, Locks.modify, Function.update_self, agrees.lock _ mine]
      · simp only [Table.migrate, Locks.modify, Function.update_of_ne same, agrees.lock _ own]
    rw [rehashLock_unmigrated waits, if_pos rfl] at placed retires ⊢
    rw [rehashLock_unmigrated waits', if_pos rfl] at placed' retires' ⊢
    refine ⟨moved.hashpower, ?_, locks, moved.bucket, ?_⟩
    · exact (retires.hashpower.trans agrees.oldHashpower).trans retires'.hashpower.symm
    · intro ind own later
      have later' : (table'.migrate config l).decrementNumRemaining.migrated config ind = false := by
        have same := locks _ own
        change ((table.migrate config l).locks.lock (config.lockInd ind)).isMigrated = false at later
        change ((table'.migrate config l).locks.lock (config.lockInd ind)).isMigrated = false
        rw [← same]
        exact later
      have before : table.migrated config ind = false := by
        change (table.migrate config l).migrated config ind = false at later
        rw [Table.migrate_migrated, Bool.or_eq_false_iff] at later
        exact later.2
      rw [retires.bucket placed.toPlaced later, retires'.bucket placed'.toPlaced later']
      exact agrees.oldBucket ind own before

theorem Agrees.rehashLocks (agrees : Agrees config held table table') (valid : Valid config table)
    (valid' : Valid config table') {ls : List Nat} (mine : ∀ l ∈ ls, held l) :
    Agrees config held (ls.foldl (Table.rehashLock config true) table) (ls.foldl (Table.rehashLock config true) table') := by
  induction ls generalizing table table' with
  | nil => exact agrees
  | cons l ls ih =>
    have next := agrees.rehashLock (mine l List.mem_cons_self) valid valid'
    apply ih next (valid.rehashLock l).1 (valid'.rehashLock l).1
    intro other member
    exact mine other (List.mem_cons_of_mem _ member)

attribute [ext] Table BucketContainer Locks

variable (config held table) in
/-- The same done to two tables: what is left of them and what comes of it. -/
structure Likewise {α : Type} (result result' : Table Key T × α) : Prop where
  agrees : Agrees config held result.1 result'.1
  same : result.2 = result'.2
  old : result.1.oldBuckets = table.oldBuckets
  remaining : result.1.numRemainingLazyRehashLocks = table.numRemainingLazyRehashLocks

theorem Agrees.likewise {α : Type} (agrees : Agrees config held table table') (value : α) :
    Likewise config held table (table, value) (table', value) :=
  ⟨agrees, rfl, rfl, rfl⟩

theorem Agrees.leave {α : Type} (agrees : Agrees config held after after') (old : after.oldBuckets = table.oldBuckets)
    (remaining : after.numRemainingLazyRehashLocks = table.numRemainingLazyRehashLocks) (pos : TablePosition)
    (entry : Entry Key T) (fate : T × Bool) (value : α) :
    Likewise config held table (after.leave config pos entry fate, value) (after'.leave config pos entry fate, value) := by
  rw [Table.leave, Table.leave]
  cases fate.2 with
  | false => exact ⟨agrees.write _ _, rfl, old, remaining⟩
  | true => exact ⟨((agrees.write _ _).write _ _).count _ _, rfl, old, remaining⟩

theorem Agrees.upraseAt (agrees : Agrees config held table table') {pos : TablePosition}
    (mine : held (config.lockInd pos.index)) (partialKey : UInt8) (key : Key) (fn : UpraseFn T) (val : T)
    (status : CuckooStatus) :
    Likewise config held table (table.upraseAt config partialKey key fn val pos status)
      (table'.upraseAt config partialKey key fn val pos status) := by
  cases status with
  | ok =>
    have added : Agrees config held (table.addToBucket config pos partialKey key val)
        (table'.addToBucket config pos partialKey key val) := (agrees.write _ _).count _ _
    have old : (table.addToBucket config pos partialKey key val).oldBuckets = table.oldBuckets := rfl
    simp only [Table.upraseAt]
    rw [← added.entryAt mine]
    split
    next => exact ⟨added, rfl, old, rfl⟩
    next entry _ => exact added.leave old rfl pos entry _ _
  | failureKeyDuplicated =>
    simp only [Table.upraseAt]
    rw [← agrees.entryAt mine]
    split
    next => exact agrees.likewise _
    next entry _ => exact agrees.leave rfl rfl pos entry _ _

theorem Agrees.finish (agrees : Agrees config held table table') {ins : Insertion Key T} {pos : TablePosition}
    (mine : held (config.lockInd pos.index)) (status : CuckooStatus) :
    Likewise config held table (Section.finish config table ins pos status) (Section.finish config table' ins pos status) := by
  have likewise := agrees.upraseAt mine (config.hashedKey ins.key).partialKey ins.key ins.fn ins.val status
  exact ⟨likewise.agrees, congrArg Pc.returned likewise.same, likewise.old, likewise.remaining⟩

theorem lock_one {i1 i2 index : Nat} (first : held (config.lockInd i1)) (second : held (config.lockInd i2))
    (one : index = i1 ∨ index = i2) : held (config.lockInd index) := by
  rcases one with same | same
  · rw [same]
    exact first
  · rw [same]
    exact second

variable [DecidableEq Key] {hp : Nat}

theorem Agrees.onFound (agrees : Agrees config held table table') {i1 i2 : Nat} (first : held (config.lockInd i1))
    (second : held (config.lockInd i2)) (key : Key) (partialKey : UInt8) (fn : T → T × Bool) :
    Likewise config held table (table.onFound config key partialKey i1 i2 fn)
      (table'.onFound config key partialKey i1 i2 fn) := by
  rw [Table.onFound, Table.onFound, ← agrees.cuckooFind first second key partialKey]
  split
  next => exact agrees.likewise _
  next pos found =>
    rw [← agrees.entryAt (lock_one first second (Table.find_index found))]
    split
    next => exact agrees.likewise _
    next entry _ => exact agrees.leave rfl rfl pos entry _ _

section Insertion
variable {ins : Insertion Key T} (first : held (config.lockInd (config.i1 hp ins.key)))
  (second : held (config.lockInd (config.i2 hp ins.key)))

include first second

theorem Agrees.freed (agrees : Agrees config held table table') {pos : TablePosition}
    (mine : held (config.lockInd pos.index)) :
    Likewise config held table (Section.freed config table hp ins pos) (Section.freed config table' hp ins pos) := by
  have found := agrees.cuckooFind first second ins.key (config.hashedKey ins.key).partialKey
  have same : table.cuckooInsertFreed config (config.hashedKey ins.key).partialKey (config.i1 hp ins.key)
      (config.i2 hp ins.key) ins.key pos =
    table'.cuckooInsertFreed config (config.hashedKey ins.key).partialKey (config.i1 hp ins.key)
      (config.i2 hp ins.key) ins.key pos := by
    rw [Table.cuckooInsertFreed, Table.cuckooInsertFreed, found]
  have own : held (config.lockInd (table.cuckooInsertFreed config (config.hashedKey ins.key).partialKey
      (config.i1 hp ins.key) (config.i2 hp ins.key) ins.key pos).1.index) := by
    rw [Table.cuckooInsertFreed]
    split
    next there => exact lock_one first second (Table.find_index there)
    next => exact mine
  unfold Section.freed
  rw [← same]
  exact agrees.finish own _

end Insertion

theorem Agrees.found (agrees : Agrees config held table table') {i1 i2 : Nat} (first : held (config.lockInd i1))
    (second : held (config.lockInd i2)) (key : Key) (partialKey : UInt8) (fn : T → T × Bool) :
    Likewise config held table
      ((table.onFound config key partialKey i1 i2 fn).1,
        (.returned (table.onFound config key partialKey i1 i2 fn).2 : Pc Key T))
      ((table'.onFound config key partialKey i1 i2 fn).1, .returned (table'.onFound config key partialKey i1 i2 fn).2) := by
  have likewise := agrees.onFound first second key partialKey fn
  exact ⟨likewise.agrees, congrArg Pc.returned likewise.same, likewise.old, likewise.remaining⟩

theorem Section.body_likewise {sec : Section Key T} (ok : sec.Ok config hp)
    (agrees : Agrees config (· ∈ sec.lockInds config hp) table table') :
    Likewise config (· ∈ sec.lockInds config hp) table (sec.body config hp table) (sec.body config hp table') := by
  have first {key : Key} : config.lockInd (config.i1 hp key) ∈ Section.lockKey config hp key := mem_lockKey.mpr (Or.inl rfl)
  have second {key : Key} : config.lockInd (config.i2 hp key) ∈ Section.lockKey config hp key := mem_lockKey.mpr (Or.inr rfl)
  match sec, ok with
  | .findFn key, _ => exact agrees.found first second key _ fun mapped => (mapped, false)
  | .updateFn key fn, _ => exact agrees.found first second key _ fun mapped => (fn mapped, false)
  | .eraseFn key fn, _ => exact agrees.found first second key _ fn
  | .cuckooInsert ins, _ =>
    rw [Section.body, Section.body, ← agrees.cuckooInsert first second ins.key]
    split
    next pos status found => exact agrees.finish (lock_one first second (Table.insert_index found)) status
    next => exact agrees.likewise _
  | .slotSearch ins x q, _ =>
    have row := agrees.bucket x.bucket (List.mem_singleton_self _)
    rw [Section.body, Section.body, ← row]
    split
    next => exact agrees.likewise _
    next => exact agrees.likewise _
  | .pathSearch ins sources pos slots, _ =>
    have same : table.entryAt pos = table'.entryAt pos := agrees.entryAt (List.mem_singleton_self _)
    cases present : table.entryAt pos with
    | none =>
      simp only [Section.body, ← same, present]
      exact agrees.likewise _
    | some entry =>
      cases slots with
      | nil =>
        simp only [Section.body, ← same, present]
        exact agrees.likewise _
      | cons slot slots =>
        simp only [Section.body, ← same, present]
        exact agrees.likewise _
  | .pathMove ins [] target, ok =>
    have mine := lock_one first second ok.1
    rw [Section.body, Section.body, ← agrees.entryAt mine]
    split
    next => exact agrees.freed first second mine
    next => exact agrees.likewise _
  | .pathMove ins [source] target, ok =>
    have locks (l : Nat) (one : l ∈ Section.lockKey config hp ins.key) :
        l ∈ (Section.pathMove ins [source] target).lockInds config hp :=
      mem_lockThree.mpr ((mem_lockKey.mp one).imp id Or.inl)
    have mine : config.lockInd source.bucket ∈ (Section.pathMove ins [source] target).lockInds config hp :=
      locks _ (lock_one first second ok.1.2.2.2)
    have other : config.lockInd target.index ∈ (Section.pathMove ins [source] target).lockInds config hp :=
      mem_lockThree.mpr (Or.inr (Or.inr rfl))
    rcases agrees.moveAlong mine other with ⟨none, none'⟩ | ⟨entry, moved, moved'⟩
    · simp only [Section.body, none, none']
      exact agrees.likewise _
    · simp only [Section.body, moved, moved']
      have alike := (agrees.write target (some entry)).write ⟨source.bucket, source.slot⟩ none
      have own : config.lockInd (⟨source.bucket, source.slot⟩ : TablePosition).index ∈
          (Section.pathMove ins [source] target).lockInds config hp := mine
      have likewise := alike.freed (locks _ first) (locks _ second) own
      exact ⟨likewise.agrees, likewise.same, likewise.old, likewise.remaining⟩
  | .pathMove ins (source :: next :: sources) target, ok =>
    have mine : config.lockInd source.bucket ∈
        (Section.pathMove ins (source :: next :: sources) target).lockInds config hp := mem_lockTwo.mpr (Or.inl rfl)
    have other : config.lockInd target.index ∈
        (Section.pathMove ins (source :: next :: sources) target).lockInds config hp := mem_lockTwo.mpr (Or.inr rfl)
    rcases agrees.moveAlong mine other with ⟨none, none'⟩ | ⟨entry, moved, moved'⟩
    · simp only [Section.body, none, none']
      exact agrees.likewise _
    · simp only [Section.body, moved, moved']
      exact ⟨(agrees.write _ _).write _ _, rfl, rfl, rfl⟩

theorem Section.run_retires {sec : Section Key T} (ok : sec.Ok config hp) (table : Table Key T) :
    Retires table (sec.run config hp table).1 := by
  have likewise := Section.body_likewise ok (.refl ((sec.lockInds config hp).foldl (Table.rehashLock config true) table))
  exact (Retires.rehashLocks table _).trans (.unchanged likewise.old likewise.remaining)

/-- What a section does with a valid table, in short. -/
theorem Section.run_valid {sec : Section Key T} (ok : sec.Ok config hp) (power : table.hashpower = hp)
    (valid : Valid config table) :
    Within config (· ∈ sec.lockInds config hp) table (sec.run config hp table).1 ∧
      Valid config (sec.run config hp table).1 := by
  obtain ⟨map, holds⟩ := valid.represented
  exact (Section.run_spec ok power valid holds).free.2

end UavRfDetector.Cuckoo

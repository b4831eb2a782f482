import UavRfDetector.Proofs.CuckooRehash

/-! Rehashing a lock, all locks, and the whole table. None of it changes the elements,
and the old buckets are given back once no lock needs them. -/

namespace UavRfDetector.Cuckoo
open Contents

variable {Key T : Type} {config : Config Key} {table : Table Key T}

/-- The loop of `rehash_lock` visits every old bucket of the lock, each once. -/
theorem mem_bucketsOfLock {size l : Nat} (whole : config.maxNumLocks ∣ size) (small : l < config.maxNumLocks) {ind : Nat} :
    ind ∈ config.bucketsOfLock size l ↔ ind < size ∧ config.lockInd ind = l := by
  obtain ⟨rounds, rfl⟩ := whole
  have count : (config.maxNumLocks * rounds - l + config.maxNumLocks - 1) / config.maxNumLocks = rounds := by
    cases rounds with
    | zero =>
      rw [Nat.mul_zero]
      exact Nat.div_eq_of_lt (by omega)
    | succ rounds =>
      rw [Nat.mul_succ]
      have shifted : config.maxNumLocks * rounds + config.maxNumLocks - l + config.maxNumLocks - 1 =
          config.maxNumLocks - 1 - l + config.maxNumLocks * (rounds + 1) := by
        rw [Nat.mul_succ]
        omega
      rw [shifted, Nat.add_mul_div_left _ _ config.maxNumLocks_pos, Nat.div_eq_of_lt (by omega), Nat.zero_add]
  rw [Config.bucketsOfLock, count, List.mem_range', config.lockInd_eq]
  constructor
  · rintro ⟨round, early, rfl⟩
    refine ⟨?_, by rw [Nat.add_mul_mod_self_left, Nat.mod_eq_of_lt small]⟩
    have next := Nat.mul_le_mul_left config.maxNumLocks (Nat.succ_le_of_lt early)
    rw [Nat.mul_succ] at next
    omega
  · rintro ⟨inside, rfl⟩
    refine ⟨ind / config.maxNumLocks, Nat.div_lt_of_lt_mul inside, (Nat.mod_add_div ind _).symm⟩

theorem nodup_bucketsOfLock (size l : Nat) : (config.bucketsOfLock size l).Nodup :=
  List.nodup_range' _ config.maxNumLocks_pos

def Table.oldInds (config : Config Key) (table : Table Key T) : Finset Nat :=
  (Finset.range table.oldBuckets.size).filter fun ind => table.migrated config ind = false

theorem Table.entries_eq (table : Table Key T) : table.entries config = table.buckets.items config +
    ∑ ind ∈ table.oldInds config, contents (Finset.range config.slotPerBucket) (table.oldBuckets.buckets ind) := by
  rw [Table.entries, Table.oldCells, contents_product]
  rfl

theorem Placed.mem_unmigrated (placed : Placed config table) {l : Nat} :
    l ∈ table.locks.unmigrated ↔ (table.locks.lock l).isMigrated = false := by
  rw [Locks.unmigrated, Finset.mem_filter, Finset.mem_range]
  constructor
  · intro ⟨_, waits⟩
    exact waits
  · intro waits
    exact ⟨(placed.pending l waits).1, waits⟩

/-- With no lock left to migrate the old buckets do not matter. -/
theorem Placed.setOld (placed : Placed config table) (none : table.locks.unmigrated = ∅)
    (old : BucketContainer Key T) (remaining : Nat) :
    Placed config { table with oldBuckets := old, numRemainingLazyRehashLocks := remaining } ∧
      Table.entries config { table with oldBuckets := old, numRemainingLazyRehashLocks := remaining } =
        table.entries config := by
  have all (l : Nat) : (table.locks.lock l).isMigrated = true := by
    cases waits : (table.locks.lock l).isMigrated with
    | true => rfl
    | false =>
      have member := placed.mem_unmigrated.mpr waits
      rw [none] at member
      simp at member
  have never {l : Nat} {goal : Prop} (waits : (table.locks.lock l).isMigrated = false) : goal := by
    rw [all l] at waits
    cases waits
  have empty (old : BucketContainer Key T) (remaining : Nat) :
      Table.oldInds config { table with oldBuckets := old, numRemainingLazyRehashLocks := remaining } = ∅ := by
    apply Finset.filter_eq_empty_iff.mpr
    intro ind _ waits
    exact never waits
  constructor
  · exact ⟨placed.homes, fun ind waits => never waits, fun ind waits => never waits, fun l waits => never waits,
      placed.allocated, placed.locks_le, placed.le_locks⟩
  · have before : table.oldInds config = ∅ := empty table.oldBuckets table.numRemainingLazyRehashLocks
    rw [Table.entries_eq, Table.entries_eq, empty old remaining, before, Finset.sum_empty, Finset.sum_empty]

variable (config) in
/-- What rehashing changes and what it does not. -/
structure Rehashed (held : Nat → Prop) (before after : Table Key T) : Prop where
  placed : Placed config after
  entries : after.entries config = before.entries config
  within : Within config held before after
  counters : ∀ l, (after.locks.lock l).elemCounter = (before.locks.lock l).elemCounter

theorem Rehashed.refl (placed : Placed config table) (held : Nat → Prop) : Rehashed config held table table :=
  ⟨placed, rfl, .refl _ _, fun _ => rfl⟩

theorem Rehashed.trans {held : Nat → Prop} {middle after : Table Key T} (first : Rehashed config held table middle)
    (second : Rehashed config held middle after) : Rehashed config held table after :=
  ⟨second.placed, second.entries.trans first.entries, first.within.trans second.within,
    fun l => (second.counters l).trans (first.counters l)⟩

/-- The locks and buckets after `rehash_lock`, before it counts. -/
def Table.migrate (config : Config Key) (table : Table Key T) (l : Nat) : Table Key T :=
  { table with
    buckets := (config.bucketsOfLock table.oldBuckets.size l).foldl (config.moveBucket table.oldBuckets) table.buckets
    locks := table.locks.modify l fun lock => { lock with isMigrated := true } }

theorem Locks.migrate_lock (locks : Locks) (l l' : Nat) :
    ((locks.modify l fun lock => { lock with isMigrated := true }).lock l').isMigrated =
      (l' = l || (locks.lock l').isMigrated) ∧
    ((locks.modify l fun lock => { lock with isMigrated := true }).lock l').elemCounter =
      (locks.lock l').elemCounter := by
  by_cases same : l' = l
  · subst same
    simp [Locks.modify]
  · simp [Locks.modify, same]

theorem Table.migrate_migrated (l ind : Nat) :
    (table.migrate config l).migrated config ind = (config.lockInd ind = l || table.migrated config ind) :=
  (Locks.migrate_lock _ _ _).1

theorem Placed.migrate (placed : Placed config table) {l : Nat} (waits : (table.locks.lock l).isMigrated = false) :
    Rehashed config (· = l) table (table.migrate config l) ∧
      (table.migrate config l).locks.unmigrated = table.locks.unmigrated.erase l := by
  obtain ⟨small, doubled, enough, _⟩ := placed.pending l waits
  have size : table.oldBuckets.size = 2 ^ table.oldBuckets.hashpower := hashsize_eq _
  have whole : config.maxNumLocks ∣ table.oldBuckets.size := by
    rw [size] at enough ⊢
    exact config.maxNumLocks_dvd enough
  have below : l < config.maxNumLocks := Nat.lt_of_lt_of_le small placed.locks_le
  have inds (ind : Nat) := @mem_bucketsOfLock Key config _ _ whole below ind
  have owned (j : Nat) : j % table.oldBuckets.size ∈ config.bucketsOfLock table.oldBuckets.size l ↔
      config.lockInd j = l := by
    rw [inds]
    rw [size] at enough ⊢
    rw [config.lockInd_halve enough]
    simp [Nat.mod_lt _ (Nat.two_pow_pos _)]
  have waiting {j : Nat} (mine : config.lockInd j = l) : table.migrated config j = false := by
    rw [Table.migrated, mine]
    exact waits
  have moved : MovedAll config table.oldBuckets table.buckets (config.bucketsOfLock table.oldBuckets.size l)
      (table.migrate config l).buckets := by
    apply moveBuckets doubled.symm
    · intro ind member
      exact ((inds ind).mp member).1
    · exact nodup_bucketsOfLock _ _
    · intro j member
      exact placed.vacant j (waiting ((owned j).mp member))
    · intro ind member
      exact placed.oldHomes ind (waiting ((inds ind).mp member).2)
  have still {ind : Nat} (later : (table.migrate config l).migrated config ind = false) :
      config.lockInd ind ≠ l ∧ table.migrated config ind = false := by
    rw [Table.migrate_migrated] at later
    simpa using later
  have gone : (table.migrate config l).locks.unmigrated = table.locks.unmigrated.erase l := by
    ext l'
    simp only [Locks.unmigrated, Finset.mem_filter, Finset.mem_erase]
    rw [Table.migrate, (Locks.migrate_lock _ _ _).1]
    simp only [Bool.or_eq_false_iff, decide_eq_false_iff_not]
    exact and_left_comm
  refine ⟨⟨⟨?_, ?_, ?_, ?_, ?_, placed.locks_le, ?_⟩, ?_, ?_, fun l' => (Locks.migrate_lock _ _ _).2⟩, gone⟩
  · intro ind slot entry found
    have power : (table.migrate config l).hashpower = table.hashpower := moved.hashpower
    rw [power]
    by_cases mine : config.lockInd ind = l
    · exact moved.homes ind ((owned ind).mpr mine) slot entry found
    · rw [moved.others ind (fun member => mine ((owned ind).mp member))] at found
      exact placed.homes ind slot entry found
  · intro ind later slot
    obtain ⟨other, before⟩ := still later
    rw [moved.others ind (fun member => other ((owned ind).mp member))]
    exact placed.vacant ind before slot
  · intro ind later
    exact placed.oldHomes ind (still later).2
  · intro l' later
    have power : (table.migrate config l).hashpower = table.hashpower := moved.hashpower
    rw [Table.migrate, (Locks.migrate_lock _ _ _).1] at later
    simp only [Bool.or_eq_false_iff] at later
    rw [power]
    exact placed.pending l' later.2
  · exact moved.isDeallocated.trans placed.allocated
  · have same : (table.migrate config l).buckets.size = table.buckets.size := by
      rw [BucketContainer.size, BucketContainer.size, moved.hashpower]
    rw [same]
    exact placed.le_locks
  · have split : table.oldInds config = (table.migrate config l).oldInds config ∪
        (config.bucketsOfLock table.oldBuckets.size l).toFinset := by
      ext ind
      simp only [Table.oldInds, Finset.mem_union, Finset.mem_filter, Finset.mem_range, List.mem_toFinset, inds,
        Table.migrate_migrated, Bool.or_eq_false_iff, decide_eq_false_iff_not]
      constructor
      · rintro ⟨inside, before⟩
        by_cases mine : config.lockInd ind = l
        · exact Or.inr ⟨inside, mine⟩
        · exact Or.inl ⟨inside, mine, before⟩
      · rintro (⟨inside, _, before⟩ | ⟨inside, mine⟩)
        · exact ⟨inside, before⟩
        · exact ⟨inside, waiting mine⟩
    have apart : Disjoint ((table.migrate config l).oldInds config)
        (config.bucketsOfLock table.oldBuckets.size l).toFinset := by
      rw [Finset.disjoint_left]
      intro ind later member
      have mine := ((inds ind).mp (List.mem_toFinset.mp member)).2
      exact (still (Finset.mem_filter.mp later).2).1 mine
    rw [Table.entries_eq, Table.entries_eq, moved.items, split, Finset.sum_union apart,
      List.sum_toFinset _ (nodup_bucketsOfLock _ _), add_assoc, add_comm (List.sum _)]
    rfl
  · refine ⟨moved.hashpower, rfl, rfl, ?_, ?_, fun _ _ _ => rfl⟩
    · intro l' other
      simp [Table.migrate, Locks.modify, other]
    · intro ind other
      exact moved.others ind fun member => other ((owned ind).mp member)

theorem rehashLock_unmigrated {l : Nat} (waits : (table.locks.lock l).isMigrated = false) (isLazy : Bool) :
    table.rehashLock config isLazy l =
      if isLazy then (table.migrate config l).decrementNumRemaining else table.migrate config l := by
  rw [Table.rehashLock, waits]
  rfl

theorem rehashLock_migrated {l : Nat} (done : (table.locks.lock l).isMigrated) (isLazy : Bool) :
    table.rehashLock config isLazy l = table := by
  rw [Table.rehashLock, if_pos done]

theorem Placed.unmigrated_eq_empty (placed : Placed config table) :
    table.locks.unmigrated = ∅ ↔ ∀ l, (table.locks.lock l).isMigrated := by
  rw [Finset.eq_empty_iff_forall_notMem]
  simp only [placed.mem_unmigrated, Bool.not_eq_false]

theorem Valid.of_rehashed {held : Nat → Prop} {after : Table Key T} (valid : Valid config table)
    (rehashed : Rehashed config held table after)
    (remaining : after.numRemainingLazyRehashLocks = after.locks.unmigrated.card) : Valid config after := by
  refine ⟨rehashed.placed, remaining, ?_, ?_⟩
  · rw [rehashed.entries]
    exact valid.distinct
  · rw [rehashed.entries, rehashed.within.size, Finset.sum_congr rfl fun l _ => rehashed.counters l]
    exact valid.counted

/-- A lock that is rehashed on demand. The old buckets go with the last one. -/
theorem Valid.rehashLock (valid : Valid config table) (l : Nat) :
    Valid config (table.rehashLock config true l) ∧ Rehashed config (· = l) table (table.rehashLock config true l) ∧
      (table.rehashLock config true l).locks.unmigrated = table.locks.unmigrated.erase l := by
  cases waits : (table.locks.lock l).isMigrated with
  | true =>
    rw [rehashLock_migrated waits, Finset.erase_eq_of_notMem]
    · exact ⟨valid, .refl valid.toPlaced _, rfl⟩
    · rw [valid.toPlaced.mem_unmigrated, waits]
      decide
  | false =>
    obtain ⟨migrated, gone⟩ := valid.toPlaced.migrate waits
    have counted : (table.locks.unmigrated.erase l).card = table.numRemainingLazyRehashLocks - 1 := by
      rw [Finset.card_erase_of_mem (valid.toPlaced.mem_unmigrated.mpr waits), valid.remaining]
    rw [rehashLock_unmigrated waits, if_pos rfl]
    have rehashed : Rehashed config (· = l) table (table.migrate config l).decrementNumRemaining := by
      have last : (table.migrate config l).numRemainingLazyRehashLocks = table.numRemainingLazyRehashLocks := rfl
      rw [Table.decrementNumRemaining, last]
      split
      next one =>
        rw [one] at counted
        have none := gone.trans (Finset.card_eq_zero.mp counted)
        obtain ⟨placed, entries⟩ := migrated.placed.setOld none
          (table.migrate config l).oldBuckets.clearAndDeallocate (table.numRemainingLazyRehashLocks - 1)
        refine ⟨placed, entries.trans migrated.entries, ?_, migrated.counters⟩
        refine ⟨migrated.within.hashpower, rfl, rfl, migrated.within.lock, migrated.within.bucket, ?_⟩
        -- no other lock can have been waiting
        intro ind other before
        have all := migrated.placed.unmigrated_eq_empty.mp none (config.lockInd ind)
        rw [migrated.within.lock _ other] at all
        rw [Table.migrated, all] at before
        cases before
      next =>
        have placed := migrated.placed
        have within := migrated.within
        exact ⟨⟨placed.homes, placed.vacant, placed.oldHomes, placed.pending, placed.allocated, placed.locks_le,
          placed.le_locks⟩, migrated.entries, ⟨within.hashpower, rfl, rfl, within.lock, within.bucket,
          within.oldBucket⟩, migrated.counters⟩
    refine ⟨valid.of_rehashed rehashed ?_, rehashed, gone⟩
    exact (counted.symm.trans (congrArg Finset.card gone.symm))

theorem Valid.rehashLocks (valid : Valid config table) (ls : List Nat) :
    Valid config (ls.foldl (Table.rehashLock config true) table) ∧
      Rehashed config (· ∈ ls) table (ls.foldl (Table.rehashLock config true) table) ∧
      ∀ l ∈ ls, ((ls.foldl (Table.rehashLock config true) table).locks.lock l).isMigrated := by
  suffices stronger : Valid config (ls.foldl (Table.rehashLock config true) table) ∧
      Rehashed config (· ∈ ls) table (ls.foldl (Table.rehashLock config true) table) ∧
      (ls.foldl (Table.rehashLock config true) table).locks.unmigrated = table.locks.unmigrated \ ls.toFinset by
    obtain ⟨valid', rehashed, gone⟩ := stronger
    refine ⟨valid', rehashed, ?_⟩
    intro l member
    by_contra waits
    have still := valid'.toPlaced.mem_unmigrated.mpr (Bool.not_eq_true _ ▸ waits)
    rw [gone, Finset.mem_sdiff, List.mem_toFinset] at still
    exact still.2 member
  induction ls generalizing table with
  | nil => exact ⟨valid, .refl valid.toPlaced _, by simp⟩
  | cons l ls ih =>
    obtain ⟨valid', first, gone⟩ := valid.rehashLock l
    obtain ⟨last, rest, left⟩ := ih valid'
    rw [List.foldl_cons]
    refine ⟨last, ?_, ?_⟩
    · have first' : Rehashed config (· ∈ l :: ls) table (table.rehashLock config true l) :=
        ⟨first.placed, first.entries, first.within.mono (by simp +contextual), first.counters⟩
      have rest' : Rehashed config (· ∈ l :: ls) (table.rehashLock config true l) _ :=
        ⟨rest.placed, rest.entries, rest.within.mono (fun _ member => List.mem_cons_of_mem _ member), rest.counters⟩
      exact first'.trans rest'
    · rw [left, gone]
      ext other
      simp only [Finset.mem_sdiff, Finset.mem_erase, List.mem_toFinset, List.mem_cons]
      tauto

end UavRfDetector.Cuckoo

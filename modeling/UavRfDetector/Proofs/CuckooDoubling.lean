import UavRfDetector.Proofs.CuckooMigration

/-! Doubling and clearing the table with all locks held. Doubling goes in two parts,
between which other threads see the new lock array but still the old size. -/

namespace UavRfDetector.Cuckoo
open Contents

variable {Key T : Type} {config : Config Key} {table : Table Key T}

/-- Rehashing every lock from the first to any. -/
theorem Placed.rehashUpTo (placed : Placed config table) (count : Nat) :
    Rehashed config (fun _ => True) table ((List.range count).foldl (Table.rehashLock config false) table) ∧
      ((List.range count).foldl (Table.rehashLock config false) table).locks.unmigrated =
        table.locks.unmigrated \ Finset.range count := by
  induction count with
  | zero => exact ⟨.refl placed _, by simp⟩
  | succ count ih =>
    obtain ⟨before, left⟩ := ih
    rw [List.range_succ, List.foldl_append, List.foldl_cons, List.foldl_nil, Finset.range_add_one,
      Finset.sdiff_insert, ← left]
    generalize (List.range count).foldl (Table.rehashLock config false) table = middle at *
    cases waits : (middle.locks.lock count).isMigrated with
    | true =>
      rw [rehashLock_migrated waits, Finset.erase_eq_of_notMem]
      · exact ⟨before, rfl⟩
      · rw [before.placed.mem_unmigrated, waits]
        decide
    | false =>
      obtain ⟨migrated, gone⟩ := before.placed.migrate waits
      rw [rehashLock_unmigrated waits]
      refine ⟨before.trans ⟨migrated.placed, migrated.entries, migrated.within.mono (fun _ _ => trivial),
        migrated.counters⟩, gone⟩

theorem Valid.rehashAll (valid : Valid config table) : Valid config (table.rehashAll config) ∧
    Rehashed config (fun _ => True) table (table.rehashAll config) ∧
      (table.rehashAll config).locks.unmigrated = ∅ := by
  obtain ⟨rehashed, left⟩ := valid.toPlaced.rehashUpTo table.locks.size
  have inside : table.locks.unmigrated ⊆ Finset.range table.locks.size := Finset.filter_subset _ _
  rw [Finset.sdiff_eq_empty_iff_subset.mpr inside] at left
  rw [Table.rehashAll]
  generalize (List.range table.locks.size).foldl (Table.rehashLock config false) table = middle at *
  obtain ⟨placed, entries⟩ := rehashed.placed.setOld left middle.oldBuckets.clearAndDeallocate 0
  have within := rehashed.within
  have all : Rehashed config (fun _ => True) table (middle.setNumRemaining 0) :=
    ⟨placed, entries.trans rehashed.entries, ⟨within.hashpower, within.retired, within.size, within.lock,
      within.bucket, fun _ other => absurd trivial other⟩, rehashed.counters⟩
  refine ⟨valid.of_rehashed all ?_, all, left⟩
  change 0 = middle.locks.unmigrated.card
  rw [left, Finset.card_empty]

variable (config) in
/-- A table made ready for the size to come: nothing is left to rehash, and there are
enough locks. -/
structure Resized (before after : Table Key T) (newBucketCount : Nat) : Prop where
  valid : Valid config after
  entries : after.entries config = before.entries config
  hashpower : after.hashpower = before.hashpower
  enough : min newBucketCount config.maxNumLocks ≤ after.locks.size
  unmigrated : after.locks.unmigrated = ∅
  retired : after.retiredLocks = before.retiredLocks ∧ after.locks.size = before.locks.size ∨
    after.retiredLocks = before.retiredLocks ++ [before.locks.size] ∧ before.locks.size ≤ after.locks.size

theorem Valid.maybeResizeLocks (valid : Valid config table) (none : table.locks.unmigrated = ∅) (newBucketCount : Nat) :
    Resized config table (table.maybeResizeLocks config newBucketCount) newBucketCount := by
  rw [Table.maybeResizeLocks]
  split
  next grows =>
    obtain ⟨below, more⟩ := grows
    have all := valid.toPlaced.unmigrated_eq_empty.mp none
    have migrated (l : Nat) : (if l < table.locks.size then table.locks.lock l else {}).isMigrated = true := by
      split
      · exact all l
      · rfl
    have never {l : Nat} {goal : Prop}
        (waits : (if l < table.locks.size then table.locks.lock l else {}).isMigrated = false) : goal := by
      rw [migrated l] at waits
      cases waits
    let after : Table Key T :=
      { table with
        retiredLocks := table.retiredLocks ++ [table.locks.size]
        locks :=
          { size := min config.maxNumLocks newBucketCount
            lock := fun l => if l < table.locks.size then table.locks.lock l else {} } }
    have placed : Placed config after := by
      refine ⟨valid.homes, fun ind waits => never waits, fun ind waits => never waits, fun l waits => never waits,
        valid.allocated, Nat.min_le_left _ _, ?_⟩
      have before := valid.le_locks
      change min table.buckets.size config.maxNumLocks ≤ min config.maxNumLocks newBucketCount
      omega
    have empty : after.locks.unmigrated = ∅ := placed.unmigrated_eq_empty.mpr migrated
    have entries : after.entries config = table.entries config := by
      have now : after.oldInds config = ∅ := Finset.filter_eq_empty_iff.mpr fun ind _ waits => never waits
      have before : table.oldInds config = ∅ := by
        apply Finset.filter_eq_empty_iff.mpr
        intro ind _ waits
        rw [Table.migrated, all] at waits
        cases waits
      rw [Table.entries_eq, Table.entries_eq, now, before]
    refine ⟨⟨placed, ?_, ?_, ?_⟩, entries, rfl, ?_, empty, Or.inr ⟨rfl, ?_⟩⟩
    · rw [empty, Finset.card_empty]
      exact valid.remaining.trans (by rw [none, Finset.card_empty])
    · rw [entries]
      exact valid.distinct
    · -- the locks that are new count nothing
      rw [entries, ← valid.counted]
      have larger : Finset.range table.locks.size ⊆ Finset.range (min config.maxNumLocks newBucketCount) :=
        Finset.range_subset_range.mpr (by omega)
      refine (Finset.sum_subset larger ?_).symm.trans (Finset.sum_congr rfl ?_)
      · intro l _ outside
        rw [Finset.mem_range] at outside
        simp [outside]
      · intro l inside
        rw [Finset.mem_range] at inside
        simp [inside]
    · exact (Nat.min_comm _ _).le
    · change table.locks.size ≤ min config.maxNumLocks newBucketCount
      omega
  next stays =>
    have before := valid.locks_le
    exact ⟨valid, rfl, rfl, by omega, none, Or.inl ⟨rfl, rfl⟩⟩

theorem Valid.prepareDouble (valid : Valid config table) (newHp : Nat) :
    Resized config table (table.prepareDouble config newHp) (hashsize newHp) := by
  obtain ⟨rehashed, all, none⟩ := valid.rehashAll
  have resized := rehashed.maybeResizeLocks none (hashsize newHp)
  have retired := resized.retired
  rw [all.within.retired, all.within.size] at retired
  exact ⟨resized.valid, resized.entries.trans all.entries, resized.hashpower.trans all.within.hashpower,
    resized.enough, resized.unmigrated, retired⟩

theorem fresh_items (hp : Nat) : ({ hashpower := hp } : BucketContainer Key T).items config = 0 :=
  contents_empty fun _ _ => rfl

/-- The sum over all buckets is all there is. -/
theorem BucketContainer.items_eq (container : BucketContainer Key T) : container.items config =
    ∑ ind ∈ Finset.range container.size, contents (Finset.range config.slotPerBucket) (container.buckets ind) :=
  contents_product _ _ _

theorem Placed.entries_unmigrated (placed : Placed config table) (none : table.locks.unmigrated = ∅) :
    table.entries config = table.buckets.items config := by
  have empty : table.oldInds config = ∅ := by
    apply Finset.filter_eq_empty_iff.mpr
    intro ind _ waits
    rw [Table.migrated, placed.unmigrated_eq_empty.mp none] at waits
    cases waits
  rw [Table.entries_eq, empty, Finset.sum_empty, add_zero]

theorem Valid.of_placed {after : Table Key T} (valid : Valid config table) (placed : Placed config after)
    (entries : after.entries config = table.entries config)
    (remaining : after.numRemainingLazyRehashLocks = after.locks.unmigrated.card) (size : after.locks.size = table.locks.size)
    (counters : ∀ l, (after.locks.lock l).elemCounter = (table.locks.lock l).elemCounter) : Valid config after := by
  refine ⟨placed, remaining, ?_, ?_⟩
  · rw [entries]
    exact valid.distinct
  · rw [entries, size, Finset.sum_congr rfl fun l _ => counters l]
    exact valid.counted

variable (config table) in
/-- The table at twice the size, with the same elements. -/
structure Doubled (after : Table Key T) : Prop where
  valid : Valid config after
  entries : after.entries config = table.entries config
  hashpower : after.hashpower = table.hashpower + 1
  retired : after.retiredLocks = table.retiredLocks
  size : after.locks.size = table.locks.size

/-- With fewer buckets than locks everything is moved at once. -/
theorem Valid.moveAll (valid : Valid config table) (none : table.locks.unmigrated = ∅)
    (enough : min (hashsize (table.hashpower + 1)) config.maxNumLocks ≤ table.locks.size) :
    Doubled config table (Table.setNumRemaining { table with
      oldBuckets := table.buckets
      buckets := (List.range table.buckets.size).foldl (config.moveBucket table.buckets)
        { hashpower := table.hashpower + 1 } } 0) := by
  have moved : MovedAll config table.buckets { hashpower := table.hashpower + 1 } (List.range table.buckets.size)
      ((List.range table.buckets.size).foldl (config.moveBucket table.buckets) { hashpower := table.hashpower + 1 }) := by
    apply moveBuckets rfl
    · intro ind member
      exact List.mem_range.mp member
    · exact List.nodup_range
    · intro j _ slot
      rfl
    · intro ind _
      exact valid.homes ind
  generalize (List.range table.buckets.size).foldl (config.moveBucket table.buckets)
    { hashpower := table.hashpower + 1 } = new at moved ⊢
  have every (j : Nat) : j % table.buckets.size ∈ List.range table.buckets.size :=
    List.mem_range.mpr (Nat.mod_lt _ (size_pos _))
  have hashpower : new.hashpower = table.hashpower + 1 := moved.hashpower
  have never {l : Nat} {goal : Prop} (waits : (table.locks.lock l).isMigrated = false) : goal := by
    rw [valid.toPlaced.unmigrated_eq_empty.mp none l] at waits
    cases waits
  have placed : Placed config (Table.setNumRemaining { table with oldBuckets := table.buckets, buckets := new } 0) := by
    refine ⟨?_, fun ind waits => never waits, fun ind waits => never waits, fun l waits => never waits, ?_,
      valid.locks_le, ?_⟩
    · intro ind slot entry found
      have place := moved.homes ind (every ind) slot entry found
      change InPlace config new.hashpower ind slot entry
      rw [hashpower]
      exact place
    · exact moved.isDeallocated
    · change min new.size config.maxNumLocks ≤ table.locks.size
      rw [BucketContainer.size, hashpower]
      exact enough
  have entries : Table.entries config
      (Table.setNumRemaining { table with oldBuckets := table.buckets, buckets := new } 0) = table.entries config := by
    have inds : (List.range table.buckets.size).toFinset = Finset.range table.buckets.size := by
      ext ind
      simp
    rw [placed.entries_unmigrated none, valid.toPlaced.entries_unmigrated none]
    change new.items config = table.buckets.items config
    rw [moved.items, fresh_items, zero_add, BucketContainer.items_eq, ← inds, List.sum_toFinset _ List.nodup_range]
  refine ⟨valid.of_placed placed entries ?_ rfl fun _ => rfl, entries, hashpower, rfl, rfl⟩
  change 0 = table.locks.unmigrated.card
  rw [none, Finset.card_empty]

/-- Otherwise nothing is: every lock has its buckets to move when it is next taken. -/
theorem Valid.unmigrateAll (valid : Valid config table) (none : table.locks.unmigrated = ∅)
    (many : config.maxNumLocks ≤ table.buckets.size)
    (enough : min (hashsize (table.hashpower + 1)) config.maxNumLocks ≤ table.locks.size) :
    Doubled config table { table with
      oldBuckets := table.buckets
      buckets := { hashpower := table.hashpower + 1 }
      locks := table.locks.map fun lock => { lock with isMigrated := false }
      numRemainingLazyRehashLocks := table.locks.size } := by
  have bound := valid.locks_le
  have room : table.buckets.size ≤ hashsize (table.hashpower + 1) := by
    rw [Table.size_buckets, hashsize_eq]
    exact Nat.pow_le_pow_right (by decide) (Nat.le_succ _)
  have size : table.locks.size = config.maxNumLocks := by omega
  have flag (l : Nat) : ((table.locks.map fun lock => { lock with isMigrated := false }).lock l).isMigrated = false ↔
      l < table.locks.size := by
    simp only [Locks.map]
    split
    next inside => simp [inside]
    next outside => simp [outside, valid.toPlaced.unmigrated_eq_empty.mp none l]
  have counter (l : Nat) : ((table.locks.map fun lock => { lock with isMigrated := false }).lock l).elemCounter =
      (table.locks.lock l).elemCounter := by
    simp only [Locks.map]
    split <;> rfl
  let after : Table Key T := { table with
    oldBuckets := table.buckets
    buckets := { hashpower := table.hashpower + 1 }
    locks := table.locks.map fun lock => { lock with isMigrated := false }
    numRemainingLazyRehashLocks := table.locks.size }
  have placed : Placed config after := by
    refine ⟨?_, fun _ _ _ => rfl, ?_, ?_, rfl, valid.locks_le, enough⟩
    · intro _ _ _ found
      cases found
    · intro ind _
      exact valid.homes ind
    · intro l waits
      exact ⟨(flag l).mp waits, rfl, many, valid.allocated⟩
  have every : after.oldInds config = Finset.range table.buckets.size := by
    apply Finset.filter_true_of_mem
    intro ind _
    apply (flag _).mpr
    rw [size]
    exact config.lockInd_lt ind
  have entries : after.entries config = table.entries config := by
    rw [Table.entries_eq, every, valid.toPlaced.entries_unmigrated none,
      BucketContainer.items_eq table.buckets]
    change BucketContainer.items config { hashpower := table.hashpower + 1 } + _ = _
    rw [fresh_items, zero_add]
  refine ⟨valid.of_placed placed entries ?_ rfl counter, entries, rfl, rfl, rfl⟩
  have unmigrated : after.locks.unmigrated = Finset.range table.locks.size := by
    apply Finset.filter_true_of_mem
    intro l inside
    exact (flag l).mpr (Finset.mem_range.mp inside)
  change table.locks.size = after.locks.unmigrated.card
  rw [unmigrated, Finset.card_range]

theorem Valid.finishDouble (valid : Valid config table) (none : table.locks.unmigrated = ∅)
    (enough : min (hashsize (table.hashpower + 1)) config.maxNumLocks ≤ table.locks.size) :
    Doubled config table (table.finishDouble config (table.hashpower + 1)) := by
  rw [Table.finishDouble]
  dsimp only
  split
  next few => exact valid.moveAll none enough
  next many =>
    rw [Nat.not_lt] at many
    have doubled := valid.unmigrateAll none many enough
    have some : table.locks.size ≠ 0 := by
      have positive := config.maxNumLocks_pos
      have room : table.buckets.size ≤ hashsize (table.hashpower + 1) := by
        rw [Table.size_buckets, hashsize_eq]
        exact Nat.pow_le_pow_right (by decide) (Nat.le_succ _)
      omega
    change Doubled config table { table with
      oldBuckets := if table.locks.size = 0 then _ else table.buckets
      buckets := _
      locks := _
      numRemainingLazyRehashLocks := _ }
    rw [if_neg some]
    exact doubled

theorem Valid.cuckooClear (valid : Valid config table) :
    Valid config table.cuckooClear ∧ table.cuckooClear.entries config = 0 ∧
      table.cuckooClear.hashpower = table.hashpower ∧ table.cuckooClear.retiredLocks = table.retiredLocks ∧
        table.cuckooClear.locks.size = table.locks.size := by
  have flag (l : Nat) : (table.cuckooClear.locks.lock l).isMigrated = true := by
    change (if l < table.locks.size then _ else table.locks.lock l).isMigrated = true
    split
    next => rfl
    next outside =>
      by_contra waits
      exact outside (valid.pending l (Bool.not_eq_true _ ▸ waits)).1
  have never {l : Nat} {goal : Prop} (waits : (table.cuckooClear.locks.lock l).isMigrated = false) : goal := by
    rw [flag l] at waits
    cases waits
  have placed : Placed config table.cuckooClear := by
    refine ⟨?_, fun ind waits => never waits, fun ind waits => never waits, fun l waits => never waits,
      valid.allocated, valid.locks_le, valid.le_locks⟩
    intro _ _ _ found
    cases found
  have none : table.cuckooClear.locks.unmigrated = ∅ := placed.unmigrated_eq_empty.mpr flag
  have entries : table.cuckooClear.entries config = 0 := by
    rw [placed.entries_unmigrated none]
    exact contents_empty fun _ _ => rfl
  refine ⟨⟨placed, ?_, ?_, ?_⟩, entries, rfl, rfl, rfl⟩
  · rw [none]
    rfl
  · rw [entries]
    exact Multiset.nodup_zero
  · rw [entries]
    apply Finset.sum_eq_zero
    intro l inside
    have small : l < table.locks.size := Finset.mem_range.mp inside
    change (if l < table.locks.size then _ else table.locks.lock l).elemCounter = 0
    rw [if_pos small]

theorem resize_ok {hp newHp : Nat} (checked : table.checkResizeValidity config true hp newHp = .ok .ok) :
    table.hashpower = hp ∧ ∀ most, config.maximumHashpower = some most → newHp ≤ most := by
  rw [Table.checkResizeValidity] at checked
  split at checked
  next => cases checked
  next below =>
    split at checked
    next => cases checked
    next =>
      split at checked
      next same =>
        refine ⟨same, ?_⟩
        intro most bounded
        rw [bounded, Option.any_some, decide_eq_true_eq] at below
        omega
      next => cases checked

theorem resize_failure {hp newHp : Nat}
    (checked : table.checkResizeValidity config true hp newHp = .ok .failureUnderExpansion) : table.hashpower ≠ hp := by
  rw [Table.checkResizeValidity] at checked
  split at checked
  next => cases checked
  next =>
    split at checked
    next => cases checked
    next =>
      split at checked
      next => cases checked
      next other => exact other

end UavRfDetector.Cuckoo

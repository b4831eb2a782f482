import UavRfDetector.Proofs.CuckooLayout

/-! Single slots: what writing one does to the elements, and what the searches of one
or two buckets find. -/

namespace UavRfDetector.Cuckoo
open Contents

variable {Key T : Type} {config : Config Key} {table : Table Key T}

theorem Table.mem_newCells {pos : TablePosition} (inside : pos.index < 2 ^ table.hashpower)
    (slot : pos.slot < config.slotPerBucket) : (pos.index, pos.slot) ∈ table.newCells config := by
  simp only [Table.newCells, Finset.mem_product, Finset.mem_range, Table.size_buckets]
  exact ⟨inside, slot⟩

theorem Table.entries_write {pos : TablePosition} (inside : pos.index < 2 ^ table.hashpower)
    (slot : pos.slot < config.slotPerBucket) (value : Option (Entry Key T)) :
    (table.write pos value).entries config + content (table.entryAt pos) = table.entries config + content value := by
  have updated := contents_update (Table.mem_newCells inside slot) table.buckets.cell value
  rw [← BucketContainer.write_cell] at updated
  change contents _ _ + _ + content (table.buckets.cell (pos.index, pos.slot)) = contents _ _ + _ + _
  rw [add_right_comm, add_right_comm (contents (table.newCells config) _)]
  congr 1

theorem Table.write_other (table : Table Key T) (pos : TablePosition) (value : Option (Entry Key T)) (ind slot : Nat) :
    (table.write pos value).buckets.buckets ind slot =
      if ind = pos.index ∧ slot = pos.slot then value else table.buckets.buckets ind slot :=
  BucketContainer.write_buckets _ _ _ _ _ _

theorem Placed.write (placed : Placed config table) {pos : TablePosition} (migrated : table.migrated config pos.index)
    {value : Option (Entry Key T)}
    (place : ∀ entry, value = some entry → InPlace config table.hashpower pos.index pos.slot entry) :
    Placed config (table.write pos value) := by
  refine ⟨?_, ?_, placed.oldHomes, placed.pending, placed.allocated, placed.locks_le, placed.le_locks⟩
  · intro ind slot entry found
    rw [Table.write_other] at found
    split at found
    next here =>
      obtain ⟨rfl, rfl⟩ := here
      exact place entry found
    next => exact placed.homes ind slot entry found
  · intro ind waits slot
    rw [Table.write_other, if_neg]
    · exact placed.vacant ind waits slot
    · rintro ⟨rfl, _⟩
      rw [Table.migrated] at migrated
      simp only [Table.migrated, Table.write] at waits
      rw [migrated] at waits
      cases waits

theorem Locks.modify_isMigrated (locks : Locks) (l : Nat) (change : Int) (l' : Nat) :
    ((locks.modify l fun lock => { lock with elemCounter := lock.elemCounter + change }).lock l').isMigrated =
      (locks.lock l').isMigrated := by
  by_cases same : l' = l
  · subst same
    simp [Locks.modify]
  · simp [Locks.modify, same]

theorem Table.count_migrated (ind : Nat) (change : Int) (other : Nat) :
    (table.count config ind change).migrated config other = table.migrated config other :=
  Locks.modify_isMigrated _ _ _ _

@[simp] theorem Table.count_entries (ind : Nat) (change : Int) :
    (table.count config ind change).entries config = table.entries config := by
  have same : (table.count config ind change).oldCells config = table.oldCells config := by
    simp only [Table.oldCells, Table.count_migrated]
    rfl
  rw [Table.entries, Table.entries, same]
  rfl

theorem Placed.count (placed : Placed config table) (ind : Nat) (change : Int) :
    Placed config (table.count config ind change) := by
  refine ⟨placed.homes, ?_, ?_, ?_, placed.allocated, placed.locks_le, placed.le_locks⟩
  · intro ind' waits
    rw [Table.count_migrated] at waits
    exact placed.vacant ind' waits
  · intro ind' waits
    rw [Table.count_migrated] at waits
    exact placed.oldHomes ind' waits
  · intro l waits
    rw [Table.count, Locks.modify_isMigrated] at waits
    exact placed.pending l waits

theorem Table.count_unmigrated (ind : Nat) (change : Int) :
    (table.count config ind change).locks.unmigrated = table.locks.unmigrated := by
  apply Finset.filter_congr
  intro l _
  rw [Table.count, Locks.modify_isMigrated]

theorem Table.sum_count {ind : Nat} (inside : config.lockInd ind < table.locks.size) (change : Int) :
    ∑ l ∈ Finset.range table.locks.size, ((table.count config ind change).locks.lock l).elemCounter =
      ∑ l ∈ Finset.range table.locks.size, (table.locks.lock l).elemCounter + change := by
  have updated := sum_update (Finset.mem_range.mpr inside) table.locks.lock Spinlock.elemCounter
    { table.locks.lock (config.lockInd ind) with
      elemCounter := (table.locks.lock (config.lockInd ind)).elemCounter + change }
  change ∑ l ∈ Finset.range table.locks.size, ((table.count config ind change).locks.lock l).elemCounter + _ = _ at updated
  dsimp only at updated
  omega

/-- What a critical section leaves alone: the size of the table, and every bucket and
lock that it does not hold. -/
structure Within (config : Config Key) (held : Nat → Prop) (before after : Table Key T) : Prop where
  hashpower : after.hashpower = before.hashpower
  retired : after.retiredLocks = before.retiredLocks
  size : after.locks.size = before.locks.size
  lock : ∀ l, ¬ held l → after.locks.lock l = before.locks.lock l
  bucket : ∀ ind, ¬ held (config.lockInd ind) → after.buckets.buckets ind = before.buckets.buckets ind
  oldBucket : ∀ ind, ¬ held (config.lockInd ind) → before.migrated config ind = false →
    after.oldBuckets.buckets ind = before.oldBuckets.buckets ind

variable {held : Nat → Prop} {middle after : Table Key T}

theorem Within.refl (held : Nat → Prop) (table : Table Key T) : Within config held table table :=
  ⟨rfl, rfl, rfl, fun _ _ => rfl, fun _ _ => rfl, fun _ _ _ => rfl⟩

theorem Within.trans (first : Within config held table middle) (second : Within config held middle after) :
    Within config held table after := by
  refine ⟨second.hashpower.trans first.hashpower, second.retired.trans first.retired, second.size.trans first.size,
    ?_, ?_, ?_⟩
  · intro l other
    rw [second.lock l other, first.lock l other]
  · intro ind other
    rw [second.bucket ind other, first.bucket ind other]
  · intro ind other waits
    have still : middle.migrated config ind = false := by
      rw [Table.migrated, first.lock _ other]
      exact waits
    rw [second.oldBucket ind other still, first.oldBucket ind other waits]

theorem Within.mono (within : Within config held table after) {more : Nat → Prop} (fewer : ∀ l, held l → more l) :
    Within config more table after := by
  refine ⟨within.hashpower, within.retired, within.size, ?_, ?_, ?_⟩
  · intro l other
    exact within.lock l fun mine => other (fewer l mine)
  · intro ind other
    exact within.bucket ind fun mine => other (fewer _ mine)
  · intro ind other
    exact within.oldBucket ind fun mine => other (fewer _ mine)

theorem Within.write {pos : TablePosition} (mine : held (config.lockInd pos.index)) (value : Option (Entry Key T)) :
    Within config held table (table.write pos value) := by
  refine ⟨rfl, rfl, rfl, fun _ _ => rfl, ?_, fun _ _ _ => rfl⟩
  intro ind other
  funext slot
  rw [Table.write_other, if_neg]
  rintro ⟨rfl, _⟩
  exact other mine

theorem Within.count {ind : Nat} (mine : held (config.lockInd ind)) (change : Int) :
    Within config held table (table.count config ind change) := by
  refine ⟨rfl, rfl, rfl, ?_, fun _ _ => rfl, fun _ _ _ => rfl⟩
  intro l other
  have different : l ≠ config.lockInd ind := by
    rintro rfl
    exact other mine
  simp [Table.count, Locks.modify, different]

theorem Within.addToBucket {pos : TablePosition} (mine : held (config.lockInd pos.index)) (partialKey : UInt8)
    (key : Key) (val : T) : Within config held table (table.addToBucket config pos partialKey key val) :=
  (Within.write mine _).trans (.count mine 1)

theorem Within.delFromBucket {pos : TablePosition} (mine : held (config.lockInd pos.index)) :
    Within config held table (table.delFromBucket config pos) :=
  (Within.write mine _).trans (.count mine (-1))

variable (config table) in
/-- A place that may be written under its lock. -/
structure Writable (pos : TablePosition) : Prop where
  inside : pos.index < 2 ^ table.hashpower
  slot : pos.slot < config.slotPerBucket
  migrated : table.migrated config pos.index

theorem Valid.addToBucket (valid : Valid config table) {pos : TablePosition} (writable : Writable config table pos)
    (vacant : table.entryAt pos = none) {key : Key} (home : Home table.hashpower (config.hashedKey key) pos.index)
    (fresh : ∀ entry ∈ table.entries config, entry.key ≠ key) (val : T) :
    Valid config (table.addToBucket config pos (config.hashedKey key).partialKey key val) ∧
      (table.addToBucket config pos (config.hashedKey key).partialKey key val).entries config =
        ⟨(config.hashedKey key).partialKey, key, val⟩ ::ₘ table.entries config := by
  have entries := Table.entries_write writable.inside writable.slot
    (some ⟨(config.hashedKey key).partialKey, key, val⟩ : Option (Entry Key T))
  rw [vacant, content_none, add_zero, content_some, add_comm, Multiset.singleton_add] at entries
  have placed : Placed config (table.write pos (some ⟨(config.hashedKey key).partialKey, key, val⟩)) := by
    apply valid.toPlaced.write writable.migrated
    intro entry written
    cases written
    exact ⟨writable.slot, rfl, home⟩
  have same : (table.addToBucket config pos (config.hashedKey key).partialKey key val).entries config =
      ⟨(config.hashedKey key).partialKey, key, val⟩ ::ₘ table.entries config := by
    rw [Table.addToBucket, Table.count_entries, entries]
  refine ⟨⟨placed.count _ _, ?_, ?_, ?_⟩, same⟩
  · rw [Table.addToBucket, Table.count_unmigrated]
    exact valid.remaining
  · rw [same]
    exact valid.distinct.cons fresh
  · rw [same, Multiset.card_cons]
    have counted := Table.sum_count (placed.lockInd_lt writable.inside) 1
    have before := valid.counted
    rw [Nat.cast_add, ← before]
    exact counted

theorem Valid.delFromBucket (valid : Valid config table) {pos : TablePosition} {entry : Entry Key T}
    (writable : Writable config table pos) (found : table.entryAt pos = some entry) :
    Valid config (table.delFromBucket config pos) ∧
      entry ::ₘ (table.delFromBucket config pos).entries config = table.entries config := by
  have entries := Table.entries_write writable.inside writable.slot (none : Option (Entry Key T))
  rw [found, content_none, add_zero, content_some, add_comm, Multiset.singleton_add] at entries
  have placed : Placed config (table.write pos none) := valid.toPlaced.write writable.migrated (by simp)
  have same : entry ::ₘ (table.delFromBucket config pos).entries config = table.entries config := by
    rw [Table.delFromBucket, Table.count_entries, entries]
  refine ⟨⟨placed.count _ _, ?_, ?_, ?_⟩, same⟩
  · rw [Table.delFromBucket, Table.count_unmigrated]
    exact valid.remaining
  · have distinct := valid.distinct
    rw [← same] at distinct
    exact distinct.tail
  · have counted := Table.sum_count (placed.lockInd_lt writable.inside) (-1)
    have before := valid.counted
    rw [← same, Multiset.card_cons] at before
    push_cast at before
    change ∑ l ∈ Finset.range table.locks.size, ((table.delFromBucket config pos).locks.lock l).elemCounter =
      ∑ l ∈ Finset.range table.locks.size, (table.locks.lock l).elemCounter + -1 at counted
    change ∑ l ∈ Finset.range table.locks.size, ((table.delFromBucket config pos).locks.lock l).elemCounter = _
    omega

theorem Valid.replace (valid : Valid config table) {pos : TablePosition} {entry : Entry Key T}
    (writable : Writable config table pos) (found : table.entryAt pos = some entry) (mapped : T) :
    ∃ rest, table.entries config = entry ::ₘ rest ∧ Valid config (table.write pos (some { entry with mapped })) ∧
      (table.write pos (some { entry with mapped })).entries config = { entry with mapped } ::ₘ rest := by
  obtain ⟨rest, split⟩ : ∃ rest, table.entries config = entry ::ₘ rest := by
    obtain ⟨_, same⟩ := valid.delFromBucket writable found
    exact ⟨_, same.symm⟩
  have entries := Table.entries_write writable.inside writable.slot (some { entry with mapped })
  rw [found, split, content_some, content_some, add_comm, Multiset.singleton_add, add_comm,
    Multiset.singleton_add, Multiset.cons_swap] at entries
  have same := (Multiset.cons_inj_right entry).mp entries
  have place := valid.homes pos.index pos.slot entry found
  refine ⟨rest, split, ⟨?_, valid.remaining, ?_, ?_⟩, same⟩
  · apply valid.toPlaced.write writable.migrated
    intro _ written
    cases written
    exact ⟨place.slot_lt, place.partialKey, place.home⟩
  · have distinct := valid.distinct
    rw [split] at distinct
    rw [same]
    exact distinct.replace rfl
  · have counted := valid.counted
    rw [split, Multiset.card_cons] at counted
    rw [same, Multiset.card_cons]
    exact counted

end UavRfDetector.Cuckoo

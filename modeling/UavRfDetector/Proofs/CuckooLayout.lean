import UavRfDetector.Contents
import UavRfDetector.Cuckoo.Table

/-! Where the elements of a table are. An element counts where it can be reached: in
the buckets, or in an old bucket whose lock has not been migrated. -/

namespace UavRfDetector.Cuckoo
open Contents

variable {Key T : Type}

def BucketContainer.cell (container : BucketContainer Key T) (cell : Nat × Nat) : Option (Entry Key T) :=
  container.buckets cell.1 cell.2

theorem BucketContainer.write_cell (container : BucketContainer Key T) (ind slot : Nat)
    (value : Option (Entry Key T)) :
    (container.write ind slot value).cell = Function.update container.cell (ind, slot) value := by
  funext ⟨i, j⟩
  by_cases same : (i, j) = (ind, slot)
  · cases same
    simp [BucketContainer.cell, BucketContainer.write_buckets]
  · rw [Function.update_of_ne same, BucketContainer.cell, BucketContainer.cell, BucketContainer.write_buckets]
    rw [if_neg (by simpa using same)]

variable (config : Config Key)

theorem Config.maxNumLocks_eq : config.maxNumLocks = 2 ^ config.maxNumLocksPower := by
  rw [Config.maxNumLocks, Nat.one_shiftLeft]

theorem Config.maxNumLocks_pos : 0 < config.maxNumLocks := by
  rw [config.maxNumLocks_eq]
  exact Nat.two_pow_pos _

theorem Config.lockInd_eq (ind : Nat) : config.lockInd ind = ind % config.maxNumLocks := by
  rw [Config.lockInd, config.maxNumLocks_eq, Nat.and_two_pow_sub_one_eq_mod]

theorem Config.lockInd_lt (ind : Nat) : config.lockInd ind < config.maxNumLocks := by
  rw [config.lockInd_eq]
  exact Nat.mod_lt _ config.maxNumLocks_pos

theorem Config.maxNumLocks_dvd {hp : Nat} (enough : config.maxNumLocks ≤ 2 ^ hp) : config.maxNumLocks ∣ 2 ^ hp := by
  rw [config.maxNumLocks_eq] at enough ⊢
  exact Nat.pow_dvd_pow 2 ((Nat.pow_le_pow_iff_right (by decide)).mp enough)

/-- The two halves of a doubled bucket are under one lock, once there are enough buckets. -/
theorem Config.lockInd_halve {hp : Nat} (enough : config.maxNumLocks ≤ 2 ^ hp) (ind : Nat) :
    config.lockInd (ind % 2 ^ hp) = config.lockInd ind := by
  rw [config.lockInd_eq, config.lockInd_eq, Nat.mod_mod_of_dvd _ (config.maxNumLocks_dvd enough)]

def Table.migrated (table : Table Key T) (ind : Nat) : Bool :=
  (table.locks.lock (config.lockInd ind)).isMigrated

def Table.newCells (table : Table Key T) : Finset (Nat × Nat) :=
  Finset.range table.buckets.size ×ˢ Finset.range config.slotPerBucket

def Table.oldCells (table : Table Key T) : Finset (Nat × Nat) :=
  (Finset.range table.oldBuckets.size).filter (fun ind => table.migrated config ind = false) ×ˢ
    Finset.range config.slotPerBucket

def Table.entries (table : Table Key T) : Multiset (Entry Key T) :=
  contents (table.newCells config) table.buckets.cell + contents (table.oldCells config) table.oldBuckets.cell

/-- An element is in one of its two buckets, beside its own partial key. -/
structure InPlace (hp ind slot : Nat) (entry : Entry Key T) : Prop where
  slot_lt : slot < config.slotPerBucket
  partialKey : entry.partialKey = (config.hashedKey entry.key).partialKey
  home : Home hp (config.hashedKey entry.key) ind

/-- The layout of a table. The buckets under a lock that has not been migrated are
still empty, and their elements are where they were before the last doubling. -/
structure Placed (table : Table Key T) : Prop where
  homes : ∀ ind slot entry, table.buckets.buckets ind slot = some entry → InPlace config table.hashpower ind slot entry
  vacant : ∀ ind, table.migrated config ind = false → ∀ slot, table.buckets.buckets ind slot = none
  oldHomes : ∀ ind, table.migrated config ind = false → ∀ slot entry,
    table.oldBuckets.buckets ind slot = some entry → InPlace config table.oldBuckets.hashpower ind slot entry
  pending : ∀ l, (table.locks.lock l).isMigrated = false → l < table.locks.size ∧
    table.oldBuckets.hashpower + 1 = table.hashpower ∧ config.maxNumLocks ≤ table.oldBuckets.size ∧
      table.oldBuckets.isDeallocated = false
  allocated : table.buckets.isDeallocated = false
  locks_le : table.locks.size ≤ config.maxNumLocks
  le_locks : min table.buckets.size config.maxNumLocks ≤ table.locks.size

def Locks.unmigrated (locks : Locks) : Finset Nat :=
  (Finset.range locks.size).filter fun l => (locks.lock l).isMigrated = false

/-- A table whose layout is right, in which no key is twice, the counters of the locks
add up to the number of elements and the locks still to migrate have been counted. -/
structure Valid (table : Table Key T) : Prop extends Placed config table where
  remaining : table.numRemainingLazyRehashLocks = table.locks.unmigrated.card
  distinct : Distinct Entry.key (table.entries config)
  counted : ∑ l ∈ Finset.range table.locks.size, (table.locks.lock l).elemCounter = (table.entries config).card

variable {config} {table : Table Key T}

theorem Table.size_buckets : table.buckets.size = 2 ^ table.hashpower := by
  rw [BucketContainer.size, hashsize_eq, Table.hashpower]

theorem Placed.lockInd_lt (placed : Placed config table) {ind : Nat} (inside : ind < 2 ^ table.hashpower) :
    config.lockInd ind < table.locks.size := by
  have enough := placed.le_locks
  have masked := config.lockInd_lt ind
  have below : config.lockInd ind ≤ ind := by
    rw [config.lockInd_eq]
    exact Nat.mod_le _ _
  rw [Table.size_buckets] at enough
  omega

theorem Placed.mem_entries (placed : Placed config table) {entry : Entry Key T} :
    entry ∈ table.entries config ↔ (∃ ind slot, table.buckets.buckets ind slot = some entry) ∨
      ∃ ind slot, table.migrated config ind = false ∧ table.oldBuckets.buckets ind slot = some entry := by
  rw [Table.entries, Multiset.mem_add, mem_contents, mem_contents]
  constructor
  · rintro (⟨⟨ind, slot⟩, _, found⟩ | ⟨⟨ind, slot⟩, member, found⟩)
    · exact Or.inl ⟨ind, slot, found⟩
    · simp only [Table.oldCells, Finset.mem_product, Finset.mem_filter] at member
      exact Or.inr ⟨ind, slot, member.1.2, found⟩
  · rintro (⟨ind, slot, found⟩ | ⟨ind, slot, waits, found⟩)
    · have place := placed.homes ind slot entry found
      refine Or.inl ⟨(ind, slot), ?_, found⟩
      simp only [Table.newCells, Finset.mem_product, Finset.mem_range, Table.size_buckets]
      exact ⟨place.home.lt, place.slot_lt⟩
    · have place := placed.oldHomes ind waits slot entry found
      refine Or.inr ⟨(ind, slot), ?_, found⟩
      simp only [Table.oldCells, Finset.mem_product, Finset.mem_filter, Finset.mem_range, BucketContainer.size,
        hashsize_eq]
      exact ⟨⟨place.home.lt, waits⟩, place.slot_lt⟩

/-- Once both buckets of a key have been rehashed, it is in one of them or nowhere. -/
theorem Placed.located (placed : Placed config table) {key : Key}
    (migrated : ∀ ind, Home table.hashpower (config.hashedKey key) ind → table.migrated config ind) {entry : Entry Key T}
    (member : entry ∈ table.entries config) (same : entry.key = key) :
    ∃ ind slot, table.buckets.buckets ind slot = some entry ∧ InPlace config table.hashpower ind slot entry ∧
      Home table.hashpower (config.hashedKey key) ind := by
  subst same
  rcases placed.mem_entries.mp member with ⟨ind, slot, found⟩ | ⟨ind, slot, waits, found⟩
  · have place := placed.homes ind slot entry found
    exact ⟨ind, slot, found, place, place.home⟩
  · exfalso
    obtain ⟨_, doubled, enough, _⟩ := placed.pending _ waits
    have place := placed.oldHomes ind waits slot entry found
    rw [BucketContainer.size, hashsize_eq] at enough
    -- the first bucket of the key comes from one of its two old ones, under the same lock
    have halved (home : Nat) (now : Home table.hashpower (config.hashedKey entry.key) home)
        (from_ : home % 2 ^ table.oldBuckets.hashpower = ind) : False := by
      have moved := migrated home now
      rw [Table.migrated, ← config.lockInd_halve enough, from_] at moved
      rw [Table.migrated, moved] at waits
      cases waits
    rcases place.home with first | second
    · apply halved _ (Or.inl rfl)
      rw [first, ← doubled, indexHash_double]
    · apply halved _ (Or.inr rfl)
      rw [second, ← doubled, altIndex_double, indexHash_double]

end UavRfDetector.Cuckoo

import UavRfDetector.Proofs.CuckooAccess

/-! What the searches for a key find. Both buckets of the key have to be locked and
rehashed; then a search that fails is right about the whole table. -/

namespace UavRfDetector.Cuckoo
open Contents

variable {Key T : Type} {config : Config Key} {table : Table Key T} {key : Key}

variable (config table key) in
/-- The buckets a thread has locked for a key: its two at the present size, both rehashed. -/
structure Prepared (i1 i2 : Nat) : Prop where
  first : i1 = indexHash table.hashpower (config.hashedKey key).hash
  second : i2 = altIndex table.hashpower (config.hashedKey key).partialKey i1
  migrated1 : table.migrated config i1
  migrated2 : table.migrated config i2

variable {i1 i2 : Nat}

theorem Prepared.home (prepared : Prepared config table key i1 i2) {ind : Nat} :
    Home table.hashpower (config.hashedKey key) ind ↔ ind = i1 ∨ ind = i2 := by
  rw [prepared.second, prepared.first]
  rfl

theorem Prepared.inside (prepared : Prepared config table key i1 i2) {ind : Nat} (one : ind = i1 ∨ ind = i2) :
    ind < 2 ^ table.hashpower :=
  (prepared.home.mpr one).lt

theorem Prepared.migrated (prepared : Prepared config table key i1 i2) {ind : Nat} (one : ind = i1 ∨ ind = i2) :
    table.migrated config ind := by
  rcases one with rfl | rfl
  · exact prepared.migrated1
  · exact prepared.migrated2

variable (config table key i1 i2) in
/-- A position at which a thread that has locked the buckets of a key may work. -/
structure Reached (pos : TablePosition) : Prop extends Writable config table pos where
  one : pos.index = i1 ∨ pos.index = i2

theorem Prepared.reached (prepared : Prepared config table key i1 i2) {pos : TablePosition}
    (one : pos.index = i1 ∨ pos.index = i2) (slot : pos.slot < config.slotPerBucket) :
    Reached config table i1 i2 pos :=
  ⟨⟨prepared.inside one, slot, prepared.migrated one⟩, one⟩

variable [DecidableEq Key]

theorem matchesKey_iff {entry : Entry Key T} (own : entry.partialKey = (config.hashedKey entry.key).partialKey)
    (key : Key) : config.matchesKey (config.hashedKey key).partialKey key entry ↔ entry.key = key := by
  rw [Config.matchesKey, Bool.and_eq_true, beq_iff_eq]
  constructor
  · intro ⟨_, same⟩
    exact same
  · intro same
    refine ⟨?_, same⟩
    rw [own, same]
    simp

theorem matchesKey_key {partialKey : UInt8} {entry : Entry Key T}
    (matched : config.matchesKey partialKey key entry) : entry.key = key := by
  rw [Config.matchesKey, Bool.and_eq_true, beq_iff_eq] at matched
  exact matched.2

variable {b : Bucket Key T} {partialKey : UInt8}

theorem tryRead_some {slot : Nat} (found : config.tryReadFromBucket b partialKey key = some slot) :
    slot < config.slotPerBucket ∧ ∃ entry, b slot = some entry ∧ entry.key = key := by
  have inside := List.mem_range.mp (List.mem_of_find?_eq_some found)
  have matched := List.find?_some found
  obtain ⟨entry, present, same⟩ := (Option.any_eq_true _ _).mp matched
  exact ⟨inside, entry, present, matchesKey_key same⟩

theorem tryRead_none (missing : config.tryReadFromBucket b partialKey key = none) {slot : Nat}
    (inside : slot < config.slotPerBucket) {entry : Entry Key T} (present : b slot = some entry) :
    ¬ config.matchesKey partialKey key entry := by
  have unmatched := List.find?_eq_none.mp missing slot (List.mem_range.mpr inside)
  rw [present] at unmatched
  simpa using unmatched

/-- The loop of `try_find_insert_bucket` from any point on. -/
theorem findInsert_error {slots : List Nat} {free : Option Nat} {slot : Nat}
    (found : slots.foldlM (config.findInsertSlot b partialKey key) free = .error slot) :
    slot ∈ slots ∧ ∃ entry, b slot = some entry ∧ entry.key = key := by
  induction slots generalizing free with
  | nil => cases found
  | cons first slots ih =>
    rw [List.foldlM_cons, Config.findInsertSlot] at found
    split at found
    next entry present =>
      split at found
      next matched =>
        cases found
        exact ⟨List.mem_cons_self, entry, present, matchesKey_key matched⟩
      next =>
        obtain ⟨member, rest⟩ := ih found
        exact ⟨List.mem_cons_of_mem _ member, rest⟩
    next =>
      obtain ⟨member, rest⟩ := ih found
      exact ⟨List.mem_cons_of_mem _ member, rest⟩

theorem findInsert_ok {slots : List Nat} {free result : Option Nat}
    (passed : slots.foldlM (config.findInsertSlot b partialKey key) free = .ok result) :
    (∀ slot ∈ slots, ∀ entry, b slot = some entry → ¬ config.matchesKey partialKey key entry) ∧
      (result = free ∧ (∀ slot ∈ slots, (b slot).isSome) ∨ ∃ slot ∈ slots, b slot = none ∧ result = some slot) := by
  induction slots generalizing free with
  | nil =>
    cases passed
    exact ⟨by simp, Or.inl ⟨rfl, by simp⟩⟩
  | cons first slots ih =>
    rw [List.foldlM_cons, Config.findInsertSlot] at passed
    cases present : b first with
    | some entry =>
      simp only [present] at passed
      split at passed
      next => cases passed
      next unmatched =>
        obtain ⟨others, last⟩ := ih passed
        refine ⟨?_, last.imp ?_ ?_⟩
        · rw [List.forall_mem_cons]
          refine ⟨?_, others⟩
          rintro entry' found
          cases present.symm.trans found
          exact unmatched
        · intro ⟨same, full⟩
          exact ⟨same, List.forall_mem_cons.mpr ⟨by rw [present]; rfl, full⟩⟩
        · intro ⟨slot, member, rest⟩
          exact ⟨slot, List.mem_cons_of_mem _ member, rest⟩
    | none =>
      simp only [present] at passed
      obtain ⟨others, last⟩ := ih passed
      refine ⟨?_, Or.inr ?_⟩
      · rw [List.forall_mem_cons]
        refine ⟨?_, others⟩
        intro entry found
        cases present.symm.trans found
      · rcases last with ⟨same, _⟩ | ⟨slot, member, rest⟩
        · exact ⟨first, List.mem_cons_self, present, same⟩
        · exact ⟨slot, List.mem_cons_of_mem _ member, rest⟩

/-- A key that neither bucket matches is not in the table. -/
theorem Prepared.absent (prepared : Prepared config table key i1 i2) (placed : Placed config table)
    (unmatched : ∀ ind, ind = i1 ∨ ind = i2 → ∀ slot < config.slotPerBucket, ∀ entry,
      table.buckets.buckets ind slot = some entry →
        ¬ config.matchesKey (config.hashedKey key).partialKey key entry) :
    ∀ entry ∈ table.entries config, entry.key ≠ key := by
  intro entry member same
  have migrated : ∀ ind, Home table.hashpower (config.hashedKey key) ind → table.migrated config ind := by
    intro ind home
    exact prepared.migrated (prepared.home.mp home)
  obtain ⟨ind, slot, found, place, home⟩ := placed.located migrated member same
  have matched := (matchesKey_iff place.partialKey key).mpr same
  exact unmatched ind (prepared.home.mp home) slot place.slot_lt entry found matched

theorem Prepared.insert_absent (prepared : Prepared config table key i1 i2) (placed : Placed config table)
    {res1 res2 : Option Nat}
    (read1 : config.tryFindInsertBucket (table.buckets.buckets i1) (config.hashedKey key).partialKey key = .ok res1)
    (read2 : config.tryFindInsertBucket (table.buckets.buckets i2) (config.hashedKey key).partialKey key = .ok res2) :
    ∀ entry ∈ table.entries config, entry.key ≠ key := by
  apply prepared.absent placed
  rintro ind (rfl | rfl) slot inside entry present
  · exact (findInsert_ok read1).1 slot (List.mem_range.mpr inside) entry present
  · exact (findInsert_ok read2).1 slot (List.mem_range.mpr inside) entry present

theorem Prepared.find_some (prepared : Prepared config table key i1 i2) {pos : TablePosition}
    (found : table.cuckooFind config key (config.hashedKey key).partialKey i1 i2 = some pos) :
    Reached config table i1 i2 pos ∧ ∃ entry, table.entryAt pos = some entry ∧ entry.key = key := by
  rw [Table.cuckooFind] at found
  split at found
  next slot read =>
    cases found
    obtain ⟨inside, present⟩ := tryRead_some read
    exact ⟨prepared.reached (Or.inl rfl) inside, present⟩
  next =>
    split at found
    next slot read =>
      cases found
      obtain ⟨inside, present⟩ := tryRead_some read
      exact ⟨prepared.reached (Or.inr rfl) inside, present⟩
    next => cases found

theorem Prepared.find_none (prepared : Prepared config table key i1 i2) (placed : Placed config table)
    (missing : table.cuckooFind config key (config.hashedKey key).partialKey i1 i2 = none) :
    ∀ entry ∈ table.entries config, entry.key ≠ key := by
  rw [Table.cuckooFind] at missing
  split at missing
  next => cases missing
  next read1 =>
    split at missing
    next => cases missing
    next read2 =>
      apply prepared.absent placed
      rintro ind (rfl | rfl) slot inside entry present
      · exact tryRead_none read1 inside present
      · exact tryRead_none read2 inside present

variable (config table key i1 i2) in
/-- What a position and status of `cuckoo_insert` mean: where the key is, or a free slot
for it when it is nowhere. -/
def Settles (pos : TablePosition) : CuckooStatus → Prop
  | .ok => Reached config table i1 i2 pos ∧ table.entryAt pos = none ∧ ∀ entry ∈ table.entries config, entry.key ≠ key
  | .failureKeyDuplicated => Reached config table i1 i2 pos ∧ ∃ entry, table.entryAt pos = some entry ∧ entry.key = key

theorem Prepared.insert (prepared : Prepared config table key i1 i2) (placed : Placed config table)
    {pos : TablePosition} {status : CuckooStatus}
    (found : table.cuckooInsert config (config.hashedKey key).partialKey i1 i2 key = some (pos, status)) :
    Settles config table key i1 i2 pos status := by
  rw [Table.cuckooInsert] at found
  split at found
  next slot read =>
    cases found
    obtain ⟨member, present⟩ := findInsert_error read
    exact ⟨prepared.reached (Or.inl rfl) (List.mem_range.mp member), present⟩
  next res1 read1 =>
    split at found
    next slot read =>
      cases found
      obtain ⟨member, present⟩ := findInsert_error read
      exact ⟨prepared.reached (Or.inr rfl) (List.mem_range.mp member), present⟩
    next res2 read2 =>
      have absent := prepared.insert_absent placed read1 read2
      obtain ⟨_, free1⟩ := findInsert_ok read1
      obtain ⟨_, free2⟩ := findInsert_ok read2
      split at found
      next slot _ =>
        cases found
        rcases free1 with ⟨none, _⟩ | ⟨_, member, vacant, same⟩
        · cases none
        · cases same
          exact ⟨prepared.reached (Or.inl rfl) (List.mem_range.mp member), vacant, absent⟩
      next slot =>
        cases found
        rcases free2 with ⟨none, _⟩ | ⟨_, member, vacant, same⟩
        · cases none
        · cases same
          exact ⟨prepared.reached (Or.inr rfl) (List.mem_range.mp member), vacant, absent⟩
      next => cases found

theorem findInsert_full (passed : config.tryFindInsertBucket b partialKey key = .ok none) {slot : Nat}
    (inside : slot < config.slotPerBucket) : ∃ entry, b slot = some entry := by
  rcases (findInsert_ok passed).2 with ⟨_, full⟩ | ⟨_, _, _, some⟩
  · exact Option.isSome_iff_exists.mp (full slot (List.mem_range.mpr inside))
  · cases some

theorem Prepared.insert_full (prepared : Prepared config table key i1 i2) (placed : Placed config table)
    (crowded : table.cuckooInsert config (config.hashedKey key).partialKey i1 i2 key = none) :
    (∀ entry ∈ table.entries config, entry.key ≠ key) ∧
      ∀ ind, ind = i1 ∨ ind = i2 → ∀ slot < config.slotPerBucket, ∃ entry, table.entryAt ⟨ind, slot⟩ = some entry := by
  rw [Table.cuckooInsert] at crowded
  split at crowded
  next => cases crowded
  next res1 read1 =>
    split at crowded
    next => cases crowded
    next res2 read2 =>
      split at crowded
      next => cases crowded
      next => cases crowded
      next =>
        refine ⟨prepared.insert_absent placed read1 read2, ?_⟩
        rintro ind (rfl | rfl) slot inside
        · exact findInsert_full read1 inside
        · exact findInsert_full read2 inside

/-- The key is looked for again after cuckoo hashing, since the locks were released meanwhile. -/
theorem Prepared.insertFreed (prepared : Prepared config table key i1 i2) (placed : Placed config table)
    {freed pos : TablePosition} {status : CuckooStatus} (reached : Reached config table i1 i2 freed)
    (vacant : table.entryAt freed = none)
    (found : table.cuckooInsertFreed config (config.hashedKey key).partialKey i1 i2 key freed = (pos, status)) :
    Settles config table key i1 i2 pos status := by
  rw [Table.cuckooInsertFreed] at found
  split at found
  next there =>
    cases found
    exact prepared.find_some there
  next missing =>
    cases found
    exact ⟨reached, vacant, prepared.find_none placed missing⟩

end UavRfDetector.Cuckoo

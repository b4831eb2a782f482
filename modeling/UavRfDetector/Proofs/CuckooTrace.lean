import UavRfDetector.Proofs.CuckooMigration
import UavRfDetector.Proofs.CuckooPathcode

/-! The breadth-first search of a table that nobody else changes. A slot in its queue
stands for a way through occupied slots from one of the two buckets of the key, which
its path code tells, and the first one with room has no shorter way. -/

namespace UavRfDetector.Cuckoo

variable {Key T : Type} (config : Config Key)

/-- What lookups and searches do to a table: buckets that have been rehashed stay as they are. -/
structure Keeps (before after : Table Key T) : Prop where
  hashpower : after.hashpower = before.hashpower
  migrated : ∀ ind, before.migrated config ind → after.migrated config ind
  bucket : ∀ ind, before.migrated config ind → after.buckets.buckets ind = before.buckets.buckets ind

def Occupied (table : Table Key T) (source : CuckooRecord) : Prop :=
  table.migrated config source.bucket ∧
    ∃ entry, table.entryAt ⟨source.bucket, source.slot⟩ = some entry ∧ config.hashedKey entry.key = source.hv

/-- Which of the two buckets a path starts on, as its path code says. -/
def rootBucket (hp : Nat) (key : Key) (root : Nat) : Nat := if root = 0 then config.i1 hp key else config.i2 hp key

/-- A way through occupied slots to a bucket, its last slot first. -/
def Traced (table : Table Key T) (hp : Nat) (key : Key) (root : Nat) : List CuckooRecord → Nat → Prop
  | [], bucket => bucket = rootBucket config hp key root
  | source :: sources, bucket =>
    bucket = altIndex hp source.hv.partialKey source.bucket ∧ source.slot < config.slotPerBucket ∧
      Occupied config table source ∧ Traced table hp key root sources source.bucket

def Full (table : Table Key T) (bucket : Nat) : Prop :=
  ∀ slot < config.slotPerBucket, ∃ entry, table.entryAt ⟨bucket, slot⟩ = some entry

variable {config} {table after : Table Key T} {hp root : Nat} {key : Key} {sources : List CuckooRecord} {bucket : Nat}

namespace Keeps

theorem refl (table : Table Key T) : Keeps config table table := ⟨rfl, fun _ => id, fun _ _ => rfl⟩

theorem trans {middle : Table Key T} (first : Keeps config table middle) (second : Keeps config middle after) :
    Keeps config table after := by
  refine ⟨second.hashpower.trans first.hashpower, fun ind done => second.migrated ind (first.migrated ind done), ?_⟩
  intro ind done
  exact (second.bucket ind (first.migrated ind done)).trans (first.bucket ind done)

theorem rehashLock (valid : Valid config table) (l : Nat) : Keeps config table (table.rehashLock config true l) := by
  cases waits : (table.locks.lock l).isMigrated with
  | true =>
    rw [rehashLock_migrated waits]
    exact .refl table
  | false =>
    obtain ⟨_, rehashed, _⟩ := valid.rehashLock l
    have other {ind : Nat} (done : table.migrated config ind) : config.lockInd ind ≠ l := by
      intro same
      rw [Table.migrated, same, waits] at done
      cases done
    refine ⟨rehashed.within.hashpower, ?_, fun ind done => rehashed.within.bucket ind (other done)⟩
    intro ind done
    rw [Table.migrated, rehashed.within.lock _ (other done)]
    exact done

theorem rehashLocks (valid : Valid config table) (ls : List Nat) :
    Keeps config table (ls.foldl (Table.rehashLock config true) table) := by
  induction ls generalizing table with
  | nil => exact .refl table
  | cons l ls ih => exact (rehashLock valid l).trans (ih (valid.rehashLock l).1)

theorem entryAt (keeps : Keeps config table after) {pos : TablePosition} (done : table.migrated config pos.index) :
    after.entryAt pos = table.entryAt pos := by
  rw [Table.entryAt, keeps.bucket _ done]
  rfl

theorem occupied (keeps : Keeps config table after) {source : CuckooRecord} (occupied : Occupied config table source) :
    Occupied config after source := by
  obtain ⟨done, entry, present, same⟩ := occupied
  refine ⟨keeps.migrated _ done, entry, ?_, same⟩
  rw [keeps.entryAt done]
  exact present

theorem traced (keeps : Keeps config table after) (traced : Traced config table hp key root sources bucket) :
    Traced config after hp key root sources bucket := by
  induction sources generalizing bucket with
  | nil => exact traced
  | cons source sources ih =>
    obtain ⟨alternative, slot, occupied, rest⟩ := traced
    exact ⟨alternative, slot, keeps.occupied occupied, ih rest⟩

theorem full (keeps : Keeps config table after) (done : table.migrated config bucket) (full : Full config table bucket) :
    Full config after bucket := by
  intro slot inside
  obtain ⟨entry, present⟩ := full slot inside
  exact ⟨entry, (keeps.entryAt done).trans present⟩

end Keeps

theorem Traced.slots (traced : Traced config table hp key root sources bucket) :
    ∀ slot ∈ sources.map CuckooRecord.slot, slot < config.slotPerBucket := by
  induction sources generalizing bucket with
  | nil => simp
  | cons source sources ih =>
    obtain ⟨_, slot, _, rest⟩ := traced
    exact List.forall_mem_cons.mpr ⟨slot, ih rest⟩

theorem Traced.occupied (traced : Traced config table hp key root sources bucket) :
    ∀ source ∈ sources, Occupied config table source := by
  induction sources generalizing bucket with
  | nil => simp
  | cons source sources ih =>
    obtain ⟨_, _, occupied, rest⟩ := traced
    exact List.forall_mem_cons.mpr ⟨occupied, ih rest⟩

/-! One bucket of the search. -/

theorem searchedSlot_lt (x : BSlot) (i : Nat) : config.searchedSlot x i < config.slotPerBucket :=
  Nat.mod_lt _ config.slotPerBucket_pos

/-- The passes over a bucket look at every slot of it. -/
theorem searchedSlot_surjective (x : BSlot) {slot : Nat} (inside : slot < config.slotPerBucket) :
    ∃ i < config.slotPerBucket, config.searchedSlot x i = slot := by
  have positive := config.slotPerBucket_pos
  have start := Nat.mod_lt x.pathcode.toNat positive
  rcases Nat.lt_or_ge slot (x.pathcode.toNat % config.slotPerBucket) with before | after
  · refine ⟨slot + config.slotPerBucket - x.pathcode.toNat % config.slotPerBucket, by omega, ?_⟩
    have sum : x.pathcode.toNat % config.slotPerBucket +
        (slot + config.slotPerBucket - x.pathcode.toNat % config.slotPerBucket) = slot + config.slotPerBucket := by omega
    rw [Config.searchedSlot, sum, Nat.add_mod_right, Nat.mod_eq_of_lt inside]
  · refine ⟨slot - x.pathcode.toNat % config.slotPerBucket, by omega, ?_⟩
    have sum : x.pathcode.toNat % config.slotPerBucket + (slot - x.pathcode.toNat % config.slotPerBucket) = slot := by omega
    rw [Config.searchedSlot, sum, Nat.mod_eq_of_lt inside]

def Config.child (config : Config Key) (hp : Nat) (x : BSlot) (slot : Nat) (entry : Entry Key T) : BSlot :=
  ⟨altIndex hp entry.partialKey x.bucket, config.extendPathcode x.pathcode slot, x.depth + 1⟩

section Bucket
variable {b : Bucket Key T} {x : BSlot} {passes : List Nat} {q q' : BQueue}

theorem searched_ok (searched : passes.foldlM (config.searchSlot hp b x) q = .ok q') :
    (∀ i ∈ passes, ∃ entry, b (config.searchedSlot x i) = some entry) ∧ q'.first = q.first ∧
      ∃ children, q'.slots = q.slots ++ children ∧
        (∀ y ∈ children, x.depth < maxBfsPathLen - 1 ∧ ∃ i ∈ passes, ∃ entry,
          b (config.searchedSlot x i) = some entry ∧ y = config.child hp x (config.searchedSlot x i) entry) ∧
        (x.depth < maxBfsPathLen - 1 → ∀ i ∈ passes, ∀ entry, b (config.searchedSlot x i) = some entry →
          config.child hp x (config.searchedSlot x i) entry ∈ children) := by
  induction passes generalizing q with
  | nil =>
    cases searched
    exact ⟨by simp, rfl, [], by simp, by simp, by simp⟩
  | cons i passes ih =>
    rw [List.foldlM_cons, Config.searchSlot] at searched
    cases present : b (config.searchedSlot x i) with
    | none =>
      simp only [present] at searched
      cases searched
    | some entry =>
      simp only [present] at searched
      split at searched
      next shallow =>
        obtain ⟨full, first, children, slots, made, all⟩ := ih searched
        refine ⟨List.forall_mem_cons.mpr ⟨⟨entry, present⟩, full⟩, first,
          config.child hp x (config.searchedSlot x i) entry :: children, ?_, ?_, ?_⟩
        · rw [slots, BQueue.enqueue, List.append_assoc]
          rfl
        · rw [List.forall_mem_cons]
          refine ⟨⟨shallow, i, List.mem_cons_self, entry, present, rfl⟩, ?_⟩
          intro y member
          obtain ⟨_, j, later, rest⟩ := made y member
          exact ⟨shallow, j, List.mem_cons_of_mem _ later, rest⟩
        · intro _
          rw [List.forall_mem_cons]
          constructor
          · intro entry' present'
            cases present.symm.trans present'
            exact List.mem_cons_self
          · intro j later entry' present'
            exact List.mem_cons_of_mem _ (all shallow j later entry' present')
      next deep =>
        obtain ⟨full, first, children, slots, made, _⟩ := ih searched
        refine ⟨List.forall_mem_cons.mpr ⟨⟨entry, present⟩, full⟩, first, children, slots, ?_,
          fun shallow => absurd shallow deep⟩
        intro y member
        exact absurd (made y member).1 deep

theorem searched_error {x' : BSlot} (searched : passes.foldlM (config.searchSlot hp b x) q = .error x') :
    ∃ slot < config.slotPerBucket, b slot = none ∧ x' = { x with pathcode := config.extendPathcode x.pathcode slot } := by
  induction passes generalizing q with
  | nil => cases searched
  | cons i passes ih =>
    rw [List.foldlM_cons, Config.searchSlot] at searched
    cases present : b (config.searchedSlot x i) with
    | none =>
      simp only [present] at searched
      cases searched
      exact ⟨_, searchedSlot_lt x i, present, rfl⟩
    | some entry =>
      simp only [present] at searched
      split at searched
      next => exact ih searched
      next => exact ih searched

end Bucket

variable (config table hp key) in
/-- The queue of a search of the table as it is. -/
structure Explored (q : BQueue) : Prop where
  nodes : ∀ x ∈ q.slots, ∃ root sources, root < 2 ∧ sources.length = x.depth ∧
    Traced config table hp key root sources x.bucket ∧
      (config.slotPerBucket ≤ 8 → x.pathcode.toNat = pathcodeOf config root (sources.map CuckooRecord.slot))
  roots : ∀ root < 2, ∃ x ∈ q.slots, x.depth = 0 ∧ x.bucket = rootBucket config hp key root
  full : ∀ x ∈ q.slots.take q.first, table.migrated config x.bucket ∧ Full config table x.bucket
  children : ∀ x ∈ q.slots.take q.first, x.depth < maxBfsPathLen - 1 → ∀ slot < config.slotPerBucket, ∀ entry,
    table.entryAt ⟨x.bucket, slot⟩ = some entry →
      ∃ y ∈ q.slots, y.depth = x.depth + 1 ∧ y.bucket = altIndex hp entry.partialKey x.bucket
  ordered : q.slots.Pairwise fun x y => x.depth ≤ y.depth
  spread : ∀ x, q.slots[q.first]? = some x → ∀ y ∈ q.slots, y.depth ≤ x.depth + 1

namespace Explored
variable {q q' : BQueue} {x : BSlot}

theorem keeps (explored : Explored config table hp key q) (keeps : Keeps config table after) :
    Explored config after hp key q := by
  refine ⟨?_, explored.roots, ?_, ?_, explored.ordered, explored.spread⟩
  · intro x member
    obtain ⟨root, sources, small, length, traced, code⟩ := explored.nodes x member
    exact ⟨root, sources, small, length, keeps.traced traced, code⟩
  · intro x member
    obtain ⟨done, full⟩ := explored.full x member
    exact ⟨keeps.migrated _ done, keeps.full done full⟩
  · intro x member shallow slot inside entry present
    have done := (explored.full x member).1
    have before : table.entryAt ⟨x.bucket, slot⟩ = some entry := (keeps.entryAt done).symm.trans present
    exact explored.children x member shallow slot inside entry before

theorem start (table : Table Key T) (hp : Nat) (key : Key) :
    Explored config table hp key (BQueue.start (config.i1 hp key) (config.i2 hp key)) := by
  refine ⟨?_, ?_, ?_, ?_, ?_, ?_⟩
  · intro x member
    simp only [BQueue.start, BQueue.enqueue, List.nil_append, List.cons_append, List.mem_cons, List.not_mem_nil,
      or_false] at member
    rcases member with rfl | rfl
    · exact ⟨0, [], by decide, rfl, rfl, fun _ => rfl⟩
    · exact ⟨1, [], by decide, rfl, rfl, fun _ => rfl⟩
  · intro root small
    have one : root = 0 ∨ root = 1 := by omega
    rcases one with rfl | rfl
    · exact ⟨⟨config.i1 hp key, 0, 0⟩, List.mem_cons_self, rfl, rfl⟩
    · exact ⟨⟨config.i2 hp key, 1, 0⟩, List.mem_cons_of_mem _ List.mem_cons_self, rfl, rfl⟩
  · intro x member
    cases member
  · intro x member
    cases member
  · simp [BQueue.start, BQueue.enqueue]
  · intro x found y member
    simp only [BQueue.start, BQueue.enqueue, List.nil_append, List.cons_append, List.mem_cons, List.not_mem_nil,
      or_false] at member
    rcases member with rfl | rfl
    · exact Nat.zero_le _
    · exact Nat.zero_le _

theorem dequeue_eq (taken : q.dequeue = some (x, q')) :
    q.slots[q.first]? = some x ∧ q' = { q with first := q.first + 1 } := by
  simp only [BQueue.dequeue, Option.map_eq_some_iff, Prod.mk.injEq] at taken
  obtain ⟨x, found, rfl, rfl⟩ := taken
  exact ⟨found, rfl⟩

/-- A bucket that is full is behind the search once its children are in the queue. -/
theorem search (explored : Explored config table hp key q) {q₁ : BQueue} (taken : q.dequeue = some (x, q₁))
    (valid : Valid config table) (migrated : table.migrated config x.bucket)
    (searched : config.searchBucket hp (table.buckets.buckets x.bucket) x q₁ = .ok q') :
    Explored config table hp key q' := by
  obtain ⟨found, rfl⟩ := dequeue_eq taken
  have member := List.mem_of_getElem? found
  obtain ⟨passed, first, children, slots, made, all⟩ := searched_ok searched
  change q'.slots = q.slots ++ children at slots
  have whole : Full config table x.bucket := by
    intro slot inside
    obtain ⟨i, early, rfl⟩ := searchedSlot_surjective x inside
    exact passed i (List.mem_range.mpr early)
  have length : q.first + 1 ≤ q.slots.length := (List.getElem?_eq_some_iff.mp found).1
  have behind : q'.slots.take q'.first = q.slots.take q.first ++ [x] := by
    rw [slots, first, List.take_append_of_le_length length, List.take_add_one, found]
    rfl
  have old {y : BSlot} (before : y ∈ q.slots) : y ∈ q'.slots := by
    rw [slots]
    exact List.mem_append_left _ before
  obtain ⟨root, sources, small, depth, traced, code⟩ := explored.nodes x member
  refine ⟨?_, ?_, ?_, ?_, ?_, ?_⟩
  · intro y present
    rw [slots] at present
    rcases List.mem_append.mp present with before | new
    · exact explored.nodes y before
    · obtain ⟨shallow, i, _, entry, there, rfl⟩ := made y new
      have inside := @searchedSlot_lt Key config x i
      have place := valid.homes x.bucket _ entry there
      refine ⟨root, ⟨x.bucket, config.searchedSlot x i, config.hashedKey entry.key⟩ :: sources, small, ?_, ?_, ?_⟩
      · rw [List.length_cons, depth]
        rfl
      · refine ⟨?_, inside, ⟨migrated, entry, there, rfl⟩, traced⟩
        rw [Config.child, place.partialKey]
      · intro few
        have short : (sources.map CuckooRecord.slot).length < maxBfsPathLen := by
          rw [List.length_map, depth]
          omega
        exact extendPathcode_toNat few (code few) small traced.slots inside short
  · intro root small
    obtain ⟨y, before, rest⟩ := explored.roots root small
    exact ⟨y, old before, rest⟩
  · intro y present
    rw [behind] at present
    rcases List.mem_append.mp present with before | new
    · exact explored.full y before
    · cases List.mem_singleton.mp new
      exact ⟨migrated, whole⟩
  · intro y present shallow slot inside entry there
    rw [behind] at present
    rcases List.mem_append.mp present with before | new
    · obtain ⟨child, later, rest⟩ := explored.children y before shallow slot inside entry there
      exact ⟨child, old later, rest⟩
    · cases List.mem_singleton.mp new
      obtain ⟨i, early, rfl⟩ := searchedSlot_surjective x inside
      refine ⟨config.child hp x (config.searchedSlot x i) entry, ?_, rfl, rfl⟩
      rw [slots]
      exact List.mem_append_right _ (all shallow i (List.mem_range.mpr early) entry there)
  · rw [slots, List.pairwise_append]
    refine ⟨explored.ordered, ?_, ?_⟩
    · apply List.pairwise_iff_forall_sublist.mpr
      intro y z pair
      have first := (made y (pair.subset List.mem_cons_self))
      have second := (made z (pair.subset (List.mem_cons_of_mem _ List.mem_cons_self)))
      obtain ⟨_, _, _, _, _, rfl⟩ := first
      obtain ⟨_, _, _, _, _, rfl⟩ := second
      exact Nat.le_refl _
    · intro y before z new
      obtain ⟨_, _, _, _, _, rfl⟩ := made z new
      exact explored.spread x found y before
  · intro z head y present
    have later : x.depth ≤ z.depth := by
      rw [first, slots] at head
      rcases Nat.lt_or_ge (q.first + 1) q.slots.length with inside | outside
      · rw [List.getElem?_append_left inside] at head
        obtain ⟨_, same⟩ := List.getElem?_eq_some_iff.mp found
        obtain ⟨_, same'⟩ := List.getElem?_eq_some_iff.mp head
        rw [← same, ← same']
        exact List.pairwise_iff_getElem.mp explored.ordered _ _ _ _ (Nat.lt_succ_self _)
      · rw [List.getElem?_append_right outside] at head
        obtain ⟨_, _, _, _, _, rfl⟩ := made z (List.mem_of_getElem? head)
        exact Nat.le_succ _
    rw [slots] at present
    rcases List.mem_append.mp present with before | new
    · have near := explored.spread x found y before
      omega
    · obtain ⟨_, _, _, _, _, rfl⟩ := made y new
      change x.depth + 1 ≤ z.depth + 1
      omega

/-- What is nearer than the next slot of the queue is behind the search. -/
theorem behind (explored : Explored config table hp key q) (found : q.slots[q.first]? = some x) {y : BSlot}
    (member : y ∈ q.slots) (nearer : y.depth < x.depth) : y ∈ q.slots.take q.first := by
  obtain ⟨j, inside, rfl⟩ := List.mem_iff_getElem.mp member
  obtain ⟨bound, rfl⟩ := List.getElem?_eq_some_iff.mp found
  by_contra ahead
  have late : q.first ≤ j := by
    by_contra early
    exact ahead (List.mem_take_iff_getElem.mpr ⟨j, by omega, rfl⟩)
  rcases Nat.lt_or_eq_of_le late with less | same
  · have ordered := List.pairwise_iff_getElem.mp explored.ordered q.first j bound inside less
    omega
  · subst same
    exact absurd nearer (Nat.lt_irrefl _)

/-- Every way that is shorter has been searched. -/
theorem nearer (explored : Explored config table hp key q) (found : q.slots[q.first]? = some x)
    (shallow : x.depth < maxBfsPathLen) (valid : Valid config table) (small : root < 2)
    (traced : Traced config table hp key root sources bucket) (shorter : sources.length < x.depth) :
    ∃ y ∈ q.slots.take q.first, y.depth = sources.length ∧ y.bucket = bucket := by
  induction sources generalizing bucket with
  | nil =>
    obtain ⟨y, member, depth, same⟩ := explored.roots root small
    refine ⟨y, explored.behind found member ?_, depth, same.trans traced.symm⟩
    rw [depth]
    exact shorter
  | cons source sources ih =>
    obtain ⟨alternative, slot, ⟨_, entry, present, hashed⟩, rest⟩ := traced
    rw [List.length_cons] at shorter ⊢
    obtain ⟨y, before, depth, same⟩ := ih rest (by omega)
    have here : table.entryAt ⟨y.bucket, source.slot⟩ = some entry := by
      rw [same]
      exact present
    have room : y.depth < maxBfsPathLen - 1 := by omega
    obtain ⟨z, member, deeper, next⟩ := explored.children y before room source.slot slot entry here
    refine ⟨z, explored.behind found member (by omega), by omega, ?_⟩
    rw [next, alternative, same, (valid.homes _ _ entry present).partialKey, hashed]

end Explored

/-- A way that comes back to a bucket has a shortcut. -/
theorem Traced.shortcut (traced : Traced config table hp key root sources bucket)
    (again : ¬ (bucket :: sources.map CuckooRecord.bucket).Nodup) :
    ∃ shorter, shorter.length < sources.length ∧ Traced config table hp key root shorter bucket := by
  induction sources generalizing bucket with
  | nil => exact absurd (List.nodup_singleton bucket) again
  | cons source sources ih =>
    obtain ⟨alternative, slot, occupied, rest⟩ := traced
    by_cases twice : (source.bucket :: sources.map CuckooRecord.bucket).Nodup
    · -- it comes back to its own end
      have back : bucket ∈ source.bucket :: sources.map CuckooRecord.bucket := by
        by_contra new
        exact again (List.nodup_cons.mpr ⟨new, twice⟩)
      clear ih twice again alternative slot occupied
      rw [List.length_cons]
      induction sources generalizing source with
      | nil =>
        cases List.mem_singleton.mp back
        exact ⟨[], Nat.zero_lt_one, rest⟩
      | cons next sources ih =>
        rcases List.mem_cons.mp back with rfl | earlier
        · exact ⟨next :: sources, Nat.lt_succ_self _, rest⟩
        · obtain ⟨shorter, less, found⟩ := ih next rest.2.2.2 earlier
          exact ⟨shorter, Nat.lt_succ_of_lt less, found⟩
    · obtain ⟨shorter, less, found⟩ := ih rest twice
      exact ⟨source :: shorter, Nat.succ_lt_succ less, alternative, slot, occupied, found⟩

theorem Explored.simple {q : BQueue} {x : BSlot} (explored : Explored config table hp key q)
    (found : q.slots[q.first]? = some x) (shallow : x.depth < maxBfsPathLen) (valid : Valid config table) {slot : Nat}
    (inside : slot < config.slotPerBucket) (vacant : table.entryAt ⟨x.bucket, slot⟩ = none) (small : root < 2)
    (traced : Traced config table hp key root sources x.bucket) (length : sources.length = x.depth) :
    (x.bucket :: sources.map CuckooRecord.bucket).Nodup := by
  by_contra again
  obtain ⟨shorter, less, traced'⟩ := traced.shortcut again
  obtain ⟨y, before, _, same⟩ := explored.nearer found shallow valid small traced' (by omega)
  obtain ⟨entry, present⟩ := (explored.full y before).2 slot inside
  rw [same, vacant] at present
  cases present

variable (config table hp) in
/-- A way through occupied slots from a bucket to another, its first slot first. -/
def Follows : List CuckooRecord → Nat → Nat → Prop
  | [], bucket, last => bucket = last
  | source :: ahead, bucket, last => source.bucket = bucket ∧ source.slot < config.slotPerBucket ∧
      Occupied config table source ∧ Follows ahead (altIndex hp source.hv.partialKey bucket) last

theorem Keeps.follows (keeps : Keeps config table after) {ahead : List CuckooRecord} {last : Nat}
    (follows : Follows config table hp ahead bucket last) : Follows config after hp ahead bucket last := by
  induction ahead generalizing bucket with
  | nil => exact follows
  | cons source ahead ih =>
    obtain ⟨here, slot, occupied, rest⟩ := follows
    exact ⟨here, slot, keeps.occupied occupied, ih rest⟩

theorem Follows.snoc {ahead : List CuckooRecord} {source : CuckooRecord} {first : Nat}
    (follows : Follows config table hp ahead first source.bucket) (slot : source.slot < config.slotPerBucket)
    (occupied : Occupied config table source) :
    Follows config table hp (ahead ++ [source]) first (altIndex hp source.hv.partialKey source.bucket) := by
  induction ahead generalizing first with
  | nil =>
    cases follows
    exact ⟨rfl, slot, occupied, rfl⟩
  | cons next ahead ih =>
    obtain ⟨here, slot', occupied', rest⟩ := follows
    exact ⟨here, slot', occupied', ih rest⟩

theorem Traced.follows (traced : Traced config table hp key root sources bucket) :
    Follows config table hp sources.reverse (rootBucket config hp key root) bucket := by
  induction sources generalizing bucket with
  | nil => exact traced.symm
  | cons source sources ih =>
    obtain ⟨alternative, slot, occupied, rest⟩ := traced
    rw [List.reverse_cons, alternative]
    exact (ih rest).snoc slot occupied

/-- The path code of a search leads back to the slots the search went through. -/
theorem Traced.decoded {x : BSlot} {slot : Nat} (traced : Traced config table hp key root sources x.bucket)
    (few : config.slotPerBucket ≤ 8) (small : root < 2) (length : sources.length = x.depth)
    (shallow : x.depth < maxBfsPathLen) (code : x.pathcode.toNat = pathcodeOf config root (sources.map CuckooRecord.slot))
    (inside : slot < config.slotPerBucket) :
    config.decodePath { x with pathcode := config.extendPathcode x.pathcode slot } (config.i1 hp key) (config.i2 hp key) =
      (rootBucket config hp key root, sources.reverse.map CuckooRecord.slot ++ [slot]) := by
  have reversed : (sources.reverse.map CuckooRecord.slot ++ [slot]).reverse = slot :: sources.map CuckooRecord.slot := by
    rw [List.reverse_append, List.map_reverse, List.reverse_reverse]
    rfl
  apply decodePath_eq
  · rw [reversed]
    apply extendPathcode_toNat few code small traced.slots inside
    rw [List.length_map, length]
    exact shallow
  · intro other member
    rcases List.mem_append.mp member with before | last
    · rw [List.map_reverse, List.mem_reverse] at before
      exact traced.slots other before
    · cases List.mem_singleton.mp last
      exact inside
  · rw [List.length_append, List.length_map, List.length_reverse, length]
    rfl

end UavRfDetector.Cuckoo

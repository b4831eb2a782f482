import UavRfDetector.Proofs.CuckooAccess

/-! Moving elements from the old buckets to the new ones. `move_bucket` finds all its
destinations empty, and loses and duplicates nothing; so does a lock that migrates. -/

namespace UavRfDetector.Cuckoo
open Contents

variable {Key T : Type} {config : Config Key}

def BucketContainer.cells (config : Config Key) (container : BucketContainer Key T) : Finset (Nat × Nat) :=
  Finset.range container.size ×ˢ Finset.range config.slotPerBucket

def BucketContainer.items (config : Config Key) (container : BucketContainer Key T) : Multiset (Entry Key T) :=
  contents (container.cells config) container.cell

theorem BucketContainer.items_write {container : BucketContainer Key T} {ind slot : Nat}
    (inside : ind < 2 ^ container.hashpower) (small : slot < config.slotPerBucket)
    (vacant : container.buckets ind slot = none) (entry : Entry Key T) :
    (container.write ind slot (some entry)).items config = container.items config + {entry} := by
  have member : (ind, slot) ∈ container.cells config := by
    simp only [BucketContainer.cells, Finset.mem_product, Finset.mem_range, BucketContainer.size, hashsize_eq]
    exact ⟨inside, small⟩
  have updated := contents_update member container.cell (some entry)
  change _ + content (container.buckets ind slot) = _ at updated
  rw [vacant, content_none, add_zero, content_some] at updated
  rw [BucketContainer.items, BucketContainer.write_cell]
  exact updated

section Bucket
variable {old new : BucketContainer Key T} {ind : Nat}

variable (config old new ind) in
/-- A bucket that can be moved: its elements are in place and nothing is where they go. -/
structure Movable : Prop where
  doubled : new.hashpower = old.hashpower + 1
  inside : ind < 2 ^ old.hashpower
  low : ∀ slot, new.buckets ind slot = none
  high : ∀ slot, new.buckets (ind + old.size) slot = none
  homes : ∀ slot entry, old.buckets ind slot = some entry → InPlace config old.hashpower ind slot entry

variable (config old new ind) in
/-- The loop of `move_bucket` after its first `count` slots. -/
structure Moving (count : Nat) (moved : BucketContainer Key T) (newBucketSlot : Nat) : Prop where
  hashpower : moved.hashpower = new.hashpower
  isDeallocated : moved.isDeallocated = new.isDeallocated
  others : ∀ j, j ≠ ind → j ≠ ind + old.size → moved.buckets j = new.buckets j
  low : ∀ slot, count ≤ slot → moved.buckets ind slot = none
  high : ∀ slot, newBucketSlot ≤ slot → moved.buckets (ind + old.size) slot = none
  behind : newBucketSlot ≤ count
  homes : ∀ j, j = ind ∨ j = ind + old.size → ∀ slot entry, moved.buckets j slot = some entry →
    InPlace config new.hashpower j slot entry
  items : moved.items config = new.items config + contents (Finset.range count) (old.buckets ind)

theorem Movable.start (movable : Movable config old new ind) : Moving config old new ind 0 new 0 := by
  refine ⟨rfl, rfl, fun _ _ _ => rfl, fun slot _ => movable.low slot, fun slot _ => movable.high slot, le_rfl, ?_, ?_⟩
  · rintro j (rfl | rfl) slot entry found
    · rw [movable.low slot] at found
      cases found
    · rw [movable.high slot] at found
      cases found
  · simp [contents]

theorem size_pos (container : BucketContainer Key T) : 0 < container.size := by
  rw [BucketContainer.size, hashsize_eq]
  exact Nat.two_pow_pos _

/-- The next element is put into a slot that is free and will not be used again. -/
theorem Moving.put {count newBucketSlot : Nat} {moved : BucketContainer Key T}
    (moving : Moving config old new ind count moved newBucketSlot) {entry : Entry Key T}
    (present : old.buckets ind count = some entry) {j slot next : Nat} (one : j = ind ∨ j = ind + old.size)
    (vacant : moved.buckets j slot = none) (place : InPlace config new.hashpower j slot entry)
    (low : j = ind → slot ≤ count) (high : j = ind + old.size → slot < next)
    (forward : newBucketSlot ≤ next) (behind : next ≤ count + 1) :
    Moving config old new ind (count + 1) (moved.write j slot (some entry)) next := by
  have inside := place.home.lt
  rw [← moving.hashpower] at inside
  refine ⟨moving.hashpower, moving.isDeallocated, ?_, ?_, ?_, behind, ?_, ?_⟩
  · intro other apart away
    funext slot'
    rw [BucketContainer.write_buckets, if_neg, moving.others other apart away]
    rintro ⟨rfl, _⟩
    exact one.elim apart away
  · intro slot' later
    rw [BucketContainer.write_buckets, if_neg]
    · exact moving.low slot' (by omega)
    · rintro ⟨same, rfl⟩
      have := low same.symm
      omega
  · intro slot' later
    rw [BucketContainer.write_buckets, if_neg]
    · exact moving.high slot' (by omega)
    · rintro ⟨same, rfl⟩
      have := high same.symm
      omega
  · intro other either slot' entry' found
    rw [BucketContainer.write_buckets] at found
    split at found
    next here =>
      obtain ⟨rfl, rfl⟩ := here
      cases found
      exact place
    next => exact moving.homes other either slot' entry' found
  · rw [BucketContainer.items_write inside place.slot_lt vacant, moving.items, add_assoc]
    congr 1
    rw [contents, contents, Finset.sum_range_succ, present, content_some]

theorem Moving.step (movable : Movable config old new ind) {count newBucketSlot : Nat} {moved : BucketContainer Key T}
    (moving : Moving config old new ind count moved newBucketSlot) (small : count < config.slotPerBucket) :
    Moving config old new ind (count + 1) (config.moveSlot old ind (moved, newBucketSlot) count).1
      (config.moveSlot old ind (moved, newBucketSlot) count).2 := by
  have behind := moving.behind
  have positive := size_pos old
  rw [Config.moveSlot]
  cases present : old.buckets ind count with
  | none =>
    change Moving config old new ind (count + 1) moved newBucketSlot
    refine ⟨moving.hashpower, moving.isDeallocated, moving.others, ?_, moving.high, by omega, moving.homes, ?_⟩
    · intro slot later
      exact moving.low slot (by omega)
    · rw [moving.items]
      congr 1
      rw [contents, contents, Finset.sum_range_succ, present, content_none, add_zero]
  | some entry =>
    have place := movable.homes count entry present
    have power : moved.hashpower = old.hashpower + 1 := moving.hashpower.trans movable.doubled
    simp only [power]
    split
    next moves =>
      have home : Home new.hashpower (config.hashedKey entry.key) (ind + old.size) := by
        rw [movable.doubled]
        exact moves.home
      exact moving.put present (Or.inr rfl) (moving.high newBucketSlot le_rfl) ⟨by omega, place.partialKey, home⟩
        (by omega) (by omega) (by omega) (by omega)
    next stays =>
      have home : Home new.hashpower (config.hashedKey entry.key) ind := by
        rw [movable.doubled]
        exact place.home.stays stays
      exact moving.put present (Or.inl rfl) (moving.low count le_rfl) ⟨small, place.partialKey, home⟩
        (by omega) (by omega) (by omega) (by omega)

theorem Movable.moves (movable : Movable config old new ind) {count : Nat} (small : count ≤ config.slotPerBucket) :
    Moving config old new ind count ((List.range count).foldl (config.moveSlot old ind) (new, 0)).1
      ((List.range count).foldl (config.moveSlot old ind) (new, 0)).2 := by
  induction count with
  | zero => exact movable.start
  | succ count ih =>
    rw [List.range_succ, List.foldl_append]
    exact (ih (by omega)).step movable (by omega)

theorem Movable.moveBucket (movable : Movable config old new ind) :
    ∃ newBucketSlot, Moving config old new ind config.slotPerBucket (config.moveBucket old new ind) newBucketSlot :=
  ⟨_, movable.moves le_rfl⟩

end Bucket

section Buckets
variable {old new : BucketContainer Key T} {inds : List Nat}

variable (config old new inds) in
/-- Several buckets moved one after the other. -/
structure MovedAll (moved : BucketContainer Key T) : Prop where
  hashpower : moved.hashpower = new.hashpower
  isDeallocated : moved.isDeallocated = new.isDeallocated
  others : ∀ j, j % old.size ∉ inds → moved.buckets j = new.buckets j
  homes : ∀ j, j % old.size ∈ inds → ∀ slot entry, moved.buckets j slot = some entry →
    InPlace config new.hashpower j slot entry
  items : moved.items config =
    new.items config + (inds.map fun ind => contents (Finset.range config.slotPerBucket) (old.buckets ind)).sum

theorem moveBuckets (doubled : new.hashpower = old.hashpower + 1) (inside : ∀ ind ∈ inds, ind < old.size)
    (nodup : inds.Nodup) (vacant : ∀ j, j % old.size ∈ inds → ∀ slot, new.buckets j slot = none)
    (homes : ∀ ind ∈ inds, ∀ slot entry, old.buckets ind slot = some entry →
      InPlace config old.hashpower ind slot entry) :
    MovedAll config old new inds (inds.foldl (config.moveBucket old) new) := by
  induction inds generalizing new with
  | nil => exact ⟨rfl, rfl, fun _ _ => rfl, fun _ member => by simp at member, by simp⟩
  | cons ind inds ih =>
    rw [List.nodup_cons] at nodup
    have small := inside ind List.mem_cons_self
    have size : old.size = 2 ^ old.hashpower := hashsize_eq _
    have low : ind % old.size = ind := Nat.mod_eq_of_lt small
    have high : (ind + old.size) % old.size = ind := by rw [Nat.add_mod_right, low]
    have movable : Movable config old new ind := by
      refine ⟨doubled, by rw [← size]; exact small, ?_, ?_, homes ind List.mem_cons_self⟩
      · exact vacant ind (by rw [low]; exact List.mem_cons_self)
      · exact vacant _ (by rw [high]; exact List.mem_cons_self)
    obtain ⟨_, moving⟩ := movable.moveBucket
    have apart (j : Nat) (other : j % old.size ≠ ind) :
        (config.moveBucket old new ind).buckets j = new.buckets j := by
      apply moving.others
      · rintro rfl
        exact other low
      · rintro rfl
        exact other high
    have rest := @ih (config.moveBucket old new ind) (moving.hashpower.trans doubled)
      (fun other member => inside other (List.mem_cons_of_mem _ member)) nodup.2 (by
        intro j member slot
        rw [apart j (fun same => nodup.1 (same ▸ member))]
        exact vacant j (List.mem_cons_of_mem _ member) slot)
      (fun other member => homes other (List.mem_cons_of_mem _ member))
    rw [List.foldl_cons]
    refine ⟨rest.hashpower.trans moving.hashpower, rest.isDeallocated.trans moving.isDeallocated, ?_, ?_, ?_⟩
    · intro j other
      rw [List.mem_cons, not_or] at other
      rw [rest.others j other.2, apart j other.1]
    · intro j member slot entry found
      by_cases later : j % old.size ∈ inds
      · have place := rest.homes j later slot entry found
        rwa [moving.hashpower] at place
      · have here : j % old.size = ind := by
          rcases List.mem_cons.mp member with same | other
          · exact same
          · exact absurd other later
        rw [rest.others j later] at found
        by_cases one : j = ind ∨ j = ind + old.size
        · exact moving.homes j one slot entry found
        · rw [not_or] at one
          rw [moving.others j one.1 one.2, vacant j member slot] at found
          cases found
    · rw [rest.items, moving.items, List.map_cons, List.sum_cons, add_assoc]

end Buckets

end UavRfDetector.Cuckoo

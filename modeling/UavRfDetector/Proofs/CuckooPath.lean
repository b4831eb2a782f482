import Mathlib.Algebra.Ring.GeomSum
import UavRfDetector.Cuckoo.Threads
import UavRfDetector.Layers

/-! Cuckoo paths. Whatever other threads do meanwhile, a path stays a chain of
alternative buckets from one of the two buckets of the key to be inserted. -/

namespace UavRfDetector.Cuckoo

variable {Key T : Type} (config : Config Key) {hp : Nat}

def Chain (hp : Nat) (key : Key) : List CuckooRecord → Nat → Prop
  | [], bucket => bucket = config.i1 hp key ∨ bucket = config.i2 hp key
  | source :: sources, bucket =>
    bucket = altIndex hp source.hv.partialKey source.bucket ∧ source.hv.partialKey = partialKey source.hv.hash ∧
      source.slot < config.slotPerBucket ∧ Chain hp key sources source.bucket

def BQueue.depths (q : BQueue) : List Nat := q.slots.map BSlot.depth

/-- A queue of the breadth-first search, while so many children of a depth may still come. -/
structure BQueue.Grown (hp depth left : Nat) (q : BQueue) : Prop where
  inside : ∀ x ∈ q.slots, x.bucket < 2 ^ hp
  shallow : ∀ d ∈ q.depths, d < maxBfsPathLen
  roots : q.depths.count 0 ≤ 2
  children : ∀ d, q.depths.count (d + 1) + (if d = depth then left else 0) ≤
    config.slotPerBucket * (q.depths.take q.first).count d

def Section.Ok (hp : Nat) : Section Key T → Prop
  | .slotSearch _ x q =>
    x.bucket < 2 ^ hp ∧ x.depth < maxBfsPathLen ∧ q.Grown config hp x.depth config.slotPerBucket
  | .pathSearch ins sources pos slots =>
    Chain config hp ins.key sources pos.index ∧ ∀ slot ∈ pos.slot :: slots, slot < config.slotPerBucket
  | .pathMove ins sources target => Chain config hp ins.key sources target.index ∧ target.slot < config.slotPerBucket
  | _ => True

variable {config} {key : Key} {sources : List CuckooRecord} {bucket : Nat}

theorem i1_lt (hp : Nat) (key : Key) : config.i1 hp key < 2 ^ hp := indexHash_lt _ _

theorem i2_lt (hp : Nat) (key : Key) : config.i2 hp key < 2 ^ hp := altIndex_lt _ _ _

theorem Chain.inside (chain : Chain config hp key sources bucket) : bucket < 2 ^ hp := by
  cases sources with
  | nil =>
    rcases chain with same | same
    · rw [same]
      exact i1_lt hp key
    · rw [same]
      exact i2_lt hp key
  | cons source sources =>
    rw [chain.1]
    exact altIndex_lt _ _ _

theorem ordered_eq (l m : Nat) : ordered l m = (min l m, max l m) := by
  unfold ordered
  split
  next => rw [Nat.min_eq_right (by omega), Nat.max_eq_left (by omega)]
  next => rw [Nat.min_eq_left (by omega), Nat.max_eq_right (by omega)]

theorem mem_lockTwo {l1 l2 l : Nat} : l ∈ lockTwo l1 l2 ↔ l = l1 ∨ l = l2 := by
  simp only [lockTwo, ordered_eq, List.mem_cons]
  split <;> simp <;> omega

theorem mem_lockThree {l0 l1 l2 l : Nat} : l ∈ lockThree l0 l1 l2 ↔ l = l0 ∨ l = l1 ∨ l = l2 := by
  simp only [lockThree, ordered_eq, List.mem_cons, List.mem_append]
  split <;> split <;> simp <;> omega

theorem lockTwo_ordered (l1 l2 : Nat) : (lockTwo l1 l2).Pairwise (· < ·) := by
  simp only [lockTwo, ordered_eq]
  split <;> simp
  omega

theorem lockThree_ordered (l0 l1 l2 : Nat) : (lockThree l0 l1 l2).Pairwise (· < ·) := by
  simp only [lockThree, ordered_eq]
  split <;> split <;> simp <;> omega

theorem mem_lockKey {l : Nat} : l ∈ Section.lockKey config hp key ↔
    l = config.lockInd (config.i1 hp key) ∨ l = config.lockInd (config.i2 hp key) :=
  mem_lockTwo

/-- Locks are taken in the order of their indices, none twice. -/
theorem Section.lockInds_ordered (hp : Nat) (sec : Section Key T) : (sec.lockInds config hp).Pairwise (· < ·) := by
  match sec with
  | .findFn _ | .updateFn _ _ | .eraseFn _ _ | .cuckooInsert _ | .pathMove _ [] _ => exact lockTwo_ordered _ _
  | .slotSearch _ _ _ | .pathSearch _ _ _ _ => exact List.pairwise_singleton _ _
  | .pathMove _ [_] _ => exact lockThree_ordered _ _ _
  | .pathMove _ (_ :: _ :: _) _ => exact lockTwo_ordered _ _

/-- Every lock a thread wants is that of a bucket of the table. -/
theorem Section.Ok.lock {sec : Section Key T} (ok : sec.Ok config hp) {l : Nat} (member : l ∈ sec.lockInds config hp) :
    ∃ ind, ind < 2 ^ hp ∧ l = config.lockInd ind := by
  have ofKey {key : Key} (one : l ∈ Section.lockKey config hp key) : ∃ ind, ind < 2 ^ hp ∧ l = config.lockInd ind := by
    rcases mem_lockKey.mp one with same | same
    · exact ⟨_, i1_lt hp key, same⟩
    · exact ⟨_, i2_lt hp key, same⟩
  match sec, ok with
  | .findFn _, _ | .updateFn _ _, _ | .eraseFn _ _, _ | .cuckooInsert _, _ | .pathMove _ [] _, _ => exact ofKey member
  | .slotSearch _ x _, ok => exact ⟨_, ok.1, List.mem_singleton.mp member⟩
  | .pathSearch _ _ pos _, ok => exact ⟨_, ok.1.inside, List.mem_singleton.mp member⟩
  | .pathMove ins [source] target, ok =>
    rcases mem_lockThree.mp member with same | same | same
    · exact ⟨_, i1_lt hp ins.key, same⟩
    · exact ⟨_, i2_lt hp ins.key, same⟩
    · exact ⟨_, ok.1.inside, same⟩
  | .pathMove _ (source :: _ :: _) target, ok =>
    rcases mem_lockTwo.mp member with same | same
    · exact ⟨_, ok.1.2.2.2.inside, same⟩
    · exact ⟨_, ok.1.inside, same⟩

theorem Section.lockInds_cons (hp : Nat) (sec : Section Key T) : ∃ l ls, sec.lockInds config hp = l :: ls := by
  match sec with
  | .findFn _ | .updateFn _ _ | .eraseFn _ _ | .cuckooInsert _ | .pathMove _ [] _ => exact ⟨_, _, rfl⟩
  | .slotSearch _ _ _ | .pathSearch _ _ _ _ | .pathMove _ [_] _ => exact ⟨_, _, rfl⟩
  | .pathMove _ (_ :: _ :: _) _ => exact ⟨_, _, rfl⟩

namespace BQueue.Grown
variable {q q' : BQueue} {depth left : Nat}

theorem start (hp : Nat) (key : Key) :
    (BQueue.start (config.i1 hp key) (config.i2 hp key)).Grown config hp depth 0 := by
  refine ⟨?_, ?_, Nat.le_refl _, ?_⟩
  · intro x member
    simp only [BQueue.start, BQueue.enqueue, List.nil_append, List.cons_append, List.mem_cons, List.not_mem_nil,
      or_false] at member
    rcases member with rfl | rfl
    · exact i1_lt hp key
    · exact i2_lt hp key
  · intro d member
    simp only [BQueue.depths, BQueue.start, BQueue.enqueue, List.nil_append, List.cons_append, List.map_cons,
      List.map_nil, List.mem_cons, List.not_mem_nil, or_false, or_self] at member
    rw [member]
    decide
  · intro d
    simp [BQueue.depths, BQueue.start, BQueue.enqueue]

/-- Fewer children may come than are allowed. -/
theorem less (grown : q.Grown config hp depth left) {depth' left' : Nat} (fewer : left' = 0 ∨ depth' = depth ∧ left' ≤ left) :
    q.Grown config hp depth' left' := by
  refine ⟨grown.inside, grown.shallow, grown.roots, ?_⟩
  intro d
  have enough := grown.children d
  rcases fewer with rfl | ⟨rfl, fewer⟩
  · rw [ite_self, add_zero]
    omega
  · split at enough
    next same =>
      rw [if_pos same]
      omega
    next other =>
      rw [if_neg other]
      omega

theorem enqueue (grown : q.Grown config hp depth (left + 1)) {bucket : Nat} (small : bucket < 2 ^ hp) (pathcode : UInt16)
    (shallow : depth + 1 < maxBfsPathLen) : (q.enqueue ⟨bucket, pathcode, depth + 1⟩).Grown config hp depth left := by
  have depths : (q.enqueue ⟨bucket, pathcode, depth + 1⟩).depths = q.depths ++ [depth + 1] := List.map_append
  refine ⟨?_, ?_, ?_, ?_⟩
  · intro y member
    rcases List.mem_append.mp member with old | new
    · exact grown.inside y old
    · cases List.mem_singleton.mp new
      exact small
  · intro d member
    rw [depths] at member
    rcases List.mem_append.mp member with old | new
    · exact grown.shallow d old
    · cases List.mem_singleton.mp new
      exact shallow
  · rw [depths, List.count_append, List.count_singleton]
    exact grown.roots
  · intro d
    have enough := grown.children d
    have more : (q.depths.take q.first).count d ≤ ((q.depths ++ [depth + 1]).take q.first).count d := by
      apply List.Sublist.count_le
      rw [List.take_append]
      exact List.sublist_append_left _ _
    have product := Nat.mul_le_mul_left config.slotPerBucket more
    rw [depths, List.count_append, List.count_singleton]
    change _ ≤ config.slotPerBucket * ((q.depths ++ [depth + 1]).take q.first).count d
    by_cases same : d = depth
    · subst same
      rw [if_pos rfl] at enough
      simp only [beq_self_eq_true, if_true]
      omega
    · rw [if_neg same] at enough
      have other : (depth + 1 == d + 1) = false := by
        simpa using fun equal => same equal.symm
      rw [other, if_neg same]
      simp only [Bool.false_eq_true, if_false]
      omega

/-- Taking a slot from the queue allows as many children as its bucket has slots. -/
theorem dequeue (grown : q.Grown config hp depth 0) {x : BSlot} (taken : q.dequeue = some (x, q')) :
    x.bucket < 2 ^ hp ∧ x.depth < maxBfsPathLen ∧ q'.Grown config hp x.depth config.slotPerBucket := by
  simp only [BQueue.dequeue, Option.map_eq_some_iff, Prod.mk.injEq] at taken
  obtain ⟨x, found, rfl, rfl⟩ := taken
  have member := List.mem_of_getElem? found
  refine ⟨grown.inside x member, grown.shallow _ (List.mem_map_of_mem member), grown.inside, grown.shallow, grown.roots, ?_⟩
  intro d
  have enough := grown.children d
  rw [ite_self] at enough
  have next : q.depths[q.first]? = some x.depth := by
    rw [BQueue.depths, List.getElem?_map, found]
    rfl
  change q.depths.count (d + 1) + _ ≤ config.slotPerBucket * (q.depths.take (q.first + 1)).count d
  rw [List.take_add_one, next, Option.toList_some, List.count_append, List.count_singleton, Nat.mul_add]
  by_cases same : d = x.depth
  · subst same
    simp only [beq_self_eq_true, if_true]
    omega
  · rw [if_neg same]
    omega

/-- The loop of `slot_search` over a bucket, over any slots. -/
theorem searched {b : Bucket Key T} {x : BSlot} {slots : List Nat} (grown : q.Grown config hp x.depth (slots.length + left))
    (searched : slots.foldlM (config.searchSlot hp b x) q = .ok q') : q'.Grown config hp x.depth left := by
  induction slots generalizing q with
  | nil =>
    cases searched
    rw [List.length_nil, Nat.zero_add] at grown
    exact grown
  | cons slot slots ih =>
    rw [List.length_cons, Nat.add_right_comm] at grown
    rw [List.foldlM_cons, Config.searchSlot] at searched
    split at searched
    next => cases searched
    next entry _ =>
      split at searched
      next shallow =>
        apply ih _ searched
        exact grown.enqueue (altIndex_lt _ _ _) _ (by omega)
      next => exact ih (grown.less (Or.inr ⟨rfl, by omega⟩)) searched

theorem maxCuckooCount_eq : config.maxCuckooCount = 2 * ∑ d ∈ Finset.range maxBfsPathLen, config.slotPerBucket ^ d := by
  have positive := config.slotPerBucket_pos
  rw [Config.maxCuckooCount]
  split
  next one => simp [one]
  next more => rw [Nat.geomSum_eq (by omega)]

/-- The array of the queue has room for what is in it and what is still to come. -/
theorem length_le (grown : q.Grown config hp depth left) (shallow : left = 0 ∨ depth + 1 < maxBfsPathLen) :
    q.slots.length + left ≤ config.maxCuckooCount := by
  have bound : (q.depths ++ List.replicate left (depth + 1)).length ≤
      2 * ∑ d ∈ Finset.range maxBfsPathLen, config.slotPerBucket ^ d := by
    apply Layers.length_le
    · rw [List.count_append, List.count_replicate]
      exact grown.roots
    · intro d
      have enough := grown.children d
      have taken : (q.depths.take q.first).count d ≤ (q.depths ++ List.replicate left (depth + 1)).count d :=
        ((List.take_sublist _ _).trans (List.sublist_append_left _ _)).count_le _
      have product := Nat.mul_le_mul_left config.slotPerBucket taken
      rw [List.count_append, List.count_replicate]
      by_cases same : d = depth
      · subst same
        rw [if_pos rfl] at enough
        simp only [beq_self_eq_true, if_true]
        omega
      · rw [if_neg same] at enough
        have other : (depth + 1 == d + 1) = false := by
          simpa using fun equal => same equal.symm
        rw [other]
        simp only [Bool.false_eq_true, if_false]
        omega
    · intro d member
      rcases List.mem_append.mp member with old | new
      · exact grown.shallow d old
      · obtain ⟨some, same⟩ := List.mem_replicate.mp new
        rcases shallow with none | shallow
        · exact absurd none some
        · rw [same]
          exact shallow
  rw [List.length_append, List.length_replicate, BQueue.depths, List.length_map] at bound
  rw [maxCuckooCount_eq]
  exact bound

end BQueue.Grown

theorem decodeSlots_lt (count pathcode : Nat) :
    ∀ slot ∈ (config.decodeSlots count pathcode).1, slot < config.slotPerBucket := by
  induction count generalizing pathcode with
  | zero => simp [Config.decodeSlots]
  | succ count ih =>
    intro slot member
    rw [Config.decodeSlots] at member
    rcases List.mem_append.mp member with earlier | last
    · exact ih _ slot earlier
    · rw [List.mem_singleton.mp last]
      exact Nat.mod_lt _ config.slotPerBucket_pos

theorem decodeSlots_length (count pathcode : Nat) : (config.decodeSlots count pathcode).1.length = count := by
  induction count generalizing pathcode with
  | zero => rfl
  | succ count ih =>
    rw [Config.decodeSlots]
    simp [ih]

end UavRfDetector.Cuckoo

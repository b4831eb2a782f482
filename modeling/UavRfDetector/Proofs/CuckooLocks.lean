import UavRfDetector.Proofs.CuckooDoubling
import UavRfDetector.Proofs.CuckooPath

/-! Which thread holds which locks. A thread reads the hashpower before the lock array
and neither under a lock, so that what it waits for may be long obsolete; the check of
the hashpower under its first lock finds that out. -/

namespace UavRfDetector.Cuckoo

variable {Key T : Type} {config : Config Key} {table : Table Key T} {state after : State Key T} {thread : Nat}

theorem Table.locksSize_current (table : Table Key T) : table.locksSize table.currentLocks = table.locks.size := by
  simp [Table.locksSize, Table.currentLocks]

theorem Table.locksSize_outside {array : Nat} (outside : table.currentLocks < array) : table.locksSize array = 0 := by
  have length : (table.retiredLocks ++ [table.locks.size]).length ≤ array := by
    rw [List.length_append]
    exact outside
  rw [Table.locksSize, List.getElem?_eq_none length, Option.getD_none]

variable (config) in
/-- The locks a thread holds, by array and index. -/
def Pc.Holds (table : Table Key T) : Pc Key T → Nat → Nat → Prop
  | .checking hp sec array, a, l => a = array ∧ l ∈ (sec.lockInds config hp).take 1
  | .holding hp sec array taken, a, l => a = array ∧ l ∈ (sec.lockInds config hp).take taken
  | .lockingAll _ firstLocked array next, a, l =>
    firstLocked ≤ a ∧ (a < array ∧ l < table.locksSize a ∨ a = array ∧ l < next)
  | .doubling _ firstLocked _, a, l => firstLocked ≤ a ∧ l < table.locksSize a
  | _, _, _ => False

/-- A thread that has put a new array in place but not yet its buckets keeps the array
before it locked. -/
def Pc.Doubles : Pc Key T → Nat → Prop
  | .doubling _ firstLocked _, array => firstLocked ≤ array
  | _, _ => False

variable (config state) in
/-- A thread that has read a hashpower and then a lock array. -/
structure Aimed (hp : Nat) (sec : Section Key T) (array : Nat) : Prop where
  past : hp ≤ state.table.hashpower
  sec : sec.Ok config hp
  array_le : array ≤ state.table.currentLocks
  room : min (2 ^ hp) config.maxNumLocks ≤ state.table.locksSize array
  fresh : hp = state.table.hashpower →
    array = state.table.currentLocks ∨ ∃ other, (state.threads other).Doubles array

variable (config) in
/-- The table in the middle of `cuckoo_fast_double`. -/
structure Ready (table : Table Key T) (firstLocked newHp : Nat) : Prop where
  newHp_eq : newHp = table.hashpower + 1
  first_le : firstLocked ≤ table.currentLocks
  unmigrated : table.locks.unmigrated = ∅
  enough : min (2 ^ newHp) config.maxNumLocks ≤ table.locks.size

variable (config state) in
def Pc.Ok : Pc Key T → Prop
  | .choosing hp sec => hp ≤ state.table.hashpower ∧ sec.Ok config hp
  | .locking hp sec array | .checking hp sec array => Aimed config state hp sec array
  | .holding hp sec array taken => Aimed config state hp sec array ∧ hp = state.table.hashpower ∧
      array = state.table.currentLocks ∧ 0 < taken ∧ taken ≤ (sec.lockInds config hp).length
  | .lockingAll _ firstLocked array next =>
    firstLocked ≤ array ∧ array ≤ state.table.currentLocks ∧ next ≤ state.table.locksSize array
  | .doubling _ firstLocked newHp => Ready config state.table firstLocked newHp
  | _ => True

variable (config state) in
/-- A state of a map in which the table is valid, every thread is where it can be and
the locks are held by those that took them. -/
structure Sound : Prop where
  valid : Valid config state.table
  ok : ∀ thread, (state.threads thread).Ok config state
  owned : ∀ thread a l, state.owner a l = some thread ↔ (state.threads thread).Holds config state.table a l

theorem Aimed.lock_lt {hp array : Nat} {sec : Section Key T} (aimed : Aimed config state hp sec array) {l : Nat}
    (member : l ∈ sec.lockInds config hp) : l < state.table.locksSize array := by
  obtain ⟨ind, inside, rfl⟩ := aimed.sec.lock member
  have masked := config.lockInd_lt ind
  have below : config.lockInd ind ≤ ind := by
    rw [config.lockInd_eq]
    exact Nat.mod_le _ _
  have room := aimed.room
  omega

theorem Pc.Ok.inside {pc : Pc Key T} (ok : pc.Ok config state) {a l : Nat} (holds : pc.Holds config state.table a l) :
    a ≤ state.table.currentLocks ∧ l < state.table.locksSize a := by
  match pc, ok, holds with
  | .checking hp sec array, ok, ⟨same, member⟩ =>
    subst same
    exact ⟨ok.array_le, ok.lock_lt (List.mem_of_mem_take member)⟩
  | .holding hp sec array taken, ok, ⟨same, member⟩ =>
    subst same
    exact ⟨ok.1.array_le, ok.1.lock_lt (List.mem_of_mem_take member)⟩
  | .lockingAll purpose firstLocked array next, ok, holds =>
    obtain ⟨_, current, size⟩ := ok
    rcases holds.2 with ⟨early, small⟩ | ⟨rfl, small⟩
    · exact ⟨by omega, small⟩
    · exact ⟨current, by omega⟩
  | .doubling ins firstLocked newHp, ok, holds =>
    obtain ⟨_, small⟩ := holds
    refine ⟨?_, small⟩
    by_contra outside
    rw [Table.locksSize_outside (Nat.lt_of_not_le outside)] at small
    exact absurd small (Nat.not_lt_zero l)

namespace Sound

theorem exclusive (sound : Sound config state) {one other a l : Nat}
    (mine : (state.threads one).Holds config state.table a l)
    (yours : (state.threads other).Holds config state.table a l) : one = other := by
  have first := (sound.owned one a l).mpr mine
  have second := (sound.owned other a l).mpr yours
  exact Option.some.inj (first.symm.trans second)

theorem locks_pos (sound : Sound config state) : 0 < state.table.locks.size := by
  have enough := sound.valid.le_locks
  have buckets : 0 < state.table.buckets.size := by
    rw [Table.size_buckets]
    exact Nat.two_pow_pos _
  have locks := config.maxNumLocks_pos
  omega

end Sound

theorem Pc.Ok.holding {hp array taken : Nat} {sec : Section Key T}
    (ok : (Pc.holding hp sec array taken).Ok config state) :
    ∃ l, (Pc.holding hp sec array taken).Holds config state.table state.table.currentLocks l := by
  obtain ⟨_, _, current, some, _⟩ := ok
  obtain ⟨l, ls, first⟩ := @Section.lockInds_cons Key T config hp sec
  refine ⟨l, current.symm, ?_⟩
  rw [first]
  cases taken with
  | zero => exact absurd some (Nat.lt_irrefl 0)
  | succ taken => exact List.mem_cons_self

variable (state after) in
structure Outlives : Prop where
  hashpower : state.table.hashpower ≤ after.table.hashpower
  current : state.table.currentLocks ≤ after.table.currentLocks
  locksSize : ∀ array ≤ state.table.currentLocks, after.table.locksSize array = state.table.locksSize array
  fresh : ∀ array ≤ state.table.currentLocks, after.table.hashpower = state.table.hashpower →
    (array = state.table.currentLocks ∨ ∃ other, (state.threads other).Doubles array) →
      array = after.table.currentLocks ∨ ∃ other, (after.threads other).Doubles array

def Pc.Survives (before after : Table Key T) : Pc Key T → Prop
  | .holding _ _ _ _ => after.hashpower = before.hashpower ∧ after.currentLocks = before.currentLocks
  | .doubling _ _ _ => after = before
  | _ => True

theorem Aimed.outlives {hp array : Nat} {sec : Section Key T} (aimed : Aimed config state hp sec array)
    (outlives : Outlives state after) : Aimed config after hp sec array := by
  have past := aimed.past
  have later := outlives.hashpower
  refine ⟨by omega, aimed.sec, Nat.le_trans aimed.array_le outlives.current, ?_, ?_⟩
  · rw [outlives.locksSize array aimed.array_le]
    exact aimed.room
  · intro still
    have same : after.table.hashpower = state.table.hashpower := by omega
    exact outlives.fresh array aimed.array_le same (aimed.fresh (by omega))

theorem Pc.Ok.outlives {pc : Pc Key T} (ok : pc.Ok config state) (outlives : Outlives state after)
    (survives : pc.Survives state.table after.table) : pc.Ok config after := by
  match pc, ok, survives with
  | .idle, _, _ | .called _, _, _ | .choosingAll _, _, _ | .returned _, _, _ => trivial
  | .choosing hp sec, ok, _ => exact ⟨Nat.le_trans ok.1 outlives.hashpower, ok.2⟩
  | .locking hp sec array, ok, _ | .checking hp sec array, ok, _ => exact Aimed.outlives ok outlives
  | .holding hp sec array taken, ok, survives =>
    obtain ⟨aimed, power, current, rest⟩ := ok
    exact ⟨aimed.outlives outlives, power.trans survives.1.symm, current.trans survives.2.symm, rest⟩
  | .lockingAll purpose firstLocked array next, ok, _ =>
    obtain ⟨first, current, small⟩ := ok
    refine ⟨first, Nat.le_trans current outlives.current, ?_⟩
    rw [outlives.locksSize array current]
    exact small
  | .doubling ins firstLocked newHp, ok, survives =>
    change Ready config after.table firstLocked newHp
    change after.table = state.table at survives
    rw [survives]
    exact ok

theorem Pc.Ok.holds_outlives {pc : Pc Key T} (ok : pc.Ok config state) (outlives : Outlives state after)
    (survives : pc.Survives state.table after.table) (a l : Nat) :
    pc.Holds config after.table a l ↔ pc.Holds config state.table a l := by
  match pc, ok, survives with
  | .idle, _, _ | .called _, _, _ | .choosingAll _, _, _ | .returned _, _, _ | .choosing _ _, _, _
  | .locking _ _ _, _, _ | .checking _ _ _, _, _ | .holding _ _ _ _, _, _ => exact Iff.rfl
  | .lockingAll purpose firstLocked array next, ok, _ =>
    obtain ⟨_, current, _⟩ := ok
    apply and_congr_right
    intro _
    apply or_congr_left
    apply and_congr_right
    intro early
    rw [outlives.locksSize a (by omega)]
  | .doubling ins firstLocked newHp, ok, survives =>
    change after.table = state.table at survives
    rw [survives]

theorem Sound.survives (sound : Sound config state) {other : Nat} {table : Table Key T}
    (free : ∀ l, ¬ (state.threads other).Holds config state.table state.table.currentLocks l) :
    (state.threads other).Survives state.table table := by
  have ok := sound.ok other
  generalize state.threads other = pc at ok free
  match pc, ok, free with
  | .idle, _, _ | .called _, _, _ | .choosingAll _, _, _ | .returned _, _, _ | .choosing _ _, _, _
  | .locking _ _ _, _, _ | .checking _ _ _, _, _ | .lockingAll _ _ _ _, _, _ => trivial
  | .holding hp sec array taken, ok, free =>
    obtain ⟨l, mine⟩ := Pc.Ok.holding ok
    exact absurd mine (free l)
  | .doubling ins firstLocked newHp, ok, free =>
    refine absurd ⟨ok.first_le, ?_⟩ (free 0)
    rw [Table.locksSize_current]
    exact sound.locks_pos

/-- The step lemma: what one thread does leaves the others sound. -/
theorem Sound.change (sound : Sound config state) (outlives : Outlives state after) (valid : Valid config after.table)
    (others : ∀ other, other ≠ thread → after.threads other = state.threads other)
    (survive : ∀ other, other ≠ thread → (state.threads other).Survives state.table after.table)
    (owner : ∀ other, other ≠ thread → ∀ a l, after.owner a l = some other ↔ state.owner a l = some other)
    (ok : (after.threads thread).Ok config after)
    (owned : ∀ a l, after.owner a l = some thread ↔ (after.threads thread).Holds config after.table a l) :
    Sound config after := by
  refine ⟨valid, ?_, ?_⟩
  · intro other
    by_cases same : other = thread
    · subst same
      exact ok
    · rw [others other same]
      exact (sound.ok other).outlives outlives (survive other same)
  · intro other a l
    by_cases same : other = thread
    · subst same
      exact owned a l
    · rw [others other same, owner other same, (sound.ok other).holds_outlives outlives (survive other same)]
      exact sound.owned other a l

end UavRfDetector.Cuckoo

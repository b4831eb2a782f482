import UavRfDetector.Proofs.CuckooLocks
import UavRfDetector.Proofs.CuckooSection

/-! Each step of a thread: it keeps the state sound, and a user of the map sees nothing
of it or sees a call take effect. -/

namespace UavRfDetector.Cuckoo

variable {Key T : Type} {config : Config Key} {state after : State Key T} {thread : Nat}

section Locking

theorem goto_self (state : State Key T) (thread : Nat) (pc : Pc Key T) : (state.goto thread pc).threads thread = pc :=
  Function.update_self _ _ _

theorem goto_other (state : State Key T) (pc : Pc Key T) {other : Nat} (different : other ≠ thread) :
    (state.goto thread pc).threads other = state.threads other :=
  Function.update_of_ne different _ _

theorem doubles_goto (moved : State Key T) (threads : moved.threads = state.threads)
    (single : ∀ array, ¬ (state.threads thread).Doubles array) (pc : Pc Key T) {array : Nat}
    (doubles : ∃ other, (state.threads other).Doubles array) :
    ∃ other, ((moved.goto thread pc).threads other).Doubles array := by
  obtain ⟨other, keeps⟩ := doubles
  have different : other ≠ thread := by
    intro same
    subst same
    exact single array keeps
  refine ⟨other, ?_⟩
  rw [goto_other moved pc different, threads]
  exact keeps

/-- A step that leaves the table alone. -/
theorem Outlives.stay (single : ∀ array, ¬ (state.threads thread).Doubles array) (owner : Nat → Nat → Option Nat)
    (pc : Pc Key T) : Outlives state ({ state with owner }.goto thread pc) := by
  refine ⟨Nat.le_refl _, Nat.le_refl _, fun _ _ => rfl, ?_⟩
  intro array _ _ fresh
  exact fresh.imp id (doubles_goto { state with owner } rfl single pc)

theorem Sound.stay (sound : Sound config state) (single : ∀ array, ¬ (state.threads thread).Doubles array)
    {owner : Nat → Nat → Option Nat} {pc : Pc Key T}
    (others : ∀ other, other ≠ thread → ∀ a l, owner a l = some other ↔ state.owner a l = some other)
    (ok : pc.Ok config ({ state with owner }.goto thread pc))
    (owned : ∀ a l, owner a l = some thread ↔ pc.Holds config state.table a l) :
    Sound config ({ state with owner }.goto thread pc) := by
  apply sound.change (.stay single owner pc) sound.valid
  · intro other different
    exact goto_other _ pc different
  · intro other _
    generalize state.threads other = still
    match still with
    | .holding _ _ _ _ => exact ⟨rfl, rfl⟩
    | .doubling _ _ _ => rfl
    | .idle | .called _ | .choosing _ _ | .locking _ _ _ | .checking _ _ _ | .choosingAll _ | .lockingAll _ _ _ _
    | .returned _ => trivial
  · exact others
  · rw [goto_self]
    exact ok
  · rw [goto_self]
    exact owned

/-- A step that takes no lock and gives none back. -/
theorem Sound.go (sound : Sound config state) (single : ∀ array, ¬ (state.threads thread).Doubles array) {pc : Pc Key T}
    (ok : pc.Ok config (state.goto thread pc))
    (same : ∀ a l, pc.Holds config state.table a l ↔ (state.threads thread).Holds config state.table a l) :
    Sound config (state.goto thread pc) := by
  have moved := @Sound.stay _ _ _ _ thread sound single state.owner pc (fun _ _ _ _ => Iff.rfl) ok
  apply moved
  intro a l
  rw [same]
  exact sound.owned thread a l

/-- A free lock is taken. -/
theorem Sound.take (sound : Sound config state) (single : ∀ array, ¬ (state.threads thread).Doubles array) {pc : Pc Key T}
    {array l : Nat} (vacant : state.owner array l = none) (ok : pc.Ok config ((state.acquire thread array l).goto thread pc))
    (more : ∀ a i, pc.Holds config state.table a i ↔
      a = array ∧ i = l ∨ (state.threads thread).Holds config state.table a i) :
    Sound config ((state.acquire thread array l).goto thread pc) := by
  apply sound.stay single _ ok
  · intro a i
    rw [more, ← sound.owned]
    by_cases here : a = array ∧ i = l
    · simp [here]
    · simp [here]
  · intro other different a i
    split
    next here =>
      obtain ⟨rfl, rfl⟩ := here
      rw [vacant]
      simp [Ne.symm different]
    next => exact Iff.rfl

/-- What a thread that gives locks back leaves to the others. -/
theorem Sound.dropped (sound : Sound config state) (gone : Nat → Nat → Prop) [∀ a l, Decidable (gone a l)]
    (yours : ∀ other, other ≠ thread → ∀ a l, (state.threads other).Holds config state.table a l → ¬ gone a l) {other : Nat}
    (different : other ≠ thread) (a l : Nat) :
    (if gone a l then none else state.owner a l) = some other ↔ state.owner a l = some other := by
  split
  next left =>
    constructor
    · intro none
      cases none
    · intro owns
      exact absurd left (yours other different a l ((sound.owned other a l).mp owns))
  next => exact Iff.rfl

theorem Sound.dropped_own (sound : Sound config state) (gone : Nat → Nat → Prop) [∀ a l, Decidable (gone a l)]
    (mine : ∀ a l, (state.threads thread).Holds config state.table a l → gone a l) (a l : Nat) :
    (if gone a l then none else state.owner a l) ≠ some thread := by
  split
  next =>
    intro none
    cases none
  next kept =>
    intro owns
    exact kept (mine a l ((sound.owned thread a l).mp owns))

theorem Sound.released_other (sound : Sound config state) {array : Nat} {ls : List Nat}
    (mine : ∀ a l, (state.threads thread).Holds config state.table a l ↔ a = array ∧ l ∈ ls) {other : Nat}
    (different : other ≠ thread) (a l : Nat) :
    (state.release array ls).owner a l = some other ↔ state.owner a l = some other := by
  apply sound.dropped (fun a l => a = array ∧ l ∈ ls) _ different
  intro other different a l holds gone
  exact different (sound.exclusive holds ((mine a l).mpr gone))

theorem Sound.released_own (sound : Sound config state) {array : Nat} {ls : List Nat}
    (mine : ∀ a l, (state.threads thread).Holds config state.table a l ↔ a = array ∧ l ∈ ls) (a l : Nat) :
    (state.release array ls).owner a l ≠ some thread :=
  sound.dropped_own (fun a l => a = array ∧ l ∈ ls) (fun a l holds => (mine a l).mp holds) a l

theorem survives_steady {table after : Table Key T} {pc : Pc Key T} (single : ∀ array, ¬ pc.Doubles array)
    (hashpower : after.hashpower = table.hashpower) (current : after.currentLocks = table.currentLocks) :
    pc.Survives table after := by
  match pc, single with
  | .holding _ _ _ _, _ => exact ⟨hashpower, current⟩
  | .doubling _ firstLocked _, single => exact absurd (Nat.le_refl firstLocked) (single firstLocked)
  | .idle, _ | .called _, _ | .choosing _ _, _ | .locking _ _ _, _ | .checking _ _ _, _ | .choosingAll _, _
  | .lockingAll _ _ _ _, _ | .returned _, _ => trivial

theorem locksSize_steady {table after : Table Key T} (retired : after.retiredLocks = table.retiredLocks)
    (size : after.locks.size = table.locks.size) (array : Nat) : after.locksSize array = table.locksSize array := by
  rw [Table.locksSize, Table.locksSize, retired, size]

variable (config) in
def Pc.Free (pc : Pc Key T) : Prop := ∀ table a l, ¬ pc.Holds config table a l

/-- A step of a thread that has all locks of the arrays from one on, and gives them back. -/
theorem Sound.dropAll (sound : Sound config state) {firstLocked : Nat}
    (mine : ∀ a l, (state.threads thread).Holds config state.table a l ↔
      firstLocked ≤ a ∧ l < state.table.locksSize a)
    (first_le : firstLocked ≤ state.table.currentLocks) {table : Table Key T} (valid : Valid config table)
    (hashpower : state.table.hashpower ≤ table.hashpower) (retired : table.retiredLocks = state.table.retiredLocks)
    (size : table.locks.size = state.table.locks.size)
    (single : table.hashpower = state.table.hashpower → ∀ array, ¬ (state.threads thread).Doubles array)
    {pc : Pc Key T} (free : pc.Free config) (ok : ∀ after : State Key T, pc.Ok config after) :
    Sound config (({ state with table }.releaseAll firstLocked).goto thread pc) := by
  have current : table.currentLocks = state.table.currentLocks := congrArg List.length retired
  have yours : ∀ other, other ≠ thread → ∀ a l, (state.threads other).Holds config state.table a l →
      ¬ firstLocked ≤ a := by
    intro other different a l holds late
    have inside := (sound.ok other).inside holds
    exact different (sound.exclusive holds ((mine a l).mpr ⟨late, inside.2⟩))
  apply sound.change _ valid
  · intro other different
    exact goto_other _ pc different
  · intro other different
    apply sound.survives
    intro l holds
    exact yours other different _ l holds first_le
  · intro other different a l
    exact sound.dropped (fun a _ => firstLocked ≤ a) yours different a l
  · rw [goto_self]
    exact ok _
  · intro a l
    rw [goto_self]
    refine ⟨fun owns => absurd owns ?_, fun holds => absurd holds (free _ a l)⟩
    exact sound.dropped_own (fun a _ => firstLocked ≤ a) (fun a l holds => ((mine a l).mp holds).1) a l
  · refine ⟨hashpower, current.ge, fun array _ => locksSize_steady retired size array, ?_⟩
    intro array _ same fresh
    refine fresh.imp (fun now => now.trans current.symm) ?_
    exact doubles_goto _ rfl (single same) pc

/-- At the end of `lock_all` every lock from the first array on is taken. -/
theorem Sound.locked_all (sound : Sound config state) {purpose : Purpose Key T} {firstLocked array next : Nat}
    (here : state.threads thread = .lockingAll purpose firstLocked array next)
    (done : ¬ next < state.table.locksSize array) (last : ¬ array < state.table.currentLocks) :
    firstLocked ≤ state.table.currentLocks ∧ ∀ a l, (state.threads thread).Holds config state.table a l ↔
      firstLocked ≤ a ∧ l < state.table.locksSize a := by
  have ok := sound.ok thread
  rw [here] at ok
  obtain ⟨first, current, small⟩ := ok
  have same : array = state.table.currentLocks := by omega
  subst same
  refine ⟨first, ?_⟩
  intro a l
  rw [here, Pc.Holds]
  rcases Nat.lt_trichotomy a state.table.currentLocks with before | now | outside
  · omega
  · subst now
    omega
  · rw [Table.locksSize_outside outside]
    omega

/-- A thread that has all the locks of the current array. -/
def Pc.HasAll (table : Table Key T) : Pc Key T → Prop
  | .lockingAll _ _ array next => array = table.currentLocks ∧ next = table.locks.size
  | .doubling _ _ _ => True
  | _ => False

theorem Pc.Doubles.hasAll {pc : Pc Key T} {array : Nat} (doubles : pc.Doubles array) (table : Table Key T) :
    pc.HasAll table := by
  match pc, doubles with
  | .doubling _ _ _, _ => trivial

theorem Sound.hasAll (sound : Sound config state) (all : (state.threads thread).HasAll state.table) {l : Nat}
    (small : l < state.table.locks.size) : (state.threads thread).Holds config state.table state.table.currentLocks l := by
  have ok := sound.ok thread
  generalize state.threads thread = pc at ok all
  match pc, ok, all with
  | .lockingAll purpose firstLocked array next, ok, all =>
    obtain ⟨rfl, rfl⟩ := all
    exact ⟨ok.1, Or.inr ⟨rfl, small⟩⟩
  | .doubling ins firstLocked newHp, ok, _ =>
    refine ⟨ok.first_le, ?_⟩
    rw [Table.locksSize_current]
    exact small

/-- There is nobody else in the table while a thread has all its locks. -/
theorem Sound.alone (sound : Sound config state) {one other : Nat} (different : one ≠ other)
    (all : (state.threads one).HasAll state.table) : ¬ (state.threads other).HasAll state.table := by
  intro all'
  have mine := sound.hasAll all sound.locks_pos
  have yours := sound.hasAll all' sound.locks_pos
  exact different (sound.exclusive mine yours)

theorem Sound.outside (sound : Sound config state) {one other : Nat} (different : one ≠ other)
    (all : (state.threads one).HasAll state.table) {hp array taken : Nat} {sec : Section Key T} :
    state.threads other ≠ .holding hp sec array taken := by
  intro there
  have ok := sound.ok other
  rw [there] at ok
  obtain ⟨l, yours⟩ := ok.holding
  have small := (ok.inside yours).2
  rw [Table.locksSize_current] at small
  have mine := sound.hasAll all small
  rw [← there] at yours
  exact different (sound.exclusive mine yours)

theorem Sound.locked_last (sound : Sound config state) {purpose : Purpose Key T} {firstLocked array next : Nat}
    (here : state.threads thread = .lockingAll purpose firstLocked array next)
    (done : ¬ next < state.table.locksSize array) (last : ¬ array < state.table.currentLocks) :
    (state.threads thread).HasAll state.table := by
  have ok := sound.ok thread
  rw [here] at ok ⊢
  obtain ⟨_, current, small⟩ := ok
  have same : array = state.table.currentLocks := by omega
  subst same
  refine ⟨rfl, ?_⟩
  rw [Table.locksSize_current] at done small
  omega

end Locking

end UavRfDetector.Cuckoo

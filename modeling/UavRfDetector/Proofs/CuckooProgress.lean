import UavRfDetector.Proofs.CuckooInvariant
import UavRfDetector.Waiting

/-! Locks are taken in the order of their arrays and indices, so that the threads never
all wait for each other. -/

namespace UavRfDetector.Cuckoo
open Transition Waiting

variable {Key T : Type} {config : Config Key} {state : State Key T} {thread : Nat}

variable (config) in
def Pc.Waits (table : Table Key T) : Pc Key T → Nat × Nat → Prop
  | .locking hp sec array, lock => lock.1 = array ∧ (sec.lockInds config hp).head? = some lock.2
  | .holding hp sec array taken, lock => lock.1 = array ∧ (sec.lockInds config hp)[taken]? = some lock.2
  | .lockingAll _ _ array next, lock => lock = (array, next) ∧ next < table.locksSize array
  | _, _ => False

/-- The order of the locks of a table, from the last one down. -/
def Table.Beyond (table : Table Key T) (later earlier : Nat × Nat) : Prop :=
  Prod.Lex (· < ·) (· < ·) (table.currentLocks - later.1, table.locksSize later.1 - later.2)
    (table.currentLocks - earlier.1, table.locksSize earlier.1 - earlier.2)

theorem Table.beyond_wellFounded (table : Table Key T) : WellFounded table.Beyond :=
  InvImage.wf (fun lock : Nat × Nat => (table.currentLocks - lock.1, table.locksSize lock.1 - lock.2))
    (Nat.lt_wfRel.wf.prod_lex Nat.lt_wfRel.wf)

theorem Table.beyond_array {table : Table Key T} {a a' l l' : Nat} (less : a < a') (inside : a' ≤ table.currentLocks) :
    table.Beyond (a', l') (a, l) := by
  apply Prod.Lex.left
  dsimp only
  omega

theorem Table.beyond_index {table : Table Key T} {a l l' : Nat} (less : l < l') (inside : l' < table.locksSize a) :
    table.Beyond (a, l') (a, l) := by
  apply Prod.Lex.right
  dsimp only
  omega

/-- A thread waits for a lock after all those it holds. -/
theorem Pc.Ok.ascending {pc : Pc Key T} (ok : pc.Ok config state) {next held : Nat × Nat}
    (waits : pc.Waits config state.table next) (holds : pc.Holds config state.table held.1 held.2) :
    state.table.Beyond next held := by
  obtain ⟨a', l'⟩ := next
  obtain ⟨a, l⟩ := held
  match pc, ok, waits, holds with
  | .holding hp sec array taken, ok, waits, holds =>
    obtain ⟨rfl, following⟩ := waits
    obtain ⟨rfl, member⟩ := holds
    obtain ⟨inside, found⟩ := List.getElem?_eq_some_iff.mp following
    have ordered := @Section.lockInds_ordered Key T config hp sec
    obtain ⟨index, early, rfl⟩ := List.mem_take_iff_getElem.mp member
    apply Table.beyond_index
    · have less := List.pairwise_iff_getElem.mp ordered index taken (by omega) inside (by omega)
      rw [found] at less
      exact less
    · exact ok.1.lock_lt (List.mem_of_getElem? following)
  | .lockingAll purpose firstLocked array next, ok, waits, holds =>
    obtain ⟨same, inside⟩ := waits
    cases same
    rcases holds.2 with ⟨earlier, _⟩ | ⟨rfl, less⟩
    · exact Table.beyond_array earlier ok.2.1
    · exact Table.beyond_index less inside

theorem Pc.Holds.pending {pc : Pc Key T} {table : Table Key T} {a l : Nat} (holds : pc.Holds config table a l) :
    ∃ op, pc.call = .pending op := by
  match pc, holds with
  | .checking _ _ _, _ | .holding _ _ _ _, _ | .lockingAll _ _ _ _, _ | .doubling _ _ _, _ => exact ⟨_, rfl⟩

variable [DecidableEq Key]

theorem Sound.advances (sound : Sound config state) {op : Op Key T} (busy : (state.threads thread).call = .pending op)
    (free : ∀ next, (state.threads thread).Waits config state.table next →
      ∀ owner, ¬ (state.threads owner).Holds config state.table next.1 next.2) :
    ∃ after, state.advance config thread = some after := by
  have vacant {a l : Nat} (waits : (state.threads thread).Waits config state.table (a, l)) : state.owner a l = none := by
    cases owns : state.owner a l with
    | none => rfl
    | some owner => exact absurd ((sound.owned owner a l).mp owns) (free _ waits owner)
  rw [State.advance]
  generalize state.threads thread = pc at busy vacant
  cases pc with
  | idle | returned => cases busy
  | called | choosing | choosingAll | doubling => exact ⟨_, rfl⟩
  | locking hp sec array =>
    obtain ⟨l, ls, first⟩ := @Section.lockInds_cons Key T config hp sec
    have unowned : state.owner array l = none := vacant ⟨rfl, by rw [first]; rfl⟩
    simp only [first, unowned]
    exact ⟨_, rfl⟩
  | checking hp sec array =>
    dsimp only
    split
    · exact ⟨_, rfl⟩
    · exact ⟨_, rfl⟩
  | holding hp sec array taken =>
    dsimp only
    split
    next l following =>
      have unowned : state.owner array l = none := vacant ⟨rfl, following⟩
      rw [if_pos unowned]
      exact ⟨_, rfl⟩
    next => exact ⟨_, rfl⟩
  | lockingAll purpose firstLocked array next =>
    dsimp only
    split
    next inside =>
      have unowned : state.owner array next = none := vacant ⟨rfl, inside⟩
      rw [if_pos unowned]
      exact ⟨_, rfl⟩
    next =>
      split
      · exact ⟨_, rfl⟩
      · exact ⟨_, rfl⟩

/-- As long as a call is under way some call can go on. -/
theorem no_deadlock {n : Nat} {events : List (Event Key T)} {last : State Key T}
    (run : Run (State.step config) Event.Truthful (State.new config n) events last) {op : Op Key T}
    (busy : (last.threads thread).call = .pending op) :
    ∃ other after, (∃ op, (last.threads other).call = .pending op) ∧ last.step config (.step other) = some after := by
  have sound := sound_run run
  obtain ⟨other, one, unblocked⟩ := exists_unblocked last.table.beyond_wellFounded
    (fun thread next held => (sound.ok thread).ascending) thread
  have pending : ∃ op, (last.threads other).call = .pending op := by
    rcases one with rfl | ⟨held, holds⟩
    · exact ⟨op, busy⟩
    · exact Pc.Holds.pending holds
  obtain ⟨op', busy'⟩ := pending
  obtain ⟨after, stepped⟩ := sound.advances busy' unblocked
  exact ⟨other, after, ⟨op', busy'⟩, stepped⟩

/-- Two insertions, the second of which waits for the lock of the first. -/
theorem blocked_insertions_go_on : ∃ events last,
    Run (State.step (oneSlot 2 0 0)) Event.Truthful (State.new (oneSlot 2 0 0) 1 : State Nat Char) events last ∧
      last.step (oneSlot 2 0 0) (.step 1) = none ∧ ∃ other after,
        (∃ op, (last.threads other).call = .pending op) ∧ last.step (oneSlot 2 0 0) (.step other) = some after := by
  have run := (@Run.nil _ _ (State.step (oneSlot 2 0 0)) Event.Truthful (State.new (oneSlot 2 0 0) 1 : State Nat Char)).steps
    [.call 0 (.insert 1 'a'), .call 1 (.insert 2 'b'), .step 0, .step 0, .step 0, .step 1, .step 1]
    (by simp [Event.Truthful]) rfl
  exact ⟨_, _, run, rfl, @no_deadlock _ _ _ 1 _ _ _ _ run (.insert 2 'b') rfl⟩

end UavRfDetector.Cuckoo

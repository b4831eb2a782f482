import UavRfDetector.Eventually
import UavRfDetector.Proofs.CuckooProgress

/-! A thread that runs while no other holds a lock. What it does is then a sequential
program on the table, one section after the other. -/

namespace UavRfDetector.Cuckoo
open Transition

variable {Key T : Type} {config : Config Key} {state after : State Key T} {thread : Nat} {table : Table Key T}

variable (config state thread) in
/-- No other thread has a lock, and none takes one. -/
def Alone : Prop := ∀ other, other ≠ thread → (state.threads other).Free config

theorem Alone.vacant (alone : Alone config state thread) (sound : Sound config state) {a l : Nat}
    (waits : (state.threads thread).Waits config state.table (a, l)) : state.owner a l = none := by
  cases owns : state.owner a l with
  | none => rfl
  | some owner =>
    have holds := (sound.owned owner a l).mp owns
    by_cases mine : owner = thread
    · subst mine
      have beyond : state.table.Beyond (a, l) (a, l) := (sound.ok owner).ascending waits holds
      exact absurd beyond (state.table.beyond_wellFounded.irrefl.irrefl (a, l))
    · exact absurd holds (alone owner mine _ a l)

variable [DecidableEq Key]

variable (config) in
/-- From here a thread that runs alone comes to the end of its call. -/
def Returns (table : Table Key T) (pc : Pc Key T) : Prop :=
  ∀ state thread, Sound config state → Alone config state thread → state.table = table → state.threads thread = pc →
    Eventually (fun state => state.advance config thread) (fun state => ∃ outcome, state.threads thread = .returned outcome)
      state

namespace Returns
variable {pc : Pc Key T} {table' : Table Key T}

theorem done (table : Table Key T) (outcome : Outcome T) : Returns config table (.returned outcome) := by
  intro state thread _ _ _ here
  exact .reached ⟨outcome, here⟩

theorem step {pc' : Pc Key T} (moves : ∀ (state : State Key T) thread, Sound config state →
      Alone config state thread → state.table = table → state.threads thread = pc →
        ∃ moved : State Key T, state.advance config thread = some (moved.goto thread pc') ∧ moved.table = table')
    (rest : Returns config table' pc') : Returns config table pc := by
  intro state thread sound alone same here
  obtain ⟨moved, stepped, same'⟩ := moves state thread sound alone same here
  have advanced := sound.advance stepped
  refine .step stepped (rest _ thread advanced.sound ?_ same' (goto_self _ _ _))
  intro other different
  rw [advanced.others other different]
  exact alone other different

theorem holding {hp array taken : Nat} {sec : Section Key T}
    (rest : Returns config (sec.run config hp table).1 (sec.run config hp table).2) :
    Returns config table (.holding hp sec array taken) := by
  induction rounds : (sec.lockInds config hp).length - taken generalizing taken with
  | zero =>
    apply step _ rest
    intro state thread _ _ same here
    have last : (sec.lockInds config hp)[taken]? = none := List.getElem?_eq_none (by omega)
    subst same
    refine ⟨{ state with table := _ }.release array (sec.lockInds config hp), ?_, rfl⟩
    simp only [State.advance, here, last]
  | succ left ih =>
    have fewer : (sec.lockInds config hp).length - (taken + 1) = left := by omega
    apply step _ (ih fewer)
    intro state thread sound alone same here
    have inside : taken < (sec.lockInds config hp).length := by omega
    have following : (sec.lockInds config hp)[taken]? = some (sec.lockInds config hp)[taken] :=
      List.getElem?_eq_getElem inside
    have vacant : state.owner array (sec.lockInds config hp)[taken] = none := by
      apply alone.vacant sound
      rw [here]
      exact ⟨rfl, following⟩
    refine ⟨state.acquire thread array (sec.lockInds config hp)[taken], ?_, same⟩
    simp only [State.advance, here, following, vacant, if_true]

section Sections
variable {hp : Nat} {sec : Section Key T}
  (rest : table.hashpower = hp → Returns config (sec.run config hp table).1 (sec.run config hp table).2)
  (again : table.hashpower ≠ hp → Returns config table (.called sec.op))

include rest again

/-- The check of the hashpower: the section is run, or the call starts again. -/
theorem checking (array : Nat) : Returns config table (.checking hp sec array) := by
  by_cases still : table.hashpower = hp
  · have held : Returns config table (.holding hp sec array 1) := holding (rest still)
    apply step _ held
    intro state thread _ _ same here
    refine ⟨state, ?_, same⟩
    subst same
    simp only [State.advance, here, still, if_true]
  · apply step _ (again still)
    intro state thread _ _ same here
    refine ⟨state.release array ((sec.lockInds config hp).take 1), ?_, same⟩
    subst same
    simp only [State.advance, here, still, if_false]

theorem locking (array : Nat) : Returns config table (.locking hp sec array) := by
  apply step _ (checking rest again array)
  intro state thread sound alone same here
  obtain ⟨l, ls, first⟩ := @Section.lockInds_cons Key T config hp sec
  have vacant : state.owner array l = none := by
    apply alone.vacant sound
    rw [here]
    exact ⟨rfl, by rw [first]; rfl⟩
  refine ⟨state.acquire thread array l, ?_, same⟩
  simp only [State.advance, here, first, vacant, if_true]

theorem choosing : Returns config table (.choosing hp sec) := by
  apply step _ (locking rest again table.currentLocks)
  intro state thread _ _ same here
  subst same
  refine ⟨state, ?_, rfl⟩
  simp only [State.advance, here]

end Sections

section AllLocks
variable {purpose : Purpose Key T} {firstLocked array next : Nat}

theorem lockingArray (small : next ≤ table.locksSize array)
    (rest : Returns config table (.lockingAll purpose firstLocked array (table.locksSize array))) :
    Returns config table (.lockingAll purpose firstLocked array next) := by
  induction small using Nat.decreasingInduction with
  | self => exact rest
  | of_succ next early ih =>
    apply step _ ih
    intro state thread sound alone same here
    subst same
    have vacant : state.owner array next = none := by
      apply alone.vacant sound
      rw [here]
      exact ⟨rfl, early⟩
    refine ⟨state.acquire thread array next, ?_, rfl⟩
    simp only [State.advance, here]
    rw [if_pos early, if_pos vacant]

variable {pc' : Pc Key T}
  (runs : ∀ (state : State Key T) thread, state.table = table →
    ∃ moved : State Key T, purpose.run config state thread firstLocked = moved.goto thread pc' ∧ moved.table = table')
  (rest : Returns config table' pc')

include runs rest

theorem lockingAll (inside : array ≤ table.currentLocks) (small : next ≤ table.locksSize array) :
    Returns config table (.lockingAll purpose firstLocked array next) := by
  apply lockingArray small
  clear small
  induction inside using Nat.decreasingInduction with
  | self =>
    apply step _ rest
    intro state thread _ _ same here
    obtain ⟨moved, run, same'⟩ := runs state thread same
    refine ⟨moved, ?_, same'⟩
    subst same
    simp only [State.advance, here]
    rw [if_neg (Nat.lt_irrefl _), if_neg (Nat.lt_irrefl _), run]
  | of_succ array more ih =>
    have next : Returns config table (.lockingAll purpose firstLocked (array + 1) 0) :=
      lockingArray (Nat.zero_le _) ih
    apply step _ next
    intro state thread _ _ same here
    subst same
    refine ⟨state, ?_, rfl⟩
    simp only [State.advance, here]
    rw [if_neg (Nat.lt_irrefl _), if_pos more]

end AllLocks

end Returns

end UavRfDetector.Cuckoo

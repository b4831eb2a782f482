import UavRfDetector.Proofs.CuckooFootprint
import UavRfDetector.Proofs.CuckooLinearizable

/-! What a map becomes over a whole run: its size, the old buckets it keeps, its limit and
what an insertion throws. -/

namespace UavRfDetector.Cuckoo
open Contents Transition

variable {Key T : Type} {config : Config Key} {state : State Key T} {table after : Table Key T} {pc pc' : Pc Key T}

theorem prepareDouble_retires (table : Table Key T) (newHp : Nat) :
    (table.prepareDouble config newHp).oldBuckets.isDeallocated = true := by
  rw [Table.prepareDouble, Table.maybeResizeLocks]
  split
  next => rfl
  next => rfl

variable [DecidableEq Key]

theorem Map.apply_returns (map : Map Key T) (op : Op Key T) (error : TableError) : (map.apply op).2 ≠ .threw error := by
  have found (key : Key) (fn : T → T × Bool) : (map.onFound key fn).2 ≠ .threw error := by
    rw [Map.onFound]
    intro threw
    split at threw
    next => cases threw
    next => cases threw
  intro threw
  cases op with
  | findFn key => exact found key _ threw
  | updateFn key fn => exact found key _ threw
  | eraseFn key fn => exact found key _ threw
  | upraseFn key fn val =>
    rw [Map.apply, Map.uprase] at threw
    split at threw
    next => cases threw
    next => cases threw
  | clear => cases threw

theorem Next.hashpower (next : Next config state.table pc after pc') (sound : Sound config state) {thread : Nat}
    (here : state.threads thread = pc) :
    after.hashpower = state.table.hashpower ∨ ∃ ins firstLocked newHp,
      pc = .doubling ins firstLocked newHp ∧ newHp = state.table.hashpower + 1 ∧ after.hashpower = newHp := by
  have valid := sound.valid
  have ok := sound.ok thread
  rw [here] at ok
  cases next with
  | begins | clears | reads | locks | checks | retries | takes | readsAll | takesAll | throws | outrun => exact Or.inl rfl
  | runs => exact Or.inl (Section.run_valid ok.1.sec ok.2.1.symm valid).1.hashpower
  | prepares => exact Or.inl (valid.prepareDouble _).hashpower
  | cleared => exact Or.inl rfl
  | @doubled ins firstLocked newHp =>
    obtain ⟨rfl, _, none, enough⟩ := ok
    rw [← hashsize_eq] at enough
    exact Or.inr ⟨ins, firstLocked, _, rfl, rfl, (valid.finishDouble none enough).hashpower⟩

theorem Next.freed (next : Next config table pc after pc') (sound : Sound config state) {thread : Nat}
    (here : state.threads thread = pc) {first : BucketContainer Key T}
    (freed : table.numRemainingLazyRehashLocks = 0 → table.oldBuckets.isDeallocated = true ∨ table.oldBuckets = first) :
    after.numRemainingLazyRehashLocks = 0 → after.oldBuckets.isDeallocated = true ∨ after.oldBuckets = first := by
  have ok := sound.ok thread
  rw [here] at ok
  intro none
  cases next with
  | begins | clears | reads | locks | checks | retries | takes | readsAll | takesAll | throws | outrun => exact freed none
  | runs =>
    have retires := Section.run_retires ok.1.sec table
    rw [retires.old]
    split
    next => exact Or.inl rfl
    next some =>
      apply freed
      by_contra before
      exact some ⟨none, before⟩
  | prepares => exact Or.inl (prepareDouble_retires table _)
  | cleared => exact Or.inl rfl
  | doubled =>
    left
    rw [Table.finishDouble] at none ⊢
    dsimp only at none ⊢
    split
    next => rfl
    next many =>
      rw [if_neg many] at none
      simp only [Table.setNumRemaining] at none ⊢
      rw [if_pos none]
      rfl

variable (config) in
def Pc.Limited (table : Table Key T) : Pc Key T → Prop
  | .choosingAll (.fastDouble _ hp) | .lockingAll (.fastDouble _ hp) _ _ _ => hp ≤ table.hashpower
  | .doubling _ _ newHp => ∀ most, config.maximumHashpower = some most → newHp ≤ most
  | _ => True

omit [DecidableEq Key] in
theorem Pc.Limited.later (limited : pc.Limited config table) (later : table.hashpower ≤ after.hashpower) :
    pc.Limited config after := by
  match pc, limited with
  | .choosingAll (.fastDouble _ hp), limited | .lockingAll (.fastDouble _ hp) _ _ _, limited =>
    exact Nat.le_trans limited later
  | .doubling _ _ newHp, limited => exact limited
  | .choosingAll .clear, _ | .lockingAll .clear _ _ _, _ | .idle, _ | .called _, _ | .choosing _ _, _ | .locking _ _ _, _
  | .checking _ _ _, _ | .holding _ _ _ _, _ | .returned _, _ => trivial

theorem Next.limited (next : Next config state.table pc after pc') (sound : Sound config state) {thread : Nat}
    (here : state.threads thread = pc) (limited : pc.Limited config state.table) : pc'.Limited config after := by
  have ok := sound.ok thread
  rw [here] at ok
  cases next with
  | begins | clears | reads | locks | checks | retries | takes | throws | outrun | cleared | doubled => trivial
  | @runs hp sec array taken =>
    obtain ⟨map, holds⟩ := sound.valid.represented
    have step := Section.run_spec ok.1.sec ok.2.1.symm sound.valid holds
    generalize sec.run config hp state.table = result at step ⊢
    cases step with
    | @goesOn _ pc performs _ fits =>
      match pc, fits with
      | .choosing _ _, _ => trivial
      | .choosingAll (.fastDouble _ _), fits =>
        change _ ≤ Table.hashpower _
        rw [performs.within.hashpower, ← ok.2.1, fits]
    | ends _ _ => trivial
  | @readsAll purpose =>
    cases purpose with
    | fastDouble => exact limited
    | clear => trivial
  | @takesAll purpose =>
    cases purpose with
    | fastDouble => exact limited
    | clear => trivial
  | prepares _ _ checked => exact (resize_ok checked).2

variable (config) in
structure Throws (state after : State Key T) (thread : Nat) (error : TableError) : Prop where
  stepped : state.step config (.step thread) = some after
  threw : after.threads thread = .returned (.threw error)
  inserts : ∃ ins : Insertion Key T, (state.threads thread).call = .pending ins.op
  all : (state.threads thread).HasAll state.table
  same : after.table = state.table
  justified : ∃ hp ≤ state.table.hashpower, error.Justified config state.table.size state.table.hashpower hp

theorem Sound.throws (sound : Sound config state) {moved : State Key T} {thread : Nat}
    (stepped : state.step config (.step thread) = some moved) (limited : (state.threads thread).Limited config state.table)
    {error : TableError} (threw : moved.threads thread = .returned (.threw error)) :
    Throws config state moved thread error := by
  have ok := sound.ok thread
  have next := State.advance_next stepped
  generalize tables : moved.table = table at next
  generalize later : moved.threads thread = pc' at next
  generalize here : state.threads thread = pc at ok limited next
  cases next with
  | @throws ins hp firstLocked array next _ done last checked =>
    cases later.symm.trans threw
    refine ⟨stepped, threw, ⟨ins, ?_⟩, sound.locked_last here done last, tables, hp, limited, resize_justified checked⟩
    rw [here]
    rfl
  | @runs hp sec array taken =>
    -- a section returns what its call is meant to
    obtain ⟨map, holds⟩ := sound.valid.represented
    have step := Section.run_spec ok.1.sec ok.2.1.symm sound.valid holds
    rw [threw] at later
    generalize sec.run config hp state.table = result at step later
    cases step with
    | goesOn _ pending _ =>
      dsimp only at later
      subst later
      cases pending
    | ends _ answer =>
      cases later
      exact absurd answer.symm (Map.apply_returns map sec.op error)
  | _ => cases later.symm.trans threw

end UavRfDetector.Cuckoo

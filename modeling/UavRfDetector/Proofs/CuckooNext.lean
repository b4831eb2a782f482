import UavRfDetector.Proofs.CuckooInvariant

/-! All that one step can do, and the rule for what holds throughout a run. -/

namespace UavRfDetector.Cuckoo
open Transition

variable {Key T : Type} {config : Config Key} {state after : State Key T} {thread : Nat} {table : Table Key T}
  {pc pc' : Pc Key T}

def Op.first : Op Key T → Option (Section Key T)
  | .findFn key => some (.findFn key)
  | .updateFn key fn => some (.updateFn key fn)
  | .eraseFn key fn => some (.eraseFn key fn)
  | .upraseFn key fn val => some (.cuckooInsert ⟨key, fn, val⟩)
  | .clear => none

variable [DecidableEq Key]

variable (config table) in
inductive Next : Pc Key T → Table Key T → Pc Key T → Prop where
  | begins {op sec} (start : op.first = some sec) : Next (.called op) table (.choosing table.hashpower sec)
  | clears : Next (.called .clear) table (.choosingAll .clear)
  | reads {hp sec} : Next (.choosing hp sec) table (.locking hp sec table.currentLocks)
  | locks {hp sec array} : Next (.locking hp sec array) table (.checking hp sec array)
  | checks {hp sec array} (still : table.hashpower = hp) : Next (.checking hp sec array) table (.holding hp sec array 1)
  | retries {hp sec array} (changed : table.hashpower ≠ hp) : Next (.checking hp sec array) table (.called sec.op)
  | takes {hp sec array taken} : Next (.holding hp sec array taken) table (.holding hp sec array (taken + 1))
  | runs {hp sec array taken} : Next (.holding hp sec array taken) (sec.run config hp table).1 (sec.run config hp table).2
  | readsAll {purpose} :
    Next (.choosingAll purpose) table (.lockingAll purpose table.currentLocks table.currentLocks 0)
  | takesAll {purpose firstLocked array next array' next'} :
    Next (.lockingAll purpose firstLocked array next) table (.lockingAll purpose firstLocked array' next')
  | throws {ins hp firstLocked array next error}
    (done : ¬ next < table.locksSize array) (last : ¬ array < table.currentLocks)
    (checked : table.checkResizeValidity config true hp (hp + 1) = .error error) :
    Next (.lockingAll (.fastDouble ins hp) firstLocked array next) table (.returned (.threw error))
  | outrun {ins hp firstLocked array next}
    (done : ¬ next < table.locksSize array) (last : ¬ array < table.currentLocks)
    (checked : table.checkResizeValidity config true hp (hp + 1) = .ok .failureUnderExpansion) :
    Next (.lockingAll (.fastDouble ins hp) firstLocked array next) table (.called ins.op)
  | prepares {ins hp firstLocked array next}
    (done : ¬ next < table.locksSize array) (last : ¬ array < table.currentLocks)
    (checked : table.checkResizeValidity config true hp (hp + 1) = .ok .ok) :
    Next (.lockingAll (.fastDouble ins hp) firstLocked array next) (table.prepareDouble config (hp + 1))
      (.doubling ins firstLocked (hp + 1))
  | cleared {firstLocked array next}
    (done : ¬ next < table.locksSize array) (last : ¬ array < table.currentLocks) :
    Next (.lockingAll .clear firstLocked array next) table.cuckooClear (.returned .cleared)
  | doubled {ins firstLocked newHp} :
    Next (.doubling ins firstLocked newHp) (table.finishDouble config newHp) (.called ins.op)

theorem State.advance_next (stepped : state.advance config thread = some after) :
    Next config state.table (state.threads thread) after.table (after.threads thread) := by
  rw [State.advance] at stepped
  generalize state.threads thread = pc at stepped ⊢
  cases pc with
  | idle | returned => cases stepped
  | called op =>
    cases stepped
    cases op with
    | clear =>
      rw [State.begin, goto_self]
      exact .clears
    | _ =>
      rw [State.begin, goto_self]
      exact .begins rfl
  | choosing hp sec =>
    cases stepped
    rw [goto_self]
    exact .reads
  | locking hp sec array =>
    dsimp only at stepped
    split at stepped
    next => cases stepped
    next =>
      split at stepped
      next =>
        cases stepped
        rw [goto_self]
        exact .locks
      next => cases stepped
  | checking hp sec array =>
    dsimp only at stepped
    split at stepped
    next still =>
      cases stepped
      rw [goto_self]
      exact .checks still
    next changed =>
      cases stepped
      rw [goto_self]
      exact .retries changed
  | holding hp sec array taken =>
    dsimp only at stepped
    split at stepped
    next =>
      split at stepped
      next =>
        cases stepped
        rw [goto_self]
        exact .takes
      next => cases stepped
    next =>
      cases stepped
      rw [goto_self]
      exact .runs
  | choosingAll purpose =>
    cases stepped
    rw [goto_self]
    exact .readsAll
  | lockingAll purpose firstLocked array next =>
    dsimp only at stepped
    split at stepped
    next =>
      split at stepped
      next =>
        cases stepped
        rw [goto_self]
        exact .takesAll
      next => cases stepped
    next done =>
      split at stepped
      next =>
        cases stepped
        rw [goto_self]
        exact .takesAll
      next last =>
        cases stepped
        cases purpose with
        | clear =>
          rw [Purpose.run, goto_self]
          exact .cleared done last
        | fastDouble ins hp =>
          rw [Purpose.run]
          split
          next error checked =>
            rw [goto_self]
            exact .throws done last checked
          next checked =>
            rw [goto_self]
            exact .outrun done last checked
          next checked =>
            rw [goto_self]
            exact .prepares done last checked
  | doubling ins firstLocked newHp =>
    cases stepped
    rw [goto_self]
    exact .doubled

omit [DecidableEq Key] in
theorem resize_justified {hp : Nat} {error : TableError}
    (checked : table.checkResizeValidity config true hp (hp + 1) = .error error) :
    error.Justified config table.size table.hashpower hp := by
  rw [Table.checkResizeValidity] at checked
  split at checked
  next above =>
    cases checked
    obtain ⟨most, bounded, small⟩ := (Option.any_eq_true _ _).mp above
    exact ⟨rfl, most, bounded, of_decide_eq_true small⟩
  next =>
    split at checked
    next low =>
      cases checked
      rw [Bool.true_and, decide_eq_true_eq] at low
      exact ⟨rfl, low⟩
    next => cases checked

omit [DecidableEq Key] in
theorem resize_granted {hp : Nat} (checked : table.checkResizeValidity config true hp (hp + 1) = .ok .ok)
    (error : TableError) : ¬ error.Justified config table.size table.hashpower hp := by
  intro justified
  cases error with
  | maximumHashpowerExceeded newHp =>
    obtain ⟨rfl, most, bounded, small⟩ := justified
    have room := (resize_ok checked).2 most bounded
    omega
  | loadFactorTooLow least =>
    obtain ⟨rfl, low⟩ := justified
    rw [Table.checkResizeValidity] at checked
    split at checked
    next => cases checked
    next =>
      have low' : config.loadFactor table.size (table.capacity config) < config.minimumLoadFactor := low
      rw [Bool.true_and, decide_eq_true low'] at checked
      cases checked

theorem Next.doubles (next : Next config state.table pc table pc') (sound : Sound config state)
    (here : state.threads thread = pc) {array : Nat} (doubles : pc'.Doubles array) : ∃ hp,
      table = state.table.prepareDouble config (hp + 1) ∧
        state.table.checkResizeValidity config true hp (hp + 1) = .ok .ok := by
  have ok := sound.ok thread
  rw [here] at ok
  cases next with
  | prepares _ _ checked => exact ⟨_, rfl, checked⟩
  | @runs hp sec _ _ =>
    obtain ⟨map, holds⟩ := sound.valid.represented
    have step := Section.run_spec ok.1.sec ok.2.1.symm sound.valid holds
    generalize sec.run config hp state.table = result at step doubles
    cases step with
    | @goesOn _ pc _ _ fits =>
      match pc, fits, doubles with
      | .choosing _ _, _, doubles | .choosingAll (.fastDouble _ _), _, doubles => exact absurd doubles id
    | ends _ _ => exact absurd doubles id
  | begins | clears | reads | locks | checks | retries | takes | readsAll | takesAll | throws | outrun | cleared | doubled =>
    exact absurd doubles id

/-- Nobody touches a table that another thread is doubling. -/
theorem Next.untouched (next : Next config state.table pc table pc') (sound : Sound config state)
    (here : state.threads thread = pc) {other array : Nat} (different : other ≠ thread)
    (doubles : (state.threads other).Doubles array) : table = state.table := by
  have all := doubles.hasAll state.table
  have alone := sound.alone different all
  cases next with
  | runs => exact absurd here (sound.outside different all)
  | prepares done last _ | cleared done last => exact absurd (sound.locked_last here done last) alone
  | doubled =>
    refine absurd ?_ alone
    rw [here]
    trivial
  | begins | clears | reads | locks | checks | retries | takes | readsAll | takesAll | throws | outrun => rfl

end UavRfDetector.Cuckoo

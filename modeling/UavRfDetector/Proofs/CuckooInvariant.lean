import UavRfDetector.Proofs.CuckooSteps
import UavRfDetector.Transition

/-! A map is sound at first, and every step keeps it so and moves its own thread only. -/

namespace UavRfDetector.Cuckoo
open Contents Transition

variable {Key T : Type} {config : Config Key} {state after : State Key T} {thread : Nat}

section New
variable (config)

theorem Table.new_entries (n : Nat) : (Table.new config n : Table Key T).entries config = 0 := by
  have none : contents ((Table.new config n : Table Key T).newCells config)
      (Table.new config n : Table Key T).buckets.cell = 0 := contents_empty fun _ _ => rfl
  have none' : contents ((Table.new config n : Table Key T).oldCells config)
      (Table.new config n : Table Key T).oldBuckets.cell = 0 := contents_empty fun _ _ => rfl
  rw [Table.entries, none, none', add_zero]

theorem Valid.new (n : Nat) : Valid config (Table.new config n : Table Key T) := by
  have migrated (l : Nat) {goal : Prop} (waits : ((Table.new config n : Table Key T).locks.lock l).isMigrated = false) :
      goal := by
    cases waits
  refine ⟨⟨?_, fun ind waits => migrated _ waits, fun ind waits => migrated _ waits, fun l waits => migrated l waits,
    rfl, Nat.min_le_right _ _, ?_⟩, ?_, ?_, ?_⟩
  · intro ind slot entry found
    cases found
  · exact Nat.le_refl _
  · have none : (Table.new config n : Table Key T).locks.unmigrated = ∅ :=
      Finset.filter_eq_empty_iff.mpr fun l _ waits => migrated l waits
    rw [none]
    rfl
  · rw [Table.new_entries]
    exact Multiset.nodup_zero
  · rw [Table.new_entries]
    exact Finset.sum_eq_zero fun _ _ => rfl

theorem Sound.new (n : Nat) : Sound config (State.new config n : State Key T) := by
  refine ⟨.new config n, fun _ => trivial, ?_⟩
  intro thread a l
  refine iff_of_false ?_ id
  intro owns
  cases owns

end New

/-- A call begins or returns. -/
theorem Sound.turns (sound : Sound config state) {pc : Pc Key T} (single : ∀ array, ¬ (state.threads thread).Doubles array)
    (free : (state.threads thread).Free config) (free' : pc.Free config) (ok : ∀ after : State Key T, pc.Ok config after) :
    Sound config (state.goto thread pc) := by
  apply sound.go single (ok _)
  intro a l
  exact iff_of_false (free' _ a l) (free _ a l)

variable (config state after thread) in
structure Advanced : Prop where
  sound : Sound config after
  others : ∀ other, other ≠ thread → after.threads other = state.threads other

theorem Sound.advanced {moved : State Key T} {pc : Pc Key T} (sound : Sound config (moved.goto thread pc))
    (threads : moved.threads = state.threads) : Advanced config state (moved.goto thread pc) thread := by
  refine ⟨sound, ?_⟩
  intro other different
  rw [goto_other moved pc different, threads]

theorem Sound.begins (sound : Sound config state) {op : Op Key T} (here : state.threads thread = .called op) :
    Advanced config state (state.begin thread op) thread := by
  have single : ∀ array, ¬ (state.threads thread).Doubles array := by
    rw [here]
    exact fun _ => id
  have starts {pc : Pc Key T} (ok : pc.Ok config (state.goto thread pc)) (free : pc.Free config) :
      Advanced config state (state.goto thread pc) thread := by
    have moved : Sound config (state.goto thread pc) := by
      apply sound.go single ok
      intro a l
      rw [here]
      exact iff_of_false (free _ a l) id
    exact moved.advanced rfl
  cases op with
  | findFn _ | updateFn _ _ | eraseFn _ _ | upraseFn _ _ _ =>
    exact starts ⟨Nat.le_refl _, trivial⟩ fun _ _ _ => id
  | clear => exact starts trivial fun _ _ _ => id

theorem Sound.choosing (sound : Sound config state) {hp : Nat} {sec : Section Key T}
    (here : state.threads thread = .choosing hp sec) :
    Advanced config state (state.goto thread (.locking hp sec state.table.currentLocks)) thread := by
  have ok := sound.ok thread
  rw [here] at ok
  have moved : Sound config (state.goto thread (.locking hp sec state.table.currentLocks)) := by
    apply sound.go
    · rw [here]
      exact fun _ => id
    · refine ⟨ok.1, ok.2, Nat.le_refl _, ?_, fun _ => Or.inl rfl⟩
      have enough := sound.valid.le_locks
      have smaller : 2 ^ hp ≤ 2 ^ state.table.hashpower := Nat.pow_le_pow_right (by decide) ok.1
      change min (2 ^ hp) config.maxNumLocks ≤ state.table.locksSize state.table.currentLocks
      rw [Table.locksSize_current]
      rw [Table.size_buckets] at enough
      omega
    · rw [here]
      exact fun _ _ => Iff.rfl
  exact moved.advanced rfl

theorem Sound.locking (sound : Sound config state) {hp array l : Nat} {sec : Section Key T} {ls : List Nat}
    (here : state.threads thread = .locking hp sec array) (first : sec.lockInds config hp = l :: ls)
    (vacant : state.owner array l = none) :
    Advanced config state ((state.acquire thread array l).goto thread (.checking hp sec array)) thread := by
  have ok := sound.ok thread
  rw [here] at ok
  have single : ∀ array, ¬ (state.threads thread).Doubles array := by
    rw [here]
    exact fun _ => id
  have moved : Sound config ((state.acquire thread array l).goto thread (.checking hp sec array)) := by
    apply sound.take single vacant
    · exact Aimed.outlives ok (.stay single _ _)
    · intro a i
      rw [here, Pc.Holds, first]
      simp [Pc.Holds]
  exact moved.advanced rfl

/-- The check under the first lock: with the hashpower still the same the array is the
current one, since a thread that doubles the table would have that lock. -/
theorem Sound.checked (sound : Sound config state) {hp array : Nat} {sec : Section Key T}
    (here : state.threads thread = .checking hp sec array) (still : state.table.hashpower = hp) :
    Advanced config state (state.goto thread (.holding hp sec array 1)) thread := by
  have ok : Aimed config state hp sec array := by
    have ok := sound.ok thread
    rw [here] at ok
    exact ok
  have single : ∀ array, ¬ (state.threads thread).Doubles array := by
    rw [here]
    exact fun _ => id
  obtain ⟨l, ls, first⟩ := @Section.lockInds_cons Key T config hp sec
  have mine : (state.threads thread).Holds config state.table array l := by
    rw [here, Pc.Holds, first]
    exact ⟨rfl, List.mem_singleton_self l⟩
  have current : array = state.table.currentLocks := by
    rcases ok.fresh still.symm with same | ⟨other, doubles⟩
    · exact same
    · have doubling := sound.ok other
      cases place : state.threads other with
      | doubling ins firstLocked newHp =>
        have yours : (state.threads other).Holds config state.table array l := by
          have inside := (sound.ok thread).inside mine
          rw [place] at doubles ⊢
          exact ⟨doubles, inside.2⟩
        have same := sound.exclusive mine yours
        subst same
        rw [here] at place
        cases place
      | _ =>
        rw [place] at doubles
        exact absurd doubles id
  have moved : Sound config (state.goto thread (.holding hp sec array 1)) := by
    apply sound.go single
    · refine ⟨ok.outlives (.stay single _ _), still.symm, current, Nat.one_pos, ?_⟩
      rw [first]
      exact Nat.succ_le_succ (Nat.zero_le _)
    · rw [here]
      exact fun _ _ => Iff.rfl
  exact moved.advanced rfl

/-- The call starts again when the hashpower has changed. -/
theorem Sound.rejected (sound : Sound config state) {hp array : Nat} {sec : Section Key T}
    (here : state.threads thread = .checking hp sec array) :
    Advanced config state ((state.release array ((sec.lockInds config hp).take 1)).goto thread (.called sec.op)) thread := by
  have mine : ∀ a l, (state.threads thread).Holds config state.table a l ↔
      a = array ∧ l ∈ (sec.lockInds config hp).take 1 := by
    rw [here]
    exact fun _ _ => Iff.rfl
  have moved : Sound config ((state.release array ((sec.lockInds config hp).take 1)).goto thread (.called sec.op)) := by
    apply sound.stay
    · rw [here]
      exact fun _ => id
    · intro other different a l
      exact sound.released_other mine different a l
    · trivial
    · intro a l
      exact iff_of_false (sound.released_own mine a l) id
  exact moved.advanced rfl

theorem Sound.locks (sound : Sound config state) {hp array taken l : Nat} {sec : Section Key T}
    (here : state.threads thread = .holding hp sec array taken) (next : (sec.lockInds config hp)[taken]? = some l)
    (vacant : state.owner array l = none) :
    Advanced config state ((state.acquire thread array l).goto thread (.holding hp sec array (taken + 1))) thread := by
  have ok := sound.ok thread
  rw [here] at ok
  have single : ∀ array, ¬ (state.threads thread).Doubles array := by
    rw [here]
    exact fun _ => id
  have moved : Sound config ((state.acquire thread array l).goto thread (.holding hp sec array (taken + 1))) := by
    apply sound.take single vacant
    · obtain ⟨aimed, power, current, _, _⟩ := ok
      exact ⟨aimed.outlives (.stay single _ _), power, current, Nat.succ_pos taken, (List.getElem?_eq_some_iff.mp next).1⟩
    · intro a i
      rw [here, Pc.Holds, Pc.Holds, List.take_add_one, next]
      simp only [Option.toList_some, List.mem_append, List.mem_singleton]
      tauto
  exact moved.advanced rfl

section Running
variable [DecidableEq Key]

theorem Valid.represented {table : Table Key T} (valid : Valid config table) : ∃ map, table.Holds config map :=
  valid.distinct.represented Entry.mapped

theorem BodyStep.free {op : Op Key T} {hp : Nat} {held : Nat → Prop} {before : Table Key T} {map : Map Key T}
    {result : Table Key T × Pc Key T} (step : BodyStep config hp op held before map result) :
    result.2.Free config ∧ Within config held before result.1 ∧ Valid config result.1 := by
  cases step with
  | @goesOn _ pc performs _ fits =>
    refine ⟨?_, performs.within, performs.valid⟩
    match pc, fits with
    | .choosing _ _, _ | .choosingAll (.fastDouble _ _), _ => exact fun _ _ _ => id
  | ends performs _ => exact ⟨fun _ _ _ => id, performs.within, performs.valid⟩

theorem BodyStep.ok {op : Op Key T} {held : Nat → Prop} {before : Table Key T} {map : Map Key T}
    {result : Table Key T × Pc Key T} (step : BodyStep config after.table.hashpower op held before map result) :
    result.2.Ok config after := by
  cases step with
  | @goesOn _ pc _ _ fits =>
    match pc, fits with
    | .choosing hp sec, fits => exact ⟨fits.1.le, fits.1 ▸ fits.2⟩
    | .choosingAll (.fastDouble _ _), _ => trivial
  | ends _ _ => trivial

/-- The step with all locks of a section taken. -/
theorem Sound.runs (sound : Sound config state) {hp array taken : Nat} {sec : Section Key T}
    (here : state.threads thread = .holding hp sec array taken) (last : (sec.lockInds config hp)[taken]? = none) :
    Advanced config state (({ state with table := (sec.run config hp state.table).1 }.release array
      (sec.lockInds config hp)).goto thread (sec.run config hp state.table).2) thread := by
  have ok := sound.ok thread
  rw [here] at ok
  obtain ⟨aimed, power, current, _, _⟩ := ok
  have mine : ∀ a l, (state.threads thread).Holds config state.table a l ↔
      a = array ∧ l ∈ sec.lockInds config hp := by
    intro a l
    rw [here, Pc.Holds, List.take_of_length_le (List.getElem?_eq_none_iff.mp last)]
  obtain ⟨map, holds⟩ := sound.valid.represented
  have step := Section.run_spec aimed.sec power.symm sound.valid holds
  obtain ⟨free, within, valid⟩ := step.free
  have kept : (sec.run config hp state.table).1.currentLocks = state.table.currentLocks :=
    congrArg List.length within.retired
  have single : ∀ other, ∀ array, ¬ (state.threads other).Doubles array := by
    intro other array' doubles
    by_cases same : other = thread
    · rw [same, here] at doubles
      exact doubles
    · exact sound.outside same (doubles.hasAll _) here
  have ok' : ∀ after : State Key T, after.table = (sec.run config hp state.table).1 →
      (sec.run config hp state.table).2.Ok config after := by
    intro after table
    have power' : hp = after.table.hashpower := by rw [table, within.hashpower, power]
    subst power'
    exact step.ok
  refine Sound.advanced ?_ rfl
  apply sound.change _ valid
  · intro other different
    exact goto_other _ _ different
  · intro other _
    exact survives_steady (single other) within.hashpower kept
  · intro other different a l
    exact sound.released_other mine different a l
  · rw [goto_self]
    exact ok' _ rfl
  · intro a l
    rw [goto_self]
    exact iff_of_false (sound.released_own mine a l) (free _ a l)
  · refine ⟨within.hashpower.ge, kept.ge, fun array _ => locksSize_steady within.retired within.size array, ?_⟩
    intro array _ _ fresh
    exact fresh.imp (fun now => now.trans kept.symm) (doubles_goto _ rfl (single thread) _)

end Running

section AllLocks

theorem Sound.choosingAll (sound : Sound config state) {purpose : Purpose Key T}
    (here : state.threads thread = .choosingAll purpose) :
    Advanced config state (state.goto thread
      (.lockingAll purpose state.table.currentLocks state.table.currentLocks 0)) thread := by
  have moved : Sound config (state.goto thread
      (.lockingAll purpose state.table.currentLocks state.table.currentLocks 0)) := by
    apply sound.go
    · rw [here]
      exact fun _ => id
    · exact ⟨Nat.le_refl _, Nat.le_refl _, Nat.zero_le _⟩
    · intro a l
      rw [here, Pc.Holds]
      refine iff_of_false ?_ id
      intro holds
      have early := holds.2
      omega
  exact moved.advanced rfl

variable {purpose : Purpose Key T} {firstLocked array next : Nat}

theorem Sound.locksNext (sound : Sound config state) (here : state.threads thread = .lockingAll purpose firstLocked array next)
    (inside : next < state.table.locksSize array) (vacant : state.owner array next = none) :
    Advanced config state
      ((state.acquire thread array next).goto thread (.lockingAll purpose firstLocked array (next + 1))) thread := by
  have ok := sound.ok thread
  rw [here] at ok
  obtain ⟨first, current, _⟩ := ok
  have moved : Sound config
      ((state.acquire thread array next).goto thread (.lockingAll purpose firstLocked array (next + 1))) := by
    apply sound.take _ vacant
    · exact ⟨first, current, inside⟩
    · intro a i
      rw [here, Pc.Holds, Pc.Holds]
      omega
    · rw [here]
      exact fun _ => id
  exact moved.advanced rfl

theorem Sound.nextArray (sound : Sound config state) (here : state.threads thread = .lockingAll purpose firstLocked array next)
    (done : ¬ next < state.table.locksSize array) (more : array < state.table.currentLocks) :
    Advanced config state (state.goto thread (.lockingAll purpose firstLocked (array + 1) 0)) thread := by
  have ok := sound.ok thread
  rw [here] at ok
  obtain ⟨first, current, small⟩ := ok
  have moved : Sound config (state.goto thread (.lockingAll purpose firstLocked (array + 1) 0)) := by
    apply sound.go
    · rw [here]
      exact fun _ => id
    · exact ⟨Nat.le_succ_of_le first, more, Nat.zero_le _⟩
    · intro a l
      rw [here, Pc.Holds, Pc.Holds]
      by_cases same : a = array
      · subst same
        omega
      · omega
  exact moved.advanced rfl

theorem Sound.clears (sound : Sound config state) (here : state.threads thread = .lockingAll .clear firstLocked array next)
    (done : ¬ next < state.table.locksSize array) (last : ¬ array < state.table.currentLocks) :
    Advanced config state (Purpose.clear.run config state thread firstLocked) thread := by
  obtain ⟨first, mine⟩ := sound.locked_all here done last
  obtain ⟨valid, _, power, retired, size⟩ := sound.valid.cuckooClear
  refine Sound.advanced ?_ rfl
  apply sound.dropAll mine first valid power.ge retired size
  · rw [here]
    exact fun _ _ => id
  · exact fun _ _ _ => id
  · exact fun _ => trivial

theorem Sound.doubles (sound : Sound config state) {ins : Insertion Key T} {currentHp : Nat}
    (here : state.threads thread = .lockingAll (.fastDouble ins currentHp) firstLocked array next)
    (done : ¬ next < state.table.locksSize array) (last : ¬ array < state.table.currentLocks)
    (still : state.table.hashpower = currentHp) :
    Advanced config state ((state.acquireCurrent thread (state.table.prepareDouble config (currentHp + 1))).goto thread
      (.doubling ins firstLocked (currentHp + 1))) thread := by
  subst still
  obtain ⟨first, mine⟩ := sound.locked_all here done last
  have resized := sound.valid.prepareDouble (state.table.hashpower + 1)
  generalize state.table.prepareDouble config (state.table.hashpower + 1) = table at resized
  have yours : ∀ other, other ≠ thread → ∀ a l,
      (state.threads other).Holds config state.table a l → ¬ firstLocked ≤ a := by
    intro other different a l holds late
    have inside := (sound.ok other).inside holds
    exact different (sound.exclusive holds ((mine a l).mpr ⟨late, inside.2⟩))
  have arrays : state.table.currentLocks ≤ table.currentLocks ∧
      (∀ a ≤ state.table.currentLocks, table.locksSize a = state.table.locksSize a) ∧
        ∀ a, state.table.currentLocks < a → a < table.currentLocks → False := by
    rcases resized.retired with ⟨retired, size⟩ | ⟨retired, _⟩
    · refine ⟨?_, fun a _ => locksSize_steady retired size a, ?_⟩
      · rw [Table.currentLocks, Table.currentLocks, retired]
      · intro a outside inside
        rw [Table.currentLocks, retired] at inside
        exact absurd inside (Nat.lt_asymm outside)
    · have length : table.currentLocks = state.table.currentLocks + 1 := by
        rw [Table.currentLocks, retired, List.length_append]
        rfl
      refine ⟨by omega, ?_, fun a _ _ => by omega⟩
      intro a old
      rw [Table.locksSize, retired, Table.locksSize, List.getElem?_append_left]
      rw [List.length_append]
      exact Nat.lt_succ_of_le old
  obtain ⟨current, kept, between⟩ := arrays
  have power : table.hashpower = state.table.hashpower := resized.hashpower
  have single : ∀ array, ¬ (state.threads thread).Doubles array := by
    rw [here]
    exact fun _ => id
  refine Sound.advanced ?_ rfl
  apply sound.change _ resized.valid
  · intro other different
    exact goto_other _ _ different
  · intro other different
    apply sound.survives
    intro l holds
    exact yours other different _ l holds first
  · intro other different a l
    change (if a = table.currentLocks ∧ l < table.locks.size then some thread else state.owner a l) = some other ↔ _
    split
    next new =>
      refine iff_of_false ?_ ?_
      · intro same
        exact different (Option.some.inj same).symm
      · intro owns
        have holds := (sound.owned other a l).mp owns
        exact yours other different a l holds (by omega)
    next => exact Iff.rfl
  · rw [goto_self]
    refine ⟨by rw [← power]; rfl, Nat.le_trans first current, resized.unmigrated, ?_⟩
    have enough := resized.enough
    rw [hashsize_eq] at enough
    exact enough
  · intro a l
    rw [goto_self]
    change (if a = table.currentLocks ∧ l < table.locks.size then some thread else state.owner a l) = some thread ↔
      firstLocked ≤ a ∧ l < table.locksSize a
    rcases Nat.lt_trichotomy a table.currentLocks with before | now | outside
    · have old : a ≤ state.table.currentLocks := by
        by_contra outside
        exact between a (by omega) before
      rw [if_neg (by omega), sound.owned, mine, kept a old]
    · subst now
      rw [Table.locksSize_current]
      by_cases small : l < table.locks.size
      · rw [if_pos ⟨rfl, small⟩]
        exact iff_of_true rfl ⟨Nat.le_trans first current, small⟩
      · rw [if_neg (fun new => small new.2), sound.owned, mine]
        refine iff_of_false ?_ (fun inside => small inside.2)
        rintro ⟨late, inside⟩
        have old : table.currentLocks ≤ state.table.currentLocks := by
          by_contra more
          rw [Table.locksSize_outside (by omega)] at inside
          omega
        rw [← kept _ old, Table.locksSize_current] at inside
        exact absurd inside small
    · rw [if_neg (by omega), sound.owned, mine, Table.locksSize_outside outside, Table.locksSize_outside (by omega)]
  · refine ⟨power.ge, current, kept, ?_⟩
    intro array old _ fresh
    rcases Nat.lt_or_ge array table.currentLocks with before | late
    · right
      rcases fresh with same | doubles
      · refine ⟨thread, ?_⟩
        rw [goto_self, same]
        exact first
      · exact doubles_goto _ rfl single _ doubles
    · have now : array = table.currentLocks := by omega
      exact Or.inl now

/-- `cuckoo_fast_double` and `clear` with every lock taken. -/
theorem Sound.runsPurpose (sound : Sound config state)
    (here : state.threads thread = .lockingAll purpose firstLocked array next)
    (done : ¬ next < state.table.locksSize array) (last : ¬ array < state.table.currentLocks) :
    Advanced config state (purpose.run config state thread firstLocked) thread := by
  cases purpose with
  | clear => exact sound.clears here done last
  | fastDouble ins currentHp =>
    obtain ⟨first, mine⟩ := sound.locked_all here done last
    have gives {pc : Pc Key T} (free : pc.Free config) (ok : ∀ after : State Key T, pc.Ok config after) :
        Sound config ((state.releaseAll firstLocked).goto thread pc) := by
      apply sound.dropAll mine first sound.valid (Nat.le_refl _) rfl rfl _ free ok
      rw [here]
      exact fun _ _ => id
    rw [Purpose.run]
    split
    next => exact Sound.advanced (gives (fun _ _ _ => id) fun _ => trivial) rfl
    next => exact Sound.advanced (gives (fun _ _ _ => id) fun _ => trivial) rfl
    next checked =>
      exact sound.doubles here done last (resize_ok checked).1

theorem Sound.finishes (sound : Sound config state) {ins : Insertion Key T} {newHp : Nat}
    (here : state.threads thread = .doubling ins firstLocked newHp) :
    Advanced config state (({ state with table := state.table.finishDouble config newHp }.releaseAll firstLocked).goto thread
      (.called ins.op)) thread := by
  have ready : Ready config state.table firstLocked newHp := by
    have ok := sound.ok thread
    rw [here] at ok
    exact ok
  have power := ready.newHp_eq
  subst power
  have enough := ready.enough
  rw [← hashsize_eq] at enough
  have doubled := sound.valid.finishDouble ready.unmigrated enough
  have moved : Sound config (({ state with table := state.table.finishDouble config (state.table.hashpower + 1) }.releaseAll
      firstLocked).goto thread (.called ins.op)) := by
    apply sound.dropAll _ ready.first_le doubled.valid _ doubled.retired doubled.size
    · intro same
      rw [doubled.hashpower] at same
      exact absurd same (Nat.succ_ne_self _)
    · exact fun _ _ _ => id
    · exact fun _ => trivial
    · intro a l
      rw [here]
      exact Iff.rfl
    · rw [doubled.hashpower]
      exact Nat.le_succ _
  exact moved.advanced rfl

end AllLocks

variable [DecidableEq Key]

/-- Whatever a thread does next. -/
theorem Sound.advance (sound : Sound config state) (stepped : state.advance config thread = some after) :
    Advanced config state after thread := by
  rw [State.advance] at stepped
  split at stepped
  next => cases stepped
  next => cases stepped
  next op here =>
    cases stepped
    exact sound.begins here
  next hp sec here =>
    cases stepped
    exact sound.choosing here
  next hp sec array here =>
    split at stepped
    next => cases stepped
    next l ls first =>
      split at stepped
      next vacant =>
        cases stepped
        exact sound.locking here first vacant
      next => cases stepped
  next hp sec array here =>
    split at stepped
    next still =>
      cases stepped
      exact sound.checked here still
    next =>
      cases stepped
      exact sound.rejected here
  next hp sec array taken here =>
    split at stepped
    next l following =>
      split at stepped
      next vacant =>
        cases stepped
        exact sound.locks here following vacant
      next => cases stepped
    next last =>
      cases stepped
      exact sound.runs here last
  next purpose here =>
    cases stepped
    exact sound.choosingAll here
  next purpose firstLocked array following here =>
    split at stepped
    next inside =>
      split at stepped
      next vacant =>
        cases stepped
        exact sound.locksNext here inside vacant
      next => cases stepped
    next done =>
      split at stepped
      next more =>
        cases stepped
        exact sound.nextArray here done more
      next last =>
        cases stepped
        exact sound.runsPurpose here done last
  next ins firstLocked newHp here =>
    cases stepped
    exact sound.finishes here

variable (config) in
/-- A thread takes a step of its call, or begins or ends one. -/
inductive StateStep (state : State Key T) : Event Key T → State Key T → Prop where
  | steps {thread : Nat} {after : State Key T} (advanced : state.advance config thread = some after) :
      StateStep state (.step thread) after
  | calls {thread : Nat} (op : Op Key T) (idle : state.threads thread = .idle) :
      StateStep state (.call thread op) (state.goto thread (.called op))
  | returns {thread : Nat} {answer : Outcome T} (outcome : Outcome T) (answered : state.threads thread = .returned answer) :
      StateStep state (.ret thread outcome) (state.goto thread .idle)

theorem State.step_cases {event : Event Key T} (stepped : state.step config event = some after) :
    StateStep config state event after := by
  cases event with
  | step thread => exact .steps stepped
  | call thread op =>
    rw [State.step] at stepped
    split at stepped
    next idle =>
      cases stepped
      exact .calls op idle
    next => cases stepped
  | ret thread outcome =>
    rw [State.step] at stepped
    split at stepped
    next answered =>
      cases stepped
      exact .returns outcome answered
    next => cases stepped

/-- Whatever happens next. -/
theorem Sound.step (sound : Sound config state) {event : Event Key T} (stepped : state.step config event = some after) :
    Sound config after := by
  cases State.step_cases stepped with
  | steps advanced => exact (sound.advance advanced).sound
  | calls _ place | returns _ place =>
    apply sound.turns
    · rw [place]
      exact fun _ => id
    · rw [place]
      exact fun _ _ _ => id
    · exact fun _ _ _ => id
    · exact fun _ => trivial

theorem Sound.step_others (sound : Sound config state) {event : Event Key T} (stepped : state.step config event = some after)
    {other : Nat} (different : other ≠ event.thread) : after.threads other = state.threads other := by
  cases State.step_cases stepped with
  | steps advanced => exact (sound.advance advanced).others other different
  | calls | returns => exact goto_other _ _ different

theorem sound_run {n : Nat} {events : List (Event Key T)} {last : State Key T}
    (run : Run (State.step config) Event.Truthful (State.new config n) events last) : Sound config last :=
  run.invariant (.new config n) fun _ _ _ stepped sound => sound.step stepped

end UavRfDetector.Cuckoo

import UavRfDetector.Proofs.CuckooSolo
import UavRfDetector.Proofs.CuckooTrace

/-! An insertion that runs alone. Cuckoo hashing makes room with the first path it finds,
or there is none and the table is doubled. -/

namespace UavRfDetector.Cuckoo
open Transition

variable {Key T : Type} {config : Config Key} {table after : Table Key T} {ins : Insertion Key T}
  {sources : List CuckooRecord} {target : TablePosition}

variable (config table) in
/-- A path along which every move will succeed. -/
structure Ripe (sources : List CuckooRecord) (target : TablePosition) : Prop where
  vacant : table.entryAt target = none
  migrated : table.migrated config target.index
  occupied : ∀ source ∈ sources, Occupied config table source
  apart : (target.index :: sources.map CuckooRecord.bucket).Nodup

theorem Keeps.ripe (keeps : Keeps config table after) (ripe : Ripe config table sources target) :
    Ripe config after sources target := by
  refine ⟨?_, keeps.migrated _ ripe.migrated, fun source member => keeps.occupied (ripe.occupied source member), ripe.apart⟩
  rw [keeps.entryAt ripe.migrated]
  exact ripe.vacant

/-- The last move of what is left of a path. -/
theorem Ripe.move {source : CuckooRecord} (ripe : Ripe config table (source :: sources) target) :
    ∃ after, table.moveAlong config source target = some after ∧ after.hashpower = table.hashpower ∧
      Ripe config after sources ⟨source.bucket, source.slot⟩ := by
  obtain ⟨⟨migrated, entry, present, hashed⟩, others⟩ := List.forall_mem_cons.mp ripe.occupied
  have hash : config.hashFunction entry.key = source.hv.hash := by
    rw [← hashed]
    rfl
  refine ⟨(table.write target (some entry)).write ⟨source.bucket, source.slot⟩ none, ?_, rfl, ?_⟩
  · simp only [Table.moveAlong, ripe.vacant, present, hash, if_true]
  · have apart := ripe.apart
    rw [List.map_cons, List.nodup_cons, List.nodup_cons] at apart
    refine ⟨?_, migrated, ?_, List.nodup_cons.mpr apart.2⟩
    · rw [Table.entryAt, Table.write_other, if_pos ⟨rfl, rfl⟩]
    · intro other member
      obtain ⟨done, entry', present', same⟩ := others other member
      have elsewhere : other.bucket ≠ source.bucket := by
        intro equal
        exact apart.2.1 (equal ▸ List.mem_map_of_mem member)
      have elsewhere' : other.bucket ≠ target.index := by
        intro equal
        exact apart.1 (List.mem_cons_of_mem _ (equal ▸ List.mem_map_of_mem member))
      refine ⟨done, entry', ?_, same⟩
      rw [Table.entryAt, Table.write_other, if_neg (fun here => elsewhere here.1), Table.write_other,
        if_neg (fun here => elsewhere' here.1)]
      exact present'

variable [DecidableEq Key]

namespace Returns

theorem of_valid {pc : Pc Key T} (returns : Valid config table → Returns config table pc) : Returns config table pc := by
  intro state thread sound alone same here
  have valid := sound.valid
  rw [same] at valid
  exact returns valid state thread sound alone same here

variable (config table) in
/-- The body of a section brings its call to an end, with all the section can know of the
table it finds once its locks are rehashed. -/
def Ends (hp : Nat) (sec : Section Key T) : Prop :=
  ∀ after, Keeps config table after → Valid config after →
    (∀ l ∈ sec.lockInds config hp, (after.locks.lock l).isMigrated) →
      Returns config (sec.body config hp after).1 (sec.body config hp after).2

section Sections
variable {hp : Nat} {sec : Section Key T} (ends : Ends config table hp sec)

include ends

theorem ran (valid : Valid config table) : Returns config (sec.run config hp table).1 (sec.run config hp table).2 := by
  obtain ⟨valid', _, migrated⟩ := valid.rehashLocks (sec.lockInds config hp)
  exact ends _ (.rehashLocks valid _) valid' migrated

theorem runs (power : table.hashpower = hp) : Returns config table (.choosing hp sec) := by
  apply of_valid
  intro valid
  exact choosing (fun _ => ran ends valid) (fun other => absurd power other)

end Sections

theorem pathMove {hp : Nat} (power : table.hashpower = hp) (ripe : Ripe config table sources target) :
    Returns config table (.choosing hp (.pathMove ins sources target)) := by
  induction sources generalizing table target with
  | nil =>
    apply runs _ power
    intro after keeps _ _
    have vacant := (keeps.ripe ripe).vacant
    simp only [Section.body, vacant]
    exact done _ _
  | cons source sources ih =>
    apply runs _ power
    intro after keeps _ _
    obtain ⟨last, moved, power', rest⟩ := (keeps.ripe ripe).move
    cases sources with
    | nil =>
      simp only [Section.body, moved]
      exact done _ _
    | cons next sources =>
      simp only [Section.body, moved]
      exact ih (power'.trans (keeps.hashpower.trans power)) rest

theorem pathNext {hp : Nat} (power : table.hashpower = hp) {ahead behind : List CuckooRecord} {bucket last slot : Nat}
    (follows : Follows config table hp ahead bucket last)
    (ripe : Ripe config table (ahead.reverse ++ behind) ⟨last, slot⟩) :
    Returns config table (Section.pathNext hp ins behind bucket (ahead.map CuckooRecord.slot ++ [slot])) := by
  induction ahead generalizing table bucket behind with
  | nil =>
    cases follows
    apply runs _ power
    intro after keeps _ _
    have vacant := (keeps.ripe ripe).vacant
    simp only [Section.body, vacant]
    exact pathMove (keeps.hashpower.trans power) (keeps.ripe ripe)
  | cons source ahead ih =>
    apply runs _ power
    intro after keeps _ _
    obtain ⟨rfl, _, occupied, rest⟩ := keeps.follows follows
    obtain ⟨_, entry, present, hashed⟩ := occupied
    obtain ⟨first, more, slots⟩ : ∃ first more, ahead.map CuckooRecord.slot ++ [slot] = first :: more := by
      cases ahead with
      | nil => exact ⟨_, _, rfl⟩
      | cons next ahead => exact ⟨_, _, rfl⟩
    have ripe' := keeps.ripe ripe
    rw [List.reverse_cons, List.append_assoc] at ripe'
    have onward := ih (keeps.hashpower.trans power) rest ripe'
    change Returns config (Section.body config hp after (.pathSearch ins behind ⟨source.bucket, source.slot⟩
      (ahead.map CuckooRecord.slot ++ [slot]))).1 (Section.body config hp after (.pathSearch ins behind
        ⟨source.bucket, source.slot⟩ (ahead.map CuckooRecord.slot ++ [slot]))).2
    rw [slots] at onward ⊢
    simp only [Section.body, present, hashed]
    exact onward

theorem searchNext {hp : Nat} (few : config.slotPerBucket ≤ 8) (power : table.hashpower = hp) {q : BQueue} {depth : Nat}
    (explored : Explored config table hp ins.key q) (grown : q.Grown config hp depth 0)
    (full : ∀ after, Keeps config table after → Returns config after (.choosingAll (.fastDouble ins hp))) :
    Returns config table (Section.searchNext hp ins q) := by
  induction rounds : config.maxCuckooCount - q.first using Nat.strong_induction_on generalizing table q depth with
  | _ left ih =>
    rw [Section.searchNext]
    split
    next x q₁ taken =>
      apply runs _ power
      intro after keeps valid migrated
      have explored' := explored.keeps keeps
      obtain ⟨found, same⟩ := Explored.dequeue_eq taken
      obtain ⟨_, shallow, grown'⟩ := grown.dequeue taken
      have room := grown.length_le (Or.inl rfl)
      have early := (List.getElem?_eq_some_iff.mp found).1
      have rehashed : after.migrated config x.bucket := migrated _ (List.mem_singleton_self _)
      rw [Section.body]
      split
      next x' searched =>
        obtain ⟨slot, inside, vacant, rfl⟩ := searched_error searched
        obtain ⟨root, sources, small, length, traced, code⟩ := explored'.nodes x (List.mem_of_getElem? found)
        rw [traced.decoded few small length shallow (code few) inside]
        have apart := explored'.simple found shallow valid inside vacant small traced length
        have ripe : Ripe config after sources ⟨x.bucket, slot⟩ := by
          refine ⟨vacant, rehashed, ?_, apart⟩
          exact traced.occupied
        apply pathNext (keeps.hashpower.trans power) traced.follows
        rw [List.reverse_reverse, List.append_nil]
        exact ripe
      next q' searched =>
        have explored'' := explored'.search taken valid rehashed searched
        have whole : q₁.Grown config hp x.depth ((List.range config.slotPerBucket).length + 0) := by
          rw [List.length_range]
          exact grown'
        have first : q'.first = q.first + 1 := by
          rw [(searched_ok searched).2.1, same]
        have fewer : config.maxCuckooCount - q'.first < left := by omega
        apply ih _ fewer (keeps.hashpower.trans power) explored'' (whole.searched searched) _ rfl
        intro later keeps'
        exact full later (keeps.trans keeps')
    next => exact full table (.refl table)

/-! Doubling the table. -/

theorem doubling {firstLocked newHp : Nat} (ready : Ready config table firstLocked newHp)
    (again : ∀ after : Table Key T, after.hashpower = newHp → Returns config after (.called ins.op)) :
    Returns config table (.doubling ins firstLocked newHp) := by
  apply of_valid
  intro valid
  have power := ready.newHp_eq
  subst power
  have enough := ready.enough
  rw [← hashsize_eq] at enough
  have doubled := valid.finishDouble ready.unmigrated enough
  apply step _ (again _ doubled.hashpower)
  intro state thread _ _ same here
  subst same
  refine ⟨{ state with table := state.table.finishDouble config (state.table.hashpower + 1) }.releaseAll firstLocked, ?_, rfl⟩
  simp only [State.advance, here]

section Doubling
variable {hp most : Nat} (bounded : config.maximumHashpower = some most)
  (larger : hp < most → ∀ after : Table Key T, after.hashpower = hp + 1 → Returns config after (.called ins.op))
  (retry : table.hashpower ≠ hp → Returns config table (.called ins.op))

include bounded larger retry

theorem fastDouble {firstLocked array next : Nat} (first : firstLocked ≤ array) (inside : array ≤ table.currentLocks)
    (small : next ≤ table.locksSize array) :
    Returns config table (.lockingAll (.fastDouble ins hp) firstLocked array next) := by
  apply of_valid
  intro valid
  cases checked : table.checkResizeValidity config true hp (hp + 1) with
  | error error =>
    apply lockingAll _ (done table (.threw error)) inside small
    intro state thread same
    subst same
    refine ⟨state.releaseAll firstLocked, ?_, rfl⟩
    simp only [Purpose.run, checked]
  | ok status =>
    cases status with
    | failureUnderExpansion =>
      apply lockingAll _ (retry (resize_failure checked)) inside small
      intro state thread same
      subst same
      refine ⟨state.releaseAll firstLocked, ?_, rfl⟩
      simp only [Purpose.run, checked]
    | ok =>
      obtain ⟨still, below⟩ := resize_ok checked
      have resized := valid.prepareDouble (hp + 1)
      have current : table.currentLocks ≤ (table.prepareDouble config (hp + 1)).currentLocks := by
        rcases resized.retired with ⟨retired, _⟩ | ⟨retired, _⟩
        · rw [Table.currentLocks, Table.currentLocks, retired]
        · rw [Table.currentLocks, Table.currentLocks, retired, List.length_append]
          exact Nat.le_add_right _ _
      have ready : Ready config (table.prepareDouble config (hp + 1)) firstLocked (hp + 1) := by
        refine ⟨?_, by omega, resized.unmigrated, ?_⟩
        · rw [resized.hashpower, still]
        · have enough := resized.enough
          rw [hashsize_eq] at enough
          exact enough
      apply lockingAll _ (doubling ready (larger (below most bounded))) inside small
      intro state thread same
      subst same
      refine ⟨state.acquireCurrent thread (state.table.prepareDouble config (hp + 1)), ?_, rfl⟩
      simp only [Purpose.run, checked]

theorem doubles : Returns config table (.choosingAll (.fastDouble ins hp)) := by
  apply step _ (fastDouble bounded larger retry (Nat.le_refl _) (Nat.le_refl table.currentLocks) (Nat.zero_le _))
  intro state thread _ _ same here
  subst same
  refine ⟨state, ?_, rfl⟩
  simp only [State.advance, here]

end Doubling

theorem clears {firstLocked array next : Nat} (inside : array ≤ table.currentLocks) (small : next ≤ table.locksSize array) :
    Returns config table (.lockingAll .clear firstLocked array next) := by
  apply lockingAll _ (done table.cuckooClear .cleared) inside small
  intro state thread same
  subst same
  exact ⟨{ state with table := state.table.cuckooClear }.releaseAll firstLocked, rfl, rfl⟩

theorem clearsAll (table : Table Key T) : Returns config table (.choosingAll .clear) := by
  apply step _ (clears (Nat.le_refl table.currentLocks) (Nat.zero_le _))
  · exact table.currentLocks
  · intro state thread _ _ same here
    subst same
    refine ⟨state, ?_, rfl⟩
    simp only [State.advance, here]

/-! Whole calls. -/

theorem begins {op : Op Key T} {sec : Section Key T} (rest : Returns config table (.choosing table.hashpower sec))
    (begin : ∀ (state : State Key T) thread, state.begin thread op = state.goto thread (.choosing state.table.hashpower sec)) :
    Returns config table (.called op) := by
  apply step _ rest
  intro state thread _ _ same here
  subst same
  refine ⟨state, ?_, rfl⟩
  simp only [State.advance, here, begin]

section Bounded
variable {most : Nat} (few : config.slotPerBucket ≤ 8) (bounded : config.maximumHashpower = some most)

include few bounded

/-- An insertion alone: the table is doubled as often as it has to be, up to its limit. -/
theorem inserts (table : Table Key T) (ins : Insertion Key T) : Returns config table (.called ins.op) := by
  induction rounds : most - table.hashpower using Nat.strong_induction_on generalizing table with
  | _ left ih =>
    have inserted : Returns config table (.choosing table.hashpower (.cuckooInsert ins)) := by
      apply runs _ rfl
      intro after keeps _ _
      rw [Section.body]
      split
      next pos status _ => exact done _ _
      next =>
        have grown : BQueue.Grown config table.hashpower 0 0 _ := .start table.hashpower ins.key
        apply searchNext few keeps.hashpower (.start after table.hashpower ins.key) grown
        intro later keeps'
        apply doubles bounded
        · intro below last power
          exact ih (most - last.hashpower) (by omega) last rfl
        · intro other
          exact absurd (keeps'.hashpower.trans keeps.hashpower) other
    exact begins inserted fun _ _ => rfl

theorem calls (table : Table Key T) (op : Op Key T) : Returns config table (.called op) := by
  have found {op : Op Key T} {sec : Section Key T}
      (begin : ∀ (state : State Key T) thread, state.begin thread op = state.goto thread (.choosing state.table.hashpower sec))
      (ends : ∀ after, ∃ last outcome, sec.body config table.hashpower after = (last, .returned outcome)) :
      Returns config table (.called op) := by
    apply begins _ begin
    apply runs _ rfl
    intro after _ _ _
    obtain ⟨last, outcome, same⟩ := ends after
    rw [same]
    exact done last outcome
  cases op with
  | findFn key => exact found (fun _ _ => rfl) fun _ => ⟨_, _, rfl⟩
  | updateFn key fn => exact found (fun _ _ => rfl) fun _ => ⟨_, _, rfl⟩
  | eraseFn key fn => exact found (fun _ _ => rfl) fun _ => ⟨_, _, rfl⟩
  | upraseFn key fn val => exact inserts few bounded table ⟨key, fn, val⟩
  | clear =>
    apply step _ (clearsAll table)
    intro state thread _ _ same here
    refine ⟨state, ?_, same⟩
    simp only [State.advance, here, State.begin]

end Bounded

end Returns

end UavRfDetector.Cuckoo

import UavRfDetector.Cuckoo.AtomicMap
import UavRfDetector.Proofs.CuckooMigration
import UavRfDetector.Proofs.CuckooOperation
import UavRfDetector.Proofs.CuckooPath

/-! What a thread does with its locks held. A call that goes on has changed nothing of
the map, and one that ends has done to it all it is meant to do. -/

namespace UavRfDetector.Cuckoo
open Contents

variable {Key T : Type} {config : Config Key} {table : Table Key T} {key : Key} {i1 i2 hp : Nat}

/-- Where its thread is in a call, whatever it does for it. -/
def Pc.call : Pc Key T → Call Key T
  | .idle => .idle
  | .called op => .pending op
  | .choosing _ sec | .locking _ sec _ | .checking _ sec _ | .holding _ sec _ _ => .pending sec.op
  | .choosingAll purpose | .lockingAll purpose _ _ _ => .pending purpose.op
  | .doubling ins _ _ => .pending ins.op
  | .returned outcome => .answered outcome

variable (config hp) in
/-- Where a thread may go on when it has released its locks. -/
def Pc.Fits : Pc Key T → Prop
  | .choosing hp' sec => hp' = hp ∧ sec.Ok config hp
  | .choosingAll (.fastDouble _ currentHp) => currentHp = hp
  | _ => False

theorem Performs.mono {held more : Nat → Prop} {before after : Table Key T} {map : Map Key T}
    (performs : Performs config held before map after) (fewer : ∀ l, held l → more l) :
    Performs config more before map after :=
  ⟨performs.valid, performs.holds, performs.within.mono fewer⟩

theorem Performs.after {held : Nat → Prop} {before middle after : Table Key T} {map : Map Key T}
    (performs : Performs config held middle map after) (within : Within config held before middle) :
    Performs config held before map after :=
  ⟨performs.valid, performs.holds, within.trans performs.within⟩

theorem Prepared.congr {table' : Table Key T} (prepared : Prepared config table key i1 i2)
    (hashpower : table'.hashpower = table.hashpower) (locks : table'.locks = table.locks) :
    Prepared config table' key i1 i2 := by
  constructor
  · rw [hashpower]
    exact prepared.first
  · rw [hashpower]
    exact prepared.second
  · rw [Table.migrated, locks]
    exact prepared.migrated1
  · rw [Table.migrated, locks]
    exact prepared.migrated2

theorem prepared_of_locks (power : table.hashpower = hp)
    (migrated : ∀ l ∈ Section.lockKey config hp key, (table.locks.lock l).isMigrated) :
    Prepared config table key (config.i1 hp key) (config.i2 hp key) := by
  subst power
  refine ⟨rfl, rfl, ?_, ?_⟩
  · exact migrated _ (mem_lockKey.mpr (Or.inl rfl))
  · exact migrated _ (mem_lockKey.mpr (Or.inr rfl))

section Moving
variable {source : CuckooRecord} {target : TablePosition}

/-- A move that finds both slots as the search left them takes an element to its other bucket. -/
theorem Valid.moveAlong (valid : Valid config table) {after : Table Key T}
    (away : Writable config table ⟨source.bucket, source.slot⟩) (onto : Writable config table target)
    (alternative : target.index = altIndex table.hashpower source.hv.partialKey source.bucket)
    (tag : source.hv.partialKey = partialKey source.hv.hash)
    (moved : table.moveAlong config source target = some after) :
    Valid config after ∧ after.entries config = table.entries config ∧ after.hashpower = table.hashpower ∧
      after.locks = table.locks ∧ after.entryAt ⟨source.bucket, source.slot⟩ = none ∧
        Within config (fun l => l = config.lockInd source.bucket ∨ l = config.lockInd target.index) table after := by
  rw [Table.moveAlong] at moved
  split at moved
  next entry vacant present =>
    split at moved
    next same =>
      cases moved
      have place := valid.homes _ _ entry present
      have named : source.hv.partialKey = (config.hashedKey entry.key).partialKey := by
        rw [tag, ← same]
        rfl
      have placed1 : Placed config (table.write target (some entry)) := by
        apply valid.toPlaced.write onto.migrated
        intro entry' written
        cases written
        refine ⟨onto.slot, place.partialKey, ?_⟩
        rw [alternative, named]
        exact place.home.alt
      have placed2 : Placed config ((table.write target (some entry)).write ⟨source.bucket, source.slot⟩ none) :=
        placed1.write away.migrated (by simp)
      have entries1 := Table.entries_write onto.inside onto.slot (some entry)
      rw [vacant, content_none, add_zero, content_some] at entries1
      have still : (table.write target (some entry)).entryAt ⟨source.bucket, source.slot⟩ = some entry := by
        rw [Table.entryAt, Table.write_other]
        split
        next => rfl
        next => exact present
      have inside : (⟨source.bucket, source.slot⟩ : TablePosition).index <
          2 ^ (table.write target (some entry)).hashpower := away.inside
      have entries2 := Table.entries_write inside away.slot (none : Option (Entry Key T))
      rw [still, content_none, add_zero, content_some, entries1] at entries2
      have entries := add_right_cancel entries2
      refine ⟨⟨placed2, valid.remaining, ?_, ?_⟩, entries, rfl, rfl, ?_, ?_⟩
      · rw [entries]
        exact valid.distinct
      · rw [entries]
        exact valid.counted
      · rw [Table.entryAt, Table.write_other, if_pos ⟨rfl, rfl⟩]
      · exact (Within.write (Or.inr rfl) _).trans (Within.write (Or.inl rfl) _)
    next => cases moved
  next => cases moved

end Moving

theorem searchNext_fits {ins : Insertion Key T} {q : BQueue} {depth : Nat} (grown : q.Grown config hp depth 0) :
    (Section.searchNext hp ins q).call = .pending ins.op ∧ (Section.searchNext hp ins q).Fits config hp := by
  rw [Section.searchNext]
  split
  next x q' taken => exact ⟨rfl, rfl, grown.dequeue taken⟩
  next => exact ⟨rfl, rfl⟩

theorem runCuckoo_fits (ins : Insertion Key T) :
    (Section.runCuckoo config hp ins).call = .pending ins.op ∧ (Section.runCuckoo config hp ins).Fits config hp :=
  searchNext_fits (BQueue.Grown.start hp ins.key : BQueue.Grown config hp 0 0 _)

theorem pathNext_fits {ins : Insertion Key T} {sources : List CuckooRecord} {bucket : Nat}
    (chain : Chain config hp ins.key sources bucket) {slots : List Nat} (some : slots ≠ [])
    (small : ∀ slot ∈ slots, slot < config.slotPerBucket) :
    (Section.pathNext hp ins sources bucket slots).call = .pending ins.op ∧
      (Section.pathNext hp ins sources bucket slots).Fits config hp := by
  cases slots with
  | nil => exact absurd rfl some
  | cons slot slots => exact ⟨rfl, rfl, chain, small⟩

variable [DecidableEq Key] {map : Map Key T}

/-- A thread that finds no slot for a key knows that the key has none. -/
theorem Prepared.crowded (prepared : Prepared config table key i1 i2) (valid : Valid config table)
    (holds : table.Holds config map)
    (full : table.cuckooInsert config (config.hashedKey key).partialKey i1 i2 key = none) :
    map.Crowded config table.hashpower key := by
  obtain ⟨absent, occupied⟩ := prepared.insert_full valid.toPlaced full
  have resident {pos : TablePosition} (slot : pos ∈ config.slotsOf table.hashpower key) : ∃ entry,
      table.entryAt pos = some entry ∧ ((table.entryAt pos).map Entry.key).getD key = entry.key := by
    obtain ⟨entry, present⟩ := occupied pos.index (prepared.home.mp slot.1) pos.slot slot.2
    exact ⟨entry, present, by rw [present]; rfl⟩
  have distinct : Distinct Entry.key (contents (table.newCells config) table.buckets.cell) := by
    have distinct := valid.distinct
    rw [Distinct, Table.entries, Multiset.map_add, Multiset.nodup_add] at distinct
    exact distinct.1
  have inside {pos : TablePosition} (slot : pos ∈ config.slotsOf table.hashpower key) :
      (pos.index, pos.slot) ∈ table.newCells config := by
    rw [Table.newCells, Finset.mem_product, Finset.mem_range, Finset.mem_range, Table.size_buckets]
    exact ⟨slot.1.lt, slot.2⟩
  refine ⟨holds.absent.mpr absent, fun pos => ((table.entryAt pos).map Entry.key).getD key, ?_, ?_⟩
  · intro pos slot pos' slot' same
    obtain ⟨entry, present, named⟩ := resident slot
    obtain ⟨entry', present', named'⟩ := resident slot'
    have cell := distinct.cell (inside slot) (inside slot') present present' (named.symm.trans (same.trans named'))
    cases pos
    cases pos'
    cases cell
    rfl
  · intro pos slot
    obtain ⟨entry, present, named⟩ := resident slot
    have member : entry ∈ table.entries config := valid.toPlaced.mem_entries.mpr (Or.inl ⟨_, _, present⟩)
    dsimp only
    rw [named, holds.present member]
    exact ⟨rfl, (valid.homes _ _ _ present).home⟩

variable (config hp) in
inductive BodyStep (op : Op Key T) (held : Nat → Prop) (before : Table Key T) (map : Map Key T) :
    Table Key T × Pc Key T → Prop where
  | goesOn {after pc} (performs : Performs config held before map after) (pending : pc.call = .pending op)
    (fits : pc.Fits config hp) : BodyStep op held before map (after, pc)
  | ends {after outcome} (performs : Performs config held before (map.apply op).1 after)
    (result : outcome = (map.apply op).2) : BodyStep op held before map (after, .returned outcome)

theorem BodyStep.unchanged {op : Op Key T} {held : Nat → Prop} {pc : Pc Key T} (valid : Valid config table)
    (holds : table.Holds config map) (pending : pc.call = .pending op) (fits : pc.Fits config hp) :
    BodyStep config hp op held table map (table, pc) :=
  .goesOn ⟨valid, holds, .refl _ _⟩ pending fits

section Insertion
variable {ins : Insertion Key T} {held : Nat → Prop}
  (prepared : Prepared config table ins.key (config.i1 hp ins.key) (config.i2 hp ins.key))
  (both : ∀ l, Both config (config.i1 hp ins.key) (config.i2 hp ins.key) l → held l)

include prepared both

theorem Settles.finish {pos : TablePosition} {status : CuckooStatus} (valid : Valid config table)
    (holds : table.Holds config map)
    (settles : Settles config table ins.key (config.i1 hp ins.key) (config.i2 hp ins.key) pos status) :
    BodyStep config hp ins.op held table map (Section.finish config table ins pos status) := by
  obtain ⟨performs, result⟩ := settles.upraseAt prepared valid holds ins.fn ins.val
  exact .ends (performs.mono both) result

theorem freed_spec {pos : TablePosition} (valid : Valid config table) (holds : table.Holds config map)
    (reached : Reached config table (config.i1 hp ins.key) (config.i2 hp ins.key) pos)
    (vacant : table.entryAt pos = none) :
    BodyStep config hp ins.op held table map (Section.freed config table hp ins pos) := by
  unfold Section.freed
  generalize found : table.cuckooInsertFreed config (config.hashedKey ins.key).partialKey (config.i1 hp ins.key)
    (config.i2 hp ins.key) ins.key pos = position
  obtain ⟨pos', status⟩ := position
  exact (prepared.insertFreed valid.toPlaced reached vacant found).finish prepared both valid holds

end Insertion

theorem found_spec {op : Op Key T} {key : Key} {fn : T → T × Bool} (meant : map.apply op = map.onFound key fn)
    (power : table.hashpower = hp) (valid : Valid config table) (holds : table.Holds config map)
    (migrated : ∀ l ∈ Section.lockKey config hp key, (table.locks.lock l).isMigrated) :
    BodyStep config hp op (· ∈ Section.lockKey config hp key) table map
      ((table.onFound config key (config.hashedKey key).partialKey (config.i1 hp key) (config.i2 hp key) fn).1,
        .returned
          (table.onFound config key (config.hashedKey key).partialKey (config.i1 hp key) (config.i2 hp key) fn).2) := by
  obtain ⟨performs, result⟩ := (prepared_of_locks power migrated).onFound valid holds fn
  rw [← meant] at performs result
  exact .ends (performs.mono fun l one => mem_lockKey.mpr one) result

theorem pathMove_spec {ins : Insertion Key T} {sources : List CuckooRecord} {target : TablePosition}
    (ok : (Section.pathMove ins sources target).Ok config hp) (power : table.hashpower = hp) (valid : Valid config table)
    (holds : table.Holds config map)
    (migrated : ∀ l ∈ (Section.pathMove ins sources target).lockInds config hp, (table.locks.lock l).isMigrated) :
    BodyStep config hp ins.op (· ∈ (Section.pathMove ins sources target).lockInds config hp) table map
      ((Section.pathMove ins sources target).body config hp table) := by
  obtain ⟨chain, small⟩ := ok
  obtain ⟨pending, fits⟩ := @runCuckoo_fits Key T config hp ins
  cases sources with
  | nil =>
    have prepared := prepared_of_locks power migrated
    rw [Section.body]
    split
    next vacant =>
      apply freed_spec prepared (fun l one => mem_lockKey.mpr one) valid holds (prepared.reached chain small) vacant
    next => exact .unchanged valid holds pending fits
  | cons source sources =>
    obtain ⟨alternative, tag, slot, rest⟩ := chain
    have writes (one : config.lockInd source.bucket ∈ (Section.pathMove ins (source :: sources) target).lockInds config hp)
        (other : config.lockInd target.index ∈ (Section.pathMove ins (source :: sources) target).lockInds config hp) :
        Writable config table ⟨source.bucket, source.slot⟩ ∧ Writable config table target := by
      refine ⟨⟨?_, slot, migrated _ one⟩, ⟨?_, small, migrated _ other⟩⟩
      · rw [power]
        exact rest.inside
      · rw [power, alternative]
        exact altIndex_lt _ _ _
    cases moved : table.moveAlong config source target with
    | none =>
      simp only [Section.body, moved]
      exact .unchanged valid holds pending fits
    | some after =>
      cases sources with
      | nil =>
        have locks : ∀ l, Both config (config.i1 hp ins.key) (config.i2 hp ins.key) l →
            l ∈ (Section.pathMove ins [source] target).lockInds config hp := by
          intro l one
          exact mem_lockThree.mpr (one.imp id Or.inl)
        have mine : config.lockInd source.bucket ∈ (Section.pathMove ins [source] target).lockInds config hp := by
          apply locks
          exact rest.imp (congrArg config.lockInd) (congrArg config.lockInd)
        have other : config.lockInd target.index ∈ (Section.pathMove ins [source] target).lockInds config hp :=
          mem_lockThree.mpr (Or.inr (Or.inr rfl))
        obtain ⟨away, onto⟩ := writes mine other
        obtain ⟨valid', entries, hashpower, same, vacant, within⟩ :=
          valid.moveAlong away onto (by rw [power]; exact alternative) tag moved
        have prepared : Prepared config table ins.key (config.i1 hp ins.key) (config.i2 hp ins.key) :=
          prepared_of_locks power fun l one => migrated l (locks l (mem_lockKey.mp one))
        have prepared' := prepared.congr hashpower same
        have holds' : after.Holds config map := by
          rw [Table.Holds, entries]
          exact holds
        have step : BodyStep config hp ins.op (· ∈ (Section.pathMove ins [source] target).lockInds config hp) after map
            (Section.freed config after hp ins ⟨source.bucket, source.slot⟩) :=
          freed_spec prepared' locks valid' holds' (prepared'.reached rest slot) vacant
        have wider : Within config (· ∈ (Section.pathMove ins [source] target).lockInds config hp) table after := by
          apply within.mono
          intro l one
          rcases one with rfl | rfl
          · exact mine
          · exact other
        simp only [Section.body, moved]
        generalize Section.freed config after hp ins ⟨source.bucket, source.slot⟩ = result at step ⊢
        cases step with
        | goesOn performs pending fits => exact .goesOn (performs.after wider) pending fits
        | ends performs result => exact .ends (performs.after wider) result
      | cons next sources =>
        have mine : config.lockInd source.bucket ∈
            (Section.pathMove ins (source :: next :: sources) target).lockInds config hp := mem_lockTwo.mpr (Or.inl rfl)
        have other : config.lockInd target.index ∈
            (Section.pathMove ins (source :: next :: sources) target).lockInds config hp := mem_lockTwo.mpr (Or.inr rfl)
        obtain ⟨away, onto⟩ := writes mine other
        obtain ⟨valid', entries, _, _, _, within⟩ :=
          valid.moveAlong away onto (by rw [power]; exact alternative) tag moved
        have holds' : after.Holds config map := by
          rw [Table.Holds, entries]
          exact holds
        simp only [Section.body, moved]
        exact .goesOn ⟨valid', holds', within.mono fun l one => mem_lockTwo.mpr one⟩ rfl ⟨rfl, rest, slot⟩

theorem Section.body_spec {sec : Section Key T} (ok : sec.Ok config hp) (power : table.hashpower = hp)
    (valid : Valid config table) (holds : table.Holds config map)
    (migrated : ∀ l ∈ sec.lockInds config hp, (table.locks.lock l).isMigrated) :
    BodyStep config hp sec.op (· ∈ sec.lockInds config hp) table map (sec.body config hp table) := by
  match sec, ok with
  | .findFn key, _ =>
    have meant : map.apply (.findFn key) = map.onFound key fun mapped => (mapped, false) := rfl
    exact found_spec meant power valid holds migrated
  | .updateFn key fn, _ =>
    have meant : map.apply (.updateFn key fn) = map.onFound key fun mapped => (fn mapped, false) := rfl
    exact found_spec meant power valid holds migrated
  | .eraseFn key fn, _ =>
    have meant : map.apply (.eraseFn key fn) = map.onFound key fn := rfl
    exact found_spec meant power valid holds migrated
  | .cuckooInsert ins, _ =>
    have prepared := prepared_of_locks power migrated
    rw [Section.body]
    split
    next pos status found =>
      apply (prepared.insert valid.toPlaced found).finish prepared _ valid holds
      intro l one
      exact mem_lockKey.mpr one
    next =>
      obtain ⟨pending, fits⟩ := @runCuckoo_fits Key T config hp ins
      exact .unchanged valid holds pending fits
  | .slotSearch ins x q, ok =>
    obtain ⟨_, _, grown⟩ := ok
    rw [Section.body]
    split
    next x' _ =>
      have start : Chain config hp ins.key [] (config.decodePath x' (config.i1 hp ins.key) (config.i2 hp ins.key)).1 := by
        unfold Config.decodePath
        dsimp only
        split
        · exact Or.inl rfl
        · exact Or.inr rfl
      have some : (config.decodePath x' (config.i1 hp ins.key) (config.i2 hp ins.key)).2 ≠ [] := by
        intro none
        have length : (config.decodePath x' (config.i1 hp ins.key) (config.i2 hp ins.key)).2.length = x'.depth + 1 :=
          decodeSlots_length (x'.depth + 1) x'.pathcode.toNat
        rw [none] at length
        cases length
      have small : ∀ slot ∈ (config.decodePath x' (config.i1 hp ins.key) (config.i2 hp ins.key)).2,
          slot < config.slotPerBucket := decodeSlots_lt (x'.depth + 1) x'.pathcode.toNat
      obtain ⟨pending, fits⟩ := pathNext_fits start some small
      exact .unchanged valid holds pending fits
    next q' searched =>
      have whole : q.Grown config hp x.depth ((List.range config.slotPerBucket).length + 0) := by
        rw [List.length_range]
        exact grown
      obtain ⟨pending, fits⟩ := @searchNext_fits Key T config hp ins q' x.depth (whole.searched searched)
      exact .unchanged valid holds pending fits
  | .pathSearch ins sources pos slots, ok =>
    obtain ⟨chain, small⟩ := ok
    rw [List.forall_mem_cons] at small
    have ended : BodyStep config hp ins.op (· ∈ (Section.pathSearch ins sources pos slots).lockInds config hp) table map
        (table, .choosing hp (.pathMove ins sources pos)) := .unchanged valid holds rfl ⟨rfl, chain, small.1⟩
    cases present : table.entryAt pos with
    | none =>
      simp only [Section.body, present]
      exact ended
    | some entry =>
      cases slots with
      | nil =>
        simp only [Section.body, present]
        exact ended
      | cons slot rest =>
        have longer : Chain config hp ins.key (⟨pos.index, pos.slot, config.hashedKey entry.key⟩ :: sources)
            (altIndex hp (config.hashedKey entry.key).partialKey pos.index) := ⟨rfl, rfl, small.1, chain⟩
        obtain ⟨pending, fits⟩ := pathNext_fits longer (List.cons_ne_nil slot rest) small.2
        simp only [Section.body, present]
        exact .unchanged valid holds pending fits
  | .pathMove ins sources target, ok => exact pathMove_spec ok power valid holds migrated

/-- A thread rehashes what it has locked first, and then works on what is there. -/
theorem Section.run_spec {sec : Section Key T} (ok : sec.Ok config hp) (power : table.hashpower = hp)
    (valid : Valid config table) (holds : table.Holds config map) :
    BodyStep config hp sec.op (· ∈ sec.lockInds config hp) table map (sec.run config hp table) := by
  obtain ⟨valid', rehashed, migrated⟩ := valid.rehashLocks (sec.lockInds config hp)
  have holds' : Table.Holds config ((sec.lockInds config hp).foldl (Table.rehashLock config true) table) map := by
    rw [Table.Holds, rehashed.entries]
    exact holds
  have step := Section.body_spec ok (rehashed.within.hashpower.trans power) valid' holds' migrated
  rw [Section.run]
  generalize sec.body config hp ((sec.lockInds config hp).foldl (Table.rehashLock config true) table) = result at step ⊢
  cases step with
  | goesOn performs pending fits => exact .goesOn (performs.after rehashed.within) pending fits
  | ends performs result => exact .ends (performs.after rehashed.within) result

def Section.Searches : Section Key T → Prop
  | .slotSearch _ _ _ | .pathSearch _ _ _ _ | .pathMove _ _ _ => True
  | _ => False

/-- The hashpower at which a thread has found no slot for its key. -/
def Pc.CrowdedAt (hp : Nat) : Pc Key T → Prop
  | .choosing hp' sec | .locking hp' sec _ | .checking hp' sec _ | .holding hp' sec _ _ => sec.Searches ∧ hp' = hp
  | .choosingAll (.fastDouble _ hp') | .lockingAll (.fastDouble _ hp') _ _ _ => hp' = hp
  | .doubling _ _ newHp => newHp = hp + 1
  | _ => False

/-- A thread goes on to look for a path, or already did. -/
theorem Section.run_crowded {sec : Section Key T} (ok : sec.Ok config hp) (power : table.hashpower = hp)
    (valid : Valid config table) (holds : table.Holds config map) {hp' : Nat}
    (crowded : (sec.run config hp table).2.CrowdedAt hp') :
    hp' = hp ∧ (sec.Searches ∨ ∃ ins, sec = .cuckooInsert ins ∧ map.Crowded config hp ins.key) := by
  have still : hp' = hp := by
    have step := Section.run_spec ok power valid holds
    generalize sec.run config hp table = result at step crowded
    cases step with
    | @goesOn _ pc _ _ fits =>
      match pc, fits, crowded with
      | .choosing _ _, fits, crowded => exact crowded.2.symm.trans fits.1
      | .choosingAll (.fastDouble _ _), fits, crowded => exact crowded.symm.trans fits
    | ends _ _ => exact absurd crowded id
  refine ⟨still, ?_⟩
  match sec, crowded with
  | .slotSearch _ _ _, _ | .pathSearch _ _ _ _, _ | .pathMove _ _ _, _ => exact Or.inl trivial
  | .cuckooInsert ins, crowded =>
    obtain ⟨valid', rehashed, migrated⟩ := valid.rehashLocks ((Section.cuckooInsert ins).lockInds config hp)
    rw [Section.run, Section.body] at crowded
    split at crowded
    next => exact absurd crowded id
    next full =>
      have holds' : Table.Holds config
          (((Section.cuckooInsert ins).lockInds config hp).foldl (Table.rehashLock config true) table) map := by
        rw [Table.Holds, rehashed.entries]
        exact holds
      have power' := rehashed.within.hashpower.trans power
      have full' := (prepared_of_locks power' migrated).crowded valid' holds' full
      rw [power'] at full'
      exact Or.inr ⟨ins, rfl, full'⟩

end UavRfDetector.Cuckoo

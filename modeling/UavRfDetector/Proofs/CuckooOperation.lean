import UavRfDetector.Cuckoo.Operation
import UavRfDetector.Proofs.CuckooLookup

/-! The calls under their locks do to the elements of the table what they are meant to
do to a map. -/

namespace UavRfDetector.Cuckoo
open Contents

variable {Key T : Type} {config : Config Key} {table : Table Key T} {key : Key} {i1 i2 : Nat}

def Both (config : Config Key) (i1 i2 l : Nat) : Prop := l = config.lockInd i1 ∨ l = config.lockInd i2

theorem Reached.held {pos : TablePosition} (reached : Reached config table i1 i2 pos) :
    Both config i1 i2 (config.lockInd pos.index) := by
  rcases reached.one with same | same
  · exact Or.inl (by rw [same])
  · exact Or.inr (by rw [same])

def Table.Holds (config : Config Key) (table : Table Key T) (map : Map Key T) : Prop :=
  Represents Entry.key Entry.mapped (table.entries config) map

/-- Carrying out a call in a critical section. -/
structure Performs (config : Config Key) (held : Nat → Prop) (before : Table Key T) (map : Map Key T)
    (after : Table Key T) : Prop where
  valid : Valid config after
  holds : after.Holds config map
  within : Within config held before after

variable [DecidableEq Key] {map : Map Key T}

theorem Valid.leave (valid : Valid config table) (holds : table.Holds config map) {pos : TablePosition}
    {entry : Entry Key T} (reached : Reached config table i1 i2 pos) (found : table.entryAt pos = some entry)
    (fate : T × Bool) : Performs config (Both config i1 i2) table
      (Function.update map entry.key (Map.left fate)) (table.leave config pos entry fate) := by
  obtain ⟨rest, split, replaced, entries⟩ := valid.replace reached.toWritable found fate.1
  have stands : (table.write pos (some { entry with mapped := fate.1 })).Holds config
      (Function.update map entry.key (some fate.1)) := by
    rw [Table.Holds, split] at holds
    rw [Table.Holds, entries]
    have distinct := valid.distinct
    rw [split] at distinct
    exact holds.replace distinct rfl
  have written : Within config (Both config i1 i2) table (table.write pos (some { entry with mapped := fate.1 })) :=
    .write reached.held _
  rw [Table.leave, Map.left]
  cases fate.2 with
  | false => exact ⟨replaced, stands, written⟩
  | true =>
    have present : (table.write pos (some { entry with mapped := fate.1 })).entryAt pos =
        some { entry with mapped := fate.1 } := by
      rw [Table.entryAt, Table.write_other, if_pos ⟨rfl, rfl⟩]
    have writable : Writable config (table.write pos (some { entry with mapped := fate.1 })) pos :=
      ⟨reached.inside, reached.slot, reached.migrated⟩
    obtain ⟨erased, gone⟩ := replaced.delFromBucket writable present
    refine ⟨erased, ?_, written.trans (.delFromBucket reached.held)⟩
    have distinct := replaced.distinct
    rw [← gone] at distinct
    rw [Table.Holds, ← gone] at stands
    have left := stands.tail distinct
    rw [Function.update_idem] at left
    exact left

theorem Prepared.onFound (prepared : Prepared config table key i1 i2) (valid : Valid config table)
    (holds : table.Holds config map) (fn : T → T × Bool) :
    Performs config (Both config i1 i2) table (map.onFound key fn).1
        (table.onFound config key (config.hashedKey key).partialKey i1 i2 fn).1 ∧
      (table.onFound config key (config.hashedKey key).partialKey i1 i2 fn).2 = (map.onFound key fn).2 := by
  rw [Table.onFound]
  split
  next missing =>
    have absent := holds.absent.mpr (prepared.find_none valid.toPlaced missing)
    rw [Map.onFound, absent]
    exact ⟨⟨valid, holds, .refl _ _⟩, rfl⟩
  next pos there =>
    obtain ⟨reached, entry, found, rfl⟩ := prepared.find_some there
    have member : entry ∈ table.entries config := valid.toPlaced.mem_entries.mpr (Or.inl ⟨_, _, found⟩)
    rw [found, Map.onFound, holds.present member]
    exact ⟨valid.leave holds reached found _, rfl⟩

theorem Settles.upraseAt {pos : TablePosition} {status : CuckooStatus}
    (settles : Settles config table key i1 i2 pos status) (prepared : Prepared config table key i1 i2)
    (valid : Valid config table) (holds : table.Holds config map) (fn : UpraseFn T) (val : T) :
    Performs config (Both config i1 i2) table (map.uprase key fn val).1
        (table.upraseAt config (config.hashedKey key).partialKey key fn val pos status).1 ∧
      (table.upraseAt config (config.hashedKey key).partialKey key fn val pos status).2 = (map.uprase key fn val).2 := by
  unfold Table.upraseAt
  cases status with
  | failureKeyDuplicated =>
    obtain ⟨reached, entry, found, rfl⟩ := settles
    have member : entry ∈ table.entries config := valid.toPlaced.mem_entries.mpr (Or.inl ⟨_, _, found⟩)
    simp only [found, Map.uprase, holds.present member]
    exact ⟨valid.leave holds reached found _, by simp⟩
  | ok =>
    obtain ⟨reached, vacant, absent⟩ := settles
    have home := prepared.home.mpr reached.one
    obtain ⟨added, entries⟩ := valid.addToBucket reached.toWritable vacant home absent val
    have stands : (table.addToBucket config pos (config.hashedKey key).partialKey key val).Holds config
        (Function.update map key (some val)) := by
      rw [Table.Holds, entries]
      have fresh : ∀ other ∈ table.entries config,
          other.key ≠ (⟨(config.hashedKey key).partialKey, key, val⟩ : Entry Key T).key := absent
      exact holds.cons fresh
    have present : (table.addToBucket config pos (config.hashedKey key).partialKey key val).entryAt pos =
        some ⟨(config.hashedKey key).partialKey, key, val⟩ := by
      change (table.write pos _).entryAt pos = _
      rw [Table.entryAt, Table.write_other, if_pos ⟨rfl, rfl⟩]
    have reached' : Reached config (table.addToBucket config pos (config.hashedKey key).partialKey key val) i1 i2 pos := by
      refine ⟨⟨reached.inside, reached.slot, ?_⟩, reached.one⟩
      rw [Table.addToBucket, Table.count_migrated]
      exact reached.migrated
    simp only [present, Map.uprase, holds.absent.mpr absent]
    obtain ⟨valid', holds', within⟩ := added.leave stands reached' present (fn.invoke val .newlyInserted).1
    rw [Function.update_idem] at holds'
    exact ⟨⟨valid', holds', Within.trans (.addToBucket reached.held _ _ _) within⟩, by simp⟩

end UavRfDetector.Cuckoo

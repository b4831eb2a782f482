import UavRfDetector.Proofs.CuckooNext
import UavRfDetector.Proofs.CuckooTrace

/-! The arrays of the search. The queue of `slot_search` and the path it ends with have a
fixed size, and are never written past their ends. -/

namespace UavRfDetector.Cuckoo
open Transition

variable {Key T : Type} {config : Config Key} {hp : Nat}

/-- The number of `CuckooRecords` in use. -/
def Section.records : Section Key T → Nat
  | .pathSearch _ sources _ slots => sources.length + 1 + slots.length
  | .pathMove _ sources _ => sources.length + 1
  | _ => 0

/-- A thread whose path fits into its array. -/
def Pc.Short : Pc Key T → Prop
  | .choosing _ sec | .locking _ sec _ | .checking _ sec _ | .holding _ sec _ _ => sec.records ≤ maxBfsPathLen
  | _ => True

theorem searchNext_short (hp : Nat) (ins : Insertion Key T) (q : BQueue) : (Section.searchNext hp ins q).Short := by
  rw [Section.searchNext]
  split
  next => exact Nat.zero_le _
  next => trivial

theorem pathNext_short {ins : Insertion Key T} {sources : List CuckooRecord} {bucket : Nat} {slots : List Nat}
    (short : sources.length + slots.length ≤ maxBfsPathLen) : (Section.pathNext hp ins sources bucket slots).Short := by
  cases slots with
  | nil => trivial
  | cons slot slots =>
    change sources.length + 1 + slots.length ≤ maxBfsPathLen
    rw [List.length_cons] at short
    omega

variable [DecidableEq Key]

theorem Section.body_short {sec : Section Key T} (ok : sec.Ok config hp) (short : sec.records ≤ maxBfsPathLen)
    (table : Table Key T) : (sec.body config hp table).2.Short := by
  have again (ins : Insertion Key T) : (Section.runCuckoo config hp ins).Short := searchNext_short hp ins _
  match sec, ok with
  | .findFn _, _ | .updateFn _ _, _ | .eraseFn _ _, _ => trivial
  | .cuckooInsert ins, _ =>
    rw [Section.body]
    split
    next => trivial
    next => exact again ins
  | .slotSearch ins x q, ok =>
    rw [Section.body]
    split
    next x' searched =>
      obtain ⟨slot, _, _, rfl⟩ := searched_error searched
      apply pathNext_short
      have length : (config.decodePath { x with pathcode := config.extendPathcode x.pathcode slot } (config.i1 hp ins.key)
          (config.i2 hp ins.key)).2.length = x.depth + 1 :=
        decodeSlots_length (x.depth + 1) (config.extendPathcode x.pathcode slot).toNat
      rw [length, List.length_nil, Nat.zero_add]
      exact ok.2.1
    next => exact searchNext_short hp ins _
  | .pathSearch ins sources pos slots, _ =>
    change sources.length + 1 + slots.length ≤ maxBfsPathLen at short
    have ended : sources.length + 1 ≤ maxBfsPathLen := by omega
    cases present : table.entryAt pos with
    | none =>
      simp only [Section.body, present]
      exact ended
    | some entry =>
      cases slots with
      | nil =>
        simp only [Section.body, present]
        exact ended
      | cons slot slots =>
        simp only [Section.body, present]
        apply pathNext_short
        rw [List.length_cons]
        exact short
  | .pathMove ins [] target, _ =>
    rw [Section.body]
    split
    next => trivial
    next => exact again ins
  | .pathMove ins (source :: sources) target, _ =>
    change sources.length + 1 + 1 ≤ maxBfsPathLen at short
    cases moved : table.moveAlong config source target with
    | none =>
      simp only [Section.body, moved]
      exact again ins
    | some after =>
      cases sources with
      | nil =>
        simp only [Section.body, moved]
        trivial
      | cons next sources =>
        simp only [Section.body, moved]
        exact Nat.le_of_succ_le short

theorem Next.short {table after : Table Key T} {pc pc' : Pc Key T} (next : Next config table pc after pc')
    (ok : ∀ hp sec array taken, pc = .holding hp sec array taken → sec.Ok config hp) (short : pc.Short) : pc'.Short := by
  cases next with
  | @begins op sec start =>
    cases op with
    | clear => cases start
    | _ =>
      cases start
      exact Nat.zero_le _
  | reads | locks | checks | takes => exact short
  | runs => exact Section.body_short (ok _ _ _ _ rfl) short _
  | clears | retries | readsAll | takesAll | throws | outrun | prepares | cleared | doubled => trivial

/-- The section a thread is in or about to enter. -/
def Pc.sec : Pc Key T → Option (Section Key T)
  | .choosing _ sec | .locking _ sec _ | .checking _ sec _ | .holding _ sec _ _ => some sec
  | _ => none

omit [DecidableEq Key] in
theorem Pc.Short.records {pc : Pc Key T} (short : pc.Short) {sec : Section Key T} (here : pc.sec = some sec) :
    sec.records ≤ maxBfsPathLen := by
  cases pc with
  | choosing | locking | checking | holding =>
    cases here
    exact short
  | _ => cases here

private def moves (thread : Nat) (state : State Nat Char) : Bool :=
  match (state.threads thread).sec with
  | some (.pathMove _ [_] _) => true
  | _ => false

end UavRfDetector.Cuckoo

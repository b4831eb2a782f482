import UavRfDetector.Proofs.CuckooAlone

/-! A thread that goes on alone from anywhere in its call. What it knows of the table may
be long out of date; then it starts again, and is alone from the start. -/

namespace UavRfDetector.Cuckoo
open Transition

variable {Key T : Type} {config : Config Key} {table after : Table Key T} {ins : Insertion Key T}

theorem moveAlong_hashpower {source : CuckooRecord} {target : TablePosition}
    (moved : table.moveAlong config source target = some after) : after.hashpower = table.hashpower := by
  rw [Table.moveAlong] at moved
  split at moved
  next =>
    split at moved
    next =>
      cases moved
      rfl
    next => cases moved
  next => cases moved

variable [DecidableEq Key]

namespace Returns

section Stale
variable {hp : Nat} (retry : ∀ after : Table Key T, after.hashpower = hp → Returns config after (Section.runCuckoo config hp ins))

include retry

/-- A move that fails has the search start again. -/
theorem stalePathMove (power : table.hashpower = hp) (sources : List CuckooRecord) (target : TablePosition) :
    Ends config table hp (.pathMove ins sources target) := by
  induction sources generalizing table target with
  | nil =>
    intro after keeps _ _
    cases present : after.entryAt target with
    | none =>
      simp only [Section.body, present]
      exact done _ _
    | some entry =>
      simp only [Section.body, present]
      exact retry after (keeps.hashpower.trans power)
  | cons source sources ih =>
    intro after keeps _ _
    cases moved : after.moveAlong config source target with
    | none =>
      simp only [Section.body, moved]
      exact retry after (keeps.hashpower.trans power)
    | some last =>
      have power' := (moveAlong_hashpower moved).trans (keeps.hashpower.trans power)
      cases sources with
      | nil =>
        simp only [Section.body, moved]
        exact done _ _
      | cons next sources =>
        simp only [Section.body, moved]
        exact runs (ih power' _) power'

theorem stalePathSearch (power : table.hashpower = hp) (sources : List CuckooRecord) (pos : TablePosition)
    (slots : List Nat) : Ends config table hp (.pathSearch ins sources pos slots) := by
  induction slots generalizing table sources pos with
  | nil =>
    intro after keeps _ _
    have power' := keeps.hashpower.trans power
    have moves := runs (stalePathMove retry power' sources pos) power'
    cases present : after.entryAt pos with
    | none =>
      simp only [Section.body, present]
      exact moves
    | some entry =>
      simp only [Section.body, present]
      exact moves
  | cons slot slots ih =>
    intro after keeps _ _
    have power' := keeps.hashpower.trans power
    cases present : after.entryAt pos with
    | none =>
      simp only [Section.body, present]
      exact runs (stalePathMove retry power' sources pos) power'
    | some entry =>
      simp only [Section.body, present]
      exact runs (ih power' _ _) power'

variable (full : ∀ after : Table Key T, after.hashpower = hp → Returns config after (.choosingAll (.fastDouble ins hp)))

include full

theorem staleSearch (power : table.hashpower = hp) {x : BSlot} {q : BQueue}
    (grown : q.Grown config hp x.depth config.slotPerBucket) : Ends config table hp (.slotSearch ins x q) := by
  induction rounds : config.maxCuckooCount - q.first using Nat.strong_induction_on generalizing table x q with
  | _ left ih =>
    intro after keeps _ _
    have power' := keeps.hashpower.trans power
    rw [Section.body]
    split
    next x' _ =>
      unfold Config.decodePath
      dsimp only
      cases decoded : (config.decodeSlots (x'.depth + 1) x'.pathcode.toNat).1 with
      | nil =>
        have length := @decodeSlots_length Key config (x'.depth + 1) x'.pathcode.toNat
        rw [decoded] at length
        cases length
      | cons slot slots => exact runs (stalePathSearch retry power' _ _ _) power'
    next q' searched =>
      have whole : q.Grown config hp x.depth ((List.range config.slotPerBucket).length + 0) := by
        rw [List.length_range]
        exact grown
      have grown' := whole.searched searched
      rw [Section.searchNext]
      split
      next y q'' taken =>
        have room := grown'.length_le (Or.inl rfl)
        obtain ⟨found, same⟩ := Explored.dequeue_eq taken
        have early := (List.getElem?_eq_some_iff.mp found).1
        have first : q'.first = q.first := (searched_ok searched).2.1
        have fewer : config.maxCuckooCount - q''.first < left := by
          rw [same]
          dsimp only
          omega
        exact runs (ih _ fewer power' (grown'.dequeue taken).2.2 rfl) power'
      next => exact full after power'

end Stale

section Bounded
variable {most : Nat} (few : config.slotPerBucket ≤ 8) (bounded : config.maximumHashpower = some most)

include few bounded

theorem full {hp : Nat} (table : Table Key T) (ins : Insertion Key T) :
    Returns config table (.choosingAll (.fastDouble ins hp)) :=
  doubles bounded (fun _ after _ => calls few bounded after ins.op) fun _ => calls few bounded table ins.op

theorem fresh {hp : Nat} (power : table.hashpower = hp) (ins : Insertion Key T) :
    Returns config table (Section.runCuckoo config hp ins) := by
  have grown : BQueue.Grown config hp 0 0 _ := .start hp ins.key
  apply searchNext few power (.start table hp ins.key) grown
  intro after _
  exact full few bounded after ins

theorem sections {hp : Nat} {sec : Section Key T} (ok : sec.Ok config hp) (power : table.hashpower = hp) :
    Ends config table hp sec := by
  have retry {ins : Insertion Key T} (after : Table Key T) (power : after.hashpower = hp) :
      Returns config after (Section.runCuckoo config hp ins) := fresh few bounded power ins
  cases sec with
  | findFn | updateFn | eraseFn =>
    intro after _ _ _
    exact done _ _
  | cuckooInsert ins =>
    intro after keeps _ _
    rw [Section.body]
    split
    next => exact done _ _
    next => exact retry after (keeps.hashpower.trans power)
  | slotSearch ins x q => exact staleSearch retry (fun after _ => full few bounded after ins) power ok.2.2
  | pathSearch ins sources pos slots => exact stalePathSearch retry power sources pos slots
  | pathMove ins sources target => exact stalePathMove retry power sources target

theorem resumes {state : State Key T} {thread : Nat} (sound : Sound config state) {op : Op Key T}
    (busy : (state.threads thread).call = .pending op) : Returns config state.table (state.threads thread) := by
  have ok := sound.ok thread
  generalize state.threads thread = pc at ok busy
  have again {hp : Nat} {sec : Section Key T} (_ : state.table.hashpower ≠ hp) :
      Returns config state.table (.called sec.op) := calls few bounded state.table sec.op
  have rest {hp : Nat} {sec : Section Key T} (ok : sec.Ok config hp) (power : state.table.hashpower = hp) :
      Returns config (sec.run config hp state.table).1 (sec.run config hp state.table).2 :=
    ran (sections few bounded ok power) sound.valid
  cases pc with
  | idle | returned => cases busy
  | called op' => exact calls few bounded state.table op'
  | choosing hp sec => exact choosing (rest ok.2) again
  | locking hp sec array => exact locking (rest ok.sec) again array
  | checking hp sec array => exact checking (rest ok.sec) again array
  | holding hp sec array taken => exact holding (rest ok.1.sec ok.2.1.symm)
  | choosingAll purpose =>
    cases purpose with
    | fastDouble ins hp => exact full few bounded state.table ins
    | clear => exact clearsAll state.table
  | lockingAll purpose firstLocked array next =>
    obtain ⟨first, current, small⟩ := ok
    cases purpose with
    | fastDouble ins hp =>
      apply fastDouble bounded _ _ first current small
      · intro _ after _
        exact calls few bounded after ins.op
      · intro _
        exact calls few bounded state.table ins.op
    | clear => exact clears current small
  | doubling ins firstLocked newHp =>
    apply doubling ok
    intro after _
    exact calls few bounded after ins.op

end Bounded

end Returns

/-- A thread whose call is under way brings it to an end in steps of its own as soon as
no other thread holds a lock, however far the others are in their calls. -/
theorem obstruction_free {n most thread : Nat} (few : config.slotPerBucket ≤ 8)
    (bounded : config.maximumHashpower = some most) {events : List (Event Key T)} {last : State Key T}
    (run : Run (State.step config) Event.Truthful (State.new config n) events last)
    (alone : Alone config last thread) {op : Op Key T} (busy : (last.threads thread).call = .pending op) :
    ∃ count final outcome,
      Run (State.step config) Event.Truthful (State.new config n) (events ++ List.replicate count (.step thread)) final ∧
        final.threads thread = .returned outcome := by
  have sound := sound_run run
  have returns := Returns.resumes few bounded sound busy last thread sound alone rfl rfl
  obtain ⟨count, final, rest, outcome, here⟩ : ∃ count final,
      Run (State.step config) Event.Truthful last (List.replicate count (.step thread)) final ∧
        ∃ outcome, final.threads thread = .returned outcome :=
    returns.run (Event.step thread) (fun _ => rfl) fun _ => trivial
  exact ⟨count, final, outcome, run.trans rest, here⟩

theorem insertion_finishes : ∃ events last outcome,
    Run (State.step (oneSlot 2 0 0)) Event.Truthful (State.new (oneSlot 2 0 0) 1 : State Nat Char) events last ∧
      last.threads 1 = .returned outcome := by
  have run := (@Run.nil _ _ (State.step (oneSlot 2 0 0)) Event.Truthful (State.new (oneSlot 2 0 0) 1 : State Nat Char)).steps
    [.call 0 (.insert 1 'a'), .call 1 (.insert 2 'b'), .step 0, .step 0] (by simp [Event.Truthful]) rfl
  obtain ⟨count, final, outcome, run, here⟩ := @obstruction_free Nat Char (oneSlot 2 0 0) _ 1 0 1 (by decide) rfl _ _ run
    (by
      intro other different table a l
      rcases other with _ | _ | other
      · exact id
      · exact absurd rfl different
      · exact id) (.insert 2 'b') rfl
  exact ⟨_, final, outcome, run, here⟩

end UavRfDetector.Cuckoo

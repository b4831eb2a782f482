import UavRfDetector.Proofs.CuckooNext
import UavRfDetector.Refinement

/-! Any number of threads on a map, in any interleaving of their steps: their calls take
effect one after the other, each at one moment between its beginning and its end, and
one that throws takes none. -/

namespace UavRfDetector.Cuckoo
open Contents Transition

variable {Key T : Type} {config : Config Key} {state after : State Key T} {thread : Nat} {atomic : AtomicMap Key T}

def Event.visible : Event Key T → Option (Visible Key T)
  | .call thread op => some (.call thread op)
  | .step _ => none
  | .ret thread outcome => some (.ret thread outcome)

/-- A thread and what is known of its call. -/
structure Shows (pc : Pc Key T) (call : Call Key T) (crowded : Option Nat) : Prop where
  call : call = pc.call
  crowded : ∀ hp, pc.CrowdedAt hp → crowded = some hp

variable (config) in
/-- The map that a state of the table stands for, and the calls of its threads. -/
structure Reflects (state : State Key T) (atomic : AtomicMap Key T) : Prop where
  sound : Sound config state
  holds : state.table.Holds config atomic.map
  hashpower : atomic.hashpower = state.table.hashpower
  shows : ∀ thread, Shows (state.threads thread) (atomic.calls thread) (atomic.crowded thread)
  granted : ∀ thread array, (state.threads thread).Doubles array →
    ∀ error, ¬ TableError.Justified config state.table.size state.table.hashpower state.table.hashpower error

theorem Shows.still {pc pc' : Pc Key T} {call : Call Key T} {crowded : Option Nat} (shows : Shows pc call crowded)
    (same : pc'.call = pc.call) (known : ∀ hp, pc'.CrowdedAt hp → pc.CrowdedAt hp) : Shows pc' call crowded :=
  ⟨shows.call.trans same.symm, fun hp here => shows.crowded hp (known hp here)⟩

theorem Op.first_op {op : Op Key T} {sec : Section Key T} (start : op.first = some sec) :
    sec.op = op ∧ ¬ sec.Searches := by
  cases op with
  | clear => cases start
  | _ =>
    cases start
    exact ⟨rfl, id⟩

theorem Valid.size_eq {table : Table Key T} (valid : Valid config table) : table.size = (table.entries config).card := by
  rw [Table.size, valid.counted, Int.toNat_natCast]

theorem Reflects.turn (reflects : Reflects config state atomic) {atomic' : AtomicMap Key T} (sound : Sound config after)
    (others : ∀ other, other ≠ thread → after.threads other = state.threads other)
    (theirs : ∀ other, other ≠ thread →
      atomic'.calls other = atomic.calls other ∧ atomic'.crowded other = atomic.crowded other)
    (holds : after.table.Holds config atomic'.map) (hashpower : atomic'.hashpower = after.table.hashpower)
    (mine : Shows (after.threads thread) (atomic'.calls thread) (atomic'.crowded thread))
    (granted : ∀ thread array, (after.threads thread).Doubles array →
      ∀ error, ¬ TableError.Justified config after.table.size after.table.hashpower after.table.hashpower error) :
    Reflects config after atomic' := by
  refine ⟨sound, holds, hashpower, ?_, granted⟩
  intro other
  by_cases same : other = thread
  · subst same
    exact mine
  · rw [others other same, (theirs other same).1, (theirs other same).2]
    exact reflects.shows other

variable [DecidableEq Key]

/-- An action of one thread leaves the calls of the others alone. -/
theorem AtomicMap.step_others {action : AtomicMap.Action Key T} {atomic' : AtomicMap Key T}
    (did : AtomicMap.step atomic action = some atomic') {other : Nat} (different : other ≠ action.thread) :
    atomic'.calls other = atomic.calls other ∧ atomic'.crowded other = atomic.crowded other := by
  cases action with
  | call thread op =>
    rw [AtomicMap.step] at did
    split at did
    next =>
      cases did
      exact ⟨Function.update_of_ne different _ _, Function.update_of_ne different _ _⟩
    next => cases did
  | commit thread | ret thread outcome =>
    rw [AtomicMap.step] at did
    split at did
    next =>
      cases did
      exact ⟨Function.update_of_ne different _ _, rfl⟩
    next => cases did
  | crowd thread =>
    cases did
    exact ⟨rfl, Function.update_of_ne different _ _⟩
  | grow thread =>
    cases did
    exact ⟨rfl, rfl⟩
  | reject thread error =>
    cases did
    exact ⟨Function.update_of_ne different _ _, rfl⟩

theorem Reflects.goes (reflects : Reflects config state atomic) {action : AtomicMap.Action Key T}
    {atomic' : AtomicMap Key T} {pc : Pc Key T} (did : AtomicMap.step atomic action = some atomic')
    (concerns : action.thread = thread) (sound : Sound config (state.goto thread pc)) (single : ∀ array, ¬ pc.Doubles array)
    (map : atomic'.map = atomic.map) (hashpower : atomic'.hashpower = atomic.hashpower)
    (mine : Shows pc (atomic'.calls thread) (atomic'.crowded thread)) : Reflects config (state.goto thread pc) atomic' := by
  have others : ∀ other, other ≠ thread → (state.goto thread pc).threads other = state.threads other := by
    intro other different
    exact goto_other state pc different
  apply reflects.turn sound others fun _ different => AtomicMap.step_others did (concerns ▸ different)
  · rw [map]
    exact reflects.holds
  · exact hashpower.trans reflects.hashpower
  · rw [goto_self]
    exact mine
  · intro other array doubles
    by_cases same : other = thread
    · subst same
      rw [goto_self] at doubles
      exact absurd doubles (single array)
    · rw [others other same] at doubles
      exact reflects.granted other array doubles

theorem Table.Holds.size {table : Table Key T} {map : Map Key T} (holds : table.Holds config map)
    (valid : Valid config table) : map.size = table.size := by
  obtain ⟨keys, those, count⟩ := Represents.card holds valid.distinct
  have same : {key | (map key).isSome} = (keys : Set Key) := by
    ext key
    exact (those key).symm
  rw [Map.size, same, Set.ncard_coe_finset, count, valid.size_eq]

theorem Reflects.grants (reflects : Reflects config state atomic) (stepped : state.advance config thread = some after)
    {other array : Nat} (doubles : (after.threads other).Doubles array) (error : TableError) :
    ¬ error.Justified config after.table.size after.table.hashpower after.table.hashpower := by
  have valid := reflects.sound.valid
  have next := State.advance_next stepped
  by_cases same : other = thread
  · subst same
    obtain ⟨hp, prepared, checked⟩ := next.doubles reflects.sound rfl doubles
    have resized := valid.prepareDouble (hp + 1)
    have granted := resize_granted checked error
    rw [(resize_ok checked).1] at granted
    rw [prepared, resized.valid.size_eq, resized.entries, ← valid.size_eq, resized.hashpower, (resize_ok checked).1]
    exact granted
  · rw [(reflects.sound.advance stepped).others other same] at doubles
    rw [next.untouched reflects.sound rfl same doubles]
    exact reflects.granted other array doubles error

variable (config atomic after) in
/-- The atomic map can do something that is not seen and then be what a state stands for. -/
def Answered : Prop :=
  ∃ actions atomic', Run AtomicMap.step (AtomicMap.Action.Allowed config) atomic actions atomic' ∧
    history AtomicMap.Action.visible actions = [] ∧ Reflects config after atomic'

section Advancing
variable (reflects : Reflects config state atomic) (stepped : state.advance config thread = some after)
include reflects stepped

theorem Reflects.silent (holds : after.table.Holds config atomic.map)
    (hashpower : after.table.hashpower = state.table.hashpower)
    (mine : Shows (after.threads thread) (atomic.calls thread) (atomic.crowded thread)) : Answered config after atomic := by
  obtain ⟨sound, others⟩ := reflects.sound.advance stepped
  refine ⟨[], atomic, .nil, rfl, ?_⟩
  apply reflects.turn sound others (fun _ _ => ⟨rfl, rfl⟩) holds (reflects.hashpower.trans hashpower.symm) mine
  exact fun _ _ doubles => reflects.grants stepped doubles

theorem Reflects.quiet {pc pc' : Pc Key T} (here : state.threads thread = pc) (later : after.threads thread = pc')
    (same : after.table = state.table) (call : pc'.call = pc.call) (known : ∀ hp, pc'.CrowdedAt hp → pc.CrowdedAt hp) :
    Answered config after atomic := by
  have shows := reflects.shows thread
  rw [here] at shows
  apply reflects.silent stepped
  · rw [same]
    exact reflects.holds
  · rw [same]
  · rw [later]
    exact shows.still call known

theorem Reflects.acts {action : AtomicMap.Action Key T} {atomic' : AtomicMap Key T} (concerns : action.thread = thread)
    (did : AtomicMap.step atomic action = some atomic') (permitted : AtomicMap.Action.Allowed config atomic action)
    (unseen : action.visible = none) (holds : after.table.Holds config atomic'.map)
    (hashpower : atomic'.hashpower = after.table.hashpower)
    (mine : Shows (after.threads thread) (atomic'.calls thread) (atomic'.crowded thread)) :
    Answered config after atomic := by
  obtain ⟨sound, others⟩ := reflects.sound.advance stepped
  refine ⟨[action], atomic', .single permitted did, ?_, ?_⟩
  · simp [history, unseen]
  · have theirs := fun other (different : other ≠ thread) => AtomicMap.step_others did (concerns ▸ different)
    apply reflects.turn sound others theirs holds hashpower mine
    exact fun _ _ doubles => reflects.grants stepped doubles

theorem Reflects.commits {op : Op Key T} (pending : (state.threads thread).call = .pending op)
    (holds : after.table.Holds config (atomic.map.apply op).1) (hashpower : after.table.hashpower = state.table.hashpower)
    (later : after.threads thread = .returned (atomic.map.apply op).2) : Answered config after atomic := by
  have place : atomic.calls thread = .pending op := (reflects.shows thread).call.trans pending
  have did : AtomicMap.step atomic (.commit thread) = some { atomic with
      map := (atomic.map.apply op).1
      calls := Function.update atomic.calls thread (.answered (atomic.map.apply op).2) } := by
    simp only [AtomicMap.step, place]
  apply reflects.acts stepped rfl did trivial rfl holds (reflects.hashpower.trans hashpower.symm)
  rw [later]
  exact ⟨Function.update_self _ _ _, fun _ crowded => absurd crowded id⟩

theorem Reflects.runs {hp array taken : Nat} {sec : Section Key T}
    (here : state.threads thread = .holding hp sec array taken) (table : after.table = (sec.run config hp state.table).1)
    (later : after.threads thread = (sec.run config hp state.table).2) :
    Answered config after atomic := by
  have ok := reflects.sound.ok thread
  have shows := reflects.shows thread
  rw [here] at ok shows
  obtain ⟨aimed, power, _⟩ := ok
  have valid := reflects.sound.valid
  have step := Section.run_spec aimed.sec power.symm valid reflects.holds
  have goes {hp' : Nat} (crowded : (after.threads thread).CrowdedAt hp') :
      hp' = hp ∧ (sec.Searches ∨ ∃ ins, sec = .cuckooInsert ins ∧ atomic.map.Crowded config hp ins.key) := by
    rw [later] at crowded
    exact Section.run_crowded aimed.sec power.symm valid reflects.holds crowded
  generalize sec.run config hp state.table = result at step table later
  cases step with
  | ends performs answer =>
    apply reflects.commits stepped
    · rw [here]
      rfl
    · rw [table]
      exact performs.holds
    · rw [table]
      exact performs.within.hashpower
    · rw [later, answer]
  | goesOn performs pending _ =>
    have holds : after.table.Holds config atomic.map := by
      rw [table]
      exact performs.holds
    have same : after.table.hashpower = state.table.hashpower := by
      rw [table]
      exact performs.within.hashpower
    have call : atomic.calls thread = (after.threads thread).call := by
      rw [later]
      exact shows.call.trans pending.symm
    by_cases found : ∃ ins, sec = .cuckooInsert ins ∧ atomic.map.Crowded config hp ins.key
    · obtain ⟨ins, rfl, crowded⟩ := found
      rw [power, ← reflects.hashpower] at crowded
      apply reflects.acts stepped (rfl : (AtomicMap.Action.crowd thread).thread = thread) rfl
        ⟨ins.key, ⟨ins.fn, ins.val, shows.call⟩, crowded⟩ rfl holds (reflects.hashpower.trans same.symm)
      refine ⟨call, ?_⟩
      intro hp' crowded'
      dsimp only
      rw [Function.update_self, reflects.hashpower, ← power, (goes crowded').1]
    · apply reflects.silent stepped holds same
      refine ⟨call, ?_⟩
      intro hp' crowded
      obtain ⟨rfl, searches | now⟩ := goes crowded
      · exact shows.crowded _ ⟨searches, rfl⟩
      · exact absurd now found

/-- A step of the table is at most one of the atomic map, and none that can be seen. -/
theorem Reflects.advance : Answered config after atomic := by
  have ok := reflects.sound.ok thread
  have shows := reflects.shows thread
  have size := reflects.holds.size reflects.sound.valid
  have next := State.advance_next stepped
  generalize tables : after.table = table at next
  generalize later : after.threads thread = pc' at next
  generalize here : state.threads thread = pc at ok shows next
  cases next with
  | begins start =>
    obtain ⟨call, first⟩ := Op.first_op start
    exact reflects.quiet stepped here later tables (congrArg Call.pending call) fun _ crowded => absurd crowded.1 first
  | clears | reads | locks | checks | takes => exact reflects.quiet stepped here later tables rfl fun _ => id
  | retries | outrun => exact reflects.quiet stepped here later tables rfl fun _ crowded => absurd crowded id
  | @readsAll purpose | @takesAll purpose =>
    cases purpose with
    | clear => exact reflects.quiet stepped here later tables rfl fun _ => id
    | fastDouble ins hp => exact reflects.quiet stepped here later tables rfl fun _ => id
  | runs => exact reflects.runs stepped here tables later
  | @throws ins hp firstLocked array next error done last checked =>
    have justified := resize_justified checked
    rw [← size, ← reflects.hashpower] at justified
    apply reflects.acts stepped (rfl : (AtomicMap.Action.reject thread error).thread = thread) rfl
      ⟨⟨ins.key, ins.fn, ins.val, shows.call⟩, hp, shows.crowded hp rfl, justified⟩ rfl
    · rw [tables]
      exact reflects.holds
    · rw [tables]
      exact reflects.hashpower
    · rw [later]
      exact ⟨Function.update_self _ _ _, fun _ crowded => absurd crowded id⟩
  | @prepares ins hp firstLocked array next done last checked =>
    have resized := reflects.sound.valid.prepareDouble (hp + 1)
    apply reflects.silent stepped
    · rw [tables, Table.Holds, resized.entries]
      exact reflects.holds
    · rw [tables, resized.hashpower]
    · rw [later]
      exact shows.still rfl fun _ more => Nat.succ.inj more
  | cleared done last =>
    obtain ⟨_, entries, power, _, _⟩ := reflects.sound.valid.cuckooClear
    apply reflects.commits stepped
    · rw [here]
      rfl
    · rw [tables, Table.Holds, entries]
      intro k v
      simp [Map.apply, Purpose.op]
    · rw [tables, power]
    · rw [later]
      rfl
  | @doubled ins firstLocked newHp =>
    have ready : Ready config state.table firstLocked newHp := ok
    obtain ⟨rfl, _, none, enough⟩ := ready
    rw [← hashsize_eq] at enough
    have doubled := reflects.sound.valid.finishDouble none enough
    have room := reflects.granted thread firstLocked
    rw [here, ← size, ← reflects.hashpower] at room
    have crowded := shows.crowded _ rfl
    rw [← reflects.hashpower] at crowded
    apply reflects.acts stepped (rfl : (AtomicMap.Action.grow thread).thread = thread) rfl
      ⟨⟨ins.key, ins.fn, ins.val, shows.call⟩, crowded, room (Nat.le_refl _)⟩ rfl
    · rw [tables, Table.Holds, doubled.entries]
      exact reflects.holds
    · rw [tables, doubled.hashpower, reflects.hashpower]
    · rw [later]
      exact shows.still rfl fun _ more => absurd more id

end Advancing

end UavRfDetector.Cuckoo

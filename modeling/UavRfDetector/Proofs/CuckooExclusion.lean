import UavRfDetector.Proofs.CuckooFootprint

/-! Threads that work on the table at the same time. They have no lock in common, and
none of them can tell the others are there. -/

namespace UavRfDetector.Cuckoo
open Transition

variable {Key T : Type} {config : Config Key} {state : State Key T} {one other : Nat}

variable {hp hp' array array' taken taken' : Nat} {sec sec' : Section Key T}

theorem Sound.apart (sound : Sound config state) (different : one ≠ other)
    (here : state.threads one = .holding hp sec array taken) (there : state.threads other = .holding hp' sec' array' taken') :
    hp = hp' ∧ array = array' ∧
      ∀ l ∈ (sec.lockInds config hp).take taken, l ∉ (sec'.lockInds config hp').take taken' := by
  have ok := sound.ok one
  have ok' := sound.ok other
  rw [here] at ok
  rw [there] at ok'
  obtain ⟨_, power, current, _⟩ := ok
  obtain ⟨_, power', current', _⟩ := ok'
  have same : array = array' := current.trans current'.symm
  refine ⟨power.trans power'.symm, same, ?_⟩
  intro l member member'
  have mine : (state.threads one).Holds config state.table array l := by
    rw [here]
    exact ⟨rfl, member⟩
  have yours : (state.threads other).Holds config state.table array l := by
    rw [there]
    exact ⟨same, member'⟩
  exact different (sound.exclusive mine yours)

variable [DecidableEq Key]

variable (config) in
/-- What is left of a state when a thread has run its section. -/
def State.ran (state : State Key T) (thread hp array : Nat) (sec : Section Key T) : State Key T :=
  ({ state with table := (sec.run config hp state.table).1 }.release array (sec.lockInds config hp)).goto thread
    (sec.run config hp state.table).2

attribute [ext] State

end UavRfDetector.Cuckoo

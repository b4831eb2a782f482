import Mathlib.Algebra.BigOperators.Ring.Finset
import Mathlib.Algebra.Order.BigOperators.Group.Finset
import Mathlib.Tactic.Ring

/-! How large a tree that is searched breadth first can become, from the depths of its
nodes alone. -/

namespace UavRfDetector.Layers

variable {depths : List Nat} {roots branching depth : Nat}

/-- A layer is at most as large as a full tree's. -/
theorem count_le (first : depths.count 0 ≤ roots)
    (children : ∀ d, depths.count (d + 1) ≤ branching * depths.count d) (d : Nat) :
    depths.count d ≤ roots * branching ^ d := by
  induction d with
  | zero => simpa using first
  | succ d ih =>
    calc
      depths.count (d + 1) ≤ branching * depths.count d := children d
      _ ≤ branching * (roots * branching ^ d) := Nat.mul_le_mul_left _ ih
      _ = roots * branching ^ (d + 1) := by ring

theorem length_le (first : depths.count 0 ≤ roots)
    (children : ∀ d, depths.count (d + 1) ≤ branching * depths.count d) (shallow : ∀ d ∈ depths, d < depth) :
    depths.length ≤ roots * ∑ d ∈ Finset.range depth, branching ^ d := by
  have layers : ∑ d ∈ Finset.range depth, (depths : Multiset Nat).count d = (depths : Multiset Nat).card := by
    apply Multiset.sum_count_eq_card
    intro d member
    exact Finset.mem_range.mpr (shallow d member)
  rw [Multiset.coe_card] at layers
  rw [← layers, Finset.mul_sum]
  apply Finset.sum_le_sum
  intro d _
  rw [Multiset.coe_count]
  exact count_le first children d

end UavRfDetector.Layers

import Mathlib.Data.Nat.Bitwise
import Mathlib.Tactic.Ring

/-! The hashing of libcuckoo: the two buckets of a key, and what they become when
the number of buckets doubles. A `size_type` that indexes buckets is a `Nat`, since
it is always masked by the number of buckets. -/

namespace UavRfDetector.Cuckoo

structure HashValue where
  hash : UInt64
  partialKey : UInt8
deriving DecidableEq, Repr

def hashsize (hp : Nat) : Nat := 1 <<< hp

def hashmask (hp : Nat) : Nat := hashsize hp - 1

def partialKey (hash : UInt64) : UInt8 :=
  let hash32 : UInt32 := hash.toUInt32 ^^^ (hash >>> 32).toUInt32
  let hash16 : UInt16 := hash32.toUInt16 ^^^ (hash32 >>> 16).toUInt16
  hash16.toUInt8 ^^^ (hash16 >>> 8).toUInt8

def indexHash (hp : Nat) (hv : UInt64) : Nat := hv.toNat &&& hashmask hp

/-- The product is one of `size_type`s and wraps around. -/
def altIndex (hp : Nat) (partialKey : UInt8) (index : Nat) : Nat :=
  let nonzeroTag := partialKey.toNat + 1
  (index ^^^ (nonzeroTag * 0xc6a4a7935bd1e995 % 2 ^ 64)) &&& hashmask hp

@[simp] theorem hashsize_eq (hp : Nat) : hashsize hp = 2 ^ hp := by
  rw [hashsize, Nat.one_shiftLeft]

theorem indexHash_eq (hp : Nat) (hv : UInt64) : indexHash hp hv = hv.toNat % 2 ^ hp := by
  rw [indexHash, hashmask, hashsize_eq, Nat.and_two_pow_sub_one_eq_mod]

theorem altIndex_eq (hp : Nat) (partialKey : UInt8) (index : Nat) :
    altIndex hp partialKey index =
      (index ^^^ ((partialKey.toNat + 1) * 0xc6a4a7935bd1e995 % 2 ^ 64)) % 2 ^ hp := by
  rw [altIndex, hashmask, hashsize_eq, Nat.and_two_pow_sub_one_eq_mod]

theorem indexHash_lt (hp : Nat) (hv : UInt64) : indexHash hp hv < 2 ^ hp := by
  rw [indexHash_eq]
  exact Nat.mod_lt _ (Nat.two_pow_pos hp)

theorem altIndex_lt (hp : Nat) (partialKey : UInt8) (index : Nat) : altIndex hp partialKey index < 2 ^ hp := by
  rw [altIndex_eq]
  exact Nat.mod_lt _ (Nat.two_pow_pos hp)

/-- `alt_index` leads back: the two buckets of a key are each other's alternative. -/
theorem altIndex_altIndex {hp index : Nat} (partialKey : UInt8) (inside : index < 2 ^ hp) :
    altIndex hp partialKey (altIndex hp partialKey index) = index := by
  simp only [altIndex_eq, Nat.xor_mod_two_pow, Nat.mod_mod, Nat.xor_assoc, Nat.xor_self, Nat.xor_zero]
  exact Nat.mod_eq_of_lt inside

private theorem mod_two_pow_succ (n hp : Nat) : n % 2 ^ (hp + 1) % 2 ^ hp = n % 2 ^ hp := by
  apply Nat.mod_mod_of_dvd
  exact Nat.pow_dvd_pow 2 (Nat.le_succ hp)

theorem indexHash_double (hp : Nat) (hv : UInt64) : indexHash (hp + 1) hv % 2 ^ hp = indexHash hp hv := by
  rw [indexHash_eq, indexHash_eq, mod_two_pow_succ]

theorem altIndex_double (hp : Nat) (partialKey : UInt8) (index : Nat) :
    altIndex (hp + 1) partialKey index % 2 ^ hp = altIndex hp partialKey (index % 2 ^ hp) := by
  rw [altIndex_eq, altIndex_eq, mod_two_pow_succ, Nat.xor_mod_two_pow, Nat.xor_mod_two_pow, Nat.mod_mod]

/-- The buckets a key may be in. -/
def Home (hp : Nat) (hv : HashValue) (index : Nat) : Prop :=
  index = indexHash hp hv.hash ∨ index = altIndex hp hv.partialKey (indexHash hp hv.hash)

theorem Home.lt {hp index : Nat} {hv : HashValue} (home : Home hp hv index) : index < 2 ^ hp := by
  rcases home with rfl | rfl
  · exact indexHash_lt hp hv.hash
  · exact altIndex_lt hp hv.partialKey _

theorem Home.alt {hp index : Nat} {hv : HashValue} (home : Home hp hv index) :
    Home hp hv (altIndex hp hv.partialKey index) := by
  rcases home with rfl | rfl
  · exact Or.inr rfl
  · exact Or.inl (altIndex_altIndex hv.partialKey (indexHash_lt hp hv.hash))

/-- Doubling adds one bit at the top. -/
theorem double_cases {hp index half : Nat} (inside : index < 2 ^ (hp + 1)) (same : index % 2 ^ hp = half) :
    index = half ∨ index = half + hashsize hp := by
  rw [hashsize_eq]
  have size : 2 ^ (hp + 1) = 2 ^ hp + 2 ^ hp := by ring
  rcases Nat.lt_or_ge index (2 ^ hp) with low | high
  · left
    rw [← same, Nat.mod_eq_of_lt low]
  · right
    have rest : (index - 2 ^ hp) % 2 ^ hp = index % 2 ^ hp := (Nat.mod_eq_sub_mod high).symm
    rw [Nat.mod_eq_of_lt (by omega)] at rest
    omega

/-- Where `move_bucket` puts a key of the old bucket `index`. -/
def MovesUp (oldHp newHp : Nat) (hv : HashValue) (index : Nat) : Prop :=
  index = indexHash oldHp hv.hash ∧ indexHash newHp hv.hash = index + hashsize oldHp ∨
    index = altIndex oldHp hv.partialKey (indexHash oldHp hv.hash) ∧
      altIndex newHp hv.partialKey (indexHash newHp hv.hash) = index + hashsize oldHp

instance (oldHp newHp : Nat) (hv : HashValue) (index : Nat) : Decidable (MovesUp oldHp newHp hv index) :=
  inferInstanceAs (Decidable (_ ∨ _))

theorem MovesUp.home {hp index : Nat} {hv : HashValue} (moves : MovesUp hp (hp + 1) hv index) :
    Home (hp + 1) hv (index + hashsize hp) := by
  rcases moves with ⟨_, found⟩ | ⟨_, found⟩
  · exact Or.inl found.symm
  · exact Or.inr found.symm

/-- The assertion of `move_bucket`: a key that does not move up keeps its bucket. -/
theorem Home.stays {hp index : Nat} {hv : HashValue} (home : Home hp hv index)
    (stays : ¬ MovesUp hp (hp + 1) hv index) : Home (hp + 1) hv index := by
  rcases home with same | same
  · rcases double_cases (indexHash_lt (hp + 1) hv.hash) ((indexHash_double hp hv.hash).trans same.symm) with here | up
    · exact Or.inl here.symm
    · exact absurd (Or.inl ⟨same, up⟩) stays
  · have halved : altIndex (hp + 1) hv.partialKey (indexHash (hp + 1) hv.hash) % 2 ^ hp = index := by
      rw [altIndex_double, indexHash_double, same]
    rcases double_cases (altIndex_lt _ _ _) halved with here | up
    · exact Or.inr here.symm
    · exact absurd (Or.inr ⟨same, up⟩) stays

end UavRfDetector.Cuckoo

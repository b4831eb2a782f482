import UavRfDetector.Proofs.CuckooPath

/-! Path codes. A path is a number of slots and the bucket it starts on, all in 16 bits;
`slot_search` puts them together and `cuckoopath_search` takes them apart again. -/

namespace UavRfDetector.Cuckoo

variable {Key : Type} (config : Config Key)

/-- The number a path stands for, its last slot first. -/
def pathcodeOf (root : Nat) : List Nat → Nat
  | [] => root
  | slot :: slots => pathcodeOf root slots * config.slotPerBucket + slot

def Config.encodePath (root : Nat) (slots : List Nat) : UInt16 := slots.foldl config.extendPathcode (UInt16.ofNat root)

variable {config} {root : Nat} {slots : List Nat}

theorem pathcodeOf_lt (small : root < 2) (inside : ∀ slot ∈ slots, slot < config.slotPerBucket) :
    pathcodeOf config root slots < 2 * config.slotPerBucket ^ slots.length := by
  induction slots with
  | nil => simpa [pathcodeOf] using small
  | cons slot slots ih =>
    obtain ⟨first, others⟩ := List.forall_mem_cons.mp inside
    have rest : pathcodeOf config root slots + 1 ≤ 2 * config.slotPerBucket ^ slots.length := ih others
    have product := Nat.mul_le_mul_right config.slotPerBucket rest
    rw [Nat.add_mul, Nat.one_mul, Nat.mul_assoc, ← pow_succ] at product
    rw [pathcodeOf, List.length_cons]
    omega

theorem decodeSlots_pathcodeOf (inside : ∀ slot ∈ slots, slot < config.slotPerBucket) :
    config.decodeSlots slots.length (pathcodeOf config root slots) = (slots.reverse, root) := by
  induction slots with
  | nil => rfl
  | cons slot slots ih =>
    obtain ⟨first, others⟩ := List.forall_mem_cons.mp inside
    have quotient : (pathcodeOf config root slots * config.slotPerBucket + slot) / config.slotPerBucket =
        pathcodeOf config root slots := by
      rw [Nat.mul_comm, Nat.mul_add_div config.slotPerBucket_pos, Nat.div_eq_of_lt first, Nat.add_zero]
    have remainder : (pathcodeOf config root slots * config.slotPerBucket + slot) % config.slotPerBucket = slot := by
      rw [Nat.mul_comm, Nat.mul_add_mod, Nat.mod_eq_of_lt first]
    rw [List.length_cons, Config.decodeSlots, pathcodeOf, quotient, ih others, remainder, List.reverse_cons]

theorem pathcodeOf_decodeSlots (count pathcode : Nat) :
    pathcodeOf config (config.decodeSlots count pathcode).2 (config.decodeSlots count pathcode).1.reverse = pathcode := by
  induction count generalizing pathcode with
  | zero => rfl
  | succ count ih =>
    rw [Config.decodeSlots]
    dsimp only
    rw [List.reverse_append, List.reverse_singleton, List.singleton_append, pathcodeOf, ih]
    exact Nat.div_add_mod' pathcode config.slotPerBucket

theorem extendPathcode_toNat {pathcode : UInt16} {slot : Nat} (few : config.slotPerBucket ≤ 8)
    (code : pathcode.toNat = pathcodeOf config root slots) (small : root < 2)
    (others : ∀ slot ∈ slots, slot < config.slotPerBucket) (inside : slot < config.slotPerBucket)
    (short : slots.length < maxBfsPathLen) :
    (config.extendPathcode pathcode slot).toNat = pathcodeOf config root (slot :: slots) := by
  have bound := pathcodeOf_lt small others
  have power : config.slotPerBucket ^ slots.length * config.slotPerBucket ≤ 8 ^ 5 := by
    rw [← Nat.pow_succ]
    calc
      config.slotPerBucket ^ (slots.length + 1) ≤ 8 ^ (slots.length + 1) := Nat.pow_le_pow_left few _
      _ ≤ 8 ^ 5 := Nat.pow_le_pow_right (by decide) short
  have product : (pathcodeOf config root slots + 1) * config.slotPerBucket ≤
      2 * config.slotPerBucket ^ slots.length * config.slotPerBucket := Nat.mul_le_mul_right _ bound
  rw [Nat.add_mul, Nat.one_mul, Nat.mul_assoc] at product
  have whole : pathcodeOf config root slots * config.slotPerBucket + slot < 65536 := by omega
  rw [Config.extendPathcode, UInt16.toNat_add, UInt16.toNat_mul, UInt16.toNat_ofNat', UInt16.toNat_ofNat', code, pathcodeOf]
  rw [Nat.mod_eq_of_lt (by omega : config.slotPerBucket < 2 ^ 16), Nat.mod_eq_of_lt (by omega : slot < 2 ^ 16)]
  omega

theorem encodePath_toNat (few : config.slotPerBucket ≤ 8) (small : root < 2)
    (inside : ∀ slot ∈ slots, slot < config.slotPerBucket) (short : slots.length ≤ maxBfsPathLen) :
    (config.encodePath root slots).toNat = pathcodeOf config root slots.reverse := by
  induction slots using List.reverseRecOn with
  | nil =>
    change (UInt16.ofNat root).toNat = root
    rw [UInt16.toNat_ofNat']
    exact Nat.mod_eq_of_lt (by omega)
  | append_singleton slots slot ih =>
    rw [List.length_append, List.length_singleton] at short
    have others : ∀ slot ∈ slots, slot < config.slotPerBucket := fun slot member => inside slot (List.mem_append_left _ member)
    have code := ih others (by omega)
    have reversed : ∀ slot ∈ slots.reverse, slot < config.slotPerBucket := fun slot member =>
      others slot (List.mem_reverse.mp member)
    rw [Config.encodePath, List.foldl_append, List.reverse_append, List.reverse_singleton, List.singleton_append]
    apply extendPathcode_toNat few code small reversed
    · exact inside slot (List.mem_append_right _ (List.mem_singleton_self slot))
    · rw [List.length_reverse]
      omega

theorem decodePath_eq {x : BSlot} (code : x.pathcode.toNat = pathcodeOf config root slots.reverse)
    (inside : ∀ slot ∈ slots, slot < config.slotPerBucket) (length : slots.length = x.depth + 1) (i1 i2 : Nat) :
    config.decodePath x i1 i2 = (if root = 0 then i1 else i2, slots) := by
  have reversed : ∀ slot ∈ slots.reverse, slot < config.slotPerBucket := fun slot member =>
    inside slot (List.mem_reverse.mp member)
  have decoded := @decodeSlots_pathcodeOf Key config root _ reversed
  rw [List.length_reverse, length, List.reverse_reverse, ← code] at decoded
  unfold Config.decodePath
  rw [decoded]

/-- The last of all paths, each slot of it the last one of its bucket. -/
theorem pathcodeOf_last (count : Nat) :
    pathcodeOf config root (List.replicate count (config.slotPerBucket - 1)) + 1 = (root + 1) * config.slotPerBucket ^ count := by
  have positive := config.slotPerBucket_pos
  induction count with
  | zero => rw [pow_zero, Nat.mul_one, List.replicate_zero, pathcodeOf]
  | succ count ih =>
    rw [List.replicate_succ, pathcodeOf, pow_succ, ← Nat.mul_assoc, ← ih, Nat.add_mul, Nat.one_mul]
    omega

/-- Every path is what its code says if and only if a bucket has no more than eight slots.
The assertion of `b_slot` leaves out that the code also tells the bucket to start on, and
admits nine. -/
theorem pathcode_faithful_iff : (∀ root < 2, ∀ slots : List Nat, 0 < slots.length → slots.length ≤ maxBfsPathLen →
    (∀ slot ∈ slots, slot < config.slotPerBucket) → ∀ bucket i1 i2,
      config.decodePath ⟨bucket, config.encodePath root slots, slots.length - 1⟩ i1 i2 =
        (if root = 0 then i1 else i2, slots)) ↔ config.slotPerBucket ≤ 8 := by
  constructor
  · intro faithful
    by_contra many
    have positive := config.slotPerBucket_pos
    have length := @List.length_replicate Nat maxBfsPathLen (config.slotPerBucket - 1)
    have inside : ∀ slot ∈ List.replicate maxBfsPathLen (config.slotPerBucket - 1), slot < config.slotPerBucket := by
      intro slot member
      rw [(List.mem_replicate.mp member).2]
      omega
    have decoded := faithful 1 (by decide) _ (by rw [length]; decide) length.le inside 0 0 1
    generalize config.encodePath 1 _ = code at decoded
    unfold Config.decodePath at decoded
    rw [length] at decoded
    have whole := @pathcodeOf_decodeSlots Key config maxBfsPathLen code.toNat
    change ((if (config.decodeSlots maxBfsPathLen code.toNat).2 = 0 then 0 else 1),
      (config.decodeSlots maxBfsPathLen code.toNat).1) = _ at decoded
    generalize config.decodeSlots maxBfsPathLen code.toNat = parts at whole decoded
    obtain ⟨second, same⟩ := Prod.mk.inj decoded
    have some : parts.2 ≠ 0 := by
      intro none
      rw [none] at second
      cases second
    rw [same, List.reverse_replicate] at whole
    have top := @pathcodeOf_last Key config parts.2 maxBfsPathLen
    have power : 9 ^ maxBfsPathLen ≤ config.slotPerBucket ^ maxBfsPathLen := Nat.pow_le_pow_left (by omega) _
    have product := Nat.mul_le_mul (by omega : 2 ≤ parts.2 + 1) power
    have bound := code.toNat_lt
    rw [whole] at top
    rw [← top] at product
    change 2 * 9 ^ 5 ≤ code.toNat + 1 at product
    omega
  · intro few root small slots some short inside bucket i1 i2
    apply decodePath_eq
    · exact encodePath_toNat few small inside short
    · exact inside
    · exact (Nat.sub_add_cancel some).symm

end UavRfDetector.Cuckoo

import Mathlib.Algebra.BigOperators.Group.Finset.Sigma
import Mathlib.Algebra.Order.BigOperators.Group.Finset
import Mathlib.Algebra.Order.Group.Multiset

/-! Cells that may hold an item, and the multiset of all they hold. An item that
moves leaves it unchanged, and with keys that do not repeat it is a partial map. -/

namespace UavRfDetector.Contents

variable {Cell Item Key Value : Type}

def content (cell : Option Item) : Multiset Item := cell.toList

@[simp] theorem content_none : content (none : Option Item) = 0 := rfl

@[simp] theorem content_some (item : Item) : content (some item) = {item} := rfl

theorem mem_content {cell : Option Item} {item : Item} : item ∈ content cell ↔ cell = some item := by
  cases cell <;> simp [eq_comm]

def contents (cells : Finset Cell) (memory : Cell → Option Item) : Multiset Item :=
  ∑ cell ∈ cells, content (memory cell)

theorem mem_contents {cells : Finset Cell} {memory : Cell → Option Item} {item : Item} :
    item ∈ contents cells memory ↔ ∃ cell ∈ cells, memory cell = some item := by
  simp only [contents, Multiset.mem_sum, mem_content]

theorem contents_empty {cells : Finset Cell} {memory : Cell → Option Item}
    (empty : ∀ cell ∈ cells, memory cell = none) : contents cells memory = 0 := by
  apply Finset.sum_eq_zero
  intro cell member
  rw [empty cell member, content_none]

theorem contents_product {Row Column : Type} (rows : Finset Row) (columns : Finset Column)
    (memory : Row × Column → Option Item) :
    contents (rows ×ˢ columns) memory = ∑ row ∈ rows, contents columns fun column => memory (row, column) :=
  Finset.sum_product rows columns fun cell => content (memory cell)

variable [DecidableEq Cell]

/-- In a sum over cells what is overwritten goes and what is written comes. -/
theorem sum_update {Held Total : Type} [AddCommMonoid Total] {cells : Finset Cell} {cell : Cell} (member : cell ∈ cells)
    (memory : Cell → Held) (weight : Held → Total) (value : Held) :
    ∑ other ∈ cells, weight (Function.update memory cell value other) + weight (memory cell) =
      ∑ other ∈ cells, weight (memory other) + weight value := by
  have rest : ∑ other ∈ cells.erase cell, weight (Function.update memory cell value other) =
      ∑ other ∈ cells.erase cell, weight (memory other) := by
    apply Finset.sum_congr rfl
    intro other different
    rw [Function.update_of_ne (Finset.ne_of_mem_erase different)]
  rw [← Finset.sum_erase_add cells _ member, ← Finset.sum_erase_add cells _ member, rest, Function.update_self]
  exact add_right_comm _ _ _

theorem contents_update {cells : Finset Cell} {cell : Cell} (member : cell ∈ cells) (memory : Cell → Option Item)
    (value : Option Item) : contents cells (Function.update memory cell value) + content (memory cell) =
      contents cells memory + content value :=
  sum_update member memory content value

section Keyed
variable (key : Item → Key) (value : Item → Value)

def Distinct (items : Multiset Item) : Prop := (items.map key).Nodup

/-- The map that items with distinct keys stand for. -/
def Represents (items : Multiset Item) (map : Key → Option Value) : Prop :=
  ∀ k v, map k = some v ↔ ∃ item ∈ items, key item = k ∧ value item = v

variable {key value} {items : Multiset Item} {map : Key → Option Value}

theorem Distinct.cons {item : Item} (distinct : Distinct key items) (fresh : ∀ other ∈ items, key other ≠ key item) :
    Distinct key (item ::ₘ items) := by
  rw [Distinct, Multiset.map_cons, Multiset.nodup_cons]
  refine ⟨?_, distinct⟩
  intro member
  obtain ⟨other, present, same⟩ := Multiset.mem_map.mp member
  exact fresh other present same

theorem Distinct.tail {item : Item} (distinct : Distinct key (item ::ₘ items)) : Distinct key items := by
  rw [Distinct, Multiset.map_cons, Multiset.nodup_cons] at distinct
  exact distinct.2

theorem Distinct.head {item other : Item} (distinct : Distinct key (item ::ₘ items)) (member : other ∈ items) :
    key other ≠ key item := by
  rw [Distinct, Multiset.map_cons, Multiset.nodup_cons] at distinct
  intro same
  exact distinct.1 (same ▸ Multiset.mem_map_of_mem key member)

theorem Distinct.replace {item other : Item} (distinct : Distinct key (item ::ₘ items)) (same : key other = key item) :
    Distinct key (other ::ₘ items) := by
  rw [Distinct, Multiset.map_cons] at distinct ⊢
  rwa [same]

/-- With distinct keys a key is in one cell at most. -/
theorem Distinct.cell {cells : Finset Cell} {memory : Cell → Option Item} (distinct : Distinct key (contents cells memory))
    {cell other : Cell} (member : cell ∈ cells) (present : other ∈ cells) {item item' : Item}
    (holds : memory cell = some item) (holds' : memory other = some item') (same : key item = key item') : cell = other := by
  by_contra different
  have split : contents cells memory = item ::ₘ contents (cells.erase cell) memory := by
    rw [contents, ← Finset.sum_erase_add cells _ member, holds, content_some, add_comm, Multiset.singleton_add]
    rfl
  rw [split] at distinct
  have rest : item' ∈ contents (cells.erase cell) memory :=
    mem_contents.mpr ⟨other, Finset.mem_erase.mpr ⟨Ne.symm different, present⟩, holds'⟩
  exact distinct.head rest same.symm

theorem Represents.absent (represents : Represents key value items map) {k : Key} :
    map k = none ↔ ∀ item ∈ items, key item ≠ k := by
  constructor
  · intro none item member same
    have found := (represents k (value item)).mpr ⟨item, member, same, rfl⟩
    rw [none] at found
    cases found
  · intro missing
    cases found : map k with
    | none => rfl
    | some v =>
      obtain ⟨item, member, same, _⟩ := (represents k v).mp found
      exact absurd same (missing item member)

theorem Represents.present (represents : Represents key value items map) {item : Item} (member : item ∈ items) :
    map (key item) = some (value item) :=
  (represents _ _).mpr ⟨item, member, rfl, rfl⟩

variable [DecidableEq Key]

theorem Represents.cons (represents : Represents key value items map) {item : Item}
    (fresh : ∀ other ∈ items, key other ≠ key item) :
    Represents key value (item ::ₘ items) (Function.update map (key item) (some (value item))) := by
  intro k v
  by_cases same : k = key item
  · subst same
    rw [Function.update_self]
    constructor
    · intro found
      exact ⟨item, Multiset.mem_cons_self _ _, rfl, Option.some.inj found⟩
    · rintro ⟨other, member, named, rfl⟩
      rcases Multiset.mem_cons.mp member with rfl | old
      · rfl
      · exact absurd named (fresh other old)
  · rw [Function.update_of_ne same, represents k v]
    constructor
    · intro ⟨other, member, found⟩
      exact ⟨other, Multiset.mem_cons_of_mem member, found⟩
    · intro ⟨other, member, named, found⟩
      rcases Multiset.mem_cons.mp member with rfl | old
      · exact absurd named.symm same
      · exact ⟨other, old, named, found⟩

theorem Represents.tail {item : Item} (represents : Represents key value (item ::ₘ items) map)
    (distinct : Distinct key (item ::ₘ items)) :
    Represents key value items (Function.update map (key item) none) := by
  intro k v
  by_cases same : k = key item
  · subst same
    rw [Function.update_self]
    constructor
    · intro found
      cases found
    · intro ⟨other, member, named, _⟩
      exact absurd named (distinct.head member)
  · rw [Function.update_of_ne same, represents k v]
    constructor
    · intro ⟨other, member, named, found⟩
      rcases Multiset.mem_cons.mp member with rfl | old
      · exact absurd named.symm same
      · exact ⟨other, old, named, found⟩
    · intro ⟨other, member, found⟩
      exact ⟨other, Multiset.mem_cons_of_mem member, found⟩

theorem Represents.replace {item other : Item} (represents : Represents key value (item ::ₘ items) map)
    (distinct : Distinct key (item ::ₘ items)) (same : key other = key item) :
    Represents key value (other ::ₘ items) (Function.update map (key item) (some (value other))) := by
  have fresh : ∀ old ∈ items, key old ≠ key other := by
    intro old member
    rw [same]
    exact distinct.head member
  have replaced := (represents.tail distinct).cons fresh
  rwa [same, Function.update_idem] at replaced

/-- Items with different keys are as many as the keys of their map. -/
theorem Represents.card (represents : Represents key value items map) (distinct : Distinct key items) :
    ∃ keys : Finset Key, (∀ k, k ∈ keys ↔ (map k).isSome) ∧ keys.card = items.card := by
  refine ⟨(items.map key).toFinset, ?_, ?_⟩
  · intro k
    rw [Multiset.mem_toFinset, Multiset.mem_map, Option.isSome_iff_exists]
    constructor
    · rintro ⟨item, member, rfl⟩
      exact ⟨value item, represents.present member⟩
    · rintro ⟨v, found⟩
      obtain ⟨item, member, same, _⟩ := (represents k v).mp found
      exact ⟨item, member, same⟩
  · rw [Multiset.toFinset_card_of_nodup distinct, Multiset.card_map]

/-- Items with different keys are those of a map. -/
theorem Distinct.represented (distinct : Distinct key items) (value : Item → Value) :
    ∃ map, Represents key value items map := by
  induction items using Multiset.induction_on with
  | empty => exact ⟨fun _ => none, by simp [Represents]⟩
  | cons item items ih =>
    obtain ⟨map, represents⟩ := ih distinct.tail
    exact ⟨_, represents.cons fun other member => distinct.head member⟩

end Keyed

end UavRfDetector.Contents

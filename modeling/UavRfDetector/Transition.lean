import Mathlib.Data.List.Basic

/-! Runs of a partial step function, with the condition each of their steps meets.
A run keeps its events: what a part of the state has become is then a function of
the events that concern it, in whatever way they were interleaved with others. -/

namespace UavRfDetector.Transition

inductive Run {State Event : Type} (step : State → Event → Option State) (allowed : State → Event → Prop)
    (first : State) : List Event → State → Prop where
  | nil : Run step allowed first [] first
  | snoc {events before after} (run : Run step allowed first events before) (event : Event)
    (permitted : allowed before event) (stepped : step before event = some after) :
    Run step allowed first (events ++ [event]) after

variable {State Event Local Item Input : Type} {step : State → Event → Option State}
  {allowed : State → Event → Prop} {first last : State} {events : List Event}

theorem Run.steps (run : Run step allowed first events last) (more : List Event)
    (permitted : ∀ event ∈ more, ∀ state, allowed state event) {after : State}
    (stepped : more.foldlM step last = some after) : Run step allowed first (events ++ more) after := by
  induction more generalizing events last with
  | nil =>
    cases stepped
    simpa using run
  | cons event more ih =>
    rw [List.foldlM_cons] at stepped
    cases moved : step last event with
    | none => rw [moved] at stepped; cases stepped
    | some next =>
      rw [moved] at stepped
      have once := run.snoc event (permitted event (by simp) last) moved
      have rest := ih once (by
        intro later member
        exact permitted later (by simp [member])) stepped
      simpa using rest

theorem Run.trans {before : List Event} {state : State} (run : Run step allowed first before state)
    (rest : Run step allowed state events last) : Run step allowed first (before ++ events) last := by
  induction rest with
  | nil =>
    rw [List.append_nil]
    exact run
  | snoc rest event permitted stepped ih =>
    rw [← List.append_assoc]
    exact ih.snoc event permitted stepped

theorem Run.mono {allowed' : State → Event → Prop} (run : Run step allowed first events last)
    (more : ∀ state event, allowed state event → allowed' state event) : Run step allowed' first events last := by
  induction run with
  | nil => exact .nil
  | snoc run event permitted stepped ih => exact ih.snoc event (more _ _ permitted) stepped

/-- A property that holds at first and is kept by every allowed step of a run. -/
theorem Run.invariant (run : Run step allowed first events last) {property : State → Prop} (initial : property first)
    (kept : ∀ {events before after}, Run step allowed first events before → ∀ event, allowed before event →
      step before event = some after → property before → property after) : property last := by
  induction run with
  | nil => exact initial
  | snoc run event permitted stepped ih => exact kept run event permitted stepped ih

/-- A measure that every step decreases bounds the number of steps. -/
theorem Run.bounded (run : Run step allowed first events last) {property : State → Prop} {measure : State → Nat}
    (initial : property first)
    (kept : ∀ {before after} event, allowed before event → step before event = some after → property before →
      property after ∧ measure after < measure before) : events.length + measure last ≤ measure first := by
  suffices stronger : property last ∧ events.length + measure last ≤ measure first from stronger.2
  induction run with
  | nil => exact ⟨initial, by simp⟩
  | snoc run event permitted stepped ih =>
    obtain ⟨holds, bound⟩ := ih
    obtain ⟨later, less⟩ := kept event permitted stepped holds
    refine ⟨later, ?_⟩
    simp only [List.length_append, List.length_singleton]
    omega

/-- A part of the state that every step either leaves alone or advances by the
step's own input. -/
theorem Run.view (run : Run step allowed first events last) (view : State → Local) (own : Event → Option Input)
    (advance : Local → Input → Local)
    (moves : ∀ before event after, step before event = some after →
      view after = ((own event).map (advance (view before))).getD (view before)) :
    view last = (events.filterMap own).foldl advance (view first) := by
  induction run with
  | nil => rfl
  | @snoc events before after run event permitted stepped ih =>
    rw [List.filterMap_append, List.foldl_append, ← ih, moves _ _ _ stepped]
    cases found : own event <;> simp [found]

/-- A pool of items: a step adds fresh ones at the end or advances one of them. -/
inductive PoolStep (born : Item → Prop) (advance : Item → Input → Item) :
    List Item → Option (Nat × Input) → List Item → Prop where
  | grow {items} (fresh : List Item) (new : ∀ item ∈ fresh, born item) : PoolStep born advance items none (items ++ fresh)
  | advance {items index item} (input : Input) (found : items[index]? = some item) :
    PoolStep born advance items (some (index, input)) (items.set index (advance item input))

def inputsOf (own : Event → Option (Nat × Input)) (index : Nat) (events : List Event) : List Input :=
  events.filterMap fun event => (own event).bind fun input => if input.1 = index then some input.2 else none

theorem inputsOf_none {own : Event → Option (Nat × Input)} {event : Event} (other : own event = none)
    (index : Nat) (events : List Event) : inputsOf own index (events ++ [event]) = inputsOf own index events := by
  simp [inputsOf, other]

theorem inputsOf_some {own : Event → Option (Nat × Input)} {event : Event} {index : Nat} {input : Input}
    (mine : own event = some (index, input)) (events : List Event) :
    inputsOf own index (events ++ [event]) = inputsOf own index events ++ [input] := by
  simp [inputsOf, mine]

theorem inputsOf_other {own : Event → Option (Nat × Input)} {event : Event} {index other : Nat} {input : Input}
    (yours : own event = some (other, input)) (different : other ≠ index) (events : List Event) :
    inputsOf own index (events ++ [event]) = inputsOf own index events := by
  simp [inputsOf, yours, different]

/-- Every item of a pool is what its own inputs made of it since it was born. No
input can come before that. -/
theorem Run.pool (run : Run step allowed first events last) {born : Item → Prop} {advance : Item → Input → Item}
    (items : State → List Item) (own : Event → Option (Nat × Input)) (empty : items first = [])
    (moves : ∀ before event after, step before event = some after →
      PoolStep born advance (items before) (own event) (items after)) :
    ∀ index item, (items last)[index]? = some item →
      ∃ initial, born initial ∧ item = (inputsOf own index events).foldl advance initial := by
  suffices stronger : (∀ index item, (items last)[index]? = some item →
      ∃ initial, born initial ∧ item = (inputsOf own index events).foldl advance initial) ∧
      ∀ index, (items last).length ≤ index → inputsOf own index events = [] from stronger.1
  induction run with
  | nil => exact ⟨fun index item found => by simp [empty] at found, fun _ _ => rfl⟩
  | @snoc events before after run event permitted stepped ih =>
    obtain ⟨known, unborn⟩ := ih
    have moved := moves _ _ _ stepped
    generalize items after = final at moved ⊢
    generalize label : own event = input at moved
    cases moved with
    | grow fresh new =>
      constructor
      · intro index item found
        rw [inputsOf_none label]
        by_cases old : index < (items before).length
        · rw [List.getElem?_append_left old] at found
          exact known index item found
        · have late : (items before).length ≤ index := by omega
          rw [List.getElem?_append_right late] at found
          exact ⟨item, new item (List.mem_of_getElem? found), by rw [unborn index late]; rfl⟩
      · intro index late
        rw [inputsOf_none label]
        exact unborn index (by simp only [List.length_append] at late; omega)
    | @advance position current input present =>
      have inside := (List.getElem?_eq_some_iff.mp present).choose
      constructor
      · intro index item found
        by_cases same : position = index
        · subst index
          obtain ⟨initial, fresh, grown⟩ := known position current present
          refine ⟨initial, fresh, ?_⟩
          rw [List.getElem?_set_self inside] at found
          cases found
          rw [inputsOf_some label, List.foldl_append, ← grown]
          rfl
        · rw [List.getElem?_set_ne same] at found
          rw [inputsOf_other label same]
          exact known index item found
      · intro index late
        rw [List.length_set] at late
        rw [inputsOf_other label (by omega)]
        exact unborn index late

end UavRfDetector.Transition

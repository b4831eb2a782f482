import Mathlib.Order.WellFounded

/-! Threads that wait for locks. Where every thread takes its locks in one order, some
thread is not kept waiting. -/

namespace UavRfDetector.Waiting

variable {Thread Lock : Type} {waits holds : Thread → Lock → Prop} {beyond : Lock → Lock → Prop}

/-- Along the chain of those who hold what others wait for, the locks come later and
later in the order. -/
theorem exists_unblocked (order : WellFounded beyond)
    (ascending : ∀ thread next held, waits thread next → holds thread held → beyond next held) (thread : Thread) :
    ∃ other, (other = thread ∨ ∃ held, holds other held) ∧ ∀ next, waits other next → ∀ owner, ¬ holds owner next := by
  by_cases free : ∀ next, waits thread next → ∀ owner, ¬ holds owner next
  · exact ⟨thread, Or.inl rfl, free⟩
  · simp only [not_forall, not_not] at free
    obtain ⟨next, -, owner, held⟩ := free
    suffices found : ∃ other, (∃ held, holds other held) ∧ ∀ next, waits other next → ∀ owner, ¬ holds owner next by
      obtain ⟨other, holder, unblocked⟩ := found
      exact ⟨other, Or.inr holder, unblocked⟩
    induction next using order.induction generalizing owner with
    | _ next ih =>
      by_cases free : ∀ next, waits owner next → ∀ other, ¬ holds other next
      · exact ⟨owner, ⟨next, held⟩, free⟩
      · simp only [not_forall, not_not] at free
        obtain ⟨later, waiting, other, taken⟩ := free
        exact ih later (ascending owner later next waiting held) other taken

end UavRfDetector.Waiting

/-
# When a while loop ends

A while loop repeats its body as long as its guard holds. It ends if the guard fails after
some number of passes. There is one rule for each answer: a loop ends if every pass lowers
a measure, and it does not end if an invariant of the body keeps the guard true.
-/

import Mathlib.Logic.Function.Iterate

namespace NvidiaHaiku.Math.WhileLoop

variable {σ : Type*} {guard : σ → Prop} {body : σ → σ} {I : σ → Prop} {s : σ}

/-- Started in `s`, the loop comes to a state in which the guard fails. -/
def Ends (guard : σ → Prop) (body : σ → σ) (s : σ) : Prop := ∃ passes, ¬ guard (body^[passes] s)

theorem Ends.of_not_guard (fails : ¬ guard s) : Ends guard body s := ⟨0, fails⟩

theorem Ends.of_body (ends : Ends guard body (body s)) : Ends guard body s := by
  obtain ⟨passes, fails⟩ := ends
  exact ⟨passes + 1, fails⟩

/-- A property that the body keeps holds after any number of passes. -/
theorem iterate_invariant (kept : ∀ s, I s → I (body s)) (held : I s) (passes : ℕ) :
    I (body^[passes] s) := by
  induction passes generalizing s with
  | zero => exact held
  | succ passes ih => exact ih (kept s held)

/-- The variant rule: the passes lower `μ`, as long as the guard holds. -/
theorem Ends.of_measure (μ : σ → ℕ)
    (lowers : ∀ s, I s → guard s → I (body s) ∧ μ (body s) < μ s) (held : I s) :
    Ends guard body s := by
  induction measure : μ s using Nat.strongRecOn generalizing s with
  | ind m ih =>
    by_cases goes_on : guard s
    · obtain ⟨held, less⟩ := lowers s held goes_on
      exact .of_body (ih (μ (body s)) (measure ▸ less) held rfl)
    · exact .of_not_guard goes_on

/-- A loop whose body keeps a property under which the guard holds goes on for ever. -/
theorem not_ends_of_invariant (kept : ∀ s, I s → I (body s)) (guarded : ∀ s, I s → guard s)
    (held : I s) : ¬ Ends guard body s := by
  rintro ⟨passes, fails⟩
  exact fails (guarded _ (iterate_invariant kept held passes))

end NvidiaHaiku.Math.WhileLoop

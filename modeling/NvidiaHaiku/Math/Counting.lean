/-
# Counting the components in a condition

A family of components, one of which changes at a time. A condition singles out
the components that hold something, such as a reference or a lock. When one
component changes, the set of holders gains it, loses it or stays.
-/

import Mathlib.Data.Set.Card

namespace NvidiaHaiku.Math

variable {ι α : Type*}

/-- The components that meet their condition. -/
def holders (P : ι → α → Prop) (f : ι → α) : Set ι := {i | P i (f i)}

variable {P : ι → α → Prop} {f : ι → α} {i : ι} {x : α}

@[simp] theorem mem_holders : i ∈ holders P f ↔ P i (f i) := Iff.rfl

theorem holders_eq_empty (none : ∀ i, ¬ P i (f i)) : holders P f = ∅ :=
  Set.eq_empty_of_forall_notMem none

theorem ncard_holders_pos (finite : (holders P f).Finite) (held : P i (f i)) :
    0 < (holders P f).ncard :=
  (Set.ncard_pos finite).mpr ⟨i, held⟩

variable [DecidableEq ι]

/-- The changed component keeps what it had, or goes on having nothing. -/
theorem holders_update_of_iff (same : P i x ↔ P i (f i)) :
    holders P (Function.update f i x) = holders P f := by
  ext j
  by_cases other : j = i
  · subst other
    simpa using same
  · simp [other]

/-- The changed component becomes a holder. -/
theorem holders_update_of_gain (gains : P i x) :
    holders P (Function.update f i x) = insert i (holders P f) := by
  ext j
  by_cases other : j = i
  · subst other
    simpa using gains
  · simp [other]

/-- The changed component is a holder no more. -/
theorem holders_update_of_loss (loses : ¬ P i x) :
    holders P (Function.update f i x) = holders P f \ {i} := by
  ext j
  by_cases other : j = i
  · subst other
    simpa using loses
  · simp [other]

theorem ncard_holders_of_gain (finite : (holders P f).Finite) (without : ¬ P i (f i))
    (gains : P i x) : (holders P (Function.update f i x)).ncard = (holders P f).ncard + 1 := by
  rw [holders_update_of_gain gains]
  exact Set.ncard_insert_of_notMem without finite

theorem ncard_holders_of_loss (finite : (holders P f).Finite) (held : P i (f i))
    (loses : ¬ P i x) : (holders P (Function.update f i x)).ncard + 1 = (holders P f).ncard := by
  rw [holders_update_of_loss loses]
  exact Set.ncard_sdiff_singleton_add_one held finite

/-- Whatever the changed component becomes, finitely many holders stay so. -/
theorem finite_holders_update (finite : (holders P f).Finite) :
    (holders P (Function.update f i x)).Finite := by
  by_cases gains : P i x
  · rw [holders_update_of_gain gains]
    exact finite.insert i
  · rw [holders_update_of_loss gains]
    exact finite.sdiff

end NvidiaHaiku.Math

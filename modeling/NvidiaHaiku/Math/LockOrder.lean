/-
# Locks taken in order

Threads hold locks and want locks. A thread that wants a lock another one holds
waits for that one, and threads that wait for each other in a ring do so for
ever. If every thread wants only locks that rank above all those it holds, no
such ring exists: the lock wanted ranks higher with each thread along a chain of
waiting, so a chain ends, and whoever it ends with waits for nobody.
-/

import Mathlib.Logic.Relation
import Mathlib.Order.WellFounded

namespace NvidiaHaiku.Math

variable {Θ Λ ρ : Type*}

/-- Which locks each thread holds, and which one it waits for. -/
structure LockTable (Θ Λ : Type*) where
  holds : Θ → Λ → Prop
  wants : Θ → Option Λ

namespace LockTable

/-- `θ` wants a lock that `θ'` holds. -/
def WaitsFor (table : LockTable Θ Λ) (θ θ' : Θ) : Prop :=
  ∃ lock, table.wants θ = some lock ∧ table.holds θ' lock

/-- The thread wants nothing, or what it wants is free. -/
def Unblocked (table : LockTable Θ Λ) (θ : Θ) : Prop :=
  ∀ lock, table.wants θ = some lock → ∀ θ', ¬ table.holds θ' lock

/-- Whoever wants a lock holds only locks of lower rank. -/
def Ordered [LT ρ] (table : LockTable Θ Λ) (rank : Λ → ρ) : Prop :=
  ∀ θ lock held, table.wants θ = some lock → table.holds θ held → rank held < rank lock

variable {table : LockTable Θ Λ} {rank : Λ → ρ} {θ θ' : Θ}

theorem not_unblocked_iff : ¬ table.Unblocked θ ↔ ∃ θ', table.WaitsFor θ θ' := by
  simp only [Unblocked, WaitsFor, not_forall, not_not]
  constructor
  · rintro ⟨lock, wants, θ', holds⟩
    exact ⟨θ', lock, wants, holds⟩
  · rintro ⟨θ', lock, wants, holds⟩
    exact ⟨lock, wants, θ', holds⟩

variable [Preorder ρ]

/-- Along a chain of waiting the lock wanted ranks higher with each thread. -/
theorem Ordered.lt_of_waitsFor (ordered : table.Ordered rank) (waits : table.WaitsFor θ θ')
    {lock lock' : Λ} (wants : table.wants θ = some lock) (wants' : table.wants θ' = some lock') :
    rank lock < rank lock' := by
  obtain ⟨held, wanted, holds⟩ := waits
  obtain rfl := Option.some.inj (wants.symm.trans wanted)
  exact ordered θ' lock' _ wants' holds

/-- Every chain of waiting ends with a thread that is not blocked. -/
theorem Ordered.exists_unblocked [WellFoundedGT ρ] (ordered : table.Ordered rank) (θ : Θ) :
    ∃ θ', Relation.ReflTransGen table.WaitsFor θ θ' ∧ table.Unblocked θ' := by
  -- by induction on the rank of the lock wanted, from the highest one down
  suffices waiting : ∀ r θ lock, table.wants θ = some lock → rank lock = r →
      ∃ θ', Relation.ReflTransGen table.WaitsFor θ θ' ∧ table.Unblocked θ' by
    cases wants : table.wants θ with
    | none => exact ⟨θ, .refl, fun lock wanted => by cases wants.symm.trans wanted⟩
    | some lock => exact waiting _ θ lock wants rfl
  intro r
  induction r using WellFoundedGT.induction with
  | ind r ih =>
    rintro θ lock wants rfl
    by_cases unblocked : table.Unblocked θ
    · exact ⟨θ, .refl, unblocked⟩
    · obtain ⟨θ', waits⟩ := not_unblocked_iff.mp unblocked
      cases wants' : table.wants θ' with
      | none =>
        exact ⟨θ', .single waits, fun lock wanted => by cases wants'.symm.trans wanted⟩
      | some lock' =>
        have above := ordered.lt_of_waitsFor waits wants wants'
        obtain ⟨θ'', chain, unblocked⟩ := ih (rank lock') above θ' lock' wants' rfl
        exact ⟨θ'', .head waits chain, unblocked⟩

/-- No thread waits for itself, however long the way round. -/
theorem Ordered.not_cycle (ordered : table.Ordered rank) :
    ¬ Relation.TransGen table.WaitsFor θ θ := by
  intro cycle
  -- whoever is waited for along the chain wants a lock above the first one
  have wanted : ∀ {θ θ'}, Relation.TransGen table.WaitsFor θ θ' →
      ∃ lock, table.wants θ = some lock ∧
        ∀ lock', table.wants θ' = some lock' → rank lock < rank lock' := by
    intro θ θ' chain
    induction chain with
    | single waits =>
      obtain ⟨lock, wants, holds⟩ := waits
      exact ⟨lock, wants, fun lock' wants' =>
        ordered.lt_of_waitsFor ⟨lock, wants, holds⟩ wants wants'⟩
    | tail _ waits ih =>
      obtain ⟨lock, wants, above⟩ := ih
      obtain ⟨between, wantsBetween, holds⟩ := waits
      refine ⟨lock, wants, fun lock' wants' => (above between wantsBetween).trans ?_⟩
      exact ordered.lt_of_waitsFor ⟨between, wantsBetween, holds⟩ wantsBetween wants'
  obtain ⟨lock, wants, above⟩ := wanted cycle
  exact lt_irrefl _ (above lock wants)

end LockTable

end NvidiaHaiku.Math

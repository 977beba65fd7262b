/-
# Arrays that end at their first null

An array of pointers that is terminated by a null is walked from its start to the first
null. What it holds splits into the pointers that the walk comes to and those behind the
first null, which it misses. It misses none exactly if the entries in use have no gap:
with every entry in use, all entries before it are in use.
-/

import Mathlib.Data.Finset.Basic
import Mathlib.Data.List.ReduceOption
import Mathlib.Data.Multiset.OrderedMonoid

namespace NvidiaHaiku.Math.Terminated

variable {α : Type*}

/-- All pointers in the array. -/
def held (xs : List (Option α)) : Multiset α := xs.reduceOption

/-- The pointers up to the first null. -/
def walked (xs : List (Option α)) : Multiset α := (xs.takeWhile Option.isSome).reduceOption

/-- The pointers behind the first null. -/
def missed (xs : List (Option α)) : Multiset α := (xs.dropWhile Option.isSome).reduceOption

variable {xs : List (Option α)}

theorem walked_add_missed (xs : List (Option α)) : walked xs + missed xs = held xs := by
  rw [walked, missed, held, Multiset.coe_add, ← List.reduceOption_append,
    List.takeWhile_append_dropWhile]

@[simp] theorem held_nil : held ([] : List (Option α)) = 0 := rfl

@[simp] theorem held_cons (x : Option α) (xs : List (Option α)) :
    held (x :: xs) = (x.toList : Multiset α) + held xs := by
  cases x <;> rfl

@[simp] theorem held_replicate_none (n : ℕ) : held (List.replicate n (none : Option α)) = 0 := by
  rw [held, List.reduceOption_replicate_none, Multiset.coe_nil]

theorem held_eq_zero_iff : held xs = 0 ↔ ∀ i : ℕ, xs[i]?.join = none := by
  induction xs with
  | nil => simp
  | cons x xs ih =>
    rw [held_cons, add_eq_zero, ih]
    constructor
    · rintro ⟨first, rest⟩ i
      cases i with
      | zero => cases x with
        | none => rfl
        | some x => exact absurd first (Multiset.singleton_ne_zero x)
      | succ i => exact rest i
    · intro every
      refine ⟨?_, fun i => every (i + 1)⟩
      rw [show x = none from every 0]
      rfl

/-- Storing a pointer lets go of the one that was in its place. -/
theorem held_set {i : ℕ} {old : Option α} (entry : xs[i]? = some old) (x : α) :
    held (xs.set i (some x)) + (old.toList : Multiset α) = held xs + {x} := by
  induction xs generalizing i with
  | nil => exact nomatch entry
  | cons y xs ih =>
    cases i with
    | zero =>
      obtain rfl : y = old := Option.some.inj entry
      rw [List.set_cons_zero, held_cons, held_cons]
      calc ({x} : Multiset α) + held xs + (y.toList : Multiset α)
          = y.toList + ({x} + held xs) := add_comm ..
        _ = y.toList + held xs + {x} := by rw [add_comm {x} (held xs), add_assoc]
    | succ i =>
      rw [List.set_cons_succ, held_cons, held_cons, add_assoc, ih entry, add_assoc]

/-- With every entry in use, all entries before it are in use. -/
def Gapless (used : ℕ → Prop) : Prop := ∀ i, used i → ∀ j < i, used j

instance (used : Finset ℕ) : Decidable (Gapless (· ∈ used)) :=
  inferInstanceAs (Decidable (∀ i ∈ used, ∀ j < i, j ∈ used))

/-- The walk misses nothing exactly if there is no gap. -/
theorem missed_eq_zero_iff : missed xs = 0 ↔ Gapless fun i => xs[i]?.join.isSome := by
  induction xs with
  | nil =>
    refine ⟨fun _ i used => ?_, fun _ => rfl⟩
    exact nomatch used
  | cons x xs ih =>
    cases x with
    | none =>
      -- the walk ends here, and every pointer further on is behind a gap
      have all : missed (none :: xs) = held xs := rfl
      rw [all, held_eq_zero_iff]
      constructor
      · intro none_used i used
        cases i with
        | zero => exact nomatch used
        | succ i =>
          rw [List.getElem?_cons_succ, none_used i] at used
          exact nomatch used
      · intro gapless i
        by_contra used
        have first := gapless (i + 1) (Option.isSome_iff_ne_none.mpr used) 0 i.succ_pos
        exact nomatch first
    | some x =>
      have rest : missed (some x :: xs) = missed xs := rfl
      rw [rest, ih]
      constructor
      · intro gapless i used j before
        cases j with
        | zero => rfl
        | succ j =>
          cases i with
          | zero => exact absurd before (Nat.not_lt_zero _)
          | succ i => exact gapless i used j (Nat.lt_of_succ_lt_succ before)
      · intro gapless i used j before
        exact gapless (i + 1) used (j + 1) (Nat.succ_lt_succ before)

end NvidiaHaiku.Math.Terminated

/-
# The search for the size class

`Alloc` doubles `groupSize` until it is at least `size`, in the lock and with interrupts
disabled. Both are of type `size_t`. Doubling takes `groupSize` through the powers of two
up to 2 ^ 63 and then to zero, where it stays. So a size above 2 ^ 63 is never reached, and
`os_alloc_mem` passes on whatever size it is given. A size that no group has is meant to end
in the panic behind the loop.
-/

import NvidiaHaiku.IntrSafePool.Capacity
import NvidiaHaiku.Math.WhileLoop

namespace NvidiaHaiku.IntrSafePool

open NvidiaHaiku.Math

/-- The variables of the loop. -/
structure Search where
  n : BitVec 32
  groupSize : BitVec 64
  deriving DecidableEq, Repr

namespace Search

/-- The variables when the loop begins. -/
def start : Search where
  n := 0
  groupSize := BitVec.ofNat 64 kMinSize

/-- `groupSize < size` -/
def Below (size : BitVec 64) (search : Search) : Prop := search.groupSize < size

/-- `n++; groupSize *= 2;` -/
def pass (search : Search) : Search where
  n := search.n + 1
  groupSize := search.groupSize * 2

variable {size : BitVec 64} {search : Search}

theorem toNat_pass : search.pass.groupSize.toNat = search.groupSize.toNat * 2 % 2 ^ 64 :=
  BitVec.toNat_mul ..

/-- Below a size of at most 2 ^ 63, doubling does not overflow and comes closer to it. -/
theorem ends_of_le (small : size.toNat ≤ 2 ^ 63) : WhileLoop.Ends (Below size) pass start := by
  have positive : 0 < start.groupSize.toNat := by decide
  refine WhileLoop.Ends.of_measure (I := fun search => 0 < search.groupSize.toNat)
    (fun search => size.toNat - search.groupSize.toNat) ?_ positive
  intro search positive below
  have below : search.groupSize.toNat < size.toNat := BitVec.lt_def.mp below
  have fits : search.groupSize.toNat * 2 < 2 ^ 64 := by omega
  have doubled : search.pass.groupSize.toNat = search.groupSize.toNat * 2 := by
    rw [toNat_pass, Nat.mod_eq_of_lt fits]
  omega

/-- Doubling only gives powers of two and zero, which are all below a size above 2 ^ 63. -/
theorem not_ends_of_lt (large : 2 ^ 63 < size.toNat) :
    ¬ WhileLoop.Ends (Below size) pass start := by
  refine WhileLoop.not_ends_of_invariant
    (I := fun search => ∃ i, search.groupSize.toNat = IntrSafePool.groupSize i % 2 ^ 64) ?_ ?_
    ⟨0, rfl⟩
  · rintro search ⟨i, power⟩
    refine ⟨i + 1, ?_⟩
    rw [toNat_pass, power, Nat.mod_mul_mod, groupSize_succ]
  · rintro search ⟨i, power⟩
    have bounded : search.groupSize.toNat ≤ 2 ^ 63 := power ▸ (groupSize_mod i).2
    exact BitVec.lt_def.mpr (bounded.trans_lt large)

end Search

/-- `Alloc` finds the size class of `size`, so `os_alloc_mem` comes back or panics, whatever
the pool holds. -/
structure SearchEnds (size : BitVec 64) : Prop where
  loop : WhileLoop.Ends (Search.Below size) Search.pass Search.start
  call : ∀ (s : State) (client : Client), ∃ ptr t,
    s.osAllocMem client false size.toNat ptr = some t

variable {s : State} {size : ℕ} {client : Client}

/-- A call with interrupts disabled comes back or panics exactly if the search ends. -/
theorem osAllocMem_isSome_iff :
    (∃ ptr t, s.osAllocMem client false size ptr = some t) ↔
      (Pool.sizeClass size).isSome = true := by
  constructor
  · rintro ⟨ptr, t, returned⟩
    by_contra endless
    have hangs : s.pool.alloc size = none := by
      rw [Pool.alloc, Option.not_isSome_iff_eq_none.mp endless]
      rfl
    rw [State.osAllocMem, hangs] at returned
    cases returned
  · intro ends
    obtain ⟨n, found⟩ := Option.isSome_iff_exists.mp ends
    obtain ⟨returned, alloc⟩ : ∃ returned, s.pool.alloc size = some returned :=
      ⟨_, by rw [Pool.alloc, found]; rfl⟩
    cases returned with
    | error halt => exact ⟨none, _, by rw [State.osAllocMem, alloc]; rfl⟩
    | ok result =>
      obtain ⟨ptr, pool⟩ := result
      refine ⟨ptr, { s with pool := pool }.hand client ptr, ?_⟩
      rw [State.osAllocMem, alloc]
      exact if_pos rfl

/-- The sizes whose search ends are those up to 2 ^ 63. -/
theorem searchEnds_iff (size : BitVec 64) : SearchEnds size ↔ size.toNat ≤ 2 ^ 63 := by
  constructor
  · intro ends
    by_contra large
    exact Search.not_ends_of_lt (not_le.mp large) ends.loop
  · intro small
    exact ⟨Search.ends_of_le small, fun s client =>
      osAllocMem_isSome_iff.mpr (sizeClass_isSome_iff.mpr small)⟩

/-- The first size that is above every power of two: the loop goes on for ever, and so does
a call of `os_alloc_mem` with it. -/
theorem not_searchEnds_large : ¬ SearchEnds 0x8000000000000001 ∧
    ∀ (s : State) (client : Client) (ptr : Ptr) (t : State),
      s.osAllocMem client false 0x8000000000000001 ptr ≠ some t := by
  constructor
  · intro ends
    exact Search.not_ends_of_lt (by decide) ends.loop
  · intro s client ptr t returned
    have ends := sizeClass_isSome_iff.mp (osAllocMem_isSome_iff.mp ⟨ptr, t, returned⟩)
    exact absurd ends (by decide)

end NvidiaHaiku.IntrSafePool

/-
# The pool on its own

While a module is initialised nobody else calls the pool, and `Maintain` and `ReclaimAll`
run to their ends. The stretches between two acquisitions of the lock then follow one
another, and the loops over the slots of a group are read as loops again.

What such a call takes from the heap and gives back to it is entered into a ledger. The
ledger settles with the blocks that the pool holds.
-/

import Mathlib.Algebra.Order.BigOperators.Group.Finset
import NvidiaHaiku.IntrSafePool.Pool
import NvidiaHaiku.Math.Ledger

namespace NvidiaHaiku.IntrSafePool

open NvidiaHaiku.Math

/-- `calloc` returned `ptr`. -/
def acquired (ptr : Ptr) : List (Op Block) := ptr.toList.map .acquire

/-- `free(ptr)`, which does nothing for a null pointer. -/
def released (ptr : Ptr) : List (Op Block) := ptr.toList.map .release

theorem settle_acquired (held : Multiset Block) (ptr : Ptr) :
    settle held (acquired ptr) = some (held + resources [ptr]) := by
  cases ptr <;> exact settle_acquires _

theorem settle_released (held : Multiset Block) (ptr : Ptr) :
    settle (held + resources [ptr]) (released ptr) = some held := by
  cases ptr <;> exact settle_releases _

namespace Group

variable {maxItemCount : ℕ} {group group' : Group maxItemCount}

/-- The loop of `Group::ReclaimAll`, for at most `passes` passes. -/
def drain : (passes : ℕ) → Group maxItemCount →
    Except Halt (List (Op Block) × Group maxItemCount)
  | 0, group => .ok ([], group)
  | passes + 1, group =>
    match group.reclaimAll with
    | .error halt => .error halt
    | .ok none => .ok ([], group)
    | .ok (some (ptr, group)) =>
      (drain passes group).map fun (ops, group) => (released ptr ++ ops, group)

/-- The loop of `Maintain` over the free slots of a group, for `passes` passes. -/
def refill (callocs : ℕ → Ptr) : (passes : ℕ) → Group maxItemCount →
    Except Halt (List (Op Block) × Group maxItemCount)
  | 0, group => .ok ([], group)
  | passes + 1, group =>
    match group.push (callocs group.count) with
    | .error halt => .error halt
    | .ok group' =>
      (refill callocs passes group').map fun (ops, group') =>
        (acquired (callocs group.count) ++ ops, group')

/-- As many passes as there are slots empty the group. -/
theorem drain_spec (bounded : group.count ≤ maxItemCount) {passes : ℕ}
    (enough : group.count = passes) :
    ∃ ops group', group.drain passes = .ok (ops, group') ∧ group'.count = 0 ∧
      settle group.blocks ops = some group'.blocks := by
  induction passes generalizing group with
  | zero => exact ⟨[], group, rfl, enough, rfl⟩
  | succ passes ih =>
    rcases reclaimAll_cases bounded with ⟨empty, -⟩ | ⟨ptr, group', taken, popped⟩
    · omega
    · have fewer := popped.count
      have bounded' : group'.count ≤ maxItemCount := by omega
      obtain ⟨ops, last, ran, empty, settled⟩ := ih bounded' (by omega)
      refine ⟨released ptr ++ ops, last, ?_, empty, ?_⟩
      · rw [drain, taken]
        dsimp only
        rw [ran]
        rfl
      · rw [popped.blocks]
        exact settle_trans (settle_released _ ptr) settled

/-- As many passes as there are free slots fill the group. -/
theorem refill_spec (callocs : ℕ → Ptr) {passes : ℕ}
    (room : group.count + passes ≤ maxItemCount) :
    ∃ ops group', group.refill callocs passes = .ok (ops, group') ∧
      group'.count = group.count + passes ∧ settle group.blocks ops = some group'.blocks := by
  induction passes generalizing group with
  | zero => exact ⟨[], group, rfl, rfl, rfl⟩
  | succ passes ih =>
    have free : group.count < maxItemCount := by omega
    obtain ⟨group', pushed, popped⟩ := exists_push free (callocs group.count)
    have more := popped.count
    have room' : group'.count + passes ≤ maxItemCount := by omega
    obtain ⟨ops, last, ran, full, settled⟩ := ih room'
    refine ⟨acquired (callocs group.count) ++ ops, last, ?_, by omega, ?_⟩
    · rw [refill, pushed]
      dsimp only
      rw [ran]
      rfl
    · rw [popped.blocks] at settled
      exact settle_trans (settle_acquired _ _) settled

theorem blocks_of_empty (empty : group.count = 0) : group.blocks = 0 := by
  rw [blocks, slots, empty, List.take_zero, resources_nil]

end Group

namespace Pool

/-- What a call does to group `i`. -/
abbrev Visit : Type :=
  (i : Fin kGroupCount) → Group kGroupMaxItemCount →
    Except Halt (List (Op Block) × Group kGroupMaxItemCount)

/-- A loop over the groups. -/
def eachGroup (visit : Visit) : List (Fin kGroupCount) → Pool → Except Halt (List (Op Block) × Pool)
  | [], pool => .ok ([], pool)
  | i :: rest, pool =>
    match visit i (pool.fGroups i) with
    | .error halt => .error halt
    | .ok (ops, group) =>
      (eachGroup visit rest { pool with fGroups := Function.update pool.fGroups i group }).map
        fun (later, pool) => (ops ++ later, pool)

/-- `fReclaimGroup.ReclaimAll`, and then a loop over all groups. -/
def reclaimThenEach (visit : Visit) (pool : Pool) : Except Halt (List (Op Block) × Pool) :=
  match pool.fReclaimGroup.drain pool.fReclaimGroup.count with
  | .error halt => .error halt
  | .ok (ops, group) =>
    (eachGroup visit (List.finRange kGroupCount) { pool with fReclaimGroup := group }).map
      fun (later, pool) => (ops ++ later, pool)

/-- `Maintain`, where `callocs i n` is what `calloc` returns for slot `n` of group `i`. -/
def maintainUndisturbed (pool : Pool) (callocs : Fin kGroupCount → ℕ → Ptr) :
    Except Halt (List (Op Block) × Pool) :=
  if pool.fLevel > 0 then .ok ([], pool)
  else
    pool.reclaimThenEach fun i group =>
      group.refill (callocs i) (kGroupMaxItemCount - group.count)

/-- `IntrSafePool::ReclaimAll`. -/
def reclaimAllUndisturbed (pool : Pool) : Except Halt (List (Op Block) × Pool) :=
  pool.reclaimThenEach fun _ group => group.drain group.count

/-- The visit brings every group to the same count, and settles. -/
def Visit.Reaches (visit : Visit) (count : ℕ) : Prop :=
  ∀ i group, group.count ≤ kGroupMaxItemCount → ∃ ops group',
    visit i group = .ok (ops, group') ∧ group'.count = count ∧
      settle group.blocks ops = some group'.blocks

variable {pool : Pool} {visit : Visit} {count : ℕ}

/-- A loop over groups that brings each of them to the same count. -/
theorem eachGroup_spec (reaches : visit.Reaches count) (within : count ≤ kGroupMaxItemCount)
    (bounded : ∀ i, (pool.fGroups i).count ≤ kGroupMaxItemCount) (groups : List (Fin kGroupCount))
    (visited : ∀ i ∉ groups, (pool.fGroups i).count = count) :
    ∃ ops pool', eachGroup visit groups pool = .ok (ops, pool') ∧
      pool'.fReclaimGroup = pool.fReclaimGroup ∧ (∀ i, (pool'.fGroups i).count = count) ∧
      settle pool.stock ops = some pool'.stock := by
  -- on the groups to come, for a pool in which the others have their count
  induction groups generalizing pool with
  | nil => exact ⟨[], pool, rfl, rfl, fun i => visited i List.not_mem_nil, rfl⟩
  | cons i rest ih =>
    obtain ⟨ops, group, ran, reached, settled⟩ := reaches i (pool.fGroups i) (bounded i)
    -- the stock is that of the visited group and of the others, which are framed
    obtain ⟨others, held⟩ := exists_stock_update pool i
    have before := held (pool.fGroups i)
    rw [Function.update_eq_self] at before
    have bounded' : ∀ j, (Function.update pool.fGroups i group j).count ≤ kGroupMaxItemCount := by
      intro j
      by_cases same : j = i
      · rw [same, Function.update_self, reached]
        exact within
      · rw [Function.update_of_ne same]
        exact bounded j
    have visited' : ∀ j ∉ rest, (Function.update pool.fGroups i group j).count = count := by
      intro j outside
      by_cases same : j = i
      · rw [same, Function.update_self]
        exact reached
      · rw [Function.update_of_ne same]
        exact visited j (List.mem_cons.not.mpr (not_or.mpr ⟨same, outside⟩))
    obtain ⟨later, pool', ran', reclaim, counts, settled'⟩ :=
      @ih { pool with fGroups := Function.update pool.fGroups i group } bounded' visited'
    refine ⟨ops ++ later, pool', ?_, reclaim, counts, ?_⟩
    · rw [eachGroup, ran]
      dsimp only
      rw [ran']
      rfl
    · rw [held group] at settled'
      rw [before]
      exact settle_trans (settle_frame settled) settled'

theorem reclaimThenEach_spec (reaches : visit.Reaches count) (within : count ≤ kGroupMaxItemCount)
    (bounded : pool.Bounded) :
    ∃ ops pool', pool.reclaimThenEach visit = .ok (ops, pool') ∧
      pool'.fReclaimGroup.count = 0 ∧ (∀ i, (pool'.fGroups i).count = count) ∧
      settle pool.blocks ops = some pool'.blocks := by
  obtain ⟨ops, group, drained, empty, settled⟩ := Group.drain_spec bounded.reclaim rfl
  obtain ⟨later, pool', ran, reclaim, counts, settled'⟩ :=
    @eachGroup_spec { pool with fReclaimGroup := group } visit count reaches within bounded.groups
      (List.finRange kGroupCount) fun i outside => absurd (List.mem_finRange i) outside
  refine ⟨ops ++ later, pool', ?_, ?_, counts, ?_⟩
  · rw [reclaimThenEach, drained]
    dsimp only
    rw [ran]
    rfl
  · rw [reclaim]
    exact empty
  · rw [Group.blocks_of_empty empty] at settled
    -- with the reclaim group empty, the stock is all that the pool holds
    have later : settle pool.stock later = some pool'.blocks := by
      rw [blocks, reclaim, Group.blocks_of_empty empty, add_zero]
      exact settled'
    have first : settle pool.blocks ops = some pool.stock := by
      rw [← add_zero pool.stock]
      exact settle_frame settled
    exact settle_trans first later

/-- `Maintain` settles, whatever `calloc` returns. -/
theorem maintainUndisturbed_spec (bounded : pool.Bounded) (callocs : Fin kGroupCount → ℕ → Ptr) :
    ∃ ops pool', pool.maintainUndisturbed callocs = .ok (ops, pool') ∧ pool'.Bounded ∧
      settle pool.blocks ops = some pool'.blocks := by
  unfold maintainUndisturbed
  split
  · exact ⟨[], pool, rfl, bounded, rfl⟩
  · have reaches : Visit.Reaches
        (fun i group => group.refill (callocs i) (kGroupMaxItemCount - group.count))
        kGroupMaxItemCount := by
      intro i group fits
      have sum : group.count + (kGroupMaxItemCount - group.count) = kGroupMaxItemCount := by omega
      obtain ⟨ops, group', ran, full, settled⟩ := Group.refill_spec (callocs i) sum.le
      exact ⟨ops, group', ran, full.trans sum, settled⟩
    obtain ⟨ops, pool', ran, empty, full, settled⟩ := reclaimThenEach_spec reaches le_rfl bounded
    refine ⟨ops, pool', ran, ⟨fun i => (full i).le, ?_⟩, settled⟩
    rw [empty]
    exact Nat.zero_le _

/-- A pool whose groups are empty holds nothing. -/
theorem blocks_of_empty (reclaim : pool.fReclaimGroup.count = 0)
    (groups : ∀ i, (pool.fGroups i).count = 0) : pool.blocks = 0 := by
  rw [blocks, stock, Group.blocks_of_empty reclaim, add_zero]
  exact Finset.sum_eq_zero fun i _ => Group.blocks_of_empty (groups i)

theorem blocks_default : blocks {} = 0 := blocks_of_empty rfl fun _ => rfl

/-- `ReclaimAll` leaves nothing in the pool. -/
theorem reclaimAllUndisturbed_spec (bounded : pool.Bounded) :
    ∃ ops pool', pool.reclaimAllUndisturbed = .ok (ops, pool') ∧
      settle pool.blocks ops = some 0 := by
  have reaches : Visit.Reaches (fun _ group => group.drain group.count) 0 :=
    fun i group fits => Group.drain_spec fits rfl
  obtain ⟨ops, pool', ran, reclaim, empty, settled⟩ :=
    reclaimThenEach_spec reaches (Nat.zero_le _) bounded
  exact ⟨ops, pool', ran, blocks_of_empty reclaim empty ▸ settled⟩

end Pool

end NvidiaHaiku.IntrSafePool

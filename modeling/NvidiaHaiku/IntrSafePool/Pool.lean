/-
# The interrupt-safe pool

`IntrSafePool` keeps small blocks ready for allocation while interrupts are
disabled. Four groups hold blocks of 16, 32, 64 and 128 bytes; a further group
collects the blocks freed while interrupts are disabled, until `Maintain` can
hand them to `free`.

Every operation runs under `fSpinlock`. `Alloc` and `Free` hold it throughout.
`Maintain` and `ReclaimAll` give it up around each call of `free` and `calloc`,
and other calls run in those windows. The functions here are the stretches of
code between an acquisition and the next release, so each of them is one atomic
step; `Pc` is the point at which a suspended call goes on.
-/

import Mathlib.Algebra.BigOperators.Fin
import Mathlib.Algebra.Order.Group.Multiset
import Mathlib.Data.List.FinRange
import Mathlib.Tactic.Abel
import NvidiaHaiku.Math.Custody

namespace NvidiaHaiku

open NvidiaHaiku.Math

/-- The address of a heap block. -/
abbrev Block := ℕ

/-- A `void *` to a heap block, `none` being `nullptr`. -/
abbrev Ptr := Option Block

/-- What stops the kernel for good. -/
inductive Halt
  /-- `panic("IntrSafePool: overflowed: %u")`, in `Group::ReclaimAll`. -/
  | overflowed (count : ℕ)
  /-- `panic("IntrSafePool: overflow")`, in `Group::Free`. -/
  | overflow
  /-- `panic("IntrSafePool: underflow")`, in `Alloc`. -/
  | underflow
  /-- An access to `items` past its end, which no check of the source catches. -/
  | outOfBounds
  deriving DecidableEq, Repr

namespace IntrSafePool

abbrev kGroupCount : ℕ := 4

def kGroupMaxItemCount : ℕ := 16

def kReclaimMaxItemCount : ℕ := 4096

def kMinSizePow2 : ℕ := 4

def kMinSize : ℕ := 1 <<< kMinSizePow2

/-! ## Groups -/

/-- A stack of at most `maxItemCount` pointers. -/
structure Group (maxItemCount : ℕ) where
  count : ℕ := 0
  items : Vector Ptr maxItemCount := Vector.replicate maxItemCount none

namespace Group

variable {maxItemCount : ℕ}

/-- `count--; ptr = items[count]; items[count] = nullptr;` -/
def pop (group : Group maxItemCount) : Except Halt (Ptr × Group maxItemCount) :=
  if h : group.count - 1 < maxItemCount then
    .ok (group.items[group.count - 1],
      { count := group.count - 1, items := group.items.set (group.count - 1) none h })
  else
    .error .outOfBounds

/-- `items[count] = ptr; count++;`, with no check of its own. -/
def push (group : Group maxItemCount) (ptr : Ptr) : Except Halt (Group maxItemCount) :=
  if h : group.count < maxItemCount then
    .ok { count := group.count + 1, items := group.items.set group.count ptr h }
  else
    .error .outOfBounds

/-- One pass of the loop of `Group::ReclaimAll`, up to the release of the lock:
the pointer to free, or `none` once the group is empty. -/
def reclaimAll (group : Group maxItemCount) : Except Halt (Option (Ptr × Group maxItemCount)) :=
  if group.count > 0 then
    -- the source tests for an overflow here, before the decrement
    if group.count > maxItemCount then .error (.overflowed group.count)
    else group.pop.map some
  else .ok none

/-- `Group::Alloc`. -/
def alloc (group : Group maxItemCount) : Except Halt (Ptr × Group maxItemCount) :=
  if group.count = 0 then .ok (none, group) else group.pop

/-- `Group::Free`. -/
def free (group : Group maxItemCount) (ptr : Ptr) : Except Halt (Group maxItemCount) :=
  if group.count ≥ maxItemCount then .error .overflow else group.push ptr

/-- The pointers in the slots below `count`. -/
def slots (group : Group maxItemCount) : List Ptr := group.items.toList.take group.count

/-- The blocks in the slots below `count`. -/
def blocks (group : Group maxItemCount) : Multiset Block := resources group.slots

/-! ### What the group operations do -/

variable {group group' : Group maxItemCount} {ptr : Ptr}

/-- `group'` is `group` with its top slot removed, which held `ptr`. -/
structure Popped (group : Group maxItemCount) (ptr : Ptr) (group' : Group maxItemCount) :
    Prop where
  count : group'.count + 1 = group.count
  slots : group.slots = group'.slots ++ [ptr]

theorem Popped.blocks (popped : Popped group ptr group') :
    group.blocks = group'.blocks + resources [ptr] := by
  rw [Group.blocks, popped.slots, resources_append]
  rfl

/-- A popped group read backwards: pushing the pointer puts the slot back. -/
theorem exists_pop (nonempty : 0 < group.count) (bounded : group.count ≤ maxItemCount) :
    ∃ ptr group', group.pop = .ok (ptr, group') ∧ Popped group ptr group' := by
  have inside : group.count - 1 < maxItemCount := by omega
  refine ⟨_, _, dif_pos inside, Nat.sub_add_cancel nonempty, ?_⟩
  simp only [slots, Vector.toList_set]
  -- the `nullptr` is written at the new count, which is past the live slots
  rw [List.take_set_of_le (Nat.le_refl _)]
  conv_lhs => rw [← Nat.sub_add_cancel nonempty]
  rw [List.take_add_one, List.getElem?_eq_getElem (by simpa using inside)]
  simp

theorem exists_push (room : group.count < maxItemCount) (ptr : Ptr) :
    ∃ group', group.push ptr = .ok group' ∧ Popped group' ptr group := by
  refine ⟨_, dif_pos room, rfl, ?_⟩
  simp only [slots, Vector.toList_set]
  -- the slots below the old count are untouched, and the one at it becomes live
  rw [List.take_add_one, List.take_set_of_le (Nat.le_refl _), List.getElem?_set_self (by simpa)]
  rfl

theorem reclaimAll_cases (bounded : group.count ≤ maxItemCount) :
    (group.count = 0 ∧ group.reclaimAll = .ok none) ∨
      ∃ ptr group', group.reclaimAll = .ok (some (ptr, group')) ∧ Popped group ptr group' := by
  rcases Nat.eq_zero_or_pos group.count with empty | nonempty
  · exact Or.inl ⟨empty, by simp [reclaimAll, empty]⟩
  · obtain ⟨ptr, group', popped, spec⟩ := exists_pop nonempty bounded
    refine Or.inr ⟨ptr, group', ?_, spec⟩
    simp [reclaimAll, nonempty, Nat.not_lt.mpr bounded, popped, Except.map]

theorem alloc_cases (bounded : group.count ≤ maxItemCount) :
    (group.count = 0 ∧ group.alloc = .ok (none, group)) ∨
      ∃ ptr group', group.alloc = .ok (ptr, group') ∧ Popped group ptr group' := by
  rcases Nat.eq_zero_or_pos group.count with empty | nonempty
  · exact Or.inl ⟨empty, by simp [alloc, empty]⟩
  · obtain ⟨ptr, group', popped, spec⟩ := exists_pop nonempty bounded
    exact Or.inr ⟨ptr, group', by simp [alloc, nonempty.ne', popped], spec⟩

theorem free_cases (group : Group maxItemCount) (ptr : Ptr) :
    (maxItemCount ≤ group.count ∧ group.free ptr = .error .overflow) ∨
      ∃ group', group.free ptr = .ok group' ∧ Popped group' ptr group ∧
        group.count < maxItemCount := by
  rcases Nat.lt_or_ge group.count maxItemCount with room | full
  · obtain ⟨group', pushed, spec⟩ := exists_push room ptr
    exact Or.inr ⟨group', by simp [free, Nat.not_le.mpr room, pushed], spec, room⟩
  · exact Or.inl ⟨full, by simp [free, full]⟩

end Group

/-! ## The pool -/

/-- The fields of `IntrSafePool` but for the lock. -/
structure Pool where
  fGroups : Fin kGroupCount → Group kGroupMaxItemCount := fun _ => {}
  fReclaimGroup : Group kReclaimMaxItemCount := {}
  fLevel : ℤ := 0

/-- A group as `IntrSafePool::ReclaimAll` visits it. -/
inductive GroupRef
  | reclaim
  | group (i : Fin kGroupCount)
  deriving DecidableEq, Repr

/-- Where a call goes on after a release of the lock. -/
inductive Pc
  /-- `Maintain`, inside `Group::ReclaimAll`, before `free(ptr)`. -/
  | maintainFree (ptr : Ptr)
  /-- `Maintain`, inside `Group::ReclaimAll`, after `free`. -/
  | maintainFreed
  /-- `Maintain`, before `calloc(1, size)` for group `i`, with the groups `rest` still to visit. -/
  | maintainCalloc (i : Fin kGroupCount) (rest : List (Fin kGroupCount)) (size : ℕ)
  /-- `Maintain`, after `calloc` returned `ptr`. -/
  | maintainStore (i : Fin kGroupCount) (rest : List (Fin kGroupCount)) (size : ℕ) (ptr : Ptr)
  /-- `IntrSafePool::ReclaimAll`, before `free(ptr)`, with the groups `todo` not yet empty. -/
  | reclaimFree (todo : List GroupRef) (ptr : Ptr)
  /-- `IntrSafePool::ReclaimAll`, after `free`. -/
  | reclaimFreed (todo : List GroupRef)
  deriving DecidableEq, Repr

namespace Pc

/-- The call is a `Maintain` that passed the guard `oldLevel > 0`. -/
def isMaintain : Pc → Bool
  | maintainFree _ | maintainFreed | maintainCalloc .. | maintainStore .. => true
  | reclaimFree .. | reclaimFreed _ => false

/-- The group the call is about to store into. -/
def target : Pc → Option (Fin kGroupCount)
  | maintainCalloc i _ _ | maintainStore i _ _ _ => some i
  | maintainFree _ | maintainFreed | reclaimFree .. | reclaimFreed _ => none

/-- The local `ptr` of the call, while it holds one. -/
def ptr : Pc → Ptr
  | maintainFree ptr | maintainStore _ _ _ ptr | reclaimFree _ ptr => ptr
  | maintainFreed | maintainCalloc .. | reclaimFreed _ => none

/-- The local `ptr` of the call, if it comes straight from `calloc`. -/
def fresh : Pc → Ptr
  | maintainStore _ _ _ ptr => ptr
  | maintainFree _ | maintainFreed | maintainCalloc .. | reclaimFree .. | reclaimFreed _ => none

end Pc

namespace Pool

/-- `while (groupSize < size) { n++; groupSize *= 2; }`, with `size_t` of 64 bits. -/
def sizeClassLoop (size : ℕ) : (fuel n groupSize : ℕ) → Option ℕ
  | 0, _, _ => none
  | fuel + 1, n, groupSize =>
    -- the `bit_width` variant above the loop is compiled out
    if groupSize < size then sizeClassLoop size fuel (n + 1) (groupSize * 2 % 2 ^ 64)
    else some n

/-- The index the size-class loop of `Alloc` ends with, `none` if it does not
end. After 60 doublings `groupSize` is zero and stays so. -/
def sizeClass (size : ℕ) : Option ℕ := sizeClassLoop size 61 0 kMinSize

/-- The loop of `Alloc` over the groups still to try. -/
def allocFrom : List (Fin kGroupCount) → Pool → Except Halt (Ptr × Pool)
  | [], _ => .error .underflow
  | i :: rest, pool =>
    match (pool.fGroups i).alloc with
    | .error halt => .error halt
    | .ok (some block, group) =>
      .ok (some block, { pool with fGroups := Function.update pool.fGroups i group })
    | .ok (none, group) =>
      -- the group is empty, or a failed `calloc` has left a null slot, which is now gone
      allocFrom rest { pool with fGroups := Function.update pool.fGroups i group }

/-- `IntrSafePool::Alloc`; `none` when it never returns. -/
def alloc (pool : Pool) (size : ℕ) : Option (Except Halt (Ptr × Pool)) :=
  (sizeClass size).map fun n =>
    (allocFrom ((List.finRange kGroupCount).drop n)
      { pool with fLevel := pool.fLevel + 1 }).map fun (ptr, pool) =>
        (ptr, { pool with fLevel := pool.fLevel - 1 })

/-- `IntrSafePool::Free`. -/
def free (pool : Pool) (ptr : Ptr) : Except Halt Pool :=
  (pool.fReclaimGroup.free ptr).map fun group =>
    { pool with fReclaimGroup := group, fLevel := pool.fLevel + 1 - 1 }

/-- The refill loops of `Maintain`, from the head of `groups` up to the next
release of the lock. -/
def maintainRefill (pool : Pool) : (groups : List (Fin kGroupCount)) → (size : ℕ) →
    Pool × Option Pc
  | [], _ =>
    -- `ScopeExit` runs at the return, before the lock is released
    ({ pool with fLevel := pool.fLevel - 1 }, none)
  | i :: rest, size =>
    if (pool.fGroups i).count < kGroupMaxItemCount then
      (pool, some (.maintainCalloc i rest size))
    else maintainRefill pool rest (size * 2)

/-- `Maintain` from the loop test of `fReclaimGroup.ReclaimAll` on. -/
def maintainReclaim (pool : Pool) : Except Halt (Pool × Option Pc) :=
  match pool.fReclaimGroup.reclaimAll with
  | .error halt => .error halt
  | .ok (some (ptr, group)) => .ok ({ pool with fReclaimGroup := group }, some (.maintainFree ptr))
  | .ok none => .ok (pool.maintainRefill (List.finRange kGroupCount) kMinSize)

/-- `Maintain` from its first acquisition of the lock on. -/
def maintain (pool : Pool) : Except Halt (Pool × Option Pc) :=
  let oldLevel := pool.fLevel
  let pool := { pool with fLevel := pool.fLevel + 1 }
  -- the increment is undone on the early return as well
  if oldLevel > 0 then .ok ({ pool with fLevel := pool.fLevel - 1 }, none)
  else pool.maintainReclaim

/-- `Maintain` once it holds the lock again after `calloc`. -/
def maintainStore (pool : Pool) (i : Fin kGroupCount) (rest : List (Fin kGroupCount)) (size : ℕ)
    (ptr : Ptr) : Except Halt (Pool × Option Pc) :=
  -- `count` was tested before `calloc` and is not tested again
  ((pool.fGroups i).push ptr).map fun group =>
    { pool with fGroups := Function.update pool.fGroups i group }.maintainRefill (i :: rest) size

/-- One pass of `Group::ReclaimAll` on the group `ref` names. -/
def reclaimGroup (pool : Pool) : GroupRef → Except Halt (Option (Ptr × Pool))
  | .reclaim => pool.fReclaimGroup.reclaimAll.map fun taken =>
      taken.map fun (ptr, group) => (ptr, { pool with fReclaimGroup := group })
  | .group i => (pool.fGroups i).reclaimAll.map fun taken =>
      taken.map fun (ptr, group) =>
        (ptr, { pool with fGroups := Function.update pool.fGroups i group })

/-- The groups in the order `IntrSafePool::ReclaimAll` empties them. -/
def reclaimOrder : List GroupRef := .reclaim :: (List.finRange kGroupCount).map .group

/-- `IntrSafePool::ReclaimAll` from the loop test for the head of `todo` on. -/
def reclaimAll (pool : Pool) : (todo : List GroupRef) → Except Halt (Pool × Option Pc)
  | [] => .ok (pool, none)
  | ref :: rest =>
    match pool.reclaimGroup ref with
    | .error halt => .error halt
    | .ok (some (ptr, pool)) => .ok (pool, some (.reclaimFree (ref :: rest) ptr))
    | .ok none => pool.reclaimAll rest

/-- The stretch of code a call executes once it holds the lock again, `none` if
its next step lies outside the lock. -/
def resume (pool : Pool) : Pc → Option (Except Halt (Pool × Option Pc))
  | .maintainFreed => some pool.maintainReclaim
  | .maintainStore i rest size ptr => some (pool.maintainStore i rest size ptr)
  | .reclaimFreed todo => some (pool.reclaimAll todo)
  | .maintainFree _ | .maintainCalloc .. | .reclaimFree .. => none

/-! ### What the pool operations do -/

/-- No count exceeds the length of its array. -/
structure Bounded (pool : Pool) : Prop where
  groups : ∀ i, (pool.fGroups i).count ≤ kGroupMaxItemCount
  reclaim : pool.fReclaimGroup.count ≤ kReclaimMaxItemCount

/-- The blocks in live slots of `fGroups`, ready for `Alloc`. -/
def stock (pool : Pool) : Multiset Block := ∑ i, (pool.fGroups i).blocks

/-- All blocks in live slots of the pool. -/
def blocks (pool : Pool) : Multiset Block := pool.stock + pool.fReclaimGroup.blocks

/-- The share in `fLevel` of a call that may have returned. -/
def maintaining (call : Option Pc) : ℤ := if call.any Pc.isMaintain then 1 else 0

/-- The group a call that may have returned is about to store into. -/
def target (call : Option Pc) : Option (Fin kGroupCount) := call.bind Pc.target

/-- The local `ptr` of a call that may have returned. -/
def held (call : Option Pc) : Ptr := call.bind Pc.ptr

/-- The local `ptr` of a call that may have returned, if it comes straight from `calloc`. -/
def fresh (call : Option Pc) : Ptr := call.bind Pc.fresh

variable {pool pool' : Pool} {call next : Option Pc} {ptr : Ptr} {i : Fin kGroupCount}

theorem Bounded.update_group (bounded : pool.Bounded) (i : Fin kGroupCount)
    {group : Group kGroupMaxItemCount} (fits : group.count ≤ kGroupMaxItemCount) :
    Bounded { pool with fGroups := Function.update pool.fGroups i group } where
  groups j := by
    rcases eq_or_ne j i with rfl | other
    · simpa using fits
    · simpa [other] using bounded.groups j
  reclaim := bounded.reclaim

theorem update_group_count_le {group : Group kGroupMaxItemCount}
    (fewer : group.count ≤ (pool.fGroups i).count) (j : Fin kGroupCount) :
    (Function.update pool.fGroups i group j).count ≤ (pool.fGroups j).count := by
  rcases eq_or_ne j i with rfl | other
  · simpa using fewer
  · simp [other]

/-- The stock is what group `i` holds and what the others hold. -/
theorem exists_stock_update (pool : Pool) (i : Fin kGroupCount) :
    ∃ others, ∀ group : Group kGroupMaxItemCount,
      { pool with fGroups := Function.update pool.fGroups i group }.stock =
        others + group.blocks := by
  refine ⟨∑ j ∈ Finset.univ.erase i, (pool.fGroups j).blocks, fun group => ?_⟩
  have others : ∑ j ∈ Finset.univ.erase i, (Function.update pool.fGroups i group j).blocks =
      ∑ j ∈ Finset.univ.erase i, (pool.fGroups j).blocks :=
    Finset.sum_congr rfl fun j member => by
      rw [Function.update_of_ne (Finset.ne_of_mem_erase member)]
  calc ∑ j, (Function.update pool.fGroups i group j).blocks
      = ∑ j ∈ Finset.univ.erase i, (Function.update pool.fGroups i group j).blocks +
          (Function.update pool.fGroups i group i).blocks :=
        (Finset.sum_erase_add _ _ (Finset.mem_univ i)).symm
    _ = ∑ j ∈ Finset.univ.erase i, (pool.fGroups j).blocks + group.blocks := by
        rw [others, Function.update_self]

/-- Popping group `i` takes the block of its top slot out of the stock. -/
theorem stock_update_group (pool : Pool) {group : Group kGroupMaxItemCount}
    (popped : (pool.fGroups i).Popped ptr group) :
    pool.stock =
      { pool with fGroups := Function.update pool.fGroups i group }.stock + resources [ptr] := by
  obtain ⟨others, held⟩ := exists_stock_update pool i
  have before := held (pool.fGroups i)
  rw [Function.update_eq_self] at before
  rw [before, held group, popped.blocks, add_assoc]

theorem blocks_update_group (pool : Pool) {group : Group kGroupMaxItemCount}
    (popped : (pool.fGroups i).Popped ptr group) :
    pool.blocks =
      { pool with fGroups := Function.update pool.fGroups i group }.blocks + resources [ptr] := by
  simp only [blocks, stock_update_group _ popped]
  abel

theorem blocks_update_reclaim {group : Group kReclaimMaxItemCount}
    (popped : pool.fReclaimGroup.Popped ptr group) :
    pool.blocks = { pool with fReclaimGroup := group }.blocks + resources [ptr] := by
  simp only [blocks, popped.blocks]
  exact (add_assoc _ _ _).symm

/-- What a stretch of `Maintain` or `ReclaimAll` does between an acquisition of
the lock and the next release, when it takes the call from `call` to `next`. -/
structure Stretch (call : Option Pc) (pool pool' : Pool) (next : Option Pc) : Prop where
  level : pool'.fLevel + maintaining call = pool.fLevel + maintaining next
  bounded : pool'.Bounded
  /-- Only the group the call was about to store into may have grown. -/
  shrinks : ∀ i, target call ≠ some i → (pool'.fGroups i).count ≤ (pool.fGroups i).count
  room : ∀ i, target next = some i → (pool'.fGroups i).count < kGroupMaxItemCount
  blocks : pool.blocks + resources [held call] = pool'.blocks + resources [held next]
  /-- Nothing but a block straight from `calloc` joins the stock. -/
  stock : pool'.stock ≤ pool.stock + resources [fresh call]
  stale : fresh next = none

theorem maintainRefill_spec (bounded : pool.Bounded) (groups : List (Fin kGroupCount))
    (size : ℕ) :
    Stretch (some .maintainFreed) pool (pool.maintainRefill groups size).1
      (pool.maintainRefill groups size).2 := by
  -- the pool does not change until the first group with room, which ends the stretch
  induction groups generalizing size with
  | nil =>
    exact ⟨by simp [maintainRefill, maintaining, Pc.isMaintain], ⟨bounded.groups, bounded.reclaim⟩,
      fun i _ => le_rfl, by simp [maintainRefill, target], rfl, (add_zero pool.stock).ge, rfl⟩
  | cons i rest ih =>
    by_cases room : (pool.fGroups i).count < kGroupMaxItemCount
    · simp only [maintainRefill, if_pos room]
      refine ⟨rfl, bounded, fun i _ => le_rfl, ?_, rfl, (add_zero pool.stock).ge, rfl⟩
      rintro j ⟨⟩
      exact room
    · simpa only [maintainRefill, if_neg room] using ih (size * 2)

theorem maintainReclaim_spec (bounded : pool.Bounded) :
    ∃ pool' next, pool.maintainReclaim = .ok (pool', next) ∧
      Stretch (some .maintainFreed) pool pool' next := by
  rcases Group.reclaimAll_cases bounded.reclaim with ⟨-, done⟩ | ⟨ptr, group, taken, popped⟩
  · exact ⟨_, _, by rw [maintainReclaim, done], maintainRefill_spec bounded _ _⟩
  · have fewer : group.count ≤ kReclaimMaxItemCount := by
      have := popped.count
      have := bounded.reclaim
      omega
    refine ⟨{ pool with fReclaimGroup := group }, some (.maintainFree ptr),
      by rw [maintainReclaim, taken], rfl, ⟨bounded.groups, fewer⟩, fun i _ => le_rfl,
      (fun i stored => nomatch stored), ?_, (add_zero pool.stock).ge, rfl⟩
    exact (add_zero pool.blocks).trans (blocks_update_reclaim popped)

theorem maintain_spec (bounded : pool.Bounded) :
    ∃ pool' next, pool.maintain = .ok (pool', next) ∧ Stretch none pool pool' next ∧
      (0 < pool.fLevel → maintaining next = 0) := by
  by_cases busy : pool.fLevel > 0
  · refine ⟨{ pool with fLevel := pool.fLevel + 1 - 1 }, none, by rw [maintain, if_pos busy],
      ⟨?_, ⟨bounded.groups, bounded.reclaim⟩, fun i _ => le_rfl, (fun i stored => nomatch stored),
        rfl, (add_zero pool.stock).ge, rfl⟩, fun _ => rfl⟩
    simp [maintaining]
  · have entered : { pool with fLevel := pool.fLevel + 1 }.Bounded :=
      ⟨bounded.groups, bounded.reclaim⟩
    obtain ⟨pool', next, ran, stretch⟩ := maintainReclaim_spec entered
    refine ⟨pool', next, by rw [maintain, if_neg busy, ran], ⟨?_, stretch.bounded,
      fun i _ => stretch.shrinks i nofun, stretch.room, stretch.blocks, stretch.stock,
      stretch.stale⟩, fun positive => ?_⟩
    · -- the call past the guard accounts for the increment
      have level := stretch.level
      simp only [maintaining, Pc.isMaintain, Option.any_some, Option.any_none, if_true,
        Bool.false_eq_true, if_false] at level ⊢
      omega
    · exact absurd positive busy

theorem maintainStore_spec (bounded : pool.Bounded)
    (room : (pool.fGroups i).count < kGroupMaxItemCount) (rest : List (Fin kGroupCount))
    (size : ℕ) (ptr : Ptr) :
    ∃ pool' next, pool.maintainStore i rest size ptr = .ok (pool', next) ∧
      Stretch (some (.maintainStore i rest size ptr)) pool pool' next := by
  obtain ⟨group, pushed, popped⟩ := Group.exists_push room ptr
  have stored : { pool with fGroups := Function.update pool.fGroups i group }.Bounded :=
    bounded.update_group i (by rw [← popped.count]; exact room)
  have stretch := maintainRefill_spec stored (i :: rest) size
  -- the stored pool, popped at `i`, is the pool before the store
  have before : (Function.update pool.fGroups i group i).Popped ptr (pool.fGroups i) := by
    simpa using popped
  have unstored := blocks_update_group
    { pool with fGroups := Function.update pool.fGroups i group } before
  have unstocked := stock_update_group
    { pool with fGroups := Function.update pool.fGroups i group } before
  simp only [Function.update_idem, Function.update_eq_self] at unstored unstocked
  refine ⟨_, _, by rw [maintainStore, pushed]; rfl, stretch.level, stretch.bounded,
    fun j other => ?_, stretch.room, ?_, ?_, stretch.stale⟩
  · -- only group `i` has grown
    have different : j ≠ i := fun same => other (by rw [same]; rfl)
    exact (stretch.shrinks j nofun).trans (by simp [different])
  · rw [← stretch.blocks, unstored]
    exact (add_zero _).symm
  · exact stretch.stock.trans (by rw [unstocked]; exact (add_zero _).le)

theorem reclaimGroup_cases (bounded : pool.Bounded) (ref : GroupRef) :
    pool.reclaimGroup ref = .ok none ∨
      ∃ ptr pool', pool.reclaimGroup ref = .ok (some (ptr, pool')) ∧ pool'.fLevel = pool.fLevel ∧
        pool'.Bounded ∧ (∀ i, (pool'.fGroups i).count ≤ (pool.fGroups i).count) ∧
        pool.blocks = pool'.blocks + resources [ptr] ∧ pool'.stock ≤ pool.stock := by
  cases ref with
  | reclaim =>
    rcases Group.reclaimAll_cases bounded.reclaim with ⟨-, done⟩ | ⟨ptr, group, taken, popped⟩
    · exact Or.inl (by rw [reclaimGroup, done]; rfl)
    · have fewer : group.count ≤ kReclaimMaxItemCount := by
        have := popped.count
        have := bounded.reclaim
        omega
      -- one block leaves the reclaim group, and the stock of the other groups stays
      exact Or.inr ⟨ptr, { pool with fReclaimGroup := group }, by rw [reclaimGroup, taken]; rfl,
        rfl, ⟨bounded.groups, fewer⟩, fun i => le_rfl, blocks_update_reclaim popped,
        le_rfl⟩
  | group i =>
    rcases Group.reclaimAll_cases (bounded.groups i) with ⟨-, done⟩ | ⟨ptr, group, taken, popped⟩
    · exact Or.inl (by rw [reclaimGroup, done]; rfl)
    · have fewer : group.count ≤ (pool.fGroups i).count := by
        rw [← popped.count]
        exact Nat.le_succ _
      exact Or.inr ⟨ptr, { pool with fGroups := Function.update pool.fGroups i group },
        by rw [reclaimGroup, taken]; rfl, rfl,
        bounded.update_group i (fewer.trans (bounded.groups i)), update_group_count_le fewer,
        blocks_update_group _ popped, (le_add_of_nonneg_right (Multiset.zero_le _)).trans
          (stock_update_group _ popped).ge⟩

theorem reclaimAll_spec (bounded : pool.Bounded) (todo : List GroupRef) :
    ∃ pool' next, pool.reclaimAll todo = .ok (pool', next) ∧ Stretch none pool pool' next ∧
      maintaining next = 0 ∧ target next = none := by
  -- empty groups are passed over, and the first block found ends the stretch
  induction todo with
  | nil =>
    exact ⟨pool, none, rfl, ⟨rfl, bounded, fun i _ => le_rfl, (fun i stored => nomatch stored), rfl,
      (add_zero pool.stock).ge, rfl⟩, rfl, rfl⟩
  | cons ref rest ih =>
    rcases reclaimGroup_cases bounded ref with
      done | ⟨ptr, pool', taken, level, fits, fewer, moved, stock⟩
    · simpa only [reclaimAll, done] using ih
    · refine ⟨pool', some (.reclaimFree (ref :: rest) ptr), by rw [reclaimAll, taken], ⟨?_, fits,
        fun i _ => fewer i, (fun i stored => nomatch stored), ?_, stock.trans (add_zero _).ge, rfl⟩,
        rfl, rfl⟩
      · rw [level]
        rfl
      · exact (add_zero pool.blocks).trans moved

/-- Whatever a call executes once it holds the lock again, it neither panics nor
leaves an array, provided the group it stores into has room. -/
theorem resume_spec (bounded : pool.Bounded) {pc : Pc}
    (room : ∀ i ∈ pc.target, (pool.fGroups i).count < kGroupMaxItemCount)
    {outcome : Except Halt (Pool × Option Pc)} (resumed : pool.resume pc = some outcome) :
    ∃ pool' next, outcome = .ok (pool', next) ∧ Stretch (some pc) pool pool' next ∧
      (pc.isMaintain = false → maintaining next = 0) := by
  cases pc with
  | maintainFreed =>
    obtain ⟨pool', next, ran, stretch⟩ := maintainReclaim_spec bounded
    exact ⟨pool', next, by rw [← Option.some.inj resumed, ran], stretch, nofun⟩
  | maintainStore i rest size ptr =>
    obtain ⟨pool', next, ran, stretch⟩ := maintainStore_spec bounded (room i rfl) rest size ptr
    exact ⟨pool', next, by rw [← Option.some.inj resumed, ran], stretch, nofun⟩
  | reclaimFreed todo =>
    obtain ⟨pool', next, ran, stretch, idle, -⟩ := reclaimAll_spec bounded todo
    exact ⟨pool', next, by rw [← Option.some.inj resumed, ran],
      ⟨stretch.level, stretch.bounded, fun i _ => stretch.shrinks i nofun, stretch.room,
        stretch.blocks, stretch.stock, stretch.stale⟩, fun _ => idle⟩
  | maintainFree _ | maintainCalloc _ _ _ | reclaimFree _ _ => exact nomatch resumed

theorem allocFrom_cases (bounded : pool.Bounded) (groups : List (Fin kGroupCount)) :
    allocFrom groups pool = .error .underflow ∨
      ∃ block pool', allocFrom groups pool = .ok (some block, pool') ∧
        pool'.fLevel = pool.fLevel ∧ pool'.Bounded ∧
        pool'.fReclaimGroup = pool.fReclaimGroup ∧
        (∀ i, (pool'.fGroups i).count ≤ (pool.fGroups i).count) ∧
        pool.stock = pool'.stock + resources [some block] := by
  induction groups generalizing pool with
  | nil => exact Or.inl rfl
  | cons i rest ih =>
    rcases Group.alloc_cases (bounded.groups i) with ⟨-, empty⟩ | ⟨ptr, group, taken, popped⟩
    · have same :
          { pool with fGroups := Function.update pool.fGroups i (pool.fGroups i) } = pool := by
        rw [Function.update_eq_self]
      simpa only [allocFrom, empty, same] using ih bounded
    · have fewer : group.count ≤ (pool.fGroups i).count := by
        rw [← popped.count]
        exact Nat.le_succ _
      have fits := bounded.update_group i (fewer.trans (bounded.groups i))
      have moved := stock_update_group _ popped
      cases ptr with
      | some block =>
        exact Or.inr ⟨block, { pool with fGroups := Function.update pool.fGroups i group },
          by rw [allocFrom, taken], rfl, fits, rfl, update_group_count_le fewer, moved⟩
      | none =>
        -- a null slot holds no block, so the search goes on with the same stock
        rcases ih fits with underflow | ⟨block, pool', found, level, fits', reclaim, fewer', moved'⟩
        · exact Or.inl (by rw [allocFrom, taken]; exact underflow)
        · refine Or.inr ⟨block, pool', by rw [allocFrom, taken]; exact found, level, fits', reclaim,
            fun j => (fewer' j).trans (update_group_count_le fewer j), ?_⟩
          rw [moved, resources_none, add_zero, moved']

variable {size : ℕ} {halt : Halt}

theorem alloc_cases (bounded : pool.Bounded)
    {outcome : Except Halt (Ptr × Pool)} (returned : pool.alloc size = some outcome) :
    outcome = .error .underflow ∨
      ∃ block pool', outcome = .ok (some block, pool') ∧
        pool'.fLevel = pool.fLevel ∧ pool'.Bounded ∧
        pool'.fReclaimGroup = pool.fReclaimGroup ∧
        (∀ i, (pool'.fGroups i).count ≤ (pool.fGroups i).count) ∧
        pool.stock = pool'.stock + resources [some block] := by
  obtain ⟨n, -, rfl⟩ := Option.map_eq_some_iff.mp returned
  have entered : { pool with fLevel := pool.fLevel + 1 }.Bounded :=
    ⟨bounded.groups, bounded.reclaim⟩
  rcases allocFrom_cases entered ((List.finRange kGroupCount).drop n) with
    underflow | ⟨block, pool', found, level, fits, reclaim, fewer, moved⟩
  · exact Or.inl (by rw [underflow]; rfl)
  · refine Or.inr ⟨block, { pool' with fLevel := pool'.fLevel - 1 }, by rw [found]; rfl, ?_,
      ⟨fits.groups, fits.reclaim⟩, reclaim, fewer, moved⟩
    show pool'.fLevel - 1 = pool.fLevel
    rw [level]
    exact add_sub_cancel_right _ _

/-- `Alloc` only panics on an underflow. -/
theorem underflow_of_alloc (bounded : pool.Bounded)
    (returned : pool.alloc size = some (.error halt)) : halt = .underflow := by
  rcases alloc_cases bounded returned with underflow | ⟨block, pool', found, -⟩
  · exact Except.error.inj underflow
  · cases found

/-- `Alloc` takes a block from the groups. -/
theorem alloc_spec (bounded : pool.Bounded)
    (returned : pool.alloc size = some (.ok (ptr, pool'))) :
    ∃ block, ptr = some block ∧ pool'.fLevel = pool.fLevel ∧ pool'.Bounded ∧
      pool'.fReclaimGroup = pool.fReclaimGroup ∧
      (∀ i, (pool'.fGroups i).count ≤ (pool.fGroups i).count) ∧
      pool.stock = pool'.stock + resources [some block] := by
  rcases alloc_cases bounded returned with underflow | ⟨block, found, same, spec⟩
  · cases underflow
  · obtain ⟨rfl, rfl⟩ := Prod.mk.inj (Except.ok.inj same)
    exact ⟨block, rfl, spec⟩

theorem free_cases (bounded : pool.Bounded) (ptr : Ptr) :
    pool.free ptr = .error .overflow ∨
      ∃ pool', pool.free ptr = .ok pool' ∧ pool'.fLevel = pool.fLevel ∧ pool'.Bounded ∧
        pool'.fGroups = pool.fGroups ∧ pool.blocks + resources [ptr] = pool'.blocks := by
  rcases Group.free_cases pool.fReclaimGroup ptr with
    ⟨-, full⟩ | ⟨group, stored, popped, room⟩
  · exact Or.inl (by rw [free, full]; rfl)
  · refine Or.inr ⟨{ pool with fReclaimGroup := group, fLevel := pool.fLevel + 1 - 1 },
      by rw [free, stored]; rfl, add_sub_cancel_right _ _, ⟨bounded.groups, ?_⟩, rfl, ?_⟩
    · show group.count ≤ kReclaimMaxItemCount
      rw [← popped.count]
      exact room
    · simp only [blocks, popped.blocks]
      exact add_assoc _ _ _

/-- `Free` only panics on an overflow. -/
theorem overflow_of_free (bounded : pool.Bounded) (returned : pool.free ptr = .error halt) :
    halt = .overflow := by
  rcases free_cases bounded ptr with full | ⟨pool', stored, -⟩
  · exact Except.error.inj (returned.symm.trans full)
  · cases returned.symm.trans stored

/-- `Free` puts the block into `fReclaimGroup`. -/
theorem free_spec (bounded : pool.Bounded) (returned : pool.free ptr = .ok pool') :
    pool'.fLevel = pool.fLevel ∧ pool'.Bounded ∧ pool'.fGroups = pool.fGroups ∧
      pool.blocks + resources [ptr] = pool'.blocks := by
  rcases free_cases bounded ptr with full | ⟨found, stored, spec⟩
  · cases returned.symm.trans full
  · obtain rfl := Except.ok.inj (returned.symm.trans stored)
    exact spec

end Pool

end IntrSafePool

end NvidiaHaiku

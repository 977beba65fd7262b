/-
# The size of what is allocated

`Alloc` doubles a size from `kMinSize` on until it is large enough, and takes the top of the
first group from there on that has a block. `Maintain` doubles the size that it passes to
`calloc` from one group to the next. The two agree, so the blocks of group `i` have
`kMinSize * 2 ^ i` bytes, whatever else has happened.

A failed `calloc` leaves a null slot. `Alloc` drops it and looks at the next group, although
there may be blocks below it.
-/

import Mathlib.Order.Bounds.Basic
import NvidiaHaiku.IntrSafePool.Custody

namespace NvidiaHaiku.IntrSafePool

open NvidiaHaiku.Math TransitionSystem

/-- The size of the blocks of a group. -/
def groupSize (i : ℕ) : ℕ := kMinSize * 2 ^ i

/-! ## The size class -/

section SizeClass

variable {size n fuel : ℕ}

theorem groupSize_eq (i : ℕ) : groupSize i = 2 ^ (i + 4) := by
  rw [groupSize, Nat.pow_add, Nat.mul_comm]
  rfl

theorem groupSize_succ (i : ℕ) : groupSize (i + 1) = groupSize i * 2 := by
  rw [groupSize, groupSize, Nat.pow_succ, Nat.mul_assoc]

theorem groupSize_le_groupSize {i j : ℕ} : groupSize i ≤ groupSize j ↔ i ≤ j := by
  rw [groupSize_eq, groupSize_eq, Nat.pow_le_pow_iff_right (by decide)]
  omega

theorem groupSize_le {i : ℕ} (early : i < 60) : groupSize i ≤ 2 ^ 63 :=
  groupSize_le_groupSize.mpr (Nat.le_of_lt_succ early)

/-- The size in the loop, as a `size_t`. From 60 on it is zero. -/
theorem groupSize_mod (i : ℕ) :
    (i < 60 → groupSize i % 2 ^ 64 = groupSize i) ∧ groupSize i % 2 ^ 64 ≤ 2 ^ 63 := by
  rcases Nat.lt_or_ge i 60 with early | late
  · have same : groupSize i % 2 ^ 64 = groupSize i :=
      Nat.mod_eq_of_lt ((groupSize_le early).trans_lt (by decide))
    exact ⟨fun _ => same, same.trans_le (groupSize_le early)⟩
  · have zero : groupSize i % 2 ^ 64 = 0 := by
      rw [groupSize_eq]
      exact Nat.mod_eq_zero_of_dvd (Nat.pow_dvd_pow 2 (by omega))
    exact ⟨fun early => absurd early (not_lt.mpr late), zero.trans_le (Nat.zero_le _)⟩

theorem sizeClassLoop_step (size fuel n : ℕ) :
    Pool.sizeClassLoop size (fuel + 1) n (groupSize n % 2 ^ 64) =
      if groupSize n % 2 ^ 64 < size then
        Pool.sizeClassLoop size fuel (n + 1) (groupSize (n + 1) % 2 ^ 64)
      else some n := by
  rw [Pool.sizeClassLoop, Nat.mod_mul_mod, groupSize_succ]

/-- Class 59 is large enough. -/
theorem lt_of_below (below : ∀ k < n, groupSize k < size) (small : size ≤ 2 ^ 63) : n < 60 := by
  by_contra late
  have last : groupSize 59 = 2 ^ 63 := rfl
  exact absurd (last ▸ below 59 (by omega)) (not_lt.mpr small)

/-- The loop passes the sizes that are too small, and ends with the first one that is not. -/
theorem sizeClassLoop_spec (below : ∀ k < n, groupSize k < size) (started : n + fuel = 61)
    (small : size ≤ 2 ^ 63) :
    ∃ m, Pool.sizeClassLoop size fuel n (groupSize n % 2 ^ 64) = some m ∧
      IsLeast {k | size ≤ groupSize k} m := by
  have early := lt_of_below below small
  induction fuel generalizing n with
  | zero => omega
  | succ fuel ih =>
    rw [sizeClassLoop_step, (groupSize_mod n).1 early]
    split
    · rename_i less
      have below' : ∀ k < n + 1, groupSize k < size := by
        intro k earlier
        rcases Nat.lt_succ_iff_lt_or_eq.mp earlier with earlier | rfl
        · exact below k earlier
        · exact less
      exact ih below' (by omega) (lt_of_below below' small)
    · rename_i enough
      refine ⟨n, rfl, not_lt.mp enough, fun k fits => ?_⟩
      by_contra earlier
      exact absurd (below k (not_le.mp earlier)) (not_lt.mpr fits)

/-- The loop does not end for a size beyond all `size_t` powers of two. -/
theorem sizeClassLoop_eq_none (large : 2 ^ 63 < size) (fuel n : ℕ) :
    Pool.sizeClassLoop size fuel n (groupSize n % 2 ^ 64) = none := by
  induction fuel generalizing n with
  | zero => rfl
  | succ fuel ih =>
    rw [sizeClassLoop_step, if_pos ((groupSize_mod n).2.trans_lt large)]
    exact ih (n + 1)

theorem sizeClass_spec (small : size ≤ 2 ^ 63) :
    ∃ n, Pool.sizeClass size = some n ∧ IsLeast {k | size ≤ groupSize k} n :=
  sizeClassLoop_spec (fun k none => absurd none (Nat.not_lt_zero k)) rfl small

/-- `Alloc` returns for the sizes up to 2 ^ 63. -/
theorem sizeClass_isSome_iff : (Pool.sizeClass size).isSome = true ↔ size ≤ 2 ^ 63 := by
  constructor
  · intro ends
    by_contra large
    have endless : Pool.sizeClass size = none := sizeClassLoop_eq_none (not_le.mp large) 61 0
    simp [endless] at ends
  · intro small
    obtain ⟨n, ends, -⟩ := sizeClass_spec small
    simp [ends]

end SizeClass

/-! ## What is taken -/

namespace Group

variable {maxItemCount : ℕ} {group group' : Group maxItemCount} {ptr : Ptr} {block : Block}

/-- The top slot, if there is one. -/
def top (group : Group maxItemCount) : Option Ptr := group.slots.getLast?

/-- The group is not empty, and its top slot is not null. -/
def Usable (group : Group maxItemCount) : Prop := ∃ block, group.top = some (some block)

/-- The group loses its top slot at most, and that is null. -/
def Skipped (group group' : Group maxItemCount) : Prop :=
  group' = group ∨ group.Popped none group'

theorem Popped.top (popped : group.Popped ptr group') : group.top = some ptr := by
  rw [Group.top, popped.slots, List.getLast?_concat]

theorem top_of_empty (empty : group.count = 0) : group.top = none := by
  rw [Group.top, slots, empty, List.take_zero, List.getLast?_nil]

theorem Popped.mem_blocks (popped : group.Popped ptr group') :
    block ∈ group.blocks ↔ block ∈ group'.blocks ∨ ptr = some block := by
  rw [popped.blocks, Multiset.mem_add]
  cases ptr <;> simp [eq_comm]

theorem Skipped.count_le (skipped : group.Skipped group') : group'.count ≤ group.count := by
  rcases skipped with rfl | popped
  · exact le_rfl
  · exact popped.count ▸ Nat.le_succ _

/-- What `Alloc` does to one group. -/
theorem alloc_usable (bounded : group.count ≤ maxItemCount) :
    (∃ group', group.alloc = .ok (none, group') ∧ ¬ group.Usable ∧ group.Skipped group') ∨
      ∃ block group', group.alloc = .ok (some block, group') ∧ group.Usable ∧
        group.Popped (some block) group' := by
  rcases alloc_cases bounded with ⟨empty, taken⟩ | ⟨ptr, group', taken, popped⟩
  · refine Or.inl ⟨group, taken, ?_, Or.inl rfl⟩
    rintro ⟨block, top⟩
    simp [top_of_empty empty] at top
  · cases ptr with
    | none =>
      refine Or.inl ⟨group', taken, ?_, Or.inr popped⟩
      rintro ⟨block, top⟩
      simp [popped.top] at top
    | some block => exact Or.inr ⟨block, group', taken, ⟨block, popped.top⟩, popped⟩

end Group

variable {pool pool' : Pool} {i : Fin kGroupCount} {block : Block} {size n : ℕ}

/-- What `Alloc` does when it takes the top of group `i`, the lowest that it can use of those
that it may. -/
structure Taken (may : Fin kGroupCount → Prop) (pool pool' : Pool) (i : Fin kGroupCount)
    (block : Block) : Prop where
  popped : (pool.fGroups i).Popped (some block) (pool'.fGroups i)
  allowed : may i
  skipped : ∀ j, may j → j < i →
    ¬ (pool.fGroups j).Usable ∧ (pool.fGroups j).Skipped (pool'.fGroups j)
  others : ∀ j, ¬ may j ∨ i < j → pool'.fGroups j = pool.fGroups j
  reclaim : pool'.fReclaimGroup = pool.fReclaimGroup

section Search

variable {rest : List (Fin kGroupCount)} {k : Fin kGroupCount} {group : Group kGroupMaxItemCount}

/-- The first group is usable. -/
theorem taken_head (after : ∀ j ∈ rest, i < j)
    (popped : (pool.fGroups i).Popped (some block) group) :
    Taken (· ∈ i :: rest) pool { pool with fGroups := Function.update pool.fGroups i group } i
      block := by
  refine ⟨by simpa using popped, List.mem_cons_self, ?_, ?_, rfl⟩
  · intro j member before
    rcases List.mem_cons.mp member with rfl | member
    · exact absurd before (lt_irrefl j)
    · exact absurd before (not_lt.mpr (after j member).le)
  · intro j outside
    have different : j ≠ i := by
      rintro rfl
      exact outside.elim (fun none => none List.mem_cons_self) (lt_irrefl j)
    simp [different]

/-- The first group has lost its null slot, and the search has gone on behind it. -/
theorem Taken.cons (after : ∀ j ∈ rest, i < j) (unusable : ¬ (pool.fGroups i).Usable)
    (skipped : (pool.fGroups i).Skipped group)
    (inner : Taken (· ∈ rest) { pool with fGroups := Function.update pool.fGroups i group } pool' k
      block) :
    Taken (· ∈ i :: rest) pool pool' k block := by
  have same : ∀ j, j ≠ i → Function.update pool.fGroups i group j = pool.fGroups j :=
    fun j different => Function.update_of_ne different _ _
  have later : ∀ j ∈ rest, j ≠ i := fun j member => (after j member).ne'
  have before : i < k := after k inner.allowed
  refine ⟨same k before.ne' ▸ inner.popped, List.mem_cons_of_mem _ inner.allowed, ?_, ?_,
    inner.reclaim⟩
  · intro j member earlier
    rcases List.mem_cons.mp member with rfl | member
    · -- the groups behind do not include the first one, so it stays without its null slot
      have kept := inner.others j (Or.inl fun member => later j member rfl)
      refine ⟨unusable, ?_⟩
      rw [kept]
      simpa using skipped
    · exact same j (later j member) ▸ inner.skipped j member earlier
  · intro j outside
    have different : j ≠ i := by
      rintro rfl
      exact outside.elim (fun none => none List.mem_cons_self) fun above => lt_asymm before above
    rw [← same j different]
    exact inner.others j (outside.imp_left fun none member => none (List.mem_cons_of_mem _ member))

/-- The search takes the first usable group of a list in ascending order. -/
theorem allocFrom_taken (bounded : pool.Bounded) {groups : List (Fin kGroupCount)}
    (ascending : groups.Pairwise (· < ·)) :
    Pool.allocFrom groups pool = .error .underflow ∧ (∀ j ∈ groups, ¬ (pool.fGroups j).Usable) ∨
      ∃ block pool' i, Pool.allocFrom groups pool = .ok (some block, pool') ∧
        (pool.fGroups i).Usable ∧ Taken (· ∈ groups) pool pool' i block := by
  induction groups generalizing pool with
  | nil => exact Or.inl ⟨rfl, by simp⟩
  | cons i rest ih =>
    obtain ⟨after, ascending⟩ := List.pairwise_cons.mp ascending
    have same : ∀ group, ∀ j ∈ rest, Function.update pool.fGroups i group j = pool.fGroups j :=
      fun group j member => Function.update_of_ne (after j member).ne' _ _
    -- a group without a usable block may still hold a null, which is dropped
    rcases Group.alloc_usable (bounded.groups i) with
      ⟨group, taken, unusable, skipped⟩ | ⟨block, group, taken, usable, popped⟩
    · -- the search goes on without the null slot
      have fits := bounded.update_group i (skipped.count_le.trans (bounded.groups i))
      rcases ih fits ascending with
        ⟨underflow, none⟩ | ⟨block, pool', k, found, usable, inner⟩
      · refine Or.inl ⟨by rw [Pool.allocFrom, taken]; exact underflow, fun j member => ?_⟩
        rcases List.mem_cons.mp member with rfl | member
        · exact unusable
        · exact same group j member ▸ none j member
      · refine Or.inr ⟨block, pool', k, by rw [Pool.allocFrom, taken]; exact found,
          same group k inner.allowed ▸ usable, inner.cons after unusable skipped⟩
    · exact Or.inr ⟨block, _, i, by rw [Pool.allocFrom, taken], usable, taken_head after popped⟩

end Search

theorem Taken.mem_of_mem {may : Fin kGroupCount → Prop} (taken : Taken may pool pool' i block)
    {j : Fin kGroupCount} {other : Block} (member : other ∈ (pool'.fGroups j).blocks) :
    other ∈ (pool.fGroups j).blocks := by
  rcases lt_trichotomy j i with before | rfl | behind
  · by_cases allowed : may j
    · rcases (taken.skipped j allowed before).2 with same | popped
      · exact same ▸ member
      · exact popped.mem_blocks.mpr (Or.inl member)
    · exact taken.others j (Or.inl allowed) ▸ member
  · exact taken.popped.mem_blocks.mpr (Or.inl member)
  · exact taken.others j (Or.inr behind) ▸ member

theorem mem_drop_finRange {k : ℕ} {j : Fin k} : j ∈ (List.finRange k).drop n ↔ n ≤ j := by
  rw [List.mem_drop_iff_getElem]
  constructor
  · rintro ⟨i, inside, rfl⟩
    simp
  · intro le
    exact ⟨j - n, by simp; omega, Fin.ext (by simp; omega)⟩

theorem alloc_taken (bounded : pool.Bounded) (ends : Pool.sizeClass size = some n) :
    pool.alloc size = some (.error .underflow) ∧
        (∀ j : Fin kGroupCount, n ≤ j → ¬ (pool.fGroups j).Usable) ∨
      ∃ block pool' i, pool.alloc size = some (.ok (some block, pool')) ∧
        (pool.fGroups i).Usable ∧ Taken (n ≤ ·.val) pool pool' i block := by
  have entered : { pool with fLevel := pool.fLevel + 1 }.Bounded :=
    ⟨bounded.groups, bounded.reclaim⟩
  have ascending : ((List.finRange kGroupCount).drop n).Pairwise (· < ·) :=
    (List.pairwise_lt_finRange kGroupCount).sublist (List.drop_sublist n _)
  have above : (· ∈ (List.finRange kGroupCount).drop n) = (n ≤ ·.val) :=
    funext fun j => propext mem_drop_finRange
  rcases allocFrom_taken entered ascending with
    ⟨underflow, none⟩ | ⟨block, pool', i, found, usable, taken⟩
  · refine Or.inl ⟨?_, fun j above => none j (mem_drop_finRange.mpr above)⟩
    rw [Pool.alloc, ends, Option.map_some, underflow]
    rfl
  · rw [above] at taken
    refine Or.inr ⟨block, { pool' with fLevel := pool'.fLevel - 1 }, i, ?_, usable,
      taken.popped, taken.allowed, taken.skipped, taken.others, taken.reclaim⟩
    rw [Pool.alloc, ends, Option.map_some, found]
    rfl

/-! ## Where the blocks come from -/

/-- The sizes of the groups still to be filled, from the given one on. -/
def SizesMatch : List (Fin kGroupCount) → ℕ → Prop
  | [], _ => True
  | i :: rest, size => size = groupSize i ∧ SizesMatch rest (size * 2)

/-- The call fills group `i` with blocks of its size, and a block that it stores there has the
property `Q i`. -/
def Pc.Fits (Q : Fin kGroupCount → Block → Prop) : Pc → Prop
  | maintainCalloc i rest size => SizesMatch (i :: rest) size
  | maintainStore i rest size ptr => SizesMatch (i :: rest) size ∧ ∀ block ∈ ptr, Q i block
  | maintainFree _ | maintainFreed | reclaimFree .. | reclaimFreed _ => True

/-- The blocks of group `i` have the property `Q i`. -/
def Pool.Filed (Q : Fin kGroupCount → Block → Prop) (pool : Pool) : Prop :=
  ∀ i, ∀ block ∈ (pool.fGroups i).blocks, Q i block

/-- The blocks have the property of their group, in the pool and in the calls that fill it. -/
structure Filed (Q : Fin kGroupCount → Block → Prop) (s : State) : Prop where
  pool : s.pool.Filed Q
  calls : ∀ pc ∈ s.calls, pc.Fits Q

variable {Q Q' : Fin kGroupCount → Block → Prop} {next : Option Pc} {pc : Pc} {s t : State}
  {a : Action}

namespace Pool

theorem maintainRefill_filed (filed : pool.Filed Q) {groups : List (Fin kGroupCount)} {size : ℕ}
    (sizes : SizesMatch groups size) :
    (pool.maintainRefill groups size).1.Filed Q ∧
      ∀ pc ∈ (pool.maintainRefill groups size).2, pc.Fits Q := by
  induction groups generalizing size with
  | nil => exact ⟨filed, by simp [maintainRefill]⟩
  | cons i rest ih =>
    by_cases room : (pool.fGroups i).count < kGroupMaxItemCount
    · simp only [maintainRefill, if_pos room]
      refine ⟨filed, ?_⟩
      rintro pc ⟨⟩
      exact sizes
    · simp only [maintainRefill, if_neg room]
      exact ih sizes.2

theorem maintainReclaim_filed (filed : pool.Filed Q)
    (ran : pool.maintainReclaim = .ok (pool', next)) : pool'.Filed Q ∧ ∀ pc ∈ next, pc.Fits Q := by
  unfold maintainReclaim at ran
  split at ran
  · simp at ran
  · obtain ⟨rfl, rfl⟩ := Prod.mk.inj (Except.ok.inj ran)
    refine ⟨filed, ?_⟩
    rintro pc ⟨⟩
    trivial
  · have sizes : SizesMatch (List.finRange kGroupCount) kMinSize :=
      ⟨rfl, rfl, rfl, rfl, trivial⟩
    have refilled := maintainRefill_filed filed sizes
    rwa [Except.ok.inj ran] at refilled

theorem maintain_filed (filed : pool.Filed Q) (ran : pool.maintain = .ok (pool', next)) :
    pool'.Filed Q ∧ ∀ pc ∈ next, pc.Fits Q := by
  unfold maintain at ran
  dsimp only at ran
  split at ran
  · obtain ⟨rfl, rfl⟩ := Prod.mk.inj (Except.ok.inj ran)
    exact ⟨filed, by simp⟩
  · have counted : Filed Q { pool with fLevel := pool.fLevel + 1 } := filed
    exact maintainReclaim_filed counted ran

theorem Filed.update {group : Group kGroupMaxItemCount} (filed : pool.Filed Q)
    (stored : ∀ block ∈ group.blocks, block ∈ (pool.fGroups i).blocks ∨ Q i block) :
    Filed Q { pool with fGroups := Function.update pool.fGroups i group } := by
  intro j block member
  rcases eq_or_ne j i with rfl | other
  · simp only [Function.update_self] at member
    exact (stored block member).elim (filed j block) id
  · simp only [Function.update_of_ne other] at member
    exact filed j block member

theorem maintainStore_filed (filed : pool.Filed Q)
    (room : (pool.fGroups i).count < kGroupMaxItemCount) {rest : List (Fin kGroupCount)} {size : ℕ}
    {ptr : Ptr} (fits : (Pc.maintainStore i rest size ptr).Fits Q)
    (ran : pool.maintainStore i rest size ptr = .ok (pool', next)) :
    pool'.Filed Q ∧ ∀ pc ∈ next, pc.Fits Q := by
  obtain ⟨group, pushed, popped⟩ := Group.exists_push room ptr
  rw [maintainStore, pushed] at ran
  have stored : Filed Q { pool with fGroups := Function.update pool.fGroups i group } :=
    filed.update fun block member => (popped.mem_blocks.mp member).imp_right (fits.2 block)
  have refilled := maintainRefill_filed stored fits.1
  rwa [show maintainRefill _ (i :: rest) size = (pool', next) from Except.ok.inj ran] at refilled

theorem reclaimGroup_filed (bounded : pool.Bounded) (filed : pool.Filed Q) {ref : GroupRef}
    {ptr : Ptr} (ran : pool.reclaimGroup ref = .ok (some (ptr, pool'))) : pool'.Filed Q := by
  cases ref with
  | reclaim =>
    rcases Group.reclaimAll_cases bounded.reclaim with ⟨-, done⟩ | ⟨ptr, group, taken, -⟩
    · simp [reclaimGroup, done, Except.map] at ran
    · rw [reclaimGroup, taken] at ran
      obtain ⟨-, rfl⟩ := Prod.mk.inj (Option.some.inj (Except.ok.inj ran))
      exact filed
  | group i =>
    rcases Group.reclaimAll_cases (bounded.groups i) with ⟨-, done⟩ | ⟨ptr, group, taken, popped⟩
    · simp [reclaimGroup, done, Except.map] at ran
    · rw [reclaimGroup, taken] at ran
      obtain ⟨-, rfl⟩ := Prod.mk.inj (Option.some.inj (Except.ok.inj ran))
      exact filed.update fun block member => Or.inl (popped.mem_blocks.mpr (Or.inl member))

theorem reclaimAll_filed (bounded : pool.Bounded) (filed : pool.Filed Q) {todo : List GroupRef}
    (ran : pool.reclaimAll todo = .ok (pool', next)) :
    pool'.Filed Q ∧ ∀ pc ∈ next, pc.Fits Q := by
  induction todo with
  | nil =>
    obtain ⟨rfl, rfl⟩ := Prod.mk.inj (Except.ok.inj ran)
    exact ⟨filed, by simp⟩
  | cons ref rest ih =>
    rw [reclaimAll.eq_def] at ran
    dsimp only at ran
    split at ran
    · simp at ran
    · rename_i taken
      obtain ⟨rfl, rfl⟩ := Prod.mk.inj (Except.ok.inj ran)
      refine ⟨reclaimGroup_filed bounded filed taken, ?_⟩
      rintro pc ⟨⟩
      trivial
    · exact ih ran

theorem resume_filed (bounded : pool.Bounded) (filed : pool.Filed Q) (fits : pc.Fits Q)
    (room : ∀ i ∈ pc.target, (pool.fGroups i).count < kGroupMaxItemCount)
    (resumed : pool.resume pc = some (.ok (pool', next))) :
    pool'.Filed Q ∧ ∀ pc ∈ next, pc.Fits Q := by
  cases pc with
  | maintainFreed => exact maintainReclaim_filed filed (Option.some.inj resumed)
  | maintainStore i rest size ptr =>
    exact maintainStore_filed filed (room i rfl) fits (Option.some.inj resumed)
  | reclaimFreed todo => exact reclaimAll_filed bounded filed (Option.some.inj resumed)
  | maintainFree | maintainCalloc | reclaimFree => cases resumed

end Pool

/-! ## Every step keeps the blocks in their groups -/

theorem Filed.congr (filed : Filed Q s) (samePool : t.pool = s.pool)
    (sameCalls : t.calls = s.calls) : Filed Q t :=
  ⟨samePool ▸ filed.pool, sameCalls ▸ filed.calls⟩

theorem Filed.proceed (filed : Filed Q s) {rest : Multiset Pc} (others : rest ≤ s.calls)
    (stretch : pool.Filed Q ∧ ∀ pc ∈ next, pc.Fits Q) :
    Filed Q (s.proceed rest (.ok (pool, next))) := by
  refine ⟨stretch.1, fun pc member => ?_⟩
  rcases mem_callsWith.mp member with rfl | within
  · exact stretch.2 pc rfl
  · exact filed.calls pc (Multiset.mem_of_le others within)

/-- A call moves on outside the lock. -/
theorem Filed.advance (filed : Filed Q s) (pc : Pc) {pc' : Pc} (fits : pc'.Fits Q) :
    Filed Q { s with calls := pc' ::ₘ s.calls.erase pc } := by
  refine ⟨filed.pool, fun other member => ?_⟩
  rcases Multiset.mem_cons.mp member with rfl | within
  · exact fits
  · exact filed.calls other (Multiset.mem_of_mem_erase within)

/-- A step keeps the blocks in their groups, if what `calloc` returns has the property. -/
theorem Filed.step (filed : Filed Q s) (safe : Safe s)
    (fresh : ∀ i rest block,
      a = .calloc (.maintainCalloc i rest (groupSize i)) (some block) → Q i block)
    (taken : s.step a = some t) : Filed Q t := by
  -- only `calloc` brings in a block, and it names the group it is for
  cases moves_of_step taken with
  | maintain =>
    obtain ⟨pool, next, ran, -⟩ := Pool.maintain_spec safe.bounded
    rw [ran]
    exact filed.proceed le_rfl (Pool.maintain_filed filed.pool ran)
  | reclaimAll =>
    obtain ⟨pool, next, ran, -⟩ := Pool.reclaimAll_spec safe.bounded Pool.reclaimOrder
    rw [ran]
    exact filed.proceed le_rfl (Pool.reclaimAll_filed safe.bounded filed.pool ran)
  | @free pc next member moved =>
    have fits : next.Fits Q := by
      cases pc with
      | maintainFree | reclaimFree =>
        obtain rfl := Option.some.inj moved
        trivial
      | maintainFreed | maintainCalloc | maintainStore | reclaimFreed => cases moved
    exact (filed.advance pc fits).congr (by simp) rfl
  | @calloc pc next ptr size u member moved called =>
    obtain ⟨pool, calls, -⟩ := calloc_eq_some called
    have fits : next.Fits Q := by
      have sizes := filed.calls pc member
      cases pc with
      | maintainCalloc i rest size =>
        obtain ⟨-, rfl⟩ := Prod.mk.inj (Option.some.inj moved)
        refine ⟨sizes, ?_⟩
        rintro block rfl
        exact fresh i rest block (by rw [sizes.1])
      | maintainFree | maintainFreed | maintainStore | reclaimFree | reclaimFreed => cases moved
    exact (filed.advance pc fits).congr pool (by simp [calls])
  | @resume pc outcome member resumed =>
    obtain ⟨pool, next, rfl, -⟩ := Pool.resume_spec safe.bounded (safe.room pc member) resumed
    exact filed.proceed (Multiset.erase_le pc _)
      (Pool.resume_filed safe.bounded filed.pool (filed.calls pc member) (safe.room pc member)
        resumed)
  | allocHeap called =>
    obtain ⟨pool, calls, -⟩ := calloc_eq_some called
    exact filed.congr (by simpa using pool) (by simpa using calls)
  | allocHalt => exact filed.congr rfl rfl
  | @allocPool client size ptr pool returned =>
    obtain ⟨n, ends, -⟩ := Option.map_eq_some_iff.mp returned
    have kept : pool.Filed Q := by
      rcases alloc_taken safe.bounded ends with
        ⟨underflow, -⟩ | ⟨block, pool', i, found, -, removed⟩
      · cases underflow.symm.trans returned
      · obtain ⟨-, rfl⟩ := Prod.mk.inj (Except.ok.inj (Option.some.inj (found.symm.trans returned)))
        exact fun j other member => filed.pool j other (removed.mem_of_mem member)
    exact Filed.congr (s := { s with pool := pool }) ⟨kept, filed.calls⟩ (by simp) (by simp)
  | freeHeap => exact filed.congr (by simp) (by simp)
  | freeHalt => exact filed.congr rfl rfl
  | @freePool client ptr pool returned =>
    obtain ⟨-, -, groups, -⟩ := Pool.free_spec safe.bounded returned
    have kept : pool.Filed Q := by
      intro i block member
      rw [groups] at member
      exact filed.pool i block member
    exact Filed.congr (s := { s with pool := pool }) ⟨kept, filed.calls⟩ (by simp) (by simp)
  | write => exact filed.congr rfl rfl

/-! ## What `calloc` has returned -/

/-- `Maintain` has had the block from `calloc`, for group `i` and with its size. -/
def Calloced (past : List (Event State Action)) (i : Fin kGroupCount) (block : Block) : Prop :=
  ∃ e ∈ past, ∃ rest, e.action = .calloc (.maintainCalloc i rest (groupSize i)) (some block)

/-- The block is allocated, and has the size of group `i`. -/
def Sized (s : State) (i : Fin kGroupCount) (block : Block) : Prop :=
  ∃ cell, s.heap block = some cell ∧ cell.bytes.length = groupSize i

/-- The property may change with what is ready. -/
theorem Filed.imp (filed : Filed Q s)
    (implies : ∀ i block, s.Ready block → Q i block → Q' i block) : Filed Q' s := by
  refine ⟨fun i block member => ?_, fun pc member => ?_⟩
  · have stocked : block ∈ s.pool.stock :=
      Multiset.mem_sum.mpr ⟨i, Finset.mem_univ i, member⟩
    exact implies i block (Or.inl stocked) (filed.pool i block member)
  · have fits := filed.calls pc member
    cases pc with
    | maintainStore i rest size ptr =>
      refine ⟨fits.1, ?_⟩
      rintro block rfl
      exact implies i block (Or.inr ⟨_, member, rfl⟩) (fits.2 block rfl)
    | maintainCalloc | maintainFree | maintainFreed | reclaimFree | reclaimFreed => exact fits

theorem filed_initial : Filed Q initial := by
  refine ⟨fun i block member => ?_, fun pc member => absurd member (Multiset.notMem_zero pc)⟩
  simp [initial, Group.blocks, Group.slots] at member

/-- In every run the blocks of a group have come from a `calloc` of the size of the group. -/
theorem filed_of_run {past : List (Event State Action)} (run : allocator.Run past s) :
    Filed (Calloced past) s := by
  induction run with
  | start initial =>
    obtain rfl := initial
    exact filed_initial
  | @step past s t a run taken ih =>
    have known : Filed (Calloced (⟨s, a, t⟩ :: past)) s :=
      ih.imp fun i block _ ⟨e, member, called⟩ => ⟨e, List.mem_cons_of_mem _ member, called⟩
    refine known.step (safe_of_reachable run.reachable) ?_ taken
    rintro i rest block rfl
    exact ⟨_, List.mem_cons_self, rest, rfl⟩

theorem free_heap (s : State) (ptr : Ptr) (block : Block) :
    (s.free ptr).heap block = s.heap block ∨ (s.free ptr).heap block = none := by
  cases ptr with
  | none => exact Or.inl rfl
  | some freed =>
    unfold State.free
    dsimp only
    split
    · rcases eq_or_ne block freed with rfl | other
      · exact Or.inr (Function.update_self ..)
      · exact Or.inl (Function.update_of_ne other ..)
    · exact Or.inl rfl

theorem calloc_heap {ptr : Ptr} (called : s.calloc size ptr = some t)
    (present : s.heap block ≠ none) : t.heap block = s.heap block ∧ ptr ≠ some block := by
  rcases calloc_cases called with ⟨rfl, rfl⟩ | ⟨fresh, rfl, unused, rfl⟩
  · exact ⟨rfl, by simp⟩
  · have other : block ≠ fresh := by
      rintro rfl
      exact present unused
    exact ⟨Function.update_of_ne other .., by simpa using other.symm⟩

theorem hand_heap {client : Client} {ptr : Ptr} (other : ptr ≠ some block) :
    (s.hand client ptr).heap block = s.heap block := by
  cases ptr with
  | none => rfl
  | some given => exact Function.update_of_ne (by simpa [eq_comm] using other) ..

/-- A block that is ready and stays so is not touched. -/
theorem heap_of_ready (before : Accounted s) (after : Accounted t) (taken : s.step a = some t)
    (disciplined : Disciplined ⟨s, a, t⟩) (readyBefore : s.Ready block)
    (readyAfter : t.Ready block) : t.heap block = s.heap block := by
  obtain ⟨cell, present, clean⟩ := before.clean block readyBefore
  obtain ⟨cell', present', clean'⟩ := after.clean block readyAfter
  have allocated : s.heap block ≠ none := by simp [present]
  have stays : t.heap block ≠ none := by simp [present']
  cases moves_of_step taken with
  | maintain => cases s.pool.maintain <;> rfl
  | reclaimAll => cases s.pool.reclaimAll Pool.reclaimOrder <;> rfl
  | @resume pc outcome => cases outcome <;> rfl
  -- what is freed is not allocated any more, but the block is
  | free => exact (free_heap s _ block).resolve_right stays
  | calloc member moved called => exact (calloc_heap called allocated).1
  | allocHeap called =>
    obtain ⟨same, other⟩ := calloc_heap called allocated
    exact (hand_heap other).trans same
  | @allocPool client size ptr pool =>
    by_cases given : ptr = some block
    · -- the block handed out is not clean any more
      subst given
      simp only [State.hand, Function.update_self, present, Option.map_some] at present'
      obtain rfl := Option.some.inj present'
      exact absurd clean'.1 (by simp)
    · exact hand_heap given
  | @freeHeap client ptr =>
    have freed : ((s.free ptr).surrender client ptr).heap = (s.free ptr).heap := by
      cases ptr <;> rfl
    rw [freed] at stays ⊢
    exact (free_heap s ptr block).resolve_right stays
  | @freePool client ptr => cases ptr <;> rfl
  | allocHalt | freeHalt => rfl
  | write owned => exact Function.update_of_ne (before.ne_of_owned owned readyBefore.mem) ..

theorem Filed.sized_step (filed : Filed (Sized s) s) (before : Accounted s)
    (disciplined : Disciplined ⟨s, a, t⟩) (taken : s.step a = some t) : Filed (Sized t) t := by
  have after := before.step disciplined taken
  -- whoever is still ready then has kept the size
  have known : Filed (fun i block => t.Ready block → Sized t i block) s :=
    filed.imp fun i block readyBefore sized readyAfter => by
      rw [Sized, heap_of_ready before after taken disciplined readyBefore readyAfter]
      exact sized
  have next : Filed (fun i block => t.Ready block → Sized t i block) t := by
    refine known.step before.safe ?_ taken
    rintro i rest block rfl -
    cases moves_of_step taken with
    | calloc member moved called =>
      obtain ⟨rfl, rfl⟩ := Prod.mk.inj (Option.some.inj moved)
      rcases calloc_cases called with ⟨impossible, -⟩ | ⟨fresh, same, unused, rfl⟩
      · cases impossible
      · obtain rfl := Option.some.inj same
        exact ⟨.zeroed (groupSize i), Function.update_self .., List.length_replicate⟩
  exact next.imp fun i block ready sized => sized ready

theorem sized_of_run {past : List (Event State Action)} (run : allocator.Run past s)
    (disciplined : Every Disciplined past) : Filed (Sized s) s := by
  induction run with
  | start initial =>
    obtain rfl := initial
    exact filed_initial
  | @step past s t a run taken ih =>
    obtain ⟨last, earlier⟩ := every_cons.mp disciplined
    exact (ih earlier).sized_step (accounted_of_run run earlier) last taken

/-! ## What `Alloc` promises -/

/-- What `Alloc(size)` does after the run `past`, with `n` the class of the size. -/
structure AllocFits (past : List (Event State Action)) (s : State) (size n : ℕ) : Prop where
  least : IsLeast {k | size ≤ kMinSize * 2 ^ k} n
  returns : ∃ outcome, s.pool.alloc size = some outcome
  taken : ∀ ptr pool, s.pool.alloc size = some (.ok (ptr, pool)) →
    ∃ block i, ptr = some block ∧ Taken (n ≤ ·.val) s.pool pool i block ∧
      (s.pool.fGroups i).top = some (some block) ∧
      ∃ e ∈ past, ∃ rest bytes,
        e.action = .calloc (.maintainCalloc i rest bytes) (some block) ∧ size ≤ bytes
  /-- As long as the clients free only what they possess, the block still has that size. -/
  fits : Every Disciplined past → ∀ block pool, s.pool.alloc size = some (.ok (some block, pool)) →
    ∃ cell, s.heap block = some cell ∧ size ≤ cell.bytes.length
  underflows : s.pool.alloc size = some (.error .underflow) ↔
    ∀ i : Fin kGroupCount, n ≤ i → ¬ (s.pool.fGroups i).Usable
  large : kMinSize * 2 ^ (kGroupCount - 1) < size →
    s.pool.alloc size = some (.error .underflow)

/-- `Alloc` returns a block that is large enough, from the smallest usable group, and it panics
just when there is none. -/
theorem allocFits_of_run {past : List (Event State Action)} (run : allocator.Run past s)
    (ends : (Pool.sizeClass size).isSome = true) : ∃ n, AllocFits past s size n := by
  obtain ⟨n, ends, least⟩ := sizeClass_spec (sizeClass_isSome_iff.mp ends)
  have bounded := (safe_of_reachable run.reachable).bounded
  have grows : ∀ i : Fin kGroupCount, n ≤ i → size ≤ groupSize i := fun i above =>
    least.1.trans (groupSize_le_groupSize.mpr above)
  have large : kMinSize * 2 ^ (kGroupCount - 1) < size → ∀ i : Fin kGroupCount, ¬ n ≤ i := by
    intro large i above
    have last : groupSize i ≤ groupSize (kGroupCount - 1) :=
      groupSize_le_groupSize.mpr (Nat.le_sub_one_of_lt i.isLt)
    exact absurd ((grows i above).trans last) (not_le.mpr large)
  refine ⟨n, ?_⟩
  rcases alloc_taken bounded ends with
    ⟨underflow, none⟩ | ⟨block, pool, i, found, usable, taken⟩
  · refine ⟨least, ⟨_, underflow⟩, fun ptr pool found => ?_, fun _ block pool found => ?_,
      iff_of_true underflow none, fun _ => underflow⟩
    · cases underflow.symm.trans found
    · cases underflow.symm.trans found
  · have member : block ∈ (s.pool.fGroups i).blocks := taken.popped.mem_blocks.mpr (Or.inr rfl)
    -- `alloc` is a function, so what it returns is what has been found
    have only : ∀ {ptr : Ptr} {pool' : Pool}, s.pool.alloc size = some (.ok (ptr, pool')) →
        ptr = some block ∧ pool' = pool := by
      intro ptr pool' returned
      obtain ⟨rfl, rfl⟩ :=
        Prod.mk.inj (Except.ok.inj (Option.some.inj (found.symm.trans returned)))
      exact ⟨rfl, rfl⟩
    refine ⟨least, ⟨_, found⟩, fun ptr pool' returned => ?_, fun disciplined block' pool' returned =>
      ?_, iff_of_false ?_ fun none => none i taken.allowed usable, fun above =>
      absurd taken.allowed (large above i)⟩
    · obtain ⟨rfl, rfl⟩ := only returned
      -- the block came from a `calloc` for its group, whose size is enough
      obtain ⟨e, known, rest, called⟩ := (filed_of_run run).pool i block member
      exact ⟨block, i, rfl, taken, taken.popped.top, e, known, rest, _, called,
        grows i taken.allowed⟩
    · obtain ⟨same, -⟩ := only returned
      obtain rfl := Option.some.inj same
      obtain ⟨cell, present, length⟩ := (sized_of_run run disciplined).pool i block' member
      exact ⟨cell, present, length ▸ grows i taken.allowed⟩
    · intro underflow
      cases underflow.symm.trans found

/-- `Maintain` has stored a block of 16 bytes in a group, and the next `calloc` has failed. -/
def filling (i : Fin kGroupCount) (rest : List (Fin kGroupCount)) : List Action :=
  [.maintain, .calloc (.maintainCalloc i rest 16) (some 7),
    .resume (.maintainStore i rest 16 (some 7)), .calloc (.maintainCalloc i rest 16) none,
    .resume (.maintainStore i rest 16 none)]

theorem allocFits_filling : ∃ past s n, allocator.Run past s ∧
    (s.pool.fGroups 0).slots = [some 7, none] ∧ AllocFits past s 10 n := by
  have run := (Run.start (T := allocator) rfl).play (filling 0 [1, 2, 3]) rfl
  obtain ⟨n, fits⟩ := allocFits_of_run run (by decide : (Pool.sizeClass 10).isSome = true)
  exact ⟨_, _, n, run, rfl, fits⟩

end NvidiaHaiku.IntrSafePool

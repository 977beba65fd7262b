/-
# Refill safety of the pool

`Maintain` tests `group.count < kGroupMaxItemCount`, releases the lock to call
`calloc`, and then stores into `items[group.count]` without testing again. The
store stays inside the array because `fLevel` admits one `Maintain` at a time
past its guard, and no other operation lets a group grow.
-/

import NvidiaHaiku.IntrSafePool.System

namespace NvidiaHaiku.IntrSafePool

open NvidiaHaiku.Math TransitionSystem

variable {s t : State} {call next : Option Pc} {rest : Multiset Pc} {pool : Pool}

@[simp] theorem callsWith_none : callsWith none rest = rest := rfl

@[simp] theorem callsWith_some {pc : Pc} : callsWith (some pc) rest = pc ::ₘ rest := rfl

theorem mem_callsWith {pc : Pc} : pc ∈ callsWith call rest ↔ call = some pc ∨ pc ∈ rest := by
  cases call with
  | none => simp
  | some first => simp [eq_comm]

theorem countP_callsWith (call : Option Pc) (rest : Multiset Pc) :
    ((callsWith call rest).countP (·.isMaintain) : ℤ) =
      rest.countP (·.isMaintain) + Pool.maintaining call := by
  cases call with
  | none => simp [Pool.maintaining]
  | some pc => cases h : pc.isMaintain <;> simp [Pool.maintaining, h]

/-- A call with a target is a `Maintain`. -/
theorem isMaintain_of_target {pc : Pc} {i : Fin kGroupCount} (target : pc.target = some i) :
    pc.isMaintain = true := by
  cases pc with
  | maintainFree | maintainFreed | maintainCalloc | maintainStore => rfl
  | reclaimFree | reclaimFreed => exact nomatch target

/-- The invariant that makes the unchecked store safe. -/
structure Safe (s : State) : Prop where
  bounded : s.pool.Bounded
  level : s.pool.fLevel = s.maintainCalls
  single : s.maintainCalls ≤ 1
  room : ∀ pc ∈ s.calls, ∀ i, pc.target = some i →
    (s.pool.fGroups i).count < kGroupMaxItemCount
  sound : s.halted = none ∨ s.halted = some .overflow ∨ s.halted = some .underflow

theorem safe_initial : Safe initial where
  bounded := ⟨fun _ => Nat.zero_le _, Nat.zero_le _⟩
  level := rfl
  single := Nat.zero_le _
  room := fun _ member => absurd member (Multiset.notMem_zero _)
  sound := Or.inl rfl

/-- Halting in `Alloc` or `Free` leaves the pool as it was. -/
theorem Safe.halt (safe : Safe s) {halt : Halt} (cause : halt = .overflow ∨ halt = .underflow) :
    Safe { s with halted := some halt } :=
  ⟨safe.bounded, safe.level, safe.single, safe.room, Or.inr (by simpa using cause)⟩

/-- The parts of the state the invariant speaks about. -/
theorem Safe.congr (safe : Safe s) (samePool : t.pool = s.pool) (sameCalls : t.calls = s.calls)
    (sameHalt : t.halted = s.halted) : Safe t where
  bounded := samePool ▸ safe.bounded
  level := by
    rw [samePool, safe.level, State.maintainCalls, State.maintainCalls, sameCalls]
  single := by
    rw [State.maintainCalls, sameCalls]
    exact safe.single
  room := by
    rw [samePool, sameCalls]
    exact safe.room
  sound := sameHalt ▸ safe.sound

/-- The pool may shrink under the suspended calls. -/
theorem Safe.shrink (safe : Safe s) (bounded : pool.Bounded) (level : pool.fLevel = s.pool.fLevel)
    (fewer : ∀ i, (pool.fGroups i).count ≤ (s.pool.fGroups i).count) :
    Safe { s with pool := pool } :=
  ⟨bounded, level.trans safe.level, safe.single,
    fun pc member i target => (fewer i).trans_lt (safe.room pc member i target), safe.sound⟩

/-- A call moves on outside the lock, as the same kind of call with the same target. -/
theorem Safe.advance (safe : Safe s) {pc pc' : Pc} (member : pc ∈ s.calls)
    (kind : pc'.isMaintain = pc.isMaintain) (target : pc'.target = pc.target) :
    Safe { s with calls := pc' ::ₘ s.calls.erase pc } := by
  have calls := Multiset.cons_erase member
  have count : (pc' ::ₘ s.calls.erase pc).countP (·.isMaintain) = s.maintainCalls := by
    conv_rhs => rw [State.maintainCalls, ← calls]
    simp only [Multiset.countP_cons, kind]
  refine ⟨safe.bounded, ?_, ?_, ?_, safe.sound⟩
  · exact safe.level.trans (congrArg _ count.symm)
  · exact count.le.trans safe.single
  · intro other within i aims
    rcases Multiset.mem_cons.mp within with rfl | within
    · -- the moved call still aims at the group it had tested
      exact safe.room pc member i (target ▸ aims)
    · exact safe.room other (Multiset.mem_of_mem_erase within) i aims

/-- A stretch under the lock keeps the invariant, as long as it does not admit a
second `Maintain`. -/
theorem Safe.proceed (safe : Safe s) (calls : s.calls = callsWith call rest)
    (stretch : Pool.Stretch call s.pool pool next)
    (alone : (rest.countP (·.isMaintain) : ℤ) + Pool.maintaining next ≤ 1) :
    Safe { s with pool := pool, calls := callsWith next rest } := by
  have before : (s.maintainCalls : ℤ) = rest.countP (·.isMaintain) + Pool.maintaining call := by
    rw [State.maintainCalls, calls, countP_callsWith]
  have after := countP_callsWith next rest
  have single := safe.single
  refine ⟨stretch.bounded, ?_, ?_, ?_, safe.sound⟩
  · -- `fLevel` changes by what the call gains or loses as a `Maintain`
    have level := stretch.level
    rw [safe.level, before] at level
    simp only [State.maintainCalls, after]
    omega
  · simp only [State.maintainCalls]
    omega
  · intro pc member i target
    rcases mem_callsWith.mp member with rfl | within
    · exact stretch.room i target
    · -- a suspended call keeps its room unless the stretch stored into its group
      have still := safe.room pc (calls ▸ mem_callsWith.mpr (Or.inr within)) i target
      refine (stretch.shrinks i fun stored => ?_).trans_lt still
      -- two calls with a target would be two `Maintain` calls
      have one : 0 < rest.countP (·.isMaintain) :=
        Multiset.countP_pos_of_mem within (isMaintain_of_target target)
      have two : Pool.maintaining call = 1 := by
        cases call with
        | none => exact nomatch stored
        | some pc => simp [Pool.maintaining, isMaintain_of_target stored]
      omega

theorem Safe.maintain (safe : Safe s) : Safe (s.proceed s.calls s.pool.maintain) := by
  obtain ⟨pool, next, ran, stretch, busy⟩ := Pool.maintain_spec safe.bounded
  rw [ran]
  apply safe.proceed callsWith_none.symm stretch
  have level := safe.level
  have single := safe.single
  have share : Pool.maintaining next ≤ 1 := by
    unfold Pool.maintaining
    split <;> simp
  simp only [State.maintainCalls] at level single
  rcases Nat.eq_zero_or_pos (s.calls.countP (·.isMaintain)) with idle | running
  · omega
  · -- `fLevel` is positive, so the guard turns this call away
    rw [busy (by omega)]
    omega

theorem Safe.resume (safe : Safe s) {pc : Pc} (member : pc ∈ s.calls)
    {outcome : Except Halt (Pool × Option Pc)} (resumed : s.pool.resume pc = some outcome) :
    Safe (s.proceed (s.calls.erase pc) outcome) := by
  obtain ⟨pool, next, rfl, stretch, idle⟩ :=
    Pool.resume_spec safe.bounded (safe.room pc member) resumed
  have calls : s.calls = callsWith (some pc) (s.calls.erase pc) :=
    (Multiset.cons_erase member).symm
  apply safe.proceed calls stretch
  have before := countP_callsWith (some pc) (s.calls.erase pc)
  rw [← calls] at before
  have single := safe.single
  simp only [State.maintainCalls] at single
  -- a resumed call does not turn into a `Maintain`
  have share : Pool.maintaining next ≤ Pool.maintaining (some pc) := by
    cases kind : pc.isMaintain with
    | false =>
      rw [idle kind]
      simp [Pool.maintaining, kind]
    | true =>
      simp only [Pool.maintaining, Option.any_some, kind, if_true]
      split <;> simp
  omega

/-- Every step keeps the invariant. -/
theorem Safe.step (safe : Safe s) {a : Action} (taken : s.step a = some t) : Safe t := by
  cases moves_of_step taken with
  | maintain => exact safe.maintain
  | reclaimAll =>
    obtain ⟨pool, next, ran, stretch, idle, -⟩ :=
      Pool.reclaimAll_spec safe.bounded Pool.reclaimOrder
    rw [ran]
    apply safe.proceed callsWith_none.symm stretch
    have single := safe.single
    simp only [State.maintainCalls] at single
    omega
  | @free pc next member moved =>
    have same : next.isMaintain = pc.isMaintain ∧ next.target = pc.target := by
      cases pc with
      | maintainFree _ | reclaimFree _ _ =>
        obtain rfl := Option.some.inj moved
        exact ⟨rfl, rfl⟩
      | maintainFreed | maintainCalloc _ _ _ | maintainStore _ _ _ _ | reclaimFreed _ =>
        cases moved
    exact (safe.advance member same.1 same.2).congr (by simp) rfl (by simp)
  | @calloc pc next ptr size u member moved called =>
    obtain ⟨pool, calls, halted, -⟩ := calloc_eq_some called
    have same : next.isMaintain = pc.isMaintain ∧ next.target = pc.target := by
      cases pc with
      | maintainCalloc i rest size =>
        obtain ⟨-, rfl⟩ := Prod.mk.inj (Option.some.inj moved)
        exact ⟨rfl, rfl⟩
      | maintainFree _ | maintainFreed | maintainStore _ _ _ _ | reclaimFree _ _
      | reclaimFreed _ => cases moved
    exact (safe.advance member same.1 same.2).congr pool (by simp [calls]) halted
  | resume member resumed => exact safe.resume member resumed
  | allocHeap called =>
    obtain ⟨pool, calls, halted, -⟩ := calloc_eq_some called
    exact safe.congr (by simpa using pool) (by simpa using calls) (by simpa using halted)
  | allocHalt returned =>
    -- underflow halts, and the pool stays as it was before the call
    exact safe.halt (Or.inr (Pool.underflow_of_alloc safe.bounded returned))
  | allocPool returned =>
    obtain ⟨block, -, level, bounded, -, fewer, -⟩ := Pool.alloc_spec safe.bounded returned
    exact (safe.shrink bounded level fewer).congr (by simp) (by simp) (by simp)
  | freeHeap => exact safe.congr (by simp) (by simp) (by simp)
  | freeHalt returned => exact safe.halt (Or.inl (Pool.overflow_of_free safe.bounded returned))
  | freePool returned =>
    obtain ⟨level, bounded, groups, -⟩ := Pool.free_spec safe.bounded returned
    exact (safe.shrink bounded level fun i => by rw [groups]).congr (by simp) (by simp) (by simp)
  | write => exact safe.congr rfl rfl rfl

theorem safe_of_reachable (reached : allocator.Reachable s) : Safe s :=
  reached.invariant (fun _ same => same ▸ safe_initial) fun _ _ _ safe taken => safe.step taken

/-- What refill safety says of one state. -/
structure RefillInBounds (s : State) : Prop where
  /-- At a release of the lock the level counts the `Maintain` calls past the guard. -/
  level : s.pool.fLevel = s.maintainCalls
  single : s.maintainCalls ≤ 1
  groups : ∀ i, (s.pool.fGroups i).count ≤ kGroupMaxItemCount
  reclaim : s.pool.fReclaimGroup.count ≤ kReclaimMaxItemCount
  /-- The store a `Maintain` call is about to make lies inside the array. -/
  store : ∀ i rest size ptr, Pc.maintainStore i rest size ptr ∈ s.calls →
    (s.pool.fGroups i).count < kGroupMaxItemCount
  inBounds : s.halted ≠ some .outOfBounds
  /-- The overflow panic of `Group::ReclaimAll` has not happened. -/
  noOverflow : ∀ count, s.halted ≠ some (.overflowed count)

/-- Refill safety: whatever the threads and interrupt handlers do, `Maintain`
never stores past the end of a group. -/
theorem refillInBounds_of_reachable (reached : allocator.Reachable s) : RefillInBounds s := by
  have safe := safe_of_reachable reached
  refine ⟨safe.level, safe.single, safe.bounded.groups, safe.bounded.reclaim,
    fun i rest size ptr member => safe.room _ member i rfl, ?_, fun count => ?_⟩
  · rcases safe.sound with halted | halted | halted <;> simp [halted]
  · rcases safe.sound with halted | halted | halted <;> simp [halted]

/-- `Maintain` suspended between its first `calloc` and the store. -/
def storing : State where
  pool := { fLevel := 1 }
  calls := {.maintainStore 0 [1, 2, 3] 16 (some 7)}
  heap := Function.update (fun _ => none) 7 (some (.zeroed 16))

theorem storing_reachable : allocator.Reachable storing := by
  have suspended : allocator.Reachable
      { pool := { fLevel := 1 }, calls := {.maintainCalloc 0 [1, 2, 3] 16} } :=
    Reachable.step (s := initial) (a := .maintain) (.start rfl) rfl
  exact suspended.step (a := .calloc (.maintainCalloc 0 [1, 2, 3] 16) (some 7)) rfl

theorem refillInBounds_storing : RefillInBounds storing :=
  refillInBounds_of_reachable storing_reachable

end NvidiaHaiku.IntrSafePool

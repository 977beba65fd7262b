/-
# Every call of the device returns

A thread may wait for `Locker` while it holds nothing, and for the mutex of a select
pool while it holds nothing but `Locker`, when NVKMS has called back. So the locks
are taken in order, and whoever is waited for can go on, or waits for one that can.
Every step of a call brings it nearer to its end. However the threads are scheduled,
the calls that have been made then return, as long as NVKMS does.
-/

import Mathlib.Algebra.BigOperators.Group.Finset.Basic
import Mathlib.Algebra.Order.BigOperators.Group.Finset
import Mathlib.Data.Fintype.EquivFin
import NvidiaHaiku.Math.LockOrder
import NvidiaHaiku.Nvkms.DeviceSafety

namespace NvidiaHaiku.Nvkms

open NvidiaHaiku.Math TransitionSystem

variable {θ κ : Type*}

/-! ## The order of the locks -/

/-- The lock the thread waits for: `none` is `Locker`, `some h` the mutex of the handle. -/
def Thread.wants (x : Thread κ) : Option (Option HandlePtr) :=
  match x.pool, x.core with
  | some p, _ => if p.stage = .lock then some (some p.handle) else none
  | none, some c => if c.stage = .lock then some none else none
  | none, none => none

/-- Who holds and who wants `Locker` and the mutexes of the handles. -/
def KmsState.locks (s : KmsState θ κ) : LockTable θ (Option HandlePtr) where
  holds t lock := match lock with
    | none => (s.threads t).holdsLocker = true
    | some h => (s.threads t).holdsMutex h = true
  wants t := (s.threads t).wants

/-- `Locker` comes first. -/
def lockRank : Option HandlePtr → Fin 2
  | none => 0
  | some _ => 1

variable {s s' : KmsState θ κ} {t : θ} {x : Thread κ} {c : CoreCall} {p : PoolCall κ}

theorem wants_of_pool (has : x.pool = some p) :
    x.wants = if p.stage = .lock then some (some p.handle) else none := by
  rw [Thread.wants, has]

theorem wants_of_core (alone : x.pool = none) (has : x.core = some c) :
    x.wants = if c.stage = .lock then some none else none := by
  rw [Thread.wants, alone, has]

/-- Whoever waits for a mutex holds no mutex, and whoever waits for `Locker` holds nothing. -/
theorem ordered_locks (s : KmsState θ κ) : s.locks.Ordered lockRank := by
  intro t lock held wants holds
  change (s.threads t).wants = some lock at wants
  cases pool : (s.threads t).pool with
  | some p =>
    rw [wants_of_pool pool] at wants
    obtain ⟨stage, rfl⟩ := of_guarded wants
    cases held with
    | none => exact Fin.zero_lt_one
    | some h =>
      have holds : (s.threads t).holdsMutex h = true := holds
      rw [holdsMutex_eq pool, stage, PoolStage.holds, Bool.and_false] at holds
      cases holds
  | none =>
    cases core : (s.threads t).core with
    | none => simp [Thread.wants, pool, core] at wants
    | some c =>
      rw [wants_of_core pool core] at wants
      obtain ⟨stage, rfl⟩ := of_guarded wants
      cases held with
      | none =>
        have holds : (s.threads t).holdsLocker = true := holds
        rw [holdsLocker_eq core, stage] at holds
        cases holds
      | some h =>
        have holds : (s.threads t).holdsMutex h = true := holds
        rw [holdsMutex_none pool] at holds
        cases holds

/-! ## What is left of a call -/

/-- The steps until the call has returned, if it is not kept waiting. -/
def CoreStage.left : CoreStage → ℕ
  | .lock => 4
  | .core => 3
  | .unlock _ => 2
  | .finish _ => 1

/-- How many steps the call still takes. -/
def PoolStage.left : PoolStage → ℕ
  | .lock => 3
  | .first => 2
  | .second => 1

/-- How many steps the calls of a thread still take. -/
def Thread.left (x : Thread κ) : ℕ :=
  (x.core.map (·.stage.left)).getD 0 + (x.pool.map (·.stage.left)).getD 0

/-- What is left of all calls. -/
def KmsState.left [Fintype θ] (s : KmsState θ κ) : ℕ := ∑ t, (s.threads t).left

variable [DecidableEq θ] [DecidableEq κ]

/-- A step of a call changes the thread that makes it, and leaves less of the call. -/
theorem Advances.left (advanced : Advances s t s') :
    ∃ x, s'.threads = Function.update s.threads t x ∧ x.left < (s.threads t).left := by
  cases advanced with
  | lock has alone stage | returns has alone stage | opened has alone stage
  | closed has alone stage | unlock has alone stage | publish has alone stage
  | answer has alone stage | delete has alone stage =>
    refine ⟨_, rfl, ?_⟩
    simp [Thread.left, has, alone, stage, CoreStage.left]
  | lockPool has present stage | first has present stage | second has present stage =>
    refine ⟨_, rfl, ?_⟩
    simp [Thread.left, has, stage, PoolStage.left]

theorem left_lt_of_advances [Fintype θ] (advanced : Advances s t s') : s'.left < s.left := by
  obtain ⟨x, threads, less⟩ := advanced.left
  rw [KmsState.left, KmsState.left, threads]
  refine Finset.sum_lt_sum (fun t' _ => ?_) ⟨t, Finset.mem_univ t, by rwa [Function.update_self]⟩
  rcases eq_or_ne t' t with rfl | other
  · rw [Function.update_self]
    exact less.le
  · rw [Function.update_of_ne other]

/-! ## A thread that is not kept waiting goes on -/

theorem exists_advance_pool (sound : Sound s) (unblocked : s.locks.Unblocked t)
    (has : (s.threads t).pool = some p) :
    ∃ s', s.advancePool t (s.threads t) p = some s' := by
  obtain ⟨cookie, present⟩ := sound.charged.exists_of_pool has
  obtain ⟨handle, present, -⟩ := cookieOf_eq_some.mp present
  rw [KmsState.advancePool, KmsState.access, present]
  dsimp only
  cases stage : p.stage with
  | lock =>
    -- the mutex is not held, because nobody holds what the thread wants
    have wants : s.locks.wants t = some (some p.handle) :=
      (wants_of_pool has).trans (if_pos stage)
    have free : handle.fSelectPoolMutex = none := by
      by_contra some
      obtain ⟨t', holder⟩ := Option.ne_none_iff_exists'.mp some
      exact unblocked _ wants t' ((sound.locked.mutex _ handle present t').mp holder)
    exact ⟨_, if_pos free⟩
  | first | second => exact ⟨_, rfl⟩

omit [DecidableEq κ] in
theorem exists_advance_core (sound : Sound s) (unblocked : s.locks.Unblocked t)
    (alone : (s.threads t).pool = none) (has : (s.threads t).core = some c) :
    ∃ s', s.advanceCore t (s.threads t) c none true = some s' := by
  obtain ⟨cookie, present⟩ := sound.charged.exists_of_core has
  obtain ⟨handle, present, -⟩ := cookieOf_eq_some.mp present
  obtain ⟨call, h, stage⟩ := c
  cases stage with
  | lock =>
    have wants : s.locks.wants t = some none := wants_of_core alone has
    have free : s.locker = none := by
      by_contra some
      obtain ⟨t', holder⟩ := Option.ne_none_iff_exists'.mp some
      exact unblocked _ wants t' ((sound.locked.locker t').mp holder)
    exact ⟨_, if_pos free⟩
  | core =>
    simp only [KmsState.advanceCore, KmsState.access, present]
    cases call <;> exact ⟨_, rfl⟩
  | unlock res => exact ⟨_, rfl⟩
  | finish res =>
    simp only [KmsState.advanceCore, KmsState.access, present]
    cases call with
    | nvKmsOpen =>
      by_cases cookie : handle.fCookie = none
      · exact ⟨_, if_pos cookie⟩
      · exact ⟨_, if_neg cookie⟩
    | nvKmsIoctl | nvKmsClose => exact ⟨_, rfl⟩

/-- The step is one of a call that has been made. -/
def Continues (e : Event (KmsState θ κ) (KmsAction θ κ)) : Prop :=
  ∃ t cookie res, e.action = .advance t cookie res

variable [Fintype θ]

/-- If a call has not returned, some call can go on. -/
theorem exists_continues (sound : Sound s) (busy : (s.threads t).idle = false) :
    ∃ t' cookie res s', s.step (.advance t' cookie res) = some s' := by
  obtain ⟨t', chain, unblocked⟩ := (ordered_locks s).exists_unblocked t
  -- whoever is waited for is in a call, because it holds a lock
  have within : (s.threads t').idle = false := by
    induction chain with
    | refl => exact busy
    | tail _ waits =>
      obtain ⟨lock, -, holds⟩ := waits
      by_contra idle
      obtain ⟨core, pool⟩ := Bool.and_eq_true_iff.mp ((Bool.not_eq_false _).mp idle)
      rw [Option.isNone_iff_eq_none] at core pool
      cases lock with
      | none =>
        have holds : (s.threads _).holdsLocker = true := holds
        rw [holdsLocker_none core] at holds
        cases holds
      | some h =>
        have holds : (s.threads _).holdsMutex h = true := holds
        rw [holdsMutex_none pool] at holds
        cases holds
  cases pool : (s.threads t').pool with
  | some p =>
    obtain ⟨s', advanced⟩ := exists_advance_pool sound unblocked pool
    exact ⟨t', none, true, s', by simpa only [KmsState.step, pool] using advanced⟩
  | none =>
    cases core : (s.threads t').core with
    | none => simp [Thread.idle, pool, core] at within
    | some c =>
      obtain ⟨s', advanced⟩ := exists_advance_core sound unblocked pool core
      exact ⟨t', none, true, s', by simpa only [KmsState.step, pool, core] using advanced⟩

/-- What can be said of the calls in progress in a state, however they are scheduled. -/
structure CallsReturn (s : KmsState θ κ) : Prop where
  /-- No threads wait for each other in a ring. -/
  unringed : ∀ t, ¬ Relation.TransGen s.locks.WaitsFor t t
  /-- Without further calls there are only so many steps. -/
  bounded : ∀ later u, ((kmsDevice θ κ).after s).Run later u → Every Continues later →
    later.length ≤ s.left
  /-- There is a next step until all calls have returned. -/
  goesOn : ∀ later u, ((kmsDevice θ κ).after s).Run later u → Every Continues later →
    (∃ t, (u.threads t).idle = false) →
      ∃ t cookie res u', u.step (.advance t cookie res) = some u'

/-- The device does not deadlock: in every state that can be reached the calls in progress all
return, in whatever order they take their steps. -/
theorem callsReturn_of_reachable (reached : (kmsDevice θ κ).Reachable s) : CallsReturn s := by
  have sound : ∀ later u, ((kmsDevice θ κ).after s).Run later u → Sound u := by
    intro later u run
    obtain ⟨past, before⟩ := reached
    exact sound_of_reachable (before.append run).reachable
  refine ⟨fun t => (ordered_locks s).not_cycle, fun later u run continues => ?_,
    fun later u run _ ⟨t, busy⟩ => exists_continues (sound later u run) busy⟩
  suffices measure : later.length + u.left ≤ s.left by omega
  induction run with
  | start here =>
    rw [show _ = s from here]
    exact (Nat.zero_add _).le
  | @step later u v a run taken ih =>
    obtain ⟨⟨t, cookie, res, action⟩, earlier⟩ := every_cons.mp continues
    obtain rfl : a = .advance t cookie res := action
    have less := left_lt_of_advances (advances_of_step (sound later u run).charged taken)
    have before := ih earlier
    rw [List.length_cons]
    omega

theorem callsReturn_calledBack : ∃ past s, (kmsDevice Bool Unit).Run past s ∧
    s.locks.WaitsFor false true ∧ CallsReturn s := by
  have run := (Run.start (T := kmsDevice Bool Unit) rfl).play calledBack (by decide)
  refine ⟨_, _, run, ⟨some 5, by decide, ?_⟩, callsReturn_of_reachable run.reachable⟩
  change Thread.holdsMutex _ 5 = true
  decide

end NvidiaHaiku.Nvkms

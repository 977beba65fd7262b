/-
# Loading the drivers

The module holds the driver of the GPUs, and is initialised by the first reference to it. Both
drivers take one: that of the devices as it is loaded, and that of NVKMS for as long as its
instance lives. They are loaded and unloaded in any order and at the same time, and each call
on the way may fail.

NVKMS calls the module, so it must not be loaded without it. And whatever the order, the module
is initialised for just as long as one of the drivers is there, and gives back what it has
acquired.
-/

import NvidiaHaiku.Driver.Module
import NvidiaHaiku.IntrSafePool.Safety
import NvidiaHaiku.Math.Transition

namespace NvidiaHaiku.Driver

open NvidiaHaiku.Math NvidiaHaiku.IntrSafePool TransitionSystem

/-- `NvHaikuKmsDriver`. -/
structure NvHaikuKmsDriver where
  /-- `fNvidiaModule` is not null. -/
  fNvidiaModule : Bool := false
  /-- The DPC queue of `fTimerQueue` is open. -/
  fTimerQueue : Bool := false
  fIsKmsLoaded : Bool := false
  deriving DecidableEq, Repr

/-- The call that the driver of NVKMS makes next. -/
inductive KmsPc
  | unloaded
  -- `Init`
  | getModule
  | initTimerQueue
  | moduleLoad
  | loaded
  -- `~NvHaikuKmsDriver`, after a failure of `Init` or in `UninitDriver`
  | moduleUnload
  | putModule
  | closeTimerQueue
  deriving DecidableEq, Repr

/-- The module as the module manager knows it. -/
structure NvidiaModule where
  refs : ℕ := 0
  /-- `NvHaikuDriver::Instance()`, if the module is initialised. -/
  driver : Option NvHaikuDriver := none
  ledger : List (Op Resource) := []

instance (pool : Pool) : Decidable pool.Bounded :=
  decidable_of_iff ((∀ i, (pool.fGroups i).count ≤ kGroupMaxItemCount) ∧
    pool.fReclaimGroup.count ≤ kReclaimMaxItemCount)
    ⟨fun bounded => ⟨bounded.1, bounded.2⟩, fun bounded => ⟨bounded.groups, bounded.reclaim⟩⟩

namespace NvidiaModule

/-- `get_module`, with whether it succeeds. -/
def getModule (m : NvidiaModule) (env : Environment) : Option (Bool × NvidiaModule) :=
  if m.refs ≠ 0 then some (true, { m with refs := m.refs + 1 })
  else
    (nvidiaModuleInit env).map fun res =>
      let m := { m with ledger := m.ledger ++ res.ops }
      if res.status ≠ .B_OK then (false, m)
      else (true, { m with refs := 1, driver := some res.driver })

/-- `put_module`. -/
def putModule (m : NvidiaModule) : Option NvidiaModule :=
  if m.refs = 1 then
    m.driver.bind fun driver =>
      (nvidiaModuleUninit driver).map fun ops =>
        { m with refs := 0, driver := none, ledger := m.ledger ++ ops }
  else some { m with refs := m.refs - 1 }

/-- The pool of the driver is used: its counts stay in bounds, and its blocks are what the calls of
the heap have left of those it had. -/
def usePool (m : NvidiaModule) (pool : Pool) (ops : List (Op Block)) : Option NvidiaModule :=
  m.driver.bind fun driver =>
    if pool.Bounded ∧ settle driver.fIntrSafePool.blocks ops = some pool.blocks then
      some { m with
        driver := some { driver with fIntrSafePool := pool }
        ledger := m.ledger ++ ops.map (Op.map .poolBlock) }
    else none

end NvidiaModule

/-- The module, and how far its two drivers have come. -/
structure Loading extends NvidiaModule where
  /-- `init_driver` of the devices has succeeded. -/
  nvidia : Bool := false
  pc : KmsPc := .unloaded
  kms : NvHaikuKmsDriver := {}
  /-- NVKMS is loaded. -/
  core : Bool := false
  /-- NVKMS has been loaded twice, unloaded twice, or run without the module. -/
  misused : Bool := false

/-- What the kernel and the module manager call, and the steps of the drivers in those calls. -/
inductive LoadingAction
  /-- `NvHaikuDriver::InitDriver`. -/
  | initDriver (env : Environment)
  /-- `NvHaikuDriver::UninitDriver`. -/
  | uninitDriver
  /-- `NvHaikuKmsDriver::InitDriver`. -/
  | initKms
  | getModule (env : Environment)
  | initTimerQueue (done : Bool)
  | moduleLoad (done : Bool)
  /-- `NvHaikuKmsDriver::UninitDriver`. -/
  | uninitKms
  | moduleUnload
  | putModule
  | closeTimerQueue
  | usePool (pool : Pool) (ops : List (Op Block))

namespace Loading

/-- One step. A driver that is loaded is not loaded again before it is unloaded. -/
def step (s : Loading) : LoadingAction → Option Loading
  | .initDriver env =>
    if s.nvidia then none
    else (s.toNvidiaModule.getModule env).map fun (done, m) =>
      { s with toNvidiaModule := m, nvidia := done }
  | .uninitDriver =>
    if s.nvidia then
      s.toNvidiaModule.putModule.map fun m => { s with toNvidiaModule := m, nvidia := false }
    else none
  | .initKms =>
    if s.pc = .unloaded then some { s with pc := .getModule, kms := {} } else none
  | .getModule env =>
    if s.pc = .getModule then
      (s.toNvidiaModule.getModule env).map fun (done, m) =>
        { s with
          toNvidiaModule := m
          pc := if done then .initTimerQueue else .moduleUnload
          kms := { s.kms with fNvidiaModule := done } }
    else none
  | .initTimerQueue done =>
    if s.pc = .initTimerQueue then
      some { s with
        pc := if done then .moduleLoad else .moduleUnload
        kms := { s.kms with fTimerQueue := done } }
    else none
  | .moduleLoad done =>
    if s.pc = .moduleLoad then
      some { s with
        pc := if done then .loaded else .moduleUnload
        core := done
        misused := s.misused || s.core || s.driver.isNone
        kms := { s.kms with fIsKmsLoaded := done } }
    else none
  | .uninitKms => if s.pc = .loaded then some { s with pc := .moduleUnload } else none
  | .moduleUnload =>
    if s.pc = .moduleUnload then
      if s.kms.fIsKmsLoaded then
        some { s with
          pc := .putModule
          core := false
          misused := s.misused || !s.core || s.driver.isNone }
      else some { s with pc := .putModule }
    else none
  | .putModule =>
    if s.pc = .putModule then
      if s.kms.fNvidiaModule then
        s.toNvidiaModule.putModule.map fun m =>
          { s with toNvidiaModule := m, pc := .closeTimerQueue }
      else some { s with pc := .closeTimerQueue }
    else none
  | .closeTimerQueue =>
    if s.pc = .closeTimerQueue then
      some { s with pc := .unloaded, kms := { s.kms with fTimerQueue := false } }
    else none
  | .usePool pool ops =>
    (s.toNvidiaModule.usePool pool ops).map fun m => { s with toNvidiaModule := m }

end Loading

/-- What a driver holds besides the blocks of its pool. -/
theorem NvHaikuDriver.exists_besides (driver : NvHaikuDriver) : ∃ besides, ∀ pool : Pool,
    { driver with fIntrSafePool := pool }.held =
      besides + pool.blocks.map Resource.poolBlock := by
  refine ⟨devicesHeld driver.fDevices +
    ((if driver.fControlDevice then {.controlDevice, .eventLocks} else 0) +
      ((if driver.fInitRmDone then {.rm} else 0) +
        (if driver.fPCI then {.pciModule} else 0))), fun pool => ?_⟩
  rw [NvHaikuDriver.held]
  abel

namespace NvidiaModule

/-- What the driver in the module gives back when it is destroyed. -/
def held (m : NvidiaModule) : Multiset Resource := m.driver.elim 0 NvHaikuDriver.held

/-- The module is initialised while it is referred to, and holds what it has acquired, but for
what it has leaked. -/
structure Sound (leaked : Multiset Resource) (m : NvidiaModule) : Prop where
  initialised : m.driver.isSome = true ↔ 0 < m.refs
  bounded : ∀ driver ∈ m.driver, driver.fIntrSafePool.Bounded
  settled : settle 0 m.ledger = some (leaked + m.held)

variable {leaked : Multiset Resource} {m m' : NvidiaModule} {env : Environment}

/-- A module that nobody refers to has nothing, but for what it has leaked. -/
theorem Sound.settled_leaked (sound : m.Sound leaked) (unused : m.refs = 0) :
    m.driver = none ∧ settle 0 m.ledger = some leaked := by
  have none : m.driver = none := by
    rw [← Option.not_isSome_iff_eq_none, sound.initialised, unused]
    exact Nat.lt_irrefl 0
  have settled := sound.settled
  rw [held, none, Option.elim_none, add_zero] at settled
  exact ⟨none, settled⟩

theorem Sound.getModule (sound : m.Sound leaked) (env : Environment) :
    ∃ done m', m.getModule env = some (done, m') ∧ m'.refs = m.refs + done.toNat ∧
      m'.Sound (leaked + if m.refs = 0 then env.leaked else 0) := by
  by_cases unused : m.refs = 0
  · obtain ⟨none, settled⟩ := sound.settled_leaked unused
    obtain ⟨res, ran, bounded, -, acquired⟩ := driverInit_spec env
    have framed : settle (leaked + 0) res.ops = some (leaked + (env.leaked + res.driver.held)) :=
      settle_frame acquired
    rw [add_zero] at framed
    have whole := settle_trans settled framed
    rw [NvidiaModule.getModule, if_neg (not_not.mpr unused), nvidiaModuleInit, ran, if_pos unused]
    by_cases ok : res.status = .B_OK
    · refine ⟨true, ⟨1, some res.driver, m.ledger ++ res.ops⟩, ?_, ?_, ⟨?_, ?_, ?_⟩⟩
      · rw [Option.bind_some, if_neg (not_not.mpr ok), Option.map_some, if_neg (not_not.mpr ok)]
      · rw [unused]
        rfl
      · exact iff_of_true rfl Nat.one_pos
      · rintro driver member
        obtain rfl := Option.some.inj member
        exact bounded
      · rw [whole, add_assoc]
        rfl
    · -- `Init` has failed, and the destructor gives back what it has acquired
      obtain ⟨ops, destroyed, -, released⟩ := destroy_spec res.driver bounded
      have freed : settle (leaked + (env.leaked + res.driver.held)) ops =
          some (leaked + (env.leaked + 0)) := by
        rw [← add_assoc, ← add_assoc]
        exact settle_frame released
      refine ⟨false, { m with ledger := m.ledger ++ (res.ops ++ ops) }, ?_, rfl, ⟨?_, ?_, ?_⟩⟩
      · rw [Option.bind_some, if_pos ok, destroyed, Option.map_some, Option.map_some, if_pos ok]
      · rw [none, unused]
        simp
      · intro driver member
        rw [none] at member
        cases member
      · rw [← List.append_assoc, settle_trans whole freed, held, none, Option.elim_none,
          add_zero, add_zero]
  · refine ⟨true, { m with refs := m.refs + 1 }, ?_, rfl, ⟨?_, sound.bounded, ?_⟩⟩
    · rw [NvidiaModule.getModule, if_pos unused]
    · rw [sound.initialised]
      simp [Nat.pos_iff_ne_zero, unused]
    · rw [if_neg unused, add_zero]
      exact sound.settled

theorem Sound.putModule (sound : m.Sound leaked) (used : 0 < m.refs) :
    ∃ m', m.putModule = some m' ∧ m'.refs + 1 = m.refs ∧ m'.Sound leaked := by
  by_cases last : m.refs = 1
  · obtain ⟨driver, here⟩ := Option.isSome_iff_exists.mp (sound.initialised.mpr used)
    obtain ⟨ops, destroyed, -, released⟩ := destroy_spec driver (sound.bounded driver here)
    have settled := sound.settled
    rw [held, here, Option.elim_some] at settled
    refine ⟨⟨0, none, m.ledger ++ ops⟩, ?_, last.symm, ⟨by simp, nofun, ?_⟩⟩
    · rw [NvidiaModule.putModule, if_pos last, here, Option.bind_some, nvidiaModuleUninit,
        destroyed]
      rfl
    · exact settle_trans settled (settle_frame released)
  · refine ⟨{ m with refs := m.refs - 1 }, by rw [NvidiaModule.putModule, if_neg last],
      Nat.sub_add_cancel used, ⟨?_, sound.bounded, sound.settled⟩⟩
    rw [sound.initialised]
    dsimp only
    omega

theorem Sound.usePool {pool : Pool} {ops : List (Op Block)} (sound : m.Sound leaked)
    (used : m.usePool pool ops = some m') : m'.refs = m.refs ∧ m'.Sound leaked := by
  obtain ⟨driver, here, used⟩ := Option.bind_eq_some_iff.mp used
  obtain ⟨⟨bounded, moved⟩, used⟩ := Option.ite_none_right_eq_some.mp used
  obtain rfl := Option.some.inj used
  refine ⟨rfl, ⟨?_, ?_, ?_⟩⟩
  · rw [← sound.initialised, here]
    rfl
  · rintro driver' member
    obtain rfl := Option.some.inj member
    exact bounded
  · have settled := sound.settled
    rw [held, here, Option.elim_some] at settled
    obtain ⟨besides, parts⟩ := driver.exists_besides
    have blocks : settle (leaked + besides + driver.fIntrSafePool.blocks.map Resource.poolBlock)
        (ops.map (Op.map .poolBlock)) =
          some (leaked + besides + pool.blocks.map Resource.poolBlock) :=
      settle_frame (settle_map (fun _ _ same => Resource.poolBlock.inj same) moved)
    rw [add_assoc, add_assoc, ← parts, ← parts] at blocks
    exact settle_trans settled blocks

/-- The guard turns no use of the pool away: the calls of the allocator keep the counts in bounds,
and some calls of the heap make the difference. -/
theorem exists_usePool {s : IntrSafePool.State} (reached : allocator.Reachable s)
    (loaded : m.driver.isSome = true) :
    ∃ ops m', m.usePool s.pool ops = some m' ∧
      m'.driver.map (·.fIntrSafePool) = some s.pool := by
  obtain ⟨driver, here⟩ := Option.isSome_iff_exists.mp loaded
  have emptied := @settle_releases _ _ 0 driver.fIntrSafePool.blocks.toList
  have filled := @settle_acquires _ _ 0 s.pool.blocks.toList
  rw [Multiset.coe_toList, zero_add] at emptied filled
  have guard := And.intro (safe_of_reachable reached).bounded (settle_trans emptied filled)
  refine ⟨driver.fIntrSafePool.blocks.toList.map .release ++ s.pool.blocks.toList.map .acquire, ?_⟩
  rw [usePool, here, Option.bind_some, if_pos guard]
  exact ⟨_, rfl, rfl⟩

end NvidiaModule

/-! ## The drivers -/

namespace Loading

/-- The driver of NVKMS has a reference to the module. -/
def kmsRefers (s : Loading) : Bool :=
  match s.pc with
  | .unloaded | .getModule | .closeTimerQueue => false
  | .initTimerQueue | .moduleLoad | .loaded => true
  | .moduleUnload | .putModule => s.kms.fNvidiaModule

/-- The driver of NVKMS is what its calls have made it. -/
def KmsAt (s : Loading) : Prop :=
  match s.pc with
  | .unloaded | .putModule | .closeTimerQueue => s.core = false
  | .getModule => s.kms = {} ∧ s.core = false
  | .initTimerQueue | .moduleLoad =>
    s.kms.fNvidiaModule = true ∧ s.kms.fIsKmsLoaded = false ∧ s.core = false
  | .loaded => s.kms.fNvidiaModule = true ∧ s.kms.fIsKmsLoaded = true ∧ s.core = true
  | .moduleUnload =>
    s.core = s.kms.fIsKmsLoaded ∧ (s.kms.fIsKmsLoaded = true → s.kms.fNvidiaModule = true)

/-- The invariant of both drivers, with what has been leaked. -/
structure Sound (leaked : Multiset Resource) (s : Loading) : Prop where
  module : s.toNvidiaModule.Sound leaked
  refs : s.refs = s.nvidia.toNat + s.kmsRefers.toNat
  kmsAt : s.KmsAt
  misused : s.misused = false

variable {leaked : Multiset Resource} {s s' : Loading} {env : Environment}

/-- While NVKMS is loaded or loading, the module is initialised. -/
theorem Sound.initialised (sound : s.Sound leaked) (refers : s.kmsRefers = true) :
    s.driver.isNone = false := by
  have some : s.driver.isSome = true :=
    sound.module.initialised.mpr (by rw [sound.refs, refers]; exact Nat.succ_pos _)
  rwa [Option.isNone_eq_false_iff]

end Loading

/-- What the step leaks. -/
def leakedIn (e : Event Loading LoadingAction) : Multiset Resource :=
  match e.action with
  | .initDriver env | .getModule env => if e.source.refs = 0 then env.leaked else 0
  | _ => 0

namespace Loading

variable {leaked : Multiset Resource} {s s' : Loading} {a : LoadingAction}

/-- A step that leaves the module alone. -/
theorem Sound.keep (sound : s.Sound leaked) (module : s'.toNvidiaModule = s.toNvidiaModule)
    (nvidia : s'.nvidia = s.nvidia) (refers : s'.kmsRefers = s.kmsRefers) (kmsAt : s'.KmsAt)
    (misused : s'.misused = false) : s'.Sound (leaked + 0) := by
  rw [add_zero]
  refine ⟨module ▸ sound.module, ?_, kmsAt, misused⟩
  rw [module, nvidia, refers, sound.refs]

theorem Sound.initDriver {env : Environment} (sound : s.Sound leaked)
    (taken : s.step (.initDriver env) = some s') :
    s'.Sound (leaked + if s.refs = 0 then env.leaked else 0) := by
  obtain ⟨idle, taken⟩ := Option.ite_none_left_eq_some.mp taken
  obtain ⟨done, m, called, counted, after⟩ := sound.module.getModule env
  rw [called, Option.map_some] at taken
  obtain rfl := Option.some.inj taken
  refine ⟨after, ?_, sound.kmsAt, sound.misused⟩
  rw [counted, sound.refs, Bool.eq_false_iff.mpr idle]
  change false.toNat + s.kmsRefers.toNat + _ = _ + s.kmsRefers.toNat
  rw [Bool.toNat_false, Nat.zero_add, Nat.add_comm]

theorem Sound.getModule {env : Environment} (sound : s.Sound leaked)
    (taken : s.step (.getModule env) = some s') :
    s'.Sound (leaked + if s.refs = 0 then env.leaked else 0) := by
  obtain ⟨here, taken⟩ := Option.ite_none_right_eq_some.mp taken
  obtain ⟨done, m, called, counted, after⟩ := sound.module.getModule env
  rw [called, Option.map_some] at taken
  obtain rfl := Option.some.inj taken
  have kmsAt := sound.kmsAt
  rw [KmsAt, here] at kmsAt
  have refers : s.kmsRefers = false := by rw [kmsRefers, here]
  refine ⟨after, ?_, ?_, sound.misused⟩
  · rw [counted, sound.refs, refers]
    cases done <;> rfl
  · cases done with
    | false => exact ⟨by rw [kmsAt.1, kmsAt.2], by rw [kmsAt.1]; nofun⟩
    | true => exact ⟨rfl, by rw [kmsAt.1], kmsAt.2⟩

/-- A driver gives up its reference, and `rest` references are left. -/
theorem Sound.release (sound : s.Sound leaked) (rest : ℕ) (refs : s.refs = rest + 1) :
    ∃ m, s.toNvidiaModule.putModule = some m ∧ m.refs = rest ∧ m.Sound (leaked + 0) := by
  obtain ⟨m, called, counted, after⟩ := sound.module.putModule (refs ▸ Nat.succ_pos rest)
  exact ⟨m, called, Nat.succ.inj (counted.trans refs), (add_zero leaked).symm ▸ after⟩

theorem Sound.uninitDriver (sound : s.Sound leaked) (taken : s.step .uninitDriver = some s') :
    s'.Sound (leaked + 0) := by
  obtain ⟨loaded, taken⟩ := Option.ite_none_right_eq_some.mp taken
  have refs := sound.refs
  rw [loaded, Bool.toNat_true, Nat.add_comm] at refs
  obtain ⟨m, called, counted, after⟩ := sound.release s.kmsRefers.toNat refs
  rw [called, Option.map_some] at taken
  obtain rfl := Option.some.inj taken
  refine ⟨after, counted.trans ?_, sound.kmsAt, sound.misused⟩
  exact (Nat.zero_add _).symm

theorem Sound.putModule (sound : s.Sound leaked) (taken : s.step .putModule = some s') :
    s'.Sound (leaked + 0) := by
  obtain ⟨here, taken⟩ := Option.ite_none_right_eq_some.mp taken
  have kmsAt := sound.kmsAt
  rw [KmsAt, here] at kmsAt
  have refers : s.kmsRefers = s.kms.fNvidiaModule := by rw [kmsRefers, here]
  split at taken
  · next set =>
    have refs := sound.refs
    rw [refers, set, Bool.toNat_true] at refs
    obtain ⟨m, called, counted, after⟩ := sound.release s.nvidia.toNat refs
    rw [called, Option.map_some] at taken
    obtain rfl := Option.some.inj taken
    exact ⟨after, counted, kmsAt, sound.misused⟩
  · next unset =>
    obtain rfl := Option.some.inj taken
    exact sound.keep rfl rfl (by simp [kmsRefers, here, unset]) kmsAt sound.misused

theorem Sound.step (sound : s.Sound leaked) (taken : s.step a = some s') :
    s'.Sound (leaked + leakedIn ⟨s, a, s'⟩) := by
  have kmsAt := sound.kmsAt
  cases a with
  | initDriver env => exact sound.initDriver taken
  | getModule env => exact sound.getModule taken
  | uninitDriver => exact sound.uninitDriver taken
  | putModule => exact sound.putModule taken
  | initKms =>
    obtain ⟨here, taken⟩ := Option.ite_none_right_eq_some.mp taken
    obtain rfl := Option.some.inj taken
    rw [KmsAt, here] at kmsAt
    exact sound.keep rfl rfl (by simp [kmsRefers, here]) ⟨rfl, kmsAt⟩ sound.misused
  | initTimerQueue done =>
    obtain ⟨here, taken⟩ := Option.ite_none_right_eq_some.mp taken
    obtain rfl := Option.some.inj taken
    rw [KmsAt, here] at kmsAt
    refine sound.keep rfl rfl ?_ ?_ sound.misused
    · cases done <;> simp [kmsRefers, here, kmsAt.1]
    · cases done with
      | false => exact ⟨kmsAt.2.2.trans kmsAt.2.1.symm, fun _ => kmsAt.1⟩
      | true => exact kmsAt
  | moduleLoad done =>
    obtain ⟨here, taken⟩ := Option.ite_none_right_eq_some.mp taken
    obtain rfl := Option.some.inj taken
    rw [KmsAt, here] at kmsAt
    have present := sound.initialised (by rw [kmsRefers, here])
    refine sound.keep rfl rfl ?_ ?_ (by simp [sound.misused, kmsAt.2.2, present])
    · cases done <;> simp [kmsRefers, here, kmsAt.1]
    · cases done with
      | false => exact ⟨rfl, nofun⟩
      | true => exact ⟨kmsAt.1, rfl, rfl⟩
  | uninitKms =>
    obtain ⟨here, taken⟩ := Option.ite_none_right_eq_some.mp taken
    obtain rfl := Option.some.inj taken
    rw [KmsAt, here] at kmsAt
    exact sound.keep rfl rfl (by simp [kmsRefers, here, kmsAt.1])
      ⟨kmsAt.2.2.trans kmsAt.2.1.symm, fun _ => kmsAt.1⟩ sound.misused
  | moduleUnload =>
    obtain ⟨here, taken⟩ := Option.ite_none_right_eq_some.mp taken
    rw [KmsAt, here] at kmsAt
    split at taken
    · next loaded =>
      obtain rfl := Option.some.inj taken
      have present := sound.initialised (by rw [kmsRefers, here]; exact kmsAt.2 loaded)
      exact sound.keep rfl rfl (by simp [kmsRefers, here]) rfl
        (by simp [sound.misused, kmsAt.1, loaded, present])
    · next unloaded =>
      obtain rfl := Option.some.inj taken
      exact sound.keep rfl rfl (by simp [kmsRefers, here])
        (kmsAt.1.trans (Bool.eq_false_iff.mpr unloaded)) sound.misused
  | closeTimerQueue =>
    obtain ⟨here, taken⟩ := Option.ite_none_right_eq_some.mp taken
    obtain rfl := Option.some.inj taken
    rw [KmsAt, here] at kmsAt
    exact sound.keep rfl rfl (by simp [kmsRefers, here]) kmsAt sound.misused
  | usePool pool ops =>
    obtain ⟨m, used, rfl⟩ := Option.map_eq_some_iff.mp taken
    obtain ⟨same, after⟩ := sound.module.usePool used
    exact ⟨(add_zero leaked).symm ▸ after, same.trans sound.refs, kmsAt, sound.misused⟩

end Loading

/-- What has been leaked in a run. -/
def leakedBy (past : List (Event Loading LoadingAction)) : Multiset Resource :=
  (past.map leakedIn).sum

/-- What holds while the drivers come and go. -/
structure Loading.Kept (past : List (Event Loading LoadingAction)) (s : Loading) : Prop where
  /-- The module is initialised for as long as a driver refers to it. -/
  initialised : s.driver.isSome = true ↔ s.nvidia = true ∨ s.kmsRefers = true
  refs : s.refs = s.nvidia.toNat + s.kmsRefers.toNat
  /-- NVKMS is loaded once, unloaded once, and run with the module initialised. -/
  misused : s.misused = false
  core : s.core = true → s.driver.isSome = true
  /-- What has been acquired is held by the driver in the module, or has been leaked. -/
  settled : settle 0 s.ledger = some (leakedBy past + s.held)

end NvidiaHaiku.Driver

/-
# The select pool of a handle of the device

`Select`, `Deselect` and `EventQueueChanged` change the flag or the pool of a handle
first and notify afterwards. Other threads may come in between, but not on the same
handle, because `fSelectPoolMutex` is held for both halves. So the calls on a handle
are atomic: whenever the mutex is free, the handle is in a state which the calls reach
one after another, and what is proved of these holds for every handle of the device.
-/

import NvidiaHaiku.Nvkms.DeviceSafety

namespace NvidiaHaiku.Nvkms

open NvidiaHaiku.Math TransitionSystem

variable {θ κ : Type*} [DecidableEq κ]

/-- The call that has done its first half on the handle. -/
def Thread.midway (x : Thread κ) (h : HandlePtr) : Option (SelectCall κ) :=
  (x.pool.filter fun p => p.handle = h && p.stage = .second).map PoolCall.call

/-- The handle is in a state of the atomic calls, or one call is half done on top of that. -/
def Atomic (threads : θ → Thread κ) (h : HandlePtr) (queue : NvHaikuKmsDeviceHandle κ) : Prop :=
  ∃ x, (selecting κ).Reachable x ∧
    (∀ t call, (threads t).midway h = some call → queue = x.first call) ∧
    ((∀ t, (threads t).midway h = none) → queue = x)

/-- Every handle is in a state of the atomic calls, up to a call that is half done. -/
def AllAtomic (s : KmsState θ κ) : Prop :=
  ∀ h handle, s.handles h = some handle → Atomic s.threads h handle.toNvHaikuKmsDeviceHandle

variable {s s' : KmsState θ κ} {t t' : θ} {x y : Thread κ} {h : HandlePtr} {p : PoolCall κ}
  {call : SelectCall κ} {threads : θ → Thread κ} {queue : NvHaikuKmsDeviceHandle κ}

omit [DecidableEq κ] in
theorem midway_eq_some : x.midway h = some call ↔
    ∃ p, x.pool = some p ∧ p.handle = h ∧ p.stage = .second ∧ p.call = call := by
  simp only [Thread.midway, Option.map_eq_some_iff, Option.filter_eq_some_iff, Bool.and_eq_true,
    decide_eq_true_eq, and_assoc]

omit [DecidableEq κ] in
theorem midway_none (alone : x.pool = none) (h : HandlePtr) : x.midway h = none := by
  rw [Thread.midway, alone]
  rfl

omit [DecidableEq κ] in
theorem midway_of_stage (has : x.pool = some p) (stage : p.stage ≠ .second) (h : HandlePtr) :
    x.midway h = none := by
  by_contra some
  obtain ⟨call, midway⟩ := Option.ne_none_iff_exists'.mp some
  obtain ⟨p', has', -, second, -⟩ := midway_eq_some.mp midway
  obtain rfl := Option.some.inj (has.symm.trans has')
  exact stage second

omit [DecidableEq κ] in
/-- Whoever is half done holds the mutex. -/
theorem holdsMutex_of_midway (midway : x.midway h = some call) : x.holdsMutex h = true := by
  obtain ⟨p, has, rfl, stage, -⟩ := midway_eq_some.mp midway
  rw [holdsMutex_eq has, stage]
  simp [PoolStage.holds]

omit [DecidableEq κ] in
/-- One call at a time is half done on a handle. -/
theorem Locked.midway_unique (locked : Locked s) {handle : KmsHandle θ κ}
    (present : s.handles h = some handle) (holds : (s.threads t).holdsMutex h = true)
    (midway : (s.threads t').midway h = some call) : t' = t := by
  have mine := (locked.mutex h handle present t).mpr holds
  have other := (locked.mutex h handle present t').mpr (holdsMutex_of_midway midway)
  exact Option.some.inj (other.symm.trans mine)

theorem atomic_initial (quiet : ∀ t, (threads t).midway h = none) : Atomic threads h {} :=
  ⟨{}, .start rfl, (fun t call midway => by cases (quiet t).symm.trans midway), fun _ => rfl⟩

section Steps

variable [DecidableEq θ]

/-- A thread moves, and is as far with the handle as before. -/
theorem Atomic.keep (atomic : Atomic threads h queue) (same : y.midway h = (threads t).midway h) :
    Atomic (Function.update threads t y) h queue := by
  have unchanged : ∀ t', (Function.update threads t y t').midway h = (threads t').midway h := by
    intro t'
    rcases eq_or_ne t' t with rfl | other
    · rw [Function.update_self, same]
    · rw [Function.update_of_ne other]
  simpa only [Atomic, unchanged] using atomic

/-- A step that is neither half of a call on a select pool. -/
theorem AllAtomic.keep (atomic : AllAtomic s) (threads : s'.threads = Function.update s.threads t y)
    (same : ∀ h, y.midway h = (s.threads t).midway h)
    (handles : ∀ h handle', s'.handles h = some handle' →
      (∃ handle, s.handles h = some handle ∧
        handle'.toNvHaikuKmsDeviceHandle = handle.toNvHaikuKmsDeviceHandle) ∨
      handle'.toNvHaikuKmsDeviceHandle = {} ∧ ∀ t', (s.threads t').midway h = none) :
    AllAtomic s' := by
  intro h handle' present
  rw [threads]
  rcases handles h handle' present with ⟨handle, before, kept⟩ | ⟨new, quiet⟩
  · rw [kept]
    exact (atomic h handle before).keep (same h)
  · rw [new]
    exact (atomic_initial quiet).keep (same h)

omit [DecidableEq κ] [DecidableEq θ] in
/-- The handles, where one of them has changed. -/
theorem queue_of_setHandle {handle' : Option (KmsHandle θ κ)}
    (changed : ∀ new, handle' = some new →
      (∃ old, s.handles h = some old ∧
        new.toNvHaikuKmsDeviceHandle = old.toNvHaikuKmsDeviceHandle) ∨
      new.toNvHaikuKmsDeviceHandle = {} ∧ ∀ t', (s.threads t').midway h = none)
    (h' : HandlePtr) (new : KmsHandle θ κ)
    (present : Function.update s.handles h handle' h' = some new) :
    (∃ old, s.handles h' = some old ∧
        new.toNvHaikuKmsDeviceHandle = old.toNvHaikuKmsDeviceHandle) ∨
      new.toNvHaikuKmsDeviceHandle = {} ∧ ∀ t', (s.threads t').midway h' = none := by
  rcases update_eq_some present with ⟨rfl, same⟩ | ⟨-, before⟩
  · exact changed new same
  · exact Or.inl ⟨new, before, rfl⟩

theorem AllAtomic.starts (atomic : AllAtomic s) (charged : Charged s.registry s.threads)
    (started : Starts s t s') : AllAtomic s' := by
  have unchanged : ∀ h handle, s.handles h = some handle →
      (∃ old, s.handles h = some old ∧
        handle.toNvHaikuKmsDeviceHandle = old.toNvHaikuKmsDeviceHandle) ∨
      handle.toNvHaikuKmsDeviceHandle = {} ∧ ∀ t', (s.threads t').midway h = none :=
    fun h handle present => Or.inl ⟨handle, present, rfl⟩
  cases started with
  | reply | control | free => exact atomic.keep rfl (fun _ => rfl) unchanged
  | @construct h idle unused =>
    refine atomic.keep rfl (fun _ => rfl) (queue_of_setHandle ?_)
    rintro new ⟨⟩
    refine Or.inr ⟨rfl, fun t' => ?_⟩
    -- nobody uses the select pool of a handle that did not exist
    by_contra some
    obtain ⟨call, midway⟩ := Option.ne_none_iff_exists'.mp some
    obtain ⟨p, has, rfl, -⟩ := midway_eq_some.mp midway
    obtain ⟨cookie, present⟩ := charged.exists_of_pool has
    simp [KmsState.registry, unused] at present
  | wait idle =>
    have pool := Option.isNone_iff_eq_none.mp (Bool.and_eq_true_iff.mp idle).2
    refine atomic.keep rfl (fun h => ?_) unchanged
    rw [midway_of_stage rfl (by simp), midway_none pool]
  | callBack inCore =>
    have pool := Option.isNone_iff_eq_none.mp (Bool.and_eq_true_iff.mp inCore).2
    refine atomic.keep rfl (fun h => ?_) unchanged
    rw [midway_of_stage rfl (by simp), midway_none pool]

/-- The first half of a call, on a handle where no call is half done. -/
theorem Atomic.first (atomic : Atomic threads h queue) (quiet : ∀ t, (threads t).midway h = none)
    (midway : y.midway h = some call) :
    Atomic (Function.update threads t y) h (queue.first call) := by
  obtain ⟨x, reached, -, same⟩ := atomic
  obtain rfl := same quiet
  refine ⟨queue, reached, fun t' call' midway' => ?_, fun none => ?_⟩
  · rcases eq_or_ne t' t with rfl | other
    · rw [Function.update_self, midway] at midway'
      rw [Option.some.inj midway']
    · rw [Function.update_of_ne other, quiet] at midway'
      cases midway'
  · have here := none t
    rw [Function.update_self, midway] at here
    cases here

/-- The second half of the only call that is half done: the call is complete. -/
theorem Atomic.second (atomic : Atomic threads h queue) (midway : (threads t).midway h = some call)
    (only : ∀ t' ≠ t, (threads t').midway h = none) (done : y.midway h = none) :
    Atomic (Function.update threads t y) h (queue.second call) := by
  obtain ⟨x, reached, half, -⟩ := atomic
  obtain rfl := half t call midway
  have complete : (selecting κ).step x call ((x.first call).second call) := x.second_first call
  refine ⟨_, reached.step complete, fun t' call' midway' => ?_, fun _ => rfl⟩
  rcases eq_or_ne t' t with rfl | other
  · rw [Function.update_self, done] at midway'
    cases midway'
  · rw [Function.update_of_ne other, only t' other] at midway'
    cases midway'

theorem AllAtomic.advances (atomic : AllAtomic s) (locked : Locked s)
    (advanced : Advances s t s') : AllAtomic s' := by
  have unchanged : ∀ h handle, s.handles h = some handle →
      (∃ old, s.handles h = some old ∧
        handle.toNvHaikuKmsDeviceHandle = old.toNvHaikuKmsDeviceHandle) ∨
      handle.toNvHaikuKmsDeviceHandle = {} ∧ ∀ t', (s.threads t').midway h = none :=
    fun h handle present => Or.inl ⟨handle, present, rfl⟩
  cases advanced with
  | lock | returns | closed | unlock | publish | answer =>
    exact atomic.keep rfl (fun _ => rfl) unchanged
  | opened has alone stage call present =>
    refine atomic.keep rfl (fun _ => rfl) (queue_of_setHandle ?_)
    rintro new ⟨⟩
    exact Or.inl ⟨_, present, rfl⟩
  | delete =>
    refine atomic.keep rfl (fun _ => rfl) (queue_of_setHandle ?_)
    rintro new ⟨⟩
  | lockPool has present stage =>
    refine atomic.keep rfl (fun h => ?_) (queue_of_setHandle ?_)
    · rw [midway_of_stage rfl (by simp), midway_of_stage has (by simp [stage])]
    · rintro new ⟨⟩
      exact Or.inl ⟨_, present, rfl⟩
  | @first p handle has present stage =>
    have holds : (s.threads t).holdsMutex p.handle = true := by
      rw [holdsMutex_eq has, stage]
      simp [PoolStage.holds]
    have here := midway_of_stage has (by simp [stage])
    -- a call that is half done on this handle would hold the mutex, which this thread does
    have quiet : ∀ t', (s.threads t').midway p.handle = none := by
      intro t'
      by_contra some
      obtain ⟨call, midway⟩ := Option.ne_none_iff_exists'.mp some
      obtain rfl := locked.midway_unique present holds midway
      exact some (here p.handle)
    intro h new changed
    rcases update_eq_some changed with ⟨rfl, same⟩ | ⟨different, kept⟩
    · obtain rfl := Option.some.inj same
      exact (atomic _ handle present).first quiet (midway_eq_some.mpr ⟨_, rfl, rfl, rfl, rfl⟩)
    · refine (atomic h new kept).keep ?_
      rw [here, Option.eq_none_iff_forall_ne_some]
      rintro call midway
      obtain ⟨p', has', rfl, -⟩ := midway_eq_some.mp midway
      exact different (congrArg PoolCall.handle (Option.some.inj has')).symm
  | @second p handle has present stage =>
    have midway : (s.threads t).midway p.handle = some p.call :=
      midway_eq_some.mpr ⟨p, has, rfl, stage, rfl⟩
    have only : ∀ t' ≠ t, (s.threads t').midway p.handle = none := by
      intro t' other
      by_contra some
      obtain ⟨call, half⟩ := Option.ne_none_iff_exists'.mp some
      exact other (locked.midway_unique present (holdsMutex_of_midway midway) half)
    intro h new changed
    rcases update_eq_some changed with ⟨rfl, same⟩ | ⟨different, kept⟩
    · obtain rfl := Option.some.inj same
      exact (atomic _ handle present).second midway only (midway_none rfl _)
    · refine (atomic h new kept).keep ?_
      rw [midway_none rfl, eq_comm, Option.eq_none_iff_forall_ne_some]
      rintro call midway
      obtain ⟨p', has', rfl, -⟩ := midway_eq_some.mp midway
      exact different (congrArg PoolCall.handle (Option.some.inj (has'.symm.trans has)))

end Steps

variable [DecidableEq θ] [Fintype θ]

theorem allAtomic_of_reachable (reached : (kmsDevice θ κ).Reachable s) : AllAtomic s := by
  suffices both : Sound s ∧ AllAtomic s from both.2
  refine reached.invariant (P := fun s => Sound s ∧ AllAtomic s)
    (fun _ same => same ▸ ⟨sound_initial, nofun⟩) ?_
  rintro s a s' ⟨sound, atomic⟩ taken
  refine ⟨sound.step taken, ?_⟩
  rcases moves_of_step sound.charged taken with started | advanced
  · exact atomic.starts sound.charged started
  · exact atomic.advances sound.locked advanced

/-- What the mutex of the select pool is for. -/
structure SelectAtomic (handle : KmsHandle θ κ) : Prop where
  /-- The calls on the handle might have been made one after another. -/
  reachable : (selecting κ).Reachable handle.toNvHaikuKmsDeviceHandle
  /-- While events are available, every client that waits has been told. -/
  level : handle.toNvHaikuKmsDeviceHandle.LevelTriggered

/-- Whenever nobody is at the select pool of a handle, the calls on it have been atomic, and
readiness is level-triggered, whatever the threads do on this handle and on others. -/
theorem selectAtomic_of_reachable (reached : (kmsDevice θ κ).Reachable s) {h : HandlePtr}
    {handle : KmsHandle θ κ} (present : s.handles h = some handle)
    (free : handle.fSelectPoolMutex = none) : SelectAtomic handle := by
  obtain ⟨x, atomic, -, same⟩ := allAtomic_of_reachable reached h handle present
  have locked := (sound_of_reachable reached).locked
  have quiet : ∀ t, (s.threads t).midway h = none := by
    intro t
    by_contra some
    obtain ⟨call, midway⟩ := Option.ne_none_iff_exists'.mp some
    have holder := (locked.mutex h handle present t).mpr (holdsMutex_of_midway midway)
    cases free.symm.trans holder
  obtain rfl := same quiet
  obtain ⟨past, run⟩ := atomic
  exact ⟨⟨past, run⟩, (levelTriggered_of_run run).1⟩

/-- A client comes to wait while NVKMS reports an event. -/
def waiting : List (KmsAction Bool Unit) :=
  calledBack ++ [.advance true none false, .advance true none false, .advance false none false,
    .advance false none false, .advance false none false]

theorem selectAtomic_waiting : ∃ past s handle, (kmsDevice Bool Unit).Run past s ∧
    s.handles 5 = some handle ∧ handle.fEventsAvailable = true ∧
    handle.fSelectPool.entries = {()} ∧ SelectAtomic handle := by
  have run := (Run.start (T := kmsDevice Bool Unit) rfl).play waiting (by decide)
  exact ⟨_, _, _, run, rfl, by decide, by decide,
    selectAtomic_of_reachable (h := 5) run.reachable rfl rfl⟩

end NvidiaHaiku.Nvkms

/-
# Every call into NVKMS is made on a handle that is there

NVKMS keeps a pointer to the handle of each client, and calls back through it from
whatever thread is in NVKMS at the time. So the handle has to outlive the client,
and the client must not be closed twice or used after that. The driver sees to it
by the order in `Open` and in the destructor: a handle exists before its client
does, and is deleted only after `nvKmsClose` has returned and `Locker` has been
released; `Locker` keeps every other thread out of NVKMS in between.

With the locks told apart from the handles, the step lemma has two halves: who holds
which lock, and who is in charge of which handle.
-/

import NvidiaHaiku.Nvkms.Charges

namespace NvidiaHaiku.Nvkms

open NvidiaHaiku.Math TransitionSystem
open NvidiaHaiku.Libc (B_SELECT_READ)

variable {θ κ : Type*}

/-! ## Who holds which lock -/

/-- The call is between the acquisition and the release of `Locker`. -/
def CoreStage.holds : CoreStage → Bool
  | .core | .unlock _ => true
  | .lock | .finish _ => false

/-- The call is between the acquisition and the release of `fSelectPoolMutex`. -/
def PoolStage.holds : PoolStage → Bool
  | .first | .second => true
  | .lock => false

/-- The thread is in a call that holds `Locker`. -/
def Thread.holdsLocker (x : Thread κ) : Bool := x.core.any (·.stage.holds)

/-- The thread is in a call that holds the mutex of the handle. -/
def Thread.holdsMutex (x : Thread κ) (h : HandlePtr) : Bool :=
  x.pool.any fun p => p.handle = h && p.stage.holds

/-- Each lock is held by the thread that says so, and by no other. -/
structure Locked (s : KmsState θ κ) : Prop where
  locker : ∀ t, s.locker = some t ↔ (s.threads t).holdsLocker = true
  mutex : ∀ h handle, s.handles h = some handle → ∀ t,
    handle.fSelectPoolMutex = some t ↔ (s.threads t).holdsMutex h = true

/-! ## What a step does

`Starts s t s'` and `Advances s t s'` are the steps of thread `t` from `s` to `s'`, with the
branches told apart. They leave out the branches on which a fault is noted, which no step takes
as long as every handle is in the charge of someone. -/

variable {s s' : KmsState θ κ} {t t' : θ} {c c' : CoreCall} {p : PoolCall κ} {x y : Thread κ}
  {h : HandlePtr}

variable [DecidableEq θ] [DecidableEq κ]

/-- devfs or NVKMS makes a call, which may return at once. -/
inductive Starts (s : KmsState θ κ) (t : θ) : KmsState θ κ → Prop
  /-- The call returns at once. -/
  | reply {status : KmsStatus} (idle : (s.threads t).idle = true) :
      Starts s t (s.setThread t { s.threads t with status := status })
  | construct {h : HandlePtr} (idle : (s.threads t).idle = true) (unused : s.handles h = none) :
      Starts s t ((s.setHandle h (some {})).setThread t
        { s.threads t with core := some ⟨.nvKmsOpen, h, .lock⟩ })
  | control {h : HandlePtr} {cmd : BitVec 32} (idle : (s.threads t).idle = true)
      (published : s.published h = true) :
      Starts s t (s.setThread t { s.threads t with core := some ⟨.nvKmsIoctl cmd, h, .lock⟩ })
  | free {h : HandlePtr} (idle : (s.threads t).idle = true) (published : s.published h = true)
      (unused : ∀ t', (s.threads t').uses h = false) :
      Starts s t ({ s with published := Function.update s.published h false }.setThread t
        { s.threads t with core := some ⟨.nvKmsClose, h, .lock⟩ })
  | wait {h : HandlePtr} {call : SelectCall κ} (idle : (s.threads t).idle = true)
      (published : s.published h = true) :
      Starts s t (s.setThread t { s.threads t with pool := some ⟨call, h, .lock⟩ })
  | callBack {client : Option Cookie} {h : HandlePtr} {call : SelectCall κ}
      (inCore : (s.threads t).inCore = true)
      (target : s.calledBack (s.threads t) client = some h) :
      Starts s t (s.setThread t { s.threads t with pool := some ⟨call, h, .lock⟩ })

/-- A thread goes on with its call. -/
inductive Advances (s : KmsState θ κ) (t : θ) : KmsState θ κ → Prop
  | lock {c : CoreCall} (has : (s.threads t).core = some c) (alone : (s.threads t).pool = none)
      (stage : c.stage = .lock) (free : s.locker = none) :
      Advances s t ({ s with locker := some t }.setThread t
        { s.threads t with core := some { c with stage := .core } })
  | returns {c : CoreCall} {res : Bool} (has : (s.threads t).core = some c)
      (alone : (s.threads t).pool = none) (stage : c.stage = .core) (kept : c.call ≠ .nvKmsClose) :
      Advances s t (s.setThread t { s.threads t with core := some { c with stage := .unlock res } })
  | opened {c : CoreCall} {handle : KmsHandle θ κ} {k : Cookie}
      (has : (s.threads t).core = some c) (alone : (s.threads t).pool = none)
      (stage : c.stage = .core) (call : c.call = .nvKmsOpen)
      (present : s.handles c.handle = some handle) (fresh : s.clients k = none) :
      Advances s t ({ s with clients := Function.update s.clients k (some c.handle) }
        |>.setHandle c.handle (some { handle with fCookie := some k })
        |>.setThread t { s.threads t with core := some { c with stage := .unlock true } })
  | closed {c : CoreCall} {k : Cookie} (has : (s.threads t).core = some c)
      (alone : (s.threads t).pool = none) (stage : c.stage = .core) (call : c.call = .nvKmsClose)
      (client : s.clients k = some c.handle) :
      Advances s t ({ s with clients := fun k' => if some k = some k' then none else s.clients k' }
        |>.setThread t { s.threads t with core := some { c with stage := .unlock true } })
  | unlock {c : CoreCall} {res : Bool} (has : (s.threads t).core = some c)
      (alone : (s.threads t).pool = none) (stage : c.stage = .unlock res) :
      Advances s t ({ s with locker := none }.setThread t
        { s.threads t with core := some { c with stage := .finish res } })
  | publish {c : CoreCall} {res : Bool} {handle : KmsHandle θ κ} {k : Cookie}
      (has : (s.threads t).core = some c) (alone : (s.threads t).pool = none)
      (stage : c.stage = .finish res) (call : c.call = .nvKmsOpen)
      (present : s.handles c.handle = some handle) (cookie : handle.fCookie = some k) :
      Advances s t ({ s with published := Function.update s.published c.handle true }.setThread t
        { s.threads t with core := none, status := .ok })
  | answer {c : CoreCall} {res : Bool} {cmd : BitVec 32} {status : KmsStatus}
      (has : (s.threads t).core = some c) (alone : (s.threads t).pool = none)
      (stage : c.stage = .finish res) (call : c.call = .nvKmsIoctl cmd) :
      Advances s t (s.setThread t { s.threads t with core := none, status := status })
  | delete {c : CoreCall} {res : Bool} {status : KmsStatus}
      (has : (s.threads t).core = some c) (alone : (s.threads t).pool = none)
      (stage : c.stage = .finish res) (claims : c.claims c.handle)
      (unknown : ∀ k, s.clients k ≠ some c.handle) :
      Advances s t ((s.setHandle c.handle none).setThread t
        { s.threads t with core := none, status := status })
  | lockPool {p : PoolCall κ} {handle : KmsHandle θ κ} (has : (s.threads t).pool = some p)
      (present : s.handles p.handle = some handle) (stage : p.stage = .lock)
      (free : handle.fSelectPoolMutex = none) :
      Advances s t ((s.setHandle p.handle (some { handle with fSelectPoolMutex := some t })).setThread t
        { s.threads t with pool := some { p with stage := .first } })
  | first {p : PoolCall κ} {handle : KmsHandle θ κ} (has : (s.threads t).pool = some p)
      (present : s.handles p.handle = some handle) (stage : p.stage = .first) :
      Advances s t ((s.setHandle p.handle (some { handle with
          toNvHaikuKmsDeviceHandle := handle.first p.call })).setThread t
        { s.threads t with pool := some { p with stage := .second } })
  | second {p : PoolCall κ} {handle : KmsHandle θ κ} (has : (s.threads t).pool = some p)
      (present : s.handles p.handle = some handle) (stage : p.stage = .second) :
      Advances s t ((s.setHandle p.handle (some { handle with
          toNvHaikuKmsDeviceHandle := handle.second p.call
          fSelectPoolMutex := none })).setThread t { s.threads t with pool := none })

theorem advances_of_advancePool (charged : Charged s.registry s.threads)
    (has : (s.threads t).pool = some p)
    (taken : s.advancePool t (s.threads t) p = some s') : Advances s t s' := by
  obtain ⟨cookie, present⟩ := charged.exists_of_pool has
  obtain ⟨handle, present, -⟩ := cookieOf_eq_some.mp present
  rw [KmsState.advancePool, KmsState.access, present] at taken
  dsimp only at taken
  cases stage : p.stage with
  | lock =>
    rw [stage] at taken
    obtain ⟨free, rfl⟩ := of_guarded taken
    exact .lockPool has present stage free
  | first =>
    rw [stage] at taken
    obtain rfl := Option.some.inj taken
    exact .first has present stage
  | second =>
    rw [stage] at taken
    obtain rfl := Option.some.inj taken
    exact .second has present stage

theorem advances_of_core (charged : Charged s.registry s.threads) {call : KmsCall}
    (has : (s.threads t).core = some ⟨call, h, .core⟩) (alone : (s.threads t).pool = none)
    {cookie : Option Cookie} {res : Bool}
    (taken : s.advanceCore t (s.threads t) ⟨call, h, .core⟩ cookie res = some s') :
    Advances s t s' := by
  have serves := charged.core t _ has
  obtain ⟨_, present⟩ := charged.exists_of_core has
  obtain ⟨handle, present, -⟩ := cookieOf_eq_some.mp present
  simp only [KmsState.advanceCore, KmsState.access, present] at taken
  cases call with
  | nvKmsOpen =>
    cases cookie with
    | none =>
      obtain rfl := Option.some.inj taken
      exact .returns has alone rfl nofun
    | some k =>
      obtain ⟨fresh, rfl⟩ := of_guarded taken
      exact .opened has alone rfl rfl present fresh
  | nvKmsIoctl cmd =>
    -- the handle is published, so NVKMS has its client
    obtain ⟨k, known, client⟩ := charged.published _ serves
    obtain ⟨handle', present', cookie⟩ := cookieOf_eq_some.mp known
    obtain rfl := Option.some.inj (present.symm.trans present')
    have used : s.useCookie (some k) = s :=
      if_pos (Option.isSome_iff_exists.mpr ⟨_, client⟩)
    simp only [cookie, used] at taken
    obtain rfl := Option.some.inj taken
    exact .returns has alone rfl nofun
  | nvKmsClose =>
    obtain ⟨-, k, known, client⟩ := serves
    obtain ⟨handle', present', cookie⟩ := cookieOf_eq_some.mp known
    obtain rfl := Option.some.inj (present.symm.trans present')
    have used : s.useCookie (some k) = s :=
      if_pos (Option.isSome_iff_exists.mpr ⟨_, client⟩)
    simp only [cookie, used] at taken
    obtain rfl := Option.some.inj taken
    exact .closed has alone rfl rfl client

theorem advances_of_finish (charged : Charged s.registry s.threads) {call : KmsCall} {done : Bool}
    (has : (s.threads t).core = some ⟨call, h, .finish done⟩) (alone : (s.threads t).pool = none)
    {cookie : Option Cookie} {res : Bool}
    (taken : s.advanceCore t (s.threads t) ⟨call, h, .finish done⟩ cookie res = some s') :
    Advances s t s' := by
  have serves := charged.core t _ has
  obtain ⟨_, present⟩ := charged.exists_of_core has
  obtain ⟨handle, present, -⟩ := cookieOf_eq_some.mp present
  simp only [KmsState.advanceCore, KmsState.access, present] at taken
  cases call with
  | nvKmsOpen =>
    cases cookie : handle.fCookie with
    | none =>
      rw [if_pos cookie] at taken
      obtain rfl := Option.some.inj taken
      refine .delete has alone rfl ⟨rfl, nofun⟩ fun k client => ?_
      -- a client would have left its cookie in the handle
      obtain ⟨handle', present', known⟩ := cookieOf_eq_some.mp (charged.client k _ client)
      obtain rfl := Option.some.inj (present.symm.trans present')
      cases cookie.symm.trans known
    | some k =>
      rw [if_neg (by simp [cookie])] at taken
      obtain rfl := Option.some.inj taken
      exact .publish has alone rfl rfl present cookie
  | nvKmsIoctl cmd =>
    obtain rfl := Option.some.inj taken
    exact .answer has alone rfl rfl
  | nvKmsClose =>
    obtain rfl := Option.some.inj taken
    exact .delete has alone rfl ⟨rfl, nofun⟩ serves.2.2

theorem advances_of_advanceCore (charged : Charged s.registry s.threads)
    (has : (s.threads t).core = some c) (alone : (s.threads t).pool = none)
    {cookie : Option Cookie} {res : Bool}
    (taken : s.advanceCore t (s.threads t) c cookie res = some s') : Advances s t s' := by
  obtain ⟨call, h, stage⟩ := c
  cases stage with
  | lock =>
    obtain ⟨free, rfl⟩ := of_guarded taken
    exact .lock has alone rfl free
  | core => exact advances_of_core charged has alone taken
  | unlock res =>
    obtain rfl := Option.some.inj taken
    exact .unlock has alone rfl
  | finish res => exact advances_of_finish charged has alone taken

variable [Fintype θ]

/-- The thread that takes the step. -/
def KmsAction.thread : KmsAction θ κ → θ
  | .openDevice t _ | .control t _ _ | .freeHandle t _ | .select t _ _ _ _ | .deselect t _ _ _ _
  | .eventQueueChanged t _ _ | .advance t _ _ => t

theorem advances_of_step (charged : Charged s.registry s.threads) {cookie : Option Cookie}
    {res : Bool} (taken : s.step (.advance t cookie res) = some s') : Advances s t s' := by
  simp only [KmsState.step] at taken
  split at taken
  · exact advances_of_advancePool charged ‹_› taken
  · exact advances_of_advanceCore charged ‹_› ‹_› taken
  · cases taken

theorem moves_of_step (charged : Charged s.registry s.threads) {a : KmsAction θ κ}
    (taken : s.step a = some s') : Starts s a.thread s' ∨ Advances s a.thread s' := by
  cases a with
  | openDevice t h =>
    obtain ⟨idle, taken⟩ := Option.ite_none_right_eq_some.mp taken
    cases h with
    | none =>
      obtain rfl := Option.some.inj taken
      exact Or.inl (.reply idle)
    | some h =>
      obtain ⟨unused, rfl⟩ := of_guarded taken
      exact Or.inl (.construct idle (Option.isNone_iff_eq_none.mp unused))
  | control t h op =>
    obtain ⟨guard, taken⟩ := Option.ite_none_right_eq_some.mp taken
    obtain ⟨idle, published⟩ := Bool.and_eq_true_iff.mp guard
    split at taken
    · obtain rfl := Option.some.inj taken
      exact Or.inl (.reply idle)
    · obtain rfl := Option.some.inj taken
      exact Or.inl (.control idle published)
  | freeHandle t h =>
    obtain ⟨⟨idle, published, unused⟩, taken⟩ := Option.ite_none_right_eq_some.mp taken
    obtain ⟨k, known, -⟩ := charged.published h published
    obtain ⟨handle, present, cookie⟩ := cookieOf_eq_some.mp known
    simp only [KmsState.access, present, cookie, reduceCtorEq, if_false] at taken
    obtain rfl := Option.some.inj taken
    exact Or.inl (.free idle published unused)
  | select t h event sync added =>
    obtain ⟨guard, rfl⟩ := of_guarded taken
    obtain ⟨idle, published⟩ := Bool.and_eq_true_iff.mp guard
    exact Or.inl (.wait idle published)
  | deselect t h event sync removed =>
    obtain ⟨guard, rfl⟩ := of_guarded taken
    obtain ⟨idle, published⟩ := Bool.and_eq_true_iff.mp guard
    exact Or.inl (.wait idle published)
  | eventQueueChanged t client eventsAvailable =>
    obtain ⟨inCore, taken⟩ := Option.ite_none_right_eq_some.mp taken
    obtain ⟨h, target, rfl⟩ := Option.map_eq_some_iff.mp taken
    exact Or.inl (.callBack inCore target)
  | advance t cookie res => exact Or.inr (advances_of_step charged taken)

/-! ## The invariant -/

section Locks

omit [DecidableEq κ] [Fintype θ]

/-- A step of `t` concerns the locks that `t` holds. -/
theorem Locked.update (locked : Locked s) (threads : s'.threads = Function.update s.threads t x)
    (locker : ∀ t' ≠ t, s'.locker = some t' ↔ s.locker = some t')
    (ownLocker : s'.locker = some t ↔ x.holdsLocker = true)
    (mutex : ∀ h handle', s'.handles h = some handle' →
      (∀ t' ≠ t, handle'.fSelectPoolMutex = some t' ↔ (s.threads t').holdsMutex h = true) ∧
        (handle'.fSelectPoolMutex = some t ↔ x.holdsMutex h = true)) : Locked s' where
  locker t' := by
    rw [threads]
    rcases eq_or_ne t' t with rfl | other
    · rw [Function.update_self]
      exact ownLocker
    · rw [Function.update_of_ne other, locker t' other]
      exact locked.locker t'
  mutex h handle' present t' := by
    rw [threads]
    rcases eq_or_ne t' t with rfl | other
    · rw [Function.update_self]
      exact (mutex h handle' present).2
    · rw [Function.update_of_ne other]
      exact (mutex h handle' present).1 t' other

/-- A step that takes and releases no lock. -/
theorem Locked.keep (locked : Locked s) (threads : s'.threads = Function.update s.threads t x)
    (locker : s'.locker = s.locker) (holdsLocker : x.holdsLocker = (s.threads t).holdsLocker)
    (holdsMutex : ∀ h, x.holdsMutex h = (s.threads t).holdsMutex h)
    (mutex : ∀ h handle', s'.handles h = some handle' →
      (∃ handle, s.handles h = some handle ∧ handle'.fSelectPoolMutex = handle.fSelectPoolMutex) ∨
        handle'.fSelectPoolMutex = none ∧ ∀ t', (s.threads t').holdsMutex h = false) :
    Locked s' := by
  refine locked.update threads (fun t' _ => by rw [locker]) ?_ fun h handle' present => ?_
  · rw [locker, holdsLocker]
    exact locked.locker t
  · rw [holdsMutex]
    rcases mutex h handle' present with ⟨handle, before, same⟩ | ⟨none, unheld⟩
    · rw [same]
      exact ⟨fun t' _ => locked.mutex h handle before t', locked.mutex h handle before t⟩
    · simp [none, unheld]

omit [DecidableEq θ] in
/-- A handle of the changed state is the one that has changed, or was there before. -/
theorem update_eq_some {α : Type*} {f : HandlePtr → Option α} {value : Option α} {new : α}
    {h' : HandlePtr} (present : Function.update f h value h' = some new) :
    h' = h ∧ value = some new ∨ h' ≠ h ∧ f h' = some new := by
  rcases eq_or_ne h' h with rfl | different
  · exact Or.inl ⟨rfl, by rwa [Function.update_self] at present⟩
  · exact Or.inr ⟨different, by rwa [Function.update_of_ne different] at present⟩

omit [DecidableEq θ] in
/-- The mutexes of the handles, where one handle has changed. -/
theorem mutex_of_setHandle {handle' : Option (KmsHandle θ κ)}
    (changed : ∀ new, handle' = some new → (∃ old, s.handles h = some old ∧
      new.fSelectPoolMutex = old.fSelectPoolMutex) ∨
        new.fSelectPoolMutex = none ∧ ∀ t', (s.threads t').holdsMutex h = false)
    (h' : HandlePtr) (new : KmsHandle θ κ)
    (present : Function.update s.handles h handle' h' = some new) :
    (∃ old, s.handles h' = some old ∧ new.fSelectPoolMutex = old.fSelectPoolMutex) ∨
      new.fSelectPoolMutex = none ∧ ∀ t', (s.threads t').holdsMutex h' = false := by
  rcases update_eq_some present with ⟨rfl, same⟩ | ⟨-, before⟩
  · exact changed new same
  · exact Or.inl ⟨new, before, rfl⟩

omit [DecidableEq θ] in
/-- The mutexes of the handles, where no handle has changed. -/
theorem mutex_of_unchanged (s : KmsState θ κ) (h : HandlePtr) (handle : KmsHandle θ κ)
    (present : s.handles h = some handle) :
    (∃ old, s.handles h = some old ∧ handle.fSelectPoolMutex = old.fSelectPoolMutex) ∨
      handle.fSelectPoolMutex = none ∧ ∀ t', (s.threads t').holdsMutex h = false :=
  Or.inl ⟨handle, present, rfl⟩

/-- A thread that waits for `Locker` or has released it does not hold it. -/
theorem holdsLocker_eq (has : y.core = some c) : y.holdsLocker = c.stage.holds := by
  rw [Thread.holdsLocker, has]
  rfl

theorem holdsMutex_eq (has : y.pool = some p) (h : HandlePtr) :
    y.holdsMutex h = (decide (p.handle = h) && p.stage.holds) := by
  rw [Thread.holdsMutex, has]
  rfl

theorem holdsMutex_none (alone : y.pool = none) (h : HandlePtr) : y.holdsMutex h = false := by
  rw [Thread.holdsMutex, alone]
  rfl

theorem holdsLocker_none (none : y.core = none) : y.holdsLocker = false := by
  rw [Thread.holdsLocker, none]
  rfl

omit [DecidableEq θ] in
/-- One thread is in NVKMS at a time. -/
theorem Locked.core_unique (locked : Locked s) (has : (s.threads t).core = some c)
    (has' : (s.threads t').core = some c') (holds : c.stage.holds = true)
    (holds' : c'.stage.holds = true) : t' = t := by
  have mine := (locked.locker t).mpr ((holdsLocker_eq has).trans holds)
  have other := (locked.locker t').mpr ((holdsLocker_eq has').trans holds')
  exact Option.some.inj (other.symm.trans mine)

end Locks

omit [DecidableEq κ] [Fintype θ] in
theorem Locked.starts (locked : Locked s) (charged : Charged s.registry s.threads)
    (started : Starts s t s') : Locked s' := by
  cases started with
  | reply idle => exact locked.keep rfl rfl rfl (fun _ => rfl) (mutex_of_unchanged s)
  | @construct h idle unused =>
    obtain ⟨core, pool⟩ := Bool.and_eq_true_iff.mp idle
    rw [Option.isNone_iff_eq_none] at core
    refine locked.keep rfl rfl ?_ (fun _ => rfl) (mutex_of_setHandle ?_)
    · rw [holdsLocker_eq rfl, holdsLocker_none core]
      rfl
    · -- nobody uses the select pool of a handle that did not exist
      rintro new ⟨⟩
      refine Or.inr ⟨rfl, fun t' => ?_⟩
      cases pool : (s.threads t').pool with
      | none => exact holdsMutex_none pool _
      | some p =>
        obtain ⟨cookie, present⟩ := charged.exists_of_pool pool
        have different : p.handle ≠ h := by
          rintro rfl
          simp [KmsState.registry, unused] at present
        rw [holdsMutex_eq pool, decide_eq_false different, Bool.false_and]
  | control idle | free idle =>
    obtain ⟨core, pool⟩ := Bool.and_eq_true_iff.mp idle
    rw [Option.isNone_iff_eq_none] at core
    refine locked.keep rfl rfl ?_ (fun _ => rfl) (mutex_of_unchanged s)
    rw [holdsLocker_eq rfl, holdsLocker_none core]
    rfl
  | wait idle =>
    obtain ⟨core, pool⟩ := Bool.and_eq_true_iff.mp idle
    rw [Option.isNone_iff_eq_none] at pool
    refine locked.keep rfl rfl rfl (fun h => ?_) (mutex_of_unchanged s)
    rw [holdsMutex_eq rfl, holdsMutex_none pool]
    exact Bool.and_false _
  | callBack inCore =>
    obtain ⟨core, pool⟩ := Bool.and_eq_true_iff.mp inCore
    rw [Option.isNone_iff_eq_none] at pool
    refine locked.keep rfl rfl rfl (fun h => ?_) (mutex_of_unchanged s)
    rw [holdsMutex_eq rfl, holdsMutex_none pool]
    exact Bool.and_false _

omit [Fintype θ] in
theorem Locked.advances (locked : Locked s) (advanced : Advances s t s') : Locked s' := by
  cases advanced with
  | lock has alone stage free =>
    refine locked.update rfl (fun t' other => ?_) ?_ fun h handle present => ?_
    · simp [KmsState.setThread, free, other.symm]
    · rw [holdsLocker_eq rfl]
      exact iff_of_true rfl rfl
    · exact ⟨fun t' _ => locked.mutex h handle present t', locked.mutex h handle present t⟩
  | returns has alone stage | closed has alone stage =>
    refine locked.keep rfl rfl ?_ (fun _ => rfl) (mutex_of_unchanged s)
    rw [holdsLocker_eq rfl, holdsLocker_eq has, stage]
    rfl
  | opened has alone stage call present =>
    refine locked.keep rfl rfl ?_ (fun _ => rfl) (mutex_of_setHandle ?_)
    · rw [holdsLocker_eq rfl, holdsLocker_eq has, stage]
      rfl
    · rintro new ⟨⟩
      exact Or.inl ⟨_, present, rfl⟩
  | unlock has alone stage =>
    refine locked.update rfl (fun t' other => ?_) ?_ fun h handle present => ?_
    · -- the lock was held by this thread
      have mine := (locked.locker t).mpr (by rw [holdsLocker_eq has, stage]; rfl)
      simp [KmsState.setThread, mine, other.symm]
    · rw [holdsLocker_eq rfl]
      exact iff_of_false nofun nofun
    · exact ⟨fun t' _ => locked.mutex h handle present t', locked.mutex h handle present t⟩
  | publish has alone stage | answer has alone stage =>
    refine locked.keep rfl rfl ?_ (fun _ => rfl) (mutex_of_unchanged s)
    rw [holdsLocker_none rfl, holdsLocker_eq has, stage]
    rfl
  | delete has alone stage =>
    refine locked.keep rfl rfl ?_ (fun _ => rfl) (mutex_of_setHandle ?_)
    · rw [holdsLocker_none rfl, holdsLocker_eq has, stage]
      rfl
    · rintro new ⟨⟩
  | @lockPool p handle has present stage free =>
    refine locked.update rfl (fun t' _ => Iff.rfl) (locked.locker t) fun h new changed => ?_
    rw [holdsMutex_eq rfl]
    rcases update_eq_some changed with ⟨rfl, same⟩ | ⟨different, kept⟩
    · obtain rfl := Option.some.inj same
      refine ⟨fun t' other => ?_, iff_of_true rfl (by simp [PoolStage.holds])⟩
      rw [← locked.mutex _ handle present t', free]
      simp [other.symm]
    · refine ⟨fun t' _ => locked.mutex h new kept t', ?_⟩
      rw [locked.mutex h new kept t, holdsMutex_eq has]
      simp [different.symm]
  | @first p handle has present stage =>
    refine locked.keep rfl rfl rfl (fun h => ?_) (mutex_of_setHandle ?_)
    · rw [holdsMutex_eq rfl, holdsMutex_eq has, stage]
      rfl
    · rintro new ⟨⟩
      exact Or.inl ⟨_, present, rfl⟩
  | @second p handle has present stage =>
    refine locked.update rfl (fun t' _ => Iff.rfl) (locked.locker t) fun h new changed => ?_
    rw [holdsMutex_none rfl]
    rcases update_eq_some changed with ⟨rfl, same⟩ | ⟨different, kept⟩
    · obtain rfl := Option.some.inj same
      refine ⟨fun t' other => ?_, iff_of_false nofun nofun⟩
      -- the mutex was held by this thread
      have mine := (locked.mutex _ handle present t).mpr <| by
        rw [holdsMutex_eq has, stage]
        simp [PoolStage.holds]
      rw [← locked.mutex _ handle present t', mine]
      simp [other.symm]
    · refine ⟨fun t' _ => locked.mutex h new kept t', ?_⟩
      rw [locked.mutex h new kept t, holdsMutex_eq has]
      simp [different.symm]

omit [DecidableEq κ] [Fintype θ] in
theorem Charged.starts (charged : Charged s.registry s.threads) (started : Starts s t s') :
    Charged s'.registry s'.threads := by
  cases started with
  | reply idle => exact charged.usePool rfl fun p has => charged.pool t p has
  | @construct h idle unused =>
    obtain ⟨core, pool⟩ := Bool.and_eq_true_iff.mp idle
    have constructed := charged.construct (h := h) (x := { s.threads t with
        core := some ⟨.nvKmsOpen, h, .lock⟩ }) (Option.isNone_iff_eq_none.mp core)
      (Option.isNone_iff_eq_none.mp pool) (by simp [KmsState.registry, unused]) rfl
    rw [← Option.map_some (f := KmsHandle.fCookie) (a := ({} : KmsHandle θ κ)),
      ← registry_setHandle] at constructed
    exact constructed
  | control idle published =>
    obtain ⟨core, pool⟩ := Bool.and_eq_true_iff.mp idle
    rw [Option.isNone_iff_eq_none] at core pool
    refine charged.move (fun c has => ?_) (fun p has => by cases pool.symm.trans has) fun h => ?_
    · obtain rfl := Option.some.inj has
      exact published
    · -- a call of `nvKmsIoctl` is in charge of nothing
      refine iff_of_false ?_ ?_
      · rintro ⟨c, has, claims⟩
        obtain rfl := Option.some.inj has
        exact claims.2 _ rfl
      · rintro ⟨c, has, -⟩
        cases core.symm.trans has
  | free idle published unused =>
    exact charged.unpublish idle published unused rfl
      (Option.isNone_iff_eq_none.mp (Bool.and_eq_true_iff.mp idle).2)
  | wait idle published =>
    have core := Option.isNone_iff_eq_none.mp (Bool.and_eq_true_iff.mp idle).1
    refine charged.usePool rfl fun p has => ?_
    obtain rfl := Option.some.inj has
    rw [core]
    exact published
  | @callBack client h call inCore target =>
    refine charged.usePool rfl fun p has => ?_
    obtain rfl := Option.some.inj has
    obtain ⟨within, -⟩ := Bool.and_eq_true_iff.mp inCore
    cases core : (s.threads t).core with
    | none => simp [core] at within
    | some c =>
      refine ⟨by simpa [core] using within, ?_⟩
      cases client with
      | some k => exact Or.inl ⟨k, target⟩
      | none =>
        -- a client that is being opened is known by the handle of the call
        simp only [KmsState.calledBack, core, Option.map_eq_some_iff, Option.filter_eq_some_iff,
          Option.some.injEq, decide_eq_true_eq] at target
        obtain ⟨c, ⟨rfl, call⟩, rfl⟩ := target
        exact Or.inr ⟨call, rfl⟩

omit [Fintype θ] in
theorem Charged.advances (charged : Charged s.registry s.threads) (locked : Locked s)
    (advanced : Advances s t s') : Charged s'.registry s'.threads := by
  cases advanced with
  | @lock c has alone stage =>
    have serves := charged.core t c has
    obtain ⟨call, handle, _⟩ := c
    obtain rfl : _ = CoreStage.lock := stage
    refine charged.advance has ?_ rfl alone
    cases call <;> exact serves
  | @returns c res has alone stage kept =>
    have serves := charged.core t c has
    obtain ⟨call, handle, _⟩ := c
    obtain rfl : _ = CoreStage.core := stage
    refine charged.advance has ?_ rfl alone
    cases call with
    | nvKmsOpen => exact ⟨serves.1, none, serves.2, nofun⟩
    | nvKmsIoctl => exact serves
    | nvKmsClose => exact absurd rfl kept
  | @opened c handle k has alone stage call present fresh =>
    have opened := charged.opened has call stage fresh (x := { s.threads t with
      core := some { c with stage := .unlock true } }) rfl alone
    have after := registry_setHandle
      { s with clients := Function.update s.clients k (some c.handle) } c.handle
      (some { handle with fCookie := some k })
    exact after.symm ▸ opened
  | closed has alone stage call client =>
    refine charged.closed has call client (fun t' c' other has' within => ?_) rfl alone
    exact other (locked.core_unique has has' (by rw [stage]; rfl) (by rw [within]; rfl))
  | @unlock c res has alone stage =>
    have serves := charged.core t c has
    obtain ⟨call, handle, _⟩ := c
    obtain rfl : _ = CoreStage.unlock res := stage
    refine charged.advance has ?_ rfl alone
    cases call <;> exact serves
  | publish has alone stage call present cookie =>
    exact charged.publish has call stage (cookieOf_eq_some.mpr ⟨_, present, cookie⟩) rfl alone
  | answer has alone stage call =>
    refine charged.move nofun (fun p has' => by cases alone.symm.trans has') fun h => ?_
    refine iff_of_false (fun ⟨c, impossible, _⟩ => nomatch impossible) ?_
    rintro ⟨c, has', claims⟩
    obtain rfl := Option.some.inj (has.symm.trans has')
    exact claims.2 _ call
  | @delete c res status has alone stage claims unknown =>
    have deleted := charged.delete has claims unknown (x := { s.threads t with
      core := none, status := status }) rfl alone
    have after := registry_setHandle s c.handle none
    exact after.symm ▸ deleted
  | @lockPool p handle has present stage free =>
    have waits := charged.usePool (x := { s.threads t with
      pool := some { p with stage := .first } }) rfl fun p' same =>
        Option.some.inj same ▸ charged.pool t p has
    exact (registry_of_same present { handle with fSelectPoolMutex := some t } rfl).symm ▸
      waits
  | @first p handle has present stage =>
    have waits := charged.usePool (x := { s.threads t with
      pool := some { p with stage := .second } }) rfl fun p' same =>
        Option.some.inj same ▸ charged.pool t p has
    exact (registry_of_same present { handle with
      toNvHaikuKmsDeviceHandle := handle.first p.call } rfl).symm ▸ waits
  | @second p handle has present stage =>
    have waits := charged.usePool (x := { s.threads t with pool := none }) rfl nofun
    exact (registry_of_same present { handle with
      toNvHaikuKmsDeviceHandle := handle.second p.call
      fSelectPoolMutex := none } rfl).symm ▸ waits

/-! ## What holds in every run -/

/-- The invariant of the device. -/
structure Sound (s : KmsState θ κ) : Prop where
  locked : Locked s
  charged : Charged s.registry s.threads
  faultless : s.faults = []

omit [DecidableEq θ] [DecidableEq κ] [Fintype θ] in
theorem sound_initial : Sound ({} : KmsState θ κ) where
  locked := ⟨fun _ => iff_of_false nofun nofun, nofun⟩
  charged := ⟨nofun, nofun, nofun, nofun, nofun, nofun⟩
  faultless := rfl

theorem Sound.step (sound : Sound s) {a : KmsAction θ κ} (taken : s.step a = some s') :
    Sound s' := by
  rcases moves_of_step sound.charged taken with started | advanced
  · refine ⟨sound.locked.starts sound.charged started, sound.charged.starts started, ?_⟩
    cases started <;> exact sound.faultless
  · refine ⟨sound.locked.advances advanced, sound.charged.advances sound.locked advanced, ?_⟩
    cases advanced <;> exact sound.faultless

theorem sound_of_reachable (reached : (kmsDevice θ κ).Reachable s) : Sound s :=
  reached.invariant (fun _ same => same ▸ sound_initial) fun _ _ _ sound taken => sound.step taken

/-- What NVKMS and the clients of the device can rely on in a state. -/
structure DeviceSafe (s : KmsState θ κ) : Prop where
  /-- NVKMS is entered by one thread at a time. -/
  serialized : ∀ t t' c c', (s.threads t).core = some c → (s.threads t').core = some c' →
    c.stage = .core → c'.stage = .core → t = t'
  /-- No deleted handle has been used, and NVKMS has been given no cookie but of an open client. -/
  faultless : s.faults = []
  /-- The handle NVKMS knows a client by exists, and holds the cookie of this client. -/
  client : ∀ k h, s.clients k = some h →
    ∃ handle, s.handles h = some handle ∧ handle.fCookie = some k
  /-- What devfs has is open in NVKMS. -/
  published : ∀ h, s.published h = true →
    ∃ handle k, s.handles h = some handle ∧ handle.fCookie = some k ∧ s.clients k = some h
  /-- Once devfs has freed what it had, there is neither a handle nor a client left. -/
  nothingLeft : (∀ h, s.published h = false) → (∀ t, (s.threads t).idle = true) →
    (∀ h, s.handles h = none) ∧ ∀ k, s.clients k = none

/-- Whatever the threads do, NVKMS is entered by one at a time, with cookies of open clients, and
calls back on handles that exist. -/
theorem deviceSafe_of_reachable (reached : (kmsDevice θ κ).Reachable s) : DeviceSafe s := by
  obtain ⟨locked, charged, faultless⟩ := sound_of_reachable reached
  have client : ∀ k h, s.clients k = some h →
      ∃ handle, s.handles h = some handle ∧ handle.fCookie = some k :=
    fun k h known => cookieOf_eq_some.mp (charged.client k h known)
  refine ⟨fun t t' c c' has has' stage stage' => ?_, faultless, client, fun h published => ?_,
    fun unpublished idle => ?_⟩
  · exact locked.core_unique has' has (by rw [stage']; rfl) (by rw [stage]; rfl)
  · obtain ⟨k, present, known⟩ := charged.published h published
    obtain ⟨handle, present, cookie⟩ := cookieOf_eq_some.mp present
    exact ⟨handle, k, present, cookie, known⟩
  · have handles : ∀ h, s.handles h = none := by
      intro h
      by_contra some
      obtain ⟨handle, present⟩ := Option.ne_none_iff_exists'.mp some
      have known := cookieOf_eq_some.mpr ⟨handle, present, rfl⟩
      rcases charged.charge h (Option.isSome_iff_exists.mpr ⟨_, known⟩) with
        published | ⟨t, c, has, -⟩
      · cases (unpublished h).symm.trans published
      · obtain ⟨none, -⟩ := Bool.and_eq_true_iff.mp (idle t)
        cases (Option.isNone_iff_eq_none.mp none).symm.trans has
    refine ⟨handles, fun k => ?_⟩
    by_contra some
    obtain ⟨h, known⟩ := Option.ne_none_iff_exists'.mp some
    obtain ⟨handle, present, -⟩ := client k h known
    cases (handles h).symm.trans present

/-- A thread has opened a handle and is in `nvKmsIoctl`, which calls back while another thread
waits on the select pool of the handle. -/
def calledBack : List (KmsAction Bool Unit) :=
  [.openDevice false (some 5), .advance false none false, .advance false (some 3) false,
    .advance false none false, .advance false none false,
    .control false 5 (NV_HAIKU_KMS_BASE + 1), .advance false none false,
    .select true 5 B_SELECT_READ () true, .advance true none false,
    .eventQueueChanged false (some 3) true]

theorem deviceSafe_calledBack : ∃ past s, (kmsDevice Bool Unit).Run past s ∧
    s.clients 3 = some 5 ∧ (s.threads false).pool = some ⟨.eventQueueChanged true, 5, .lock⟩ ∧
    (s.handles 5).bind (·.fSelectPoolMutex) = some true ∧ DeviceSafe s := by
  have run := (Run.start (T := kmsDevice Bool Unit) rfl).play calledBack (by decide)
  exact ⟨_, _, run, by decide, by decide, by decide, deviceSafe_of_reachable run.reachable⟩

end NvidiaHaiku.Nvkms

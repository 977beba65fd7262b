/-
# The timer queue as a transition system

Any number of timers share the NVKMS lock and the ref_ptrs they were allocated
with. The owner of a ref_ptr releases it once with `nvkms_free_ref_ptr`, and
other users take and put references of their own. The creator of a ref-ptr timer
has the ref_ptr in its hands, so a timer is created while its ref_ptr is live.

Objects are named once and for all: the memory of a freed ref_ptr or timer is not
given out again under the same name, so an access to it after that is visible.
-/

import Mathlib.Logic.Function.Basic
import NvidiaHaiku.TimerQueue.Timer

namespace NvidiaHaiku.TimerQueue

open NvidiaHaiku.Math TransitionSystem

variable {ι : Type*}

/-- A `nvkms_ref_ptr` with what has happened to it. -/
structure RefPtr where
  /-- The `int32` of `refcnt`. -/
  refcount : BitVec 32 := 0
  ptr : Address := 0
  created : Bool := false
  /-- `nvkms_free_ref_ptr` has set `ptr` to `NULL`. -/
  cleared : Bool := false
  /-- `nvkms_free_ref_ptr` has put the owner's reference. -/
  released : Bool := false
  /-- The references of users other than the owner and the timers. -/
  users : ℕ := 0
  /-- How often the memory was passed to `nvkms_free`. -/
  frees : ℕ := 0
  /-- The memory was accessed after it was freed. -/
  stale : Bool := false
  deriving DecidableEq, Repr

namespace RefPtr

/-- The ref_ptr has been created and not freed. -/
def live (r : RefPtr) : Bool := r.created && r.frees = 0

/-- The two agree on what `nvkms_alloc_ref_ptr` and `nvkms_free_ref_ptr` write. -/
def SameTarget (r r' : RefPtr) : Prop :=
  r.ptr = r'.ptr ∧ r.cleared = r'.cleared ∧ r.created = r'.created

/-- An access to the memory. -/
def touch (r : RefPtr) : RefPtr := { r with stale := r.stale || 0 < r.frees }

/-- `nv_kref_get`. -/
def get (r : RefPtr) : RefPtr := { r.touch with refcount := r.refcount + 1 }

/-- `nv_kref_put` with `ref_ptr_free`. -/
def put (r : RefPtr) : RefPtr :=
  { r.touch with
    refcount := r.refcount - 1
    frees := if r.refcount = 1 then r.frees + 1 else r.frees }

end RefPtr

/-- A thread that holds the NVKMS lock. -/
inductive Holder (ι : Type*)
  /-- The DPC thread in `DoDPC` of a timer. -/
  | dpc (t : ι)
  | client
  deriving DecidableEq, Repr

/-- The timers with the ref_ptrs that they hold references on, and the NVKMS lock. -/
structure State (ι : Type*) where
  timers : ι → Slot
  refs : Address → RefPtr := fun _ => {}
  /-- Who holds `NvHaikuKmsDriver::Locker`. -/
  locker : Option (Holder ι) := none

/-- A step of a party working on a timer, of the owner of a ref_ptr or of another user. -/
inductive Action (ι : Type*)
  /-- One of the parties working on a timer takes a step. -/
  | timer (t : ι) (action : TimerAction)
  | allocRefPtr (r ptr : Address)
  /-- `nvkms_free_ref_ptr` sets `ptr` to `NULL`. -/
  | clearRefPtr (r : Address)
  /-- `nvkms_free_ref_ptr` puts the owner's reference. -/
  | putRefPtr (r : Address)
  /-- Another user takes a reference. -/
  | incRef (r : Address)
  /-- Another user puts its reference. -/
  | decRef (r : Address)
  /-- A client takes the NVKMS lock. -/
  | lock
  | unlock
  deriving DecidableEq, Repr

namespace State

/-- The state with the ref_ptr `r` changed. -/
def setRef (s : State ι) (r : Address) (cell : RefPtr) : State ι :=
  { s with refs := Function.update s.refs r cell }

/-- What a step of timer `t`, now `x`, does to the ref_ptr and the NVKMS lock. -/
def effect (s : State ι) (t : ι) (x : Slot) : TimerAction → Option (State ι)
  | .construct =>
    -- the constructor takes a reference, from a caller that has the ref_ptr
    if x.timer.fIsRefPtr then
      if (s.refs x.timer.fDataPtr).live then
        some (s.setRef x.timer.fDataPtr (s.refs x.timer.fDataPtr).get)
      else none
    else some s
  | .dpcReadPtr ptr =>
    if ptr = (s.refs x.timer.fDataPtr).ptr then
      some (s.setRef x.timer.fDataPtr (s.refs x.timer.fDataPtr).touch)
    else none
  | .dpcPut => some (s.setRef x.timer.fDataPtr (s.refs x.timer.fDataPtr).put)
  | .dpcLock => if s.locker.isNone then some { s with locker := some (.dpc t) } else none
  | .dpcReturn => some { s with locker := none }
  -- the other steps stay within the timer
  | _ => some s

/-- One step. A step of a timer also does what it does to the ref_ptr and to the lock. -/
def step [DecidableEq ι] (s : State ι) : Action ι → Option (State ι)
  | .timer t a =>
    ((s.timers t).step a).bind fun x =>
      { s with timers := Function.update s.timers t x }.effect t x a
  | .allocRefPtr r ptr =>
    if !(s.refs r).created then
      some (s.setRef r { s.refs r with refcount := 1, ptr := ptr, created := true })
    else none
  | .clearRefPtr r =>
    -- the owner releases a ref_ptr at most once
    if (s.refs r).created && !(s.refs r).cleared then
      some (s.setRef r { (s.refs r).touch with ptr := 0, cleared := true })
    else none
  | .putRefPtr r =>
    if (s.refs r).cleared && !(s.refs r).released then
      some (s.setRef r { (s.refs r).put with released := true })
    else none
  | .incRef r =>
    if (s.refs r).live then some (s.setRef r { (s.refs r).get with users := (s.refs r).users + 1 })
    else none
  | .decRef r =>
    if 0 < (s.refs r).users then
      some (s.setRef r { (s.refs r).put with users := (s.refs r).users - 1 })
    else none
  | .lock => if s.locker.isNone then some { s with locker := some .client } else none
  | .unlock => if s.locker = some .client then some { s with locker := none } else none

end State

/-- No timer and no ref_ptr exists; timer `t` will be created with `args t`. -/
def initial (args : ι → Args) : State ι where
  timers t := .new (args t)

/-- The queue, in which timer `t` is created with `args t`. -/
def queue [DecidableEq ι] (args : ι → Args) : TransitionSystem (State ι) (Action ι) :=
  .ofStep (· = initial args) State.step

namespace Action

/-- The action of timer `t` in an action of the queue. -/
def ofTimer [DecidableEq ι] (t : ι) : Action ι → Option TimerAction
  | timer t' a => if t' = t then some a else none
  | _ => none

theorem ofTimer_eq_some [DecidableEq ι] {t : ι} {b : Action ι} {a : TimerAction} :
    b.ofTimer t = some a ↔ b = .timer t a := by
  cases b with
  | timer t' a' => simp [ofTimer]
  | allocRefPtr | clearRefPtr | putRefPtr | incRef | decRef | lock | unlock => simp [ofTimer]

end Action

/-- The events of timer `t`. -/
def timerHistory [DecidableEq ι] (t : ι) :
    List (Event (State ι) (Action ι)) → List (Event Slot TimerAction) :=
  history (fun s => s.timers t) (Action.ofTimer t)

/-! ## What a step changes -/

variable {s s' : State ι} {t : ι} {x : Slot} {a : TimerAction}

theorem effect_timers (effect : s.effect t x a = some s') : s'.timers = s.timers := by
  cases a with
  | construct =>
    simp only [State.effect] at effect
    split at effect
    · obtain ⟨-, rfl⟩ := of_guarded effect
      rfl
    · obtain rfl := Option.some.inj effect
      rfl
  | dpcReadPtr | dpcLock =>
    obtain ⟨-, rfl⟩ := of_guarded effect
    rfl
  | schedule | expire | hook | dequeue | dpcCheck | dpcPut | dpcDrop | dpcCall | dpcReturn
  | dpcFinish | freeLock | freeCancelTimer | freeCancelDpc | freeDelete =>
    obtain rfl := Option.some.inj effect
    rfl

theorem setRef_sameTarget {cell : RefPtr} {r' : Address} (kept : cell.SameTarget (s.refs r'))
    (r : Address) : ((s.setRef r' cell).refs r).SameTarget (s.refs r) := by
  by_cases same : r = r'
  · subst same
    simpa [State.setRef] using kept
  · simp [State.setRef, same, RefPtr.SameTarget]

theorem effect_sameTarget (effect : s.effect t x a = some s') (r : Address) :
    (s'.refs r).SameTarget (s.refs r) := by
  -- a timer counts references but leaves the target alone
  cases a with
  | construct =>
    simp only [State.effect] at effect
    split at effect
    · obtain ⟨-, rfl⟩ := of_guarded effect
      apply setRef_sameTarget
      exact ⟨rfl, rfl, rfl⟩
    · obtain rfl := Option.some.inj effect
      exact ⟨rfl, rfl, rfl⟩
  | dpcReadPtr =>
    obtain ⟨-, rfl⟩ := of_guarded effect
    apply setRef_sameTarget
    exact ⟨rfl, rfl, rfl⟩
  | dpcPut =>
    obtain rfl := Option.some.inj effect
    apply setRef_sameTarget
    exact ⟨rfl, rfl, rfl⟩
  | dpcLock =>
    obtain ⟨-, rfl⟩ := of_guarded effect
    exact ⟨rfl, rfl, rfl⟩
  | schedule | expire | hook | dequeue | dpcCheck | dpcDrop | dpcCall | dpcReturn
  | dpcFinish | freeLock | freeCancelTimer | freeCancelDpc | freeDelete =>
    obtain rfl := Option.some.inj effect
    exact ⟨rfl, rfl, rfl⟩

variable [DecidableEq ι] {args : ι → Args} {past : List (Event (State ι) (Action ι))}

/-- A step of a timer changes that timer, and no other. -/
theorem timers_of_timerStep (taken : s.step (.timer t a) = some s') :
    (s.timers t).step a = some (s'.timers t) ∧
      s'.timers = Function.update s.timers t (s'.timers t) := by
  obtain ⟨x, moved, effect⟩ := Option.bind_eq_some_iff.mp taken
  rw [effect_timers effect]
  simpa using moved

/-- A step of anyone else changes no timer. -/
theorem timers_of_step {b : Action ι} (taken : s.step b = some s')
    (other : ∀ t a, b ≠ .timer t a) : s'.timers = s.timers := by
  cases b with
  | timer t a => exact absurd rfl (other t a)
  | allocRefPtr | clearRefPtr | putRefPtr | incRef | decRef | lock | unlock =>
    obtain ⟨-, rfl⟩ := of_guarded taken
    rfl

/-- A step, as timer `t` sees it. -/
theorem timer_of_step {b : Action ι} (taken : s.step b = some s') (t : ι) :
    (∃ a, b = .timer t a ∧ Slot.Moves (s.timers t) a (s'.timers t)) ∨
      s'.timers t = s.timers t := by
  cases b with
  | timer t' a =>
    obtain ⟨own, others⟩ := timers_of_timerStep taken
    -- a step of another timer leaves this one alone
    by_cases same : t = t'
    · subst same
      exact Or.inl ⟨a, rfl, Slot.moves_of_step own⟩
    · exact Or.inr (by rw [others, Function.update_of_ne same])
  | allocRefPtr | clearRefPtr | putRefPtr | incRef | decRef | lock | unlock =>
    exact Or.inr (by rw [timers_of_step taken nofun])

/-- What a step does to the target of a ref_ptr: `nvkms_alloc_ref_ptr` sets it,
`nvkms_free_ref_ptr` clears it, and nothing else changes it. -/
theorem ptr_of_step {b : Action ι} (taken : s.step b = some s') (r : Address) :
    (b = .clearRefPtr r ∧ (s'.refs r).ptr = 0 ∧ (s'.refs r).cleared = true ∧
        (s'.refs r).created = true) ∨
      (∃ ptr, b = .allocRefPtr r ptr ∧ (s.refs r).created = false ∧ (s'.refs r).ptr = ptr ∧
        (s'.refs r).cleared = (s.refs r).cleared ∧ (s'.refs r).created = true) ∨
      (s'.refs r).SameTarget (s.refs r) := by
  -- the target is set by `nvkms_alloc_ref_ptr` and cleared by `nvkms_free_ref_ptr`
  cases b with
  | timer t a =>
    obtain ⟨x, -, effect⟩ := Option.bind_eq_some_iff.mp taken
    exact Or.inr (Or.inr (effect_sameTarget effect r))
  | allocRefPtr r' ptr =>
    obtain ⟨fresh, rfl⟩ := of_guarded taken
    by_cases same : r = r'
    · subst same
      exact Or.inr (Or.inl ⟨ptr, rfl, by simpa using fresh, by simp [State.setRef]⟩)
    · exact Or.inr (Or.inr (by simp [State.setRef, same, RefPtr.SameTarget]))
  | clearRefPtr r' =>
    obtain ⟨guard, rfl⟩ := of_guarded taken
    by_cases same : r = r'
    · subst same
      simp only [Bool.and_eq_true] at guard
      exact Or.inl ⟨rfl, by simp [State.setRef, RefPtr.touch, guard.1]⟩
    · exact Or.inr (Or.inr (by simp [State.setRef, same, RefPtr.SameTarget]))
  | putRefPtr r' | incRef r' | decRef r' =>
    obtain ⟨-, rfl⟩ := of_guarded taken
    refine Or.inr (Or.inr (setRef_sameTarget ?_ r))
    exact ⟨rfl, rfl, rfl⟩
  | lock | unlock =>
    obtain ⟨-, rfl⟩ := of_guarded taken
    exact Or.inr (Or.inr ⟨rfl, rfl, rfl⟩)

/-- What happens to one timer of the queue is a run of that timer. -/
theorem run_timerHistory (run : (queue args).Run past s) (t : ι) :
    (lifetime (args t)).Run (timerHistory t past) (s.timers t) := by
  refine run.history (fun s initial => by rw [show s = _ from initial]; rfl) ?_ ?_
  · intro s b s' a taken labelled
    obtain rfl := Action.ofTimer_eq_some.mp labelled
    exact (timers_of_timerStep taken).1
  · intro s b s' taken labelled
    cases b with
    | timer t' a' =>
      have distinct : t ≠ t' := fun same => by simp [Action.ofTimer, same] at labelled
      rw [(timers_of_timerStep taken).2, Function.update_of_ne distinct]
    | allocRefPtr | clearRefPtr | putRefPtr | incRef | decRef | lock | unlock =>
      rw [timers_of_step taken nofun]

theorem reachable_timer (reached : (queue args).Reachable s) (t : ι) :
    (lifetime (args t)).Reachable (s.timers t) := by
  obtain ⟨past, run⟩ := reached
  exact (run_timerHistory run t).reachable

/-- The ref_ptr of a timer stays the one it was allocated with. -/
theorem fDataPtr_of_reachable (reached : (queue args).Reachable s) (t : ι) :
    (s.timers t).timer.fDataPtr = (args t).dataPtr :=
  congrArg Args.dataPtr (args_of_reachable (reachable_timer reached t))

theorem fIsRefPtr_of_reachable (reached : (queue args).Reachable s) (t : ι) :
    (s.timers t).timer.fIsRefPtr = (args t).isRefPtr :=
  congrArg Args.isRefPtr (args_of_reachable (reachable_timer reached t))

/-- What `DoDPC` reads in `nvkms_dec_ref`. -/
theorem ptr_of_read {ptr : Address} (reached : (queue args).Reachable s)
    (taken : s.step (.timer t (.dpcReadPtr ptr)) = some s') :
    (s.timers t).dpc = .decRef ∧ (s.refs (args t).dataPtr).ptr = ptr := by
  refine ⟨(Option.ite_none_right_eq_some.mp (timers_of_timerStep taken).1).1, ?_⟩
  obtain ⟨x, moved, effect⟩ := Option.bind_eq_some_iff.mp taken
  obtain rfl := Option.some.inj ((timers_of_timerStep taken).1.symm.trans moved)
  have read := (Option.ite_none_right_eq_some.mp effect).1
  rw [fDataPtr_of_reachable (reached.step taken) t] at read
  exact read.symm

/-- A ref_ptr, once made, stays made. -/
theorem created_of_step {b : Action ι} (taken : s.step b = some s') {r : Address}
    (created : (s.refs r).created = true) : (s'.refs r).created = true := by
  rcases ptr_of_step taken r with ⟨-, -, -, made⟩ | ⟨-, -, -, -, -, made⟩ | ⟨-, -, same⟩
  · exact made
  · exact made
  · exact same.trans created

/-- A ref-ptr timer exists only once its ref_ptr does. -/
theorem created_of_reachable (reached : (queue args).Reachable s) (t : ι)
    (ref : (args t).isRefPtr = true) (present : (s.timers t).life ≠ .absent) :
    (s.refs (args t).dataPtr).created = true := by
  refine (reached.invariant (P := fun s => (queue args).Reachable s ∧
    ((s.timers t).life ≠ .absent → (s.refs (args t).dataPtr).created = true))
    (fun s first => ⟨.start first, ?_⟩) ?_).2 present
  · rw [show s = initial args from first]
    exact fun present => absurd rfl present
  · rintro s b s' ⟨reached, held⟩ taken
    refine ⟨reached.step taken, fun present => ?_⟩
    by_cases before : (s.timers t).life = .absent
    · -- the step constructs the timer, and takes a reference
      have quiet := quiet_of_reachable (reachable_timer reached t) (Or.inl before)
      rcases timer_of_step taken t with ⟨a, rfl, moved⟩ | same
      · obtain rfl := moved.eq_construct before quiet
        obtain ⟨x, built, effect⟩ := Option.bind_eq_some_iff.mp taken
        obtain rfl := Option.some.inj ((timers_of_timerStep taken).1.symm.trans built)
        have isRef := (fIsRefPtr_of_reachable (reached.step taken) t).trans ref
        rw [State.effect, if_pos isRef] at effect
        obtain ⟨live, -⟩ := Option.ite_none_right_eq_some.mp effect
        rw [fDataPtr_of_reachable (reached.step taken) t, RefPtr.live, Bool.and_eq_true] at live
        exact created_of_step taken live.1
      · exact absurd (same ▸ before) present
    · exact created_of_step taken (held before)

end NvidiaHaiku.TimerQueue

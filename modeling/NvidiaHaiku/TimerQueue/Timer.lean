/-
# One timer of the NVKMS timer queue

A timer created with a positive delay arms a kernel timer, whose hook queues the
timer to the DPC queue, whose thread runs `DoDPC`, which calls `fProc`. A timer
created with delay zero is queued at once. Two flags record where it is, and
`Free` reads them to decide what to cancel.

This module is one timer with the parties that work on it: the kernel timer and
its hook, the DPC queue and its thread, and a call of `Free`. A step ends where
another party can come in between: at the release of `fSpinlock`, and around
`cancel_timer`, `DPCQueue::Cancel`, the two halves of `nvkms_dec_ref`, the NVKMS
lock, `fProc` and `delete`.

Of Haiku the model assumes this. `add_timer` arms the timer, which expires once.
`DPCQueue::Add` queues the callback, which the queue runs once. `cancel_timer`
disarms the timer, and does not return while its hook is running.
`DPCQueue::Cancel` removes a queued callback. Whether it waits for a callback
in execution is left open here, so the runs cover both.
-/

import Mathlib.Tactic.Simps.Basic
import NvidiaHaiku.Math.Transition

namespace NvidiaHaiku.TimerQueue

open NvidiaHaiku.Math

/-- A `void *`, zero being `NULL`. -/
abbrev Address := ℕ

/-- An `nvkms_timer_proc_t *`. -/
abbrev Proc := ℕ

/-- The arguments of `Alloc`, or of `AllocWithRefPtr` if `isRefPtr` is set and
`dataPtr` is the address of a ref_ptr. -/
structure Args where
  proc : Proc
  dataPtr : Address
  dataU32 : BitVec 32
  usec : ℕ
  isRefPtr : Bool
  deriving DecidableEq, Repr

/-- The fields of `nvkms_timer_t`. -/
structure Timer where
  fTimerScheduled : Bool
  fDpcScheduled : Bool
  fProc : Proc
  fDataPtr : Address
  fDataU32 : BitVec 32
  fIsRefPtr : Bool
  deriving DecidableEq, Repr

/-- The constructor. -/
def Timer.new (args : Args) : Timer where
  fTimerScheduled := false
  fDpcScheduled := false
  fProc := args.proc
  fDataPtr := args.dataPtr
  fDataU32 := args.dataU32
  fIsRefPtr := args.isRefPtr

/-- The life of the object. -/
inductive Life
  | absent
  /-- Constructed, with `Schedule` still to run. -/
  | constructed
  | scheduled
  | deleted
  deriving DecidableEq, Repr

/-- Where `TimerHook` is. -/
inductive HookPc
  | idle
  /-- Running, and about to take `fSpinlock`. -/
  | entered
  | returned
  deriving DecidableEq, Repr

/-- Where `DoDPC` is. -/
inductive DpcPc
  | idle
  /-- Running, and about to take `fSpinlock`. -/
  | entered
  /-- Holding `fSpinlock`, and about to read `ref_ptr->ptr` in `nvkms_dec_ref`. -/
  | decRef
  /-- Holding `fSpinlock`, with `ptr` read, and about to put the reference. -/
  | put (ptr : Address)
  /-- Past the first critical section, with `NULL` read, and about to delete the timer. -/
  | dropping
  /-- Past the first critical section, with `dataPtr` read. -/
  | loaded (dataPtr : Address)
  /-- Holding the NVKMS lock, and about to call `fProc`. -/
  | locked (dataPtr : Address)
  /-- Inside `fProc`. -/
  | calling
  /-- Past the release of the NVKMS lock. -/
  | called
  | returned
  deriving DecidableEq, Repr

namespace DpcPc

/-- `DoDPC` has been entered and has not returned. -/
def running : DpcPc → Bool
  | idle | returned => false
  | entered | decRef | put _ | dropping | loaded _ | locked _ | calling | called => true

/-- `DoDPC` holds `fSpinlock`. -/
def holdsSpinlock : DpcPc → Bool
  | decRef | put _ => true
  | idle | entered | dropping | loaded _ | locked _ | calling | called | returned => false

end DpcPc

/-- Where `Free` is. -/
inductive FreePc
  | idle
  /-- Holding `fSpinlock`, inside `cancel_timer`. -/
  | cancelTimer
  /-- Holding `fSpinlock`, inside `DPCQueue::Cancel`. -/
  | cancelDpc
  /-- Past the critical section, and about to delete the timer. -/
  | unlocked
  | returned
  deriving DecidableEq, Repr

/-- A timer with the parties that work on it. -/
structure Slot where
  timer : Timer
  usec : ℕ
  life : Life := .absent
  /-- The kernel timer is armed. -/
  armed : Bool := false
  hook : HookPc := .idle
  /-- The timer is in the DPC queue. -/
  queued : Bool := false
  dpc : DpcPc := .idle
  free : FreePc := .idle
  /-- The calls of `fProc` so far. -/
  calls : List (Proc × Address × BitVec 32) := []
  /-- How often `DoDPC` put a reference. -/
  decRefs : ℕ := 0
  deletions : ℕ := 0
  /-- The deleted timer has been read, written or deleted again. -/
  stale : Bool := false
  deriving DecidableEq, Repr

/-- A step of the client, of the kernel timer, of the DPC thread or of `Free`. -/
inductive TimerAction
  | construct
  | schedule
  /-- The kernel timer expires and enters the hook. -/
  | expire
  | hook
  /-- The DPC thread takes the timer from its queue and enters `DoDPC`. -/
  | dequeue
  /-- `DoDPC` takes `fSpinlock` and tests the flag. -/
  | dpcCheck
  /-- `nvkms_dec_ref` reads `ptr`. -/
  | dpcReadPtr (ptr : Address)
  /-- `nvkms_dec_ref` puts the reference, and `DoDPC` releases `fSpinlock`. -/
  | dpcPut
  | dpcDrop
  | dpcLock
  | dpcCall
  | dpcReturn
  | dpcFinish
  /-- `Free` takes `fSpinlock` and tests the flags. -/
  | freeLock
  | freeCancelTimer
  | freeCancelDpc
  | freeDelete
  deriving DecidableEq, Repr

namespace Slot

/-- A slot for the timer a call with these arguments will create. -/
def new (args : Args) : Slot where
  timer := .new args
  usec := args.usec

/-- `fSpinlock` of the timer is held. -/
def spinlockHeld (x : Slot) : Bool :=
  x.free = .cancelTimer || x.free = .cancelDpc || x.dpc.holdsSpinlock

/-- An access to the object. -/
def touch (x : Slot) : Slot := { x with stale := x.stale || x.life = .deleted }

/-- `delete this`. -/
def delete (x : Slot) : Slot := { x.touch with life := .deleted, deletions := x.deletions + 1 }

/-- `nvkms_timer_t::Schedule`. -/
def schedule (x : Slot) : Slot :=
  -- the flag is set and the timer queued or armed under one hold of the spinlock
  if x.usec = 0 then
    { x with timer := { x.timer with fDpcScheduled := true }, queued := true, life := .scheduled }
  else
    { x with timer := { x.timer with fTimerScheduled := true }, armed := true, life := .scheduled }

/-- The critical section of `nvkms_timer_t::TimerHook`. -/
def timerHook (x : Slot) : Slot :=
  if x.timer.fTimerScheduled then
    -- unlike `Schedule`, the hook does not set `fDpcScheduled`
    { x.touch with
      timer := { x.timer with fTimerScheduled := false }, queued := true, hook := .returned }
  else { x.touch with hook := .returned }

/-- `nvkms_timer_t::DoDPC` from its acquisition of `fSpinlock` on, as far as
`nvkms_dec_ref` or the release. -/
def dpcCheck (x : Slot) : Slot :=
  if !x.timer.fDpcScheduled then { x.touch with dpc := .returned }
  else
    { x.touch with
      timer := { x.timer with fDpcScheduled := false }
      dpc := if x.timer.fIsRefPtr then .decRef else .loaded x.timer.fDataPtr }

/-- The end of `nvkms_timer_t::DoDPC`. -/
def dpcFinish (x : Slot) : Slot :=
  -- `fIsRefPtr` is read again after `fProc`, for every timer
  if x.timer.fIsRefPtr then { x.delete with dpc := .returned }
  else { x.touch with dpc := .returned }

/-- `nvkms_timer_t::Free` from its test of `fDpcScheduled` on. -/
def freeTestDpc (x : Slot) : Slot :=
  if x.timer.fDpcScheduled then { x with free := .cancelDpc } else { x with free := .unlocked }

/-- `nvkms_timer_t::Free` from its acquisition of `fSpinlock` on. -/
def freeLock (x : Slot) : Slot :=
  if x.timer.fTimerScheduled then { x.touch with free := .cancelTimer } else x.touch.freeTestDpc

/-- One step of one of the parties, `none` if it is not possible. No handle of a
ref-ptr timer exists, so `Free` is not called on one. -/
def step (x : Slot) : TimerAction → Option Slot
  | .construct => if x.life = .absent then some { x with life := .constructed } else none
  | .schedule => if x.life = .constructed then some x.schedule else none
  | .expire => if x.armed then some { x with armed := false, hook := .entered } else none
  | .hook => if x.hook = .entered && !x.spinlockHeld then some x.timerHook else none
  | .dequeue =>
    if x.queued && !x.dpc.running then some { x with queued := false, dpc := .entered } else none
  | .dpcCheck => if x.dpc = .entered && !x.spinlockHeld then some x.dpcCheck else none
  | .dpcReadPtr ptr => if x.dpc = .decRef then some { x with dpc := .put ptr } else none
  | .dpcPut =>
    match x.dpc with
    | .put ptr =>
      -- `NULL` means that the owner has let go of the target
      some { x with decRefs := x.decRefs + 1, dpc := if ptr = 0 then .dropping else .loaded ptr }
    | _ => none
  | .dpcDrop => if x.dpc = .dropping then some { x.delete with dpc := .returned } else none
  | .dpcLock =>
    match x.dpc with
    | .loaded dataPtr => some { x with dpc := .locked dataPtr }
    | _ => none
  | .dpcCall =>
    match x.dpc with
    | .locked dataPtr =>
      some { x.touch with
        dpc := .calling, calls := x.calls ++ [(x.timer.fProc, dataPtr, x.timer.fDataU32)] }
    | _ => none
  | .dpcReturn => if x.dpc = .calling then some { x with dpc := .called } else none
  | .dpcFinish => if x.dpc = .called then some x.dpcFinish else none
  | .freeLock =>
    -- the handle is known once `Alloc` has returned, and it is freed at most once
    if x.free = .idle && x.life = .scheduled && !x.timer.fIsRefPtr && !x.spinlockHeld then
      some x.freeLock
    else none
  | .freeCancelTimer =>
    -- `cancel_timer` waits for a hook in execution
    if x.free = .cancelTimer && x.hook ≠ .entered then
      some { x with armed := false, timer := { x.timer with fTimerScheduled := false } }.freeTestDpc
    else none
  | .freeCancelDpc =>
    if x.free = .cancelDpc then
      some { x with
        queued := false, timer := { x.timer with fDpcScheduled := false }, free := .unlocked }
    else none
  | .freeDelete => if x.free = .unlocked then some { x.delete with free := .returned } else none

/-! ## The moves of a timer

`Moves x a y` is `x.step a = some y` with the branches told apart: one
constructor for every path through a step, with the tests on that path. -/

/-- Everything a step can do, with its guards. -/
inductive Moves (x : Slot) : TimerAction → Slot → Prop
  | construct (absent : x.life = .absent) : Moves x .construct { x with life := .constructed }
  | scheduleDpc (constructed : x.life = .constructed) (immediate : x.usec = 0) :
      Moves x .schedule { x with
        timer := { x.timer with fDpcScheduled := true }, queued := true, life := .scheduled }
  | scheduleTimer (constructed : x.life = .constructed) (delayed : x.usec ≠ 0) :
      Moves x .schedule { x with
        timer := { x.timer with fTimerScheduled := true }, armed := true, life := .scheduled }
  | expire (armed : x.armed = true) : Moves x .expire { x with armed := false, hook := .entered }
  | hookAdd (entered : x.hook = .entered) (unheld : x.spinlockHeld = false)
      (flag : x.timer.fTimerScheduled = true) :
      Moves x .hook { x.touch with
        timer := { x.timer with fTimerScheduled := false }, queued := true, hook := .returned }
  | hookSkip (entered : x.hook = .entered) (unheld : x.spinlockHeld = false)
      (flag : x.timer.fTimerScheduled = false) : Moves x .hook { x.touch with hook := .returned }
  | dequeue (queued : x.queued = true) (rest : x.dpc.running = false) :
      Moves x .dequeue { x with queued := false, dpc := .entered }
  | dpcSkip (entered : x.dpc = .entered) (unheld : x.spinlockHeld = false)
      (flag : x.timer.fDpcScheduled = false) : Moves x .dpcCheck { x.touch with dpc := .returned }
  | dpcRef (entered : x.dpc = .entered) (unheld : x.spinlockHeld = false)
      (flag : x.timer.fDpcScheduled = true) (ref : x.timer.fIsRefPtr = true) :
      Moves x .dpcCheck { x.touch with
        timer := { x.timer with fDpcScheduled := false }, dpc := .decRef }
  | dpcPlain (entered : x.dpc = .entered) (unheld : x.spinlockHeld = false)
      (flag : x.timer.fDpcScheduled = true) (plain : x.timer.fIsRefPtr = false) :
      Moves x .dpcCheck { x.touch with
        timer := { x.timer with fDpcScheduled := false }, dpc := .loaded x.timer.fDataPtr }
  | dpcReadPtr (ptr : Address) (reads : x.dpc = .decRef) :
      Moves x (.dpcReadPtr ptr) { x with dpc := .put ptr }
  | dpcPutNull (puts : x.dpc = .put 0) :
      Moves x .dpcPut { x with decRefs := x.decRefs + 1, dpc := .dropping }
  | dpcPut {ptr : Address} (puts : x.dpc = .put ptr) (set : ptr ≠ 0) :
      Moves x .dpcPut { x with decRefs := x.decRefs + 1, dpc := .loaded ptr }
  | dpcDrop (drops : x.dpc = .dropping) : Moves x .dpcDrop { x.delete with dpc := .returned }
  | dpcLock {ptr : Address} (loaded : x.dpc = .loaded ptr) :
      Moves x .dpcLock { x with dpc := .locked ptr }
  | dpcCall {ptr : Address} (locked : x.dpc = .locked ptr) :
      Moves x .dpcCall { x.touch with
        dpc := .calling, calls := x.calls ++ [(x.timer.fProc, ptr, x.timer.fDataU32)] }
  | dpcReturn (calling : x.dpc = .calling) : Moves x .dpcReturn { x with dpc := .called }
  | dpcDelete (called : x.dpc = .called) (ref : x.timer.fIsRefPtr = true) :
      Moves x .dpcFinish { x.delete with dpc := .returned }
  | dpcFinish (called : x.dpc = .called) (plain : x.timer.fIsRefPtr = false) :
      Moves x .dpcFinish { x.touch with dpc := .returned }
  | freeTimer (idle : x.free = .idle) (life : x.life = .scheduled)
      (plain : x.timer.fIsRefPtr = false) (unheld : x.spinlockHeld = false)
      (flag : x.timer.fTimerScheduled = true) :
      Moves x .freeLock { x.touch with free := .cancelTimer }
  | freeDpc (idle : x.free = .idle) (life : x.life = .scheduled)
      (plain : x.timer.fIsRefPtr = false) (unheld : x.spinlockHeld = false)
      (flag : x.timer.fTimerScheduled = false) (dpcFlag : x.timer.fDpcScheduled = true) :
      Moves x .freeLock { x.touch with free := .cancelDpc }
  | freeNothing (idle : x.free = .idle) (life : x.life = .scheduled)
      (plain : x.timer.fIsRefPtr = false) (unheld : x.spinlockHeld = false)
      (flag : x.timer.fTimerScheduled = false) (dpcFlag : x.timer.fDpcScheduled = false) :
      Moves x .freeLock { x.touch with free := .unlocked }
  | cancelTimerDpc (cancels : x.free = .cancelTimer) (done : x.hook ≠ .entered)
      (dpcFlag : x.timer.fDpcScheduled = true) :
      Moves x .freeCancelTimer { x with
        armed := false, timer := { x.timer with fTimerScheduled := false }, free := .cancelDpc }
  | cancelTimer (cancels : x.free = .cancelTimer) (done : x.hook ≠ .entered)
      (dpcFlag : x.timer.fDpcScheduled = false) :
      Moves x .freeCancelTimer { x with
        armed := false, timer := { x.timer with fTimerScheduled := false }, free := .unlocked }
  | cancelDpc (cancels : x.free = .cancelDpc) :
      Moves x .freeCancelDpc { x with
        queued := false, timer := { x.timer with fDpcScheduled := false }, free := .unlocked }
  | freeDelete (unlocked : x.free = .unlocked) :
      Moves x .freeDelete { x.delete with free := .returned }

variable {x y : Slot} {a : TimerAction}

theorem moves_of_step (taken : x.step a = some y) : Moves x a y := by
  -- one case per action, then one per test that the source makes on the way
  cases a with
  | construct =>
    obtain ⟨absent, rfl⟩ := of_guarded taken
    exact .construct absent
  | schedule =>
    obtain ⟨constructed, rfl⟩ := of_guarded taken
    unfold schedule
    split
    · exact .scheduleDpc constructed ‹_›
    · exact .scheduleTimer constructed ‹_›
  | expire =>
    obtain ⟨armed, rfl⟩ := of_guarded taken
    exact .expire armed
  | hook =>
    obtain ⟨guard, rfl⟩ := of_guarded taken
    simp only [Bool.and_eq_true, decide_eq_true_eq, Bool.not_eq_true'] at guard
    unfold timerHook
    split
    · exact .hookAdd guard.1 guard.2 ‹_›
    · exact .hookSkip guard.1 guard.2 (Bool.not_eq_true _ ▸ ‹_›)
  | dequeue =>
    obtain ⟨guard, rfl⟩ := of_guarded taken
    simp only [Bool.and_eq_true, Bool.not_eq_true'] at guard
    exact .dequeue guard.1 guard.2
  | dpcCheck =>
    obtain ⟨guard, rfl⟩ := of_guarded taken
    simp only [Bool.and_eq_true, decide_eq_true_eq, Bool.not_eq_true'] at guard
    unfold dpcCheck
    cases flag : x.timer.fDpcScheduled with
    | false => exact .dpcSkip guard.1 guard.2 flag
    | true =>
      cases ref : x.timer.fIsRefPtr with
      | false => exact .dpcPlain guard.1 guard.2 flag ref
      | true => exact .dpcRef guard.1 guard.2 flag ref
  | dpcReadPtr ptr =>
    obtain ⟨reads, rfl⟩ := of_guarded taken
    exact .dpcReadPtr ptr reads
  | dpcPut =>
    simp only [step] at taken
    split at taken
    · rename_i ptr puts
      obtain rfl := Option.some.inj taken
      split
      · subst ptr
        exact .dpcPutNull puts
      · exact .dpcPut puts ‹_›
    · exact nomatch taken
  | dpcDrop =>
    obtain ⟨drops, rfl⟩ := of_guarded taken
    exact .dpcDrop drops
  | dpcLock =>
    simp only [step] at taken
    split at taken
    · obtain rfl := Option.some.inj taken
      exact .dpcLock ‹_›
    · exact nomatch taken
  | dpcCall =>
    simp only [step] at taken
    split at taken
    · obtain rfl := Option.some.inj taken
      exact .dpcCall ‹_›
    · exact nomatch taken
  | dpcReturn =>
    obtain ⟨calling, rfl⟩ := of_guarded taken
    exact .dpcReturn calling
  | dpcFinish =>
    obtain ⟨called, rfl⟩ := of_guarded taken
    unfold dpcFinish
    cases ref : x.timer.fIsRefPtr with
    | false => exact .dpcFinish called ref
    | true => exact .dpcDelete called ref
  | freeLock =>
    obtain ⟨guard, rfl⟩ := of_guarded taken
    simp only [Bool.and_eq_true, decide_eq_true_eq, Bool.not_eq_true'] at guard
    obtain ⟨⟨⟨idle, life⟩, plain⟩, unheld⟩ := guard
    unfold freeLock
    cases flag : x.timer.fTimerScheduled with
    | true => exact .freeTimer idle life plain unheld flag
    | false =>
      cases dpcFlag : x.timer.fDpcScheduled with
      | true => simpa [freeTestDpc, touch, dpcFlag] using
          Moves.freeDpc idle life plain unheld flag dpcFlag
      | false => simpa [freeTestDpc, touch, dpcFlag] using
          Moves.freeNothing idle life plain unheld flag dpcFlag
  | freeCancelTimer =>
    obtain ⟨guard, rfl⟩ := of_guarded taken
    simp only [Bool.and_eq_true, decide_eq_true_eq] at guard
    cases dpcFlag : x.timer.fDpcScheduled with
    | true => simpa [freeTestDpc, dpcFlag] using Moves.cancelTimerDpc guard.1 guard.2 dpcFlag
    | false => simpa [freeTestDpc, dpcFlag] using Moves.cancelTimer guard.1 guard.2 dpcFlag
  | freeCancelDpc =>
    obtain ⟨cancels, rfl⟩ := of_guarded taken
    exact .cancelDpc cancels
  | freeDelete =>
    obtain ⟨unlocked, rfl⟩ := of_guarded taken
    exact .freeDelete unlocked

/-- The arguments the timer was created with. -/
@[simps]
def args (x : Slot) : Args where
  proc := x.timer.fProc
  dataPtr := x.timer.fDataPtr
  dataU32 := x.timer.fDataU32
  usec := x.usec
  isRefPtr := x.timer.fIsRefPtr

/-- No step writes the fields that hold the arguments. -/
theorem Moves.args (moved : Moves x a y) : y.args = x.args := by cases moved <;> rfl

/-- Nobody works on a timer before `Schedule` has run. -/
structure Quiet (x : Slot) : Prop where
  armed : x.armed = false
  hook : x.hook = .idle
  queued : x.queued = false
  dpc : x.dpc = .idle
  free : x.free = .idle
  timerFlag : x.timer.fTimerScheduled = false
  dpcFlag : x.timer.fDpcScheduled = false

theorem Moves.quiet (moved : Moves x a y)
    (quiet : x.life = .absent ∨ x.life = .constructed → x.Quiet)
    (early : y.life = .absent ∨ y.life = .constructed) : y.Quiet := by
  cases moved with
  | construct absent =>
    obtain ⟨armed, hook, queued, dpc, free, timerFlag, dpcFlag⟩ := quiet (Or.inl absent)
    exact ⟨armed, hook, queued, dpc, free, timerFlag, dpcFlag⟩
  | scheduleDpc | scheduleTimer | dpcDrop | dpcDelete | freeDelete =>
    simp [delete] at early
  -- every other party would have to have started before `Schedule`
  | expire armed => simp [(quiet early).armed] at armed
  | hookAdd entered | hookSkip entered => simp [(quiet early).hook] at entered
  | dequeue queued => simp [(quiet early).queued] at queued
  | dpcSkip running | dpcRef running | dpcPlain running | dpcReadPtr _ running | dpcPutNull running
  | dpcPut running | dpcLock running | dpcCall running | dpcReturn running | dpcFinish running =>
    simp [(quiet early).dpc] at running
  | freeTimer _ life | freeDpc _ life | freeNothing _ life =>
    simp [touch, life] at early
  | cancelTimerDpc cancels | cancelTimer cancels | cancelDpc cancels =>
    simp [(quiet early).free] at cancels

/-- The first step on a timer is its construction. -/
theorem Moves.eq_construct (moved : Moves x a y) (absent : x.life = .absent) (quiet : x.Quiet) :
    a = .construct := by
  obtain ⟨armed, hook, queued, dpc, free, -, -⟩ := quiet
  cases moved with
  | construct => rfl
  | scheduleDpc constructed | scheduleTimer constructed => simp [absent] at constructed
  | expire set => simp [armed] at set
  | hookAdd entered | hookSkip entered => simp [hook] at entered
  | dequeue set => simp [queued] at set
  | dpcSkip running | dpcRef running | dpcPlain running | dpcReadPtr _ running | dpcPutNull running
  | dpcPut running | dpcDrop running | dpcLock running | dpcCall running | dpcReturn running
  | dpcDelete running | dpcFinish running => simp [dpc] at running
  | freeTimer _ life | freeDpc _ life | freeNothing _ life => simp [absent] at life
  | cancelTimerDpc frees | cancelTimer frees | cancelDpc frees | freeDelete frees =>
    simp [free] at frees

end Slot

/-- One timer, with every interleaving of the parties that work on it. -/
def lifetime (args : Args) : TransitionSystem Slot TimerAction :=
  .ofStep (· = Slot.new args) Slot.step

variable {args : Args} {x : Slot}

theorem args_of_reachable (reached : (lifetime args).Reachable x) : x.args = args :=
  reached.invariant (fun _ initial => by rw [show _ = Slot.new args from initial]; rfl)
    fun _ _ _ held taken => (Slot.moves_of_step taken).args.trans held

theorem quiet_of_reachable (reached : (lifetime args).Reachable x)
    (early : x.life = .absent ∨ x.life = .constructed) : x.Quiet :=
  reached.invariant (P := fun x => x.life = .absent ∨ x.life = .constructed → x.Quiet)
    (fun _ initial _ => by
      rw [show _ = Slot.new args from initial]
      exact ⟨rfl, rfl, rfl, rfl, rfl, rfl, rfl⟩)
    (fun _ _ _ held taken => (Slot.moves_of_step taken).quiet held) early

end NvidiaHaiku.TimerQueue

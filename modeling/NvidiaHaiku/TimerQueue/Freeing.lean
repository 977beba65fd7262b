/-
# Freeing a timer

`Free` reads two flags under `fSpinlock` to decide what to cancel, and deletes the
timer. The flags do not tell it everything. After `TimerHook` the timer is in the
DPC queue with neither flag set, and after the first critical section of `DoDPC`
the timer is still in use with neither flag set.

The first window is closed when no `Free` starts between the hook and `DoDPC`, and
the second when no timer is deleted while `DoDPC` runs.
-/

import Mathlib.Tactic.MkIffOfInductiveProp
import NvidiaHaiku.TimerQueue.System

namespace NvidiaHaiku.TimerQueue

open NvidiaHaiku.Math TransitionSystem

/-- `DoDPC` goes through `nvkms_dec_ref`. -/
def DpcPc.viaRefPtr : DpcPc → Bool
  | decRef | put _ | dropping => true
  | idle | entered | loaded _ | locked _ | calling | called | returned => false

namespace TimerAction

/-- A step of `TimerHook`, with the expiry that enters it. -/
def ofHook : TimerAction → Bool
  | expire | hook => true
  | _ => false

/-- A step of `DoDPC`, with the DPC queue's step that enters it. -/
def ofDpc : TimerAction → Bool
  | dequeue | dpcCheck | dpcReadPtr _ | dpcPut | dpcDrop | dpcLock | dpcCall | dpcReturn
  | dpcFinish => true
  | _ => false

/-- A step of `Free`. -/
def ofFree : TimerAction → Bool
  | freeLock | freeCancelTimer | freeCancelDpc | freeDelete => true
  | _ => false

end TimerAction

namespace Slot

variable {x y : Slot} {a : TimerAction}

/-- The kernel timer is not armed, the timer is not queued, and neither `TimerHook`
nor `DoDPC` is running. -/
@[mk_iff]
structure Idle (x : Slot) : Prop where
  armed : x.armed = false
  hook : x.hook ≠ .entered
  queued : x.queued = false
  dpc : x.dpc.running = false

/-- No step of the hook or of `DoDPC` is possible on an idle timer. -/
theorem Idle.not_moves (idle : x.Idle) (moved : Moves x a y) :
    a.ofHook = false ∧ a.ofDpc = false := by
  obtain ⟨armed, hook, queued, dpc⟩ := idle
  cases moved with
  | expire set => simp [armed] at set
  | hookAdd entered | hookSkip entered => exact absurd entered hook
  | dequeue set => simp [queued] at set
  | dpcSkip at_ | dpcRef at_ | dpcPlain at_ | dpcReadPtr _ at_ | dpcPutNull at_ | dpcPut at_
  | dpcDrop at_ | dpcLock at_ | dpcCall at_ | dpcReturn at_ | dpcDelete at_ | dpcFinish at_ =>
    simp [at_, DpcPc.running] at dpc
  | construct | scheduleDpc | scheduleTimer | freeTimer | freeDpc | freeNothing | cancelTimerDpc
  | cancelTimer | cancelDpc | freeDelete => exact ⟨rfl, rfl⟩

/-- `Free` has left its critical section. -/
def pastCancel (x : Slot) : Bool := x.free = .unlocked || x.free = .returned

/-- A timer without ref_ptr does not go through `nvkms_dec_ref`. -/
structure Plain (x : Slot) : Prop where
  plain : x.timer.fIsRefPtr = false
  dpc : x.dpc.viaRefPtr = false

theorem Moves.plain (moved : Moves x a y) (plain : x.Plain) : y.Plain := by
  obtain ⟨plain, dpc⟩ := plain
  cases moved with
  | dpcRef _ _ _ ref => simp [plain] at ref
  | dpcReadPtr _ at_ | dpcPutNull at_ | dpcPut at_ | dpcDrop at_ =>
    simp [at_, DpcPc.viaRefPtr] at dpc
  | dpcDelete _ ref => simp [plain] at ref
  | dequeue | dpcSkip | dpcPlain | dpcLock | dpcCall | dpcReturn | dpcFinish => exact ⟨plain, rfl⟩
  | construct | scheduleDpc | scheduleTimer | expire | hookAdd | hookSkip | freeTimer | freeDpc
  | freeNothing | cancelTimerDpc | cancelTimer | cancelDpc | freeDelete => exact ⟨plain, dpc⟩

/-- What the flags record about a timer. -/
structure Recorded (x : Slot) : Prop where
  /-- An armed timer, or one whose hook is running, has `fTimerScheduled` set. -/
  armed : x.armed = true ∨ x.hook = .entered → x.timer.fTimerScheduled = true
  oneShot : x.armed = true → x.hook = .idle
  /-- Before the hook has run, the DPC queue has nothing to do with the timer. -/
  waiting : x.timer.fTimerScheduled = true →
    x.hook ≠ .returned ∧ x.queued = false ∧ x.dpc = .idle ∧ x.timer.fDpcScheduled = false
  /-- A queued timer has `fDpcScheduled` set, unless the hook queued it. -/
  queued : x.queued = true →
    x.dpc = .idle ∧ (x.timer.fDpcScheduled = true ∨ x.hook = .returned ∧ x.free = .idle)
  cancellingTimer : x.free = .cancelTimer → x.timer.fTimerScheduled = true
  /-- While `Free` is inside `DPCQueue::Cancel`, `DoDPC` does not get past `fSpinlock`. -/
  cancellingDpc : x.free = .cancelDpc →
    x.timer.fTimerScheduled = false ∧ (x.dpc.running = true → x.dpc = .entered)
  freed : x.pastCancel = true →
    x.timer.fTimerScheduled = false ∧ x.timer.fDpcScheduled = false ∧ x.Idle
  deleted : x.life = .deleted → x.free = .returned

/-- Without `fTimerScheduled`, the kernel timer is not armed and its hook not running. -/
theorem Recorded.disarmed (recorded : x.Recorded) (flag : x.timer.fTimerScheduled = false) :
    x.armed = false ∧ x.hook ≠ .entered := by
  refine ⟨Bool.eq_false_iff.mpr fun set => ?_, fun entered => ?_⟩
  · simp [recorded.armed (Or.inl set)] at flag
  · simp [recorded.armed (Or.inr entered)] at flag

/-- While `DoDPC` runs, the hook and the DPC queue are done with the timer, and no `Free`
has left its critical section. -/
theorem Recorded.settled (recorded : x.Recorded) (running : x.dpc.running = true) :
    x.timer.fTimerScheduled = false ∧ x.queued = false ∧ x.pastCancel = false := by
  have busy : x.dpc ≠ .idle := by
    intro idle
    simp [idle, DpcPc.running] at running
  refine ⟨Bool.eq_false_iff.mpr fun flag => ?_, Bool.eq_false_iff.mpr fun queued => ?_,
    Bool.eq_false_iff.mpr fun freed => ?_⟩
  · exact busy (recorded.waiting flag).2.2.1
  · exact busy (recorded.queued queued).1
  · have rest := (recorded.freed freed).2.2.dpc
    simp [running] at rest

/-- A step of `DoDPC` changes nothing that the flags record. -/
theorem Recorded.proceed (recorded : x.Recorded) (running : x.dpc.running = true)
    (free : x.free ≠ .cancelDpc) (dpc : DpcPc) (flag stale : Bool)
    (calls : List (Proc × Address × BitVec 32)) :
    Recorded { x with
      timer := { x.timer with fDpcScheduled := flag }
      dpc := dpc
      stale := stale
      calls := calls } := by
  obtain ⟨timerFlag, queued, freed⟩ := recorded.settled running
  exact
    { armed := recorded.armed
      oneShot := recorded.oneShot
      waiting := fun set => absurd (timerFlag.symm.trans set) Bool.false_ne_true
      queued := fun set => absurd (queued.symm.trans set) Bool.false_ne_true
      cancellingTimer := recorded.cancellingTimer
      cancellingDpc := fun cancels => absurd cancels free
      freed := fun past => absurd (freed.symm.trans past) Bool.false_ne_true
      deleted := recorded.deleted }

theorem not_cancelDpc_of_unheld (unheld : x.spinlockHeld = false) : x.free ≠ .cancelDpc := by
  intro cancels
  simp [spinlockHeld, cancels] at unheld

/-- Once `Free` is past `Cancel`, nothing is left of the timer that the flags record. -/
theorem recorded_of_idle (past : y.free = .unlocked ∨ y.free = .returned)
    (flag : y.timer.fTimerScheduled = false) (dpcFlag : y.timer.fDpcScheduled = false)
    (idle : y.Idle) (deleted : y.life = .deleted → y.free = .returned) : y.Recorded where
  armed set := by
    rcases set with set | entered
    · exact absurd (idle.armed.symm.trans set) Bool.false_ne_true
    · exact absurd entered idle.hook
  oneShot set := absurd (idle.armed.symm.trans set) Bool.false_ne_true
  waiting set := absurd (flag.symm.trans set) Bool.false_ne_true
  queued set := absurd (idle.queued.symm.trans set) Bool.false_ne_true
  cancellingTimer cancels := by simp [cancels] at past
  cancellingDpc cancels := by simp [cancels] at past
  freed _ := ⟨flag, dpcFlag, idle⟩
  deleted := deleted

theorem Moves.recorded (moved : Moves x a y) (recorded : x.Recorded) (plain : x.Plain)
    (early : x.life = .absent ∨ x.life = .constructed → x.Quiet)
    (outside : a.ofFree = true → x.dpc.running = false)
    (started : a = .freeLock → x.queued = true → x.hook ≠ .returned) : y.Recorded := by
  have before := recorded
  obtain ⟨armed, oneShot, waiting, queued, cancellingTimer, cancellingDpc, freed, deleted⟩ :=
    recorded
  cases moved with
  | construct absent =>
    have quiet := early (Or.inl absent)
    exact
      { armed, oneShot, waiting, queued, cancellingTimer, cancellingDpc
        freed := fun past => by simp [pastCancel, quiet.free] at past
        deleted := by simp }
  | scheduleDpc constructed =>
    have quiet := early (Or.inr constructed)
    exact
      { armed, oneShot, cancellingTimer, cancellingDpc
        waiting := fun set => by simp [quiet.timerFlag] at set
        queued := fun _ => ⟨quiet.dpc, Or.inl rfl⟩
        freed := fun past => by simp [pastCancel, quiet.free] at past
        deleted := by simp }
  | scheduleTimer constructed =>
    have quiet := early (Or.inr constructed)
    exact
      { queued
        armed := fun _ => rfl
        oneShot := fun _ => quiet.hook
        waiting := fun _ => ⟨by simp [quiet.hook], quiet.queued, quiet.dpc, quiet.dpcFlag⟩
        cancellingTimer := fun _ => rfl
        cancellingDpc := fun cancels => by simp [quiet.free] at cancels
        freed := fun past => by simp [pastCancel, quiet.free] at past
        deleted := by simp }
  | expire set =>
    have flag := armed (Or.inl set)
    obtain ⟨-, unqueued, dpc, dpcFlag⟩ := waiting flag
    exact
      { cancellingTimer, cancellingDpc, deleted
        armed := fun _ => flag
        oneShot := by simp
        waiting := fun _ => ⟨by simp, unqueued, dpc, dpcFlag⟩
        queued := fun set => by simp [unqueued] at set
        freed := fun past => by simp [(freed past).1] at flag }
  | hookAdd entered unheld flag =>
    obtain ⟨-, -, dpc, -⟩ := waiting flag
    have disarmed : ¬ x.armed = true := fun set => by simp [oneShot set] at entered
    -- a `Free` in its critical section holds the spinlock, and one past it has cleared the flag
    have idle : x.free = .idle := by
      cases at_ : x.free with
      | idle => rfl
      | cancelTimer | cancelDpc => simp [spinlockHeld, at_] at unheld
      | unlocked | returned => simp [(freed (by simp [pastCancel, at_])).1] at flag
    exact
      { armed := fun set => absurd set (by simp [touch, disarmed])
        oneShot := fun set => absurd set disarmed
        waiting := by simp
        queued := fun _ => ⟨dpc, Or.inr ⟨rfl, idle⟩⟩
        cancellingTimer := fun cancels => by simp [touch, idle] at cancels
        cancellingDpc := fun cancels => by simp [touch, idle] at cancels
        freed := fun past => by simp [pastCancel, touch, idle] at past
        deleted := fun gone => absurd (idle.symm.trans (deleted gone)) (by simp) }
  | hookSkip entered _ flag => simp [armed (Or.inr entered)] at flag
  | dequeue set rest =>
    have flag : x.timer.fTimerScheduled = false :=
      Bool.eq_false_iff.mpr fun flag => by simp [(waiting flag).2.1] at set
    exact
      { armed, oneShot, cancellingTimer, deleted
        waiting := fun set => by simp [flag] at set
        queued := by simp
        cancellingDpc := fun _ => ⟨flag, fun _ => rfl⟩
        freed := fun past => by simp [(freed past).2.2.queued] at set }
  | dpcSkip at_ unheld | dpcPlain at_ unheld =>
    exact before.proceed (by simp [at_, DpcPc.running]) (not_cancelDpc_of_unheld unheld) _ _ _ _
  | dpcLock at_ | dpcCall at_ | dpcReturn at_ | dpcFinish at_ =>
    refine before.proceed (by simp [at_, DpcPc.running]) (fun cancels => ?_) _ _ _ _
    have waits := (cancellingDpc cancels).2 (by simp [at_, DpcPc.running])
    simp [at_] at waits
  | dpcRef _ _ _ ref => simp [plain.plain] at ref
  | dpcReadPtr _ at_ | dpcPutNull at_ | dpcPut at_ | dpcDrop at_ =>
    have dpc := plain.dpc
    simp [at_, DpcPc.viaRefPtr] at dpc
  | dpcDelete _ ref => simp [plain.plain] at ref
  | freeTimer _ life _ _ flag =>
    obtain ⟨-, unqueued, -, -⟩ := waiting flag
    exact
      { armed, oneShot, waiting
        queued := fun set => by simp [touch, unqueued] at set
        cancellingTimer := fun _ => flag
        cancellingDpc := by simp
        freed := by simp [pastCancel]
        deleted := fun gone => by simp [touch, life] at gone }
  | freeDpc _ life _ _ flag dpcFlag =>
    have rest := outside rfl
    exact
      { armed, oneShot, waiting
        queued := fun set => ⟨(queued set).1, Or.inl dpcFlag⟩
        cancellingTimer := by simp
        cancellingDpc := fun _ => ⟨flag, fun running => by simp [touch, rest] at running⟩
        freed := by simp [pastCancel]
        deleted := fun gone => by simp [touch, life] at gone }
  | freeNothing _ life _ _ flag dpcFlag =>
    -- neither flag is set, and the timer is not waiting in the queue after its hook either
    have unqueued : x.queued = false := Bool.eq_false_iff.mpr fun set => by
      rcases (queued set).2 with recorded | ⟨returned, -⟩
      · simp [dpcFlag] at recorded
      · exact started rfl set returned
    obtain ⟨disarmed, hook⟩ := before.disarmed flag
    exact recorded_of_idle (Or.inl rfl) flag dpcFlag ⟨disarmed, hook, unqueued, outside rfl⟩
      fun gone => by simp [touch, life] at gone
  | cancelTimerDpc cancels _ dpcFlag =>
    -- the two flags are never set together
    simp [(waiting (cancellingTimer cancels)).2.2.2] at dpcFlag
  | cancelTimer cancels done dpcFlag =>
    obtain ⟨-, unqueued, dpc, -⟩ := waiting (cancellingTimer cancels)
    exact recorded_of_idle (Or.inl rfl) rfl dpcFlag
      ⟨rfl, done, unqueued, by simp [dpc, DpcPc.running]⟩
      fun gone => by simp [deleted gone] at cancels
  | cancelDpc cancels =>
    obtain ⟨flag, -⟩ := cancellingDpc cancels
    obtain ⟨disarmed, hook⟩ := before.disarmed flag
    exact recorded_of_idle (Or.inl rfl) flag rfl ⟨disarmed, hook, rfl, outside rfl⟩
      fun gone => by simp [deleted gone] at cancels
  | freeDelete unlocked =>
    obtain ⟨flag, dpcFlag, idle⟩ := freed (by simp [pastCancel, unlocked])
    exact recorded_of_idle (Or.inr rfl) flag dpcFlag
      ⟨idle.armed, idle.hook, idle.queued, idle.dpc⟩ fun _ => rfl

/-- What holds of a timer with delay zero, freed or not. -/
structure Prompt (x : Slot) : Prop where
  armed : x.armed = false
  hook : x.hook = .idle
  flag : x.timer.fTimerScheduled = false
  queued : x.queued = true → x.timer.fDpcScheduled = true ∧ x.dpc = .idle
  freed : x.pastCancel = true → x.timer.fDpcScheduled = false
  deleted : x.life = .deleted ↔ x.free = .returned
  deletions : x.deletions = if x.free = .returned then 1 else 0

/-- A step of `DoDPC` takes nothing back of what `Free` has done. -/
theorem Prompt.proceed (prompt : x.Prompt) (busy : x.dpc ≠ .idle) (dpc : DpcPc)
    {flag : Bool} (clears : flag = true → x.timer.fDpcScheduled = true) (stale : Bool)
    (calls : List (Proc × Address × BitVec 32)) :
    Prompt { x with
      timer := { x.timer with fDpcScheduled := flag }
      dpc := dpc
      stale := stale
      calls := calls } where
  armed := prompt.armed
  hook := prompt.hook
  flag := prompt.flag
  queued set := absurd (prompt.queued set).2 busy
  freed past := Bool.eq_false_iff.mpr fun set => by simpa [prompt.freed past] using clears set
  deleted := prompt.deleted
  deletions := prompt.deletions

/-- `Free` moves on before it deletes the timer. -/
theorem Prompt.free (prompt : x.Prompt) {free : FreePc} (before : x.free ≠ .returned)
    (after : free ≠ .returned)
    (cleared : free = .unlocked → x.timer.fDpcScheduled = false) (stale : Bool) :
    Prompt { x with free := free, stale := stale } := by
  obtain ⟨armed, hook, flag, queued, freed, deleted, deletions⟩ := prompt
  have kept : x.life ≠ .deleted := fun gone => before (deleted.mp gone)
  refine ⟨armed, hook, flag, queued, fun past => cleared ?_, by simp [kept, after], ?_⟩
  · simpa [pastCancel, after] using past
  · simpa [before, after] using deletions

theorem Moves.prompt (moved : Moves x a y) (prompt : x.Prompt) (plain : x.Plain)
    (early : x.life = .absent ∨ x.life = .constructed → x.Quiet) (usec : x.usec = 0) :
    y.Prompt := by
  have before := prompt
  obtain ⟨armed, hook, flag, queued, freed, deleted, deletions⟩ := prompt
  -- a timer without a delay never sits in the timer queue, so most steps are those of its DPC
  cases moved with
  | construct absent =>
    have quiet := early (Or.inl absent)
    exact { armed, hook, flag, queued, freed, deletions, deleted := by simp [quiet.free] }
  | scheduleDpc constructed =>
    have quiet := early (Or.inr constructed)
    exact
      { armed, hook, flag, deletions
        queued := fun _ => ⟨rfl, quiet.dpc⟩
        freed := fun past => by simp [pastCancel, quiet.free] at past
        deleted := by simp [quiet.free] }
  | scheduleTimer _ delayed => exact absurd usec delayed
  | expire set => simp [armed] at set
  | hookAdd entered | hookSkip entered => simp [hook] at entered
  | dequeue => exact { armed, hook, flag, freed, deleted, deletions, queued := by simp }
  | dpcSkip at_ | dpcLock at_ | dpcCall at_ | dpcReturn at_ | dpcFinish at_ =>
    exact before.proceed (by simp [at_]) _ id _ _
  | dpcPlain at_ => exact before.proceed (by simp [at_]) _ (by simp) _ _
  | dpcRef _ _ _ ref => simp [plain.plain] at ref
  | dpcReadPtr _ at_ | dpcPutNull at_ | dpcPut at_ | dpcDrop at_ =>
    have dpc := plain.dpc
    simp [at_, DpcPc.viaRefPtr] at dpc
  | dpcDelete _ ref => simp [plain.plain] at ref
  | freeTimer idle | freeDpc idle => exact before.free (by simp [idle]) (by simp) (by simp) _
  | freeNothing idle _ _ _ _ dpcFlag =>
    exact before.free (by simp [idle]) (by simp) (fun _ => dpcFlag) _
  | cancelTimerDpc cancels =>
    have moved : Prompt { x with free := .cancelDpc } :=
      before.free (by simp [cancels]) (by simp) (by simp) x.stale
    exact { moved with armed := rfl, flag := rfl }
  | cancelTimer cancels _ dpcFlag =>
    have moved : Prompt { x with free := .unlocked } :=
      before.free (by simp [cancels]) (by simp) (fun _ => dpcFlag) x.stale
    exact { moved with armed := rfl, flag := rfl }
  | cancelDpc cancels =>
    -- `Free` is still running, and it deletes the timer only at its end
    have kept : x.life ≠ .deleted := fun gone => by simp [deleted.mp gone] at cancels
    exact
      { armed, hook, flag
        queued := by simp
        freed := fun _ => rfl
        deleted := by simp [kept]
        deletions := by simpa [cancels] using deletions }
  | freeDelete unlocked =>
    exact
      { armed, hook, flag, queued
        freed := fun _ => freed (by simp [pastCancel, unlocked])
        deleted := by simp [delete]
        deletions := by simpa [delete, touch, unlocked] using deletions }

/-- The timer has been deleted while `DoDPC` is running. -/
def Overrun (x : Slot) : Prop := x.life = .deleted ∧ x.dpc.running = true

/-- The timer is accessed after its deletion only by a `DoDPC` it was deleted under. -/
theorem Moves.stale (moved : Moves x a y) (prompt : x.Prompt)
    (fine : x.stale = false) (clear : ¬ x.Overrun) : y.stale = false := by
  have present : x.dpc.running = true → x.life ≠ .deleted :=
    fun running gone => clear ⟨gone, running⟩
  cases moved with
  | hookAdd entered | hookSkip entered => simp [prompt.hook] at entered
  | dpcSkip at_ | dpcRef at_ | dpcPlain at_ | dpcDrop at_ | dpcCall at_ | dpcDelete at_
  | dpcFinish at_ =>
    have life := present (by simp [at_, DpcPc.running])
    simp [touch, delete, fine, life]
  | freeTimer _ life | freeDpc _ life | freeNothing _ life => simp [touch, fine, life]
  | freeDelete unlocked =>
    have life : x.life ≠ .deleted := fun gone => by simp [prompt.deleted.mp gone] at unlocked
    simp [delete, touch, fine, life]
  | construct | scheduleDpc | scheduleTimer | expire | dequeue | dpcReadPtr | dpcPutNull | dpcPut
  | dpcLock | dpcReturn | cancelTimerDpc | cancelTimer | cancelDpc => exact fine

/-- A timer is deleted under `DoDPC` only by a `Free` that comes while `DoDPC` runs. -/
theorem Moves.overrun (moved : Moves x a y) (prompt : x.Prompt) (overrun : y.Overrun) :
    x.Overrun ∨ a = .freeDelete ∧ x.dpc.running = true := by
  obtain ⟨gone, running⟩ := overrun
  cases moved with
  | construct | scheduleDpc | scheduleTimer => exact nomatch gone
  | dequeue queued =>
    -- `Free` has taken the timer out of the queue before it deletes it
    have freed := prompt.freed (by simp [pastCancel, prompt.deleted.mp gone])
    simp [(prompt.queued queued).1] at freed
  | dpcSkip | dpcDrop | dpcDelete | dpcFinish => simp [DpcPc.running] at running
  | dpcRef at_ | dpcPlain at_ | dpcReadPtr _ at_ | dpcPutNull at_ | dpcPut at_ | dpcLock at_
  | dpcCall at_ | dpcReturn at_ => exact Or.inl ⟨gone, by simp [at_, DpcPc.running]⟩
  | freeDelete => exact Or.inr ⟨rfl, running⟩
  | expire | hookAdd | hookSkip | freeTimer | freeDpc | freeNothing | cancelTimerDpc | cancelTimer
  | cancelDpc => exact Or.inl ⟨gone, running⟩

/-- A `DoDPC` that the timer was deleted under goes on until it accesses the timer. -/
theorem Moves.of_overrun (moved : Moves x a y) (overrun : x.stale = true ∨ x.Overrun) :
    y.stale = true ∨ y.Overrun := by
  rcases overrun with stale | ⟨gone, running⟩
  · cases moved <;> simp [touch, delete, stale]
  · cases moved with
    | construct early | scheduleDpc early | scheduleTimer early => simp [gone] at early
    | dequeue _ rest => simp [running] at rest
    | dpcSkip | dpcRef | dpcPlain | dpcDrop | dpcCall | dpcDelete | dpcFinish | hookAdd | hookSkip
    | freeTimer | freeDpc | freeNothing | freeDelete => exact Or.inl (by simp [touch, delete, gone])
    | dpcReadPtr | dpcPutNull | dpcPut | dpcLock | dpcReturn => exact Or.inr ⟨gone, rfl⟩
    | expire | cancelTimerDpc | cancelTimer | cancelDpc => exact Or.inr ⟨gone, running⟩

end Slot

/-! ## Runs of one timer -/

section Lifetime

variable {args : Args} {x y : Slot} {past : List (Event Slot TimerAction)}

/-- `Free` is not called from inside or during `DoDPC`: the two do not overlap. -/
def FreesOutside (e : Event Slot TimerAction) : Prop :=
  e.action.ofFree = true → e.source.dpc.running = false

/-- `Free` does not start while the timer waits in the DPC queue after its hook. -/
def FreesRecorded (e : Event Slot TimerAction) : Prop :=
  e.action = .freeLock → e.source.queued = true → e.source.hook ≠ .returned

/-- `Free` does not delete the timer while `DoDPC` runs. -/
def DeletesIdle (e : Event Slot TimerAction) : Prop :=
  e.action = .freeDelete → e.source.dpc.running = false

theorem plain_of_reachable (reached : (lifetime args).Reachable x) (plain : args.isRefPtr = false) :
    x.Plain :=
  reached.invariant (fun x first => by rw [show x = Slot.new args from first]; exact ⟨plain, rfl⟩)
    fun _ _ _ plain taken => (Slot.moves_of_step taken).plain plain

/-- A timer that is freed with the flags telling the truth is idle once deleted. -/
theorem idle_of_deleted (run : (lifetime args).Run past x) (plain : args.isRefPtr = false)
    (outside : Every FreesOutside past) (recorded : Every FreesRecorded past)
    (deleted : x.life = .deleted) : x.Idle := by
  have held := run.invariant_of_every (P := fun x => (lifetime args).Reachable x ∧ x.Recorded)
    (outside.and recorded) (fun x first => ⟨.start first, ?_⟩) ?_
  · exact (held.2.freed (by simp [Slot.pastCancel, held.2.deleted deleted])).2.2
  · rw [show x = Slot.new args from first]
    constructor <;> simp [Slot.new, Timer.new, Slot.pastCancel]
  · rintro x a y ⟨reached, held⟩ ⟨outside, recorded⟩ taken
    exact ⟨reached.step taken, (Slot.moves_of_step taken).recorded held
      (plain_of_reachable reached plain) (quiet_of_reachable reached) outside recorded⟩

theorem prompt_of_reachable (reached : (lifetime args).Reachable x)
    (plain : args.isRefPtr = false) (usec : args.usec = 0) : x.Prompt := by
  refine (reached.invariant (P := fun x => (lifetime args).Reachable x ∧ x.Prompt)
    (fun x first => ⟨.start first, ?_⟩) ?_).2
  · rw [show x = Slot.new args from first]
    constructor <;> simp [Slot.new, Timer.new, Slot.pastCancel]
  · rintro x a y ⟨reached, prompt⟩ taken
    exact ⟨reached.step taken, (Slot.moves_of_step taken).prompt prompt
      (plain_of_reachable reached plain) (quiet_of_reachable reached)
      ((congrArg Args.usec (args_of_reachable reached)).trans usec)⟩

/-- No access to the timer after its deletion, and one deletion for one `Free`. -/
structure Untouched (x : Slot) : Prop where
  fine : x.stale = false
  deletions : x.deletions = if x.free = .returned then 1 else 0

theorem untouched_iff_of_run (run : (lifetime args).Run past x) (plain : args.isRefPtr = false)
    (usec : args.usec = 0) :
    (Every DeletesIdle past → Untouched x) ∧
      (¬ x.Overrun → (Untouched x ↔ Every DeletesIdle past)) := by
  have deletions := (prompt_of_reachable run.reachable plain usec).deletions
  have both := run.every_of_every_and_iff (fun x => x.stale = true ∨ x.Overrun) (G := DeletesIdle)
    (H := fun _ => True) (P := (lifetime args).Reachable) ?_ ?_ ?_ ?_
  · have untouched : Every DeletesIdle past → Untouched x := fun idle =>
      ⟨by simpa using fun stale => (both.1 idle).2 (Or.inl stale), deletions⟩
    refine ⟨untouched, fun settled => ⟨fun held => ?_, untouched⟩⟩
    refine (both.2 ?_).mp fun _ _ => trivial
    -- a stale access or a deletion under a running `DoDPC` needs one of the latter before
    rintro (stale | overrun)
    · simp [held.fine] at stale
    · exact settled overrun
  · intro x first
    rw [show x = Slot.new args from first]
    exact ⟨.start rfl, by simp [Slot.new, Slot.Overrun]⟩
  · intro x a y reached clear taken idle
    have prompt := prompt_of_reachable reached plain usec
    have moved := Slot.moves_of_step taken
    obtain ⟨fine, clear⟩ := not_or.mp clear
    refine ⟨reached.step taken, ?_, trivial⟩
    rintro (stale | overrun)
    · simp [moved.stale prompt (by simpa using fine) clear] at stale
    · rcases moved.overrun prompt overrun with before | ⟨rfl, running⟩
      · exact clear before
      · exact Bool.eq_false_iff.mp (idle rfl) running
  · -- the deletion comes under a `DoDPC` that is still to touch the timer
    intro x a y _ _ taken overruns
    obtain ⟨rfl, running⟩ := Classical.not_imp.mp overruns
    obtain ⟨-, rfl⟩ := of_guarded taken
    exact Or.inl (Or.inr ⟨rfl, by simpa [Slot.delete, Slot.touch] using running⟩)
  · exact fun x a y pending taken => Or.inl ((Slot.moves_of_step taken).of_overrun pending)

end Lifetime

instance : DecidablePred FreesOutside := fun _ => inferInstanceAs (Decidable (_ → _))

instance : DecidablePred FreesRecorded := fun _ => inferInstanceAs (Decidable (_ → _ → _))

instance : DecidablePred DeletesIdle := fun _ => inferInstanceAs (Decidable (_ → _))

/-! ## Runs of the queue -/

section Queue

variable {ι : Type*} [DecidableEq ι] {args : ι → Args} {s : State ι}
  {past : List (Event (State ι) (Action ι))}

/-- Nothing is left to run for a deleted timer. -/
structure NothingRuns (s : State ι) (t : ι) : Prop where
  idle : (s.timers t).Idle
  /-- No step of the hook or of `DoDPC` is possible. -/
  stopped : ∀ a s', s.step (.timer t a) = some s' → a.ofHook = false ∧ a.ofDpc = false

/-- Freeing over whole runs. A timer that was freed outside of `DoDPC`, and not while
it waited in the DPC queue after its hook, has nothing left to run once deleted. -/
theorem nothingRuns_of_deleted (run : (queue args).Run past s) (t : ι)
    (plain : (args t).isRefPtr = false) (outside : Every FreesOutside (timerHistory t past))
    (recorded : Every FreesRecorded (timerHistory t past))
    (deleted : (s.timers t).life = .deleted) : NothingRuns s t := by
  have idle := idle_of_deleted (run_timerHistory run t) plain outside recorded deleted
  exact ⟨idle, fun a s' taken => idle.not_moves (Slot.moves_of_step (timers_of_timerStep taken).1)⟩

/-- A timer with a delay is freed before it expires. -/
theorem nothingRuns_cancelled : ∃ past s,
    (queue fun _ : Unit => ⟨1, 20, 3, 10, false⟩).Run past s ∧ NothingRuns s () := by
  have run := (Run.start (T := queue fun _ : Unit => ⟨1, 20, 3, 10, false⟩) rfl).play
    ([.construct, .schedule, .freeLock, .freeCancelTimer, .freeDelete].map
      (.timer ())) rfl
  exact ⟨_, _, run, nothingRuns_of_deleted run () rfl (by decide) (by decide) (by decide)⟩

/-- A timer with a delay is freed after its hook has queued it, and before `DoDPC`. The
deleted timer stays in the queue, and `DoDPC` is entered on it. -/
theorem not_nothingRuns_hooked : ∃ past s,
    (queue fun _ : Unit => ⟨1, 20, 3, 10, false⟩).Run past s ∧
      Every FreesOutside (timerHistory () past) ∧ (s.timers ()).life = .deleted ∧
      (s.timers ()).queued = true ∧ ¬ NothingRuns s () := by
  have run := (Run.start (T := queue fun _ : Unit => ⟨1, 20, 3, 10, false⟩) rfl).play
    ([.construct, .schedule, .expire, .hook, .freeLock, .freeDelete].map
      (.timer ())) rfl
  exact ⟨_, _, run, by decide, by decide, by decide,
    fun nothing => absurd nothing.idle.queued (by decide)⟩

/-- Freeing against `DoDPC` over whole runs. A timer with delay zero is not accessed
after its deletion if no `Free` deletes it while `DoDPC` runs, and, once no `DoDPC`
is left running on the deleted timer, only if. -/
theorem untouched_iff (run : (queue args).Run past s) (t : ι)
    (plain : (args t).isRefPtr = false) (usec : (args t).usec = 0) :
    (Every DeletesIdle (timerHistory t past) → Untouched (s.timers t)) ∧
      (¬ (s.timers t).Overrun →
        (Untouched (s.timers t) ↔ Every DeletesIdle (timerHistory t past))) :=
  untouched_iff_of_run (run_timerHistory run t) plain usec

/-- A timer with delay zero is freed after it has been delivered. -/
theorem untouched_delivered : ∃ past s,
    (queue fun _ : Unit => ⟨1, 20, 3, 0, false⟩).Run past s ∧ Untouched (s.timers ()) := by
  have run := (Run.start (T := queue fun _ : Unit => ⟨1, 20, 3, 0, false⟩) rfl).play
    ([.construct, .schedule, .dequeue, .dpcCheck, .dpcLock, .dpcCall, .dpcReturn,
      .dpcFinish, .freeLock, .freeDelete].map (.timer ())) rfl
  exact ⟨_, _, run, (untouched_iff run () rfl rfl).1 (by decide)⟩

/-- `fProc` frees its own timer, and `DoDPC` reads `fIsRefPtr` after `fProc` returns. -/
theorem not_untouched_reentered : ∃ past s,
    (queue fun _ : Unit => ⟨1, 20, 3, 0, false⟩).Run past s ∧ ¬ Untouched (s.timers ()) := by
  have run := (Run.start (T := queue fun _ : Unit => ⟨1, 20, 3, 0, false⟩) rfl).play
    ([.construct, .schedule, .dequeue, .dpcCheck, .dpcLock, .dpcCall, .freeLock,
      .freeDelete, .dpcReturn, .dpcFinish].map (.timer ())) rfl
  exact ⟨_, _, run, fun untouched => absurd untouched.fine (by decide)⟩

end Queue

end NvidiaHaiku.TimerQueue

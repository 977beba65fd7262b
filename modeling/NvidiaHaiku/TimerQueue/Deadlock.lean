/-
# Freeing a timer while it expires

`Free` calls `cancel_timer` while it holds `fSpinlock`, and `cancel_timer` waits for a
hook in execution. `TimerHook` takes `fSpinlock` first. So a timer that expires on one CPU
while it is freed on another one stops both: the hook waits for the lock, and `Free`, which
has the lock, for the hook. Neither ever goes on.

This needs the expiry and the critical section of `Free` to overlap, with the hook
entered and the lock not yet taken by it.
-/

import NvidiaHaiku.TimerQueue.Timer

namespace NvidiaHaiku.TimerQueue

open NvidiaHaiku.Math TransitionSystem

namespace Slot

variable {x y : Slot} {a : TimerAction}

/-- `Free` holds `fSpinlock` and waits inside `cancel_timer` for the hook, which waits for
`fSpinlock`. -/
structure Deadlocked (x : Slot) : Prop where
  free : x.free = .cancelTimer
  hook : x.hook = .entered

instance : DecidablePred Deadlocked := fun x =>
  decidable_of_iff (x.free = .cancelTimer ∧ x.hook = .entered)
    ⟨fun both => ⟨both.1, both.2⟩, fun both => ⟨both.free, both.hook⟩⟩

/-- In a deadlock, each of the two waits for the other one. -/
theorem Deadlocked.waits (deadlocked : x.Deadlocked) :
    x.step .freeCancelTimer = none ∧ x.step .hook = none := by
  obtain ⟨free, hook⟩ := deadlocked
  have held : x.spinlockHeld = true := by simp [spinlockHeld, free]
  exact ⟨by simp [step, hook], by simp [step, held]⟩

/-- No step of another party ends a deadlock. -/
theorem Deadlocked.step (deadlocked : x.Deadlocked) (taken : x.step a = some y) :
    y.Deadlocked := by
  obtain ⟨free, hook⟩ := deadlocked
  have held : x.spinlockHeld = true := by simp [spinlockHeld, free]
  cases moves_of_step taken with
  | hookAdd _ unheld | hookSkip _ unheld | dpcSkip _ unheld | dpcRef _ unheld
  | dpcPlain _ unheld => simp [held] at unheld
  | freeTimer idle | freeDpc idle | freeNothing idle => simp [free] at idle
  | cancelTimerDpc _ done | cancelTimer _ done => exact absurd hook done
  | cancelDpc cancels => simp [free] at cancels
  | freeDelete unlocked => simp [free] at unlocked
  | expire => exact ⟨free, rfl⟩
  | construct | scheduleDpc | scheduleTimer | dequeue | dpcReadPtr | dpcPutNull | dpcPut
  | dpcDrop | dpcLock | dpcCall | dpcReturn | dpcDelete | dpcFinish => exact ⟨free, hook⟩

/-- An armed timer, or one whose hook has still to run, has `fTimerScheduled` set. -/
structure Signalled (x : Slot) : Prop where
  flag : x.armed = true ∨ x.hook = .entered → x.timer.fTimerScheduled = true
  oneShot : x.armed = true → x.hook = .idle

theorem Moves.signalled (moved : Moves x a y) (signalled : x.Signalled)
    (early : x.life = .absent ∨ x.life = .constructed → x.Quiet) : y.Signalled := by
  obtain ⟨flag, oneShot⟩ := signalled
  cases moved with
  | scheduleTimer constructed => exact ⟨fun _ => rfl, fun _ => (early (Or.inr constructed)).hook⟩
  | expire armed => exact ⟨fun _ => flag (Or.inl armed), by simp⟩
  | hookAdd entered =>
    have disarmed : ¬ x.armed = true := fun set => by simp [oneShot set] at entered
    exact ⟨fun set => absurd set (by simp [touch, disarmed]), fun set => absurd set disarmed⟩
  | hookSkip entered =>
    have disarmed : ¬ x.armed = true := fun set => by simp [oneShot set] at entered
    exact ⟨fun set => absurd set (by simp [touch, disarmed]), fun set => absurd set disarmed⟩
  | cancelTimerDpc _ done | cancelTimer _ done =>
    exact ⟨fun set => absurd set (by simp [done]), by simp⟩
  | construct | scheduleDpc | dequeue | dpcSkip | dpcRef | dpcPlain | dpcReadPtr | dpcPutNull
  | dpcPut | dpcDrop | dpcLock | dpcCall | dpcReturn | dpcDelete | dpcFinish | freeTimer
  | freeDpc | freeNothing | cancelDpc | freeDelete => exact ⟨flag, oneShot⟩

end Slot

variable {args : Args} {x y : Slot} {a : TimerAction}

theorem signalled_of_reachable (reached : (lifetime args).Reachable x) : x.Signalled := by
  suffices both : x.Signalled ∧ (x.life = .absent ∨ x.life = .constructed → x.Quiet) from both.1
  refine reached.invariant (P := fun x =>
    x.Signalled ∧ (x.life = .absent ∨ x.life = .constructed → x.Quiet)) ?_ ?_
  · intro x initial
    rw [show x = Slot.new args from initial]
    refine ⟨⟨by simp [Slot.new], fun set => by cases set⟩, fun _ => ?_⟩
    exact ⟨rfl, rfl, rfl, rfl, rfl, rfl, rfl⟩
  · intro x a y held taken
    have moved := Slot.moves_of_step taken
    exact ⟨moved.signalled held.1 held.2, moved.quiet held.2⟩

/-- `Free` does not take `fSpinlock` while a hook waits for it, and the timer does not expire
while `Free` is inside `cancel_timer`. -/
def ExpiresApart (e : Event Slot TimerAction) : Prop :=
  (e.action = .freeLock → e.source.hook ≠ .entered) ∧
    (e.action = .expire → e.source.free ≠ .cancelTimer)

instance : DecidablePred ExpiresApart := fun e =>
  inferInstanceAs (Decidable ((e.action = .freeLock → e.source.hook ≠ .entered) ∧
    (e.action = .expire → e.source.free ≠ .cancelTimer)))

/-- The steps that lead into a deadlock are those outside the condition. -/
theorem deadlocked_iff_of_step (taken : x.step a = some y) (signalled : x.Signalled)
    (apart : ¬ x.Deadlocked) : y.Deadlocked ↔ ¬ ExpiresApart ⟨x, a, y⟩ := by
  constructor
  · rintro ⟨free, hook⟩ meets
    cases Slot.moves_of_step taken with
    | expire => exact meets.2 rfl free
    | freeTimer => exact meets.1 rfl hook
    | hookAdd | hookSkip => simp at hook
    | freeDpc | freeNothing | cancelTimerDpc | cancelTimer | cancelDpc | freeDelete =>
      simp at free
    | construct | scheduleDpc | scheduleTimer | dequeue | dpcSkip | dpcRef | dpcPlain
    | dpcReadPtr | dpcPutNull | dpcPut | dpcDrop | dpcLock | dpcCall | dpcReturn | dpcDelete
    | dpcFinish => exact apart ⟨free, hook⟩
  · intro fails
    cases Slot.moves_of_step taken with
    | expire =>
      have cancels : x.free = .cancelTimer := by simpa [ExpiresApart] using fails
      exact ⟨cancels, rfl⟩
    | freeTimer =>
      have entered : x.hook = .entered := by simpa [ExpiresApart] using fails
      exact ⟨rfl, entered⟩
    | freeDpc _ _ _ _ unset | freeNothing _ _ _ _ unset =>
      -- the hook has still to clear the flag
      have entered : x.hook = .entered := by simpa [ExpiresApart] using fails
      simp [signalled.flag (Or.inr entered)] at unset
    | construct | scheduleDpc | scheduleTimer | hookAdd | hookSkip | dequeue | dpcSkip | dpcRef
    | dpcPlain | dpcReadPtr | dpcPutNull | dpcPut | dpcDrop | dpcLock | dpcCall | dpcReturn
    | dpcDelete | dpcFinish | cancelTimerDpc | cancelTimer | cancelDpc | freeDelete =>
      simp [ExpiresApart] at fails

/-- Deadlock over whole runs: `Free` and `TimerHook` never wait for each other just when the
expiry and the critical section of `Free` stay apart. -/
theorem undeadlocked_iff {past : List (Event Slot TimerAction)}
    (run : (lifetime args).Run past x) :
    Every (fun e => ¬ e.target.Deadlocked) past ↔ Every ExpiresApart past := by
  refine run.every_iff (P := fun x => (lifetime args).Reachable x ∧ ¬ x.Deadlocked) ?_ ?_ ?_
  · intro x initial
    refine ⟨.start initial, fun deadlocked => ?_⟩
    have hook := deadlocked.hook
    rw [show x = Slot.new args from initial] at hook
    cases hook
  · intro x a y held taken meets
    have free : ¬ y.Deadlocked := fun deadlocked =>
      (deadlocked_iff_of_step taken (signalled_of_reachable held.1) held.2).mp deadlocked meets
    exact ⟨⟨held.1.step taken, free⟩, free⟩
  · intro x a y held taken fails
    exact not_not.mpr
      ((deadlocked_iff_of_step taken (signalled_of_reachable held.1) held.2).mpr fails)

/-- A timer that is freed before it expires. -/
theorem undeadlocked_early : ∃ past x, (lifetime ⟨1, 20, 3, 10, false⟩).Run past x ∧
    x.free = .returned ∧ Every (fun e => ¬ e.target.Deadlocked) past := by
  have run := (Run.start (T := lifetime ⟨1, 20, 3, 10, false⟩) rfl).play
    [.construct, .schedule, .freeLock, .freeCancelTimer, .freeDelete] rfl
  exact ⟨_, _, run, rfl, (undeadlocked_iff run).mpr (by decide)⟩

/-- The timer expires, and `Free` takes `fSpinlock` before the hook does. -/
theorem deadlocked_expiring : ∃ past x, (lifetime ⟨1, 20, 3, 10, false⟩).Run past x ∧
    x.Deadlocked := by
  have run := (Run.start (T := lifetime ⟨1, 20, 3, 10, false⟩) rfl).play
    [.construct, .schedule, .expire, .freeLock] rfl
  exact ⟨_, _, run, rfl, rfl⟩

/-- A deadlock lasts, whatever the other parties do. -/
theorem deadlocked_of_later {later : List (Event Slot TimerAction)} (deadlocked : x.Deadlocked)
    (run : ((lifetime args).after x).Run later y) : y.Deadlocked :=
  run.reachable.invariant (fun _ here => by rw [show _ = x from here]; exact deadlocked)
    fun _ _ _ stuck taken => stuck.step taken

end NvidiaHaiku.TimerQueue

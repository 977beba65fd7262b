/-
# Release of a ref_ptr against running timers

`DoDPC` reads `ref_ptr->ptr` under the spinlock of its timer, and takes the NVKMS
lock only afterwards, to call `fProc` with what it has read. The owner releases a
ref_ptr under the NVKMS lock. So the owner can come in between, and `fProc` is
called with a target that has been released.

The window lies between the read of `ptr` and the call. The development shows
that a run calls `fProc` with released targets only through this window.
-/

import Mathlib.Data.Fintype.Basic
import NvidiaHaiku.TimerQueue.System

namespace NvidiaHaiku.TimerQueue

open NvidiaHaiku.Math TransitionSystem

/-- `DoDPC` has read a target and has not called `fProc` yet. -/
def DpcPc.pending : DpcPc → Bool
  | put ptr => ptr ≠ 0
  | loaded _ | locked _ => true
  | idle | entered | decRef | dropping | calling | called | returned => false

namespace Slot

variable {x y : Slot} {a : TimerAction}

/-- How the callback of a ref-ptr timer becomes pending. -/
theorem Moves.pending (moved : Moves x a y) (ref : x.timer.fIsRefPtr = true)
    (pending : y.dpc.pending = true) :
    x.dpc.pending = true ∨ ∃ ptr, ptr ≠ 0 ∧ a = .dpcReadPtr ptr := by
  cases moved with
  | dpcPlain _ _ _ plain => simp [ref] at plain
  | dpcReadPtr ptr => exact Or.inr ⟨ptr, by simpa [DpcPc.pending] using pending, rfl⟩
  | dpcPut puts set => simp [puts, DpcPc.pending, set]
  | dpcLock loaded => simp [loaded, DpcPc.pending]
  | dequeue | dpcSkip | dpcRef | dpcPutNull | dpcDrop | dpcCall | dpcReturn | dpcDelete
  | dpcFinish => simp [DpcPc.pending] at pending
  | construct | scheduleDpc | scheduleTimer | expire | hookAdd | hookSkip | freeTimer | freeDpc
  | freeNothing | cancelTimerDpc | cancelTimer | cancelDpc | freeDelete => exact Or.inl pending

/-- A pending callback stays pending until `fProc` is called. -/
theorem Moves.of_pending (moved : Moves x a y) (pending : x.dpc.pending = true) :
    y.dpc.pending = true ∨ a = .dpcCall := by
  cases moved with
  | dpcPut | dpcLock => exact Or.inl rfl
  | dpcCall => exact Or.inr rfl
  | dequeue _ rest =>
    cases at_ : x.dpc <;> simp_all [DpcPc.pending, DpcPc.running]
  | dpcSkip at_ | dpcRef at_ | dpcPlain at_ | dpcReadPtr _ at_ | dpcPutNull at_ | dpcDrop at_
  | dpcReturn at_ | dpcDelete at_ | dpcFinish at_ => simp [at_, DpcPc.pending] at pending
  | construct | scheduleDpc | scheduleTimer | expire | hookAdd | hookSkip | freeTimer | freeDpc
  | freeNothing | cancelTimerDpc | cancelTimer | cancelDpc | freeDelete => exact Or.inl pending

end Slot

variable {ι : Type*} [DecidableEq ι] {args : ι → Args} {s s' : State ι}
  {past : List (Event (State ι) (Action ι))}

/-- `DoDPC` of the ref-ptr timer `t` has a target and has not called `fProc` yet. -/
def Pending (args : ι → Args) (s : State ι) (t : ι) : Prop :=
  (args t).isRefPtr = true ∧ (s.timers t).dpc.pending = true

/-- If the event is a call of `fProc` for a ref-ptr timer, the owner of the ref_ptr
has not released it. -/
def CallsOwned (args : ι → Args) (e : Event (State ι) (Action ι)) : Prop :=
  ∀ t, e.action = .timer t .dpcCall → (args t).isRefPtr = true →
    (e.source.refs (args t).dataPtr).cleared = false

/-- The event does not release the ref_ptr of a pending callback. -/
def ReleasesIdle (args : ι → Args) (e : Event (State ι) (Action ι)) : Prop :=
  ∀ t, Pending args e.source t → e.action ≠ .clearRefPtr (args t).dataPtr

instance (s : State ι) (t : ι) : Decidable (Pending args s t) :=
  inferInstanceAs (Decidable (_ ∧ _))

instance [Fintype ι] : DecidablePred (CallsOwned args) :=
  fun _ => inferInstanceAs (Decidable (∀ _, _ → _ → _))

instance [Fintype ι] : DecidablePred (ReleasesIdle args) :=
  fun _ => inferInstanceAs (Decidable (∀ _, _ → _ ≠ _))

/-- A callback is pending with a released target. -/
def Doomed (args : ι → Args) (s : State ι) : Prop :=
  ∃ t, Pending args s t ∧ (s.refs (args t).dataPtr).cleared = true

/-- A released ref_ptr holds `NULL`. -/
theorem ptr_of_cleared (reached : (queue args).Reachable s) {r : Address}
    (cleared : (s.refs r).cleared = true) :
    (s.refs r).ptr = 0 ∧ (s.refs r).created = true := by
  refine reached.invariant (P := fun s => (s.refs r).cleared = true →
    (s.refs r).ptr = 0 ∧ (s.refs r).created = true) (fun s first => ?_) ?_ cleared
  · rw [show s = initial args from first]
    exact fun cleared => nomatch cleared
  · intro s b s' held taken cleared
    rcases ptr_of_step taken r with ⟨-, ptr, -, created⟩ | ⟨ptr, -, fresh, -, same, -⟩ |
      ⟨ptr, same, created⟩
    · exact ⟨ptr, created⟩
    · simp [(held (same ▸ cleared)).2] at fresh
    · rw [ptr, created]
      exact held (same ▸ cleared)

/-- Nothing undoes a release. -/
theorem cleared_of_step {b : Action ι} (taken : s.step b = some s') {r : Address}
    (cleared : (s.refs r).cleared = true) : (s'.refs r).cleared = true := by
  rcases ptr_of_step taken r with ⟨-, -, now, -⟩ | ⟨-, -, -, -, same, -⟩ | ⟨-, same, -⟩
  · exact now
  · exact same.trans cleared
  · exact same.trans cleared

/-- A callback with a released target arises in one way: the release comes in
while the callback is pending. -/
theorem doomed_of_step {b : Action ι} (reached : (queue args).Reachable s)
    (taken : s.step b = some s') (doomed : Doomed args s') :
    Doomed args s ∨ ¬ ReleasesIdle args ⟨s, b, s'⟩ := by
  obtain ⟨t, ⟨ref, pending⟩, cleared⟩ := doomed
  have before : (s.refs (args t).dataPtr).cleared = true ∨ b = .clearRefPtr (args t).dataPtr := by
    rcases ptr_of_step taken (args t).dataPtr with
      ⟨clears, -⟩ | ⟨-, -, -, -, same, -⟩ | ⟨-, same, -⟩
    · exact Or.inr clears
    · exact Or.inl (same ▸ cleared)
    · exact Or.inl (same ▸ cleared)
  have was : (s.timers t).dpc.pending = true := by
    rcases timer_of_step taken t with ⟨a, rfl, moved⟩ | same
    · rcases moved.pending ((fIsRefPtr_of_reachable reached t).trans ref) pending with
        was | ⟨ptr, set, rfl⟩
      · exact was
      · -- a released ref_ptr is read as `NULL`
        rcases before with before | clears
        · have read := (ptr_of_read reached taken).2
          exact absurd (read.symm.trans (ptr_of_cleared reached before).1) set
        · exact nomatch clears
    · rwa [same] at pending
  -- it was doomed before, or this step is the release
  rcases before with before | clears
  · exact Or.inl ⟨t, ⟨ref, was⟩, before⟩
  · exact Or.inr fun idle => idle t ⟨ref, was⟩ clears

/-- A doomed callback stays doomed until `fProc` is called. -/
theorem Doomed.step {b : Action ι} (doomed : Doomed args s) (taken : s.step b = some s') :
    Doomed args s' ∨ ¬ CallsOwned args ⟨s, b, s'⟩ := by
  obtain ⟨t, ⟨ref, pending⟩, cleared⟩ := doomed
  have still := cleared_of_step taken cleared
  rcases timer_of_step taken t with ⟨a, rfl, moved⟩ | same
  · rcases moved.of_pending pending with pending | rfl
    · exact Or.inl ⟨t, ⟨ref, pending⟩, still⟩
    · -- this is the call, and the target is already gone
      exact Or.inr fun owned => Bool.eq_false_iff.mp (owned t rfl ref) cleared
  · exact Or.inl ⟨t, ⟨ref, by rwa [same]⟩, still⟩

/-- A release while a callback on the ref_ptr is pending dooms it. -/
theorem doomed_of_release {b : Action ι} (taken : s.step b = some s')
    (release : ¬ ReleasesIdle args ⟨s, b, s'⟩) : Doomed args s' := by
  simp only [ReleasesIdle, not_forall, not_not] at release
  obtain ⟨t, ⟨ref, pending⟩, rfl⟩ := release
  have timers := timers_of_step taken nofun
  obtain ⟨-, rfl⟩ := of_guarded taken
  exact ⟨t, ⟨ref, by rwa [timers]⟩, by simp [State.setRef]⟩

/-- Every call for a released target was doomed. -/
theorem callsOwned_of_not_doomed {b : Action ι} (taken : s.step b = some s')
    (clear : ¬ Doomed args s) : CallsOwned args ⟨s, b, s'⟩ := by
  rintro t rfl ref
  by_contra cleared
  refine clear ⟨t, ⟨ref, ?_⟩, by simpa using cleared⟩
  have moved := Slot.moves_of_step (timers_of_timerStep taken).1
  generalize s'.timers t = y at moved
  cases moved with
  | dpcCall locked => simp [locked, DpcPc.pending]

/-- Release safety over whole runs. If no release of a ref_ptr comes in while a
callback on it is pending, no callback is given a released target. And once no
callback is pending any more, that condition is also necessary. -/
theorem callsOwned_iff (run : (queue args).Run past s) :
    (Every (ReleasesIdle args) past → Every (CallsOwned args) past) ∧
      ((∀ t, ¬ Pending args s t) →
        (Every (CallsOwned args) past ↔ Every (ReleasesIdle args) past)) := by
  have both := run.every_of_every_and_iff (Doomed args) (G := ReleasesIdle args)
    (H := CallsOwned args) (P := (queue args).Reachable) ?_ ?_ ?_ ?_
  · refine ⟨fun idle => (both.1 idle).1, fun settled => both.2 ?_⟩
    rintro ⟨t, pending, -⟩
    exact settled t pending
  · intro s first
    refine ⟨.start first, ?_⟩
    rintro ⟨t, -, cleared⟩
    rw [show s = initial args from first] at cleared
    exact nomatch cleared
  · intro s b s' reached clear taken idle
    refine ⟨reached.step taken, fun doomed => ?_, callsOwned_of_not_doomed taken clear⟩
    exact (doomed_of_step reached taken doomed).elim clear (· idle)
  · -- the defect is not in the release itself but in the call that it dooms
    exact fun s b s' _ _ taken release => Or.inl (doomed_of_release taken release)
  · exact fun s b s' doomed taken => doomed.step taken

/-- A ref-ptr timer is delivered, and its ref_ptr is released afterwards. -/
theorem callsOwned_delivered : ∃ past s,
    (queue fun _ : Unit => ⟨1, 7, 3, 0, true⟩).Run past s ∧
      Every (CallsOwned fun _ : Unit => ⟨1, 7, 3, 0, true⟩) past := by
  have run := (Run.start (T := queue fun _ : Unit => ⟨1, 7, 3, 0, true⟩) rfl).play
    (.allocRefPtr 7 20 :: [.construct, .schedule, .dequeue, .dpcCheck, .dpcReadPtr 20,
      .dpcPut, .dpcLock, .dpcCall, .dpcReturn, .dpcFinish].map (.timer ()) ++
      [.lock, .clearRefPtr 7, .putRefPtr 7, .unlock]) rfl
  exact ⟨_, _, run, (callsOwned_iff run).1 (by decide)⟩

/-- The ref_ptr is released under the NVKMS lock while `DoDPC`, with 20 read from it,
waits for the lock. Then `fProc` is called with 20. -/
theorem not_callsOwned_overtaken : ∃ past s,
    (queue fun _ : Unit => ⟨1, 7, 3, 0, true⟩).Run past s ∧
      Every (fun e => e.action = .clearRefPtr 7 ∨ e.action = .putRefPtr 7 →
        e.source.locker = some .client) past ∧
      (s.timers ()).calls = [(1, 20, 3)] ∧
      ¬ Every (CallsOwned fun _ : Unit => ⟨1, 7, 3, 0, true⟩) past := by
  have run := (Run.start (T := queue fun _ : Unit => ⟨1, 7, 3, 0, true⟩) rfl).play
    (.allocRefPtr 7 20 :: [.construct, .schedule, .dequeue, .dpcCheck, .dpcReadPtr 20,
      .dpcPut].map (.timer ()) ++ [.lock, .clearRefPtr 7, .putRefPtr 7, .unlock] ++
      [.dpcLock, .dpcCall].map (.timer ())) rfl
  exact ⟨_, _, run, by decide, by decide, by decide⟩

end NvidiaHaiku.TimerQueue

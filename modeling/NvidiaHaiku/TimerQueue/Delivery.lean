/-
# Delivery of timers

A timer allocated with delay zero is delivered: `Schedule` sets `fDpcScheduled`
before it queues the timer, and `DoDPC`, which returns early unless the flag is
set, goes on to call `fProc`. A timer allocated with a positive delay is never
delivered. `TimerHook` clears `fTimerScheduled` and queues the timer, but leaves
`fDpcScheduled` as it is, so `DoDPC` finds it false and returns.
-/

import NvidiaHaiku.TimerQueue.System

namespace NvidiaHaiku.TimerQueue

open NvidiaHaiku.Math TransitionSystem

namespace Slot

variable {x y : Slot} {a : TimerAction} {v : Address}

/-- The calls a timer owes when `fProc` is to be given `v`. -/
def due (x : Slot) (v : Address) : List (Proc × Address × BitVec 32) :=
  [(x.timer.fProc, v, x.timer.fDataU32)]

/-- The expected state of a timer with delay zero, stage by stage of `DoDPC`,
when the data pointer, or the `ptr` of the ref_ptr, is `v`. -/
def Stage (v : Address) (x : Slot) : Prop :=
  match x.dpc with
  | .idle =>
    x.calls = [] ∧ x.decRefs = 0 ∧ x.deletions = 0 ∧ x.life ≠ .deleted ∧
      x.timer.fDpcScheduled = x.queued ∧ (x.queued = true → x.life = .scheduled)
  | .entered =>
    x.calls = [] ∧ x.decRefs = 0 ∧ x.deletions = 0 ∧ x.life = .scheduled ∧
      x.queued = false ∧ x.timer.fDpcScheduled = true
  | .decRef =>
    x.timer.fIsRefPtr = true ∧ x.calls = [] ∧ x.decRefs = 0 ∧ x.deletions = 0 ∧
      x.life = .scheduled ∧ x.queued = false
  | .put ptr =>
    x.timer.fIsRefPtr = true ∧ ptr = v ∧ x.calls = [] ∧ x.decRefs = 0 ∧ x.deletions = 0 ∧
      x.life = .scheduled ∧ x.queued = false
  | .dropping =>
    x.timer.fIsRefPtr = true ∧ v = 0 ∧ x.calls = [] ∧ x.decRefs = 1 ∧ x.deletions = 0 ∧
      x.life = .scheduled ∧ x.queued = false
  | .loaded ptr | .locked ptr =>
    ptr = v ∧ (x.timer.fIsRefPtr = true → v ≠ 0) ∧ x.calls = [] ∧
      x.decRefs = x.timer.fIsRefPtr.toNat ∧ x.deletions = 0 ∧ x.life = .scheduled ∧
      x.queued = false
  | .calling | .called =>
    (x.timer.fIsRefPtr = true → v ≠ 0) ∧ x.calls = x.due v ∧
      x.decRefs = x.timer.fIsRefPtr.toNat ∧ x.deletions = 0 ∧ x.life = .scheduled ∧
      x.queued = false
  | .returned =>
    x.calls = (if x.timer.fIsRefPtr = true ∧ v = 0 then [] else x.due v) ∧
      x.decRefs = x.timer.fIsRefPtr.toNat ∧ x.deletions = x.timer.fIsRefPtr.toNat ∧
      x.life = (if x.timer.fIsRefPtr then .deleted else .scheduled) ∧ x.queued = false

/-- What holds of a timer with delay zero that is not freed. -/
structure Immediate (v : Address) (x : Slot) : Prop where
  free : x.free = .idle
  armed : x.armed = false
  hook : x.hook = .idle
  stage : Stage v x

/-- What holds of a timer with a positive delay that is not freed. -/
structure Delayed (x : Slot) : Prop where
  free : x.free = .idle
  flag : x.timer.fDpcScheduled = false
  calls : x.calls = []
  dpc : x.dpc = .idle ∨ x.dpc = .entered ∨ x.dpc = .returned

theorem Moves.delayed (moved : Moves x a y) (delayed : x.Delayed) (usec : x.usec ≠ 0)
    (kept : a ≠ .freeLock) : y.Delayed := by
  obtain ⟨free, flag, calls, dpc⟩ := delayed
  -- nothing sets `fDpcScheduled`, so `DoDPC` never gets past its first test
  cases moved with
  | construct | scheduleTimer | expire | hookAdd | hookSkip => exact ⟨free, flag, calls, dpc⟩
  | scheduleDpc _ immediate => exact absurd immediate usec
  | dequeue => exact ⟨free, flag, calls, Or.inr (Or.inl rfl)⟩
  | dpcSkip => exact ⟨free, flag, calls, Or.inr (Or.inr rfl)⟩
  | dpcRef _ _ set | dpcPlain _ _ set => simp [flag] at set
  | dpcReadPtr _ at_ | dpcPutNull at_ | dpcPut at_ | dpcDrop at_ | dpcLock at_ | dpcCall at_
  | dpcReturn at_ | dpcDelete at_ | dpcFinish at_ => simp [at_] at dpc
  | freeTimer | freeDpc | freeNothing => exact absurd rfl kept
  | cancelTimerDpc at_ | cancelTimer at_ | cancelDpc at_ | freeDelete at_ => simp [free] at at_

theorem Moves.immediate (moved : Moves x a y) (immediate : x.Immediate v) (usec : x.usec = 0)
    (early : x.life = .absent ∨ x.life = .constructed → x.Quiet)
    (kept : a ≠ .freeLock)
    (reads : x.timer.fIsRefPtr = true → ∀ ptr, a = .dpcReadPtr ptr → ptr = v)
    (plain : x.timer.fIsRefPtr = false → x.timer.fDataPtr = v) : y.Immediate v := by
  obtain ⟨free, armed, hook, stage⟩ := immediate
  -- each step of `DoDPC` takes one stage to the next, and nobody else has a step
  cases moved with
  | construct absent =>
    refine ⟨free, armed, hook, ?_⟩
    simp_all [Stage, (early (Or.inl absent)).dpc, (early (Or.inl absent)).queued]
  | scheduleDpc constructed =>
    refine ⟨free, armed, hook, ?_⟩
    simp_all [Stage, (early (Or.inr constructed)).dpc]
  | scheduleTimer _ delayed => exact absurd usec delayed
  | expire set => simp [armed] at set
  | hookAdd entered | hookSkip entered => simp [hook] at entered
  | dequeue queued rest =>
    refine ⟨free, armed, hook, ?_⟩
    cases at_ : x.dpc <;> simp_all [Stage, DpcPc.running]
  | dpcSkip entered _ flag => simp_all [Stage]
  | dpcRef entered _ _ ref | dpcPlain entered _ _ ref =>
    refine ⟨free, armed, hook, ?_⟩
    simp_all [Stage, touch]
  | dpcReadPtr ptr at_ =>
    refine ⟨free, armed, hook, ?_⟩
    simp_all [Stage]
  | dpcPutNull at_ | dpcPut at_ | dpcLock at_ | dpcReturn at_ =>
    refine ⟨free, armed, hook, ?_⟩
    simp_all [Stage, due]
  | dpcCall at_ | dpcFinish at_ =>
    refine ⟨free, armed, hook, ?_⟩
    simp_all [Stage, due, touch]
  | dpcDrop at_ | dpcDelete at_ =>
    refine ⟨free, armed, hook, ?_⟩
    simp_all [Stage, due, touch, delete]
  | freeTimer | freeDpc | freeNothing => exact absurd rfl kept
  | cancelTimerDpc at_ | cancelTimer at_ | cancelDpc at_ | freeDelete at_ => simp [free] at at_

end Slot

/-- The data pointer `fProc` is to be given, when the ref_ptr holds `ptr`. -/
def Args.target (args : Args) (ptr : Address) : Address :=
  if args.isRefPtr then ptr else args.dataPtr

/-- The hook of a delayed timer has run, and the DPC queue has run the timer. -/
def Complete (x : Slot) : Prop := (x.usec ≠ 0 → x.hook = .returned) ∧ x.dpc = .returned

/-- `fProc` has been called exactly once, with the given data. A ref-ptr timer has
put its reference and has been deleted. -/
structure Delivered (args : Args) (ptr : Address) (x : Slot) : Prop where
  calls : x.calls = [(args.proc, args.target ptr, args.dataU32)]
  ref : args.isRefPtr = true → x.decRefs = 1 ∧ x.life = .deleted ∧ x.deletions = 1

section Lifetime

variable {args : Args} {x : Slot} {past : List (Event Slot TimerAction)} {ptr : Address}

theorem usec_of_args (made : x.args = args) : x.usec = args.usec := congrArg Args.usec made

theorem delayed_of_run (run : (lifetime args).Run past x) (usec : args.usec ≠ 0)
    (kept : Every (fun e => e.action ≠ .freeLock) past) : x.Delayed := by
  refine (run.invariant_of_every (P := fun x => x.args = args ∧ x.Delayed) kept
    (fun _ initial => ?_) ?_).2
  · rw [show _ = Slot.new args from initial]
    exact ⟨rfl, rfl, rfl, rfl, Or.inl rfl⟩
  · rintro x a y ⟨made, delayed⟩ kept taken
    have moved := Slot.moves_of_step taken
    exact ⟨moved.args.trans made, moved.delayed delayed (usec_of_args made ▸ usec) kept⟩

theorem immediate_of_run (run : (lifetime args).Run past x) (usec : args.usec = 0)
    (kept : Every (fun e => e.action ≠ .freeLock) past)
    (reads : Every (fun e => args.isRefPtr = true → ∀ p, e.action = .dpcReadPtr p → p = ptr) past) :
    x.Immediate (args.target ptr) := by
  refine (run.invariant_of_every
    (P := fun x => (lifetime args).Reachable x ∧ x.Immediate (args.target ptr))
    (kept.and reads) (fun _ initial => ⟨.start initial, ?_⟩) ?_).2
  · rw [show _ = Slot.new args from initial]
    exact ⟨rfl, rfl, rfl, by simp [Slot.Stage, Slot.new, Timer.new]⟩
  · rintro x a y ⟨reached, immediate⟩ ⟨kept, reads⟩ taken
    have made := args_of_reachable reached
    refine ⟨reached.step taken, (Slot.moves_of_step taken).immediate immediate
      ((usec_of_args made).trans usec)
      (quiet_of_reachable reached) kept (fun ref p read => ?_) fun plain => ?_⟩
    · rw [reads (made ▸ ref) p read]
      simp [← made, Args.target, ref]
    · simp [← made, Args.target, plain]

/-- Which timers are delivered, among those that are not freed: the ones with
delay zero whose ref_ptr, if they have one, was made for a target. -/
theorem delivered_iff_of_run (run : (lifetime args).Run past x)
    (kept : Every (fun e => e.action ≠ .freeLock) past)
    (reads : Every (fun e => args.isRefPtr = true → ∀ p, e.action = .dpcReadPtr p → p = ptr) past)
    (complete : Complete x) :
    Delivered args ptr x ↔ args.usec = 0 ∧ (args.isRefPtr = true → ptr ≠ 0) := by
  obtain rfl := args_of_reachable run.reachable
  by_cases usec : x.usec = 0
  · -- the stage of a returned `DoDPC` tells the calls, the reference and the deletion
    have stage := (immediate_of_run run usec kept reads).stage
    simp only [Slot.Stage, complete.2] at stage
    obtain ⟨calls, decRefs, deletions, life, -⟩ := stage
    simp only [Slot.args_usec, usec, true_and]
    constructor
    · intro delivered ref null
      rw [Slot.args_isRefPtr] at ref
      simpa [calls, ref, null, Args.target] using delivered.calls
    · intro set
      refine ⟨calls.trans (if_neg ?_), fun ref => ?_⟩
      · rintro ⟨ref, null⟩
        exact set ref (by simpa [Args.target, ref] using null)
      · simp_all
  · -- no call has been made at all
    have delayed := delayed_of_run run usec kept
    simp only [Slot.args_usec, usec, false_and, iff_false]
    intro delivered
    simpa [delayed.calls] using delivered.calls

end Lifetime

section Queue

variable {ι : Type*} [DecidableEq ι] {args : ι → Args} {s s' : State ι} {t : ι}
  {past : List (Event (State ι) (Action ι))}

/-- What `DoDPC` of a timer reads from its ref_ptr is what the ref_ptr still holds,
as long as the owner has not released it. -/
theorem reads_of_run (run : (queue args).Run past s) (t : ι) (ref : (args t).isRefPtr = true)
    (owned : Every (fun e => e.action ≠ .clearRefPtr (args t).dataPtr) past) :
    Every (fun e => ∀ ptr, e.action = .timer t (.dpcReadPtr ptr) →
      (s.refs (args t).dataPtr).created = true ∧ (s.refs (args t).dataPtr).ptr = ptr) past := by
  induction run with
  | start => exact every_nil
  | @step past s s' b run taken ih =>
    obtain ⟨kept, owned⟩ := every_cons.mp owned
    have same : (s.refs (args t).dataPtr).created = true →
        (s'.refs (args t).dataPtr).ptr = (s.refs (args t).dataPtr).ptr := by
      intro created
      rcases ptr_of_step taken (args t).dataPtr with ⟨clears, -⟩ | ⟨-, -, fresh, -⟩ | ⟨same, -⟩
      · exact absurd clears kept
      · simp [created] at fresh
      · exact same
    refine every_cons.mpr ⟨?_, (ih owned).mono fun e held ptr read => ?_⟩
    · -- the timer that reads exists, and with it the ref_ptr
      rintro ptr rfl
      obtain ⟨reading, read⟩ := ptr_of_read run.reachable taken
      have present : (s.timers t).life ≠ .absent := fun absent => by
        have quiet := quiet_of_reachable (reachable_timer run.reachable t) (Or.inl absent)
        simp [quiet.dpc] at reading
      have created := created_of_reachable run.reachable t ref present
      exact ⟨created_of_step taken created, (same created).trans read⟩
    · obtain ⟨created, reads⟩ := held ptr read
      exact ⟨created_of_step taken created, (same created).trans reads⟩

/-- Delivery over whole runs. When timer `t` is not freed and the owner has not
cleared its ref_ptr, then, once the hook and `DoDPC` have run, the timer has been
delivered exactly if it was allocated with delay zero and the ref_ptr was made
for a target. -/
theorem delivered_iff (run : (queue args).Run past s) (t : ι)
    (kept : Every (fun e => e.action ≠ .timer t .freeLock) past)
    (owned : (args t).isRefPtr = true →
      Every (fun e => e.action ≠ .clearRefPtr (args t).dataPtr) past)
    (complete : Complete (s.timers t)) :
    Delivered (args t) (s.refs (args t).dataPtr).ptr (s.timers t) ↔
      (args t).usec = 0 ∧
        ((args t).isRefPtr = true → (s.refs (args t).dataPtr).ptr ≠ 0) := by
  refine delivered_iff_of_run (run_timerHistory run t) ?_ ?_ complete
  · refine every_history.mpr (kept.mono fun e kept b labelled freed => kept ?_)
    exact freed ▸ Action.ofTimer_eq_some.mp labelled
  · refine every_history.mpr ?_
    intro e member b labelled ref ptr read
    obtain ⟨-, same⟩ := reads_of_run run t ref (owned ref) e member ptr
      (read ▸ Action.ofTimer_eq_some.mp labelled)
    exact same.symm

end Queue

/-- The ref_ptr 7 is made for the target 20, and a ref-ptr timer with delay zero is
allocated, queued and run. -/
theorem delivered_immediate : ∃ past s,
    (queue fun _ : Unit => ⟨1, 7, 3, 0, true⟩).Run past s ∧
      Delivered ⟨1, 7, 3, 0, true⟩ 20 (s.timers ()) := by
  have run := (Run.start (T := queue fun _ : Unit => ⟨1, 7, 3, 0, true⟩) rfl).play
    (.allocRefPtr 7 20 :: [.construct, .schedule, .dequeue, .dpcCheck, .dpcReadPtr 20,
      .dpcPut, .dpcLock, .dpcCall, .dpcReturn, .dpcFinish].map (.timer ())) rfl
  exact ⟨_, _, run, (delivered_iff run () (by decide) (fun _ => by decide)
    ⟨by decide, by decide⟩).mpr ⟨rfl, by decide⟩⟩

/-- A timer with a delay of 10 is armed, expires, and is queued and run, but `fProc`
is not called. -/
theorem undelivered_delayed : ∃ past s,
    (queue fun _ : Unit => ⟨1, 20, 3, 10, false⟩).Run past s ∧
      Every (fun e => e.action ≠ .timer () .freeLock) past ∧ Complete (s.timers ()) ∧
      ¬ Delivered ⟨1, 20, 3, 10, false⟩ 0 (s.timers ()) := by
  have run := (Run.start (T := queue fun _ : Unit => ⟨1, 20, 3, 10, false⟩) rfl).play
    ([.construct, .schedule, .expire, .hook, .dequeue, .dpcCheck].map (.timer ())) rfl
  exact ⟨_, _, run, by decide, ⟨by decide, by decide⟩,
    fun delivered => absurd delivered.calls (by decide)⟩

end NvidiaHaiku.TimerQueue

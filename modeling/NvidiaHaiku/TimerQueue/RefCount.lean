/-
# The reference count of a ref_ptr

A ref_ptr is counted from four places: its owner, the constructor of a ref-ptr
timer, `DoDPC` of that timer, and the other users. Each party that holds a
reference is counted once, and the count of the ref_ptr is the number of these
parties. So the memory is freed by whichever party puts last, and nobody who
still holds a reference finds it freed.

The count is an `int32`, which wraps. The results are for runs in which fewer
than `2 ^ 31` references are held at once.
-/

import NvidiaHaiku.Math.Counting
import NvidiaHaiku.TimerQueue.System

namespace NvidiaHaiku.TimerQueue

open NvidiaHaiku.Math TransitionSystem

/-- `DoDPC` has not put the reference. -/
def DpcPc.owing : DpcPc → Bool
  | idle | entered | decRef | put _ => true
  | dropping | loaded _ | locked _ | calling | called | returned => false

namespace Slot

variable {x y : Slot} {a : TimerAction}

/-- The timer has been constructed, and its `DoDPC` has not put its reference. -/
def Holds (x : Slot) : Prop := x.life ≠ .absent ∧ x.decRefs = 0

/-- The timer goes through the kernel timer, the hook, the DPC queue and `DoDPC`
at most once. -/
structure Once (x : Slot) : Prop where
  armed : x.armed = true → x.hook = .idle ∧ x.queued = false ∧ x.dpc = .idle
  entered : x.hook = .entered → x.armed = false ∧ x.queued = false ∧ x.dpc = .idle
  queued : x.queued = true → x.armed = false ∧ x.hook ≠ .entered ∧ x.dpc = .idle
  owing : x.dpc.owing = true → x.decRefs = 0
  decRefs : x.decRefs ≤ 1
  /-- Only a ref-ptr timer gets to `nvkms_dec_ref`. -/
  reads : x.dpc.holdsSpinlock = true → x.timer.fIsRefPtr = true

/-- `DoDPC` starts once the kernel timer, the hook and the queue are done. -/
theorem Once.past (once : x.Once) (started : x.dpc ≠ .idle) :
    x.armed = false ∧ x.hook ≠ .entered ∧ x.queued = false := by
  refine ⟨Bool.eq_false_iff.mpr fun armed => ?_, fun entered => ?_,
    Bool.eq_false_iff.mpr fun queued => ?_⟩
  · exact started (once.armed armed).2.2
  · exact started (once.entered entered).2.2
  · exact started (once.queued queued).2.2

/-- `DoDPC` takes a step that does not put the reference. -/
theorem Once.proceed (once : x.Once) (started : x.dpc ≠ .idle) {dpc : DpcPc}
    (owing : dpc.owing = true → x.dpc.owing = true)
    (same : y.armed = x.armed ∧ y.hook = x.hook ∧ y.queued = x.queued ∧ y.decRefs = x.decRefs)
    (moved : y.dpc = dpc) (reads : dpc.holdsSpinlock = true → y.timer.fIsRefPtr = true) :
    y.Once := by
  obtain ⟨armed, hook, queued⟩ := once.past started
  obtain ⟨armed_eq, hook_eq, queued_eq, decRefs_eq⟩ := same
  subst moved
  refine ⟨fun set => ?_, fun set => ?_, fun set => ?_, fun early => ?_, ?_, reads⟩
  · simp [armed_eq, armed] at set
  · exact absurd (hook_eq ▸ set) hook
  · simp [queued_eq, queued] at set
  · exact decRefs_eq.trans (once.owing (owing early))
  · exact decRefs_eq.le.trans once.decRefs

/-- The steps of `nvkms_dec_ref` are taken in the critical section of `DoDPC`. -/
theorem Moves.holdsSpinlock (moved : Moves x a y)
    (inDecRef : a = .dpcPut ∨ ∃ ptr, a = .dpcReadPtr ptr) : x.dpc.holdsSpinlock = true := by
  cases moved with
  | dpcReadPtr _ at_ | dpcPutNull at_ | dpcPut at_ => simp [at_, DpcPc.holdsSpinlock]
  | _ => simp at inDecRef

/-- A timer is constructed before `DoDPC` runs. -/
theorem present_of_running (early : x.life = .absent ∨ x.life = .constructed → x.Quiet)
    (started : x.dpc ≠ .idle) : x.life ≠ .absent :=
  fun absent => started (early (Or.inl absent)).dpc

/-- Which steps take and put the reference of a timer. -/
theorem Moves.holds (moved : Moves x a y) (once : x.Once)
    (early : x.life = .absent ∨ x.life = .constructed → x.Quiet) :
    a = .construct ∧ ¬ x.Holds ∧ y.Holds ∨ a = .dpcPut ∧ x.Holds ∧ ¬ y.Holds ∨
      a ≠ .construct ∧ a ≠ .dpcPut ∧ (y.Holds ↔ x.Holds) := by
  cases moved with
  | construct absent =>
    -- a new timer owes its reference until `DoDPC` puts it
    have waiting : x.dpc.owing = true := by simp [(early (Or.inl absent)).dpc, DpcPc.owing]
    exact Or.inl ⟨rfl, fun held => held.1 absent, by simp, once.owing waiting⟩
  | dpcPutNull at_ | dpcPut at_ =>
    have present := present_of_running early (by simp [at_])
    have owed := once.owing (by simp [at_, DpcPc.owing])
    exact Or.inr (Or.inl ⟨rfl, ⟨present, owed⟩, by simp [Holds]⟩)
  | scheduleDpc constructed | scheduleTimer constructed =>
    exact Or.inr (Or.inr ⟨by simp, by simp, by simp [Holds, constructed]⟩)
  | dpcDrop at_ | dpcDelete at_ =>
    have present := present_of_running early (by simp [at_])
    exact Or.inr (Or.inr ⟨by simp, by simp, by simp [Holds, delete, touch, present]⟩)
  | freeDelete unlocked =>
    have present : x.life ≠ .absent := by
      intro absent
      simp [(early (Or.inl absent)).free] at unlocked
    exact Or.inr (Or.inr ⟨by simp, by simp, by simp [Holds, delete, touch, present]⟩)
  | expire | hookAdd | hookSkip | dequeue | dpcSkip | dpcRef | dpcPlain | dpcReadPtr | dpcLock
  | dpcCall | dpcReturn | dpcFinish | freeTimer | freeDpc | freeNothing | cancelTimerDpc
  | cancelTimer | cancelDpc =>
    exact Or.inr (Or.inr ⟨by simp, by simp, Iff.rfl⟩)

theorem Moves.once (moved : Moves x a y) (once : x.Once)
    (early : x.life = .absent ∨ x.life = .constructed → x.Quiet) : y.Once := by
  cases moved with
  | construct =>
    obtain ⟨armed, entered, queued, owing, decRefs, reads⟩ := once
    exact ⟨armed, entered, queued, owing, decRefs, reads⟩
  | scheduleDpc constructed | scheduleTimer constructed =>
    obtain ⟨armed, hook, queued, dpc, -, -, -⟩ := early (Or.inr constructed)
    exact ⟨by simp [armed, hook, queued, dpc], by simp [hook], by simp [armed, hook, queued, dpc],
      once.owing, once.decRefs, once.reads⟩
  | expire set =>
    obtain ⟨-, queued, dpc⟩ := once.armed set
    exact ⟨by simp, fun _ => ⟨rfl, queued, dpc⟩, by simp [queued], once.owing, once.decRefs,
      once.reads⟩
  | hookAdd entered =>
    obtain ⟨armed, -, dpc⟩ := once.entered entered
    exact ⟨by simp [armed, touch], by simp, fun _ => ⟨armed, by simp, dpc⟩, once.owing,
      once.decRefs, once.reads⟩
  | hookSkip entered =>
    obtain ⟨armed, queued, dpc⟩ := once.entered entered
    exact ⟨by simp [armed, touch], by simp, by simp [queued, touch], once.owing, once.decRefs,
      once.reads⟩
  | dequeue queued =>
    obtain ⟨armed, hook, dpc⟩ := once.queued queued
    have waiting : x.dpc.owing = true := by simp [dpc, DpcPc.owing]
    exact ⟨by simp [armed], fun entered => absurd entered hook, by simp,
      fun _ => once.owing waiting, once.decRefs, by simp [DpcPc.holdsSpinlock]⟩
  | dpcSkip at_ =>
    exact once.proceed (by simp [at_]) (by simp [at_, DpcPc.owing]) ⟨rfl, rfl, rfl, rfl⟩ rfl
      (by simp [DpcPc.holdsSpinlock])
  | dpcRef at_ _ _ ref =>
    exact once.proceed (by simp [at_]) (by simp [at_, DpcPc.owing]) ⟨rfl, rfl, rfl, rfl⟩ rfl
      fun _ => ref
  | dpcPlain at_ =>
    exact once.proceed (by simp [at_]) (by simp [at_, DpcPc.owing]) ⟨rfl, rfl, rfl, rfl⟩ rfl
      (by simp [DpcPc.holdsSpinlock])
  | dpcReadPtr ptr at_ =>
    exact once.proceed (by simp [at_]) (by simp [at_, DpcPc.owing]) ⟨rfl, rfl, rfl, rfl⟩ rfl
      fun _ => once.reads (by simp [at_, DpcPc.holdsSpinlock])
  | dpcPutNull at_ | dpcPut at_ =>
    -- the one step that puts the reference, which `DoDPC` still owes
    obtain ⟨armed, hook, queued⟩ := once.past (by simp [at_])
    have owed := once.owing (by simp [at_, DpcPc.owing])
    exact ⟨by simp [armed], fun entered => absurd entered hook, by simp [queued],
      by simp [DpcPc.owing], by simp [owed], by simp [DpcPc.holdsSpinlock]⟩
  | dpcDrop at_ | dpcLock at_ | dpcCall at_ | dpcReturn at_ | dpcDelete at_ | dpcFinish at_ =>
    exact once.proceed (by simp [at_]) (by simp [DpcPc.owing]) ⟨rfl, rfl, rfl, rfl⟩ rfl
      (by simp [DpcPc.holdsSpinlock])
  | freeTimer | freeDpc | freeNothing | freeDelete =>
    obtain ⟨armed, entered, queued, owing, decRefs, reads⟩ := once
    exact ⟨armed, entered, queued, owing, decRefs, reads⟩
  | cancelTimerDpc | cancelTimer =>
    exact ⟨by simp, fun set => ⟨rfl, (once.entered set).2⟩,
      fun set => ⟨rfl, (once.queued set).2⟩, once.owing, once.decRefs, once.reads⟩
  | cancelDpc =>
    exact ⟨fun set => ⟨(once.armed set).1, rfl, (once.armed set).2.2⟩,
      fun set => ⟨(once.entered set).1, rfl, (once.entered set).2.2⟩, by simp,
      once.owing, once.decRefs, once.reads⟩

end Slot

theorem once_of_reachable {args : Args} {x : Slot} (reached : (lifetime args).Reachable x) :
    x.Once := by
  refine (reached.invariant (P := fun x => (lifetime args).Reachable x ∧ x.Once)
    (fun _ initial => ⟨.start initial, ?_⟩) ?_).2
  · rw [show _ = Slot.new args from initial]
    exact ⟨nofun, nofun, nofun, fun _ => rfl, Nat.zero_le 1, nofun⟩
  · intro x a y held taken
    have moved := Slot.moves_of_step taken
    exact ⟨held.1.step taken, moved.once held.2 (quiet_of_reachable held.1)⟩

namespace RefPtr

variable {r : RefPtr} {n : ℕ}

/-- The ref_ptr is in order, with `n` references to it. -/
structure Counts (r : RefPtr) (n : ℕ) : Prop where
  refcount : r.refcount.toNat = n
  /-- The memory has been freed once if there is no reference left. -/
  frees : r.frees = if n = 0 then 1 else 0
  stale : r.stale = false

theorem Counts.frees_eq_zero (counts : r.Counts n) : r.frees = 0 ↔ 0 < n := by
  rw [counts.frees]
  split <;> omega

/-- A party that holds a reference may access the ref_ptr. -/
theorem Counts.touch (counts : r.Counts n) (held : 0 < n) : r.touch.Counts n := by
  refine ⟨counts.refcount, counts.frees, ?_⟩
  simp [RefPtr.touch, counts.stale, counts.frees_eq_zero.mpr held]

theorem Counts.get (counts : r.Counts n) (held : 0 < n) (few : n + 1 < 2 ^ 31) :
    r.get.Counts (n + 1) := by
  have total := counts.refcount
  refine ⟨?_, ?_, (counts.touch held).stale⟩
  · simp only [RefPtr.get]
    bv_omega
  · simpa [RefPtr.get, RefPtr.touch] using counts.frees_eq_zero.mpr held

/-- The put that takes the last reference frees the memory. -/
theorem Counts.put (counts : r.Counts (n + 1)) : r.put.Counts n := by
  have total := counts.refcount
  refine ⟨?_, ?_, (counts.touch n.succ_pos).stale⟩
  · simp only [RefPtr.put]
    bv_omega
  · have last : r.refcount = 1 ↔ n = 0 := by
      constructor
      · intro one
        simpa [one] using total.symm
      · intro zero
        exact BitVec.eq_of_toNat_eq (by simpa [zero] using total)
    simp only [RefPtr.put, last, counts.frees_eq_zero.mpr n.succ_pos, zero_add]

end RefPtr

variable {ι : Type*} {args : ι → Args} {s s' : State ι} {r : Address}

/-- The ref-ptr timers created for `r` whose `DoDPC` has not put their reference. -/
def holding (args : ι → Args) (s : State ι) (r : Address) : Set ι :=
  holders (fun t x => (args t).isRefPtr = true ∧ (args t).dataPtr = r ∧ x.Holds) s.timers

/-- The references to `r` that are held: by the owner, by timers and by other users. -/
noncomputable def references (args : ι → Args) (s : State ι) (r : Address) : ℕ :=
  (if (s.refs r).released then 0 else 1) + (holding args s r).ncard + (s.refs r).users

/-- The count of `r` is the number of references to it. -/
structure Counted (args : ι → Args) (s : State ι) (r : Address) : Prop where
  finite : (holding args s r).Finite
  counts : (s.refs r).created = true → (s.refs r).Counts (references args s r)
  /-- Nothing happens to a ref_ptr before it is made. -/
  fresh : (s.refs r).created = false → s.refs r = {} ∧ holding args s r = ∅
  cleared : (s.refs r).released = true → (s.refs r).cleared = true

/-- A step that takes no part in `r` keeps it counted. -/
theorem Counted.of_eq (counted : Counted args s r) (refs : s'.refs r = s.refs r)
    (timers : holding args s' r = holding args s r) : Counted args s' r := by
  obtain ⟨finite, counts, fresh, cleared⟩ := counted
  have same : references args s' r = references args s r := by rw [references, refs, timers]; rfl
  exact ⟨timers ▸ finite, by rwa [refs, same], by rwa [refs, timers], by rwa [refs]⟩

theorem Counted.of_made (finite : (holding args s r).Finite) (made : (s.refs r).created = true)
    (counts : (s.refs r).Counts (references args s r))
    (cleared : (s.refs r).released = true → (s.refs r).cleared = true) : Counted args s r :=
  ⟨finite, fun _ => counts, fun fresh => by simp [made] at fresh, cleared⟩

theorem Counted.of_setRef_ne {cell : RefPtr} {r' : Address} (counted : Counted args s r)
    (other : r ≠ r') : Counted args (s.setRef r' cell) r :=
  counted.of_eq (by simp [State.setRef, other]) rfl

/-- A step of a party other than the timers, on a ref_ptr that it leaves made. -/
theorem Counted.of_setRef {cell : RefPtr} (counted : Counted args s r) (made : cell.created = true)
    (counts : cell.Counts
      ((if cell.released then 0 else 1) + (holding args s r).ncard + cell.users))
    (cleared : cell.released = true → cell.cleared = true) :
    Counted args (s.setRef r cell) r := by
  have now : (s.setRef r cell).refs r = cell := by simp [State.setRef]
  refine .of_made counted.finite (by rwa [now]) ?_ (by rwa [now])
  rw [references, now]
  exact counts

/-- A ref_ptr to which something has happened has been made. -/
theorem Counted.made (counted : Counted args s r) (touched : s.refs r ≠ {}) :
    (s.refs r).created = true := by
  by_contra fresh
  exact touched (counted.fresh (Bool.eq_false_iff.mpr fresh)).1

/-- `nvkms_alloc_ref_ptr` takes the reference of the owner. -/
theorem Counted.alloc (counted : Counted args s r) (fresh : (s.refs r).created = false)
    (ptr : Address) :
    Counted args (s.setRef r { s.refs r with refcount := 1, ptr := ptr, created := true }) r := by
  obtain ⟨cell, nobody⟩ := counted.fresh fresh
  apply counted.of_setRef
  · rfl
  · exact ⟨by simp [cell, nobody], by simp [cell], by simp [cell]⟩
  · simp [cell]

/-- The owner, who has not let go, still holds its reference when it clears `ptr`. -/
theorem Counted.clear (counted : Counted args s r) (made : (s.refs r).created = true)
    (uncleared : (s.refs r).cleared = false) :
    Counted args (s.setRef r { (s.refs r).touch with ptr := 0, cleared := true }) r := by
  have owned : (s.refs r).released = false := by
    apply Bool.eq_false_iff.mpr
    intro released
    simp [counted.cleared released] at uncleared
  have held : 0 < references args s r := by
    simp only [references, owned, Bool.false_eq_true, if_false]
    omega
  have counts := (counted.counts made).touch held
  apply counted.of_setRef
  · exact made
  · exact ⟨counts.refcount, counts.frees, counts.stale⟩
  · simp

/-- The owner puts its reference. -/
theorem Counted.put (counted : Counted args s r) (cleared : (s.refs r).cleared = true)
    (owned : (s.refs r).released = false) :
    Counted args (s.setRef r { (s.refs r).put with released := true }) r := by
  have made := counted.made fun untouched => by simp [untouched] at cleared
  have total : references args s r = (holding args s r).ncard + (s.refs r).users + 1 := by
    simp only [references, owned, Bool.false_eq_true, if_false]
    omega
  have counts := (total ▸ counted.counts made).put
  apply counted.of_setRef
  · exact made
  · simp only [if_true, zero_add]
    exact ⟨counts.refcount, counts.frees, counts.stale⟩
  · exact fun _ => cleared

theorem Counted.incRef (counted : Counted args s r) (live : (s.refs r).live = true)
    (few : references args (s.setRef r
      { (s.refs r).get with users := (s.refs r).users + 1 }) r < 2 ^ 31) :
    Counted args (s.setRef r { (s.refs r).get with users := (s.refs r).users + 1 }) r := by
  simp only [RefPtr.live, Bool.and_eq_true, decide_eq_true_eq] at live
  have counts := counted.counts live.1
  have total : references args s r + 1 < 2 ^ 31 := by
    simpa [references, State.setRef, holding, RefPtr.get, RefPtr.touch, add_assoc] using few
  have counts := counts.get (counts.frees_eq_zero.mp live.2) total
  apply counted.of_setRef
  · exact live.1
  · exact ⟨counts.refcount, counts.frees, counts.stale⟩
  · exact counted.cleared

theorem Counted.decRef (counted : Counted args s r) (users : 0 < (s.refs r).users) :
    Counted args (s.setRef r { (s.refs r).put with users := (s.refs r).users - 1 }) r := by
  have made := counted.made fun untouched => by simp [untouched] at users
  have total : references args s r = (if (s.refs r).released then 0 else 1) +
      (holding args s r).ncard + ((s.refs r).users - 1) + 1 := by
    simp only [references]
    omega
  have counts := (total ▸ counted.counts made).put
  apply counted.of_setRef
  · exact made
  · exact ⟨counts.refcount, counts.frees, counts.stale⟩
  · exact counted.cleared

variable [DecidableEq ι] {t : ι} {a : TimerAction} {past : List (Event (State ι) (Action ι))}

/-- The timers that hold a reference to `r`, after a step of one timer. -/
theorem holding_of_timers {x : Slot} (timers : s'.timers = Function.update s.timers t x) :
    holding args s' r = holders (fun t x => (args t).isRefPtr = true ∧ (args t).dataPtr = r ∧
      x.Holds) (Function.update s.timers t x) := by
  rw [holding, timers]

/-- A step of a timer that does not belong to `r`. -/
theorem Counted.of_other {x : Slot} (counted : Counted args s r)
    (timers : s'.timers = Function.update s.timers t x)
    (other : ¬ ((args t).isRefPtr = true ∧ (args t).dataPtr = r)) (refs : s'.refs r = s.refs r) :
    Counted args s' r := by
  refine counted.of_eq refs ((holding_of_timers timers).trans (holders_update_of_iff ?_))
  constructor
  · exact fun held => absurd ⟨held.1, held.2.1⟩ other
  · exact fun held => absurd ⟨held.1, held.2.1⟩ other

/-- What a step of a timer does to the ref_ptr of the timer. -/
theorem refs_of_timerStep (reached : (queue args).Reachable s)
    (taken : s.step (.timer t a) = some s') (ref : (args t).isRefPtr = true) :
    a = .construct ∧ (s.refs (args t).dataPtr).live = true ∧
        s'.refs (args t).dataPtr = (s.refs (args t).dataPtr).get ∨
      a = .dpcPut ∧ s'.refs (args t).dataPtr = (s.refs (args t).dataPtr).put ∨
      a ≠ .construct ∧ a ≠ .dpcPut ∧
        (s'.refs (args t).dataPtr = s.refs (args t).dataPtr ∨
          (s.timers t).dpc = .decRef ∧
            s'.refs (args t).dataPtr = (s.refs (args t).dataPtr).touch) := by
  have isRef := (fIsRefPtr_of_reachable (reached.step taken) t).trans ref
  have data := fDataPtr_of_reachable (reached.step taken) t
  obtain ⟨x, moved, effect⟩ := Option.bind_eq_some_iff.mp taken
  obtain rfl := Option.some.inj ((timers_of_timerStep taken).1.symm.trans moved)
  -- only the constructor, the put and the read of `ptr` come to the ref_ptr
  cases a with
  | construct =>
    rw [State.effect, if_pos isRef, data] at effect
    obtain ⟨live, made⟩ := Option.ite_none_right_eq_some.mp effect
    refine Or.inl ⟨rfl, live, ?_⟩
    rw [← Option.some.inj made]
    simp [State.setRef]
  | dpcPut =>
    rw [State.effect, data] at effect
    refine Or.inr (Or.inl ⟨rfl, ?_⟩)
    rw [← Option.some.inj effect]
    simp [State.setRef]
  | dpcReadPtr ptr =>
    rw [State.effect, data] at effect
    obtain ⟨-, made⟩ := Option.ite_none_right_eq_some.mp effect
    refine Or.inr (Or.inr ⟨by simp, by simp, Or.inr ⟨(ptr_of_read reached taken).1, ?_⟩⟩)
    rw [← Option.some.inj made]
    simp [State.setRef]
  | dpcLock =>
    obtain ⟨-, made⟩ := Option.ite_none_right_eq_some.mp effect
    refine Or.inr (Or.inr ⟨by simp, by simp, Or.inl ?_⟩)
    rw [← Option.some.inj made]
  | schedule | expire | hook | dequeue | dpcCheck | dpcDrop | dpcCall | dpcReturn
  | dpcFinish | freeLock | freeCancelTimer | freeCancelDpc | freeDelete =>
    refine Or.inr (Or.inr ⟨by simp, by simp, Or.inl ?_⟩)
    rw [← Option.some.inj effect]

/-- A step of a timer does nothing to the ref_ptrs of other timers. -/
theorem refs_of_timerStep_other (reached : (queue args).Reachable s)
    (taken : s.step (.timer t a) = some s')
    (other : ¬ ((args t).isRefPtr = true ∧ (args t).dataPtr = r)) : s'.refs r = s.refs r := by
  have isRef := fIsRefPtr_of_reachable (reached.step taken) t
  have data := fDataPtr_of_reachable (reached.step taken) t
  have once := once_of_reachable (reachable_timer reached t)
  obtain ⟨own, timers⟩ := timers_of_timerStep taken
  obtain ⟨x, moved, effect⟩ := Option.bind_eq_some_iff.mp taken
  obtain rfl := Option.some.inj (own.symm.trans moved)
  have moves := Slot.moves_of_step own
  -- a timer that gets to `nvkms_dec_ref` has a ref_ptr, which is not `r`
  have distinct (inDecRef : a = .dpcPut ∨ ∃ ptr, a = .dpcReadPtr ptr) : r ≠ (args t).dataPtr := by
    intro same
    refine other ⟨?_, same.symm⟩
    rw [← fIsRefPtr_of_reachable reached t]
    exact once.reads (moves.holdsSpinlock inDecRef)
  cases a with
  | construct =>
    simp only [State.effect, isRef, data] at effect
    split at effect
    · rename_i ref
      have distinct : r ≠ (args t).dataPtr := fun same => other ⟨ref, same.symm⟩
      obtain ⟨-, made⟩ := Option.ite_none_right_eq_some.mp effect
      rw [← Option.some.inj made]
      simp [State.setRef, distinct]
    · rw [← Option.some.inj effect]
  | dpcPut =>
    rw [State.effect, data] at effect
    rw [← Option.some.inj effect]
    simp [State.setRef, distinct (Or.inl rfl)]
  | dpcReadPtr ptr =>
    rw [State.effect, data] at effect
    obtain ⟨-, made⟩ := Option.ite_none_right_eq_some.mp effect
    rw [← Option.some.inj made]
    simp [State.setRef, distinct (Or.inr ⟨ptr, rfl⟩)]
  | dpcLock =>
    obtain ⟨-, made⟩ := Option.ite_none_right_eq_some.mp effect
    rw [← Option.some.inj made]
  | schedule | expire | hook | dequeue | dpcCheck | dpcDrop | dpcCall | dpcReturn
  | dpcFinish | freeLock | freeCancelTimer | freeCancelDpc | freeDelete =>
    rw [← Option.some.inj effect]

/-- The constructor of a timer adds one reference. -/
theorem references_of_gain (finite : (holding args s (args t).dataPtr).Finite)
    (timers : s'.timers = Function.update s.timers t (s'.timers t))
    (ref : (args t).isRefPtr = true)
    (without : ¬ (s.timers t).Holds) (gains : (s'.timers t).Holds)
    (refs : s'.refs (args t).dataPtr = (s.refs (args t).dataPtr).get) :
    references args s' (args t).dataPtr = references args s (args t).dataPtr + 1 := by
  have more := ncard_holders_of_gain finite (fun held => without held.2.2) ⟨ref, rfl, gains⟩
  rw [← holding_of_timers timers] at more
  change _ = (holding args s _).ncard + 1 at more
  simp only [references, refs, RefPtr.get, RefPtr.touch]
  omega

/-- `nvkms_dec_ref` in `DoDPC` takes one reference away. -/
theorem references_of_loss (finite : (holding args s (args t).dataPtr).Finite)
    (timers : s'.timers = Function.update s.timers t (s'.timers t))
    (ref : (args t).isRefPtr = true)
    (held : (s.timers t).Holds) (loses : ¬ (s'.timers t).Holds)
    (refs : s'.refs (args t).dataPtr = (s.refs (args t).dataPtr).put) :
    references args s (args t).dataPtr = references args s' (args t).dataPtr + 1 := by
  have less := ncard_holders_of_loss finite ⟨ref, rfl, held⟩ (fun keeps => loses keeps.2.2)
  rw [← holding_of_timers timers] at less
  change _ = (holding args s _).ncard at less
  simp only [references, refs, RefPtr.put, RefPtr.touch]
  omega

/-- A step of a timer keeps the ref_ptrs counted. -/
theorem counted_of_timerStep (reached : (queue args).Reachable s) (counted : Counted args s r)
    (few : references args s' r < 2 ^ 31) (taken : s.step (.timer t a) = some s') :
    Counted args s' r := by
  obtain ⟨own, timers⟩ := timers_of_timerStep taken
  by_cases mine : (args t).isRefPtr = true ∧ (args t).dataPtr = r
  · obtain ⟨ref, rfl⟩ := mine
    have once := once_of_reachable (reachable_timer reached t)
    have early := quiet_of_reachable (reachable_timer reached t)
    have finite : (holding args s' (args t).dataPtr).Finite := by
      rw [holding_of_timers timers]
      exact finite_holders_update counted.finite
    have some_held (held : (s.timers t).Holds) : 0 < references args s (args t).dataPtr := by
      have := ncard_holders_pos counted.finite ⟨ref, rfl, held⟩
      simp only [references, holding]
      omega
    rcases (Slot.moves_of_step own).holds once early with
      ⟨rfl, without, gains⟩ | ⟨rfl, held, loses⟩ | ⟨construct, put, same⟩
    · -- the constructor is called on a live ref_ptr
      obtain ⟨-, live, refs⟩ | ⟨wrong, -⟩ | ⟨wrong, -⟩ := refs_of_timerStep reached taken ref
      · simp only [RefPtr.live, Bool.and_eq_true, decide_eq_true_eq] at live
        have counts := counted.counts live.1
        have more := references_of_gain counted.finite timers ref without gains refs
        refine .of_made finite (by rw [refs]; exact live.1) ?_ (by rw [refs]; exact counted.cleared)
        rw [refs, more]
        exact counts.get (counts.frees_eq_zero.mp live.2) (more ▸ few)
      · cases wrong
      · exact absurd rfl wrong
    · have made := created_of_reachable reached t ref held.1
      obtain ⟨wrong, -⟩ | ⟨-, refs⟩ | ⟨-, wrong, -⟩ := refs_of_timerStep reached taken ref
      · cases wrong
      · have less := references_of_loss counted.finite timers ref held loses refs
        refine .of_made finite (by rw [refs]; exact made) ?_ (by rw [refs]; exact counted.cleared)
        rw [refs]
        exact (less ▸ counted.counts made).put
      · exact absurd rfl wrong
    · -- the other steps at most read `ptr`, while the timer holds its reference
      have holding : holding args s' (args t).dataPtr = holding args s (args t).dataPtr := by
        rw [holding_of_timers timers]
        exact holders_update_of_iff (by simp only [same])
      obtain ⟨wrong, -⟩ | ⟨wrong, -⟩ | ⟨-, -, refs | ⟨reads, refs⟩⟩ :=
        refs_of_timerStep reached taken ref
      · exact absurd wrong construct
      · exact absurd wrong put
      · exact counted.of_eq refs holding
      · have held : (s.timers t).Holds :=
          ⟨Slot.present_of_running early (by simp [reads]),
            once.owing (by simp [reads, DpcPc.owing])⟩
        have made := created_of_reachable reached t ref held.1
        refine .of_made finite (by rw [refs]; exact made) ?_ (by rw [refs]; exact counted.cleared)
        have same : references args s' (args t).dataPtr = references args s (args t).dataPtr := by
          simp only [references, refs, holding, RefPtr.touch]
        rw [refs, same]
        exact (counted.counts made).touch (some_held held)
  · exact counted.of_other timers mine (refs_of_timerStep_other reached taken mine)

/-- Every step keeps the ref_ptrs counted. -/
theorem counted_of_step {b : Action ι} (reached : (queue args).Reachable s)
    (counted : Counted args s r) (few : references args s' r < 2 ^ 31)
    (taken : s.step b = some s') : Counted args s' r := by
  -- the owner and the other users; a step on another ref_ptr changes nothing
  cases b with
  | timer t a => exact counted_of_timerStep reached counted few taken
  | allocRefPtr r' ptr =>
    obtain ⟨fresh, rfl⟩ := of_guarded taken
    by_cases same : r = r'
    · subst same
      exact counted.alloc (by simpa using fresh) ptr
    · exact counted.of_setRef_ne same
  | clearRefPtr r' =>
    obtain ⟨guard, rfl⟩ := of_guarded taken
    by_cases same : r = r'
    · subst same
      simp only [Bool.and_eq_true, Bool.not_eq_true'] at guard
      exact counted.clear guard.1 guard.2
    · exact counted.of_setRef_ne same
  | putRefPtr r' =>
    obtain ⟨guard, rfl⟩ := of_guarded taken
    by_cases same : r = r'
    · subst same
      simp only [Bool.and_eq_true, Bool.not_eq_true'] at guard
      exact counted.put guard.1 guard.2
    · exact counted.of_setRef_ne same
  | incRef r' =>
    obtain ⟨live, rfl⟩ := of_guarded taken
    by_cases same : r = r'
    · subst same
      exact counted.incRef live few
    · exact counted.of_setRef_ne same
  | decRef r' =>
    obtain ⟨users, rfl⟩ := of_guarded taken
    by_cases same : r = r'
    · subst same
      exact counted.decRef users
    · exact counted.of_setRef_ne same
  | lock | unlock =>
    obtain ⟨-, rfl⟩ := of_guarded taken
    exact counted.of_eq rfl rfl

theorem counted_of_run (run : (queue args).Run past s)
    (few : Every (fun e => references args e.target r < 2 ^ 31) past) : Counted args s r := by
  refine (run.invariant_of_every (P := fun s => (queue args).Reachable s ∧ Counted args s r) few
    (fun s first => ⟨.start first, ?_⟩) ?_).2
  · obtain rfl : s = initial args := first
    have nobody : holding args (initial args) r = ∅ :=
      holders_eq_empty fun t held => held.2.2.1 rfl
    exact ⟨nobody ▸ Set.finite_empty, nofun, fun _ => ⟨rfl, nobody⟩, nofun⟩
  · intro s b s' held few taken
    exact ⟨held.1.step taken, counted_of_step held.1 held.2 few taken⟩

omit [DecidableEq ι] in
/-- The memory has been freed once if no reference is left, and not at all otherwise. -/
theorem Counted.frees (counted : Counted args s r) :
    (s.refs r).frees = if references args s r = 0 then 1 else 0 := by
  cases made : (s.refs r).created with
  | true => exact (counted.counts made).frees
  | false =>
    obtain ⟨cell, nobody⟩ := counted.fresh made
    simp [references, cell]

theorem frees_le_of_step {b : Action ι} (reached : (queue args).Reachable s)
    (taken : s.step b = some s') (r : Address) : (s.refs r).frees ≤ (s'.refs r).frees := by
  -- only a put frees, and it only counts up
  have put_le (cell : RefPtr) : cell.frees ≤ cell.put.frees := by
    simp only [RefPtr.put]
    split <;> omega
  cases b with
  | timer t a =>
    by_cases mine : (args t).isRefPtr = true ∧ (args t).dataPtr = r
    · obtain ⟨ref, rfl⟩ := mine
      rcases refs_of_timerStep reached taken ref with
        ⟨-, -, refs⟩ | ⟨-, refs⟩ | ⟨-, -, refs | ⟨-, refs⟩⟩
      · exact refs ▸ le_rfl
      · exact refs ▸ put_le _
      · exact refs ▸ le_rfl
      · exact refs ▸ le_rfl
    · rw [refs_of_timerStep_other reached taken mine]
  | allocRefPtr r' | clearRefPtr r' | putRefPtr r' | incRef r' | decRef r' =>
    obtain ⟨-, rfl⟩ := of_guarded taken
    by_cases same : r = r'
    · subst same
      simp [State.setRef, RefPtr.touch, RefPtr.get, put_le]
    · simp [State.setRef, same]
  | lock | unlock =>
    obtain ⟨-, rfl⟩ := of_guarded taken
    exact le_rfl

/-- The event frees `r` if it takes the last reference away, and otherwise not. -/
def FreesLast (args : ι → Args) (r : Address) (e : Event (State ι) (Action ι)) : Prop :=
  (e.target.refs r).frees = (e.source.refs r).frees +
    if references args e.source r ≠ 0 ∧ references args e.target r = 0 then 1 else 0

theorem freesLast_of_run (run : (queue args).Run past s)
    (few : Every (fun e => references args e.target r < 2 ^ 31) past) :
    Every (FreesLast args r) past := by
  induction run with
  | start => exact every_nil
  | @step past s s' b run taken ih =>
    obtain ⟨last, earlier⟩ := every_cons.mp few
    refine every_cons.mpr ⟨?_, ih earlier⟩
    have counted := counted_of_run run earlier
    have before := counted.frees
    have after : (s'.refs r).frees = if references args s' r = 0 then 1 else 0 :=
      (counted_of_step run.reachable counted last taken).frees
    have never_less := frees_le_of_step run.reachable taken r
    change (s'.refs r).frees = (s.refs r).frees +
      if references args s r ≠ 0 ∧ references args s' r = 0 then 1 else 0
    -- the count of frees is that of the state: 1 just when nobody holds a reference
    by_cases empty : references args s r = 0
    · rw [if_pos empty] at before
      rw [if_neg fun both => both.1 empty]
      split at after <;> omega
    · rw [if_neg empty] at before
      by_cases emptied : references args s' r = 0
      · rw [if_pos emptied] at after
        rw [if_pos ⟨empty, emptied⟩]
        omega
      · rw [if_neg emptied] at after
        rw [if_neg fun both => emptied both.2]
        omega

/-- Reference counting over whole runs. In every state of a run in which fewer than
`2 ^ 31` references to `r` are held at once, the count of `r`, once made, is the
number of references: the owner's, one for each of the finitely many timers created
for `r` whose `DoDPC` has not put it, and those of other users. No timer puts twice.
The memory is freed in the step that takes the last reference, that is once, and it
is not accessed after that. -/
theorem refcount_of_run (run : (queue args).Run past s)
    (few : Every (fun e => references args e.target r < 2 ^ 31) past)
    (made : (s.refs r).created = true) :
    (holding args s r).Finite ∧ (s.refs r).refcount.toNat = references args s r ∧
      (∀ t, (s.timers t).decRefs ≤ 1) ∧ Every (FreesLast args r) past ∧
      (s.refs r).frees = (if references args s r = 0 then 1 else 0) ∧
      (s.refs r).stale = false := by
  have counted := counted_of_run run few
  have counts := counted.counts made
  refine ⟨counted.finite, counts.refcount, fun t => ?_, freesLast_of_run run few, counts.frees,
    counts.stale⟩
  exact (once_of_reachable (reachable_timer run.reachable t)).decRefs

omit [DecidableEq ι] in
/-- Every timer holds at most one reference. -/
theorem references_le [Finite ι] (args : ι → Args) (s : State ι) (r : Address) :
    references args s r ≤ 1 + Nat.card ι + (s.refs r).users := by
  have timers : (holding args s r).ncard ≤ Nat.card ι := Set.ncard_le_card _
  simp only [references]
  split <;> omega

/-- A timer with delay zero and another user take references to the ref_ptr 7, the
owner lets go, and the user puts its reference last, which frees the ref_ptr. -/
theorem refcount_of_run_user : ∃ past s, (queue fun _ : Unit => ⟨1, 7, 3, 0, true⟩).Run past s ∧
    (s.refs 7).refcount.toNat = references (fun _ => ⟨1, 7, 3, 0, true⟩) s 7 ∧
    (s.refs 7).frees = 1 := by
  have run := (Run.start (T := queue fun _ : Unit => ⟨1, 7, 3, 0, true⟩) rfl).play
    [.allocRefPtr 7 20, .timer () .construct, .incRef 7, .timer () .schedule,
      .timer () .dequeue, .clearRefPtr 7, .timer () .dpcCheck, .timer () (.dpcReadPtr 0),
      .putRefPtr 7, .timer () .dpcPut, .timer () .dpcDrop, .decRef 7] rfl
  have few (e : Event (State Unit) (Action Unit)) (users : (e.target.refs 7).users < 2) :
      references (fun _ => ⟨1, 7, 3, 0, true⟩) e.target 7 < 2 ^ 31 := by
    have bound := references_le (fun _ : Unit => ⟨1, 7, 3, 0, true⟩) e.target 7
    rw [Nat.card_unique] at bound
    omega
  exact ⟨_, _, run, (refcount_of_run run (Every.mono few (by decide)) rfl).2.1, rfl⟩

end NvidiaHaiku.TimerQueue

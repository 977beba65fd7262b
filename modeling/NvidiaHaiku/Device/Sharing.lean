/-
# Sharing the device between threads

Any number of threads open and close the device, through device handles or through
`open_gpu` and `close_gpu`. Only `fOpenCount` is atomic: `Start`, the roll-back of
the count after a failed `Start`, and `Stop` run after the update that decided on
them. A thread can get a reference while the first opener has not run its `Start`
yet, and a `Stop` can run after another thread's `Start`.

References are safe as long as nobody takes one in such a window.
-/

import NvidiaHaiku.Device.Hardware
import NvidiaHaiku.Math.Transition

namespace NvidiaHaiku.Device

open NvidiaHaiku.Math TransitionSystem

/-- What a thread has still to do after its update of `fOpenCount`. -/
inductive Call
  /-- `AcquireRef`, about to run `Start`. -/
  | start
  /-- `AcquireRef`, about to undo its update after a failed `Start`. -/
  | rollBack
  /-- `ReleaseRef`, about to run `Stop`. -/
  | stop
  deriving DecidableEq, Repr

/-- A device with the threads inside `AcquireRef` and `ReleaseRef`. -/
structure State where
  device : NvHaikuDevice := {}
  calls : Multiset Call := 0
  /-- The references whose `AcquireRef` has returned `B_OK` and whose `ReleaseRef` has
  not begun. -/
  holders : ℕ := 0
  /-- The most recent `Start` succeeded, and no `Stop` has begun since. -/
  started : Bool := false

/-- A step of a thread: the operation on `fOpenCount`, or what the thread goes on to do. -/
inductive Action
  /-- `AcquireRef` increments `fOpenCount`. -/
  | acquire
  | start (answers : Answers)
  | rollBack
  /-- `ReleaseRef` decrements `fOpenCount`. -/
  | release
  | stop
  deriving DecidableEq, Repr

namespace State

/-- One step. Nothing orders what two threads have to do after their operations on `fOpenCount`. -/
def step (s : State) : Action → Option State
  | .acquire =>
    -- only the thread that finds the count at zero goes on to `Start`
    let opened := { s with device := { s.device with fOpenCount := s.device.fOpenCount + 1 } }
    some (if s.device.fOpenCount = 0 then { opened with calls := .start ::ₘ s.calls }
      else { opened with holders := s.holders + 1 })
  | .start answers =>
    if .start ∈ s.calls then
      some (if (s.device.start answers).2 = .ok then
        { s with
          device := (s.device.start answers).1
          calls := s.calls.erase .start
          holders := s.holders + 1
          started := true }
      else
        { s with
          device := (s.device.start answers).1
          calls := .rollBack ::ₘ s.calls.erase .start
          started := false })
    else none
  | .rollBack =>
    if .rollBack ∈ s.calls then
      some { s with
        device := { s.device with fOpenCount := s.device.fOpenCount - 1 }
        calls := s.calls.erase .rollBack }
    else none
  | .release =>
    if 0 < s.holders then
      some { s with
        device := { s.device with fOpenCount := s.device.fOpenCount - 1 }
        holders := s.holders - 1
        calls := if s.device.fOpenCount = 1 then .stop ::ₘ s.calls else s.calls }
    else none
  | .stop =>
    if .stop ∈ s.calls then
      some { s with device := s.device.stop, calls := s.calls.erase .stop, started := false }
    else none

/-- A held reference means a started device. -/
def HeldStarted (s : State) : Prop :=
  0 < s.holders → s.started = true ∧ s.device.fInitHardware = true

end State

/-- The number of openers between their update of `fOpenCount` and their return. -/
def opening (calls : Multiset Call) : ℕ := calls.count .start + calls.count .rollBack

@[simp] theorem opening_zero : opening 0 = 0 := rfl

@[simp] theorem opening_start (calls : Multiset Call) :
    opening (.start ::ₘ calls) = opening calls + 1 := by
  simp [opening, Nat.add_right_comm]

@[simp] theorem opening_rollBack (calls : Multiset Call) :
    opening (.rollBack ::ₘ calls) = opening calls + 1 := by
  simp [opening, Nat.add_assoc]

@[simp] theorem opening_stop (calls : Multiset Call) :
    opening (.stop ::ₘ calls) = opening calls := by
  simp [opening]

theorem opening_pos {calls : Multiset Call} :
    0 < opening calls ↔ .start ∈ calls ∨ .rollBack ∈ calls := by
  simp only [opening, Nat.add_pos_iff_pos_or_pos, Multiset.count_pos]

/-- A device that any number of threads share. -/
def shared : TransitionSystem State Action := .ofStep (· = {}) State.step

/-- The condition on a step. A reference is taken on a non-zero count only when no
other thread has a `Start`, a roll-back or a `Stop` to do, and the count does not
wrap; and no `Start` succeeds before a `Stop` that was decided on earlier. -/
def Orderly (s : State) : Action → Prop
  | .acquire => s.device.fOpenCount ≠ 0 → s.calls = 0 ∧ s.device.fOpenCount ≠ -1
  | .start answers => answers.good = true → .stop ∉ s.calls
  | .rollBack | .release | .stop => True

instance (s : State) : (a : Action) → Decidable (Orderly s a)
  | .acquire => inferInstanceAs
      (Decidable (s.device.fOpenCount ≠ 0 → s.calls = 0 ∧ s.device.fOpenCount ≠ -1))
  | .start answers => inferInstanceAs (Decidable (answers.good = true → .stop ∉ s.calls))
  | .rollBack | .release | .stop => inferInstanceAs (Decidable True)

variable {s t : State} {a : Action} {past : List (Event State Action)}

/-- What holds as long as the steps are orderly. -/
structure Ordered (s : State) : Prop where
  count : s.device.fOpenCount.toNat = s.holders + opening s.calls
  /-- The first opener is alone until it has returned. -/
  alone : 0 < opening s.calls → s.holders = 0 ∧ opening s.calls = 1
  /-- Nobody holds a reference when a `Stop` is to run. -/
  stopping : .stop ∈ s.calls → s.holders = 0
  rollingBack : .rollBack ∈ s.calls → s.started = false
  held : s.HeldStarted

theorem ordered_initial : Ordered {} := by
  constructor <;> simp [State.HeldStarted]

/-- `AcquireRef` on a count of zero has to start the device. -/
theorem Ordered.first (ordered : Ordered s) (closed : s.device.fOpenCount = 0) :
    s.holders = 0 ∧ opening s.calls = 0 := by
  have count := ordered.count
  rw [closed] at count
  simp at count
  omega

theorem Ordered.acquire (ordered : Ordered s) (taken : s.step .acquire = some t)
    (orderly : Orderly s .acquire) : Ordered t := by
  obtain rfl := Option.some.inj taken
  by_cases closed : s.device.fOpenCount = 0
  · obtain ⟨holders, opening⟩ := ordered.first closed
    have quiet : .rollBack ∉ s.calls := fun waiting =>
      absurd (opening_pos.mpr (Or.inr waiting)) (by omega)
    rw [if_pos closed]
    -- the new opener is the only thread at work
    exact ⟨by simp [closed, holders, opening], by simp [holders, opening], by simp [holders],
      by simp [quiet], by simp [State.HeldStarted, holders]⟩
  · -- nobody is at work, so the count is that of the holders
    obtain ⟨idle, wraps⟩ := orderly closed
    have count := ordered.count
    simp only [idle, opening_zero, Nat.add_zero] at count
    have open_ : 0 < s.holders := Nat.pos_of_ne_zero fun zero =>
      closed (BitVec.eq_of_toNat_eq (count.trans zero))
    rw [if_neg closed]
    refine ⟨?_, by simp [idle], by simp [idle], by simp [idle], fun _ => ordered.held open_⟩
    simp only [idle, opening_zero]
    bv_omega

theorem Ordered.start (ordered : Ordered s) {answers : Answers}
    (taken : s.step (.start answers) = some t) (orderly : Orderly s (.start answers)) :
    Ordered t := by
  obtain ⟨member, rfl⟩ := of_guarded taken
  obtain ⟨count, alone, stopping, -, -⟩ := ordered
  obtain ⟨rest, calls⟩ := Multiset.exists_cons_of_mem member
  rw [calls, opening_start] at count alone
  obtain ⟨holders, none⟩ := alone (Nat.succ_pos _)
  have quiet : .rollBack ∉ rest := fun waiting =>
    absurd (opening_pos.mpr (Or.inr waiting)) (by omega)
  rw [calls, Multiset.erase_cons_head]
  split
  · rename_i ok
    -- while the device starts no `Stop` may be waiting, or it would stop what has been started
    have good := NvHaikuDevice.start_status.mp ok
    have last : .stop ∉ rest := fun waiting =>
      orderly good (calls ▸ Multiset.mem_cons_of_mem waiting)
    have init := (NvHaikuDevice.start_of_good (d := s.device) good).1
    refine ⟨?_, fun more => ?_, fun waiting => absurd waiting last,
      fun waiting => absurd waiting quiet, fun _ => ⟨rfl, init⟩⟩
    · simp only [NvHaikuDevice.start_fOpenCount]
      omega
    · exact absurd more (by simp only; omega)
  · refine ⟨?_, fun _ => ⟨holders, ?_⟩, fun _ => holders, fun _ => rfl, fun held => ?_⟩
    · simpa using count
    · simpa using none
    · exact absurd held (by simp [holders])

theorem Ordered.rollBack (ordered : Ordered s) (taken : s.step .rollBack = some t) : Ordered t := by
  obtain ⟨member, rfl⟩ := of_guarded taken
  obtain ⟨count, alone, stopping, -, -⟩ := ordered
  obtain ⟨rest, calls⟩ := Multiset.exists_cons_of_mem member
  rw [calls, opening_rollBack] at count alone
  obtain ⟨holders, none⟩ := alone (Nat.succ_pos _)
  have quiet : .rollBack ∉ rest := fun waiting =>
    absurd (opening_pos.mpr (Or.inr waiting)) (by omega)
  rw [calls, Multiset.erase_cons_head]
  refine ⟨?_, fun more => ?_, fun _ => holders, fun waiting => absurd waiting quiet, fun held => ?_⟩
  · show (s.device.fOpenCount - 1).toNat = s.holders + opening rest
    bv_omega
  · exact absurd more (by simp only; omega)
  · exact absurd held (by simp [holders])

theorem Ordered.release (ordered : Ordered s) (taken : s.step .release = some t) : Ordered t := by
  obtain ⟨open_, rfl⟩ := of_guarded taken
  obtain ⟨count, alone, stopping, rollingBack, held⟩ := ordered
  -- while somebody holds a reference, nobody is opening the device
  have none : opening s.calls = 0 := Nat.eq_zero_of_not_pos fun more => by
    have := (alone more).1
    omega
  have held := held open_
  have less : (s.device.fOpenCount - 1).toNat = s.holders - 1 := by
    bv_omega
  by_cases last : s.device.fOpenCount = 1
  · have one : s.holders = 1 := by
      rw [last] at count
      simpa [none] using count.symm
    rw [if_pos last]
    refine ⟨?_, by simp [none], fun _ => ?_, ?_, fun _ => held⟩
    · simpa [none] using less
    · simp [one]
    · simpa using rollingBack
  · rw [if_neg last]
    refine ⟨?_, by simp [none], fun waiting => ?_, rollingBack, fun _ => held⟩
    · simpa [none] using less
    · exact absurd (stopping waiting) (by omega)

theorem Ordered.stop (ordered : Ordered s) (taken : s.step .stop = some t) : Ordered t := by
  obtain ⟨member, rfl⟩ := of_guarded taken
  obtain ⟨count, alone, stopping, -, -⟩ := ordered
  have holders := stopping member
  obtain ⟨rest, calls⟩ := Multiset.exists_cons_of_mem member
  rw [calls, opening_stop] at count alone
  rw [calls, Multiset.erase_cons_head]
  refine ⟨?_, alone, fun _ => holders, fun _ => rfl, fun held => absurd held (by simp [holders])⟩
  simpa using count

theorem Ordered.step (ordered : Ordered s) (taken : s.step a = some t) (orderly : Orderly s a) :
    Ordered t := by
  cases a with
  | acquire => exact ordered.acquire taken orderly
  | start answers => exact ordered.start taken orderly
  | rollBack => exact ordered.rollBack taken
  | release => exact ordered.release taken
  | stop => exact ordered.stop taken

theorem ordered_of_run (run : shared.Run past s)
    (orderly : Every (fun e => Orderly e.source e.action) past) : Ordered s :=
  run.invariant_of_every orderly (fun _ first => first ▸ ordered_initial)
    fun _ _ _ ordered orderly taken => ordered.step taken orderly

/-! ## The condition is needed -/

/-- A reference that is held while a `Start` or a `Stop` is to run can be left with a
stopped device. -/
theorem violated_of_call (run : shared.Run past s) (held : 0 < s.holders)
    (waiting : .start ∈ s.calls ∨ .stop ∈ s.calls) :
    ∃ later t, shared.Run (later ++ past) t ∧
      Every (fun e => Orderly e.source e.action) later ∧ ¬ t.HeldStarted := by
  rcases waiting with start | stop
  · -- the `Start` runs now and fails for want of an MSI vector
    have fails : ¬ (s.device.start ⟨0, 0, true⟩).2 = .ok := by
      rw [NvHaikuDevice.start_status]
      decide
    have taken : shared.step s (.start ⟨0, 0, true⟩)
        { s with
          device := (s.device.start ⟨0, 0, true⟩).1
          calls := .rollBack ::ₘ s.calls.erase .start
          started := false } := (if_pos start).trans (congrArg some (if_neg fails))
    have orderly : Orderly s (.start ⟨0, 0, true⟩) :=
      fun good => absurd (NvHaikuDevice.start_status.mpr good) fails
    exact ⟨[_], _, run.step taken, every_cons.mpr ⟨orderly, every_nil⟩,
      fun started => Bool.false_ne_true (started held).1⟩
  · have taken : shared.step s .stop
        { s with device := s.device.stop, calls := s.calls.erase .stop, started := false } :=
      if_pos stop
    exact ⟨[_], _, run.step taken, every_cons.mpr ⟨trivial, every_nil⟩,
      fun started => Bool.false_ne_true (started held).1⟩

/-- From a state the orderly steps lead to, a step out of order opens the way to a
held reference on a device that is not started. -/
theorem violated_of_not_orderly (ordered : Ordered s) (taken : s.step a = some t)
    (fails : ¬ Orderly s a) (run : shared.Run past t) :
    ∃ later u, shared.Run (later ++ past) u ∧
      Every (fun e => Orderly e.source e.action) later ∧ ¬ u.HeldStarted := by
  cases a with
  | acquire =>
    obtain rfl := Option.some.inj taken
    obtain ⟨closed, fails⟩ := Classical.not_imp.mp fails
    rw [if_neg closed] at run
    rcases not_and_or.mp fails with busy | wraps
    · obtain ⟨call, member⟩ := Multiset.exists_mem_of_ne_zero busy
      cases call with
      | start => exact violated_of_call run (Nat.succ_pos _) (Or.inl member)
      | stop => exact violated_of_call run (Nat.succ_pos _) (Or.inr member)
      | rollBack =>
        -- the device is not started as it stands
        refine ⟨[], _, run, every_nil, fun started => ?_⟩
        have stopped := ordered.rollingBack member
        exact Bool.false_ne_true (stopped.symm.trans (started (Nat.succ_pos _)).1)
    · -- the next opener finds the count at zero, and runs `Start` again
      have zero : s.device.fOpenCount + 1 = 0 := by
        rw [not_not.mp wraps]
        decide
      have next := run.step (T := shared) (a := .acquire) (congrArg some (if_pos zero))
      obtain ⟨later, u, run, orderly, violated⟩ := violated_of_call next (Nat.succ_pos _)
        (Or.inl (Multiset.mem_cons_self _ _))
      refine ⟨later ++ [_], u, by simpa using run, every_append.mpr ⟨orderly, ?_⟩, violated⟩
      exact every_cons.mpr ⟨fun open_ => absurd zero open_, every_nil⟩
  | start answers =>
    obtain ⟨member, rfl⟩ := of_guarded taken
    obtain ⟨good, stop⟩ := Classical.not_imp.mp fails
    rw [if_pos (NvHaikuDevice.start_status.mpr good)] at run
    refine violated_of_call run (Nat.succ_pos _) (Or.inr ?_)
    exact (Multiset.mem_erase_of_ne (by decide)).mpr (not_not.mp stop)
  | rollBack | release | stop => exact absurd trivial fails

/-- Sharing over whole runs. As long as the steps are orderly, a held reference means a
started device; and the first step that is not can be followed, by orderly steps, to a
state in which it does not. -/
theorem heldStarted_of_orderly (run : shared.Run past s)
    (orderly : Every (fun e => Orderly e.source e.action) past) :
    s.HeldStarted ∧ ∀ a t, s.step a = some t → ¬ Orderly s a →
      ∃ later u, shared.Run (later ++ ⟨s, a, t⟩ :: past) u ∧
        Every (fun e => Orderly e.source e.action) later ∧ ¬ u.HeldStarted := by
  have ordered := ordered_of_run run orderly
  exact ⟨ordered.held, fun a t taken fails =>
    violated_of_not_orderly ordered taken fails (run.step taken)⟩

/-- A second thread opens the device after the first one has started it. -/
theorem heldStarted_second : ∃ past s, shared.Run past s ∧ s.holders = 2 ∧ s.HeldStarted := by
  have run := (Run.start (T := shared) rfl).play
    [.acquire, .start ⟨1, 24, true⟩, .acquire] rfl
  exact ⟨_, _, run, rfl, (heldStarted_of_orderly run (by decide)).1⟩

/-- A second thread opens the device before the first one has started it. -/
theorem not_heldStarted_overtaking : ∃ past s, shared.Run past s ∧ s.holders = 1 ∧
    s.device.fInitHardware = false ∧ ¬ s.HeldStarted := by
  have run := (Run.start (T := shared) rfl).play [.acquire, .acquire] rfl
  exact ⟨_, _, run, rfl, rfl, fun started => absurd (started (by decide)).1 (by decide)⟩

end NvidiaHaiku.Device

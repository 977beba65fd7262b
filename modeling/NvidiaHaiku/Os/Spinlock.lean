/-
# Spinlocks and the state of interrupts

`os_acquire_spinlock` disables interrupts and returns the state they were in before;
`os_release_spinlock` gets that state back from its caller, restores it, and runs
`Maintain` if interrupts were enabled. Memory comes from the heap while interrupts
are enabled and from the interrupt-safe pool while they are not, and `Maintain`
enables them around each of its calls of the heap. So what must hold is that
interrupts are enabled only where the heap may be entered: on a processor that holds
no spinlock, waits for none, and handles no interrupt.

Locks may be released in any order. They are safe exactly if the lock that found
interrupts enabled is released after all the others that the code holds.
-/

import Mathlib.Logic.Function.Basic
import NvidiaHaiku.Math.Transition

namespace NvidiaHaiku.Os

open NvidiaHaiku.Math TransitionSystem

/-- How far a call of `Maintain` has come. -/
inductive MaintainStage
  /-- Before it takes the spinlock of the pool. -/
  | call
  /-- With the spinlock of the pool, and with the state of interrupts it will restore. -/
  | locked (status : Bool)
  /-- Around a call of `free` or `calloc`. -/
  | window (status : Bool)
  deriving DecidableEq, Repr

/-- Where the code on a processor is. -/
inductive SpinPc (L : Type*)
  | code
  /-- In `calloc` or `free`, which `os_alloc_mem` or `os_free_mem` has called. -/
  | heap
  /-- In `acquire_spinlock`, with what `disable_interrupts` has returned. -/
  | spin (lock : L) (res : Bool)
  | maintain (stage : MaintainStage)
  deriving DecidableEq, Repr

/-- The code of a thread or of an interrupt handler. -/
structure Frame (L : Type*) where
  pc : SpinPc L := .code
  /-- The locks it holds, the last one first, with what `os_acquire_spinlock` has returned. -/
  held : List (L × Bool) := []
  deriving DecidableEq, Repr

/-- A processor with the code that it runs and the code that is suspended on it. -/
structure Processor (L : Type*) where
  /-- Interrupts are enabled. -/
  enabled : Bool
  running : Frame L := {}
  /-- The code that interrupts have suspended, the last one first. -/
  interrupted : List (Frame L) := []
  deriving DecidableEq, Repr

/-- `os_is_isr`. -/
def osIsIsr {L : Type*} (cpu : Processor L) : Bool := !cpu.enabled

/-- `os_semaphore_may_sleep`. -/
def osSemaphoreMaySleep {L : Type*} (cpu : Processor L) : Bool := cpu.enabled

/-- A step of the code that runs on a processor, or an interrupt. -/
inductive SpinMove (L : Type*)
  /-- `os_acquire_spinlock`, up to `acquire_spinlock`. -/
  | osAcquireSpinlock (lock : L)
  /-- `acquire_spinlock` gets the lock. -/
  | acquired (lock : L)
  /-- `os_release_spinlock`, with what `os_acquire_spinlock` has returned for the lock. -/
  | osReleaseSpinlock (lock : L)
  /-- `os_alloc_mem` or `os_free_mem`. -/
  | osMem
  | heapReturns
  /-- `Maintain` takes a step. -/
  | maintain (window : Bool)
  /-- An interrupt comes. -/
  | interrupt
  /-- The handler returns. -/
  | handled
  deriving DecidableEq, Repr

variable {C L : Type*}

namespace Processor

variable [DecidableEq L] (cpu : Processor L)

/-- `os_acquire_spinlock`, up to `acquire_spinlock`. -/
def osAcquireSpinlock (lock : L) : Option (Processor L) :=
  if cpu.running.pc = .code then
    some { cpu with enabled := false, running := { cpu.running with pc := .spin lock cpu.enabled } }
  else none

/-- `acquire_spinlock` gets the lock. -/
def acquired (lock : L) : Option (Processor L) :=
  match cpu.running.pc with
  | .spin awaited res =>
    if awaited = lock then
      some { cpu with running := { pc := .code, held := (lock, res) :: cpu.running.held } }
    else none
  | .code | .heap | .maintain _ => none

/-- The lock is released, interrupts are restored, and `Maintain` is called if they were enabled. -/
def osReleaseSpinlock (lock : L) : Option (Processor L) :=
  if cpu.running.pc = .code then
    (cpu.running.held.lookup lock).map fun oldIrql =>
      { cpu with
        enabled := oldIrql
        running :=
          { pc := if oldIrql then .maintain .call else .code
            held := cpu.running.held.eraseP (lock == ·.1) } }
  else none

/-- The heap is called if interrupts are enabled; the pool serves the others at once. -/
def osMem : Option (Processor L) :=
  if cpu.running.pc = .code then
    if cpu.enabled then some { cpu with running := { cpu.running with pc := .heap } } else some cpu
  else none

/-- `calloc` or `free` returns. -/
def heapReturns : Option (Processor L) :=
  if cpu.running.pc = .heap then some { cpu with running := { cpu.running with pc := .code } }
  else none

/-- `Maintain` takes the lock of the pool, gives it up for a window, takes it again, or returns;
which of the last two comes first is up to the pool. -/
def maintain (window : Bool) : Option (Processor L) :=
  match cpu.running.pc with
  | .maintain .call =>
    some { cpu with
      enabled := false, running := { cpu.running with pc := .maintain (.locked cpu.enabled) } }
  | .maintain (.locked status) =>
    if window then
      -- `enable_interrupts`, whatever their state was
      some { cpu with
        enabled := true, running := { cpu.running with pc := .maintain (.window status) } }
    else some { cpu with enabled := status, running := { cpu.running with pc := .code } }
  | .maintain (.window status) =>
    some { cpu with
      enabled := false, running := { cpu.running with pc := .maintain (.locked status) } }
  | .code | .heap | .spin .. => none

/-- An interrupt comes, which disables interrupts. -/
def interrupt : Option (Processor L) :=
  if cpu.enabled then
    some { enabled := false, running := {}, interrupted := cpu.running :: cpu.interrupted }
  else none

/-- A handler gives back what it has taken before it returns. -/
def handled : Option (Processor L) :=
  match cpu.interrupted with
  | [] => none
  | frame :: interrupted =>
    if cpu.running = {} then some { enabled := true, running := frame, interrupted := interrupted }
    else none

/-- One step of the processor. -/
def step : SpinMove L → Option (Processor L)
  | .osAcquireSpinlock lock => cpu.osAcquireSpinlock lock
  | .acquired lock => cpu.acquired lock
  | .osReleaseSpinlock lock => cpu.osReleaseSpinlock lock
  | .osMem => cpu.osMem
  | .heapReturns => cpu.heapReturns
  | .maintain window => cpu.maintain window
  | .interrupt => cpu.interrupt
  | .handled => cpu.handled

end Processor

/-- The processors, and who holds which lock. -/
structure Machine (C L : Type*) where
  cpus : C → Processor L
  holder : L → Option C := fun _ => none

namespace Machine

variable (m : Machine C L)

/-- A lock is granted if nobody holds it. -/
def Grants : SpinMove L → Prop
  | .acquired lock => m.holder lock = none
  | _ => True

instance [DecidableEq C] : DecidablePred m.Grants
  | .acquired lock => inferInstanceAs (Decidable (m.holder lock = none))
  | .osAcquireSpinlock _ | .osReleaseSpinlock _ | .osMem | .heapReturns | .maintain _
  | .interrupt | .handled => inferInstanceAs (Decidable True)

/-- Who holds which lock after a move of `c`. -/
def holderAfter [DecidableEq L] (c : C) : SpinMove L → L → Option C
  | .acquired lock => Function.update m.holder lock (some c)
  | .osReleaseSpinlock lock => Function.update m.holder lock none
  | _ => m.holder

/-- A processor moves. -/
def step [DecidableEq C] [DecidableEq L] (m : Machine C L) : C × SpinMove L → Option (Machine C L)
  | (c, move) =>
    if m.Grants move then
      ((m.cpus c).step move).map fun cpu =>
        { cpus := Function.update m.cpus c cpu, holder := m.holderAfter c move }
    else none

end Machine

/-- The machine, where the processors run with interrupts enabled or disabled at first. -/
def spinning [DecidableEq C] [DecidableEq L] (base : C → Bool) :
    TransitionSystem (Machine C L) (C × SpinMove L) :=
  .ofStep (· = { cpus := fun c => { enabled := base c } }) Machine.step

/-! ## Where interrupts may be enabled -/

/-- The code holds no spinlock and waits for none, nor is it between the windows of `Maintain`. -/
def Frame.Free (f : Frame L) : Prop :=
  f.held = [] ∧ match f.pc with
    | .code | .heap | .maintain .call | .maintain (.window _) => True
    | .spin .. | .maintain (.locked _) => False

/-- The code is in the heap. -/
def Frame.InHeap (f : Frame L) : Prop :=
  match f.pc with
  | .heap | .maintain (.window _) => True
  | .code | .spin .. | .maintain .call | .maintain (.locked _) => False

/-- The processor holds and awaits no spinlock, and handles no interrupt. -/
def Processor.Quiet (cpu : Processor L) : Prop := cpu.running.Free ∧ cpu.interrupted = []

/-- Interrupts are enabled on quiet processors only. -/
def EnablesQuiet (e : Event (Machine C L) (C × SpinMove L)) : Prop :=
  ∀ c, (e.target.cpus c).enabled = true → (e.target.cpus c).Quiet

/-- A lock that found interrupts enabled is released when the code holds no other. -/
def Processor.ReleasesLast [DecidableEq L] (cpu : Processor L) : SpinMove L → Prop
  | .osReleaseSpinlock lock =>
    cpu.running.held.lookup lock = some true → cpu.running.held.length = 1
  | _ => True

instance [DecidableEq L] (cpu : Processor L) : DecidablePred cpu.ReleasesLast
  | .osReleaseSpinlock lock => inferInstanceAs
      (Decidable (cpu.running.held.lookup lock = some true → cpu.running.held.length = 1))
  | .osAcquireSpinlock _ | .acquired _ | .osMem | .heapReturns | .maintain _ | .interrupt
  | .handled => inferInstanceAs (Decidable True)

/-- The processor meets the condition in the step. -/
def ReleasesLast [DecidableEq L] (e : Event (Machine C L) (C × SpinMove L)) : Prop :=
  (e.source.cpus e.action.1).ReleasesLast e.action.2

instance [DecidableEq L] : DecidablePred (ReleasesLast (C := C) (L := L)) :=
  fun e => inferInstanceAs (Decidable ((e.source.cpus e.action.1).ReleasesLast e.action.2))

/-! ## The state of interrupts in the code -/

/-- What `os_acquire_spinlock` has returned for the locks held: the state of interrupts for the
first one, and that they are disabled for the others. -/
inductive Saved (base : Bool) : List (L × Bool) → Prop
  | none : Saved base []
  | first {lock : L} : Saved base [(lock, base)]
  | more {lock : L} {held : List (L × Bool)} (nonempty : held ≠ []) (others : Saved base held) :
      Saved base ((lock, false) :: held)

/-- The state of interrupts in code that began with `base`. -/
structure Frame.Sound (base : Bool) (f : Frame L) (enabled : Bool) : Prop where
  saved : Saved base f.held
  state : match f.pc with
    | .code => enabled = (base && f.held.isEmpty)
    | .spin _ res => enabled = false ∧ res = (base && f.held.isEmpty)
    | .heap | .maintain .call => f.held = [] ∧ base = true ∧ enabled = true
    | .maintain (.locked status) => f.held = [] ∧ base = true ∧ status = true ∧ enabled = false
    | .maintain (.window status) => f.held = [] ∧ base = true ∧ status = true ∧ enabled = true

/-- A processor runs a thread, or a handler on top of code that may be interrupted. -/
inductive Processor.Sound (base : Bool) : Processor L → Prop
  | thread {enabled : Bool} {f : Frame L} (sound : f.Sound base enabled) :
      Sound base { enabled := enabled, running := f, interrupted := [] }
  | handler {f g : Frame L} (below : g.Sound base true) (sound : f.Sound false false) :
      Sound base { enabled := false, running := f, interrupted := [g] }

variable {base : Bool} {held : List (L × Bool)} {lock : L} {f : Frame L} {enabled : Bool}
  {cpu cpu' : Processor L} {move : SpinMove L}

theorem Saved.push (saved : Saved base held) :
    Saved base ((lock, base && held.isEmpty) :: held) := by
  cases held with
  | nil => simpa using Saved.first
  | cons entry held => simpa using Saved.more (List.cons_ne_nil entry held) saved

namespace Frame.Sound

/-- Code that began with interrupts disabled never enables them. -/
theorem disabled (sound : f.Sound false enabled) : enabled = false := by
  have state := sound.state
  revert state
  cases f.pc with
  | code => simp
  | heap => simp
  | spin => exact And.left
  | maintain stage => cases stage <;> simp

theorem free (sound : f.Sound base true) : f.Free := by
  have state := sound.state
  unfold Frame.Free
  revert state
  cases f.pc with
  | code => simp
  | heap => simpa using fun empty _ => empty
  | spin => simp
  | maintain stage => cases stage <;> simp +contextual

end Frame.Sound

namespace Processor.Sound

/-- The code that runs is sound, and may be replaced by any other that is. -/
theorem frame (sound : cpu.Sound base) : ∃ began, cpu.running.Sound began cpu.enabled ∧
    ∀ f enabled, f.Sound began enabled →
      ({ cpu with enabled := enabled, running := f } : Processor L).Sound base := by
  cases sound with
  | thread sound => exact ⟨base, sound, fun _ _ sound => .thread sound⟩
  | handler below sound =>
    refine ⟨false, sound, fun _ enabled sound => ?_⟩
    obtain rfl := sound.disabled
    exact .handler below sound

theorem quiet (sound : cpu.Sound base) (enabled : cpu.enabled = true) : cpu.Quiet := by
  cases sound with
  | thread sound =>
    obtain rfl := enabled
    exact ⟨sound.free, rfl⟩
  | handler => cases enabled

theorem enabled_of_inHeap (sound : cpu.Sound base) (inHeap : cpu.running.InHeap) :
    cpu.enabled = true := by
  obtain ⟨began, ⟨-, state⟩, -⟩ := sound.frame
  unfold Frame.InHeap at inHeap
  revert inHeap state
  cases cpu.running.pc with
  | code | spin => simp
  | heap => exact fun _ state => state.2.2
  | maintain stage =>
    cases stage with
    | call | locked => simp
    | window => exact fun _ state => state.2.2.2

theorem interrupted (sound : cpu.Sound base) :
    cpu.interrupted.length ≤ 1 ∧ ∀ f ∈ cpu.interrupted, f.Free := by
  cases sound with
  | thread => simp
  | handler below => simpa using below.free

theorem restored (sound : cpu.Sound base) (idle : cpu.running = {})
    (alone : cpu.interrupted = []) : cpu.enabled = base := by
  cases sound with
  | thread sound =>
    have state := sound.state
    simp only at idle
    simpa [idle] using state
  | handler => cases alone

theorem maintain {window : Bool} (sound : cpu.Sound base)
    (taken : cpu.maintain window = some cpu') : cpu'.Sound base := by
  obtain ⟨began, ⟨saved, state⟩, replace⟩ := sound.frame
  unfold Processor.maintain at taken
  split at taken
  · rename_i pc
    rw [pc] at state
    obtain ⟨empty, rfl, enabled⟩ := state
    obtain rfl := Option.some.inj taken
    exact replace _ _ ⟨saved, empty, rfl, enabled, rfl⟩
  · rename_i status pc
    rw [pc] at state
    obtain ⟨empty, rfl, rfl, -⟩ := state
    split at taken
    · obtain rfl := Option.some.inj taken
      exact replace _ _ ⟨saved, empty, rfl, rfl, rfl⟩
    · obtain rfl := Option.some.inj taken
      exact replace _ _ ⟨saved, by simp [empty]⟩
  · rename_i status pc
    rw [pc] at state
    obtain ⟨empty, rfl, rfl, -⟩ := state
    obtain rfl := Option.some.inj taken
    exact replace _ _ ⟨saved, empty, rfl, rfl, rfl⟩
  all_goals cases taken

end Processor.Sound

namespace Machine

variable {base : C → Bool} {m : Machine C L}

/-- Every processor is sound. -/
def Sound (base : C → Bool) (m : Machine C L) : Prop := ∀ c, (m.cpus c).Sound (base c)

theorem sound_of_start (initial : m = { cpus := fun c => { enabled := base c } }) :
    m.Sound base := by
  subst initial
  exact fun c => .thread ⟨.none, by simp⟩

end Machine

variable [DecidableEq L]

theorem mem_of_lookup {old : Bool} (found : held.lookup lock = some old) : (lock, old) ∈ held := by
  obtain ⟨later, earlier, rfl, -⟩ := List.lookup_eq_some_iff.mp found
  simp

/-- A lock that found interrupts disabled may be released in any order. -/
theorem Saved.erase (saved : Saved base held) (found : held.lookup lock = some false) :
    Saved base (held.eraseP (lock == ·.1)) ∧
      (base && (held.eraseP (lock == ·.1)).isEmpty) = false := by
  induction saved with
  | none => cases found
  | @first lock' =>
    by_cases same : lock = lock'
    · subst same
      simp only [List.lookup_cons, beq_self_eq_true, Option.some.injEq] at found
      subst found
      exact ⟨by simpa using Saved.none, rfl⟩
    · rw [List.lookup_cons, beq_eq_false_iff_ne.mpr same] at found
      cases found
  | @more lock' held nonempty others ih =>
    by_cases same : lock = lock'
    · subst same
      simp only [beq_self_eq_true, List.eraseP_cons_of_pos, others, true_and]
      simp [nonempty]
    · rw [List.lookup_cons, beq_eq_false_iff_ne.mpr same] at found
      obtain ⟨saved, disabled⟩ := ih found
      rw [List.eraseP_cons_of_neg (by simpa using same)]
      refine ⟨?_, by simp⟩
      cases empty : held.eraseP (lock == ·.1) with
      | nil =>
        rw [empty] at disabled
        rw [show base = false by simpa using disabled]
        exact .first
      | cons entry rest =>
        exact .more (List.cons_ne_nil entry rest) (empty ▸ saved)

/-- The lock that found interrupts enabled is the first one. -/
theorem Saved.of_true (saved : Saved base held) (found : held.lookup lock = some true) :
    base = true := by
  induction saved with
  | none => cases found
  | @first lock' =>
    by_cases same : lock = lock'
    · simpa [List.lookup_cons, same] using found
    · rw [List.lookup_cons, beq_eq_false_iff_ne.mpr same] at found
      cases found
  | @more lock' held _ _ ih =>
    by_cases same : lock = lock'
    · simp [same] at found
    · rw [List.lookup_cons, beq_eq_false_iff_ne.mpr same] at found
      exact ih found

namespace Processor.Sound

theorem osReleaseSpinlock (sound : cpu.Sound base)
    (last : cpu.ReleasesLast (.osReleaseSpinlock lock))
    (taken : cpu.osReleaseSpinlock lock = some cpu') : cpu'.Sound base := by
  obtain ⟨began, here, replace⟩ := sound.frame
  obtain ⟨-, taken⟩ := Option.ite_none_right_eq_some.mp taken
  obtain ⟨oldIrql, found, rfl⟩ := Option.map_eq_some_iff.mp taken
  cases oldIrql with
  | true =>
    have empty : cpu.running.held.eraseP (lock == ·.1) = [] := by
      rw [← List.length_eq_zero_iff, List.length_eraseP_of_mem (mem_of_lookup found) (by simp),
        last found]
    exact replace _ _ ⟨by simpa [empty] using Saved.none, by simp [empty, here.saved.of_true found]⟩
  | false =>
    obtain ⟨saved, disabled⟩ := here.saved.erase found
    exact replace _ _ ⟨saved, by simpa using disabled.symm⟩

/-- A processor that gives back the lock that found interrupts enabled last enables them in
no other place. -/
theorem step (sound : cpu.Sound base) (last : cpu.ReleasesLast move)
    (taken : cpu.step move = some cpu') : cpu'.Sound base := by
  cases move with
  | osReleaseSpinlock lock => exact sound.osReleaseSpinlock last taken
  | maintain window => exact sound.maintain taken
  | osAcquireSpinlock lock =>
    obtain ⟨began, ⟨saved, state⟩, replace⟩ := sound.frame
    obtain ⟨pc, rfl⟩ := of_guarded taken
    rw [pc] at state
    exact replace _ _ ⟨saved, rfl, state⟩
  | acquired lock =>
    obtain ⟨began, ⟨saved, state⟩, replace⟩ := sound.frame
    simp only [Processor.step, acquired] at taken
    split at taken
    · rename_i awaited res pc
      rw [pc] at state
      obtain ⟨rfl, rfl⟩ := of_guarded taken
      obtain ⟨disabled, rfl⟩ := state
      exact replace _ _ ⟨saved.push, by simp [disabled]⟩
    all_goals cases taken
  | osMem =>
    obtain ⟨began, ⟨saved, state⟩, replace⟩ := sound.frame
    obtain ⟨pc, taken⟩ := Option.ite_none_right_eq_some.mp taken
    rw [pc] at state
    split at taken
    · rename_i enabled
      obtain rfl := Option.some.inj taken
      rw [enabled, eq_comm, Bool.and_eq_true, List.isEmpty_iff] at state
      exact replace _ _ ⟨saved, state.2, state.1, enabled⟩
    · obtain rfl := Option.some.inj taken
      exact sound
  | heapReturns =>
    obtain ⟨began, ⟨saved, state⟩, replace⟩ := sound.frame
    obtain ⟨pc, rfl⟩ := of_guarded taken
    rw [pc] at state
    obtain ⟨empty, rfl, enabled⟩ := state
    exact replace _ _ ⟨saved, by simp [empty, enabled]⟩
  | interrupt =>
    obtain ⟨enabled, rfl⟩ := of_guarded taken
    cases sound with
    | thread sound =>
      obtain rfl := enabled
      exact .handler sound ⟨.none, rfl⟩
    | handler => cases enabled
  | handled =>
    cases sound with
    | thread => cases taken
    | handler below sound =>
      obtain ⟨-, rfl⟩ := of_guarded taken
      exact .thread below

end Processor.Sound

/-- A lock that found interrupts enabled and is not the last one held is released with
interrupts enabled. -/
theorem Processor.not_quiet_of_not_releasesLast (early : ¬ cpu.ReleasesLast move)
    (taken : cpu.step move = some cpu') : cpu'.enabled = true ∧ ¬ cpu'.Quiet := by
  cases move with
  | osReleaseSpinlock lock =>
    obtain ⟨found, others⟩ := Classical.not_imp.mp early
    obtain ⟨-, taken⟩ := Option.ite_none_right_eq_some.mp taken
    rw [found] at taken
    obtain rfl := Option.some.inj taken
    refine ⟨rfl, fun ⟨⟨empty, _⟩, _⟩ => others ?_⟩
    have length := List.length_eraseP_of_mem (p := (lock == ·.1)) (mem_of_lookup found)
      (beq_self_eq_true lock)
    have some_held := List.length_pos_of_mem (mem_of_lookup found)
    simp only at empty
    rw [empty, List.length_nil] at length
    omega
  | _ => exact absurd trivial early

variable [DecidableEq C] {base : C → Bool} {m m' : Machine C L} {c : C}
  {past : List (Event (Machine C L) (C × SpinMove L))}

namespace Machine

theorem step_cases (taken : m.step (c, move) = some m') : m.Grants move ∧
    ∃ cpu, (m.cpus c).step move = some cpu ∧
      m' = { cpus := Function.update m.cpus c cpu, holder := m.holderAfter c move } := by
  obtain ⟨grants, taken⟩ := Option.ite_none_right_eq_some.mp taken
  obtain ⟨cpu, moved, rfl⟩ := Option.map_eq_some_iff.mp taken
  exact ⟨grants, cpu, moved, rfl⟩

theorem Sound.step (sound : m.Sound base) (last : (m.cpus c).ReleasesLast move)
    (taken : m.step (c, move) = some m') : m'.Sound base := by
  obtain ⟨-, cpu, moved, rfl⟩ := step_cases taken
  intro d
  by_cases same : d = c
  · subst same
    simpa using (sound d).step last moved
  · simpa [same] using sound d

end Machine

/-- Interrupts are enabled on quiet processors only, in every run whose code releases the lock
that found them enabled after its others, and in no other. -/
theorem enablesQuiet_iff_releasesLast (run : (spinning base).Run past m) :
    Every EnablesQuiet past ↔ Every ReleasesLast past := by
  refine run.every_iff (P := Machine.Sound base) (fun m initial => Machine.sound_of_start initial)
    ?_ ?_
  · rintro m ⟨c, move⟩ m' sound taken last
    have sound := sound.step last taken
    exact ⟨sound, fun d enabled => (sound d).quiet enabled⟩
  · rintro m ⟨c, move⟩ m' - taken early quiet
    obtain ⟨-, cpu, moved, rfl⟩ := Machine.step_cases taken
    obtain ⟨enabled, loud⟩ := Processor.not_quiet_of_not_releasesLast early moved
    have here := quiet c
    simp only [Function.update_self] at here
    exact loud (here enabled)

/-- Two locks, the first of which is released first. -/
def releasedFirst : List (Bool × SpinMove Bool) :=
  [(true, .osAcquireSpinlock false), (true, .acquired false), (true, .osAcquireSpinlock true),
    (true, .acquired true), (true, .osReleaseSpinlock false)]

theorem enablesQuiet_releasedFirst : ∃ past m, (spinning fun _ => true).Run past m ∧
    m.holder true = some true ∧ (m.cpus true).enabled = true ∧ ¬ Every EnablesQuiet past := by
  have run := (Run.start (T := spinning fun _ : Bool => true) rfl).play releasedFirst (by decide)
  refine ⟨_, _, run, by decide, by decide, fun every => ?_⟩
  have last := (enablesQuiet_iff_releasesLast run).mp every _ (List.mem_cons_self ..)
  exact absurd (last rfl) (by decide)

/-! ## What masked interrupts protect -/

/-- The locks that the code running on the processor holds. -/
def Processor.locks (cpu : Processor L) : List L := cpu.running.held.map Prod.fst

/-- The locks held after a move. -/
def locksAfter (locks : List L) : SpinMove L → List L
  | .acquired lock => lock :: locks
  | .osReleaseSpinlock lock => locks.erase lock
  | _ => locks

theorem Processor.locks_step {base : Bool} (sound : cpu.Sound base)
    (taken : cpu.step move = some cpu') : cpu'.locks = locksAfter cpu.locks move := by
  cases move with
  | osAcquireSpinlock lock =>
    obtain ⟨-, rfl⟩ := of_guarded taken
    rfl
  | acquired lock =>
    simp only [step, acquired] at taken
    split at taken
    · obtain ⟨rfl, rfl⟩ := of_guarded taken
      rfl
    all_goals cases taken
  | osReleaseSpinlock lock =>
    obtain ⟨-, taken⟩ := Option.ite_none_right_eq_some.mp taken
    obtain ⟨oldIrql, -, rfl⟩ := Option.map_eq_some_iff.mp taken
    simp only [locks, locksAfter, List.erase_eq_eraseP, List.eraseP_map]
    rfl
  | osMem =>
    obtain ⟨-, taken⟩ := Option.ite_none_right_eq_some.mp taken
    split at taken <;> obtain rfl := Option.some.inj taken <;> rfl
  | heapReturns =>
    obtain ⟨-, rfl⟩ := of_guarded taken
    rfl
  | maintain window =>
    simp only [step, maintain] at taken
    split at taken
    · obtain rfl := Option.some.inj taken
      rfl
    · split at taken <;> obtain rfl := Option.some.inj taken <;> rfl
    · obtain rfl := Option.some.inj taken
      rfl
    all_goals cases taken
  | interrupt =>
    -- what is interrupted holds no lock, and neither does a handler when it begins
    obtain ⟨enabled, rfl⟩ := of_guarded taken
    have free := (sound.quiet enabled).1.1
    simp [locks, locksAfter, free]
  | handled =>
    cases sound with
    | thread => cases taken
    | handler below sound =>
      obtain ⟨idle, rfl⟩ := of_guarded taken
      have free := below.free.1
      simp only at idle
      simp [locks, locksAfter, free, idle]

/-- The holder of a lock is the processor whose code holds it, once. -/
structure Machine.Owned (m : Machine C L) : Prop where
  holder : ∀ lock c, m.holder lock = some c ↔ lock ∈ (m.cpus c).locks
  once : ∀ c, (m.cpus c).locks.Nodup

/-- What the code of the driver may rely on. -/
structure Machine.Masked (base : C → Bool) (m : Machine C L) : Prop where
  owned : m.Owned
  /-- Where `os_is_isr` is false and `os_semaphore_may_sleep` is true, the code may sleep. -/
  sleeps : ∀ c, osSemaphoreMaySleep (m.cpus c) = true → (m.cpus c).Quiet
  /-- The heap is called by code that may sleep, so by no handler and under no spinlock. -/
  heap : ∀ c, (m.cpus c).running.InHeap → (m.cpus c).enabled = true
  /-- A handler is not interrupted, and what it interrupts holds no lock that it may wait for. -/
  handler : ∀ c, (m.cpus c).interrupted.length ≤ 1 ∧ ∀ f ∈ (m.cpus c).interrupted, f.Free
  /-- A thread that has released all its locks finds interrupts as it began. -/
  restored : ∀ c, (m.cpus c).running = {} → (m.cpus c).interrupted = [] →
    osIsIsr (m.cpus c) = !base c

namespace Machine

omit [DecidableEq L] [DecidableEq C] in
theorem owned_of_start (initial : m = { cpus := fun c => { enabled := base c } }) : m.Owned := by
  subst initial
  exact ⟨by simp [Processor.locks], by simp [Processor.locks]⟩

theorem Owned.step (owned : m.Owned) (sound : m.Sound base)
    (taken : m.step (c, move) = some m') : m'.Owned := by
  obtain ⟨grants, cpu, moved, rfl⟩ := step_cases taken
  have after := Processor.locks_step (sound c) moved
  have locks (d : C) : (Function.update m.cpus c cpu d).locks =
      if d = c then locksAfter (m.cpus c).locks move else (m.cpus d).locks := by
    by_cases same : d = c
    · subst same
      simp [after]
    · simp [same]
  cases move with
  | acquired lock =>
    -- nobody has held the lock
    have fresh (d : C) : lock ∉ (m.cpus d).locks := fun member => by
      have held := (owned.holder lock d).mpr member
      rw [show m.holder lock = none from grants] at held
      cases held
    refine ⟨fun lock' d => ?_, fun d => ?_⟩
    · simp only [locks, holderAfter, locksAfter]
      by_cases same : lock' = lock
      · subst same
        by_cases here : d = c
        · simp [here]
        · simpa [here, fresh d] using Ne.symm here
      · by_cases here : d = c <;> simp [here, same, owned.holder]
    · simp only [locks, locksAfter]
      by_cases here : d = c
      · simpa [here] using ⟨fresh c, owned.once c⟩
      · simpa [here] using owned.once d
  | osReleaseSpinlock lock =>
    have held : lock ∈ (m.cpus c).locks := by
      obtain ⟨-, moved⟩ := Option.ite_none_right_eq_some.mp moved
      obtain ⟨oldIrql, found, -⟩ := Option.map_eq_some_iff.mp moved
      exact List.mem_map_of_mem (f := Prod.fst) (mem_of_lookup found)
    refine ⟨fun lock' d => ?_, fun d => ?_⟩
    · simp only [locks, holderAfter, locksAfter]
      by_cases same : lock' = lock
      · subst same
        by_cases here : d = c
        · simp [here, (owned.once c).mem_erase_iff]
        · have other : m.holder lock' ≠ some d := fun same => by
            rw [(owned.holder lock' c).mpr held] at same
            exact here (Option.some.inj same).symm
          simpa [here, owned.holder] using other
      · by_cases here : d = c <;> simp [here, same, owned.holder, List.mem_erase_of_ne]
    · simp only [locks, locksAfter]
      by_cases here : d = c
      · simpa [here] using (owned.once c).erase lock
      · simpa [here] using owned.once d
  | _ =>
    have unchanged (d : C) : (Function.update m.cpus c cpu d).locks = (m.cpus d).locks := by
      rw [locks]
      split
      · rename_i here
        rw [here]
        rfl
      · rfl
    exact ⟨fun lock' d => by rw [unchanged]; exact owned.holder lock' d,
      fun d => by rw [unchanged]; exact owned.once d⟩

omit [DecidableEq L] [DecidableEq C] in
theorem Sound.masked (sound : m.Sound base) (owned : m.Owned) : m.Masked base where
  owned := owned
  sleeps c enabled := (sound c).quiet enabled
  heap c inHeap := (sound c).enabled_of_inHeap inHeap
  handler c := (sound c).interrupted
  restored c idle alone := by rw [osIsIsr, (sound c).restored idle alone]

end Machine

theorem masked_of_releasesLast (run : (spinning base).Run past m)
    (every : Every ReleasesLast past) : m.Masked base := by
  have both : m.Sound base ∧ m.Owned := by
    refine run.invariant_of_every (P := fun m => m.Sound base ∧ m.Owned) every
      (fun m initial => ⟨Machine.sound_of_start initial, Machine.owned_of_start initial⟩) ?_
    rintro m ⟨c, move⟩ m' ⟨sound, owned⟩ last taken
    exact ⟨sound.step last taken, owned.step sound taken⟩
  exact both.1.masked both.2

/-- Two locks, released the other way round; then an interrupt comes while `Maintain` is in the
heap, and its handler takes a lock. -/
def releasedLast : List (Bool × SpinMove Bool) :=
  [(true, .osAcquireSpinlock false), (true, .acquired false), (true, .osAcquireSpinlock true),
    (true, .acquired true), (true, .osReleaseSpinlock true), (true, .osReleaseSpinlock false),
    (true, .maintain false), (true, .maintain true), (true, .interrupt),
    (true, .osAcquireSpinlock true), (true, .acquired true)]

theorem masked_releasedLast : ∃ past m, (spinning fun _ => true).Run past m ∧
    m.holder true = some true ∧
    (m.cpus true).interrupted = [⟨.maintain (.window true), []⟩] ∧ m.Masked fun _ => true := by
  have run := (Run.start (T := spinning fun _ : Bool => true) rfl).play releasedLast (by decide)
  exact ⟨_, _, run, by decide, by decide, masked_of_releasesLast run (by decide)⟩

end NvidiaHaiku.Os

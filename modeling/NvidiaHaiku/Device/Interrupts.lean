/-
# Interrupts on a device that is being stopped

An interrupt enters `InterruptHandlerInt`, which calls `rm_isr` and, if asked to,
queues `fDeferredInterruptHandler`, whose `DoDPC` calls `rm_isr_bh`. `Stop` shuts
the adapter down first, removes the handler after that, and does not cancel what
is queued. So interrupt work that is under way when the adapter is shut down, or
that starts before the handler is removed, runs on a device that is stopped.

This module takes `Start` and `Stop` statement by statement. Of Haiku it assumes
that a callback in a DPC queue stays there until it is run, and that no invocation
of the handler starts after `remove_io_interrupt_handler` has returned; an earlier
one may still be in progress then.
-/

import Mathlib.Logic.Function.Iterate
import NvidiaHaiku.Device.Hardware
import NvidiaHaiku.Math.Transition

namespace NvidiaHaiku.Device.Interrupts

open NvidiaHaiku.Math TransitionSystem

/-- Where the thread is that starts and stops the device: the statement it is about
to execute. -/
inductive Pc
  | idle
  -- `Start`
  | writeCommand
  | getMsiCount
  | configureMsi
  | enableMsi
  | installHandler
  | initAdapter
  | setInitHardware
  -- `Stop`
  | shutdownAdapter
  | clearInitHardware
  | removeHandler
  | disableMsi
  | unconfigureMsi
  | clearBusMaster
  deriving DecidableEq, Repr

/-- One statement of `Start` or `Stop`, with the one to execute next. -/
def statement (answers : Answers) : NvHaikuDevice × Pc → NvHaikuDevice × Pc
  | (d, .idle) => (d, .idle)
  | (d, .writeCommand) =>
    ({ d with
      command := d.command ||| (PCI_command_io ||| PCI_command_memory ||| PCI_command_master) },
      .getMsiCount)
  | (d, .getMsiCount) => if answers.msiCount < 1 then (d, .idle) else (d, .configureMsi)
  | (d, .configureMsi) => ({ d with fIrq := answers.irq, msiConfigured := true }, .enableMsi)
  | (d, .enableMsi) => ({ d with msiEnabled := true }, .installHandler)
  | (d, .installHandler) => ({ d with handlers := d.fIrq ::ₘ d.handlers }, .initAdapter)
  | (d, .initAdapter) => if !answers.initAdapter then (d, .idle) else (d, .setInitHardware)
  | (d, .setInitHardware) => ({ d with fInitHardware := true }, .idle)
  -- `rm_shutdown_adapter` does not change what is recorded of the device here
  | (d, .shutdownAdapter) =>
    if d.fInitHardware then (d, .clearInitHardware) else (d, .removeHandler)
  | (d, .clearInitHardware) => ({ d with fInitHardware := false }, .removeHandler)
  | (d, .removeHandler) =>
    if d.fIrq ≠ 0 then ({ d with handlers := d.handlers.erase d.fIrq }, .disableMsi)
    else (d, .clearBusMaster)
  | (d, .disableMsi) => ({ d with msiEnabled := false }, .unconfigureMsi)
  | (d, .unconfigureMsi) => ({ d with msiConfigured := false }, .clearBusMaster)
  | (d, .clearBusMaster) => ({ d with command := d.command &&& ~~~PCI_command_master }, .idle)

/-- The statements of `Start`, one after another, are `Start`. -/
theorem statements_start (d : NvHaikuDevice) (answers : Answers) :
    (statement answers)^[7] (d, .writeCommand) = ((d.start answers).1, .idle) := by
  unfold NvHaikuDevice.start
  by_cases few : answers.msiCount < 1
  · simp [Function.iterate_succ_apply, statement, few]
  · cases adapter : answers.initAdapter <;>
      simp [Function.iterate_succ_apply, statement, few, adapter]

/-- The statements of `Stop`, one after another, are `Stop`. -/
theorem statements_stop (d : NvHaikuDevice) (answers : Answers) :
    (statement answers)^[6] (d, .shutdownAdapter) = (d.stop, .idle) := by
  unfold NvHaikuDevice.stop
  by_cases irq : d.fIrq = 0
  · cases init : d.fInitHardware <;>
      simp [Function.iterate_succ_apply, statement, init, irq]
  · have recorded : ¬ d.fIrq = 0#32 := irq
    cases init : d.fInitHardware <;>
      simp [Function.iterate_succ_apply, statement, init, recorded]

/-- A device with the thread that starts and stops it, and the interrupt work under way. -/
structure State where
  device : NvHaikuDevice := {}
  pc : Pc := .idle
  /-- `rm_shutdown_adapter` has been executed, and no `Start` has begun since. -/
  down : Bool := false
  /-- The invocations of the handler that have not called `rm_isr`. -/
  entered : ℕ := 0
  /-- The invocations that have been asked for a bottom half and have not queued it. -/
  adding : ℕ := 0
  /-- `fDeferredInterruptHandler` is in the DPC queue. -/
  queued : Bool := false
  /-- `DoDPC` is running, and has not called `rm_isr_bh`. -/
  running : Bool := false

/-- A step of the thread, of the interrupt handler or of the DPC thread. -/
inductive Action
  | start
  | stop
  /-- The thread executes its statement. -/
  | statement (answers : Answers)
  /-- An interrupt enters the handler. -/
  | interrupt
  /-- `InterruptHandlerInt` calls `rm_isr`. -/
  | isr (handled needBottomHalf : Bool)
  | add
  /-- The DPC queue takes the callback and enters `DoDPC`. -/
  | dequeue
  /-- `DoDPC` calls `rm_isr_bh`. -/
  | bottomHalf
  deriving DecidableEq, Repr

namespace State

/-- The thread is about to execute `rm_shutdown_adapter`. -/
def shutsDown (s : State) : Bool := s.pc = .shutdownAdapter && s.device.fInitHardware

/-- One step. An interrupt comes only while a handler is installed, and may come between any two
statements of the thread. -/
def step (s : State) : Action → Option State
  | .start => if s.pc = .idle then some { s with pc := .writeCommand, down := false } else none
  | .stop => if s.pc = .idle then some { s with pc := .shutdownAdapter } else none
  | .statement answers =>
    if s.pc ≠ .idle then
      let (device, pc) := Interrupts.statement answers (s.device, s.pc)
      some { s with device := device, pc := pc, down := s.down || s.shutsDown }
    else none
  | .interrupt =>
    if s.device.handlers ≠ 0 then some { s with entered := s.entered + 1 } else none
  | .isr handled needBottomHalf =>
    if 0 < s.entered then
      some { s with
        entered := s.entered - 1
        adding := if handled && needBottomHalf then s.adding + 1 else s.adding }
    else none
  | .add =>
    if 0 < s.adding then some { s with adding := s.adding - 1, queued := true } else none
  | .dequeue =>
    if s.queued && !s.running then some { s with queued := false, running := true } else none
  | .bottomHalf => if s.running then some { s with running := false } else none

/-- No interrupt work is under way. -/
structure Quiet (s : State) : Prop where
  entered : s.entered = 0
  adding : s.adding = 0
  queued : s.queued = false
  running : s.running = false

end State

/-- One device, with the thread that starts and stops it, its interrupts and the DPC queue.
It is found as `d`, with none of its interrupt work under way. -/
def interrupts (d : NvHaikuDevice) : TransitionSystem State Action :=
  .ofStep (· = { device := d }) State.step

/-- The event calls `rm_isr` or `rm_isr_bh`. -/
def CallsRm (e : Event State Action) : Prop :=
  (∃ handled needBottomHalf, e.action = .isr handled needBottomHalf) ∨ e.action = .bottomHalf

/-- The event does not call into the RM for a device that is shut down. -/
def NotWhenDown (e : Event State Action) : Prop := e.source.down = true → ¬ CallsRm e

/-- The adapter is only shut down while no interrupt work is under way, and no interrupt
enters the handler from then on until the next `Start`. -/
def Undisturbed (e : Event State Action) : Prop :=
  ((∃ answers, e.action = .statement answers) → e.source.shutsDown = true → e.source.Quiet) ∧
    (e.action = .interrupt → e.source.down = false)

variable {d : NvHaikuDevice} {s t : State} {a : Action}

/-- On a device that is shut down, no interrupt work is under way. -/
def QuietWhenDown (s : State) : Prop := s.down = true → s.Quiet

theorem QuietWhenDown.step (held : QuietWhenDown s) (taken : s.step a = some t)
    (undisturbed : Undisturbed ⟨s, a, t⟩) : QuietWhenDown t := by
  intro down
  cases a with
  | start =>
    obtain ⟨-, rfl⟩ := of_guarded taken
    simp at down
  | stop =>
    obtain ⟨-, rfl⟩ := of_guarded taken
    obtain ⟨entered, adding, queued, running⟩ := held down
    exact ⟨entered, adding, queued, running⟩
  | statement answers =>
    obtain ⟨-, rfl⟩ := of_guarded taken
    -- the device was down already, or is shut down by this statement
    have quiet : s.Quiet := by
      rcases Bool.or_eq_true_iff.mp down with before | shuts
      · exact held before
      · exact undisturbed.1 ⟨answers, rfl⟩ shuts
    exact ⟨quiet.entered, quiet.adding, quiet.queued, quiet.running⟩
  | interrupt =>
    obtain ⟨-, rfl⟩ := of_guarded taken
    exact absurd (undisturbed.2 rfl) (by simpa using down)
  | isr handled needBottomHalf =>
    obtain ⟨some_, rfl⟩ := of_guarded taken
    exact absurd (held down).entered some_.ne'
  | add =>
    obtain ⟨some_, rfl⟩ := of_guarded taken
    exact absurd (held down).adding some_.ne'
  | dequeue =>
    obtain ⟨guard, rfl⟩ := of_guarded taken
    simp [(held down).queued] at guard
  | bottomHalf =>
    obtain ⟨some_, rfl⟩ := of_guarded taken
    simp [(held down).running] at some_

theorem QuietWhenDown.notWhenDown (held : QuietWhenDown s) (taken : s.step a = some t) :
    NotWhenDown ⟨s, a, t⟩ := by
  intro down calls
  obtain ⟨handled, needBottomHalf, rfl⟩ | rfl := calls
  · exact absurd (held down).entered (Option.ite_none_right_eq_some.mp taken).1.ne'
  · exact absurd (held down).running (by simp [(Option.ite_none_right_eq_some.mp taken).1])

/-! ## The condition is needed -/

/-- What has entered the handler or the queue goes on undisturbed. -/
theorem undisturbed_of_other (statement : ∀ answers, a ≠ .statement answers)
    (interrupt : a ≠ .interrupt) : Undisturbed ⟨s, a, t⟩ :=
  ⟨fun ⟨answers, same⟩ => absurd same (statement answers), fun same => absurd same interrupt⟩

theorem canBreak_of_running (down : s.down = true) (running : s.running = true) :
    (interrupts d).CanBreak Undisturbed NotWhenDown s := by
  have taken : (interrupts d).step s .bottomHalf { s with running := false } := if_pos running
  refine .now taken (undisturbed_of_other (by simp) (by simp)) fun meets => ?_
  exact meets down (Or.inr rfl)

theorem canBreak_of_queued (down : s.down = true) (queued : s.queued = true) :
    (interrupts d).CanBreak Undisturbed NotWhenDown s := by
  cases running : s.running with
  | true => exact canBreak_of_running down running
  | false =>
    have taken : (interrupts d).step s .dequeue { s with queued := false, running := true } :=
      if_pos (by simp [queued, running])
    exact .of_step taken (undisturbed_of_other (by simp) (by simp)) (canBreak_of_running down rfl)

/-- Interrupt work that is under way when the device is down gets to the RM. -/
theorem canBreak_of_not_quiet (down : s.down = true) (busy : ¬ s.Quiet) :
    (interrupts d).CanBreak Undisturbed NotWhenDown s := by
  by_cases entered : s.entered = 0
  · by_cases adding : s.adding = 0
    · cases queued : s.queued with
      | true => exact canBreak_of_queued down queued
      | false =>
        cases running : s.running with
        | true => exact canBreak_of_running down running
        | false => exact absurd ⟨entered, adding, queued, running⟩ busy
    · -- the invocation queues its bottom half
      have taken : (interrupts d).step s .add { s with adding := s.adding - 1, queued := true } :=
        if_pos (Nat.pos_of_ne_zero adding)
      exact .of_step taken (undisturbed_of_other (by simp) (by simp)) (canBreak_of_queued down rfl)
  · have taken : (interrupts d).step s (.isr false false) { s with entered := s.entered - 1 } :=
      if_pos (Nat.pos_of_ne_zero entered)
    refine .now taken (undisturbed_of_other (by simp) (by simp)) fun meets => ?_
    exact meets down (Or.inl ⟨false, false, rfl⟩)

/-- Stopping over whole runs, whatever condition the device is found in. No call into the
RM for a device that is shut down happens as long as nothing disturbs the stop; and
after whatever disturbs it first such a call can follow, with nothing else disturbing it. -/
theorem notWhenDown_exactlyWhen_undisturbed (d : NvHaikuDevice) :
    (interrupts d).SafeExactlyWhen Undisturbed NotWhenDown := by
  apply SafeExactlyWhen.of_invariant (P := QuietWhenDown)
  · intro s first down
    rw [show s = { device := d } from first] at down
    exact nomatch down
  · intro s a t held taken undisturbed
    exact ⟨held.step taken undisturbed, held.notWhenDown taken⟩
  · intro s a t held taken disturbed
    -- after the disturbing step the device is down with interrupt work under way
    suffices busy : t.down = true ∧ ¬ t.Quiet from
      Or.inr (canBreak_of_not_quiet busy.1 busy.2)
    rcases not_and_or.mp disturbed with shutdown | entry
    · simp only [Classical.not_imp] at shutdown
      obtain ⟨⟨answers, rfl⟩, shuts, busy⟩ := shutdown
      obtain ⟨-, rfl⟩ := of_guarded taken
      refine ⟨Bool.or_eq_true_iff.mpr (Or.inr shuts), fun quiet => busy ?_⟩
      exact ⟨quiet.entered, quiet.adding, quiet.queued, quiet.running⟩
    · simp only [Classical.not_imp, Bool.not_eq_false] at entry
      obtain ⟨rfl, down⟩ := entry
      obtain ⟨-, rfl⟩ := of_guarded taken
      exact ⟨down, fun quiet => absurd quiet.entered (Nat.succ_ne_zero _)⟩

/-- An interrupt asks for a bottom half, the device is stopped, and then the DPC queue
runs `fDeferredInterruptHandler`. -/
theorem bottomHalf_when_down : ∃ past s, (interrupts {}).Run past s ∧
    s.pc = .idle ∧ s.down = true ∧ ¬ Every NotWhenDown past := by
  have run := (Run.start (T := interrupts {}) rfl).play
    ([.start] ++ List.replicate 7 (.statement ⟨1, 24, true⟩) ++
      [.interrupt, .isr true true, .add, .stop] ++
      List.replicate 6 (.statement ⟨1, 24, true⟩) ++ [.dequeue, .bottomHalf]) rfl
  exact ⟨_, _, run, rfl, rfl, fun every => (every _ (.head _)) rfl (Or.inr rfl)⟩

end NvidiaHaiku.Device.Interrupts

/-
# Balance of the hardware resources

One thread opens and closes the device in any order. The resources are balanced
when a device without references holds none of them, and a device with references
has its interrupt handler installed once.

A failing `Start` breaks the balance at once: the bus-master bit stays set on both
failure exits, and on the second one MSI stays enabled and the handler installed. So
does a `Stop` that finds no interrupt vector recorded, and a wrap of the open count.
The runs that keep the balance are exactly those without any of these.
-/

import NvidiaHaiku.Device.Hardware
import NvidiaHaiku.Math.Transition

namespace NvidiaHaiku.Device

open NvidiaHaiku.Math TransitionSystem

/-- A device with the number of references its users hold. -/
structure Users where
  device : NvHaikuDevice
  refs : ℕ := 0

/-- A call of a user. -/
inductive Use
  | acquireRef (answers : Answers)
  | releaseRef
  deriving DecidableEq, Repr

/-- One call; each `ReleaseRef` matches an earlier successful `AcquireRef`. -/
def Users.step (s : Users) : Use → Option Users
  | .acquireRef answers =>
    some {
      device := (s.device.acquireRef answers).1
      refs := if (s.device.acquireRef answers).2 = .ok then s.refs + 1 else s.refs }
  | .releaseRef =>
    if 0 < s.refs then some { device := s.device.releaseRef, refs := s.refs - 1 } else none

variable {s t : Users} {a : Use} {past : List (Event Users Use)}

/-- No resource is held. -/
structure NvHaikuDevice.Released (d : NvHaikuDevice) : Prop where
  handlers : d.handlers = 0
  msiEnabled : d.msiEnabled = false
  msiConfigured : d.msiConfigured = false
  busMaster : d.busMaster = false

/-- The resources agree with the open count. -/
structure NvHaikuDevice.Balanced (d : NvHaikuDevice) : Prop where
  released : d.fOpenCount = 0 → d.Released
  held : 0 < d.fOpenCount.toInt → d.handlers.card = 1

/-- A device that nobody has opened yet, and that holds no resource. -/
def Users.Fresh (s : Users) : Prop :=
  s.device.fOpenCount = 0 ∧ s.refs = 0 ∧ s.device.Released

/-- A device whose users call it one after the other. -/
def sequential : TransitionSystem Users Use := .ofStep Users.Fresh Users.step

/-- The condition under which a call keeps the balance. -/
def Keeps (s : Users) : Use → Prop
  | .acquireRef answers =>
    if s.device.fOpenCount = 0 then answers.good = true else s.device.fOpenCount ≠ -1
  | .releaseRef => s.device.fOpenCount = 1 → s.device.fIrq ≠ 0

instance : (a : Use) → Decidable (Keeps s a)
  | .acquireRef answers => inferInstanceAs (Decidable
      (if s.device.fOpenCount = 0 then answers.good = true else s.device.fOpenCount ≠ -1))
  | .releaseRef => inferInstanceAs (Decidable (s.device.fOpenCount = 1 → s.device.fIrq ≠ 0))

/-- What holds as long as every call keeps the balance. -/
structure Users.Steady (s : Users) : Prop where
  count : s.device.fOpenCount.toNat = s.refs
  released : s.refs = 0 → s.device.Released
  held : 0 < s.refs → s.device.handlers = {s.device.fIrq}

theorem Users.Fresh.steady (fresh : s.Fresh) : s.Steady := by
  obtain ⟨count, refs, released⟩ := fresh
  exact ⟨by simp [count, refs], fun _ => released, fun held => by omega⟩

theorem Users.Steady.balanced (steady : s.Steady) : s.device.Balanced := by
  obtain ⟨count, released, held⟩ := steady
  refine ⟨fun zero => released ?_, fun positive => ?_⟩
  · rw [← count, zero]
    rfl
  · have open_ : 0 < s.refs := by
      rw [← count]
      apply Nat.pos_of_ne_zero
      intro zero
      rw [BitVec.eq_of_toNat_eq (y := 0) zero] at positive
      exact absurd positive (by decide)
    rw [held open_, Multiset.card_singleton]

theorem Users.Steady.step (steady : s.Steady) (taken : s.step a = some t) (keeps : Keeps s a) :
    t.Steady := by
  obtain ⟨count, released, held⟩ := steady
  cases a with
  | acquireRef answers =>
    obtain rfl := Option.some.inj taken
    by_cases closed : s.device.fOpenCount = 0
    · -- the first reference
      rw [Keeps, if_pos closed] at keeps
      have none : s.refs = 0 := by rw [← count, closed]; rfl
      obtain ⟨status, one, irq, handlers⟩ :=
        NvHaikuDevice.acquireRef_of_good (d := s.device) closed keeps
      refine ⟨?_, fun zero => ?_, fun _ => ?_⟩
      · simp [status, one, none]
      · simp [status] at zero
      · simp [handlers, irq, (released none).handlers]
    · rw [Keeps, if_neg closed] at keeps
      rw [NvHaikuDevice.acquireRef_of_open closed]
      refine ⟨?_, fun zero => ?_, fun _ => held (Nat.pos_of_ne_zero fun zero => closed ?_)⟩
      · -- the count stays that of the references because it does not wrap
        simp only [if_true]
        bv_omega
      · simp at zero
      · exact BitVec.eq_of_toNat_eq (count.trans zero)
  | releaseRef =>
    obtain ⟨open_, rfl⟩ := of_guarded taken
    by_cases last : s.device.fOpenCount = 1
    · -- the last reference
      have one : s.refs = 1 := by rw [← count, last]; rfl
      rw [NvHaikuDevice.releaseRef_of_last last]
      obtain ⟨handlers, enabled, configured⟩ := NvHaikuDevice.stop_of_irq
        (d := { s.device with fOpenCount := s.device.fOpenCount - 1 }) (keeps last)
      refine ⟨by simp [last, one], fun _ => ⟨?_, enabled, configured, by simp⟩, fun more => ?_⟩
      · rw [handlers, held open_, Multiset.erase_singleton]
      · simp [one] at more
    · rw [NvHaikuDevice.releaseRef_of_shared last]
      refine ⟨?_, fun zero => ?_, fun _ => held open_⟩
      · show (s.device.fOpenCount - 1).toNat = s.refs - 1
        bv_omega
      · refine absurd (BitVec.eq_of_toNat_eq ?_) last
        simp only at zero
        simp [count]
        omega

theorem Users.Steady.unbalanced (steady : s.Steady) (taken : s.step a = some t)
    (fails : ¬ Keeps s a) : ¬ t.device.Balanced := by
  obtain ⟨count, released, held⟩ := steady
  cases a with
  | acquireRef answers =>
    obtain rfl := Option.some.inj taken
    by_cases closed : s.device.fOpenCount = 0
    · -- `Start` fails
      rw [Keeps, if_pos closed, Bool.not_eq_true] at fails
      obtain ⟨zero, master⟩ := NvHaikuDevice.acquireRef_of_not_good closed fails
      exact fun balanced => Bool.eq_false_iff.mp (balanced.released zero).busMaster master
    · -- the count wraps while the handler is installed
      rw [Keeps, if_neg closed, not_not] at fails
      have open_ : 0 < s.refs := by rw [← count, fails]; decide
      rw [NvHaikuDevice.acquireRef_of_open closed]
      intro balanced
      have handlers := (balanced.released (by simp [fails])).handlers
      simp [held open_] at handlers
  | releaseRef =>
    obtain ⟨open_, rfl⟩ := of_guarded taken
    -- `Stop` finds no vector recorded, and the handler stays installed
    obtain ⟨last, irq⟩ := Classical.not_imp.mp fails
    rw [NvHaikuDevice.releaseRef_of_last last]
    intro balanced
    have handlers := (balanced.released (by simp [last])).handlers
    have kept := NvHaikuDevice.stop_of_no_irq
      (d := { s.device with fOpenCount := s.device.fOpenCount - 1 }) (not_not.mp irq)
    rw [kept] at handlers
    simp [held open_] at handlers

/-- Balance over whole runs: the resources are balanced after every call just when
every `Start` succeeded and recorded an interrupt vector that its `Stop` found, and
the count never wrapped. -/
theorem balanced_iff (run : sequential.Run past s) :
    Every (fun e => e.target.device.Balanced) past ↔
      Every (fun e => Keeps e.source e.action) past :=
  run.every_iff (P := Users.Steady) (fun _ fresh => fresh.steady)
    (fun _ _ _ steady taken keeps =>
      have steady := steady.step taken keeps
      ⟨steady, steady.balanced⟩)
    fun _ _ _ steady taken fails => steady.unbalanced taken fails

theorem fresh_default : sequential.start { device := {} } :=
  ⟨rfl, rfl, rfl, rfl, rfl, by decide⟩

/-- The device is opened twice and closed twice. -/
theorem balanced_reopened : ∃ past s, sequential.Run past s ∧
    Every (fun e => e.target.device.Balanced) past := by
  have run := (Run.start fresh_default).play [.acquireRef ⟨1, 24, true⟩,
    .acquireRef ⟨1, 24, true⟩, .releaseRef, .releaseRef] rfl
  exact ⟨_, _, run, (balanced_iff run).mpr (by decide)⟩

/-- `rm_init_adapter` fails. The open count is back to 0, and the handler stays
installed and the bus-master bit set. -/
theorem not_balanced_failed : ∃ past s, sequential.Run past s ∧
    s.device.fOpenCount = 0 ∧ s.device.handlers = {24} ∧ s.device.busMaster = true ∧
      ¬ Every (fun e => e.target.device.Balanced) past := by
  have run := (Run.start fresh_default).play [.acquireRef ⟨1, 24, false⟩] rfl
  refine ⟨_, _, run, by decide, by decide, by decide, fun every => ?_⟩
  have balanced := every _ (.head _)
  exact absurd (balanced.released (by decide)).busMaster (by decide)

end NvidiaHaiku.Device

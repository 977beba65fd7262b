/-
# The device and its hardware resources

`Start` and `Stop` of an `NvHaikuDevice` acquire and release four resources: the
bus-master bit of the PCI command register, the MSI configuration, the interrupt
handler and the adapter. This module is the two functions and what they do to
each resource. `Start` has two failure exits, and neither gives back what has
been acquired by then.

The PCI bus manager and the interrupt code of Haiku do what they are asked to.
What they answer is given to `Start`: the MSI count, the interrupt vector that
`configure_msi` stores, and whether `rm_init_adapter` succeeds.
-/

import Mathlib.Data.Multiset.AddSub

namespace NvidiaHaiku.Device

/-- The results of `Start` and `AcquireRef`: `B_OK`, `B_ERROR` and `B_IO_ERROR`. -/
inductive Status
  | ok
  | error
  | ioError
  deriving DecidableEq, Repr

abbrev Irq := BitVec 32

/-- `PCI_command_io`, `PCI_command_memory` and `PCI_command_master`. -/
def PCI_command_io : BitVec 32 := 0x001
def PCI_command_memory : BitVec 32 := 0x002
def PCI_command_master : BitVec 32 := 0x004

/-- The fields of `NvHaikuDevice` with the state of its hardware. -/
structure NvHaikuDevice where
  /-- The `int32` of the atomic counter. -/
  fOpenCount : BitVec 32 := 0
  fInitHardware : Bool := false
  fIrq : Irq := 0
  /-- The PCI command register. -/
  command : BitVec 32 := 0
  msiConfigured : Bool := false
  msiEnabled : Bool := false
  /-- The vectors `InterruptHandler` is installed for. -/
  handlers : Multiset Irq := 0

/-- What `Start` is answered. -/
structure Answers where
  msiCount : ℕ
  irq : Irq
  initAdapter : Bool
  deriving DecidableEq, Repr

/-- Both calls of `Start` that it checks succeed. -/
def Answers.good (answers : Answers) : Bool := 1 ≤ answers.msiCount && answers.initAdapter

namespace NvHaikuDevice

/-- The bus-master bit of the PCI command register. -/
def busMaster (d : NvHaikuDevice) : Bool := d.command.getLsbD 2

/-- `NvHaikuDevice::Start`. -/
def start (d : NvHaikuDevice) (answers : Answers) : NvHaikuDevice × Status :=
  let d := { d with
    command := d.command ||| (PCI_command_io ||| PCI_command_memory ||| PCI_command_master) }
  -- both failure exits return with what has been acquired by then
  if answers.msiCount < 1 then (d, .error)
  else
    let d := { d with fIrq := answers.irq, msiConfigured := true }
    let d := { d with msiEnabled := true }
    let d := { d with handlers := d.fIrq ::ₘ d.handlers }
    if !answers.initAdapter then (d, .ioError) else ({ d with fInitHardware := true }, .ok)

/-- `NvHaikuDevice::Stop`. -/
def stop (d : NvHaikuDevice) : NvHaikuDevice :=
  let d := if d.fInitHardware then { d with fInitHardware := false } else d
  -- a recorded vector of zero counts as none
  let d :=
    if d.fIrq ≠ 0 then
      { d with
        handlers := d.handlers.erase d.fIrq, msiEnabled := false, msiConfigured := false }
    else d
  { d with command := d.command &&& ~~~PCI_command_master }

/-- `NvHaikuDevice::AcquireRef`, when nobody comes in between. -/
def acquireRef (d : NvHaikuDevice) (answers : Answers) : NvHaikuDevice × Status :=
  let opened := { d with fOpenCount := d.fOpenCount + 1 }
  if d.fOpenCount = 0 then
    let (started, res) := opened.start answers
    -- `Stop` is not called after a failure
    if res ≠ .ok then ({ started with fOpenCount := started.fOpenCount - 1 }, res)
    else (started, .ok)
  else (opened, .ok)

/-- `NvHaikuDevice::ReleaseRef`, when nobody comes in between. -/
def releaseRef (d : NvHaikuDevice) : NvHaikuDevice :=
  let closed := { d with fOpenCount := d.fOpenCount - 1 }
  if d.fOpenCount = 1 then closed.stop else closed

variable {d : NvHaikuDevice} {answers : Answers}

/-! ## `Start` and `Stop`, resource by resource -/

@[simp] theorem start_fOpenCount : (d.start answers).1.fOpenCount = d.fOpenCount := by
  unfold start
  dsimp only
  split
  · rfl
  · split <;> rfl

@[simp] theorem start_busMaster : (d.start answers).1.busMaster = true := by
  have set : (d.command |||
      (PCI_command_io ||| PCI_command_memory ||| PCI_command_master)).getLsbD 2 = true := by
    rw [BitVec.getLsbD_or, Bool.or_eq_true]
    exact Or.inr (by decide)
  unfold start busMaster
  dsimp only
  -- the bit is set before the first exit and not changed after it
  split
  · exact set
  · split <;> exact set

/-- `Start` succeeds if both calls that it checks do. -/
@[simp] theorem start_status : (d.start answers).2 = .ok ↔ answers.good = true := by
  unfold start Answers.good
  dsimp only
  split
  · simp; omega
  · cases answers.initAdapter <;> simp; omega

/-- A successful `Start` has acquired everything. -/
theorem start_of_good (good : answers.good = true) :
    (d.start answers).1.fInitHardware = true ∧ (d.start answers).1.fIrq = answers.irq ∧
      (d.start answers).1.handlers = answers.irq ::ₘ d.handlers := by
  obtain ⟨count, adapter⟩ := Bool.and_eq_true_iff.mp good
  have enough : ¬ answers.msiCount < 1 := not_lt.mpr (by simpa using count)
  simp [start, enough, adapter]

@[simp] theorem stop_fOpenCount : d.stop.fOpenCount = d.fOpenCount := by
  unfold stop
  dsimp only
  split <;> split <;> rfl

@[simp] theorem stop_busMaster : d.stop.busMaster = false := by
  unfold stop busMaster
  dsimp only
  rw [BitVec.getLsbD_and, Bool.and_eq_false_iff]
  exact Or.inr (by decide)

/-- `Stop` gives back MSI and the handler if an interrupt vector is recorded. -/
theorem stop_of_irq (irq : d.fIrq ≠ 0) :
    d.stop.handlers = d.handlers.erase d.fIrq ∧ d.stop.msiEnabled = false ∧
      d.stop.msiConfigured = false := by
  have recorded : ¬ d.fIrq = 0#32 := irq
  cases init : d.fInitHardware <;> simp [stop, init, recorded]

/-- `Stop` leaves MSI and the handler alone if none is recorded. -/
theorem stop_of_no_irq (irq : d.fIrq = 0) : d.stop.handlers = d.handlers := by
  have unrecorded : d.fIrq = 0#32 := irq
  cases init : d.fInitHardware <;> simp [stop, init, unrecorded]

/-! ## `AcquireRef` and `ReleaseRef` -/

/-- A first `AcquireRef` whose `Start` succeeds. -/
theorem acquireRef_of_good (closed : d.fOpenCount = 0) (good : answers.good = true) :
    (d.acquireRef answers).2 = .ok ∧ (d.acquireRef answers).1.fOpenCount = 1 ∧
      (d.acquireRef answers).1.fIrq = answers.irq ∧
      (d.acquireRef answers).1.handlers = answers.irq ::ₘ d.handlers := by
  have status := start_status (d := { d with fOpenCount := d.fOpenCount + 1 }).mpr good
  have acquired : d.acquireRef answers =
      (({ d with fOpenCount := d.fOpenCount + 1 }.start answers).1, .ok) := by
    unfold acquireRef
    rw [if_pos closed]
    exact if_neg (not_not.mpr status)
  obtain ⟨-, irq, handlers⟩ := start_of_good (d := { d with fOpenCount := d.fOpenCount + 1 }) good
  rw [acquired]
  exact ⟨rfl, by simp [closed], irq, handlers⟩

/-- A first `AcquireRef` whose `Start` fails leaves the bus-master bit set. -/
theorem acquireRef_of_not_good (closed : d.fOpenCount = 0) (fails : answers.good = false) :
    (d.acquireRef answers).1.fOpenCount = 0 ∧ (d.acquireRef answers).1.busMaster = true := by
  have status : ({ d with fOpenCount := d.fOpenCount + 1 }.start answers).2 ≠ .ok := by
    rw [Ne, start_status, fails]
    exact Bool.false_ne_true
  unfold acquireRef
  rw [if_pos closed]
  dsimp only
  rw [if_pos status]
  exact ⟨by simp [closed], start_busMaster⟩

theorem acquireRef_of_open (opened : d.fOpenCount ≠ 0) :
    d.acquireRef answers = ({ d with fOpenCount := d.fOpenCount + 1 }, .ok) := if_neg opened

theorem releaseRef_of_last (last : d.fOpenCount = 1) :
    d.releaseRef = { d with fOpenCount := d.fOpenCount - 1 }.stop := if_pos last

theorem releaseRef_of_shared (shared : d.fOpenCount ≠ 1) :
    d.releaseRef = { d with fOpenCount := d.fOpenCount - 1 } := if_neg shared

end NvHaikuDevice

end NvidiaHaiku.Device

/-
# Device handles and GPU references

A GPU is referenced in two ways. Opening its `/dev` entry makes a handle, which gives up
its reference when it is closed. `nvidia_module_open_gpu` and `nvidia_module_close_gpu` do
the same for a `gpu_id`, and look for the first device that has it. Both ways end in
`AcquireRef` and `ReleaseRef` of one counter for each device.

The calls do not overlap here. The counter is that of both kinds of references, as long as
it does not wrap: it is an `int32`, and with 2^31 references it is negative.
-/

import Mathlib.Algebra.Group.Nat.Defs
import Mathlib.Data.List.FinRange
import NvidiaHaiku.Device.Hardware
import NvidiaHaiku.Math.Transition

namespace NvidiaHaiku.Device

open NvidiaHaiku.Math TransitionSystem

/-! ## One device -/

namespace NvHaikuDevice

variable {d : NvHaikuDevice} {answers : Answers} {refs : ℕ}

theorem start_fInitHardware :
    (d.start answers).1.fInitHardware = (d.fInitHardware || answers.good) := by
  unfold start Answers.good
  dsimp only
  split
  · rename_i few
    simp [few]
  · rename_i enough
    have one : 1 ≤ answers.msiCount := not_lt.mp enough
    cases adapter : answers.initAdapter <;> simp [one]

theorem stop_fInitHardware : d.stop.fInitHardware = false := by
  unfold stop
  dsimp only
  cases init : d.fInitHardware <;> simp [init] <;> split <;> simp [init]

/-- The first `AcquireRef` starts the device if `Start` succeeds, and fails otherwise. -/
theorem acquireRef_of_closed (answers : Answers) (closed : d.fOpenCount = 0) :
    (d.acquireRef answers).1.fInitHardware = (d.fInitHardware || answers.good) ∧
      ((d.acquireRef answers).2 = .ok ↔ answers.good = true) := by
  have started : ({ d with fOpenCount := d.fOpenCount + 1 }.start answers).1.fInitHardware =
      (d.fInitHardware || answers.good) := start_fInitHardware
  have status : ({ d with fOpenCount := d.fOpenCount + 1 }.start answers).2 = .ok ↔
      answers.good = true := start_status
  unfold acquireRef
  rw [if_pos closed]
  dsimp only
  split
  · rename_i fails
    exact ⟨started, iff_of_false fails (mt status.mpr fails)⟩
  · rename_i succeeds
    exact ⟨started, iff_of_true rfl (status.mp (not_not.mp succeeds))⟩

theorem acquireRef_ok_of_good (good : answers.good = true) : (d.acquireRef answers).2 = .ok := by
  by_cases closed : d.fOpenCount = 0
  · exact (acquireRef_of_closed answers closed).2.mpr good
  · rw [acquireRef_of_open closed]

/-- The count of a device with `refs` references, which is started if there are any. -/
structure Counts (d : NvHaikuDevice) (refs : ℕ) : Prop where
  count : d.fOpenCount.toNat = refs
  started : d.fInitHardware = true ↔ 0 < refs

/-- `AcquireRef` adds a reference, or fails as the first one and leaves the count. -/
theorem Counts.acquireRef (counts : d.Counts refs) (few : refs < 2 ^ 31) (answers : Answers) :
    (d.acquireRef answers).2 = .ok ∧ (d.acquireRef answers).1.Counts (refs + 1) ∨
      (d.acquireRef answers).2 ≠ .ok ∧ (d.acquireRef answers).1.fOpenCount = d.fOpenCount ∧
        (d.acquireRef answers).1.Counts refs := by
  obtain ⟨count, started⟩ := counts
  by_cases closed : d.fOpenCount = 0
  · have none : refs = 0 := by rw [← count, closed]; rfl
    obtain ⟨init, status⟩ := acquireRef_of_closed answers closed
    -- the first reference starts the device, which may fail
    cases good : answers.good with
    | true =>
      obtain ⟨ok, one, -⟩ := acquireRef_of_good closed good
      exact Or.inl ⟨ok, by rw [one, none]; rfl, by simp [init, good]⟩
    | false =>
      obtain ⟨zero, -⟩ := acquireRef_of_not_good closed good
      refine Or.inr ⟨by simp [status, good], by rw [zero, closed], by rw [zero, none]; rfl, ?_⟩
      rw [init, good, Bool.or_false, started]
  · have held : 0 < refs := by
      refine Nat.pos_of_ne_zero fun none => closed (BitVec.eq_of_toNat_eq ?_)
      rw [count, none]
      rfl
    rw [acquireRef_of_open closed]
    refine Or.inl ⟨rfl, ?_, ?_⟩
    · -- below 2 ^ 31 references the count does not wrap
      show (d.fOpenCount + 1).toNat = refs + 1
      bv_omega
    · show d.fInitHardware = true ↔ 0 < refs + 1
      rw [started]
      omega

/-- `ReleaseRef` takes a reference away. -/
theorem Counts.releaseRef (counts : d.Counts refs) (held : 0 < refs) :
    d.releaseRef.Counts (refs - 1) := by
  obtain ⟨count, started⟩ := counts
  by_cases last : d.fOpenCount = 1
  · have one : refs = 1 := by rw [← count, last]; rfl
    rw [releaseRef_of_last last]
    exact ⟨by simp [last, one], by simp [stop_fInitHardware, one]⟩
  · rw [releaseRef_of_shared last]
    have more : 1 < refs := by
      have : refs ≠ 1 := fun one => last (BitVec.eq_of_toNat_eq (count.trans one))
      omega
    refine ⟨?_, ?_⟩
    · show (d.fOpenCount - 1).toNat = refs - 1
      bv_omega
    · show d.fInitHardware = true ↔ 0 < refs - 1
      rw [started]
      omega

end NvHaikuDevice

/-! ## Any number of devices -/

/-- The devices with the references to them. -/
structure Gpus (n : ℕ) where
  devices : Fin n → NvHaikuDevice
  /-- The open handles of each device. -/
  handles : Fin n → ℕ := fun _ => 0
  /-- The `nvidia_module_open_gpu` calls for each `gpu_id` that have returned true, and whose
  `nvidia_module_close_gpu` has not been called. -/
  modules : BitVec 32 → ℕ := fun _ => 0

/-- A call that takes or gives back a reference on one of the devices. -/
inductive GpuCall (n : ℕ)
  /-- `NvHaikuDevice::Open`, which allocates a handle first. -/
  | open (i : Fin n) (allocated : Bool) (answers : Answers)
  /-- `NvHaikuDeviceHandle::Close`. -/
  | close (i : Fin n)
  /-- `nvidia_module_open_gpu`. -/
  | openGpu (gpu_id : BitVec 32) (answers : Answers)
  /-- `nvidia_module_close_gpu`. -/
  | closeGpu (gpu_id : BitVec 32)
  deriving DecidableEq, Repr

variable {n : ℕ}

/-- The device that the loops over `DeviceAt` find. -/
def deviceFor (gpuIds : Fin n → BitVec 32) (gpu_id : BitVec 32) : Option (Fin n) :=
  (List.finRange n).find? fun i => gpuIds i = gpu_id

theorem gpuIds_of_deviceFor {gpuIds : Fin n → BitVec 32} {gpu_id : BitVec 32} {i : Fin n}
    (found : deviceFor gpuIds gpu_id = some i) : gpuIds i = gpu_id := by
  simpa using List.find?_some found

/-- The device that the call runs `AcquireRef` of. -/
def GpuCall.acquires (gpuIds : Fin n → BitVec 32) : GpuCall n → Option (Fin n × Answers)
  | .open i allocated answers => if allocated = true then some (i, answers) else none
  | .openGpu gpu_id answers => (deviceFor gpuIds gpu_id).map fun i => (i, answers)
  | close _ | closeGpu _ => none

/-- The device that the call runs `ReleaseRef` of. -/
def GpuCall.releases (gpuIds : Fin n → BitVec 32) : GpuCall n → Option (Fin n)
  | close i => some i
  | closeGpu gpu_id => deviceFor gpuIds gpu_id
  | .open .. | openGpu .. => none

namespace Gpus

/-- A device changes. -/
def setDevice (s : Gpus n) (i : Fin n) (d : NvHaikuDevice) : Gpus n :=
  { s with devices := Function.update s.devices i d }

/-- The number of handles on a device changes. -/
def setHandles (s : Gpus n) (i : Fin n) (count : ℕ) : Gpus n :=
  { s with handles := Function.update s.handles i count }

/-- The number of references of the module changes. -/
def setModules (s : Gpus n) (gpu_id : BitVec 32) (count : ℕ) : Gpus n :=
  { s with modules := Function.update s.modules gpu_id count }

/-- `NvHaikuDevice::Open`. -/
def openHandle (s : Gpus n) (i : Fin n) (allocated : Bool) (answers : Answers) : Gpus n × Bool :=
  if !allocated then (s, false)
  else
    let (d, res) := (s.devices i).acquireRef answers
    let s := s.setDevice i d
    if res ≠ .ok then (s, false) else (s.setHandles i (s.handles i + 1), true)

/-- `NvHaikuDeviceHandle::Close`, as far as the device is concerned. -/
def closeHandle (s : Gpus n) (i : Fin n) : Gpus n :=
  (s.setDevice i (s.devices i).releaseRef).setHandles i (s.handles i - 1)

/-- `nvidia_module_open_gpu`. -/
def openGpu (gpuIds : Fin n → BitVec 32) (s : Gpus n) (gpu_id : BitVec 32) (answers : Answers) :
    Gpus n × Bool :=
  match deviceFor gpuIds gpu_id with
  | none => (s, false)
  | some i =>
    let (d, res) := (s.devices i).acquireRef answers
    let s := s.setDevice i d
    if res ≠ .ok then (s, false) else (s.setModules gpu_id (s.modules gpu_id + 1), true)

/-- `nvidia_module_close_gpu`. -/
def closeGpu (gpuIds : Fin n → BitVec 32) (s : Gpus n) (gpu_id : BitVec 32) : Gpus n :=
  match deviceFor gpuIds gpu_id with
  | none => s
  | some i =>
    (s.setDevice i (s.devices i).releaseRef).setModules gpu_id (s.modules gpu_id - 1)

/-- A call with the result that says whether it has succeeded. -/
def perform (gpuIds : Fin n → BitVec 32) (s : Gpus n) : GpuCall n → Gpus n × Bool
  | .open i allocated answers => s.openHandle i allocated answers
  | .close i => (s.closeHandle i, true)
  | .openGpu gpu_id answers => s.openGpu gpuIds gpu_id answers
  | .closeGpu gpu_id => (s.closeGpu gpuIds gpu_id, true)

/-- The call gives up a reference that is there, or has an id that no device has. -/
def Allowed (gpuIds : Fin n → BitVec 32) (s : Gpus n) : GpuCall n → Prop
  | .close i => 0 < s.handles i
  | .closeGpu gpu_id => 0 < s.modules gpu_id ∨ deviceFor gpuIds gpu_id = none
  | .open .. | .openGpu .. => True

instance {gpuIds : Fin n → BitVec 32} {s : Gpus n} :
    (a : GpuCall n) → Decidable (Allowed gpuIds s a)
  | .close i => inferInstanceAs (Decidable (0 < s.handles i))
  | .closeGpu gpu_id =>
    inferInstanceAs (Decidable (0 < s.modules gpu_id ∨ deviceFor gpuIds gpu_id = none))
  | .open .. | .openGpu .. => isTrue trivial

/-- One call, if its caller may make it. -/
def step (gpuIds : Fin n → BitVec 32) (s : Gpus n) (a : GpuCall n) : Option (Gpus n) :=
  if Allowed gpuIds s a then some (s.perform gpuIds a).1 else none

/-- Devices that are not started and have no references. -/
def Fresh (s : Gpus n) : Prop :=
  (∀ i, (s.devices i).fOpenCount = 0 ∧ (s.devices i).fInitHardware = false) ∧
    s.handles = (fun _ => 0) ∧ s.modules = fun _ => 0

/-- The references to a device: its open handles, and the calls of `nvidia_module_open_gpu`
that have found it. -/
def references (gpuIds : Fin n → BitVec 32) (s : Gpus n) (i : Fin n) : ℕ :=
  s.handles i + if deviceFor gpuIds (gpuIds i) = some i then s.modules (gpuIds i) else 0

end Gpus

/-- Calls that do not overlap, for devices with fixed ids. -/
def gpus (gpuIds : Fin n → BitVec 32) : TransitionSystem (Gpus n) (GpuCall n) :=
  .ofStep Gpus.Fresh (Gpus.step gpuIds)

namespace Gpus

variable {gpuIds : Fin n → BitVec 32} {s t : Gpus n} {a : GpuCall n} {i j : Fin n}
  {gpu_id : BitVec 32}

/-! ### The references -/

theorem references_setDevice (d : NvHaikuDevice) :
    references gpuIds (s.setDevice i d) j = references gpuIds s j := rfl

theorem references_setHandles (count : ℕ) :
    references gpuIds (s.setHandles i count) j =
      if j = i then references gpuIds s i - s.handles i + count else references gpuIds s j := by
  unfold references setHandles
  by_cases same : j = i
  · subst same
    simp only [Function.update_self, if_true]
    omega
  · simp [same]

theorem references_setModules (found : deviceFor gpuIds gpu_id = some i) (count : ℕ) :
    references gpuIds (s.setModules gpu_id count) j =
      if j = i then references gpuIds s i - s.modules gpu_id + count
      else references gpuIds s j := by
  have id := gpuIds_of_deviceFor found
  unfold references setModules
  by_cases same : j = i
  · subst same
    simp only [id, found, Function.update_self, if_true]
    omega
  · -- another device with the id is not the first one that has it
    have unfound : deviceFor gpuIds gpu_id ≠ some j := by
      rw [found]
      exact fun first => same (Option.some.inj first).symm
    by_cases other : gpuIds j = gpu_id
    · simp [same, other, unfound]
    · simp [same, Function.update_of_ne other]

theorem modules_le_references (found : deviceFor gpuIds gpu_id = some i) :
    s.modules gpu_id ≤ references gpuIds s i := by
  simp [references, gpuIds_of_deviceFor found, found]

theorem handles_le_references (gpuIds : Fin n → BitVec 32) (s : Gpus n) (i : Fin n) :
    s.handles i ≤ references gpuIds s i := Nat.le_add_right ..

/-! ### What a call does -/

/-- `AcquireRef` has been run for device `i`, and the reference is counted if it succeeded. -/
structure Acquired (gpuIds : Fin n → BitVec 32) (s : Gpus n) (i : Fin n) (answers : Answers)
    (result : Gpus n × Bool) : Prop where
  succeeded : result.2 = true ↔ ((s.devices i).acquireRef answers).2 = .ok
  devices : result.1.devices = Function.update s.devices i ((s.devices i).acquireRef answers).1
  references : ∀ j, result.1.references gpuIds j =
    if j = i ∧ result.2 = true then s.references gpuIds i + 1 else s.references gpuIds j

theorem acquired_of_acquires {answers : Answers}
    (acquires : a.acquires gpuIds = some (i, answers)) :
    Acquired gpuIds s i answers (s.perform gpuIds a) := by
  cases a with
  | «open» k allocated answers' =>
    simp only [GpuCall.acquires, Option.ite_none_right_eq_some, Option.some.injEq,
      Prod.mk.injEq] at acquires
    obtain ⟨rfl, rfl, rfl⟩ := acquires
    -- a handle of device `k` is one more reference of `k`, if `AcquireRef` succeeds
    unfold perform openHandle
    by_cases ok : ((s.devices k).acquireRef answers').2 = .ok
    · simp only [ok, Bool.not_true, Bool.false_eq_true, if_false, ne_eq, not_true_eq_false]
      refine ⟨iff_of_true rfl ok, rfl, fun j => ?_⟩
      have few := handles_le_references gpuIds s k
      rw [references_setHandles, references_setDevice, references_setDevice]
      simp only [and_true]
      split
      · show _ - s.handles k + (s.handles k + 1) = _
        omega
      · rfl
    · simp only [ok, Bool.not_true, Bool.false_eq_true, if_false, ne_eq, not_false_eq_true, if_true]
      exact ⟨iff_of_false Bool.false_ne_true ok, rfl, fun j => by simp [references_setDevice]⟩
  | openGpu gpu_id answers' =>
    -- the module names the device by its `gpu_id`
    obtain ⟨k, found, same⟩ := Option.map_eq_some_iff.mp acquires
    obtain ⟨rfl, rfl⟩ := Prod.mk.inj same
    show Acquired gpuIds s k answers' (openGpu gpuIds s gpu_id answers')
    unfold openGpu
    rw [found]
    by_cases ok : ((s.devices k).acquireRef answers').2 = .ok
    · simp only [ok, if_false, ne_eq, not_true_eq_false]
      refine ⟨iff_of_true rfl ok, rfl, fun j => ?_⟩
      have few := modules_le_references (s := s) found
      rw [references_setModules found, references_setDevice, references_setDevice]
      simp only [and_true]
      split
      · show _ - s.modules gpu_id + (s.modules gpu_id + 1) = _
        omega
      · rfl
    · simp only [ok, ne_eq, not_false_eq_true, if_true]
      exact ⟨iff_of_false Bool.false_ne_true ok, rfl, fun j => by simp [references_setDevice]⟩
  | close k => simp [GpuCall.acquires] at acquires
  | closeGpu gpu_id => simp [GpuCall.acquires] at acquires

/-- `ReleaseRef` has been run for device `i`, and one reference fewer is counted. -/
structure Released (gpuIds : Fin n → BitVec 32) (s : Gpus n) (i : Fin n) (t : Gpus n) : Prop where
  held : 0 < s.references gpuIds i
  devices : t.devices = Function.update s.devices i (s.devices i).releaseRef
  references : ∀ j, t.references gpuIds j =
    if j = i then s.references gpuIds i - 1 else s.references gpuIds j

theorem released_of_releases (releases : a.releases gpuIds = some i)
    (allowed : Allowed gpuIds s a) : Released gpuIds s i (s.perform gpuIds a).1 := by
  cases a with
  | close k =>
    obtain rfl := Option.some.inj releases
    have few := handles_le_references gpuIds s k
    have held : 0 < s.handles k := allowed
    refine ⟨by omega, rfl, fun j => ?_⟩
    show references gpuIds ((s.setDevice k _).setHandles k _) j = _
    rw [references_setHandles, references_setDevice, references_setDevice]
    split
    · show _ - s.handles k + (s.handles k - 1) = _
      omega
    · rfl
  | closeGpu gpu_id =>
    have found : deviceFor gpuIds gpu_id = some i := releases
    have few := modules_le_references (s := s) found
    have held : 0 < s.modules gpu_id := allowed.resolve_right (by simp [found])
    show Released gpuIds s i (closeGpu gpuIds s gpu_id)
    unfold closeGpu
    rw [found]
    refine ⟨by omega, rfl, fun j => ?_⟩
    rw [references_setModules found, references_setDevice, references_setDevice]
    split
    · show _ - s.modules gpu_id + (s.modules gpu_id - 1) = _
      omega
    · rfl
  | «open» | openGpu => simp [GpuCall.releases] at releases

/-- A call that finds no device, or no memory for the handle, changes nothing. -/
theorem perform_of_neither (acquires : a.acquires gpuIds = none)
    (releases : a.releases gpuIds = none) : (s.perform gpuIds a).1 = s := by
  cases a with
  | «open» k allocated answers =>
    have refused : allocated = false := by simpa [GpuCall.acquires] using acquires
    simp [perform, openHandle, refused]
  | close k => simp [GpuCall.releases] at releases
  | openGpu gpu_id answers =>
    have unfound : deviceFor gpuIds gpu_id = none := by simpa [GpuCall.acquires] using acquires
    simp [perform, openGpu, unfound]
  | closeGpu gpu_id =>
    have unfound : deviceFor gpuIds gpu_id = none := releases
    simp [perform, closeGpu, unfound]

end Gpus

/-! ## Both kinds of references count as one -/

/-- What is to hold of each call. -/
structure Counted (gpuIds : Fin n → BitVec 32) (e : Event (Gpus n) (GpuCall n)) : Prop where
  count : ∀ i, (e.target.devices i).fOpenCount.toInt = e.target.references gpuIds i
  started : ∀ i, (e.target.devices i).fInitHardware = true ↔
    0 < (e.target.devices i).fOpenCount.toInt
  /-- `AcquireRef` only runs `Start` on a stopped device. -/
  start : ∀ i answers, e.action.acquires gpuIds = some (i, answers) →
    (e.source.devices i).fOpenCount = 0 → (e.source.devices i).fInitHardware = false
  /-- `ReleaseRef` only runs `Stop` on a started device. -/
  stop : ∀ i, e.action.releases gpuIds = some i →
    (e.source.devices i).fOpenCount = 1 → (e.source.devices i).fInitHardware = true
  failed : (e.source.perform gpuIds e.action).2 = false →
    ∀ i, (e.target.devices i).fOpenCount = (e.source.devices i).fOpenCount
  unknown : ∀ gpu_id, deviceFor gpuIds gpu_id = none →
    (∃ answers, e.action = .openGpu gpu_id answers) ∨ e.action = .closeGpu gpu_id →
      e.target = e.source

/-- No device has as many references as make its count negative. -/
def Few (gpuIds : Fin n → BitVec 32) (e : Event (Gpus n) (GpuCall n)) : Prop :=
  ∀ i, e.target.references gpuIds i < 2 ^ 31

instance {gpuIds : Fin n → BitVec 32} : DecidablePred (Few gpuIds) := fun e =>
  inferInstanceAs (Decidable (∀ i, e.target.references gpuIds i < 2 ^ 31))

/-- The devices count their references, and there are not too many. -/
def Gpus.Steady (gpuIds : Fin n → BitVec 32) (s : Gpus n) : Prop :=
  ∀ i, (s.devices i).Counts (s.references gpuIds i) ∧ s.references gpuIds i < 2 ^ 31

section Steps

variable {gpuIds : Fin n → BitVec 32} {s t : Gpus n} {a : GpuCall n}

theorem Gpus.Fresh.steady (fresh : s.Fresh) : s.Steady gpuIds := by
  obtain ⟨devices, handles, modules⟩ := fresh
  intro i
  have none : s.references gpuIds i = 0 := by simp [Gpus.references, handles, modules]
  rw [none]
  exact ⟨⟨by simp [(devices i).1], by simp [(devices i).2]⟩, by decide⟩

/-- A call keeps the counts, and leaves them if it fails. -/
theorem Gpus.Steady.perform (steady : s.Steady gpuIds) (allowed : s.Allowed gpuIds a)
    (few : ∀ i, (s.perform gpuIds a).1.references gpuIds i < 2 ^ 31) :
    (s.perform gpuIds a).1.Steady gpuIds ∧
      ((s.perform gpuIds a).2 = false →
        ∀ i, ((s.perform gpuIds a).1.devices i).fOpenCount = (s.devices i).fOpenCount) := by
  cases acquires : a.acquires gpuIds with
  | some found =>
    obtain ⟨i, answers⟩ := found
    obtain ⟨succeeded, devices, references⟩ := Gpus.acquired_of_acquires (s := s) acquires
    -- only device `i` changes, and all others keep their count and their references
    rcases (steady i).1.acquireRef (steady i).2 answers with
      ⟨ok, more⟩ | ⟨fails, same, kept⟩
    · refine ⟨fun j => ⟨?_, few j⟩, fun failed => ?_⟩
      · rw [devices, references j, succeeded.mpr ok]
        by_cases this : j = i
        · subst this
          simpa using more
        · simpa [this] using (steady j).1
      · rw [succeeded.mpr ok] at failed
        cases failed
    · have failed := mt succeeded.mp fails
      refine ⟨fun j => ⟨?_, few j⟩, fun _ j => ?_⟩
      · rw [devices, references j]
        by_cases this : j = i
        · subst this
          simpa [failed] using kept
        · simpa [this] using (steady j).1
      · rw [devices]
        by_cases this : j = i
        · subst this
          simpa using same
        · simp [this]
  | none =>
    cases releases : a.releases gpuIds with
    | some i =>
      obtain ⟨held, devices, references⟩ := Gpus.released_of_releases releases allowed
      refine ⟨fun j => ⟨?_, few j⟩, fun failed => ?_⟩
      · rw [devices, references j]
        by_cases this : j = i
        · subst this
          simpa using (steady j).1.releaseRef held
        · simpa [this] using (steady j).1
      · -- a call that gives a reference back never fails
        cases a <;> simp [GpuCall.releases, Gpus.perform] at releases failed
    | none =>
      rw [Gpus.perform_of_neither acquires releases]
      exact ⟨steady, fun _ _ => rfl⟩

/-- The count as a signed number. -/
theorem NvHaikuDevice.Counts.toInt {d : NvHaikuDevice} {refs : ℕ} (counts : d.Counts refs)
    (few : refs < 2 ^ 31) : d.fOpenCount.toInt = refs := by
  rw [BitVec.toInt_eq_toNat_of_lt (by rw [counts.count]; omega), counts.count]

theorem Gpus.Steady.counted (steady : s.Steady gpuIds) (taken : s.step gpuIds a = some t)
    (few : Few gpuIds ⟨s, a, t⟩) : t.Steady gpuIds ∧ Counted gpuIds ⟨s, a, t⟩ := by
  obtain ⟨allowed, rfl⟩ := of_guarded taken
  obtain ⟨kept, failed⟩ := steady.perform allowed few
  have count (i : Fin n) := (kept i).1.toInt (kept i).2
  refine ⟨kept, count, fun i => ?_, fun i answers _ zero => ?_, fun i releases one => ?_, failed,
    fun gpu_id unknown call => ?_⟩
  · rw [count i, (kept i).1.started]
    omega
  · -- a count of zero is that of a device without references
    have none := (steady i).1.count
    rw [zero] at none
    rw [Bool.eq_false_iff, Ne, (steady i).1.started, ← none]
    decide
  · have held := (steady i).1.count
    rw [one] at held
    rw [(steady i).1.started, ← held]
    decide
  · rcases call with ⟨answers, rfl⟩ | rfl
    · exact Gpus.perform_of_neither (by simp [GpuCall.acquires, unknown]) rfl
    · exact Gpus.perform_of_neither rfl unknown

/-- A count that is not negative is one of few references. -/
theorem Counted.few {e : Event (Gpus n) (GpuCall n)} (counted : Counted gpuIds e) :
    Few gpuIds e := by
  intro i
  have bound := BitVec.toInt_lt (x := (e.target.devices i).fOpenCount)
  rw [counted.count i] at bound
  omega

/-- The counts over whole runs: both kinds of references count as one, just when no device
ever has 2^31 references. -/
theorem counted_iff_few {past : List (Event (Gpus n) (GpuCall n))}
    (run : (gpus gpuIds).Run past s) :
    Every (Counted gpuIds) past ↔ Every (Few gpuIds) past := by
  exact run.every_iff (P := Gpus.Steady gpuIds) (fun _ fresh => fresh.steady)
    (fun _ _ _ steady taken few => steady.counted taken few)
    fun _ _ _ _ _ many counted => many counted.few

end Steps

/-- Two devices with the same id. Both are opened, and `nvidia_module_open_gpu` finds the
first one. -/
theorem counted_twins : ∃ past s, (gpus fun _ : Fin 2 => 7).Run past s ∧
    s.references (fun _ => 7) 0 = 1 ∧ s.references (fun _ => 7) 1 = 1 ∧
      Every (Counted fun _ => 7) past := by
  have fresh : (gpus fun _ : Fin 2 => 7).start { devices := fun _ => {} } :=
    ⟨fun _ => ⟨rfl, rfl⟩, rfl, rfl⟩
  have run := (Run.start fresh).play [.open 0 true ⟨1, 24, true⟩, .openGpu 7 ⟨1, 24, true⟩,
    .open 1 true ⟨1, 25, true⟩, .close 0, .openGpu 8 ⟨1, 24, true⟩] rfl
  exact ⟨_, _, run, rfl, rfl, (counted_iff_few run).mpr (by decide)⟩

/-! ## Too many references -/

/-- `nvidia_module_open_gpu` can be called any number of times. -/
theorem exists_run_references (k : ℕ) :
    ∃ past s, (gpus fun _ : Fin 1 => 7).Run past s ∧ s.references (fun _ => 7) 0 = k := by
  induction k with
  | zero =>
    have fresh : (gpus fun _ : Fin 1 => 7).start { devices := fun _ => {} } :=
      ⟨fun _ => ⟨rfl, rfl⟩, rfl, rfl⟩
    exact ⟨[], _, .start fresh, rfl⟩
  | succ k ih =>
    obtain ⟨past, s, run, count⟩ := ih
    have acquired : Gpus.Acquired (fun _ => 7) s 0 ⟨1, 24, true⟩
        (s.perform (fun _ => 7) (.openGpu 7 ⟨1, 24, true⟩)) := Gpus.acquired_of_acquires rfl
    obtain ⟨succeeded, -, references⟩ := acquired
    have ok := succeeded.mpr (NvHaikuDevice.acquireRef_ok_of_good rfl)
    have taken : (gpus fun _ : Fin 1 => 7).step s (.openGpu 7 ⟨1, 24, true⟩)
        (s.perform (fun _ => 7) (.openGpu 7 ⟨1, 24, true⟩)).1 := if_pos trivial
    refine ⟨_, _, run.step taken, ?_⟩
    rw [references 0, ok, count]
    rfl

/-- With 2^31 references the count is negative. -/
theorem not_counted_crowded : ∃ past s, (gpus fun _ : Fin 1 => 7).Run past s ∧
    ¬ Every (Counted fun _ => 7) past := by
  obtain ⟨past, s, run, count⟩ := exists_run_references (2 ^ 31)
  refine ⟨past, s, run, fun every => ?_⟩
  have few := every.mono fun _ => Counted.few
  cases run with
  | start fresh =>
    have steady : s.Steady fun _ => 7 := fresh.steady
    have few := (steady 0).2
    omega
  | step run taken =>
    have few := (every_cons.mp few).1 0
    dsimp only at few
    omega

end NvidiaHaiku.Device

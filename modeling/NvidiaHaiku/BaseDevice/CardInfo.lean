/-
# The list of cards

A client asks the control device for the cards, with an array for their descriptions. The
driver clears the array, refuses when it is too short for all devices, and describes each
device that is not excluded in the entry with its index. The size of the array passes through
`NvRmIoctl` as 32 bits.
-/

import NvidiaHaiku.BaseDevice.MappingContext
import NvidiaHaiku.Libc.UserMemory
import NvidiaHaiku.Sdk.MapMemory

namespace NvidiaHaiku.BaseDevice

open NvidiaHaiku.Libc NvidiaHaiku.Libc.UserMemory

def B_BAD_ADDRESS : ℤ := -0x7fffecff

/-- An address and a size, as in `nv_aperture_t`. -/
structure Aperture where
  cpu_address : BitVec 64
  size : BitVec 64
  deriving DecidableEq, Repr

/-- The fields of an `NvHaikuDevice` and of its `nv_state_t` that are listed. -/
structure ListedDevice where
  /-- `NV_FLAG_EXCLUDE` is set. -/
  excluded : Bool
  domain : BitVec 32
  bus : BitVec 8
  slot : BitVec 8
  vendor_id : BitVec 16
  device_id : BitVec 16
  gpu_id : BitVec 32
  interrupt_line : BitVec 32
  regs : Aperture
  fb : Aperture
  /-- `DeviceIndex()`. -/
  fDeviceIndex : BitVec 32
  deriving DecidableEq, Repr

/-- `nv_ioctl_card_info_t`. Its fields are as wide as what is assigned to them, and it is the
layout that may narrow them. -/
structure CardInfo where
  valid : Bool := false
  domain : BitVec 32 := 0
  bus : BitVec 8 := 0
  slot : BitVec 8 := 0
  vendor_id : BitVec 16 := 0
  device_id : BitVec 16 := 0
  gpu_id : BitVec 32 := 0
  interrupt_line : BitVec 32 := 0
  reg_address : BitVec 64 := 0
  reg_size : BitVec 64 := 0
  minor_number : BitVec 32 := 0
  fb_address : BitVec 64 := 0
  fb_size : BitVec 64 := 0
  deriving DecidableEq, Repr

/-- What the driver tells of a device. -/
def ListedDevice.cardInfo (dev : ListedDevice) : CardInfo where
  valid := true
  domain := dev.domain
  bus := dev.bus
  slot := dev.slot
  vendor_id := dev.vendor_id
  device_id := dev.device_id
  gpu_id := dev.gpu_id
  interrupt_line := dev.interrupt_line
  reg_address := dev.regs.cpu_address
  reg_size := dev.regs.size
  minor_number := dev.fDeviceIndex
  fb_address := dev.fb.cpu_address
  fb_size := dev.fb.size

/-- How the compiler lays out an `nv_ioctl_card_info_t`. -/
structure CardInfoLayout where
  /-- `sizeof(nv_ioctl_card_info_t)`. -/
  size : ℕ
  bytes : CardInfo → List (BitVec 8)
  length_bytes : ∀ ci, (bytes ci).length = size
  size_pos : 0 < size

variable (L : CardInfoLayout)

/-! ## The calls -/

/-- The loop over the devices, from entry `i` on. -/
def copyCards (data : ℕ) : (i : ℕ) → List ListedDevice → UserMemory → ℤ × UserMemory
  | _, [], memory => (0, memory)
  | i, dev :: rest, memory =>
    if dev.excluded then copyCards data (i + 1) rest memory
    else
      match copyOut memory (data + i * L.size) (L.bytes dev.cardInfo) with
      | (false, memory) => (B_BAD_ADDRESS, memory)
      | (true, memory) => copyCards data (i + 1) rest memory

/-- `NV_ESC_CARD_INFO` of `Control`. -/
def controlCardInfo (h : NvHaikuBaseDeviceHandle) (devices : List ListedDevice) (data len : ℕ)
    (memory : UserMemory) : ℤ × UserMemory :=
  if h.fClosed then (EINVAL, memory)
  else if !h.nv.isCtlDevice then (EINVAL, memory)
  else
    match copyOut memory data (List.replicate len 0) with
    | (false, memory) => (B_BAD_ADDRESS, memory)
    | (true, memory) =>
      if len / L.size < devices.length then (EINVAL, memory)
      else copyCards L data 0 devices memory

/-- `NvRmIoctl`: the calls of `ioctl` that it makes, and what the last one returns. -/
inductive NvRmIoctl (ioctl : UserMemory → ℤ × UserMemory) : UserMemory → ℤ × UserMemory → Prop
  | again {memory : UserMemory} {r : ℤ × UserMemory} :
      Sdk.Retries (ioctl memory).1 → NvRmIoctl ioctl (ioctl memory).2 r → NvRmIoctl ioctl memory r
  | done {memory : UserMemory} :
      ¬ Sdk.Retries (ioctl memory).1 → NvRmIoctl ioctl memory (ioctl memory)

/-- `sizeof(nv_ioctl_card_info_t)*count`, as the `NvU32` that `NvRmIoctl` takes. -/
def paramsSize (count : BitVec 32) : ℕ :=
  ((BitVec.ofNat 64 L.size * count.setWidth 64).setWidth 32).toNat

/-- `NvRmApi::CardInfo`, with the result of `NvRmIoctl` that is checked in the end. -/
def Sdk.CardInfoReturns (h : NvHaikuBaseDeviceHandle) (devices : List ListedDevice) (infos : ℕ)
    (count : BitVec 32) : UserMemory → ℤ × UserMemory → Prop :=
  NvRmIoctl (controlCardInfo L h devices infos (paramsSize L count))

/-- The entries of the array after the call. -/
structure ListsCards (devices : List ListedDevice) (infos size : ℕ) (left : UserMemory) :
    Prop where
  described : ∀ i dev, devices[i]? = some dev → dev.excluded = false →
    left.Holds (infos + i * L.size) (L.bytes dev.cardInfo)
  excluded : ∀ i dev, devices[i]? = some dev → dev.excluded = true →
    left.Holds (infos + i * L.size) (List.replicate L.size 0)
  rest : left.Holds (infos + devices.length * L.size)
    (List.replicate (size - devices.length * L.size) 0)

/-- What the control device does with an array of `size` bytes. -/
structure Answers (devices : List ListedDevice) (infos size : ℕ) (memory : UserMemory)
    (r : ℤ × UserMemory) : Prop where
  /-- Nothing is written outside of the array. -/
  outside : ∀ x, x < infos ∨ infos + size ≤ x → r.2 x = memory x
  faults : ¬ Writable memory infos size → r.1 = B_BAD_ADDRESS
  refuses : Writable memory infos size → size / L.size < devices.length →
    r.1 = EINVAL ∧ r.2.Holds infos (List.replicate size 0)
  lists : Writable memory infos size → devices.length ≤ size / L.size →
    r.1 = 0 ∧ ListsCards L devices infos size r.2

/-! ## The loop -/

variable {L} {data i size infos : ℕ} {devices : List ListedDevice} {memory : UserMemory}
  {h : NvHaikuBaseDeviceHandle} {count : BitVec 32} {r : ℤ × UserMemory}

/-- What the loop leaves of the entries from `i` on. -/
structure Copied (data i : ℕ) (devices : List ListedDevice) (memory : UserMemory)
    (r : ℤ × UserMemory) : Prop where
  through : r.1 = 0
  outside : ∀ x, x < data + i * L.size ∨ data + (i + devices.length) * L.size ≤ x →
    r.2 x = memory x
  described : ∀ j dev, devices[j]? = some dev → dev.excluded = false →
    r.2.Holds (data + (i + j) * L.size) (L.bytes dev.cardInfo)
  excluded : ∀ j dev, devices[j]? = some dev → dev.excluded = true → ∀ b < L.size,
    r.2 (data + (i + j) * L.size + b) = memory (data + (i + j) * L.size + b)

theorem next_entry : data + (i + 1) * L.size = data + i * L.size + L.size := by
  rw [Nat.succ_mul, Nat.add_assoc]

theorem end_entries {n : ℕ} : data + (i + (n + 1)) * L.size = data + (i + 1 + n) * L.size := by
  rw [Nat.add_right_comm i 1, Nat.add_assoc i n]

theorem entry_le (data : ℕ) {j n : ℕ} (before : j ≤ n) : data + j * L.size ≤ data + n * L.size :=
  Nat.add_le_add_left (Nat.mul_le_mul_right _ before) _

/-- Entry `i` is excluded: the loop leaves it alone. -/
theorem Copied.skip {dev : ListedDevice} {rest : List ListedDevice} (out : dev.excluded = true)
    (copied : Copied (L := L) data (i + 1) rest memory r) :
    Copied (L := L) data i (dev :: rest) memory r where
  through := copied.through
  outside x apart := by
    rw [List.length_cons, end_entries] at apart
    exact copied.outside x (apart.imp_left fun before => by rw [next_entry]; omega)
  described j d at_j kept := by
    cases j with
    | zero => simp_all
    | succ j => rw [end_entries]; exact copied.described j d at_j kept
  excluded j d at_j gone b small := by
    cases j with
    | zero => exact copied.outside _ (.inl (by rw [next_entry, Nat.add_zero]; omega))
    | succ j => rw [end_entries]; exact copied.excluded j d at_j gone b small

/-- Entry `i` is written before the others. -/
theorem Copied.write {dev : ListedDevice} {rest : List ListedDevice}
    (listed : dev.excluded = false) (writable : Writable memory (data + i * L.size) L.size)
    (copied : Copied (L := L) data (i + 1) rest
      (copyOut memory (data + i * L.size) (L.bytes dev.cardInfo)).2 r) :
    Copied (L := L) data i (dev :: rest) memory r where
  through := copied.through
  outside x apart := by
    rw [List.length_cons, end_entries] at apart
    have far := entry_le (L := L) data (Nat.le_add_right (i + 1) rest.length)
    rw [next_entry] at far
    rw [copied.outside x (apart.imp_left fun before => by rw [next_entry]; omega)]
    exact copyOut_outside (by rw [L.length_bytes]; omega)
  described j d at_j kept := by
    cases j with
    | zero =>
      obtain rfl : dev = d := Option.some.inj at_j
      have through : (copyOut memory (data + i * L.size) (L.bytes dev.cardInfo)).1 = true :=
        copyOut_iff_writable.mpr (by rwa [L.length_bytes])
      rw [Nat.add_zero]
      refine (holds_copyOut through).congr fun b small => ?_
      rw [L.length_bytes] at small
      exact copied.outside _ (.inl (by rw [next_entry]; omega))
    | succ j => rw [end_entries]; exact copied.described j d at_j kept
  excluded j d at_j gone b small := by
    cases j with
    | zero => simp_all
    | succ j =>
      have far := entry_le (L := L) data (Nat.le_add_right (i + 1) j)
      rw [next_entry] at far
      rw [end_entries, copied.excluded j d at_j gone b small]
      exact copyOut_outside (by rw [L.length_bytes]; omega)

theorem copied_copyCards (devices : List ListedDevice)
    (writable : Writable memory (data + i * L.size) (devices.length * L.size)) :
    Copied (L := L) data i devices memory (copyCards L data i devices memory) := by
  induction devices generalizing i memory with
  | nil => exact ⟨rfl, fun _ _ => rfl, nofun, nofun⟩
  | cons dev rest ih =>
    rw [List.length_cons, Nat.succ_mul] at writable
    have first : Writable memory (data + i * L.size) L.size := fun b small => writable b (by omega)
    have others : Writable memory (data + (i + 1) * L.size) (rest.length * L.size) := by
      intro b small
      rw [next_entry, Nat.add_assoc]
      exact writable (L.size + b) (by omega)
    cases out : dev.excluded with
    | true =>
      rw [copyCards, if_pos out]
      exact (ih others).skip out
    | false =>
      have written : (copyOut memory (data + i * L.size) (L.bytes dev.cardInfo)).1 = true :=
        copyOut_iff_writable.mpr (by rwa [L.length_bytes])
      have copied := (ih (writable_copyOut.mpr others)).write out first
      rw [copyCards, if_neg (by simp [out])]
      split
      · simp_all
      · simp_all

/-! ## The call -/

/-- What the loop leaves of an array of zeros. -/
theorem Copied.listsCards (copied : Copied (L := L) infos 0 devices memory r)
    (zeros : memory.Holds infos (List.replicate size 0))
    (room : devices.length * L.size ≤ size) : ListsCards L devices infos size r.2 where
  described i dev at_i listed := by simpa using copied.described i dev at_i listed
  excluded i dev at_i gone := by
    have inside : (i + 1) * L.size ≤ devices.length * L.size :=
      Nat.mul_le_mul_right _ (List.getElem?_eq_some_iff.mp at_i).1
    rw [Nat.succ_mul] at inside
    refine (zeros.replicate (by omega)).congr fun b small => ?_
    rw [List.length_replicate] at small
    simpa using copied.excluded i dev at_i gone b small
  rest := by
    refine (zeros.replicate (by omega)).congr fun b small => ?_
    exact copied.outside _ (.inr (by rw [Nat.zero_add]; omega))

theorem answers_controlCardInfo (devices : List ListedDevice) (infos size : ℕ)
    (memory : UserMemory) (opened : h.fClosed = false) (control : h.nv.isCtlDevice = true) :
    Answers L devices infos size memory (controlCardInfo L h devices infos size memory) := by
  have length : (List.replicate size (0 : BitVec 8)).length = size := List.length_replicate
  rw [controlCardInfo, if_neg (by simp [opened]), if_neg (by simp [control])]
  cases cleared : copyOut memory infos (List.replicate size 0) with
  | mk through left =>
    have left_eq : left = (copyOut memory infos (List.replicate size 0)).2 := by rw [cleared]
    have outside : ∀ x, x < infos ∨ infos + size ≤ x → left x = memory x := by
      intro x apart
      rw [left_eq, copyOut_outside (by rwa [length])]
    have whole : through = true ↔ Writable memory infos size := by
      have iff : (copyOut memory infos (List.replicate size 0)).1 = true ↔ _ :=
        copyOut_iff_writable
      rwa [cleared, length] at iff
    cases through with
    | false =>
      have denied : ¬ Writable memory infos size := fun writable => by
        simpa using whole.mpr writable
      exact ⟨outside, fun _ => rfl, (absurd · denied), (absurd · denied)⟩
    | true =>
      have writable : Writable memory infos size := whole.mp rfl
      have zeros : left.Holds infos (List.replicate size 0) := by
        rw [left_eq]
        exact holds_copyOut (by rw [cleared])
      dsimp only
      split
      · next short =>
        exact ⟨outside, (absurd writable ·), fun _ _ => ⟨rfl, zeros⟩,
          fun _ enough => absurd short (Nat.not_lt.mpr enough)⟩
      · next enough =>
        have room : devices.length * L.size ≤ size :=
          (Nat.le_div_iff_mul_le L.size_pos).mp (Nat.not_lt.mp enough)
        have still : Writable left infos size := by
          rwa [left_eq, writable_copyOut]
        have entries : Writable left (infos + 0 * L.size) (devices.length * L.size) := by
          intro b small
          rw [Nat.zero_mul, Nat.add_zero]
          exact still b (by omega)
        have copied := copied_copyCards devices entries
        refine ⟨fun x apart => ?_, (absurd writable ·), fun _ short => absurd short enough,
          fun _ _ => ⟨copied.through, copied.listsCards zeros room⟩⟩
        rw [copied.outside x (by rw [Nat.zero_mul, Nat.zero_add]; omega), outside x apart]

/-- The driver never asks for another attempt. -/
theorem not_retries (answers : Answers L devices infos size memory r) :
    ¬ Sdk.Retries r.1 = true := by
  by_cases writable : Writable memory infos size
  · rcases Nat.lt_or_ge (size / L.size) devices.length with short | enough
    · rw [(answers.refuses writable short).1]
      decide
    · rw [(answers.lists writable enough).1]
      decide
  · rw [answers.faults writable]
    decide

/-- `CardInfo` makes one call of the driver. The devices are counted against the entries of the
array that are left of its size in 32 bits; then each one that is not excluded is described at
its index, and every other byte of the array is zero. -/
theorem cardInfo_answers (L : CardInfoLayout) (devices : List ListedDevice) (infos : ℕ)
    (count : BitVec 32) (memory : UserMemory) (opened : h.fClosed = false)
    (control : h.nv.isCtlDevice = true) :
    (∃ r, Sdk.CardInfoReturns L h devices infos count memory r) ∧
      ∀ r, Sdk.CardInfoReturns L h devices infos count memory r →
        Answers L devices infos (paramsSize L count) memory r := by
  have answers := answers_controlCardInfo (L := L) devices infos (paramsSize L count) memory
    opened control
  refine ⟨⟨_, .done (not_retries answers)⟩, fun r returned => ?_⟩
  cases returned with
  | again retries _ => exact absurd retries (not_retries answers)
  | done _ => exact answers

/-- The bytes of an integer, the lowest first. -/
def littleEndian {w : ℕ} (n : ℕ) (x : BitVec w) : List (BitVec 8) :=
  (List.range n).map fun i => (x >>> (8 * i)).setWidth 8

theorem length_littleEndian {w n : ℕ} (x : BitVec w) : (littleEndian n x).length = n := by
  simp [littleEndian]

/-- The layout on x86-64, where the line is narrowed to 16 bits, and ten bytes for a name end
the description. -/
def x86CardInfo : CardInfoLayout where
  size := 72
  bytes ci :=
    littleEndian 4 (BitVec.ofBool ci.valid) ++ littleEndian 4 ci.domain ++
    littleEndian 1 ci.bus ++ littleEndian 1 ci.slot ++
    -- the function is not assigned, and one byte of padding follows it
    [0, 0] ++ littleEndian 2 ci.vendor_id ++ littleEndian 2 ci.device_id ++
    littleEndian 4 ci.gpu_id ++ littleEndian 4 (ci.interrupt_line.setWidth 16) ++
    littleEndian 8 ci.reg_address ++ littleEndian 8 ci.reg_size ++
    littleEndian 8 ci.fb_address ++ littleEndian 8 ci.fb_size ++
    littleEndian 4 ci.minor_number ++ List.replicate 12 0
  length_bytes ci := by simp [length_littleEndian]
  size_pos := by decide

/-- Two devices, the first of which is excluded, and an array for both. -/
theorem cardInfo_listed :
    let card : ListedDevice := ⟨false, 0, 1, 0, 0x10de, 0x2204, 7, 16, ⟨0xe0000000, 0x1000000⟩,
      ⟨0xd0000000, 0x10000000⟩, 1⟩
    let devices := [{ card with excluded := true, fDeviceIndex := 0 }, card]
    let memory : UserMemory := fun x => if 4096 ≤ x ∧ x < 4240 then some ⟨0xff, true⟩ else none
    ∃ r, Sdk.CardInfoReturns x86CardInfo { nv := .control 0 } devices 4096 2 memory r ∧
      r.1 = 0 ∧ r.2.Holds 4096 (List.replicate 72 0) ∧
      r.2.Holds 4168 (x86CardInfo.bytes card.cardInfo) := by
  intro card devices memory
  obtain ⟨⟨r, returned⟩, all⟩ := cardInfo_answers x86CardInfo devices 4096 2 memory
    (h := { nv := .control 0 }) rfl rfl
  have size : paramsSize x86CardInfo 2 = 144 := by decide
  have writable : Writable memory 4096 (paramsSize x86CardInfo 2) := by
    intro i small
    rw [size] at small
    simp only [memory, if_pos (show 4096 ≤ 4096 + i ∧ 4096 + i < 4240 by omega), Option.any_some]
  obtain ⟨ok, lists⟩ := (all r returned).lists writable (by decide)
  exact ⟨r, returned, ok, lists.excluded 0 _ rfl rfl, lists.described 1 card rfl rfl⟩

end NvidiaHaiku.BaseDevice

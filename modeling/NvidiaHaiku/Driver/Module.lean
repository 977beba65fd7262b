/-
# Initialising the module

`nvidia_module_init` acquires one resource after another, and may fail at each of them.
One destructor then undoes what was done, guided by null tests, a flag and the contents of
`fDevices`. The same destructor runs in `nvidia_module_uninit`.

What is acquired and released on the way is entered into a ledger. Everything is released
in the end but the PCI handles that `os_pci_init_handle` allocates for the devices, which
nothing passes to `os_pci_remove`.
-/

import NvidiaHaiku.Driver.FindDevice
import NvidiaHaiku.IntrSafePool.Undisturbed

namespace NvidiaHaiku.Driver

open NvidiaHaiku.Math NvidiaHaiku.IntrSafePool

/-! ## The PCI bus -/

/-- The fields of `pci_info` that are looked at. -/
structure PciInfo where
  vendor_id : BitVec 16
  bus : BitVec 8
  device : BitVec 8
  function : BitVec 8
  class_base : BitVec 8
  class_sub : BitVec 8
  deriving DecidableEq, Repr

def PCI_VENDOR_ID_NVIDIA : BitVec 16 := 0x10DE
def PCI_display : BitVec 8 := 0x03
def PCI_vga : BitVec 8 := 0x00
def PCI_3d : BitVec 8 := 0x02

/-- An entry of the bus, with what the calls made for it reply. -/
structure PciEntry where
  info : PciInfo
  /-- `new` of the device succeeds. -/
  allocated : Bool
  /-- `malloc` in `os_pci_init_handle` succeeds. -/
  handleAllocated : Bool
  /-- `rm_init_private_state`. -/
  initPrivateState : Bool
  /-- There is memory for `fDevices.Add`. -/
  added : Bool
  deriving DecidableEq, Repr

/-- `fDevices.Add` succeeds. The count of the vector is an `int32`. -/
def PciEntry.adds (entry : PciEntry) (count : ℕ) : Bool := entry.added && count + 1 < 2 ^ 31

/-- The test of `NvHaikuDevice::Probe`. -/
def PciInfo.isGpu (info : PciInfo) : Bool :=
  info.vendor_id = PCI_VENDOR_ID_NVIDIA && info.class_base = PCI_display &&
    (info.class_sub = PCI_vga || info.class_sub = PCI_3d)

/-- `os_pci_init_handle`, which copies the first entry at the address. -/
def osPciInitHandle (infos : List PciInfo) (domain : BitVec 32) (bus slot function : BitVec 8)
    (allocated : Bool) : Option PciInfo :=
  if domain ≠ 0 then none
  else
    (infos.find? fun info => info.bus = bus && info.device = slot && info.function = function).bind
      fun info => if allocated then some info else none

/-! ## Devices -/

/-- What the module acquires. Devices are told apart by their entries of the bus. -/
inductive Resource
  | pciModule
  | rm
  | controlDevice
  | eventLocks
  | poolBlock (block : Block)
  | device (serial : ℕ)
  | privateState (serial : ℕ)
  | pciHandle (serial : ℕ)
  deriving DecidableEq, Repr

/-- `NvHaikuDevice`, with the number of its entry and with `nv->handle`. -/
structure NvHaikuDevice where
  serial : ℕ
  fInitSoftware : Bool := false
  handle : Option PciInfo := none
  deriving DecidableEq, Repr

namespace NvHaikuDevice

/-- `delete` of a device. -/
def delete (d : NvHaikuDevice) : List (Op Resource) :=
  (if d.fInitSoftware then [.release (.privateState d.serial)] else []) ++
    [.release (.device d.serial)]

/-- `NvHaikuDevice::Init`. -/
def init (infos : List PciInfo) (entry : PciEntry) (d : NvHaikuDevice) :
    Status × NvHaikuDevice × List (Op Resource) :=
  let handle := osPciInitHandle infos 0 entry.info.bus entry.info.device entry.info.function
    entry.handleAllocated
  let ops := if handle.isSome then [.acquire (.pciHandle d.serial)] else []
  if !entry.initPrivateState then (.B_ERROR, { d with handle := handle }, ops)
  else
    (.B_OK, { d with handle := handle, fInitSoftware := true },
      ops ++ [.acquire (.privateState d.serial)])

/-- `NvHaikuDevice::Probe`, with the device if it succeeds. -/
def probe (infos : List PciInfo) (serial : ℕ) (entry : PciEntry) :
    Option NvHaikuDevice × List (Op Resource) :=
  if !entry.info.isGpu then (none, [])
  else if !entry.allocated then (none, [])
  else
    let (status, d, ops) := init infos entry { serial := serial }
    -- on an error the `ObjectDeleter` deletes the device
    if status ≠ .B_OK then (none, .acquire (.device serial) :: ops ++ d.delete)
    else (some d, .acquire (.device serial) :: ops)

end NvHaikuDevice

/-! ## The driver -/

/-- The fields of `NvHaikuDriver`. -/
structure NvHaikuDriver where
  /-- `fPCI` is not null. -/
  fPCI : Bool := false
  fIntrSafePool : Pool := {}
  fInitRmDone : Bool := false
  /-- `fControlDevice` is not null. -/
  fControlDevice : Bool := false
  fDevices : List NvHaikuDevice := []
  fDeviceNamesArray : DeviceNamesArray := {}

/-- The bus, and what the calls made by `Init` reply. -/
structure Environment where
  getModule : Status
  /-- What `calloc` returns for the slots of the groups of the pool. -/
  callocs : Fin kGroupCount → ℕ → Ptr
  /-- `rm_init_rm`. -/
  initRm : Bool
  /-- `new` of the control device succeeds. -/
  controlDevice : Bool
  entries : List PciEntry
  /-- The array of `fDeviceNamesArray` is allocated. -/
  namesAllocated : Bool
  /-- `strdup` of the name at an index succeeds. -/
  duplicates : ℕ → Bool

/-- What a function returns, the driver it leaves, and what it has acquired and released. -/
structure Outcome where
  status : Status
  driver : NvHaikuDriver
  ops : List (Op Resource)

namespace NvHaikuDriver

/-- The loop of `Init` over the entries of the bus, from a number on. -/
def scanPci (infos : List PciInfo) :
    ℕ → List PciEntry → List NvHaikuDevice → Status × List NvHaikuDevice × List (Op Resource)
  | _, [], fDevices => (.B_OK, fDevices, [])
  | i, entry :: rest, fDevices =>
    match NvHaikuDevice.probe infos i entry with
    | (none, ops) =>
      let (status, fDevices, later) := scanPci infos (i + 1) rest fDevices
      (status, fDevices, ops ++ later)
    | (some d, ops) =>
      -- on a failure of `Add` the `ObjectDeleter` deletes the device
      if !entry.adds fDevices.length then (.B_NO_MEMORY, fDevices, ops ++ d.delete)
      else
        let (status, fDevices, later) := scanPci infos (i + 1) rest (fDevices ++ [d])
        (status, fDevices, ops ++ later)

/-- `NvHaikuDriver::Init` of a new driver; `none` if the pool panics or an array is left. -/
def init (env : Environment) : Option Outcome :=
  if env.getModule ≠ .B_OK then some ⟨env.getModule, {}, []⟩
  else
    (Pool.maintainUndisturbed {} env.callocs).toOption.bind fun (filled, pool) =>
      let ops := .acquire .pciModule :: filled.map (Op.map .poolBlock)
      let driver : NvHaikuDriver := { fPCI := true, fIntrSafePool := pool }
      if !env.initRm then some ⟨.B_ERROR, driver, ops⟩
      else
        let ops := ops ++ [.acquire .rm]
        let driver := { driver with fInitRmDone := true }
        if !env.controlDevice then some ⟨.B_NO_MEMORY, driver, ops⟩
        else
          -- the constructor initialises the event locks
          let ops := ops ++ [.acquire .controlDevice, .acquire .eventLocks]
          let (status, fDevices, scanned) :=
            scanPci (env.entries.map PciEntry.info) 0 env.entries []
          let ops := ops ++ scanned
          let driver := { driver with fControlDevice := true, fDevices := fDevices }
          if status ≠ .B_OK then some ⟨status, driver, ops⟩
          else
            (initNames (.ofNat 32 fDevices.length) env.namesAllocated env.duplicates).map
              fun (status, names) => ⟨status, { driver with fDeviceNamesArray := names }, ops⟩

/-- `NvHaikuDriver::~NvHaikuDriver`; `none` if the pool panics. -/
def destroy (driver : NvHaikuDriver) : Option (List (Op Resource)) :=
  driver.fIntrSafePool.reclaimAllUndisturbed.toOption.map fun (reclaimed, _) =>
    driver.fDevices.flatMap NvHaikuDevice.delete ++
      (if driver.fControlDevice then [.release .eventLocks, .release .controlDevice] else []) ++
      (if driver.fInitRmDone then [.release .rm] else []) ++
      reclaimed.map (Op.map .poolBlock) ++
      (if driver.fPCI then [.release .pciModule] else [])

end NvHaikuDriver

/-- `nvidia_module_init`. -/
def nvidiaModuleInit (env : Environment) : Option Outcome :=
  (NvHaikuDriver.init env).bind fun res =>
    if res.status ≠ .B_OK then
      res.driver.destroy.map fun ops => { res with ops := res.ops ++ ops }
    else some res

/-- `nvidia_module_uninit`. -/
def nvidiaModuleUninit (driver : NvHaikuDriver) : Option (List (Op Resource)) := driver.destroy

/-- The ledger of a `nvidia_module_init`, followed by a `nvidia_module_uninit` if it succeeds. -/
def moduleLedger (env : Environment) : Option (List (Op Resource)) :=
  (nvidiaModuleInit env).bind fun res =>
    if res.status ≠ .B_OK then some res.ops
    else (nvidiaModuleUninit res.driver).map fun ops => res.ops ++ ops

/-! ## One device -/

/-- What is released before what: devices before the RM, and the RM before the PCI module. -/
def Resource.rank : Resource → Option ℕ
  | controlDevice | eventLocks | device _ | privateState _ | pciHandle _ => some 0
  | rm => some 1
  | pciModule => some 2
  | poolBlock _ => none

/-- The resource has this rank, or none. -/
def Resource.OfRank (k : ℕ) (r : Resource) : Prop := ∀ a ∈ r.rank, a = k

/-- What `delete` gives back. -/
def NvHaikuDevice.held (d : NvHaikuDevice) : Multiset Resource :=
  {.device d.serial} + if d.fInitSoftware then {.privateState d.serial} else 0

namespace PciEntry

/-- `Probe` gets as far as the PCI handle, and `malloc` succeeds. -/
def obtainsHandle (entry : PciEntry) : Bool :=
  entry.info.isGpu && entry.allocated && entry.handleAllocated

/-- `Probe` succeeds. -/
def probed (entry : PciEntry) : Bool :=
  entry.info.isGpu && entry.allocated && entry.initPrivateState

/-- The loop is left at this entry, with a number of devices added before it. -/
def stops (entry : PciEntry) (count : ℕ) : Bool := entry.probed && !entry.adds count

/-- What is acquired for the entry and never released. -/
def leak (entry : PciEntry) (i : ℕ) : Multiset Resource :=
  if entry.obtainsHandle then {.pciHandle i} else 0

end PciEntry

variable {infos : List PciInfo} {entry : PciEntry} {env : Environment} {i : ℕ}

/-- The entry is on the bus, so only `malloc` can fail. -/
theorem isSome_osPciInitHandle (listed : entry.info ∈ infos) :
    (osPciInitHandle infos 0 entry.info.bus entry.info.device entry.info.function
      entry.handleAllocated).isSome = entry.handleAllocated := by
  have found : (infos.find? fun info => info.bus = entry.info.bus &&
      info.device = entry.info.device && info.function = entry.info.function).isSome = true := by
    rw [List.find?_isSome]
    exact ⟨entry.info, listed, by simp⟩
  obtain ⟨info, first⟩ := Option.isSome_iff_exists.mp found
  rw [osPciInitHandle, if_neg (by simp), first, Option.bind_some]
  cases entry.handleAllocated <;> rfl

theorem settle_delete (d : NvHaikuDevice) : settle d.held d.delete = some 0 := by
  cases done : d.fInitSoftware <;> simp [NvHaikuDevice.held, NvHaikuDevice.delete, done, settle]

theorem releases_delete (d : NvHaikuDevice) : Releases (Resource.OfRank 0) d.delete := by
  cases done : d.fInitSoftware <;>
    simp [Releases, NvHaikuDevice.delete, done, Resource.OfRank, Resource.rank]

/-- `Init` of a device holds what `delete` gives back, and the PCI handle besides. -/
theorem init_spec (listed : entry.info ∈ infos) (i : ℕ) :
    ∃ status d ops, NvHaikuDevice.init infos entry { serial := i } = (status, d, ops) ∧
      (status = .B_OK ↔ entry.initPrivateState = true) ∧ Releases (Resource.OfRank 0) ops ∧
      settle {.device i} ops =
        some ((if entry.handleAllocated then {.pciHandle i} else 0) + d.held) := by
  -- the entry is on the bus, so its handle is found, which may still need memory
  have handle := isSome_osPciInitHandle listed
  have acquired : settle ({.device i} : Multiset Resource)
      (if entry.handleAllocated then [.acquire (.pciHandle i)] else []) =
        some ((if entry.handleAllocated then {.pciHandle i} else 0) + {.device i}) := by
    cases entry.handleAllocated <;> rfl
  have low : Releases (Resource.OfRank 0)
      (if entry.handleAllocated then [.acquire (.pciHandle i)] else []) := by
    cases entry.handleAllocated <;> simp [Releases]
  unfold NvHaikuDevice.init
  dsimp only
  rw [handle]
  cases entry.initPrivateState with
  | false =>
    refine ⟨_, _, _, rfl, by simp, low, acquired.trans ?_⟩
    simp [NvHaikuDevice.held]
  | true =>
    refine ⟨_, _, _, rfl, by simp, releases_append.mpr ⟨low, by simp [Releases]⟩, ?_⟩
    have inited := settle_trans acquired (settle_acquires [.privateState i])
    rw [add_assoc] at inited
    exact inited

/-- `Probe` holds the device it returns, and leaks the PCI handle either way. -/
theorem probe_spec (listed : entry.info ∈ infos) (i : ℕ) :
    ∃ found ops, NvHaikuDevice.probe infos i entry = (found, ops) ∧
      found.isSome = entry.probed ∧ Releases (Resource.OfRank 0) ops ∧
      settle 0 ops = some (entry.leak i + found.elim 0 NvHaikuDevice.held) := by
  have nothing : Releases (Resource.OfRank 0) ([] : List (Op Resource)) := by simp [Releases]
  unfold NvHaikuDevice.probe PciEntry.leak PciEntry.obtainsHandle PciEntry.probed
  cases entry.info.isGpu with
  | false => exact ⟨none, [], rfl, rfl, nothing, rfl⟩
  | true =>
    cases entry.allocated with
    | false => exact ⟨none, [], rfl, rfl, nothing, rfl⟩
    | true =>
      obtain ⟨status, d, ops, ran, succeeds, low, settled⟩ := init_spec listed i
      simp only [Bool.not_true, Bool.false_eq_true, if_false, ran, Bool.true_and]
      have acquires : Releases (Resource.OfRank 0) (.acquire (.device i) :: ops) :=
        fun r member => low r (by simpa using member)
      by_cases ok : status = .B_OK
      · rw [if_neg (not_not.mpr ok), succeeds.mp ok]
        exact ⟨some d, _, rfl, rfl, acquires, settled⟩
      · -- a device whose `Init` fails is deleted, and the PCI handle is not given back
        have failed : entry.initPrivateState = false :=
          Bool.eq_false_iff.mpr (fun inited => ok (succeeds.mpr inited))
        rw [if_pos ok, failed]
        refine ⟨none, _, rfl, rfl, releases_append.mpr ⟨acquires, releases_delete d⟩, ?_⟩
        exact settle_trans settled (settle_frame (settle_delete d))

/-! ## All devices -/

/-- What the devices hold. -/
def devicesHeld (fDevices : List NvHaikuDevice) : Multiset Resource :=
  (fDevices.map NvHaikuDevice.held).sum

/-- The entries that the loop looks at, when it has added a number of devices. -/
def visited : ℕ → List PciEntry → List PciEntry
  | _, [] => []
  | count, entry :: rest =>
    if entry.stops count then [entry]
    else entry :: visited (if entry.probed then count + 1 else count) rest

/-- What the loop leaks, from a number on. -/
def leaks : ℕ → List PciEntry → Multiset Resource
  | _, [] => 0
  | i, entry :: rest => entry.leak i + leaks (i + 1) rest

theorem leaks_eq_zero_iff {entries : List PciEntry} (i : ℕ) :
    leaks i entries = 0 ↔ ∀ entry ∈ entries, entry.obtainsHandle = false := by
  induction entries generalizing i with
  | nil => simp [leaks]
  | cons entry rest ih =>
    have own : entry.leak i = 0 ↔ entry.obtainsHandle = false := by
      cases obtained : entry.obtainsHandle <;> simp [PciEntry.leak, obtained]
    rw [leaks, add_eq_zero, own, ih, List.forall_mem_cons]

theorem devicesHeld_append (fDevices : List NvHaikuDevice) (d : NvHaikuDevice) :
    devicesHeld (fDevices ++ [d]) = devicesHeld fDevices + d.held := by
  simp [devicesHeld]

/-- How the loop over the bus runs, one rule for what may happen to an entry. -/
inductive Scans (infos : List PciInfo) :
    ℕ → List PciEntry → List NvHaikuDevice → Status × List NvHaikuDevice × List (Op Resource) → Prop
  | done {i : ℕ} {fDevices : List NvHaikuDevice} : Scans infos i [] fDevices (.B_OK, fDevices, [])
  | skipped {i : ℕ} {entry : PciEntry} {rest : List PciEntry}
      {fDevices fDevices' : List NvHaikuDevice} {status : Status} {ops later : List (Op Resource)}
      (failed : entry.probed = false) (low : Releases (Resource.OfRank 0) ops)
      (settled : settle 0 ops = some (entry.leak i))
      (further : Scans infos (i + 1) rest fDevices (status, fDevices', later)) :
      Scans infos i (entry :: rest) fDevices (status, fDevices', ops ++ later)
  | notAdded {i : ℕ} {entry : PciEntry} {rest : List PciEntry} {fDevices : List NvHaikuDevice}
      {d : NvHaikuDevice} {ops : List (Op Resource)} (stops : entry.stops fDevices.length = true)
      (low : Releases (Resource.OfRank 0) ops)
      (settled : settle 0 ops = some (entry.leak i + d.held)) :
      Scans infos i (entry :: rest) fDevices (.B_NO_MEMORY, fDevices, ops ++ d.delete)
  | added {i : ℕ} {entry : PciEntry} {rest : List PciEntry}
      {fDevices fDevices' : List NvHaikuDevice} {d : NvHaikuDevice} {status : Status}
      {ops later : List (Op Resource)} (probed : entry.probed = true)
      (stays : entry.stops fDevices.length = false)
      (low : Releases (Resource.OfRank 0) ops)
      (settled : settle 0 ops = some (entry.leak i + d.held))
      (further : Scans infos (i + 1) rest (fDevices ++ [d]) (status, fDevices', later)) :
      Scans infos i (entry :: rest) fDevices (status, fDevices', ops ++ later)

theorem scans_scanPci {entries : List PciEntry} (listed : ∀ entry ∈ entries, entry.info ∈ infos)
    (i : ℕ) (fDevices : List NvHaikuDevice) :
    Scans infos i entries fDevices (NvHaikuDriver.scanPci infos i entries fDevices) := by
  induction entries generalizing i fDevices with
  | nil => exact .done
  | cons entry rest ih =>
    obtain ⟨found, ops, ran, probed, low, settled⟩ := probe_spec (listed entry List.mem_cons_self) i
    have listed' : ∀ entry ∈ rest, entry.info ∈ infos := fun entry member =>
      listed entry (List.mem_cons_of_mem _ member)
    rw [NvHaikuDriver.scanPci, ran]
    cases found with
    | none => exact .skipped probed.symm low (settled.trans (by simp)) (ih listed' (i + 1) fDevices)
    | some d =>
      have probed : entry.probed = true := probed.symm
      cases added : entry.adds fDevices.length with
      | false => exact .notAdded (by simp [PciEntry.stops, probed, added]) low settled
      | true =>
        exact .added probed (by simp [PciEntry.stops, added]) low settled
          (ih listed' (i + 1) (fDevices ++ [d]))

/-- What is acquired for an entry is held besides the devices. -/
theorem settle_entry {fDevices fDevices' : List NvHaikuDevice} {ops : List (Op Resource)}
    {own : Multiset Resource} (settled : settle 0 ops = some (entry.leak i + own))
    (held : devicesHeld fDevices' = devicesHeld fDevices + own) :
    settle (devicesHeld fDevices) ops = some (entry.leak i + devicesHeld fDevices') := by
  have framed : settle (devicesHeld fDevices + 0) ops =
      some (devicesHeld fDevices + (entry.leak i + own)) := settle_frame settled
  rw [add_zero] at framed
  rw [framed, held]
  exact congrArg some (add_left_comm ..)

/-- The loop holds the devices it has added, and leaks the PCI handles. -/
theorem Scans.settles {entries : List PciEntry} {fDevices : List NvHaikuDevice}
    {result : Status × List NvHaikuDevice × List (Op Resource)}
    (scans : Scans infos i entries fDevices result) :
    Releases (Resource.OfRank 0) result.2.2 ∧
      settle (devicesHeld fDevices) result.2.2 =
        some (leaks i (visited fDevices.length entries) + devicesHeld result.2.1) := by
  induction scans with
  | done => exact ⟨by simp [Releases], by simp [settle, visited, leaks]⟩
  | @skipped i entry rest fDevices fDevices' status ops later failed low settled further ih =>
    have own : settle (devicesHeld fDevices) ops = some (entry.leak i + devicesHeld fDevices) :=
      settle_entry (settled.trans (by rw [add_zero])) (add_zero _).symm
    refine ⟨releases_append.mpr ⟨low, ih.1⟩, ?_⟩
    rw [visited, PciEntry.stops, failed, Bool.false_and, if_neg Bool.false_ne_true,
      if_neg Bool.false_ne_true, leaks, add_assoc]
    exact settle_trans own (settle_frame ih.2)
  | @notAdded i entry rest fDevices d ops stops low settled =>
    have own := settle_entry settled (devicesHeld_append fDevices d)
    refine ⟨releases_append.mpr ⟨low, releases_delete d⟩, ?_⟩
    rw [visited, if_pos stops, leaks, leaks, add_zero]
    rw [devicesHeld_append, ← add_assoc] at own
    -- the device that could not be added is deleted before the loop is left
    have deleted : settle (entry.leak i + devicesHeld fDevices + d.held) d.delete =
        some (entry.leak i + devicesHeld fDevices + 0) := settle_frame (settle_delete d)
    rw [add_zero] at deleted
    exact settle_trans own deleted
  | @added i entry rest fDevices fDevices' d status ops later probed stays low settled further ih =>
    have own := settle_entry settled (devicesHeld_append fDevices d)
    refine ⟨releases_append.mpr ⟨low, ih.1⟩, ?_⟩
    rw [List.length_append, List.length_singleton] at ih
    rw [visited, stays, if_neg Bool.false_ne_true, if_pos probed, leaks, add_assoc]
    exact settle_trans own (settle_frame ih.2)

/-! ## The module -/

namespace NvHaikuDriver

/-- What the destructor gives back. -/
def held (driver : NvHaikuDriver) : Multiset Resource :=
  devicesHeld driver.fDevices +
    ((if driver.fControlDevice then {.controlDevice, .eventLocks} else 0) +
      ((if driver.fInitRmDone then {.rm} else 0) +
        (driver.fIntrSafePool.blocks.map .poolBlock +
          (if driver.fPCI then {.pciModule} else 0))))

end NvHaikuDriver

theorem settle_flatMap_delete (fDevices : List NvHaikuDevice) :
    settle (devicesHeld fDevices) (fDevices.flatMap NvHaikuDevice.delete) = some 0 := by
  induction fDevices with
  | nil => rfl
  | cons d rest ih =>
    rw [devicesHeld, List.map_cons, List.sum_cons, List.flatMap_cons]
    exact settle_trans (settle_rest (settle_delete d)) ih

theorem Resource.rank_le_two (r : Resource) : ∀ a ∈ r.rank, a ≤ 2 := by
  cases r <;> simp [Resource.rank]

/-- The destructor gives back what the driver holds, and nothing else, in the right order. -/
theorem destroy_spec (driver : NvHaikuDriver) (bounded : driver.fIntrSafePool.Bounded) :
    ∃ ops, driver.destroy = some ops ∧ Ordered Resource.rank ops ∧
      settle driver.held ops = some 0 := by
  obtain ⟨reclaimed, pool, ran, settled⟩ := Pool.reclaimAllUndisturbed_spec bounded
  have blocks : settle (driver.fIntrSafePool.blocks.map Resource.poolBlock)
      (reclaimed.map (Op.map .poolBlock)) = some 0 :=
    settle_map (fun _ _ same => Resource.poolBlock.inj same) settled
  refine ⟨_, by rw [NvHaikuDriver.destroy, ran]; rfl, ?_, ?_⟩
  · -- the ranks of the five parts, one after another
    have devices : Releases (Resource.OfRank 0) (driver.fDevices.flatMap NvHaikuDevice.delete) := by
      intro r member
      obtain ⟨d, -, released⟩ := List.mem_flatMap.mp member
      exact releases_delete d r released
    have low : Releases (Resource.OfRank 0) (driver.fDevices.flatMap NvHaikuDevice.delete ++
        if driver.fControlDevice then [.release .eventLocks, .release .controlDevice] else []) := by
      refine releases_append.mpr ⟨devices, ?_⟩
      cases driver.fControlDevice <;> simp [Releases, Resource.OfRank, Resource.rank]
    have rm : Releases (Resource.OfRank 1) (if driver.fInitRmDone then [.release .rm] else []) := by
      cases driver.fInitRmDone <;> simp [Releases, Resource.OfRank, Resource.rank]
    have pool : Releases (Resource.OfRank 2) (reclaimed.map (Op.map .poolBlock)) :=
      releases_map fun block => by simp [Resource.OfRank, Resource.rank]
    have pci : Releases (Resource.OfRank 2)
        (if driver.fPCI then [.release .pciModule] else []) := by
      cases driver.fPCI <;> simp [Releases, Resource.OfRank, Resource.rank]
    have every : ∀ ops, Releases (fun r : Resource => ∀ a ∈ r.rank, a ≤ 2) ops :=
      fun ops r _ => r.rank_le_two
    have beforeRm := ordered_of_rank 0 low
    have beforePool := beforeRm.append_rank
      (low.mono fun r same a ha => (same a ha).le.trans zero_le_one) rm
    exact (beforePool.append_rank (every _) pool).append_rank (every _) pci
  · have control : settle (if driver.fControlDevice then
        ({.controlDevice, .eventLocks} : Multiset Resource) else 0)
        (if driver.fControlDevice then [.release .eventLocks, .release .controlDevice] else []) =
          some 0 := by
      cases driver.fControlDevice <;> rfl
    have rm : settle (if driver.fInitRmDone then ({.rm} : Multiset Resource) else 0)
        (if driver.fInitRmDone then [.release .rm] else []) = some 0 := by
      cases driver.fInitRmDone <;> rfl
    have pci : settle (if driver.fPCI then ({.pciModule} : Multiset Resource) else 0)
        (if driver.fPCI then [.release .pciModule] else []) = some 0 := by
      cases driver.fPCI <;> rfl
    have devices := settle_flatMap_delete driver.fDevices
    exact settle_trans (settle_trans (settle_trans (settle_trans (settle_rest devices)
      (settle_rest control)) (settle_rest rm)) (settle_rest blocks)) pci

/-- `Init` gets as far as the loop over the bus. -/
def Environment.scans (env : Environment) : Bool :=
  env.getModule = .B_OK && env.initRm && env.controlDevice

/-- What `Init` leaks. -/
def Environment.leaked (env : Environment) : Multiset Resource :=
  if env.scans then leaks 0 (visited 0 env.entries) else 0

/-- The loop of `Init`. -/
theorem Environment.scans_bus (env : Environment) :
    Scans (env.entries.map PciEntry.info) 0 env.entries []
      (NvHaikuDriver.scanPci (env.entries.map PciEntry.info) 0 env.entries []) :=
  scans_scanPci (fun _ => List.mem_map_of_mem) 0 []

/-- The loop adds no more devices than an `int32` can count. -/
theorem Scans.length_lt {entries : List PciEntry} {fDevices : List NvHaikuDevice}
    {result : Status × List NvHaikuDevice × List (Op Resource)}
    (scans : Scans infos i entries fDevices result) (bound : fDevices.length < 2 ^ 31) :
    result.2.1.length < 2 ^ 31 := by
  induction scans with
  | done | notAdded => exact bound
  | skipped _ _ _ _ ih => exact ih bound
  | added probed stays _ _ _ ih =>
    apply ih
    simp only [PciEntry.stops, probed, PciEntry.adds, Bool.true_and, Bool.not_eq_false',
      Bool.and_eq_true, decide_eq_true_eq] at stays
    rw [List.length_append, List.length_singleton]
    exact stays.2

/-- The PCI module and the first `Maintain` of the pool. -/
theorem exists_filled (callocs : Fin kGroupCount → ℕ → Ptr) :
    ∃ filled pool, Pool.maintainUndisturbed {} callocs = .ok (filled, pool) ∧ pool.Bounded ∧
      Releases (Resource.OfRank 0) (.acquire .pciModule :: filled.map (Op.map .poolBlock)) ∧
      settle 0 (.acquire .pciModule :: filled.map (Op.map .poolBlock)) =
        some ({.pciModule} + pool.blocks.map Resource.poolBlock) := by
  have fresh : Pool.Bounded {} := ⟨fun i => Nat.zero_le _, Nat.zero_le _⟩
  obtain ⟨filled, pool, maintained, bounded, settled⟩ := Pool.maintainUndisturbed_spec fresh callocs
  refine ⟨filled, pool, maintained, bounded, ?_, ?_⟩
  · have reclaimed : Releases (Resource.OfRank 0) (filled.map (Op.map Resource.poolBlock)) :=
      releases_map fun block => by simp [Resource.OfRank, Resource.rank]
    exact fun r member => reclaimed r (by simpa using member)
  · have blocks : settle 0 (filled.map (Op.map .poolBlock)) =
        some (pool.blocks.map Resource.poolBlock) := by
      rw [Pool.blocks_default] at settled
      exact settle_map (fun _ _ same => Resource.poolBlock.inj same) settled
    have framed : settle ({.pciModule} + 0) (filled.map (Op.map .poolBlock)) =
        some ({.pciModule} + pool.blocks.map Resource.poolBlock) := settle_frame blocks
    exact framed

/-- How `Init` ends, when the PCI module and the first `Maintain` have acquired `ops`. -/
inductive InitEnds (env : Environment) (pool : Pool) (ops : List (Op Resource)) : Outcome → Prop
  | noModule (failed : env.getModule ≠ .B_OK) : InitEnds env pool ops ⟨env.getModule, {}, []⟩
  | noRm (found : env.getModule = .B_OK) (failed : env.initRm = false) :
      InitEnds env pool ops ⟨.B_ERROR, { fPCI := true, fIntrSafePool := pool }, ops⟩
  | noControl (found : env.getModule = .B_OK) (rm : env.initRm = true)
      (failed : env.controlDevice = false) :
      InitEnds env pool ops ⟨.B_NO_MEMORY,
        { fPCI := true, fIntrSafePool := pool, fInitRmDone := true }, ops ++ [.acquire .rm]⟩
  | notAdded {status : Status} {fDevices : List NvHaikuDevice} {scanned : List (Op Resource)}
      (scans : env.scans = true)
      (ran : NvHaikuDriver.scanPci (env.entries.map PciEntry.info) 0 env.entries [] =
        (status, fDevices, scanned)) (failed : status ≠ .B_OK) :
      InitEnds env pool ops ⟨status, ⟨true, pool, true, true, fDevices, {}⟩,
        ops ++ [.acquire .rm] ++ [.acquire .controlDevice, .acquire .eventLocks] ++ scanned⟩
  | named {status : Status} {fDevices : List NvHaikuDevice} {scanned : List (Op Resource)}
      {names : DeviceNamesArray} (scans : env.scans = true)
      (ran : NvHaikuDriver.scanPci (env.entries.map PciEntry.info) 0 env.entries [] =
        (.B_OK, fDevices, scanned))
      (made : initNames (.ofNat 32 fDevices.length) env.namesAllocated env.duplicates =
        some (status, names)) :
      InitEnds env pool ops ⟨status, ⟨true, pool, true, true, fDevices, names⟩,
        ops ++ [.acquire .rm] ++ [.acquire .controlDevice, .acquire .eventLocks] ++ scanned⟩

theorem exists_initEnds {filled : List (Op Block)} {pool : Pool}
    (maintained : Pool.maintainUndisturbed {} env.callocs = .ok (filled, pool)) :
    ∃ res, NvHaikuDriver.init env = some res ∧
      InitEnds env pool (.acquire .pciModule :: filled.map (Op.map .poolBlock)) res := by
  unfold NvHaikuDriver.init
  by_cases found : env.getModule = .B_OK
  · rw [if_neg (not_not.mpr found), maintained]
    dsimp only [Except.toOption, Option.bind_some]
    cases rm : env.initRm with
    | false => exact ⟨_, rfl, .noRm found rm⟩
    | true =>
      cases control : env.controlDevice with
      | false => exact ⟨_, rfl, .noControl found rm control⟩
      | true =>
        have scans : env.scans = true := by simp [Environment.scans, found, rm, control]
        simp only [Bool.not_true, Bool.false_eq_true, if_false]
        cases ran : NvHaikuDriver.scanPci (env.entries.map PciEntry.info) 0 env.entries [] with
        | mk status scanned =>
          by_cases ok : status = .B_OK
          · have few : scanned.1.length < 2 ^ 31 := by
              have bound := env.scans_bus.length_lt (by simp)
              rwa [ran] at bound
            obtain ⟨status', names, made, -⟩ :=
              initNames_cases few env.namesAllocated env.duplicates
            rw [ok] at ran
            exact ⟨_, by rw [if_neg (not_not.mpr ok), made]; rfl, .named scans ran made⟩
          · exact ⟨_, if_pos ok, .notAdded scans ran ok⟩
  · -- no PCI module: nothing else is tried
    exact ⟨_, if_pos found, .noModule found⟩

theorem releases_acquires (rs : List Resource) :
    Releases (Resource.OfRank 0) (rs.map Op.acquire) := by
  simp [Releases]

/-- What is held when the loop over the bus has been left. -/
theorem settle_scanned {pool : Pool} {ops scanned : List (Op Resource)} {status : Status}
    {fDevices : List NvHaikuDevice} (low : Releases (Resource.OfRank 0) ops)
    (start : settle 0 ops = some ({.pciModule} + pool.blocks.map Resource.poolBlock))
    (scans : env.scans = true)
    (ran : NvHaikuDriver.scanPci (env.entries.map PciEntry.info) 0 env.entries [] =
      (status, fDevices, scanned)) (names : DeviceNamesArray) :
    Releases (Resource.OfRank 0) (ops ++ [.acquire .rm] ++
        [.acquire .controlDevice, .acquire .eventLocks] ++ scanned) ∧
      settle 0 (ops ++ [.acquire .rm] ++ [.acquire .controlDevice, .acquire .eventLocks] ++
        scanned) =
          some (env.leaked + NvHaikuDriver.held ⟨true, pool, true, true, fDevices, names⟩) := by
  have ran' := env.scans_bus
  rw [ran] at ran'
  obtain ⟨low', settled'⟩ := ran'.settles
  rw [List.length_nil] at settled'
  refine ⟨releases_append.mpr ⟨releases_append.mpr ⟨releases_append.mpr
    ⟨low, releases_acquires [.rm]⟩, releases_acquires [.controlDevice, .eventLocks]⟩, low'⟩, ?_⟩
  have opened := settle_trans (settle_trans start (settle_acquires [Resource.rm]))
    (settle_acquires [.controlDevice, .eventLocks])
  refine (settle_trans opened (by
    rw [← add_zero (_ + _)]
    exact settle_frame settled')).trans (congrArg some ?_)
  -- what is left is to put the parts in the order of `held`
  rw [Environment.leaked, if_pos scans]
  change _ = leaks 0 (visited 0 env.entries) + (devicesHeld _ +
    (↑[Resource.controlDevice, .eventLocks] + (↑[Resource.rm] +
      (pool.blocks.map Resource.poolBlock + {.pciModule}))))
  abel

/-- `Init` returns, holds what the destructor gives back, and leaks PCI handles. -/
theorem driverInit_spec (env : Environment) :
    ∃ res, NvHaikuDriver.init env = some res ∧ res.driver.fIntrSafePool.Bounded ∧
      Releases (Resource.OfRank 0) res.ops ∧
      settle 0 res.ops = some (env.leaked + res.driver.held) := by
  -- `Maintain` fills the pool first, whatever comes after it
  obtain ⟨filled, pool, maintained, bounded, low, start⟩ := exists_filled env.callocs
  obtain ⟨res, returned, ends⟩ := exists_initEnds maintained
  have nothing : env.scans = false → env.leaked = 0 := by
    intro stopped
    simp [Environment.leaked, stopped]
  refine ⟨res, returned, ?_⟩
  cases ends with
  | noModule failed =>
    have fresh : Pool.Bounded {} := ⟨fun i => Nat.zero_le _, Nat.zero_le _⟩
    rw [nothing (by simp [Environment.scans, failed])]
    exact ⟨fresh, by simp [Releases], by
      simp [NvHaikuDriver.held, devicesHeld, Pool.blocks_default, settle]⟩
  | noRm found failed =>
    refine ⟨bounded, low, start.trans (congrArg some ?_)⟩
    rw [nothing (by simp [Environment.scans, failed])]
    change _ = 0 + (0 + (0 + (0 + (pool.blocks.map Resource.poolBlock + {.pciModule}))))
    abel
  | noControl found rm failed =>
    have started := settle_trans start (settle_acquires [Resource.rm])
    refine ⟨bounded, releases_append.mpr ⟨low, releases_acquires [.rm]⟩,
      started.trans (congrArg some ?_)⟩
    rw [nothing (by simp [Environment.scans, failed])]
    change _ =
      0 + (0 + (0 + (↑[Resource.rm] + (pool.blocks.map Resource.poolBlock + {.pciModule}))))
    abel
  | notAdded scans ran => exact ⟨bounded, settle_scanned low start scans ran {}⟩
  | named scans ran => exact ⟨bounded, settle_scanned low start scans ran _⟩

/-- The whole ledger settles with the leaked PCI handles. -/
theorem moduleLedger_spec (env : Environment) :
    ∃ ops, moduleLedger env = some ops ∧ Ordered Resource.rank ops ∧
      settle 0 ops = some env.leaked := by
  obtain ⟨res, ran, bounded, low, settled⟩ := driverInit_spec env
  obtain ⟨ops, destroyed, ordered, released⟩ := destroy_spec res.driver bounded
  have whole : moduleLedger env = some (res.ops ++ ops) := by
    rw [moduleLedger, nvidiaModuleInit, ran, Option.bind_some]
    by_cases ok : res.status = .B_OK
    · rw [if_neg (not_not.mpr ok), Option.bind_some, if_neg (not_not.mpr ok), nvidiaModuleUninit,
        destroyed]
      rfl
    · rw [if_pos ok, destroyed, Option.map_some, Option.bind_some]
      dsimp only
      rw [if_pos ok]
  refine ⟨_, whole, ?_, ?_⟩
  · exact ordered_append 0 (ordered_of_rank 0 low) ordered
      (low.mono fun r same a ha => (same a ha).le) fun r _ a _ => Nat.zero_le a
  · have left : settle (env.leaked + res.driver.held) ops = some (env.leaked + 0) :=
      settle_frame released
    rw [add_zero] at left
    exact settle_trans settled left

/-- A probed device gets a PCI handle. -/
def Environment.HandleObtained (env : Environment) : Prop :=
  env.scans = true ∧ ∃ entry ∈ visited 0 env.entries, entry.obtainsHandle = true

theorem leaked_eq_zero_iff : env.leaked = 0 ↔ ¬ env.HandleObtained := by
  rw [Environment.leaked, Environment.HandleObtained]
  cases env.scans with
  | false => simp
  | true => simp [leaks_eq_zero_iff]

/-- Acquire and release are balanced and in order just when no probed device gets a PCI
handle, which is the one thing that is never given back. -/
theorem ledgerBalanced_iff (env : Environment) :
    (∃ ops, moduleLedger env = some ops ∧ Balanced ops ∧ Ordered Resource.rank ops) ↔
      ¬ env.HandleObtained := by
  obtain ⟨ops, ledger, ordered, settled⟩ := moduleLedger_spec env
  rw [← leaked_eq_zero_iff]
  constructor
  · rintro ⟨ops', ledger', balanced, -⟩
    obtain rfl := Option.some.inj (ledger.symm.trans ledger')
    exact Option.some.inj (settled.symm.trans balanced)
  · intro nothing
    exact ⟨ops, ledger, settled.trans (congrArg some nothing), ordered⟩

/-- One GPU on the bus, and calls that all succeed. -/
def oneGpu : Environment where
  getModule := .B_OK
  callocs := fun i n => some (kGroupMaxItemCount * i + n)
  initRm := true
  controlDevice := true
  entries := [⟨⟨PCI_VENDOR_ID_NVIDIA, 1, 0, 0, PCI_display, PCI_vga⟩, true, true, true, true⟩]
  namesAllocated := true
  duplicates := fun _ => true

/-- The handle of the GPU is still allocated after `nvidia_module_uninit`. -/
theorem not_ledgerBalanced_oneGpu :
    ¬ ∃ ops, moduleLedger oneGpu = some ops ∧ Balanced ops ∧ Ordered Resource.rank ops := by
  rintro ⟨ops, ledger, balanced, -⟩
  obtain ⟨ops', ledger', -, settled⟩ := moduleLedger_spec oneGpu
  obtain rfl := Option.some.inj (ledger.symm.trans ledger')
  have nothing := Option.some.inj (settled.symm.trans balanced)
  exact absurd nothing (by decide : oneGpu.leaked ≠ 0)

end NvidiaHaiku.Driver

/-
# What the construction of a bitmap leaves behind

The constructor of `NvKmsBitmap` allocates memory, exports it to a file descriptor,
registers a surface for it and maps it. A failure throws, and the members that are set
and the local variables release what they hold.

`NvRmDevice::MapMemory` makes the mapping of the resource manager before it asks the
driver for an area, with `NV_HAIKU_MAP`. In between nothing holds the mapping, so it
stays when that last call fails. When it succeeds, the result is assigned to `fMapping`,
and the assignment does not take the area over, so nothing holds the area of a bitmap that
has been made. The calls made by destructors succeed.
-/

import NvidiaHaiku.Accelerant.Handles
import NvidiaHaiku.Libc.Constants
import NvidiaHaiku.Math.Scope

namespace NvidiaHaiku.Accelerant

open NvidiaHaiku.Math NvidiaHaiku.Sdk Handles Attempt
open NvidiaHaiku.Libc (B_PAGE_SIZE)

/-- What the constructor acquires. -/
inductive Resource
  /-- An object, a surface or a file descriptor. -/
  | handle (n : Name)
  /-- What `UnmapMemory` undoes. -/
  | rmMapping (m : Unmap)
  | area (id : AreaId)
  deriving DecidableEq, Repr

/-- The resource that a wrapper holds. -/
def Handles.Object.resource (o : Object) : Resource := .handle o.name

/-- What the calls reply. What is given out is set, so that its destructor releases it. -/
structure ConstructReplies where
  /-- `NvRmObject::Alloc` of the memory. -/
  allocate : Reply { o : NvRmObject // o.isSet }
  /-- `open` of the control device. -/
  openControl : Reply { f : FileDesc // f.isSet }
  /-- `NV0000_CTRL_CMD_OS_UNIX_EXPORT_OBJECT_TO_FD`. -/
  exportObject : Reply Unit
  registerSurface : Reply { h : SurfaceHandle // h ≠ 0 }
  /-- `open` of the device, which is asserted to succeed. -/
  openDevice : Option { f : FileDesc // f.isSet }
  /-- `NvRmApi::MapMemory`. -/
  mapMemory : Reply Address
  /-- `NV_HAIKU_MAP`: the address and the area, which has passed `CheckErrno`. -/
  haikuMap : Reply (Address × {area : AreaId // 0 ≤ area.toInt})

/-- The pitch of a bitmap. -/
def bitmapBytesPerRow (width : BitVec 32) : BitVec 32 :=
  (alignUp ((4 * width).setWidth 64) 256).setWidth 32

/-- The length of the mapping of a bitmap. -/
def bitmapLength (width height : BitVec 32) : BitVec 64 :=
  alignUp ((bitmapBytesPerRow width * height).setWidth 64) B_PAGE_SIZE

/-- `NvRmDevice::ExportObjectToFd`. -/
def exportObjectToFd (replies : ConstructReplies) : Attempt Error Resource FileDesc := do
  let outFd ← call replies.openControl
  let fd := (Object.fileDesc outFd.1).resource
  acquire fd
  detaching fd (call replies.exportObject)
  return outFd.1

/-- `NvRmDevice::MapMemory`, without flags. -/
def mapMemory (rm : Address) (hDevice hMemory : NvHandle) (length : BitVec 64)
    (replies : ConstructReplies) : Attempt Error Resource NvRmMemoryMapping :=
  match replies.openDevice with
  | none => abort
  | some memFd => do
    let fd := (Object.fileDesc memFd.1).resource
    acquire fd
    holding fd do
      let pLinearAddress ← call replies.mapMemory
      acquire (.rmMapping ⟨rm, hDevice, hMemory, pLinearAddress, 0⟩)
      -- a throw from here on does not call `UnmapMemory`
      let mapped ← call replies.haikuMap
      acquire (.area mapped.2.1)
      return {
        fRm := rm
        fHDevice := hDevice
        fHMemory := hMemory
        fPLinearAddress := pLinearAddress
        fFlags := 0
        fAddress := mapped.1
        fSize := length
        fArea := mapped.2.1 }

/-- `NvKmsBitmap::NvKmsBitmap(rmDev, kmsDev, width, height, colorSpace)`. -/
def NvKmsBitmap.construct (device : NvRmObject) (kmsDev : Address)
    (width height colorSpace : BitVec 32) (replies : ConstructReplies) :
    Attempt Error Resource NvKmsBitmap :=
  construction <|
    if colorSpace ≠ B_RGB32 ∧ colorSpace ≠ B_RGBA32 then throw EINVAL
    else do
      let memory ← call replies.allocate
      member (Object.rmObject memory.1).resource
      let memoryFd ← exportObjectToFd replies
      holding (Object.fileDesc memoryFd).resource do
        let handle ← call replies.registerSurface
        let surface : NvKmsSurface := ⟨kmsDev, handle.1⟩
        member (Object.kmsSurface surface).resource
        let mapping ← mapMemory device.fRm device.fHObject memory.1.fHObject
          (bitmapLength width height) replies
        return {
          fMemory := memory.1
          fSurface := surface
          fMapping := NvRmMemoryMapping.assign {} mapping
          fWidth := width
          fHeight := height
          fBytesPerRow := bitmapBytesPerRow width
          fColorSpace := colorSpace }

/-- After a return the parts of the bitmap are held, the area of its mapping among them, and
nothing else. After a throw nothing is held. -/
def Settled (outcome : Outcome Error NvKmsBitmap) (left : Multiset Resource) : Prop :=
  match outcome with
  | .returned bitmap => left =
    {.area bitmap.fMapping.fArea, .rmMapping bitmap.fMapping.unmap,
      (Object.kmsSurface bitmap.fSurface).resource, (Object.rmObject bitmap.fMemory).resource}
  | .thrown _ => left = 0
  | .noReturn => True

/-- The bitmap is built entirely or not at all. -/
def BuiltOrUndone (attempt : Attempt Error Resource NvKmsBitmap) : Prop :=
  attempt.wp 0 fun outcome _ left => Settled outcome left

/-- All calls before `NV_HAIKU_MAP` succeed, so that the construction gets there. -/
@[mk_iff]
structure ConstructReplies.ReachesMap (replies : ConstructReplies) (colorSpace : BitVec 32) :
    Prop where
  accepted : colorSpace = B_RGB32 ∨ colorSpace = B_RGBA32
  allocated : ∃ memory, replies.allocate = .ok memory
  opened : ∃ outFd, replies.openControl = .ok outFd
  exported : replies.exportObject = .ok ()
  registered : ∃ handle, replies.registerSurface = .ok handle
  openedDevice : ∃ memFd, replies.openDevice = some memFd
  mapped : ∃ pLinearAddress, replies.mapMemory = .ok pLinearAddress

/-- The replies as the constructor sees them. -/
def ConstructReplies.toCreate (replies : ConstructReplies) (device : NvRmObject)
    (length : BitVec 64) : CreateReplies where
  allocate := replies.allocate.map (·.1)
  exportToFd := do
    let _ ← replies.openControl
    replies.exportObject
  registerSurface := replies.registerSurface.map (·.1)
  mapMemory := do
    let memory ← replies.allocate
    let pLinearAddress ← replies.mapMemory
    let (address, area) ← replies.haikuMap
    return ⟨device.fRm, device.fHObject, memory.1.fHObject, pLinearAddress, 0, address, length,
      area.1⟩

/-! ## What the calls leave -/

variable {replies : ConstructReplies} {held : Multiset Resource}

theorem wp_exportObjectToFd
    {Q : Outcome Error FileDesc → List Resource → Multiset Resource → Prop} :
    wp held (exportObjectToFd replies) Q ↔
      match replies.openControl, replies.exportObject with
      | .error e, _ => Q (.thrown e) [] held
      | .ok _, .error e => Q (.thrown e) [] held
      | .ok outFd, .ok () =>
        Q (.returned outFd.1) [] ((Object.fileDesc outFd.1).resource ::ₘ held) := by
  unfold exportObjectToFd
  cases replies.openControl with
  | error e => simp
  | ok outFd => cases replies.exportObject <;> simp

/-- The mapping of the resource manager stays when `NV_HAIKU_MAP` fails. -/
theorem wp_mapMemory {rm : Address} {hDevice hMemory : NvHandle} {length : BitVec 64}
    {Q : Outcome Error NvRmMemoryMapping → List Resource → Multiset Resource → Prop} :
    wp held (mapMemory rm hDevice hMemory length replies) Q ↔
      match replies.openDevice, replies.mapMemory, replies.haikuMap with
      | none, _, _ => Q .noReturn [] held
      | some _, .error e, _ => Q (.thrown e) [] held
      | some _, .ok pLinearAddress, .error e =>
        Q (.thrown e) [] (.rmMapping ⟨rm, hDevice, hMemory, pLinearAddress, 0⟩ ::ₘ held)
      | some _, .ok pLinearAddress, .ok (address, area) =>
        Q (.returned ⟨rm, hDevice, hMemory, pLinearAddress, 0, address, length, area.1⟩) []
          (.area area.1 ::ₘ .rmMapping ⟨rm, hDevice, hMemory, pLinearAddress, 0⟩ ::ₘ held) := by
  unfold mapMemory
  cases replies.openDevice with
  | none => simp
  | some memFd =>
    cases replies.mapMemory with
    | error e => simp
    | ok pLinearAddress => cases replies.haikuMap <;> simp [Object.resource]

variable (device : NvRmObject) (kmsDev : Address) (width height colorSpace : BitVec 32)
  (replies : ConstructReplies)

/-- The constructor ends as `NvKmsBitmap.create` does, if its assertion holds. -/
theorem construct_outcome (kms : Kms) :
    (NvKmsBitmap.construct device kmsDev width height colorSpace replies).outcome = .noReturn ∨
      (NvKmsBitmap.construct device kmsDev width height colorSpace replies).outcome =
        .ofExcept (NvKmsBitmap.create kmsDev width height colorSpace
          (replies.toCreate device (bitmapLength width height)) kms).1 := by
  unfold NvKmsBitmap.construct NvKmsBitmap.create
  by_cases rejected : colorSpace ≠ B_RGB32 ∧ colorSpace ≠ B_RGBA32
  · simp only [if_pos rejected]
    exact Or.inr rfl
  · obtain ⟨allocate, openControl, exportObject, registerSurface, openDevice, mapMemory,
      haikuMap⟩ := replies
    simp only [if_neg rejected]
    -- the calls in their order, with the assertion on the descriptor between them
    cases allocate with
    | error e => exact Or.inr rfl
    | ok memory =>
      cases openControl with
      | error e => exact Or.inr rfl
      | ok outFd =>
        cases exportObject with
        | error e => exact Or.inr rfl
        | ok _ =>
          cases registerSurface with
          | error e => exact Or.inr rfl
          | ok handle =>
            cases openDevice with
            | none => exact Or.inl rfl
            | some memFd =>
              cases mapMemory with
              | error e => exact Or.inr rfl
              | ok pLinearAddress => cases haikuMap <;> exact Or.inr rfl

/-- The assignment to a bitmap's mapping loses the area of the source. -/
theorem assign_fArea (mapping : NvRmMemoryMapping) :
    (NvRmMemoryMapping.assign {} mapping).fArea = -1 := rfl

/-- Something that is left after a throw is held by nobody. -/
theorem not_settled_thrown {e : Error} {left : Resource} :
    ¬ Settled (.thrown e) {left} := Multiset.singleton_ne_zero _

/-- The area of a bitmap without one is not among what is left. -/
theorem not_settled_returned {bitmap : NvKmsBitmap} {left : Multiset Resource}
    (lost : bitmap.fMapping.fArea = -1) (others : .area (-1) ∉ left) :
    ¬ Settled (.returned bitmap) left := by
  rintro (rfl : left = _)
  exact others (lost ▸ Multiset.mem_cons_self ..)

/-- What the constructor leaves is settled just when it does not get to `NV_HAIKU_MAP`. -/
theorem wp_construct :
    (NvKmsBitmap.construct device kmsDev width height colorSpace replies).wp 0
      fun outcome _ left => Settled outcome left ↔ ¬ replies.ReachesMap colorSpace := by
  unfold NvKmsBitmap.construct
  rw [ConstructReplies.reachesMap_iff]
  by_cases rejected : colorSpace ≠ B_RGB32 ∧ colorSpace ≠ B_RGBA32
  · simp [rejected, settle, Settled]
  · have accepted : colorSpace = B_RGB32 ∨ colorSpace = B_RGBA32 := by tauto
    obtain ⟨allocate, openControl, exportObject, registerSurface, openDevice, mapMemory,
      haikuMap⟩ := replies
    simp only [if_neg rejected, wp_construction, wp_bind]
    -- one case for each step that may fail
    cases allocate with
    | error e => simp [settle, Settled]
    | ok memory =>
      simp only [wp_call_ok, wp_member, wp_exportObjectToFd]
      cases openControl with
      | error e => simp [settle, Settled]
      | ok outFd =>
        cases exportObject with
        | error e => simp [settle, Settled]
        | ok _ =>
          simp only [wp_holding, wp_bind]
          cases registerSurface with
          | error e => simp [settle, Settled]
          | ok handle =>
            simp only [wp_call_ok, wp_member, wp_mapMemory]
            cases openDevice with
            | none => simp [Settled]
            | some memFd =>
              cases mapMemory with
              | error e => simp [settle, Settled, Object.resource, Object.name]
              | ok pLinearAddress =>
                cases haikuMap with
                | error e =>
                  simpa [settle, Object.resource, Object.name, accepted]
                    using not_settled_thrown
                | ok mapped =>
                  have given : mapped.2.1 ≠ -1 := by
                    intro same
                    exact absurd (same ▸ mapped.2.2) (by decide)
                  simp [Object.resource, Object.name, accepted]
                  refine not_settled_returned (assign_fArea _) ?_
                  simpa using Ne.symm given

/-- A bitmap is built entirely or not at all just when the construction does not get to
`NV_HAIKU_MAP`. If that call fails the mapping of the resource manager stays, and if it
succeeds the bitmap does not hold its area. -/
theorem builtOrUndone_iff :
    BuiltOrUndone (NvKmsBitmap.construct device kmsDev width height colorSpace replies) ↔
      ¬ replies.ReachesMap colorSpace := by
  obtain ⟨left, settled, iff⟩ := wp_construct device kmsDev width height colorSpace replies
  constructor
  · rintro ⟨left', settled', undone⟩
    obtain rfl := Option.some.inj (settled.symm.trans settled')
    exact iff.mp undone
  · exact fun fine => ⟨left, settled, iff.mpr fine⟩

/-- All calls succeed but `NV_HAIKU_MAP`, which returns `B_NO_MEMORY`. -/
def noArea : ConstructReplies where
  allocate := .ok ⟨⟨1, 5⟩, rfl⟩
  openControl := .ok ⟨⟨3⟩, rfl⟩
  exportObject := .ok ()
  registerSurface := .ok ⟨7, by decide⟩
  openDevice := some ⟨⟨4⟩, rfl⟩
  mapMemory := .ok 4096
  haikuMap := .error (.errno 0x80000000)

/-- All calls succeed. -/
def withArea : ConstructReplies :=
  { noArea with haikuMap := .ok (0x3000, ⟨9, by decide⟩) }

/-- The constructor throws for want of an area, and the mapping of the resource manager
stays; or it returns, and area 9 stays that its bitmap does not know of. -/
theorem not_builtOrUndone_noArea :
    ¬ BuiltOrUndone (NvKmsBitmap.construct ⟨1, 2⟩ 1 640 480 B_RGB32 noArea) ∧
      ¬ BuiltOrUndone (NvKmsBitmap.construct ⟨1, 2⟩ 1 640 480 B_RGB32 withArea) := by
  constructor
  · rintro ⟨left, settled, undone⟩
    have stays : settle 0 (NvKmsBitmap.construct ⟨1, 2⟩ 1 640 480 B_RGB32 noArea).ops =
        some {.rmMapping ⟨1, 2, 5, 4096, 0⟩} := by decide
    obtain rfl := Option.some.inj (stays.symm.trans settled)
    exact not_settled_thrown undone
  · rintro ⟨left, settled, undone⟩
    have stays : settle 0 (NvKmsBitmap.construct ⟨1, 2⟩ 1 640 480 B_RGB32 withArea).ops =
        some {.area 9, .rmMapping ⟨1, 2, 5, 4096, 0⟩, .handle (.unregisterSurface 1 7),
          .handle (.free 1 5)} := by decide
    obtain rfl := Option.some.inj (stays.symm.trans settled)
    exact not_settled_returned rfl (by decide) undone

end NvidiaHaiku.Accelerant

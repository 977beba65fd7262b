/-
# Bitmaps and the surfaces behind them

An `NvKmsBitmap` owns three things: a memory object of the resource manager, the
surface registered for it at KMS, and its mapping. Its constructor acquires them
one after another, and its move assignment releases the target's three and takes
over the source's. Each call to the resource manager or to KMS may fail, and a
failure throws and leaves what was done by then.

Destructors cannot throw. The calls they make are taken to succeed, since the
process ends otherwise.
-/

import Mathlib.Data.Finset.Basic
import NvidiaHaiku.Sdk.MemoryMapping

namespace NvidiaHaiku.Accelerant

open NvidiaHaiku.Sdk

/-- A `std::system_error`, with an errno or an `NV_STATUS`. -/
inductive Error
  | errno (code : BitVec 32)
  | nvStatus (code : BitVec 32)
  deriving DecidableEq, Repr

def EINVAL : Error := .errno 0x80000005

/-- What a call returns or throws. -/
abbrev Reply (α : Type) := Except Error α

abbrev SurfaceHandle := BitVec 32

/-- What KMS knows of its surfaces. -/
structure Kms where
  registered : Finset SurfaceHandle := ∅
  /-- The surface committed by the last successful `NVKMS_IOCTL_SET_MODE`. -/
  committed : Option SurfaceHandle := none
  deriving DecidableEq

/-- A wrapper of an RM object, which it frees. -/
structure NvRmObject where
  fRm : Address := 0
  fHObject : NvHandle := 0
  deriving DecidableEq, Repr

/-- A wrapper of a registered surface, which it unregisters. -/
structure NvKmsSurface where
  fKmsDev : Address := 0
  fHandle : SurfaceHandle := 0
  deriving DecidableEq, Repr

def B_NO_COLOR_SPACE : BitVec 32 := 0x0000
def B_RGB32 : BitVec 32 := 0x0008
def B_RGBA32 : BitVec 32 := 0x2008

/-- The fields, as the default constructor sets them. -/
structure NvKmsBitmap where
  fMemory : NvRmObject := {}
  fSurface : NvKmsSurface := {}
  fMapping : NvRmMemoryMapping := {}
  fWidth : BitVec 32 := 0
  fHeight : BitVec 32 := 0
  fBytesPerRow : BitVec 32 := 0
  fColorSpace : BitVec 32 := B_NO_COLOR_SPACE
  deriving DecidableEq, Repr

/-- The wrapper holds an object. -/
def NvRmObject.isSet (o : NvRmObject) : Bool := o.fHObject ≠ 0

/-- The wrapper holds a surface. -/
def NvKmsSurface.isSet (s : NvKmsSurface) : Bool := s.fHandle ≠ 0

namespace Kms

/-- `NVKMS_IOCTL_REGISTER_SURFACE`. -/
def register (kms : Kms) (handle : SurfaceHandle) : Kms :=
  { kms with registered := insert handle kms.registered }

/-- `NvKmsSurface::Delete` of a surface, if it is set. -/
def unregister (kms : Kms) (surface : NvKmsSurface) : Kms :=
  if surface.isSet then { kms with registered := kms.registered.erase surface.fHandle } else kms

end Kms

/-! ## The constructor -/

/-- What the calls made by the constructor reply. -/
structure CreateReplies where
  /-- `nvKmsKapiAllocateVideoMemory`. -/
  allocate : Reply NvRmObject
  exportToFd : Reply Unit
  registerSurface : Reply SurfaceHandle
  mapMemory : Reply NvRmMemoryMapping

/-- `AlignUp` of `NvKmsBitmap.cpp`. -/
def alignUp (val align : BitVec 64) : BitVec 64 := (val + (align - 1)) / align * align

/-- `NvKmsBitmap::NvKmsBitmap(rmDev, kmsDev, width, height, colorSpace)`. After a throw
the members that have been set are destroyed. -/
def NvKmsBitmap.create (kmsDev : Address) (width height colorSpace : BitVec 32)
    (replies : CreateReplies) (kms : Kms) : Reply NvKmsBitmap × Kms :=
  if colorSpace ≠ B_RGB32 ∧ colorSpace ≠ B_RGBA32 then (.error EINVAL, kms)
  else match replies.allocate with
    | .error e => (.error e, kms)
    | .ok memory =>
      match replies.exportToFd with
      | .error e => (.error e, kms)
      | .ok () =>
        match replies.registerSurface with
        | .error e => (.error e, kms)
        | .ok handle =>
          let surface : NvKmsSurface := { fKmsDev := kmsDev, fHandle := handle }
          match replies.mapMemory with
          -- `fSurface` is set by then, and its destructor unregisters it
          | .error e => (.error e, (kms.register handle).unregister surface)
          | .ok mapping =>
            (.ok
              { fMemory := memory
                fSurface := surface
                fMapping := NvRmMemoryMapping.assign {} mapping
                fWidth := width
                fHeight := height
                fBytesPerRow := (alignUp ((4 * width).setWidth 64) 256).setWidth 32
                fColorSpace := colorSpace },
              kms.register handle)

/-- What the constructor has done when it returns. -/
theorem NvKmsBitmap.eq_of_create {kmsDev : Address} {width height colorSpace : BitVec 32}
    {replies : CreateReplies} {kms : Kms} {bitmap : NvKmsBitmap}
    (made : (NvKmsBitmap.create kmsDev width height colorSpace replies kms).1 = .ok bitmap) :
    (colorSpace = B_RGB32 ∨ colorSpace = B_RGBA32) ∧ ∃ memory handle mapping,
      replies.allocate = .ok memory ∧ replies.registerSurface = .ok handle ∧
      replies.mapMemory = .ok mapping ∧
      bitmap =
        { fMemory := memory
          fSurface := { fKmsDev := kmsDev, fHandle := handle }
          fMapping := NvRmMemoryMapping.assign {} mapping
          fWidth := width
          fHeight := height
          fBytesPerRow := (alignUp ((4 * width).setWidth 64) 256).setWidth 32
          fColorSpace := colorSpace } := by
  unfold NvKmsBitmap.create at made
  split at made
  · cases made
  · rename_i known
    rw [← not_or, not_not] at known
    -- one call after another, each of which throws if it fails
    obtain ⟨allocate, exportToFd, registerSurface, mapMemory⟩ := replies
    rcases allocate with e | memory
    · cases made
    rcases exportToFd with e | ⟨⟩
    · cases made
    rcases registerSurface with e | handle
    · cases made
    rcases mapMemory with e | mapping
    · cases made
    exact ⟨known, memory, handle, mapping, rfl, rfl, rfl, (Except.ok.inj made).symm⟩

/-! ## Move assignment -/

/-- What the calls reply that release the three parts of a bitmap. -/
structure ReleaseReplies where
  unmapMemory : Reply Unit
  unregisterSurface : Reply Unit
  free : Reply Unit

/-- The two sides of a move assignment. -/
structure Move where
  this : NvKmsBitmap
  other : NvKmsBitmap
  kms : Kms

/-- The call that releases a part, made only if the part is set. -/
def release (isSet : Bool) (reply : Reply Unit) : Reply Unit := if isSet then reply else .ok ()

namespace Move

/-- `fMapping = std::move(other.fMapping)`, past the release. -/
def moveMapping (m : Move) : Move :=
  { m with
    this := { m.this with fMapping := m.this.fMapping.assign m.other.fMapping }
    other := { m.other with fMapping := m.other.fMapping.reset } }

/-- `fSurface = std::move(other.fSurface)`, with the release. -/
def moveSurface (m : Move) : Move where
  this := { m.this with fSurface := m.other.fSurface }
  other := { m.other with fSurface := { m.other.fSurface with fHandle := 0 } }
  kms := m.kms.unregister m.this.fSurface

/-- `fMemory = std::move(other.fMemory)`, past the release. -/
def moveMemory (m : Move) : Move :=
  { m with
    this := { m.this with fMemory := m.other.fMemory }
    other := { m.other with fMemory := { m.other.fMemory with fHObject := 0 } } }

/-- The rest of `NvKmsBitmap::operator=`. -/
def moveSizes (m : Move) : Move :=
  { m with
    this := { m.this with
      fWidth := m.other.fWidth
      fHeight := m.other.fHeight
      fBytesPerRow := m.other.fBytesPerRow
      fColorSpace := m.other.fColorSpace }
    other := { m.other with
      fWidth := 0, fHeight := 0, fBytesPerRow := 0, fColorSpace := B_NO_COLOR_SPACE } }

/-- `NvKmsBitmap::operator=`. -/
def assign (m : Move) (replies : ReleaseReplies) : Reply Unit × Move :=
  -- the parts are assigned one by one, and a throw leaves the later ones as they were
  match release m.this.fMapping.isSet replies.unmapMemory with
  | .error e => (.error e, m)
  | .ok () =>
    match release m.this.fSurface.isSet replies.unregisterSurface with
    | .error e => (.error e, m.moveMapping)
    | .ok () =>
      match release m.this.fMemory.isSet replies.free with
      | .error e => (.error e, m.moveMapping.moveSurface)
      | .ok () => (.ok (), m.moveMapping.moveSurface.moveMemory.moveSizes)

/-- The releases of the parts that are set succeed. -/
def Releases (this : NvKmsBitmap) (replies : ReleaseReplies) : Prop :=
  release this.fMapping.isSet replies.unmapMemory = .ok () ∧
    release this.fSurface.isSet replies.unregisterSurface = .ok () ∧
    release this.fMemory.isSet replies.free = .ok ()

variable {m : Move} {replies : ReleaseReplies}

/-- An assignment whose releases succeed runs to its end. -/
theorem assign_of_releases (released : Releases m.this replies) :
    m.assign replies = (.ok (), m.moveMapping.moveSurface.moveMemory.moveSizes) := by
  obtain ⟨unmapped, unregistered, freed⟩ := released
  simp only [assign, unmapped, unregistered, freed]

/-- An assignment of which a release fails throws, with at most the target's surface gone. -/
theorem assign_of_not_releases (fails : ¬ Releases m.this replies) :
    ∃ e m', m.assign replies = (.error e, m') ∧
      (m'.kms = m.kms ∨ m'.kms = m.kms.unregister m.this.fSurface) := by
  unfold assign
  -- one case for each of the three releases that may fail
  split
  · exact ⟨_, _, rfl, Or.inl rfl⟩
  · split
    · exact ⟨_, _, rfl, Or.inl rfl⟩
    · split
      · exact ⟨_, _, rfl, Or.inr rfl⟩
      · exact absurd ⟨‹_›, ‹_›, ‹_›⟩ fails

/-- A bitmap with nothing set, such as one moved from, has nothing to release. -/
theorem releases_of_unset {this : NvKmsBitmap} (mapping : this.fMapping.isSet = false)
    (surface : this.fSurface.isSet = false) (memory : this.fMemory.isSet = false) :
    Releases this replies := by
  simp [Releases, release, mapping, surface, memory]

end Move

namespace Kms

variable {kms : Kms} {handle : SurfaceHandle} {surface : NvKmsSurface}

@[simp] theorem unregister_committed : (kms.unregister surface).committed = kms.committed := by
  unfold unregister
  split <;> rfl

theorem unregister_of_unset (unset : surface.isSet = false) : kms.unregister surface = kms := by
  simp [unregister, unset]

/-- Another surface stays registered. -/
theorem mem_unregister_of_ne (different : handle ≠ surface.fHandle)
    (registered : handle ∈ kms.registered) : handle ∈ (kms.unregister surface).registered := by
  unfold unregister
  split
  · exact Finset.mem_erase.mpr ⟨different, registered⟩
  · exact registered

theorem notMem_unregister (set : surface.isSet = true) :
    surface.fHandle ∉ (kms.unregister surface).registered := by
  simp [unregister, set]

/-- Registering a fresh surface and unregistering it again changes nothing. -/
theorem unregister_register (set : surface.isSet = true)
    (fresh : surface.fHandle ∉ kms.registered) :
    (kms.register surface.fHandle).unregister surface = kms := by
  simp [unregister, set, register, fresh]

end Kms

end NvidiaHaiku.Accelerant

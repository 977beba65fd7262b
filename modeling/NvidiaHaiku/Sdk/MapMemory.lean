/-
# `NvRmDevice::MapMemory`

A client maps memory of the resource manager in four steps: it opens a device file of its
own, asks the RM through the file of its `NvRmApi` to map the memory, naming the new
descriptor, has `NV_HAIKU_MAP` map it into the team through that descriptor, and closes
it. In the second step the RM records what it has found for the memory in the handle
behind the descriptor, and the third step maps what is recorded there. Any number of
threads of the team do this at once, descriptors are used again after they are closed, and
the mappings that are returned are destroyed at any time.

A result is constructed in a variable, or assigned to a member that holds no mapping yet, as the
constructor of `NvKmsBitmap` does. The assignment does not take the area over. Moves from one
variable to another are not among the steps.
-/

import Mathlib.Logic.Function.Basic
import NvidiaHaiku.BaseDevice.MapRecorded
import NvidiaHaiku.Math.Tenancy
import NvidiaHaiku.Sdk.MemoryMapping

namespace NvidiaHaiku.Sdk

open NvidiaHaiku.Math NvidiaHaiku.BaseDevice TransitionSystem

abbrev Fd := ℕ

/-- `EINTR` and `EAGAIN`. -/
def EINTR : ℤ := -0x7ffffff6
def EAGAIN : ℤ := -0x7ffffff5

/-- `NvRmIoctl` calls `ioctl` again. -/
def Retries (errno : ℤ) : Bool := errno = EINTR || errno = EAGAIN

/-- The arguments of `MapMemory`. -/
structure MapRequest where
  hMemory : NvHandle
  isSystemMemory : Bool
  offset : BitVec 64
  length : BitVec 64
  flags : BitVec 32
  deriving DecidableEq, Repr

/-- How far a call of `MapMemory` has come. -/
inductive MapStage
  /-- In `open`. -/
  | opens
  /-- In `NV_ESC_RM_MAP_MEMORY`. -/
  | asks (memFd : Fd)
  /-- In `NV_HAIKU_MAP`. -/
  | maps (memFd : Fd) (pLinearAddress : Address)
  /-- The result is built, or an exception thrown, and `memFd` is destroyed. -/
  | closes (memFd : Fd) (result : Option NvRmMemoryMapping)
  deriving DecidableEq, Repr

/-- The descriptor in `memFd`. -/
def MapStage.fd : MapStage → Option Fd
  | opens => none
  | asks memFd | maps memFd _ | closes memFd _ => some memFd

/-- A call of `MapMemory`. -/
structure Mapper where
  request : MapRequest
  stage : MapStage := .opens
  deriving DecidableEq, Repr

/-- The objects that all calls use: `fDevice` and the device files. -/
structure RmDevice where
  rm : Address
  hDevice : NvHandle
  /-- The `nv_state_t` behind `nvidiactl`, and those behind `nvidia0` and so on. -/
  nvidiactl : BaseDevice.Address
  nvidia : ℕ → BaseDevice.Address

/-- `DevFsIndex`. -/
def RmDevice.devFsIndex (_ : RmDevice) : ℕ := 0

/-- The device whose file is opened. -/
def RmDevice.opened (d : RmDevice) (request : MapRequest) : Nv :=
  if request.isSystemMemory then .control d.nvidiactl else .gpu (d.nvidia d.devFsIndex)

/-- The RM's name of a mapping. -/
def RmDevice.unmap (d : RmDevice) (request : MapRequest) (pLinearAddress : Address) : Unmap where
  rm := d.rm
  hDevice := d.hDevice
  hMemory := request.hMemory
  pLinearAddress := pLinearAddress
  flags := request.flags

/-- What Haiku answers in `NV_HAIKU_MAP`. -/
structure HaikuAnswer where
  copyIn : ℤ := 0
  copyOut : ℤ := 0
  /-- The `area_id`, or an error. -/
  area : BitVec 32
  baseAddress : BitVec 64
  /-- What is then where the RM's allocations are, or have been. -/
  memory : BaseDevice.Address → NvAlloc

/-- `B_ANY_ADDRESS`, and `B_READ_AREA | B_WRITE_AREA`. -/
def B_ANY_ADDRESS : BitVec 32 := 0
def readWrite : BitVec 32 := 3

/-- `mapParams`. -/
def mapParams : MapParams where
  -- "NVRM" and its terminator
  name := [0x4e, 0x56, 0x52, 0x4d, 0]
  addressSpec := B_ANY_ADDRESS
  protection := readWrite

/-- The call that `NV_HAIKU_MAP` is served with. -/
def HaikuAnswer.call (answer : HaikuAnswer) : MapCall where
  len := sizeofMapParams
  userAddress := true
  copyIn := answer.copyIn
  copyOut := answer.copyOut
  params := mapParams
  area := answer.area.toInt
  baseAddress := answer.baseAddress

/-- The memory that the RM has found. -/
def mappingOf (found : AddCall) : Option Mapping :=
  if found.nv.isCtlDevice then some (.cloneArea found.pAllocPriv found.pageIndex)
  else
    match found.nvuap.ranges with
    | [] => none
    | [range] => some (.physicalMemory range)
    | ranges => some (.physicalMemoryVecs ranges)

/-- A team with its threads `τ` and its variables `ν`. -/
structure Team (τ ν : Type*) where
  /-- The handles behind the descriptors. -/
  files : Fd → Option NvHaikuBaseDeviceHandle := fun _ => none
  mappers : τ → Option Mapper := fun _ => none
  vars : ν → Option NvRmMemoryMapping := fun _ => none
  /-- What the areas of the team show. -/
  areas : AreaId → Option Mapping := fun _ => none
  /-- The mappings of the RM, and what it has found for them. -/
  rmMappings : Unmap → Option AddCall := fun _ => none

/-- A step of a call of `MapMemory`, or of its caller with the result. -/
inductive TeamAction (τ ν : Type*)
  | mapMemory (t : τ) (request : MapRequest)
  /-- `open` returns. -/
  | opened (t : τ) (memFd : Fd)
  /-- `ioctl` returns from `NV_ESC_RM_MAP_MEMORY`. The RM may have found the memory. -/
  | rmMapMemory (t : τ) (found : Option AddCall) (pLinearAddress : Address) (errno : ℤ)
  /-- `ioctl` returns from `NV_HAIKU_MAP`. -/
  | haikuMap (t : τ) (answer : HaikuAnswer)
  /-- `memFd` is closed, and a result is constructed in a variable. -/
  | closed (t : τ) (v : ν)
  /-- `memFd` is closed, and a result is assigned to a variable that holds no mapping yet. -/
  | assigned (t : τ) (v : ν)
  /-- `~NvRmMemoryMapping`. -/
  | destroy (v : ν)

variable {τ ν : Type*}

namespace Team

section Tables

variable (s : Team τ ν)

/-- What is behind a descriptor changes. -/
def setFile (memFd : Fd) (h : Option NvHaikuBaseDeviceHandle) : Team τ ν :=
  { s with files := Function.update s.files memFd h }

/-- What an area shows changes. -/
def setArea (area : AreaId) (mapping : Option Mapping) : Team τ ν :=
  { s with areas := Function.update s.areas area mapping }

/-- A mapping of the RM is made, or given back. -/
def setRmMapping (unmap : Unmap) (found : Option AddCall) : Team τ ν :=
  { s with rmMappings := Function.update s.rmMappings unmap found }

/-- A thread changes. -/
def setMapper [DecidableEq τ] (t : τ) (mapper : Option Mapper) : Team τ ν :=
  { s with mappers := Function.update s.mappers t mapper }

/-- A variable begins or ends its life, or is written. -/
def setVar [DecidableEq ν] (v : ν) (m : Option NvRmMemoryMapping) : Team τ ν :=
  { s with vars := Function.update s.vars v m }

end Tables

variable [DecidableEq τ]

/-- The RM maps the memory, records it in the handle behind `memFd`, and takes the mapping
back if that fails. -/
def rmMapMemory (d : RmDevice) (s : Team τ ν) (t : τ) (request : MapRequest) (memFd : Fd)
    (h : NvHaikuBaseDeviceHandle) (found : AddCall) (pLinearAddress : Address) :
    Option (Team τ ν) :=
  let added := h.addMappingContextToFile found
  let s := s.setFile memFd (some added.1)
  if added.2 = .ok then
    let unmap := d.unmap request pLinearAddress
    -- the RM does not name two mappings alike
    if s.rmMappings unmap = none then
      some ((s.setRmMapping unmap (some found)).setMapper t
        (some ⟨request, .maps memFd pLinearAddress⟩))
    else none
  else some (s.setMapper t (some ⟨request, .closes memFd none⟩))

/-- The result of `MapMemory`. -/
def result (d : RmDevice) (request : MapRequest) (pLinearAddress : Address) (area : ℤ)
    (params : MapParams) : NvRmMemoryMapping where
  fRm := d.rm
  fHDevice := d.hDevice
  fHMemory := request.hMemory
  fPLinearAddress := pLinearAddress
  fFlags := request.flags
  fAddress := params.address.toNat
  fSize := request.length
  fArea := BitVec.ofInt 32 area

/-- `NV_HAIKU_MAP` returns, and the call has its result, asks again or throws. -/
def haikuMap (d : RmDevice) (s : Team τ ν) (t : τ) (request : MapRequest) (memFd : Fd)
    (pLinearAddress : Address) (h : NvHaikuBaseDeviceHandle) (answer : HaikuAnswer) :
    Option (Team τ ν) :=
  match h.mapping answer.call, (h.map answer.memory answer.call).2 with
  | .ok mapping, (area, some params) =>
    let m := result d request pLinearAddress area params
    -- Haiku does not name two areas alike
    if s.areas m.fArea = none then
      some ((s.setArea m.fArea (some mapping)).setMapper t
        (some ⟨request, .closes memFd (some m)⟩))
    else none
  | _, (errno, _) =>
    if Retries errno then some s
    else some (s.setMapper t (some ⟨request, .closes memFd none⟩))

variable [DecidableEq ν]

/-- `memFd` is closed, and the call is over. -/
def finish (s : Team τ ν) (t : τ) (memFd : Fd) (v : ν) (m : Option NvRmMemoryMapping) :
    Option (Team τ ν) :=
  if s.vars v = none then some (((s.setFile memFd none).setMapper t none).setVar v m) else none

/-- One step. A new descriptor, area or mapping is one that is not in use. -/
def step (d : RmDevice) (s : Team τ ν) : TeamAction τ ν → Option (Team τ ν)
  | .mapMemory t request =>
    if s.mappers t = none then some (s.setMapper t (some ⟨request, .opens⟩)) else none
  | .opened t memFd =>
    match s.mappers t with
    | some ⟨request, .opens⟩ =>
      if s.files memFd = none then
        some ((s.setFile memFd (some { nv := d.opened request })).setMapper t
          (some ⟨request, .asks memFd⟩))
      else none
    | _ => none
  | .rmMapMemory t found pLinearAddress errno =>
    match s.mappers t with
    | some ⟨request, .asks memFd⟩ =>
      match found with
      | some found => (s.files memFd).bind fun h =>
        s.rmMapMemory d t request memFd h found pLinearAddress
      | none =>
        if Retries errno then some s
        else some (s.setMapper t (some ⟨request, .closes memFd none⟩))
    | _ => none
  | .haikuMap t answer =>
    match s.mappers t with
    | some ⟨request, .maps memFd pLinearAddress⟩ => (s.files memFd).bind fun h =>
      s.haikuMap d t request memFd pLinearAddress h answer
    | _ => none
  | .closed t v =>
    match s.mappers t with
    | some ⟨_, .closes memFd result⟩ => s.finish t memFd v result
    | _ => none
  | .assigned t v =>
    match s.mappers t with
    | some ⟨_, .closes memFd result⟩ =>
      s.finish t memFd v (result.map (NvRmMemoryMapping.assign {}))
    | _ => none
  | .destroy v =>
    match s.vars v with
    | some m =>
      let s := s.setVar v none
      some (if m.isSet then (s.setArea m.delete.1 none).setRmMapping m.delete.2 none else s)
    | none => none

end Team

/-- The threads of a team, in any order. -/
def team (τ ν : Type*) [DecidableEq τ] [DecidableEq ν] (d : RmDevice) :
    TransitionSystem (Team τ ν) (TeamAction τ ν) :=
  .ofStep (· = {}) (Team.step d)

end NvidiaHaiku.Sdk

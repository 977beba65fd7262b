/-
# The mapping context of a handle

Mapping memory into a team takes two calls. The RM calls
`nv_add_mapping_context_to_file`, which records in the handle behind a file descriptor
what is to be mapped: for the control device a DMA allocation, for a GPU an array of
physical ranges. User space then calls `NV_HAIKU_MAP` on the handle, which maps what is
recorded. The first call looks at the `nv_state_t` that it is given, the second one at
the device of the handle.

The functions of this module are the two calls and the two that allocate and free a DMA
allocation. Pointers are numbers, with 0 for `nullptr`. What Haiku answers is given to
the functions. The last section is the system of any number of handles and allocations.
-/

import Mathlib.Algebra.Group.Nat.Defs
import Mathlib.Data.Int.Notation
import Mathlib.Logic.Function.Basic
import NvidiaHaiku.Libc.Constants
import NvidiaHaiku.Math.Transition

namespace NvidiaHaiku.BaseDevice

open NvidiaHaiku.Math
open NvidiaHaiku.Libc (B_PAGE_SIZE)

/-- `NV_OK` and the errors of the functions of the RM interface. -/
inductive NvStatus
  | ok
  | stateInUse
  | invalidArgument
  | noMemory
  deriving DecidableEq, Repr

/-- `EINVAL` and `B_DEV_INVALID_IOCTL`. -/
def EINVAL : ℤ := -0x7ffffffb
def B_DEV_INVALID_IOCTL : ℤ := -0x7fff6000

abbrev Address := ℕ

/-- The `nv_state_t`s by their addresses: of the control device, which has
`NV_FLAG_CONTROL`, and of the GPUs. -/
inductive Nv
  | control (address : Address)
  | gpu (address : Address)
  deriving DecidableEq, Repr

/-- `NV_IS_CTL_DEVICE`. -/
def Nv.isCtlDevice : Nv → Bool
  | control _ => true
  | gpu _ => false

/-- A range of physical memory. -/
structure MemoryRange where
  start : BitVec 64
  size : BitVec 64
  deriving DecidableEq, Repr

/-- `sizeof(MemoryRange)`. -/
def sizeofMemoryRange : ℕ := 16

/-- The `NV_MEMORY_*` values that are told apart. -/
inductive CacheType
  | cached
  | writeCombined
  | uncached
  | default
  | other
  deriving DecidableEq, Repr

/-- No flag, `B_WRITE_COMBINING_MEMORY` and `B_UNCACHED_MEMORY`. -/
inductive MemoryType
  | unchanged
  | writeCombining
  | uncached
  deriving DecidableEq, Repr

/-- `to_haiku_cache_type`. -/
def toHaikuCacheType : CacheType → MemoryType
  | .cached => .unchanged
  | .writeCombined => .writeCombining
  | .uncached | .default => .uncached
  | .other => .unchanged

/-- `nv_alloc_t`. -/
structure NvAlloc where
  area : ℤ
  cacheType : CacheType
  physBase : BitVec 64
  deriving DecidableEq, Repr

/-- `memArea` of a mapping context. -/
structure MemoryArea where
  /-- The array behind the pointer, `none` for `nullptr`. -/
  pRanges : Option (List MemoryRange) := none
  numRanges : BitVec 64 := 0
  deriving DecidableEq, Repr

/-- `nv_alloc_mapping_context_t`. -/
structure MappingContext where
  alloc : Address := 0
  page_index : BitVec 64 := 0
  memArea : MemoryArea := {}
  access_start : BitVec 64 := 0
  access_size : BitVec 64 := 0
  remap_prot_extra : BitVec 64 := 0
  prot : BitVec 32 := 0
  valid : Bool := false
  caching : CacheType := .cached
  deriving DecidableEq, Repr

/-- `nv_usermap_access_params_t`. -/
structure UsermapAccessParams where
  /-- The `numRanges` ranges of `memArea`. -/
  ranges : List MemoryRange
  access_start : BitVec 64 := 0
  access_size : BitVec 64 := 0
  remap_prot_extra : BitVec 64 := 0
  caching : CacheType := .cached
  deriving DecidableEq, Repr

/-- `memArea.numRanges`. -/
def UsermapAccessParams.numRanges (nvuap : UsermapAccessParams) : BitVec 64 :=
  BitVec.ofNat 64 nvuap.ranges.length

/-- `os_alloc_mem` for ranges. The answer is what is in the memory, if there is some. -/
def osAllocMem (answer : Option (ℕ → MemoryRange)) (size : BitVec 64) :
    Option (List MemoryRange) :=
  answer.map fun content => (List.range (size.toNat / sizeofMemoryRange)).map content

/-- `os_mem_copy` for ranges. Its length has 32 bits. -/
def osMemCopy (dst src : List MemoryRange) (length : BitVec 32) : List MemoryRange :=
  src.take (length.toNat / sizeofMemoryRange) ++ dst.drop (length.toNat / sizeofMemoryRange)

/-- The arguments of `nv_add_mapping_context_to_file` with the answer of `os_alloc_mem`. -/
structure AddCall where
  nv : Nv
  nvuap : UsermapAccessParams
  prot : BitVec 32 := 0
  pAllocPriv : Address
  pageIndex : BitVec 64 := 0
  memory : Option (ℕ → MemoryRange)

/-- `nv_haiku_map_params`. -/
structure MapParams where
  name : List UInt8
  address : BitVec 64 := 0
  addressSpec : BitVec 32 := 0
  protection : BitVec 32 := 0
  deriving DecidableEq, Repr

/-- `B_OS_NAME_LENGTH`, and the size of `nv_haiku_map_params`. -/
def B_OS_NAME_LENGTH : ℕ := 32
def sizeofMapParams : ℕ := B_OS_NAME_LENGTH + 8 + 4 + 4

/-- `B_USER_PROTECTION | B_CLONEABLE_AREA`. -/
def userProtection : BitVec 32 := 0x107

/-- `strnlen`. -/
def strnlen (s : List UInt8) (maxlen : ℕ) : ℕ := ((s.take maxlen).takeWhile (· ≠ 0)).length

/-- A call of `NV_HAIKU_MAP` with what Haiku answers. -/
structure MapCall where
  len : ℕ
  /-- `IS_USER_ADDRESS(data)`. -/
  userAddress : Bool
  /-- The two calls of `user_memcpy`. -/
  copyIn : ℤ := 0
  copyOut : ℤ := 0
  params : MapParams
  /-- What the mapping function returns and stores. -/
  area : ℤ
  baseAddress : BitVec 64 := 0
  deriving DecidableEq, Repr

/-- What is to be mapped, with the mapping function that is called for it. -/
inductive Mapping
  /-- `vm_clone_area`. -/
  | cloneArea (alloc : Address) (page_index : BitVec 64)
  /-- `vm_map_physical_memory`. -/
  | physicalMemory (range : MemoryRange)
  /-- `vm_map_physical_memory_vecs`. -/
  | physicalMemoryVecs (vecs : List MemoryRange)
  deriving DecidableEq, Repr

/-- The calls into the VM of Haiku. -/
inductive VmCall
  | cloneArea (params : MapParams) (protection : BitVec 32) (source : ℤ)
  | mapPhysicalMemory (params : MapParams) (protection : BitVec 32) (size start : BitVec 64)
  | mapPhysicalMemoryVecs (params : MapParams) (protection : BitVec 32)
      (vecs : List MemoryRange) (numVecs : BitVec 32)
  | setAreaMemoryType (area : ℤ) (physBase : BitVec 64) (type : MemoryType)
  | deleteArea (area : ℤ)
  deriving DecidableEq, Repr

/-- The call is one of a mapping function. -/
def VmCall.maps : VmCall → Bool
  | cloneArea .. | mapPhysicalMemory .. | mapPhysicalMemoryVecs .. => true
  | setAreaMemoryType .. | deleteArea _ => false

/-- The fields of `NvHaikuBaseDeviceHandle` that the two calls read. -/
structure NvHaikuBaseDeviceHandle where
  /-- `fDevice->Nv()`. -/
  nv : Nv
  fClosed : Bool := false
  fMmapContext : MappingContext := {}
  deriving DecidableEq, Repr

namespace NvHaikuBaseDeviceHandle

/-- `nv_add_mapping_context_to_file`, for the handle behind `fd`. -/
def addMappingContextToFile (h : NvHaikuBaseDeviceHandle) (call : AddCall) :
    NvHaikuBaseDeviceHandle × NvStatus :=
  -- `NV_HAIKU_GET_COOKIE` fails on a closed handle
  if h.fClosed then (h, .invalidArgument)
  else if h.fMmapContext.valid then (h, .stateInUse)
  else
    let nvamc : MappingContext := {}
    let finish (nvamc : MappingContext) :=
      { h with fMmapContext :=
        { nvamc with prot := call.prot, valid := true, caching := call.nvuap.caching } }
    if call.nv.isCtlDevice then
      (finish { nvamc with alloc := call.pAllocPriv, page_index := call.pageIndex }, .ok)
    else if h.nv ≠ call.nv then ({ h with fMmapContext := nvamc }, .invalidArgument)
    else
      let size := BitVec.ofNat 64 sizeofMemoryRange * call.nvuap.numRanges
      match osAllocMem call.memory size with
      | none => ({ h with fMmapContext := nvamc }, .noMemory)
      | some pRanges =>
        (finish { nvamc with
          memArea := {
            pRanges := some (osMemCopy pRanges call.nvuap.ranges (size.truncate 32))
            numRanges := call.nvuap.numRanges }
          access_start := call.nvuap.access_start
          access_size := call.nvuap.access_size
          remap_prot_extra := call.nvuap.remap_prot_extra }, .ok)

/-- `NV_HAIKU_MAP` of `Control` after the checks of the request, up to the choice of the
mapping function. -/
def choose (h : NvHaikuBaseDeviceHandle) : Except ℤ Mapping :=
  if !h.fMmapContext.valid then .error EINVAL
  else if h.nv.isCtlDevice then
    .ok (.cloneArea h.fMmapContext.alloc h.fMmapContext.page_index)
  else
    let memArea := h.fMmapContext.memArea
    if memArea.numRanges = 0 || memArea.numRanges > 0xffffffff then .error EINVAL
    else
      let pRanges := memArea.pRanges.getD []
      if memArea.numRanges = 1 then .ok (.physicalMemory (pRanges.getD 0 ⟨0, 0⟩))
      else .ok (.physicalMemoryVecs pRanges)

/-- `NV_HAIKU_MAP` of `Control`, up to the choice of the mapping function. -/
def mapping (h : NvHaikuBaseDeviceHandle) (call : MapCall) : Except ℤ Mapping :=
  if h.fClosed then .error EINVAL
  else if call.len ≠ sizeofMapParams then .error EINVAL
  else if !call.userAddress then .error B_DEV_INVALID_IOCTL
  else if call.copyIn < 0 then .error call.copyIn
  else if strnlen call.params.name B_OS_NAME_LENGTH = B_OS_NAME_LENGTH then .error EINVAL
  else h.choose

/-- The call of the mapping function. An allocation is read from `memory`. -/
def mappingCall (h : NvHaikuBaseDeviceHandle) (memory : Address → NvAlloc) (params : MapParams) :
    Mapping → VmCall
  | .cloneArea alloc _ =>
    .cloneArea params (params.protection &&& userProtection) (memory alloc).area
  | .physicalMemory range =>
    .mapPhysicalMemory params (params.protection &&& userProtection) range.size range.start
  | .physicalMemoryVecs vecs =>
    .mapPhysicalMemoryVecs params (params.protection &&& userProtection) vecs
      (h.fMmapContext.memArea.numRanges.truncate 32)

/-- The address of the mapping, and the call that sets the memory type of its area. -/
def mapped (h : NvHaikuBaseDeviceHandle) (memory : Address → NvAlloc) (call : MapCall) :
    Mapping → BitVec 64 × VmCall
  | .cloneArea alloc page_index =>
    (call.baseAddress + page_index * B_PAGE_SIZE,
      .setAreaMemoryType call.area (memory alloc).physBase
        (toHaikuCacheType (memory alloc).cacheType))
  | .physicalMemory range =>
    (call.baseAddress,
      .setAreaMemoryType call.area range.start (toHaikuCacheType h.fMmapContext.caching))
  | .physicalMemoryVecs vecs =>
    (call.baseAddress,
      .setAreaMemoryType call.area (vecs.getD 0 ⟨0, 0⟩).start
        (toHaikuCacheType h.fMmapContext.caching))

/-- `NV_HAIKU_MAP` of `Control`: the calls it makes, its result, and the parameters it copies
out. -/
def map (h : NvHaikuBaseDeviceHandle) (memory : Address → NvAlloc) (call : MapCall) :
    List VmCall × ℤ × Option MapParams :=
  match h.mapping call with
  | .error status => ([], status, none)
  | .ok mapping =>
    let first := h.mappingCall memory call.params mapping
    if call.area < 0 then ([first], call.area, none)
    else
      let (address, second) := h.mapped memory call mapping
      -- the `AreaDeleter` still owns the area
      if call.copyOut < 0 then ([first, second, .deleteArea call.area], call.copyOut, none)
      else ([first, second], call.area, some { call.params with address := address })

end NvHaikuBaseDeviceHandle

/-! ## What the first call records -/

/-- A call whose ranges fit into the 32 bits that `os_mem_copy` has for their size. -/
structure AddCall.Fits (call : AddCall) : Prop where
  alloc : call.pAllocPriv ≠ 0
  ranges : call.nvuap.ranges.length < 2 ^ 28

instance (call : AddCall) : Decidable call.Fits :=
  decidable_of_iff (call.pAllocPriv ≠ 0 ∧ call.nvuap.ranges.length < 2 ^ 28)
    ⟨fun fits => ⟨fits.1, fits.2⟩, fun fits => ⟨fits.alloc, fits.ranges⟩⟩

/-- What a successful call records. -/
def AddCall.context (call : AddCall) : MappingContext :=
  if call.nv.isCtlDevice then {
    alloc := call.pAllocPriv, page_index := call.pageIndex
    prot := call.prot, valid := true, caching := call.nvuap.caching }
  else {
    memArea := { pRanges := some call.nvuap.ranges, numRanges := call.nvuap.numRanges }
    access_start := call.nvuap.access_start
    access_size := call.nvuap.access_size
    remap_prot_extra := call.nvuap.remap_prot_extra
    prot := call.prot, valid := true, caching := call.nvuap.caching }

@[simp] theorem AddCall.context_valid {call : AddCall} : call.context.valid = true := by
  unfold context
  split <;> rfl

/-- As many ranges are allocated and copied as there are, below 2^28 of them. -/
theorem osMemCopy_osAllocMem {ranges pRanges : List MemoryRange}
    {memory : Option (ℕ → MemoryRange)} (few : ranges.length < 2 ^ 28)
    (allocated : osAllocMem memory
      (BitVec.ofNat 64 sizeofMemoryRange * BitVec.ofNat 64 ranges.length) = some pRanges) :
    osMemCopy pRanges ranges ((BitVec.ofNat 64 sizeofMemoryRange *
      BitVec.ofNat 64 ranges.length).truncate 32) = ranges := by
  have size : (BitVec.ofNat 64 sizeofMemoryRange * BitVec.ofNat 64 ranges.length).toNat =
      16 * ranges.length := by
    simp only [BitVec.toNat_mul, BitVec.toNat_ofNat, sizeofMemoryRange]
    omega
  have length : pRanges.length = ranges.length := by
    obtain ⟨content, -, rfl⟩ := Option.map_eq_some_iff.mp allocated
    rw [List.length_map, List.length_range, size, sizeofMemoryRange]
    omega
  unfold osMemCopy
  rw [BitVec.truncate_eq_setWidth, BitVec.toNat_setWidth, size, sizeofMemoryRange,
    show 16 * ranges.length % 2 ^ 32 / 16 = ranges.length by omega, List.take_length,
    List.drop_of_length_le (Nat.le_of_eq length), List.append_nil]

namespace NvHaikuBaseDeviceHandle

variable {h : NvHaikuBaseDeviceHandle} {call : AddCall}

/-- A context that is valid stays as it is. -/
theorem addMappingContextToFile_of_valid (valid : h.fMmapContext.valid = true)
    (opened : h.fClosed = false) :
    h.addMappingContextToFile call = (h, .stateInUse) := by
  simp [addMappingContextToFile, valid, opened]

/-- What a call can do. A failing one leaves the handle or clears its context. -/
theorem addMappingContextToFile_cases (h : NvHaikuBaseDeviceHandle) (call : AddCall) :
    (h.addMappingContextToFile call).2 ≠ .ok ∧ (h.addMappingContextToFile call).1 = h ∧
        (h.fClosed = true ∨ h.fMmapContext.valid = true) ∨
      (h.addMappingContextToFile call).2 ≠ .ok ∧ h.fMmapContext.valid = false ∧
        (h.addMappingContextToFile call).1 = { h with fMmapContext := {} } ∨
      (h.addMappingContextToFile call).2 = .ok ∧ h.fMmapContext.valid = false ∧
        h.fClosed = false ∧ (call.nv.isCtlDevice = true ∨ h.nv = call.nv) ∧
        ∃ nvamc, nvamc.valid = true ∧
          (h.addMappingContextToFile call).1 = { h with fMmapContext := nvamc } ∧
          (call.nv.isCtlDevice = true ∨ call.Fits → nvamc = call.context) := by
  unfold addMappingContextToFile
  split
  case isTrue closed => exact Or.inl ⟨by simp, rfl, Or.inl closed⟩
  case isFalse opened =>
  split
  case isTrue valid => exact Or.inl ⟨by simp, rfl, Or.inr valid⟩
  case isFalse unset =>
  rw [Bool.not_eq_true] at opened unset
  -- from here on a call that fails leaves the context cleared
  refine Or.inr ?_
  dsimp only
  split
  case isTrue control =>
    refine Or.inr ⟨rfl, unset, opened, Or.inl control, _, rfl, rfl, fun _ => ?_⟩
    rw [AddCall.context, if_pos control]
  case isFalse gpu =>
  split
  case isTrue => exact Or.inl ⟨by simp, unset, rfl⟩
  case isFalse same =>
  cases allocated : osAllocMem call.memory
      (BitVec.ofNat 64 sizeofMemoryRange * call.nvuap.numRanges) with
  | none => exact Or.inl ⟨by simp, unset, rfl⟩
  | some pRanges =>
    refine Or.inr ⟨rfl, unset, opened, Or.inr (not_not.mp same), _, rfl, rfl, fun few => ?_⟩
    have copied := osMemCopy_osAllocMem (few.resolve_left gpu).ranges allocated
    rw [AddCall.context, if_neg gpu, UsermapAccessParams.numRanges, copied]

/-- A successful call that is in range has recorded its context. -/
theorem addMappingContextToFile_of_fits (fits : call.Fits)
    (ok : (h.addMappingContextToFile call).2 = .ok) :
    h.fMmapContext.valid = false ∧ (call.nv.isCtlDevice = true ∨ h.nv = call.nv) ∧
      (h.addMappingContextToFile call).1 = { h with fMmapContext := call.context } := by
  rcases addMappingContextToFile_cases h call with
    ⟨fails, -⟩ | ⟨fails, -⟩ | ⟨-, unset, -, device, nvamc, -, recorded, context⟩
  · exact absurd ok fails
  · exact absurd ok fails
  · rw [recorded, context (Or.inr fits)]
    exact ⟨unset, device, rfl⟩

end NvHaikuBaseDeviceHandle

/-! ## The request -/

/-- A request that passes the checks of its own data. -/
structure MapCall.WellFormed (request : MapCall) : Prop where
  len : request.len = sizeofMapParams
  userAddress : request.userAddress = true
  copyIn : 0 ≤ request.copyIn
  name : strnlen request.params.name B_OS_NAME_LENGTH ≠ B_OS_NAME_LENGTH

namespace NvHaikuBaseDeviceHandle

variable {h : NvHaikuBaseDeviceHandle} {request : MapCall} {m : Mapping}

theorem mapping_of_wellFormed (wellFormed : request.WellFormed) (opened : h.fClosed = false) :
    h.mapping request = h.choose := by
  obtain ⟨len, userAddress, copyIn, name⟩ := wellFormed
  have copied : ¬ request.copyIn < 0 := by omega
  simp [mapping, opened, len, userAddress, name, copied]

/-- A mapping function is called for a well-formed request only. -/
theorem mapping_eq_ok_iff :
    h.mapping request = .ok m ↔
      request.WellFormed ∧ h.fClosed = false ∧ h.choose = .ok m := by
  constructor
  · intro chosen
    have checked := chosen
    -- each check that a request passes gives a part of its being well formed
    unfold mapping at checked
    split at checked
    · simp at checked
    case isFalse opened =>
    split at checked
    · simp at checked
    case isFalse len =>
    split at checked
    · simp at checked
    case isFalse userAddress =>
    split at checked
    · simp at checked
    case isFalse copyIn =>
    split at checked
    · simp at checked
    case isFalse name =>
    exact ⟨⟨not_not.mp len, by simpa using userAddress, by omega, name⟩, by simpa using opened,
      checked⟩
  · rintro ⟨wellFormed, opened, chosen⟩
    rw [mapping_of_wellFormed wellFormed opened, chosen]

/-- A request that is answered with parameters is answered with the area of the mapping. -/
theorem map_eq_some {memory : Address → NvAlloc} {area : ℤ} {params : MapParams}
    (mapped : (h.map memory request).2 = (area, some params)) :
    request.area = area ∧ 0 ≤ request.area := by
  unfold map at mapped
  split at mapped
  · simp at mapped
  · dsimp only at mapped
    split at mapped
    · simp at mapped
    · rename_i created
      split at mapped
      · simp at mapped
      · exact ⟨(Prod.mk.inj mapped).1, Int.not_lt.mp created⟩

end NvHaikuBaseDeviceHandle

/-! ## DMA allocations -/

/-- The arguments of `nv_alloc_pages` that it keeps, with the answers of Haiku. -/
structure AllocCall where
  cache_type : CacheType
  /-- Where the new `nv_alloc_t` is, if there is memory for it. -/
  object : Option Address
  /-- What `create_area` returns. -/
  area : ℤ
  /-- The address of the first page, which goes to `pte_array[0]`. -/
  physAdr : BitVec 64
  deriving DecidableEq, Repr

/-- `nv_alloc_pages`: the allocation that it stores in `priv_data`, and its result. -/
def nvAllocPages (call : AllocCall) : Option (Address × NvAlloc) × NvStatus :=
  match call.object with
  | none => (none, .noMemory)
  | some priv =>
    -- the `ObjectDeleter` still owns the object
    if call.area < 0 then (none, .noMemory)
    else
      (some (priv, {
        area := call.area, cacheType := call.cache_type, physBase := call.physAdr }), .ok)

/-! ## Any number of handles and allocations -/

/-- What an address is known for. -/
inductive AllocState
  | unused
  | live (alloc : NvAlloc)
  /-- `nv_free_pages` has deleted the `nv_alloc_t`. -/
  | deleted
  deriving DecidableEq, Repr

/-- The `nv_alloc_t` has not been deleted. -/
def AllocState.isLive : AllocState → Bool
  | live _ => true
  | unused | deleted => false

/-- The handles of the device, and what is where an `nv_alloc_t` may be. -/
structure State (κ : Type*) where
  handles : κ → NvHaikuBaseDeviceHandle
  allocs : Address → AllocState := fun _ => .unused

/-- What the RM and the teams call. -/
inductive Action (κ : Type*)
  /-- `nv_alloc_pages`. -/
  | allocPages (call : AllocCall)
  /-- `nv_free_pages`. -/
  | freePages (priv : Address)
  /-- `nv_add_mapping_context_to_file` with the handle behind its `fd`. -/
  | addMappingContext (fd : κ) (call : AddCall)
  /-- `NV_HAIKU_MAP`. -/
  | map (fd : κ) (call : MapCall)
  | close (fd : κ)

variable {κ : Type*} [DecidableEq κ]

namespace State

/-- The handle behind `fd` changes. -/
def setHandle (s : State κ) (fd : κ) (h : NvHaikuBaseDeviceHandle) : State κ :=
  { s with handles := Function.update s.handles fd h }

/-- What is at an address changes. -/
def setAlloc (s : State κ) (priv : Address) (alloc : AllocState) : State κ :=
  { s with allocs := Function.update s.allocs priv alloc }

/-- One call. The memory of an allocation is not given out again before it is freed, and
`nv_free_pages` is called for what `nv_alloc_pages` has returned. -/
def step (s : State κ) : Action κ → Option (State κ)
  | .allocPages call =>
    match (nvAllocPages call).1 with
    | none => some s
    | some (priv, alloc) =>
      if priv ≠ 0 ∧ (s.allocs priv).isLive = false then some (s.setAlloc priv (.live alloc))
      else none
  | .freePages priv =>
    if (s.allocs priv).isLive = true then some (s.setAlloc priv .deleted) else none
  | .addMappingContext fd call =>
    some (s.setHandle fd ((s.handles fd).addMappingContextToFile call).1)
  | .map _ _ => some s
  | .close fd => some (s.setHandle fd { s.handles fd with fClosed := true })

variable {s t : State κ} {a : Action κ}

/-- What a step can do to a handle. -/
theorem step_handles (taken : s.step a = some t) (fd : κ) :
    t.handles fd = s.handles fd ∨
      a = .close fd ∧ t.handles fd = { s.handles fd with fClosed := true } ∨
      ∃ call, a = .addMappingContext fd call ∧
        t.handles fd = ((s.handles fd).addMappingContextToFile call).1 := by
  cases a with
  | allocPages call =>
    unfold step at taken
    dsimp only at taken
    left
    split at taken
    · rw [← Option.some.inj taken]
    · rw [← (of_guarded taken).2]
      rfl
  | freePages priv =>
    rw [← (of_guarded taken).2]
    exact Or.inl rfl
  | map other call =>
    left
    rw [← Option.some.inj taken]
  | addMappingContext other call =>
    rw [← Option.some.inj taken]
    by_cases same : fd = other
    · subst same
      exact Or.inr (Or.inr ⟨call, rfl, Function.update_self ..⟩)
    · exact Or.inl (Function.update_of_ne same ..)
  | close other =>
    rw [← Option.some.inj taken]
    by_cases same : fd = other
    · subst same
      exact Or.inr (Or.inl ⟨rfl, Function.update_self ..⟩)
    · exact Or.inl (Function.update_of_ne same ..)

/-- What a step can do to what an address is known for. -/
theorem step_allocs (taken : s.step a = some t) (priv : Address) :
    t.allocs priv = s.allocs priv ∨ (∃ alloc, t.allocs priv = .live alloc) ∨
      a = .freePages priv ∧ t.allocs priv = .deleted := by
  cases a with
  | allocPages call =>
    unfold step at taken
    dsimp only at taken
    split at taken
    · exact Or.inl (by rw [← Option.some.inj taken])
    · rename_i other alloc _
      rw [← (of_guarded taken).2]
      by_cases same : priv = other
      · subst same
        exact Or.inr (Or.inl ⟨alloc, Function.update_self ..⟩)
      · exact Or.inl (Function.update_of_ne same ..)
  | freePages other =>
    rw [← (of_guarded taken).2]
    by_cases same : priv = other
    · subst same
      exact Or.inr (Or.inr ⟨rfl, Function.update_self ..⟩)
    · exact Or.inl (Function.update_of_ne same ..)
  | map other call => exact Or.inl (by rw [← Option.some.inj taken])
  | addMappingContext other call => exact Or.inl (by rw [← Option.some.inj taken]; rfl)
  | close other => exact Or.inl (by rw [← Option.some.inj taken]; rfl)

/-- Handles that have just been opened, and no allocation. -/
def Fresh (s : State κ) : Prop :=
  s.allocs = (fun _ => .unused) ∧
    ∀ fd, (s.handles fd).fClosed = false ∧ (s.handles fd).fMmapContext = {}

end State

/-- The calls for the handles `κ` of any devices, in any order. -/
def calls (κ : Type*) [DecidableEq κ] : TransitionSystem (State κ) (Action κ) :=
  .ofStep State.Fresh State.step

end NvidiaHaiku.BaseDevice

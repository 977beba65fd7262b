/-
# DMA buffers

`nv_alloc_pages` creates an area of contiguous memory and tells the RM its physical
addresses in `pte_array`. The RM then asks for the buffer in three more ways:
`nv_alloc_kernel_mapping` for an address of the kernel, `nv_alloc_user_mapping` for a
physical one, and `NV_HAIKU_MAP` of the control device for an address of a team, which
sees a clone of the area. The memory type of the area and of its clones is to be that of the
cache type of the buffer, but whether it could be set is not looked at. `nv_free_pages` deletes
the area, while its clones go on holding the memory.

`NV_HAIKU_MAP` reads the `nv_alloc_t` that its handle was given. If `nv_free_pages` has deleted
it meanwhile, it reads whatever is there then.

Each call is one step. In between Haiku does anything that leaves the areas of the buffers and
their clones alone, and shows their memory to nobody else.
-/

import NvidiaHaiku.Math.Transition
import NvidiaHaiku.Os.Vm

namespace NvidiaHaiku.Os

open NvidiaHaiku.Math NvidiaHaiku.BaseDevice TransitionSystem
open NvidiaHaiku.Libc (B_PAGE_SIZE)

/-- What the RM knows of a buffer. -/
structure Buffer where
  alloc : NvAlloc
  page_count : BitVec 32
  contiguous : Bool
  /-- What has been written to `pte_array`. -/
  pte_array : List (BitVec 64)
  /-- What `vm_set_area_memory_type` has returned. -/
  typed : ℤ
  deriving DecidableEq, Repr

/-- The arguments of `nv_alloc_pages` that it reads, with the answer of `new`. -/
structure AllocPages where
  page_count : BitVec 32
  contiguous : Bool
  cache_type : CacheType
  /-- Where the new `nv_alloc_t` is, if there is memory for it. -/
  object : Option BaseDevice.Address

/-- `page_count * B_PAGE_SIZE`. -/
def AllocPages.size (call : AllocPages) : ℕ := call.page_count.toNat * 4096

/-- The pages whose addresses go to `pte_array`. -/
def AllocPages.pages (call : AllocPages) : ℕ :=
  if call.contiguous then 1 else call.page_count.toNat

/-- What `NV_HAIKU_MAP` has given to a team. -/
structure ShownBuffer where
  team : ℕ
  area : ℤ
  address : BitVec 64
  /-- The `nv_alloc_t` as it was then. -/
  alloc : NvAlloc
  page_index : BitVec 64
  /-- What `vm_set_area_memory_type` has returned. -/
  typed : ℤ
  deriving DecidableEq, Repr

section Calls

variable {V χ : Type*} (vm : Vm V χ)

/-- The physical addresses of the first pages. The call aborts where a page has none. -/
def pteArray (v : V) (address : BitVec 64) (pages : ℕ) : Option (List (BitVec 64)) :=
  (List.range pages).mapM fun page =>
    vm.getMemoryMap v .kernel (address + BitVec.ofNat 64 page * B_PAGE_SIZE)

/-- How `nv_alloc_pages` ends. -/
inductive AllocResult (V : Type*)
  | failed (status : NvStatus) (v : V)
  | aborted
  | allocated (priv : BaseDevice.Address) (buffer : Buffer) (v : V)

/-- `nv_alloc_pages`, with what Haiku decides for the area and for its memory type. -/
def nvAllocPages (v : V) (call : AllocPages) (create type : χ) : AllocResult V :=
  match call.object with
  | none => .failed .noMemory v
  | some priv =>
    let created := vm.createArea v create call.size
    if created.area < 0 then .failed .noMemory created.vm
    else
      match pteArray vm created.vm created.address call.pages with
      | none => .aborted
      | some pte_array =>
        let physBase := pte_array.getD 0 0
        let set := vm.setAreaMemoryType created.vm type created.area physBase
          (toHaikuCacheType call.cache_type)
        .allocated priv {
          alloc := { area := created.area, cacheType := call.cache_type, physBase := physBase }
          page_count := call.page_count
          contiguous := call.contiguous
          pte_array := pte_array
          typed := set.2 } set.1

/-- A call of `NV_HAIKU_MAP` into the VM, after which the last status of
`vm_set_area_memory_type` is kept. -/
def Vm.call (team : ℕ) (clone type : χ) (s : V × ℤ) : VmCall → V × ℤ
  | .cloneArea params protection source =>
    ((vm.cloneArea s.1 clone team params protection source).vm, s.2)
  | .setAreaMemoryType area physBase t => vm.setAreaMemoryType s.1 type area physBase t
  | .deleteArea area => (vm.deleteArea s.1 area, s.2)
  | .mapPhysicalMemory .. | .mapPhysicalMemoryVecs .. => s

end Calls

/-- The VM, the buffers of the RM, and what teams see of them. -/
structure DmaState (V : Type*) where
  vm : V
  /-- The `nv_alloc_t`s. -/
  buffers : BaseDevice.Address → Option Buffer := fun _ => none
  shown : List ShownBuffer := []

/-- What the RM and the teams call, with the choices of the VM, and what else happens to areas. -/
inductive DmaAction (V χ : Type*)
  | allocPages (call : AllocPages) (create type : χ)
  | freePages (priv : BaseDevice.Address)
  /-- `NV_HAIKU_MAP` on a handle of the control device, with what is where an `nv_alloc_t` has
  been deleted. -/
  | haikuMap (h : NvHaikuBaseDeviceHandle) (request : MapCall) (team : ℕ) (deleted : NvAlloc)
    (clone type : χ)
  /-- A team deletes an area that it has been given. -/
  | deleteArea (area : ℤ)
  /-- Haiku does something else. -/
  | elsewhere (v : V)

variable {V χ : Type*} (vm : Vm V χ)

/-- What the kernel's area shows. -/
def Buffer.view (b : Buffer) : View where
  area := b.alloc.area
  space := .kernel
  physBase := b.alloc.physBase
  cacheType := b.alloc.cacheType
  typed := b.typed

/-- What the clone shows. -/
def ShownBuffer.view (m : ShownBuffer) : View where
  area := m.area
  space := .team m.team
  physBase := m.alloc.physBase
  cacheType := m.alloc.cacheType
  typed := m.typed

namespace DmaState

variable (s : DmaState V)

/-- What is known of the areas of the buffers and of their clones. -/
def views : Set View :=
  {w | (∃ priv b, s.buffers priv = some b ∧ b.view = w) ∨ ∃ m ∈ s.shown, m.view = w}

/-- The areas that are known stay as they are, and no other shows their memory. -/
structure Spares (v : V) : Prop where
  same : ∀ w ∈ s.views, vm.areas v w.area = vm.areas s.vm w.area
  foreign : ∀ w ∈ s.views, ∀ a, vm.areas s.vm w.area = some a → ∀ id b, vm.areas v id = some b →
    (∀ w' ∈ s.views, w'.area ≠ id) → b.phys.Disjoint a.phys

/-- The `nv_alloc_t`s as `NV_HAIKU_MAP` reads them. -/
def memory (deleted : NvAlloc) (priv : BaseDevice.Address) : NvAlloc :=
  (s.buffers priv).elim deleted Buffer.alloc

/-- `NV_HAIKU_MAP`, past the checks. -/
def haikuMap (h : NvHaikuBaseDeviceHandle) (request : MapCall) (team : ℕ) (deleted : NvAlloc)
    (clone type : χ) (priv : BaseDevice.Address) (page_index : BitVec 64) : DmaState V :=
  let alloc := s.memory deleted priv
  let cloned := vm.cloneArea s.vm clone team request.params
    (request.params.protection &&& userProtection) alloc.area
  let (calls, area, out) := h.map (s.memory deleted)
    { request with area := cloned.area, baseAddress := cloned.address }
  let (v, typed) := calls.foldl (vm.call team clone type) (s.vm, 0)
  { s with
    vm := v
    shown := match out with
      | none => s.shown
      | some params => ⟨team, area, params.address, alloc, page_index, typed⟩ :: s.shown }

/-- One call of the driver or of a team. -/
def step (s : DmaState V) : DmaAction V χ → Option (DmaState V)
  | .allocPages call create type =>
    match nvAllocPages vm s.vm call create type with
    | .failed _ v => some { s with vm := v }
    | .aborted => none
    | .allocated priv buffer v =>
      -- an `nv_alloc_t` is not given out again before it is deleted
      if s.buffers priv = none then
        some { s with vm := v, buffers := Function.update s.buffers priv (some buffer) }
      else none
  | .freePages priv =>
    (s.buffers priv).map fun b =>
      { s with
        vm := vm.deleteArea s.vm b.alloc.area
        buffers := Function.update s.buffers priv none }
  | .haikuMap h request team deleted clone type =>
    match h.mapping request with
    | .error _ => some s
    | .ok (.cloneArea priv page_index) =>
      some (s.haikuMap vm h request team deleted clone type priv page_index)
    | .ok (.physicalMemory _) | .ok (.physicalMemoryVecs _) => none
  | .deleteArea area =>
    if area ∈ s.shown.map (·.area) then
      some { s with
        vm := vm.deleteArea s.vm area
        shown := s.shown.filter (·.area ≠ area) }
    else none
  | .elsewhere _ => none

end DmaState

/-- The calls for DMA buffers, in any order, from any state of the VM. -/
def dmaBuffers : TransitionSystem (DmaState V) (DmaAction V χ) where
  start s := s.buffers = (fun _ => none) ∧ s.shown = []
  step s a t :=
    s.step vm a = some t ∨ ∃ v, a = .elsewhere v ∧ s.Spares vm v ∧ { s with vm := v } = t

end NvidiaHaiku.Os

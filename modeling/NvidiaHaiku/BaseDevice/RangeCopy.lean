/-
# The copy of the ranges

`nv_add_mapping_context_to_file` copies the ranges of a GPU mapping into memory of its own.
Their number has 64 bits. The size of the copy is a product in 64 bits for `os_alloc_mem`, and
`os_mem_copy` takes 32 bits of it. From 2 ^ 28 ranges on the two differ, and the ranges that
are not copied are what the memory held. `NV_HAIKU_MAP` maps up to 2 ^ 32 - 1 ranges.
-/

import NvidiaHaiku.BaseDevice.MappingContext
import NvidiaHaiku.Math.Word

namespace NvidiaHaiku.BaseDevice

open NvidiaHaiku.Math

/-- `sizeof(MemoryRange) * nvuap->memArea.numRanges`. -/
def AddCall.copySize (call : AddCall) : BitVec 64 :=
  BitVec.ofNat 64 sizeofMemoryRange * call.nvuap.numRanges

/-- The context has the ranges of the call, and their size is passed on as it is. -/
structure CopiesAll (h : NvHaikuBaseDeviceHandle) (call : AddCall) : Prop where
  count : (h.addMappingContextToFile call).1.fMmapContext.memArea.numRanges = call.nvuap.numRanges
  ranges : ∃ pRanges, (h.addMappingContextToFile call).1.fMmapContext.memArea.pRanges =
    some pRanges ∧ ∀ i < call.nvuap.numRanges.toNat, pRanges[i]? = call.nvuap.ranges[i]?
  /-- For `os_alloc_mem`. -/
  size : call.copySize.toNat = sizeofMemoryRange * call.nvuap.numRanges.toNat
  /-- For `os_mem_copy`. -/
  length : (call.copySize.truncate 32).toNat = call.copySize.toNat

namespace NvHaikuBaseDeviceHandle

variable {h : NvHaikuBaseDeviceHandle} {call : AddCall}

/-- What a successful call for a GPU has stored. -/
theorem memArea_of_gpu (gpu : call.nv.isCtlDevice = false)
    (ok : (h.addMappingContextToFile call).2 = .ok) :
    ∃ pRanges, osAllocMem call.memory call.copySize = some pRanges ∧
      (h.addMappingContextToFile call).1.fMmapContext.memArea =
        { pRanges := some (osMemCopy pRanges call.nvuap.ranges (call.copySize.truncate 32))
          numRanges := call.nvuap.numRanges } := by
  unfold addMappingContextToFile at ok ⊢
  by_cases closed : h.fClosed = true
  · simp [closed] at ok
  by_cases valid : h.fMmapContext.valid = true
  · simp [closed, valid] at ok
  by_cases other : h.nv ≠ call.nv
  · simp [closed, valid, gpu, other] at ok
  cases allocated : osAllocMem call.memory call.copySize with
  | none =>
    unfold AddCall.copySize at allocated
    simp [closed, valid, gpu, other, allocated] at ok
  | some pRanges =>
    refine ⟨pRanges, rfl, ?_⟩
    unfold AddCall.copySize at allocated
    simp [closed, valid, gpu, other, allocated, AddCall.copySize]

end NvHaikuBaseDeviceHandle

/-- A range that is copied is the one of the source. -/
theorem getElem?_osMemCopy {dst src : List MemoryRange} {length : BitVec 32} {i : ℕ}
    (copied : i < length.toNat / sizeofMemoryRange) (enough : i < src.length) :
    (osMemCopy dst src length)[i]? = src[i]? := by
  rw [osMemCopy, List.getElem?_append_left (by simp; omega), List.getElem?_take_of_lt copied]

/-- A range that is not copied is what the memory held. -/
theorem getElem?_osMemCopy_of_le {dst src : List MemoryRange} {length : BitVec 32} {i : ℕ}
    (left : length.toNat / sizeofMemoryRange ≤ i)
    (enough : length.toNat / sizeofMemoryRange ≤ src.length) :
    (osMemCopy dst src length)[i]? = dst[i]? := by
  rw [osMemCopy, List.getElem?_append_right (by simp; omega), List.length_take_of_le enough,
    List.getElem?_drop, Nat.add_sub_cancel' left]

section Sizes

variable {call : AddCall}

theorem toNat_numRanges (counted : call.nvuap.ranges.length < 2 ^ 64) :
    call.nvuap.numRanges.toNat = call.nvuap.ranges.length := by
  rw [UsermapAccessParams.numRanges, BitVec.toNat_ofNat, Nat.mod_eq_of_lt counted]

theorem toNat_sizeofMemoryRange : (BitVec.ofNat 64 sizeofMemoryRange).toNat = 16 := rfl

/-- The size is exact for `os_mem_copy` just below 2 ^ 28 ranges. -/
theorem sizes_exact_iff (counted : call.nvuap.ranges.length < 2 ^ 64) :
    call.copySize.toNat = sizeofMemoryRange * call.nvuap.numRanges.toNat ∧
        (call.copySize.truncate 32).toNat = call.copySize.toNat ↔
      call.nvuap.ranges.length < 2 ^ 28 := by
  have product := toNat_mul_eq_iff (x := BitVec.ofNat 64 sizeofMemoryRange)
    (k := call.nvuap.numRanges)
  rw [toNat_sizeofMemoryRange, toNat_numRanges counted] at product
  have cut := toNat_setWidth_eq_iff (x := call.copySize) (v := 32)
  rw [toNat_numRanges counted, AddCall.copySize] at *
  constructor
  · rintro ⟨size, length⟩
    have small := cut.mp length
    rw [size, sizeofMemoryRange] at small
    omega
  · intro few
    have size := product.mpr (by omega)
    exact ⟨size, cut.mpr (by omega)⟩

end Sizes

/-- The ranges of a GPU mapping are copied completely, with exact sizes, just when there are
less than 2 ^ 28 of them. -/
theorem copiesAll_iff {h : NvHaikuBaseDeviceHandle} {call : AddCall}
    (gpu : call.nv.isCtlDevice = false) (counted : call.nvuap.ranges.length < 2 ^ 64)
    (ok : (h.addMappingContextToFile call).2 = .ok) :
    CopiesAll h call ↔ call.nvuap.ranges.length < 2 ^ 28 := by
  obtain ⟨pRanges, -, memArea⟩ := NvHaikuBaseDeviceHandle.memArea_of_gpu gpu ok
  constructor
  · intro copies
    exact (sizes_exact_iff counted).mp ⟨copies.size, copies.length⟩
  · intro few
    obtain ⟨size, length⟩ := (sizes_exact_iff counted).mpr few
    refine ⟨by rw [memArea], ⟨_, by rw [memArea], fun i inside => ?_⟩, size, length⟩
    rw [toNat_numRanges counted] at inside size
    apply getElem?_osMemCopy _ inside
    rw [length, size, Nat.mul_div_cancel_left _ (by decide)]
    exact inside

/-- A handle of a GPU. -/
def gpuHandle : NvHaikuBaseDeviceHandle := { nv := .gpu 1 }

/-- A call with the given number of ranges, for which `calloc` returns zeroed memory. -/
def addRanges (count : ℕ) : AddCall where
  nv := .gpu 1
  nvuap := { ranges := List.replicate count ⟨4096, 4096⟩ }
  pAllocPriv := 0
  memory := some fun _ => ⟨0, 0⟩

theorem addRanges_ok (count : ℕ) :
    (gpuHandle.addMappingContextToFile (addRanges count)).2 = .ok := rfl

theorem copiesAll_two : CopiesAll gpuHandle (addRanges 2) ↔ 2 < 2 ^ 28 :=
  copiesAll_iff rfl (by decide : (addRanges 2).nvuap.ranges.length < 2 ^ 64) (addRanges_ok 2)

/-- Of 2 ^ 28 ranges none is copied, and the call succeeds. -/
theorem not_copiesAll_many :
    (gpuHandle.addMappingContextToFile (addRanges (2 ^ 28))).2 = .ok ∧
      (∃ pRanges, (gpuHandle.addMappingContextToFile (addRanges (2 ^ 28))).1.fMmapContext.memArea
        = { pRanges := some pRanges, numRanges := BitVec.ofNat 64 (2 ^ 28) } ∧
          pRanges[0]? = some ⟨0, 0⟩) ∧
      ¬ CopiesAll gpuHandle (addRanges (2 ^ 28)) := by
  have count : (addRanges (2 ^ 28)).nvuap.numRanges = BitVec.ofNat 64 (2 ^ 28) := by
    rw [UsermapAccessParams.numRanges, addRanges, List.length_replicate]
  have size : (addRanges (2 ^ 28)).copySize = BitVec.ofNat 64 (2 ^ 32) := by
    rw [AddCall.copySize, count]
    decide
  -- 2 ^ 32 is zero as the length for `os_mem_copy`
  refine ⟨addRanges_ok _, ?_, fun copies => ?_⟩
  · obtain ⟨pRanges, allocated, memArea⟩ :=
      NvHaikuBaseDeviceHandle.memArea_of_gpu rfl (addRanges_ok (2 ^ 28))
    rw [count] at memArea
    refine ⟨_, memArea, ?_⟩
    rw [size] at allocated ⊢
    rw [getElem?_osMemCopy_of_le (by decide) (Nat.zero_le _)]
    obtain ⟨content, zeroed, rfl⟩ := Option.map_eq_some_iff.mp allocated
    obtain rfl := Option.some.inj zeroed
    rw [List.getElem?_map, List.getElem?_range (by decide), Option.map_some]
  · have cut := copies.length
    rw [size] at cut
    exact absurd cut (by decide)

end NvidiaHaiku.BaseDevice

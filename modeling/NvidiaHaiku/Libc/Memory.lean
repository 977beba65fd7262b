/-
# Writing to memory

A piece of memory is a list, and a write that does not fit into it fails. What fits changes
the places it writes to and no others. `memset` and `memcpy` are writes of a constant and of
a part of a source. A rectangle is copied line by line, with strides of their own on both
sides, and its lines do not overlap as long as none is longer than the stride of the
destination.
-/

import Mathlib.Data.List.Basic
import Mathlib.Data.Int.Cast.Basic

namespace NvidiaHaiku.Libc

variable {α : Type*}

/-- The memory after `bytes` have been written at an offset; `none` if they do not fit. -/
def write (memory : List α) (offset : ℤ) (bytes : List α) : Option (List α) :=
  if 0 ≤ offset ∧ offset + bytes.length ≤ memory.length then
    some (memory.take offset.toNat ++ bytes ++ memory.drop (offset.toNat + bytes.length))
  else none

def memset (memory : List α) (offset : ℤ) (c : α) (n : ℕ) : Option (List α) :=
  write memory offset (List.replicate n c)

/-- Copies from `source`, with the place of each byte. -/
def memcpy (memory : List α) (offset : ℤ) (source : ℕ → α) (start n : ℕ) : Option (List α) :=
  write memory offset ((List.range n).map fun i => source (start + i))

/-- Copies lines of `n` bytes, from `src` on to `dst` on. -/
def copyLines (source : ℕ → α) (n : ℕ) (dstStride : ℤ) (srcStride : ℕ) :
    (lines : ℕ) → (dst : ℤ) → (src : ℕ) → List α → Option (List α)
  | 0, _, _, memory => some memory
  | lines + 1, dst, src, memory =>
    (memcpy memory dst source src n).bind
      (copyLines source n dstStride srcStride lines (dst + dstStride) (src + srcStride))

variable {memory left : List α} {bytes : List α} {offset : ℕ}

/-- The effect of a write. -/
structure Written (memory left : List α) (offset : ℕ) (bytes : List α) : Prop where
  length : left.length = memory.length
  inside : ∀ i < bytes.length, left[offset + i]? = bytes[i]?
  outside : ∀ i, i < offset ∨ offset + bytes.length ≤ i → left[i]? = memory[i]?

theorem write_spec (fits : offset + bytes.length ≤ memory.length) :
    ∃ left, write memory offset bytes = some left ∧ Written memory left offset bytes := by
  have start : (memory.take offset).length = offset := List.length_take_of_le (by omega)
  have both : (memory.take offset ++ bytes).length = offset + bytes.length := by
    rw [List.length_append, start]
  refine ⟨_, if_pos ⟨by omega, by exact_mod_cast fits⟩, ?_, ?_, ?_⟩
  · rw [List.length_append, Int.toNat_natCast, both, List.length_drop]
    omega
  · intro i within
    rw [Int.toNat_natCast, List.getElem?_append_left (by omega),
      List.getElem?_append_right (by omega), start, Nat.add_sub_cancel_left]
  · rintro i (before | behind)
    · rw [Int.toNat_natCast, List.getElem?_append_left (by omega),
        List.getElem?_append_left (by omega), List.getElem?_take_of_lt before]
    · rw [Int.toNat_natCast, List.getElem?_append_right (by omega), both, List.getElem?_drop,
        Nat.add_sub_cancel' behind]

/-- A write of the whole memory. -/
theorem write_all (same : bytes.length = memory.length) : write memory 0 bytes = some bytes := by
  rw [write, if_pos ⟨Int.le_refl 0, by omega⟩, Int.toNat_zero, List.take_zero, List.nil_append,
    Nat.zero_add, List.drop_of_length_le (Nat.le_of_eq same.symm), List.append_nil]

theorem memset_all {n : ℕ} (c : α) (same : memory.length = n) :
    memset memory 0 c n = some (List.replicate n c) :=
  write_all (List.length_replicate.trans same.symm)

theorem memset_spec {n : ℕ} (c : α) (fits : offset + n ≤ memory.length) :
    ∃ left, memset memory offset c n = some left ∧
      Written memory left offset (List.replicate n c) :=
  write_spec (by rwa [List.length_replicate])

theorem memcpy_spec {n : ℕ} (source : ℕ → α) (start : ℕ) (fits : offset + n ≤ memory.length) :
    ∃ left, memcpy memory offset source start n = some left ∧
      Written memory left offset ((List.range n).map fun i => source (start + i)) :=
  write_spec (by rwa [List.length_map, List.length_range])

/-! ## Rectangles -/

/-- Byte `b` of line `y` of a rectangle. -/
def place (stride y b : ℕ) : ℕ := y * stride + b

theorem place_succ (stride y b : ℕ) : place stride (y + 1) b = stride + place stride y b := by
  rw [place, place, Nat.succ_mul]
  omega

/-- Lines that are not longer than the stride do not overlap. -/
theorem place_inj {stride y y' b b' : ℕ} (hb : b < stride) (hb' : b' < stride) :
    place stride y b = place stride y' b' ↔ y = y' ∧ b = b' := by
  constructor
  · intro same
    have line {y b : ℕ} (within : b < stride) : place stride y b / stride = y := by
      rw [place, Nat.mul_comm, Nat.mul_add_div (by omega), Nat.div_eq_of_lt within, Nat.add_zero]
    have lines : y = y' := by
      have quotients := congrArg (· / stride) same
      simpa only [line hb, line hb'] using quotients
    subst lines
    exact ⟨rfl, Nat.add_left_cancel same⟩
  · rintro ⟨rfl, rfl⟩
    rfl

theorem place_lt {stride lines y b : ℕ} (hy : y < lines) (hb : b < stride) :
    place stride y b < stride * lines :=
  calc place stride y b
      < y * stride + stride := Nat.add_lt_add_left hb _
    _ = stride * (y + 1) := by rw [Nat.mul_succ, Nat.mul_comm]
    _ ≤ stride * lines := Nat.mul_le_mul_left stride hy

variable {source : ℕ → α} {n stride srcStride lines dst src : ℕ}

/-- The effect of copying a rectangle. -/
structure CopiedLines (source : ℕ → α) (n stride srcStride lines dst src : ℕ)
    (memory left : List α) : Prop where
  length : left.length = memory.length
  inside : ∀ y < lines, ∀ b < n,
    left[dst + place stride y b]? = some (source (src + place srcStride y b))
  outside : ∀ i, (∀ y < lines, ∀ b < n, i ≠ dst + place stride y b) → left[i]? = memory[i]?

/-- A rectangle that fits is copied. -/
theorem copyLines_spec (source : ℕ → α) (srcStride src : ℕ) (narrow : n ≤ stride)
    (fits : dst + lines * stride ≤ memory.length) :
    ∃ left, copyLines source n stride srcStride lines dst src memory = some left ∧
      CopiedLines source n stride srcStride lines dst src memory left := by
  induction lines generalizing dst src memory with
  | zero => exact ⟨memory, rfl, rfl, fun y none => absurd none (Nat.not_lt_zero y), fun _ _ => rfl⟩
  | succ lines ih =>
    rw [Nat.succ_mul] at fits
    obtain ⟨first, copied, line⟩ := memcpy_spec source src (show dst + n ≤ memory.length by omega)
    have below : dst + stride + lines * stride ≤ first.length := by
      rw [line.length]
      omega
    obtain ⟨left, copies, rest⟩ := ih (src + srcStride) below
    have total : ((List.range n).map fun i => source (src + i)).length = n := by
      rw [List.length_map, List.length_range]
    refine ⟨left, ?_, rest.length.trans line.length, ?_, ?_⟩
    · rw [copyLines, copied, Option.bind_some, ← copies, Int.natCast_add]
    · intro y inside b within
      cases y with
      | zero =>
        -- the first line is not written to again
        rw [rest.outside, show place stride 0 b = b by simp [place], line.inside b (by omega)]
        · simp [place, within]
        · intro y' _ b' _ same
          simp only [place] at same
          omega
      | succ y =>
        rw [place_succ, place_succ, ← Nat.add_assoc, ← Nat.add_assoc]
        exact rest.inside y (by omega) b within
    · intro i elsewhere
      have later : left[i]? = first[i]? := by
        refine rest.outside i fun y inside b within same => ?_
        refine elsewhere (y + 1) (by omega) b within ?_
        rw [place_succ, same, Nat.add_assoc]
      rw [later]
      refine line.outside i ?_
      by_contra inside
      have within : i - dst < n := by omega
      refine elsewhere 0 (by omega) (i - dst) within ?_
      simp only [place]
      omega

end NvidiaHaiku.Libc

/-
# The size of a bitmap

The rows of a bitmap are padded to 256 bytes, and its memory to whole pages. The pitch is
computed in 64 bits and kept in 32. The size is the product of the pitch and the height in 32
bits, and `BitsLength` is that product as a signed number.

`SetDisplayMode` makes bitmaps of up to 65535 by 65535 pixels. The pitch of such a bitmap is
exact. Its size needs 34 bits.
-/

import NvidiaHaiku.Accelerant.BitmapCreate
import NvidiaHaiku.Math.Word

namespace NvidiaHaiku.Accelerant

open NvidiaHaiku.Math Attempt
open NvidiaHaiku.Libc (B_PAGE_SIZE)

/-! ## The sizes -/

/-- `BytesPerRow`. -/
def NvKmsBitmap.bytesPerRow (bitmap : NvKmsBitmap) : ℤ := bitmap.fBytesPerRow.toInt

/-- `BitsLength`. -/
def NvKmsBitmap.bitsLength (bitmap : NvKmsBitmap) : ℤ :=
  (bitmap.fBytesPerRow * bitmap.fHeight).toInt

/-- The lengths that the constructor passes on, apart from that of the mapping. -/
structure BitmapLengths where
  /-- `nvKmsKapiAllocateVideoMemory`. -/
  allocated : BitVec 64
  rmObjectSizeInBytes : BitVec 64

/-- The lengths that `NvKmsBitmap(rmDev, kmsDev, width, height, colorSpace)` passes on. -/
def bitmapLengths (width height : BitVec 32) : BitmapLengths :=
  let size : BitVec 32 := bitmapBytesPerRow width * height
  { allocated := alignUp (size.setWidth 64) B_PAGE_SIZE
    rmObjectSizeInBytes := size.setWidth 64 }

/-- The memory of the bitmap covers its pixels. -/
structure CoversPixels (width height : ℕ) (bitmap : NvKmsBitmap) (lengths : BitmapLengths) :
    Prop where
  wide : 4 * (width : ℤ) ≤ bitmap.bytesPerRow
  aligned : 256 ∣ bitmap.bytesPerRow
  covers : ∀ x y : ℕ, x < width → y < height →
    y * bitmap.bytesPerRow + 4 * x + 4 ≤ lengths.allocated.toNat ∧
      y * bitmap.bytesPerRow + 4 * x + 4 ≤ bitmap.fMapping.fSize.toNat
  object : (lengths.rmObjectSizeInBytes.toNat : ℤ) = bitmap.bytesPerRow * height
  bits : 0 ≤ bitmap.bitsLength ∧ bitmap.bitsLength = bitmap.bytesPerRow * height

/-- The padded length of a row. -/
def rowBytes (width : ℕ) : ℕ := (4 * width + 255) / 256 * 256

/-! ## Exact sizes -/

theorem le_rowBytes (width : ℕ) : 4 * width ≤ rowBytes width := by
  unfold rowBytes
  omega

theorem dvd_rowBytes (width : ℕ) : 256 ∣ rowBytes width := Nat.dvd_mul_left ..

theorem toNat_alignUp {val align : BitVec 64} (fits : val.toNat + (align - 1).toNat < 2 ^ 64) :
    (alignUp val align).toNat = (val.toNat + (align - 1).toNat) / align.toNat * align.toNat := by
  rw [alignUp, toNat_udiv_mul, BitVec.toNat_add_of_lt fits]

theorem le_toNat_alignUp_page {size : BitVec 32} :
    size.toNat ≤ (alignUp (size.setWidth 64) B_PAGE_SIZE).toNat := by
  have page : (B_PAGE_SIZE - 1).toNat = 4095 := rfl
  have wide : (size.setWidth 64).toNat = size.toNat := BitVec.toNat_setWidth_of_le (by decide)
  have bound := size.isLt
  rw [toNat_alignUp (by rw [page, wide]; omega), page, wide]
  change size.toNat ≤ (size.toNat + 4095) / 4096 * 4096
  omega

variable (width height : BitVec 16)

/-- The pitch of a bitmap that `SetDisplayMode` makes is exact. -/
theorem toNat_bitmapBytesPerRow :
    (bitmapBytesPerRow (width.setWidth 32)).toNat = rowBytes width.toNat := by
  have bound := width.isLt
  -- the three casts of the pitch lose nothing, as a width has 16 bits here
  have row : (4 * width.setWidth 32 : BitVec 32).toNat = 4 * width.toNat := by
    rw [toNat_mul_eq_iff.mpr, BitVec.toNat_setWidth_of_le (by decide)]
    · rfl
    · rw [BitVec.toNat_setWidth_of_le (by decide)]
      change 4 * width.toNat < 2 ^ 32
      omega
  have wide : ((4 * width.setWidth 32 : BitVec 32).setWidth 64).toNat = 4 * width.toNat := by
    rw [BitVec.toNat_setWidth_of_le (by decide), row]
  have aligned : (alignUp ((4 * width.setWidth 32 : BitVec 32).setWidth 64) 256).toNat =
      rowBytes width.toNat := by
    have pad : (256 - 1 : BitVec 64).toNat = 255 := rfl
    rw [toNat_alignUp (by rw [pad, wide]; omega), pad, wide]
    rfl
  rw [bitmapBytesPerRow, toNat_setWidth_eq_iff.mpr, aligned]
  rw [aligned, rowBytes]
  omega

theorem rowBytes_lt : rowBytes width.toNat < 2 ^ 31 := by
  have bound := width.isLt
  unfold rowBytes
  omega

/-- A product of words is exact as a signed number just when it is below the sign bit. -/
theorem toInt_mul_eq_iff {a b : BitVec 32} :
    (a * b).toInt = a.toNat * b.toNat ↔ a.toNat * b.toNat < 2 ^ 31 := by
  constructor
  · intro exact'
    have bound : 2 * (a * b).toInt < 2 ^ 32 := BitVec.two_mul_toInt_lt
    rw [exact'] at bound
    omega
  · intro fits
    have whole : (a * b).toNat = a.toNat * b.toNat := toNat_mul_eq_iff.mpr (by omega)
    rw [BitVec.toInt_eq_toNat_of_lt (by omega), whole, Int.natCast_mul]

/-! ## Covering -/

variable {width height} {device : NvRmObject} {kmsDev : Sdk.Address} {colorSpace : BitVec 32}
  {replies : ConstructReplies} {bitmap : NvKmsBitmap}

theorem fSize_of_toCreate {length : BitVec 64} {mapping : Sdk.NvRmMemoryMapping}
    (mapped : (replies.toCreate device length).mapMemory = .ok mapping) :
    mapping.fSize = length := by
  unfold ConstructReplies.toCreate at mapped
  dsimp only at mapped
  cases allocated : replies.allocate with
  | error e =>
    rw [allocated] at mapped
    cases mapped
  | ok memory =>
    cases linear : replies.mapMemory with
    | error e =>
      rw [allocated, linear] at mapped
      cases mapped
    | ok pLinearAddress =>
      cases area : replies.haikuMap with
      | error e =>
        rw [allocated, linear, area] at mapped
        cases mapped
      | ok =>
        rw [allocated, linear, area] at mapped
        obtain rfl := Except.ok.inj mapped
        rfl

/-- The fields of a bitmap that has been made. -/
theorem fields_of_construct {width height : BitVec 32}
    (made : (NvKmsBitmap.construct device kmsDev width height colorSpace replies).outcome =
      .returned bitmap) :
    bitmap.fWidth = width ∧ bitmap.fHeight = height ∧
      bitmap.fBytesPerRow = bitmapBytesPerRow width ∧
      bitmap.fMapping.fSize = bitmapLength width height := by
  rcases construct_outcome device kmsDev width height colorSpace replies {} with aborted | same
  · rw [aborted] at made
    cases made
  · rw [same] at made
    have created : (NvKmsBitmap.create kmsDev width height colorSpace
        (replies.toCreate device (bitmapLength width height)) {}).1 = .ok bitmap := by
      revert made
      cases (NvKmsBitmap.create kmsDev width height colorSpace
        (replies.toCreate device (bitmapLength width height)) {}).1 with
      | error e => simp [Outcome.ofExcept]
      | ok bitmap' => simp [Outcome.ofExcept]
    obtain ⟨-, memory, handle, mapping, -, -, mapped, rfl⟩ := NvKmsBitmap.eq_of_create created
    have size := fSize_of_toCreate mapped
    exact ⟨rfl, rfl, rfl, size⟩

/-- A pixel ends where its row does, or before. -/
theorem pixel_le {pitch x y width height : ℕ} (wide : 4 * width ≤ pitch) (hx : x < width)
    (hy : y < height) : y * pitch + 4 * x + 4 ≤ pitch * height :=
  calc y * pitch + 4 * x + 4
      ≤ y * pitch + pitch := by omega
    _ = pitch * (y + 1) := by rw [Nat.mul_succ, Nat.mul_comm]
    _ ≤ pitch * height := Nat.mul_le_mul_left pitch hy

section Made

variable {width height : BitVec 16}
  (made : (NvKmsBitmap.construct device kmsDev (width.setWidth 32) (height.setWidth 32)
    colorSpace replies).outcome = .returned bitmap)
include made

theorem bytesPerRow_of_construct : bitmap.bytesPerRow = rowBytes width.toNat := by
  obtain ⟨-, -, pitch, -⟩ := fields_of_construct made
  have pitchNat := toNat_bitmapBytesPerRow width
  have small := rowBytes_lt width
  rw [NvKmsBitmap.bytesPerRow, pitch, BitVec.toInt_eq_toNat_of_lt (by omega), pitchNat]

/-- The length is exact just when it is below the sign bit. -/
theorem bitsLength_eq_iff_of_construct :
    bitmap.bitsLength = rowBytes width.toNat * height.toNat ↔
      rowBytes width.toNat * height.toNat < 2 ^ 31 := by
  obtain ⟨-, rows, pitch, -⟩ := fields_of_construct made
  have rowsNat : (height.setWidth 32).toNat = height.toNat :=
    BitVec.toNat_setWidth_of_le (by decide)
  rw [NvKmsBitmap.bitsLength, pitch, rows, ← toNat_bitmapBytesPerRow, ← rowsNat]
  exact toInt_mul_eq_iff

end Made

/-- The product that is allocated, mapped and registered. -/
theorem toNat_bitmapBytesPerRow_mul (width height : BitVec 16)
    (fits : rowBytes width.toNat * height.toNat < 2 ^ 31) :
    (bitmapBytesPerRow (width.setWidth 32) * height.setWidth 32).toNat =
      rowBytes width.toNat * height.toNat := by
  have rowsNat : (height.setWidth 32).toNat = height.toNat :=
    BitVec.toNat_setWidth_of_le (by decide)
  rw [← toNat_bitmapBytesPerRow, ← rowsNat] at fits ⊢
  exact toNat_mul_eq_iff.mpr (fits.trans (by decide))

/-- The memory of a bitmap covers its pixels, and all lengths are exact, just when the padded
rows have less than 2 ^ 31 bytes. -/
theorem coversPixels_iff (width height : BitVec 16)
    (made : (NvKmsBitmap.construct device kmsDev (width.setWidth 32) (height.setWidth 32)
      colorSpace replies).outcome = .returned bitmap) :
    CoversPixels width.toNat height.toNat bitmap
        (bitmapLengths (width.setWidth 32) (height.setWidth 32)) ↔
      rowBytes width.toNat * height.toNat < 2 ^ 31 := by
  obtain ⟨-, -, -, mapped⟩ := fields_of_construct made
  have perRow := bytesPerRow_of_construct made
  have length := bitsLength_eq_iff_of_construct made
  rw [← length]
  constructor
  · intro covers
    -- of all lengths the signed one is the first to go wrong
    rw [covers.bits.2, perRow]
  · intro bits
    have size := toNat_bitmapBytesPerRow_mul width height (length.mp bits)
    have object : (bitmapLengths (width.setWidth 32) (height.setWidth 32)).rmObjectSizeInBytes.toNat
        = rowBytes width.toNat * height.toNat := by
      rw [← size]
      exact BitVec.toNat_setWidth_of_le (by decide)
    refine ⟨?_, ?_, ?_, ?_, ?_⟩
    · rw [perRow]
      exact_mod_cast le_rowBytes width.toNat
    · rw [perRow]
      exact Int.natCast_dvd_natCast.mpr (dvd_rowBytes width.toNat)
    · intro x y hx hy
      have pixel := pixel_le (le_rowBytes width.toNat) hx hy
      have page : rowBytes width.toNat * height.toNat ≤ _ := size ▸ le_toNat_alignUp_page
      rw [perRow, mapped]
      exact ⟨by exact_mod_cast pixel.trans page, by exact_mod_cast pixel.trans page⟩
    · rw [perRow, object, Int.natCast_mul]
    · rw [bits, perRow]
      exact ⟨by exact_mod_cast Nat.zero_le _, rfl⟩

/-- A bitmap of the given size, made by calls that all succeed. -/
theorem exists_construct (width height : BitVec 32) :
    ∃ bitmap, (NvKmsBitmap.construct ⟨1, 2⟩ 1 width height B_RGB32 withArea).outcome =
      .returned bitmap :=
  ⟨_, rfl⟩

theorem coversPixels_vga : ∃ bitmap : NvKmsBitmap, CoversPixels 640 480 bitmap
    (bitmapLengths 640 480) ↔ rowBytes 640 * 480 < 2 ^ 31 := by
  obtain ⟨bitmap, made⟩ := exists_construct 640 480
  exact ⟨bitmap, coversPixels_iff 640 480 made⟩

/-- A bitmap of 65535 by 16385 pixels has 2 ^ 32 + 2 ^ 18 bytes, of which one row is left. -/
theorem not_coversPixels_large : ∃ bitmap : NvKmsBitmap,
    (NvKmsBitmap.construct ⟨1, 2⟩ 1 65535 16385 B_RGB32 withArea).outcome = .returned bitmap ∧
      bitmap.fMapping.fSize = 0x40000 ∧
      ¬ CoversPixels 65535 16385 bitmap (bitmapLengths 65535 16385) := by
  obtain ⟨bitmap, made⟩ := exists_construct 65535 16385
  obtain ⟨-, -, -, mapped⟩ := fields_of_construct made
  refine ⟨bitmap, made, mapped.trans (by decide), fun covers => ?_⟩
  -- the first pixel of the second row
  have second := (covers.covers 0 1 (by decide) (by decide)).1
  have wide := covers.wide
  have aligned := covers.aligned
  rw [show (bitmapLengths 65535 16385).allocated.toNat = 0x40000 by decide] at second
  omega

end NvidiaHaiku.Accelerant

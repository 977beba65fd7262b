/-
# The image of the cursor

`SetCursorBitmap` makes a square bitmap of one of four sizes, clears it and copies the lines
of the image to its upper left corner. A line of the bitmap starts a multiple of its own
pitch behind the first one, a line of the image a multiple of whatever pitch the caller
passes.
-/

import Mathlib.Order.Bounds.Basic
import NvidiaHaiku.Accelerant.BitmapSize
import NvidiaHaiku.Libc.Memory

namespace NvidiaHaiku.Accelerant

open NvidiaHaiku.Libc NvidiaHaiku.Math

/-- `cursorWidth` and `cursorHeight`. -/
def cursorSize (width height : BitVec 16) : Reply (BitVec 32 × BitVec 32) :=
  if width.toNat > 256 ∨ height.toNat > 256 then .error EINVAL
  else if width.toNat > 128 ∨ height.toNat > 128 then .ok (256, 256)
  else if width.toNat > 64 ∨ height.toNat > 64 then .ok (128, 128)
  else if width.toNat > 32 ∨ height.toNat > 32 then .ok (64, 64)
  else .ok (32, 32)

/-- The bitmap that `SetCursorBitmap` makes. -/
def newCursor (device : NvRmObject) (kmsDev : Sdk.Address) (width height : BitVec 16)
    (colorSpace : BitVec 32) (replies : ConstructReplies) : Outcome Error NvKmsBitmap :=
  match cursorSize width height with
  | .error e => .thrown e
  | .ok (cursorWidth, cursorHeight) =>
    (NvKmsBitmap.construct device kmsDev cursorWidth cursorHeight colorSpace replies).outcome

/-- What `SetCursorBitmap` makes of the bits of the bitmap; `none` if it writes past them. -/
def drawCursor (newCursor : NvKmsBitmap) (width height bytesPerRow : BitVec 16)
    (bitmapData : ℕ → UInt8) (bits : List UInt8) : Option (List UInt8) :=
  -- the length, an `int32`, is passed as a `size_t`
  (memset bits 0 0 (BitVec.ofInt 64 newCursor.bitsLength).toNat).bind
    (copyLines bitmapData (4 * width.toNat) newCursor.bytesPerRow bytesPerRow.toNat
      height.toNat 0 0)

/-- The sides a cursor may have. -/
def cursorSides : List ℕ := [32, 64, 128, 256]

/-- The bitmap is the smallest that the image fits in, and it holds the image and zeros. -/
structure HoldsImage (width height bytesPerRow : BitVec 16) (bitmapData : ℕ → UInt8)
    (bitmap : NvKmsBitmap) (bits : List UInt8) : Prop where
  square : bitmap.fWidth = bitmap.fHeight
  least : IsLeast {side | side ∈ cursorSides ∧ width.toNat ≤ side ∧ height.toNat ≤ side}
    bitmap.fWidth.toNat
  /-- The bits are in the mapping. -/
  mapped : bitmap.bitsLength ≤ bitmap.fMapping.fSize.toNat
  length : (bits.length : ℤ) = bitmap.bitsLength
  /-- The bits are lines of the length of the pitch. -/
  rows : bitmap.bitsLength = bitmap.bytesPerRow * bitmap.fHeight.toNat
  byte : ∀ y < bitmap.fHeight.toNat, ∀ b < bitmap.bytesPerRow.toNat,
    bits[place bitmap.bytesPerRow.toNat y b]? =
      some (if y < height.toNat ∧ b < 4 * width.toNat then
        bitmapData (place bytesPerRow.toNat y b) else 0)

variable {width height : BitVec 16} {cursorWidth cursorHeight : BitVec 32}
  {device : NvRmObject} {kmsDev : Sdk.Address} {colorSpace : BitVec 32}
  {replies : ConstructReplies} {bitmap : NvKmsBitmap}

theorem side_le {side : ℕ} (member : side ∈ cursorSides) : side ≤ 256 := by
  simp [cursorSides] at member
  omega

/-- A side that fits is the least if the sides below it are too small. -/
theorem isLeast_side {side : ℕ} (member : side ∈ cursorSides) (wide : width.toNat ≤ side)
    (high : height.toNat ≤ side)
    (below : ∀ s ∈ cursorSides, s < side → s < width.toNat ∨ s < height.toNat) :
    IsLeast {side | side ∈ cursorSides ∧ width.toNat ≤ side ∧ height.toNat ≤ side} side := by
  refine ⟨⟨member, wide, high⟩, ?_⟩
  rintro s ⟨member, wide, high⟩
  by_contra less
  rcases below s member (not_le.mp less) with narrow | low
  · exact absurd wide (not_le.mpr narrow)
  · exact absurd high (not_le.mpr low)

/-- The thresholds give the least side that is large enough. -/
theorem cursorSize_spec (sized : cursorSize width height = .ok (cursorWidth, cursorHeight)) :
    ∃ side : BitVec 16, cursorWidth = side.setWidth 32 ∧ cursorHeight = side.setWidth 32 ∧
      IsLeast {side | side ∈ cursorSides ∧ width.toNat ≤ side ∧ height.toNat ≤ side}
        side.toNat := by
  unfold cursorSize at sized
  have sides {s : ℕ} : s ∈ cursorSides ↔ s = 32 ∨ s = 64 ∨ s = 128 ∨ s = 256 := by
    simp [cursorSides]
  -- one case for each of the thresholds, with those passed before in the context
  split at sized
  · cases sized
  split at sized
  · cases sized
    refine ⟨256, rfl, rfl, ?_⟩
    refine show IsLeast _ 256 from isLeast_side (by decide) (by omega) (by omega) ?_
    intro s member less
    rw [sides] at member
    omega
  split at sized
  · cases sized
    refine ⟨128, rfl, rfl, ?_⟩
    refine show IsLeast _ 128 from isLeast_side (by decide) (by omega) (by omega) ?_
    intro s member less
    rw [sides] at member
    omega
  split at sized
  · cases sized
    refine ⟨64, rfl, rfl, ?_⟩
    refine show IsLeast _ 64 from isLeast_side (by decide) (by omega) (by omega) ?_
    intro s member less
    rw [sides] at member
    omega
  · cases sized
    refine ⟨32, rfl, rfl, ?_⟩
    refine show IsLeast _ 32 from isLeast_side (by decide) (by omega) (by omega) ?_
    intro s member less
    rw [sides] at member
    omega

variable {bits : List UInt8}

/-- What the memory of a bitmap with the given pitch and height becomes. -/
theorem drawCursor_spec {pitch rows : ℕ} (bytesPerRow : BitVec 16) (bitmapData : ℕ → UInt8)
    (perRow : bitmap.bytesPerRow = pitch) (whole : bitmap.bitsLength = pitch * rows)
    (small : pitch * rows < 2 ^ 64) (wide : 4 * width.toNat ≤ pitch) (high : height.toNat ≤ rows)
    (memory : bits.length = pitch * rows) :
    ∃ left, drawCursor bitmap width height bytesPerRow bitmapData bits = some left ∧
      left.length = bits.length ∧ ∀ y < rows, ∀ b < pitch, left[place pitch y b]? =
        some (if y < height.toNat ∧ b < 4 * width.toNat then
          bitmapData (place bytesPerRow.toNat y b) else 0) := by
  have length : (BitVec.ofInt 64 bitmap.bitsLength).toNat = pitch * rows := by
    rw [whole, ← Int.natCast_mul, BitVec.ofInt_natCast, BitVec.toNat_ofNat,
      Nat.mod_eq_of_lt small]
  -- first all bytes are cleared, then the lines are copied over them
  obtain ⟨cleared, cleared_eq, clear⟩ := memset_spec (0 : UInt8)
    (show 0 + pitch * rows ≤ bits.length by omega)
  have inside : 0 + height.toNat * pitch ≤ cleared.length := by
    rw [clear.length, memory, Nat.zero_add, Nat.mul_comm]
    exact Nat.mul_le_mul_left pitch high
  obtain ⟨left, left_eq, copied⟩ := copyLines_spec bitmapData bytesPerRow.toNat 0 wide inside
  refine ⟨left, ?_, copied.length.trans clear.length, fun y hy b hb => ?_⟩
  · rw [drawCursor, length, perRow]
    exact (congrArg (Option.bind · _) cleared_eq).trans left_eq
  by_cases image : y < height.toNat ∧ b < 4 * width.toNat
  · have byte := copied.inside y image.1 b image.2
    rw [Nat.zero_add, Nat.zero_add] at byte
    rwa [if_pos image]
  · -- the lines of the image do not come to this place
    have elsewhere : ∀ y' < height.toNat, ∀ b' < 4 * width.toNat,
        place pitch y b ≠ 0 + place pitch y' b' := by
      intro y' hy' b' hb' same
      rw [Nat.zero_add, place_inj hb (hb'.trans_le wide)] at same
      exact image ⟨same.1 ▸ hy', same.2 ▸ hb'⟩
    have within : place pitch y b < pitch * rows := place_lt hy hb
    have byte := clear.inside (place pitch y b) (by rwa [List.length_replicate])
    rw [Nat.zero_add, List.getElem?_replicate, if_pos within] at byte
    rw [if_neg image, copied.outside _ elsewhere, byte]

/-- The bitmap is square, with the least side that the image fits in. -/
theorem construct_of_newCursor
    (made : newCursor device kmsDev width height colorSpace replies = .returned bitmap) :
    ∃ side : BitVec 16,
      (NvKmsBitmap.construct device kmsDev (side.setWidth 32) (side.setWidth 32) colorSpace
        replies).outcome = .returned bitmap ∧
      IsLeast {side | side ∈ cursorSides ∧ width.toNat ≤ side ∧ height.toNat ≤ side}
        side.toNat := by
  unfold newCursor at made
  cases sized : cursorSize width height with
  | error e =>
    rw [sized] at made
    cases made
  | ok size =>
    obtain ⟨cursorWidth, cursorHeight⟩ := size
    rw [sized] at made
    obtain ⟨side, rfl, rfl, least⟩ := cursorSize_spec sized
    exact ⟨side, made, least⟩

/-- The size of a cursor is far below the sign bit. -/
theorem rowBytes_mul_lt {side : ℕ} (member : side ∈ cursorSides) :
    rowBytes side * side < 2 ^ 31 := by
  have limit : side ≤ 256 := side_le member
  have pitch : rowBytes side ≤ 1024 := by
    unfold rowBytes
    omega
  exact (Nat.mul_le_mul pitch limit).trans_lt (by decide)

/-- A cursor over all images: the bitmap that is made for an image holds it. -/
theorem holdsImage_of_newCursor (width height bytesPerRow : BitVec 16)
    (bitmapData : ℕ → UInt8)
    (made : newCursor device kmsDev width height colorSpace replies = .returned bitmap)
    (memory : bits.length = bitmap.bitsLength.toNat) :
    ∃ left, drawCursor bitmap width height bytesPerRow bitmapData bits = some left ∧
      HoldsImage width height bytesPerRow bitmapData bitmap left := by
  obtain ⟨side, made, least⟩ := construct_of_newCursor made
  obtain ⟨fWidth, fHeight, -, fSize⟩ := fields_of_construct made
  have sideNat : (side.setWidth 32).toNat = side.toNat := BitVec.toNat_setWidth_of_le (by decide)
  -- the product of pitch and height does not wrap, so that it is the length of the bits
  have fits := rowBytes_mul_lt least.1.1
  have perRow := bytesPerRow_of_construct made
  have whole := (bitsLength_eq_iff_of_construct made).mpr fits
  have wide : 4 * width.toNat ≤ rowBytes side.toNat :=
    (Nat.mul_le_mul_left 4 least.1.2.1).trans (le_rowBytes _)
  have bytes : bits.length = rowBytes side.toNat * side.toNat := by
    rw [memory, whole, ← Int.natCast_mul, Int.toNat_natCast]
  obtain ⟨left, drawn, length, byte⟩ := drawCursor_spec bytesPerRow bitmapData perRow whole
    (fits.trans (by decide)) wide least.1.2.2 bytes
  refine ⟨left, drawn, fWidth.trans fHeight.symm, ?_, ?_, ?_, ?_, ?_⟩
  · rw [fWidth, sideNat]
    exact least
  · -- the mapping is the bits rounded up to whole pages
    have product := toNat_bitmapBytesPerRow_mul side side fits
    have page : rowBytes side.toNat * side.toNat ≤
        (bitmapLength (side.setWidth 32) (side.setWidth 32)).toNat :=
      product ▸ le_toNat_alignUp_page
    rw [whole, fSize]
    exact_mod_cast page
  · rw [length, bytes, whole, Int.natCast_mul]
  · rw [whole, perRow, fHeight, sideNat]
  · rw [fHeight, sideNat, perRow, Int.toNat_natCast]
    exact byte

/-- An image of 24 by 16 pixels, with 4 bytes between its lines, in memory that was in use. -/
theorem holdsImage_padded : ∃ bitmap left,
    newCursor ⟨1, 2⟩ 1 24 16 B_RGB32 withArea = .returned bitmap ∧
      drawCursor bitmap 24 16 100 UInt8.ofNat (List.replicate bitmap.bitsLength.toNat 7) =
        some left ∧
      HoldsImage 24 16 100 UInt8.ofNat bitmap left := by
  obtain ⟨bitmap, made⟩ := exists_construct 32 32
  have cursor : newCursor ⟨1, 2⟩ 1 24 16 B_RGB32 withArea = .returned bitmap := made
  obtain ⟨left, drawn, holds⟩ :=
    holdsImage_of_newCursor 24 16 100 UInt8.ofNat cursor List.length_replicate
  exact ⟨bitmap, left, cursor, drawn, holds⟩

end NvidiaHaiku.Accelerant

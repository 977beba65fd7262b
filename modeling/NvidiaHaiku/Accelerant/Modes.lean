/-
# The modes of the accelerant and of KMS

A mode is a `display_mode` to the callers of the accelerant and an `NvKmsMode` to KMS.
One function encodes and another decodes, and the two are written independently. The
decoder keeps three flags and knows one colour space, and the clock is counted in Hz
on one side and in kHz on the other.

The modes advertised by `GetModeList` are decoded ones. They survive being set and
read back. Any other mode does so just when the encoding loses none of it.
-/

import NvidiaHaiku.Accelerant.SetDisplayMode
import NvidiaHaiku.Math.Word

namespace NvidiaHaiku.Accelerant

open NvidiaHaiku.Math

/-! ## Decoding -/

/-- `ToHaikuModeTimings`. -/
def toHaikuModeTimings (timings : NvModeTimings) : DisplayTiming where
  pixel_clock := timings.pixelClockHz / 1000
  h_display := timings.hVisible
  h_sync_start := timings.hSyncStart
  h_sync_end := timings.hSyncEnd
  h_total := timings.hTotal
  v_display := timings.vVisible
  v_sync_start := timings.vSyncStart
  v_sync_end := timings.vSyncEnd
  v_total := timings.vTotal
  flags :=
    (if timings.interlaced then B_TIMING_INTERLACED else 0) |||
      (if timings.hSyncPos then B_POSITIVE_HSYNC else 0) |||
      (if timings.vSyncPos then B_POSITIVE_VSYNC else 0)

/-- `ToHaikuMode`. -/
def toHaikuMode (nvKmsMode : NvKmsMode) : DisplayMode where
  timing := toHaikuModeTimings nvKmsMode
  space := B_RGB32
  virtual_width := nvKmsMode.hVisible
  virtual_height := nvKmsMode.vVisible

/-- `GetModeList`. -/
def getModeList (fModeList : List NvKmsMode) : List DisplayMode := fModeList.map toHaikuMode

def ENOENT : Error := .errno 0x80006003

/-- `GetDisplayMode`. -/
def State.getDisplayMode (s : State) : Reply DisplayMode :=
  if s.fCurrentMode.hVisible = 0 then .error ENOENT else .ok (toHaikuMode s.fCurrentMode)

/-! ## Decoding what was encoded -/

/-- The flags that KMS is told of. -/
def knownFlags : BitVec 32 := B_TIMING_INTERLACED ||| B_POSITIVE_HSYNC ||| B_POSITIVE_VSYNC

variable {s t : State} {mode : DisplayMode} {m sent : NvKmsMode} {bitmap : NvKmsBitmap}
  {replies : Replies} {result : Reply Unit}

theorem ite_flags (flags : BitVec 32) :
    (if B_TIMING_INTERLACED &&& flags ≠ 0 then B_TIMING_INTERLACED else 0) |||
        (if B_POSITIVE_HSYNC &&& flags ≠ 0 then B_POSITIVE_HSYNC else 0) |||
        (if B_POSITIVE_VSYNC &&& flags ≠ 0 then B_POSITIVE_VSYNC else 0) =
      knownFlags &&& flags := by
  have interlaced : B_TIMING_INTERLACED = BitVec.twoPow 32 28 := rfl
  have hsync : B_POSITIVE_HSYNC = BitVec.twoPow 32 29 := rfl
  have vsync : B_POSITIVE_VSYNC = BitVec.twoPow 32 30 := rfl
  rw [knownFlags, BitVec.and_or_distrib_right, BitVec.and_or_distrib_right, interlaced, hsync,
    vsync, ite_twoPow_and, ite_twoPow_and, ite_twoPow_and]

/-- What comes back of a timing: the clock may have wrapped, and other flags are gone. -/
theorem toHaikuModeTimings_of_toNvKmsMode (encoded : toNvKmsMode mode = some sent) :
    toHaikuModeTimings sent =
      { mode.timing with
        pixel_clock := mode.timing.pixel_clock * 1000 / 1000
        flags := knownFlags &&& mode.timing.flags } := by
  obtain ⟨rate, -, rfl⟩ := Option.map_eq_some_iff.mp encoded
  have flags := ite_flags mode.timing.flags
  simp only [toHaikuModeTimings, decide_eq_true_eq, flags]

/-- The geometry is passed through. -/
theorem visible_of_toNvKmsMode (encoded : toNvKmsMode mode = some sent) :
    sent.hVisible = mode.timing.h_display ∧ sent.vVisible = mode.timing.v_display := by
  obtain ⟨rate, -, rfl⟩ := Option.map_eq_some_iff.mp encoded
  exact ⟨rfl, rfl⟩

theorem exists_toNvKmsMode (hTotal : mode.timing.h_total ≠ 0) (vTotal : mode.timing.v_total ≠ 0) :
    ∃ sent, toNvKmsMode mode = some sent := by
  have total : mode.timing.h_total.setWidth 64 * mode.timing.v_total.setWidth 64 ≠ 0 := by
    intro zero
    have product := congrArg BitVec.toNat zero
    rw [toNat_mul_setWidth (by decide)] at product
    rcases Nat.mul_eq_zero.mp product with h | v
    · exact hTotal (BitVec.eq_of_toNat_eq h)
    · exact vTotal (BitVec.eq_of_toNat_eq v)
  exact ⟨_, by rw [toNvKmsMode, calcRefreshRate, if_neg total, Option.map_some]⟩

/-! ## Reading back what was set -/

theorem fCurrentMode_install (installed : s.install bitmap replies = (result, t)) :
    t.fCurrentMode = s.fCurrentMode := by
  unfold State.install at installed
  split at installed
  all_goals
    obtain ⟨-, rfl⟩ := Prod.mk.inj installed
    rfl

/-- A mode that has been set fits, and its encoding is the current mode. -/
theorem fCurrentMode_of_setDisplayMode
    (returned : s.setDisplayMode mode replies = some (.ok (), t)) :
    mode.fits = true ∧ toNvKmsMode mode = some t.fCurrentMode := by
  unfold State.setDisplayMode at returned
  split at returned
  · simp at returned
  · rename_i fits
    obtain ⟨nvKmsMode, encoded, returned⟩ := Option.map_eq_some_iff.mp returned
    refine ⟨by simpa using fits, ?_⟩
    split at returned
    · simp at returned
    · simp at returned
    · split at returned
      · simp at returned
      · split at returned
        · simp at returned
        · rw [encoded, fCurrentMode_install returned]
          rfl

/-- When every call it makes succeeds, so does `SetDisplayMode`. -/
theorem exists_setDisplayMode (hTotal : mode.timing.h_total ≠ 0) (vTotal : mode.timing.v_total ≠ 0)
    (sound : replies.create.Sound s.kms) (commits : replies.commits mode = true)
    (released : Move.Releases s.fOldFramebuffer replies.old) :
    ∃ t, s.setDisplayMode mode replies = some (.ok (), t) := by
  obtain ⟨sent, encoded⟩ := exists_toNvKmsMode hTotal vTotal
  obtain ⟨⟨result, t⟩, ran⟩ : ∃ r, s.setDisplayMode mode replies = some r := by
    unfold State.setDisplayMode
    rw [encoded]
    split
    · exact ⟨_, rfl⟩
    · exact ⟨_, rfl⟩
  rcases setDisplayMode_cases sound ran with ⟨stops, -⟩ | ⟨-, bitmap, nvKmsMode, -, -, installed⟩
  · exact absurd commits (by simp [stops])
  · obtain ⟨rfl, -⟩ := install_of_releases installed released
    exact ⟨t, ran⟩

/-- Nothing of the mode is lost by its encoding. -/
structure DisplayMode.Encodable (mode : DisplayMode) : Prop where
  space : mode.space = B_RGB32
  flags : knownFlags &&& mode.timing.flags = mode.timing.flags
  clock : mode.timing.pixel_clock.toNat * 1000 < 2 ^ 32

/-- The fields that a caller gets back. -/
structure DisplayMode.Matches (mode other : DisplayMode) : Prop where
  timing : mode.timing = other.timing
  space : mode.space = other.space
  virtual_width : mode.virtual_width = other.virtual_width
  virtual_height : mode.virtual_height = other.virtual_height

theorem toHaikuMode_matches_iff (fits : mode.fits = true)
    (encoded : toNvKmsMode mode = some sent) :
    (toHaikuMode sent).Matches mode ↔ mode.Encodable := by
  have timing := toHaikuModeTimings_of_toNvKmsMode encoded
  have clock := mul_udiv_eq_self_iff (x := mode.timing.pixel_clock) (k := 1000) (by decide)
  obtain ⟨width, height⟩ := visible_of_toNvKmsMode encoded
  constructor
  · intro same
    have kept := timing.symm.trans same.timing
    exact ⟨same.space.symm, congrArg DisplayTiming.flags kept,
      clock.mp (congrArg DisplayTiming.pixel_clock kept)⟩
  · intro encodable
    have kept : toHaikuModeTimings sent = mode.timing := by
      rw [timing, encodable.flags, clock.mpr encodable.clock]
    simp only [DisplayMode.fits, Bool.not_eq_true', Bool.or_eq_false_iff, decide_eq_false_iff_not,
      not_not] at fits
    obtain ⟨⟨⟨width', height'⟩, -⟩, -⟩ := fits
    exact ⟨kept, encodable.space.symm, width.trans width'.symm, height.trans height'.symm⟩

theorem getDisplayMode_of_setDisplayMode (visible : mode.timing.h_display ≠ 0)
    (returned : s.setDisplayMode mode replies = some (.ok (), t)) :
    t.getDisplayMode = .ok (toHaikuMode t.fCurrentMode) := by
  obtain ⟨-, encoded⟩ := fCurrentMode_of_setDisplayMode returned
  rw [State.getDisplayMode, (visible_of_toNvKmsMode encoded).1, if_neg visible]

/-- The next `GetDisplayMode` returns what `SetDisplayMode` has set just when nothing of it
is lost: the space is `B_RGB32`, no flag is set but the three known ones, and the clock
counted in Hz fits into 32 bits. -/
theorem getDisplayMode_matches_iff (visible : mode.timing.h_display ≠ 0)
    (returned : s.setDisplayMode mode replies = some (.ok (), t)) :
    (∃ current, t.getDisplayMode = .ok current ∧ current.Matches mode) ↔ mode.Encodable := by
  obtain ⟨fits, encoded⟩ := fCurrentMode_of_setDisplayMode returned
  rw [← toHaikuMode_matches_iff fits encoded, getDisplayMode_of_setDisplayMode visible returned]
  constructor
  · rintro ⟨current, same, kept⟩
    rwa [Except.ok.inj same]
  · intro kept
    exact ⟨_, rfl, kept⟩

/-- 640x480 with the given colour space, set on an accelerant that has not set a mode yet. -/
def vgaIn (space : BitVec 32) : DisplayMode := { (vga 1).mode with space := space }

theorem exists_set_vgaIn {space : BitVec 32} (known : space = B_RGB32 ∨ space = B_RGBA32) :
    ∃ t, State.setDisplayMode {} (vgaIn space) (vga 1).replies = some (.ok (), t) := by
  apply exists_setDisplayMode
  · exact (by decide : (800 : BitVec 16) ≠ 0)
  · exact (by decide : (525 : BitVec 16) ≠ 0)
  · exact (by decide : (1 : SurfaceHandle) ≠ 0 ∧ 1 ∉ (∅ : Finset SurfaceHandle))
  · rcases known with rfl | rfl <;> rfl
  · exact ⟨rfl, rfl, rfl⟩

theorem getDisplayMode_matches_vga : ∃ t : State,
    State.setDisplayMode {} (vgaIn B_RGB32) (vga 1).replies = some (.ok (), t) ∧
      ((∃ current, t.getDisplayMode = .ok current ∧ current.Matches (vgaIn B_RGB32)) ↔
        (vgaIn B_RGB32).Encodable) := by
  obtain ⟨t, returned⟩ := exists_set_vgaIn (Or.inl rfl)
  exact ⟨t, returned, getDisplayMode_matches_iff (by decide) returned⟩

/-- `B_RGBA32` is accepted. What comes back is not the mode that was set. -/
theorem getDisplayMode_loses_alpha : ∃ t : State,
    State.setDisplayMode {} (vgaIn B_RGBA32) (vga 1).replies = some (.ok (), t) ∧
      (vgaIn B_RGBA32).timing.h_display ≠ 0 ∧ (vgaIn B_RGBA32).timing.h_total ≠ 0 ∧
      (vgaIn B_RGBA32).timing.v_total ≠ 0 ∧
      ¬ ∃ current, t.getDisplayMode = .ok current ∧ current.Matches (vgaIn B_RGBA32) := by
  obtain ⟨t, returned⟩ := exists_set_vgaIn (Or.inr rfl)
  refine ⟨t, returned, by decide, by decide, by decide, ?_⟩
  rintro ⟨current, shown, kept⟩
  unfold State.getDisplayMode at shown
  split at shown
  · simp at shown
  · -- whatever the current mode is, its decoding has the other space
    obtain rfl := Except.ok.inj shown
    exact absurd kept.space (by decide : B_RGB32 ≠ B_RGBA32)

end NvidiaHaiku.Accelerant

/-
# The mode that is sent

`SetDisplayMode` converts the mode it is given, has KMS validate the result, makes a
framebuffer, and sends the mode with `NVKMS_IOCTL_SET_MODE`. The clock is counted in kHz by
the caller and in Hz by KMS. The multiplication has 32 bits and may wrap, and KMS sees the
product only.
-/

import NvidiaHaiku.Accelerant.RefreshRate

namespace NvidiaHaiku.Accelerant

open NvidiaHaiku.Math

/-! ## The two halves of the call -/

/-- `SetDisplayMode` up to `NVKMS_IOCTL_SET_MODE`. It throws, or has the mode to be sent and the
framebuffer. -/
def State.prepare (s : State) (mode : DisplayMode) (replies : Replies) :
    Option (Except (Error × State) (NvKmsMode × NvKmsBitmap × Kms)) :=
  if !mode.fits then some (.error (EINVAL, s))
  else (toNvKmsMode mode).map fun nvKmsMode =>
    match replies.validateMode with
    | .error e => .error (e, s)
    | .ok false => .error (EINVAL, s)
    | .ok true =>
      match NvKmsBitmap.create replies.kmsDev (mode.virtual_width.setWidth 32)
        (mode.virtual_height.setWidth 32) mode.space replies.create s.kms with
      | (.error e, kms) => .error (e, { s with kms := kms })
      | (.ok newFramebuffer, kms) => .ok (nvKmsMode, newFramebuffer, kms)

/-- `SetDisplayMode` from `NVKMS_IOCTL_SET_MODE` on. -/
def State.send (s : State) (replies : Replies) :
    NvKmsMode × NvKmsBitmap × Kms → Reply Unit × State
  | (nvKmsMode, newFramebuffer, kms) =>
    match replies.setMode with
    | .error e => (.error e, { s with kms := kms.unregister newFramebuffer.fSurface })
    | .ok () =>
      ({ s with kms := kms }.commit nvKmsMode newFramebuffer).install newFramebuffer replies

/-- The mode of `NVKMS_IOCTL_SET_MODE`, if it is issued. -/
def State.sentMode (s : State) (mode : DisplayMode) (replies : Replies) : Option NvKmsMode :=
  match s.prepare mode replies with
  | some (.ok (nvKmsMode, _, _)) => some nvKmsMode
  | _ => none

/-- Whatever the replies, the clock that is sent is the one that was asked for. -/
def DisplayMode.SendsClock (mode : DisplayMode) : Prop :=
  ∀ (s : State) (replies : Replies) (sent : NvKmsMode), s.sentMode mode replies = some sent →
    sent.pixelClockHz.toNat = 1000 * mode.timing.pixel_clock.toNat

variable {s : State} {mode : DisplayMode} {replies : Replies} {sent : NvKmsMode}

theorem setDisplayMode_eq_send (s : State) (mode : DisplayMode) (replies : Replies) :
    s.setDisplayMode mode replies = (s.prepare mode replies).map fun
      | .error (e, t) => (.error e, t)
      | .ok prepared => s.send replies prepared := by
  unfold State.setDisplayMode State.prepare
  split
  · rfl
  · rw [Option.map_map]
    apply Option.map_congr
    intro nvKmsMode _
    rcases replies.validateMode with e | _ | _
    · rfl
    · rfl
    · dsimp only [Function.comp_apply]
      rcases NvKmsBitmap.create replies.kmsDev (mode.virtual_width.setWidth 32)
        (mode.virtual_height.setWidth 32) mode.space replies.create s.kms with ⟨_ | _, _⟩
      · rfl
      · rfl

/-- What is sent is the converted mode. -/
theorem toNvKmsMode_of_sentMode (issued : s.sentMode mode replies = some sent) :
    mode.accepted = true ∧ toNvKmsMode mode = some sent := by
  unfold State.sentMode at issued
  split at issued
  · rename_i nvKmsMode newFramebuffer kms prepared
    obtain rfl := Option.some.inj issued
    unfold State.prepare at prepared
    split at prepared
    · simp at prepared
    · rename_i fits
      rw [Bool.not_eq_true', Bool.not_eq_false] at fits
      obtain ⟨nvKmsMode, encoded, prepared⟩ := Option.map_eq_some_iff.mp prepared
      split at prepared
      · simp at prepared
      · simp at prepared
      · -- KMS approves, and the colour space is tested by the constructor of the framebuffer
        split at prepared
        · simp at prepared
        · rename_i made
          obtain ⟨rfl, rfl, rfl⟩ := by simpa using prepared
          refine ⟨?_, encoded⟩
          rw [DisplayMode.accepted, fits]
          simpa using (NvKmsBitmap.eq_of_create (congrArg Prod.fst made)).1
  · simp at issued

/-- A mode that can be set is sent if KMS approves of it and the framebuffer is made. -/
theorem exists_sentMode (accepted : mode.accepted = true) (encoded : toNvKmsMode mode = some sent) :
    ∃ (s : State) (replies : Replies), s.sentMode mode replies = some sent := by
  obtain ⟨fits, known⟩ := Bool.and_eq_true_iff.mp accepted
  -- replies with which every call succeeds, whatever the mode
  refine ⟨{}, (vga 1).replies, ?_⟩
  have known : ¬ (mode.space ≠ B_RGB32 ∧ mode.space ≠ B_RGBA32) := by
    rw [← not_or, not_not]
    simpa using known
  unfold State.sentMode State.prepare NvKmsBitmap.create
  rw [fits, encoded, if_neg known]
  rfl

/-- The clock of a converted mode is right just when its product has not wrapped. -/
theorem pixelClockHz_of_toNvKmsMode (encoded : toNvKmsMode mode = some sent) :
    sent.pixelClockHz.toNat = 1000 * mode.timing.pixel_clock.toNat ↔
      1000 * mode.timing.pixel_clock.toNat < 2 ^ 32 := by
  obtain ⟨rate, -, rfl⟩ := Option.map_eq_some_iff.mp encoded
  rw [Nat.mul_comm]
  exact toNat_mul_eq_iff

/-- The clock that is sent is the one that was asked for just when it fits into 32 bits in Hz.
A mode that is turned away before, or whose rate is a division by zero, is not sent. -/
theorem sendsClock_iff (mode : DisplayMode) : mode.SendsClock ↔
    (mode.accepted = true → mode.timing.h_total ≠ 0 → mode.timing.v_total ≠ 0 →
      1000 * mode.timing.pixel_clock.toNat < 2 ^ 32) := by
  constructor
  · intro sends accepted hTotal vTotal
    obtain ⟨sent, encoded⟩ := exists_toNvKmsMode hTotal vTotal
    obtain ⟨s, replies, issued⟩ := exists_sentMode accepted encoded
    exact (pixelClockHz_of_toNvKmsMode encoded).mp (sends s replies sent issued)
  · intro fits s replies sent issued
    obtain ⟨accepted, encoded⟩ := toNvKmsMode_of_sentMode issued
    obtain ⟨rate, computed, -⟩ := Option.map_eq_some_iff.mp encoded
    obtain ⟨hTotal, vTotal⟩ := totals_ne_zero computed
    exact (pixelClockHz_of_toNvKmsMode encoded).mpr (fits accepted hTotal vTotal)

/-- 640x480 at 4320142 kHz. The clock of the mode that is sent is 25.17 MHz, as of the mode
that a monitor of this size expects. -/
theorem not_sendsClock_wrapped :
    ((State.sentMode {} (vgaScanned 800 525 4320142) (vga 1).replies).map
        (·.pixelClockHz) = some 25174704) ∧
      ¬ (vgaScanned 800 525 4320142).SendsClock := by
  have issued : (State.sentMode {} (vgaScanned 800 525 4320142) (vga 1).replies).map
      (·.pixelClockHz) = some 25174704 := by decide
  refine ⟨issued, fun sends => ?_⟩
  obtain ⟨sent, taken, clock⟩ := Option.map_eq_some_iff.mp issued
  have asked := sends _ _ sent taken
  rw [clock] at asked
  exact absurd asked (by decide)

end NvidiaHaiku.Accelerant

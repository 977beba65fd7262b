/-
# The refresh rate

`CalcRefreshRate` divides the scaled clock of a timing by the product of its totals. Both
are computed in 64 bits, where they are exact, and the quotient is cut to 32.

`ProposeMode` asks for the rate of its target when no listed mode has the same timing,
and `SetDisplayMode` for that of a mode whose virtual size is the displayed one. Neither
has looked at the totals or the clock by then.
-/

import NvidiaHaiku.Accelerant.ProposeMode

namespace NvidiaHaiku.Accelerant

open NvidiaHaiku.Math

/-! ## The rate -/

/-- The frames of an interlaced timing are counted in halves. -/
def DisplayTiming.multiplier (timing : DisplayTiming) : ℕ :=
  if B_TIMING_INTERLACED &&& timing.flags ≠ 0 then 2000000 else 1000000

/-- The pixels of a frame, with those that are not displayed. -/
def DisplayTiming.total (timing : DisplayTiming) : ℕ := timing.h_total.toNat * timing.v_total.toNat

/-- The dividend of `CalcRefreshRate`. -/
def rateDividend (timing : DisplayTiming) : BitVec 64 :=
  (if B_TIMING_INTERLACED &&& timing.flags ≠ 0 then 2000000 else 1000000) *
    timing.pixel_clock.setWidth 64

/-- The divisor of `CalcRefreshRate`. -/
def rateDivisor (timing : DisplayTiming) : BitVec 64 :=
  timing.h_total.setWidth 64 * timing.v_total.setWidth 64

/-- The rate is computed, and it is the quotient of the integers. -/
structure RateExact (timing : DisplayTiming) : Prop where
  dividend : (rateDividend timing).toNat = timing.multiplier * timing.pixel_clock.toNat
  divisor : (rateDivisor timing).toNat = timing.total
  rate : ∃ rate, calcRefreshRate timing = some rate ∧
    rate.toNat = timing.multiplier * timing.pixel_clock.toNat / timing.total

/-- A frame has pixels, and not too few for its clock. -/
def DisplayTiming.Measurable (timing : DisplayTiming) : Prop :=
  timing.h_total ≠ 0 ∧ timing.v_total ≠ 0 ∧
    timing.multiplier * timing.pixel_clock.toNat < 2 ^ 32 * timing.total

variable {timing : DisplayTiming}

theorem calcRefreshRate_eq (timing : DisplayTiming) :
    calcRefreshRate timing = if rateDivisor timing = 0 then none
      else some ((rateDividend timing / rateDivisor timing).setWidth 32) := rfl

/-- The factors of the dividend have 32 bits. -/
theorem toNat_rateDividend (timing : DisplayTiming) :
    (rateDividend timing).toNat = timing.multiplier * timing.pixel_clock.toNat := by
  have fits : ∀ k : BitVec 32, (k.setWidth 64 * timing.pixel_clock.setWidth 64).toNat =
      k.toNat * timing.pixel_clock.toNat := fun k => toNat_mul_setWidth (by decide)
  unfold rateDividend DisplayTiming.multiplier
  split
  · exact fits 2000000
  · exact fits 1000000

/-- Those of the divisor have 16. -/
theorem toNat_rateDivisor (timing : DisplayTiming) : (rateDivisor timing).toNat = timing.total :=
  toNat_mul_setWidth (by decide)

theorem total_eq_zero_iff : timing.total = 0 ↔ timing.h_total = 0 ∨ timing.v_total = 0 := by
  rw [DisplayTiming.total, Nat.mul_eq_zero, ← BitVec.toNat_inj, ← BitVec.toNat_inj]
  rfl

/-- A division by zero is that of a frame without pixels. -/
theorem calcRefreshRate_eq_none_iff : calcRefreshRate timing = none ↔ timing.total = 0 := by
  rw [calcRefreshRate_eq, ← toNat_rateDivisor]
  constructor
  · intro undefined
    split at undefined
    · rename_i zero
      exact congrArg BitVec.toNat zero
    · simp at undefined
  · intro zero
    rw [if_pos (BitVec.eq_of_toNat_eq zero)]

theorem totals_ne_zero {rate : BitVec 32} (computed : calcRefreshRate timing = some rate) :
    timing.h_total ≠ 0 ∧ timing.v_total ≠ 0 := by
  rw [← not_or, ← total_eq_zero_iff, ← calcRefreshRate_eq_none_iff, computed]
  simp

/-- The 32 bits of the result hold the quotient just when it fits. -/
theorem rateExact_iff : RateExact timing ↔ timing.Measurable := by
  have quotient : (rateDividend timing / rateDivisor timing).toNat =
      timing.multiplier * timing.pixel_clock.toNat / timing.total := by
    rw [BitVec.toNat_udiv, toNat_rateDividend, toNat_rateDivisor]
  constructor
  -- a result of 32 bits bounds the quotient that it equals
  · rintro ⟨-, -, rate, computed, exact'⟩
    obtain ⟨hTotal, vTotal⟩ := totals_ne_zero computed
    have pixels : timing.total ≠ 0 := total_eq_zero_iff.not.mpr (not_or.mpr ⟨hTotal, vTotal⟩)
    have narrow : timing.multiplier * timing.pixel_clock.toNat / timing.total < 2 ^ 32 :=
      exact' ▸ rate.isLt
    exact ⟨hTotal, vTotal, (Nat.div_lt_iff_lt_mul (Nat.pos_of_ne_zero pixels)).mp narrow⟩
  · rintro ⟨hTotal, vTotal, few⟩
    have pixels : timing.total ≠ 0 := total_eq_zero_iff.not.mpr (not_or.mpr ⟨hTotal, vTotal⟩)
    have narrow := (Nat.div_lt_iff_lt_mul (Nat.pos_of_ne_zero pixels)).mpr few
    refine ⟨toNat_rateDividend timing, toNat_rateDivisor timing, ?_⟩
    obtain ⟨rate, computed⟩ :=
      Option.ne_none_iff_exists'.mp (calcRefreshRate_eq_none_iff.not.mpr pixels)
    refine ⟨rate, computed, ?_⟩
    rw [calcRefreshRate_eq] at computed
    split at computed
    · simp at computed
    · rw [← quotient] at narrow ⊢
      rw [← Option.some.inj computed]
      exact toNat_setWidth_eq_iff.mpr narrow

/-! ## The calls -/

/-- A call of one of the two functions that ask for the rate. -/
inductive ModeCall
  | proposeMode (fModeList : List NvKmsMode) (target low high : DisplayMode)
  | setDisplayMode (s : State) (modeToSet : DisplayMode) (replies : Replies)

namespace ModeCall

/-- The timing that is passed in. -/
def requested : ModeCall → DisplayTiming
  | proposeMode _ target _ _ => target.timing
  | setDisplayMode _ modeToSet _ => modeToSet.timing

/-- What is tested before `CalcRefreshRate` is called. -/
def reachesRate : ModeCall → Bool
  | proposeMode fModeList target _ _ =>
    !fModeList.any fun nvKmsMode => modeTimingsEqual target.timing (toHaikuMode nvKmsMode).timing
  | setDisplayMode _ modeToSet _ => modeToSet.fits

/-- The call does not end in a division by zero. -/
def ends : ModeCall → Bool
  | proposeMode fModeList target low high =>
    (Accelerant.proposeMode fModeList target low high).isSome
  | setDisplayMode s modeToSet replies => (s.setDisplayMode modeToSet replies).isSome

/-- The call does not divide by zero, and the rate it works with is exact. -/
structure RateSafe (call : ModeCall) : Prop where
  ends : call.ends = true
  rateExact : call.reachesRate = true → RateExact call.requested

variable (call : ModeCall)

theorem ends_iff : call.ends = true ↔
    (call.reachesRate = true → ∃ rate, calcRefreshRate call.requested = some rate) := by
  rw [← Option.isSome_iff_exists]
  cases call with
  | proposeMode fModeList target low high =>
    change (Accelerant.proposeMode fModeList target low high).isSome = true ↔
      ((!fModeList.any _) = true → (calcRefreshRate target.timing).isSome = true)
    unfold Accelerant.proposeMode
    cases fModeList.any fun m => modeTimingsEqual target.timing (toHaikuMode m).timing <;> simp
  | setDisplayMode s modeToSet replies =>
    change (s.setDisplayMode modeToSet replies).isSome = true ↔
      (modeToSet.fits = true → (calcRefreshRate modeToSet.timing).isSome = true)
    unfold State.setDisplayMode
    cases modeToSet.fits <;> simp [toNvKmsMode]

/-- A call works with the exact rate just when the timing it gets that far with has totals that
are not zero and a rate below 2 ^ 32. -/
theorem rateSafe_iff : call.RateSafe ↔ (call.reachesRate = true → call.requested.Measurable) := by
  rw [← rateExact_iff]
  constructor
  · exact RateSafe.rateExact
  · intro rateExact
    refine ⟨call.ends_iff.mpr fun reaches => ?_, rateExact⟩
    obtain ⟨rate, computed, -⟩ := (rateExact reaches).rate
    exact ⟨rate, computed⟩

end ModeCall

/-- The listed mode with the given totals and clock. -/
def vgaScanned (h_total v_total : BitVec 16) (pixel_clock : BitVec 32) : DisplayMode :=
  { toHaikuMode vgaTimings with
    timing := { toHaikuModeTimings vgaTimings with h_total, v_total, pixel_clock } }

/-- A frame without lines is a division by zero, in either function. A frame of one pixel at
4.3 MHz has a rate of 2 ^ 32 + 32704, of which 32704 is left. -/
theorem not_rateSafe_vgaScanned :
    ¬ (ModeCall.setDisplayMode {} (vgaScanned 800 0 25175) (vga 1).replies).RateSafe ∧
      ¬ (ModeCall.proposeMode [vgaTimings] (vgaScanned 800 0 25175) lowest highest).RateSafe ∧
      calcRefreshRate (vgaScanned 1 1 4295).timing = some 32704 ∧
      ¬ (ModeCall.setDisplayMode {} (vgaScanned 1 1 4295) (vga 1).replies).RateSafe := by
  refine ⟨fun safe => absurd safe.ends (by decide), fun safe => absurd safe.ends (by decide),
    by decide, fun safe => ?_⟩
  obtain ⟨rate, computed, whole⟩ := (safe.rateExact (by decide)).rate
  rw [← Option.some.inj ((by decide : calcRefreshRate (vgaScanned 1 1 4295).timing =
    some 32704).symm.trans computed)] at whole
  exact absurd whole (by decide)

end NvidiaHaiku.Accelerant

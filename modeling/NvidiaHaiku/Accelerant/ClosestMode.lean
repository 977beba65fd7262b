/-
# The mode that is proposed

`ProposeMode` leaves a target that has the timing of a listed mode as it is. The timing of
any other target becomes that of the listed mode with the same resolution whose refresh rate
is closest, and the first one counts. If no listed mode has the resolution, nothing is
proposed.

A proposed target has the timing of a listed mode. So proposing it again finds that mode in
the first loop, and the answer is the same.
-/

import NvidiaHaiku.Accelerant.PixelClockLimits
import NvidiaHaiku.Math.FirstLeast

namespace NvidiaHaiku.Accelerant

open NvidiaHaiku.Math

/-! ## Bounds -/

/-- The value is within the bounds. -/
def Between {w : ℕ} (low x high : BitVec w) : Prop := low ≤ x ∧ x ≤ high

/-- The mode lies within the bounds in its geometry, its clock and its virtual size. -/
@[mk_iff]
structure WithinBounds (mode low high : DisplayMode) : Prop where
  h_display : Between low.timing.h_display mode.timing.h_display high.timing.h_display
  h_sync_start : Between low.timing.h_sync_start mode.timing.h_sync_start high.timing.h_sync_start
  h_sync_end : Between low.timing.h_sync_end mode.timing.h_sync_end high.timing.h_sync_end
  h_total : Between low.timing.h_total mode.timing.h_total high.timing.h_total
  v_display : Between low.timing.v_display mode.timing.v_display high.timing.v_display
  v_sync_start : Between low.timing.v_sync_start mode.timing.v_sync_start high.timing.v_sync_start
  v_sync_end : Between low.timing.v_sync_end mode.timing.v_sync_end high.timing.v_sync_end
  v_total : Between low.timing.v_total mode.timing.v_total high.timing.v_total
  pixel_clock : Between low.timing.pixel_clock mode.timing.pixel_clock high.timing.pixel_clock
  virtual_width : Between low.virtual_width mode.virtual_width high.virtual_width
  virtual_height : Between low.virtual_height mode.virtual_height high.virtual_height

variable {fModeList : List NvKmsMode} {mode target left low high : DisplayMode} {m : NvKmsMode}
  {timing : DisplayTiming} {status : Proposal}

/-- The comparisons are those of the bounds, some of them in another order. -/
theorem isDisplayModeWithinBounds_iff :
    isDisplayModeWithinBounds mode low high = true ↔ WithinBounds mode low high := by
  rw [withinBounds_iff]
  unfold isDisplayModeWithinBounds Between
  simp only [Bool.if_false_left, Bool.and_eq_true, Bool.not_eq_true', decide_eq_false_iff_not,
    not_or, gt_iff_lt, BitVec.not_lt]
  tauto

theorem bounded_eq_ok_iff : bounded left low high = .B_OK ↔ WithinBounds left low high := by
  rw [← isDisplayModeWithinBounds_iff, bounded]
  split <;> simp_all

theorem bounded_eq_bad_iff :
    bounded left low high = .B_BAD_VALUE ↔ ¬ WithinBounds left low high := by
  rw [← isDisplayModeWithinBounds_iff, bounded]
  split <;> simp_all

/-! ## Proposing -/

/-- The listed mode has the resolution and the interlacing of the target. -/
def Resembles (timing : DisplayTiming) (m : NvKmsMode) : Prop :=
  SameResolution m timing ∧ (m.interlaced = true ↔ B_TIMING_INTERLACED &&& timing.flags ≠ 0)

/-- What `ProposeMode` promises of its result and of the target it leaves. -/
structure ProposesClosest (fModeList : List NvKmsMode) (target low high : DisplayMode)
    (status : Proposal) (left : DisplayMode) : Prop where
  listed : (∃ m ∈ fModeList, (toHaikuMode m).timing = target.timing) → left = target
  unmatched : (∀ m ∈ fModeList, (toHaikuMode m).timing ≠ target.timing) →
    (∀ m ∈ fModeList, ¬ Resembles target.timing m) → status = .B_ERROR ∧ left = target
  closest : (∀ m ∈ fModeList, (toHaikuMode m).timing ≠ target.timing) →
    (∃ m ∈ fModeList, Resembles target.timing m) →
    ∃ rate best, calcRefreshRate target.timing = some rate ∧
      IsFirstLeast (Resembles target.timing) (distance rate) fModeList best ∧
      left = { target with timing := (toHaikuMode best).timing }
  status : ((∃ m ∈ fModeList, (toHaikuMode m).timing = target.timing) ∨
      ∃ m ∈ fModeList, Resembles target.timing m) →
    (status = .B_OK ↔ WithinBounds left low high) ∧
      (status = .B_BAD_VALUE ↔ ¬ WithinBounds left low high)

theorem isCandidate_iff_resembles : isCandidate timing m = true ↔ Resembles timing m := by
  rw [isCandidate_iff, Resembles, BitVec.and_comm (x := B_TIMING_INTERLACED)]
  apply and_congr_right'
  rcases and_interlaced_cases timing.flags with flag | flag
  · rw [flag]
    cases m.interlaced <;> decide
  · rw [flag]
    cases m.interlaced <;> decide

/-- No listed mode has the timing of the target, so the first loop goes through. -/
theorem proposeMode_of_unlisted
    (unlisted : ∀ m ∈ fModeList, (toHaikuMode m).timing ≠ target.timing) :
    proposeMode fModeList target low high =
      (calcRefreshRate target.timing).map fun reqRefreshRate =>
        match bestCandidate target.timing reqRefreshRate none fModeList with
        | none => (.B_ERROR, target)
        | some best =>
          let proposed := { target with timing := toHaikuModeTimings best }
          (bounded proposed low high, proposed) := by
  apply if_neg
  intro found
  obtain ⟨m, member, same⟩ := List.any_eq_true.mp found
  exact unlisted m member (modeTimingsEqual_iff.mp same).symm

/-- The outcomes of a call that returns. -/
theorem proposeMode_cases (returned : proposeMode fModeList target low high = some (status, left)) :
    (∃ m ∈ fModeList, (toHaikuMode m).timing = target.timing) ∧
        status = bounded left low high ∧ left = target ∨
      (∀ m ∈ fModeList, (toHaikuMode m).timing ≠ target.timing) ∧
        (∀ m ∈ fModeList, ¬ Resembles target.timing m) ∧ status = .B_ERROR ∧ left = target ∨
      (∀ m ∈ fModeList, (toHaikuMode m).timing ≠ target.timing) ∧
        ∃ rate best, calcRefreshRate target.timing = some rate ∧
          IsFirstLeast (Resembles target.timing) (distance rate) fModeList best ∧
          left = { target with timing := (toHaikuMode best).timing } ∧
          status = bounded left low high := by
  by_cases listed : ∃ m ∈ fModeList, (toHaikuMode m).timing = target.timing
  · obtain ⟨m, member, same⟩ := listed
    -- a listed timing is taken as it is
    rw [proposeMode_of_mem member same.symm] at returned
    obtain ⟨rfl, rfl⟩ := Prod.mk.inj (Option.some.inj returned)
    exact Or.inl ⟨⟨m, member, same⟩, rfl, rfl⟩
  · have unlisted : ∀ m ∈ fModeList, (toHaikuMode m).timing ≠ target.timing := by
      intro m member same
      exact listed ⟨m, member, same⟩
    rw [proposeMode_of_unlisted unlisted] at returned
    obtain ⟨rate, computed, returned⟩ := Option.map_eq_some_iff.mp returned
    rw [bestCandidate_eq_argmin] at returned
    split at returned
    · -- `bestCandidateIdx` is still negative
      rename_i none
      obtain ⟨rfl, rfl⟩ := Prod.mk.inj returned
      refine Or.inr (Or.inl ⟨unlisted, fun m member same => ?_, rfl, rfl⟩)
      have empty := List.argmin_eq_none.mp none
      exact List.filter_eq_nil_iff.mp empty m member (isCandidate_iff_resembles.mpr same)
    · rename_i best taken
      obtain ⟨rfl, rfl⟩ := Prod.mk.inj returned
      have least := (isFirstLeast_of_argmin_filter taken).imp fun _ => isCandidate_iff_resembles
      exact Or.inr (Or.inr ⟨unlisted, rate, best, computed, least, rfl, rfl⟩)

/-- `ProposeMode` picks a closest mode and reports it truthfully. -/
theorem proposesClosest_of_proposeMode
    (returned : proposeMode fModeList target low high = some (status, left)) :
    ProposesClosest fModeList target low high status left := by
  rcases proposeMode_cases returned with ⟨⟨m, member, same⟩, rfl, rfl⟩ |
    ⟨unlisted, unlike, rfl, rfl⟩ | ⟨unlisted, rate, best, computed, least, rfl, rfl⟩
  · exact ⟨fun _ => rfl, fun unlisted _ => absurd same (unlisted m member),
      fun unlisted _ => absurd same (unlisted m member),
      fun _ => ⟨bounded_eq_ok_iff, bounded_eq_bad_iff⟩⟩
  · refine ⟨fun _ => rfl, fun _ _ => ⟨rfl, rfl⟩, ?_, ?_⟩
    · rintro - ⟨m, member, like⟩
      exact absurd like (unlike m member)
    · rintro (⟨m, member, same⟩ | ⟨m, member, like⟩)
      · exact absurd same (unlisted m member)
      · exact absurd like (unlike m member)
  · refine ⟨?_, ?_, fun _ _ => ⟨rate, best, computed, least, rfl⟩,
      fun _ => ⟨bounded_eq_ok_iff, bounded_eq_bad_iff⟩⟩
    · rintro ⟨m, member, same⟩
      exact absurd same (unlisted m member)
    · intro _ unlike
      exact absurd least.passes (unlike best least.mem)

/-- As far below the rate of `vgaSlow` as the listed mode is above it. -/
def vgaSlower : NvKmsMode := { vgaTimings with RRx1k := 54344, pixelClockHz := 22824000 }

/-- Of two modes at the same distance the first is taken, after one that is interlaced. -/
theorem proposesClosest_vgaSlow :
    ProposesClosest [interlacedTimings, vgaTimings, vgaSlower] vgaSlow lowest highest
      .B_OK (toHaikuMode vgaTimings) :=
  proposesClosest_of_proposeMode (by decide)

/-- A proposed target has the timing of a listed mode, unless nothing was proposed. So it is
proposed again as it is. -/
theorem proposeMode_idempotent
    (returned : proposeMode fModeList target low high = some (status, left)) :
    proposeMode fModeList left low high = some (status, left) := by
  rcases proposeMode_cases returned with ⟨-, -, rfl⟩ | ⟨-, -, -, rfl⟩ |
    ⟨-, rate, best, -, least, rfl, rfl⟩
  · exact returned
  · exact returned
  · exact proposeMode_of_mem least.mem rfl

theorem proposeMode_vgaSlow_twice :
    proposeMode [vgaTimings, vgaSlower] vgaSlow lowest highest =
        some (.B_OK, toHaikuMode vgaTimings) ∧
      proposeMode [vgaTimings, vgaSlower] (toHaikuMode vgaTimings) lowest highest =
        some (.B_OK, toHaikuMode vgaTimings) := by
  have returned : proposeMode [vgaTimings, vgaSlower] vgaSlow lowest highest =
      some (.B_OK, toHaikuMode vgaTimings) := by decide
  exact ⟨returned, proposeMode_idempotent returned⟩

end NvidiaHaiku.Accelerant

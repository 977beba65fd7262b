/-
# Proposing a display mode

`ProposeMode` looks for a listed mode with the very timing of the target. If there is
none it takes the listed mode of the same resolution whose refresh rate is closest, the
first one if there are several, and replaces the timing of the target. Either way the
target is then compared with the bounds of the caller.

Neither the colour space nor the start of the display is looked at, and the virtual size
is compared with the bounds only. What `SetDisplayMode` will say of the proposed mode is
therefore decided by the target that came in.
-/

import Mathlib.Data.List.MinMax
import NvidiaHaiku.Accelerant.Modes

namespace NvidiaHaiku.Accelerant

open NvidiaHaiku.Math

/-! ## The call -/

/-- `ModeTimingsEqual`. -/
def modeTimingsEqual (a b : DisplayTiming) : Bool :=
  a.pixel_clock = b.pixel_clock &&
    a.h_display = b.h_display &&
    a.h_sync_start = b.h_sync_start &&
    a.h_sync_end = b.h_sync_end &&
    a.h_total = b.h_total &&
    a.v_display = b.v_display &&
    a.v_sync_start = b.v_sync_start &&
    a.v_sync_end = b.v_sync_end &&
    a.v_total = b.v_total &&
    a.flags = b.flags

/-- `IsDisplayModeWithinBounds`. -/
def isDisplayModeWithinBounds (mode low high : DisplayMode) : Bool :=
  if mode.timing.h_display < low.timing.h_display
    ∨ mode.timing.h_display > high.timing.h_display
    ∨ mode.timing.h_sync_start < low.timing.h_sync_start
    ∨ mode.timing.h_sync_start > high.timing.h_sync_start
    ∨ mode.timing.h_sync_end < low.timing.h_sync_end
    ∨ mode.timing.h_sync_end > high.timing.h_sync_end
    ∨ mode.timing.h_total < low.timing.h_total
    ∨ mode.timing.h_total > high.timing.h_total then false
  else if mode.timing.v_display < low.timing.v_display
    ∨ mode.timing.v_display > high.timing.v_display
    ∨ mode.timing.v_sync_start < low.timing.v_sync_start
    ∨ mode.timing.v_sync_start > high.timing.v_sync_start
    ∨ mode.timing.v_sync_end < low.timing.v_sync_end
    ∨ mode.timing.v_sync_end > high.timing.v_sync_end
    ∨ mode.timing.v_total < low.timing.v_total
    ∨ mode.timing.v_total > high.timing.v_total then false
  else if mode.timing.pixel_clock > high.timing.pixel_clock
    ∨ mode.timing.pixel_clock < low.timing.pixel_clock then false
  else if mode.virtual_width > high.virtual_width
    ∨ mode.virtual_width < low.virtual_width then false
  else if mode.virtual_height > high.virtual_height
    ∨ mode.virtual_height < low.virtual_height then false
  else true

/-- The results of `ProposeMode`. -/
inductive Proposal
  | B_OK
  | B_BAD_VALUE
  | B_ERROR
  deriving DecidableEq, Repr

/-- The result for a target that has its final timing. -/
def bounded (target low high : DisplayMode) : Proposal :=
  if isDisplayModeWithinBounds target low high then .B_OK else .B_BAD_VALUE

/-- The modes with the resolution of the target. -/
def isCandidate (target : DisplayTiming) (nvKmsMode : NvKmsMode) : Bool :=
  let timings := toHaikuModeTimings nvKmsMode
  timings.h_display = target.h_display && timings.v_display = target.v_display &&
    timings.flags &&& B_TIMING_INTERLACED = target.flags &&& B_TIMING_INTERLACED

/-- How far a mode is from the requested refresh rate. -/
def distance (reqRefreshRate : BitVec 32) (nvKmsMode : NvKmsMode) : ℕ :=
  ((nvKmsMode.RRx1k.toNat : ℤ) - reqRefreshRate.toNat).natAbs

/-- The second loop of `ProposeMode`. -/
def bestCandidate (target : DisplayTiming) (reqRefreshRate : BitVec 32) :
    Option NvKmsMode → List NvKmsMode → Option NvKmsMode
  | best, [] => best
  | best, nvKmsMode :: rest =>
    if isCandidate target nvKmsMode then
      match best with
      | none => bestCandidate target reqRefreshRate (some nvKmsMode) rest
      | some candidate =>
        if distance reqRefreshRate nvKmsMode < distance reqRefreshRate candidate then
          bestCandidate target reqRefreshRate (some nvKmsMode) rest
        else bestCandidate target reqRefreshRate (some candidate) rest
    else bestCandidate target reqRefreshRate best rest

/-- `ProposeMode`, with the target it leaves; `none` if it ends in a division by zero. -/
def proposeMode (fModeList : List NvKmsMode) (target low high : DisplayMode) :
    Option (Proposal × DisplayMode) :=
  if fModeList.any fun nvKmsMode => modeTimingsEqual target.timing (toHaikuMode nvKmsMode).timing
  then some (bounded target low high, target)
  else (calcRefreshRate target.timing).map fun reqRefreshRate =>
    match bestCandidate target.timing reqRefreshRate none fModeList with
    | none => (.B_ERROR, target)
    | some best =>
      let proposed := { target with timing := toHaikuModeTimings best }
      (bounded proposed low high, proposed)

/-! ## What the call does -/

variable {fModeList : List NvKmsMode} {mode target left low high : DisplayMode} {m best : NvKmsMode}
  {status : Proposal}

theorem modeTimingsEqual_iff {a b : DisplayTiming} : modeTimingsEqual a b = true ↔ a = b := by
  cases a
  cases b
  simp [modeTimingsEqual, and_assoc]

theorem bestCandidate_eq_foldl (target : DisplayTiming) (reqRefreshRate : BitVec 32)
    (best : Option NvKmsMode) :
    bestCandidate target reqRefreshRate best fModeList =
      (fModeList.filter (isCandidate target)).foldl
        (List.argAux fun b c => distance reqRefreshRate b < distance reqRefreshRate c) best := by
  -- on the list, for whatever candidate the loop has found so far
  induction fModeList generalizing best with
  | nil => rfl
  | cons m rest ih =>
    cases candidate : isCandidate target m with
    | false =>
      rw [List.filter_cons_of_neg (by simp [candidate]), bestCandidate.eq_def]
      dsimp only
      rw [if_neg (by simp [candidate])]
      exact ih best
    | true =>
      rw [List.filter_cons_of_pos candidate, List.foldl_cons, bestCandidate.eq_def]
      dsimp only
      rw [if_pos candidate]
      cases best with
      | none => exact ih (some m)
      | some current =>
        dsimp only [List.argAux]
        split
        · exact ih (some m)
        · exact ih (some current)

/-- The loop takes a candidate with the least distance, the first one if there are several. -/
theorem bestCandidate_eq_argmin (target : DisplayTiming) (reqRefreshRate : BitVec 32) :
    bestCandidate target reqRefreshRate none fModeList =
      (fModeList.filter (isCandidate target)).argmin (distance reqRefreshRate) :=
  bestCandidate_eq_foldl target reqRefreshRate none

/-- What the loop takes is a candidate. -/
theorem isCandidate_of_bestCandidate {target : DisplayTiming} {reqRefreshRate : BitVec 32}
    (taken : bestCandidate target reqRefreshRate none fModeList = some best) :
    best ∈ fModeList ∧ isCandidate target best = true := by
  rw [bestCandidate_eq_argmin] at taken
  exact List.mem_filter.mp (List.argmin_mem taken)

/-- Only the timing of the target may change, and its resolution does not. -/
theorem proposeMode_frame (returned : proposeMode fModeList target low high = some (status, left)) :
    left = { target with timing := left.timing } ∧
      left.timing.h_display = target.timing.h_display ∧
      left.timing.v_display = target.timing.v_display := by
  unfold proposeMode at returned
  split at returned
  · obtain ⟨-, rfl⟩ := Prod.mk.inj (Option.some.inj returned)
    exact ⟨rfl, rfl, rfl⟩
  · obtain ⟨rate, -, returned⟩ := Option.map_eq_some_iff.mp returned
    split at returned
    · obtain ⟨-, rfl⟩ := Prod.mk.inj returned
      exact ⟨rfl, rfl, rfl⟩
    · rename_i best taken
      obtain ⟨-, rfl⟩ := Prod.mk.inj returned
      have candidate := (isCandidate_of_bestCandidate taken).2
      simp only [isCandidate, Bool.and_eq_true, decide_eq_true_eq] at candidate
      exact ⟨rfl, candidate.1.1, candidate.1.2⟩

/-- A target with the timing of a listed mode is only compared with the bounds. -/
theorem proposeMode_of_mem (listed : m ∈ fModeList) (same : mode.timing = toHaikuModeTimings m) :
    proposeMode fModeList mode low high = some (bounded mode low high, mode) := by
  have found : (fModeList.any fun nvKmsMode =>
      modeTimingsEqual mode.timing (toHaikuMode nvKmsMode).timing) = true :=
    List.any_eq_true.mpr ⟨m, listed, modeTimingsEqual_iff.mpr same⟩
  rw [proposeMode, if_pos found]

/-! ## What is approved and what is accepted -/

/-- The checks made by `SetDisplayMode` itself and by the constructor of its bitmap. -/
def DisplayMode.accepted (mode : DisplayMode) : Bool :=
  mode.fits && (mode.space = B_RGB32 || mode.space = B_RGBA32)

/-- The accepted modes are those that can be set. -/
theorem accepted_iff : mode.accepted = true ↔ ∃ replies : Replies, replies.commits mode = true := by
  constructor
  · intro accepted
    obtain ⟨fits, space⟩ := Bool.and_eq_true_iff.mp accepted
    refine ⟨(vga 1).replies, ?_⟩
    simp only [Replies.commits, CreateReplies.succeeds, fits, space]
    rfl
  · rintro ⟨replies, commits⟩
    simp only [Replies.commits, CreateReplies.succeeds, Bool.and_eq_true] at commits
    obtain ⟨⟨⟨fits, -⟩, ⟨⟨⟨space, -⟩, -⟩, -⟩, -⟩, -⟩ := commits
    exact Bool.and_eq_true_iff.mpr ⟨fits, space⟩

/-- An approved mode is accepted just when the target was, since no field that the checks
look at is changed. -/
theorem proposeMode_accepted_iff
    (approved : proposeMode fModeList target low high = some (.B_OK, left)) :
    left.accepted = true ↔ target.accepted = true := by
  obtain ⟨frame, width, height⟩ := proposeMode_frame approved
  have same : left.accepted = target.accepted := by
    rw [DisplayMode.accepted, DisplayMode.fits, width, height, frame]
    rfl
  rw [same]

/-- A listed mode, and bounds that admit everything. -/
def vgaTimings : NvKmsMode :=
  { RRx1k := 59940
    pixelClockHz := 25175000
    hVisible := 640
    hSyncStart := 656
    hSyncEnd := 752
    hTotal := 800
    vVisible := 480
    vSyncStart := 490
    vSyncEnd := 492
    vTotal := 525 }

/-- The bounds that every mode lies above. -/
def lowest : DisplayMode where
  timing := ⟨0, 0, 0, 0, 0, 0, 0, 0, 0, 0⟩
  space := 0
  virtual_width := 0
  virtual_height := 0

/-- The bounds that every mode lies below. -/
def highest : DisplayMode where
  timing := ⟨-1, -1, -1, -1, -1, -1, -1, -1, -1, -1⟩
  space := -1
  virtual_width := -1
  virtual_height := -1

/-- The resolution of the listed mode with a slower clock. -/
def vgaSlow : DisplayMode :=
  { toHaikuMode vgaTimings with
    timing := { toHaikuModeTimings vgaTimings with pixel_clock := 24000 } }

theorem proposeMode_vgaSlow_accepted :
    proposeMode [vgaTimings] vgaSlow lowest highest = some (.B_OK, toHaikuMode vgaTimings) ∧
      ((toHaikuMode vgaTimings).accepted = true ↔ vgaSlow.accepted = true) := by
  have approved : proposeMode [vgaTimings] vgaSlow lowest highest =
      some (.B_OK, toHaikuMode vgaTimings) := by decide
  exact ⟨approved, proposeMode_accepted_iff approved⟩

/-- The timing of the listed mode with a larger virtual size. -/
def vgaScrolling : DisplayMode :=
  { toHaikuMode vgaTimings with virtual_width := 1024, virtual_height := 768 }

/-- The larger virtual size is approved, and cannot be set. -/
theorem proposeMode_approves_scrolling : ∃ target left : DisplayMode,
    proposeMode [vgaTimings] target lowest highest = some (.B_OK, left) ∧
      left.accepted = false :=
  ⟨vgaScrolling, vgaScrolling, by decide, by decide⟩

/-! ## Advertised modes -/

end NvidiaHaiku.Accelerant

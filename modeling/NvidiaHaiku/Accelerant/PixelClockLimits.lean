/-
# The limits of the pixel clock

`GetPixelClockLimits` goes through the listed modes of the resolution of a given mode and
keeps the least and the greatest clock. `ProposeMode` takes its candidates from the listed
modes of that resolution which are interlaced just when its target is.

The test of `GetPixelClockLimits` is the same but for one operand. It compares the flag of
the listed mode with a bit of the height of the given mode, and a height of 16 bits does
not have that bit. So it takes the modes that are not interlaced, whatever is asked for.
-/

import Mathlib.Order.Bounds.Basic
import NvidiaHaiku.Accelerant.ProposeMode
import NvidiaHaiku.Libc.Constants

namespace NvidiaHaiku.Accelerant

open NvidiaHaiku.Libc (UINT32_MAX)

/-! ## The call -/

def B_ERROR : Error := .errno 0xFFFFFFFF

/-- `std::min`. -/
def stdMin (a b : BitVec 32) : BitVec 32 := if b < a then b else a

/-- `std::max`. -/
def stdMax (a b : BitVec 32) : BitVec 32 := if a < b then b else a

/-- The test in the loop of `GetPixelClockLimits`. -/
def isLimited (asked : DisplayTiming) (nvKmsMode : NvKmsMode) : Bool :=
  let timing := toHaikuModeTimings nvKmsMode
  timing.h_display = asked.h_display && timing.v_display = asked.v_display &&
    -- the right side is `v_display`, promoted to an `int`, and not `flags`
    timing.flags &&& B_TIMING_INTERLACED = asked.v_display.setWidth 32 &&& B_TIMING_INTERLACED

/-- The loop of `GetPixelClockLimits`. -/
def limits (asked : DisplayTiming) : List NvKmsMode → BitVec 32 × BitVec 32 → BitVec 32 × BitVec 32
  | [], (low, high) => (low, high)
  | nvKmsMode :: rest, (low, high) =>
    let timing := toHaikuModeTimings nvKmsMode
    if isLimited asked nvKmsMode then
      limits asked rest (stdMin low timing.pixel_clock, stdMax high timing.pixel_clock)
    else limits asked rest (low, high)

/-- `GetPixelClockLimits`, with what it leaves in `*low` and `*high`. -/
def getPixelClockLimits (fModeList : List NvKmsMode) (dm : DisplayMode) :
    Reply Unit × BitVec 32 × BitVec 32 :=
  let (low, high) := limits dm.timing fModeList (UINT32_MAX, 0)
  if low > high then (.error B_ERROR, low, high) else (.ok (), low, high)

/-- The clocks of the listed modes that pass a test. -/
def clocks (test : NvKmsMode → Bool) (fModeList : List NvKmsMode) : Set ℕ :=
  { clock | ∃ m ∈ fModeList, test m = true ∧ (toHaikuModeTimings m).pixel_clock.toNat = clock }

/-- The limits reported are those of the candidates of `ProposeMode`. -/
structure ReportsLimits (fModeList : List NvKmsMode) (dm : DisplayMode) : Prop where
  succeeds : (clocks (isCandidate dm.timing) fModeList).Nonempty →
    ∃ low high, getPixelClockLimits fModeList dm = (.ok (), low, high) ∧
      IsLeast (clocks (isCandidate dm.timing) fModeList) low.toNat ∧
      IsGreatest (clocks (isCandidate dm.timing) fModeList) high.toNat
  fails : clocks (isCandidate dm.timing) fModeList = ∅ →
    ∃ e, (getPixelClockLimits fModeList dm).1 = .error e
  /-- The two loops select the same modes. -/
  selects : fModeList.filter (isLimited dm.timing) = fModeList.filter (isCandidate dm.timing)

/-! ## Running extremes -/

section Extremes

variable {α : Type*} [LinearOrder α] {a b l : α} {s : Set α}

/-- A value is taken into a running minimum. -/
theorem isLeast_insert_of_min (least : IsLeast (insert (min a b) s) l) :
    IsLeast (insert a (insert b s)) l := by
  refine ⟨?_, ?_⟩
  · rcases least.1 with rfl | member
    · rcases min_choice a b with first | second
      · exact Or.inl first
      · exact Or.inr (Or.inl second)
    · exact Or.inr (Or.inr member)
  · have bound : l ≤ min a b := least.2 (Set.mem_insert _ _)
    rintro c (rfl | rfl | member)
    · exact bound.trans (min_le_left _ _)
    · exact bound.trans (min_le_right _ _)
    · exact least.2 (Or.inr member)

/-- A value is taken into a running maximum. -/
theorem isGreatest_insert_of_max (greatest : IsGreatest (insert (max a b) s) l) :
    IsGreatest (insert a (insert b s)) l :=
  isLeast_insert_of_min (α := αᵒᵈ) greatest

/-- The initial value of a running minimum does not count. -/
theorem isLeast_of_insert (least : IsLeast (insert a s) l) (nonempty : s.Nonempty)
    (above : ∀ c ∈ s, c ≤ a) : IsLeast s l := by
  refine ⟨?_, fun c member => least.2 (Or.inr member)⟩
  rcases least.1 with rfl | member
  · -- then all of the set is the initial value
    obtain ⟨c, member⟩ := nonempty
    rwa [le_antisymm (least.2 (Or.inr member)) (above c member)]
  · exact member

theorem isGreatest_of_insert (greatest : IsGreatest (insert a s) l) (nonempty : s.Nonempty)
    (below : ∀ c ∈ s, a ≤ c) : IsGreatest s l :=
  isLeast_of_insert (α := αᵒᵈ) greatest nonempty below

end Extremes

/-! ## The loop -/

variable {fModeList : List NvKmsMode} {dm : DisplayMode} {asked : DisplayTiming} {m : NvKmsMode}
  {test : NvKmsMode → Bool}

theorem toNat_stdMin (a b : BitVec 32) : (stdMin a b).toNat = min a.toNat b.toNat := by
  unfold stdMin
  split
  · exact (min_eq_right (le_of_lt ‹_›)).symm
  · exact (min_eq_left (BitVec.not_lt.mp ‹_›)).symm

theorem toNat_stdMax (a b : BitVec 32) : (stdMax a b).toNat = max a.toNat b.toNat := by
  unfold stdMax
  split
  · exact (max_eq_right (le_of_lt ‹_›)).symm
  · exact (max_eq_left (BitVec.not_lt.mp ‹_›)).symm

theorem clocks_cons_of_pos (passes : test m = true) : clocks test (m :: fModeList) =
    insert (toHaikuModeTimings m).pixel_clock.toNat (clocks test fModeList) := by
  ext clock
  constructor
  · rintro ⟨n, listed, taken, rfl⟩
    rcases List.mem_cons.mp listed with rfl | listed
    · exact Or.inl rfl
    · exact Or.inr ⟨n, listed, taken, rfl⟩
  · rintro (rfl | ⟨n, listed, taken, rfl⟩)
    · exact ⟨m, List.mem_cons_self, passes, rfl⟩
    · exact ⟨n, List.mem_cons_of_mem _ listed, taken, rfl⟩

theorem clocks_cons_of_neg (fails : test m = false) :
    clocks test (m :: fModeList) = clocks test fModeList := by
  ext clock
  simp [clocks, fails]

theorem clocks_congr {test' : NvKmsMode → Bool} (same : ∀ m ∈ fModeList, test m = test' m) :
    clocks test fModeList = clocks test' fModeList := by
  ext clock
  exact exists_congr fun m => and_congr_right fun listed => by rw [same m listed]

/-- The loop takes the extremes of the clocks and the values it starts with. -/
theorem limits_spec (asked : DisplayTiming) (fModeList : List NvKmsMode) (low high : BitVec 32) :
    IsLeast (insert low.toNat (clocks (isLimited asked) fModeList))
        (limits asked fModeList (low, high)).1.toNat ∧
      IsGreatest (insert high.toNat (clocks (isLimited asked) fModeList))
        (limits asked fModeList (low, high)).2.toNat := by
  induction fModeList generalizing low high with
  | nil => simp [limits, clocks]
  | cons m rest ih =>
    cases passes : isLimited asked m with
    | false =>
      rw [clocks_cons_of_neg passes, limits, if_neg (by simp [passes])]
      exact ih low high
    | true =>
      rw [clocks_cons_of_pos passes, limits, if_pos passes]
      obtain ⟨least, greatest⟩ := ih (stdMin low (toHaikuModeTimings m).pixel_clock)
        (stdMax high (toHaikuModeTimings m).pixel_clock)
      rw [toNat_stdMin] at least
      rw [toNat_stdMax] at greatest
      exact ⟨isLeast_insert_of_min least, isGreatest_insert_of_max greatest⟩

theorem getPixelClockLimits_of_nonempty
    (nonempty : (clocks (isLimited dm.timing) fModeList).Nonempty) :
    ∃ low high, getPixelClockLimits fModeList dm = (.ok (), low, high) ∧
      IsLeast (clocks (isLimited dm.timing) fModeList) low.toNat ∧
      IsGreatest (clocks (isLimited dm.timing) fModeList) high.toNat := by
  obtain ⟨least, greatest⟩ := limits_spec dm.timing fModeList UINT32_MAX 0
  have least := isLeast_of_insert least nonempty fun c ⟨m, _, _, clock⟩ =>
    clock ▸ Nat.le_of_lt_succ (toHaikuModeTimings m).pixel_clock.isLt
  have greatest := isGreatest_of_insert greatest nonempty fun _ _ => Nat.zero_le _
  refine ⟨_, _, if_neg ?_, least, greatest⟩
  exact BitVec.not_lt.mpr (least.2 greatest.1)

theorem getPixelClockLimits_of_empty (empty : clocks (isLimited dm.timing) fModeList = ∅) :
    (getPixelClockLimits fModeList dm).1 = .error B_ERROR := by
  obtain ⟨least, greatest⟩ := limits_spec dm.timing fModeList UINT32_MAX 0
  rw [empty] at least greatest
  have crossed : (limits dm.timing fModeList (UINT32_MAX, 0)).2 <
      (limits dm.timing fModeList (UINT32_MAX, 0)).1 := by
    rcases least.1 with top | none
    · rcases greatest.1 with bottom | none
      · rw [BitVec.lt_def, top, bottom]
        decide
      · exact none.elim
    · exact none.elim
  unfold getPixelClockLimits
  dsimp only
  rw [if_pos crossed]

/-! ## The test -/

/-- A height has no bit for the flag. -/
theorem setWidth_and_interlaced (height : BitVec 16) :
    height.setWidth 32 &&& B_TIMING_INTERLACED = 0 := by
  have bit : B_TIMING_INTERLACED = BitVec.twoPow 32 28 := rfl
  rw [bit, BitVec.and_twoPow, BitVec.getLsbD_setWidth, BitVec.getLsbD_of_ge _ _ (by decide)]
  rfl

/-- The flag of a listed mode. -/
theorem flags_and_interlaced (m : NvKmsMode) :
    (toHaikuModeTimings m).flags &&& B_TIMING_INTERLACED =
      if m.interlaced then B_TIMING_INTERLACED else 0 := by
  have bits : ∀ interlaced hSyncPos vSyncPos : Bool,
      ((if interlaced then B_TIMING_INTERLACED else 0) |||
        (if hSyncPos then B_POSITIVE_HSYNC else 0) |||
        (if vSyncPos then B_POSITIVE_VSYNC else 0)) &&& B_TIMING_INTERLACED =
          if interlaced then B_TIMING_INTERLACED else 0 := by decide
  exact bits m.interlaced m.hSyncPos m.vSyncPos

theorem and_interlaced_cases (flags : BitVec 32) :
    flags &&& B_TIMING_INTERLACED = 0 ∨ flags &&& B_TIMING_INTERLACED = B_TIMING_INTERLACED := by
  have bit : B_TIMING_INTERLACED = BitVec.twoPow 32 28 := rfl
  rw [bit, BitVec.and_twoPow]
  exact (ite_eq_or_eq _ _ _).symm

/-- The resolution of a listed mode is that of the given mode. -/
def SameResolution (m : NvKmsMode) (asked : DisplayTiming) : Prop :=
  m.hVisible = asked.h_display ∧ m.vVisible = asked.v_display

theorem isCandidate_iff : isCandidate asked m = true ↔ SameResolution m asked ∧
    (if m.interlaced then B_TIMING_INTERLACED else 0) = asked.flags &&& B_TIMING_INTERLACED := by
  rw [← flags_and_interlaced]
  simp [isCandidate, SameResolution, toHaikuModeTimings]

/-- What is taken is not interlaced, whatever is asked for. -/
theorem isLimited_iff :
    isLimited asked m = true ↔ SameResolution m asked ∧ m.interlaced = false := by
  have shows : ((if m.interlaced then B_TIMING_INTERLACED else 0) = 0) ↔ m.interlaced = false := by
    cases m.interlaced <;> decide
  rw [← shows, ← flags_and_interlaced]
  simp [isLimited, SameResolution, toHaikuModeTimings, setWidth_and_interlaced]

/-- The two tests agree on all listed modes just when the given mode is not interlaced or
no listed mode has its resolution. -/
theorem isLimited_eq_isCandidate_iff :
    (∀ m ∈ fModeList, isLimited asked m = isCandidate asked m) ↔
      asked.flags &&& B_TIMING_INTERLACED = 0 ∨ ∀ m ∈ fModeList, ¬ SameResolution m asked := by
  constructor
  · intro agree
    refine (and_interlaced_cases asked.flags).imp_right fun interlaced m listed same => ?_
    -- a mode of that resolution passes just one of the tests
    have either := agree m listed
    rw [Bool.eq_iff_iff, isLimited_iff, isCandidate_iff, interlaced] at either
    cases shown : m.interlaced with
    | false =>
      have wrong := (either.mp ⟨same, shown⟩).2
      rw [shown] at wrong
      exact absurd wrong (by decide)
    | true =>
      have wrong := (either.mpr ⟨same, by rw [shown]; rfl⟩).2
      exact absurd (wrong.symm.trans shown) Bool.false_ne_true
  · rintro (progressive | none) m listed
    · rw [Bool.eq_iff_iff, isLimited_iff, isCandidate_iff, progressive]
      cases m.interlaced <;> simp [B_TIMING_INTERLACED]
    · have differs := none m listed
      rw [Bool.eq_iff_iff, isLimited_iff, isCandidate_iff]
      exact iff_of_false (fun taken => differs taken.1) fun taken => differs taken.1

/-! ## The limits reported -/

/-- The limits of the listed modes like the given one are reported just when that one is not
interlaced or no listed mode has its resolution. -/
theorem reportsLimits_iff (fModeList : List NvKmsMode) (dm : DisplayMode) :
    ReportsLimits fModeList dm ↔ dm.timing.flags &&& B_TIMING_INTERLACED = 0 ∨
      ∀ m ∈ fModeList, ¬ SameResolution m dm.timing := by
  rw [← isLimited_eq_isCandidate_iff]
  constructor
  · intro reports m listed
    have taken := congrArg (m ∈ ·) reports.selects
    simpa [listed, ← Bool.eq_iff_iff] using taken
  · intro agree
    have same := clocks_congr agree
    refine ⟨fun nonempty => ?_, fun empty => ?_, List.filter_congr agree⟩
    · rw [← same] at nonempty ⊢
      exact getPixelClockLimits_of_nonempty nonempty
    · rw [← same] at empty
      exact ⟨_, getPixelClockLimits_of_empty empty⟩

/-- A resolution listed with and without interlacing. -/
def interlacedTimings : NvKmsMode :=
  { vgaTimings with pixelClockHz := 12587000, interlaced := true }

/-- For the interlaced mode the clock of the other one is reported. -/
theorem not_reportsLimits_interlaced :
    getPixelClockLimits [vgaTimings, interlacedTimings] (toHaikuMode interlacedTimings) =
        (.ok (), 25175, 25175) ∧
      ¬ ReportsLimits [vgaTimings, interlacedTimings] (toHaikuMode interlacedTimings) := by
  have reported : getPixelClockLimits [vgaTimings, interlacedTimings]
      (toHaikuMode interlacedTimings) = (.ok (), 25175, 25175) := by decide
  refine ⟨reported, fun reports => ?_⟩
  have listed : 12587 ∈ clocks (isCandidate (toHaikuMode interlacedTimings).timing)
      [vgaTimings, interlacedTimings] := ⟨interlacedTimings, by decide, by decide, by decide⟩
  obtain ⟨low, high, returned, least, -⟩ := reports.succeeds ⟨_, listed⟩
  rw [reported] at returned
  obtain ⟨-, returned⟩ := Prod.mk.inj returned
  obtain ⟨rfl, rfl⟩ := Prod.mk.inj returned
  exact absurd (least.2 listed) (by decide)

end NvidiaHaiku.Accelerant

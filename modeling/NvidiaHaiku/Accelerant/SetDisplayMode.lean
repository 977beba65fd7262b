/-
# Setting the display mode

`SetDisplayMode` validates the mode, makes a framebuffer, commits both to the
hardware, and then stores the mode and moves the framebuffers along: the current one
becomes the old one, which is released, and the new one becomes the current one.

Nothing is changed by a failure before the commit. After it, a failing release of
the old framebuffer throws out of the first move assignment. The new framebuffer is
then still a local variable, so its surface, which is being scanned out, is
unregistered.
-/

import NvidiaHaiku.Accelerant.Bitmap
import NvidiaHaiku.Math.Transition

namespace NvidiaHaiku.Accelerant

open NvidiaHaiku.Math NvidiaHaiku.Sdk TransitionSystem

/-! ## Modes -/

def B_TIMING_INTERLACED : BitVec 32 := 0x10000000
def B_POSITIVE_HSYNC : BitVec 32 := 0x20000000
def B_POSITIVE_VSYNC : BitVec 32 := 0x40000000

/-- `display_timing`. -/
structure DisplayTiming where
  pixel_clock : BitVec 32
  h_display : BitVec 16
  h_sync_start : BitVec 16
  h_sync_end : BitVec 16
  h_total : BitVec 16
  v_display : BitVec 16
  v_sync_start : BitVec 16
  v_sync_end : BitVec 16
  v_total : BitVec 16
  flags : BitVec 32
  deriving DecidableEq, Repr

/-- `display_mode`. -/
structure DisplayMode where
  timing : DisplayTiming
  space : BitVec 32
  virtual_width : BitVec 16
  virtual_height : BitVec 16
  h_display_start : BitVec 16 := 0
  v_display_start : BitVec 16 := 0
  flags : BitVec 32 := 0
  deriving DecidableEq, Repr

/-- `NvModeTimings`, the part of `NvKmsMode` that is set. -/
structure NvModeTimings where
  RRx1k : BitVec 32 := 0
  pixelClockHz : BitVec 32 := 0
  hVisible : BitVec 16 := 0
  hSyncStart : BitVec 16 := 0
  hSyncEnd : BitVec 16 := 0
  hTotal : BitVec 16 := 0
  vVisible : BitVec 16 := 0
  vSyncStart : BitVec 16 := 0
  vSyncEnd : BitVec 16 := 0
  vTotal : BitVec 16 := 0
  interlaced : Bool := false
  hSyncPos : Bool := false
  hSyncNeg : Bool := false
  vSyncPos : Bool := false
  vSyncNeg : Bool := false
  deriving DecidableEq, Repr

/-- `NvKmsMode`, of which only the timings are set. -/
abbrev NvKmsMode := NvModeTimings

/-- `CalcRefreshRate`; `none` is the division by zero. -/
def calcRefreshRate (timing : DisplayTiming) : Option (BitVec 32) :=
  let multiplier : BitVec 64 :=
    if B_TIMING_INTERLACED &&& timing.flags ≠ 0 then 2000000 else 1000000
  let total : BitVec 64 := timing.h_total.setWidth 64 * timing.v_total.setWidth 64
  if total = 0 then none
  else some ((multiplier * timing.pixel_clock.setWidth 64 / total).setWidth 32)

/-- `ToNvKmsMode` and `ToNvKmsModeTimings`. -/
def toNvKmsMode (mode : DisplayMode) : Option NvKmsMode :=
  (calcRefreshRate mode.timing).map fun rate =>
    { RRx1k := rate
      pixelClockHz := mode.timing.pixel_clock * 1000
      hVisible := mode.timing.h_display
      hSyncStart := mode.timing.h_sync_start
      hSyncEnd := mode.timing.h_sync_end
      hTotal := mode.timing.h_total
      vVisible := mode.timing.v_display
      vSyncStart := mode.timing.v_sync_start
      vSyncEnd := mode.timing.v_sync_end
      vTotal := mode.timing.v_total
      interlaced := B_TIMING_INTERLACED &&& mode.timing.flags ≠ 0
      hSyncPos := B_POSITIVE_HSYNC &&& mode.timing.flags ≠ 0
      hSyncNeg := B_POSITIVE_HSYNC &&& mode.timing.flags = 0
      vSyncPos := B_POSITIVE_VSYNC &&& mode.timing.flags ≠ 0
      vSyncNeg := B_POSITIVE_VSYNC &&& mode.timing.flags = 0 }

/-! ## The call -/

/-- The fields of `NvAccelerant` that `SetDisplayMode` works on, and KMS. -/
structure State where
  fCurrentMode : NvKmsMode := {}
  fOldFramebuffer : NvKmsBitmap := {}
  fFramebuffer : NvKmsBitmap := {}
  kms : Kms := {}

/-- What the calls made by `SetDisplayMode` reply. -/
structure Replies where
  /-- The address of `fKmsDev`. -/
  kmsDev : Address
  /-- `NVKMS_IOCTL_VALIDATE_MODE`, with `reply.valid`. -/
  validateMode : Reply Bool
  create : CreateReplies
  setMode : Reply Unit
  /-- The releases when `fOldFramebuffer` is overwritten. -/
  old : ReleaseReplies
  /-- The releases when `fFramebuffer` is overwritten. -/
  current : ReleaseReplies

/-- The geometry test of `SetDisplayMode`. -/
def DisplayMode.fits (mode : DisplayMode) : Bool :=
  !(mode.virtual_width ≠ mode.timing.h_display || mode.virtual_height ≠ mode.timing.v_display ||
    mode.h_display_start ≠ 0 || mode.v_display_start ≠ 0)

namespace State

/-- `NVKMS_IOCTL_SET_MODE` with `commit`, and the assignment to `fCurrentMode`. -/
def commit (s : State) (nvKmsMode : NvKmsMode) (newFramebuffer : NvKmsBitmap) : State :=
  { s with
    fCurrentMode := nvKmsMode
    kms := { s.kms with committed := some newFramebuffer.fSurface.fHandle } }

/-- The two move assignments, and the end of the scope of `newFramebuffer`. -/
def install (s : State) (newFramebuffer : NvKmsBitmap) (replies : Replies) : Reply Unit × State :=
  match Move.assign ⟨s.fOldFramebuffer, s.fFramebuffer, s.kms⟩ replies.old with
  -- the throw unwinds `newFramebuffer`, which has not been moved from
  | (.error e, m) =>
    (.error e, { s with
      fOldFramebuffer := m.this
      fFramebuffer := m.other
      kms := m.kms.unregister newFramebuffer.fSurface })
  | (.ok (), m) =>
    let (result, n) := Move.assign ⟨m.other, newFramebuffer, m.kms⟩ replies.current
    (result, { s with
      fOldFramebuffer := m.this
      fFramebuffer := n.this
      kms := n.kms.unregister n.other.fSurface })

/-- `NvAccelerant::SetDisplayMode`; `none` if it ends in a division by zero. -/
def setDisplayMode (s : State) (mode : DisplayMode) (replies : Replies) :
    Option (Reply Unit × State) :=
  if !mode.fits then some (.error EINVAL, s)
  else (toNvKmsMode mode).map fun nvKmsMode =>
    match replies.validateMode with
    | .error e => (.error e, s)
    | .ok false => (.error EINVAL, s)
    | .ok true =>
      match NvKmsBitmap.create replies.kmsDev (mode.virtual_width.setWidth 32)
        (mode.virtual_height.setWidth 32) mode.space replies.create s.kms with
      | (.error e, kms) => (.error e, { s with kms := kms })
      | (.ok newFramebuffer, kms) =>
        match replies.setMode with
        -- the exception is rethrown
        | .error e => (.error e, { s with kms := kms.unregister newFramebuffer.fSurface })
        | .ok () =>
          ({ s with kms := kms }.commit nvKmsMode newFramebuffer).install newFramebuffer replies

end State

/-! ## What the call does -/

/-- Every call of the constructor succeeds. -/
def CreateReplies.succeeds (replies : CreateReplies) (colorSpace : BitVec 32) : Bool :=
  (colorSpace = B_RGB32 || colorSpace = B_RGBA32) && replies.allocate.isOk &&
    replies.exportToFd.isOk && replies.registerSurface.isOk && replies.mapMemory.isOk

/-- Every call up to the commit succeeds, and the commit does. -/
def Replies.commits (replies : Replies) (mode : DisplayMode) : Bool :=
  mode.fits && replies.validateMode matches .ok true && replies.create.succeeds mode.space &&
    replies.setMode.isOk

/-- KMS gives out a handle that is not zero and not in use. -/
def CreateReplies.Sound (replies : CreateReplies) (kms : Kms) : Prop :=
  match replies.registerSurface with
  | .ok handle => handle ≠ 0 ∧ handle ∉ kms.registered
  | .error _ => True

variable {s t : State} {mode : DisplayMode} {replies : Replies} {kms : Kms} {bitmap : NvKmsBitmap}
  {result : Reply Unit}

/-- The constructor makes a bitmap with a fresh surface, or leaves KMS as it was. -/
theorem create_cases {replies : CreateReplies} (kmsDev : Address)
    (width height colorSpace : BitVec 32) (sound : replies.Sound kms) :
    (∃ e, NvKmsBitmap.create kmsDev width height colorSpace replies kms = (.error e, kms) ∧
        replies.succeeds colorSpace = false) ∨
      ∃ bitmap : NvKmsBitmap,
        NvKmsBitmap.create kmsDev width height colorSpace replies kms =
          (.ok bitmap, kms.register bitmap.fSurface.fHandle) ∧
        replies.succeeds colorSpace = true ∧ bitmap.fSurface.isSet = true ∧
        bitmap.fSurface.fHandle ∉ kms.registered := by
  unfold NvKmsBitmap.create CreateReplies.succeeds
  split
  · rename_i other
    exact Or.inl ⟨_, rfl, by simp [other.1, other.2]⟩
  · rename_i known
    have space : (colorSpace = B_RGB32 || colorSpace = B_RGBA32) = true := by
      simp only [not_and_or, not_not] at known
      simpa using known
    rw [space]
    obtain ⟨allocate, exportToFd, registerSurface, mapMemory⟩ := replies
    rcases allocate with e | memory
    · exact Or.inl ⟨e, rfl, rfl⟩
    rcases exportToFd with e | ⟨⟩
    · exact Or.inl ⟨e, rfl, rfl⟩
    rcases registerSurface with e | handle
    · exact Or.inl ⟨e, rfl, rfl⟩
    -- from here on a surface is registered, and unregistered again if the constructor throws
    obtain ⟨nonzero, fresh⟩ := sound
    have set : NvKmsSurface.isSet ⟨kmsDev, handle⟩ = true := decide_eq_true nonzero
    rcases mapMemory with e | mapping
    · exact Or.inl ⟨e, congrArg _ (Kms.unregister_register set fresh), rfl⟩
    · exact Or.inr ⟨_, rfl, rfl, set, fresh⟩

/-- A call that does not commit throws and changes nothing. A call that does goes on to
install a bitmap with a fresh surface. -/
theorem setDisplayMode_cases (sound : replies.create.Sound s.kms)
    (ran : s.setDisplayMode mode replies = some (result, t)) :
    (replies.commits mode = false ∧ (∃ e, result = .error e) ∧ t = s) ∨
      (replies.commits mode = true ∧ ∃ (bitmap : NvKmsBitmap) (nvKmsMode : NvKmsMode),
        bitmap.fSurface.isSet = true ∧ bitmap.fSurface.fHandle ∉ s.kms.registered ∧
        (result, t) = ({ s with kms := s.kms.register bitmap.fSurface.fHandle }.commit
          nvKmsMode bitmap).install bitmap replies) := by
  unfold State.setDisplayMode at ran
  unfold Replies.commits
  split at ran
  · rename_i misfit
    obtain ⟨rfl, rfl⟩ := Prod.mk.inj (Option.some.inj ran)
    rw [Bool.not_eq_true'] at misfit
    exact Or.inl ⟨by simp [misfit], ⟨_, rfl⟩, rfl⟩
  · rename_i fits
    rw [Bool.not_eq_true', Bool.not_eq_false] at fits
    obtain ⟨nvKmsMode, -, ran⟩ := Option.map_eq_some_iff.mp ran
    split at ran
    · rename_i e failed
      obtain ⟨rfl, rfl⟩ := Prod.mk.inj ran
      exact Or.inl ⟨by simp [failed], ⟨_, rfl⟩, rfl⟩
    · rename_i failed
      obtain ⟨rfl, rfl⟩ := Prod.mk.inj ran
      exact Or.inl ⟨by simp [failed], ⟨_, rfl⟩, rfl⟩
    · rename_i valid
      rcases create_cases replies.kmsDev (mode.virtual_width.setWidth 32)
        (mode.virtual_height.setWidth 32) mode.space sound with
        ⟨e, created, fails⟩ | ⟨bitmap, created, succeeds, set, fresh⟩
      · simp only [created] at ran
        obtain ⟨rfl, rfl⟩ := Prod.mk.inj ran
        exact Or.inl ⟨by simp [fails], ⟨_, rfl⟩, rfl⟩
      · simp only [created] at ran
        -- the new framebuffer is destroyed again if the mode is not set
        cases committed : replies.setMode with
        | error e =>
          simp only [committed] at ran
          obtain ⟨rfl, rfl⟩ := Prod.mk.inj ran
          refine Or.inl ⟨by simp [Except.isOk, Except.toBool], ⟨_, rfl⟩, ?_⟩
          rw [Kms.unregister_register set fresh]
        | ok =>
          simp only [committed] at ran
          refine Or.inr ⟨?_, bitmap, nvKmsMode, set, fresh, ran.symm⟩
          simp [fits, valid, succeeds, Except.isOk, Except.toBool]

/-- When the old framebuffer is released, the new one is installed. The current one has
been moved from by then, so nothing is released when it is overwritten. -/
theorem install_of_releases (installed : (result, t) = s.install bitmap replies)
    (released : Move.Releases s.fOldFramebuffer replies.old) :
    result = .ok () ∧ t.kms = s.kms.unregister s.fOldFramebuffer.fSurface ∧
      t.fFramebuffer.fSurface = bitmap.fSurface ∧
      t.fOldFramebuffer.fSurface = s.fFramebuffer.fSurface := by
  unfold State.install at installed
  rw [Move.assign_of_releases released] at installed
  dsimp only at installed
  -- the current framebuffer has been moved from
  rw [Move.assign_of_releases (Move.releases_of_unset rfl rfl rfl)] at installed
  obtain ⟨rfl, rfl⟩ := Prod.mk.inj installed
  refine ⟨rfl, ?_, rfl, rfl⟩
  calc ((s.kms.unregister s.fOldFramebuffer.fSurface).unregister
          { s.fFramebuffer.fSurface with fHandle := 0 }).unregister
          { bitmap.fSurface with fHandle := 0 }
      = (s.kms.unregister s.fOldFramebuffer.fSurface).unregister
          { s.fFramebuffer.fSurface with fHandle := 0 } := Kms.unregister_of_unset rfl
    _ = s.kms.unregister s.fOldFramebuffer.fSurface := Kms.unregister_of_unset rfl

/-- When a release of the old framebuffer fails, the new one is destroyed. -/
theorem install_of_not_releases (installed : (result, t) = s.install bitmap replies)
    (set : bitmap.fSurface.isSet = true) (fails : ¬ Move.Releases s.fOldFramebuffer replies.old) :
    (∃ e, result = .error e) ∧ t.kms.committed = s.kms.committed ∧
      bitmap.fSurface.fHandle ∉ t.kms.registered := by
  obtain ⟨e, m, threw, kms⟩ := Move.assign_of_not_releases
    (m := ⟨s.fOldFramebuffer, s.fFramebuffer, s.kms⟩) fails
  unfold State.install at installed
  rw [threw] at installed
  obtain ⟨rfl, rfl⟩ := Prod.mk.inj installed
  refine ⟨⟨e, rfl⟩, ?_, Kms.notMem_unregister set⟩
  rcases kms with kms | kms <;> simp [kms]

/-! ## Runs of calls -/

/-- A call of `SetDisplayMode`, with the replies of the requests that it makes. -/
structure Call where
  mode : DisplayMode
  replies : Replies

instance (replies : CreateReplies) (kms : Kms) : Decidable (replies.Sound kms) := by
  unfold CreateReplies.Sound
  split <;> infer_instance

/-- An accelerant that has not set a mode yet. -/
def State.Idle (s : State) : Prop :=
  s.fOldFramebuffer = {} ∧ s.fFramebuffer = {} ∧ s.kms.committed = none

/-- The accelerant after a call, whether it returns or throws. -/
def State.next (s : State) (call : Call) : Option State :=
  if call.replies.create.Sound s.kms then (s.setDisplayMode call.mode call.replies).map Prod.snd
  else none

/-- The accelerant with its calls of `SetDisplayMode`. -/
def calls : TransitionSystem State Call := .ofStep State.Idle State.next

/-- The surface being scanned out is owned by `fFramebuffer`, and it is registered. -/
def State.Owned (s : State) : Prop :=
  ∀ handle, s.kms.committed = some handle →
    s.fFramebuffer.fSurface.fHandle = handle ∧ handle ∈ s.kms.registered

/-- The scanned-out surface is owned after the call, and a call that throws leaves the
mode and the framebuffer as they were. -/
structure Proper (e : Event State Call) : Prop where
  owned : e.target.Owned
  unchanged : ∀ err t,
    e.source.setDisplayMode e.action.mode e.action.replies = some (.error err, t) →
    e.target.fCurrentMode = e.source.fCurrentMode ∧ e.target.fFramebuffer = e.source.fFramebuffer

/-- If the call gets past the commit, the old framebuffer can be released. -/
def ReleasesOld (e : Event State Call) : Prop :=
  e.action.replies.commits e.action.mode = true →
    Move.Releases e.source.fOldFramebuffer e.action.replies.old

/-- What holds as long as old framebuffers can be released. -/
structure Tidy (s : State) : Prop where
  owned : s.Owned
  current : s.fFramebuffer.fSurface.isSet = true →
    s.fFramebuffer.fSurface.fHandle ∈ s.kms.registered
  old : s.fOldFramebuffer.fSurface.isSet = true →
    s.fOldFramebuffer.fSurface.fHandle ∈ s.kms.registered
  distinct : s.fFramebuffer.fSurface.isSet = true →
    s.fFramebuffer.fSurface.fHandle ≠ s.fOldFramebuffer.fSurface.fHandle

variable {call : Call} {past : List (Event State Call)}

theorem State.Idle.tidy (idle : s.Idle) : Tidy s := by
  obtain ⟨old, current, committed⟩ := idle
  constructor <;> simp [State.Owned, old, current, committed, NvKmsSurface.isSet]

theorem next_eq_some (taken : s.next call = some t) :
    call.replies.create.Sound s.kms ∧
      ∃ result, s.setDisplayMode call.mode call.replies = some (result, t) := by
  obtain ⟨sound, ran⟩ := Option.ite_none_right_eq_some.mp taken
  obtain ⟨⟨result, u⟩, returned, rfl⟩ := Option.map_eq_some_iff.mp ran
  exact ⟨sound, result, returned⟩

theorem Tidy.next (tidy : Tidy s) (taken : s.next call = some t)
    (releases : ReleasesOld ⟨s, call, t⟩) : Tidy t ∧ Proper ⟨s, call, t⟩ := by
  obtain ⟨sound, result, ran⟩ := next_eq_some taken
  rcases setDisplayMode_cases sound ran with ⟨-, -, rfl⟩ |
    ⟨commits, bitmap, nvKmsMode, set, fresh, installed⟩
  · exact ⟨tidy, tidy.owned, fun _ _ _ => ⟨rfl, rfl⟩⟩
  · obtain ⟨rfl, kms, newSurface, oldSurface⟩ := install_of_releases installed (releases commits)
    -- the new handle is neither that of the current nor that of the old framebuffer
    have differs : ∀ surface : NvKmsSurface,
        (surface.isSet = true → surface.fHandle ∈ s.kms.registered) →
        bitmap.fSurface.fHandle ≠ surface.fHandle := by
      intro surface registered same
      have set' : surface.isSet = true := by
        rw [NvKmsSurface.isSet, ← same]
        exact set
      exact fresh (same ▸ registered set')
    -- only the surface of the old framebuffer is unregistered
    have stays : ∀ handle ∈ insert bitmap.fSurface.fHandle s.kms.registered,
        handle ≠ s.fOldFramebuffer.fSurface.fHandle → handle ∈ t.kms.registered := by
      intro handle registered different
      rw [kms]
      exact Kms.mem_unregister_of_ne different registered
    have registered : bitmap.fSurface.fHandle ∈ t.kms.registered :=
      stays _ (Finset.mem_insert_self ..) (differs _ tidy.old)
    have owned : t.Owned := by
      intro handle committed
      rw [kms, Kms.unregister_committed] at committed
      obtain rfl := Option.some.inj committed
      exact ⟨congrArg _ newSurface, registered⟩
    refine ⟨⟨owned, fun _ => newSurface ▸ registered, ?_, ?_⟩, owned, ?_⟩
    · rw [oldSurface]
      exact fun currentSet => stays _ (Finset.mem_insert_of_mem (tidy.current currentSet))
        (tidy.distinct currentSet)
    · rw [newSurface, oldSurface]
      exact fun _ => differs _ tidy.current
    · intro err u threw
      rw [ran] at threw
      cases threw

theorem not_owned_of_not_releasesOld (taken : s.next call = some t)
    (fails : ¬ ReleasesOld ⟨s, call, t⟩) : ¬ t.Owned := by
  obtain ⟨sound, result, ran⟩ := next_eq_some taken
  obtain ⟨commits, fails⟩ := Classical.not_imp.mp fails
  rcases setDisplayMode_cases sound ran with ⟨stops, -⟩ |
    ⟨-, bitmap, nvKmsMode, set, fresh, installed⟩
  · exact absurd commits (by simp [stops])
  · -- the surface committed by this very call is gone
    obtain ⟨-, committed, gone⟩ := install_of_not_releases installed set fails
    exact fun owned => gone (owned _ committed).2

/-- Mode setting over whole runs. Every call leaves the scanned-out surface owned, and
changes nothing if it throws, just when every call that gets past the commit can
release the old framebuffer. -/
theorem proper_iff (run : calls.Run past s) : Every Proper past ↔ Every ReleasesOld past :=
  run.every_iff (P := Tidy) (fun _ idle => idle.tidy)
    (fun _ _ _ tidy taken releases => tidy.next taken releases)
    fun _ _ _ _ taken fails proper => not_owned_of_not_releasesOld taken fails proper.owned

instance (e : Event State Call) : Decidable (ReleasesOld e) :=
  inferInstanceAs (Decidable (_ = true → _ ∧ _ ∧ _))

/-- 640x480, and replies that let the call succeed with the given surface. -/
def vga (handle : SurfaceHandle) (free : Reply Unit := .ok ()) : Call where
  mode :=
    { timing := ⟨25175, 640, 656, 752, 800, 480, 490, 492, 525, 0⟩
      space := B_RGB32
      virtual_width := 640
      virtual_height := 480
      h_display_start := 0
      v_display_start := 0 }
  replies :=
    { kmsDev := 0x1000
      validateMode := .ok true
      create := ⟨.ok ⟨0x2000, handle⟩, .ok (), .ok handle,
        .ok { fRm := 0x2000, fHDevice := 1, fHMemory := handle, fAddress := 0x3000 }⟩
      setMode := .ok ()
      old := ⟨.ok (), .ok (), free⟩
      current := ⟨.ok (), .ok (), .ok ()⟩ }

theorem idle_default : calls.start {} := ⟨rfl, rfl, rfl⟩

/-- The mode is set three times. The third call releases the first framebuffer. -/
theorem proper_thrice : ∃ past s, calls.Run past s ∧ s.kms.registered = {2, 3} ∧
    Every Proper past := by
  have run := (Run.start idle_default).play [vga 1, vga 2, vga 3] rfl
  exact ⟨_, _, run, by decide, (proper_iff run).mpr (by decide)⟩

/-- The third call cannot free the memory of the first framebuffer. It throws, and the
committed surface 3 has been unregistered. -/
theorem not_proper_failed : ∃ past s, calls.Run past s ∧
    s.kms.committed = some 3 ∧ s.kms.registered = {2} ∧ ¬ Every Proper past := by
  have run := (Run.start idle_default).play
    [vga 1, vga 2, vga 3 (.error (.nvStatus 0x1A))] rfl
  refine ⟨_, _, run, by decide, by decide, fun every => ?_⟩
  exact absurd ((every _ (.head _)).owned 3 (by decide)).2 (by decide)

end NvidiaHaiku.Accelerant

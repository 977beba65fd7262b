/-
# The cursor that is shown

`SetCursorBitmap` stores a bitmap in `fNewCursor`, and the next `NVKMS_IOCTL_SET_CURSOR_IMAGE`
that is accepted moves it to `fCursor`. The surface that KMS shows is that of `fCursor` then,
or none if the cursor is hidden.

No call takes this surface away from KMS. But `ShowCursor` changes `fCursorVisible` before
the request and leaves it so when the request fails. And a first bitmap that cannot be shown
stays in `fNewCursor` while the cursor counts as visible. Apart from these failures the flag,
the bitmaps and KMS agree after every call.
-/

import NvidiaHaiku.Accelerant.BitmapRelease
import NvidiaHaiku.Accelerant.CursorBitmap
import NvidiaHaiku.Accelerant.SetDisplayMode

namespace NvidiaHaiku.Accelerant

open NvidiaHaiku.Math TransitionSystem

/-- The bitmap has been constructed. -/
def NvKmsBitmap.isSet (bitmap : NvKmsBitmap) : Bool := bitmap.fSurface.isSet

namespace Cursor

/-- Where the cursor is. -/
structure Position where
  x : BitVec 32
  y : BitVec 32
  deriving DecidableEq, Repr

/-- The fields of `NvAccelerant` for the cursor, and what KMS has been told. -/
structure State where
  fCursor : NvKmsBitmap := {}
  fNewCursor : NvKmsBitmap := {}
  /-- Not initialized. -/
  fCursorPos : Position
  fCursorHotSpot : Position := ⟨0, 0⟩
  fCursorVisible : Bool := false
  kms : Kms := {}
  /-- The surface of the last `NVKMS_IOCTL_SET_CURSOR_IMAGE` that was accepted. -/
  accepted : Option SurfaceHandle := none
  /-- This surface has been unregistered since. -/
  unregistered : Bool := false
  /-- The position of the last `NVKMS_IOCTL_MOVE_CURSOR` that was accepted. -/
  moved : Option (BitVec 16 × BitVec 16) := none

/-- What the calls made by `SetCursorBitmap` reply. -/
structure Replies where
  /-- The address of `fKmsDev`. -/
  kmsDev : Sdk.Address
  create : CreateReplies
  setImage : Reply Unit
  move : Reply Unit

namespace State

/-- KMS with other surfaces registered. -/
def withKms (s : State) (kms : Kms) : State :=
  { s with
    kms := kms
    unregistered := s.unregistered || s.accepted.any fun handle =>
      handle ≠ 0 ∧ handle ∈ s.kms.registered ∧ handle ∉ kms.registered }

/-- The surface that `UpdateCursor` asks for. -/
def image (s : State) : SurfaceHandle :=
  if s.fCursorVisible then
    if s.fNewCursor.isSet then s.fNewCursor.fSurface.fHandle else s.fCursor.fSurface.fHandle
  else 0

/-- `NVKMS_IOCTL_SET_CURSOR_IMAGE` is accepted. -/
def accept (s : State) (handle : SurfaceHandle) : State :=
  { s with accepted := some handle, unregistered := false }

/-- `fCursor = std::move(fNewCursor)`, with releases that succeed. -/
def install (s : State) : State :=
  let m := s.fCursor.move s.fNewCursor s.kms
  { s.withKms m.kms with fCursor := m.this, fNewCursor := m.other }

/-- `UpdateCursor(true, false)`. -/
def updateImage (s : State) (setImage : Reply Unit) : Reply Unit × State :=
  match setImage with
  | .error e => (.error e, s)
  | .ok () =>
    let shown := s.accept s.image
    (.ok (), if shown.fNewCursor.isSet then shown.install else shown)

/-- `UpdateCursor(false, true)`. -/
def updatePos (s : State) (move : Reply Unit) : Reply Unit × State :=
  match move with
  | .error e => (.error e, s)
  | .ok () =>
    let x := s.fCursorPos.x - s.fCursorHotSpot.x
    let y := s.fCursorPos.y - s.fCursorHotSpot.y
    (.ok (), { s with moved := some (x.setWidth 16, y.setWidth 16) })

/-- `UpdateCursor(true, true)`. -/
def updateImageAndPos (s : State) (setImage move : Reply Unit) : Reply Unit × State :=
  match s.updateImage setImage with
  | (.error e, shown) => (.error e, shown)
  | (.ok (), shown) => shown.updatePos move

/-- `MoveCursor`. -/
def moveCursor (s : State) (x y : BitVec 16) (move : Reply Unit) : Reply Unit × State :=
  { s with fCursorPos := ⟨x.setWidth 32, y.setWidth 32⟩ }.updatePos move

/-- `ShowCursor`. -/
def showCursor (s : State) (isVisible : Bool) (setImage : Reply Unit) : Reply Unit × State :=
  if s.fCursorVisible = isVisible then (.ok (), s)
  else { s with fCursorVisible := !s.fCursorVisible }.updateImage setImage

/-- `fNewCursor = std::move(newCursor)` and the assignments to `fCursorHotSpot`. -/
def setNew (s : State) (newCursor : NvKmsBitmap) (hotX hotY : BitVec 16) : State :=
  { s.withKms (s.fNewCursor.move newCursor s.kms).kms with
    fNewCursor := (s.fNewCursor.move newCursor s.kms).this
    fCursorHotSpot := ⟨hotX.setWidth 32, hotY.setWidth 32⟩ }

/-- `SetCursorBitmap`. -/
def setCursorBitmap (s : State) (width height hotX hotY : BitVec 16) (colorSpace : BitVec 32)
    (replies : Replies) : Reply Unit × State :=
  match cursorSize width height with
  | .error e => (.error e, s)
  | .ok (cursorWidth, cursorHeight) =>
    match NvKmsBitmap.create replies.kmsDev cursorWidth cursorHeight colorSpace replies.create
      s.kms with
    | (.error e, kms) => (.error e, s.withKms kms)
    | (.ok newCursor, kms) =>
      -- the image is drawn before the move, after which the destructor has nothing to release
      let set := (s.withKms kms).setNew newCursor hotX hotY
      if set.fCursorVisible then set.updateImageAndPos replies.setImage replies.move
      else (.ok (), set)

end State

/-! ## Runs of calls -/

/-- A call of the accelerant, with the replies of the requests that it makes. -/
inductive Call
  | moveCursor (x y : BitVec 16) (move : Reply Unit)
  | showCursor (isVisible : Bool) (setImage : Reply Unit)
  | setCursorBitmap (width height hotX hotY : BitVec 16) (colorSpace : BitVec 32)
      (replies : Replies)

/-- The cursor after a call, whether it returns or throws. -/
def State.next (s : State) : Call → Option State
  | .moveCursor x y move => some (s.moveCursor x y move).2
  | .showCursor isVisible setImage => some (s.showCursor isVisible setImage).2
  | .setCursorBitmap width height hotX hotY colorSpace replies =>
    if replies.create.Sound s.kms then
      some (s.setCursorBitmap width height hotX hotY colorSpace replies).2
    else none

/-- No cursor has been set or shown yet. -/
structure State.Idle (s : State) : Prop where
  fCursor : s.fCursor = {}
  fNewCursor : s.fNewCursor = {}
  fCursorVisible : s.fCursorVisible = false
  accepted : s.accepted = none

/-- The accelerant with the calls that concern the cursor. -/
def calls : TransitionSystem State Call := .ofStep State.Idle State.next

/-- KMS shows what the flag and the bitmaps say. -/
structure Agrees (s : State) : Prop where
  visible : s.fCursorVisible = true → ∃ handle, s.accepted = some handle ∧
    (handle ≠ 0 → handle = s.fCursor.fSurface.fHandle ∨ handle = s.fNewCursor.fSurface.fHandle) ∧
    (handle = 0 → s.fCursor.isSet = false ∧ s.fNewCursor.isSet = false)
  hidden : s.fCursorVisible = false → s.accepted = none ∨ s.accepted = some 0
  registered : ∀ handle, s.accepted = some handle → handle ≠ 0 →
    handle ∈ s.kms.registered ∧ s.unregistered = false

/-- No surface is accepted, and there is no bitmap that could be. -/
def State.Blank (s : State) : Prop :=
  s.accepted = some 0 ∧ s.fCursor.isSet = false ∧ s.fNewCursor.isSet = false

/-- The bitmap is created. -/
def Replies.creates (replies : Replies) (width height : BitVec 16) (colorSpace : BitVec 32) :
    Bool :=
  (cursorSize width height).isOk && replies.create.succeeds colorSpace

/-- A change of the visibility is accepted, or there is nothing to see, and the first bitmap of
a visible cursor is accepted. -/
def State.Meets (s : State) : Call → Prop
  | .moveCursor .. => True
  | .showCursor isVisible setImage =>
    s.fCursorVisible ≠ isVisible → setImage.isOk = true ∨ s.Blank
  | .setCursorBitmap width height _ _ colorSpace replies =>
    s.fCursorVisible = true → replies.creates width height colorSpace = true →
      replies.setImage.isOk = true ∨ s.fCursor.isSet = true

instance (s : State) : Decidable s.Blank := inferInstanceAs (Decidable (_ ∧ _ ∧ _))

instance (s : State) : (call : Call) → Decidable (s.Meets call)
  | .moveCursor .. => isTrue trivial
  | .showCursor .. => inferInstanceAs (Decidable (_ → _ ∨ _))
  | .setCursorBitmap .. => inferInstanceAs (Decidable (_ → _ → _ ∨ _))

variable {s t : State} {call : Call} {past : List (Event State Call)} {kms : Kms}
  {bitmap : NvKmsBitmap}

/-! ## The surfaces

The accepted surface is that of `fCursor`. It is not released when a bitmap replaces the one
in `fNewCursor`, and the one it replaces in `fCursor` is not the accepted one any more. -/

/-- The surface of a bitmap is registered, if it is set. -/
def Registered (kms : Kms) (bitmap : NvKmsBitmap) : Prop :=
  bitmap.isSet = true → bitmap.fSurface.fHandle ∈ kms.registered

/-- What every call keeps, whatever fails. -/
structure Kept (s : State) : Prop where
  accepted : ∀ handle, s.accepted = some handle → handle ≠ 0 →
    s.fCursor.fSurface.fHandle = handle ∧ s.unregistered = false
  fCursor : Registered s.kms s.fCursor
  fNewCursor : Registered s.kms s.fNewCursor
  distinct : s.fCursor.isSet = true → s.fCursor.fSurface.fHandle ≠ s.fNewCursor.fSurface.fHandle

theorem isSet_of_ne {bitmap : NvKmsBitmap} (nonzero : bitmap.fSurface.fHandle ≠ 0) :
    bitmap.isSet = true :=
  decide_eq_true nonzero

theorem isSet_eq_false_iff : bitmap.isSet = false ↔ bitmap.fSurface.fHandle = 0 := by
  simp [NvKmsBitmap.isSet, NvKmsSurface.isSet]

theorem Registered.unregister {other : NvKmsBitmap} (registered : Registered kms bitmap)
    (differs : bitmap.isSet = true → bitmap.fSurface.fHandle ≠ other.fSurface.fHandle) :
    Registered (kms.unregister other.fSurface) bitmap :=
  fun set => Kms.mem_unregister_of_ne (differs set) (registered set)

@[simp] theorem install_fCursor : s.install.fCursor.fSurface = s.fNewCursor.fSurface := by
  rw [State.install, Bitmaps.move_eq]
  rfl

@[simp] theorem install_fNewCursor : s.install.fNewCursor.fSurface.fHandle = 0 := by
  rw [State.install, Bitmaps.move_eq]
  rfl

@[simp] theorem install_kms : s.install.kms = s.kms.unregister s.fCursor.fSurface := by
  rw [State.install, Bitmaps.move_eq]
  rfl

@[simp] theorem setNew_fNewCursor (hotX hotY : BitVec 16) :
    (s.setNew bitmap hotX hotY).fNewCursor.fSurface = bitmap.fSurface := by
  rw [State.setNew, Bitmaps.move_eq]
  rfl

@[simp] theorem setNew_kms (hotX hotY : BitVec 16) :
    (s.setNew bitmap hotX hotY).kms = s.kms.unregister s.fNewCursor.fSurface := by
  rw [State.setNew, Bitmaps.move_eq]
  rfl

theorem unregistered_withKms (fresh : ∀ handle, s.accepted = some handle → handle ≠ 0 →
      handle ∈ s.kms.registered → handle ∈ kms.registered) :
    (s.withKms kms).unregistered = s.unregistered := by
  have none_gone : (s.accepted.any fun handle =>
      handle ≠ 0 ∧ handle ∈ s.kms.registered ∧ handle ∉ kms.registered) = false := by
    cases shown : s.accepted with
    | none => rfl
    | some handle =>
      refine decide_eq_false ?_
      rintro ⟨nonzero, before, after⟩
      exact after (fresh handle shown nonzero before)
  show (s.unregistered || s.accepted.any _) = s.unregistered
  rw [none_gone, Bool.or_false]

namespace Kept

theorem registered (kept : Kept s) {handle : SurfaceHandle} (shown : s.accepted = some handle)
    (nonzero : handle ≠ 0) : handle ∈ s.kms.registered := by
  obtain ⟨rfl, -⟩ := kept.accepted handle shown nonzero
  exact kept.fCursor (isSet_of_ne nonzero)

/-- The bitmap that has not been shown yet has a surface of its own. -/
theorem differs (kept : Kept s) (set : s.fNewCursor.isSet = true) :
    s.fNewCursor.fSurface.fHandle ≠ s.fCursor.fSurface.fHandle := by
  intro same
  have nonzero : s.fNewCursor.fSurface.fHandle ≠ 0 := of_decide_eq_true set
  exact kept.distinct (isSet_of_ne (same ▸ nonzero)) same.symm

/-- More surfaces may be registered. -/
theorem withKms (kept : Kept s) (more : s.kms.registered ⊆ kms.registered) :
    Kept (s.withKms kms) where
  accepted handle shown nonzero := by
    obtain ⟨own, clear⟩ := kept.accepted handle shown nonzero
    exact ⟨own, (unregistered_withKms fun _ _ _ before => more before).trans clear⟩
  fCursor set := more (kept.fCursor set)
  fNewCursor set := more (kept.fNewCursor set)
  distinct := kept.distinct

/-- A fresh bitmap takes the place of the one that has not been shown. -/
theorem setNew (kept : Kept s) (hotX hotY : BitVec 16) (registered : Registered s.kms bitmap)
    (cursor : s.fCursor.isSet = true → s.fCursor.fSurface.fHandle ≠ bitmap.fSurface.fHandle)
    (new : bitmap.isSet = true → bitmap.fSurface.fHandle ≠ s.fNewCursor.fSurface.fHandle) :
    Kept (s.setNew bitmap hotX hotY) := by
  refine ⟨fun handle shown nonzero => ?_, ?_, ?_, ?_⟩
  · obtain ⟨own, clear⟩ := kept.accepted handle shown nonzero
    refine ⟨own, (unregistered_withKms fun handle shown nonzero before => ?_).trans clear⟩
    -- the surface that is released is not that of `fCursor`, which is the accepted one
    obtain ⟨rfl, -⟩ := kept.accepted handle shown nonzero
    show _ ∈ (s.setNew bitmap hotX hotY).kms.registered
    rw [setNew_kms]
    exact Kms.mem_unregister_of_ne (kept.distinct (isSet_of_ne nonzero)) before
  · rw [setNew_kms]
    exact kept.fCursor.unregister kept.distinct
  · rw [setNew_kms, Registered, NvKmsBitmap.isSet, setNew_fNewCursor]
    exact registered.unregister new
  · rw [setNew_fNewCursor]
    exact cursor

end Kept

/-! ## Requests -/

theorem image_of_hidden (hidden : s.fCursorVisible = false) : s.image = 0 := by
  rw [State.image, hidden, if_neg Bool.false_ne_true]

theorem image_of_new (visible : s.fCursorVisible = true) (set : s.fNewCursor.isSet = true) :
    s.image = s.fNewCursor.fSurface.fHandle := by
  rw [State.image, if_pos visible, if_pos set]

theorem image_of_current (visible : s.fCursorVisible = true) (unset : s.fNewCursor.isSet = false) :
    s.image = s.fCursor.fSurface.fHandle := by
  rw [State.image, if_pos visible, unset, if_neg Bool.false_ne_true]

theorem visible_of_image (nonzero : s.image ≠ 0) : s.fCursorVisible = true := by
  by_contra hidden
  exact nonzero (image_of_hidden (Bool.not_eq_true _ ▸ hidden))

/-- What holds when a request for the image is accepted. -/
structure Shown (s t : State) : Prop where
  kept : Kept t
  accepted : t.accepted = some s.image
  fCursorVisible : t.fCursorVisible = s.fCursorVisible
  fCursor : s.fCursorVisible = true → t.fCursor.fSurface.fHandle = s.image
  fNewCursor : t.fNewCursor.isSet = false

/-- With nothing new, KMS is asked for the surface of `fCursor` or for none. -/
theorem Kept.accept (kept : Kept s) (unset : s.fNewCursor.isSet = false) :
    Shown s (s.accept s.image) := by
  have shown : s.fCursorVisible = true → s.fCursor.fSurface.fHandle = s.image :=
    fun visible => (image_of_current visible unset).symm
  refine ⟨⟨fun handle accepted nonzero => ⟨?_, rfl⟩, kept.fCursor, kept.fNewCursor,
    kept.distinct⟩, rfl, rfl, shown, unset⟩
  obtain rfl := Option.some.inj accepted
  exact shown (visible_of_image nonzero)

/-- A new bitmap becomes `fCursor`, and the surface before it is released. -/
theorem Kept.install (kept : Kept s) (set : s.fNewCursor.isSet = true) :
    Shown s (s.accept s.image).install := by
  have shown : ∀ handle, some s.image = some handle → handle ≠ 0 →
      s.fNewCursor.fSurface.fHandle = handle := by
    intro handle accepted nonzero
    obtain rfl := Option.some.inj accepted
    exact (image_of_new (visible_of_image nonzero) set).symm
  -- the surfaces of the two bitmaps differ, so the new one survives the release
  have stays : s.fNewCursor.fSurface.fHandle ∈ (s.accept s.image).install.kms.registered := by
    rw [install_kms]
    exact Kms.mem_unregister_of_ne (kept.differs set) (kept.fNewCursor set)
  have unset : (s.accept s.image).install.fNewCursor.isSet = false :=
    isSet_eq_false_iff.mpr install_fNewCursor
  refine ⟨⟨fun handle accepted nonzero => ⟨?_, ?_⟩, ?_, ?_, ?_⟩, rfl, rfl, ?_, unset⟩
  · rw [install_fCursor]
    exact shown handle accepted nonzero
  · -- what is released is the surface before, and the accepted one is that of the new bitmap
    have same : ((s.accept s.image).withKms (s.accept s.image).install.kms).unregistered = false :=
      unregistered_withKms fun handle accepted nonzero _ => shown handle accepted nonzero ▸ stays
    exact same
  · intro _
    rw [install_fCursor]
    exact stays
  · intro again
    exact absurd (unset.symm.trans again) Bool.false_ne_true
  · intro _
    rw [install_fCursor, install_fNewCursor]
    exact of_decide_eq_true set
  · intro visible
    rw [install_fCursor]
    exact (image_of_new visible set).symm

theorem Kept.shown (kept : Kept s) : Shown s (s.updateImage (.ok ())).2 := by
  cases set : s.fNewCursor.isSet with
  | false =>
    have same : (s.updateImage (.ok ())).2 = s.accept s.image := by
      show (if s.fNewCursor.isSet then _ else _) = _
      rw [set, if_neg Bool.false_ne_true]
    exact same ▸ kept.accept set
  | true =>
    have same : (s.updateImage (.ok ())).2 = (s.accept s.image).install := by
      show (if s.fNewCursor.isSet then _ else _) = _
      rw [if_pos set]
    exact same ▸ kept.install set

/-! ## What the calls do -/

/-- Moving the cursor changes none of its surfaces. -/
theorem updatePos_spec (s : State) (move : Reply Unit) :
    ∃ moved, (s.updatePos move).2 = { s with moved := moved } := by
  cases move with
  | error e => exact ⟨s.moved, rfl⟩
  | ok => exact ⟨_, rfl⟩

/-- `UpdateCursor(true, true)`: the image may be refused, and then nothing changes. -/
theorem updateImageAndPos_spec (s : State) (setImage move : Reply Unit) :
    (setImage.isOk = false ∧ (s.updateImageAndPos setImage move).2 = s) ∨
      setImage.isOk = true ∧ ∃ moved, (s.updateImageAndPos setImage move).2 =
        { (s.updateImage (.ok ())).2 with moved := moved } := by
  cases setImage with
  | error e => exact Or.inl ⟨rfl, rfl⟩
  | ok => exact Or.inr ⟨rfl, updatePos_spec _ move⟩

theorem withKms_self : s.withKms s.kms = s := by
  have same : (s.withKms s.kms).unregistered = s.unregistered :=
    unregistered_withKms fun _ _ _ before => before
  unfold State.withKms at same ⊢
  rw [show (_ || _) = s.unregistered from same]

/-- The state with a new bitmap, which has not been shown. -/
structure Replaced (s t : State) : Prop where
  kept : Kept t
  accepted : t.accepted = s.accepted
  fCursorVisible : t.fCursorVisible = s.fCursorVisible
  fCursor : t.fCursor = s.fCursor
  fNewCursor : t.fNewCursor.isSet = true

/-- `SetCursorBitmap` changes nothing, or it stores a new bitmap and shows it at once if the
cursor is visible. -/
theorem setCursorBitmap_cases (width height hotX hotY : BitVec 16) (colorSpace : BitVec 32)
    {replies : Replies} (kept : Kept s) (sound : replies.create.Sound s.kms) :
    (replies.creates width height colorSpace = false ∧
      (s.setCursorBitmap width height hotX hotY colorSpace replies).2 = s) ∨
    replies.creates width height colorSpace = true ∧ ∃ set, Replaced s set ∧
      (s.setCursorBitmap width height hotX hotY colorSpace replies).2 =
        if s.fCursorVisible then (set.updateImageAndPos replies.setImage replies.move).2
        else set := by
  unfold State.setCursorBitmap Replies.creates
  cases sized : cursorSize width height with
  -- an image above 256 pixels is refused before anything is made
  | error e => exact Or.inl ⟨rfl, rfl⟩
  | ok size =>
    obtain ⟨cursorWidth, cursorHeight⟩ := size
    rcases create_cases replies.kmsDev cursorWidth cursorHeight colorSpace sound with
      ⟨e, created, fails⟩ | ⟨bitmap, created, succeeds, set, fresh⟩
    · refine Or.inl ⟨by rw [fails, Bool.and_false], ?_⟩
      simp only [created]
      exact withKms_self
    · refine Or.inr ⟨by rw [succeeds]; rfl, ?_⟩
      have registered := Finset.mem_insert_self bitmap.fSurface.fHandle s.kms.registered
      have more : s.kms.registered ⊆ (s.kms.register bitmap.fSurface.fHandle).registered :=
        Finset.subset_insert ..
      have replaced : Replaced s
          ((s.withKms (s.kms.register bitmap.fSurface.fHandle)).setNew bitmap hotX hotY) := by
        refine ⟨(kept.withKms more).setNew hotX hotY (fun _ => registered) ?_ ?_, rfl, rfl, rfl, ?_⟩
        · -- KMS gives out a surface that is not registered, so it is neither of the old ones
          intro cursor same
          exact fresh (same ▸ kept.fCursor cursor)
        · intro _ same
          have nonzero : bitmap.fSurface.fHandle ≠ 0 := of_decide_eq_true set
          exact fresh (same ▸ kept.fNewCursor (isSet_of_ne (same ▸ nonzero)))
        · rw [NvKmsBitmap.isSet, setNew_fNewCursor]
          exact set
      refine ⟨_, replaced, ?_⟩
      simp only [created]
      rw [replaced.fCursorVisible]
      split <;> rfl

/-! ## The visibility -/

/-- The flag and the accepted surface agree. -/
structure Matches (s : State) : Prop where
  visible : s.fCursorVisible = true → ∃ handle, s.accepted = some handle ∧
    (handle = 0 → s.fCursor.isSet = false ∧ s.fNewCursor.isSet = false)
  hidden : s.fCursorVisible = false → s.accepted = none ∨ s.accepted = some 0

theorem Kept.agrees_iff (kept : Kept s) : Agrees s ↔ Matches s := by
  constructor
  · intro agrees
    refine ⟨fun visible => ?_, agrees.hidden⟩
    obtain ⟨handle, accepted, -, zero⟩ := agrees.visible visible
    exact ⟨handle, accepted, zero⟩
  · intro agrees
    refine ⟨fun visible => ?_, agrees.hidden, fun handle accepted nonzero => ?_⟩
    · obtain ⟨handle, accepted, zero⟩ := agrees.visible visible
      exact ⟨handle, accepted, fun nonzero => Or.inl (kept.accepted handle accepted nonzero).1.symm,
        zero⟩
    · exact ⟨kept.registered accepted nonzero, (kept.accepted handle accepted nonzero).2⟩

/-- A request that is accepted brings the two together, whatever was before. -/
theorem Shown.matches (shown : Shown s t) : Matches t := by
  refine ⟨fun visible => ⟨s.image, shown.accepted, fun zero => ⟨?_, shown.fNewCursor⟩⟩,
    fun hidden => Or.inr ?_⟩
  · rw [isSet_eq_false_iff, shown.fCursor (shown.fCursorVisible.symm.trans visible), zero]
  · rw [shown.accepted, image_of_hidden (shown.fCursorVisible.symm.trans hidden)]

/-- The cursor with the flag changed. -/
def State.toggle (s : State) : State := { s with fCursorVisible := !s.fCursorVisible }

/-- A request that is refused leaves the flag changed. -/
theorem showCursor_cases (s : State) (isVisible : Bool) (setImage : Reply Unit) :
    (s.fCursorVisible = isVisible ∧ (s.showCursor isVisible setImage).2 = s) ∨
    (s.fCursorVisible ≠ isVisible ∧ setImage.isOk = false ∧
      (s.showCursor isVisible setImage).2 = s.toggle) ∨
    (s.fCursorVisible ≠ isVisible ∧ setImage.isOk = true ∧
      (s.showCursor isVisible setImage).2 = (s.toggle.updateImage (.ok ())).2) := by
  unfold State.showCursor
  split
  · exact Or.inl ⟨‹_›, rfl⟩
  · cases setImage with
    | error e => exact Or.inr (Or.inl ⟨‹_›, rfl, rfl⟩)
    | ok => exact Or.inr (Or.inr ⟨‹_›, rfl, rfl⟩)

theorem Kept.toggle (kept : Kept s) : Kept s.toggle :=
  ⟨kept.accepted, kept.fCursor, kept.fNewCursor, kept.distinct⟩

/-- A changed flag that KMS has not been told agrees only if there is nothing to see. -/
theorem Matches.toggle_iff (agrees : Matches s) :
    Matches s.toggle ↔ s.Blank := by
  cases visible : s.fCursorVisible with
  | false =>
    have shown : s.toggle.fCursorVisible = true := congrArg Bool.not visible
    constructor
    · intro toggled
      obtain ⟨handle, accepted, zero⟩ := toggled.visible shown
      have accepted : s.accepted = some handle := accepted
      -- while it was hidden, no surface was accepted but possibly 0
      rcases agrees.hidden visible with nothing | nothing
      · exact nomatch accepted.symm.trans nothing
      · exact ⟨nothing, zero (Option.some.inj (accepted.symm.trans nothing))⟩
    · intro blank
      refine ⟨fun _ => ⟨0, blank.1, fun _ => blank.2⟩, fun hidden => ?_⟩
      exact absurd (hidden.symm.trans shown) Bool.false_ne_true
  | true =>
    have hidden : s.toggle.fCursorVisible = false := congrArg Bool.not visible
    obtain ⟨handle, accepted, zero⟩ := agrees.visible visible
    constructor
    · intro toggled
      -- while it was visible, some surface was accepted, so it must be 0
      rcases toggled.hidden hidden with nothing | nothing
      · exact nomatch accepted.symm.trans nothing
      · exact ⟨nothing, zero (Option.some.inj (accepted.symm.trans nothing))⟩
    · intro blank
      refine ⟨fun shown => ?_, fun _ => Or.inr blank.1⟩
      exact absurd (hidden.symm.trans shown) Bool.false_ne_true

/-- A new bitmap that is refused agrees only if the cursor is hidden or another one is shown. -/
theorem Replaced.matches_iff (replaced : Replaced s t) (kept : Kept s) (agrees : Matches s) :
    Matches t ↔ (s.fCursorVisible = true → s.fCursor.isSet = true) := by
  constructor
  · intro after visible
    obtain ⟨handle, accepted, zero⟩ := after.visible (replaced.fCursorVisible.trans visible)
    -- with 0 accepted, `fNewCursor` would have to be unset
    by_cases nothing : handle = 0
    · exact absurd ((zero nothing).2.symm.trans replaced.fNewCursor) Bool.false_ne_true
    · obtain ⟨own, -⟩ := kept.accepted handle (replaced.accepted.symm.trans accepted) nothing
      exact isSet_of_ne (own ▸ nothing)
  · intro shows
    refine ⟨fun visible => ?_, fun hidden => ?_⟩
    · rw [replaced.fCursorVisible] at visible
      obtain ⟨handle, accepted, zero⟩ := agrees.visible visible
      refine ⟨handle, replaced.accepted.trans accepted, fun nothing => ?_⟩
      exact absurd ((zero nothing).1.symm.trans (shows visible)) Bool.false_ne_true
    · rw [replaced.fCursorVisible] at hidden
      rw [replaced.accepted]
      exact agrees.hidden hidden

/-- The surfaces are kept and the position does not matter. -/
theorem kept_moved (moved : Option (BitVec 16 × BitVec 16)) (kept : Kept s) :
    Kept { s with moved := moved } :=
  ⟨kept.accepted, kept.fCursor, kept.fNewCursor, kept.distinct⟩

theorem Matches.moved (moved : Option (BitVec 16 × BitVec 16)) (agrees : Matches s) :
    Matches { s with moved := moved } :=
  ⟨agrees.visible, agrees.hidden⟩

/-- One call: the surfaces are kept, and flag and KMS agree afterwards just if the call meets
the condition. -/
theorem next_spec (kept : Kept s) (taken : s.next call = some t) :
    Kept t ∧ (Matches s → (Matches t ↔ s.Meets call)) := by
  cases call with
  | moveCursor x y move =>
    obtain ⟨moved, ends⟩ :=
      updatePos_spec { s with fCursorPos := ⟨x.setWidth 32, y.setWidth 32⟩ } move
    obtain rfl := Option.some.inj taken
    rw [State.moveCursor, ends]
    exact ⟨⟨kept.accepted, kept.fCursor, kept.fNewCursor, kept.distinct⟩, fun agrees =>
      iff_of_true ⟨agrees.visible, agrees.hidden⟩ trivial⟩
  | showCursor isVisible setImage =>
    obtain rfl := Option.some.inj taken
    rcases showCursor_cases s isVisible setImage with
      ⟨same, ends⟩ | ⟨changes, refused, ends⟩ | ⟨changes, granted, ends⟩
    · rw [ends]
      exact ⟨kept, fun agrees => iff_of_true agrees fun changes => absurd same changes⟩
    · rw [ends]
      -- `fCursorVisible` is not restored when `UpdateCursor` throws
      refine ⟨kept.toggle, fun agrees => agrees.toggle_iff.trans ?_⟩
      simp [State.Meets, changes, refused]
    · rw [ends]
      exact ⟨kept.toggle.shown.kept, fun _ =>
        iff_of_true kept.toggle.shown.matches fun _ => Or.inl granted⟩
  | setCursorBitmap width height hotX hotY colorSpace replies =>
    obtain ⟨sound, rfl⟩ := of_guarded taken
    rcases setCursorBitmap_cases width height hotX hotY colorSpace kept sound with
      ⟨fails, ends⟩ | ⟨creates, set, replaced, ends⟩
    · rw [ends]
      exact ⟨kept, fun agrees => iff_of_true agrees fun _ creates =>
        absurd (fails.symm.trans creates) Bool.false_ne_true⟩
    · rw [ends]
      cases visible : s.fCursorVisible with
      | false =>
        refine ⟨replaced.kept, fun agrees => (replaced.matches_iff kept agrees).trans ?_⟩
        simp [State.Meets, visible]
      | true =>
        rw [if_pos rfl]
        rcases updateImageAndPos_spec set replies.setImage replies.move with
          ⟨refused, same⟩ | ⟨granted, moved, shown⟩
        · -- the new bitmap stays in `fNewCursor` when `UpdateCursor` throws
          rw [same]
          refine ⟨replaced.kept, fun agrees => (replaced.matches_iff kept agrees).trans ?_⟩
          simp [State.Meets, visible, creates, refused]
        · rw [shown]
          exact ⟨kept_moved moved replaced.kept.shown.kept, fun _ =>
            iff_of_true (replaced.kept.shown.matches.moved moved) fun _ _ => Or.inl granted⟩

theorem State.Idle.kept (idle : s.Idle) : Kept s := by
  obtain ⟨cursor, newCursor, -, accepted⟩ := idle
  refine ⟨?_, ?_, ?_, ?_⟩ <;>
    simp [Registered, cursor, newCursor, accepted, NvKmsBitmap.isSet, NvKmsSurface.isSet]

theorem State.Idle.matches (idle : s.Idle) : Matches s :=
  ⟨fun visible => absurd (idle.fCursorVisible.symm.trans visible) Bool.false_ne_true, fun _ =>
    Or.inl idle.accepted⟩

/-- Whatever fails, the accepted surface is never taken away from KMS. -/
theorem accepted_registered (reached : calls.Reachable s) {handle : SurfaceHandle}
    (accepted : s.accepted = some handle) (nonzero : handle ≠ 0) :
    handle ∈ s.kms.registered ∧ s.unregistered = false := by
  have kept : Kept s := reached.invariant (fun _ idle => idle.kept)
    fun _ _ _ kept taken => (next_spec kept taken).1
  exact ⟨kept.registered accepted nonzero, (kept.accepted handle accepted nonzero).2⟩

/-- The cursor over whole runs: KMS shows what the flag and the bitmaps say after every call,
just when every call meets the condition. -/
theorem cursorAgrees_iff (run : calls.Run past s) :
    Every (fun e => Agrees e.target) past ↔ Every (fun e => e.source.Meets e.action) past := by
  refine run.every_iff (P := fun s => Kept s ∧ Matches s)
    (fun _ idle => ⟨idle.kept, idle.matches⟩) ?_ ?_
  · rintro s call t ⟨kept, agrees⟩ taken meets
    obtain ⟨after, iff⟩ := next_spec kept taken
    have agrees := (iff agrees).mpr meets
    exact ⟨⟨after, agrees⟩, after.agrees_iff.mpr agrees⟩
  · rintro s call t ⟨kept, agrees⟩ taken fails after
    obtain ⟨kept', iff⟩ := next_spec kept taken
    exact fails ((iff agrees).mp (kept'.agrees_iff.mp after))

/-- An image of 24 by 16 pixels, with the surface that KMS gives out for it. -/
def arrow (handle : SurfaceHandle) (setImage : Reply Unit) : Call :=
  .setCursorBitmap 24 16 1 1 B_RGBA32
    { kmsDev := 0x1000
      create := ⟨.ok ⟨0x2000, handle⟩, .ok (), .ok handle,
        .ok { fRm := 0x2000, fHDevice := 1, fHMemory := handle, fAddress := 0x3000 }⟩
      setImage := setImage
      move := .ok () }

theorem idle_start : calls.start { fCursorPos := ⟨0, 0⟩ } := ⟨rfl, rfl, rfl, rfl⟩

/-- The second image is refused while the first one is shown. It replaces the first one when
the cursor is hidden. -/
theorem cursorAgrees_refused : ∃ past s, calls.Run past s ∧ s.kms.registered = {2} ∧
    Every (fun e => Agrees e.target) past := by
  have run := (Run.start idle_start).play
    [arrow 1 (.ok ()), .showCursor true (.ok ()), .moveCursor 5 5 (.error EINVAL),
      arrow 2 (.error EINVAL), .showCursor false (.ok ())] rfl
  exact ⟨_, _, run, by decide, (cursorAgrees_iff run).mpr (by decide)⟩

/-- The image is refused when the cursor is to be shown, which counts as visible from then
on. -/
theorem not_cursorAgrees_refused : ∃ past s, calls.Run past s ∧ s.fCursorVisible = true ∧
    s.accepted = none ∧ ¬ Every (fun e => Agrees e.target) past := by
  have run := (Run.start idle_start).play
    [arrow 1 (.ok ()), .showCursor true (.error EINVAL)] rfl
  refine ⟨_, _, run, rfl, rfl, fun every => ?_⟩
  obtain ⟨handle, accepted, -⟩ := (every _ (.head _)).visible rfl
  exact nomatch accepted

end Cursor

end NvidiaHaiku.Accelerant

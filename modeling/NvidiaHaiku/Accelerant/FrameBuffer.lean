/-
# Where clients draw

`GetFrameBufferConfig` tells the clients of the accelerant where to draw and how long a row is,
and `GetDisplayMode` what is displayed. KMS scans out the surface that was committed last. The
three agree when all of them go back to one call of `SetDisplayMode`, the last one that
returned.
-/

import NvidiaHaiku.Accelerant.BitmapCreate
import NvidiaHaiku.Accelerant.Cursor
import NvidiaHaiku.Accelerant.Modes

namespace NvidiaHaiku.Accelerant

open NvidiaHaiku.Math NvidiaHaiku.Sdk TransitionSystem

/-- `frame_buffer_config`. -/
structure FrameBufferConfig where
  frame_buffer : Address
  frame_buffer_dma : Address
  bytes_per_row : BitVec 32
  deriving DecidableEq, Repr

/-- `GetFrameBufferConfig`. -/
def State.getFrameBufferConfig (s : State) : Reply FrameBufferConfig :=
  if s.fFramebuffer.isSet then
    .ok
      { frame_buffer := s.fFramebuffer.fMapping.fAddress
        frame_buffer_dma := 0
        bytes_per_row := s.fFramebuffer.fBytesPerRow }
  else .error ENOENT

/-- The call of the event returned. -/
def Sets (e : Event State Call) : Bool :=
  e.source.setDisplayMode e.action.mode e.action.replies matches some (.ok (), _)

/-- The last call that returned. -/
def lastSet (past : List (Event State Call)) : Option Call := (past.find? Sets).map (·.action)

/-- What is displayed and where clients draw is what the call has made. -/
structure Shows (call : Call) (s : State) : Prop where
  mode : toNvKmsMode call.mode = some s.fCurrentMode
  /-- The surface that is scanned out and the memory that clients draw to belong to the bitmap
  made by the call. -/
  bitmap : ∃ handle mapping, call.replies.create.registerSurface = .ok handle ∧
    call.replies.create.mapMemory = .ok mapping ∧
    s.kms.committed = some handle ∧ handle ∈ s.kms.registered ∧
    s.getFrameBufferConfig = .ok
      { frame_buffer := mapping.fAddress
        frame_buffer_dma := 0
        bytes_per_row := bitmapBytesPerRow (call.mode.virtual_width.setWidth 32) }

/-- Nothing is displayed, and clients are told so. -/
structure Blank (s : State) : Prop where
  committed : s.kms.committed = none
  config : s.getFrameBufferConfig = .error ENOENT

/-- The display shows what the last call made that returned. -/
def ShowsLast (past : List (Event State Call)) (s : State) : Prop :=
  match lastSet past with
  | none => Blank s
  | some call => Shows call s

variable {s t : State} {call : Call} {mode : DisplayMode} {replies : Replies}
  {past : List (Event State Call)} {bitmap : NvKmsBitmap}

theorem Move.eq_of_assign {m n : Move} {replies : ReleaseReplies}
    (assigned : m.assign replies = (.ok (), n)) :
    n = m.moveMapping.moveSurface.moveMemory.moveSizes := by
  unfold Move.assign at assigned
  split at assigned
  · cases assigned
  · split at assigned
    · cases assigned
    · split at assigned
      · cases assigned
      · exact (Prod.mk.inj assigned).2.symm

/-- What an installation leaves that returns. -/
theorem fFramebuffer_of_install (installed : s.install bitmap replies = (.ok (), t)) :
    t.fFramebuffer.fSurface = bitmap.fSurface ∧
      t.fFramebuffer.fMapping.fAddress = bitmap.fMapping.fAddress ∧
      t.fFramebuffer.fBytesPerRow = bitmap.fBytesPerRow ∧ t.kms.committed = s.kms.committed := by
  unfold State.install at installed
  split at installed
  · cases installed
  · rename_i m first
    generalize ran : Move.assign ⟨m.other, bitmap, m.kms⟩ replies.current = second at installed
    obtain ⟨result, n⟩ := second
    obtain ⟨rfl, rfl⟩ := Prod.mk.inj installed
    obtain rfl := Move.eq_of_assign ran
    obtain rfl := Move.eq_of_assign first
    refine ⟨rfl, rfl, rfl, ?_⟩
    simp [Move.moveMapping, Move.moveSurface, Move.moveMemory, Move.moveSizes]

/-- A call that returns has made and installed a bitmap. -/
theorem exists_bitmap (returned : s.setDisplayMode mode replies = some (.ok (), t)) :
    ∃ handle mapping, replies.create.registerSurface = .ok handle ∧
      replies.create.mapMemory = .ok mapping ∧ t.kms.committed = some handle ∧
      t.fFramebuffer.fSurface.fHandle = handle ∧
      t.fFramebuffer.fMapping.fAddress = mapping.fAddress ∧
      t.fFramebuffer.fBytesPerRow = bitmapBytesPerRow (mode.virtual_width.setWidth 32) := by
  unfold State.setDisplayMode at returned
  split at returned
  · simp at returned
  · obtain ⟨nvKmsMode, -, returned⟩ := Option.map_eq_some_iff.mp returned
    split at returned
    · simp at returned
    · simp at returned
    · split at returned
      · simp at returned
      · rename_i created
        split at returned
        · simp at returned
        · obtain ⟨-, memory, handle, mapping, -, registered, mapped, rfl⟩ :=
            NvKmsBitmap.eq_of_create (congrArg Prod.fst created)
          obtain ⟨surface, address, pitch, committed⟩ := fFramebuffer_of_install returned
          exact ⟨handle, mapping, registered, mapped, committed, congrArg _ surface, address, pitch⟩

theorem Shows.of_returned (tidy : Tidy t)
    (returned : s.setDisplayMode call.mode call.replies = some (.ok (), t))
    (sound : call.replies.create.Sound s.kms) : Shows call t := by
  obtain ⟨handle, mapping, registered, mapped, committed, surface, address, pitch⟩ :=
    exists_bitmap returned
  obtain ⟨same, present⟩ := tidy.owned handle committed
  refine ⟨(fCurrentMode_of_setDisplayMode returned).2, handle, mapping, registered, mapped,
    committed, present, ?_⟩
  have nonzero : handle ≠ 0 := by
    rw [CreateReplies.Sound, registered] at sound
    exact sound.1
  have set : t.fFramebuffer.isSet = true := decide_eq_true (surface.symm ▸ nonzero)
  rw [State.getFrameBufferConfig, if_pos set, address, pitch]

theorem Tidy.showsLast (tidy : Tidy s) (shows : ShowsLast past s) (taken : s.next call = some t)
    (releases : ReleasesOld ⟨s, call, t⟩) : ShowsLast (⟨s, call, t⟩ :: past) t := by
  obtain ⟨sound, result, ran⟩ := next_eq_some taken
  have tidy' := (tidy.next taken releases).1
  cases result with
  | ok =>
    have sets : Sets ⟨s, call, t⟩ = true := by simp [Sets, ran]
    simp only [ShowsLast, lastSet, List.find?_cons_of_pos sets, Option.map_some]
    exact .of_returned tidy' ran sound
  | error e =>
    -- a call that throws changes nothing
    have skipped : ¬ Sets ⟨s, call, t⟩ = true := by simp [Sets, ran]
    have same : t = s := by
      rcases setDisplayMode_cases sound ran with ⟨-, -, same⟩ | ⟨commits, _, _, -, -, installed⟩
      · exact same
      · cases (install_of_releases installed (releases commits)).1
    subst same
    simpa only [ShowsLast, lastSet, List.find?_cons_of_neg skipped] using shows

/-- In every run in which old framebuffers can be released, the display shows what the last
call of `SetDisplayMode` made that returned, and `GetFrameBufferConfig` and `GetDisplayMode`
tell of it. -/
theorem showsLast_of_run (run : calls.Run past s) (every : Every ReleasesOld past) :
    ShowsLast past s := by
  have both : Tidy s ∧ ShowsLast past s := by
    induction run with
    | start idle =>
      refine ⟨State.Idle.tidy idle, ⟨idle.2.2, ?_⟩⟩
      simp [State.getFrameBufferConfig, NvKmsBitmap.isSet, NvKmsSurface.isSet, idle.2.1]
    | step _ taken ih =>
      rw [every_cons] at every
      obtain ⟨tidy, shows⟩ := ih every.2
      exact ⟨(tidy.next taken every.1).1, tidy.showsLast shows taken every.1⟩
  exact both.2

/-- A mode is set, and setting another one fails. -/
theorem showsLast_kept : ∃ past s, calls.Run past s ∧ past.length = 2 ∧ Shows (vga 1) s := by
  have run := (Run.start idle_default).play
    [vga 1, { vga 2 with mode := { (vga 2).mode with h_display_start := 1 } }] rfl
  exact ⟨_, _, run, rfl, showsLast_of_run run (by decide)⟩

end NvidiaHaiku.Accelerant

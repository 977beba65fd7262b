/-
# Closing a device handle

`Close` of a device handle gives up the reference to the device, which stops the
device if it was the last one, and sets `fClosed` after that. `Control` tests
`fClosed` when it is entered, and calls `rm_ioctl` when it has copied its argument.
So a call of `Control` that has passed its test, or that passes it before `fClosed`
is set, enters the RM for a device that is being stopped.

The handle here holds the last reference, and any number of threads are in
`Control` of the handle while one closes it.
-/

import Mathlib.Logic.Function.Basic
import NvidiaHaiku.Math.Transition

namespace NvidiaHaiku.Device.Closing

open NvidiaHaiku.Math TransitionSystem

/-- The codes that `Control` takes from the headers of Haiku and the RM. -/
structure Codes where
  /-- `B_GET_ACCELERANT_SIGNATURE`. -/
  getAccelerantSignature : BitVec 32
  /-- `B_DEVICE_OP_CODES_END`. -/
  deviceOpCodesEnd : BitVec 32
  /-- `NV_ESC_CARD_INFO`. -/
  escCardInfo : BitVec 32

/-- `NV_HAIKU_BASE`. -/
def Codes.haikuBase (codes : Codes) : BitVec 32 := codes.deviceOpCodesEnd + 1

/-- `NV_HAIKU_GET_COOKIE` and `NV_HAIKU_MAP`. -/
def NV_HAIKU_GET_COOKIE : BitVec 32 := 0
def NV_HAIKU_MAP : BitVec 32 := 1

/-- `Control` does not serve the code itself, but passes it to `rm_ioctl`. -/
def Codes.forRm (codes : Codes) (op : BitVec 32) : Bool :=
  if op = codes.getAccelerantSignature then false
  else if op < codes.haikuBase then false
  else
    let cmd := op - codes.haikuBase
    !(cmd = NV_HAIKU_GET_COOKIE || cmd = NV_HAIKU_MAP || cmd = codes.escCardInfo)

/-- Where a thread is in `Control`. -/
inductive ControlPc
  | outside
  /-- About to test `fClosed`. -/
  | entered (op : BitVec 32)
  /-- Past the test. -/
  | tested (op : BitVec 32)
  /-- About to copy the argument. -/
  | copying
  /-- About to call `rm_ioctl`. -/
  | copied
  /-- Inside `rm_ioctl`. -/
  | calling
  deriving DecidableEq, Repr

/-- Where the thread is that closes the handle. -/
inductive ClosePc
  /-- About to call `ReleaseRef`. -/
  | opened
  /-- `ReleaseRef` has taken the last reference, and is about to call `Stop`. -/
  | released
  | stopping
  /-- About to set `fClosed`. -/
  | closing
  | closed
  deriving DecidableEq, Repr

/-- A handle with the last reference on its device, the thread that closes it and the threads
that may be in `Control`. -/
structure State (κ : Type*) where
  /-- The `int32` of the atomic counter. -/
  fOpenCount : BitVec 32 := 1
  fClosed : Bool := false
  close : ClosePc := .opened
  /-- `Stop` has begun. -/
  stopped : Bool := false
  threads : κ → ControlPc := fun _ => .outside

/-- A step of a thread in `Control`, or of the thread in `Close`. -/
inductive Action (κ : Type*)
  | control (t : κ) (op : BitVec 32)
  | test (t : κ)
  | dispatch (t : κ)
  /-- The argument is copied, if there is memory for it and it can be read. -/
  | copy (t : κ) (succeeds : Bool)
  /-- `rm_ioctl` begins. -/
  | ioctl (t : κ)
  /-- `rm_ioctl` ends, and `Control` with it. -/
  | finish (t : κ)
  | releaseRef
  | beginStop
  | endStop
  /-- `fClosed` is set. -/
  | store
  deriving DecidableEq, Repr

variable {κ : Type*} [DecidableEq κ]

namespace State

/-- Thread `t` goes on to `pc`. -/
def goto (s : State κ) (t : κ) (pc : ControlPc) : State κ :=
  { s with threads := Function.update s.threads t pc }

/-- One step. `Close` calls `ReleaseRef`, and sets `fClosed` after that; `Control` tests it once. -/
def step (codes : Codes) (s : State κ) : Action κ → Option (State κ)
  | .control t op => if s.threads t = .outside then some (s.goto t (.entered op)) else none
  | .test t =>
    match s.threads t with
    | .entered op => some (s.goto t (if s.fClosed then .outside else .tested op))
    | _ => none
  | .dispatch t =>
    match s.threads t with
    -- the codes that `Control` serves itself do not lead to `rm_ioctl`
    | .tested op => some (s.goto t (if codes.forRm op then .copying else .outside))
    | _ => none
  | .copy t succeeds =>
    if s.threads t = .copying then some (s.goto t (if succeeds then .copied else .outside))
    else none
  | .ioctl t => if s.threads t = .copied then some (s.goto t .calling) else none
  | .finish t => if s.threads t = .calling then some (s.goto t .outside) else none
  | .releaseRef =>
    if s.close = .opened then
      some { s with
        fOpenCount := s.fOpenCount - 1
        close := if s.fOpenCount = 1 then .released else .closing }
    else none
  | .beginStop =>
    if s.close = .released then some { s with close := .stopping, stopped := true } else none
  | .endStop => if s.close = .stopping then some { s with close := .closing } else none
  | .store => if s.close = .closing then some { s with close := .closed, fClosed := true } else none

end State

/-- A handle that holds the last reference, with a thread that closes it and threads `κ`
in `Control`. -/
def closing (codes : Codes) (κ : Type*) [DecidableEq κ] : TransitionSystem (State κ) (Action κ) :=
  .ofStep (· = {}) (State.step codes)

/-- Once `Stop` has begun, the event does not begin a `rm_ioctl`. -/
def NoIoctlWhenStopped (e : Event (State κ) (Action κ)) : Prop :=
  e.source.stopped = true → ∀ t, e.action ≠ .ioctl t

/-- `Control` has passed its test and may get to `rm_ioctl`. -/
def ControlPc.bound (codes : Codes) : ControlPc → Bool
  | tested op => codes.forRm op
  | copying | copied => true
  | outside | entered _ | calling => false

/-- `Stop` only begins while no call of `Control` is on its way to `rm_ioctl`, and from then
on no call with a code for the RM passes its test before `fClosed` is set. -/
def Ordered (codes : Codes) (e : Event (State κ) (Action κ)) : Prop :=
  (e.action = .beginStop → ∀ t, (e.source.threads t).bound codes = false) ∧
    ∀ t op, e.action = .test t → e.source.threads t = .entered op → codes.forRm op = true →
      e.source.stopped = true → e.source.fClosed = true

variable {codes : Codes} {s s' : State κ} {a : Action κ} {t : κ}

/-- Once `Stop` has begun, no call of `Control` is on its way to `rm_ioctl`. -/
def Drained (codes : Codes) (s : State κ) : Prop :=
  s.stopped = true → ∀ t, (s.threads t).bound codes = false

theorem Drained.goto (drained : Drained codes s) {pc : ControlPc}
    (free : s.stopped = true → pc.bound codes = false) : Drained codes (s.goto t pc) := by
  intro stopped t'
  by_cases same : t' = t
  · subst same
    simpa [State.goto] using free stopped
  · simpa [State.goto, same] using drained stopped t'

theorem Drained.step (drained : Drained codes s) (taken : s.step codes a = some s')
    (ordered : Ordered codes ⟨s, a, s'⟩) : Drained codes s' := by
  cases a with
  | control t op | finish t =>
    obtain ⟨-, rfl⟩ := of_guarded taken
    exact drained.goto fun _ => rfl
  | test t =>
    simp only [State.step] at taken
    split at taken
    · rename_i op at_
      obtain rfl := Option.some.inj taken
      apply drained.goto
      intro stopped
      cases rm : codes.forRm op with
      | true =>
        -- the test comes after the store, and finds `fClosed` set
        have set : s.fClosed = true := ordered.2 t op rfl at_ rm stopped
        simp [set, ControlPc.bound]
      | false =>
        split
        · rfl
        · exact rm
    · exact nomatch taken
  | dispatch t =>
    simp only [State.step] at taken
    split at taken
    · rename_i op at_
      obtain rfl := Option.some.inj taken
      apply drained.goto
      intro stopped
      have free : codes.forRm op = false := by
        simpa [at_, ControlPc.bound] using drained stopped t
      rw [free]
      rfl
    · exact nomatch taken
  | copy t succeeds =>
    obtain ⟨at_, rfl⟩ := of_guarded taken
    refine drained.goto fun stopped => absurd (drained stopped t) ?_
    simp [at_, ControlPc.bound]
  | ioctl t =>
    obtain ⟨at_, rfl⟩ := of_guarded taken
    exact drained.goto fun _ => rfl
  | releaseRef | endStop | store =>
    obtain ⟨-, rfl⟩ := of_guarded taken
    exact drained
  | beginStop =>
    obtain ⟨-, rfl⟩ := of_guarded taken
    exact fun _ => ordered.1 rfl

theorem Drained.noIoctl (drained : Drained codes s) (taken : s.step codes a = some s') :
    NoIoctlWhenStopped ⟨s, a, s'⟩ := by
  rintro stopped t rfl
  obtain ⟨at_, -⟩ := Option.ite_none_right_eq_some.mp taken
  exact absurd (drained stopped t) (by simp [show s.threads t = .copied from at_, ControlPc.bound])

/-! ## The condition is needed -/

omit [DecidableEq κ] in
/-- A call that has passed its test goes on in order. -/
theorem ordered_of_other (begins : a ≠ .beginStop) (tests : ∀ t, a ≠ .test t) :
    Ordered codes ⟨s, a, s'⟩ :=
  ⟨fun same => absurd same begins, fun t _ same => absurd same (tests t)⟩

theorem canBreak_of_copied (stopped : s.stopped = true) (at_ : s.threads t = .copied) :
    (closing codes κ).CanBreak (Ordered codes) NoIoctlWhenStopped s := by
  have taken : (closing codes κ).step s (.ioctl t) (s.goto t .calling) := if_pos at_
  exact .now taken (ordered_of_other (by simp) (by simp)) fun meets => meets stopped t rfl

theorem canBreak_of_copying (stopped : s.stopped = true) (at_ : s.threads t = .copying) :
    (closing codes κ).CanBreak (Ordered codes) NoIoctlWhenStopped s := by
  have taken : (closing codes κ).step s (.copy t true) (s.goto t .copied) := if_pos at_
  apply CanBreak.of_step taken (ordered_of_other (by simp) (by simp))
  exact canBreak_of_copied (t := t) stopped (by simp [State.goto])

/-- A call that is on its way when `Stop` has begun gets to `rm_ioctl`. -/
theorem canBreak_of_bound (stopped : s.stopped = true)
    (bound : (s.threads t).bound codes = true) :
    (closing codes κ).CanBreak (Ordered codes) NoIoctlWhenStopped s := by
  cases at_ : s.threads t with
  | tested op =>
    have rm : codes.forRm op = true := by simpa [at_, ControlPc.bound] using bound
    have taken : (closing codes κ).step s (.dispatch t) (s.goto t .copying) := by
      show State.step codes s (.dispatch t) = _
      simp only [State.step, at_, rm, if_true]
    apply CanBreak.of_step taken (ordered_of_other (by simp) (by simp))
    exact canBreak_of_copying (t := t) stopped (by simp [State.goto])
  | copying => exact canBreak_of_copying stopped at_
  | copied => exact canBreak_of_copied stopped at_
  | outside | entered | calling => simp [at_, ControlPc.bound] at bound

/-- Closing over whole runs, for any number of threads in `Control`. No `rm_ioctl` begins
after `Stop` has begun as long as the steps are ordered, and after the first step that is
not such a `rm_ioctl` can follow with all further steps ordered. -/
theorem noIoctl_exactlyWhen_ordered (codes : Codes) (κ : Type*) [DecidableEq κ] :
    (closing codes κ).SafeExactlyWhen (Ordered codes) NoIoctlWhenStopped := by
  apply SafeExactlyWhen.of_invariant (P := Drained codes)
  · intro s first stopped
    rw [show s = {} from first] at stopped
    exact nomatch stopped
  · intro s a s' drained taken ordered
    exact ⟨drained.step taken ordered, drained.noIoctl taken⟩
  · intro s a s' drained taken fails
    -- the step leaves a call on its way to `rm_ioctl` with `Stop` begun
    suffices on_its_way : s'.stopped = true ∧ ∃ t, (s'.threads t).bound codes = true by
      obtain ⟨stopped, t, bound⟩ := on_its_way
      exact Or.inr (canBreak_of_bound stopped bound)
    rcases not_and_or.mp fails with begins | passes
    · simp only [Classical.not_imp, not_forall, Bool.not_eq_false] at begins
      obtain ⟨rfl, t, bound⟩ := begins
      obtain ⟨-, rfl⟩ := of_guarded taken
      exact ⟨rfl, t, bound⟩
    · simp only [Classical.not_imp, not_forall, Bool.not_eq_true] at passes
      obtain ⟨t, op, rfl, at_, rm, stopped, unset⟩ := passes
      have moved : s' = s.goto t (.tested op) := by
        have taken : State.step codes s (.test t) = some s' := taken
        simp only [State.step, show s.threads t = .entered op from at_,
          show s.fClosed = false from unset] at taken
        exact (Option.some.inj taken).symm
      subst moved
      exact ⟨stopped, t, by simpa [State.goto, ControlPc.bound] using rm⟩

/-- A thread passes the test of `Control`, another one closes the handle, and then the first
one calls `rm_ioctl`. -/
theorem ioctl_when_stopped : ∃ past s, (closing ⟨8000, 9999, 200⟩ Unit).Run past s ∧
    s.close = .closed ∧ ¬ Every NoIoctlWhenStopped past := by
  have run := (Run.start (T := closing ⟨8000, 9999, 200⟩ Unit) rfl).play
    [.control () 10042, .test (), .releaseRef, .beginStop, .endStop, .store,
      .dispatch (), .copy () true, .ioctl ()] rfl
  exact ⟨_, _, run, rfl, fun every => (every _ (.head _)) rfl () rfl⟩

end NvidiaHaiku.Device.Closing

/-
# Calls of the resource manager

A command that the driver does not know goes to `rm_ioctl`, with a copy of the parameters that
the caller has in its memory, and the copy is written back when the RM has succeeded. Threads
of a team call at the same time, on handles that may be closed meanwhile, and their parameters
are copied byte after byte while others use the memory.

As long as nobody touches the parameters of a call before it returns, the copies cannot be
told from a direct access: what the team sees is what it would see if the RM worked on the
parameters in place, in one step.
-/

import NvidiaHaiku.BaseDevice.CardInfo
import NvidiaHaiku.Math.Simulation

namespace NvidiaHaiku.BaseDevice

open NvidiaHaiku.Math NvidiaHaiku.Libc NvidiaHaiku.Libc.UserMemory TransitionSystem

def B_NO_MEMORY : ℤ := -0x80000000

variable {θ ι ρ : Type*}

/-! ## The resource manager -/

/-- What is left by a call of `rm_ioctl`. -/
structure RmReply (ρ : Type*) where
  /-- It has returned `NV_OK`. -/
  ok : Bool
  kernelData : List (BitVec 8)
  rm : ρ
  memory : UserMemory

/-- The RM as the driver calls it. -/
structure Rm (ι ρ : Type*) where
  rmIoctl : (handle : ι) → (cmd : BitVec 32) → (kernelData : List (BitVec 8)) → ρ →
    UserMemory → RmReply ρ
  /-- The addresses that it passes to `os_memcpy_from_user` and `os_memcpy_to_user`. -/
  Touches : ι → BitVec 32 → List (BitVec 8) → ρ → ℕ → Prop
  length_kernelData : ∀ i cmd bytes rm memory,
    (rmIoctl i cmd bytes rm memory).kernelData.length = bytes.length
  frame : ∀ i cmd bytes rm memory x, ¬ Touches i cmd bytes rm x →
    (rmIoctl i cmd bytes rm memory).memory x = memory x
  /-- It depends on the memory that it touches, and on no other. -/
  local' : ∀ i cmd bytes rm memory left, (∀ x, Touches i cmd bytes rm x → left x = memory x) →
    (rmIoctl i cmd bytes rm left).ok = (rmIoctl i cmd bytes rm memory).ok ∧
      (rmIoctl i cmd bytes rm left).kernelData = (rmIoctl i cmd bytes rm memory).kernelData ∧
      (rmIoctl i cmd bytes rm left).rm = (rmIoctl i cmd bytes rm memory).rm ∧
      ∀ x, Touches i cmd bytes rm x →
        (rmIoctl i cmd bytes rm left).memory x = (rmIoctl i cmd bytes rm memory).memory x

/-- The arguments of `Control`. -/
structure RmCall (ι : Type*) where
  handle : ι
  cmd : BitVec 32
  data : ℕ
  len : ℕ

/-- The parameters of the call are at the address. -/
def RmCall.Uses (call : RmCall ι) (x : ℕ) : Prop := call.data ≤ x ∧ x < call.data + call.len

/-- `Control`, from the copy of the parameters on, if nothing happens meanwhile. -/
def Rm.control (R : Rm ι ρ) (call : RmCall ι) (rm : ρ) (memory : UserMemory) :
    ℤ × ρ × UserMemory :=
  match copyIn memory call.data call.len with
  | none => (B_BAD_ADDRESS, rm, memory)
  | some kernelData =>
    let reply := R.rmIoctl call.handle call.cmd kernelData rm memory
    if !reply.ok then (EINVAL, reply.rm, reply.memory)
    else
      match copyOut reply.memory call.data reply.kernelData with
      | (false, memory) => (B_BAD_ADDRESS, reply.rm, memory)
      | (true, memory) => (0, reply.rm, memory)

theorem Rm.control_of_copyIn {R : Rm ι ρ} {call : RmCall ι} {memory : UserMemory}
    {kernelData : List (BitVec 8)} (rm : ρ)
    (copied : UserMemory.copyIn memory call.data call.len = some kernelData) :
    let reply := R.rmIoctl call.handle call.cmd kernelData rm memory
    R.control call rm memory =
      if !reply.ok then (EINVAL, reply.rm, reply.memory)
      else
        let copy := UserMemory.copyOut reply.memory call.data reply.kernelData
        (if copy.1 then 0 else B_BAD_ADDRESS, reply.rm, copy.2) := by
  intro reply
  rw [Rm.control, copied]
  dsimp only
  split
  · rfl
  · split <;> simp_all [reply]

/-! ## The driver -/

/-- Where a thread is in `Control`. -/
inductive RmStage (ι : Type*)
  | idle
  | enters (call : RmCall ι)
  /-- `left` bytes are to be copied after those that it has. -/
  | copiesIn (call : RmCall ι) (kernelData : List (BitVec 8)) (left : ℕ)
  | calls (call : RmCall ι) (kernelData : List (BitVec 8))
  /-- `rest` is to be copied to `place`. -/
  | copiesOut (call : RmCall ι) (place : ℕ) (rest : List (BitVec 8))
  | returns (res : ℤ)

/-- The teams' memory, the RM, the handles and the threads. -/
structure RmState (θ ι ρ : Type*) where
  memory : UserMemory
  rm : ρ
  /-- `fClosed`. -/
  closed : ι → Bool
  threads : θ → RmStage ι

/-- What a thread does in `Control`, and what happens around it. -/
inductive RmAction (θ ι : Type*)
  | ioctl (t : θ) (call : RmCall ι)
  /-- The test of `fClosed`, and the allocation of `kernelData`. -/
  | enter (t : θ) (allocated : Bool)
  | copyIn (t : θ)
  | rmIoctl (t : θ)
  | copyOut (t : θ)
  | returned (t : θ) (res : ℤ)
  /-- The team writes, maps or unmaps. -/
  | change (x : ℕ) (byte : Option UserByte)
  | read (x : ℕ) (byte : Option UserByte)
  /-- `Close`. -/
  | close (handle : ι)

variable [DecidableEq θ] [DecidableEq ι]

namespace RmState

omit [DecidableEq ι] in
/-- A thread gets on. -/
def advance (s : RmState θ ι ρ) (t : θ) (stage : RmStage ι) : RmState θ ι ρ :=
  { s with threads := Function.update s.threads t stage }

/-- A thread takes the step that it is at, or something happens around the threads. -/
def step (R : Rm ι ρ) (s : RmState θ ι ρ) : RmAction θ ι → Option (RmState θ ι ρ)
  | .ioctl t call =>
    match s.threads t with
    | .idle => some (s.advance t (.enters call))
    | _ => none
  | .enter t allocated =>
    match s.threads t with
    | .enters call =>
      if s.closed call.handle then some (s.advance t (.returns EINVAL))
      -- a buffer of up to 32 bytes is on the stack
      else if 32 < call.len ∧ allocated = false then some (s.advance t (.returns B_NO_MEMORY))
      else some (s.advance t (.copiesIn call [] call.len))
    | _ => none
  | .copyIn t =>
    match s.threads t with
    | .copiesIn call kernelData 0 => some (s.advance t (.calls call kernelData))
    | .copiesIn call kernelData (left + 1) =>
      match s.memory.read (call.data + kernelData.length) with
      | none => some (s.advance t (.returns B_BAD_ADDRESS))
      | some byte => some (s.advance t (.copiesIn call (kernelData ++ [byte]) left))
    | _ => none
  | .rmIoctl t =>
    match s.threads t with
    | .calls call kernelData =>
      let reply := R.rmIoctl call.handle call.cmd kernelData s.rm s.memory
      some ({ s with memory := reply.memory, rm := reply.rm }.advance t
        (if !reply.ok then .returns EINVAL else .copiesOut call call.data reply.kernelData))
    | _ => none
  | .copyOut t =>
    match s.threads t with
    | .copiesOut _ _ [] => some (s.advance t (.returns 0))
    | .copiesOut call place (byte :: rest) =>
      match s.memory.write place byte with
      | none => some (s.advance t (.returns B_BAD_ADDRESS))
      | some memory =>
        some ({ s with memory := memory }.advance t (.copiesOut call (place + 1) rest))
    | _ => none
  | .returned t res =>
    match s.threads t with
    | .returns res' => if res = res' then some (s.advance t .idle) else none
    | _ => none
  | .change x byte => some { s with memory := Function.update s.memory x byte }
  | .read x byte => if s.memory x = byte then some s else none
  | .close handle => some { s with closed := Function.update s.closed handle true }

end RmState

/-- The threads of a team, with the RM and the memory they begin with. -/
def rmCalls (θ : Type*) [DecidableEq θ] (R : Rm ι ρ) (rm : ρ) (memory : UserMemory) :
    TransitionSystem (RmState θ ι ρ) (RmAction θ ι) :=
  ofStep (· = ⟨memory, rm, fun _ => false, fun _ => .idle⟩) (RmState.step R)

/-! ## The direct calls -/

/-- What the team sees of a step. -/
inductive RmSeen (θ ι : Type*)
  | ioctl (t : θ) (call : RmCall ι)
  | enter (t : θ) (allocated : Bool)
  /-- The call takes effect. -/
  | control (t : θ)
  | returned (t : θ) (res : ℤ)
  | change (x : ℕ) (byte : Option UserByte)
  | read (x : ℕ) (byte : Option UserByte)
  | close (handle : ι)

/-- Where a thread is in a direct call. -/
inductive DirectStage (ι : Type*)
  | idle
  | enters (call : RmCall ι)
  | admitted (call : RmCall ι)
  | returns (res : ℤ)

/-- The state of the calls that work on the team's memory itself. -/
structure DirectState (θ ι ρ : Type*) where
  memory : UserMemory
  rm : ρ
  closed : ι → Bool
  threads : θ → DirectStage ι

namespace DirectState

omit [DecidableEq ι] in
/-- A thread gets on. -/
def advance (u : DirectState θ ι ρ) (t : θ) (stage : DirectStage ι) : DirectState θ ι ρ :=
  { u with threads := Function.update u.threads t stage }

/-- A call that has been admitted takes effect in one step. -/
inductive Step (R : Rm ι ρ) (u : DirectState θ ι ρ) : RmSeen θ ι → DirectState θ ι ρ → Prop
  | ioctl {t : θ} {call : RmCall ι} (idle : u.threads t = .idle) :
      Step R u (.ioctl t call) (u.advance t (.enters call))
  | closed {t : θ} {call : RmCall ι} {allocated : Bool} (enters : u.threads t = .enters call)
      (closed : u.closed call.handle = true) :
      Step R u (.enter t allocated) (u.advance t (.returns EINVAL))
  | noMemory {t : θ} {call : RmCall ι} (enters : u.threads t = .enters call)
      (opened : u.closed call.handle = false) (long : 32 < call.len) :
      Step R u (.enter t false) (u.advance t (.returns B_NO_MEMORY))
  | opened {t : θ} {call : RmCall ι} {allocated : Bool} (enters : u.threads t = .enters call)
      (opened : u.closed call.handle = false) (fits : 32 < call.len → allocated = true) :
      Step R u (.enter t allocated) (u.advance t (.admitted call))
  | control {t : θ} {call : RmCall ι} {res : ℤ} {rm : ρ} {memory : UserMemory}
      (admitted : u.threads t = .admitted call)
      (ran : R.control call u.rm u.memory = (res, rm, memory)) :
      Step R u (.control t) ({ u with memory := memory, rm := rm }.advance t (.returns res))
  | returned {t : θ} {res : ℤ} (returns : u.threads t = .returns res) :
      Step R u (.returned t res) (u.advance t .idle)
  | change {x : ℕ} {byte : Option UserByte} :
      Step R u (.change x byte) { u with memory := Function.update u.memory x byte }
  | read {x : ℕ} : Step R u (.read x (u.memory x)) u
  | close {handle : ι} :
      Step R u (.close handle) { u with closed := Function.update u.closed handle true }

end DirectState

/-- The calls that work on the team's memory itself, in any order. -/
def directCalls (θ : Type*) [DecidableEq θ] (R : Rm ι ρ) (rm : ρ) (memory : UserMemory) :
    TransitionSystem (DirectState θ ι ρ) (RmSeen θ ι) where
  start := (· = ⟨memory, rm, fun _ => false, fun _ => .idle⟩)
  step := DirectState.Step R

/-- A call takes effect in `rm_ioctl`, or when its parameters cannot be read. -/
def observe (e : Event (RmState θ ι ρ) (RmAction θ ι)) : Option (RmSeen θ ι) :=
  match e.action with
  | .ioctl t call => some (.ioctl t call)
  | .enter t allocated => some (.enter t allocated)
  | .copyIn t =>
    match e.target.threads t with
    | .returns _ => some (.control t)
    | _ => none
  | .rmIoctl t => some (.control t)
  | .copyOut _ => none
  | .returned t res => some (.returned t res)
  | .change x byte => some (.change x byte)
  | .read x byte => some (.read x byte)
  | .close handle => some (.close handle)

/-! ## Who uses which memory -/

/-- The parameters of the call in progress are at the address. -/
def RmStage.Uses : RmStage ι → ℕ → Prop
  | .idle, _ | .returns _, _ => False
  | .enters call, x | .copiesIn call _ _, x | .calls call _, x | .copiesOut call _ _, x =>
    call.Uses x

/-- The parameters of a call in progress are used by nobody else. -/
def Apart (R : Rm ι ρ) (e : Event (RmState θ ι ρ) (RmAction θ ι)) : Prop :=
  match e.action with
  | .ioctl t call => ∀ t' ≠ t, ∀ x, call.Uses x → ¬ (e.source.threads t').Uses x
  | .rmIoctl t => ∀ call kernelData, e.source.threads t = .calls call kernelData →
    ∀ x, R.Touches call.handle call.cmd kernelData e.source.rm x →
      ∀ t' ≠ t, ¬ (e.source.threads t').Uses x
  | .change x _ | .read x _ => ∀ t, ¬ (e.source.threads t).Uses x
  | .enter .. | .copyIn _ | .copyOut _ | .returned .. | .close _ => True

/-- Memory, once the thread has copied out what it has left. -/
def RmStage.flush (stage : RmStage ι) (memory : UserMemory) : UserMemory :=
  match stage with
  | .copiesOut _ place rest => (UserMemory.copyOut memory place rest).2
  | .idle | .enters _ | .copiesIn .. | .calls .. | .returns _ => memory

/-- How far a direct call is when the thread is at a stage of `Control`. -/
inductive RmStage.Follows (memory : UserMemory) : RmStage ι → DirectStage ι → Prop
  | idle : Follows memory .idle .idle
  | enters {call : RmCall ι} : Follows memory (.enters call) (.enters call)
  /-- What the copy has and what is left of it are the parameters. -/
  | copiesIn {call : RmCall ι} {kernelData : List (BitVec 8)} {left : ℕ}
      (length : kernelData.length + left = call.len)
      (copies : UserMemory.copyIn memory call.data call.len =
        (UserMemory.copyIn memory (call.data + kernelData.length) left).map (kernelData ++ ·)) :
      Follows memory (.copiesIn call kernelData left) (.admitted call)
  | calls {call : RmCall ι} {kernelData : List (BitVec 8)}
      (copied : UserMemory.copyIn memory call.data call.len = some kernelData) :
      Follows memory (.calls call kernelData) (.admitted call)
  /-- The call has taken effect, and it is known how the copy ends. -/
  | copiesOut {call : RmCall ι} {place : ℕ} {rest : List (BitVec 8)} {res : ℤ}
      (within : call.data ≤ place) (ends : place + rest.length = call.data + call.len)
      (known : res = if (UserMemory.copyOut memory place rest).1 then 0 else B_BAD_ADDRESS) :
      Follows memory (.copiesOut call place rest) (.returns res)
  | returns {res : ℤ} : Follows memory (.returns res) (.returns res)

section Stages

omit [DecidableEq θ] [DecidableEq ι]

variable {memory left : UserMemory} {stage : RmStage ι} {direct : DirectStage ι} {x : ℕ}

/-- Nothing is copied out to memory that the thread does not use. -/
theorem RmStage.Follows.flush_outside (follows : stage.Follows memory direct)
    (unused : ¬ stage.Uses x) : stage.flush left x = left x := by
  cases follows with
  | @copiesOut call place rest res within ends =>
    rw [RmStage.Uses, RmCall.Uses] at unused
    exact copyOut_outside (by omega)
  | idle | enters | copiesIn | calls | returns => rfl

/-- What is still to be copied depends on the memory that the thread uses. -/
theorem RmStage.Follows.flush_congr (follows : stage.Follows memory direct)
    (same : ∀ x, stage.Uses x → left x = memory x) (used : stage.Uses x) :
    stage.flush left x = stage.flush memory x := by
  cases follows with
  | @copiesOut call place rest res within ends =>
    by_cases here : place ≤ x ∧ x < place + rest.length
    · refine (copyOut_congr fun y low high => same y ⟨?_, ?_⟩).2 x here.1 here.2 <;> omega
    · rw [RmStage.flush, RmStage.flush, copyOut_outside (by omega), copyOut_outside (by omega),
        same x used]
  | idle | enters | copiesIn | calls | returns => exact same x used

theorem RmStage.Follows.congr (follows : stage.Follows memory direct)
    (same : ∀ x, stage.Uses x → left x = memory x) : stage.Follows left direct := by
  cases follows with
  | idle => exact .idle
  | enters => exact .enters
  | @copiesIn call kernelData n length copies =>
    refine .copiesIn length ?_
    rw [copyIn_congr fun y low high => same y ⟨low, high⟩, copies,
      copyIn_congr fun y low high => same y ⟨?_, ?_⟩] <;> omega
  | @calls call kernelData copied =>
    exact .calls ((copyIn_congr fun y low high => same y ⟨low, high⟩).trans copied)
  | @copiesOut call place rest res within ends known =>
    refine .copiesOut within ends ?_
    rw [known, (copyOut_congr fun y low high => same y ⟨?_, ?_⟩).1] <;> omega
  | returns => exact .returns

end Stages

/-! ## The simulation -/

/-- The direct calls are where the calls of the driver will be once they have copied out. -/
structure Simulated (s : RmState θ ι ρ) (u : DirectState θ ι ρ) : Prop where
  rm : u.rm = s.rm
  closed : u.closed = s.closed
  follows : ∀ t, (s.threads t).Follows s.memory (u.threads t)
  apart : ∀ t t' x, (s.threads t).Uses x → (s.threads t').Uses x → t = t'
  used : ∀ t x, (s.threads t).Uses x → u.memory x = (s.threads t).flush s.memory x
  free : ∀ x, (∀ t, ¬ (s.threads t).Uses x) → u.memory x = s.memory x

namespace Simulated

variable {s : RmState θ ι ρ} {u : DirectState θ ι ρ} {t : θ} {x : ℕ} {memory direct : UserMemory}
  {stage : RmStage ι} {directStage : DirectStage ι}

omit [DecidableEq θ] [DecidableEq ι]

theorem memory_eq (simulated : Simulated s u) (t : θ)
    (alone : ∀ t' ≠ t, ¬ (s.threads t').Uses x) :
    u.memory x = (s.threads t).flush s.memory x := by
  by_cases used : (s.threads t).Uses x
  · exact simulated.used t x used
  · rw [(simulated.follows t).flush_outside used]
    refine simulated.free x fun t' => ?_
    by_cases same : t' = t
    · exact same ▸ used
    · exact alone t' same

/-- The memory that a thread uses is used by no other. -/
theorem alone (simulated : Simulated s u) (used : (s.threads t).Uses x) :
    ∀ t' ≠ t, ¬ (s.threads t').Uses x :=
  fun t' other used' => other (simulated.apart t' t x used' used)

theorem follows_of (simulated : Simulated s u) (here : s.threads t = stage) :
    ∃ d, u.threads t = d ∧ stage.Follows s.memory d :=
  ⟨_, rfl, here ▸ simulated.follows t⟩

/-- The memory that a thread uses, as it will be. -/
theorem own_memory (simulated : Simulated s u) (here : s.threads t = stage) :
    ∀ x, stage.Uses x → u.memory x = stage.flush s.memory x := by
  subst here
  exact simulated.used t

/-- What the thread uses at a stage is used by no other. -/
theorem own_alone (simulated : Simulated s u) (here : s.threads t = stage) :
    ∀ x, stage.Uses x → ∀ t' ≠ t, ¬ (s.threads t').Uses x := by
  subst here
  exact fun x used => simulated.alone used

variable [DecidableEq θ]

/-- One thread gets on, and leaves alone what others use. -/
theorem advance (simulated : Simulated s u) (rm : ρ)
    (others : ∀ t' ≠ t, ∀ x, (s.threads t').Uses x →
      memory x = s.memory x ∧ direct x = u.memory x)
    (follows : stage.Follows memory directStage)
    (apart : ∀ x, stage.Uses x → ∀ t' ≠ t, ¬ (s.threads t').Uses x)
    (own : ∀ x, (∀ t' ≠ t, ¬ (s.threads t').Uses x) → direct x = stage.flush memory x) :
    Simulated ({ s with memory := memory, rm := rm }.advance t stage)
      ({ u with memory := direct, rm := rm }.advance t directStage) where
  rm := rfl
  closed := simulated.closed
  follows t' := by
    by_cases same : t' = t
    · subst same
      simpa [RmState.advance, DirectState.advance] using follows
    · simpa [RmState.advance, DirectState.advance, same] using
        (simulated.follows t').congr fun x used => (others t' same x used).1
  apart t' t'' x used used' := by
    simp only [RmState.advance, Function.update_apply] at used used'
    split at used <;> split at used'
    · simp_all
    · exact absurd used' (apart x used t'' ‹_›)
    · exact absurd used (apart x used' t' ‹_›)
    · exact simulated.apart t' t'' x used used'
  used t' x used := by
    by_cases same : t' = t
    · subst same
      simp only [RmState.advance, Function.update_self] at used
      simpa [RmState.advance, DirectState.advance] using own x (apart x used)
    · simp only [RmState.advance, Function.update_of_ne same] at used
      simp only [RmState.advance, DirectState.advance, Function.update_of_ne same]
      rw [(others t' same x used).2, simulated.used t' x used,
        (simulated.follows t').flush_congr (fun y used => (others t' same y used).1) used]
  free x unused := by
    have here := unused t
    simp only [RmState.advance, Function.update_self] at here
    refine (own x fun t' other => ?_).trans (follows.flush_outside here)
    simpa [RmState.advance, other] using unused t'

/-- One thread gets on, and memory stays as it will be. -/
theorem advance_same (simulated : Simulated s u) (follows : stage.Follows s.memory directStage)
    (apart : ∀ x, stage.Uses x → ∀ t' ≠ t, ¬ (s.threads t').Uses x)
    (same : stage.flush s.memory = (s.threads t).flush s.memory) :
    Simulated (s.advance t stage) (u.advance t directStage) := by
  obtain ⟨direct, rm, closed, threads⟩ := u
  obtain rfl : rm = s.rm := simulated.rm
  exact simulated.advance s.rm (fun _ _ _ _ => ⟨rfl, rfl⟩) follows apart fun x alone => by
    rw [same]
    exact simulated.memory_eq t alone

/-- One thread gets on, and its call is where it was. -/
theorem advance_silent (simulated : Simulated s u) (there : u.threads t = directStage)
    (follows : stage.Follows s.memory directStage)
    (apart : ∀ x, stage.Uses x → ∀ t' ≠ t, ¬ (s.threads t').Uses x)
    (same : stage.flush s.memory = (s.threads t).flush s.memory) :
    Simulated (s.advance t stage) u := by
  have advanced := simulated.advance_same follows apart same
  rwa [DirectState.advance, ← there, Function.update_eq_self] at advanced

/-- One thread stops using memory, and memory stays as it will be. -/
theorem finish (simulated : Simulated s u) {res : ℤ}
    (same : (s.threads t).flush s.memory = s.memory) :
    Simulated (s.advance t (.returns res)) (u.advance t (.returns res)) :=
  simulated.advance_same .returns (fun _ used => used.elim) same.symm

variable [DecidableEq ι] {R : Rm ι ρ} {s' : RmState θ ι ρ} {call : RmCall ι} {allocated : Bool}
  {res : ℤ} {byte : Option UserByte} {handle : ι}

theorem ioctl (simulated : Simulated s u) (taken : s.step R (.ioctl t call) = some s')
    (apart : ∀ t' ≠ t, ∀ x, call.Uses x → ¬ (s.threads t').Uses x) :
    ∃ u', DirectState.Step R u (.ioctl t call) u' ∧ Simulated s' u' := by
  simp only [RmState.step] at taken
  split at taken
  · next idle =>
    obtain rfl := Option.some.inj taken
    obtain ⟨d, there, follows⟩ := simulated.follows_of idle
    cases follows
    refine ⟨_, .ioctl there, simulated.advance_same .enters ?_ (by rw [idle]; rfl)⟩
    exact fun x used t' other => apart t' other x used
  · cases taken

theorem enter (simulated : Simulated s u) (taken : s.step R (.enter t allocated) = some s') :
    ∃ u', DirectState.Step R u (.enter t allocated) u' ∧ Simulated s' u' := by
  simp only [RmState.step] at taken
  split at taken
  · next call here =>
    obtain ⟨d, there, follows⟩ := simulated.follows_of here
    cases follows
    rw [← simulated.closed] at taken
    split at taken
    · next closed =>
      obtain rfl := Option.some.inj taken
      exact ⟨_, .closed there closed, simulated.finish (by rw [here]; rfl)⟩
    · next opened =>
      rw [Bool.not_eq_true] at opened
      split at taken
      · next failed =>
        obtain ⟨long, rfl⟩ := failed
        obtain rfl := Option.some.inj taken
        exact ⟨_, .noMemory there opened long, simulated.finish (by rw [here]; rfl)⟩
      · next fits =>
        obtain rfl := Option.some.inj taken
        refine ⟨_, .opened there opened (by simpa using fits),
          simulated.advance_same (.copiesIn (Nat.zero_add _) ?_)
            (fun x used => simulated.own_alone here x used) (by rw [here]; rfl)⟩
        simp
  · cases taken

theorem matches_of_silent {a : RmAction θ ι} {rm : ρ} (silent : observe ⟨s, a, s'⟩ = none)
    (simulated : Simulated s' u) :
    (directCalls θ R rm memory).Matches Simulated (observe ⟨s, a, s'⟩) s' u := by
  rw [silent]
  exact simulated

theorem matches_of_observed {a : RmAction θ ι} {seen : RmSeen θ ι} {rm : ρ}
    (observed : observe ⟨s, a, s'⟩ = some seen)
    (stepped : ∃ u', DirectState.Step R u seen u' ∧ Simulated s' u') :
    (directCalls θ R rm memory).Matches Simulated (observe ⟨s, a, s'⟩) s' u := by
  rw [observed]
  exact stepped

/-- A byte is copied in, or the call ends because it cannot be. -/
theorem copyIn {rm : ρ} (simulated : Simulated s u) (taken : s.step R (.copyIn t) = some s') :
    (directCalls θ R rm memory).Matches Simulated (observe ⟨s, .copyIn t, s'⟩) s' u := by
  simp only [RmState.step] at taken
  split at taken
  · next call kernelData here =>
    obtain rfl := Option.some.inj taken
    obtain ⟨d, there, follows⟩ := simulated.follows_of here
    cases follows with
    | copiesIn length copies =>
      have copied : UserMemory.copyIn s.memory call.data call.len = some kernelData := by
        simpa [UserMemory.copyIn] using copies
      exact matches_of_silent (by simp [observe, RmState.advance])
        (simulated.advance_silent there (.calls copied)
          (fun x used => simulated.own_alone here x used) (by rw [here]; rfl))
  · next call kernelData left here =>
    obtain ⟨d, there, follows⟩ := simulated.follows_of here
    cases follows with
    | copiesIn length copies =>
      split at taken
      · next unreadable =>
        obtain rfl := Option.some.inj taken
        -- the direct call cannot read the parameters either
        have fails : UserMemory.copyIn u.memory call.data call.len = none := by
          rw [copyIn_congr fun y low high => simulated.own_memory here y ⟨low, high⟩]
          rw [RmStage.flush, copies, UserMemory.copyIn, unreadable]
          rfl
        have ran : R.control call u.rm u.memory = (B_BAD_ADDRESS, u.rm, u.memory) := by
          rw [Rm.control, fails]
        exact matches_of_observed (by simp [observe, RmState.advance])
          ⟨_, .control there ran, simulated.finish (by rw [here]; rfl)⟩
      · next byte readable =>
        obtain rfl := Option.some.inj taken
        refine matches_of_silent (by simp [observe, RmState.advance])
          (simulated.advance_silent there (.copiesIn ?_ ?_)
            (fun x used => simulated.own_alone here x used) (by rw [here]; rfl))
        · rw [List.length_append, List.length_singleton]
          omega
        · rw [copies, UserMemory.copyIn, readable, List.length_append, List.length_singleton,
            Nat.add_assoc]
          simp [Function.comp_def]
  · cases taken

omit [DecidableEq θ] [DecidableEq ι] in
/-- The RM finds what it finds in the memory of the direct calls, and leaves there what it
leaves here. -/
theorem rmIoctl_alike (simulated : Simulated s u) {kernelData : List (BitVec 8)}
    (here : s.threads t = .calls call kernelData) (apart : Apart R ⟨s, .rmIoctl t, s'⟩) :
    let reply := R.rmIoctl call.handle call.cmd kernelData s.rm s.memory
    let direct := R.rmIoctl call.handle call.cmd kernelData s.rm u.memory
    (direct.ok = reply.ok ∧ direct.kernelData = reply.kernelData ∧ direct.rm = reply.rm) ∧
      (∀ t' ≠ t, ∀ x, (s.threads t').Uses x →
        reply.memory x = s.memory x ∧ direct.memory x = u.memory x) ∧
      ∀ x, (∀ t' ≠ t, ¬ (s.threads t').Uses x) → direct.memory x = reply.memory x := by
  intro reply direct
  have touched : ∀ x, R.Touches call.handle call.cmd kernelData s.rm x →
      ∀ t' ≠ t, ¬ (s.threads t').Uses x := apart call kernelData here
  have same : ∀ x, (∀ t' ≠ t, ¬ (s.threads t').Uses x) → u.memory x = s.memory x := by
    intro x alone
    rw [simulated.memory_eq t alone, here]
    rfl
  obtain ⟨ok, data, rm, memory⟩ := R.local' call.handle call.cmd kernelData s.rm s.memory u.memory
    fun x touches => same x (touched x touches)
  refine ⟨⟨ok, data, rm⟩, fun t' other x used => ?_, fun x alone => ?_⟩
  · have untouched : ¬ R.Touches call.handle call.cmd kernelData s.rm x :=
      fun touches => touched x touches t' other used
    exact ⟨R.frame _ _ _ _ _ x untouched, R.frame _ _ _ _ _ x untouched⟩
  · by_cases touches : R.Touches call.handle call.cmd kernelData s.rm x
    · exact memory x touches
    · exact (R.frame _ _ _ _ _ x touches).trans
        ((same x alone).trans (R.frame _ _ _ _ _ x touches).symm)

/-- The call takes effect in `rm_ioctl`. -/
theorem rmIoctl (simulated : Simulated s u) (taken : s.step R (.rmIoctl t) = some s')
    (apart : Apart R ⟨s, .rmIoctl t, s'⟩) :
    ∃ u', DirectState.Step R u (.control t) u' ∧ Simulated s' u' := by
  simp only [RmState.step] at taken
  split at taken
  · next call kernelData here =>
    obtain rfl := Option.some.inj taken
    obtain ⟨⟨ok, data, rm⟩, others, own⟩ := simulated.rmIoctl_alike here apart
    obtain ⟨d, there, follows⟩ := simulated.follows_of here
    have alone : ∀ x, call.Uses x → ∀ t' ≠ t, ¬ (s.threads t').Uses x :=
      fun x used => simulated.own_alone here x used
    cases follows with
    | calls copied =>
      have direct : UserMemory.copyIn u.memory call.data call.len = some kernelData := by
        rw [copyIn_congr fun y low high => simulated.own_memory here y ⟨low, high⟩]
        exact copied
      have control := R.control_of_copyIn u.rm direct
      obtain ⟨memory', rm', closed', threads'⟩ := u
      obtain rfl : rm' = s.rm := simulated.rm
      dsimp only at control
      rw [ok, data, rm] at control
      cases succeeded : (R.rmIoctl call.handle call.cmd kernelData s.rm s.memory).ok with
      | false =>
        rw [succeeded] at control
        exact ⟨_, .control there control,
          simulated.advance _ others .returns (fun _ used => used.elim) own⟩
      | true =>
        rw [succeeded] at control
        have length : (R.rmIoctl call.handle call.cmd kernelData s.rm s.memory).kernelData.length =
            call.len := by
          rw [R.length_kernelData, length_of_copyIn copied]
        obtain ⟨through, alike⟩ :=
          copyOut_congr fun x low high => own x (alone x ⟨low, by rwa [length] at high⟩)
        refine ⟨_, .control there control,
          simulated.advance _ (fun t' other x used => ⟨(others t' other x used).1, ?_⟩)
            (.copiesOut (Nat.le_refl _) (by rw [length]) ?_) (fun x used => alone x used)
            fun x unused => ?_⟩
        · -- the parameters of another call are elsewhere
          rw [← (others t' other x used).2]
          refine copyOut_outside (Decidable.byContradiction fun inside => ?_)
          rw [length] at inside
          exact alone x ⟨by omega, by omega⟩ t' other used
        · rw [through]
        · by_cases inside : call.data ≤ x ∧ x < call.data + call.len
          · exact alike x inside.1 (by rw [length]; exact inside.2)
          · have outside : x < call.data ∨ call.data + (R.rmIoctl call.handle call.cmd kernelData
                s.rm s.memory).kernelData.length ≤ x := by
              rw [length]
              omega
            exact (copyOut_outside outside).trans
              ((own x unused).trans (copyOut_outside outside).symm)
  · cases taken

/-- A byte is copied out, or the call ends as has been known. -/
theorem copyOut (simulated : Simulated s u) (taken : s.step R (.copyOut t) = some s') :
    Simulated s' u := by
  simp only [RmState.step] at taken
  split at taken
  · next call place here =>
    obtain rfl := Option.some.inj taken
    obtain ⟨d, there, follows⟩ := simulated.follows_of here
    cases follows with
    | copiesOut within ends known =>
      obtain rfl := known
      exact simulated.advance_silent there .returns (fun _ used => used.elim) (by rw [here]; rfl)
  · next call place byte rest here =>
    obtain ⟨d, there, follows⟩ := simulated.follows_of here
    cases follows with
    | copiesOut within ends known =>
      rw [List.length_cons] at ends
      split at taken
      · next denied =>
        obtain rfl := Option.some.inj taken
        rw [UserMemory.copyOut, denied] at known
        obtain rfl := known
        refine simulated.advance_silent there .returns (fun _ used => used.elim) ?_
        rw [here, RmStage.flush, RmStage.flush, UserMemory.copyOut, denied]
      · next memory written =>
        obtain rfl := Option.some.inj taken
        have further : UserMemory.copyOut s.memory place (byte :: rest) =
            UserMemory.copyOut memory (place + 1) rest := by
          rw [UserMemory.copyOut, written]
        rw [further] at known
        obtain ⟨-, rfl⟩ := write_eq_some.mp written
        have alone : ∀ x, call.Uses x → ∀ t' ≠ t, ¬ (s.threads t').Uses x :=
          fun x used => simulated.own_alone here x used
        have here' : call.Uses place := ⟨within, by omega⟩
        obtain ⟨direct, rm, closed, threads⟩ := u
        obtain rfl : rm = s.rm := simulated.rm
        have follows : (RmStage.copiesOut call (place + 1) rest).Follows _ _ :=
          .copiesOut (Nat.le_succ_of_le within) (by omega) known
        have advanced := simulated.advance (t := t) s.rm (fun t' other x used => ⟨?_, rfl⟩) follows
          alone fun x unused => ?_
        · rwa [DirectState.advance, ← there, Function.update_eq_self] at advanced
        · refine Function.update_of_ne ?_ _ _
          rintro rfl
          exact alone x here' t' other used
        · rw [simulated.memory_eq t unused, here, RmStage.flush, further]
          rfl
  · cases taken

omit [DecidableEq θ] [DecidableEq ι] in
theorem initial (rm : ρ) (memory : UserMemory) :
    Simulated (⟨memory, rm, fun _ => false, fun _ => .idle⟩ : RmState θ ι ρ)
      ⟨memory, rm, fun _ => false, fun _ => .idle⟩ where
  rm := rfl
  closed := rfl
  follows _ := .idle
  apart _ _ _ used := used.elim
  used _ _ used := used.elim
  free _ _ := rfl

omit [DecidableEq θ] [DecidableEq ι] in
/-- Memory that no call uses is changed alike. -/
theorem change (simulated : Simulated s u) (unused : ∀ t, ¬ (s.threads t).Uses x) :
    Simulated { s with memory := Function.update s.memory x byte }
      { u with memory := Function.update u.memory x byte } := by
  have others : ∀ t y, (s.threads t).Uses y → y ≠ x := by
    rintro t y used rfl
    exact unused t used
  refine ⟨simulated.rm, simulated.closed, fun t => ?_, simulated.apart, fun t y used => ?_,
    fun y free => ?_⟩
  · exact (simulated.follows t).congr fun y used => Function.update_of_ne (others t y used) _ _
  · rw [(simulated.follows t).flush_congr
      (fun y used => Function.update_of_ne (others t y used) _ _) used]
    exact (Function.update_of_ne (others t y used) _ _).trans (simulated.used t y used)
  · simp only [Function.update_apply]
    split
    · rfl
    · exact simulated.free y free

end Simulated

variable {R : Rm ι ρ} {rm : ρ} {memory : UserMemory} {s : RmState θ ι ρ}
  {past : List (Event (RmState θ ι ρ) (RmAction θ ι))}

theorem rmCalls_simulates : (rmCalls θ R rm memory).Simulates (directCalls θ R rm memory) observe
    (Apart R) Simulated where
  start s initial := ⟨_, rfl, (show s = _ from initial) ▸ Simulated.initial rm memory⟩
  step s a s' u simulated taken apart := by
    have taken : s.step R a = some s' := taken
    cases a with
    | ioctl t call => exact simulated.ioctl taken apart
    | enter t allocated => exact simulated.enter taken
    | copyIn t => exact simulated.copyIn taken
    | rmIoctl t => exact simulated.rmIoctl taken apart
    | copyOut t => exact simulated.copyOut taken
    | returned t res =>
      simp only [RmState.step] at taken
      split at taken
      · next res' here =>
        obtain ⟨rfl, idle⟩ := Option.ite_none_right_eq_some.mp taken
        obtain rfl := Option.some.inj idle
        obtain ⟨d, there, follows⟩ := simulated.follows_of here
        cases follows
        exact ⟨_, .returned there,
          simulated.advance_same .idle (fun _ used => used.elim) (by rw [here]; rfl)⟩
      · cases taken
    | change x byte =>
      obtain rfl := Option.some.inj taken
      exact ⟨_, .change, simulated.change apart⟩
    | read x byte =>
      obtain ⟨rfl, unchanged⟩ := Option.ite_none_right_eq_some.mp taken
      obtain rfl := Option.some.inj unchanged
      exact ⟨u, simulated.free x apart ▸ .read, simulated⟩
    | close handle =>
      obtain rfl := Option.some.inj taken
      refine ⟨_, .close, simulated.rm, ?_, simulated.follows, simulated.apart, simulated.used,
        simulated.free⟩
      exact congrArg (Function.update · handle true) simulated.closed

/-! ## What the team sees -/

/-- `NvRmIoctl` does not repeat a call that returns. -/
def Unretried (threads : θ → RmStage ι) : Prop :=
  ∀ t res, threads t = .returns res → Sdk.Retries res = false

omit [DecidableEq ι] in
theorem Unretried.update {threads : θ → RmStage ι} (unretried : Unretried threads) {t : θ}
    {stage : RmStage ι} (here : ∀ res, stage = .returns res → Sdk.Retries res = false) :
    Unretried (Function.update threads t stage) := by
  intro t' res returns
  by_cases same : t' = t
  · subst same
    exact here res (by simpa using returns)
  · exact unretried t' res (by simpa [same] using returns)

theorem Unretried.step {s' : RmState θ ι ρ} {a : RmAction θ ι} (unretried : Unretried s.threads)
    (taken : s.step R a = some s') : Unretried s'.threads := by
  have onwards : ∀ {t : θ} {stage : RmStage ι}, (∀ res, stage ≠ .returns res) →
      Unretried (Function.update s.threads t stage) :=
    fun other => unretried.update fun res same => absurd same (other res)
  have returns : ∀ {t : θ} {res : ℤ}, Sdk.Retries res = false →
      Unretried (Function.update s.threads t (.returns res)) :=
    fun never => unretried.update fun res same => RmStage.returns.inj same ▸ never
  cases a with
  | ioctl | enter | copyIn | copyOut | returned =>
    simp only [RmState.step] at taken
    repeat' split at taken
    all_goals cases taken
    all_goals first | exact returns rfl | exact onwards (by simp)
  | rmIoctl t =>
    simp only [RmState.step] at taken
    split at taken
    · obtain rfl := Option.some.inj taken
      simp only [RmState.advance]
      split
      · exact returns rfl
      · exact onwards (by simp)
    · cases taken
  | change | close =>
    obtain rfl := Option.some.inj taken
    exact unretried
  | read =>
    obtain ⟨-, unchanged⟩ := Option.ite_none_right_eq_some.mp taken
    obtain rfl := Option.some.inj unchanged
    exact unretried

/-- What a team can say of its calls of the RM. -/
structure CallsDirect (R : Rm ι ρ) (rm : ρ) (memory : UserMemory)
    (past : List (Event (RmState θ ι ρ) (RmAction θ ι))) (s : RmState θ ι ρ) : Prop where
  /-- They are direct. -/
  accepted : (directCalls θ R rm memory).Accepts (trace observe past)
  /-- `NvRmIoctl` makes each of them once. -/
  once : Unretried s.threads

/-- In every run in which the parameters of a call are left alone until it returns, the calls are
direct, whatever handles are closed meanwhile. -/
theorem callsDirect_of_run (run : (rmCalls θ R rm memory).Run past s)
    (every : Every (Apart R) past) : CallsDirect R rm memory past s where
  accepted := rmCalls_simulates.accepts run every
  once := run.reachable.invariant (P := fun s => Unretried s.threads)
    (fun s initial t res returns => by
      obtain rfl : s = _ := initial
      cases returns)
    fun _ _ _ unretried taken => unretried.step taken

/-- An RM that counts its calls, and replies the number to command 1 in the first byte. -/
def countingRm : Rm Bool (BitVec 8) where
  rmIoctl _ cmd kernelData count memory :=
    { ok := cmd = 1
      kernelData := kernelData.set 0 count
      rm := count + 1
      memory := memory }
  Touches _ _ _ _ _ := False
  length_kernelData := by simp
  frame _ _ _ _ _ _ _ := rfl
  local' _ _ _ _ _ _ _ := ⟨rfl, rfl, rfl, nofun⟩

/-- Two calls at the same time, on a handle each; one of the handles is closed meanwhile. -/
def interleaved : List (RmAction Bool Bool) :=
  [.ioctl true ⟨true, 1, 100, 2⟩, .ioctl false ⟨false, 1, 102, 1⟩, .enter true true,
    .enter false true, .copyIn true, .close true, .copyIn false, .copyIn true, .copyIn true,
    .copyIn false, .rmIoctl true, .rmIoctl false, .copyOut false, .copyOut true, .copyOut true,
    .copyOut true, .copyOut false, .returned true 0, .read 100 (some ⟨5, true⟩)]

theorem callsDirect_interleaved : ∃ past s,
    (rmCalls Bool countingRm 5 fun x => if x < 200 then some ⟨0, true⟩ else none).Run past s ∧
      s.memory 102 = some ⟨6, true⟩ ∧
      CallsDirect countingRm 5 (fun x => if x < 200 then some ⟨0, true⟩ else none) past s := by
  have run := (Run.start (T := rmCalls Bool countingRm 5 fun x =>
    if x < 200 then some ⟨0, true⟩ else none) rfl).play interleaved rfl
  refine ⟨_, _, run, rfl, callsDirect_of_run run ?_⟩
  repeat' first | exact every_nil | refine every_cons.mpr ⟨?_, ?_⟩
  all_goals try trivial
  · rintro (_ | _) used <;> exact used
  · exact fun _ _ _ _ touches => touches.elim
  · exact fun _ _ _ _ touches => touches.elim
  · rintro (_ | _) other x ⟨low, high⟩ used
    · exact other rfl
    · have elsewhere : x < 102 := used.2
      exact absurd low (Nat.not_le.mpr elsewhere)
  · exact fun _ _ _ _ used => used

end NvidiaHaiku.BaseDevice

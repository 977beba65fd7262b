/-
# Calls into NVKMS from any number of threads

Every call of NVKMS is made under the mutex `Locker` of the driver: `Open` calls
`nvKmsOpen` and keeps the cookie it gets, `Control` calls `nvKmsIoctl`, and the
destructor of the handle calls `nvKmsClose`. NVKMS knows a client by its cookie and
by the handle that was passed to `nvKmsOpen`. While a thread is in such a call,
NVKMS may tell any of its clients that their events have changed, and
`EventQueueChanged` then runs on the handle of that client, under the
`fSelectPoolMutex` of the handle. `Select` and `Deselect` run under that mutex as
well, but not under `Locker`.

A step is what one thread does between two points where another one may come in.
The parts of a call under `fSelectPoolMutex` take two steps, so that what the mutex
is for shows. devfs starts no call on a handle that it is about to free, and frees
no handle on which a call is in progress.
-/

import Mathlib.Data.Fintype.Defs
import NvidiaHaiku.Nvkms.Select

namespace NvidiaHaiku.Nvkms

open NvidiaHaiku.Math
open NvidiaHaiku.Libc (B_SELECT_READ)

/-- The address of a `NvHaikuKmsDeviceHandle`. -/
abbrev HandlePtr := ℕ

/-- What `nvKmsOpen` returns. -/
abbrev Cookie := ℕ

/-- The cookie and the mutex of `NvHaikuKmsDeviceHandle`, beside what `Select` is about. -/
structure KmsHandle (θ κ : Type*) extends NvHaikuKmsDeviceHandle κ where
  fCookie : Option Cookie := none
  /-- The thread that holds `fSelectPoolMutex`. -/
  fSelectPoolMutex : Option θ := none

/-- The functions of NVKMS that the driver calls for a handle. -/
inductive KmsCall
  /-- `NvHaikuKmsDevice::Open` calls `nvKmsOpen`. -/
  | nvKmsOpen
  /-- `NvHaikuKmsDeviceHandle::Control` calls `nvKmsIoctl`. -/
  | nvKmsIoctl (cmd : BitVec 32)
  /-- `NvHaikuKmsDeviceHandle::~NvHaikuKmsDeviceHandle` calls `nvKmsClose`. -/
  | nvKmsClose
  deriving DecidableEq, Repr

/-- How far a call has come. -/
inductive CoreStage
  /-- Before `MutexLocker lock(&Locker())`. -/
  | lock
  /-- In NVKMS. -/
  | core
  /-- Back from NVKMS, with what it returned, and before the lock is released. -/
  | unlock (res : Bool)
  /-- After the release. -/
  | finish (res : Bool)
  deriving DecidableEq, Repr

/-- A call that goes through `Locker` to NVKMS, and how far it has come. -/
structure CoreCall where
  call : KmsCall
  handle : HandlePtr
  stage : CoreStage
  deriving DecidableEq, Repr

/-- How far a call on a select pool has come. -/
inductive PoolStage
  /-- Before `MutexLocker _(&fSelectPoolMutex)`. -/
  | lock
  /-- With the mutex, before anything is done. -/
  | first
  /-- With the mutex, after the flag or the pool has been changed. -/
  | second
  deriving DecidableEq, Repr

/-- `Select`, `Deselect` or `EventQueueChanged` on a handle. -/
structure PoolCall (κ : Type*) where
  call : SelectCall κ
  handle : HandlePtr
  stage : PoolStage
  deriving DecidableEq

/-- What a call of `Open`, `Control` or `free` has returned. -/
inductive KmsStatus
  | ok
  | noMemory
  | devInvalidIoctl
  | einval
  deriving DecidableEq, Repr

/-- The calls a thread is in: one that goes through `Locker`, and one on the select pool of a
handle, which runs inside the former if NVKMS made it. -/
structure Thread (κ : Type*) where
  core : Option CoreCall := none
  pool : Option (PoolCall κ) := none
  /-- What the last call returned. -/
  status : KmsStatus := .ok
  deriving DecidableEq

/-- What must never happen. -/
inductive Fault
  /-- A handle was used after it was deleted. -/
  | useAfterFree (h : HandlePtr)
  /-- NVKMS was given a cookie of a client it does not have. -/
  | staleCookie (cookie : Option Cookie)
  deriving DecidableEq, Repr

/-- The device with its lock, its handles, the clients of NVKMS and the threads. -/
structure KmsState (θ κ : Type*) where
  /-- The thread that holds `NvHaikuKmsDriver::fLocker`. -/
  locker : Option θ := none
  handles : HandlePtr → Option (KmsHandle θ κ) := fun _ => none
  /-- The handles that `Open` has returned and devfs has not begun to free. -/
  published : HandlePtr → Bool := fun _ => false
  /-- The clients of NVKMS, with the handles it knows them by. -/
  clients : Cookie → Option HandlePtr := fun _ => none
  threads : θ → Thread κ := fun _ => {}
  faults : List Fault := []

/-- `B_DEVICE_OP_CODES_END`. -/
def deviceOpCodesEnd : BitVec 32 := 9999

def NV_HAIKU_KMS_BASE : BitVec 32 := deviceOpCodesEnd + 1

/-- A call begins, or a thread takes the next step of its call. -/
inductive KmsAction (θ κ : Type*)
  /-- `Open`, for which `new` returns `h`. -/
  | openDevice (t : θ) (h : Option HandlePtr)
  | control (t : θ) (h : HandlePtr) (op : BitVec 32)
  /-- devfs frees the handle, which deletes it. -/
  | freeHandle (t : θ) (h : HandlePtr)
  | select (t : θ) (h : HandlePtr) (event : BitVec 8) (sync : κ) (added : Bool)
  | deselect (t : θ) (h : HandlePtr) (event : BitVec 8) (sync : κ) (removed : Bool)
  /-- NVKMS calls `nvkms_event_queue_changed` for a client, or for the one it is about to open. -/
  | eventQueueChanged (t : θ) (client : Option Cookie) (eventsAvailable : Bool)
  /-- The thread goes on; `cookie` and `res` are what NVKMS returns, if it does. -/
  | advance (t : θ) (cookie : Option Cookie) (res : Bool)

variable {θ κ : Type*} [DecidableEq θ] [DecidableEq κ]

/-! ## Under `fSelectPoolMutex` -/

namespace NvHaikuKmsDeviceHandle

/-- The first half of a call: the flag or the entries of the pool. -/
def first (h : NvHaikuKmsDeviceHandle κ) : SelectCall κ → NvHaikuKmsDeviceHandle κ
  | .eventQueueChanged eventsAvailable =>
    { h with
      fEventsAvailable := eventsAvailable
      fSelectPool := h.fSelectPool.tick
      raised :=
        if eventsAvailable && !h.fEventsAvailable then h.fSelectPool.tick.now else h.raised }
  | .select event sync added =>
    if event ≠ B_SELECT_READ then h
    else if !added then h
    else { h with fSelectPool := h.fSelectPool.add sync }
  | .deselect event sync removed =>
    if event ≠ B_SELECT_READ then h
    else if !removed then h
    else { h with fSelectPool := h.fSelectPool.remove sync }

/-- The second half: the notification. -/
def second (h : NvHaikuKmsDeviceHandle κ) : SelectCall κ → NvHaikuKmsDeviceHandle κ
  | .eventQueueChanged _ =>
    if h.fEventsAvailable then { h with fSelectPool := h.fSelectPool.notifyAll } else h
  | .select event sync added =>
    if event ≠ B_SELECT_READ then h
    else if !added then h
    else if h.fEventsAvailable then { h with fSelectPool := h.fSelectPool.notify sync }
    else h
  | .deselect .. => h

/-- The two halves are one call, if nothing comes between them. -/
theorem second_first (h : NvHaikuKmsDeviceHandle κ) (call : SelectCall κ) :
    h.step call = some ((h.first call).second call) := by
  cases call with
  | eventQueueChanged => rfl
  | select event sync added =>
    simp only [step, select, first, second]
    split
    · rfl
    split
    · rfl
    · dsimp only
      split <;> rfl
  | deselect event sync removed =>
    simp only [step, deselect, first, second]
    split
    · rfl
    split <;> rfl

end NvHaikuKmsDeviceHandle

/-! ## Steps -/

namespace KmsState

/-- A thread changes. -/
def setThread (s : KmsState θ κ) (t : θ) (x : Thread κ) : KmsState θ κ :=
  { s with threads := Function.update s.threads t x }

/-- The handle at an address changes. -/
def setHandle (s : KmsState θ κ) (h : HandlePtr) (handle : Option (KmsHandle θ κ)) :
    KmsState θ κ :=
  { s with handles := Function.update s.handles h handle }

/-- A fault is recorded. -/
def fail (s : KmsState θ κ) (fault : Fault) : KmsState θ κ := { s with faults := fault :: s.faults }

/-- An access to the handle at `h`. -/
def access (s : KmsState θ κ) (h : HandlePtr) (f : KmsHandle θ κ → Option (KmsState θ κ)) :
    Option (KmsState θ κ) :=
  match s.handles h with
  | none => some (s.fail (.useAfterFree h))
  | some handle => f handle

/-- NVKMS is given a cookie. -/
def useCookie (s : KmsState θ κ) (cookie : Option Cookie) : KmsState θ κ :=
  if ((cookie.bind s.clients).isSome : Bool) then s else s.fail (.staleCookie cookie)

/-- The call of a thread goes on in NVKMS, which returns `cookie` and `res`. -/
def advanceCore (s : KmsState θ κ) (t : θ) (x : Thread κ) (c : CoreCall) (cookie : Option Cookie)
    (res : Bool) : Option (KmsState θ κ) :=
  match c.stage with
  | .lock =>
    if s.locker = none then
      some ({ s with locker := some t }.setThread t { x with core := some { c with stage := .core } })
    else none
  | .core =>
    s.access c.handle fun handle =>
      match c.call with
      | .nvKmsOpen =>
        match cookie with
        | none => some (s.setThread t { x with core := some { c with stage := .unlock false } })
        | some cookie =>
          -- a new client gets a cookie that no other one has
          if s.clients cookie = none then
            some ({ s with clients := Function.update s.clients cookie (some c.handle) }
              |>.setHandle c.handle (some { handle with fCookie := some cookie })
              |>.setThread t { x with core := some { c with stage := .unlock true } })
          else none
      | .nvKmsIoctl _ =>
        some ((s.useCookie handle.fCookie).setThread t
          { x with core := some { c with stage := .unlock res } })
      | .nvKmsClose =>
        let s := s.useCookie handle.fCookie
        some ({ s with clients := fun k => if handle.fCookie = some k then none else s.clients k }
          |>.setThread t { x with core := some { c with stage := .unlock true } })
  | .unlock res =>
    some ({ s with locker := none }.setThread t
      { x with core := some { c with stage := .finish res } })
  | .finish res =>
    s.access c.handle fun handle =>
      match c.call with
      | .nvKmsOpen =>
        if handle.fCookie = none then
          -- the `ObjectDeleter` deletes the handle, which has nothing to close
          some ((s.setHandle c.handle none).setThread t { x with core := none, status := .noMemory })
        else
          some ({ s with published := Function.update s.published c.handle true }.setThread t
            { x with core := none, status := .ok })
      | .nvKmsIoctl _ =>
        some (s.setThread t { x with core := none, status := if res then .ok else .einval })
      | .nvKmsClose =>
        some ((s.setHandle c.handle none).setThread t { x with core := none, status := .ok })

/-- The call of a thread goes on under the mutex of the handle. -/
def advancePool (s : KmsState θ κ) (t : θ) (x : Thread κ) (p : PoolCall κ) :
    Option (KmsState θ κ) :=
  s.access p.handle fun handle =>
    match p.stage with
    | .lock =>
      if handle.fSelectPoolMutex = none then
        some ((s.setHandle p.handle (some { handle with fSelectPoolMutex := some t })).setThread t
          { x with pool := some { p with stage := .first } })
      else none
    | .first =>
      some ((s.setHandle p.handle (some { handle with
          toNvHaikuKmsDeviceHandle := handle.first p.call })).setThread t
        { x with pool := some { p with stage := .second } })
    | .second =>
      some ((s.setHandle p.handle (some { handle with
          toNvHaikuKmsDeviceHandle := handle.second p.call
          fSelectPoolMutex := none })).setThread t { x with pool := none })

end KmsState

namespace Thread

/-- No call is in progress. -/
def idle (x : Thread κ) : Bool := x.core.isNone && x.pool.isNone

/-- devfs has made a call on the handle that has not returned. -/
def uses (x : Thread κ) (h : HandlePtr) : Bool :=
  match x.core with
  | some c => c.handle = h
  | none => x.pool.any (·.handle = h)

/-- The thread is in NVKMS, which has not called back. -/
def inCore (x : Thread κ) : Bool := x.core.any (·.stage = .core) && x.pool.isNone

end Thread

/-- The handle NVKMS passes to `nvkms_event_queue_changed`. -/
def KmsState.calledBack (s : KmsState θ κ) (x : Thread κ) : (client : Option Cookie) → Option HandlePtr
  | some cookie => s.clients cookie
  | none => (x.core.filter (·.call = .nvKmsOpen)).map CoreCall.handle

/-- One step. A thread makes one call at a time, and NVKMS may call back before its call returns. -/
def KmsState.step [Fintype θ] (s : KmsState θ κ) : KmsAction θ κ → Option (KmsState θ κ)
  | .openDevice t h =>
    if (s.threads t).idle then
      match h with
      | none => some (s.setThread t { s.threads t with status := .noMemory })
      | some h =>
        -- `new` returns no address that is in use
        if (s.handles h).isNone then
          some ((s.setHandle h (some {})).setThread t
            { s.threads t with core := some ⟨.nvKmsOpen, h, .lock⟩ })
        else none
    else none
  | .control t h op =>
    if (s.threads t).idle && s.published h then
      if op < NV_HAIKU_KMS_BASE then
        some (s.setThread t { s.threads t with status := .devInvalidIoctl })
      else
        some (s.setThread t { s.threads t with
          core := some ⟨.nvKmsIoctl (op - NV_HAIKU_KMS_BASE), h, .lock⟩ })
    else none
  | .freeHandle t h =>
    if (s.threads t).idle ∧ s.published h ∧ ∀ t', (s.threads t').uses h = false then
      s.access h fun handle =>
        -- a handle without a cookie has nothing to close
        some ({ s with published := Function.update s.published h false }.setThread t
          { s.threads t with
            core := some ⟨.nvKmsClose, h, if handle.fCookie = none then .finish true else .lock⟩ })
    else none
  | .select t h event sync added =>
    if (s.threads t).idle && s.published h then
      some (s.setThread t { s.threads t with pool := some ⟨.select event sync added, h, .lock⟩ })
    else none
  | .deselect t h event sync removed =>
    if (s.threads t).idle && s.published h then
      some (s.setThread t { s.threads t with pool := some ⟨.deselect event sync removed, h, .lock⟩ })
    else none
  | .eventQueueChanged t client eventsAvailable =>
    if (s.threads t).inCore then
      (s.calledBack (s.threads t) client).map fun h =>
        s.setThread t { s.threads t with pool := some ⟨.eventQueueChanged eventsAvailable, h, .lock⟩ }
    else none
  | .advance t cookie res =>
    match (s.threads t).pool, (s.threads t).core with
    | some p, _ => s.advancePool t (s.threads t) p
    | none, some c => s.advanceCore t (s.threads t) c cookie res
    | none, none => none

/-- The device, with any number of threads. -/
def kmsDevice (θ κ : Type*) [DecidableEq θ] [DecidableEq κ] [Fintype θ] :
    TransitionSystem (KmsState θ κ) (KmsAction θ κ) :=
  .ofStep (· = {}) KmsState.step

end NvidiaHaiku.Nvkms

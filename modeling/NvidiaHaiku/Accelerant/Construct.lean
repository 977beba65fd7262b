/-
# The construction of the accelerant

The constructor of `NvAccelerant` duplicates the descriptor of the device, opens a client of
the resource manager with a device and a subdevice, and allocates a device of KMS. Then it
looks for a display, in up to ten attempts. Each goes through the valid displays and takes the
first one that is connected or has an EDID. It grabs ownership, and lists the modes, in a loop
that KMS may keep going forever.

Any step may throw. The members that are constructed by then are destroyed, the last one first.
`open` of the two control devices and the allocation of the KMS device are asserted to succeed.
-/

import NvidiaHaiku.Accelerant.Handles
import NvidiaHaiku.Accelerant.PreferredMode
import NvidiaHaiku.Math.Hierarchy
import NvidiaHaiku.Math.Scope

namespace NvidiaHaiku.Accelerant

open NvidiaHaiku.Math NvidiaHaiku.Sdk Attempt

namespace Lifetime

abbrev DeviceHandle := BitVec 32
abbrev DispHandle := BitVec 32
abbrev NVDpyId := BitVec 32

/-- What the kernel gives out to the team. -/
inductive Resource
  | file (fd : BitVec 32)
  /-- An object of the resource manager. `fd` is the descriptor of its client. -/
  | object (fd : BitVec 32) (hObject : NvHandle) (ancestors : List NvHandle)
  | kmsDevice (fd : BitVec 32) (handle : DeviceHandle)
  | surface (fd : BitVec 32) (device : DeviceHandle) (handle : SurfaceHandle)
  deriving DecidableEq, Repr

/-- `NvRmApi`. -/
structure NvRmApi where
  fFd : FileDesc := {}
  fClient : NvHandle := 0
  deriving DecidableEq, Repr

/-- `NvRmDevice`. -/
structure NvRmDevice where
  fDevice : NvHandle := 0
  fSubdevice : NvHandle := 0
  deriving DecidableEq, Repr

/-- `NvKmsApi`. -/
structure NvKmsApi where
  fFd : FileDesc := {}
  deriving DecidableEq, Repr

/-- `NvKmsAllocDeviceReply`. The handles are the first `numDisps` ones of `dispHandles`. -/
structure NvKmsAllocDeviceReply where
  deviceHandle : DeviceHandle
  dispHandles : List DispHandle
  deriving DecidableEq, Repr

/-- The bitmaps that are members of the accelerant. -/
inductive Member
  | fOldFramebuffer
  | fFramebuffer
  | fCursor
  | fNewCursor
  deriving DecidableEq, Repr

/-- The memory object and the surface of a bitmap. -/
structure Bitmap where
  fMemory : NvHandle
  fSurface : SurfaceHandle
  deriving DecidableEq, Repr

/-- The members that hold resources or are set by the constructor. -/
structure NvAccelerant where
  fDevFd : FileDesc := {}
  fRm : NvRmApi := {}
  fRmDev : NvRmDevice := {}
  fKms : NvKmsApi := {}
  /-- `fKmsDev.fInfo`. -/
  fInfo : NvKmsAllocDeviceReply
  fDisp : DispHandle
  fDpyId : NVDpyId
  fHead : BitVec 32 := 0
  fModeList : List NvKmsMode := []
  /-- The bitmaps that are set. -/
  bitmaps : Member → Option Bitmap := fun _ => none

/-- A part of the reply of `NVKMS_IOCTL_QUERY_DPY_DYNAMIC_DATA`. -/
structure DynamicData where
  connected : Bool := false
  /-- `edid.valid`. -/
  edidValid : Bool := false
  deriving DecidableEq, Repr

/-- What the calls reply. What is given out is set, so that its destructor releases it. -/
structure Replies where
  /-- `dup`, whose failure goes unnoticed. -/
  dup : Option { f : FileDesc // f.isSet }
  /-- `open` of the control device. -/
  openControl : Option { f : FileDesc // f.isSet }
  allocClient : Reply { h : NvHandle // h ≠ 0 }
  allocDevice : Reply { h : NvHandle // h ≠ 0 }
  allocSubdevice : Reply { h : NvHandle // h ≠ 0 }
  /-- `open` of the modeset device. -/
  openModeset : Option { f : FileDesc // f.isSet }
  /-- `NVKMS_IOCTL_ALLOC_DEVICE`. -/
  allocKmsDevice : Option NvKmsAllocDeviceReply
  /-- `NVKMS_IOCTL_QUERY_DISP`, with the displays of `validDpys` in their order. -/
  queryDisp : DispHandle → Reply (List NVDpyId)
  /-- `NVKMS_IOCTL_QUERY_DPY_DYNAMIC_DATA`, in each attempt. -/
  queryDpyDynamicData : ℕ → NVDpyId → Reply DynamicData
  grabOwnership : Reply Unit
  modes : NVDpyId → KmsModes

def ENODEV : Error := .errno 0x80007007

/-- `fDevFd(dup(devFd))`. -/
def constructDevFd (replies : Replies) : Attempt Error Resource FileDesc :=
  match replies.dup with
  | none => pure {}
  | some fDevFd => do
    member (.file fDevFd.1.fFd)
    return fDevFd.1

/-- `NvRmApi::NvRmApi`. -/
def NvRmApi.construct (replies : Replies) : Attempt Error Resource NvRmApi :=
  match replies.openControl with
  | none => abort
  | some fFd => do
    member (.file fFd.1.fFd)
    let fClient ← call replies.allocClient
    member (.object fFd.1.fFd fClient.1 [])
    return ⟨fFd.1, fClient.1⟩

/-- `NvRmDevice::NvRmDevice`. -/
def NvRmDevice.construct (rm : NvRmApi) (replies : Replies) :
    Attempt Error Resource NvRmDevice := do
  let fDevice ← call replies.allocDevice
  member (.object rm.fFd.fFd fDevice.1 [rm.fClient])
  let fSubdevice ← call replies.allocSubdevice
  member (.object rm.fFd.fFd fSubdevice.1 [fDevice.1, rm.fClient])
  return ⟨fDevice.1, fSubdevice.1⟩

/-- `NvKmsApi::NvKmsApi`. -/
def NvKmsApi.construct (replies : Replies) : Attempt Error Resource NvKmsApi :=
  match replies.openModeset with
  | none => abort
  | some fFd => do
    member (.file fFd.1.fFd)
    return ⟨fFd.1⟩

/-- `NvKmsDevice::NvKmsDevice`. Its destructor frees the device. -/
def constructKmsDevice (kms : NvKmsApi) (replies : Replies) :
    Attempt Error Resource NvKmsAllocDeviceReply :=
  match replies.allocKmsDevice with
  | none => abort
  | some fInfo => do
    member (.kmsDevice kms.fFd.fFd fInfo.deviceHandle)
    return fInfo

/-- `FindConnectedDisplay`. -/
def findConnectedDisplay (query : NVDpyId → Reply DynamicData) :
    List NVDpyId → Reply (Option NVDpyId)
  | [] => .ok none
  | curDpyId :: rest =>
    match query curDpyId with
    | .error e => .error e
    | .ok reply =>
      if reply.connected || reply.edidValid then .ok (some curDpyId)
      else findConnectedDisplay query rest

/-- The attempts from `i` on, of which `left` are left. -/
def attempts (query : ℕ → NVDpyId → Reply DynamicData) (validDpys : List NVDpyId) :
    (left i : ℕ) → Reply (Option NVDpyId)
  | 0, _ => .ok none
  | left + 1, i =>
    match findConnectedDisplay (query i) validDpys with
    | .error e => .error e
    | .ok (some fDpyId) => .ok (some fDpyId)
    | .ok none => attempts query validDpys left (i + 1)

def totalAttempts : ℕ := 10

namespace NvAccelerant

/-- The initialisation of the members, and the body of the constructor. -/
def build (replies : Replies) : Attempt Error Resource NvAccelerant := do
  let fDevFd ← constructDevFd replies
  let fRm ← NvRmApi.construct replies
  let fRmDev ← NvRmDevice.construct fRm replies
  let fKms ← NvKmsApi.construct replies
  let fInfo ← constructKmsDevice fKms replies
  match fInfo.dispHandles with
  | [] => throw ENODEV
  | fDisp :: _ => do
    let validDpys ← call (replies.queryDisp fDisp)
    let found ← call (attempts replies.queryDpyDynamicData validDpys totalAttempts 0)
    match found with
    | none => throw ENODEV
    | some fDpyId => do
      call replies.grabOwnership
      let fModeList ← loop ((replies.modes fDpyId).constructModeList KmsModes.indexCount)
      return { fDevFd, fRm, fRmDev, fKms, fInfo, fDisp, fDpyId, fModeList }

/-- `NvAccelerant::NvAccelerant`. -/
def construct (replies : Replies) : Attempt Error Resource NvAccelerant :=
  construction (build replies)

end NvAccelerant

/-! ## The display -/

/-- A display that the search stops at. -/
def DynamicData.shown (data : DynamicData) : Bool := data.connected || data.edidValid

/-- No display is found among `dpys`. -/
def FindsNone (query : NVDpyId → Reply DynamicData) (dpys : List NVDpyId) : Prop :=
  ∀ d ∈ dpys, ∃ data, query d = .ok data ∧ data.shown = false

/-- `d` is the first display of `dpys` that is found. -/
def Finds (query : NVDpyId → Reply DynamicData) (dpys : List NVDpyId) (d : NVDpyId) : Prop :=
  ∃ before after, dpys = before ++ d :: after ∧ FindsNone query before ∧
    ∃ data, query d = .ok data ∧ data.shown = true

section Display

variable {query : NVDpyId → Reply DynamicData} {queries : ℕ → NVDpyId → Reply DynamicData}
  {dpys : List NVDpyId} {d first : NVDpyId} {data : DynamicData} {left i : ℕ}

theorem findsNone_cons (replied : query first = .ok data) (hidden : data.shown = false) :
    FindsNone query (first :: dpys) ↔ FindsNone query dpys := by
  simp [FindsNone, replied, hidden]

theorem finds_cons (replied : query first = .ok data) (hidden : data.shown = false) :
    Finds query (first :: dpys) d ↔ Finds query dpys d := by
  constructor
  · rintro ⟨before, after, split, none, data', replied', shown⟩
    cases before with
    | nil =>
      obtain ⟨rfl, rfl⟩ := List.cons.inj split
      obtain rfl := Except.ok.inj (replied.symm.trans replied')
      simp [hidden] at shown
    | cons e before =>
      obtain ⟨rfl, rfl⟩ := List.cons.inj split
      exact ⟨before, after, rfl, (findsNone_cons replied hidden).mp none, data', replied', shown⟩
  · rintro ⟨before, after, rfl, none, found⟩
    exact ⟨first :: before, after, rfl, (findsNone_cons replied hidden).mpr none, found⟩

theorem findConnectedDisplay_eq_none_iff :
    findConnectedDisplay query dpys = .ok none ↔ FindsNone query dpys := by
  induction dpys with
  | nil => simp [findConnectedDisplay, FindsNone]
  | cons first rest ih =>
    unfold findConnectedDisplay
    cases replied : query first with
    | error e => simp [FindsNone, replied]
    | ok data =>
      cases shown : data.shown with
      | true =>
        have stops : (data.connected || data.edidValid) = true := shown
        simp [FindsNone, replied, stops, shown]
      | false =>
        rw [findsNone_cons replied shown, ← ih]
        rw [DynamicData.shown] at shown
        simp [shown]

theorem findConnectedDisplay_eq_some_iff :
    findConnectedDisplay query dpys = .ok (some d) ↔ Finds query dpys d := by
  induction dpys with
  | nil => simp [findConnectedDisplay, Finds]
  | cons first rest ih =>
    unfold findConnectedDisplay
    cases replied : query first with
    | error e =>
      -- the display found would be behind one that cannot be queried
      refine ⟨nofun, ?_⟩
      rintro ⟨before, after, split, none, data, replied', -⟩
      cases before with
      | nil =>
        obtain ⟨rfl, -⟩ := List.cons.inj split
        simp [replied] at replied'
      | cons e' before =>
        obtain ⟨rfl, -⟩ := List.cons.inj split
        obtain ⟨data, replied', -⟩ := none _ List.mem_cons_self
        simp [replied] at replied'
    | ok data =>
      cases shown : data.shown with
      | true =>
        have stops : (data.connected || data.edidValid) = true := shown
        simp only [stops, if_true, Except.ok.injEq, Option.some.injEq]
        constructor
        · rintro rfl
          exact ⟨[], rest, rfl, by simp [FindsNone], data, replied, shown⟩
        · rintro ⟨before, after, split, none, -⟩
          cases before with
          | nil => exact (List.cons.inj split).1
          | cons e before =>
            obtain ⟨rfl, -⟩ := List.cons.inj split
            obtain ⟨data', replied', hidden⟩ := none _ List.mem_cons_self
            obtain rfl := Except.ok.inj (replied.symm.trans replied')
            simp [shown] at hidden
      | false =>
        rw [finds_cons replied shown, ← ih]
        rw [DynamicData.shown] at shown
        simp [shown]

/-- Some attempt finds the display, and those before it go through and find none. -/
theorem attempts_eq_some_iff : attempts queries dpys left i = .ok (some d) ↔
    ∃ k < left, (∀ j < k, FindsNone (queries (i + j)) dpys) ∧ Finds (queries (i + k)) dpys d := by
  induction left generalizing i with
  | zero => simp [attempts]
  | succ left ih =>
    have now : ∀ d, Finds (queries i) dpys d ↔
        findConnectedDisplay (queries i) dpys = .ok (some d) :=
      fun d => findConnectedDisplay_eq_some_iff.symm
    have passes : FindsNone (queries i) dpys ↔
        findConnectedDisplay (queries i) dpys = .ok none :=
      findConnectedDisplay_eq_none_iff.symm
    -- the first attempt is the one that finds it, or the rest follow on it
    have split : (∃ k < left + 1, (∀ j < k, FindsNone (queries (i + j)) dpys) ∧
        Finds (queries (i + k)) dpys d) ↔ Finds (queries i) dpys d ∨ FindsNone (queries i) dpys ∧
        ∃ k < left, (∀ j < k, FindsNone (queries (i + 1 + j)) dpys) ∧
          Finds (queries (i + 1 + k)) dpys d := by
      constructor
      · rintro ⟨k, small, none, finds⟩
        cases k with
        | zero => exact Or.inl finds
        | succ k =>
          refine Or.inr ⟨none 0 k.succ_pos, k, Nat.lt_of_succ_lt_succ small, fun j less => ?_, ?_⟩
          · simpa [Nat.add_assoc, Nat.add_comm 1] using none (j + 1) (Nat.succ_lt_succ less)
          · simpa [Nat.add_assoc, Nat.add_comm 1] using finds
      · rintro (finds | ⟨first, k, small, none, finds⟩)
        · exact ⟨0, left.succ_pos, by simp, finds⟩
        · refine ⟨k + 1, Nat.succ_lt_succ small, fun j less => ?_, ?_⟩
          · cases j with
            | zero => exact first
            | succ j =>
              simpa [Nat.add_assoc, Nat.add_comm 1] using none j (Nat.lt_of_succ_lt_succ less)
          · simpa [Nat.add_assoc, Nat.add_comm 1] using finds
    rw [split, now, passes, ← ih]
    conv_lhs => rw [attempts]
    cases findConnectedDisplay (queries i) dpys with
    | error e => simp
    | ok found => cases found <;> simp

end Display

/-! ## What is constructed -/

/-- The accelerant is what the replies make it. -/
structure Built (replies : Replies) (a : NvAccelerant) : Prop where
  devFd : a.fDevFd = (replies.dup.map (·.1)).getD {}
  control : ∃ fFd, replies.openControl = some fFd ∧ fFd.1 = a.fRm.fFd
  client : ∃ h, replies.allocClient = .ok h ∧ h.1 = a.fRm.fClient
  device : ∃ h, replies.allocDevice = .ok h ∧ h.1 = a.fRmDev.fDevice
  subdevice : ∃ h, replies.allocSubdevice = .ok h ∧ h.1 = a.fRmDev.fSubdevice
  modeset : ∃ fFd, replies.openModeset = some fFd ∧ fFd.1 = a.fKms.fFd
  kmsDevice : replies.allocKmsDevice = some a.fInfo
  disp : a.fInfo.dispHandles.head? = some a.fDisp
  /-- One of the ten attempts finds the display, and those before it find none. -/
  display : ∃ validDpys, replies.queryDisp a.fDisp = .ok validDpys ∧
    ∃ i < totalAttempts, (∀ j < i, FindsNone (replies.queryDpyDynamicData j) validDpys) ∧
      Finds (replies.queryDpyDynamicData i) validDpys a.fDpyId
  grabbed : replies.grabOwnership = .ok ()
  /-- KMS comes to the end of the modes, and those that pass the second validation are listed. -/
  listed : ∃ shown, (replies.modes a.fDpyId).Enumerates 0 shown ∧
    (replies.modes a.fDpyId).Validates shown ∧
      a.fModeList = (shown.filter (replies.modes a.fDpyId).passes).map (·.mode)
  head : a.fHead = 0
  bitmaps : a.bitmaps = fun _ => none

/-- What the constructor has acquired when it returns, most recent first. -/
def NvAccelerant.acquired (a : NvAccelerant) : List Resource :=
  [.kmsDevice a.fKms.fFd.fFd a.fInfo.deviceHandle] ++ [.file a.fKms.fFd.fFd] ++
    [.object a.fRm.fFd.fFd a.fRmDev.fSubdevice [a.fRmDev.fDevice, a.fRm.fClient],
      .object a.fRm.fFd.fFd a.fRmDev.fDevice [a.fRm.fClient]] ++
    [.object a.fRm.fFd.fFd a.fRm.fClient [], .file a.fRm.fFd.fFd] ++
    if a.fDevFd.isSet then [.file a.fDevFd.fFd] else []

section Returned

variable {replies : Replies} {a : NvAccelerant} {rs : List Resource} {rm : NvRmApi}
  {rmDev : NvRmDevice} {kms : NvKmsApi} {fInfo : NvKmsAllocDeviceReply} {f : FileDesc}

theorem constructDevFd_returns_iff : (constructDevFd replies).Returns f rs ↔
    f = (replies.dup.map (·.1)).getD {} ∧ rs = if f.isSet then [.file f.fFd] else [] := by
  unfold constructDevFd
  cases replies.dup with
  | none =>
    simp only [returns_pure_iff, Option.map_none, Option.getD_none]
    constructor
    · rintro ⟨rfl, rfl⟩
      exact ⟨rfl, rfl⟩
    · rintro ⟨rfl, rfl⟩
      exact ⟨rfl, rfl⟩
  | some fDevFd =>
    simp only [returns_member_bind_iff, returns_pure_iff, Option.map_some, Option.getD_some]
    constructor
    · rintro ⟨-, ⟨rfl, rfl⟩, rfl⟩
      simp [fDevFd.2]
    · rintro ⟨rfl, rfl⟩
      simp [fDevFd.2]

theorem NvRmApi.construct_returns_iff : (NvRmApi.construct replies).Returns rm rs ↔
    (∃ fFd, replies.openControl = some fFd ∧ fFd.1 = rm.fFd) ∧
      (∃ h, replies.allocClient = .ok h ∧ h.1 = rm.fClient) ∧
        rs = [.object rm.fFd.fFd rm.fClient [], .file rm.fFd.fFd] := by
  unfold NvRmApi.construct
  cases replies.openControl with
  | none => simp
  | some fFd =>
    simp only [returns_member_bind_iff, returns_call_bind_iff, returns_pure_iff]
    constructor
    · rintro ⟨-, ⟨fClient, allocated, -, ⟨rfl, rfl⟩, rfl⟩, rfl⟩
      exact ⟨⟨fFd, rfl, rfl⟩, ⟨fClient, allocated, rfl⟩, rfl⟩
    · obtain ⟨_, _⟩ := rm
      rintro ⟨⟨_, ⟨⟩, rfl⟩, ⟨fClient, allocated, rfl⟩, rfl⟩
      exact ⟨_, ⟨fClient, allocated, _, ⟨rfl, rfl⟩, rfl⟩, rfl⟩

theorem NvRmDevice.construct_returns_iff : (NvRmDevice.construct rm replies).Returns rmDev rs ↔
    (∃ h, replies.allocDevice = .ok h ∧ h.1 = rmDev.fDevice) ∧
      (∃ h, replies.allocSubdevice = .ok h ∧ h.1 = rmDev.fSubdevice) ∧
        rs = [.object rm.fFd.fFd rmDev.fSubdevice [rmDev.fDevice, rm.fClient],
          .object rm.fFd.fFd rmDev.fDevice [rm.fClient]] := by
  unfold NvRmDevice.construct
  simp only [returns_member_bind_iff, returns_call_bind_iff, returns_pure_iff]
  constructor
  · rintro ⟨fDevice, allocated, -, ⟨fSubdevice, allocated', -, ⟨rfl, rfl⟩, rfl⟩, rfl⟩
    exact ⟨⟨fDevice, allocated, rfl⟩, ⟨fSubdevice, allocated', rfl⟩, rfl⟩
  · obtain ⟨_, _⟩ := rmDev
    rintro ⟨⟨fDevice, allocated, rfl⟩, ⟨fSubdevice, allocated', rfl⟩, rfl⟩
    exact ⟨fDevice, allocated, _, ⟨fSubdevice, allocated', _, ⟨rfl, rfl⟩, rfl⟩, rfl⟩

theorem NvKmsApi.construct_returns_iff : (NvKmsApi.construct replies).Returns kms rs ↔
    (∃ fFd, replies.openModeset = some fFd ∧ fFd.1 = kms.fFd) ∧ rs = [.file kms.fFd.fFd] := by
  unfold NvKmsApi.construct
  cases replies.openModeset with
  | none => simp
  | some fFd =>
    simp only [returns_member_bind_iff, returns_pure_iff]
    constructor
    · rintro ⟨-, ⟨rfl, rfl⟩, rfl⟩
      exact ⟨⟨fFd, rfl, rfl⟩, rfl⟩
    · obtain ⟨_⟩ := kms
      rintro ⟨⟨_, ⟨⟩, rfl⟩, rfl⟩
      exact ⟨_, ⟨rfl, rfl⟩, rfl⟩

theorem constructKmsDevice_returns_iff : (constructKmsDevice kms replies).Returns fInfo rs ↔
    replies.allocKmsDevice = some fInfo ∧ rs = [.kmsDevice kms.fFd.fFd fInfo.deviceHandle] := by
  unfold constructKmsDevice
  cases replies.allocKmsDevice with
  | none => simp
  | some fInfo =>
    simp only [returns_member_bind_iff, returns_pure_iff, Option.some.injEq]
    constructor
    · rintro ⟨-, ⟨rfl, rfl⟩, rfl⟩
      exact ⟨rfl, rfl⟩
    · rintro ⟨rfl, rfl⟩
      exact ⟨_, ⟨rfl, rfl⟩, rfl⟩

/-- The constructor returns what the replies make, with all its members in place. -/
theorem NvAccelerant.build_returns_iff :
    (build replies).Returns a rs ↔ Built replies a ∧ rs = a.acquired := by
  constructor
  · intro returns
    obtain ⟨fDevFd, _, devFd, _, afterDevFd, rfl⟩ := returns_bind_iff.mp returns
    obtain ⟨fRm, _, rm, _, afterRm, rfl⟩ := returns_bind_iff.mp afterDevFd
    obtain ⟨fRmDev, _, rmDev, _, afterRmDev, rfl⟩ := returns_bind_iff.mp afterRm
    obtain ⟨fKms, _, kms, _, afterKms, rfl⟩ := returns_bind_iff.mp afterRmDev
    obtain ⟨fInfo, _, kmsDev, _, afterKmsDev, rfl⟩ := returns_bind_iff.mp afterKms
    clear returns afterDevFd afterRm afterRmDev afterKms
    obtain ⟨rfl, rfl⟩ := constructDevFd_returns_iff.mp devFd
    obtain ⟨control, client, rfl⟩ := NvRmApi.construct_returns_iff.mp rm
    obtain ⟨device, subdevice, rfl⟩ := NvRmDevice.construct_returns_iff.mp rmDev
    obtain ⟨modeset, rfl⟩ := NvKmsApi.construct_returns_iff.mp kms
    obtain ⟨kmsDevice, rfl⟩ := constructKmsDevice_returns_iff.mp kmsDev
    split at afterKmsDev
    · exact absurd afterKmsDev not_returns_throw
    · rename_i fDisp rest disps
      obtain ⟨validDpys, queried, returns⟩ := returns_call_bind_iff.mp afterKmsDev
      obtain ⟨found, attempted, returns⟩ := returns_call_bind_iff.mp returns
      split at returns
      · exact absurd returns not_returns_throw
      · rename_i fDpyId
        obtain ⟨⟨⟩, grabbed, returns⟩ := returns_call_bind_iff.mp returns
        obtain ⟨fModeList, ran, returns⟩ := returns_loop_bind_iff.mp returns
        obtain ⟨rfl, rfl⟩ := returns_pure_iff.mp returns
        have listed := KmsModes.constructModeList_eq_ok_iff.mp ran
        have display := attempts_eq_some_iff.mp attempted
        simp only [Nat.zero_add] at display
        exact ⟨⟨rfl, control, client, device, subdevice, modeset, kmsDevice, by simp [disps],
          ⟨validDpys, queried, display⟩, grabbed, listed, rfl, rfl⟩, rfl⟩
  · obtain ⟨fDevFd, fRm, fRmDev, fKms, fInfo, fDisp, fDpyId, fHead, fModeList, bitmaps⟩ := a
    rintro ⟨⟨devFd, control, client, device, subdevice, modeset, kmsDevice, disp,
      ⟨validDpys, queried, display⟩, grabbed, listed, rfl, rfl⟩, rfl⟩
    obtain ⟨rest, disps⟩ : ∃ rest, fInfo.dispHandles = fDisp :: rest :=
      List.head?_eq_some_iff.mp disp
    have attempted : attempts replies.queryDpyDynamicData validDpys totalAttempts 0 =
        .ok (some fDpyId) := attempts_eq_some_iff.mpr (by simpa only [Nat.zero_add] using display)
    refine returns_bind_iff.mpr ⟨_, _, constructDevFd_returns_iff.mpr ⟨devFd, rfl⟩, _, ?_, rfl⟩
    refine returns_bind_iff.mpr ⟨fRm, _,
      NvRmApi.construct_returns_iff.mpr ⟨control, client, rfl⟩, _, ?_, rfl⟩
    refine returns_bind_iff.mpr ⟨fRmDev, _,
      NvRmDevice.construct_returns_iff.mpr ⟨device, subdevice, rfl⟩, _, ?_, rfl⟩
    refine returns_bind_iff.mpr ⟨fKms, _,
      NvKmsApi.construct_returns_iff.mpr ⟨modeset, rfl⟩, _, ?_, rfl⟩
    refine returns_bind_iff.mpr ⟨fInfo, _,
      constructKmsDevice_returns_iff.mpr ⟨kmsDevice, rfl⟩, [], ?_, rfl⟩
    rw [disps]
    refine returns_call_bind_iff.mpr ⟨validDpys, queried, ?_⟩
    refine returns_call_bind_iff.mpr ⟨some fDpyId, attempted, ?_⟩
    refine returns_call_bind_iff.mpr ⟨⟨⟩, grabbed, ?_⟩
    refine returns_loop_bind_iff.mpr
      ⟨fModeList, KmsModes.constructModeList_eq_ok_iff.mpr listed, ?_⟩
    exact returns_pure_iff.mpr ⟨rfl, rfl⟩

theorem NvAccelerant.build_plain : (build replies).Plain := by
  have devFd : (constructDevFd replies).Plain := by
    unfold constructDevFd
    cases replies.dup with
    | none => exact plain_pure _
    | some f => exact plain_member.bind fun _ => plain_pure _
  have rm : (NvRmApi.construct replies).Plain := by
    unfold NvRmApi.construct
    cases replies.openControl with
    | none => exact plain_abort
    | some f =>
      exact plain_member.bind fun _ => (plain_call _).bind fun _ =>
        plain_member.bind fun _ => plain_pure _
  have rmDev : ∀ fRm, (NvRmDevice.construct fRm replies).Plain := fun fRm =>
    (plain_call _).bind fun _ => plain_member.bind fun _ => (plain_call _).bind fun _ =>
      plain_member.bind fun _ => plain_pure _
  have kms : (NvKmsApi.construct replies).Plain := by
    unfold NvKmsApi.construct
    cases replies.openModeset with
    | none => exact plain_abort
    | some f => exact plain_member.bind fun _ => plain_pure _
  have kmsDevice : ∀ fKms, (constructKmsDevice fKms replies).Plain := by
    intro fKms
    unfold constructKmsDevice
    cases replies.allocKmsDevice with
    | none => exact plain_abort
    | some fInfo => exact plain_member.bind fun _ => plain_pure _
  refine devFd.bind fun _ => rm.bind fun _ => (rmDev _).bind fun _ => kms.bind fun _ =>
    (kmsDevice _).bind fun fInfo => ?_
  -- the body acquires nothing
  cases fInfo.dispHandles with
  | nil => exact plain_throw _
  | cons fDisp rest =>
    refine (plain_call _).bind fun _ => (plain_call _).bind fun found => ?_
    cases found with
    | none => exact plain_throw _
    | some fDpyId =>
      exact (plain_call _).bind fun _ => (plain_loop _).bind fun _ => plain_pure _

end Returned

/-- The constructor returns what the replies make, if they make an accelerant. -/
theorem construct_returned_iff (replies : Replies) (a : NvAccelerant) :
    (NvAccelerant.construct replies).outcome = .returned a ↔ Built replies a := by
  rw [NvAccelerant.construct, returns_construction_iff]
  simp [NvAccelerant.build_returns_iff]

/-- All calls succeed but `dup`, a display is found in the second attempt, and the first of its
two modes is not valid. -/
def connectsLate (control modeset : { f : FileDesc // f.isSet }) : Replies where
  dup := none
  openControl := some control
  allocClient := .ok ⟨0xC1D00001, by decide⟩
  allocDevice := .ok ⟨0x80, by decide⟩
  allocSubdevice := .ok ⟨0x81, by decide⟩
  openModeset := some modeset
  allocKmsDevice := some ⟨1, [2]⟩
  queryDisp _ := .ok [5]
  queryDpyDynamicData i _ := .ok { connected := i = 1 }
  grabOwnership := .ok ()
  modes _ := twoModes vgaFast (· = vgaTimings)

/-- The accelerant that is constructed late is the one that the replies make. -/
theorem construct_returned_late : ∃ a,
    (NvAccelerant.construct (connectsLate ⟨⟨3⟩, rfl⟩ ⟨⟨4⟩, rfl⟩)).outcome = .returned a ∧
      a.fDpyId = 5 ∧ a.fModeList = [vgaTimings] ∧
        Built (connectsLate ⟨⟨3⟩, rfl⟩ ⟨⟨4⟩, rfl⟩) a :=
  ⟨_, rfl, rfl, rfl, (construct_returned_iff _ _).mp rfl⟩

end Lifetime

end NvidiaHaiku.Accelerant

/-
# The lifetime of the accelerant

The hooks `INIT_ACCELERANT` and `CLONE_ACCELERANT` construct an `NvAccelerant` and make it the
instance, and `UNINIT_ACCELERANT` deletes the instance. In between the other hooks give it
framebuffers and cursors, and move these from member to member.

What is released takes with it what lies under it: closing a descriptor frees the objects of
its client, freeing an object frees its children, and freeing a KMS device frees its surfaces.
A destructor that came too late would find nothing to release, and its exception would end the
process.

Files, objects of the RM, devices of KMS and surfaces have a part in this. The mappings of the
bitmaps with their areas have none, nor have descriptors that are open only within one method.
A release of what there is succeeds.
-/

import NvidiaHaiku.Accelerant.BitmapCreate
import NvidiaHaiku.Accelerant.Construct
import NvidiaHaiku.Math.Transition

namespace NvidiaHaiku.Accelerant.Lifetime

open NvidiaHaiku.Math NvidiaHaiku.Sdk Attempt TransitionSystem

/-! ## What the kernel gives out -/

/-- The calls that release something. -/
inductive Name
  | close (fd : BitVec 32)
  /-- `NvRmApi::Free`. -/
  | free (fd : BitVec 32) (hObject : NvHandle)
  /-- `NVKMS_IOCTL_FREE_DEVICE`. -/
  | freeDevice (fd : BitVec 32) (handle : DeviceHandle)
  /-- `NVKMS_IOCTL_UNREGISTER_SURFACE`. -/
  | unregisterSurface (fd : BitVec 32) (device : DeviceHandle) (handle : SurfaceHandle)
  deriving DecidableEq, Repr

namespace Resource

/-- The call that gives the resource back. -/
def name : Resource → Name
  | file fd => .close fd
  | object fd hObject _ => .free fd hObject
  | kmsDevice fd handle => .freeDevice fd handle
  | surface fd device handle => .unregisterSurface fd device handle

/-- The resource that it lies under. -/
def parent : Resource → Option Resource
  | file _ => none
  | object fd _ [] => some (file fd)
  | object fd _ (hParent :: ancestors) => some (object fd hParent ancestors)
  | kmsDevice fd _ => some (file fd)
  | surface fd device _ => some (kmsDevice fd device)

/-- What goes with the call: the resource of that name, and all under it. -/
def under : Resource → Name → Bool
  | file fd, .close fd' => fd = fd'
  | object fd _ _, .close fd' => fd = fd'
  | object fd hObject ancestors, .free fd' hObject' =>
    fd = fd' && (hObject = hObject' || ancestors.contains hObject')
  | kmsDevice fd _, .close fd' => fd = fd'
  | kmsDevice fd handle, .freeDevice fd' handle' => fd = fd' && handle = handle'
  | surface fd _ _, .close fd' => fd = fd'
  | surface fd device _, .freeDevice fd' device' => fd = fd' && device = device'
  | surface fd device handle, .unregisterSurface fd' device' handle' =>
    fd = fd' && device = device' && handle = handle'
  | _, _ => false

theorem under_name (r : Resource) : r.under r.name = true := by
  cases r <;> simp [under, name]

theorem lineage (r : Resource) (n : Name) (lies : r.under n = true) :
    n = r.name ∨ ∃ p, r.parent = some p ∧ p.under n = true := by
  cases r with
  | file fd => cases n <;> simp_all [under, name]
  | object fd hObject ancestors =>
    cases n with
    | close fd' => cases ancestors <;> exact Or.inr ⟨_, rfl, by simpa [under] using lies⟩
    | free fd' hObject' =>
      simp only [under, Bool.and_eq_true, decide_eq_true_eq, Bool.or_eq_true,
        List.contains_iff_mem] at lies
      obtain ⟨rfl, rfl | above⟩ := lies
      · exact Or.inl rfl
      · cases ancestors with
        | nil => exact absurd above List.not_mem_nil
        | cons hParent ancestors =>
          refine Or.inr ⟨_, rfl, ?_⟩
          rcases List.mem_cons.mp above with rfl | above
          · simp [under]
          · simp [under, above]
    | freeDevice fd' handle' => simp [under] at lies
    | unregisterSurface fd' device' handle' => simp [under] at lies
  | kmsDevice fd handle => cases n <;> simp_all [under, name, parent]
  | surface fd device handle => cases n <;> simp_all [under, name, parent]

end Resource

/-- The resources of the kernel, with the calls that give them back. -/
def kernel : Hierarchy Resource Name where
  name := Resource.name
  parent := Resource.parent
  under := Resource.under
  self := Resource.under_name
  lineage := Resource.lineage

/-! ## Where the accelerant keeps it -/

/-- The variables that hold resources. The local variable of a method that constructs a bitmap
is `none`. -/
inductive Role
  | devFd
  | rmFd
  | client
  | device
  | subdevice
  | kmsFd
  | kmsDevice
  | memory (m : Option Member)
  | surface (m : Option Member)
  /-- The descriptor that `Clone` opens. -/
  | argument
  deriving DecidableEq, Repr

namespace NvAccelerant

variable (a : NvAccelerant)

/-- The memory object of a bitmap. -/
def memory (b : Bitmap) : Resource :=
  .object a.fRm.fFd.fFd b.fMemory [a.fRmDev.fDevice, a.fRm.fClient]

/-- The surface of a bitmap. -/
def surface (b : Bitmap) : Resource :=
  .surface a.fKms.fFd.fFd a.fInfo.deviceHandle b.fSurface

/-- What the variables hold, if `slots` are the bitmaps in them. -/
def holds (slots : Option Member → Option Bitmap) : Role → Option Resource
  | .devFd => if a.fDevFd.isSet then some (.file a.fDevFd.fFd) else none
  | .rmFd => some (.file a.fRm.fFd.fFd)
  | .client => some (.object a.fRm.fFd.fFd a.fRm.fClient [])
  | .device => some (.object a.fRm.fFd.fFd a.fRmDev.fDevice [a.fRm.fClient])
  | .subdevice =>
    some (.object a.fRm.fFd.fFd a.fRmDev.fSubdevice [a.fRmDev.fDevice, a.fRm.fClient])
  | .kmsFd => some (.file a.fKms.fFd.fFd)
  | .kmsDevice => some (.kmsDevice a.fKms.fFd.fFd a.fInfo.deviceHandle)
  | .memory m => (slots m).map a.memory
  | .surface m => (slots m).map a.surface
  | .argument => none

/-- The bitmaps between two calls. -/
def slots (m : Option Member) : Option Bitmap := m.bind a.bitmaps

def part (role : Role) : Option Resource := a.holds a.slots role

end NvAccelerant

/-- The members in the order in which the destructor of `NvAccelerant` destroys them. -/
def destroyed : List Role :=
  [.surface (some .fNewCursor), .memory (some .fNewCursor), .surface (some .fCursor),
    .memory (some .fCursor), .surface (some .fFramebuffer), .memory (some .fFramebuffer),
    .surface (some .fOldFramebuffer), .memory (some .fOldFramebuffer), .kmsDevice, .kmsFd,
    .subdevice, .device, .client, .rmFd, .devFd]

namespace NvAccelerant

variable (a : NvAccelerant)

/-- `NvAccelerant::~NvAccelerant`. -/
def destroy : List (Op Resource) := (destroyed.filterMap a.part).map .release

/-- The members that the constructor of a bitmap sets, in its order. -/
def parts (b : Bitmap) : List Resource := [a.memory b, a.surface b]

/-- The constructor of a bitmap, when it returns. -/
def createBitmap (b : Bitmap) : List (Op Resource) := (a.parts b).map .acquire

/-- The constructor of a bitmap, when it throws with the first `set` members set. -/
def throwBitmap (b : Bitmap) (set : ℕ) : List (Op Resource) :=
  ((a.parts b).take set).map .acquire ++ ((a.parts b).take set).reverse.map .release

/-- The destructor of a bitmap, or `operator=`. -/
def giveUp : Option Bitmap → List (Op Resource)
  | none => []
  | some b => [.release (a.surface b), .release (a.memory b)]

/-- What the members of a bitmap come to hold, of what its constructor acquires. -/
def kept : Accelerant.Resource → Option Resource
  | .handle (.free _ hObject) =>
    some (.object a.fRm.fFd.fFd hObject [a.fRmDev.fDevice, a.fRm.fClient])
  | .handle (.unregisterSurface _ handle) =>
    some (.surface a.fKms.fFd.fFd a.fInfo.deviceHandle handle)
  | .handle (.close _) | .rmMapping _ | .area _ => none

/-- `NvAccelerant::Clone`, with the reply of `open`. -/
def clone (opened : Reply { f : FileDesc // f.isSet }) (replies : Replies) :
    Attempt Error Resource NvAccelerant := do
  let devFd ← call opened
  acquire (.file devFd.1.fFd)
  holding (.file devFd.1.fFd) (construct replies)

end NvAccelerant

/-- What the hooks do to the bitmaps. -/
inductive Method
  /-- `SetDisplayMode` constructs a framebuffer. If KMS sets the mode, it is moved to
  `fFramebuffer`, and the framebuffer before it to `fOldFramebuffer`. -/
  | setDisplayMode (newFramebuffer : Bitmap) (committed : Bool)
  /-- `SetCursorBitmap` constructs a cursor and moves it to `fNewCursor`. -/
  | setCursorBitmap (newCursor : Bitmap)
  /-- `SetDisplayMode` or `SetCursorBitmap`, when the constructor of the bitmap throws. -/
  | bitmapThrows (newBitmap : Bitmap) (set : ℕ)
  /-- `UpdateCursor` moves `fNewCursor` to `fCursor`, if it is set, when KMS has set the image. -/
  | updateCursor
  deriving DecidableEq, Repr

namespace NvAccelerant

/-- What the method acquires and releases. -/
def ops (a : NvAccelerant) : Method → List (Op Resource)
  | .setDisplayMode newFramebuffer committed =>
    a.createBitmap newFramebuffer ++
      if committed then a.giveUp (a.bitmaps .fOldFramebuffer) else a.giveUp (some newFramebuffer)
  | .setCursorBitmap newCursor => a.createBitmap newCursor ++ a.giveUp (a.bitmaps .fNewCursor)
  | .bitmapThrows newBitmap set => a.throwBitmap newBitmap set
  | .updateCursor => if (a.bitmaps .fNewCursor).isSome then a.giveUp (a.bitmaps .fCursor) else []

/-- Replaces a bitmap. -/
def assign (a : NvAccelerant) (m : Member) (b : Option Bitmap) : NvAccelerant :=
  { a with bitmaps := Function.update a.bitmaps m b }

/-- The accelerant after the method. -/
def after (a : NvAccelerant) : Method → NvAccelerant
  | .setDisplayMode newFramebuffer true =>
    (a.assign .fOldFramebuffer (a.bitmaps .fFramebuffer)).assign .fFramebuffer
      (some newFramebuffer)
  | .setDisplayMode _ false => a
  | .setCursorBitmap newCursor => a.assign .fNewCursor (some newCursor)
  | .bitmapThrows .. => a
  | .updateCursor =>
    if (a.bitmaps .fNewCursor).isSome then
      (a.assign .fCursor (a.bitmaps .fNewCursor)).assign .fNewCursor none
    else a

end NvAccelerant

/-- The constructor of a bitmap sets its members as the methods have it: all of them when it
returns, and some of the first ones when it throws. -/
theorem NvAccelerant.kept_construct (a : NvAccelerant) (device : NvRmObject) (kmsDev : Address)
    (width height colorSpace : BitVec 32) (replies : ConstructReplies) :
    let attempt := NvKmsBitmap.construct device kmsDev width height colorSpace replies
    (∀ bitmap, attempt.outcome = .returned bitmap →
        attempt.ops.filterMap (Op.restrict a.kept) =
          a.createBitmap ⟨bitmap.fMemory.fHObject, bitmap.fSurface.fHandle⟩) ∧
      ∀ e, attempt.outcome = .thrown e → ∃ b set,
        attempt.ops.filterMap (Op.restrict a.kept) = a.throwBitmap b set := by
  intro attempt
  have throws (ops : List (Op Accelerant.Resource)) (b : Bitmap) (set : ℕ)
      (same : ops.filterMap (Op.restrict a.kept) = a.throwBitmap b set) :
      ∃ b set, ops.filterMap (Op.restrict a.kept) = a.throwBitmap b set := ⟨b, set, same⟩
  unfold attempt NvKmsBitmap.construct
  by_cases rejected : colorSpace ≠ B_RGB32 ∧ colorSpace ≠ B_RGBA32
  · simp only [if_pos rejected]
    exact ⟨(fun _ returned => by cases returned), fun _ _ => throws _ ⟨0, 0⟩ 0 rfl⟩
  · obtain ⟨allocate, openControl, exportObject, registerSurface, openDevice, mapMemory,
      haikuMap⟩ := replies
    simp only [if_neg rejected]
    -- the calls in their order: the memory object is set first, and then the surface
    cases allocate with
    | error e => exact ⟨(fun _ returned => by cases returned), fun _ _ => throws _ ⟨0, 0⟩ 0 rfl⟩
    | ok memory =>
      have throwsMemory := fun ops => throws ops ⟨memory.1.fHObject, 0⟩ 1
      cases openControl with
      | error e => exact ⟨(fun _ returned => by cases returned), fun _ _ => throwsMemory _ rfl⟩
      | ok outFd =>
        cases exportObject with
        | error e => exact ⟨(fun _ returned => by cases returned), fun _ _ => throwsMemory _ rfl⟩
        | ok _ =>
          cases registerSurface with
          | error e =>
            exact ⟨(fun _ returned => by cases returned), fun _ _ => throwsMemory _ rfl⟩
          | ok handle =>
            have throwsBoth := fun ops => throws ops ⟨memory.1.fHObject, handle.1⟩ 2
            cases openDevice with
            | none =>
              exact ⟨(fun _ returned => by cases returned), fun _ thrown => by cases thrown⟩
            | some memFd =>
              cases mapMemory with
              | error e =>
                exact ⟨(fun _ returned => by cases returned), fun _ _ => throwsBoth _ rfl⟩
              | ok pLinearAddress =>
                cases haikuMap with
                | error e =>
                  exact ⟨(fun _ returned => by cases returned), fun _ _ => throwsBoth _ rfl⟩
                | ok mapped =>
                  refine ⟨?_, fun _ thrown => by cases thrown⟩
                  rintro _ ⟨⟩
                  rfl

/-! ## The system -/

/-- The accelerants of a process, and what they have been given. -/
structure State where
  /-- The accelerants that have been constructed and not deleted. -/
  heap : Address → Option NvAccelerant := fun _ => none
  sInstance : Option Address := none
  /-- What the kernel has given out. -/
  held : List Resource := []
  /-- A release found nothing to release. -/
  releaseFailed : Bool := false

/-- A call of a hook, with the replies that it gets. -/
inductive Hook
  /-- `Init`, with the address of the new accelerant. -/
  | init (this : Address) (replies : Replies)
  | clone (this : Address) (opened : Reply { f : FileDesc // f.isSet }) (replies : Replies)
  | uninit
  | method (m : Method)

namespace State

/-- The kernel gives out what is fresh, and takes back what there is. -/
def carryOut (s : State) (ops : List (Op Resource)) : Option State :=
  if kernel.gives s.held ops then
    match kernel.run s.held ops with
    | some held => some { s with held := held }
    | none => some { s with releaseFailed := true }
  else none

/-- Constructs an accelerant and makes it the instance, whatever was the instance before. -/
def construct (s : State) (this : Address) (m : Attempt Error Resource NvAccelerant) :
    Option State :=
  if s.heap this = none then
    (s.carryOut m.ops).bind fun t =>
      match m.outcome with
      | .returned a =>
        some { t with heap := Function.update t.heap this (some a), sInstance := some this }
      | .thrown _ => some t
      | .noReturn => none
  else none

/-- One hook. Those that construct no accelerant work on the instance. -/
def step (s : State) : Hook → Option State
  | .init this replies => s.construct this (NvAccelerant.construct replies)
  | .clone this opened replies => s.construct this (NvAccelerant.clone opened replies)
  | .uninit =>
    s.sInstance.bind fun this => (s.heap this).bind fun a =>
      (s.carryOut a.destroy).map fun t =>
        { t with heap := Function.update t.heap this none, sInstance := none }
  | .method m =>
    s.sInstance.bind fun this => (s.heap this).bind fun a =>
      (s.carryOut (a.ops m)).map fun t =>
        { t with heap := Function.update t.heap this (some (a.after m)) }

end State

/-- The process, which has no accelerant at first. -/
def hooks : TransitionSystem State Hook := ofStep (· = {}) State.step

/-- The accelerants that were the instance when another one was made the instance. -/
def overwritten (past : List (Event State Hook)) : Set Address :=
  { a | ∃ e ∈ past, e.source.sInstance = some a ∧ e.target.sInstance.isSome ∧
    e.target.sInstance ≠ some a }

/-- What is held is held by the instance and by those that have been overwritten. -/
structure Accounted (past : List (Event State Hook)) (s : State) : Prop where
  /-- No destructor comes too late. -/
  succeeded : s.releaseFailed = false
  /-- Nothing is held twice. -/
  once : s.held.Nodup
  held : ∀ r, r ∈ s.held ↔ ∃ this a role, s.heap this = some a ∧ a.part role = some r
  living : ∀ this, s.heap this ≠ none ↔ s.sInstance = some this ∨ this ∈ overwritten past

/-! ## The order of the variables -/

namespace Role

/-- The variables whose resources a resource may lie under. -/
def above : Role → List Role
  | .devFd | .rmFd | .kmsFd | .argument => []
  | .client => [.rmFd]
  | .device => [.client, .rmFd]
  | .subdevice => [.device, .client, .rmFd]
  | .kmsDevice => [.kmsFd]
  | .memory _ => [.device, .client, .rmFd]
  | .surface _ => [.kmsDevice, .kmsFd]

/-- They are one variable, or `upper` holds what the resource in `role` lies under. -/
def le (role upper : Role) : Prop := role = upper ∨ upper ∈ role.above

instance (role upper : Role) : Decidable (role.le upper) :=
  inferInstanceAs (Decidable (_ = _ ∨ _ ∈ _))

variable {role middle upper : Role}

theorem le.trans (first : role.le middle) (second : middle.le upper) : role.le upper := by
  rcases first with rfl | first
  · exact second
  · rcases second with rfl | second
    · exact Or.inr first
    · refine Or.inr ?_
      cases role <;> cases middle <;> simp_all [above]

end Role

/-- A variable of one accelerant lies under others of the same one. -/
def Lower (x y : Address × Role) : Prop := x.1 = y.1 ∧ x.2.le y.2

instance : Std.Refl Lower := ⟨fun _ => ⟨rfl, Or.inl rfl⟩⟩

instance : IsTrans (Address × Role) Lower :=
  ⟨fun _ _ _ first second => ⟨first.1.trans second.1, first.2.trans second.2⟩⟩

/-- What the variables of all accelerants hold. -/
def partOf (heap : Address → Option NvAccelerant) (x : Address × Role) : Option Resource :=
  (heap x.1).bind (·.part x.2)

/-- One accelerant among others. -/
def placeAt (base : Address × Role → Option Resource) (this : Address) (a : NvAccelerant)
    (slots : Option Member → Option Bitmap) (x : Address × Role) : Option Resource :=
  if x.1 = this then a.holds slots x.2 else base x

section Placing

variable {heap : Address → Option NvAccelerant} {base : Address × Role → Option Resource}
  {this : Address} {a : NvAccelerant} {slots : Option Member → Option Bitmap}
  {held left : List Resource} {b : Bitmap} {m : Option Member}

/-- The variables of one accelerant hold what it holds, the others what they did. -/
theorem eq_placeAt {part : Address × Role → Option Resource}
    (own : ∀ role, part (this, role) = a.holds slots role)
    (others : ∀ c role, c ≠ this → part (c, role) = base (c, role)) :
    part = placeAt base this a slots := by
  funext ⟨c, role⟩
  by_cases here : c = this
  · subst here
    simp [placeAt, own]
  · simp [placeAt, here, others c role here]

theorem partOf_eq (alive : heap this = some a) :
    partOf heap = placeAt (partOf heap) this a a.slots :=
  eq_placeAt (fun role => by simp [partOf, alive, NvAccelerant.part]) fun _ _ _ => rfl

theorem partOf_update :
    partOf (Function.update heap this (some a)) = placeAt (partOf heap) this a a.slots :=
  eq_placeAt (fun role => by simp [partOf, NvAccelerant.part])
    fun c role other => by simp [partOf, other]

/-- A new bitmap is placed in the local variable. -/
theorem placed_createBitmap (placed : kernel.Placed Lower (placeAt base this a slots) held)
    (vacant : slots none = none) (gives : kernel.gives held (a.createBitmap b) = true) :
    kernel.Placed Lower (placeAt base this a (Function.update slots none (some b)))
      (a.surface b :: a.memory b :: held) := by
  simp only [NvAccelerant.createBitmap, NvAccelerant.parts, List.map_cons, List.map_nil,
    Hierarchy.gives, Bool.and_eq_true, decide_eq_true_eq] at gives
  have memory := placed.acquire (x := (this, .memory none)) (by simp [placeAt, NvAccelerant.holds,
    vacant]) gives.1 fun p parent => by
      obtain rfl := Option.some.inj parent
      exact ⟨(this, .device), by simp [placeAt, NvAccelerant.holds], rfl,
        Or.inr (by simp [Role.above])⟩
  have surface := memory.acquire (x := (this, .surface none)) (by simp [placeAt,
    NvAccelerant.holds, vacant]) gives.2.1 fun p parent => by
      obtain rfl := Option.some.inj parent
      exact ⟨(this, .kmsDevice), by simp [placeAt, NvAccelerant.holds], rfl,
        Or.inr (by simp [Role.above])⟩
  refine eq_placeAt (fun role => ?_) (fun c role other => ?_) ▸ surface
  · cases role with
    | memory m => by_cases none : m = .none <;> simp [placeAt, NvAccelerant.holds, none]
    | surface m => by_cases none : m = .none <;> simp [placeAt, NvAccelerant.holds, none]
    | _ => simp [placeAt, NvAccelerant.holds]
  · simp [placeAt, other]

/-- A bitmap is given up alone. -/
theorem placed_giveUp (placed : kernel.Placed Lower (placeAt base this a slots) held)
    (m : Option Member) : ∃ left, kernel.run held (a.giveUp (slots m)) = some left ∧
      kernel.Placed Lower (placeAt base this a (Function.update slots m none)) left := by
  obtain ⟨left, ran, placed⟩ := placed.releases [(this, .surface m), (this, .memory m)]
    (by simp [Lower, Role.le, Role.above]) (by
      rintro x member ⟨c, role⟩ ⟨rfl, lower⟩ -
      simp only [List.mem_cons, List.not_mem_nil, or_false] at member
      -- there is nothing below a surface or a memory object
      rcases member with rfl | rfl <;> cases role <;> simp_all [Role.le, Role.above])
  refine ⟨left, ?_, eq_placeAt (fun role => ?_) (fun c role other => ?_) ▸ placed⟩
  · cases occupied : slots m <;>
      simpa [placeAt, NvAccelerant.holds, occupied, NvAccelerant.giveUp] using ran
  · cases role with
    | memory m' => by_cases same : m' = m <;> simp [placeAt, NvAccelerant.holds, same]
    | surface m' => by_cases same : m' = m <;> simp [placeAt, NvAccelerant.holds, same]
    | _ => simp [placeAt, NvAccelerant.holds]
  · simp [placeAt, other]

/-- The same bitmaps in other variables. -/
def Role.permute (e : Option Member ≃ Option Member) : Role ≃ Role where
  toFun
    | .memory m => .memory (e m)
    | .surface m => .surface (e m)
    | role => role
  invFun
    | .memory m => .memory (e.symm m)
    | .surface m => .surface (e.symm m)
    | role => role
  left_inv role := by cases role <;> simp
  right_inv role := by cases role <;> simp

theorem placed_permute (placed : kernel.Placed Lower (placeAt base this a slots) held)
    (e : Option Member ≃ Option Member) :
    kernel.Placed Lower (placeAt base this a fun m => slots (e m)) held := by
  have moved := placed.permute (Equiv.prodShear (Equiv.refl Address) fun c =>
    if c = this then Role.permute e else Equiv.refl Role) ?_
  · refine eq_placeAt (fun role => ?_) (fun c role other => ?_) ▸ moved
    · cases role <;> simp [placeAt, NvAccelerant.holds, Role.permute]
    · simp [placeAt, other]
  · rintro ⟨c, role⟩ ⟨c', role'⟩ ⟨same, lower⟩
    obtain rfl : c = c' := same
    refine ⟨rfl, ?_⟩
    by_cases here : c = this
    · simp only [Equiv.prodShear_apply, here, if_true] at lower
      cases role <;> cases role' <;> simp_all [Role.le, Role.above, Role.permute]
    · simpa [here] using lower

theorem holds_after (m : Method) : (a.after m).holds = a.holds := by
  funext slots role
  have assign : ∀ (a : NvAccelerant) m b, (a.assign m b).holds slots role = a.holds slots role :=
    fun a m b => by cases role <;> rfl
  cases m with
  | setDisplayMode newFramebuffer committed => cases committed <;> simp [NvAccelerant.after, assign]
  | setCursorBitmap newCursor => exact assign ..
  | bitmapThrows => rfl
  | updateCursor =>
    simp only [NvAccelerant.after]
    split
    · simp [assign]
    · rfl

theorem run_then {ops later : List (Op Resource)} {middle : List Resource}
    (first : kernel.run held ops = some middle) (second : kernel.run middle later = some left) :
    kernel.run held (ops ++ later) = some left := by
  rw [Hierarchy.run_append, first, Option.bind_some, second]

/-- A method that constructs a bitmap gives up one, and moves others. -/
theorem placed_replace {new : Bitmap}
    (placed : kernel.Placed Lower (placeAt base this a a.slots) held)
    (m : Option Member) (e : Option Member ≃ Option Member)
    (gives : kernel.gives held (a.createBitmap new ++
      a.giveUp (Function.update a.slots none (some new) m)) = true) :
    ∃ left, kernel.run held (a.createBitmap new ++
        a.giveUp (Function.update a.slots none (some new) m)) = some left ∧
      kernel.Placed Lower (placeAt base this a fun x =>
        Function.update (Function.update a.slots none (some new)) m none (e x)) left := by
  have created : kernel.run held (a.createBitmap new) =
      some (a.surface new :: a.memory new :: held) := rfl
  obtain ⟨left, ran, placed⟩ := placed_giveUp
    (placed_createBitmap placed rfl ((Hierarchy.gives_append created).mp gives).1) m
  exact ⟨left, run_then created ran, placed_permute placed e⟩

theorem placed_method (placed : kernel.Placed Lower (placeAt base this a a.slots) held)
    (m : Method) (gives : kernel.gives held (a.ops m) = true) :
    ∃ left, kernel.run held (a.ops m) = some left ∧
      kernel.Placed Lower (placeAt base this (a.after m) (a.after m).slots) left := by
  have same : ∀ slots, placeAt base this (a.after m) slots = placeAt base this a slots := by
    intro slots
    unfold placeAt
    rw [holds_after]
  rw [same]
  cases m with
  | setDisplayMode newFramebuffer committed =>
    cases committed with
    | true =>
      obtain ⟨left, ran, placed⟩ := placed_replace placed (some .fOldFramebuffer)
        ((Equiv.swap (some .fOldFramebuffer) (some .fFramebuffer)).trans
          (Equiv.swap none (some .fOldFramebuffer))) gives
      refine ⟨left, ran, (funext fun x => ?_ : _ = NvAccelerant.slots _) ▸ placed⟩
      rcases x with _ | _ | _ | _ | _ <;> rfl
    | false =>
      obtain ⟨left, ran, placed⟩ := placed_replace placed none (Equiv.refl _) gives
      refine ⟨left, ran, (funext fun x => ?_ : _ = NvAccelerant.slots _) ▸ placed⟩
      rcases x with _ | _ | _ | _ | _ <;> rfl
  | setCursorBitmap newCursor =>
    obtain ⟨left, ran, placed⟩ := placed_replace placed (some .fNewCursor)
      (Equiv.swap none (some .fNewCursor)) gives
    refine ⟨left, ran, (funext fun x => ?_ : _ = NvAccelerant.slots _) ▸ placed⟩
    rcases x with _ | _ | _ | _ | _ <;> rfl
  | bitmapThrows newBitmap set =>
    exact ⟨held, Hierarchy.run_undo ((Hierarchy.gives_append Hierarchy.run_acquires).mp gives).1,
      placed⟩
  | updateCursor =>
    unfold NvAccelerant.ops NvAccelerant.after
    by_cases set : (a.bitmaps .fNewCursor).isSome
    · obtain ⟨left, ran, placed⟩ := placed_giveUp placed (some .fCursor)
      have moved := placed_permute placed (Equiv.swap (some .fCursor) (some .fNewCursor))
      simp only [if_pos set]
      refine ⟨left, ran, (funext fun x => ?_ : _ = NvAccelerant.slots _) ▸ moved⟩
      rcases x with _ | _ | _ | _ | _ <;> rfl
    · simp only [if_neg set]
      exact ⟨held, rfl, placed⟩

/-- Everything is given up by the destructor. -/
theorem placed_destroy (placed : kernel.Placed Lower (partOf heap) held)
    (alive : heap this = some a) : ∃ left, kernel.run held a.destroy = some left ∧
      kernel.Placed Lower (partOf (Function.update heap this none)) left := by
  have covered : ∀ role, a.part role ≠ none → role ∈ destroyed := by
    intro role occupied
    cases role with
    | memory m => rcases m with _ | _ | _ | _ | _ <;> first | decide | exact absurd rfl occupied
    | surface m => rcases m with _ | _ | _ | _ | _ <;> first | decide | exact absurd rfl occupied
    | argument => exact absurd rfl occupied
    | _ => decide
  have part : ∀ role, partOf heap (this, role) = a.part role := fun role => by
    simp [partOf, alive]
  -- children are destroyed before their parents
  have ordered : destroyed.Pairwise fun earlier next => ¬ next.le earlier := by decide
  obtain ⟨left, ran, placed⟩ := placed.releases (destroyed.map fun role => (this, role))
    (List.pairwise_map.mpr (ordered.imp fun unrelated lower => unrelated lower.2)) (by
      rintro x member ⟨c, role⟩ ⟨same, -⟩ occupied
      obtain ⟨role', -, rfl⟩ := List.mem_map.mp member
      obtain rfl : c = this := same
      rw [part] at occupied
      exact List.mem_map_of_mem (covered role occupied))
  refine ⟨left, ?_, (funext fun x => ?_ : _ = partOf _) ▸ placed⟩
  · rw [List.filterMap_map] at ran
    simpa [NvAccelerant.destroy, Function.comp_def, part] using ran
  · obtain ⟨c, role⟩ := x
    by_cases here : c = this
    · subst here
      by_cases member : role ∈ destroyed
      · simp [member, partOf]
      · have empty := not_not.mp (mt (covered role) member)
        rw [if_neg (by simpa using member), part, empty]
        simp [partOf]
    · simp [Ne.symm here, partOf, here]

/-! ## Construction -/

/-- The variables that the constructor sets, in its order. -/
def constructed : List Role := [.devFd, .rmFd, .client, .device, .subdevice, .kmsFd, .kmsDevice]

theorem acquired_reverse : a.acquired.reverse = constructed.filterMap a.part := by
  unfold NvAccelerant.acquired constructed
  cases set : a.fDevFd.isSet <;> simp [NvAccelerant.part, NvAccelerant.holds, set]

/-- What is acquired has its parent acquired before. -/
theorem exists_parent {role : Role} {r p : Resource} (member : role ∈ constructed)
    (here : a.part role = some r) (parent : r.parent = some p) :
    ∃ upper, role.le upper ∧ a.part upper = some p ∧ [upper, role].Sublist constructed := by
  simp only [constructed, List.mem_cons, List.not_mem_nil, or_false] at member
  rcases member with rfl | rfl | rfl | rfl | rfl | rfl | rfl
  · obtain ⟨-, rfl⟩ := of_guarded here
    cases parent
  all_goals
    obtain rfl := Option.some.inj here
    cases parent
  · exact ⟨.rmFd, by decide, rfl, by decide⟩
  · exact ⟨.client, by decide, rfl, by decide⟩
  · exact ⟨.device, by decide, rfl, by decide⟩
  · exact ⟨.kmsFd, by decide, rfl, by decide⟩

theorem placed_acquired (this : Address) (placed : kernel.Placed Lower base held)
    (vacant : ∀ role ∈ constructed, base (this, role) = none)
    (gives : kernel.gives held (a.acquired.reverse.map .acquire) = true) :
    kernel.Placed Lower
      (fun x => if x.1 = this ∧ x.2 ∈ constructed then a.part x.2 else base x)
      (a.acquired ++ held) := by
  have mapped : (constructed.map fun role => (this, role)).filterMap (fun x => a.part x.2) =
      a.acquired.reverse := by
    rw [List.filterMap_map, acquired_reverse]
    rfl
  have acquired := placed.acquires (constructed.map fun role => (this, role))
    (fun x => a.part x.2) ?_ ?_ ?_ (by rwa [mapped])
  · rw [mapped, List.reverse_reverse] at acquired
    refine (funext fun x => ?_ : _ = fun x => _) ▸ acquired
    obtain ⟨c, role⟩ := x
    by_cases here : c = this
    · simp [here]
    · simp [here, Ne.symm here]
  · intro x member
    obtain ⟨role, member', rfl⟩ := List.mem_map.mp member
    exact vacant role member'
  · exact List.Nodup.map (fun _ _ same => (Prod.mk.inj same).2) (by decide)
  · intro x member r p here parent
    obtain ⟨role, member', rfl⟩ := List.mem_map.mp member
    obtain ⟨upper, lower, there, before⟩ := exists_parent member' here parent
    exact ⟨(this, upper), ⟨rfl, lower⟩, Or.inr ⟨there, before.map _⟩⟩

/-- What a construction does to what is held. -/
structure Constructs (m : Attempt Error Resource NvAccelerant) : Prop where
  /-- When it throws, all is as it was. -/
  undone : ∀ e held, m.outcome = .thrown e → kernel.gives held m.ops = true →
    kernel.run held m.ops = some held
  /-- When it returns, what it has left acquired is in the variables of the accelerant. -/
  built : ∀ a held heap this, m.outcome = .returned a → kernel.gives held m.ops = true →
    kernel.Placed Lower (partOf heap) held → heap this = none →
      ∃ left, kernel.run held m.ops = some left ∧
        kernel.Placed Lower (partOf (Function.update heap this (some a))) left

theorem undone_of_ops {m : Attempt Error Resource NvAccelerant} {rs : List Resource}
    (ops : m.ops = rs.map .acquire ++ rs.reverse.map .release)
    (gives : kernel.gives held m.ops = true) : kernel.run held m.ops = some held := by
  rw [ops] at gives ⊢
  exact Hierarchy.run_undo ((Hierarchy.gives_append Hierarchy.run_acquires).mp gives).1

/-- All variables of a new accelerant are set by its constructor. -/
theorem partOf_constructed (bitmaps : a.bitmaps = fun _ => none)
    (others : ∀ c role, c ≠ this → base (c, role) = partOf heap (c, role))
    (empty : ∀ role ∉ constructed, base (this, role) = none) :
    (fun x => if x.1 = this ∧ x.2 ∈ constructed then a.part x.2 else base x) =
      partOf (Function.update heap this (some a)) := by
  funext ⟨c, role⟩
  by_cases here : c = this
  · subst here
    by_cases member : role ∈ constructed
    · simp [member, partOf]
    · have nothing : a.part role = none := by
        cases role with
        | memory m => cases m <;> simp [NvAccelerant.part, NvAccelerant.holds,
            NvAccelerant.slots, bitmaps]
        | surface m => cases m <;> simp [NvAccelerant.part, NvAccelerant.holds,
            NvAccelerant.slots, bitmaps]
        | argument => rfl
        | _ => exact absurd (by decide) member
      simp [member, empty, nothing, partOf]
  · simp [here, partOf, others c role here]

variable {replies : Replies}

theorem construct_returned (returned : (NvAccelerant.construct replies).outcome = .returned a) :
    (NvAccelerant.construct replies).ops = a.acquired.reverse.map .acquire ∧
      a.bitmaps = fun _ => none := by
  obtain ⟨rs, returns⟩ := returns_construction_iff.mp returned
  obtain ⟨built, rfl⟩ := NvAccelerant.build_returns_iff.mp returns
  refine ⟨?_, built.bitmaps⟩
  have plain : (NvAccelerant.build replies).ops = _ := NvAccelerant.build_plain
  rw [returns.2] at plain
  simpa only [NvAccelerant.construct, construction, returns.1] using plain

theorem construct_thrown {e : Error}
    (thrown : (NvAccelerant.construct replies).outcome = .thrown e) :
    ∃ rs : List Resource,
      (NvAccelerant.construct replies).ops = rs.map .acquire ++ rs.reverse.map .release :=
  ⟨_, NvAccelerant.build_plain.construction_thrown thrown⟩

theorem constructs_construct (replies : Replies) :
    Constructs (NvAccelerant.construct replies) where
  undone e held thrown gives := by
    obtain ⟨rs, ops⟩ := construct_thrown thrown
    exact undone_of_ops ops gives
  built a held heap this returned gives placed vacant := by
    obtain ⟨ops, bitmaps⟩ := construct_returned returned
    have unset : ∀ role, partOf heap (this, role) = none := fun role => by simp [partOf, vacant]
    rw [ops] at gives ⊢
    have acquired := placed_acquired this placed (fun role _ => unset role) gives
    rw [partOf_constructed bitmaps (fun _ _ _ => rfl) fun role _ => unset role] at acquired
    exact ⟨_, by rw [Hierarchy.run_acquires, List.reverse_reverse], acquired⟩

/-- The descriptor that `Clone` opens is held around the construction. -/
theorem clone_ok (devFd : { f : FileDesc // f.isSet }) (replies : Replies) :
    (NvAccelerant.clone (.ok devFd) replies).outcome = (NvAccelerant.construct replies).outcome ∧
      ((NvAccelerant.construct replies).outcome ≠ .noReturn →
        (NvAccelerant.clone (.ok devFd) replies).ops = .acquire (.file devFd.1.fFd) ::
          ((NvAccelerant.construct replies).ops ++ [.release (.file devFd.1.fFd)])) := by
  unfold NvAccelerant.clone
  cases ended : (NvAccelerant.construct replies).outcome <;>
    simp [Bind.bind, call, acquire, holding, ended, Outcome.ofExcept]

theorem constructs_clone (opened : Reply { f : FileDesc // f.isSet }) (replies : Replies) :
    Constructs (NvAccelerant.clone opened replies) := by
  cases opened with
  | error e =>
    have nothing : (NvAccelerant.clone (.error e) replies).ops =
        ([] : List Resource).map .acquire ++ [].map .release := rfl
    refine ⟨fun _ _ _ gives => undone_of_ops nothing gives, ?_⟩
    intro a held heap this returned
    cases returned
  | ok devFd =>
    obtain ⟨same, around⟩ := clone_ok devFd replies
    refine ⟨fun e held thrown gives => ?_, fun a held heap this returned gives placed vacant => ?_⟩
    · rw [same] at thrown
      obtain ⟨rs, ops⟩ := construct_thrown thrown
      have wrapped : (NvAccelerant.clone (.ok devFd) replies).ops =
          (.file devFd.1.fFd :: rs).map .acquire ++
            (.file devFd.1.fFd :: rs).reverse.map .release := by
        rw [around (by simp [thrown]), ops]
        simp
      exact undone_of_ops wrapped gives
    · rw [same] at returned
      obtain ⟨ops, bitmaps⟩ := construct_returned returned
      rw [around (by simp [returned]), ops] at gives ⊢
      simp only [Hierarchy.gives, Bool.and_eq_true, decide_eq_true_eq] at gives
      obtain ⟨fresh, gives⟩ := gives
      have unset : ∀ role, partOf heap (this, role) = none := fun role => by simp [partOf, vacant]
      have opened := placed.acquire (x := (this, .argument)) (unset _) fresh (by
        intro p parent
        cases parent)
      have vacant : ∀ role ∈ constructed, Function.update (partOf heap) (this, .argument)
          (some (.file devFd.1.fFd)) (this, role) = none := fun role member => by
        have other : role ≠ .argument := by
          rintro rfl
          exact absurd member (by decide)
        simp [other, unset]
      have acquired := placed_acquired this (a := a) opened vacant
        ((Hierarchy.gives_append Hierarchy.run_acquires).mp gives).1
      -- nothing is placed below the descriptor, and so it is closed alone
      obtain ⟨left, released, placed⟩ := acquired.release (x := (this, .argument))
        (r := .file devFd.1.fFd) (by simp [constructed]) (by
          rintro ⟨c, role⟩ ⟨same, lower⟩ -
          obtain rfl : c = this := same
          cases role <;> simp_all [Role.le, Role.above])
      refine ⟨left, ?_, ?_⟩
      · rw [Hierarchy.run, Hierarchy.run_append, Hierarchy.run_acquires, List.reverse_reverse]
        simpa [Hierarchy.run] using released
      · rw [← partOf_constructed bitmaps (fun _ _ _ => rfl) fun role _ => unset role]
        refine (funext fun x => ?_ : _ = fun x => _) ▸ placed
        by_cases argument : x = (this, .argument)
        · subst argument
          simp [constructed, unset]
        · simp [argument]

end Placing

/-! ## Runs -/

/-- What every step keeps. -/
structure Sound (s : State) : Prop where
  succeeded : s.releaseFailed = false
  placed : kernel.Placed Lower (partOf s.heap) s.held
  alive : ∀ this, s.sInstance = some this → s.heap this ≠ none

/-- How a step changes the instance and the accelerants there are. -/
inductive Effect (s t : State) : Prop
  | stays (same : t.sInstance = s.sInstance)
      (heap : ∀ this, t.heap this ≠ none ↔ s.heap this ≠ none)
  | made (this : Address) (fresh : s.heap this = none) (instance' : t.sInstance = some this)
      (heap : ∀ other, t.heap other ≠ none ↔ other = this ∨ s.heap other ≠ none)
  | deleted (this : Address) (old : s.sInstance = some this) (instance' : t.sInstance = none)
      (heap : ∀ other, t.heap other ≠ none ↔ other ≠ this ∧ s.heap other ≠ none)

section Steps

variable {s t : State} {this : Address} {a : NvAccelerant} {ops : List (Op Resource)}
  {left : List Resource} {hook : Hook}

theorem gives_of_carryOut (taken : s.carryOut ops = some t) : kernel.gives s.held ops = true := by
  unfold State.carryOut at taken
  split at taken
  · assumption
  · cases taken

theorem carryOut_eq (taken : s.carryOut ops = some t)
    (ran : kernel.run s.held ops = some left) : t = { s with held := left } := by
  unfold State.carryOut at taken
  rw [if_pos (gives_of_carryOut taken), ran] at taken
  exact (Option.some.inj taken).symm

theorem Sound.construct {m : Attempt Error Resource NvAccelerant} (sound : Sound s)
    (constructs : Constructs m) (taken : s.construct this m = some t) :
    Sound t ∧ Effect s t := by
  unfold State.construct at taken
  split at taken
  · rename_i fresh
    obtain ⟨u, carried, taken⟩ := Option.bind_eq_some_iff.mp taken
    have gives := gives_of_carryOut carried
    split at taken
    · rename_i a returned
      obtain ⟨left, ran, placed⟩ :=
        constructs.built a s.held s.heap this returned gives sound.placed fresh
      obtain rfl := carryOut_eq carried ran
      obtain rfl := Option.some.inj taken
      refine ⟨⟨sound.succeeded, placed, ?_⟩, .made this fresh rfl fun other => ?_⟩
      · rintro other ⟨⟩
        simp
      · by_cases same : other = this <;> simp [same]
    · rename_i e thrown
      obtain rfl := carryOut_eq carried (constructs.undone e s.held thrown gives)
      obtain rfl := Option.some.inj taken
      exact ⟨sound, .stays rfl fun _ => Iff.rfl⟩
    · cases taken
  · cases taken

/-- The instance gives up what it holds, and is deleted. -/
theorem Sound.uninit (sound : Sound s) (taken : s.step .uninit = some t) :
    Sound t ∧ Effect s t := by
  obtain ⟨this, current, taken⟩ := Option.bind_eq_some_iff.mp taken
  obtain ⟨a, alive, taken⟩ := Option.bind_eq_some_iff.mp taken
  obtain ⟨u, carried, rfl⟩ := Option.map_eq_some_iff.mp taken
  obtain ⟨left, ran, placed⟩ := placed_destroy sound.placed alive
  obtain rfl := carryOut_eq carried ran
  refine ⟨⟨sound.succeeded, placed, nofun⟩, .deleted this current rfl fun other => ?_⟩
  by_cases same : other = this <;> simp [same]

theorem Sound.method {m : Method} (sound : Sound s) (taken : s.step (.method m) = some t) :
    Sound t ∧ Effect s t := by
  obtain ⟨this, current, taken⟩ := Option.bind_eq_some_iff.mp taken
  obtain ⟨a, alive, taken⟩ := Option.bind_eq_some_iff.mp taken
  obtain ⟨u, carried, rfl⟩ := Option.map_eq_some_iff.mp taken
  have placed := partOf_eq alive ▸ sound.placed
  obtain ⟨left, ran, placed⟩ := placed_method placed m (gives_of_carryOut carried)
  obtain rfl := carryOut_eq carried ran
  have alive' : ∀ other, Function.update s.heap this (some (a.after m)) other ≠ none ↔
      s.heap other ≠ none := by
    intro other
    by_cases same : other = this <;> simp [same, alive]
  refine ⟨⟨sound.succeeded, ?_, fun other now => (alive' other).mpr (sound.alive other now)⟩,
    .stays rfl alive'⟩
  rw [partOf_update]
  exact placed

theorem Sound.step (sound : Sound s) (taken : s.step hook = some t) : Sound t ∧ Effect s t := by
  cases hook with
  | init this replies => exact sound.construct (constructs_construct replies) taken
  | clone this opened replies => exact sound.construct (constructs_clone opened replies) taken
  | uninit => exact sound.uninit taken
  | method m => exact sound.method taken

end Steps

/-- The instance has not been overwritten, and those that have been are still there. -/
structure Living (past : List (Event State Hook)) (s : State) : Prop where
  iff : ∀ this, s.heap this ≠ none ↔ s.sInstance = some this ∨ this ∈ overwritten past
  current : ∀ this, s.sInstance = some this → this ∉ overwritten past

theorem mem_overwritten_cons {e : Event State Hook} {past : List (Event State Hook)}
    {this : Address} : this ∈ overwritten (e :: past) ↔
      (e.source.sInstance = some this ∧ e.target.sInstance.isSome ∧
        e.target.sInstance ≠ some this) ∨ this ∈ overwritten past := by
  simp [overwritten]

theorem Living.step {past : List (Event State Hook)} {s t : State} {hook : Hook}
    (living : Living past s) (effect : Effect s t) : Living (⟨s, hook, t⟩ :: past) t := by
  cases effect with
  | stays same heap =>
    have kept : ∀ this, this ∈ overwritten (⟨s, hook, t⟩ :: past) ↔ this ∈ overwritten past := by
      intro this
      rw [mem_overwritten_cons, same]
      exact or_iff_right fun ⟨old, _, other⟩ => other old
    refine ⟨fun this => ?_, fun this now => ?_⟩
    · rw [heap, living.iff, same, kept]
    · rw [kept]
      exact living.current this (same ▸ now)
  | made this fresh instance' heap =>
    have notLiving := mt (living.iff this).mpr (not_not.mpr fresh)
    push Not at notLiving
    have kept : ∀ other, other ∈ overwritten (⟨s, hook, t⟩ :: past) ↔
        (s.sInstance = some other ∧ other ≠ this) ∨ other ∈ overwritten past := by
      intro other
      rw [mem_overwritten_cons, instance']
      simp [eq_comm]
    refine ⟨fun other => ?_, fun other now => ?_⟩
    · rw [heap, living.iff, instance', kept]
      by_cases same : other = this
      · simp [same]
      · simp [same, Ne.symm same]
    · obtain rfl := Option.some.inj (instance'.symm.trans now)
      rw [kept]
      simp [notLiving.2]
  | deleted this old instance' heap =>
    have kept : ∀ other, other ∈ overwritten (⟨s, hook, t⟩ :: past) ↔
        other ∈ overwritten past := by
      intro other
      rw [mem_overwritten_cons, instance']
      simp
    refine ⟨fun other => ?_, fun other now => ?_⟩
    · rw [heap, living.iff, instance', kept, old]
      by_cases same : other = this
      · simp [same, living.current this old]
      · simp [same, Ne.symm same]
    · rw [instance'] at now
      cases now

theorem sound_of_run {past : List (Event State Hook)} {s : State} (run : hooks.Run past s) :
    Sound s ∧ Living past s := by
  induction run with
  | start initial =>
    obtain rfl := initial
    exact ⟨⟨rfl, Hierarchy.Placed.empty, nofun⟩, ⟨by simp [overwritten], nofun⟩⟩
  | step _ taken ih =>
    obtain ⟨sound, effect⟩ := ih.1.step taken
    exact ⟨sound, ih.2.step effect⟩

/-- In every run, whatever the calls reply, no release comes too late, and what is held at the
end is held by the instance and by those overwritten. -/
theorem lifetimes_accounted {past : List (Event State Hook)} {s : State}
    (run : hooks.Run past s) : Accounted past s := by
  obtain ⟨sound, living⟩ := sound_of_run run
  refine ⟨sound.succeeded, sound.placed.nodup, fun r => ?_, living.iff⟩
  rw [sound.placed.mem, Prod.exists]
  simp only [partOf, Option.bind_eq_some_iff]
  constructor
  · rintro ⟨this, role, a, alive, here⟩
    exact ⟨this, a, role, alive, here⟩
  · rintro ⟨this, a, role, alive, here⟩
    exact ⟨this, role, a, alive, here⟩

/-- An accelerant with a framebuffer is overwritten, and the new one is deleted. -/
theorem accounted_overwritten : ∃ past s, hooks.Run past s ∧ s.sInstance = none ∧
    s.held = [.surface 4 1 9, .object 3 0x82 [0x80, 0xC1D00001], .kmsDevice 4 1, .file 4,
      .object 3 0x81 [0x80, 0xC1D00001], .object 3 0x80 [0xC1D00001], .object 3 0xC1D00001 [],
      .file 3] ∧ Accounted past s := by
  have run := (Run.start (T := hooks) rfl).play
    [.init 16 (connectsLate ⟨⟨3⟩, rfl⟩ ⟨⟨4⟩, rfl⟩), .method (.setDisplayMode ⟨0x82, 9⟩ true),
      .clone 32 (.ok ⟨⟨5⟩, rfl⟩) (connectsLate ⟨⟨6⟩, rfl⟩ ⟨⟨7⟩, rfl⟩), .uninit] rfl
  exact ⟨_, _, run, rfl, rfl, lifetimes_accounted run⟩

end NvidiaHaiku.Accelerant.Lifetime

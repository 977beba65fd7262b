/-
# Ownership of handles

`NvRmObject`, `NvKmsSurface` and `FileDesc` each wrap one handle: an object of the
resource manager, a surface of KMS, a file descriptor. The destructor releases the
handle, moves hand it on, and `Detach` gives it to the caller.

The wrappers hold the number of a handle, and a number that has been released may be
given out again. So the system keeps a list of the handles it has given out, and a
number stands for the last one given out under it. All releases succeed.
-/

import NvidiaHaiku.Accelerant.Bitmap
import NvidiaHaiku.Math.Ownership
import NvidiaHaiku.Math.Transition

namespace NvidiaHaiku.Accelerant

open NvidiaHaiku.Math NvidiaHaiku.Sdk TransitionSystem

/-! ## The wrappers -/

/-- The file descriptor is an `int`. -/
structure FileDesc where
  fFd : BitVec 32 := -1
  deriving DecidableEq, Repr

/-- The wrapper holds a descriptor. -/
def FileDesc.isSet (f : FileDesc) : Bool := 0 ≤ f.fFd.toInt

/-- What the move constructor and `operator=` write. -/
def NvRmObject.moved (other : NvRmObject) : NvRmObject where
  fRm := other.fRm
  fHObject := other.fHObject

/-- What the move constructor and `operator=` write. -/
def NvKmsSurface.moved (other : NvKmsSurface) : NvKmsSurface where
  fKmsDev := other.fKmsDev
  fHandle := other.fHandle

/-- What the move constructor and `operator=` write. -/
def FileDesc.moved (other : FileDesc) : FileDesc where
  fFd := other.fFd

/-- What a move or `Detach` leaves. -/
def NvRmObject.reset (o : NvRmObject) : NvRmObject := { o with fHObject := 0 }

/-- What a move or `Detach` leaves. -/
def NvKmsSurface.reset (s : NvKmsSurface) : NvKmsSurface := { s with fHandle := 0 }

/-- What a move or `Detach` leaves. -/
def FileDesc.reset (f : FileDesc) : FileDesc := { f with fFd := -1 }

namespace Handles

/-- The classes. -/
inductive Kind
  | rmObject
  | kmsSurface
  | fileDesc
  deriving DecidableEq, Repr

/-- A value of one of the classes. -/
inductive Object
  | rmObject (o : NvRmObject)
  | kmsSurface (s : NvKmsSurface)
  | fileDesc (f : FileDesc)
  deriving DecidableEq, Repr

/-- The call that releases a handle, which names it. -/
inductive Name
  /-- `NvRmApi::Free`. -/
  | free (rm : Address) (hObject : NvHandle)
  /-- `NVKMS_IOCTL_UNREGISTER_SURFACE`. -/
  | unregisterSurface (kmsDev : Address) (handle : SurfaceHandle)
  | close (fd : BitVec 32)
  deriving DecidableEq, Repr

/-- What is constructed from a handle. -/
def Name.object : Name → Object
  | free rm hObject => .rmObject ⟨rm, hObject⟩
  | unregisterSurface kmsDev handle => .kmsSurface ⟨kmsDev, handle⟩
  | close fd => .fileDesc ⟨fd⟩

namespace Object

/-- The class of the wrapper. -/
def kind : Object → Kind
  | rmObject _ => .rmObject
  | kmsSurface _ => .kmsSurface
  | fileDesc _ => .fileDesc

/-- The default constructors. -/
def default : Kind → Object
  | .rmObject => rmObject {}
  | .kmsSurface => kmsSurface {}
  | .fileDesc => fileDesc {}

/-- The wrapper holds a handle. -/
def isSet : Object → Bool
  | rmObject o => o.isSet
  | kmsSurface s => s.isSet
  | fileDesc f => f.isSet

/-- The call made by the destructor, by `operator=` and by nothing else. -/
def name : Object → Name
  | rmObject o => .free o.fRm o.fHObject
  | kmsSurface s => .unregisterSurface s.fKmsDev s.fHandle
  | fileDesc f => .close f.fFd

/-- What the move constructor and `operator=` write. -/
def moved : Object → Object
  | rmObject o => rmObject o.moved
  | kmsSurface s => kmsSurface s.moved
  | fileDesc f => fileDesc f.moved

/-- What a move or `Detach` leaves. -/
def reset : Object → Object
  | rmObject o => rmObject o.reset
  | kmsSurface s => kmsSurface s.reset
  | fileDesc f => fileDesc f.reset

@[simp] theorem moved_eq (o : Object) : o.moved = o := by cases o <;> rfl

@[simp] theorem isSet_default (k : Kind) : (default k).isSet = false := by cases k <;> rfl

@[simp] theorem isSet_reset (o : Object) : o.reset.isSet = false := by cases o <;> rfl

end Object

@[simp] theorem Name.name_object (n : Name) : n.object.name = n := by cases n <;> rfl

/-! ## The system -/

/-- A handle. The serial number tells handles of one name apart. -/
structure Handle where
  name : Name
  serial : ℕ
  deriving DecidableEq, Repr

/-- What became of the handles, most recent first. -/
structure System where
  /-- The handles given out. -/
  made : List Handle := []
  released : List Handle := []
  /-- The handles returned by `Detach`. -/
  detached : List Handle := []

namespace System

variable (sys : System)

/-- The handle that a name stands for. -/
def resolve (n : Name) : Handle := (sys.made.find? (·.name = n)).getD ⟨n, 0⟩

/-- The handles that are no wrapper's to release any more. -/
def gone : List Handle := sys.released ++ sys.detached

/-- A handle can be given out: it is not null, and no wrapper has its name to release. -/
def Fresh (h : Handle) : Prop :=
  h.name.object.isSet = true ∧ h ∉ sys.made ∧ ∀ old ∈ sys.made, old.name = h.name → old ∈ sys.gone

instance (h : Handle) : Decidable (sys.Fresh h) :=
  inferInstanceAs (Decidable (_ = _ ∧ _ ∉ _ ∧ ∀ _ ∈ _, _ → _))

/-- The handle is given out. -/
def give (h : Handle) : System := { sys with made := h :: sys.made }

/-- The release in a destructor or in `operator=`. -/
def releaseIfSet (o : Object) : System :=
  if o.isSet then { sys with released := sys.resolve o.name :: sys.released } else sys

/-- `Detach`. -/
def detach (o : Object) : System :=
  if o.isSet then { sys with detached := sys.resolve o.name :: sys.detached } else sys

/-- What a wrapper owns. -/
def owned (o : Object) : Option Handle := if o.isSet then some (sys.resolve o.name) else none

end System

/-! ## Programs -/

/-- The variables of a program, with what became of the handles. -/
structure State (ν : Type*) where
  /-- The variables that are alive. -/
  vars : ν → Option Object := fun _ => none
  sys : System := {}

/-- A statement of a program over the variables. -/
inductive Stmt (ν : Type*)
  | default (v : ν) (k : Kind)
  /-- Construction from a fresh handle. -/
  | make (v : ν) (h : Handle)
  | moveConstruct (v w : ν)
  /-- `v = std::move(w)`. -/
  | moveAssign (v w : ν)
  | detach (v : ν)
  | destroy (v : ν)
  deriving DecidableEq, Repr

variable {ν : Type*} [DecidableEq ν]

/-- A variable begins or ends its life, or is written. -/
def State.set (s : State ν) (v : ν) (o : Option Object) : State ν :=
  { s with vars := Function.update s.vars v o }

/-- One statement. A wrapper is constructed from a handle that has just been given out. -/
def State.step (s : State ν) : Stmt ν → Option (State ν)
  | .default v k => if s.vars v = none then some (s.set v (some (.default k))) else none
  | .make v h =>
    if s.vars v = none ∧ s.sys.Fresh h then
      some { s.set v (some h.name.object) with sys := s.sys.give h }
    else none
  | .moveConstruct v w =>
    match s.vars v, s.vars w with
    | none, some other => some ((s.set v (some other.moved)).set w (some other.reset))
    | _, _ => none
  | .moveAssign v w =>
    match s.vars v, s.vars w with
    | some this, some other =>
      if this.kind = other.kind then
        -- the source is reset last, and so is a variable that is moved to itself
        some { (s.set v (some other.moved)).set w (some other.reset) with
          sys := s.sys.releaseIfSet this }
      else none
    | _, _ => none
  | .detach v =>
    match s.vars v with
    | some this => some { s.set v (some this.reset) with sys := s.sys.detach this }
    | none => none
  | .destroy v =>
    match s.vars v with
    | some this => some { s.set v none with sys := s.sys.releaseIfSet this }
    | none => none

/-- The programs, which start with no variable alive. -/
def program (ν : Type*) [DecidableEq ν] : TransitionSystem (State ν) (Stmt ν) :=
  ofStep (· = {}) State.step

/-! ## Ownership -/

namespace System

variable {sys : System} {objs : ν → Option Object} {v w : ν} {o this other : Object} {h : Handle}
  {x : Option Object}

/-- The handles owned by the variables. -/
def owner (sys : System) (objs : ν → Option Object) (v : ν) : Option Handle :=
  (objs v).bind sys.owned

/-- Every handle given out is owned by one variable, or was released or detached once. -/
def Owned (sys : System) (objs : ν → Option Object) : Prop :=
  UniqueOwner (sys.owner objs) sys.made sys.gone

/-- Each handle has one owner until it is released once or detached. -/
structure OwnedOnce (sys : System) (objs : ν → Option Object) : Prop where
  owned : ∀ h ∈ sys.made, h ∉ sys.released → h ∉ sys.detached →
    ∃! v, sys.owner objs v = some h
  once : ∀ h ∈ sys.made, sys.released.count h ≤ 1 ∧ (h ∈ sys.detached → h ∉ sys.released)
  /-- When all variables are destroyed, just the detached handles are not released. -/
  finished : (∀ v, objs v = none) → ∀ h ∈ sys.made,
    sys.released.count h = if h ∈ sys.detached then 0 else 1
  only : ∀ h ∈ sys.released, h ∈ sys.made

theorem resolve_name (n : Name) : (sys.resolve n).name = n := by
  unfold resolve
  cases found : sys.made.find? (·.name = n) with
  | none => rfl
  | some h => simpa using List.find?_some found

@[simp] theorem releaseIfSet_made : (sys.releaseIfSet o).made = sys.made := by
  unfold releaseIfSet
  split <;> rfl

@[simp] theorem detach_made : (sys.detach o).made = sys.made := by
  unfold detach
  split <;> rfl

/-- What a wrapper owns depends on the handles given out. -/
theorem owned_congr {sys' : System} (same : sys'.made = sys.made) : sys'.owned = sys.owned := by
  funext o
  simp only [owned, resolve, same]

@[simp] theorem releaseIfSet_owned : (sys.releaseIfSet o).owned = sys.owned :=
  owned_congr releaseIfSet_made

omit [DecidableEq ν] in
@[simp] theorem releaseIfSet_owner : (sys.releaseIfSet o).owner objs = sys.owner objs := by
  funext v
  simp [owner]

omit [DecidableEq ν] in
@[simp] theorem detach_owner : (sys.detach o).owner objs = sys.owner objs := by
  funext v
  simp only [owner, owned_congr detach_made]

theorem releaseIfSet_released :
    (sys.releaseIfSet o).released = (sys.owned o).toList ++ sys.released := by
  unfold releaseIfSet owned
  split <;> rfl

theorem releaseIfSet_gone : (sys.releaseIfSet o).gone = (sys.owned o).toList ++ sys.gone := by
  unfold releaseIfSet owned
  split <;> rfl

theorem detach_gone : (sys.detach o).gone.Perm ((sys.owned o).toList ++ sys.gone) := by
  unfold detach owned
  split
  · exact List.perm_middle
  · exact .refl _

@[simp] theorem owned_of_unset (unset : o.isSet = false) : sys.owned o = none := by
  simp [owned, unset]

@[simp] theorem owner_update :
    sys.owner (Function.update objs v x) =
      Function.update (sys.owner objs) v (x.bind sys.owned) := by
  funext u
  by_cases same : u = v
  · subst same
    simp [owner]
  · simp [owner, same]

/-- The new handle is owned by the new variable, and the others own what they did. -/
theorem Owned.give_owner (owned : sys.Owned objs) (vacant : objs v = none) (fresh : sys.Fresh h) :
    (sys.give h).owner (Function.update objs v (some h.name.object)) =
      Function.update (sys.owner objs) v (some h) := by
  obtain ⟨set, -, stale⟩ := fresh
  funext u
  by_cases same : u = v
  · subst same
    simp [owner, System.owned, set, resolve, give]
  · rw [owner_update, Function.update_of_ne same, Function.update_of_ne same]
    cases alive : objs u with
    | none => simp [owner, alive]
    | some o =>
      cases setO : o.isSet with
      | false => simp [owner, alive, setO]
      | true =>
        -- a name that a wrapper still holds is not given out
        have owns : sys.owner objs u = some (sys.resolve o.name) := by
          simp [owner, alive, System.owned, setO]
        have different : h.name ≠ o.name := by
          intro collision
          obtain ⟨member, alive⟩ := UniqueOwner.owned owned u _ owns
          exact alive (stale _ member ((resolve_name _).trans collision.symm))
        rw [owns]
        simp [owner, alive, System.owned, setO, resolve, give, different]

theorem Owned.give (owned : sys.Owned objs) (vacant : objs v = none) (fresh : sys.Fresh h) :
    (sys.give h).Owned (Function.update objs v (some h.name.object)) := by
  have empty : sys.owner objs v = none := by simp [owner, vacant]
  unfold Owned
  rw [owned.give_owner vacant fresh]
  exact UniqueOwner.acquire owned empty fresh.2.1

/-- A variable gives up its handle, and keeps nothing. -/
theorem Owned.release (owned : sys.Owned objs) (alive : objs v = some this)
    (empty : x.bind sys.owned = none) :
    (sys.releaseIfSet this).Owned (Function.update objs v x) := by
  have owns : sys.owner objs v = sys.owned this := by simp [owner, alive]
  have cleared := UniqueOwner.clear (v := v) owned
  rw [owns, ← releaseIfSet_gone] at cleared
  simpa [Owned, empty] using cleared

theorem Owned.detach (owned : sys.Owned objs) (alive : objs v = some this) :
    (sys.detach this).Owned (Function.update objs v (some this.reset)) := by
  have owns : sys.owner objs v = sys.owned this := by simp [owner, alive]
  have cleared := UniqueOwner.clear (v := v) owned
  rw [owns] at cleared
  simpa [Owned] using cleared.perm detach_gone.symm

/-- What one variable owns moves into another one that owns nothing. -/
theorem Owned.move (owned : sys.Owned objs) (empty : sys.owner objs v = none)
    (alive : objs w = some other) :
    sys.Owned (Function.update (Function.update objs v (some other)) w (some other.reset)) := by
  have owns : sys.owner objs w = sys.owned other := by simp [owner, alive]
  have moved := UniqueOwner.move (v := w) owned empty
  rw [owns] at moved
  simpa [Owned] using moved

/-- The target gives up its handle and takes over that of the source. A self-assignment
gives up the handle. -/
theorem Owned.assign (owned : sys.Owned objs) (target : objs v = some this)
    (source : objs w = some other) :
    (sys.releaseIfSet this).Owned
      (Function.update (Function.update objs v (some other)) w (some other.reset)) := by
  by_cases self : v = w
  · subst self
    rw [Function.update_idem]
    exact owned.release target (by simp)
  · have released := owned.release (x := none) target rfl
    have untouched : Function.update objs v none w = some other := by
      rwa [Function.update_of_ne (Ne.symm self)]
    have moved := released.move (v := v) (by simp) untouched
    rwa [Function.update_idem] at moved

omit [DecidableEq ν] in
theorem Owned.ownedOnce (owned : sys.Owned objs) : sys.OwnedOnce objs := by
  obtain ⟨nodup, -, apart⟩ := List.nodup_append.mp (UniqueOwner.released_nodup owned)
  have separate : ∀ h ∈ sys.detached, h ∉ sys.released :=
    fun h detached released => apart h released h detached rfl
  refine ⟨fun h member unreleased undetached => ?_, fun h _ => ?_, fun done h member => ?_,
    fun h released => ?_⟩
  · refine UniqueOwner.existsUnique owned member fun gone => ?_
    exact (List.mem_append.mp gone).elim unreleased undetached
  · exact ⟨List.nodup_iff_count_le_one.mp nodup h, separate h⟩
  · -- nobody owns the handle any more, so it is gone
    have gone : h ∈ sys.gone := by
      refine (UniqueOwner.covered owned h member).resolve_right ?_
      rintro ⟨v, owns⟩
      simp [owner, done v] at owns
    split
    · exact List.count_eq_zero.mpr (separate h ‹_›)
    · have released := (List.mem_append.mp gone).resolve_right ‹_›
      exact List.count_eq_one_of_mem nodup released
  · exact UniqueOwner.released_subset owned h (List.mem_append_left _ released)

end System

variable {s t : State ν} {a : Stmt ν}

omit [DecidableEq ν] in
theorem owned_initial : System.Owned {} (fun _ : ν => none) := UniqueOwner.empty

theorem owned_step (owned : s.sys.Owned s.vars) (taken : s.step a = some t) :
    t.sys.Owned t.vars := by
  cases a with
  | default v k =>
    obtain ⟨vacant, rfl⟩ := of_guarded taken
    have empty : s.sys.owner s.vars v = none := by simp [System.owner, vacant]
    have same : Function.update (s.sys.owner s.vars) v none = s.sys.owner s.vars := by
      rw [← empty, Function.update_eq_self]
    simpa [System.Owned, State.set, same] using owned
  | make v h =>
    obtain ⟨⟨vacant, fresh⟩, rfl⟩ := of_guarded taken
    exact owned.give vacant fresh
  | moveConstruct v w =>
    simp only [State.step] at taken
    split at taken
    · rename_i other vacant source
      obtain rfl := Option.some.inj taken
      have empty : s.sys.owner s.vars v = none := by simp [System.owner, vacant]
      simpa [State.set] using owned.move empty source
    · exact nomatch taken
  | moveAssign v w =>
    simp only [State.step] at taken
    split at taken
    · rename_i this other target source
      obtain ⟨-, rfl⟩ := of_guarded taken
      simpa [State.set] using owned.assign target source
    · exact nomatch taken
  | detach v =>
    simp only [State.step] at taken
    split at taken
    · obtain rfl := Option.some.inj taken
      exact owned.detach ‹_›
    · exact nomatch taken
  | destroy v =>
    simp only [State.step] at taken
    split at taken
    · obtain rfl := Option.some.inj taken
      exact owned.release ‹_› rfl
    · exact nomatch taken

/-- In every state of a run the handles are owned uniquely. -/
theorem owned_of_run {past : List (Event (State ν) (Stmt ν))} (run : (program ν).Run past s) :
    s.sys.Owned s.vars :=
  run.reachable.invariant (fun _ first => first ▸ owned_initial)
    fun _ _ _ owned taken => owned_step owned taken

end Handles

end NvidiaHaiku.Accelerant

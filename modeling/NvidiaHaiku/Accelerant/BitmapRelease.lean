/-
# The order in which bitmaps are given up

A surface is registered for a memory object, so it has to be unregistered before the
memory object is freed. The members of an `NvKmsBitmap` are declared in the order
`fMemory`, `fSurface`, `fMapping` and destroyed in the reverse order, and its move
assignment goes through them in the reverse order too.

The memory object and the surface of one bitmap stay in one variable from its
construction on, which makes the order within a statement the order over the whole
program. The mapping is given up before both and has no part in this.
-/

import NvidiaHaiku.Accelerant.Handles

namespace NvidiaHaiku.Accelerant

open NvidiaHaiku.Math NvidiaHaiku.Sdk Handles TransitionSystem

/-- The members of a bitmap that wrap handles. -/
inductive Part
  | memory
  | surface
  deriving DecidableEq, Repr

/-- The members in the order in which they are given up. -/
def Part.inOrder : List Part := [.surface, .memory]

/-- The member with the handle it wraps. -/
def NvKmsBitmap.part (b : NvKmsBitmap) : Part → Object
  | .memory => .rmObject b.fMemory
  | .surface => .kmsSurface b.fSurface

/-- The reply to the call that releases the member. -/
def ReleaseReplies.of (replies : ReleaseReplies) : Part → Reply Unit
  | .memory => replies.free
  | .surface => replies.unregisterSurface

/-- The releases of a move assignment succeed. -/
def ReleaseReplies.succeed : ReleaseReplies where
  unmapMemory := .ok ()
  unregisterSurface := .ok ()
  free := .ok ()

/-- `operator=`. The move constructor does the same to default-constructed members. -/
def NvKmsBitmap.move (this other : NvKmsBitmap) (kms : Kms) : Move :=
  (Move.assign ⟨this, other, kms⟩ .succeed).2

namespace Bitmaps

/-- The variables of a program, with what the program has been given. -/
structure State (β : Type*) where
  /-- The variables that are alive. -/
  vars : β → Option NvKmsBitmap := fun _ => none
  kms : Kms := {}
  sys : System := {}
  /-- The memory object and the surface of each bitmap constructed. -/
  made : List (Handle × Handle) := []

/-- A statement of a program over the variables. -/
inductive Stmt (β : Type*)
  | default (v : β)
  /-- Construction with a fresh memory object and a fresh surface. -/
  | make (v : β) (b : NvKmsBitmap) (memory surface : Handle)
  | moveConstruct (v w : β)
  /-- `v = std::move(w)`. -/
  | moveAssign (v w : β)
  | destroy (v : β)

/-- A bitmap is given up by its destructor or by `operator=`. -/
def giveUp (sys : System) (b : NvKmsBitmap) : System :=
  Part.inOrder.foldl (fun sys p => sys.releaseIfSet (b.part p)) sys

variable {β : Type*} [DecidableEq β]

/-- One statement. A bitmap is constructed from handles that have just been given out. -/
def State.step (s : State β) : Stmt β → Option (State β)
  | .default v =>
    if s.vars v = none then some { s with vars := Function.update s.vars v (some {}) } else none
  | .make v b memory surface =>
    if (s.vars v = none ∧ b.part .memory = memory.name.object ∧
        b.part .surface = surface.name.object) ∧
        s.sys.Fresh memory ∧ (s.sys.give memory).Fresh surface then
      some {
        vars := Function.update s.vars v (some b)
        kms := s.kms.register b.fSurface.fHandle
        sys := (s.sys.give memory).give surface
        made := (memory, surface) :: s.made }
    else none
  | .moveConstruct v w =>
    match s.vars v, s.vars w with
    | none, some other =>
      let m := NvKmsBitmap.move {} other s.kms
      some { s with
        vars := Function.update (Function.update s.vars v (some m.this)) w (some m.other)
        kms := m.kms }
    | _, _ => none
  | .moveAssign v w =>
    match s.vars v, s.vars w with
    | some this, some other =>
      let m := this.move other s.kms
      some { s with
        vars := Function.update (Function.update s.vars v (some m.this)) w (some m.other)
        kms := m.kms
        sys := giveUp s.sys this }
    | _, _ => none
  | .destroy v =>
    match s.vars v with
    | some this =>
      some { s with
        vars := Function.update s.vars v none
        kms := s.kms.unregister this.fSurface
        sys := giveUp s.sys this }
    | none => none

/-- The programs, which start with no variable alive. -/
def program (β : Type*) [DecidableEq β] : TransitionSystem (State β) (Stmt β) :=
  ofStep (· = {}) State.step

/-- The parts of all bitmaps, as variables of their own. -/
def objs (vars : β → Option NvKmsBitmap) : β × Part → Option Object
  | (v, p) => (vars v).map (·.part p)

/-- What owns the handles. -/
def State.owner (s : State β) : β × Part → Option Handle := s.sys.owner (objs s.vars)

/-- Whenever the memory object of a bitmap is freed, its surface was unregistered before. -/
def SurfaceFirst (s : State β) : Prop :=
  ∀ memory surface, (memory, surface) ∈ s.made →
    ∀ later earlier, s.sys.released = later ++ memory :: earlier → surface ∈ earlier

/-! ## Moves -/

variable {s t : State β} {a : Stmt β} {vars : β → Option NvKmsBitmap} {v w : β} {p : Part}
  {this other : NvKmsBitmap} {sys : System} {memory surface : Handle}

theorem move_eq (kms : Kms) : this.move other kms =
    (Move.mk this other kms).moveMapping.moveSurface.moveMemory.moveSizes := by
  have released : Move.Releases this .succeed := by
    refine ⟨?_, ?_, ?_⟩ <;> exact ite_self _
  unfold NvKmsBitmap.move
  rw [Move.assign_of_releases released]

@[simp] theorem move_this_part (kms : Kms) :
    (this.move other kms).this.part p = other.part p := by
  rw [move_eq]
  cases p <;> rfl

@[simp] theorem move_other_part (kms : Kms) :
    (this.move other kms).other.part p = (other.part p).reset := by
  rw [move_eq]
  cases p <;> rfl

/-- `operator=` gives the members up in that order. When the release of one throws, those before
it have been moved, and it and those behind it stay as they were. -/
theorem assign_inOrder {m : Move} {replies : ReleaseReplies} {e : Error}
    (unmapped : release m.this.fMapping.isSet replies.unmapMemory = .ok ())
    (before : ∀ q ∈ Part.inOrder.takeWhile (· ≠ p),
      release (m.this.part q).isSet (replies.of q) = .ok ())
    (fails : release (m.this.part p).isSet (replies.of p) = .error e) :
    (m.assign replies).1 = .error e ∧ ∀ q, (m.assign replies).2.this.part q =
      if q ∈ Part.inOrder.takeWhile (· ≠ p) then m.other.part q else m.this.part q := by
  cases p with
  | surface =>
    have stopped : m.assign replies = (.error e, m.moveMapping) := by
      simp only [Move.assign, unmapped, show release m.this.fSurface.isSet
        replies.unregisterSurface = .error e from fails]
    rw [stopped]
    refine ⟨rfl, fun q => ?_⟩
    cases q <;> rfl
  | memory =>
    have unregistered : release m.this.fSurface.isSet replies.unregisterSurface = .ok () :=
      before .surface (by decide)
    have stopped : m.assign replies = (.error e, m.moveMapping.moveSurface) := by
      simp only [Move.assign, unmapped, unregistered,
        show release m.this.fMemory.isSet replies.free = .error e from fails]
    rw [stopped]
    refine ⟨rfl, fun q => ?_⟩
    cases q <;> rfl

theorem objs_update (x : Option NvKmsBitmap) : objs (Function.update vars v x) =
    Function.update (Function.update (objs vars) (v, .surface) (x.map (·.part .surface)))
      (v, .memory) (x.map (·.part .memory)) := by
  funext ⟨u, p⟩
  by_cases same : u = v
  · subst same
    cases p <;> simp [objs, Function.update]
  · simp [objs, Function.update, same]

/-- Both variables of a move change, first in their surfaces and then in their memory
objects. -/
theorem objs_update_update (x y : Option NvKmsBitmap) :
    objs (Function.update (Function.update vars v x) w y) =
      Function.update (Function.update (Function.update (Function.update (objs vars)
        (v, .surface) (x.map (·.part .surface))) (w, .surface) (y.map (·.part .surface)))
        (v, .memory) (x.map (·.part .memory))) (w, .memory) (y.map (·.part .memory)) := by
  funext ⟨u, p⟩
  by_cases source : u = w
  · subst source
    cases p <;> simp [objs, Function.update]
  · by_cases target : u = v
    · subst target
      cases p <;> simp [objs, Function.update, source]
    · simp [objs, Function.update, source, target]

/-! ## What the parts own -/

/-- The variable holds both parts of the bitmap. -/
def State.Holds (s : State β) (v : β) (pair : Handle × Handle) : Prop :=
  s.owner (v, .memory) = some pair.1 ∧ s.owner (v, .surface) = some pair.2

/-- The parts are owned uniquely, and those of one bitmap stay together until the surface
and then the memory object is released. -/
structure Coherent (s : State β) : Prop where
  owned : s.sys.Owned (objs s.vars)
  parts : ∀ pair ∈ s.made,
    (∃ v, s.Holds v pair) ∨ [pair.1, pair.2].Sublist s.sys.released

omit [DecidableEq β] in
theorem objs_of_alive (p : Part) (alive : vars v = some this) :
    objs vars (v, p) = some (this.part p) := by
  simp [objs, alive]

omit [DecidableEq β] in
theorem owner_eq : s.owner (v, p) = (s.vars v).bind fun b => s.sys.owned (b.part p) := by
  simp [State.owner, System.owner, objs, Option.bind_map]

omit [DecidableEq β] in
theorem owner_of_alive (alive : s.vars v = some this) :
    s.owner (v, p) = s.sys.owned (this.part p) := by
  simp [owner_eq, alive]

omit [DecidableEq β] in
theorem owner_of_vacant (vacant : s.vars v = none) : s.owner (v, p) = none := by
  simp [owner_eq, vacant]

@[simp] theorem giveUp_owned : (giveUp sys this).owned = sys.owned := by
  simp [giveUp, Part.inOrder]

omit [DecidableEq β] in
@[simp] theorem giveUp_owner (objs : β × Part → Option Object) :
    (giveUp sys this).owner objs = sys.owner objs := by
  simp [giveUp, Part.inOrder]

theorem giveUp_released : (giveUp sys this).released =
    (sys.owned (this.part .memory)).toList ++
      ((sys.owned (this.part .surface)).toList ++ sys.released) := by
  simp only [giveUp, Part.inOrder, List.foldl_cons, List.foldl_nil, System.releaseIfSet_released,
    System.releaseIfSet_owned]

theorem released_sublist_giveUp : sys.released.Sublist (giveUp sys this).released := by
  rw [giveUp_released]
  exact (List.sublist_append_right _ _).trans (List.sublist_append_right _ _)

omit [DecidableEq β] in
/-- The two parts of one bitmap are released in order. -/
theorem State.Holds.giveUp {pair : Handle × Handle} (holds : s.Holds v pair)
    (alive : s.vars v = some this) :
    [pair.1, pair.2].Sublist (giveUp s.sys this).released := by
  obtain ⟨memory, surface⟩ := holds
  rw [owner_of_alive alive] at memory surface
  rw [giveUp_released, memory, surface]
  exact ((List.nil_sublist _).cons_cons _).cons_cons _

omit [DecidableEq β] in
/-- The handles made stay the same. -/
theorem Coherent.change (coherent : Coherent s) (made : t.made = s.made)
    (owned : t.sys.Owned (objs t.vars)) (older : s.sys.released.Sublist t.sys.released)
    (given : ∀ u pair, s.Holds u pair →
      (∃ u', t.Holds u' pair) ∨ [pair.1, pair.2].Sublist t.sys.released) : Coherent t where
  owned := owned
  parts pair member := by
    rw [made] at member
    rcases coherent.parts pair member with ⟨u, holds⟩ | released
    · exact given u pair holds
    · exact Or.inr (released.trans older)

theorem Coherent.default (coherent : Coherent s) (vacant : s.vars v = none) :
    Coherent { s with vars := Function.update s.vars v (some {}) } := by
  have same : s.sys.owner (objs (Function.update s.vars v (some {}))) =
      s.sys.owner (objs s.vars) := by
    funext ⟨u, p⟩
    by_cases here : u = v
    · subst here
      cases p <;> simp [System.owner, objs, vacant, NvKmsBitmap.part, Object.isSet,
        NvRmObject.isSet, NvKmsSurface.isSet]
    · simp [System.owner, objs, here]
  refine coherent.change rfl ?_ (.refl _) fun u pair holds => Or.inl ⟨u, ?_⟩
  · unfold System.Owned
    rw [same]
    exact coherent.owned
  · unfold State.Holds State.owner
    rw [same]
    exact holds

theorem Coherent.make (coherent : Coherent s) {b : NvKmsBitmap} (kms : Kms)
    (vacant : s.vars v = none) (isMemory : b.part .memory = memory.name.object)
    (isSurface : b.part .surface = surface.name.object) (fresh : s.sys.Fresh memory)
    (fresh' : (s.sys.give memory).Fresh surface) :
    Coherent {
      vars := Function.update s.vars v (some b)
      kms := kms
      sys := (s.sys.give memory).give surface
      made := (memory, surface) :: s.made } := by
  have empty : ∀ p, objs s.vars (v, p) = none := fun p => by simp [objs, vacant]
  have empty' : Function.update (objs s.vars) (v, Part.memory) (some memory.name.object)
      (v, .surface) = none := by simp [empty]
  have split : objs (Function.update s.vars v (some b)) =
      Function.update (Function.update (objs s.vars) (v, .memory) (some memory.name.object))
        (v, .surface) (some surface.name.object) := by
    rw [objs_update, Function.update_comm (by simp)]
    simp [isMemory, isSurface]
  have given := coherent.owned.give (empty .memory) fresh
  have owner := given.give_owner empty' fresh'
  rw [coherent.owned.give_owner (empty .memory) fresh, ← split] at owner
  refine ⟨?_, fun pair member => ?_⟩
  · show System.Owned _ (objs (Function.update s.vars v (some b)))
    rw [split]
    exact given.give empty' fresh'
  · rcases List.mem_cons.mp member with rfl | old
    · refine Or.inl ⟨v, ?_, ?_⟩
      · simp [State.owner, owner]
      · simp [State.owner, owner]
    · refine (coherent.parts pair old).imp_left fun ⟨u, holds⟩ => ⟨u, ?_⟩
      -- the variable of an older bitmap is another one
      have different : u ≠ v := by
        rintro rfl
        simp [State.Holds, owner_of_vacant vacant] at holds
      simpa [State.Holds, State.owner, owner, different] using holds

/-- What the variables own after a move. -/
theorem owner_move (kms : Kms) (u : β) :
    sys.owner (objs (Function.update (Function.update vars v
      (some (this.move other kms).this)) w (some (this.move other kms).other))) (u, p) =
        if u = w then none else if u = v then sys.owned (other.part p)
          else sys.owner (objs vars) (u, p) := by
  by_cases source : u = w
  · subst source
    simp [System.owner, objs]
  · by_cases target : u = v
    · subst target
      simp [System.owner, objs, source]
    · simp [System.owner, objs, source, target]

theorem Coherent.moveConstruct (coherent : Coherent s) (vacant : s.vars v = none)
    (source : s.vars w = some other) :
    Coherent { s with
      vars := Function.update (Function.update s.vars v
        (some (NvKmsBitmap.move {} other s.kms).this)) w
        (some (NvKmsBitmap.move {} other s.kms).other)
      kms := (NvKmsBitmap.move {} other s.kms).kms } := by
  have distinct : w ≠ v := by
    rintro rfl
    simp [vacant] at source
  refine coherent.change rfl ?_ (.refl _) fun u pair holds => Or.inl ?_
  · show System.Owned _ (objs _)
    rw [objs_update_update]
    -- the surface and the memory move one after the other, and `v` owned neither
    have moved := coherent.owned.move (v := (v, .surface)) (owner_of_vacant vacant)
      (objs_of_alive .surface source)
    have empty : s.sys.owner (Function.update (Function.update (objs s.vars) (v, .surface)
        (some (other.part .surface))) (w, .surface) (some (other.part .surface).reset))
        (v, .memory) = none := by
      simp [System.owner, objs, vacant]
    have memory : Function.update (Function.update (objs s.vars) (v, Part.surface)
        (some (other.part .surface))) (w, .surface) (some (other.part .surface).reset)
        (w, .memory) = some (other.part .memory) := by
      simp [objs, source]
    simpa using moved.move empty memory
  · -- what was held by `w` is held by `v` now
    by_cases here : u = w
    · subst here
      refine ⟨v, ?_⟩
      simpa [State.Holds, State.owner, owner_move, distinct.symm, ← owner_of_alive source]
        using holds
    · refine ⟨u, ?_⟩
      have different : u ≠ v := by
        rintro rfl
        simp [State.Holds, owner_of_vacant vacant] at holds
      simpa [State.Holds, State.owner, owner_move, here, different] using holds

theorem Coherent.moveAssign (coherent : Coherent s) (target : s.vars v = some this)
    (source : s.vars w = some other) :
    Coherent { s with
      vars := Function.update (Function.update s.vars v
        (some (this.move other s.kms).this)) w (some (this.move other s.kms).other)
      kms := (this.move other s.kms).kms
      sys := giveUp s.sys this } := by
  refine coherent.change rfl ?_ released_sublist_giveUp fun u pair holds => ?_
  · show System.Owned _ (objs _)
    rw [objs_update_update]
    have assigned := coherent.owned.assign (objs_of_alive .surface target)
      (objs_of_alive .surface source)
    have assigned' := assigned.assign (v := (v, .memory)) (w := (w, .memory))
      (by simpa using objs_of_alive .memory target) (by simpa using objs_of_alive .memory source)
    simpa [giveUp, Part.inOrder] using assigned'
  · -- what `v` held is given up, and what `w` held is held by `v` now
    by_cases here : u = v
    · subst here
      exact Or.inr (holds.giveUp target)
    · refine Or.inl ?_
      by_cases from' : u = w
      · subst from'
        refine ⟨v, ?_⟩
        simpa [State.Holds, State.owner, owner_move, Ne.symm here, ← owner_of_alive source]
          using holds
      · refine ⟨u, ?_⟩
        simpa [State.Holds, State.owner, owner_move, here, from'] using holds

theorem Coherent.destroy (coherent : Coherent s) (kms : Kms) (alive : s.vars v = some this) :
    Coherent { s with
      vars := Function.update s.vars v none
      kms := kms
      sys := giveUp s.sys this } := by
  refine coherent.change rfl ?_ released_sublist_giveUp fun u pair holds => ?_
  · show System.Owned _ (objs _)
    rw [objs_update]
    have released := coherent.owned.release (x := none) (objs_of_alive .surface alive) rfl
    have memory : Function.update (objs s.vars) (v, Part.surface) none (v, .memory) =
        some (this.part .memory) := by
      simpa using objs_of_alive .memory alive
    have released' := released.release (x := none) memory rfl
    simpa [giveUp, Part.inOrder] using released'
  · by_cases here : u = v
    · subst here
      exact Or.inr (holds.giveUp alive)
    · refine Or.inl ⟨u, ?_⟩
      simpa [State.Holds, owner_eq, here] using holds

omit [DecidableEq β] in
theorem coherent_initial : Coherent ({} : State β) := ⟨owned_initial, nofun⟩

theorem Coherent.step (coherent : Coherent s) (taken : s.step a = some t) : Coherent t := by
  cases a with
  | default v =>
    obtain ⟨vacant, rfl⟩ := of_guarded taken
    exact coherent.default vacant
  | make v b memory surface =>
    obtain ⟨⟨⟨vacant, isMemory, isSurface⟩, fresh, fresh'⟩, rfl⟩ := of_guarded taken
    exact coherent.make _ vacant isMemory isSurface fresh fresh'
  | moveConstruct v w =>
    simp only [State.step] at taken
    split at taken
    · obtain rfl := Option.some.inj taken
      exact coherent.moveConstruct ‹_› ‹_›
    · cases taken
  | moveAssign v w =>
    simp only [State.step] at taken
    split at taken
    · obtain rfl := Option.some.inj taken
      exact coherent.moveAssign ‹_› ‹_›
    · cases taken
  | destroy v =>
    simp only [State.step] at taken
    split at taken
    · obtain rfl := Option.some.inj taken
      exact coherent.destroy _ ‹_›
    · cases taken

theorem coherent_of_run {past : List (Event (State β) (Stmt β))}
    (run : (program β).Run past s) : Coherent s :=
  run.reachable.invariant (fun _ first => first ▸ coherent_initial)
    fun _ _ _ coherent taken => coherent.step taken

/-! ## The order of releases -/

/-- In a list without duplicates, the second of two members comes after the first. -/
theorem mem_of_pair_sublist {R : Type*} {x y : R} {later earlier : List R}
    (nodup : (later ++ x :: earlier).Nodup) (pair : [x, y].Sublist (later ++ x :: earlier)) :
    y ∈ earlier := by
  induction later with
  | nil =>
    cases pair with
    | cons _ skipped =>
      exact absurd (skipped.subset List.mem_cons_self) (List.nodup_cons.mp nodup).1
    | cons_cons _ rest => exact List.singleton_sublist.mp rest
  | cons z later ih =>
    obtain ⟨outside, nodup⟩ := List.nodup_cons.mp nodup
    cases pair with
    | cons _ rest => exact ih nodup rest
    | cons_cons _ _ => exact absurd (List.mem_append_right _ List.mem_cons_self) outside

omit [DecidableEq β] in
theorem Coherent.surfaceFirst (coherent : Coherent s) : SurfaceFirst s := by
  intro memory surface member later earlier split
  obtain ⟨nodup, -, -⟩ := List.nodup_append.mp (UniqueOwner.released_nodup coherent.owned)
  have released : memory ∈ s.sys.released := by simp [split]
  rcases coherent.parts _ member with ⟨v, owns, -⟩ | pair
  · -- a memory object that is still owned has not been freed
    exact absurd (List.mem_append_left _ released) (UniqueOwner.owned coherent.owned _ _ owns).2
  · rw [split] at nodup pair
    exact mem_of_pair_sublist nodup pair

/-- Unique ownership over whole programs: each handle wrapped by a variable, or by a part of
a bitmap, has one owner until it is released once or detached, and bitmaps are given up
surface first. -/
theorem ownedOnce_and_surfaceFirst {ν : Type*} [DecidableEq ν] {s : Handles.State ν}
    {past : List (Event (Handles.State ν) (Handles.Stmt ν))}
    {past' : List (Event (State β) (Stmt β))} (run : (Handles.program ν).Run past s)
    (run' : (program β).Run past' t) :
    s.sys.OwnedOnce s.vars ∧ t.sys.OwnedOnce (objs t.vars) ∧ SurfaceFirst t :=
  have coherent := coherent_of_run run'
  ⟨(owned_of_run run).ownedOnce, coherent.owned.ownedOnce, coherent.surfaceFirst⟩

/-- A descriptor is moved over another one, moved to itself, and its number is given out
again. A bitmap is moved into an empty one, and both are destroyed. -/
theorem ownedOnce_reused : ∃ s : Handles.State Bool, ∃ t : State Bool,
    s.sys.released.map (·.serial) = [1, 0] ∧ s.sys.detached.map (·.serial) = [2] ∧
      t.sys.released.map (·.serial) = [1, 2] ∧
      s.sys.OwnedOnce s.vars ∧ t.sys.OwnedOnce (objs t.vars) ∧ SurfaceFirst t := by
  have run := (Run.start (T := Handles.program Bool) rfl).play
    [.make false ⟨.close 3, 0⟩, .make true ⟨.close 4, 1⟩, .moveAssign false true,
      .moveAssign false false, .destroy true, .make true ⟨.close 3, 2⟩, .detach true] rfl
  have run' := (Run.start (T := program Bool) rfl).play
    [.make false { fMemory := ⟨1, 5⟩, fSurface := ⟨1, 7⟩ } ⟨.free 1 5, 1⟩
      ⟨.unregisterSurface 1 7, 2⟩, .default true, .moveAssign true false, .destroy false,
      .destroy true] rfl
  exact ⟨_, _, by decide, by decide, by decide, ownedOnce_and_surfaceFirst run run'⟩

end Bitmaps

end NvidiaHaiku.Accelerant

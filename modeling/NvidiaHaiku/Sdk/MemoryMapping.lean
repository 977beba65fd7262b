/-
# Ownership of memory mappings

An `NvRmMemoryMapping` owns a mapping of the resource manager and the Haiku area it
is seen through. A program of constructions, moves and destructions of any number
of such variables passes this ownership around.

The move constructor copies all eight fields. The move assignment forgets `fArea`,
so its target keeps its own area id next to the address and the handles of its
source. The programs that go well are those whose move assignments from a set
source find the same area id on both sides.
-/

import NvidiaHaiku.Math.Ownership
import NvidiaHaiku.Math.Transition

namespace NvidiaHaiku.Sdk

open NvidiaHaiku.Math TransitionSystem

/-- A `void *` or an `NvRmApi *`, zero being `nullptr`. -/
abbrev Address := ℕ

abbrev NvHandle := BitVec 32

/-- An `area_id`. -/
abbrev AreaId := BitVec 32

/-- The arguments of `UnmapMemory`, which name a mapping of the resource manager. -/
structure Unmap where
  rm : Address
  hDevice : NvHandle
  hMemory : NvHandle
  pLinearAddress : Address
  flags : BitVec 32
  deriving DecidableEq, Repr

/-- The fields in a Haiku build, as the default constructor sets them. -/
structure NvRmMemoryMapping where
  fRm : Address := 0
  fHDevice : NvHandle := 0
  fHMemory : NvHandle := 0
  fPLinearAddress : Address := 0
  fFlags : BitVec 32 := 0
  fAddress : Address := 0
  fSize : BitVec 64 := 0
  fArea : AreaId := -1
  deriving DecidableEq, Repr

namespace NvRmMemoryMapping

/-- The variable holds a mapping. -/
def isSet (m : NvRmMemoryMapping) : Bool := m.fAddress ≠ 0

/-- The mapping of the resource manager that `Delete` unmaps. -/
def unmap (m : NvRmMemoryMapping) : Unmap where
  rm := m.fRm
  hDevice := m.fHDevice
  hMemory := m.fHMemory
  pLinearAddress := m.fPLinearAddress
  flags := m.fFlags

/-- `Delete`: the area passed to `delete_area`, and what is passed to `UnmapMemory`. -/
def delete (m : NvRmMemoryMapping) : AreaId × Unmap := (m.fArea, m.unmap)

/-- The new variable of the move constructor. -/
def moved (other : NvRmMemoryMapping) : NvRmMemoryMapping where
  fRm := other.fRm
  fHDevice := other.fHDevice
  fHMemory := other.fHMemory
  fPLinearAddress := other.fPLinearAddress
  fFlags := other.fFlags
  fAddress := other.fAddress
  fSize := other.fSize
  fArea := other.fArea

/-- The fields that `operator=` writes. -/
def assign (this other : NvRmMemoryMapping) : NvRmMemoryMapping :=
  -- `fArea` is not among them
  { this with
    fRm := other.fRm
    fHDevice := other.fHDevice
    fHMemory := other.fHMemory
    fPLinearAddress := other.fPLinearAddress
    fFlags := other.fFlags
    fAddress := other.fAddress
    fSize := other.fSize }

/-- What a move leaves in its source. -/
def reset (other : NvRmMemoryMapping) : NvRmMemoryMapping := { other with fAddress := 0 }

/-- What a variable with these fields owns. -/
def owned (m : NvRmMemoryMapping) : Option (AreaId × Unmap) :=
  if m.isSet then some m.delete else none

end NvRmMemoryMapping

/-- The variables of a program, and the calls that it has made of `Delete`. -/
structure State (ν : Type*) where
  /-- The variables that are alive. -/
  vars : ν → Option NvRmMemoryMapping := fun _ => none
  /-- The mappings given to constructors. -/
  made : List NvRmMemoryMapping := []
  /-- The calls of `Delete`, most recent first. -/
  deletes : List (AreaId × Unmap) := []

/-- A statement of a program over the variables. -/
inductive Stmt (ν : Type*)
  | default (v : ν)
  /-- Construction from a fresh mapping. -/
  | make (v : ν) (m : NvRmMemoryMapping)
  /-- `NvRmMemoryMapping v(std::move(w))`. -/
  | moveConstruct (v w : ν)
  /-- `v = std::move(w)`. -/
  | moveAssign (v w : ν)
  | destroy (v : ν)
  deriving DecidableEq, Repr

namespace State

variable {ν : Type*} [DecidableEq ν]

/-- A variable begins or ends its life, or is written. -/
def set (s : State ν) (v : ν) (m : Option NvRmMemoryMapping) : State ν :=
  { s with vars := Function.update s.vars v m }

/-- `if (IsSet()) Delete();` in a variable with these fields. -/
def deleteIfSet (s : State ν) (m : NvRmMemoryMapping) : State ν :=
  if m.isSet then { s with deletes := m.delete :: s.deletes } else s

/-- The mapping has a non-null address, and its area and its mapping are new. -/
def Fresh (s : State ν) (m : NvRmMemoryMapping) : Prop :=
  m.isSet = true ∧
    (∀ old ∈ s.made, m.fArea ≠ old.fArea) ∧ ∀ old ∈ s.made, m.unmap ≠ old.unmap

instance (s : State ν) (m : NvRmMemoryMapping) : Decidable (s.Fresh m) :=
  inferInstanceAs (Decidable (_ = _ ∧ (∀ _ ∈ _, _ ≠ _) ∧ ∀ _ ∈ _, _ ≠ _))

/-- One statement. A mapping is constructed from an area and an address that are not in use. -/
def step (s : State ν) : Stmt ν → Option (State ν)
  | .default v => if s.vars v = none then some (s.set v (some {})) else none
  | .make v m =>
    if s.vars v = none ∧ s.Fresh m then some { s.set v (some m) with made := m :: s.made } else none
  | .moveConstruct v w =>
    match s.vars v, s.vars w with
    | none, some other => some ((s.set v (some other.moved)).set w (some other.reset))
    | _, _ => none
  | .moveAssign v w =>
    match s.vars v, s.vars w with
    | some this, some other =>
      let assigned := (s.deleteIfSet this).set v (some (this.assign other))
      -- on self-assignment this resets what has just been assigned
      some (assigned.set w ((assigned.vars w).map (·.reset)))
    | _, _ => none
  | .destroy v =>
    match s.vars v with
    | some this => some ((s.deleteIfSet this).set v none)
    | none => none

/-- What each variable owns. -/
def owner (s : State ν) (v : ν) : Option (AreaId × Unmap) := (s.vars v).bind (·.owned)

end State

variable {ν : Type*} [DecidableEq ν]

/-- The programs, which start with no variable alive. -/
def program (ν : Type*) [DecidableEq ν] : TransitionSystem (State ν) (Stmt ν) :=
  .ofStep (· = {}) State.step

/-- The area id and the handles of a set variable belong to its address. -/
def Paired (s : State ν) : Prop := ∀ v m, s.vars v = some m → m.isSet = true → m ∈ s.made

/-- Every area is deleted once, by the variable that finally owns it. -/
structure OwnedOnce (s : State ν) : Prop where
  paired : Paired s
  /-- A mapping is owned by one variable, or has been deleted once. -/
  once : ∀ m ∈ s.made,
    ((s.deletes.map Prod.fst).count m.fArea = 0 ∧ ∃! v, s.vars v = some m) ∨
      ((s.deletes.map Prod.fst).count m.fArea = 1 ∧ ∀ v, s.vars v ≠ some m)
  /-- Only areas given to constructors are deleted, and each with its own mapping. -/
  only : ∀ d ∈ s.deletes, ∃ m ∈ s.made, m.delete = d

/-- The condition on a statement: a move assignment from a set source finds the area
id of the source in the target. -/
def SameArea (s : State ν) : Stmt ν → Prop
  | .moveAssign v w => ∀ this ∈ s.vars v, ∀ other ∈ s.vars w,
      other.isSet = true → this.fArea = other.fArea
  | .default _ | .make _ _ | .moveConstruct _ _ | .destroy _ => True

instance (s : State ν) : (a : Stmt ν) → Decidable (SameArea s a)
  | .moveAssign v w => inferInstanceAs (Decidable (∀ this ∈ s.vars v, ∀ other ∈ s.vars w,
      other.isSet = true → this.fArea = other.fArea))
  | .default _ | .make _ _ | .moveConstruct _ _ | .destroy _ => inferInstanceAs (Decidable True)

/-- What holds as long as the statements meet the condition. -/
structure Coherent (s : State ν) : Prop where
  unique : UniqueOwner s.owner (s.made.map (·.delete)) s.deletes
  paired : Paired s
  nonnull : ∀ m ∈ s.made, m.isSet = true
  areas : ∀ m ∈ s.made, ∀ n ∈ s.made, m.fArea = n.fArea → m = n
  unmaps : ∀ m ∈ s.made, ∀ n ∈ s.made, m.unmap = n.unmap → m = n

variable {s t : State ν} {a : Stmt ν} {v w : ν} {m this other : NvRmMemoryMapping}

@[simp] theorem moved_eq : other.moved = other := rfl

@[simp] theorem reset_owned : other.reset.owned = none := rfl

theorem assign_eq (same : this.fArea = other.fArea) : this.assign other = other := by
  cases other
  simp only [NvRmMemoryMapping.assign, same]

@[simp] theorem set_owner {n : Option NvRmMemoryMapping} :
    (s.set v n).owner = Function.update s.owner v (n.bind (·.owned)) := by
  funext u
  by_cases same : u = v
  · subst same
    simp [State.owner, State.set]
  · simp [State.owner, State.set, same]

theorem set_set {n n' : Option NvRmMemoryMapping} : (s.set v n).set v n' = s.set v n' := by
  simp [State.set]

@[simp] theorem set_made {n : Option NvRmMemoryMapping} : (s.set v n).made = s.made := rfl

@[simp] theorem set_deletes {n : Option NvRmMemoryMapping} : (s.set v n).deletes = s.deletes := rfl

omit [DecidableEq ν] in
@[simp] theorem deleteIfSet_vars : (s.deleteIfSet m).vars = s.vars := by
  unfold State.deleteIfSet
  split <;> rfl

omit [DecidableEq ν] in
@[simp] theorem deleteIfSet_made : (s.deleteIfSet m).made = s.made := by
  unfold State.deleteIfSet
  split <;> rfl

omit [DecidableEq ν] in
@[simp] theorem deleteIfSet_owner : (s.deleteIfSet m).owner = s.owner := by
  funext u
  simp [State.owner]

/-- `Delete` ends the ownership of a variable, if it had any. -/
theorem Coherent.release (coherent : Coherent s) (alive : s.vars v = some m) :
    UniqueOwner (Function.update s.owner v none) (s.made.map (·.delete))
      (s.deleteIfSet m).deletes := by
  have owns : s.owner v = m.owned := by simp [State.owner, alive]
  have deletes : (s.deleteIfSet m).deletes = m.owned.toList ++ s.deletes := by
    unfold State.deleteIfSet NvRmMemoryMapping.owned
    split <;> rfl
  rw [deletes, ← owns]
  exact coherent.unique.clear

omit [DecidableEq ν] in
/-- The variables and the releases may change while the mappings made stay the same. -/
theorem Coherent.change (coherent : Coherent s) (made : t.made = s.made)
    (unique : UniqueOwner t.owner (s.made.map (·.delete)) t.deletes) (paired : Paired t) :
    Coherent t where
  unique := made ▸ unique
  paired := paired
  nonnull := made ▸ coherent.nonnull
  areas := made ▸ coherent.areas
  unmaps := made ▸ coherent.unmaps

theorem Paired.set {n : Option NvRmMemoryMapping} (paired : Paired s)
    (given : ∀ m, n = some m → m.isSet = true → m ∈ s.made) : Paired (s.set v n) := by
  intro u m alive set
  by_cases same : u = v
  · subst same
    exact given m (by simpa [State.set] using alive) set
  · exact paired u m (by simpa [State.set, same] using alive) set

omit [DecidableEq ν] in
theorem Paired.deleteIfSet (paired : Paired s) : Paired (s.deleteIfSet m) := by
  simpa [Paired] using paired

/-- A field that tells the members of a list apart goes on doing so when a member with
a new value is added. -/
theorem eq_of_field_cons {α β : Type*} {f : α → β} {x : α} {l : List α}
    (apart : ∀ m ∈ l, ∀ n ∈ l, f m = f n → m = n) (fresh : ∀ old ∈ l, f x ≠ f old) :
    ∀ m ∈ x :: l, ∀ n ∈ x :: l, f m = f n → m = n := by
  intro m first n second same
  rcases List.mem_cons.mp first with rfl | old
  · rcases List.mem_cons.mp second with rfl | old
    · rfl
    · exact absurd same (fresh n old)
  · rcases List.mem_cons.mp second with rfl | old'
    · exact absurd same.symm (fresh m old)
    · exact apart m old n old' same

theorem Coherent.make (coherent : Coherent s) (vacant : s.vars v = none) (fresh : s.Fresh m) :
    Coherent { s.set v (some m) with made := m :: s.made } := by
  obtain ⟨set, area, unmap⟩ := fresh
  have empty : s.owner v = none := by simp [State.owner, vacant]
  have new : m.delete ∉ s.made.map (·.delete) := by
    intro member
    obtain ⟨old, member, same⟩ := List.mem_map.mp member
    exact area old member (congrArg Prod.fst same).symm
  refine ⟨?_, ?_, ?_, ?_, ?_⟩
  · have acquired := coherent.unique.acquire empty new
    have owns : m.owned = some m.delete := if_pos set
    rw [← owns] at acquired
    exact (set_owner (s := s) (v := v) (n := some m)) ▸ acquired
  · intro u n alive nonnull
    by_cases same : u = v
    · subst same
      obtain rfl : m = n := by simpa [State.set] using alive
      exact List.mem_cons_self
    · have before : s.vars u = some n := by simpa [State.set, same] using alive
      exact List.mem_cons_of_mem _ (coherent.paired u n before nonnull)
  · simpa [set] using coherent.nonnull
  · exact eq_of_field_cons coherent.areas area
  · exact eq_of_field_cons coherent.unmaps unmap

theorem Coherent.moveConstruct (coherent : Coherent s) (vacant : s.vars v = none)
    (alive : s.vars w = some other) :
    Coherent ((s.set v (some other.moved)).set w (some other.reset)) := by
  have empty : s.owner v = none := by simp [State.owner, vacant]
  have owns : s.owner w = other.owned := by simp [State.owner, alive]
  refine coherent.change rfl ?_ ((coherent.paired.set ?_).set ?_)
  · have moved := coherent.unique.move (v := w) empty
    simpa [owns] using moved
  · rintro m ⟨⟩ set
    exact coherent.paired w _ alive set
  · rintro m ⟨⟩ set
    exact nomatch set

theorem Coherent.destroy (coherent : Coherent s) (alive : s.vars v = some this) :
    Coherent ((s.deleteIfSet this).set v none) := by
  refine coherent.change (by simp) ?_ (coherent.paired.deleteIfSet.set nofun)
  simpa using coherent.release alive

theorem Coherent.moveAssign (coherent : Coherent s) (target : s.vars v = some this)
    (source : s.vars w = some other) (same : other.isSet = true → this.fArea = other.fArea)
    (distinct : v ≠ w) :
    Coherent (((s.deleteIfSet this).set v (some (this.assign other))).set w
      (some other.reset)) := by
  -- with the area ids equal, the assignment copies all that a set source owns
  have given : other.isSet = true → this.assign other = other := fun set => assign_eq (same set)
  have owns : (this.assign other).owned = s.owner w := by
    have owner : s.owner w = other.owned := by simp [State.owner, source]
    rw [owner]
    cases set : other.isSet with
    | true => rw [given set]
    | false =>
      have unset : (this.assign other).isSet = false := set
      simp [NvRmMemoryMapping.owned, set, unset]
  refine coherent.change (by simp) ?_ ((coherent.paired.deleteIfSet.set ?_).set ?_)
  · -- first the target releases, then what the source owns moves in
    have moved := (coherent.release target).move (v := w) (w := v) (by simp)
    rw [Function.update_of_ne distinct.symm, ← owns, Function.update_idem] at moved
    simpa using moved
  · rintro m ⟨⟩ set
    have set : other.isSet = true := set
    rw [deleteIfSet_made, given set]
    exact coherent.paired w other source set
  · rintro m ⟨⟩ set
    exact nomatch set

/-- A self-assignment deletes what the variable owns, and leaves it empty. -/
theorem Coherent.selfAssign (coherent : Coherent s) (alive : s.vars v = some this) :
    Coherent (((s.deleteIfSet this).set v (some (this.assign other))).set v
      ((((s.deleteIfSet this).set v (some (this.assign other))).vars v).map (·.reset))) := by
  have assigned : ((s.deleteIfSet this).set v (some (this.assign other))).vars v =
      some (this.assign other) := by simp [State.set]
  rw [assigned, Option.map_some, set_set]
  refine coherent.change (by simp) ?_ (coherent.paired.deleteIfSet.set ?_)
  · simpa using coherent.release alive
  · rintro m ⟨⟩ set
    exact nomatch set

theorem Coherent.step (coherent : Coherent s) (taken : s.step a = some t) (same : SameArea s a) :
    Coherent t := by
  cases a with
  | default v =>
    obtain ⟨vacant, rfl⟩ := of_guarded taken
    have empty : s.owner v = none := by simp [State.owner, vacant]
    refine coherent.change rfl ?_ (coherent.paired.set ?_)
    · have same : Function.update s.owner v none = s.owner := by
        rw [← empty, Function.update_eq_self]
      simpa [NvRmMemoryMapping.owned, NvRmMemoryMapping.isSet, same] using coherent.unique
    · rintro m ⟨⟩ set
      exact nomatch set
  | make v m =>
    obtain ⟨⟨vacant, fresh⟩, rfl⟩ :=
      of_guarded taken
    exact coherent.make vacant fresh
  | moveConstruct v w =>
    simp only [State.step] at taken
    split at taken
    · obtain rfl := Option.some.inj taken
      exact coherent.moveConstruct ‹_› ‹_›
    · exact nomatch taken
  | moveAssign v w =>
    simp only [State.step] at taken
    split at taken
    · rename_i this other target source
      obtain rfl := Option.some.inj taken
      -- the operator clears the other mapping, which is the same one in a self-assignment
      by_cases self : v = w
      · subst self
        exact coherent.selfAssign target
      · have untouched :
            ((s.deleteIfSet this).set v (some (this.assign other))).vars w = some other := by
          simpa [State.set, Ne.symm self] using source
        rw [untouched]
        exact coherent.moveAssign target source (same this target other source) self
    · exact nomatch taken
  | destroy v =>
    simp only [State.step] at taken
    split at taken
    · obtain rfl := Option.some.inj taken
      exact coherent.destroy ‹_›
    · exact nomatch taken

omit [DecidableEq ν] in
theorem coherent_initial : Coherent ({} : State ν) :=
  ⟨UniqueOwner.empty, nofun, nofun, nofun, nofun⟩

omit [DecidableEq ν] in
/-- Each area is deleted as often as its mapping is. -/
theorem Coherent.deletes_nodup (coherent : Coherent s) : (s.deletes.map Prod.fst).Nodup := by
  apply coherent.unique.released_nodup.map_on
  intro d gone e gone' same
  obtain ⟨m, member, rfl⟩ := List.mem_map.mp (coherent.unique.released_subset d gone)
  obtain ⟨n, member', rfl⟩ := List.mem_map.mp (coherent.unique.released_subset e gone')
  rw [coherent.areas m member n member' same]

omit [DecidableEq ν] in
/-- A variable holds a mapping just when it owns it. -/
theorem Coherent.holds_iff (coherent : Coherent s) (member : m ∈ s.made) :
    s.vars v = some m ↔ s.owner v = some m.delete := by
  constructor
  · intro holds
    simp [State.owner, holds, NvRmMemoryMapping.owned, coherent.nonnull m member]
  · -- what is owned under the same area id is the same mapping
    intro owns
    obtain ⟨n, holds, owned⟩ := Option.bind_eq_some_iff.mp owns
    obtain ⟨set, same⟩ := Option.ite_none_right_eq_some.mp owned
    have area : n.fArea = m.fArea := congrArg Prod.fst (Option.some.inj same)
    rw [holds, coherent.areas n (coherent.paired v n holds set) m member area]

omit [DecidableEq ν] in
theorem Coherent.ownedOnce (coherent : Coherent s) : OwnedOnce s := by
  refine ⟨coherent.paired, fun m member => ?_, fun d gone => ?_⟩
  · have made : m.delete ∈ s.made.map (·.delete) := List.mem_map_of_mem member
    simp only [coherent.holds_iff member]
    -- either it has been deleted, and nobody owns it any more, or it has one owner
    by_cases gone : m.delete ∈ s.deletes
    · refine Or.inr ⟨?_, fun v holds =>
        (coherent.unique.owned v _ ((coherent.holds_iff member).mp holds)).2 gone⟩
      exact List.count_eq_one_of_mem coherent.deletes_nodup (List.mem_map_of_mem gone)
    · refine Or.inl ⟨List.count_eq_zero.mpr fun deleted => gone ?_,
        coherent.unique.existsUnique made gone⟩
      obtain ⟨d, gone, same⟩ := List.mem_map.mp deleted
      obtain ⟨n, member', rfl⟩ := List.mem_map.mp (coherent.unique.released_subset d gone)
      rwa [coherent.areas m member n member' same.symm]
  · obtain ⟨m, member, same⟩ := List.mem_map.mp (coherent.unique.released_subset d gone)
    exact ⟨m, member, same⟩

/-- A move assignment that mixes up two areas leaves a variable whose area does not
belong to its address. -/
theorem Coherent.not_paired (coherent : Coherent s) (taken : s.step a = some t)
    (mixed : ¬ SameArea s a) : ¬ Paired t := by
  cases a with
  | default | make | moveConstruct | destroy => exact absurd trivial mixed
  | moveAssign v w =>
    simp only [SameArea, not_forall] at mixed
    obtain ⟨this, target, other, source, set, different⟩ := mixed
    rw [Option.mem_def] at target source
    -- in a self-assignment the two area ids are one
    have distinct : v ≠ w := by
      rintro rfl
      exact different (congrArg _ (Option.some.inj (target.symm.trans source)))
    simp only [State.step, target, source] at taken
    obtain rfl := Option.some.inj taken
    intro paired
    have member := paired v (this.assign other) (by simp [State.set, distinct]) set
    simp only [set_made, deleteIfSet_made] at member
    -- the mapping of the resource manager tells which address the area belongs to
    have same := coherent.unmaps _ member other (coherent.paired w other source set) rfl
    exact different (congrArg (·.fArea) same)

/-- Ownership over whole programs: every mapping is owned and deleted once, with its
own area, just when every move assignment from a set source finds the area id of the
source in the target. -/
theorem ownedOnce_iff {past : List (Event (State ν) (Stmt ν))} (run : (program ν).Run past s) :
    Every (fun e => OwnedOnce e.target) past ↔ Every (fun e => SameArea e.source e.action) past :=
  run.every_iff (P := Coherent) (fun _ first => first ▸ coherent_initial)
    (fun _ _ _ coherent taken same =>
      have coherent := coherent.step taken same
      ⟨coherent, coherent.ownedOnce⟩)
    fun _ _ _ coherent taken mixed owned => coherent.not_paired taken mixed owned.paired

/-- A mapping seen at address 4096 through area 5. -/
def mapped : NvRmMemoryMapping := ⟨1, 2, 3, 4, 0, 4096, 64, 5⟩

/-- A mapping is moved into a new variable, and both variables are destroyed. -/
theorem ownedOnce_constructed : ∃ past s, (program Bool).Run past s ∧
    Every (fun e => OwnedOnce e.target) past := by
  have run := (Run.start (T := program Bool) rfl).play
    [.make false mapped, .moveConstruct true false, .destroy false, .destroy true] rfl
  exact ⟨_, _, run, (ownedOnce_iff run).mpr (by decide)⟩

/-- A mapping is assigned to a default-constructed variable, which is destroyed. The
area passed to `delete_area` is -1, and area 5 is never deleted. -/
theorem not_ownedOnce_assigned : ∃ past s, (program Bool).Run past s ∧
    (∀ v, s.vars v = none) ∧ s.deletes = [(-1, mapped.unmap)] ∧
      ¬ Every (fun e => OwnedOnce e.target) past := by
  have run := (Run.start (T := program Bool) rfl).play
    [.default true, .make false mapped, .moveAssign true false, .destroy false,
      .destroy true] rfl
  refine ⟨_, _, run, by decide, by decide, fun every => ?_⟩
  have owned := every _ (.head _)
  obtain ⟨m, member, same⟩ := owned.only (-1, mapped.unmap) (by decide)
  obtain rfl := List.mem_singleton.mp member
  exact absurd same (by decide)

end NvidiaHaiku.Sdk

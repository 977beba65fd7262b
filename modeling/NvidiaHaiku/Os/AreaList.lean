/-
# A VM that is a list of areas

The areas have ids of their own, and in one space addresses of their own. A call fails unless Haiku
decides for room that is free. Such a VM does what is documented.
-/

import NvidiaHaiku.Os.Vm

namespace NvidiaHaiku.Os

open NvidiaHaiku.Math NvidiaHaiku.BaseDevice

/-- The id and the addresses of a new area, and its memory if it is not a clone. -/
structure Room where
  id : ℤ
  virt : Extent 64
  phys : Extent 64

/-- Areas with ids and addresses of their own. -/
structure AreaList where
  areas : List (ℤ × VmArea)
  ids : areas.Pairwise (·.1 ≠ ·.1)
  virt : areas.Pairwise fun x y => x.2.space = y.2.space → x.2.virt.Disjoint y.2.virt

namespace AreaList

variable (l : AreaList)

/-- No area. -/
def empty : AreaList := ⟨[], .nil, .nil⟩

/-- The area with an id. -/
def find (id : ℤ) : Option VmArea := (l.areas.find? (·.1 = id)).map (·.2)

/-- `get_memory_map`. -/
def getMemoryMap (space : Space) (address : BitVec 64) : Option (BitVec 64) :=
  (l.areas.find? fun x => x.2.space = space && x.2.virt.Contains address).map
    (·.2.translate address)

/-- Neither the id nor the addresses are in use. -/
def Free (id : ℤ) (a : VmArea) : Prop :=
  0 ≤ id ∧ ∀ x ∈ l.areas, id ≠ x.1 ∧ (a.space = x.2.space → a.virt.Disjoint x.2.virt)

instance (id : ℤ) (a : VmArea) : Decidable (l.Free id a) :=
  inferInstanceAs (Decidable (_ ∧ ∀ _ ∈ _, _))

/-- No area shows the memory. -/
def Unused (phys : Extent 64) : Prop := ∀ x ∈ l.areas, x.2.phys.Disjoint phys

instance (phys : Extent 64) : Decidable (l.Unused phys) := inferInstanceAs (Decidable (∀ _ ∈ _, _))

/-- A call that makes no area. -/
def fails : NewArea AreaList := ⟨l, -1, 0⟩

/-- A call that makes an area, if there is room for it. -/
def add (id : ℤ) (a : VmArea) : NewArea AreaList :=
  if free : l.Free id a then
    { vm := {
        areas := (id, a) :: l.areas
        ids := List.pairwise_cons.mpr ⟨fun x member => (free.2 x member).1, l.ids⟩
        virt := List.pairwise_cons.mpr ⟨fun x member => (free.2 x member).2, l.virt⟩ }
      area := id
      address := a.virt.base }
  else l.fails

/-- `create_area`. -/
def createArea (choice : Option Room) (size : ℕ) : NewArea AreaList :=
  match choice with
  | none => l.fails
  | some room =>
    if sizes : room.virt.size = room.phys.size then
      if room.virt.size = size ∧ 0 < size ∧ l.Unused room.phys then
        l.add room.id { space := .kernel, virt := room.virt, phys := room.phys, sizes := sizes }
      else l.fails
    else l.fails

/-- `vm_clone_area`. -/
def cloneArea (choice : Option Room) (team : ℕ) (source : ℤ) : NewArea AreaList :=
  match choice, l.find source with
  | some room, some b =>
    if sizes : room.virt.size = b.phys.size then
      l.add room.id { space := .team team, virt := room.virt, phys := b.phys, sizes := sizes }
    else l.fails
  | _, _ => l.fails

/-- An area with another memory type. -/
def retype (area : ℤ) (type : MemoryType) (x : ℤ × VmArea) : ℤ × VmArea :=
  if x.1 = area then (x.1, x.2.withType type) else x

@[simp] theorem retype_fst (area : ℤ) (type : MemoryType) (x : ℤ × VmArea) :
    (retype area type x).1 = x.1 := by
  unfold retype
  split <;> rfl

theorem retype_space_virt (area : ℤ) (type : MemoryType) (x : ℤ × VmArea) :
    (retype area type x).2.space = x.2.space ∧ (retype area type x).2.virt = x.2.virt := by
  unfold retype
  split <;> exact ⟨rfl, rfl⟩

/-- `vm_set_area_memory_type`, when it succeeds. -/
def setAreaMemoryType (area : ℤ) (type : MemoryType) : AreaList where
  areas := l.areas.map (retype area type)
  ids := List.pairwise_map.mpr (by simpa using l.ids)
  virt := List.pairwise_map.mpr (by simpa [retype_space_virt] using l.virt)

/-- `delete_area`. -/
def deleteArea (area : ℤ) : AreaList where
  areas := l.areas.filter (·.1 ≠ area)
  ids := l.ids.filter _
  virt := l.virt.filter _

/-- A memory type is set where Haiku decides for room. -/
def vm : Vm AreaList (Option Room) where
  areas := find
  getAreaInfo l id := (l.find id).map (·.virt.base)
  getMemoryMap := getMemoryMap
  createArea := createArea
  cloneArea l choice team _ _ := l.cloneArea choice team
  setAreaMemoryType l choice area _ type :=
    if choice.isSome then (l.setAreaMemoryType area type, 0) else (l, -1)
  deleteArea := deleteArea

variable {l} {id : ℤ} {a : VmArea} {asked : VmArea → Prop}

theorem mem_of_find (there : l.find id = some a) : (id, a) ∈ l.areas := by
  obtain ⟨⟨id', a'⟩, found, rfl⟩ := Option.map_eq_some_iff.mp there
  obtain rfl : id' = id := by simpa using List.find?_some found
  exact List.mem_of_find?_eq_some found

theorem adds_fails : Vm.Adds l.find l.fails.vm.find l.fails.area asked :=
  Or.inl ⟨Int.negSucc_lt_zero 0, rfl⟩

theorem adds_add (same : (l.add id a).address = a.virt.base → asked a) :
    Vm.Adds l.find (l.add id a).vm.find (l.add id a).area asked := by
  unfold add at same ⊢
  split at same
  · rename_i free
    rw [dif_pos free]
    refine Or.inr ⟨free.1, ?_, a, same rfl, ?_⟩
    · refine Option.map_eq_none_iff.mpr (List.find?_eq_none.mpr fun x member => ?_)
      simpa using (free.2 x member).1.symm
    · funext other
      by_cases here : other = id
      · rw [here, Function.update_self]
        simp [find]
      · rw [Function.update_of_ne here]
        simp [find, List.find?_cons_of_neg, Ne.symm here]
  · rename_i taken
    rw [dif_neg taken]
    exact adds_fails

theorem find_setAreaMemoryType (area : ℤ) (type : MemoryType) (id : ℤ) :
    (l.setAreaMemoryType area type).find id =
      if id = area then (l.find id).map (·.withType type) else l.find id := by
  have keys : (fun x : ℤ × VmArea => decide ((retype area type x).1 = id)) =
      fun x => decide (x.1 = id) := by simp
  simp only [find, setAreaMemoryType, List.find?_map, Function.comp_def, keys]
  cases found : l.areas.find? (·.1 = id) with
  | none => simp
  | some x =>
    obtain rfl : x.1 = id := by simpa using List.find?_some found
    simp only [Option.map_some, retype]
    split <;> rfl

theorem find_deleteArea (area id : ℤ) :
    (l.deleteArea area).find id = if id = area then none else l.find id := by
  simp only [find, deleteArea, List.find?_filter]
  split
  · rename_i same
    rw [List.find?_eq_none.mpr, Option.map_none]
    simp [same]
  · rename_i other
    congr 2
    funext x
    by_cases same : x.1 = id <;> simp [same, other]

theorem documented : vm.Documented where
  getAreaInfo l id a there := by
    simp only [vm] at there ⊢
    rw [there, Option.map_some]
  getMemoryMap l id a there address contains := by
    have member := mem_of_find there
    have found : (l.areas.find? fun x => x.2.space = a.space && x.2.virt.Contains address) =
        some (id, a) := by
      refine Extent.find_eq_some member (by simpa using contains) (l.virt.imp fun {x y} apart => ?_)
      simp only [Bool.and_eq_true, decide_eq_true_eq]
      exact fun ⟨⟨first, here⟩, ⟨second, there⟩⟩ =>
        (apart (first.trans second.symm)).not_contains ⟨here, there⟩
    exact congrArg (Option.map (·.2.translate address)) found
  createArea l choice size := by
    simp only [vm]
    cases choice with
    | none => exact adds_fails
    | some room =>
      unfold createArea
      dsimp only
      split
      · split
        · rename_i sizes free
          refine adds_add fun address => ⟨rfl, address.symm, free.1, free.2.1, fun id b there => ?_⟩
          exact free.2.2 _ (mem_of_find there)
        · exact adds_fails
      · exact adds_fails
  cloneArea l choice team params protection source b there := by
    simp only [vm] at there ⊢
    unfold cloneArea
    cases choice with
    | none => exact adds_fails
    | some room =>
      simp only [there]
      split
      · exact adds_add fun address => ⟨rfl, address.symm, rfl⟩
      · exact adds_fails
  setAreaMemoryType l choice area physBase type a there := by
    simp only [vm] at there ⊢
    split
    · refine ⟨type, funext fun id => ?_, fun _ => rfl⟩
      rw [find_setAreaMemoryType]
      by_cases same : id = area
      · rw [if_pos same, same, Function.update_self, there, Option.map_some]
      · rw [if_neg same, Function.update_of_ne same]
    · refine ⟨a.type, ?_, fun ok => absurd ok (Int.not_le.mpr (Int.negSucc_lt_zero 0))⟩
      exact (Function.update_eq_self_iff.mpr there.symm).symm
  deleteArea l area _ _ := by
    funext id
    simp only [vm, find_deleteArea]
    by_cases same : id = area
    · rw [if_pos same, same, Function.update_self]
    · rw [if_neg same, Function.update_of_ne same]

end AreaList

end NvidiaHaiku.Os

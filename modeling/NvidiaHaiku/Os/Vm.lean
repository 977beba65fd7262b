/-
# The VM of Haiku

Haiku keeps areas. One of contiguous memory shows a physical extent at a virtual one, in the kernel
or in a team, and stays mapped. The driver creates, clones and deletes such areas, sets their memory
types, and asks where an area is and what is behind an address.

The VM itself is not the driver's. It is a parameter here, and `Vm.Documented` is what the driver
relies on. Where an area goes, whether there is memory for it and whether a memory type can be set
is for Haiku to decide, so a call also takes such a decision.

`Shows` is about areas and those who know of them: what one of them sees is shown by nobody who
does not know of it.
-/

import Mathlib.Data.Set.Insert
import NvidiaHaiku.BaseDevice.MappingContext
import NvidiaHaiku.Math.Extent

namespace NvidiaHaiku.Os

open NvidiaHaiku.Math NvidiaHaiku.BaseDevice

/-- The address space of the kernel, or of a team. -/
inductive Space
  | kernel
  | team (id : ℕ)
  deriving DecidableEq, Repr

/-- An area of contiguous memory. -/
structure VmArea where
  space : Space
  virt : Extent 64
  phys : Extent 64
  sizes : virt.size = phys.size
  type : MemoryType := .unchanged
  deriving DecidableEq

namespace VmArea

/-- The physical address behind an address of the area. -/
def translate (a : VmArea) (address : BitVec 64) : BitVec 64 := a.phys.nth (a.virt.offset address)

/-- The area with another memory type. -/
def withType (a : VmArea) (type : MemoryType) : VmArea := { a with type := type }

theorem translate_nth {a : VmArea} {o : ℕ} (inside : o < a.virt.size) :
    a.translate (a.virt.nth o) = a.phys.nth o := by
  rw [translate, Extent.offset_nth inside]

end VmArea

/-- What a call that makes an area leaves: the id of the area or an error, and where it is. -/
structure NewArea (V : Type*) where
  vm : V
  area : ℤ
  address : BitVec 64

/-- A VM with the states `V`, where `χ` is what Haiku decides for a call. -/
structure Vm (V χ : Type*) where
  /-- The areas of contiguous memory. -/
  areas : V → ℤ → Option VmArea
  /-- The address that `get_area_info` finds for an area. -/
  getAreaInfo : V → ℤ → Option (BitVec 64)
  /-- `get_memory_map` for the page at an address. -/
  getMemoryMap : V → Space → BitVec 64 → Option (BitVec 64)
  /-- `create_area` for contiguous memory of the kernel. -/
  createArea : V → χ → (size : ℕ) → NewArea V
  /-- `vm_clone_area` for a team. -/
  cloneArea : V → χ → (team : ℕ) → MapParams → (protection : BitVec 32) → (source : ℤ) → NewArea V
  /-- `vm_set_area_memory_type`, with its status. -/
  setAreaMemoryType : V → χ → (area : ℤ) → (physBase : BitVec 64) → MemoryType → V × ℤ
  /-- `delete_area`. -/
  deleteArea : V → (area : ℤ) → V

namespace Vm

variable {V χ : Type*}

/-- A call fails and leaves the areas as they are, or it adds one that is as it should be, under an
id that is not in use. -/
def Adds (before after : ℤ → Option VmArea) (id : ℤ) (asked : VmArea → Prop) : Prop :=
  id < 0 ∧ after = before ∨
    0 ≤ id ∧ before id = none ∧ ∃ a, asked a ∧ after = Function.update before id (some a)

/-- What is documented of the calls. -/
structure Documented (vm : Vm V χ) : Prop where
  getAreaInfo : ∀ v id a, vm.areas v id = some a → vm.getAreaInfo v id = some a.virt.base
  /-- An address of an area leads to the memory that the area shows there. -/
  getMemoryMap : ∀ v id a, vm.areas v id = some a → ∀ address, a.virt.Contains address →
    vm.getMemoryMap v a.space address = some (a.translate address)
  /-- A new area is not empty, and has memory that no area shows. -/
  createArea : ∀ v choice size, Adds (vm.areas v) (vm.areas (vm.createArea v choice size).vm)
    (vm.createArea v choice size).area fun a =>
      a.space = .kernel ∧ a.virt.base = (vm.createArea v choice size).address ∧
        a.virt.size = size ∧ 0 < size ∧ ∀ id b, vm.areas v id = some b → b.phys.Disjoint a.phys
  /-- A clone shows the memory of its source. -/
  cloneArea : ∀ v choice team params protection source b, vm.areas v source = some b →
    Adds (vm.areas v) (vm.areas (vm.cloneArea v choice team params protection source).vm)
      (vm.cloneArea v choice team params protection source).area fun a =>
        a.space = .team team ∧
          a.virt.base = (vm.cloneArea v choice team params protection source).address ∧
          a.phys = b.phys
  /-- The area has the memory type if the call succeeds. If it fails it may have any. -/
  setAreaMemoryType : ∀ v choice area physBase type a, vm.areas v area = some a →
    ∃ type', vm.areas (vm.setAreaMemoryType v choice area physBase type).1 =
        Function.update (vm.areas v) area (some (a.withType type')) ∧
      (0 ≤ (vm.setAreaMemoryType v choice area physBase type).2 → type' = type)
  deleteArea : ∀ v area a, vm.areas v area = some a →
    vm.areas (vm.deleteArea v area) = Function.update (vm.areas v) area none

variable {vm : Vm V χ} {v : V} {id : ℤ} {a : VmArea} {o : ℕ}

/-- An area shows its memory byte by byte. -/
theorem Documented.getMemoryMap_nth (documented : vm.Documented) (there : vm.areas v id = some a)
    (inside : o < a.virt.size) :
    vm.getMemoryMap v a.space (a.virt.nth o) = some (a.phys.nth o) := by
  rw [documented.getMemoryMap v id a there _ (Extent.contains_nth inside),
    VmArea.translate_nth inside]

end Vm

/-! ## Areas and those who know of them -/

/-- What is known of an area. -/
structure View where
  area : ℤ
  space : Space
  physBase : BitVec 64
  cacheType : CacheType
  /-- The status of `vm_set_area_memory_type`, which is dropped. -/
  typed : ℤ
  deriving DecidableEq, Repr

/-- The area is what is known of it. -/
structure View.Backed (w : View) (a : VmArea) : Prop where
  space : a.space = w.space
  physBase : a.phys.base = w.physBase
  type : 0 ≤ w.typed → a.type = toHaikuCacheType w.cacheType

/-- Two areas that are known show different memory, or the same that is known for the same cache
type. The kernel has no two for it. -/
structure View.Apart (w w' : View) (a a' : VmArea) : Prop where
  memory : a.phys.Disjoint a'.phys ∨ a.phys = a'.phys ∧ w.cacheType = w'.cacheType
  kernel : w.space = .kernel → w'.space = .kernel → w.area = w'.area ∨ a.phys.Disjoint a'.phys

/-- There is an area for whatever is known, and an area that is not known shows nothing of it. -/
structure Shows (areas : ℤ → Option VmArea) (views : Set View) : Prop where
  backed : ∀ w ∈ views, ∃ a, areas w.area = some a ∧ w.Backed a
  apart : ∀ w ∈ views, ∀ w' ∈ views, ∀ a a', areas w.area = some a → areas w'.area = some a' →
    w.Apart w' a a'
  foreign : ∀ w ∈ views, ∀ a, areas w.area = some a → ∀ id b, areas id = some b →
    (∀ w' ∈ views, w'.area ≠ id) → b.phys.Disjoint a.phys

theorem View.Apart.symm {w w' : View} {a a' : VmArea} (apart : w.Apart w' a a') :
    w'.Apart w a' a where
  memory := apart.memory.imp Extent.Disjoint.symm fun ⟨phys, type⟩ => ⟨phys.symm, type.symm⟩
  kernel second first := (apart.kernel first second).imp Eq.symm Extent.Disjoint.symm

theorem View.apart_self (w : View) (a : VmArea) : w.Apart w a a where
  memory := Or.inr ⟨rfl, rfl⟩
  kernel _ _ := Or.inl rfl

/-- A new area leaves those that are there. -/
theorem update_of_free {areas : ℤ → Option VmArea} {id other : ℤ} {a b : VmArea}
    (free : areas id = none) (there : areas other = some b) :
    Function.update areas id (some a) other = some b := by
  have different : other ≠ id := by
    rintro rfl
    cases free.symm.trans there
  rw [Function.update_of_ne different, there]

namespace Shows

variable {areas areas' : ℤ → Option VmArea} {views views' : Set View} {w : View} {a : VmArea}
  {id : ℤ}

theorem empty : Shows areas ∅ where
  backed _ known := known.elim
  apart _ known := known.elim
  foreign _ known := known.elim

/-- A new area is known, and shows what is not shown yet or what is known already. -/
theorem add (shows : Shows areas views) (free : areas w.area = none) (backed : w.Backed a)
    (apart : ∀ w' ∈ views, ∀ a', areas w'.area = some a' → w.Apart w' a a')
    (foreign : ∀ id b, areas id = some b → (∀ w' ∈ views, w'.area ≠ id) → b.phys.Disjoint a.phys) :
    Shows (Function.update areas w.area (some a)) (insert w views) := by
  -- what is known already has another area
  have old {w' : View} (known : w' ∈ views) :
      Function.update areas w.area (some a) w'.area = areas w'.area := by
    obtain ⟨a', there, -⟩ := shows.backed w' known
    rw [update_of_free free there, there]
  have new {a' : VmArea} (there : Function.update areas w.area (some a) w.area = some a') :
      a = a' := by
    rw [Function.update_self] at there
    exact Option.some.inj there
  refine ⟨?_, ?_, ?_⟩
  · rintro w' (rfl | known)
    · exact ⟨a, Function.update_self .., backed⟩
    · rw [old known]
      exact shows.backed w' known
  · rintro w₁ (rfl | known₁) w₂ (rfl | known₂) a₁ a₂ there₁ there₂
    · obtain rfl := new there₁
      obtain rfl := new there₂
      exact View.apart_self ..
    · obtain rfl := new there₁
      exact apart w₂ known₂ a₂ (old known₂ ▸ there₂)
    · obtain rfl := new there₂
      exact (apart w₁ known₁ a₁ (old known₁ ▸ there₁)).symm
    · exact shows.apart w₁ known₁ w₂ known₂ a₁ a₂ (old known₁ ▸ there₁) (old known₂ ▸ there₂)
  · rintro w' known a' there id b other unknown
    have different : id ≠ w.area := fun same => unknown w (Set.mem_insert ..) same.symm
    rw [Function.update_of_ne different] at other
    have before (w' : View) (known : w' ∈ views) : w'.area ≠ id :=
      unknown w' (Set.mem_insert_of_mem _ known)
    rcases known with rfl | known
    · obtain rfl := new there
      exact foreign id b other before
    · exact shows.foreign w' known a' (old known ▸ there) id b other before

/-- An area is deleted and no longer known. -/
theorem delete (shows : Shows areas views) (fewer : views' ⊆ views)
    (left : ∀ w ∈ views, w.area ≠ id → w ∈ views') (gone : ∀ w ∈ views', w.area ≠ id) :
    Shows (Function.update areas id none) views' := by
  have old {w : View} (known : w ∈ views') :
      Function.update areas id none w.area = areas w.area :=
    Function.update_of_ne (gone w known) ..
  refine ⟨?_, ?_, ?_⟩
  · intro w known
    rw [old known]
    exact shows.backed w (fewer known)
  · intro w known w' known' a a' there there'
    exact shows.apart w (fewer known) w' (fewer known') a a' (old known ▸ there)
      (old known' ▸ there')
  · intro w known a there other b foreign unknown
    have different : other ≠ id := by
      rintro rfl
      rw [Function.update_self] at foreign
      cases foreign
    rw [Function.update_of_ne different] at foreign
    refine shows.foreign w (fewer known) a (old known ▸ there) other b foreign fun w' known' same => ?_
    exact unknown w' (left w' known' (same ▸ different)) same

/-- Areas that are not known come and go. -/
theorem elsewhere (shows : Shows areas views) (same : ∀ w ∈ views, areas' w.area = areas w.area)
    (foreign : ∀ w ∈ views, ∀ a, areas w.area = some a → ∀ id b, areas' id = some b →
      (∀ w' ∈ views, w'.area ≠ id) → b.phys.Disjoint a.phys) : Shows areas' views where
  backed w known := same w known ▸ shows.backed w known
  apart w known w' known' a a' there there' := shows.apart w known w' known' a a'
    (same w known ▸ there) (same w' known' ▸ there')
  foreign w known a there := foreign w known a (same w known ▸ there)

end Shows

end NvidiaHaiku.Os

/-
# The views of a DMA buffer agree

The RM sees a buffer through `pte_array`, through addresses of the kernel and through
physical ones, and teams see it through clones of its area. Whatever is allocated, freed
and mapped in between, all of them show the same memory, as long as `NV_HAIKU_MAP` reads no
`nv_alloc_t` that has been deleted. Memory that is still shown is given to no other buffer, all
areas that show it have one memory type if it could be set, and the areas of the kernel that the
calls have created and not deleted are one for each buffer.
-/

import Mathlib.Order.BooleanAlgebra.Set
import NvidiaHaiku.Math.Tenancy
import NvidiaHaiku.Os.AreaList
import NvidiaHaiku.Os.DmaBuffer

namespace NvidiaHaiku.Os

open NvidiaHaiku.Math NvidiaHaiku.BaseDevice TransitionSystem
open NvidiaHaiku.Libc (B_PAGE_SIZE)

/-! ## Pages -/

theorem nth_page {e : Extent 64} {page : ℕ} :
    e.base + BitVec.ofNat 64 page * B_PAGE_SIZE = e.nth (page * 4096) := by
  rw [Extent.nth, B_PAGE_SIZE, BitVec.ofNat_mul]
  rfl

/-- The physical address of a byte of a buffer. -/
def byteAddress (physBase pageIndex : BitVec 64) (pageOffset : BitVec 32) : BitVec 64 :=
  physBase + pageIndex * B_PAGE_SIZE + pageOffset.setWidth 64

section Calls

variable {V χ : Type*} {vm : Vm V χ} {v : V} {a : VmArea} {id : ℤ}

/-- No page of a new area is without a physical address. -/
theorem Vm.Documented.pteArray (documented : vm.Documented) (there : vm.areas v id = some a)
    (kernel : a.space = .kernel) {pages : ℕ} (inside : pages * 4096 ≤ a.virt.size) :
    pteArray vm v a.virt.base pages =
      some ((List.range pages).map fun page => a.phys.nth (page * 4096)) := by
  have each (page : ℕ) (small : page ∈ List.range pages) :
      vm.getMemoryMap v .kernel (a.virt.base + BitVec.ofNat 64 page * B_PAGE_SIZE) =
        some (a.phys.nth (page * 4096)) := by
    rw [List.mem_range] at small
    rw [nth_page]
    exact kernel ▸ documented.getMemoryMap_nth there (by omega)
  unfold Os.pteArray
  generalize List.range pages = l at each
  induction l with
  | nil => rfl
  | cons page l ih =>
    rw [List.mapM_cons, each page List.mem_cons_self, List.map_cons,
      ih fun p member => each p (List.mem_cons_of_mem _ member)]
    rfl

/-- The area that `nv_alloc_pages` has created for a buffer. -/
structure Buffer.Made (b : Buffer) (a : VmArea) : Prop where
  size : a.virt.size = b.page_count.toNat * 4096
  pte_array : b.pte_array =
    (List.range (if b.contiguous then 1 else b.page_count.toNat)).map fun page =>
      a.phys.nth (page * 4096)

/-- The area that `NV_HAIKU_MAP` has given to a team. -/
def ShownBuffer.Made (m : ShownBuffer) (a : VmArea) : Prop :=
  m.address = a.virt.base + m.page_index * B_PAGE_SIZE

/-- `nv_alloc_pages` fails and leaves the areas as they are, or it has created an area with memory
that no other area shows. It does not abort. -/
theorem nvAllocPages_cases (documented : vm.Documented) (v : V) (call : AllocPages)
    (create type : χ) :
    (∃ status v', nvAllocPages vm v call create type = .failed status v' ∧
        vm.areas v' = vm.areas v) ∨
      ∃ priv b v' a, nvAllocPages vm v call create type = .allocated priv b v' ∧
        vm.areas v b.alloc.area = none ∧
        vm.areas v' = Function.update (vm.areas v) b.alloc.area (some a) ∧
        b.view.Backed a ∧ b.Made a ∧
        ∀ id other, vm.areas v id = some other → other.phys.Disjoint a.phys := by
  unfold nvAllocPages
  cases call.object with
  | none => exact Or.inl ⟨_, _, rfl, rfl⟩
  | some priv =>
    dsimp only
    rcases documented.createArea v create call.size with
      ⟨failed, same⟩ | ⟨created, free, a, ⟨kernel, base, size, positive, unused⟩, areas⟩
    · exact Or.inl ⟨_, _, if_pos failed, same⟩
    right
    have there : vm.areas (vm.createArea v create call.size).vm
        (vm.createArea v create call.size).area = some a := by rw [areas, Function.update_self]
    have pages : 0 < call.pages ∧ call.pages * 4096 ≤ a.virt.size := by
      rw [AllocPages.size] at size positive
      rw [AllocPages.pages]
      split <;> omega
    rw [if_neg (by omega), ← base, documented.pteArray there kernel pages.2]
    obtain ⟨type', set, ok⟩ := documented.setAreaMemoryType _ type _
      (((List.range call.pages).map fun page => a.phys.nth (page * 4096)).getD 0 0)
      (toHaikuCacheType call.cache_type) a there
    refine ⟨priv, _, _, a.withType type', rfl, free, ?_, ⟨kernel, ?_, ok⟩, ⟨size, rfl⟩, unused⟩
    · rw [set, areas, Function.update_idem]
    · simp only [Buffer.view]
      rw [List.getD_eq_getElem?_getD, List.getElem?_map, List.getElem?_range pages.1]
      exact Extent.nth_zero.symm

/-- The calls that map a clone, and what is copied out. -/
theorem map_cloneArea {h : NvHaikuBaseDeviceHandle} {call : MapCall}
    {memory : BaseDevice.Address → NvAlloc} {priv : BaseDevice.Address} {page_index : BitVec 64}
    (chosen : h.mapping call = .ok (.cloneArea priv page_index)) :
    h.map memory call =
      let first := VmCall.cloneArea call.params (call.params.protection &&& userProtection)
        (memory priv).area
      let second := VmCall.setAreaMemoryType call.area (memory priv).physBase
        (toHaikuCacheType (memory priv).cacheType)
      if call.area < 0 then ([first], call.area, none)
      else if call.copyOut < 0 then
        ([first, second, .deleteArea call.area], call.copyOut, none)
      else ([first, second], call.area,
        some { call.params with address := call.baseAddress + page_index * B_PAGE_SIZE }) := by
  simp [NvHaikuBaseDeviceHandle.map, chosen, NvHaikuBaseDeviceHandle.mapped,
    NvHaikuBaseDeviceHandle.mappingCall]

/-- `NV_HAIKU_MAP` leaves the areas as they are, or adds a clone and gives it to the team. -/
theorem haikuMap_cases (documented : vm.Documented) {s : DmaState V} {h : NvHaikuBaseDeviceHandle}
    {request : MapCall} {priv : BaseDevice.Address} {page_index : BitVec 64} {deleted : NvAlloc}
    {source : VmArea} (chosen : h.mapping request = .ok (.cloneArea priv page_index))
    (there : vm.areas s.vm (s.memory deleted priv).area = some source) (team : ℕ)
    (clone type : χ) :
    ∃ v shown, s.haikuMap vm h request team deleted clone type priv page_index =
        { s with vm := v, shown := shown } ∧
      (vm.areas v = vm.areas s.vm ∧ shown = s.shown ∨
        ∃ m a, shown = m :: s.shown ∧ m.alloc = s.memory deleted priv ∧ m.Made a ∧
          vm.areas s.vm m.area = none ∧
          vm.areas v = Function.update (vm.areas s.vm) m.area (some a) ∧
          a.phys = source.phys ∧ a.space = .team m.team ∧
          (0 ≤ m.typed → a.type = toHaikuCacheType m.alloc.cacheType)) := by
  unfold DmaState.haikuMap
  dsimp only
  rw [map_cloneArea (by exact chosen)]
  generalize s.memory deleted priv = alloc at there
  rcases documented.cloneArea s.vm clone team request.params
      (request.params.protection &&& userProtection) alloc.area source there with
    ⟨failed, same⟩ | ⟨created, free, a, ⟨space, base, phys⟩, areas⟩
  · refine ⟨_, _, ?_, Or.inl ⟨same, rfl⟩⟩
    simp only [if_pos failed]
    rfl
  have cloned : vm.areas (vm.cloneArea s.vm clone team request.params
      (request.params.protection &&& userProtection) alloc.area).vm
        (vm.cloneArea s.vm clone team request.params
          (request.params.protection &&& userProtection) alloc.area).area = some a := by
    rw [areas, Function.update_self]
  obtain ⟨type', set, ok⟩ := documented.setAreaMemoryType _ type _ alloc.physBase
    (toHaikuCacheType alloc.cacheType) a cloned
  simp only [if_neg (Int.not_lt.mpr created)]
  by_cases copied : request.copyOut < 0
  · -- the clone is deleted again
    simp only [if_pos copied]
    refine ⟨_, _, rfl, Or.inl ⟨?_, rfl⟩⟩
    simp only [List.foldl_cons, List.foldl_nil, Vm.call]
    rw [documented.deleteArea _ _ (a.withType type') (by rw [set, Function.update_self]), set,
      areas, Function.update_idem, Function.update_idem,
      Function.update_eq_self_iff.mpr free.symm]
  · simp only [if_neg copied]
    refine ⟨_, _, rfl, Or.inr ⟨_, a.withType type', rfl, rfl, ?_, free, ?_, phys, space, ok⟩⟩
    · rw [ShownBuffer.Made]
      exact congrArg (· + page_index * B_PAGE_SIZE) base.symm
    · simp only [List.foldl_cons, List.foldl_nil, Vm.call]
      rw [set, areas, Function.update_idem]

end Calls

/-! ## The areas of the kernel -/

/-- The ids of the areas of the kernel. -/
def kernelAreas (areas : ℤ → Option VmArea) : Set ℤ :=
  {id | ∃ a, areas id = some a ∧ a.space = .kernel}

section KernelAreas

variable {areas : ℤ → Option VmArea} {id : ℤ} {a : VmArea}

theorem kernelAreas_create (kernel : a.space = .kernel) :
    kernelAreas (Function.update areas id (some a)) = insert id (kernelAreas areas) := by
  ext other
  by_cases same : other = id <;> simp [kernelAreas, same, kernel]

theorem kernelAreas_clone (free : areas id = none) (team : a.space ≠ .kernel) :
    kernelAreas (Function.update areas id (some a)) = kernelAreas areas := by
  ext other
  by_cases same : other = id <;> simp [kernelAreas, same, free, team]

theorem kernelAreas_delete :
    kernelAreas (Function.update areas id none) = kernelAreas areas \ {id} := by
  ext other
  by_cases same : other = id <;> simp [kernelAreas, same]

end KernelAreas

variable {V χ : Type*} {vm : Vm V χ} {s t : DmaState V} {a : DmaAction V χ}
  {past : List (Event (DmaState V) (DmaAction V χ))}

/-- The step is none of the calls. -/
def DmaAction.isElsewhere : DmaAction V χ → Bool
  | elsewhere _ => true
  | _ => false

/-- The areas of the kernel that the calls have created and not deleted. -/
def createdAreas (vm : Vm V χ) : List (Event (DmaState V) (DmaAction V χ)) → Set ℤ
  | [] => ∅
  | e :: past =>
    if e.action.isElsewhere then createdAreas vm past
    else {id | id ∈ kernelAreas (vm.areas e.target.vm) ∧
      (id ∈ kernelAreas (vm.areas e.source.vm) → id ∈ createdAreas vm past)}

section Created

variable (called : a.isElsewhere = false)
  (before : createdAreas vm past ⊆ kernelAreas (vm.areas s.vm))
include called before

/-- A call that keeps the areas of the kernel. -/
theorem createdAreas_same
    (same : kernelAreas (vm.areas t.vm) = kernelAreas (vm.areas s.vm)) :
    createdAreas vm (⟨s, a, t⟩ :: past) = createdAreas vm past := by
  ext id
  simp only [createdAreas, called, Bool.false_eq_true, if_false, same, Set.mem_ofPred_eq]
  exact ⟨fun ⟨there, created⟩ => created there, fun created => ⟨before created, fun _ => created⟩⟩

/-- A call that creates an area of the kernel. -/
theorem createdAreas_create {id : ℤ} (new : id ∉ kernelAreas (vm.areas s.vm))
    (same : kernelAreas (vm.areas t.vm) = insert id (kernelAreas (vm.areas s.vm))) :
    createdAreas vm (⟨s, a, t⟩ :: past) = insert id (createdAreas vm past) := by
  ext other
  simp only [createdAreas, called, Bool.false_eq_true, if_false, same, Set.mem_ofPred_eq,
    Set.mem_insert_iff]
  constructor
  · rintro ⟨rfl | there, created⟩
    · exact Or.inl rfl
    · exact Or.inr (created there)
  · rintro (rfl | created)
    · exact ⟨Or.inl rfl, fun there => absurd there new⟩
    · exact ⟨Or.inr (before created), fun _ => created⟩

/-- A call that deletes an area of the kernel. -/
theorem createdAreas_delete {id : ℤ}
    (same : kernelAreas (vm.areas t.vm) = kernelAreas (vm.areas s.vm) \ {id}) :
    createdAreas vm (⟨s, a, t⟩ :: past) = createdAreas vm past \ {id} := by
  ext other
  simp only [createdAreas, called, Bool.false_eq_true, if_false, same, Set.mem_ofPred_eq,
    Set.mem_sdiff, Set.mem_singleton_iff]
  constructor
  · exact fun ⟨⟨there, different⟩, created⟩ => ⟨created there, different⟩
  · exact fun ⟨created, different⟩ => ⟨⟨before created, different⟩, fun _ => created⟩

end Created

/-! ## The invariant -/

/-- The areas that the buffers have. -/
def DmaState.areas (s : DmaState V) : BaseDevice.Address → Option ℤ :=
  fun priv => (s.buffers priv).map (·.alloc.area)

/-- What is known of the buffers, the views and the areas of the VM in a run. -/
structure DmaState.Sound (vm : Vm V χ) (past : List (Event (DmaState V) (DmaAction V χ)))
    (s : DmaState V) : Prop where
  shows : Shows (vm.areas s.vm) s.views
  /-- The kernel has an area for each buffer. -/
  owned : HeldOnce s.areas (createdAreas vm past)
  made : ∀ priv b, s.buffers priv = some b →
    ∃ a, vm.areas s.vm b.alloc.area = some a ∧ b.Made a
  shown : ∀ m ∈ s.shown, ∃ a, vm.areas s.vm m.area = some a ∧ m.Made a

/-- The `nv_alloc_t` that a call of `NV_HAIKU_MAP` reads. -/
def DmaAction.reads : DmaAction V χ → Option BaseDevice.Address
  | haikuMap h request .. =>
    match h.mapping request with
    | .ok (.cloneArea priv _) => some priv
    | _ => none
  | _ => none

/-- `NV_HAIKU_MAP` reads no `nv_alloc_t` that has been deleted. -/
def Living (e : Event (DmaState V) (DmaAction V χ)) : Prop :=
  ∀ priv ∈ e.action.reads, (e.source.buffers priv).isSome = true

instance : DecidablePred (Living (V := V) (χ := χ)) := fun _ =>
  inferInstanceAs (Decidable (∀ _ ∈ _, _))

namespace DmaState

theorem view_mem_of_buffer {priv : BaseDevice.Address} {b : Buffer}
    (here : s.buffers priv = some b) : b.view ∈ s.views := Or.inl ⟨priv, b, here, rfl⟩

theorem view_mem_of_shown {m : ShownBuffer} (shown : m ∈ s.shown) : m.view ∈ s.views :=
  Or.inr ⟨m, shown, rfl⟩

theorem views_allocated {v : V} {priv : BaseDevice.Address} {b : Buffer}
    (vacant : s.buffers priv = none) :
    DmaState.views { s with vm := v, buffers := Function.update s.buffers priv (some b) } =
      insert b.view s.views := by
  ext w
  constructor
  · rintro (⟨other, b', here, rfl⟩ | ⟨m, shown, rfl⟩)
    · by_cases same : other = priv
      · obtain rfl : b = b' := by simpa [same] using here
        exact Or.inl rfl
      · exact Or.inr (view_mem_of_buffer (by simpa [same] using here))
    · exact Or.inr (view_mem_of_shown shown)
  · rintro (rfl | ⟨other, b', here, rfl⟩ | ⟨m, shown, rfl⟩)
    · exact Or.inl ⟨priv, b, Function.update_self .., rfl⟩
    · have different : other ≠ priv := by
        rintro rfl
        cases vacant.symm.trans here
      exact Or.inl ⟨other, b', by simpa [different] using here, rfl⟩
    · exact Or.inr ⟨m, shown, rfl⟩

theorem views_mapped {v : V} {m : ShownBuffer} :
    DmaState.views { s with vm := v, shown := m :: s.shown } = insert m.view s.views := by
  ext w
  simp only [DmaState.views, List.mem_cons, Set.mem_ofPred_eq, Set.mem_insert_iff]
  constructor
  · rintro (buffer | ⟨m', rfl | shown, rfl⟩)
    · exact Or.inr (Or.inl buffer)
    · exact Or.inl rfl
    · exact Or.inr (Or.inr ⟨m', shown, rfl⟩)
  · rintro (rfl | buffer | ⟨m', shown, rfl⟩)
    · exact Or.inr ⟨m, Or.inl rfl, rfl⟩
    · exact Or.inl buffer
    · exact Or.inr ⟨m', Or.inr shown, rfl⟩

theorem areas_update {v : V} {priv : BaseDevice.Address} {b : Option Buffer} :
    DmaState.areas { s with vm := v, buffers := Function.update s.buffers priv b } =
      Function.update s.areas priv (b.map (·.alloc.area)) := by
  funext other
  by_cases same : other = priv <;> simp [DmaState.areas, same]

namespace Sound

/-- The area of a buffer is one of the kernel. -/
theorem buffer (sound : s.Sound vm past) {priv : BaseDevice.Address} {b : Buffer}
    (here : s.buffers priv = some b) :
    ∃ a, vm.areas s.vm b.alloc.area = some a ∧ b.view.Backed a ∧ b.Made a := by
  obtain ⟨a, there, backed⟩ := sound.shows.backed _ (view_mem_of_buffer here)
  obtain ⟨a', there', made⟩ := sound.made priv b here
  obtain rfl := Option.some.inj (there.symm.trans there')
  exact ⟨a, there, backed, made⟩

theorem mapping (sound : s.Sound vm past) {m : ShownBuffer} (shown : m ∈ s.shown) :
    ∃ a, vm.areas s.vm m.area = some a ∧ m.view.Backed a ∧ m.Made a := by
  obtain ⟨a, there, backed⟩ := sound.shows.backed _ (view_mem_of_shown shown)
  obtain ⟨a', there', made⟩ := sound.shown m shown
  obtain rfl := Option.some.inj (there.symm.trans there')
  exact ⟨a, there, backed, made⟩

/-- The area of a mapping is not one of the kernel. -/
theorem mapping_not_kernel (sound : s.Sound vm past) {m : ShownBuffer} (shown : m ∈ s.shown) :
    m.area ∉ kernelAreas (vm.areas s.vm) := by
  rintro ⟨a, there, kernel⟩
  obtain ⟨a', there', backed, -⟩ := sound.mapping shown
  obtain rfl := Option.some.inj (there.symm.trans there')
  cases kernel.symm.trans backed.space

theorem createdAreas_subset (sound : s.Sound vm past) :
    createdAreas vm past ⊆ kernelAreas (vm.areas s.vm) := by
  intro id created
  obtain ⟨priv, owns⟩ := (sound.owned.used_iff id).mp created
  obtain ⟨b, here, rfl⟩ := Option.map_eq_some_iff.mp owns
  obtain ⟨a, there, backed, -⟩ := sound.buffer here
  exact ⟨a, there, backed.space⟩

/-- A call that changes no area. -/
theorem quiet (sound : s.Sound vm past) (called : a.isElsewhere = false) {v : V}
    (same : vm.areas v = vm.areas s.vm) :
    Sound vm (⟨s, a, { s with vm := v }⟩ :: past) { s with vm := v } where
  shows := same ▸ sound.shows
  owned := by
    rw [createdAreas_same called sound.createdAreas_subset (congrArg kernelAreas same)]
    exact sound.owned
  made := same ▸ sound.made
  shown := same ▸ sound.shown

theorem allocPages (documented : vm.Documented) (sound : s.Sound vm past) {call : AllocPages}
    {create type : χ} (taken : s.step vm (.allocPages call create type) = some t) :
    Sound vm (⟨s, .allocPages call create type, t⟩ :: past) t := by
  simp only [DmaState.step] at taken
  rcases nvAllocPages_cases documented s.vm call create type with
    ⟨status, v, failed, same⟩ | ⟨priv, b, v, a, allocated, free, areas, backed, made, unused⟩
  · rw [failed] at taken
    obtain rfl := Option.some.inj taken
    exact sound.quiet rfl same
  rw [allocated] at taken
  obtain ⟨vacant, rfl⟩ := of_guarded taken
  -- the areas that were there before stay
  have old {id : ℤ} {a' : VmArea} (there : vm.areas s.vm id = some a') :
      vm.areas v id = some a' := areas ▸ update_of_free free there
  have new : b.alloc.area ∉ kernelAreas (vm.areas s.vm) := fun ⟨a', there, _⟩ => by
    cases free.symm.trans there
  refine ⟨?_, ?_, ?_, ?_⟩
  · rw [views_allocated vacant]
    exact areas ▸ sound.shows.add (w := b.view) free backed
      (fun w known a' there => ⟨Or.inl (unused _ a' there).symm,
        fun _ _ => Or.inr (unused _ a' there).symm⟩)
      fun id b' there _ => unused id b' there
  · rw [areas_update, createdAreas_create rfl sound.createdAreas_subset new
      (by rw [areas, kernelAreas_create backed.space])]
    exact sound.owned.take (by simp [DmaState.areas, vacant])
      fun created => new (sound.createdAreas_subset created)
  · intro other b' here
    by_cases same : other = priv
    · obtain rfl : b = b' := by simpa [same] using here
      exact ⟨a, by rw [areas, Function.update_self], made⟩
    · obtain ⟨a', there, made⟩ := sound.made other b' (by simpa [same] using here)
      exact ⟨a', old there, made⟩
  · intro m shown
    obtain ⟨a', there, made⟩ := sound.shown m shown
    exact ⟨a', old there, made⟩

theorem freePages (documented : vm.Documented) (sound : s.Sound vm past) {priv : BaseDevice.Address}
    (taken : s.step vm (.freePages priv) = some t) :
    Sound vm (⟨s, .freePages priv, t⟩ :: past) t := by
  obtain ⟨b, here, rfl⟩ := Option.map_eq_some_iff.mp taken
  obtain ⟨a, there, backed, -⟩ := sound.buffer here
  have owns : s.areas priv = some b.alloc.area := by simp [DmaState.areas, here]
  have areas := documented.deleteArea s.vm b.alloc.area a there
  -- nothing else is known of the area
  have others {other : BaseDevice.Address} {b' : Buffer} (different : other ≠ priv)
      (here' : s.buffers other = some b') : b'.alloc.area ≠ b.alloc.area := fun same =>
    different (sound.owned.single other priv b.alloc.area
      (by simp [DmaState.areas, here', same]) owns)
  have clones {m : ShownBuffer} (shown : m ∈ s.shown) : m.area ≠ b.alloc.area := fun same =>
    sound.mapping_not_kernel shown (same ▸ ⟨a, there, backed.space⟩)
  have kept {other : BaseDevice.Address} {b' : Buffer}
      (left : Function.update s.buffers priv none other = some b') :
      other ≠ priv ∧ s.buffers other = some b' := by
    by_cases same : other = priv
    · simp [same] at left
    · exact ⟨same, by simpa [same] using left⟩
  refine ⟨?_, ?_, ?_, ?_⟩
  · rw [areas]
    refine sound.shows.delete ?_ ?_ ?_
    · rintro w (⟨other, b', left, rfl⟩ | known)
      · exact view_mem_of_buffer (kept left).2
      · exact Or.inr known
    · rintro w (⟨other, b', here', rfl⟩ | known) different
      · refine Or.inl ⟨other, b', ?_, rfl⟩
        have apart : other ≠ priv := by
          rintro rfl
          exact different (congrArg (·.alloc.area) (Option.some.inj (here'.symm.trans here)))
        simpa [apart] using here'
      · exact Or.inr known
    · rintro w (⟨other, b', left, rfl⟩ | ⟨m, shown, rfl⟩)
      · exact others (kept left).1 (kept left).2
      · exact clones shown
  · rw [areas_update, createdAreas_delete rfl sound.createdAreas_subset
      (by rw [areas, kernelAreas_delete])]
    exact sound.owned.giveBack owns
  · intro other b' left
    obtain ⟨different, here'⟩ := kept left
    obtain ⟨a', there', made⟩ := sound.made other b' here'
    exact ⟨a', by rw [areas, Function.update_of_ne (others different here'), there'], made⟩
  · intro m shown
    obtain ⟨a', there', made⟩ := sound.shown m shown
    exact ⟨a', by rw [areas, Function.update_of_ne (clones shown), there'], made⟩

theorem haikuMap (documented : vm.Documented) (sound : s.Sound vm past)
    {h : NvHaikuBaseDeviceHandle} {request : MapCall} {team : ℕ} {deleted : NvAlloc}
    {clone type : χ} (taken : s.step vm (.haikuMap h request team deleted clone type) = some t)
    (living : Living ⟨s, .haikuMap h request team deleted clone type, t⟩) :
    Sound vm (⟨s, .haikuMap h request team deleted clone type, t⟩ :: past) t := by
  simp only [DmaState.step] at taken
  split at taken
  · obtain rfl := Option.some.inj taken
    exact sound.quiet (v := s.vm) rfl rfl
  · rename_i priv page_index chosen
    obtain ⟨b, here⟩ := Option.isSome_iff_exists.mp (living priv (by
      simp [DmaAction.reads, chosen]))
    have read : s.memory deleted priv = b.alloc := by rw [memory, here, Option.elim_some]
    obtain ⟨source, there, backed, -⟩ := sound.buffer here
    obtain ⟨v, shown, mapped, ⟨same, rfl⟩ | ⟨m, a, rfl, alloc, made, free, areas, phys, space,
      typed⟩⟩ := haikuMap_cases documented chosen (read ▸ there) team clone type
    · rw [mapped] at taken
      obtain rfl := Option.some.inj taken
      exact sound.quiet rfl same
    rw [mapped] at taken
    obtain rfl := Option.some.inj taken
    -- the clone shows what the area of the buffer shows
    rw [read] at alloc
    have known := view_mem_of_buffer here
    have old {id : ℤ} {a' : VmArea} (there : vm.areas s.vm id = some a') :
        vm.areas v id = some a' := areas ▸ update_of_free free there
    refine ⟨?_, ?_, ?_, ?_⟩
    · rw [views_mapped]
      refine areas ▸ sound.shows.add (w := m.view) free ⟨space, ?_, typed⟩ ?_ ?_
      · rw [phys, ShownBuffer.view, alloc]
        exact backed.physBase
      · intro w known' a' there''
        have apart := (sound.shows.apart _ known w known' _ a' there there'').memory
        exact ⟨by rw [phys, ShownBuffer.view, alloc]; exact apart, nofun⟩
      · intro id a' there'' unknown
        rw [phys]
        exact sound.shows.foreign _ known _ there id a' there'' unknown
    · rw [createdAreas_same rfl sound.createdAreas_subset (by
        rw [areas, kernelAreas_clone free (by simp [space])])]
      exact sound.owned
    · intro other b' here'
      obtain ⟨a', there', made⟩ := sound.made other b' here'
      exact ⟨a', old there', made⟩
    · intro m' shown
      rcases List.mem_cons.mp shown with rfl | shown
      · exact ⟨a, by rw [areas, Function.update_self], made⟩
      · obtain ⟨a', there', made⟩ := sound.shown m' shown
        exact ⟨a', old there', made⟩
  all_goals cases taken

theorem deleteArea (documented : vm.Documented) (sound : s.Sound vm past) {area : ℤ}
    (taken : s.step vm (.deleteArea area) = some t) :
    Sound vm (⟨s, .deleteArea area, t⟩ :: past) t := by
  obtain ⟨given, rfl⟩ := of_guarded taken
  obtain ⟨m, shown, rfl⟩ := List.mem_map.mp given
  have team := sound.mapping_not_kernel shown
  obtain ⟨clone, there, -⟩ := sound.shown m shown
  have areas := documented.deleteArea s.vm m.area clone there
  have buffers {priv : BaseDevice.Address} {b : Buffer} (here : s.buffers priv = some b) :
      b.alloc.area ≠ m.area := by
    obtain ⟨a, there, backed, -⟩ := sound.buffer here
    exact fun same => team (same ▸ ⟨a, there, backed.space⟩)
  refine ⟨?_, ?_, ?_, ?_⟩
  · rw [areas]
    refine sound.shows.delete ?_ ?_ ?_
    · rintro w (known | ⟨m', left, rfl⟩)
      · exact Or.inl known
      · exact view_mem_of_shown (List.mem_filter.mp left).1
    · rintro w (known | ⟨m', shown', rfl⟩) different
      · exact Or.inl known
      · refine Or.inr ⟨m', List.mem_filter.mpr ⟨shown', ?_⟩, rfl⟩
        simpa [ShownBuffer.view] using different
    · rintro w (⟨priv, b, here, rfl⟩ | ⟨m', left, rfl⟩)
      · exact buffers here
      · simpa [ShownBuffer.view] using (List.mem_filter.mp left).2
  · rw [createdAreas_same rfl sound.createdAreas_subset (by
      rw [areas, kernelAreas_delete, sdiff_eq_left.mpr (Set.disjoint_singleton_right.mpr team)])]
    exact sound.owned
  · intro priv b here
    obtain ⟨a, there, made⟩ := sound.made priv b here
    exact ⟨a, by rw [areas, Function.update_of_ne (buffers here), there], made⟩
  · intro m' left
    obtain ⟨shown', different⟩ := List.mem_filter.mp left
    obtain ⟨a, there, made⟩ := sound.shown m' shown'
    exact ⟨a, by rw [areas, Function.update_of_ne (by simpa using different), there], made⟩

theorem elsewhere (sound : s.Sound vm past) {v : V} (spares : s.Spares vm v) :
    Sound vm (⟨s, .elsewhere v, { s with vm := v }⟩ :: past) { s with vm := v } where
  shows := sound.shows.elsewhere spares.same spares.foreign
  owned := sound.owned
  made priv b here := by
    obtain ⟨a, there, made⟩ := sound.made priv b here
    exact ⟨a, (spares.same _ (view_mem_of_buffer here)).trans there, made⟩
  shown m shown := by
    obtain ⟨a, there, made⟩ := sound.shown m shown
    exact ⟨a, (spares.same _ (view_mem_of_shown shown)).trans there, made⟩

theorem step (documented : vm.Documented) (sound : s.Sound vm past)
    (taken : (dmaBuffers vm).step s a t) (living : Living ⟨s, a, t⟩) :
    Sound vm (⟨s, a, t⟩ :: past) t := by
  rcases taken with taken | ⟨v, rfl, spares, rfl⟩
  · cases a with
    | allocPages call create type => exact sound.allocPages documented taken
    | freePages priv => exact sound.freePages documented taken
    | haikuMap h request team deleted clone type => exact sound.haikuMap documented taken living
    | deleteArea area => exact sound.deleteArea documented taken
    | elsewhere v => cases taken
  · exact sound.elsewhere spares

theorem initial (buffers : s.buffers = fun _ => none) (shown : s.shown = []) :
    Sound vm [] s where
  shows := by
    have none : s.views = ∅ := by simp [DmaState.views, buffers, shown]
    exact none ▸ Shows.empty
  owned := by
    have none : s.areas = fun _ => none := by
      funext priv
      simp [DmaState.areas, buffers]
    exact none ▸ HeldOnce.empty
  made priv b here := by simp [buffers] at here
  shown m member := by simp [shown] at member

end Sound

end DmaState

theorem sound_of_run (documented : vm.Documented) (run : (dmaBuffers vm).Run past s)
    (living : Every Living past) : s.Sound vm past := by
  induction run with
  | start initial => exact .initial initial.1 initial.2
  | step _ taken ih =>
    rw [every_cons] at living
    exact (ih living.2).step documented taken living.1

/-! ## The views -/

namespace DmaState.Sound

variable {priv : BaseDevice.Address} {b : Buffer}

theorem device (sound : s.Sound vm past) (here : s.buffers priv = some b) {page : ℕ}
    (small : page < if b.contiguous then 1 else b.page_count.toNat) :
    b.pte_array[page]? = some (byteAddress b.alloc.physBase (BitVec.ofNat 64 page) 0) := by
  obtain ⟨a, there, backed, made⟩ := sound.buffer here
  have base : b.alloc.physBase = a.phys.base := backed.physBase.symm
  rw [made.pte_array, List.getElem?_map, List.getElem?_range small, Option.map_some,
    byteAddress, base, nth_page]
  simp

end DmaState.Sound

end NvidiaHaiku.Os

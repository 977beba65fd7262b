/-
# A client sees the memory that it has asked for

Between its `open` and its `close` a thread is the only one with its descriptor, so what
the RM has recorded behind the descriptor is what it has found for this thread's request,
and `NV_HAIKU_MAP` shows nothing else. Each descriptor is closed by the call that has
opened it, and each area and each mapping of the RM belongs to one variable or one call.
The mappings of the RM that nobody takes back are those of the calls whose `NV_HAIKU_MAP`
has failed, and the areas that nobody deletes are those of the results that were assigned.
-/

import Mathlib.Data.Sum.Basic
import Mathlib.Order.BooleanAlgebra.Set
import NvidiaHaiku.Sdk.MapMemory

namespace NvidiaHaiku.Sdk

open NvidiaHaiku.Math NvidiaHaiku.BaseDevice TransitionSystem

variable {τ ν : Type*} {d : RmDevice}

/-- The mapping that a call is about to return. -/
def Mapper.result (mapper : Mapper) : Option NvRmMemoryMapping :=
  match mapper.stage with
  | .closes _ result => result
  | .opens | .asks _ | .maps .. => none

/-- The mapping of the RM that is a call's to take back. -/
def Mapper.unmap (d : RmDevice) (mapper : Mapper) : Option Unmap :=
  match mapper.stage with
  | .maps _ pLinearAddress => some (d.unmap mapper.request pLinearAddress)
  | .closes _ result => result.map (·.unmap)
  | .opens | .asks _ => none

/-- The area of a mapping, if it has one. -/
def NvRmMemoryMapping.area (m : NvRmMemoryMapping) : Option AreaId :=
  if m.fArea = -1 then none else some m.fArea

/-- What goes when the area is deleted, or lost. -/
def NvRmMemoryMapping.areaSet (m : NvRmMemoryMapping) : Set AreaId := {area | m.area = some area}

theorem used_delete_area {areas : AreaId → Option Mapping} (unnamed : areas (-1) = none)
    (m : NvRmMemoryMapping) :
    used (Function.update areas m.fArea none) = used areas \ m.areaSet := by
  rw [used_update_none]
  ext area
  simp only [NvRmMemoryMapping.areaSet, NvRmMemoryMapping.area, Set.mem_sdiff, mem_used,
    Set.mem_singleton_iff, Set.mem_ofPred_eq]
  by_cases none : m.fArea = -1
  · rw [if_pos none, none]
    refine and_congr_right fun there => ⟨fun _ => (Option.some_ne_none area).symm, ?_⟩
    rintro - rfl
    exact there unnamed
  · rw [if_neg none, Option.some.injEq, eq_comm]

namespace Team

variable (s : Team τ ν)

/-- Whose descriptor it is. -/
def fds : τ → Option Fd := fun t => (s.mappers t).bind (·.stage.fd)

/-- The mappings in the calls and the variables. -/
def held : τ ⊕ ν → Option NvRmMemoryMapping :=
  Sum.elim (fun t => (s.mappers t).bind (·.result)) s.vars

/-- Whose area it is. -/
def areaIds : τ ⊕ ν → Option AreaId := fun place => (s.held place).bind (·.area)

/-- Whose mapping of the RM it is. -/
def unmaps (d : RmDevice) : τ ⊕ ν → Option Unmap :=
  Sum.elim (fun t => (s.mappers t).bind (·.unmap d)) (fun v => (s.vars v).map (·.unmap))

/-- The handle serves the call. -/
structure Serves (d : RmDevice) (s : Team τ ν) (mapper : Mapper) (h : NvHaikuBaseDeviceHandle) :
    Prop where
  nv : h.nv = d.opened mapper.request
  fClosed : h.fClosed = false
  /-- The handle is fresh until the RM is asked, and then holds what the RM has found. -/
  context : match mapper.stage with
    | .asks _ => h.fMmapContext.valid = false
    | .maps _ pLinearAddress => ∃ found,
      s.rmMappings (d.unmap mapper.request pLinearAddress) = some found ∧ found.Fits ∧
        h.fMmapContext = found.context ∧ (found.nv.isCtlDevice = true ∨ h.nv = found.nv)
    | .opens | .closes .. => True

/-- The area of a mapping, or one that was lost if it has none, shows the memory that the RM has
found for it: pages of an allocation, or ranges of the first GPU. -/
structure Shows (d : RmDevice) (stray : Set AreaId) (s : Team τ ν) (m : NvRmMemoryMapping) :
    Prop where
  isSet : m.isSet = true
  shows : ∃ found, s.rmMappings m.unmap = some found ∧
    (∃ area, (m.area = some area ∨ m.area = none ∧ area ∈ stray) ∧
      (s.areas area).isSome ∧ s.areas area = mappingOf found) ∧
    (found.nv.isCtlDevice = true ∨ found.nv = .gpu (d.nvidia 0))

end Team

/-- The mapping of the RM that a failing `NV_HAIKU_MAP` leaves behind. -/
def losses (d : RmDevice) (e : Event (Team τ ν) (TeamAction τ ν)) : Set Unmap :=
  {unmap | ∃ t answer request memFd pLinearAddress, e.action = .haikuMap t answer ∧
    e.source.mappers t = some ⟨request, .maps memFd pLinearAddress⟩ ∧
    e.target.mappers t = some ⟨request, .closes memFd none⟩ ∧
    unmap = d.unmap request pLinearAddress}

/-- The mappings of the RM that are left behind. -/
def leftBehind (d : RmDevice) (past : List (Event (Team τ ν) (TeamAction τ ν))) : Set Unmap :=
  {unmap | ∃ e ∈ past, unmap ∈ losses d e}

/-- The area of a result that is assigned. -/
def strays (e : Event (Team τ ν) (TeamAction τ ν)) : Set AreaId :=
  {area | ∃ t v request memFd m, e.action = .assigned t v ∧
    e.source.mappers t = some ⟨request, .closes memFd (some m)⟩ ∧ area ∈ m.areaSet}

/-- The areas that assignments have lost. -/
def strayAreas (past : List (Event (Team τ ν) (TeamAction τ ν))) : Set AreaId :=
  {area | ∃ e ∈ past, area ∈ strays e}

/-- The descriptor that `NV_HAIKU_MAP` is called with. -/
def MapStage.mapsFd : MapStage → Option Fd
  | maps memFd _ => some memFd
  | opens | asks _ | closes .. => none

/-- The address that `NV_HAIKU_MAP` stores is not null. -/
def AddressSet (s : Team τ ν) (t : τ) (answer : HaikuAnswer) : Prop :=
  ∀ mapper ∈ s.mappers t, ∀ memFd ∈ mapper.stage.mapsFd, ∀ h ∈ s.files memFd,
    ∀ params ∈ (h.map answer.memory answer.call).2.2, params.address ≠ 0

instance (s : Team τ ν) (t : τ) (answer : HaikuAnswer) : Decidable (AddressSet s t answer) :=
  inferInstanceAs (Decidable (∀ mapper ∈ s.mappers t, ∀ memFd ∈ mapper.stage.mapsFd,
    ∀ h ∈ s.files memFd, ∀ params ∈ (h.map answer.memory answer.call).2.2, params.address ≠ 0))

/-- The RM gives fewer than 2^28 ranges or an allocation, and Haiku maps nothing at address 0. -/
def Answered (e : Event (Team τ ν) (TeamAction τ ν)) : Prop :=
  match e.action with
  | .rmMapMemory _ (some found) _ _ => found.Fits
  | .haikuMap t answer => AddressSet e.source t answer
  | _ => True

instance : DecidablePred (Answered (τ := τ) (ν := ν))
  | ⟨_, .rmMapMemory _ (some found) _ _, _⟩ => inferInstanceAs (Decidable found.Fits)
  | ⟨s, .haikuMap t answer, _⟩ => inferInstanceAs (Decidable (AddressSet s t answer))
  | ⟨_, .mapMemory .., _⟩ | ⟨_, .opened .., _⟩ | ⟨_, .rmMapMemory _ none _ _, _⟩
  | ⟨_, .closed .., _⟩ | ⟨_, .assigned .., _⟩ | ⟨_, .destroy _, _⟩ =>
    inferInstanceAs (Decidable True)

/-- What is in use, and by whom. -/
structure Kept (d : RmDevice) (lost : Set Unmap) (stray : Set AreaId) (s : Team τ ν) : Prop where
  /-- The open descriptors are those of the calls. -/
  fds : HeldOnce s.fds (used s.files)
  /-- The areas are those of the mappings, and the lost ones. -/
  areas : HeldOnce s.areaIds (used s.areas \ stray)
  strayUsed : stray ⊆ used s.areas
  /-- No area has the id that stands for none. -/
  unnamed : s.areas (-1) = none
  /-- The mappings of the RM are those of the mappings and of the calls, and the lost ones. -/
  unmaps : HeldOnce (s.unmaps d) (used s.rmMappings \ lost)
  lost : lost ⊆ used s.rmMappings
  serves : ∀ t mapper memFd, s.mappers t = some mapper → mapper.stage.fd = some memFd →
    ∃ h, s.files memFd = some h ∧ s.Serves d mapper h
  /-- A mapping shows the memory that it has been asked for. -/
  shows : ∀ place m, s.held place = some m → s.Shows d stray m

/-! ## One step -/

variable {s s' : Team τ ν} {t : τ} {v : ν} {mapper mapper' : Mapper} {lost lost' : Set Unmap}
  {stray stray' : Set AreaId}

/-- A call looks at its own mapping of the RM only. -/
theorem Team.Serves.keep {h : NvHaikuBaseDeviceHandle} (serves : s.Serves d mapper h)
    (rm : ∀ u, mapper.unmap d = some u → s.rmMappings u ≠ none →
      s'.rmMappings u = s.rmMappings u) : s'.Serves d mapper h where
  nv := serves.nv
  fClosed := serves.fClosed
  context := by
    obtain ⟨request, stage⟩ := mapper
    have context := serves.context
    cases stage with
    | maps memFd pLinearAddress =>
      obtain ⟨found, mapped, rest⟩ := context
      exact ⟨found, (rm _ rfl (by simp [mapped])).trans mapped, rest⟩
    | opens | asks | closes => exact context

theorem Team.Shows.keep {m : NvRmMemoryMapping} (shows_ : s.Shows d stray m)
    (rm : s.rmMappings m.unmap ≠ none → s'.rmMappings m.unmap = s.rmMappings m.unmap)
    (areas : ∀ area, m.area = some area ∨ area ∈ stray → s.areas area ≠ none →
      s'.areas area = s.areas area) : s'.Shows d stray m where
  isSet := shows_.isSet
  shows := by
    obtain ⟨found, mapped, ⟨area, whose, some, same⟩, device⟩ := shows_.shows
    have here := areas area (whose.imp_right And.right) (Option.ne_none_iff_isSome.mpr some)
    exact ⟨found, (rm (by simp [mapped])).trans mapped, ⟨area, whose, by rwa [here],
      by rwa [here]⟩, device⟩

variable [DecidableEq τ] [DecidableEq ν]

section Owners

variable {n : Option Mapper} (mappers : s'.mappers = Function.update s.mappers t n)
  (vars : s'.vars = s.vars)

include mappers

omit [DecidableEq ν] in
theorem fds_eq : s'.fds = Function.update s.fds t (n.bind (·.stage.fd)) := by
  unfold Team.fds
  rw [mappers]
  exact Function.comp_update (fun m : Option Mapper => m.bind (·.stage.fd)) ..

include vars

theorem held_eq : s'.held = Function.update s.held (.inl t) (n.bind (·.result)) := by
  unfold Team.held
  rw [mappers, vars, Sum.update_elim_inl]
  exact congrArg (Sum.elim · _)
    (Function.comp_update (fun m : Option Mapper => m.bind (·.result)) ..)

theorem areaIds_eq :
    s'.areaIds = Function.update s.areaIds (.inl t) ((n.bind (·.result)).bind (·.area)) := by
  unfold Team.areaIds
  rw [held_eq mappers vars]
  exact Function.comp_update (fun m : Option NvRmMemoryMapping => m.bind (·.area)) s.held ..

theorem unmaps_eq : s'.unmaps d = Function.update (s.unmaps d) (.inl t) (n.bind (·.unmap d)) := by
  unfold Team.unmaps
  rw [mappers, vars, Sum.update_elim_inl]
  exact congrArg (Sum.elim · _)
    (Function.comp_update (fun m : Option Mapper => m.bind (·.unmap d)) ..)

end Owners

section Variables

variable {r : Option NvRmMemoryMapping}

theorem held_setVar : (s.setVar v r).held = Function.update s.held (.inr v) r := by
  unfold Team.held
  rw [Sum.update_elim_inr]
  rfl

theorem areaIds_setVar :
    (s.setVar v r).areaIds = Function.update s.areaIds (.inr v) (r.bind (·.area)) := by
  unfold Team.areaIds
  rw [held_setVar]
  exact Function.comp_update (fun m : Option NvRmMemoryMapping => m.bind (·.area)) s.held ..

theorem unmaps_setVar :
    (s.setVar v r).unmaps d = Function.update (s.unmaps d) (.inr v) (r.map (·.unmap)) := by
  unfold Team.unmaps
  rw [Sum.update_elim_inr]
  exact congrArg (Sum.elim _)
    (Function.comp_update (Option.map NvRmMemoryMapping.unmap) s.vars v r)

end Variables

omit [DecidableEq τ] [DecidableEq ν] in
theorem unmaps_of_held {place : τ ⊕ ν} {m : NvRmMemoryMapping} (held : s.held place = some m) :
    s.unmaps d place = some m.unmap := by
  cases place with
  | inl t =>
    obtain ⟨⟨request, stage⟩, here, result⟩ := Option.bind_eq_some_iff.mp held
    cases stage with
    | closes memFd returned =>
      obtain rfl : returned = some m := result
      simp [Team.unmaps, here, Mapper.unmap]
    | opens | asks | maps => cases result
  | inr v =>
    have here : s.vars v = some m := held
    simp [Team.unmaps, here]

/-- A call goes on to another stage. -/
theorem Kept.advance (kept : Kept d lost stray s)
    (mappers : s'.mappers = Function.update s.mappers t (some mapper'))
    (vars : s'.vars = s.vars)
    (fds : HeldOnce (Function.update s.fds t mapper'.stage.fd) (used s'.files))
    (areas : HeldOnce (Function.update s.areaIds (.inl t) (mapper'.result.bind (·.area)))
      (used s'.areas \ stray))
    (unnamed : s'.areas (-1) = none)
    (unmaps : HeldOnce (Function.update (s.unmaps d) (.inl t) (mapper'.unmap d))
      (used s'.rmMappings \ lost'))
    (lost : lost' ⊆ used s'.rmMappings)
    (files : ∀ fd, mapper'.stage.fd ≠ some fd → s'.files fd = s.files fd)
    (serves : ∀ memFd, mapper'.stage.fd = some memFd →
      ∃ h, s'.files memFd = some h ∧ s'.Serves d mapper' h)
    (rm : ∀ u, s.rmMappings u ≠ none → s'.rmMappings u = s.rmMappings u)
    (grow : ∀ a, s.areas a ≠ none → s'.areas a = s.areas a)
    (shows_ : ∀ m, mapper'.result = some m → s'.Shows d stray m) : Kept d lost' stray s' where
  fds := by rwa [fds_eq mappers]
  areas := by rwa [areaIds_eq mappers vars]
  strayUsed area gone := by
    rw [mem_used, grow area (kept.strayUsed gone)]
    exact kept.strayUsed gone
  unnamed := unnamed
  unmaps := by rwa [unmaps_eq mappers vars]
  lost := lost
  serves u mapper memFd here holds := by
    rw [mappers] at here
    by_cases same : u = t
    · subst same
      rw [Function.update_self] at here
      obtain rfl := Option.some.inj here
      exact serves memFd holds
    · rw [Function.update_of_ne same] at here
      obtain ⟨h, file, served⟩ := kept.serves u mapper memFd here holds
      -- nobody else has the descriptor
      have other : mapper'.stage.fd ≠ some memFd := fun also => same <| by
        refine fds.single u t memFd ?_ (by simpa using also)
        rw [Function.update_of_ne same, Team.fds, here]
        exact holds
      exact ⟨h, (files memFd other).trans file, served.keep fun u _ => rm u⟩
  shows place m here := by
    rw [held_eq mappers vars] at here
    by_cases same : place = .inl t
    · subst same
      exact shows_ m (by simpa using here)
    · rw [Function.update_of_ne same] at here
      exact (kept.shows place m here).keep (rm _) fun area _ => grow area

/-- What a handle maps is what the RM has found, if it is of the kind of the device. -/
theorem choose_iff_mappingOf {h : NvHaikuBaseDeviceHandle} {found : AddCall} {m : Mapping}
    (fits : found.Fits) (recorded : h.fMmapContext = found.context)
    (device : found.nv.isCtlDevice = true ∨ h.nv = found.nv) :
    h.choose = .ok m ↔
      mappingOf found = some m ∧ found.nv.isCtlDevice = h.nv.isCtlDevice := by
  cases control : found.nv.isCtlDevice with
  | true =>
    cases kind : h.nv.isCtlDevice with
    | true =>
      rw [NvHaikuBaseDeviceHandle.choose_of_control kind recorded]
      simp [mappingOf, AddCall.context, control]
    | false =>
      rw [NvHaikuBaseDeviceHandle.choose_of_mismatch kind recorded control]
      simp
  | false =>
    have same := device.resolve_left (by simp [control])
    have kind : h.nv.isCtlDevice = false := by rw [same, control]
    rw [NvHaikuBaseDeviceHandle.choose_of_gpu fits kind recorded control, kind]
    simp only [mappingOf, control]
    rcases found.nvuap.ranges with _ | ⟨first, _ | ⟨second, rest⟩⟩ <;> simp

omit [DecidableEq τ] [DecidableEq ν] in
theorem setFile_eq_self {memFd : Fd} {h : NvHaikuBaseDeviceHandle}
    (file : s.files memFd = some h) : s.setFile memFd (some h) = s := by
  rw [Team.setFile, ← file, Function.update_eq_self]

theorem addMappingContextToFile_nv (h : NvHaikuBaseDeviceHandle) (found : AddCall) :
    (h.addMappingContextToFile found).1.nv = h.nv ∧
      (h.addMappingContextToFile found).1.fClosed = h.fClosed := by
  rcases NvHaikuBaseDeviceHandle.addMappingContextToFile_cases h found with
    ⟨-, same, -⟩ | ⟨-, -, cleared⟩ | ⟨-, -, -, -, nvamc, -, recorded, -⟩
  · rw [same]
    exact ⟨rfl, rfl⟩
  · rw [cleared]
    exact ⟨rfl, rfl⟩
  · rw [recorded]
    exact ⟨rfl, rfl⟩

namespace Kept

variable {request : MapRequest} {memFd : Fd} {pLinearAddress : Address}
  {h : NvHaikuBaseDeviceHandle}

theorem mapMemory (kept : Kept d lost stray s) (idle : s.mappers t = none) :
    Kept d lost stray (s.setMapper t (some ⟨request, .opens⟩)) := by
  refine kept.advance rfl rfl (kept.fds.vacate ?_) (kept.areas.vacate ?_) kept.unnamed
    (kept.unmaps.vacate ?_) kept.lost (fun _ _ => rfl) nofun (fun _ _ => rfl) (fun _ _ => rfl) nofun
  · simp [Team.fds, idle]
  · simp [Team.areaIds, Team.held, idle]
  · simp [Team.unmaps, idle]

theorem opened (kept : Kept d lost stray s) (here : s.mappers t = some ⟨request, .opens⟩)
    (free : s.files memFd = none) :
    Kept d lost stray ((s.setFile memFd (some { nv := d.opened request })).setMapper t
      (some ⟨request, .asks memFd⟩)) := by
  refine kept.advance rfl rfl ?_ (kept.areas.vacate ?_) kept.unnamed (kept.unmaps.vacate ?_)
    kept.lost ?_ ?_ (fun _ _ => rfl) (fun _ _ => rfl) nofun
  · have taken := kept.fds.take (v := t) (r := memFd) (by simp [Team.fds, here, MapStage.fd])
      (by simp [free])
    simpa [Team.setFile, Team.setMapper, MapStage.fd] using taken
  · simp [Team.areaIds, Team.held, here, Mapper.result]
  · simp [Team.unmaps, here, Mapper.unmap]
  · intro fd other
    exact Function.update_of_ne (fun same => other (by rw [same]; rfl)) ..
  · intro fd same
    obtain rfl := Option.some.inj same
    exact ⟨_, Function.update_self .., rfl, rfl, rfl⟩

omit [DecidableEq ν] in
/-- A descriptor in use stays with its call while what is behind it changes. -/
theorem fds_setFile (kept : Kept d lost stray s) (here : s.mappers t = some mapper)
    (holds : mapper.stage.fd = some memFd) :
    HeldOnce (Function.update s.fds t (some memFd))
      (used (Function.update s.files memFd (some h))) := by
  have owns : s.fds t = some memFd := by simp [Team.fds, here, holds]
  rw [← owns, Function.update_eq_self, used_update_some,
    Set.insert_eq_of_mem (kept.fds.used_of_owner owns)]
  exact kept.fds

/-- A call goes to its end without a mapping. -/
theorem thrown (kept : Kept d lost stray s) (here : s.mappers t = some mapper)
    (holds : mapper.stage.fd = some memFd) (none : mapper.result = none)
    (served : h.nv = d.opened mapper.request ∧ h.fClosed = false)
    (unmaps : HeldOnce (Function.update (s.unmaps d) (.inl t) Option.none)
      (used s.rmMappings \ lost'))
    (lost : lost' ⊆ used s.rmMappings) :
    Kept d lost' stray ((s.setFile memFd (some h)).setMapper t
      (some ⟨mapper.request, .closes memFd Option.none⟩)) := by
  refine kept.advance rfl rfl (kept.fds_setFile here holds) (kept.areas.vacate ?_) kept.unnamed
    unmaps lost ?_ ?_ (fun _ _ => rfl) (fun _ _ => rfl) nofun
  · simp [Team.areaIds, Team.held, here, none]
  · intro fd other
    exact Function.update_of_ne (fun same => other (by rw [same]; rfl)) ..
  · intro fd same
    obtain rfl := Option.some.inj same
    exact ⟨h, Function.update_self .., served.1, served.2, trivial⟩

theorem rmMapMemory {found : AddCall} (kept : Kept d lost stray s)
    (here : s.mappers t = some ⟨request, .asks memFd⟩) (file : s.files memFd = some h)
    (fits : found.Fits)
    (taken : s.rmMapMemory d t request memFd h found pLinearAddress = some s') :
    Kept d lost stray s' := by
  obtain ⟨_, file', served⟩ := kept.serves t _ memFd here rfl
  obtain rfl := Option.some.inj (file.symm.trans file')
  have empty : s.unmaps d (.inl t) = none := by simp [Team.unmaps, here, Mapper.unmap]
  have nv := addMappingContextToFile_nv h found
  unfold Team.rmMapMemory at taken
  simp only at taken
  split at taken
  · rename_i ok
    obtain ⟨fresh, rfl⟩ := of_guarded taken
    obtain ⟨-, device, recorded⟩ :=
      NvHaikuBaseDeviceHandle.addMappingContextToFile_of_fits fits ok
    have fresh : s.rmMappings (d.unmap request pLinearAddress) = none := fresh
    have unlost : d.unmap request pLinearAddress ∉ lost := fun gone => kept.lost gone fresh
    refine kept.advance rfl rfl (kept.fds_setFile here rfl) (kept.areas.vacate ?_) kept.unnamed
      ?_ ?_ ?_ ?_ ?_ (fun _ _ => rfl) nofun
    · simp [Team.areaIds, Team.held, here, Mapper.result]
    · have taken := kept.unmaps.take (v := .inl t) (r := d.unmap request pLinearAddress) empty
        (by simp [fresh])
      rw [← Set.insert_sdiff_of_notMem _ unlost, ← used_update_some] at taken
      exact taken
    · intro u gone
      have still := Set.mem_insert_of_mem (d.unmap request pLinearAddress) (kept.lost gone)
      rwa [← used_update_some (b := found)] at still
    · intro fd other
      exact Function.update_of_ne (fun same => other (by rw [same]; rfl)) ..
    · intro fd same
      obtain rfl := Option.some.inj same
      refine ⟨_, Function.update_self .., nv.1.trans served.nv, nv.2.trans served.fClosed, found,
        Function.update_self .., fits, ?_, ?_⟩
      · rw [recorded]
      · rw [recorded]
        exact device
    · intro u mapped
      exact Function.update_of_ne (fun same => mapped (by rw [same, fresh])) ..
  · obtain rfl := Option.some.inj taken
    exact kept.thrown here rfl rfl ⟨nv.1.trans served.nv, nv.2.trans served.fClosed⟩
      (kept.unmaps.vacate empty) kept.lost

/-- A call goes to its end with a mapping, which takes over that of the RM. -/
theorem returned {m : NvRmMemoryMapping} {mapping : Mapping} (kept : Kept d lost stray s)
    (here : s.mappers t = some ⟨request, .maps memFd pLinearAddress⟩)
    (unmap : m.unmap = d.unmap request pLinearAddress) (own : m.area = some m.fArea)
    (fresh : s.areas m.fArea = none)
    (shown : ((s.setArea m.fArea (some mapping)).setMapper t
      (some ⟨request, .closes memFd (some m)⟩)).Shows d stray m) :
    Kept d lost stray ((s.setArea m.fArea (some mapping)).setMapper t
      (some ⟨request, .closes memFd (some m)⟩)) := by
  obtain ⟨h, file, served⟩ := kept.serves t _ memFd here rfl
  have empty : s.areaIds (.inl t) = none := by simp [Team.areaIds, Team.held, here, Mapper.result]
  have unlost : m.fArea ∉ stray := fun gone => kept.strayUsed gone fresh
  have named : -1 ≠ m.fArea := fun same => by simp [NvRmMemoryMapping.area, ← same] at own
  refine kept.advance rfl rfl ?_ ?_ ?_ ?_ kept.lost (fun _ _ => rfl) ?_ (fun _ _ => rfl) ?_ ?_
  · rw [show MapStage.fd _ = s.fds t by simp [Team.fds, here, MapStage.fd],
      Function.update_eq_self]
    exact kept.fds
  · have taken := kept.areas.take (v := .inl t) empty (r := m.fArea) (fun used => used.1 fresh)
    rw [← Set.insert_sdiff_of_notMem _ unlost, ← used_update_some (b := mapping), ← own] at taken
    exact taken
  · exact (Function.update_of_ne named ..).trans kept.unnamed
  · have still : Function.update (s.unmaps d) (.inl t) (some m.unmap) = s.unmaps d := by
      have owns : s.unmaps d (.inl t) = some m.unmap := by
        simp [Team.unmaps, here, Mapper.unmap, unmap]
      rw [← owns, Function.update_eq_self]
    exact still.symm ▸ kept.unmaps
  · intro fd same
    obtain rfl := Option.some.inj same
    exact ⟨h, file, served.nv, served.fClosed, trivial⟩
  · intro a used
    exact Function.update_of_ne (fun same => used (by rw [same, fresh])) ..
  · intro m' same
    obtain rfl := Option.some.inj same
    exact shown

theorem haikuMap {answer : HaikuAnswer} (kept : Kept d lost stray s)
    (here : s.mappers t = some ⟨request, .maps memFd pLinearAddress⟩)
    (file : s.files memFd = some h)
    (nonnull : ∀ params, (h.map answer.memory answer.call).2.2 = some params → params.address ≠ 0)
    (taken : s.haikuMap d t request memFd pLinearAddress h answer = some s') :
    s' = s ∧ Kept d lost stray s' ∨
      s'.mappers t = some ⟨request, .closes memFd none⟩ ∧
        Kept d (insert (d.unmap request pLinearAddress) lost) stray s' ∨
      (∃ m, s'.mappers t = some ⟨request, .closes memFd (some m)⟩) ∧ Kept d lost stray s' := by
  obtain ⟨_, file', nv, opened, found, mapped, fits, recorded, device⟩ :=
    kept.serves t _ memFd here rfl
  obtain rfl := Option.some.inj (file.symm.trans file')
  have owns : s.unmaps d (.inl t) = some (d.unmap request pLinearAddress) := by
    simp [Team.unmaps, here, Mapper.unmap]
  unfold Team.haikuMap at taken
  split at taken
  · rename_i mapping area params chosen answered
    right; right
    obtain ⟨fresh, rfl⟩ := of_guarded taken
    obtain ⟨-, -, chosen⟩ := NvHaikuBaseDeviceHandle.mapping_eq_ok_iff.mp chosen
    have same := ((choose_iff_mappingOf fits recorded device).mp chosen).1
    obtain ⟨rfl, given⟩ := NvHaikuBaseDeviceHandle.map_eq_some answered
    -- the id of an area is not negative
    have named : (Team.result d request pLinearAddress answer.area.toInt params).fArea ≠ -1 := by
      intro same
      have none : answer.area = -1 := by rwa [Team.result, BitVec.ofInt_toInt] at same
      rw [show answer.call.area = answer.area.toInt from rfl, none] at given
      exact absurd given (by decide)
    have own : (Team.result d request pLinearAddress answer.area.toInt params).area =
        some (Team.result d request pLinearAddress answer.area.toInt params).fArea := if_neg named
    have shown := Function.update_self
      (Team.result d request pLinearAddress answer.area.toInt params).fArea (some mapping) s.areas
    refine ⟨⟨_, Function.update_self ..⟩, kept.returned here rfl own fresh ⟨?_, found, mapped,
      ⟨_, Or.inl own, Option.isSome_iff_exists.mpr ⟨_, shown⟩, shown.trans same.symm⟩, ?_⟩⟩
    · have address := nonnull params (by rw [answered])
      exact decide_eq_true fun null => address (BitVec.eq_of_toNat_eq null)
    · rcases device with control | gpu
      · exact Or.inl control
      · rw [← gpu, nv, RmDevice.opened]
        split
        · exact Or.inl rfl
        · exact Or.inr rfl
  · split at taken
    · obtain rfl := Option.some.inj taken
      exact Or.inl ⟨rfl, kept⟩
    · obtain rfl := Option.some.inj taken
      right; left
      refine ⟨Function.update_self .., ?_⟩
      rw [← setFile_eq_self file]
      refine kept.thrown here rfl rfl ⟨nv, opened⟩ ?_ ?_
      · have back := kept.unmaps.giveBack owns
        rwa [Set.sdiff_sdiff, Set.union_singleton] at back
      · exact Set.insert_subset (by simp [mapped]) kept.lost

theorem closed {result : Option NvRmMemoryMapping} (kept : Kept d lost stray s)
    (here : s.mappers t = some ⟨request, .closes memFd result⟩) (vacant : s.vars v = none) :
    Kept d lost stray (((s.setFile memFd none).setMapper t none).setVar v result) := by
  have own : s.held (.inl t) = result := by simp [Team.held, here, Mapper.result]
  -- the call has no result any more, and the variable has it
  have held : (((s.setFile memFd none).setMapper t none).setVar v result).held =
      Function.update (Function.update s.held (.inr v) (s.held (.inl t))) (.inl t) none := by
    have last : ((s.setFile memFd none).setMapper t none).held =
        Function.update s.held (.inl t) none := held_eq (n := none) rfl rfl
    rw [held_setVar, last, own, Function.update_comm Sum.inl_ne_inr]
  have owns : s.fds t = some memFd := by simp [Team.fds, here, MapStage.fd]
  refine ⟨?_, ?_, kept.strayUsed, kept.unnamed, ?_, kept.lost, ?_, ?_⟩
  · have back := kept.fds.giveBack owns
    rw [← used_update_none] at back
    have fds : (((s.setFile memFd none).setMapper t none).setVar v result).fds =
        Function.update s.fds t none :=
      (fds_eq rfl : _ = Function.update s.fds t ((none : Option Mapper).bind (·.stage.fd)))
    exact fds ▸ back
  · have moved := kept.areas.move (v := .inl t) (w := .inr v)
      (by simp [Team.areaIds, Team.held, vacant])
    have areaIds : (((s.setFile memFd none).setMapper t none).setVar v result).areaIds =
        Function.update (Function.update s.areaIds (.inr v) (s.areaIds (.inl t))) (.inl t)
          none := by
      have last : ((s.setFile memFd none).setMapper t none).areaIds =
          Function.update s.areaIds (.inl t) none := areaIds_eq (n := none) rfl rfl
      rw [areaIds_setVar, last, Function.update_comm Sum.inl_ne_inr, Team.areaIds, own]
    exact areaIds ▸ moved
  · have moved := kept.unmaps.move (v := .inl t) (w := .inr v) (by simp [Team.unmaps, vacant])
    have unmaps : (((s.setFile memFd none).setMapper t none).setVar v result).unmaps d =
        Function.update (Function.update (s.unmaps d) (.inr v) (s.unmaps d (.inl t))) (.inl t)
          none := by
      have last : ((s.setFile memFd none).setMapper t none).unmaps d =
          Function.update (s.unmaps d) (.inl t) none := unmaps_eq (n := none) rfl rfl
      have unmap : s.unmaps d (.inl t) = result.map (·.unmap) := by
        simp [Team.unmaps, here, Mapper.unmap]
      rw [unmaps_setVar, last, Function.update_comm Sum.inl_ne_inr, unmap]
    exact unmaps ▸ moved
  · intro u mapper memFd' found holds
    by_cases same : u = t
    · subst same
      simp [Team.setVar, Team.setMapper] at found
    · have found : s.mappers u = some mapper := by
        simpa [Team.setVar, Team.setMapper, Team.setFile, same] using found
      obtain ⟨h, file, served⟩ := kept.serves u mapper memFd' found holds
      have other : memFd' ≠ memFd := fun also => same <|
        kept.fds.single u t memFd (by simp [Team.fds, found, holds, also]) owns
      exact ⟨h, (Function.update_of_ne other ..).trans file, served.keep fun _ _ _ => rfl⟩
  · intro place m found
    rw [held] at found
    by_cases ended : place = .inl t
    · simp [ended] at found
    · rw [Function.update_of_ne ended] at found
      by_cases here : place = .inr v
      · rw [here, Function.update_self] at found
        exact (kept.shows (.inl t) m found).keep (fun _ => rfl) fun _ _ _ => rfl
      · rw [Function.update_of_ne here] at found
        exact (kept.shows place m found).keep (fun _ => rfl) fun _ _ _ => rfl

/-- A variable gives its area up. -/
theorem areas_drop {m : NvRmMemoryMapping} (kept : Kept d lost stray s) (here : s.vars v = some m) :
    HeldOnce (Function.update s.areaIds (.inr v) none) ((used s.areas \ stray) \ m.areaSet) := by
  have owns : s.areaIds (.inr v) = m.area := by simp [Team.areaIds, Team.held, here]
  cases area : m.area with
  | none =>
    rw [show m.areaSet = ∅ by simp [NvRmMemoryMapping.areaSet, area], Set.sdiff_empty]
    exact kept.areas.vacate (owns.trans area)
  | some id =>
    have one : m.areaSet = {id} := by
      ext other
      simp [NvRmMemoryMapping.areaSet, area, eq_comm]
    rw [one]
    exact kept.areas.giveBack (owns.trans area)

/-- A result is assigned, and its area lost. -/
theorem assign {m : NvRmMemoryMapping} (kept : Kept d lost stray s) (here : s.vars v = some m) :
    Kept d lost (m.areaSet ∪ stray) (s.setVar v (some (NvRmMemoryMapping.assign {} m))) := by
  have held : (s.setVar v (some (NvRmMemoryMapping.assign {} m))).held =
      Function.update s.held (.inr v) (some (NvRmMemoryMapping.assign {} m)) := held_setVar
  have areaIds : (s.setVar v (some (NvRmMemoryMapping.assign {} m))).areaIds =
      Function.update s.areaIds (.inr v) none :=
    areaIds_setVar
  have unmaps : (s.setVar v (some (NvRmMemoryMapping.assign {} m))).unmaps d = s.unmaps d := by
    -- the variable still names the mapping of the RM
    have still : s.unmaps d (.inr v) =
        (some (NvRmMemoryMapping.assign {} m)).map (·.unmap) := by
      rw [Team.unmaps, Sum.elim_inr, here]
      rfl
    rw [unmaps_setVar, ← still, Function.update_eq_self]
  refine ⟨kept.fds, ?_, ?_, kept.unnamed, unmaps ▸ kept.unmaps, kept.lost, ?_, ?_⟩
  · have left := kept.areas_drop here
    rwa [Set.sdiff_sdiff, Set.union_comm, ← areaIds] at left
  · rintro area (own | gone)
    · refine (kept.areas.used_of_owner (v := .inr v) ?_).1
      rw [Team.areaIds, Team.held, Sum.elim_inr, here, Option.bind_some]
      exact own
    · exact kept.strayUsed gone
  · intro u mapper memFd found holds
    obtain ⟨h, file, served⟩ := kept.serves u mapper memFd found holds
    exact ⟨h, file, served.keep fun _ _ _ => rfl⟩
  · intro place m' found
    rw [held] at found
    by_cases same : place = .inr v
    · rw [same, Function.update_self] at found
      obtain rfl := Option.some.inj found
      obtain ⟨set, found, mapped, ⟨area, whose, shown⟩, device⟩ := kept.shows (.inr v) m here
      refine ⟨set, found, mapped, ⟨area, Or.inr ⟨rfl, ?_⟩, shown⟩, device⟩
      exact whose.imp id And.right
    · rw [Function.update_of_ne same] at found
      obtain ⟨set, found, mapped, ⟨area, whose, shown⟩, device⟩ := kept.shows place m' found
      exact ⟨set, found, mapped, ⟨area, whose.imp_right (And.imp_right Or.inr), shown⟩, device⟩

theorem destroy {m : NvRmMemoryMapping} (kept : Kept d lost stray s) (here : s.vars v = some m) :
    Kept d lost stray (((s.setVar v none).setArea m.delete.1 none).setRmMapping m.delete.2 none) := by
  have held : (((s.setVar v none).setArea m.delete.1 none).setRmMapping m.delete.2 none).held =
      Function.update s.held (.inr v) none := held_setVar (s := s) (v := v)
  have unmap : s.unmaps d (.inr v) = some m.unmap := by simp [Team.unmaps, here]
  -- the area that is deleted is in no other place, and not lost
  have left := kept.areas_drop here
  have others {area : AreaId} (there : s.areas area ≠ none)
      (other : area ∉ m.areaSet) : Function.update s.areas m.fArea none area = s.areas area := by
    have still : area ∈ used s.areas \ m.areaSet := ⟨there, other⟩
    rw [← used_delete_area kept.unnamed, used_update_none] at still
    exact Function.update_of_ne still.2 ..
  have apart {place : τ ⊕ ν} {area : AreaId} (different : place ≠ .inr v)
      (owns : s.areaIds place = some area) : area ∉ m.areaSet :=
    (left.used_of_owner (v := place) (by rwa [Function.update_of_ne different])).2
  have unlost {area : AreaId} (gone : area ∈ stray) : area ∉ m.areaSet := fun own =>
    (kept.areas.used_of_owner (v := .inr v) (by
      rw [Team.areaIds, Team.held, Sum.elim_inr, here, Option.bind_some]
      exact own)).2 gone
  refine ⟨kept.fds, ?_, ?_, ?_, ?_, ?_, ?_, ?_⟩
  · rw [Set.sdiff_sdiff_comm, ← used_delete_area kept.unnamed] at left
    have areaIds :
        (((s.setVar v none).setArea m.delete.1 none).setRmMapping m.delete.2 none).areaIds =
          Function.update s.areaIds (.inr v) none := areaIds_setVar (s := s) (v := v) (r := none)
    exact areaIds ▸ left
  · intro area gone
    have still : area ∈ used s.areas \ m.areaSet := ⟨kept.strayUsed gone, unlost gone⟩
    rwa [← used_delete_area kept.unnamed] at still
  · by_cases none : m.fArea = -1
    · exact (congrArg (Function.update s.areas · Option.none (-1)) none).trans (by simp)
    · exact (Function.update_of_ne (Ne.symm none) ..).trans kept.unnamed
  · have back := kept.unmaps.giveBack unmap
    rw [Set.sdiff_sdiff_comm, ← used_update_none] at back
    have unmaps :
        (((s.setVar v none).setArea m.delete.1 none).setRmMapping m.delete.2 none).unmaps d =
          Function.update (s.unmaps d) (.inr v) none := unmaps_setVar (s := s) (v := v) (r := none)
    exact unmaps ▸ back
  · intro u gone
    have other : u ≠ m.unmap := fun same =>
      (kept.unmaps.used_of_owner unmap).2 (same ▸ gone)
    have still : u ∈ used s.rmMappings \ {m.unmap} := ⟨kept.lost gone, other⟩
    rwa [← used_update_none] at still
  · intro u mapper memFd found holds
    obtain ⟨h, file, served⟩ := kept.serves u mapper memFd found holds
    refine ⟨h, file, served.keep fun name owns _ => Function.update_of_ne (fun same => ?_) ..⟩
    have found : s.mappers u = some mapper := found
    have also : s.unmaps d (.inl u) = some m.unmap := by
      rw [Team.unmaps, Sum.elim_inl, found, Option.bind_some, owns, same]
      rfl
    cases kept.unmaps.single _ _ _ also unmap
  · intro place m' found
    rw [held] at found
    by_cases same : place = .inr v
    · simp [same] at found
    · rw [Function.update_of_ne same] at found
      refine (kept.shows place m' found).keep
        (fun _ => Function.update_of_ne (fun also => same ?_) ..) fun area whose there => ?_
      · exact kept.unmaps.single _ _ _ ((unmaps_of_held found).trans (congrArg some also)) unmap
      · refine others there ?_
        rcases whose with own | gone
        · exact apart same (by simp [Team.areaIds, found, own])
        · exact unlost gone

omit [DecidableEq τ] [DecidableEq ν] in
/-- Only a call of `NV_HAIKU_MAP` loses a mapping of the RM. -/
theorem losses_eq_empty {a : TeamAction τ ν} (no : ∀ t answer, a ≠ .haikuMap t answer) :
    losses d ⟨s, a, s'⟩ = ∅ := by
  refine Set.eq_empty_of_forall_notMem ?_
  rintro unmap ⟨t, answer, _, _, _, same, -⟩
  exact no t answer same

omit [DecidableEq τ] [DecidableEq ν] in
/-- Only an assignment loses an area. -/
theorem strays_eq_empty {a : TeamAction τ ν} (no : ∀ t v, a ≠ .assigned t v) :
    strays ⟨s, a, s'⟩ = ∅ := by
  refine Set.eq_empty_of_forall_notMem ?_
  rintro area ⟨t, v, _, _, _, same, -⟩
  exact no t v same

theorem step_rmMapMemory {found : Option AddCall} {errno : ℤ} (kept : Kept d lost stray s)
    (taken : s.step d (.rmMapMemory t found pLinearAddress errno) = some s')
    (answered : Answered ⟨s, .rmMapMemory t found pLinearAddress errno, s'⟩) :
    Kept d lost stray s' := by
  simp only [Team.step] at taken
  split at taken
  · rename_i request memFd here
    split at taken
    · obtain ⟨h, file, taken⟩ := Option.bind_eq_some_iff.mp taken
      exact kept.rmMapMemory here file answered taken
    · split at taken
      · exact Option.some.inj taken ▸ kept
      · obtain rfl := Option.some.inj taken
        obtain ⟨h, file, served⟩ := kept.serves t _ memFd here rfl
        have ended := kept.thrown here rfl rfl ⟨served.nv, served.fClosed⟩
          (kept.unmaps.vacate (by simp [Team.unmaps, here, Mapper.unmap])) kept.lost
        rwa [setFile_eq_self file] at ended
  · cases taken

theorem step_haikuMap {answer : HaikuAnswer} (kept : Kept d lost stray s)
    (taken : s.step d (.haikuMap t answer) = some s') (answered : AddressSet s t answer) :
    Kept d (losses d ⟨s, .haikuMap t answer, s'⟩ ∪ lost) stray s' := by
  simp only [Team.step] at taken
  split at taken
  · rename_i request memFd pLinearAddress here
    obtain ⟨h, file, taken⟩ := Option.bind_eq_some_iff.mp taken
    -- what is lost is the mapping that the call has made, and only if the call throws
    have lossOf {unmap : Unmap} (loss : unmap ∈ losses d ⟨s, .haikuMap t answer, s'⟩) :
        unmap = d.unmap request pLinearAddress ∧
          s'.mappers t = some ⟨request, .closes memFd none⟩ := by
      obtain ⟨_, _, _, _, _, same, before, after, rfl⟩ := loss
      cases same
      cases here.symm.trans before
      exact ⟨rfl, after⟩
    have unmapped (kept : Kept d lost stray s')
        (other : s'.mappers t ≠ some ⟨request, .closes memFd none⟩) :
        Kept d (losses d ⟨s, .haikuMap t answer, s'⟩ ∪ lost) stray s' := by
      rwa [Set.union_eq_right.mpr fun _ loss => absurd (lossOf loss).2 other]
    rcases kept.haikuMap here file (answered _ here memFd rfl h file) taken with
      ⟨rfl, kept⟩ | ⟨after, kept⟩ | ⟨⟨m, after⟩, kept⟩
    · exact unmapped kept (by simp [here])
    · have losses : losses d ⟨s, .haikuMap t answer, s'⟩ = {d.unmap request pLinearAddress} := by
        ext unmap
        exact ⟨fun loss => (lossOf loss).1,
          fun same => ⟨t, answer, request, memFd, pLinearAddress, rfl, here, after, same⟩⟩
      rwa [losses, Set.singleton_union]
    · exact unmapped kept (by simp [after])
  · cases taken

theorem step_assigned (kept : Kept d lost stray s) (taken : s.step d (.assigned t v) = some s') :
    Kept d lost (strays ⟨s, .assigned t v, s'⟩ ∪ stray) s' := by
  simp only [Team.step] at taken
  split at taken
  · rename_i request memFd result here
    obtain ⟨vacant, rfl⟩ := of_guarded taken
    have closed := kept.closed here vacant
    cases result with
    | none =>
      have nothing : strays ⟨s, .assigned t v,
          ((s.setFile memFd none).setMapper t none).setVar v none⟩ = ∅ := by
        refine Set.eq_empty_of_forall_notMem ?_
        rintro area ⟨_, _, _, _, m, same, before, -⟩
        cases same
        cases here.symm.trans before
      rw [Option.map_none, nothing, Set.empty_union]
      exact closed
    | some m =>
      have assigned := closed.assign (v := v) (m := m) (Function.update_self ..)
      have last : (((s.setFile memFd none).setMapper t none).setVar v (some m)).setVar v
          (some (NvRmMemoryMapping.assign {} m)) = ((s.setFile memFd none).setMapper t none).setVar v
            (some (NvRmMemoryMapping.assign {} m)) := by simp [Team.setVar]
      rw [last] at assigned
      have lost : strays ⟨s, .assigned t v, ((s.setFile memFd none).setMapper t none).setVar v
          (some (NvRmMemoryMapping.assign {} m))⟩ = m.areaSet := by
        ext area
        constructor
        · rintro ⟨_, _, _, _, m', same, before, own⟩
          cases same
          cases here.symm.trans before
          exact own
        · exact fun own => ⟨t, v, request, memFd, m, rfl, here, own⟩
      rw [Option.map_some, lost]
      exact assigned
  · cases taken

theorem step {a : TeamAction τ ν} (kept : Kept d lost stray s) (taken : s.step d a = some s')
    (answered : Answered ⟨s, a, s'⟩) :
    Kept d (losses d ⟨s, a, s'⟩ ∪ lost) (strays ⟨s, a, s'⟩ ∪ stray) s' := by
  have nothing (noMap : ∀ t answer, a ≠ .haikuMap t answer) (noAssigned : ∀ t v, a ≠ .assigned t v)
      (kept : Kept d lost stray s') :
      Kept d (losses d ⟨s, a, s'⟩ ∪ lost) (strays ⟨s, a, s'⟩ ∪ stray) s' := by
    rwa [losses_eq_empty noMap, strays_eq_empty noAssigned, Set.empty_union, Set.empty_union]
  cases a with
  | mapMemory t request =>
    obtain ⟨idle, rfl⟩ := of_guarded taken
    exact nothing nofun nofun (kept.mapMemory idle)
  | opened t memFd =>
    refine nothing nofun nofun ?_
    simp only [Team.step] at taken
    split at taken
    · obtain ⟨free, rfl⟩ := of_guarded taken
      exact kept.opened ‹_› free
    · cases taken
  | rmMapMemory t found pLinearAddress errno =>
    exact nothing nofun nofun (kept.step_rmMapMemory taken answered)
  | haikuMap t answer =>
    rw [strays_eq_empty nofun, Set.empty_union]
    exact kept.step_haikuMap taken answered
  | assigned t v =>
    rw [losses_eq_empty nofun, Set.empty_union]
    exact kept.step_assigned taken
  | closed t v =>
    refine nothing nofun nofun ?_
    simp only [Team.step] at taken
    split at taken
    · obtain ⟨vacant, rfl⟩ := of_guarded taken
      exact kept.closed ‹_› vacant
    · cases taken
  | destroy v =>
    refine nothing nofun nofun ?_
    simp only [Team.step] at taken
    split at taken
    · rename_i m here
      obtain rfl := Option.some.inj taken
      rw [if_pos (kept.shows (.inr v) m here).isSet]
      exact kept.destroy here
    · cases taken

end Kept

omit [DecidableEq τ] [DecidableEq ν] in
theorem kept_initial : Kept d ∅ ∅ ({} : Team τ ν) := by
  have nobody : ({} : Team τ ν).held = fun _ => none := by
    funext place
    cases place <;> rfl
  have nothing : ({} : Team τ ν).unmaps d = fun _ => none := by
    funext place
    cases place <;> rfl
  refine ⟨?_, ?_, Set.empty_subset _, rfl, ?_, Set.empty_subset _, nofun, ?_⟩
  · exact used_empty (R := Fd) ▸ HeldOnce.empty
  · have nothing : ({} : Team τ ν).areaIds = fun _ => none := by
      funext place
      cases place <;> rfl
    rw [nothing, Set.sdiff_empty]
    exact used_empty (R := AreaId) ▸ HeldOnce.empty
  · rw [nothing, Set.sdiff_empty]
    exact used_empty (R := Unmap) ▸ HeldOnce.empty
  · simp [nobody]

theorem kept_run {past : List (Event (Team τ ν) (TeamAction τ ν))}
    (run : (team τ ν d).Run past s) (every : Every Answered past) :
    Kept d (leftBehind d past) (strayAreas past) s := by
  induction run with
  | @start s initial =>
    have none : leftBehind d ([] : List (Event (Team τ ν) (TeamAction τ ν))) = ∅ := by
      simp [leftBehind]
    have noArea : strayAreas ([] : List (Event (Team τ ν) (TeamAction τ ν))) = ∅ := by
      simp [strayAreas]
    rw [none, noArea, show s = {} from initial]
    exact kept_initial
  | @step past s s' a run taken ih =>
    obtain ⟨last, earlier⟩ := every_cons.mp every
    have more : leftBehind d (⟨s, a, s'⟩ :: past) = losses d ⟨s, a, s'⟩ ∪ leftBehind d past := by
      ext unmap
      simp [leftBehind]
    have moreAreas : strayAreas (⟨s, a, s'⟩ :: past) = strays ⟨s, a, s'⟩ ∪ strayAreas past := by
      ext area
      simp [strayAreas]
    rw [more, moreAreas]
    exact (ih earlier).step taken last

/-- Whatever the threads of a team map and unmap at once, descriptors, areas and mappings of the
RM belong to one mapping or call each, unless a failing call or an assignment has lost them, and
each mapping shows the memory it has been asked for. -/
theorem kept_of_run {past : List (Event (Team τ ν) (TeamAction τ ν))}
    (run : (team τ ν d).Run past s) (every : Every Answered past) :
    Kept d (leftBehind d past) (strayAreas past) s :=
  kept_run run every

/-- Two threads map memory at once: one pages of an allocation, the other a range of the GPU, whose
mapping is assigned. A descriptor is used again, and one request is repeated. -/
def mappers : List (TeamAction Bool Bool) :=
  let pages : AddCall := {
    nv := .control 8, nvuap := { ranges := [] }
    pAllocPriv := 40, pageIndex := 2, memory := none }
  let range : AddCall := {
    nv := .gpu 16, nvuap := { ranges := [⟨0x1000, 0x2000⟩] }
    pAllocPriv := 48, memory := some fun _ => ⟨0, 0⟩ }
  let answer (area : BitVec 32) (baseAddress : BitVec 64) : HaikuAnswer := {
    area := area, baseAddress := baseAddress
    memory := fun _ => { area := 10, cacheType := .cached, physBase := 0 } }
  [.mapMemory true ⟨1, true, 0, 0x1000, 0⟩, .mapMemory false ⟨2, false, 0, 0x2000, 0⟩,
    .opened true 3, .opened false 4, .rmMapMemory false (some range) 7 0,
    .rmMapMemory true (some pages) 7 0, .haikuMap false (answer (.ofInt 32 EINTR) 0),
    .haikuMap true (answer 11 0x10000), .closed true true,
    .mapMemory true ⟨1, true, 0, 0x1000, 0⟩, .opened true 3,
    .haikuMap false (answer 12 0x20000), .assigned false false]

/-- The objects that the two threads use. -/
def gpu : RmDevice where
  rm := 64
  hDevice := 5
  nvidiactl := 8
  nvidia _ := 16

theorem kept_mappers : ∃ past s, (team Bool Bool gpu).Run past s ∧
    (s.vars true).map (s.areas ·.fArea) = some (some (.cloneArea 40 2)) ∧
    (s.vars false).map (·.fArea) = some (-1) ∧
    s.areas 12 = some (.physicalMemory ⟨0x1000, 0x2000⟩) ∧
    Kept gpu (leftBehind gpu past) (strayAreas past) s := by
  have run := (Run.start (T := team Bool Bool gpu) rfl).play mappers (by decide)
  exact ⟨_, _, run, by decide, by decide, by decide, kept_of_run run (by decide)⟩

/-! ## Which requests are refused -/

/-- A request for memory that the RM finds is refused only for the device that has been opened. -/
structure Team.ServedByDevice (d : RmDevice) (s : Team τ ν) : Prop where
  /-- The handle takes an allocation, and the ranges of its device. -/
  rm : ∀ t request memFd, s.mappers t = some ⟨request, .asks memFd⟩ →
    ∃ h, s.files memFd = some h ∧ ∀ found : AddCall, found.Fits →
      ((h.addMappingContextToFile found).2 = .ok ↔
        found.nv.isCtlDevice = true ∨ found.nv = d.opened request ∧ found.memory.isSome)
  /-- It maps what it has taken if that is of the kind asked for, each time it is asked. -/
  haiku : ∀ t request memFd pLinearAddress,
    s.mappers t = some ⟨request, .maps memFd pLinearAddress⟩ →
    ∃ h found, s.files memFd = some h ∧
      s.rmMappings (d.unmap request pLinearAddress) = some found ∧
      ∀ answer m, h.mapping (HaikuAnswer.call answer) = .ok m ↔
        0 ≤ answer.copyIn ∧ mappingOf found = some m ∧
          found.nv.isCtlDevice = request.isSystemMemory

theorem addMappingContextToFile_ok_iff {h : NvHaikuBaseDeviceHandle} {found : AddCall}
    (unset : h.fMmapContext.valid = false) (opened : h.fClosed = false) :
    (h.addMappingContextToFile found).2 = .ok ↔
      found.nv.isCtlDevice = true ∨ found.nv = h.nv ∧ found.memory.isSome := by
  simp only [NvHaikuBaseDeviceHandle.addMappingContextToFile, opened, unset]
  cases control : found.nv.isCtlDevice with
  | true => simp
  | false =>
    by_cases same : h.nv = found.nv
    · cases memory : found.memory <;> simp [same, osAllocMem]
    · simp [same, Ne.symm same]

theorem HaikuAnswer.wellFormed_iff {answer : HaikuAnswer} :
    answer.call.WellFormed ↔ 0 ≤ answer.copyIn :=
  ⟨fun wellFormed => wellFormed.copyIn, fun copied => ⟨rfl, rfl, copied,
    show strnlen mapParams.name B_OS_NAME_LENGTH ≠ B_OS_NAME_LENGTH by decide⟩⟩

theorem RmDevice.opened_isCtlDevice {request : MapRequest} :
    (d.opened request).isCtlDevice = request.isSystemMemory := by
  unfold opened
  cases request.isSystemMemory <;> rfl

theorem servedByDevice_of_run {past : List (Event (Team τ ν) (TeamAction τ ν))}
    (run : (team τ ν d).Run past s) (every : Every Answered past) : s.ServedByDevice d := by
  have kept := kept_run run every
  constructor
  · intro t request memFd here
    obtain ⟨h, file, served⟩ := kept.serves t _ memFd here rfl
    refine ⟨h, file, fun found _ => ?_⟩
    rw [← served.nv]
    exact addMappingContextToFile_ok_iff served.context served.fClosed
  · intro t request memFd pLinearAddress here
    obtain ⟨h, file, nv, opened, found, mapped, fits, recorded, device⟩ :=
      kept.serves t _ memFd here rfl
    refine ⟨h, found, file, mapped, fun answer m => ?_⟩
    rw [NvHaikuBaseDeviceHandle.mapping_eq_ok_iff, HaikuAnswer.wellFormed_iff,
      choose_iff_mappingOf fits recorded device, nv, RmDevice.opened_isCtlDevice]
    simp [opened]

theorem servedByDevice_mappers : ∃ past s, (team Bool Bool gpu).Run past s ∧
    s.mappers false = some ⟨⟨2, false, 0, 0x2000, 0⟩, .maps 4 7⟩ ∧ s.ServedByDevice gpu := by
  have run := (Run.start (T := team Bool Bool gpu) rfl).play (mappers.take 11) (by decide)
  exact ⟨_, _, run, by decide, servedByDevice_of_run run (by decide)⟩

end NvidiaHaiku.Sdk

/-
# `NV_HAIKU_MAP` maps what has been recorded

`nv_add_mapping_context_to_file` decides by the `nv_state_t` of the RM whether it records
an allocation or ranges, and `NV_HAIKU_MAP` by the device of the handle which of the two
it maps. Nothing checks that they agree. A handle of the control device never holds
ranges, because the first call compares the devices when it records ranges. A handle of a
GPU may hold an allocation, but then its array is empty, and the second call refuses that.

So what is mapped is what the successful first call for this handle has recorded, and a
request for anything else is refused before a mapping function is called.
-/

import NvidiaHaiku.BaseDevice.MappingContext

namespace NvidiaHaiku.BaseDevice

open NvidiaHaiku.Math TransitionSystem

variable {κ : Type*} [DecidableEq κ] {s t : State κ} {a : Action κ} {fd : κ} {call : AddCall}
  {past : List (Event (State κ) (Action κ))}

/-- The event is a successful `nv_add_mapping_context_to_file` for the handle. -/
def Adds (fd : κ) (call : AddCall) (e : Event (State κ) (Action κ)) : Prop :=
  e.action = .addMappingContext fd call ∧
    ((e.source.handles fd).addMappingContextToFile call).2 = .ok

/-- A successful call has recorded, for a handle of `device`, what is to be mapped. -/
def Recorded (past : List (Event (State κ) (Action κ))) (fd : κ) (device : Nv) : Mapping → Prop
  | .cloneArea alloc page_index =>
    device.isCtlDevice = true ∧ alloc ≠ 0 ∧ ∃ e ∈ past, ∃ call, Adds fd call e ∧
      call.nv.isCtlDevice = true ∧ call.pAllocPriv = alloc ∧ call.pageIndex = page_index
  | .physicalMemory range =>
    device.isCtlDevice = false ∧ ∃ e ∈ past, ∃ call, Adds fd call e ∧
      call.nv = device ∧ call.nvuap.ranges = [range]
  | .physicalMemoryVecs vecs =>
    device.isCtlDevice = false ∧ 2 ≤ vecs.length ∧ ∃ e ∈ past, ∃ call, Adds fd call e ∧
      call.nv = device ∧ call.nvuap.ranges = vecs

/-- A non-null allocation and fewer than 2^28 ranges are given to
`nv_add_mapping_context_to_file`. -/
def Action.Fits : Action κ → Prop
  | addMappingContext _ call => call.Fits
  | allocPages _ | freePages _ | map .. | close _ => True

instance : (a : Action κ) → Decidable a.Fits
  | .addMappingContext _ call => inferInstanceAs (Decidable call.Fits)
  | .allocPages _ | .freePages _ | .map .. | .close _ => isTrue trivial

/-- A valid context is not modified, and a call that would records nothing. -/
def ValidStays (e : Event (State κ) (Action κ)) : Prop :=
  ∀ fd, (e.source.handles fd).fMmapContext.valid = true →
    (e.target.handles fd).fMmapContext = (e.source.handles fd).fMmapContext ∧
    ∀ call, (e.source.handles fd).fClosed = false → e.action = .addMappingContext fd call →
      ((e.source.handles fd).addMappingContextToFile call).2 = .stateInUse

/-- A call that fails on a context that is not valid leaves it without an array. -/
def FailsClean (e : Event (State κ) (Action κ)) : Prop :=
  ∀ fd call, e.action = .addMappingContext fd call →
    (e.source.handles fd).fMmapContext.valid = false →
    ((e.source.handles fd).addMappingContextToFile call).2 ≠ .ok →
      (e.target.handles fd).fMmapContext.valid = false ∧
        (e.target.handles fd).fMmapContext.memArea.pRanges = none

/-! ## One step -/

/-- A step leaves the device of a handle, and a context that is valid. -/
theorem State.step_valid (taken : s.step a = some t) (fd : κ) :
    (t.handles fd).nv = (s.handles fd).nv ∧
      ((s.handles fd).fMmapContext.valid = true →
        (t.handles fd).fMmapContext = (s.handles fd).fMmapContext) := by
  rcases step_handles taken fd with same | ⟨-, closed⟩ | ⟨call, rfl, added⟩
  · exact ⟨by rw [same], fun _ => by rw [same]⟩
  · exact ⟨by rw [closed], fun _ => by rw [closed]⟩
  · rw [added]
    rcases NvHaikuBaseDeviceHandle.addMappingContextToFile_cases (s.handles fd) _
      with ⟨-, same, -⟩ | ⟨-, unset, cleared⟩ | ⟨-, unset, -, -, _, -, recorded, -⟩
    · exact ⟨by rw [same], fun _ => by rw [same]⟩
    · exact ⟨by rw [cleared], fun valid => by simp [unset] at valid⟩
    · exact ⟨by rw [recorded], fun valid => by simp [unset] at valid⟩

/-- A step makes a context valid only by a successful call, which finds it not valid. -/
theorem State.step_adds (taken : s.step a = some t) (fd : κ)
    (unset : (s.handles fd).fMmapContext.valid = false) :
    (t.handles fd).fMmapContext.valid = true → ∃ call, Adds fd call ⟨s, a, t⟩ := by
  intro valid
  rcases step_handles taken fd with same | ⟨-, closed⟩ | ⟨call, rfl, added⟩
  · rw [same, unset] at valid
    cases valid
  · rw [closed] at valid
    simp [unset] at valid
  · rcases NvHaikuBaseDeviceHandle.addMappingContextToFile_cases (s.handles fd) _
      with ⟨-, same, -⟩ | ⟨-, -, cleared⟩ | ⟨ok, -⟩
    · rw [added, same, unset] at valid
      cases valid
    · rw [added, cleared] at valid
      cases valid
    · exact ⟨call, rfl, ok⟩

/-- What a successful call leaves. -/
theorem Adds.context (adds : Adds fd call ⟨s, a, t⟩) (taken : s.step a = some t)
    (fits : call.Fits) :
    (s.handles fd).fMmapContext.valid = false ∧
      (t.handles fd).fMmapContext = call.context ∧
      (call.nv.isCtlDevice = true ∨ (t.handles fd).nv = call.nv) := by
  obtain ⟨rfl, ok⟩ := adds
  obtain ⟨unset, device, recorded⟩ :=
    NvHaikuBaseDeviceHandle.addMappingContextToFile_of_fits fits ok
  have target : t.handles fd = ((s.handles fd).addMappingContextToFile call).1 := by
    rw [← Option.some.inj taken]
    exact Function.update_self ..
  rw [target, recorded]
  exact ⟨unset, rfl, device⟩

theorem validStays_of_step (taken : s.step a = some t) : ValidStays ⟨s, a, t⟩ := by
  intro fd valid
  refine ⟨(State.step_valid taken fd).2 valid, fun call opened _ => ?_⟩
  rw [NvHaikuBaseDeviceHandle.addMappingContextToFile_of_valid valid opened]

/-- A context is valid, or as it was when the handle was opened. -/
def State.Tidy (s : State κ) : Prop :=
  ∀ fd, (s.handles fd).fMmapContext.valid = false → (s.handles fd).fMmapContext = {}

theorem State.Tidy.step (tidy : s.Tidy) (taken : s.step a = some t) : t.Tidy := by
  intro fd unset
  rcases step_handles taken fd with same | ⟨-, closed⟩ | ⟨call, rfl, added⟩
  · rw [same] at unset ⊢
    exact tidy fd unset
  · rw [closed] at unset ⊢
    exact tidy fd unset
  · rw [added] at unset ⊢
    rcases NvHaikuBaseDeviceHandle.addMappingContextToFile_cases (s.handles fd) _
      with ⟨-, same, -⟩ | ⟨-, -, cleared⟩ | ⟨-, -, -, -, nvamc, valid, recorded, -⟩
    · rw [same] at unset ⊢
      exact tidy fd unset
    · rw [cleared]
    · simp [recorded, valid] at unset

theorem failsClean_of_step (tidy : s.Tidy) (taken : s.step a = some t) :
    FailsClean ⟨s, a, t⟩ := by
  rintro fd call rfl unset fails
  have still : (t.handles fd).fMmapContext.valid = false := by
    by_contra valid
    obtain ⟨call', adds⟩ := State.step_adds taken fd unset (Bool.not_eq_false _ ▸ valid)
    cases adds.1
    exact fails adds.2
  rw [tidy.step taken fd still]
  exact ⟨rfl, rfl⟩

/-! ## Runs -/

/-- The contexts are those recorded by the successful calls so far. -/
structure Traced (past : List (Event (State κ) (Action κ))) (s : State κ) : Prop where
  added : ∀ fd, (s.handles fd).fMmapContext.valid = true → ∃ e ∈ past, ∃ call, Adds fd call e
  context : ∀ fd call, ∀ e ∈ past, Adds fd call e →
    call.Fits ∧ (s.handles fd).fMmapContext = call.context ∧
      (call.nv.isCtlDevice = true ∨ (s.handles fd).nv = call.nv)

theorem Traced.step (traced : Traced past s) (taken : s.step a = some t)
    (fits : a.Fits) : Traced (⟨s, a, t⟩ :: past) t := by
  constructor
  · intro fd valid
    cases before : (s.handles fd).fMmapContext.valid with
    | true =>
      obtain ⟨e, member, adds⟩ := traced.added fd before
      exact ⟨e, List.mem_cons_of_mem _ member, adds⟩
    | false =>
      exact ⟨_, List.mem_cons_self, State.step_adds taken fd before valid⟩
  · intro fd call e member adds
    rcases List.mem_cons.mp member with rfl | earlier
    · have few : call.Fits := by
        obtain ⟨rfl, -⟩ := adds
        exact fits
      exact ⟨few, (adds.context taken few).2⟩
    · -- the context was valid already, so the step leaves it
      obtain ⟨few, context, device⟩ := traced.context fd call e earlier adds
      obtain ⟨nv, stays⟩ := State.step_valid taken fd
      rw [stays (by rw [context, AddCall.context_valid]), nv]
      exact ⟨few, context, device⟩

theorem traced_of_run (run : (calls κ).Run past s)
    (every : Every (fun e => e.action.Fits) past) : Traced past s := by
  induction run with
  | start fresh =>
    refine ⟨fun fd valid => ?_, fun _ _ _ member => nomatch member⟩
    rw [(fresh.2 fd).2] at valid
    cases valid
  | step _ taken ih =>
    rw [every_cons] at every
    exact (ih every.2).step taken every.1

theorem tidy_of_run (run : (calls κ).Run past s) : s.Tidy :=
  run.reachable.invariant (fun _ fresh fd _ => (fresh.2 fd).2)
    fun _ _ _ tidy taken => tidy.step taken

/-! ## The request -/

namespace NvHaikuBaseDeviceHandle

variable {h : NvHaikuBaseDeviceHandle} {request : MapCall} {m : Mapping}
  {memory : Address → NvAlloc}

/-- The mapping function is called first, and only for what has been chosen. -/
theorem eq_mappingCall_of_mem_map {call : VmCall} (member : call ∈ (h.map memory request).1)
    (maps : call.maps = true) :
    ∃ m, h.mapping request = .ok m ∧ call = h.mappingCall memory request.params m := by
  unfold map at member
  cases chosen : h.mapping request with
  | error status =>
    rw [chosen] at member
    simp at member
  | ok m =>
    rw [chosen] at member
    have second : (h.mapped memory request m).2.maps = false := by
      cases m <;> rfl
    refine ⟨m, rfl, ?_⟩
    dsimp only at member
    split at member
    · simpa using member
    · split at member <;> simp only [List.mem_cons, List.not_mem_nil, or_false] at member
      · rcases member with first | rfl | rfl
        · exact first
        · simp [second] at maps
        · simp [VmCall.maps] at maps
      · rcases member with first | rfl
        · exact first
        · simp [second] at maps

/-- Nothing is called for a request that is refused. -/
theorem map_of_refused {status : ℤ} (refused : h.mapping request = .error status) :
    h.map memory request = ([], status, none) := by
  simp [map, refused]

theorem choose_error {status : ℤ} (refused : h.choose = .error status) : status = EINVAL := by
  unfold choose at refused
  split at refused
  · exact (Except.error.inj refused).symm
  split at refused
  · simp at refused
  dsimp only at refused
  split at refused
  · exact (Except.error.inj refused).symm
  · split at refused <;> simp at refused

/-- A refused request gets an error, which is `EINVAL` if the request is well formed. -/
theorem mapping_error {status : ℤ} (refused : h.mapping request = .error status) :
    status < 0 ∧ (request.WellFormed → status = EINVAL) := by
  by_cases wellFormed : request.WellFormed
  · have invalid : status = EINVAL := by
      cases opened : h.fClosed with
      | true => simpa [mapping, opened] using refused.symm
      | false =>
        rw [mapping_of_wellFormed wellFormed opened] at refused
        exact choose_error refused
    rw [invalid]
    exact ⟨by decide, fun _ => rfl⟩
  · refine ⟨?_, fun meets => absurd meets wellFormed⟩
    -- the checks of an ill-formed request, in the order of the code
    unfold mapping at refused
    split at refused
    · rw [← Except.error.inj refused]; decide
    split at refused
    · rw [← Except.error.inj refused]; decide
    split at refused
    · rw [← Except.error.inj refused]; decide
    split at refused
    case isTrue copyIn => exact Except.error.inj refused ▸ copyIn
    split at refused
    · rw [← Except.error.inj refused]; decide
    · rw [choose_error refused]; decide

/-! ### The choice by what has been recorded -/

theorem choose_of_control (control : h.nv.isCtlDevice = true)
    (recorded : h.fMmapContext = call.context) :
    h.choose = .ok (.cloneArea call.context.alloc call.context.page_index) := by
  simp [choose, recorded, control]

/-- An allocation recorded for a GPU is not mapped, because there are no ranges. -/
theorem choose_of_mismatch (gpu : h.nv.isCtlDevice = false)
    (recorded : h.fMmapContext = call.context) (control : call.nv.isCtlDevice = true) :
    h.choose = .error EINVAL := by
  simp [choose, recorded, gpu, AddCall.context, control]

theorem choose_of_gpu (fits : call.Fits) (gpu : h.nv.isCtlDevice = false)
    (recorded : h.fMmapContext = call.context) (same : call.nv.isCtlDevice = false) :
    h.choose =
      match call.nvuap.ranges with
      | [] => .error EINVAL
      | [range] => .ok (.physicalMemory range)
      | ranges => .ok (.physicalMemoryVecs ranges) := by
  have few := fits.ranges
  have valid : h.fMmapContext.valid = true := by rw [recorded, AddCall.context_valid]
  have memArea : h.fMmapContext.memArea =
      ⟨some call.nvuap.ranges, BitVec.ofNat 64 call.nvuap.ranges.length⟩ := by
    simp [recorded, AddCall.context, same, UsermapAccessParams.numRanges]
  unfold choose
  rw [valid, gpu, memArea]
  -- no range, one range or several
  generalize call.nvuap.ranges = ranges at few ⊢
  rcases ranges with _ | ⟨first, _ | ⟨second, rest⟩⟩
  · rfl
  · rfl
  · simp only [List.length_cons] at few ⊢
    have fits : (BitVec.ofNat 64 (rest.length + 1 + 1) = 0 ||
        BitVec.ofNat 64 (rest.length + 1 + 1) > 0xffffffff) = false := by
      rw [Bool.or_eq_false_iff, decide_eq_false_iff_not, decide_eq_false_iff_not]
      constructor <;> bv_omega
    have several : ¬ BitVec.ofNat 64 (rest.length + 1 + 1) = 1 := by bv_omega
    simp only [Bool.not_true, Bool.false_eq_true, if_false, fits, several]
    rfl

end NvHaikuBaseDeviceHandle

omit [DecidableEq κ] in
/-- What is chosen is what has been recorded. -/
theorem Traced.choose_iff (traced : Traced past s) {m : Mapping} :
    (s.handles fd).choose = .ok m ↔ Recorded past fd (s.handles fd).nv m := by
  constructor
  · intro chosen
    have valid : (s.handles fd).fMmapContext.valid = true := by
      by_contra unset
      rw [Bool.not_eq_true] at unset
      simp [NvHaikuBaseDeviceHandle.choose, unset] at chosen
    obtain ⟨e, member, call, adds⟩ := traced.added fd valid
    obtain ⟨fits, recorded, device⟩ := traced.context fd call e member adds
    -- the control device maps pages of an allocation, a GPU maps physical ranges
    cases kind : (s.handles fd).nv.isCtlDevice with
    | true =>
      have control : call.nv.isCtlDevice = true := device.elim id fun same => same ▸ kind
      rw [NvHaikuBaseDeviceHandle.choose_of_control kind recorded] at chosen
      obtain rfl := Except.ok.inj chosen
      rw [AddCall.context, if_pos control]
      exact ⟨kind, fits.alloc, e, member, call, adds, control, rfl, rfl⟩
    | false =>
      cases control : call.nv.isCtlDevice with
      | true =>
        rw [NvHaikuBaseDeviceHandle.choose_of_mismatch kind recorded control] at chosen
        simp at chosen
      | false =>
        have same : call.nv = (s.handles fd).nv :=
          (device.resolve_left (by simp [control])).symm
        rw [NvHaikuBaseDeviceHandle.choose_of_gpu fits kind recorded control] at chosen
        -- one range has a function of its own, and no range is refused
        rcases ranges : call.nvuap.ranges with _ | ⟨first, _ | ⟨second, rest⟩⟩
        · simp [ranges] at chosen
        · rw [ranges] at chosen
          obtain rfl := Except.ok.inj chosen
          exact ⟨kind, e, member, call, adds, same, ranges⟩
        · rw [ranges] at chosen
          obtain rfl := Except.ok.inj chosen
          exact ⟨kind, by simp, e, member, call, adds, same, ranges⟩
  · intro recorded
    cases m with
    | cloneArea alloc page_index =>
      obtain ⟨kind, -, e, member, call, adds, control, rfl, rfl⟩ := recorded
      obtain ⟨-, recorded, -⟩ := traced.context fd call e member adds
      rw [NvHaikuBaseDeviceHandle.choose_of_control kind recorded, AddCall.context,
        if_pos control]
    | physicalMemory range =>
      obtain ⟨kind, e, member, call, adds, same, ranges⟩ := recorded
      obtain ⟨fits, recorded, -⟩ := traced.context fd call e member adds
      rw [NvHaikuBaseDeviceHandle.choose_of_gpu fits kind recorded (same ▸ kind), ranges]
    | physicalMemoryVecs vecs =>
      obtain ⟨kind, several, e, member, call, adds, same, ranges⟩ := recorded
      obtain ⟨fits, recorded, -⟩ := traced.context fd call e member adds
      rw [NvHaikuBaseDeviceHandle.choose_of_gpu fits kind recorded (same ▸ kind), ranges]
      rcases vecs with _ | ⟨first, _ | ⟨second, rest⟩⟩
      · simp at several
      · simp at several
      · rfl

/-! ## Both calls -/

/-- A request on the handle is served from what has been recorded for it, or refused. -/
structure ServedFromRecord (past : List (Event (State κ) (Action κ))) (s : State κ) (fd : κ)
    (request : MapCall) (memory : Address → NvAlloc) : Prop where
  /-- A mapping function is called only for what has been recorded. -/
  recorded : ∀ call ∈ ((s.handles fd).map memory request).1, call.maps = true →
    ∃ m, Recorded past fd (s.handles fd).nv m ∧
      call = (s.handles fd).mappingCall memory request.params m
  /-- Which of them is called, if any. -/
  served : ∀ m, (s.handles fd).mapping request = .ok m ↔
    request.WellFormed ∧ (s.handles fd).fClosed = false ∧ Recorded past fd (s.handles fd).nv m
  /-- In every other case nothing is called, and the result is an error. -/
  refused : (∀ m, (s.handles fd).mapping request ≠ .ok m) →
    ∃ status < 0, (s.handles fd).map memory request = ([], status, none) ∧
      (request.WellFormed → status = EINVAL)

omit [DecidableEq κ] in
theorem Traced.servedFromRecord (traced : Traced past s) (request : MapCall)
    (memory : Address → NvAlloc) : ServedFromRecord past s fd request memory := by
  refine ⟨fun call member maps => ?_, fun m => ?_, fun none => ?_⟩
  · obtain ⟨m, chosen, called⟩ :=
      NvHaikuBaseDeviceHandle.eq_mappingCall_of_mem_map member maps
    rw [NvHaikuBaseDeviceHandle.mapping_eq_ok_iff] at chosen
    exact ⟨m, traced.choose_iff.mp chosen.2.2, called⟩
  · rw [NvHaikuBaseDeviceHandle.mapping_eq_ok_iff, traced.choose_iff]
  · cases refused : (s.handles fd).mapping request with
    | ok m => exact absurd refused (none m)
    | error status =>
      obtain ⟨negative, invalid⟩ := NvHaikuBaseDeviceHandle.mapping_error refused
      exact ⟨status, negative, NvHaikuBaseDeviceHandle.map_of_refused refused, invalid⟩

/-- The mapping contexts over whole runs: a valid one is never modified, a call that fails
leaves none behind, and `NV_HAIKU_MAP` maps what has been recorded or nothing. -/
theorem contexts_consistent (run : (calls κ).Run past s)
    (every : Every (fun e => e.action.Fits) past) :
    Every (fun e => ValidStays e ∧ FailsClean e) past ∧
      ∀ fd request memory, ServedFromRecord past s fd request memory := by
  refine ⟨?_, fun fd request memory =>
    (traced_of_run run every).servedFromRecord request memory⟩
  clear every
  induction run with
  | start => exact every_nil
  | step run taken ih =>
    exact every_cons.mpr
      ⟨⟨validStays_of_step taken, failsClean_of_step (tidy_of_run run) taken⟩, ih⟩

/-- A handle of the control device is given ranges, and one of a GPU an allocation. The
first call fails, and the mapping of the second handle is refused. -/
theorem contexts_consistent_mismatched : ∃ past s, (calls Bool).Run past s ∧
    (s.handles true).fMmapContext.valid = false ∧
    (s.handles false).mapping ⟨48, true, 0, 0, ⟨[], 0, 0, 0⟩, 7, 0⟩ = .error EINVAL ∧
    Every (fun e => ValidStays e ∧ FailsClean e) past ∧
      ∀ fd request memory, ServedFromRecord past s fd request memory := by
  have fresh : (calls Bool).start
      { handles := fun control => { nv := if control then .control 1 else .gpu 2 } } :=
    ⟨rfl, fun _ => ⟨rfl, rfl⟩⟩
  have run := (Run.start fresh).play
    [.addMappingContext true
      { nv := .gpu 2, nvuap := { ranges := [⟨0, 1⟩] }, pAllocPriv := 8, memory := none },
    .addMappingContext false
      { nv := .control 1, nvuap := { ranges := [] }, pAllocPriv := 8, memory := none }] rfl
  exact ⟨_, _, run, rfl, rfl, contexts_consistent run (by decide)⟩

end NvidiaHaiku.BaseDevice

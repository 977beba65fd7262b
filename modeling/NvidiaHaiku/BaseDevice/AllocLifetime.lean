/-
# The allocation behind a mapping context

A handle of the control device keeps the pointer to an `nv_alloc_t` in its mapping
context, and `NV_HAIKU_MAP` reads the allocation through it. The pointer stays there as
long as the handle does. `nv_free_pages` deletes the allocation and looks at no handle, so
the next `NV_HAIKU_MAP` reads an object that is gone.

The calls come in any order here, each as a whole. `NV_HAIKU_MAP` reads no deleted
allocation as long as none is deleted that a handle still holds, and none is given to a
handle after it has been deleted.
-/

import NvidiaHaiku.BaseDevice.MappingContext

namespace NvidiaHaiku.BaseDevice

open NvidiaHaiku.Math TransitionSystem

variable {κ : Type*} [DecidableEq κ] {s t : State κ} {a : Action κ} {fd : κ} {priv : Address}

/-- The handle can be mapped, and reads the allocation at `priv` then. -/
structure NvHaikuBaseDeviceHandle.Holds (h : NvHaikuBaseDeviceHandle) (priv : Address) : Prop where
  control : h.nv.isCtlDevice = true
  opened : h.fClosed = false
  valid : h.fMmapContext.valid = true
  alloc : h.fMmapContext.alloc = priv

/-- An `NV_HAIKU_MAP` that calls `vm_clone_area` reads an `nv_alloc_t` that has not been
deleted. -/
def ReadsUndeleted (e : Event (State κ) (Action κ)) : Prop :=
  ∀ fd request, e.action = .map fd request → ∀ alloc page_index,
    (e.source.handles fd).mapping request = .ok (.cloneArea alloc page_index) →
      e.source.allocs alloc ≠ .deleted

/-- `nv_free_pages` only deletes an allocation that no handle holds, and an allocation that
has been deleted is not given to an open handle of the control device whose context is not
valid yet. -/
def FreesUnheld (e : Event (State κ) (Action κ)) : Prop :=
  match e.action with
  | .freePages priv => ∀ fd, ¬ (e.source.handles fd).Holds priv
  | .addMappingContext fd call =>
    let h := e.source.handles fd
    h.nv.isCtlDevice = true → h.fClosed = false → h.fMmapContext.valid = false →
      call.nv.isCtlDevice = true → e.source.allocs call.pAllocPriv ≠ .deleted
  | .allocPages _ | .map .. | .close _ => True

/-- No handle holds an allocation that has been deleted. -/
def State.Sound (s : State κ) : Prop :=
  ∀ fd priv, (s.handles fd).Holds priv → s.allocs priv ≠ .deleted

/-! ## The handle -/

namespace NvHaikuBaseDeviceHandle

variable {h : NvHaikuBaseDeviceHandle} {request : MapCall}

theorem holds_of_mapping {page_index : BitVec 64}
    (mapped : h.mapping request = .ok (.cloneArea priv page_index)) : h.Holds priv := by
  obtain ⟨-, opened, chosen⟩ := mapping_eq_ok_iff.mp mapped
  unfold choose at chosen
  split at chosen
  · simp at chosen
  case isFalse valid =>
  split at chosen
  case isTrue control =>
    simp only [Except.ok.injEq, Mapping.cloneArea.injEq] at chosen
    exact ⟨control, opened, by simpa using valid, chosen.1⟩
  case isFalse =>
    dsimp only at chosen
    split at chosen
    · simp at chosen
    · split at chosen <;> simp at chosen

theorem mapping_of_holds (holds : h.Holds priv) (wellFormed : request.WellFormed) :
    h.mapping request = .ok (.cloneArea priv h.fMmapContext.page_index) := by
  rw [mapping_of_wellFormed wellFormed holds.opened]
  simp [choose, holds.valid, holds.control, holds.alloc]

end NvHaikuBaseDeviceHandle

/-- A request that passes all checks. -/
def plainRequest : MapCall where
  len := sizeofMapParams
  userAddress := true
  params := { name := [0] }
  area := 1

theorem plainRequest_wellFormed : plainRequest.WellFormed :=
  ⟨rfl, rfl, by decide, by decide⟩

/-! ## Steps -/

omit [DecidableEq κ] in
theorem State.Sound.readsUndeleted (sound : s.Sound) : ReadsUndeleted ⟨s, a, t⟩ :=
  fun fd _ _ alloc _ mapped => sound fd alloc (NvHaikuBaseDeviceHandle.holds_of_mapping mapped)

/-- A handle that comes to hold an allocation has been given it by the step. -/
theorem State.holds_of_step (taken : s.step a = some t) (holds : (t.handles fd).Holds priv) :
    (s.handles fd).Holds priv ∨
      ∃ call, a = .addMappingContext fd call ∧ call.pAllocPriv = priv ∧
        call.nv.isCtlDevice = true ∧ (s.handles fd).nv.isCtlDevice = true ∧
        (s.handles fd).fClosed = false ∧ (s.handles fd).fMmapContext.valid = false := by
  rcases step_handles taken fd with same | ⟨-, closed⟩ | ⟨call, rfl, added⟩
  · exact Or.inl (same ▸ holds)
  · have opened := holds.opened
    simp [closed] at opened
  · rw [added] at holds
    rcases NvHaikuBaseDeviceHandle.addMappingContextToFile_cases (s.handles fd) _
      with ⟨-, same, -⟩ | ⟨-, -, cleared⟩ |
        ⟨-, unset, opened, device, nvamc, -, recorded, context⟩
    · exact Or.inl (same ▸ holds)
    · have valid := holds.valid
      simp [cleared] at valid
    · rw [recorded] at holds
      have control : call.nv.isCtlDevice = true :=
        device.elim id fun same => same ▸ holds.control
      refine Or.inr ⟨call, rfl, ?_, control, holds.control, opened, unset⟩
      rw [← holds.alloc, context (Or.inl control), AddCall.context, if_pos control]

/-- What an address is known for changes to deleted by `nv_free_pages` only. -/
theorem State.deleted_of_step (taken : s.step a = some t) (deleted : t.allocs priv = .deleted) :
    s.allocs priv = .deleted ∨ a = .freePages priv := by
  rcases step_allocs taken priv with same | ⟨alloc, live⟩ | ⟨freed, -⟩
  · exact Or.inl (same ▸ deleted)
  · rw [live] at deleted
    cases deleted
  · exact Or.inr freed

theorem State.Sound.step (sound : s.Sound) (taken : s.step a = some t)
    (unheld : FreesUnheld ⟨s, a, t⟩) : t.Sound := by
  intro fd priv holds deleted
  rcases State.holds_of_step taken holds with
    before | ⟨call, rfl, rfl, control, kind, opened, unset⟩
  · rcases State.deleted_of_step taken deleted with earlier | rfl
    · exact sound fd priv before earlier
    · exact unheld fd before
  · rcases State.deleted_of_step taken deleted with earlier | freed
    · exact unheld kind opened unset control earlier
    · cases freed

/-- A step outside the condition leaves a handle that holds a deleted allocation. -/
theorem State.holds_deleted_of_step (taken : s.step a = some t) (held : ¬ FreesUnheld ⟨s, a, t⟩) :
    ∃ fd priv, (t.handles fd).Holds priv ∧ t.allocs priv = .deleted := by
  unfold FreesUnheld at held
  cases a with
  | freePages priv =>
    obtain ⟨-, rfl⟩ := of_guarded taken
    obtain ⟨fd, holds⟩ := not_forall_not.mp held
    exact ⟨fd, priv, holds, Function.update_self ..⟩
  | addMappingContext fd call =>
    obtain rfl := Option.some.inj taken
    simp only [Classical.not_imp, not_not] at held
    obtain ⟨kind, opened, unset, control, deleted⟩ := held
    refine ⟨fd, call.pAllocPriv, ?_, deleted⟩
    have target : (s.setHandle fd ((s.handles fd).addMappingContextToFile call).1).handles fd =
        { s.handles fd with fMmapContext := call.context } := by
      simp [State.setHandle, NvHaikuBaseDeviceHandle.addMappingContextToFile, opened, unset,
        control, AddCall.context]
    rw [target]
    exact ⟨kind, opened, AddCall.context_valid, by simp [AddCall.context, control]⟩
  | allocPages | map | close => exact absurd trivial held

/-- `NV_HAIKU_MAP` of a handle that holds a deleted allocation reads it. -/
theorem State.canBreak_of_holds_deleted (holds : (s.handles fd).Holds priv)
    (deleted : s.allocs priv = .deleted) : (calls κ).CanBreak FreesUnheld ReadsUndeleted s := by
  have taken : (calls κ).step s (.map fd plainRequest) s := rfl
  refine .now taken trivial fun reads => ?_
  exact reads fd plainRequest rfl priv _
    (NvHaikuBaseDeviceHandle.mapping_of_holds holds plainRequest_wellFormed) deleted

/-- Use after free over whole runs: `NV_HAIKU_MAP` reads no deleted allocation just when
none is deleted that a handle holds, and none is given to a handle that is deleted. -/
theorem readsUndeleted_exactlyWhen_freesUnheld (κ : Type*) [DecidableEq κ] :
    (calls κ).SafeExactlyWhen FreesUnheld ReadsUndeleted := by
  apply SafeExactlyWhen.of_invariant (P := State.Sound)
  · intro s fresh fd priv _ deleted
    rw [fresh.1] at deleted
    cases deleted
  · intro s a t sound taken unheld
    exact ⟨sound.step taken unheld, sound.readsUndeleted⟩
  · intro s a t _ taken held
    obtain ⟨fd, priv, holds, deleted⟩ := State.holds_deleted_of_step taken held
    exact Or.inr (State.canBreak_of_holds_deleted holds deleted)

/-- An allocation is recorded in a handle and freed, and the handle is mapped. -/
theorem reads_deleted : ∃ past s, (calls Unit).Run past s ∧
    ¬ Every ReadsUndeleted past := by
  have fresh : (calls Unit).start { handles := fun _ => { nv := .control 1 } } :=
    ⟨rfl, fun _ => ⟨rfl, rfl⟩⟩
  have run := (Run.start fresh).play
    [.allocPages ⟨.cached, some 8, 3, 0x1000⟩,
    .addMappingContext ()
      { nv := .control 1, nvuap := { ranges := [] }, pAllocPriv := 8, memory := none },
    .freePages 8, .map () plainRequest] rfl
  refine ⟨_, _, run, fun every => ?_⟩
  exact every _ (.head _) () plainRequest rfl 8 0 rfl rfl

end NvidiaHaiku.BaseDevice

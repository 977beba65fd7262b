/-
# Replenishing the pool

`Maintain` empties the reclaim group and fills the four groups, one after another.
A call that finds another one in progress returns at once, and leaves its work to
that one. The one in progress looks again at what it has not finished with: the
reclaim group until it has found it empty, and after that the group it is filling
and the groups behind it. What is freed or allocated elsewhere in the meantime it
misses, and nothing makes up for it if the calls that follow are turned away.

So maintenance is complete as long as a call that is turned away finds nothing that
the one in progress has missed. The first call that does find something missed can be
followed to a state in which all calls have returned and the pool is not replenished.
-/

import Mathlib.Algebra.Order.BigOperators.Group.Finset
import Mathlib.Data.Set.Finite.Basic
import NvidiaHaiku.IntrSafePool.Custody

namespace NvidiaHaiku.IntrSafePool

open NvidiaHaiku.Math TransitionSystem

/-- Everything is as `Maintain` is to leave it, but for the groups in `groups`. -/
structure Filled (pool : Pool) (groups : List (Fin kGroupCount)) : Prop where
  reclaim : pool.fReclaimGroup.count = 0
  full : ∀ i, i ∉ groups → (pool.fGroups i).count = kGroupMaxItemCount

/-- The reclaim group is empty, and all groups are full. -/
def Replenished (pool : Pool) : Prop :=
  pool.fReclaimGroup.count = 0 ∧ ∀ i, (pool.fGroups i).count = kGroupMaxItemCount

/-- What the suspended `Maintain` will not look at again is as it is to be. -/
def Pc.Covers (pool : Pool) : Pc → Prop
  | maintainFree _ | maintainFreed => True
  | maintainCalloc i rest _ | maintainStore i rest _ _ => Filled pool (i :: rest)
  | reclaimFree .. | reclaimFreed _ => True

namespace Pool

variable {pool : Pool}

/-- The same of a call that may have returned, and will not look at anything again then. -/
def Covered (pool : Pool) : (call : Option Pc) → Prop
  | none => Replenished pool
  | some pc => pc.Covers pool

theorem filled_nil : Filled pool [] ↔ Replenished pool :=
  ⟨fun filled => ⟨filled.reclaim, fun i => filled.full i List.not_mem_nil⟩,
    fun replenished => ⟨replenished.1, fun i _ => replenished.2 i⟩⟩

/-- A group that is full need not be looked at. -/
theorem filled_cons {i : Fin kGroupCount} {rest : List (Fin kGroupCount)}
    (full : (pool.fGroups i).count = kGroupMaxItemCount) :
    Filled pool (i :: rest) ↔ Filled pool rest := by
  constructor
  · intro filled
    refine ⟨filled.reclaim, fun j outside => ?_⟩
    by_cases same : j = i
    · rw [same, full]
    · exact filled.full j (List.mem_cons.not.mpr (not_or.mpr ⟨same, outside⟩))
  · intro filled
    exact ⟨filled.reclaim, fun j outside => filled.full j (List.not_mem_of_not_mem_cons outside)⟩

/-- The counts are all that matters. -/
theorem filled_congr {pool' : Pool} {groups : List (Fin kGroupCount)}
    (reclaim : pool'.fReclaimGroup.count = pool.fReclaimGroup.count)
    (same : ∀ i, i ∉ groups → (pool'.fGroups i).count = (pool.fGroups i).count) :
    Filled pool' groups ↔ Filled pool groups := by
  constructor
  · intro filled
    exact ⟨reclaim ▸ filled.reclaim, fun i outside => same i outside ▸ filled.full i outside⟩
  · intro filled
    exact ⟨reclaim.trans filled.reclaim, fun i outside =>
      (same i outside).trans (filled.full i outside)⟩

/-- The refill loops cover what they were to cover. -/
theorem maintainRefill_covered (bounded : pool.Bounded) (groups : List (Fin kGroupCount))
    (size : ℕ) :
    Covered (pool.maintainRefill groups size).1 (pool.maintainRefill groups size).2 ↔
      Filled pool groups := by
  induction groups generalizing size with
  | nil => exact filled_nil.symm.trans (filled_congr rfl fun _ _ => rfl)
  | cons i rest ih =>
    by_cases room : (pool.fGroups i).count < kGroupMaxItemCount
    · simp only [maintainRefill, if_pos room]
      rfl
    · have full : (pool.fGroups i).count = kGroupMaxItemCount :=
        le_antisymm (bounded.groups i) (not_lt.mp room)
      simp only [maintainRefill, if_neg room]
      exact (ih (size * 2)).trans (filled_cons full).symm

/-- A `Maintain` that starts over at the reclaim group looks at everything. -/
theorem maintainReclaim_covered (bounded : pool.Bounded) {pool' : Pool} {next : Option Pc}
    (ran : pool.maintainReclaim = .ok (pool', next)) : Covered pool' next := by
  rcases Group.reclaimAll_cases bounded.reclaim with ⟨empty, done⟩ | ⟨ptr, group, taken, -⟩
  · rw [maintainReclaim, done] at ran
    have same := Except.ok.inj ran
    have filled : Filled pool (List.finRange kGroupCount) :=
      ⟨empty, fun i outside => absurd (List.mem_finRange i) outside⟩
    have covered := (maintainRefill_covered bounded _ kMinSize).mpr filled
    rwa [same] at covered
  · rw [maintainReclaim, taken] at ran
    obtain ⟨rfl, rfl⟩ := Prod.mk.inj (Except.ok.inj ran)
    trivial

/-- A `Maintain` that stores a block covers afterwards what it covered before. -/
theorem maintainStore_covered (bounded : pool.Bounded) {i : Fin kGroupCount}
    (room : (pool.fGroups i).count < kGroupMaxItemCount) {rest : List (Fin kGroupCount)}
    {size : ℕ} {ptr : Ptr} {pool' : Pool} {next : Option Pc}
    (ran : pool.maintainStore i rest size ptr = .ok (pool', next)) :
    Covered pool' next ↔ Filled pool (i :: rest) := by
  obtain ⟨group, pushed, popped⟩ := Group.exists_push room ptr
  have stored : { pool with fGroups := Function.update pool.fGroups i group }.Bounded :=
    bounded.update_group i (by rw [← popped.count]; exact room)
  rw [maintainStore, pushed] at ran
  have same := Except.ok.inj ran
  have covered := maintainRefill_covered stored (i :: rest) size
  rw [show maintainRefill _ (i :: rest) size = (pool', next) from same] at covered
  refine covered.trans (filled_congr rfl fun j outside => ?_)
  simp [List.ne_of_not_mem_cons outside]

end Pool

/-! ## One step -/

/-- Only the contents of the groups matter. -/
theorem Pc.covers_congr {pool pool' : Pool} {pc : Pc} (groups : pool'.fGroups = pool.fGroups)
    (reclaim : pool'.fReclaimGroup = pool.fReclaimGroup) : pc.Covers pool' ↔ pc.Covers pool := by
  cases pc with
  | maintainFree | maintainFreed | reclaimFree | reclaimFreed => exact Iff.rfl
  | maintainCalloc | maintainStore =>
    exact Pool.filled_congr (by rw [reclaim]) fun i _ => by rw [groups]

variable {s t : State} {a : Action} {pc : Pc} {past : List (Event State Action)}

/-- No call of `IntrSafePool::ReclaimAll` is in progress. -/
def OnlyMaintain (s : State) : Prop := ∀ pc ∈ s.calls, pc.isMaintain = true

instance (s : State) : Decidable (OnlyMaintain s) :=
  inferInstanceAs (Decidable (∀ pc ∈ s.calls, _))

/-- What the calls in progress will not look at again is as it is to be. -/
def Tended (s : State) : Prop := ∀ call, s.calls = callsWith call 0 → Pool.Covered s.pool call

/-- At most one call is in progress. -/
theorem OnlyMaintain.exists_call (only : OnlyMaintain s) (safe : Safe s) :
    ∃ call, s.calls = callsWith call 0 := by
  have all : s.maintainCalls = s.calls.card := Multiset.countP_eq_card.mpr only
  have single := safe.single
  rcases Nat.eq_zero_or_pos s.calls.card with none | some_
  · exact ⟨Option.none, Multiset.card_eq_zero.mp none⟩
  · obtain ⟨pc, one⟩ := Multiset.card_eq_one.mp (show s.calls.card = 1 by omega)
    exact ⟨some pc, one⟩

theorem callsWith_zero_inj {call call' : Option Pc} :
    callsWith call 0 = callsWith call' 0 ↔ call = call' := by
  cases call <;> cases call' <;> simp [callsWith]

theorem tended_iff (call : Option Pc) (calls : s.calls = callsWith call 0) :
    Tended s ↔ Pool.Covered s.pool call := by
  constructor
  · exact fun tended => tended call calls
  · intro covered call' calls'
    rwa [← callsWith_zero_inj.mp (calls.symm.trans calls')]

/-- A step of the `Maintain` in progress leaves one call or none, and covers what it
covered before. -/
structure OwnStep (pc : Pc) (s t : State) (next : Option Pc) : Prop where
  calls : t.calls = callsWith next 0
  kind : ∀ pc', next = some pc' → pc'.isMaintain = true
  covered : Pool.Covered t.pool next ↔ pc.Covers s.pool

theorem ownStep_of_free {next : Pc} (calls : s.calls = {pc}) (kind : pc.isMaintain = true)
    (moved : pc.afterFree = some next) :
    OwnStep pc s { s.free pc.ptr with calls := next ::ₘ s.calls.erase pc } (some next) := by
  cases pc with
  | maintainFree ptr =>
    obtain rfl := Option.some.inj moved
    exact ⟨by simp [calls], by simp [Pc.isMaintain], Iff.rfl⟩
  | reclaimFree | reclaimFreed => cases kind
  | maintainFreed | maintainCalloc | maintainStore => cases moved

theorem ownStep_of_calloc {next : Pc} {ptr : Ptr} {size : ℕ} {u : State} (calls : s.calls = {pc})
    (kind : pc.isMaintain = true) (moved : pc.afterCalloc ptr = some (size, next))
    (called : s.calloc size ptr = some u) :
    OwnStep pc s { u with calls := next ::ₘ u.calls.erase pc } (some next) := by
  obtain ⟨pool, same, -, -⟩ := calloc_eq_some called
  cases pc with
  | maintainCalloc i rest size' =>
    obtain ⟨-, rfl⟩ := Prod.mk.inj (Option.some.inj moved)
    refine ⟨by simp [same, calls], by simp [Pc.isMaintain], ?_⟩
    show Filled u.pool _ ↔ Filled s.pool _
    rw [pool]
  | reclaimFree | reclaimFreed => cases kind
  | maintainFree | maintainFreed | maintainStore => cases moved

/-- A `Maintain` does not turn into a `ReclaimAll`. -/
theorem isMaintain_of_maintainRefill {pool pool' : Pool} (groups : List (Fin kGroupCount))
    {size : ℕ} {next : Option Pc} (ran : pool.maintainRefill groups size = (pool', next))
    (pc : Pc) (same : next = some pc) : pc.isMaintain = true := by
  induction groups generalizing size with
  | nil =>
    obtain ⟨-, rfl⟩ := Prod.mk.inj ran
    exact nomatch same
  | cons i rest ih =>
    simp only [Pool.maintainRefill] at ran
    split at ran
    · obtain ⟨-, rfl⟩ := Prod.mk.inj ran
      obtain rfl := Option.some.inj same
      rfl
    · exact ih ran

theorem isMaintain_of_maintainReclaim {pool pool' : Pool} {next : Option Pc}
    (ran : pool.maintainReclaim = .ok (pool', next)) (pc : Pc) (same : next = some pc) :
    pc.isMaintain = true := by
  unfold Pool.maintainReclaim at ran
  split at ran
  · exact nomatch ran
  · obtain ⟨-, rfl⟩ := Prod.mk.inj (Except.ok.inj ran)
    obtain rfl := Option.some.inj same
    rfl
  · exact isMaintain_of_maintainRefill _ (Except.ok.inj ran) pc same

theorem ownStep_of_resume (safe : Safe s) (calls : s.calls = {pc}) (kind : pc.isMaintain = true)
    (member : pc ∈ s.calls) {outcome : Except Halt (Pool × Option Pc)}
    (resumed : s.pool.resume pc = some outcome) :
    ∃ next, OwnStep pc s (s.proceed (s.calls.erase pc) outcome) next := by
  obtain ⟨pool, next, rfl, -, -⟩ := Pool.resume_spec safe.bounded (safe.room pc member) resumed
  refine ⟨next, by simp [State.proceed, calls], ?_, ?_⟩
  · -- what is run next is the maintenance again, so only two of the calls matter
    cases pc with
    | maintainFreed => exact isMaintain_of_maintainReclaim (Option.some.inj resumed)
    | maintainStore i rest size ptr =>
      intro pc' same
      obtain ⟨group, pushed, -⟩ := Group.exists_push (safe.room _ member i rfl) ptr
      have ran := Option.some.inj resumed
      rw [Pool.maintainStore, pushed] at ran
      exact isMaintain_of_maintainRefill _ (Except.ok.inj ran) pc' same
    | reclaimFree | reclaimFreed => cases kind
    | maintainFree | maintainCalloc => cases resumed
  · cases pc with
    | maintainFreed =>
      exact iff_of_true (Pool.maintainReclaim_covered safe.bounded (Option.some.inj resumed))
        trivial
    | maintainStore i rest size ptr =>
      exact Pool.maintainStore_covered safe.bounded (safe.room _ member i rfl)
        (Option.some.inj resumed)
    | reclaimFree | reclaimFreed => cases kind
    | maintainFree | maintainCalloc => cases resumed

/-- A `Maintain` that finds none in progress looks at everything. -/
theorem tended_of_maintain_idle (safe : Safe s) (idle : s.calls = 0) :
    OnlyMaintain (s.proceed s.calls s.pool.maintain) ∧
      Tended (s.proceed s.calls s.pool.maintain) := by
  have level : s.pool.fLevel = 0 := by simp [safe.level, State.maintainCalls, idle]
  have bounded : { s.pool with fLevel := s.pool.fLevel + 1 }.Bounded :=
    ⟨safe.bounded.groups, safe.bounded.reclaim⟩
  obtain ⟨pool, next, ran, -⟩ := Pool.maintainReclaim_spec bounded
  have entered : s.pool.maintain = .ok (pool, next) := by
    rw [Pool.maintain, if_neg (by simp [level]), ran]
  have calls : (s.proceed s.calls s.pool.maintain).calls = callsWith next 0 := by
    simp [State.proceed, entered, idle]
  constructor
  · intro pc member
    rw [calls, mem_callsWith] at member
    rcases member with same | member
    · exact isMaintain_of_maintainReclaim ran pc same
    · exact absurd member (Multiset.notMem_zero pc)
  · refine (tended_iff _ calls).mpr ?_
    simpa [State.proceed, entered] using Pool.maintainReclaim_covered bounded ran

/-- A `Maintain` that finds one in progress leaves everything to that one. -/
theorem covered_of_maintain_busy (safe : Safe s) (calls : s.calls = {pc})
    (kind : pc.isMaintain = true) :
    (s.proceed s.calls s.pool.maintain).calls = {pc} ∧
      (Tended (s.proceed s.calls s.pool.maintain) ↔ pc.Covers s.pool) := by
  have one : s.maintainCalls = 1 := by
    rw [State.maintainCalls, calls, Multiset.countP_eq_card.mpr (by simpa using kind),
      Multiset.card_singleton]
  have level : s.pool.fLevel = 1 := by simp [safe.level, one]
  have turned : s.pool.maintain =
      .ok ({ s.pool with fLevel := s.pool.fLevel + 1 - 1 }, none) := by
    rw [Pool.maintain, if_pos (by simp [level])]
  have same : (s.proceed s.calls s.pool.maintain).calls = {pc} := by
    simp [State.proceed, turned, calls]
  refine ⟨same, (tended_iff (some pc) same).trans ?_⟩
  simp only [State.proceed, turned]
  exact Pc.covers_congr rfl rfl

/-- The call goes to the pool, because interrupts are disabled. -/
def Action.usesPool : Action → Bool
  | osAllocMem _ interruptsEnabled _ _ | osFreeMem _ interruptsEnabled _ => !interruptsEnabled
  | maintain | reclaimAll | free _ | calloc .. | resume _ | write .. => false

/-- The action belongs to a call of `Maintain` or `ReclaimAll`. -/
def Action.ofPool : Action → Bool
  | maintain | reclaimAll | free _ | calloc .. | resume _ => true
  | osAllocMem .. | osFreeMem .. | write .. => false

/-- The clients leave the calls alone, and the pool too unless they go to it. -/
theorem same_of_client (taken : s.step a = some t) (client : a.ofPool = false) :
    t.calls = s.calls ∧ (a.usesPool = false → t.pool = s.pool) := by
  cases moves_of_step taken with
  | allocHeap called =>
    obtain ⟨pool, calls, -, -⟩ := calloc_eq_some called
    exact ⟨by simpa using calls, fun _ => by simpa using pool⟩
  | freeHeap => exact ⟨by simp, fun _ => by simp⟩
  | allocHalt | freeHalt | write => exact ⟨rfl, fun _ => rfl⟩
  | allocPool | freePool => exact ⟨by simp, fun heap => by simp [Action.usesPool] at heap⟩
  | maintain | reclaimAll | free | calloc | resume => cases client

/-- The suspended call that the action belongs to. -/
def Action.call : Action → Option Pc
  | free pc | calloc pc _ | resume pc => some pc
  | maintain | reclaimAll | osAllocMem .. | osFreeMem .. | write .. => none

/-- Only a call in progress takes a step. -/
theorem mem_of_call (taken : s.step a = some t) (call : a.call = some pc) : pc ∈ s.calls := by
  cases moves_of_step taken with
  | free member | calloc member | resume member =>
    obtain rfl := Option.some.inj call
    exact member
  | maintain | reclaimAll | allocHeap | allocHalt | allocPool | freeHeap | freeHalt | freePool
  | write => cases call

theorem ownStep_of_call (safe : Safe s) (calls : s.calls = {pc}) (kind : pc.isMaintain = true)
    (taken : s.step a = some t) (call : a.call = some pc) : ∃ next, OwnStep pc s t next := by
  cases moves_of_step taken with
  | free member moved =>
    obtain rfl := Option.some.inj call
    exact ⟨_, ownStep_of_free calls kind moved⟩
  | calloc member moved called =>
    obtain rfl := Option.some.inj call
    exact ⟨_, ownStep_of_calloc calls kind moved called⟩
  | resume member resumed =>
    obtain rfl := Option.some.inj call
    exact ownStep_of_resume safe calls kind member resumed
  | maintain | reclaimAll | allocHeap | allocHalt | allocPool | freeHeap | freeHalt | freePool
  | write => cases call

/-! ## Whole runs -/

/-- A Maintain that is turned away finds that the one in progress has missed nothing. -/
def NothingMissed (e : Event State Action) : Prop :=
  e.action = .maintain → ∀ pc ∈ e.source.calls, pc.isMaintain = true → pc.Covers e.source.pool

/-- A call of `Maintain` has begun, and one has begun after every call that went to the pool. -/
def Followed (past : List (Event State Action)) : Prop :=
  (∃ e ∈ past, e.action = .maintain) ∧
    ∀ later e earlier, past = later ++ e :: earlier → e.action.usesPool = true →
      ∃ e' ∈ later, e'.action = .maintain

theorem followed_cons {e : Event State Action} :
    Followed (e :: past) ↔
      e.action = .maintain ∨ e.action.usesPool = false ∧ Followed past := by
  constructor
  · rintro ⟨⟨m, member, begins⟩, each⟩
    by_cases maintains : e.action = .maintain
    · exact Or.inl maintains
    · have unused : e.action.usesPool = false := by
        apply Bool.eq_false_iff.mpr
        intro uses
        -- the last event may not use the pool, as no `Maintain` comes after it
        obtain ⟨m, member, -⟩ := each [] e past rfl uses
        exact nomatch member
      refine Or.inr ⟨unused, ⟨m, ?_, begins⟩, ?_⟩
      · rcases List.mem_cons.mp member with rfl | earlier
        · exact absurd begins maintains
        · exact earlier
      · rintro later e' earlier rfl uses
        obtain ⟨m, member, begins⟩ := each (e :: later) e' earlier rfl uses
        rcases List.mem_cons.mp member with rfl | before
        · exact absurd begins maintains
        · exact ⟨m, before, begins⟩
  · rintro (maintains | ⟨unused, ⟨m, member, begins⟩, each⟩)
    · refine ⟨⟨e, .head _, maintains⟩, ?_⟩
      intro later e' earlier same uses
      -- the event is the new one, which does not use the pool, or an earlier one
      cases later with
      | nil =>
        obtain ⟨rfl, -⟩ := List.cons.inj same
        simp [maintains, Action.usesPool] at uses
      | cons last later =>
        obtain ⟨rfl, -⟩ := List.cons.inj same
        exact ⟨e, .head _, maintains⟩
    · refine ⟨⟨m, .tail _ member, begins⟩, ?_⟩
      intro later e' earlier same uses
      cases later with
      | nil =>
        obtain ⟨rfl, -⟩ := List.cons.inj same
        simp [unused] at uses
      | cons last later =>
        obtain ⟨rfl, rest⟩ := List.cons.inj same
        obtain ⟨m, member, begins⟩ := each later e' earlier rest uses
        exact ⟨m, .tail _ member, begins⟩

/-- What a step can do while no `ReclaimAll` runs: a `Maintain` starts, with none or one in
progress; the one in progress takes a step of its own; or a client does something. -/
inductive Tends (s : State) : Action → State → Prop
  | maintain {t : State} (idle : s.calls = 0) (only : OnlyMaintain t) (tended : Tended t) :
      Tends s .maintain t
  | turnedAway {t : State} (pc : Pc) (before : s.calls = {pc}) (after : t.calls = {pc})
      (tended : Tended t ↔ pc.Covers s.pool) : Tends s .maintain t
  | own {t : State} {a : Action} (pc : Pc) (next : Option Pc) (call : a.call = some pc)
      (before : s.calls = {pc}) (step : OwnStep pc s t next) : Tends s a t
  | client {t : State} {a : Action} (outside : a.ofPool = false) (calls : t.calls = s.calls)
      (pool : a.usesPool = false → t.pool = s.pool) : Tends s a t

theorem tends_of_step (only : OnlyMaintain s) (safe : Safe s) (taken : s.step a = some t)
    (kept : a ≠ .reclaimAll) : Tends s a t := by
  obtain ⟨call, calls⟩ := only.exists_call safe
  cases own : a.call with
  | some pc =>
    have member := mem_of_call taken own
    obtain rfl : call = some pc := by simpa [calls, mem_callsWith] using member
    obtain ⟨next, step⟩ := ownStep_of_call safe calls (only pc member) taken own
    exact .own pc next own calls step
  | none =>
    cases client : a.ofPool with
    | false =>
      obtain ⟨same, pool⟩ := same_of_client taken client
      exact .client client same pool
    | true =>
      cases moves_of_step taken with
      | maintain =>
        -- a second `Maintain` is turned away at `fLevel` and changes nothing
        cases call with
        | none =>
          obtain ⟨only, tended⟩ := tended_of_maintain_idle safe calls
          exact .maintain calls only tended
        | some pc =>
          have kind := only pc (by simp [calls])
          obtain ⟨after, tended⟩ := covered_of_maintain_busy safe calls kind
          exact .turnedAway pc calls after tended
      | reclaimAll => exact absurd rfl kept
      | free | calloc | resume => cases own
      | allocHeap | allocHalt | allocPool | freeHeap | freeHalt | freePool | write => cases client

theorem Tends.onlyMaintain (tends : Tends s a t) (only : OnlyMaintain s) : OnlyMaintain t := by
  cases tends with
  | maintain _ only _ => exact only
  | turnedAway pc before after _ => rwa [OnlyMaintain, after, ← before]
  | own pc next _ _ step =>
    intro pc' member
    rw [step.calls, mem_callsWith] at member
    rcases member with same | member
    · exact step.kind pc' same
    · exact absurd member (Multiset.notMem_zero pc')
  | client _ calls _ => rwa [OnlyMaintain, calls]

/-- A step of the `Maintain` in progress neither mends nor breaks what it has left. -/
theorem tended_iff_of_own {next : Option Pc} (before : s.calls = {pc})
    (step : OwnStep pc s t next) : Tended t ↔ Tended s := by
  rw [tended_iff _ step.calls, step.covered]
  exact (tended_iff (some pc) before).symm

theorem Tends.tended (tends : Tends s a t) (only : OnlyMaintain s)
    (missed : NothingMissed ⟨s, a, t⟩) (used : a = .maintain ∨ a.usesPool = false ∧ Tended s) :
    Tended t := by
  cases tends with
  | maintain _ _ tended => exact tended
  | turnedAway pc before _ tended =>
    have member : pc ∈ s.calls := by simp [before]
    exact tended.mpr (missed rfl pc member (only pc member))
  | own pc next call before step =>
    rcases used with rfl | ⟨-, tended⟩
    · exact nomatch call
    · exact (tended_iff_of_own before step).mpr tended
  | client outside calls pool =>
    rcases used with rfl | ⟨unused, tended⟩
    · exact nomatch outside
    · rw [Tended, calls, pool unused]
      exact tended

/-- As long as nothing is missed, what has been followed up is tended to. -/
theorem tended_of_run (run : allocator.Run past s)
    (kept : Every (fun e => e.action ≠ .reclaimAll) past) (missed : Every NothingMissed past) :
    OnlyMaintain s ∧ (Followed past → Tended s) := by
  induction run with
  | start first =>
    obtain rfl : _ = initial := first
    refine ⟨fun pc member => absurd member (Multiset.notMem_zero pc), ?_⟩
    rintro ⟨⟨e, member, -⟩, -⟩
    exact nomatch member
  | @step past s t a run taken ih =>
    obtain ⟨only, tended⟩ := ih (every_cons.mp kept).2 (every_cons.mp missed).2
    have tends := tends_of_step only (safe_of_reachable run.reachable) taken (every_cons.mp kept).1
    refine ⟨tends.onlyMaintain only, fun followed => ?_⟩
    apply tends.tended only (every_cons.mp missed).1
    exact (followed_cons.mp followed).imp_right (And.imp_right tended)

/-- Once the calls have returned, to be tended to is to be replenished. -/
theorem tended_iff_replenished (only : OnlyMaintain s) (idle : s.maintainCalls = 0) :
    Tended s ↔ Replenished s.pool := by
  rw [State.maintainCalls, Multiset.countP_eq_card.mpr only] at idle
  exact tended_iff none (Multiset.card_eq_zero.mp idle)

/-- A `Maintain` does not panic. -/
theorem running_of_maintain (safe : Safe s) (taken : s.step .maintain = some t) :
    t.halted = none := by
  have running := running_of_step taken
  cases moves_of_step taken with
  | maintain =>
    obtain ⟨pool, next, ran, -⟩ := Pool.maintain_spec safe.bounded
    simpa [State.proceed, ran] using running

/-! ## A call in progress can finish -/

/-- The action is a step of a suspended call, whose `calloc`, if it is one, does not fail. -/
def Proceeds (e : Event State Action) : Prop :=
  ∃ pc, e.action = .free pc ∨ (∃ block, e.action = .calloc pc (some block)) ∨
    e.action = .resume pc

namespace Pool

/-- How many blocks `Maintain` would have to free and to obtain. -/
def work (pool : Pool) : ℕ :=
  pool.fReclaimGroup.count + ∑ i, (kGroupMaxItemCount - (pool.fGroups i).count)

/-- How far the call is from its next change of the pool. -/
def stage : Option Pc → ℕ
  | some (.maintainFree _) => 6
  | some .maintainFreed => 5
  | some (.maintainCalloc ..) => 2
  | some (.maintainStore ..) => 1
  | some (.reclaimFree ..) | some (.reclaimFreed _) | none => 0

/-- What is left of a `Maintain`. -/
def left (pool : Pool) (call : Option Pc) : ℕ := 2 * pool.work + stage call

variable {pool pool' : Pool} {next : Option Pc}

theorem maintainRefill_left (groups : List (Fin kGroupCount)) {size : ℕ}
    (ran : pool.maintainRefill groups size = (pool', next)) :
    pool'.left next ≤ 2 * pool.work + 2 := by
  induction groups generalizing size with
  | nil =>
    obtain ⟨rfl, rfl⟩ := Prod.mk.inj ran
    exact Nat.le_add_right _ 2
  | cons i rest ih =>
    simp only [maintainRefill] at ran
    split at ran
    · obtain ⟨rfl, rfl⟩ := Prod.mk.inj ran
      exact le_rfl
    · exact ih ran

theorem maintainReclaim_left (bounded : pool.Bounded)
    (ran : pool.maintainReclaim = .ok (pool', next)) :
    pool'.left next < pool.left (some .maintainFreed) := by
  rcases Group.reclaimAll_cases bounded.reclaim with ⟨-, done⟩ | ⟨ptr, group, taken, popped⟩
  · rw [maintainReclaim, done] at ran
    have refilled := maintainRefill_left _ (Except.ok.inj ran)
    simp only [left, stage] at refilled ⊢
    omega
  · rw [maintainReclaim, taken] at ran
    obtain ⟨rfl, rfl⟩ := Prod.mk.inj (Except.ok.inj ran)
    have fewer := popped.count
    simp only [left, stage, work]
    omega

theorem maintainStore_left {i : Fin kGroupCount}
    (room : (pool.fGroups i).count < kGroupMaxItemCount) {rest : List (Fin kGroupCount)}
    {size : ℕ} {ptr : Ptr} (ran : pool.maintainStore i rest size ptr = .ok (pool', next)) :
    pool'.left next < pool.left (some (.maintainStore i rest size ptr)) := by
  obtain ⟨group, pushed, popped⟩ := Group.exists_push room ptr
  rw [maintainStore, pushed] at ran
  have refilled := maintainRefill_left (i :: rest) (Except.ok.inj ran)
  have more := popped.count
  -- the group that is stored into has less room than before
  have less : ∑ j, (kGroupMaxItemCount - (Function.update pool.fGroups i group j).count) <
      ∑ j, (kGroupMaxItemCount - (pool.fGroups j).count) := by
    refine Finset.sum_lt_sum (fun j _ => ?_) ⟨i, Finset.mem_univ i, ?_⟩
    · by_cases same : j = i
      · subst same
        simp only [Function.update_self]
        omega
      · simp [same]
    · simp only [Function.update_self]
      omega
  simp only [left, stage, work] at refilled ⊢
  omega

end Pool

/-! ### The heap always has a block to give -/

theorem finite_of_calloc {size : ℕ} {ptr : Ptr} (finite : s.allocated.Finite)
    (ran : s.calloc size ptr = some t) : t.allocated.Finite := by
  rcases calloc_cases ran with ⟨-, rfl⟩ | ⟨block, -, -, rfl⟩
  · exact finite
  · rw [State.allocated, allocated_insert]
    exact finite.insert block

theorem finite_of_free (finite : s.allocated.Finite) (ptr : Ptr) :
    (s.free ptr).allocated.Finite := by
  cases ptr with
  | none => exact finite
  | some block =>
    simp only [State.free]
    split
    · rw [State.allocated, allocated_remove]
      exact finite.subset Set.sdiff_subset
    · exact finite

theorem finite_of_hand (finite : s.allocated.Finite) (client : Client) (ptr : Ptr) :
    (s.hand client ptr).allocated.Finite := by
  cases ptr with
  | none => exact finite
  | some block =>
    rw [State.hand, State.allocated, allocated_modify]
    exact finite

theorem finite_of_surrender (finite : s.allocated.Finite) (client : Client) (ptr : Ptr) :
    (s.surrender client ptr).allocated.Finite := by
  cases ptr <;> exact finite

theorem finite_of_proceed (finite : s.allocated.Finite) (rest : Multiset Pc)
    (outcome : Except Halt (Pool × Option Pc)) : (s.proceed rest outcome).allocated.Finite := by
  cases outcome <;> exact finite

theorem finite_of_step (finite : s.allocated.Finite) (taken : s.step a = some t) :
    t.allocated.Finite := by
  cases moves_of_step taken with
  | maintain | reclaimAll | resume => exact finite_of_proceed finite _ _
  | free => exact finite_of_free finite _
  | calloc member moved called =>
    have allocated := finite_of_calloc finite called
    exact allocated
  | allocHeap called => exact finite_of_hand (finite_of_calloc finite called) _ _
  | freeHeap => exact finite_of_surrender (finite_of_free finite _) _ _
  | allocHalt | freeHalt => exact finite
  | allocPool =>
    apply finite_of_hand
    exact finite
  | freePool =>
    apply finite_of_surrender
    exact finite
  | write =>
    rw [State.allocated, allocated_modify]
    exact finite

theorem finite_of_reachable (reached : allocator.Reachable s) : s.allocated.Finite := by
  apply reached.invariant (P := fun s => s.allocated.Finite)
  · rintro s rfl
    have empty : initial.allocated = ∅ := by simp [State.allocated, initial]
    exact empty ▸ Set.finite_empty
  · exact fun s a t finite taken => finite_of_step finite taken

/-- The suspended `Maintain` can take a step of its own, which leaves less to do. -/
theorem exists_proceed (safe : Safe s) (finite : s.allocated.Finite) (running : s.halted = none)
    (calls : s.calls = {pc}) (kind : pc.isMaintain = true) :
    ∃ a t next, s.step a = some t ∧ a.call = some pc ∧ Proceeds ⟨s, a, t⟩ ∧ t.halted = none ∧
      t.calls = callsWith next 0 ∧ t.pool.left next < s.pool.left (some pc) := by
  have member : pc ∈ s.calls := by simp [calls]
  cases pc with
  | maintainFree ptr =>
    refine ⟨.free (.maintainFree ptr), { s.free ptr with
      calls := .maintainFreed ::ₘ s.calls.erase (.maintainFree ptr) }, some .maintainFreed,
      ?_, rfl, ⟨_, Or.inl rfl⟩, by simpa using running, by simp [calls], ?_⟩
    · simp [State.step, running, member, Pc.afterFree, Pc.ptr]
    · simp [Pool.left, Pool.stage]
  | maintainCalloc i rest size =>
    -- only finitely many blocks are allocated, so `calloc` can return one
    obtain ⟨block, unused⟩ := finite.exists_notMem
    have absent : s.heap block = none := by simpa [State.allocated] using unused
    refine ⟨.calloc (.maintainCalloc i rest size) (some block), { s with
      heap := Function.update s.heap block (some (.zeroed size))
      calls := .maintainStore i rest size (some block) ::ₘ
        s.calls.erase (.maintainCalloc i rest size) },
      some (.maintainStore i rest size (some block)), ?_, rfl,
      ⟨_, Or.inr (Or.inl ⟨block, rfl⟩)⟩, running, by simp [calls], ?_⟩
    · simp [State.step, running, member, Pc.afterCalloc, State.calloc, absent]
    · simp [Pool.left, Pool.stage]
  | maintainFreed =>
    obtain ⟨pool, next, ran, -⟩ := Pool.maintainReclaim_spec safe.bounded
    refine ⟨.resume .maintainFreed, { s with pool := pool, calls := callsWith next 0 }, next, ?_,
      rfl, ⟨_, Or.inr (Or.inr rfl)⟩, running, rfl, Pool.maintainReclaim_left safe.bounded ran⟩
    simp [State.step, running, Pool.resume, ran, State.proceed, calls]
  | maintainStore i rest size ptr =>
    have room := safe.room _ member i rfl
    obtain ⟨pool, next, ran, -⟩ := Pool.maintainStore_spec safe.bounded room rest size ptr
    refine ⟨.resume (.maintainStore i rest size ptr), { s with
      pool := pool, calls := callsWith next 0 }, next, ?_, rfl, ⟨_, Or.inr (Or.inr rfl)⟩, running,
      rfl, Pool.maintainStore_left room ran⟩
    simp [State.step, running, Pool.resume, ran, State.proceed, calls]
  | reclaimFree | reclaimFreed => cases kind

/-- What is left of the calls in progress. -/
def State.left (s : State) : ℕ :=
  2 * s.pool.work + (s.calls.map fun pc => Pool.stage (some pc)).sum

theorem left_eq (call : Option Pc) (calls : s.calls = callsWith call 0) :
    s.left = s.pool.left call := by
  cases call <;> simp [State.left, Pool.left, calls, Pool.stage]

theorem Proceeds.outside {e : Event State Action} (proceeds : Proceeds e) :
    e.action ≠ .maintain ∧ e.action ≠ .reclaimAll ∧ e.action.usesPool = false := by
  obtain ⟨pc, free | ⟨block, calloc⟩ | resume⟩ := proceeds
  · simp [free, Action.usesPool]
  · simp [calloc, Action.usesPool]
  · simp [resume, Action.usesPool]

/-- What holds while the `Maintain` in progress takes its steps; `P` is whether it has missed
nothing. -/
structure Finishing (P : Prop) (s : State) : Prop where
  safe : Safe s
  finite : s.allocated.Finite
  running : s.halted = none
  only : OnlyMaintain s
  tended : Tended s ↔ P

theorem Finishing.progress {P : Prop} (finishing : Finishing P s) (busy : s.calls ≠ 0) :
    ∃ a t, allocator.step s a t ∧ Proceeds ⟨s, a, t⟩ ∧ Finishing P t ∧ t.left < s.left := by
  obtain ⟨safe, finite, running, only, tended⟩ := finishing
  obtain ⟨call, calls⟩ := only.exists_call safe
  cases call with
  | none => exact absurd calls busy
  | some pc =>
    have kind := only pc (by simp [calls])
    obtain ⟨a, t, next, taken, own, proceeds, running, calls', less⟩ :=
      exists_proceed safe finite running calls kind
    have tends := tends_of_step only safe taken proceeds.outside.2.1
    obtain ⟨next', step⟩ := ownStep_of_call safe calls kind taken own
    refine ⟨a, t, taken, proceeds, ⟨safe.step taken, finite_of_step finite taken, running,
      tends.onlyMaintain only, (tended_iff_of_own calls step).trans tended⟩, ?_⟩
    rwa [left_eq _ calls', left_eq (some pc) calls]

/-- The calls in progress can finish by themselves, and leave behind what they have missed. -/
theorem exists_finish (reached : allocator.Reachable s) (only : OnlyMaintain s)
    (running : s.halted = none) : ∃ later t, (allocator.after s).Run later t ∧
      Every Proceeds later ∧ t.maintainCalls = 0 ∧ (Tended s ↔ Replenished t.pool) := by
  have start : Finishing (Tended s) s :=
    ⟨safe_of_reachable reached, finite_of_reachable reached, running, only, Iff.rfl⟩
  obtain ⟨later, t, run, proceeds, finishing, done⟩ :=
    exists_run_of_measure (D := fun t => t.calls = 0) State.left
      (fun _ finishing busy => finishing.progress busy) start
  have idle : t.maintainCalls = 0 := by simp [State.maintainCalls, done]
  exact ⟨later, t, run, proceeds, idle,
    finishing.tended.symm.trans (tended_iff_replenished finishing.only idle)⟩

theorem followed_append {later : List (Event State Action)} (followed : Followed past)
    (proceeds : Every Proceeds later) : Followed (later ++ past) := by
  induction later with
  | nil => exact followed
  | cons e later ih =>
    obtain ⟨last, earlier⟩ := every_cons.mp proceeds
    exact followed_cons.mpr (Or.inr ⟨last.outside.2.2, ih earlier⟩)

/-- Replenishment over whole runs without `ReclaimAll`. As long as no call of `Maintain` is
turned away by one that has missed something, a state in which all calls have returned and
every call that went to the pool has been followed by a `Maintain` has all groups full and
nothing to reclaim. The first call that is turned away by one that has missed something can
be followed to such a state that is not replenished, by steps of the one in progress. -/
theorem replenished_of_nothingMissed (run : allocator.Run past s)
    (kept : Every (fun e => e.action ≠ .reclaimAll) past) (missed : Every NothingMissed past) :
    (Followed past → s.maintainCalls = 0 → Replenished s.pool) ∧
      ∀ t, s.step .maintain = some t → ¬ NothingMissed ⟨s, .maintain, t⟩ →
        ∃ later u, allocator.Run (later ++ ⟨s, .maintain, t⟩ :: past) u ∧ Every Proceeds later ∧
          Followed (later ++ ⟨s, .maintain, t⟩ :: past) ∧ u.maintainCalls = 0 ∧
          ¬ Replenished u.pool := by
  obtain ⟨only, tended⟩ := tended_of_run run kept missed
  refine ⟨fun followed idle => (tended_iff_replenished only idle).mp (tended followed),
    fun t taken fails => ?_⟩
  have safe := safe_of_reachable run.reachable
  have next : allocator.Run (⟨s, .maintain, t⟩ :: past) t := run.step taken
  have tends := tends_of_step only safe taken nofun
  -- the call is turned away, and the one in progress has missed something
  have untended : ¬ Tended t := by
    cases tends with
    | maintain idle => exact absurd (fun _ pc member => by simp [idle] at member) fails
    | turnedAway pc before _ tended =>
      intro held
      refine fails fun _ pc' member _ => ?_
      obtain rfl : pc' = pc := by simpa [before] using member
      exact tended.mp held
    | own _ _ call => exact nomatch call
    | client outside => exact nomatch outside
  obtain ⟨later, u, more, proceeds, idle, same⟩ :=
    exists_finish next.reachable (tends.onlyMaintain only) (running_of_maintain safe taken)
  refine ⟨later, u, next.append more, proceeds,
    followed_append (followed_cons.mpr (Or.inl rfl)) proceeds, idle,
    fun replenished => untended (same.mpr replenished)⟩

/-- The first `Maintain`, with nobody else around, fills the pool. -/
theorem replenished_first : ∃ past s, allocator.Run past s ∧ s.maintainCalls = 0 ∧
    Replenished s.pool := by
  have started := (Run.start (T := allocator) (s := initial) rfl).play [.maintain] rfl
  obtain ⟨later, u, more, proceeds, idle, -⟩ :=
    exists_finish started.reachable (by decide) rfl
  have run := started.append more
  have kept := proceeds.mono fun e proceeds => proceeds.outside.2.1
  have missed : Every NothingMissed later :=
    proceeds.mono fun e proceeds maintains => absurd maintains proceeds.outside.1
  refine ⟨_, u, run, idle, (replenished_of_nothingMissed run ?_ ?_).1 ?_ idle⟩
  · exact every_append.mpr ⟨kept, every_cons.mpr ⟨nofun, every_nil⟩⟩
  · refine every_append.mpr ⟨missed, every_cons.mpr ⟨fun _ pc member => ?_, every_nil⟩⟩
    exact absurd member (Multiset.notMem_zero pc)
  · exact followed_append (followed_cons.mpr (Or.inl rfl)) proceeds

/-- While `Maintain` is obtaining a block for the first group, a client frees a block with
interrupts disabled. The `Maintain` after that is turned away, and the block is not freed
when the first one returns. -/
theorem not_replenished_freed : ∃ past s, allocator.Run past s ∧
    Every (fun e => e.action ≠ .reclaimAll) past ∧ Followed past ∧ s.maintainCalls = 0 ∧
    ¬ Replenished s.pool := by
  have run := (Run.start (T := allocator) (s := initial) rfl).play
    [.osAllocMem 0 true 16 (some 7), .maintain, .osFreeMem 0 false (some 7), .maintain] rfl
  obtain ⟨later, u, more, proceeds, idle, same⟩ := exists_finish run.reachable (by decide) rfl
  have kept := proceeds.mono fun e proceeds => proceeds.outside.2.1
  refine ⟨_, u, run.append more, every_append.mpr ⟨kept, ?_⟩,
    followed_append (followed_cons.mpr (Or.inl rfl)) proceeds, idle, fun replenished => ?_⟩
  · exact every_cons.mpr ⟨nofun, every_cons.mpr ⟨nofun, every_cons.mpr ⟨nofun,
      every_cons.mpr ⟨nofun, every_nil⟩⟩⟩⟩
  · have covered := same.mpr replenished (some (.maintainCalloc 0 [1, 2, 3] 16)) rfl
    exact absurd (show Filled _ _ from covered).reclaim (by decide)

end NvidiaHaiku.IntrSafePool

/-
# The two-path allocator is a heap

The clients of `os_alloc_mem` and `os_free_mem` see one heap. That there are two
ways through each call, that a block may come from a group filled long before, or
wait in `fReclaimGroup` until a `Maintain` gives it back, and that these calls
run in windows of each other, is hidden from them: what they observe is a history
of `BlockStore.heap`, for as long as they free only what they possess.

The simulation relates a state to the blocks in the hands of its clients. The
calls of the pool are silent steps, because they touch no such block.
-/

import NvidiaHaiku.IntrSafePool.Capacity
import NvidiaHaiku.Math.BlockStore
import Mathlib.Data.BitVec

namespace NvidiaHaiku.IntrSafePool

open NvidiaHaiku.Math TransitionSystem

/-- What the clients see. -/
abbrev ClientHeap := BlockStore Client Block (BitVec 8)

/-- The call of a client that has returned in a step. -/
def observe (e : Event State Action) : Option (HeapCall Client Block (BitVec 8)) :=
  -- a call that panics does not return
  if e.target.halted.isSome then none
  else match e.action with
    | .osAllocMem client _ size ptr => some (.alloc client size ptr)
    | .osFreeMem client _ ptr => some (.free client ptr)
    | .write client block bytes => some (.write client block bytes)
    | .maintain | .reclaimAll | .free _ | .calloc .. | .resume _ => none

/-- A call of `os_free_mem` that returns has been given what its client possesses. -/
def Proper (e : Event State Action) : Prop := e.target.halted = none → Disciplined e

/-- The store holds the blocks in the hands of the clients, with their contents. -/
def Represents (s : State) (store : ClientHeap) : Prop :=
  ∀ client block bytes, store block = some (client, bytes) ↔
    (client, block) ∈ s.owned ∧ ∃ cell, s.heap block = some cell ∧ cell.bytes = bytes

variable {s t : State} {a : Action} {client : Client} {block : Block} {ptr : Ptr} {size : ℕ}
  {store : ClientHeap}

theorem Represents.unused (represents : Represents s store)
    (unowned : ∀ client, (client, block) ∉ s.owned) : store block = none := by
  cases present : store block with
  | none => rfl
  | some entry => exact absurd ((represents entry.1 block entry.2).mp present).1 (unowned _)

theorem Accounted.cell_of_owned (accounted : Accounted s) (owned : (client, block) ∈ s.owned) :
    ∃ cell, s.heap block = some cell := by
  have held : block ∈ s.places := by
    rw [places_of_owned owned]
    exact Multiset.mem_cons_self _ _
  exact Option.isSome_iff_exists.mp (accounted.exact.live_of_mem held)

theorem Accounted.nodup_inHands (accounted : Accounted s) : (s.owned.map Prod.snd).Nodup := by
  have nodup := accounted.exact.nodup
  rw [State.places, Multiset.nodup_add] at nodup
  exact nodup.2.1

/-- A block is in the hands of one client. -/
theorem Accounted.owner_unique (accounted : Accounted s) {other : Client}
    (owned : (client, block) ∈ s.owned) (same : (other, block) ∈ s.owned) : other = client :=
  congrArg Prod.fst (Multiset.inj_on_of_nodup_map accounted.nodup_inHands _ same _ owned rfl)

/-! ## Steps no client sees -/

/-- What the clients possess stays with them and unchanged. -/
structure Unseen (s t : State) : Prop where
  owned : t.owned = s.owned
  heap : ∀ client block, (client, block) ∈ s.owned → t.heap block = s.heap block

theorem Represents.unseen (represents : Represents s store) (unseen : Unseen s t) :
    Represents t store := by
  intro client block bytes
  rw [represents, unseen.owned]
  refine and_congr_right fun owned => ?_
  rw [unseen.heap client block owned]

theorem unseen_refl (s : State) : Unseen s s := ⟨rfl, fun _ _ _ => rfl⟩

theorem unseen_proceed (s : State) (rest : Multiset Pc) (outcome : Except Halt (Pool × Option Pc)) :
    Unseen s (s.proceed rest outcome) := by
  cases outcome <;> exact ⟨rfl, fun _ _ _ => rfl⟩

/-- A call that frees what it holds does not free what a client holds. -/
theorem Accounted.unseen_free (accounted : Accounted s) {pc next : Pc} (member : pc ∈ s.calls) :
    Unseen s { s.free pc.ptr with calls := next ::ₘ s.calls.erase pc } := by
  cases loaded : pc.ptr with
  | none => exact ⟨rfl, fun _ _ _ => rfl⟩
  | some freed =>
    have inFlight : freed ∈ s.pool.blocks + inFlight s.calls := by
      refine Multiset.mem_add.mpr (Or.inr (Multiset.mem_bind.mpr ⟨pc, member, ?_⟩))
      rw [loaded]
      exact Multiset.mem_singleton_self freed
    have allocated : freed ∈ s.allocated :=
      accounted.exact.live_of_mem (Multiset.mem_add.mpr (Or.inl inFlight))
    rw [free_of_allocated allocated]
    exact ⟨rfl, fun client block owned =>
      Function.update_of_ne (accounted.ne_of_owned owned inFlight).symm _ _⟩

/-- `calloc` returns no block that a client holds. -/
theorem Accounted.unseen_calloc (accounted : Accounted s) {u : State} {calls : Multiset Pc}
    (called : s.calloc size ptr = some u) : Unseen s { u with calls := calls } := by
  obtain ⟨-, -, -, owned⟩ := calloc_eq_some called
  refine ⟨owned, fun client block held => (calloc_heap called ?_).1⟩
  obtain ⟨cell, present⟩ := accounted.cell_of_owned held
  simp [present]

/-! ## What the calls do to the blocks in hand -/

/-- A block that nobody had goes to a client. -/
theorem Represents.hand (represents : Represents s store) {u : State} {cell : Cell}
    (owned : u.owned = s.owned) (unowned : ∀ other, (other, block) ∉ s.owned)
    (present : u.heap block = some cell) (others : ∀ other ≠ block, u.heap other = s.heap other) :
    Represents (u.hand client (some block))
      (Function.update store block (some (client, cell.bytes))) := by
  intro holder other bytes
  rcases eq_or_ne other block with rfl | different
  · simp only [State.hand, Function.update_self, present, Option.map_some, owned,
      Multiset.mem_cons, unowned, or_false, Option.some.injEq, Prod.mk.injEq, and_true,
      exists_eq_left', eq_comm (a := client)]
  · simp only [State.hand, Function.update_of_ne different, owned, Multiset.mem_cons,
      Prod.mk.injEq, different, and_false, false_or, others other different]
    exact represents holder other bytes

/-- A client gives up its block, which keeps what others have as it was. -/
theorem Represents.surrender (represents : Represents s store) (accounted : Accounted s)
    {u : State} (held : (client, block) ∈ s.owned) (owned : u.owned = s.owned)
    (others : ∀ other ≠ block, u.heap other = s.heap other) :
    Represents (u.surrender client (some block)) (Function.update store block none) := by
  have nodup : s.owned.Nodup := accounted.nodup_inHands.of_map
  intro holder other bytes
  rcases eq_or_ne other block with rfl | different
  · -- the block was in the hands of this client only
    simp only [State.surrender, Function.update_self, owned, nodup.mem_erase_iff, reduceCtorEq,
      false_iff, not_and]
    rintro ⟨different, still⟩
    exact (different (Prod.ext (accounted.owner_unique held still) rfl)).elim
  · have kept : (holder, other) ≠ (client, block) := fun same => different (Prod.mk.inj same).2
    simp only [State.surrender, Function.update_of_ne different, owned, nodup.mem_erase_iff, ne_eq,
      kept, not_false_eq_true, true_and, others other different]
    exact represents holder other bytes

/-- A client writes into its block. -/
theorem Represents.write (represents : Represents s store) (accounted : Accounted s)
    (held : (client, block) ∈ s.owned) (bytes : List (BitVec 8)) :
    Represents { s with
      heap := Function.update s.heap block
        ((s.heap block).map fun cell => { cell with bytes := bytes }) }
      (Function.update store block (some (client, bytes))) := by
  obtain ⟨cell, present⟩ := accounted.cell_of_owned held
  intro holder other found
  rcases eq_or_ne other block with rfl | different
  · simp only [Function.update_self, present, Option.map_some, Option.some.injEq, Prod.mk.injEq,
      exists_eq_left']
    refine and_congr_left fun _ => ⟨fun same => same ▸ held, fun still => ?_⟩
    exact (accounted.owner_unique held still).symm
  · simp only [Function.update_of_ne different]
    exact represents holder other found

/-! ## The simulation -/

/-- A state of the allocator, and the heap its clients see. -/
structure Simulated (s : State) (store : ClientHeap) : Prop where
  accounted : Accounted s
  sized : Filed (Sized s) s
  represents : Represents s store

/-- The pool hands out a block that nobody has, with the size asked for. -/
theorem Simulated.room (simulated : Simulated s store) {pool : Pool}
    (returned : s.pool.alloc size = some (.ok (some block, pool))) :
    ∃ cell, s.heap block = some cell ∧ size ≤ cell.bytes.length := by
  obtain ⟨n, ends, -⟩ := Option.map_eq_some_iff.mp returned
  have small := sizeClass_isSome_iff.mp (Option.isSome_iff_exists.mpr ⟨n, ends⟩)
  obtain ⟨m, found, least⟩ := sizeClass_spec small
  obtain rfl : m = n := Option.some.inj (found.symm.trans ends)
  rcases alloc_taken simulated.accounted.safe.bounded ends with
    ⟨underflow, -⟩ | ⟨other, pool', i, found, -, taken⟩
  · cases underflow.symm.trans returned
  · obtain ⟨same, -⟩ := Prod.mk.inj (Except.ok.inj (Option.some.inj (found.symm.trans returned)))
    obtain rfl := Option.some.inj same
    have member : other ∈ (s.pool.fGroups i).blocks := taken.popped.mem_blocks.mpr (Or.inr rfl)
    obtain ⟨cell, present, length⟩ := simulated.sized.pool i other member
    refine ⟨cell, present, ?_⟩
    rw [length]
    exact least.1.trans (groupSize_le_groupSize.mpr taken.allowed)

/-- A call of `os_alloc_mem` that returns is an allocation from the heap the clients see. -/
theorem Simulated.alloc (simulated : Simulated s store) {interruptsEnabled : Bool}
    (moves : Moves s (.osAllocMem client interruptsEnabled size ptr) t) (runs : t.halted = none) :
    ∃ store', BlockStore.Step store (.alloc client size ptr) store' ∧ Represents t store' := by
  have represents := simulated.represents
  cases ptr with
  | none =>
    refine ⟨store, .allocFails, represents.unseen ?_⟩
    cases moves with
    | allocHeap called =>
      obtain rfl := Option.some.inj called
      exact unseen_refl s
    | allocHalt => cases runs
    | allocPool returned =>
      obtain ⟨block, impossible, -⟩ := Pool.alloc_spec simulated.accounted.safe.bounded returned
      cases impossible
  | some block =>
    obtain ⟨-, -, -, unowned⟩ := simulated.accounted.clean_of_alloc moves
    have unused := represents.unused unowned
    cases moves with
    | allocHeap called =>
      rcases calloc_cases called with ⟨impossible, -⟩ | ⟨found, same, -, rfl⟩
      · cases impossible
      · obtain rfl := Option.some.inj same
        refine ⟨_, .alloc unused ?_ (Cell.clean_zeroed size).2, represents.hand rfl unowned
          (Function.update_self ..) fun other different => Function.update_of_ne different ..⟩
        exact List.length_replicate.ge
    | @allocPool _ _ _ pool returned =>
      obtain ⟨cell, present, large⟩ := simulated.room returned
      obtain ⟨found, same, -, -, -, -, stock⟩ :=
        Pool.alloc_spec simulated.accounted.safe.bounded returned
      obtain rfl := Option.some.inj same
      -- what is in a group has come clean from `calloc`
      have ready : s.Ready block :=
        Or.inl (stock ▸ Multiset.mem_add.mpr (Or.inr (Multiset.mem_singleton_self block)))
      obtain ⟨clean, same, zeroed⟩ := simulated.accounted.clean block ready
      obtain rfl := Option.some.inj (present.symm.trans same)
      exact ⟨_, .alloc unused large zeroed.2,
        represents.hand (u := { s with pool := pool }) rfl unowned present fun _ _ => rfl⟩

/-- A call of `os_free_mem` that returns frees a block in the heap the clients see. -/
theorem Simulated.free (simulated : Simulated s store) {interruptsEnabled : Bool}
    (moves : Moves s (.osFreeMem client interruptsEnabled ptr) t) (runs : t.halted = none)
    (held : ∀ block ∈ ptr, (client, block) ∈ s.owned) :
    ∃ store', BlockStore.Step store (.free client ptr) store' ∧ Represents t store' := by
  have represents := simulated.represents
  cases ptr with
  | none =>
    refine ⟨store, .freeNull, represents.unseen ?_⟩
    cases moves with
    | freeHeap => exact unseen_refl s
    | freeHalt => cases runs
    | freePool => exact ⟨rfl, fun _ _ _ => rfl⟩
  | some block =>
    have owned := held block rfl
    obtain ⟨cell, present⟩ := simulated.accounted.cell_of_owned owned
    have has : store block = some (client, cell.bytes) :=
      (represents client block _).mpr ⟨owned, cell, present, rfl⟩
    refine ⟨_, .free has, ?_⟩
    cases moves with
    | freeHeap =>
      have allocated : block ∈ s.allocated := Option.isSome_iff_exists.mpr ⟨cell, present⟩
      rw [free_of_allocated allocated]
      exact represents.surrender (u := { s with heap := Function.update s.heap block none })
        simulated.accounted owned rfl fun other different => Function.update_of_ne different _ _
    | freeHalt => cases runs
    | @freePool _ _ pool returned =>
      exact represents.surrender (u := { s with pool := pool }) simulated.accounted owned rfl
        fun _ _ => rfl

/-- A step that keeps the accounts keeps the simulation, if the clients see it rightly. -/
theorem Simulated.kept (simulated : Simulated s store) (proper : Proper ⟨s, a, t⟩)
    (taken : s.step a = some t) {store' : ClientHeap} (represents : Represents t store') :
    Simulated t store' := by
  by_cases disciplined : Disciplined ⟨s, a, t⟩
  · exact ⟨simulated.accounted.step disciplined taken,
      simulated.sized.sized_step simulated.accounted disciplined taken, represents⟩
  · -- a call that gives back what its client does not possess has not returned
    have halted : t.halted ≠ none := fun runs => disciplined (proper runs)
    have safe := simulated.accounted.safe.step taken
    have running := running_of_step taken
    cases moves_of_step taken with
    | freeHalt =>
      exact ⟨simulated.accounted.halt safe, simulated.sized.congr rfl rfl, represents⟩
    | freeHeap => exact absurd (by simpa using running) halted
    | freePool => exact absurd (by simpa using running) halted
    | maintain | reclaimAll | free | calloc | resume | allocHeap | allocHalt | allocPool | write =>
      exact absurd trivial disciplined

theorem Simulated.matches_of_silent (simulated : Simulated s store) (proper : Proper ⟨s, a, t⟩)
    (taken : s.step a = some t) (silent : observe ⟨s, a, t⟩ = none) (unseen : Unseen s t) :
    (BlockStore.heap Client Block (BitVec 8)).Matches Simulated (observe ⟨s, a, t⟩) t store := by
  rw [silent]
  exact simulated.kept proper taken (simulated.represents.unseen unseen)

theorem Simulated.matches_of_observed (simulated : Simulated s store) (proper : Proper ⟨s, a, t⟩)
    (taken : s.step a = some t) {call : HeapCall Client Block (BitVec 8)}
    (observed : observe ⟨s, a, t⟩ = some call)
    (moved : ∃ store', BlockStore.Step store call store' ∧ Represents t store') :
    (BlockStore.heap Client Block (BitVec 8)).Matches Simulated (observe ⟨s, a, t⟩) t store := by
  rw [observed]
  obtain ⟨store', moved, represents⟩ := moved
  exact ⟨store', moved, simulated.kept proper taken represents⟩

theorem observe_running (runs : t.halted = none) :
    observe ⟨s, a, t⟩ = match a with
      | .osAllocMem client _ size ptr => some (.alloc client size ptr)
      | .osFreeMem client _ ptr => some (.free client ptr)
      | .write client block bytes => some (.write client block bytes)
      | .maintain | .reclaimAll | .free _ | .calloc .. | .resume _ => none := by
  simp [observe, runs]

theorem observe_halted {halt : Halt} (halted : t.halted = some halt) :
    observe ⟨s, a, t⟩ = none := by
  simp [observe, halted]

theorem simulated_initial : Simulated initial fun _ => none where
  accounted := accounted_initial
  sized := filed_initial
  represents client block bytes := by simp [initial]

/-- The allocator simulates a heap. -/
theorem allocator_simulates :
    allocator.Simulates (BlockStore.heap Client Block (BitVec 8)) observe Proper Simulated where
  start s same := ⟨fun _ => none, rfl, same ▸ simulated_initial⟩
  step s a t store simulated taken proper := by
    have accounted := simulated.accounted
    have running := running_of_step taken
    have moves := moves_of_step taken
    cases a with
    | maintain =>
      cases moves
      exact simulated.matches_of_silent proper taken (ite_self none) (unseen_proceed ..)
    | reclaimAll =>
      cases moves
      exact simulated.matches_of_silent proper taken (ite_self none) (unseen_proceed ..)
    | free pc =>
      cases moves with
      | free member =>
        exact simulated.matches_of_silent proper taken (ite_self none)
          (accounted.unseen_free member)
    | calloc pc ptr =>
      cases moves with
      | calloc _ _ called =>
        exact simulated.matches_of_silent proper taken (ite_self none)
          (accounted.unseen_calloc called)
    | resume pc =>
      cases moves
      exact simulated.matches_of_silent proper taken (ite_self none) (unseen_proceed ..)
    | osAllocMem client interruptsEnabled size ptr =>
      cases halted : t.halted with
      | none =>
        exact simulated.matches_of_observed proper taken (observe_running halted)
          (simulated.alloc moves halted)
      | some halt =>
        refine simulated.matches_of_silent proper taken (observe_halted halted) ?_
        cases moves with
        | allocHalt => exact ⟨rfl, fun _ _ _ => rfl⟩
        | allocHeap called =>
          obtain ⟨-, -, same, -⟩ := calloc_eq_some called
          simp [same, running] at halted
        | allocPool => simp [running] at halted
    | osFreeMem client interruptsEnabled ptr =>
      cases halted : t.halted with
      | none =>
        exact simulated.matches_of_observed proper taken (observe_running halted)
          (simulated.free moves halted (proper halted))
      | some halt =>
        refine simulated.matches_of_silent proper taken (observe_halted halted) ?_
        cases moves with
        | freeHalt => exact ⟨rfl, fun _ _ _ => rfl⟩
        | freeHeap => simp [running] at halted
        | freePool => simp [running] at halted
    | write client block bytes =>
      cases moves with
      | write owned =>
        obtain ⟨cell, present⟩ := accounted.cell_of_owned owned
        have has := (simulated.represents client block _).mpr ⟨owned, cell, present, rfl⟩
        exact simulated.matches_of_observed proper taken (observe_running running)
          ⟨_, .write has, simulated.represents.write accounted owned bytes⟩

/-! ## What the clients can rely on -/

/-- In every run the calls that have returned are a history of a heap, exactly if every block
freed was in the possession of the client that freed it. -/
theorem heap_accepts_iff {past : List (Event State Action)} (run : allocator.Run past s) :
    (BlockStore.heap Client Block (BitVec 8)).Accepts (trace observe past) ↔ Every Proper past := by
  refine allocator_simulates.accepts_iff (fun s a t store simulated taken fails => ?_) run
  obtain ⟨runs, undisciplined⟩ := Classical.not_imp.mp fails
  cases a with
  | osFreeMem client interruptsEnabled ptr =>
    refine ⟨.free client ptr, observe_running runs, ?_⟩
    intro history history' store' after abstract abstract' same moved
    -- a heap with the same calls behind it has the block with this client, so this one does
    refine undisciplined fun block given => ?_
    obtain rfl := Option.mem_def.mp given
    cases moved with
    | free has =>
      obtain ⟨bytes, present⟩ := BlockStore.has_of_same_calls abstract' abstract same.symm has
      exact ((simulated.represents client block bytes).mp present).1
  | maintain | reclaimAll | free | calloc | resume | osAllocMem | write =>
    exact absurd trivial undisciplined

/-- What a client can rely on for the blocks it has, after the calls it and the others made. -/
structure Relied (calls : List (HeapCall Client Block (BitVec 8))) (s : State) : Prop where
  owner : ∀ client block, (client, block) ∈ s.owned ↔ BlockStore.owner calls block = some client
  /-- Nothing but the writes of its client has changed a block since it was allocated. -/
  contents : ∀ client block, (client, block) ∈ s.owned →
    ∃ cell, s.heap block = some cell ∧ BlockStore.Left calls block cell.bytes

/-- The clients find in their blocks what they wrote there, and zeros before that, whatever ways
through the allocator the calls of all clients took. -/
theorem relied_of_run {past : List (Event State Action)} (run : allocator.Run past s)
    (proper : Every Proper past) : Relied (trace observe past) s := by
  obtain ⟨history, store, abstract, simulated, same⟩ := allocator_simulates.run run proper
  rw [← same]
  refine ⟨fun client block => ?_, fun client block owned => ?_⟩
  · rw [← BlockStore.owner_of_run abstract block, Option.map_eq_some_iff]
    constructor
    · intro owned
      obtain ⟨cell, present⟩ := simulated.accounted.cell_of_owned owned
      exact ⟨_, (simulated.represents client block _).mpr ⟨owned, cell, present, rfl⟩, rfl⟩
    · rintro ⟨⟨holder, bytes⟩, present, rfl⟩
      exact ((simulated.represents holder block bytes).mp present).1
  · obtain ⟨cell, present⟩ := simulated.accounted.cell_of_owned owned
    have has := (simulated.represents client block _).mpr ⟨owned, cell, present, rfl⟩
    exact ⟨cell, present, BlockStore.left_of_run abstract has⟩

/-- Client 0 gets a block that `Maintain` has put into the pool, and writes into it. -/
def served : List Action :=
  (filling ⟨0, by decide⟩ [⟨1, by decide⟩, ⟨2, by decide⟩, ⟨3, by decide⟩]).take 3 ++
    [.osAllocMem 0 false 10 (some 7), .write 0 7 [1, 2, 3], .osAllocMem 1 true 5 (some 8)]

theorem heap_accepts_served : ∃ past s, allocator.Run past s ∧
    trace observe past =
      [.alloc 1 5 (some 8), .write 0 7 [1, 2, 3], .alloc 0 10 (some 7)] ∧
    (BlockStore.heap Client Block (BitVec 8)).Accepts (trace observe past) := by
  have run := (Run.start (T := allocator) rfl).play served rfl
  refine ⟨_, _, run, rfl, (heap_accepts_iff run).mpr ?_⟩
  simp [served, filling, play, Proper, Disciplined]

theorem relied_served : ∃ past s, allocator.Run past s ∧ (0, 7) ∈ s.owned ∧
    Relied (trace observe past) s := by
  have run := (Run.start (T := allocator) rfl).play served rfl
  refine ⟨_, _, run, by decide, relied_of_run run ?_⟩
  simp [served, filling, play, Proper, Disciplined]

end NvidiaHaiku.IntrSafePool

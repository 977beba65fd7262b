/-
# Custody of heap blocks

Blocks cross between the heap and the pool in all four combinations of the
interrupt state at allocation and at free, and they pass through unlocked
windows on the way. Counting the live slots of the pool, the local pointers of
suspended calls and the possessions of the clients together, every allocated
block is in exactly one place.

What `Alloc` hands out comes from `fGroups`, and only `Maintain` fills these,
straight from `calloc`. A block freed with interrupts disabled goes to
`fReclaimGroup` instead, which nothing is allocated from, so no client ever
receives the leavings of another.
-/

import NvidiaHaiku.IntrSafePool.Safety

namespace NvidiaHaiku.IntrSafePool

open NvidiaHaiku.Math TransitionSystem

/-! ## Places -/

/-- The cell is as `calloc` returned it. -/
def Cell.Clean (cell : Cell) : Prop := cell.handedOut = false ∧ ∀ byte ∈ cell.bytes, byte = 0

theorem Cell.clean_zeroed (size : ℕ) : (Cell.zeroed size).Clean :=
  ⟨rfl, fun _ member => List.eq_of_mem_replicate member⟩

/-- The blocks the calls hold in their local `ptr`. -/
def inFlight (calls : Multiset Pc) : Multiset Block := calls.bind fun pc => resources [pc.ptr]

namespace State

/-- The blocks clients possess. -/
def inHands (s : State) : Multiset Block := s.owned.map Prod.snd

/-- Every place a block can be in: a live slot of the pool, the local pointer of
a suspended call, or the possession of a client. -/
def places (s : State) : Multiset Block := s.pool.blocks + inFlight s.calls + s.inHands

/-- The blocks obtained from `calloc` and not given back to `free`. -/
def allocated (s : State) : Set Block := {block | (s.heap block).isSome}

/-- The block is in `fGroups` or on its way there. -/
def Ready (s : State) (block : Block) : Prop :=
  block ∈ s.pool.stock ∨ ∃ pc ∈ s.calls, pc.fresh = some block

end State

variable {s t : State} {a : Action} {call next : Option Pc} {pc pc' : Pc} {rest : Multiset Pc}
  {pool : Pool} {block : Block} {client : Client} {ptr : Ptr}

@[simp] theorem inFlight_cons :
    inFlight (pc ::ₘ rest) = resources [pc.ptr] + inFlight rest := by
  simp [inFlight]

theorem inFlight_callsWith :
    inFlight (callsWith call rest) = resources [Pool.held call] + inFlight rest := by
  cases call with
  | none => exact (zero_add _).symm
  | some pc => simp [Pool.held]

theorem ptr_of_fresh (fresh : pc.fresh = some block) : pc.ptr = some block := by
  cases pc with
  | maintainStore => exact fresh
  | maintainFree | maintainFreed | maintainCalloc | reclaimFree | reclaimFreed =>
    exact nomatch fresh

/-- Ready blocks are in the pool or in flight. -/
theorem State.Ready.mem (ready : s.Ready block) : block ∈ s.pool.blocks + inFlight s.calls := by
  rw [Multiset.mem_add]
  rcases ready with stocked | ⟨pc, member, fresh⟩
  · exact Or.inl (Multiset.mem_add.mpr (Or.inl stocked))
  · refine Or.inr (Multiset.mem_bind.mpr ⟨pc, member, ?_⟩)
    rw [ptr_of_fresh fresh]
    exact Multiset.mem_singleton_self block

/-- What a client possesses is held there and nowhere else. -/
theorem places_of_owned (owned : (client, block) ∈ s.owned) :
    s.places = block ::ₘ
      (s.pool.blocks + inFlight s.calls + (s.owned.erase (client, block)).map Prod.snd) := by
  rw [State.places, State.inHands]
  conv_lhs => rw [← Multiset.cons_erase owned]
  rw [Multiset.map_cons, Multiset.add_cons]

/-! ## The invariant -/

/-- Every allocated block is in one place, a ready block is clean, and only allocated blocks have
been freed. -/
structure Accounted (s : State) : Prop where
  safe : Safe s
  exact : ExactCustody s.places s.allocated
  clean : ∀ block, s.Ready block → ∃ cell, s.heap block = some cell ∧ cell.Clean
  noBadFrees : s.badFrees = []

theorem accounted_initial : Accounted initial where
  safe := safe_initial
  exact := by
    have nowhere : initial.places = 0 := by
      simp [initial, State.places, State.inHands, inFlight, Pool.blocks, Pool.stock, Group.blocks,
        Group.slots]
    have nothing : initial.allocated = ∅ := by
      simp [initial, State.allocated]
    rw [nowhere, nothing]
    exact .empty
  clean := by
    rintro block (stocked | ⟨pc, member, -⟩)
    · simp [initial, Pool.stock, Group.blocks, Group.slots] at stocked
    · exact absurd member (Multiset.notMem_zero pc)
  noBadFrees := rfl

/-- A block in the hands of a client is neither in the pool nor in flight. -/
theorem Accounted.ne_of_owned (accounted : Accounted s) (owned : (client, block) ∈ s.owned)
    {other : Block} (elsewhere : other ∈ s.pool.blocks + inFlight s.calls) : other ≠ block := by
  rintro rfl
  have nodup := accounted.exact.nodup
  rw [State.places, Multiset.nodup_add] at nodup
  exact Multiset.disjoint_left.mp nodup.2.2 elsewhere (Multiset.mem_map.mpr ⟨_, owned, rfl⟩)

/-! ## Heap changes -/

theorem allocated_insert (heap : Block → Option Cell) (block : Block) (cell : Cell) :
    {other | (Function.update heap block (some cell) other).isSome} =
      insert block {other | (heap other).isSome} := by
  ext other
  rcases eq_or_ne other block with rfl | different
  · simp
  · simp [different]

theorem allocated_remove (heap : Block → Option Cell) (block : Block) :
    {other | (Function.update heap block none other).isSome} =
      {other | (heap other).isSome} \ {block} := by
  ext other
  rcases eq_or_ne other block with rfl | different
  · simp
  · simp [different]

theorem allocated_modify (heap : Block → Option Cell) (block : Block) (f : Cell → Cell) :
    {other | (Function.update heap block ((heap block).map f) other).isSome} =
      {other | (heap other).isSome} := by
  ext other
  rcases eq_or_ne other block with rfl | different
  · simp
  · simp [different]

theorem calloc_cases {size : ℕ} (ran : s.calloc size ptr = some t) :
    (ptr = none ∧ t = s) ∨ ∃ block, ptr = some block ∧ s.heap block = none ∧
      t = { s with heap := Function.update s.heap block (some (.zeroed size)) } := by
  cases ptr with
  | none => exact Or.inl ⟨rfl, (Option.some.inj ran).symm⟩
  | some block =>
    obtain ⟨unused, stored⟩ := Option.ite_none_right_eq_some.mp ran
    exact Or.inr ⟨block, rfl, Option.isNone_iff_eq_none.mp unused, (Option.some.inj stored).symm⟩

theorem free_of_allocated (allocated : block ∈ s.allocated) :
    s.free (some block) = { s with heap := Function.update s.heap block none } :=
  if_pos allocated

/-! ## Each step accounts for every block -/

/-- A stretch under the lock moves blocks between the pool and the call. -/
theorem Accounted.proceed (accounted : Accounted s) (calls : s.calls = callsWith call rest)
    (stretch : Pool.Stretch call s.pool pool next)
    (safe : Safe { s with pool := pool, calls := callsWith next rest }) :
    Accounted { s with pool := pool, calls := callsWith next rest } := by
  refine ⟨safe, ?_, ?_, accounted.noBadFrees⟩
  · -- what leaves the pool is in the hands of the call, and the other way round
    have same : State.places { s with pool := pool, calls := callsWith next rest } = s.places := by
      simp only [State.places, State.inHands, calls, inFlight_callsWith]
      rw [← add_assoc, ← add_assoc, stretch.blocks]
    rw [same]
    exact accounted.exact
  · rintro block (stocked | ⟨pc, member, fresh⟩)
    · rcases Multiset.mem_add.mp (Multiset.mem_of_le stretch.stock stocked) with before | stored
      · exact accounted.clean block (Or.inl before)
      · -- a block new to the stock was stored by the call, which had it from `calloc`
        cases call with
        | none => exact absurd stored (Multiset.notMem_zero block)
        | some pc =>
          refine accounted.clean block (Or.inr ⟨pc, calls ▸ Multiset.mem_cons_self pc rest, ?_⟩)
          simp only [Pool.fresh, Option.bind_some] at stored
          cases kept : pc.fresh with
          | none =>
            rw [kept] at stored
            exact absurd stored (Multiset.notMem_zero block)
          | some other =>
            rw [kept, resources_some, Multiset.mem_singleton] at stored
            rw [stored]
    · rcases mem_callsWith.mp member with rfl | within
      · exact absurd ((stretch.stale).symm.trans fresh) nofun
      · exact accounted.clean block
          (Or.inr ⟨pc, calls ▸ mem_callsWith.mpr (Or.inr within), fresh⟩)

theorem Accounted.halt (accounted : Accounted s) {halt : Halt}
    (safe : Safe { s with halted := some halt }) : Accounted { s with halted := some halt } :=
  ⟨safe, accounted.exact, accounted.clean, accounted.noBadFrees⟩

/-- A call in its window gives its block back to the heap. -/
theorem Accounted.free (accounted : Accounted s) (member : pc ∈ s.calls)
    (moved : pc.afterFree = some pc')
    (safe : Safe { s.free pc.ptr with calls := pc' ::ₘ s.calls.erase pc }) :
    Accounted { s.free pc.ptr with calls := pc' ::ₘ s.calls.erase pc } := by
  have calls := (Multiset.cons_erase member).symm
  have emptied : pc'.ptr = none ∧ pc'.fresh = none := by
    cases pc with
    | maintainFree | reclaimFree =>
      obtain rfl := Option.some.inj moved
      exact ⟨rfl, rfl⟩
    | maintainFreed | maintainCalloc | maintainStore | reclaimFreed => exact nomatch moved
  -- what is ready after the `free` was ready before, and is not what was freed
  have stillReady : ∀ block, block ∈ s.pool.stock ∨
      (∃ other ∈ pc' ::ₘ s.calls.erase pc, other.fresh = some block) →
        block ∈ s.pool.blocks + inFlight (s.calls.erase pc) ∧ s.Ready block := by
    rintro block (stocked | ⟨other, within, fresh⟩)
    · exact ⟨Multiset.mem_add.mpr (Or.inl (Multiset.mem_add.mpr (Or.inl stocked))), Or.inl stocked⟩
    · rcases Multiset.mem_cons.mp within with rfl | within
      · exact absurd (emptied.2.symm.trans fresh) nofun
      · have ready : State.Ready { s with calls := s.calls.erase pc } block :=
          Or.inr ⟨other, within, fresh⟩
        exact ⟨ready.mem, Or.inr ⟨other, Multiset.mem_of_mem_erase within, fresh⟩⟩
  have split : s.places =
      resources [pc.ptr] + (s.pool.blocks + inFlight (s.calls.erase pc) + s.inHands) := by
    rw [State.places]
    conv_lhs => rw [calls, inFlight_cons]
    abel
  cases loaded : pc.ptr with
  | none =>
    -- `free(nullptr)`, for a slot that a failed `calloc` filled
    refine ⟨loaded ▸ safe, ?_, fun block ready => accounted.clean block (stillReady block ready).2,
      accounted.noBadFrees⟩
    have exact := accounted.exact
    rw [split, loaded, resources_none, zero_add] at exact
    simpa [State.places, State.inHands, State.allocated, State.free, emptied.1] using exact
  | some block =>
    rw [loaded, resources_some, Multiset.singleton_add] at split
    have exact := accounted.exact
    rw [split] at exact
    have allocated : block ∈ s.allocated := exact.live_of_mem (Multiset.mem_cons_self _ _)
    rw [loaded, free_of_allocated allocated] at safe
    rw [free_of_allocated allocated]
    refine ⟨safe, ?_, ?_, accounted.noBadFrees⟩
    · have released := exact.release
      simp only [State.places, State.inHands, State.allocated, allocated_remove, inFlight_cons,
        emptied.1, resources_none, zero_add]
      exact released
    · intro other ready
      obtain ⟨elsewhere, before⟩ := stillReady other ready
      have different : other ≠ block := by
        rintro rfl
        exact (Multiset.nodup_cons.mp exact.nodup).1 (Multiset.mem_add.mpr (Or.inl elsewhere))
      simpa [different] using accounted.clean other before

/-- A call in its window takes a block from the heap. -/
theorem Accounted.calloc (accounted : Accounted s) (member : pc ∈ s.calls) {size : ℕ}
    (moved : pc.afterCalloc ptr = some (size, pc')) {u : State}
    (called : s.calloc size ptr = some u)
    (safe : Safe { u with calls := pc' ::ₘ u.calls.erase pc }) :
    Accounted { u with calls := pc' ::ₘ u.calls.erase pc } := by
  have calls := (Multiset.cons_erase member).symm
  obtain ⟨empty, filled⟩ : pc.ptr = none ∧ pc'.ptr = ptr ∧ pc'.fresh = ptr := by
    cases pc with
    | maintainCalloc =>
      obtain ⟨-, rfl⟩ := Prod.mk.inj (Option.some.inj moved)
      exact ⟨rfl, rfl, rfl⟩
    | maintainFree | maintainFreed | maintainStore | reclaimFree | reclaimFreed =>
      exact nomatch moved
  have before : s.places = s.pool.blocks + inFlight (s.calls.erase pc) + s.inHands := by
    rw [State.places]
    conv_lhs => rw [calls, inFlight_cons, empty, resources_none, zero_add]
  -- only the block from `calloc` becomes ready
  have readyBefore : ∀ block, block ∈ s.pool.stock ∨
      (∃ other ∈ pc' ::ₘ s.calls.erase pc, other.fresh = some block) →
        s.Ready block ∨ ptr = some block := by
    rintro block (stocked | ⟨other, within, fresh⟩)
    · exact Or.inl (Or.inl stocked)
    · rcases Multiset.mem_cons.mp within with rfl | within
      · exact Or.inr (filled.2 ▸ fresh)
      · exact Or.inl (Or.inr ⟨other, Multiset.mem_of_mem_erase within, fresh⟩)
  rcases calloc_cases called with ⟨rfl, rfl⟩ | ⟨block, rfl, unused, rfl⟩
  · refine ⟨safe, ?_, fun block ready => ?_, accounted.noBadFrees⟩
    · have exact := accounted.exact
      rw [before] at exact
      simpa [State.places, State.inHands, State.allocated, filled.1] using exact
    · rcases readyBefore block ready with ready | impossible
      · exact accounted.clean block ready
      · exact nomatch impossible
  · refine ⟨safe, ?_, fun other ready => ?_, accounted.noBadFrees⟩
    · have acquired := accounted.exact.acquire (r := block) (by simp [State.allocated, unused])
      rw [before] at acquired
      have after : State.places { s with
          heap := Function.update s.heap block (some (.zeroed size))
          calls := pc' ::ₘ s.calls.erase pc } =
          block ::ₘ (s.pool.blocks + inFlight (s.calls.erase pc) + s.inHands) := by
        simp only [State.places, State.inHands, inFlight_cons, filled.1, resources_some]
        rw [← Multiset.singleton_add]
        abel
      rw [after, State.allocated, allocated_insert]
      exact acquired
    · rcases eq_or_ne other block with rfl | different
      · exact ⟨_, Function.update_self _ _ _, Cell.clean_zeroed size⟩
      · rcases readyBefore other ready with before | same
        · simpa [different] using accounted.clean other before
        · exact absurd (Option.some.inj same).symm different

/-- A client overwrites a block it possesses, or is recorded as having received it. -/
theorem Accounted.modify (accounted : Accounted s) (f : Cell → Cell)
    (unready : ∀ other, s.Ready other → other ≠ block)
    (safe : Safe { s with heap := Function.update s.heap block ((s.heap block).map f) }) :
    Accounted { s with heap := Function.update s.heap block ((s.heap block).map f) } := by
  refine ⟨safe, ?_, fun other ready => ?_, accounted.noBadFrees⟩
  · simp only [State.allocated, allocated_modify]
    exact accounted.exact
  · simpa [unready other ready] using accounted.clean other ready

/-- `os_alloc_mem` gives the client a clean block from the heap. -/
theorem Accounted.allocHeap (accounted : Accounted s) {size : ℕ} {u : State}
    (called : s.calloc size ptr = some u) (safe : Safe (u.hand client ptr)) :
    Accounted (u.hand client ptr) := by
  rcases calloc_cases called with ⟨rfl, rfl⟩ | ⟨block, rfl, unused, rfl⟩
  · exact accounted
  · have acquired := accounted.exact.acquire (r := block) (by simp [State.allocated, unused])
    refine ⟨safe, ?_, fun other ready => ?_, accounted.noBadFrees⟩
    · simp only [State.hand, State.allocated, Function.update_self, Function.update_idem,
        Option.map_some, allocated_insert]
      simpa [State.places, State.inHands, State.allocated] using acquired
    · have different : other ≠ block := by
        rintro rfl
        obtain ⟨cell, present, -⟩ := accounted.clean other ready
        exact absurd (unused.symm.trans present) nofun
      simpa [State.hand, different] using accounted.clean other ready

/-- `os_alloc_mem` gives the client a clean block from the pool. -/
theorem Accounted.allocPool (accounted : Accounted s) {size : ℕ} {pool : Pool}
    (returned : s.pool.alloc size = some (.ok (ptr, pool)))
    (safe : Safe ({ s with pool := pool }.hand client ptr)) :
    Accounted ({ s with pool := pool }.hand client ptr) := by
  obtain ⟨block, rfl, -, -, reclaim, -, stock⟩ := Pool.alloc_spec accounted.safe.bounded returned
  have before : s.places = block ::ₘ (pool.blocks + inFlight s.calls + s.inHands) := by
    rw [State.places, Pool.blocks, stock, Pool.blocks, reclaim, resources_some,
      ← Multiset.singleton_add]
    abel
  have exact := accounted.exact
  rw [before] at exact
  refine ⟨safe, ?_, fun other ready => ?_, accounted.noBadFrees⟩
  · simp only [State.hand, State.allocated, allocated_modify]
    simpa [State.places, State.inHands, State.allocated] using exact
  · -- what is still ready was ready before, and it is not the block handed out
    have elsewhere : other ∈ pool.blocks + inFlight s.calls := ready.mem
    have different : other ≠ block := by
      rintro rfl
      exact (Multiset.nodup_cons.mp exact.nodup).1 (Multiset.mem_add.mpr (Or.inl elsewhere))
    have readyBefore : s.Ready other := by
      rcases ready with stocked | inFlight
      · exact Or.inl (stock ▸ Multiset.mem_add.mpr (Or.inl stocked))
      · exact Or.inr inFlight
    simpa [State.hand, different] using accounted.clean other readyBefore

/-- `os_free_mem` gives a block the client possesses back to the heap. -/
theorem Accounted.freeHeap (accounted : Accounted s)
    (owned : ∀ block ∈ ptr, (client, block) ∈ s.owned)
    (safe : Safe ((s.free ptr).surrender client ptr)) :
    Accounted ((s.free ptr).surrender client ptr) := by
  cases ptr with
  | none => exact accounted
  | some block =>
    have held := owned block rfl
    have exact := accounted.exact
    rw [places_of_owned held] at exact
    have allocated : block ∈ s.allocated := exact.live_of_mem (Multiset.mem_cons_self _ _)
    simp only [free_of_allocated allocated, State.surrender] at safe ⊢
    refine ⟨safe, ?_, fun other ready => ?_, accounted.noBadFrees⟩
    · simp only [State.allocated, allocated_remove]
      exact exact.release
    · have different := accounted.ne_of_owned held (State.Ready.mem (s := s) ready)
      simpa [different] using accounted.clean other ready

/-- `os_free_mem` puts a block the client possesses into `fReclaimGroup`, which nothing is
allocated from. -/
theorem Accounted.freePool (accounted : Accounted s)
    (owned : ∀ block ∈ ptr, (client, block) ∈ s.owned) {pool : Pool}
    (returned : s.pool.free ptr = .ok pool)
    (safe : Safe ({ s with pool := pool }.surrender client ptr)) :
    Accounted ({ s with pool := pool }.surrender client ptr) := by
  obtain ⟨-, -, groups, moved⟩ := Pool.free_spec accounted.safe.bounded returned
  have stock : pool.stock = s.pool.stock := by rw [Pool.stock, Pool.stock, groups]
  cases ptr with
  | none =>
    refine ⟨safe, ?_, fun other ready => accounted.clean other ?_, accounted.noBadFrees⟩
    · have same : pool.blocks = s.pool.blocks := moved.symm.trans (add_zero _)
      simpa [State.surrender, State.places, State.inHands, State.allocated, same]
        using accounted.exact
    · simpa [State.Ready, State.surrender, stock] using ready
  | some block =>
    have held := owned block rfl
    refine ⟨safe, ?_, fun other ready => accounted.clean other ?_, accounted.noBadFrees⟩
    · have exact := accounted.exact
      rw [places_of_owned held] at exact
      -- the block goes from the client to the reclaim group
      have same : pool.blocks + inFlight s.calls +
          (s.owned.erase (client, block)).map Prod.snd =
          block ::ₘ (s.pool.blocks + inFlight s.calls +
            (s.owned.erase (client, block)).map Prod.snd) := by
        rw [← moved, resources_some, ← Multiset.singleton_add]
        abel
      simp only [State.surrender, State.places, State.inHands, State.allocated]
      rw [same]
      exact exact
    · simpa [State.Ready, State.surrender, stock] using ready

/-- A client frees only what it possesses. -/
def Disciplined (e : Event State Action) : Prop :=
  match e.action with
  | .osFreeMem client _ ptr => ∀ block ∈ ptr, (client, block) ∈ e.source.owned
  | _ => True

theorem Accounted.step (accounted : Accounted s) (disciplined : Disciplined ⟨s, a, t⟩)
    (taken : s.step a = some t) : Accounted t := by
  have safe := accounted.safe.step taken
  -- stretches under the lock move blocks, and calls outside of it create, free or hand them over
  cases moves_of_step taken with
  | maintain =>
    obtain ⟨pool, next, ran, stretch, -⟩ := Pool.maintain_spec accounted.safe.bounded
    rw [ran] at safe ⊢
    exact accounted.proceed callsWith_none.symm stretch safe
  | reclaimAll =>
    obtain ⟨pool, next, ran, stretch, -⟩ :=
      Pool.reclaimAll_spec accounted.safe.bounded Pool.reclaimOrder
    rw [ran] at safe ⊢
    exact accounted.proceed callsWith_none.symm stretch safe
  | free member moved => exact accounted.free member moved safe
  | calloc member moved called => exact accounted.calloc member moved called safe
  | @resume pc outcome member resumed =>
    obtain ⟨pool, next, rfl, stretch, -⟩ :=
      Pool.resume_spec accounted.safe.bounded (accounted.safe.room pc member) resumed
    have calls : s.calls = callsWith (some pc) (s.calls.erase pc) :=
      (Multiset.cons_erase member).symm
    exact accounted.proceed calls stretch safe
  | allocHeap called => exact accounted.allocHeap called safe
  | allocPool returned => exact accounted.allocPool returned safe
  | freeHeap => exact accounted.freeHeap disciplined safe
  | freePool returned => exact accounted.freePool disciplined returned safe
  | allocHalt | freeHalt => exact accounted.halt safe
  | write owned =>
    exact accounted.modify _ (fun other ready => accounted.ne_of_owned owned ready.mem) safe

theorem accounted_of_run {past : List (Event State Action)} (run : allocator.Run past s)
    (disciplined : Every Disciplined past) : Accounted s :=
  run.invariant_of_every disciplined (fun _ same => same ▸ accounted_initial)
    fun _ _ _ accounted meets taken => accounted.step meets taken

/-! ## What the clients rely on -/

/-- A block `os_alloc_mem` returns was clean the moment before, when it was still
in `fGroups`, or did not exist. -/
theorem Accounted.clean_of_alloc (accounted : Accounted s) {interruptsEnabled : Bool} {size : ℕ}
    (moves : Moves s (.osAllocMem client interruptsEnabled size (some block)) t) :
    (s.heap block = none ∨ ∃ cell, s.heap block = some cell ∧ cell.Clean) ∧
      (∃ cell, t.heap block = some cell ∧ ∀ byte ∈ cell.bytes, byte = 0) ∧
      t.owned = (client, block) ::ₘ s.owned ∧ ∀ other, (other, block) ∉ s.owned := by
  cases moves with
  | allocHeap called =>
    -- a client that possessed the block would have kept `calloc` from returning it
    rcases calloc_cases called with ⟨impossible, -⟩ | ⟨found, same, unused, rfl⟩
    · exact nomatch impossible
    · obtain rfl := Option.some.inj same
      refine ⟨Or.inl unused, ⟨{ Cell.zeroed size with handedOut := true }, by simp [State.hand],
        (Cell.clean_zeroed size).2⟩, rfl, fun other owned => ?_⟩
      have allocated : block ∈ s.allocated := by
        apply accounted.exact.live_of_mem
        rw [places_of_owned owned]
        exact Multiset.mem_cons_self _ _
      simp [State.allocated, unused] at allocated
  | allocPool returned =>
    obtain ⟨found, same, -, -, -, -, stock⟩ := Pool.alloc_spec accounted.safe.bounded returned
    obtain rfl := Option.some.inj same
    have ready : s.Ready block :=
      Or.inl (stock ▸ Multiset.mem_add.mpr (Or.inr (Multiset.mem_singleton_self block)))
    obtain ⟨cell, present, clean⟩ := accounted.clean block ready
    refine ⟨Or.inr ⟨cell, present, clean⟩, ⟨{ cell with handedOut := true }, ?_, clean.2⟩, rfl,
      fun other owned => accounted.ne_of_owned owned ready.mem rfl⟩
    simp [State.hand, present]

/-- What custody says of one state. -/
structure OnePlaceEach (s : State) : Prop where
  /-- An allocated block is in exactly one place. -/
  allocated : ∀ block, (s.heap block).isSome → s.places.count block = 1
  /-- A block given back, or never obtained, is in none. -/
  unallocated : ∀ block, s.heap block = none → s.places.count block = 0
  /-- No block has reached `free` without being allocated, so none twice. -/
  noDoubleFree : s.badFrees = []
  /-- A block `os_alloc_mem` returns next is in the possession of no client yet,
  comes straight from `calloc` and is all zero. -/
  alloc : ∀ client interruptsEnabled size block t,
    s.step (.osAllocMem client interruptsEnabled size (some block)) = some t →
      (∀ other, (other, block) ∉ s.owned) ∧ t.owned = (client, block) ::ₘ s.owned ∧
      (s.heap block = none ∨ ∃ cell, s.heap block = some cell ∧ cell.handedOut = false) ∧
      ∃ cell, t.heap block = some cell ∧ ∀ byte ∈ cell.bytes, byte = 0

/-- No block is lost, duplicated or handed out dirty, as long as the clients free
only what they possess. -/
theorem onePlaceEach_of_run {past : List (Event State Action)} (run : allocator.Run past s)
    (disciplined : Every Disciplined past) : OnePlaceEach s := by
  have accounted := accounted_of_run run disciplined
  refine ⟨fun block present => accounted.exact.count_eq_one present, fun block absent => ?_,
    accounted.noBadFrees, ?_⟩
  · exact accounted.exact.count_eq_zero (by simp [State.allocated, absent])
  · intro client interruptsEnabled size block t taken
    obtain ⟨origin, zero, owned, exclusive⟩ := accounted.clean_of_alloc (moves_of_step taken)
    refine ⟨exclusive, owned, origin.imp_right ?_, zero⟩
    rintro ⟨cell, present, clean⟩
    exact ⟨cell, present, clean.1⟩

/-- Client 0 possesses a block from the heap. -/
def handed : State where
  heap := Function.update (fun _ => none) 7 (some { Cell.zeroed 16 with handedOut := true })
  owned := {(0, 7)}

/-- The client frees the block with interrupts disabled, which puts it into the pool. -/
theorem onePlaceEach_freed : OnePlaceEach (handed.osFreeMem 0 false (some 7)) := by
  have started : allocator.Run [] initial := .start rfl
  have allocated : allocator.step initial (.osAllocMem 0 true 16 (some 7)) handed := by
    simp [allocator, ofStep, initial, handed, State.step, State.osAllocMem, State.calloc,
      State.hand]
  have freed : allocator.step handed (.osFreeMem 0 false (some 7))
    (handed.osFreeMem 0 false (some 7)) := rfl
  have run := (started.step allocated).step freed
  refine onePlaceEach_of_run run (every_cons.mpr ⟨?_, every_cons.mpr ⟨trivial, every_nil⟩⟩)
  rintro block ⟨⟩
  exact Multiset.mem_singleton_self _

end NvidiaHaiku.IntrSafePool

/-
# The two-path allocator as a transition system

`os_alloc_mem` and `os_free_mem` go to the heap while interrupts are enabled and
to the pool while they are not. `Maintain`, which `os_release_spinlock` calls,
moves blocks between the two. Any number of threads and interrupt handlers run
these calls, so the state keeps the calls in progress as a multiset: two calls
at the same point are interchangeable.

A step is one stretch of code under `fSpinlock`, or one call of `free` or
`calloc` in a window where the lock is released. A panic halts the system.
Beside the pool and the heap the state keeps what no field of the source
records: which client possesses which block, whether a block has been given to
a client since its `calloc`, and the blocks passed to `free` while not allocated.
-/

import Mathlib.Data.Multiset.Count
import NvidiaHaiku.IntrSafePool.Pool
import NvidiaHaiku.Math.Transition

namespace NvidiaHaiku.IntrSafePool

open NvidiaHaiku.Math

/-- A user of `os_alloc_mem`. -/
abbrev Client := ℕ

/-- An allocated heap block. -/
structure Cell where
  bytes : List (BitVec 8)
  /-- The block was given to a client since its `calloc`. -/
  handedOut : Bool

/-- A cell as `calloc(1, size)` returns it. -/
def Cell.zeroed (size : ℕ) : Cell where
  bytes := List.replicate size 0
  handedOut := false

/-- The pool with its suspended calls, the kernel's heap, and who possesses what. -/
structure State where
  pool : Pool := {}
  /-- The calls of `Maintain` and `ReclaimAll` suspended in a window. -/
  calls : Multiset Pc := 0
  heap : Block → Option Cell := fun _ => none
  /-- Who possesses which block. -/
  owned : Multiset (Client × Block) := 0
  halted : Option Halt := none
  /-- The blocks passed to `free` while not allocated. -/
  badFrees : List Block := []

/-- A step between two places where the pool gives up its lock. -/
inductive Action
  /-- A call of `Maintain` starts. -/
  | maintain
  /-- A call of `IntrSafePool::ReclaimAll` starts. -/
  | reclaimAll
  /-- The suspended call `pc` runs `free(ptr)`. -/
  | free (pc : Pc)
  /-- The suspended call `pc` runs `calloc`, which returns `ptr`. -/
  | calloc (pc : Pc) (ptr : Ptr)
  /-- The suspended call `pc` takes the lock again. -/
  | resume (pc : Pc)
  /-- `os_alloc_mem` stores `ptr` for `client`. -/
  | osAllocMem (client : Client) (interruptsEnabled : Bool) (size : ℕ) (ptr : Ptr)
  | osFreeMem (client : Client) (interruptsEnabled : Bool) (ptr : Ptr)
  /-- `client` overwrites a block it possesses. -/
  | write (client : Client) (block : Block) (bytes : List (BitVec 8))

namespace Pc

/-- The call after its `free`. -/
def afterFree : Pc → Option Pc
  | maintainFree _ => some maintainFreed
  | reclaimFree todo _ => some (reclaimFreed todo)
  | maintainFreed | maintainCalloc .. | maintainStore .. | reclaimFreed _ => none

/-- The size the call passes to `calloc`, and the call after it. -/
def afterCalloc (ptr : Ptr) : Pc → Option (ℕ × Pc)
  | maintainCalloc i rest size => some (size, maintainStore i rest size ptr)
  | maintainFree _ | maintainFreed | maintainStore .. | reclaimFree .. | reclaimFreed _ => none

end Pc

/-- The calls in progress: `rest` and, unless it has returned, `call`. -/
def callsWith (call : Option Pc) (rest : Multiset Pc) : Multiset Pc := call.elim rest (· ::ₘ rest)

namespace State

/-- The heap as `calloc(1, size)` leaves it; `none` if `ptr` cannot be its result. -/
def calloc (s : State) (size : ℕ) : (ptr : Ptr) → Option State
  | none => some s
  | some block =>
    -- `calloc` returns no block that is still allocated
    if (s.heap block).isNone then
      some { s with heap := Function.update s.heap block (some (.zeroed size)) }
    else none

/-- The heap as `free(ptr)` leaves it. -/
def free (s : State) : (ptr : Ptr) → State
  | none => s
  | some block =>
    if (s.heap block).isSome then { s with heap := Function.update s.heap block none }
    else { s with badFrees := block :: s.badFrees }

/-- The end of a stretch under the lock, with `rest` the other calls. -/
def proceed (s : State) (rest : Multiset Pc) : Except Halt (Pool × Option Pc) → State
  | .error halt => { s with halted := some halt }
  | .ok (pool, next) => { s with pool := pool, calls := callsWith next rest }

/-- `client` comes to possess what `ptr` points to. -/
def hand (s : State) (client : Client) : (ptr : Ptr) → State
  | none => s
  | some block =>
    { s with
      owned := (client, block) ::ₘ s.owned
      heap := Function.update s.heap block
        ((s.heap block).map fun cell => { cell with handedOut := true }) }

/-- `client` gives up what `ptr` points to. -/
def surrender (s : State) (client : Client) : (ptr : Ptr) → State
  | none => s
  | some block => { s with owned := s.owned.erase (client, block) }

/-- `os_alloc_mem`. -/
def osAllocMem (s : State) (client : Client) (interruptsEnabled : Bool) (size : ℕ) (ptr : Ptr) :
    Option State :=
  if interruptsEnabled then (s.calloc size ptr).map (·.hand client ptr)
  -- a size that `Alloc` loops on for ever has no step
  else (s.pool.alloc size).bind fun
    | .error halt => if ptr = none then some { s with halted := some halt } else none
    | .ok (found, pool) =>
      if found = ptr then some ({ s with pool := pool }.hand client ptr) else none

/-- `os_free_mem`. -/
def osFreeMem (s : State) (client : Client) (interruptsEnabled : Bool) (ptr : Ptr) : State :=
  if interruptsEnabled then (s.free ptr).surrender client ptr
  else match s.pool.free ptr with
    | .error halt => { s with halted := some halt }
    | .ok pool => { s with pool := pool }.surrender client ptr

/-- One step. Any step may come while a call is suspended without the lock. -/
def step (s : State) (action : Action) : Option State :=
  -- nothing runs after a panic
  if s.halted.isSome then none
  else match action with
    | .maintain => some (s.proceed s.calls s.pool.maintain)
    | .reclaimAll => some (s.proceed s.calls (s.pool.reclaimAll Pool.reclaimOrder))
    | .free pc =>
      if pc ∈ s.calls then
        pc.afterFree.map fun next => { s.free pc.ptr with calls := next ::ₘ s.calls.erase pc }
      else none
    | .calloc pc ptr =>
      if pc ∈ s.calls then
        (pc.afterCalloc ptr).bind fun (size, next) =>
          (s.calloc size ptr).map fun s => { s with calls := next ::ₘ s.calls.erase pc }
      else none
    | .resume pc =>
      if pc ∈ s.calls then (s.pool.resume pc).map (s.proceed (s.calls.erase pc)) else none
    | .osAllocMem client interruptsEnabled size ptr =>
      s.osAllocMem client interruptsEnabled size ptr
    | .osFreeMem client interruptsEnabled ptr => some (s.osFreeMem client interruptsEnabled ptr)
    | .write client block bytes =>
      -- clients stay within the blocks they possess
      if (client, block) ∈ s.owned then
        some { s with
          heap := Function.update s.heap block
            ((s.heap block).map fun cell => { cell with bytes := bytes }) }
      else none

/-- The number of `Maintain` calls that passed the guard and have not returned. -/
def maintainCalls (s : State) : ℕ := s.calls.countP (·.isMaintain)

end State

/-- An empty pool and an empty heap. -/
def initial : State := {}

/-- The allocator, with an empty pool and an empty heap at first. -/
def allocator : TransitionSystem State Action := .ofStep (· = initial) State.step

/-! ## What a step changes

Each lemma names the part of the state an action leaves alone, so that an
invariant need not follow an action that does not concern it. -/

variable {s t : State} {a : Action} {pc : Pc} {ptr : Ptr} {client : Client}

@[simp] theorem free_pool : (s.free ptr).pool = s.pool := by
  unfold State.free
  split
  · rfl
  · split <;> rfl

@[simp] theorem free_halted : (s.free ptr).halted = s.halted := by
  unfold State.free
  split
  · rfl
  · split <;> rfl

@[simp] theorem free_calls : (s.free ptr).calls = s.calls := by
  unfold State.free
  split
  · rfl
  · split <;> rfl

@[simp] theorem hand_pool : (s.hand client ptr).pool = s.pool := by cases ptr <;> rfl

@[simp] theorem hand_halted : (s.hand client ptr).halted = s.halted := by cases ptr <;> rfl

@[simp] theorem hand_calls : (s.hand client ptr).calls = s.calls := by cases ptr <;> rfl

@[simp] theorem surrender_pool : (s.surrender client ptr).pool = s.pool := by cases ptr <;> rfl

@[simp] theorem surrender_halted : (s.surrender client ptr).halted = s.halted := by
  cases ptr <;> rfl

@[simp] theorem surrender_calls : (s.surrender client ptr).calls = s.calls := by cases ptr <;> rfl

theorem calloc_eq_some {size : ℕ} (ran : s.calloc size ptr = some t) :
    t.pool = s.pool ∧ t.calls = s.calls ∧ t.halted = s.halted ∧ t.owned = s.owned := by
  cases ptr with
  | none =>
    obtain rfl := Option.some.inj ran
    exact ⟨rfl, rfl, rfl, rfl⟩
  | some block =>
    simp only [State.calloc] at ran
    split at ran
    · obtain rfl := Option.some.inj ran
      exact ⟨rfl, rfl, rfl, rfl⟩
    · exact nomatch ran

/-! ## The moves of a step

`Moves s a t` is `s.step a = some t` with the branches told apart: the calls of the
pool, and each way through `os_alloc_mem` and `os_free_mem`. -/

/-- Everything a step can do, with its guards. -/
inductive Moves (s : State) : Action → State → Prop
  | maintain : Moves s .maintain (s.proceed s.calls s.pool.maintain)
  | reclaimAll : Moves s .reclaimAll (s.proceed s.calls (s.pool.reclaimAll Pool.reclaimOrder))
  | free {pc next : Pc} (member : pc ∈ s.calls) (moved : pc.afterFree = some next) :
      Moves s (.free pc) { s.free pc.ptr with calls := next ::ₘ s.calls.erase pc }
  | calloc {pc next : Pc} {ptr : Ptr} {size : ℕ} {u : State} (member : pc ∈ s.calls)
      (moved : pc.afterCalloc ptr = some (size, next)) (called : s.calloc size ptr = some u) :
      Moves s (.calloc pc ptr) { u with calls := next ::ₘ u.calls.erase pc }
  | resume {pc : Pc} {outcome : Except Halt (Pool × Option Pc)} (member : pc ∈ s.calls)
      (resumed : s.pool.resume pc = some outcome) :
      Moves s (.resume pc) (s.proceed (s.calls.erase pc) outcome)
  | allocHeap {client : Client} {size : ℕ} {ptr : Ptr} {u : State}
      (called : s.calloc size ptr = some u) :
      Moves s (.osAllocMem client true size ptr) (u.hand client ptr)
  | allocHalt {client : Client} {size : ℕ} {halt : Halt}
      (returned : s.pool.alloc size = some (.error halt)) :
      Moves s (.osAllocMem client false size none) { s with halted := some halt }
  | allocPool {client : Client} {size : ℕ} {ptr : Ptr} {pool : Pool}
      (returned : s.pool.alloc size = some (.ok (ptr, pool))) :
      Moves s (.osAllocMem client false size ptr) ({ s with pool := pool }.hand client ptr)
  | freeHeap {client : Client} {ptr : Ptr} :
      Moves s (.osFreeMem client true ptr) ((s.free ptr).surrender client ptr)
  | freeHalt {client : Client} {ptr : Ptr} {halt : Halt}
      (returned : s.pool.free ptr = .error halt) :
      Moves s (.osFreeMem client false ptr) { s with halted := some halt }
  | freePool {client : Client} {ptr : Ptr} {pool : Pool} (returned : s.pool.free ptr = .ok pool) :
      Moves s (.osFreeMem client false ptr) ({ s with pool := pool }.surrender client ptr)
  | write {client : Client} {block : Block} {bytes : List (BitVec 8)}
      (owned : (client, block) ∈ s.owned) :
      Moves s (.write client block bytes) { s with
        heap := Function.update s.heap block
          ((s.heap block).map fun cell => { cell with bytes := bytes }) }

theorem moves_of_osAllocMem {interruptsEnabled : Bool} {size : ℕ}
    (ran : s.osAllocMem client interruptsEnabled size ptr = some t) :
    Moves s (.osAllocMem client interruptsEnabled size ptr) t := by
  cases interruptsEnabled with
  | true =>
    obtain ⟨u, called, rfl⟩ := Option.map_eq_some_iff.mp ran
    exact .allocHeap called
  | false =>
    obtain ⟨outcome, returned, ran⟩ := Option.bind_eq_some_iff.mp ran
    cases outcome with
    | error halt =>
      obtain ⟨rfl, rfl⟩ := of_guarded ran
      exact .allocHalt returned
    | ok found =>
      obtain ⟨rfl, rfl⟩ := of_guarded ran
      exact .allocPool returned

theorem moves_osFreeMem (s : State) (client : Client) (interruptsEnabled : Bool) (ptr : Ptr) :
    Moves s (.osFreeMem client interruptsEnabled ptr)
      (s.osFreeMem client interruptsEnabled ptr) := by
  cases interruptsEnabled with
  | true => exact .freeHeap
  | false =>
    simp only [State.osFreeMem, Bool.false_eq_true, if_false]
    split
    · exact .freeHalt ‹_›
    · exact .freePool ‹_›

/-- Nothing runs after a panic. -/
theorem running_of_step (taken : s.step a = some t) : s.halted = none := by
  unfold State.step at taken
  split at taken
  · cases taken
  · rename_i running
    simpa using running

theorem moves_of_step (taken : s.step a = some t) : Moves s a t := by
  unfold State.step at taken
  split at taken
  · cases taken
  · -- a halted system takes no step, and every guard gives a premise of a rule
    cases a with
    | maintain =>
      obtain rfl := Option.some.inj taken
      exact .maintain
    | reclaimAll =>
      obtain rfl := Option.some.inj taken
      exact .reclaimAll
    | free pc =>
      obtain ⟨member, taken⟩ := Option.ite_none_right_eq_some.mp taken
      obtain ⟨next, moved, rfl⟩ := Option.map_eq_some_iff.mp taken
      exact .free member moved
    | calloc pc ptr =>
      obtain ⟨member, taken⟩ := Option.ite_none_right_eq_some.mp taken
      obtain ⟨⟨size, next⟩, moved, taken⟩ := Option.bind_eq_some_iff.mp taken
      obtain ⟨u, called, rfl⟩ := Option.map_eq_some_iff.mp taken
      exact .calloc member moved called
    | resume pc =>
      obtain ⟨member, taken⟩ := Option.ite_none_right_eq_some.mp taken
      obtain ⟨outcome, resumed, rfl⟩ := Option.map_eq_some_iff.mp taken
      exact .resume member resumed
    | osAllocMem client interruptsEnabled size ptr => exact moves_of_osAllocMem taken
    | osFreeMem client interruptsEnabled ptr =>
      obtain rfl := Option.some.inj taken
      exact moves_osFreeMem s client interruptsEnabled ptr
    | write client block bytes =>
      obtain ⟨owned, rfl⟩ := of_guarded taken
      exact .write owned

end NvidiaHaiku.IntrSafePool
